import Mathlib.Data.List.Basic
import SolidityLint.Text.Raw
import SolidityLint.Text.Split

/-! Texts put together with a separator between them. What has no separator in it is found again. -/

namespace SolidityLint

namespace Text

theorem mem_joinWith {α : Type} {separator c : α} {parts : List (List α)} {part : List α} (hp : part ∈ parts)
    (hc : c ∈ part) : c ∈ joinWith separator parts := by
  induction parts with
  | nil => cases hp
  | cons first rest ih =>
    cases rest with
    | nil => exact List.mem_singleton.mp hp ▸ hc
    | cons next others =>
      rw [joinWith_cons_cons, List.mem_append, List.mem_cons]
      rcases List.mem_cons.mp hp with rfl | hp
      · exact Or.inl hc
      · exact Or.inr (Or.inr (ih hp))

theorem eq_or_mem_of_mem_joinWith {α : Type} {separator c : α} {parts : List (List α)}
    (h : c ∈ joinWith separator parts) : c = separator ∨ ∃ part ∈ parts, c ∈ part := by
  induction parts with
  | nil => cases h
  | cons first rest ih =>
    cases rest with
    | nil => exact Or.inr ⟨first, List.mem_cons_self, h⟩
    | cons next others =>
      rw [joinWith_cons_cons, List.mem_append, List.mem_cons] at h
      rcases h with here | same | there
      · exact Or.inr ⟨first, List.mem_cons_self, here⟩
      · exact Or.inl same
      · exact (ih there).imp_right fun ⟨part, hp, hc⟩ => ⟨part, List.mem_cons_of_mem _ hp, hc⟩

/-- A part stands whole in what is put together. -/
theorem infix_joinWith {α : Type} (separator : α) {parts : List (List α)} {part : List α} (hp : part ∈ parts) :
    part <:+: joinWith separator parts := by
  induction parts with
  | nil => cases hp
  | cons first rest ih =>
    cases rest with
    | nil =>
      rw [List.mem_singleton.mp hp]
      exact List.infix_rfl
    | cons next others =>
      rw [joinWith_cons_cons]
      rcases List.mem_cons.mp hp with rfl | hp
      · exact (List.prefix_append part _).isInfix
      · exact (ih hp).trans ((List.suffix_cons separator _).trans (List.suffix_append first _)).isInfix

/-- The first parts put together stand in front of all of them. -/
theorem joinWith_take_prefix {α : Type} (separator : α) (parts : List (List α)) (count : Nat) :
    joinWith separator (parts.take count) <+: joinWith separator parts := by
  induction parts generalizing count with
  | nil => cases count <;> exact List.prefix_rfl
  | cons part rest ih =>
    match count, rest with
    | 0, _ => exact List.nil_prefix
    | 1, [] => exact List.prefix_rfl
    | count + 2, [] => exact List.prefix_rfl
    | 1, next :: others => exact List.prefix_append part _
    | count + 2, next :: others =>
      rw [List.take_succ_cons, List.take_succ_cons, joinWith_cons_cons, joinWith_cons_cons]
      exact (List.prefix_append_right_inj part).mpr (List.cons_prefix_cons.mpr ⟨rfl, ih (count + 1)⟩)

/-- The pieces of a text make it again. -/
theorem joinWith_splitOn {α : Type} [DecidableEq α] (separator : α) (cs : List α) :
    joinWith separator (splitOn separator cs) = cs := by
  induction cs with
  | nil => rfl
  | cons c rest ih =>
    rw [splitOn_cons]
    cases pieces : splitOn separator rest with
    | nil => exact absurd pieces (splitOn_ne_nil separator rest)
    | cons first others =>
      rw [pieces] at ih
      rw [consPiece]
      split
      · rename_i same
        rw [joinWith_cons_cons, ih, same, List.nil_append]
      · rw [← ih]
        cases others <;> rfl

theorem mem_of_mem_splitOn {α : Type} [DecidableEq α] {separator c : α} {cs piece : List α}
    (h : piece ∈ splitOn separator cs) (hc : c ∈ piece) : c ∈ cs := by
  induction cs generalizing piece with
  | nil =>
    obtain rfl := List.mem_singleton.mp h
    cases hc
  | cons first rest ih =>
    rw [splitOn_cons] at h
    cases pieces : splitOn separator rest with
    | nil => exact absurd pieces (splitOn_ne_nil separator rest)
    | cons next others =>
      rw [pieces] at h ih
      rw [consPiece] at h
      split at h
      · rcases List.mem_cons.mp h with rfl | h
        · cases hc
        · exact List.mem_cons_of_mem _ (ih h hc)
      · rcases List.mem_cons.mp h with rfl | h
        · rcases List.mem_cons.mp hc with rfl | hc
          · exact List.mem_cons_self
          · exact List.mem_cons_of_mem _ (ih List.mem_cons_self hc)
        · exact List.mem_cons_of_mem _ (ih (List.mem_cons_of_mem _ h) hc)

theorem flatMap_splitOn_eq_self {α : Type} [DecidableEq α] {separator : α} {parts : List (List α)}
    (h : ∀ part ∈ parts, separator ∉ part) : parts.flatMap (splitOn separator) = parts := by
  induction parts with
  | nil => rfl
  | cons part rest ih =>
    obtain ⟨own, others⟩ := List.forall_mem_cons.mp h
    rw [List.flatMap_cons, splitOn_of_notMem own, ih others, List.singleton_append]

theorem joinWith_injective {α : Type} [DecidableEq α] {separator : α} {parts parts' : List (List α)} (hn : parts ≠ [])
    (hn' : parts' ≠ []) (h : ∀ part ∈ parts, separator ∉ part) (h' : ∀ part ∈ parts', separator ∉ part)
    (he : joinWith separator parts = joinWith separator parts') : parts = parts' := by
  have same := congrArg (splitOn separator) he
  rwa [splitOn_joinWith_eq_flatMap _ hn, splitOn_joinWith_eq_flatMap _ hn', flatMap_splitOn_eq_self h,
    flatMap_splitOn_eq_self h'] at same

end Text

namespace RawText

theorem points_joined (separator : CodePoint) (parts : List RawText) :
    (joined ⟨[separator]⟩ parts).points = Text.joinWith separator (parts.map points) := by
  induction parts with
  | nil => rfl
  | cons part rest ih =>
    cases rest with
    | nil => rfl
    | cons next others =>
      rw [List.map_cons, List.map_cons, Text.joinWith_cons_cons, ← List.map_cons, ← ih]
      simp [joined]

/-- Parts are found again in the text they make. -/
theorem joined_injective {separator : CodePoint} {parts parts' : List RawText} (hn : parts ≠ []) (hn' : parts' ≠ [])
    (h : ∀ part ∈ parts, separator ∉ part.points) (h' : ∀ part ∈ parts', separator ∉ part.points)
    (he : joined ⟨[separator]⟩ parts = joined ⟨[separator]⟩ parts') : parts = parts' := by
  have same := congrArg points he
  rw [points_joined, points_joined] at same
  refine (List.map_inj_right fun _ _ => points_injective).mp (Text.joinWith_injective ?_ ?_ ?_ ?_ same)
  · exact fun e => hn (List.map_eq_nil_iff.mp e)
  · exact fun e => hn' (List.map_eq_nil_iff.mp e)
  · exact List.forall_mem_map.mpr h
  · exact List.forall_mem_map.mpr h'

end RawText

end SolidityLint
