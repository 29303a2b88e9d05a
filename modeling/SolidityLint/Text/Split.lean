/-! Cutting a text at a separator and putting the pieces together again. A text always has at least one piece. -/

namespace SolidityLint.Text

variable {α : Type} [DecidableEq α]

/-- Puts an element in front of the first piece, or starts a new piece if it is the separator. -/
def consPiece (separator c : α) : List (List α) → List (List α)
  | [] => if c = separator then [[], []] else [[c]]
  | piece :: rest => if c = separator then [] :: piece :: rest else (c :: piece) :: rest

/-- The pieces of a text between its separators. -/
def splitOn (separator : α) (cs : List α) : List (List α) :=
  cs.foldr (consPiece separator) [[]]

/-- The pieces with the separator between them. -/
def joinWith {α : Type} (separator : α) : List (List α) → List α
  | [] => []
  | [piece] => piece
  | piece :: rest => piece ++ separator :: joinWith separator rest

/-- What follows a word that the text has to start with. -/
def afterWord? (word cs : List α) : Option (List α) :=
  if word.isPrefixOf cs then some (cs.drop word.length) else none

@[simp] theorem splitOn_nil (separator : α) : splitOn separator [] = [[]] := rfl

@[simp] theorem splitOn_cons (separator c : α) (cs : List α) :
    splitOn separator (c :: cs) = consPiece separator c (splitOn separator cs) := rfl

theorem splitOn_ne_nil (separator : α) (cs : List α) : splitOn separator cs ≠ [] := by
  cases cs with
  | nil => simp
  | cons c cs => rw [splitOn_cons]; unfold consPiece; split <;> split <;> simp

/-- There is one piece more than there are separators. -/
theorem length_splitOn (separator : α) (cs : List α) : (splitOn separator cs).length = cs.count separator + 1 := by
  induction cs with
  | nil => rfl
  | cons c rest ih =>
    rw [splitOn_cons]
    cases pieces : splitOn separator rest with
    | nil => exact absurd pieces (splitOn_ne_nil separator rest)
    | cons first others =>
      rw [pieces] at ih
      rw [consPiece]
      split <;> simp_all

omit [DecidableEq α] in
theorem joinWith_cons_cons (separator : α) (piece next : List α) (rest : List (List α)) :
    joinWith separator (piece :: next :: rest) = piece ++ separator :: joinWith separator (next :: rest) := rfl

/-- No piece has the separator in it. -/
theorem separator_notMem_of_mem_splitOn {separator : α} {cs piece : List α} (h : piece ∈ splitOn separator cs) :
    separator ∉ piece := by
  induction cs generalizing piece with
  | nil =>
    obtain rfl := List.mem_singleton.mp h
    exact List.not_mem_nil
  | cons c rest ih =>
    rw [splitOn_cons] at h
    cases pieces : splitOn separator rest with
    | nil => exact absurd pieces (splitOn_ne_nil separator rest)
    | cons first others =>
      rw [pieces] at h ih
      rw [consPiece] at h
      split at h
      · rcases List.mem_cons.mp h with rfl | h
        · exact List.not_mem_nil
        · exact ih h
      · rename_i different
        rcases List.mem_cons.mp h with rfl | h
        · exact List.not_mem_cons_of_ne_of_not_mem (fun e => different e.symm) (ih List.mem_cons_self)
        · exact ih (List.mem_cons_of_mem _ h)

theorem splitOn_of_notMem {separator : α} {piece : List α} (h : separator ∉ piece) :
    splitOn separator piece = [piece] := by
  induction piece with
  | nil => rfl
  | cons c rest ih =>
    obtain ⟨hc, hr⟩ := List.ne_and_not_mem_of_not_mem_cons h
    rw [splitOn_cons, ih hr, consPiece, if_neg fun e => hc e.symm]

/-- A separator cuts a text in two, each with its own pieces. -/
theorem splitOn_append (separator : α) (before after : List α) :
    splitOn separator (before ++ separator :: after) = splitOn separator before ++ splitOn separator after := by
  induction before with
  | nil =>
    rw [List.nil_append, splitOn_cons]
    cases pieces : splitOn separator after with
    | nil => exact absurd pieces (splitOn_ne_nil separator after)
    | cons first others => rw [consPiece, if_pos rfl, splitOn_nil, List.singleton_append]
  | cons c rest ih =>
    rw [List.cons_append, splitOn_cons, splitOn_cons, ih]
    cases pieces : splitOn separator rest with
    | nil => exact absurd pieces (splitOn_ne_nil separator rest)
    | cons first others =>
      rw [List.cons_append, consPiece, consPiece]
      split <;> rfl

/-- The pieces of what is put together are those of its parts. -/
theorem splitOn_joinWith_eq_flatMap (separator : α) {parts : List (List α)} (hn : parts ≠ []) :
    splitOn separator (joinWith separator parts) = parts.flatMap (splitOn separator) := by
  induction parts with
  | nil => exact absurd rfl hn
  | cons part rest ih =>
    cases rest with
    | nil => rw [joinWith, List.flatMap_singleton]
    | cons next others =>
      rw [joinWith_cons_cons, splitOn_append, ih (List.cons_ne_nil next others)]
      exact List.flatMap_cons.symm

omit [DecidableEq α] in
/-- A text can be cut in one way only in front of the first place of an element. -/
theorem cut_unique {c : α} {before before' after after' : List α} (hb : c ∉ before) (hb' : c ∉ before')
    (h : before ++ c :: after = before' ++ c :: after') : before = before' ∧ after = after' := by
  induction before generalizing before' with
  | nil =>
    cases before' with
    | nil => exact ⟨rfl, (List.cons.inj h).2⟩
    | cons d rest =>
      obtain ⟨rfl, -⟩ := List.cons.inj h
      exact absurd List.mem_cons_self hb'
  | cons d rest ih =>
    cases before' with
    | nil =>
      obtain ⟨rfl, -⟩ := List.cons.inj h
      exact absurd List.mem_cons_self hb
    | cons d' rest' =>
      obtain ⟨rfl, hr⟩ := List.cons.inj h
      obtain ⟨rfl, ha⟩ := ih (fun hm => hb (List.mem_cons_of_mem _ hm)) (fun hm => hb' (List.mem_cons_of_mem _ hm)) hr
      exact ⟨rfl, ha⟩

end SolidityLint.Text
