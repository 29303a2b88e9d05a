import Mathlib.Data.List.Basic
import SolidityLint.Text.Newlines

/-! Line ends written as newlines. A line ends with a newline, or with a return that no newline follows (`EndsAt`), so a
    return and the newline behind it are one line end. The text that is read has a newline for each of them, and no
    return. -/

namespace SolidityLint.Text

/-! ### Line ends -/

section

variable {α : Type} [DecidableEq α] {cr lf : α}

/-- Whether a line ends with the sign at a place, of a text with these signs for the return and the newline. -/
def EndsAt (cr lf : α) (signs : List α) (place : Nat) : Prop :=
  signs[place]? = some lf ∨ signs[place]? = some cr ∧ signs[place + 1]? ≠ some lf

instance (cr lf : α) (signs : List α) : DecidablePred (EndsAt cr lf signs) :=
  fun _ => inferInstanceAs (Decidable (_ ∨ _))

/-- The number of line ends. -/
def lineEnds (cr lf : α) (signs : List α) : Nat :=
  (List.range signs.length).countP fun place => EndsAt cr lf signs place

theorem lineEnds_cons (sign : α) (rest : List α) :
    lineEnds cr lf (sign :: rest) =
      lineEnds cr lf rest + if sign = lf ∨ sign = cr ∧ rest.head? ≠ some lf then 1 else 0 := by
  have next (place : Nat) : EndsAt cr lf (sign :: rest) (place + 1) ↔ EndsAt cr lf rest place := by
    simp [EndsAt]
  have first : EndsAt cr lf (sign :: rest) 0 ↔ sign = lf ∨ sign = cr ∧ rest.head? ≠ some lf := by
    simp [EndsAt, List.head?_eq_getElem?]
  rw [lineEnds, List.length_cons, List.range_succ_eq_map, List.countP_cons, List.countP_map]
  simp only [Function.comp_def, Nat.succ_eq_add_one, next, first, decide_eq_true_eq]
  rfl

/-- Signs other than these two do not count. -/
theorem lineEnds_append {front : List α} (other : ∀ sign ∈ front, sign ≠ cr ∧ sign ≠ lf) (rest : List α) :
    lineEnds cr lf (front ++ rest) = lineEnds cr lf rest := by
  induction front with
  | nil => rfl
  | cons sign front ih =>
    obtain ⟨⟨noReturn, noNewline⟩, others⟩ := List.forall_mem_cons.mp other
    rw [List.cons_append, lineEnds_cons, if_neg (by simp [noReturn, noNewline]), Nat.add_zero, ih others]

end

/-! ### Newlines in place of line ends -/

/-- A text and the same text with a newline in place of each line end. -/
inductive Unifies : List Char → List Char → Prop
  | nil : Unifies [] []
  | pair {rest cs : List Char} (others : Unifies rest cs) : Unifies ('\r' :: '\n' :: rest) ('\n' :: cs)
  | single {rest cs : List Char} (alone : rest.head? ≠ some '\n') (others : Unifies rest cs) :
    Unifies ('\r' :: rest) ('\n' :: cs)
  | other {c : Char} {rest cs : List Char} (noReturn : c ≠ '\r') (others : Unifies rest cs) :
    Unifies (c :: rest) (c :: cs)

theorem exists_unifyNewlinesFrom (done cs : List Char) :
    ∃ text, unifyNewlinesFrom done cs = done.reverse ++ text ∧ Unifies cs text := by
  fun_induction unifyNewlinesFrom done cs with
  | case1 done => exact ⟨[], (List.append_nil _).symm, .nil⟩
  | case2 done rest ih =>
    obtain ⟨text, made, others⟩ := ih
    exact ⟨'\n' :: text, by rw [made]; simp, .pair others⟩
  | case3 done rest alone ih =>
    obtain ⟨text, made, others⟩ := ih
    refine ⟨'\n' :: text, by rw [made]; simp, .single (fun newline => ?_) others⟩
    obtain ⟨more, same⟩ := List.head?_eq_some_iff.mp newline
    exact alone more same
  | case4 done c rest _ noReturn ih =>
    obtain ⟨text, made, others⟩ := ih
    exact ⟨c :: text, by rw [made]; simp, .other noReturn others⟩

theorem unifies_unifyNewlines (cs : List Char) : Unifies cs (unifyNewlines cs) := by
  obtain ⟨text, made, others⟩ := exists_unifyNewlinesFrom [] cs
  rwa [unifyNewlines, made, List.reverse_nil, List.nil_append]

namespace Unifies

variable {cs text : List Char}

/-- There is one such text. -/
theorem unique {text' : List Char} (h : Unifies cs text) (h' : Unifies cs text') : text = text' := by
  induction h generalizing text' with
  | nil =>
    cases h'
    rfl
  | pair others ih =>
    cases h' with
    | pair others' => rw [ih others']
    | single alone => exact absurd rfl alone
    | other noReturn => exact absurd rfl noReturn
  | single alone others ih =>
    cases h' with
    | pair => exact absurd rfl alone
    | single _ others' => rw [ih others']
    | other noReturn => exact absurd rfl noReturn
  | other noReturn others ih =>
    cases h' with
    | pair | single => exact absurd rfl noReturn
    | other _ others' => rw [ih others']

theorem return_notMem (h : Unifies cs text) : '\r' ∉ text := by
  induction h with
  | nil => exact List.not_mem_nil
  | pair _ ih | single _ _ ih => exact fun here => ih (List.mem_of_ne_of_mem (by decide) here)
  | other noReturn _ ih => exact fun here => ih (List.mem_of_ne_of_mem (Ne.symm noReturn) here)

/-- There are as many newlines as there were line ends. -/
theorem count_newline (h : Unifies cs text) : text.count '\n' = lineEnds '\r' '\n' cs := by
  induction h with
  | nil => rfl
  | pair _ ih => simp [lineEnds_cons, ih]
  | single alone _ ih => simp [lineEnds_cons, ih, alone]
  | other noReturn _ ih => simp [lineEnds_cons, List.count_cons, ih, noReturn]

theorem length_le (h : Unifies cs text) : text.length ≤ cs.length := by
  induction h with
  | nil => exact Nat.le_refl _
  | pair _ ih => exact Nat.le_succ_of_le (Nat.succ_le_succ ih)
  | single _ _ ih | other _ _ ih => exact Nat.succ_le_succ ih

end Unifies

end SolidityLint.Text
