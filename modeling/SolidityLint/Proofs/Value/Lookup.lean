import SolidityLint.Value.Basic

/-! Texts as keys of a mapping. A mapping that is read has a text as a key once at most; then what is found under the
    text does not depend on the order of the entries. -/

namespace SolidityLint.Value

variable {α : Type} {name : RawText} {entries entries' : List (Value × Value)}

/-- Whether the key of an entry is this text. -/
def hasKey (name : RawText) (entry : Value × α) : Bool :=
  match entry.1 with
  | .str s => s = name
  | _ => false

/-- What is found under a text; null if it is no key. -/
def lookup (name : RawText) (entries : List (Value × Value)) : Value :=
  ((entries.find? (hasKey name)).map (·.2)).getD .null

theorem hasKey_iff {entry : Value × α} : hasKey name entry = true ↔ entry.1 = .str name := by
  unfold hasKey
  split
  · rename_i s key
    rw [key, decide_eq_true_iff, Value.str.injEq]
  · rename_i other
    exact ⟨nofun, fun h => absurd h (other name)⟩

/-! ### Mappings that are read -/

/-- A text that is a key once at most is so when a key is set, whether the key is new or not. -/
theorem countP_hasKey_insertEntry {entries : List (Value × α)} (once : entries.countP (hasKey name) ≤ 1)
    (key : Value) (value : α) : (insertEntry entries key value).countP (hasKey name) ≤ 1 := by
  unfold insertEntry
  split
  · rw [List.countP_map]
    refine Nat.le_trans (Nat.le_of_eq (List.countP_congr fun entry _ => ?_)) once
    rw [Function.comp_apply]
    split <;> rfl
  · rename_i fresh
    rw [List.countP_append]
    by_cases same : key = .str name
    · -- Otherwise the text would be the key that is set.
      have none : entries.countP (hasKey name) = 0 := by
        refine List.countP_eq_zero.mpr fun entry he has => fresh (List.any_eq_true.mpr ⟨entry, he, ?_⟩)
        rw [hasKey_iff.mp has, same]
        simp [sameKey]
      rw [none, Nat.zero_add]
      exact List.countP_le_length
    · have other : hasKey name (key, value) = false := Bool.eq_false_iff.mpr fun has => same (hasKey_iff.mp has)
      rw [List.countP_cons_of_neg (by simp [other]), List.countP_nil]
      exact once

theorem countP_hasKey_insert_of_ne {key : Value} (h : key ≠ .str name) (value : Value)
    (front back : List (Value × Value)) :
    (front ++ (key, value) :: back).countP (hasKey name) = (front ++ back).countP (hasKey name) := by
  rw [List.countP_append, List.countP_append, List.countP_cons_of_neg fun has => h (hasKey_iff.mp has)]

/-! ### Looking up -/

theorem lookup_cons_self (name : RawText) (value : Value) (rest : List (Value × Value)) :
    lookup name ((.str name, value) :: rest) = value := by
  rw [lookup, List.find?_cons_of_pos (hasKey_iff.mpr rfl)]
  rfl

theorem lookup_cons_of_ne {key : Value} (h : key ≠ .str name) (value : Value) (rest : List (Value × Value)) :
    lookup name ((key, value) :: rest) = lookup name rest := by
  rw [lookup, lookup, List.find?_cons_of_neg fun has => h (hasKey_iff.mp has)]

theorem lookup_eq_null_of_countP_eq_zero (none : entries.countP (hasKey name) = 0) : lookup name entries = .null := by
  rw [lookup, List.find?_eq_none.mpr (List.countP_eq_zero.mp none)]
  rfl

theorem lookup_eq_null_or_mem (name : RawText) (entries : List (Value × Value)) :
    lookup name entries = .null ∨ (.str name, lookup name entries) ∈ entries := by
  unfold lookup
  cases found : entries.find? (hasKey name) with
  | none => exact Or.inl rfl
  | some entry =>
    obtain ⟨key, value⟩ := entry
    obtain rfl : key = .str name := hasKey_iff.mp (List.find?_some found)
    exact Or.inr (List.mem_of_find?_eq_some found)

theorem lookup_eq_of_mem (once : entries.countP (hasKey name) ≤ 1) {value : Value}
    (h : (.str name, value) ∈ entries) : lookup name entries = value := by
  induction entries with
  | nil => cases h
  | cons entry rest ih =>
    obtain ⟨key, first⟩ := entry
    rcases List.mem_cons.mp h with here | later
    · obtain ⟨rfl, rfl⟩ := Prod.mk.inj here
      exact lookup_cons_self name value rest
    · have has : hasKey name (Value.str name, value) = true := hasKey_iff.mpr rfl
      by_cases same : key = .str name
      · rw [List.countP_cons_of_pos (hasKey_iff.mpr same)] at once
        have there : 0 < rest.countP (hasKey name) := List.countP_pos_iff.mpr ⟨_, later, has⟩
        omega
      · rw [List.countP_cons_of_neg fun has => same (hasKey_iff.mp has)] at once
        rw [lookup_cons_of_ne same, ih once later]

theorem find?_hasKey_perm (h : entries.Perm entries') (once : entries.countP (hasKey name) ≤ 1) :
    entries'.find? (hasKey name) = entries.find? (hasKey name) := by
  have found := h.filter (hasKey name)
  rw [List.countP_eq_length_filter] at once
  have same : entries'.filter (hasKey name) = entries.filter (hasKey name) := by
    match he : entries.filter (hasKey name), once with
    | [], _ => exact List.nil_perm.mp (he ▸ found)
    | [entry], _ => exact List.singleton_perm.mp (he ▸ found) |>.symm
  rw [← List.head?_filter, ← List.head?_filter, same]

theorem lookup_perm (h : entries.Perm entries') (once : entries.countP (hasKey name) ≤ 1) :
    lookup name entries' = lookup name entries := by
  rw [lookup, lookup, find?_hasKey_perm h once]

theorem entry?_eq (name : RawText) (entries : List (Value × Value)) :
    entry? name entries = (entries.find? (hasKey name)).map (·.2) := rfl

theorem entry?_perm (h : entries.Perm entries') (once : entries.countP (hasKey name) ≤ 1) :
    entry? name entries' = entry? name entries := by
  rw [entry?_eq, entry?_eq, find?_hasKey_perm h once]

theorem lookup_insert_of_ne {key : Value} (h : key ≠ .str name) (value : Value) (front back : List (Value × Value)) :
    lookup name (front ++ (key, value) :: back) = lookup name (front ++ back) := by
  rw [lookup, lookup, List.find?_append, List.find?_append,
    List.find?_cons_of_neg fun has => h (hasKey_iff.mp has)]

/-- An entry in which the value is replaced by another is found where it was found before, and only there. -/
theorem lookup_replace (name : RawText) (key value value' : Value) (front back : List (Value × Value)) :
    lookup name (front ++ (key, value') :: back) = lookup name (front ++ (key, value) :: back) ∨
      key = .str name ∧ lookup name (front ++ (key, value) :: back) = value ∧
        lookup name (front ++ (key, value') :: back) = value' := by
  by_cases same : key = .str name
  · subst same
    induction front with
    | nil => exact Or.inr ⟨rfl, lookup_cons_self _ _ _, lookup_cons_self _ _ _⟩
    | cons entry rest ih =>
      obtain ⟨first, there⟩ := entry
      by_cases here : first = .str name
      · subst here
        exact Or.inl ((lookup_cons_self _ _ _).trans (lookup_cons_self _ _ _).symm)
      · simpa only [List.cons_append, lookup_cons_of_ne here] using ih
  · rw [lookup_insert_of_ne same, lookup_insert_of_ne same]
    exact Or.inl rfl

end SolidityLint.Value
