import SolidityLint.Proofs.Json.Pieces

/-! Documents that are read back. Every part of a printed document tells by its first character what it is, and by the
    character behind it where it ends, so a reader finds the document again that was printed, whatever the level it was
    printed at. This holds of all documents of scalar texts and whole numbers (`Json.Plain`); it is proved along the
    document. -/

namespace SolidityLint.Json

/-! ### White space between the parts -/

theorem skipSpace_newLine (level : Nat) (rest : List Char) : skipSpace (newLine level ++ rest) = skipSpace rest := by
  rw [skipSpace, newLine, List.cons_append, List.dropWhile_cons_of_pos (by decide), List.dropWhile_append_of_pos]
  · rfl
  · intro c hc
    rw [List.eq_of_mem_replicate hc]
    decide

/-- Whether a character can be the first one of a value: no white space, and no end of an array or an object. -/
def OpensValue (c : Char) : Prop :=
  c ∉ [' ', '\n', '\t', '\r', ']', '\x7d']

instance (c : Char) : Decidable (OpensValue c) :=
  inferInstanceAs (Decidable (_ ∉ _))

theorem skipSpace_cons {c : Char} (h : OpensValue c) (rest : List Char) : skipSpace (c :: rest) = c :: rest := by
  refine List.dropWhile_cons_of_neg fun space => h ?_
  simp only [Bool.or_eq_true, decide_eq_true_eq] at space
  rcases space with ((rfl | rfl) | rfl) | rfl <;> decide

theorem length_skipSpace_le (cs : List Char) : (skipSpace cs).length ≤ cs.length :=
  (List.dropWhile_suffix _).length_le

/-! ### Documents -/

/-- A document of scalar texts, whole numbers, words, arrays and objects. -/
inductive Plain : Json → Prop
  | null : Plain .null
  | bool (b : Bool) : Plain (.bool b)
  | int (n : Int) : Plain (.int n)
  | str (s : String) : Plain (.str (.ofString s))
  | arr {items : List Json} (each : ∀ item ∈ items, Plain item) : Plain (.arr items)
  | obj {members : List (RawText × Json)} (names : ∀ member ∈ members, ∃ name : String, member.1 = .ofString name)
      (each : ∀ member ∈ members, Plain member.2) : Plain (.obj members)

theorem opensValue_of_digit {c : Char} (h : c.isDigit = true ∨ c = '-') : OpensValue c := by
  rcases h with digit | rfl
  · intro hm
    simp only [List.mem_cons, List.not_mem_nil, or_false] at hm
    rcases hm with rfl | rfl | rfl | rfl | rfl | rfl <;> cases digit
  · decide

/-- A printed document starts with a character that opens a value. -/
theorem write_eq_cons {document : Json} (plain : document.Plain) (level : Nat) :
    ∃ first more, write level document = first :: more ∧ OpensValue first := by
  cases plain with
  | null => exact ⟨_, _, rfl, by decide⟩
  | bool b => cases b <;> exact ⟨_, _, rfl, by decide⟩
  | int n =>
    obtain ⟨first, more, spelled⟩ := List.exists_cons_of_ne_nil (l := intText n) (by
      cases n
      · exact Nat.toDigits_ne_nil
      · exact List.cons_ne_nil _ _)
    refine ⟨first, more, by rw [write, spelled], opensValue_of_digit ?_⟩
    exact isDigit_of_mem_intText (spelled ▸ List.mem_cons_self)
  | str s => exact ⟨'"', _, by rw [write, quote_ofString], by decide⟩
  | @arr items each =>
    cases items with
    | nil => exact ⟨_, _, rfl, by decide⟩
    | cons item items => exact ⟨'[', _, by rw [write]; simp only [List.cons_append]; rfl, by decide⟩
  | @obj members names each =>
    cases members with
    | nil => exact ⟨_, _, rfl, by decide⟩
    | cons member members => exact ⟨'\x7b', _, by rw [write]; simp only [List.cons_append]; rfl, by decide⟩

/-- A document is read back wherever it stands behind white space, and with it everything up to its end. Twice the
    length of the text, and two more, are calls enough. -/
def Reads (document : Json) : Prop :=
  ∀ (level fuel : Nat) (cs rest : List Char), skipSpace cs = write level document ++ rest → EndsNumber rest →
    2 * cs.length + 2 ≤ fuel → readValue fuel cs = some (document, rest)

theorem readScalar_of_digit {first : Char} (digit : first.isDigit = true) (fuel : Nat) (more : List Char) :
    readScalar fuel (first :: more) = readNumber (first :: more) ∧
      readScalar fuel ('-' :: first :: more) = readNumber ('-' :: first :: more) := by
  have other {c : Char} (h : c.isDigit = false) : first ≠ c := fun same => by
    rw [same, h] at digit
    cases digit
  constructor
  · unfold readScalar
    split
    all_goals first
      | rfl
      | (rename_i same; exact absurd (List.cons.inj same).1 (other (by decide)))
  · unfold readScalar
    split
    all_goals first
      | rfl
      | (rename_i same; exact absurd (List.cons.inj same).1 (by decide))
      | (rename_i same; exact absurd (List.cons.inj (List.cons.inj same).2).1 (other (by decide)))

theorem readScalar_intText (n : Int) {fuel : Nat} {rest : List Char} (ends : EndsNumber rest) :
    readScalar fuel (intText n ++ rest) = some (.int n, rest) := by
  rw [← readNumber_intText n ends]
  have digits (n : Nat) : ∃ first more, Nat.toDigits 10 n = first :: more ∧ first.isDigit = true := by
    obtain ⟨first, more, spelled⟩ := List.exists_cons_of_ne_nil (Nat.toDigits_ne_nil (b := 10) (n := n))
    exact ⟨first, more, spelled, Nat.isDigit_of_mem_toDigits (by decide) (by decide) (spelled ▸ List.mem_cons_self)⟩
  cases n with
  | ofNat n =>
    obtain ⟨first, more, spelled, digit⟩ := digits n
    rw [intText, spelled, List.cons_append, (readScalar_of_digit digit fuel _).1]
  | negSucc n =>
    obtain ⟨first, more, spelled, digit⟩ := digits (n + 1)
    rw [intText, spelled, List.cons_append, List.cons_append, (readScalar_of_digit digit fuel _).2]

theorem reads_of_scalar {document : Json} (scalar : ∀ level fuel rest, EndsNumber rest →
    (write level document ++ rest).length ≤ fuel →
      readScalar fuel (write level document ++ rest) = some (document, rest))
    (other : ∀ level, ∀ c ∈ (write level document).head?, c ≠ '[' ∧ c ≠ '\x7b')
    (plain : document.Plain) : Reads document := by
  intro level fuel cs rest start ends enough
  obtain ⟨fuel, rfl⟩ := Nat.exists_eq_succ_of_ne_zero (show fuel ≠ 0 by omega)
  obtain ⟨first, more, spelled, -⟩ := write_eq_cons plain level
  obtain ⟨bracket, brace⟩ := other level first (by simp [spelled])
  have short : (write level document ++ rest).length ≤ fuel := by
    have := length_skipSpace_le cs
    rw [start] at this
    omega
  rw [← scalar level fuel rest ends short]
  unfold readValue
  rw [start, spelled, List.cons_append]
  split
  · rename_i same
    exact absurd (List.cons.inj same).1 bracket
  · rename_i same
    exact absurd (List.cons.inj same).1 brace
  · rfl

theorem reads_null : Reads .null :=
  reads_of_scalar (fun _ _ _ _ _ => rfl) (fun _ c h => by cases h; decide) .null

theorem reads_bool (b : Bool) : Reads (.bool b) := by
  cases b
  · exact reads_of_scalar (fun _ _ _ _ _ => rfl) (fun _ c h => by cases h; decide) (.bool _)
  · exact reads_of_scalar (fun _ _ _ _ _ => rfl) (fun _ c h => by cases h; decide) (.bool _)

theorem reads_int (n : Int) : Reads (.int n) := by
  refine reads_of_scalar (fun _ _ _ ends _ => readScalar_intText n ends) (fun _ c h => ?_) (.int n)
  have number := isDigit_of_mem_intText (List.mem_of_mem_head? h)
  constructor
  · rintro rfl
    revert number
    decide
  · rintro rfl
    revert number
    decide

theorem reads_str (s : String) : Reads (.str (.ofString s)) := by
  refine reads_of_scalar (fun level fuel rest _ enough => ?_) (fun _ c h => ?_) (.str s)
  · rw [write] at enough ⊢
    have longer := length_lt_length_quote s
    rw [List.length_append] at enough
    obtain ⟨inside, spelled, read⟩ := readString_quote s rest fuel (by omega)
    rw [spelled, readScalar, read]
    rfl
  · rw [write, quote_ofString] at h
    cases h
    decide

/-- The items of an array are read back from where the first begins. -/
theorem readItems_write {item : Json} {items : List Json} (plain : ∀ i ∈ item :: items, i.Plain)
    (reads : ∀ i ∈ item :: items, Reads i) {level outer fuel : Nat} {cs rest : List Char}
    (start : skipSpace cs = write level item ++ (writeItems level items ++ (newLine outer ++ ']' :: rest)))
    (enough : 2 * cs.length + 3 ≤ fuel) : readItems fuel cs = some (item :: items, rest) := by
  induction items generalizing item fuel cs with
  | nil =>
    obtain ⟨fuel, rfl⟩ := Nat.exists_eq_succ_of_ne_zero (show fuel ≠ 0 by omega)
    have read := reads item List.mem_cons_self level fuel cs _ start (by rw [writeItems]; rintro c ⟨⟩; rfl) (by omega)
    have closed : skipSpace (writeItems level [] ++ (newLine outer ++ ']' :: rest)) = ']' :: rest := by
      rw [writeItems, List.nil_append, skipSpace_newLine]
      rfl
    rw [readItems, read]
    simp only [Option.bind_eq_bind, Option.bind_some, closed]
  | cons next items ih =>
    obtain ⟨fuel, rfl⟩ := Nat.exists_eq_succ_of_ne_zero (show fuel ≠ 0 by omega)
    have short := length_skipSpace_le cs
    rw [start] at short
    simp only [List.length_append, List.length_cons, writeItems] at short
    have read := reads item List.mem_cons_self level fuel cs _ start (by rw [writeItems]; rintro c ⟨⟩; rfl) (by omega)
    obtain ⟨first, more, spelled, opens⟩ := write_eq_cons (plain next (by simp)) level
    have behind : readItems fuel
        (newLine level ++ write level next ++ (writeItems level items ++ (newLine outer ++ ']' :: rest))) =
          some (next :: items, rest) := ih
      (fun i hi => plain i (List.mem_cons_of_mem _ hi)) (fun i hi => reads i (List.mem_cons_of_mem _ hi))
      (by rw [List.append_assoc, skipSpace_newLine, spelled, List.cons_append, skipSpace_cons opens])
      (by simp only [List.length_append, List.length_cons]; omega)
    have comma : skipSpace (writeItems level (next :: items) ++ (newLine outer ++ ']' :: rest)) =
        ',' :: (newLine level ++ write level next ++ (writeItems level items ++ (newLine outer ++ ']' :: rest))) := by
      simp only [writeItems, List.cons_append, List.append_assoc]
      exact skipSpace_cons (by decide) _
    rw [readItems, read]
    simp only [Option.bind_eq_bind, Option.bind_some, comma, behind]

/-- What is read behind a member: a comma and the others, or the end of the object. -/
def readBehind (member : RawText × Json) (fuel : Nat) (behind : List Char) :
    Option (List (RawText × Json) × List Char) :=
  match skipSpace behind with
  | ',' :: more => (readMembers fuel more).bind fun (members, after) => some (member :: members, after)
  | '\x7d' :: after => some ([member], after)
  | _ => none

theorem readMembers_of_member {name : String} {value : Json} (plain : value.Plain) (reads : Reads value)
    {level fuel : Nat} {cs behind : List Char}
    (start : skipSpace cs = writeMember level (.ofString name, value) ++ behind) (ends : EndsNumber behind)
    (enough : 2 * cs.length + 2 ≤ fuel) :
    readMembers (fuel + 1) cs = readBehind (.ofString name, value) fuel behind := by
  have short := length_skipSpace_le cs
  have longer := length_lt_length_quote name
  rw [start, writeMember] at short
  simp only [List.length_append, List.length_cons] at short
  obtain ⟨inside, spelled, named⟩ := readString_quote name (':' :: ' ' :: (write level value ++ behind)) fuel (by omega)
  have opened : skipSpace cs = '"' :: inside := by
    rw [start, writeMember, ← spelled]
    simp
  have colon : skipSpace (':' :: ' ' :: (write level value ++ behind)) = ':' :: ' ' :: (write level value ++ behind) :=
    skipSpace_cons (by decide) _
  obtain ⟨first, more, printed, opens⟩ := write_eq_cons plain level
  have read := reads level fuel (' ' :: (write level value ++ behind)) behind
    (by rw [printed, List.cons_append]; exact skipSpace_cons opens _) ends
    (by simp only [List.length_append, List.length_cons]; omega)
  rw [readMembers, opened]
  simp only [named, Option.bind_eq_bind, Option.bind_some, colon, read]
  rfl

/-- The members of an object are read back from where the first begins. -/
theorem readMembers_write {name : String} {value : Json} {members : List (RawText × Json)}
    (names : ∀ m ∈ members, ∃ name : String, m.1 = .ofString name)
    (plain : ∀ m ∈ (.ofString name, value) :: members, m.2.Plain)
    (reads : ∀ m ∈ (.ofString name, value) :: members, Reads m.2) {level outer fuel : Nat} {cs rest : List Char}
    (start : skipSpace cs = writeMember level (.ofString name, value) ++
      (writeMembers level members ++ (newLine outer ++ '\x7d' :: rest)))
    (enough : 2 * cs.length + 3 ≤ fuel) :
    readMembers fuel cs = some ((.ofString name, value) :: members, rest) := by
  induction members generalizing name value fuel cs with
  | nil =>
    obtain ⟨fuel, rfl⟩ := Nat.exists_eq_succ_of_ne_zero (show fuel ≠ 0 by omega)
    have closed : skipSpace (writeMembers level [] ++ (newLine outer ++ '\x7d' :: rest)) = '\x7d' :: rest := by
      rw [writeMembers, List.nil_append, skipSpace_newLine]
      rfl
    rw [readMembers_of_member (plain _ List.mem_cons_self) (reads _ List.mem_cons_self) start
      (by rw [writeMembers]; rintro c ⟨⟩; rfl) (by omega), readBehind, closed]
    rfl
  | cons next members ih =>
    obtain ⟨_, nextValue⟩ := next
    obtain ⟨⟨nextName, rfl⟩, otherNames⟩ := List.forall_mem_cons.mp names
    obtain ⟨fuel, rfl⟩ := Nat.exists_eq_succ_of_ne_zero (show fuel ≠ 0 by omega)
    have short := length_skipSpace_le cs
    rw [start] at short
    simp only [List.length_append, List.length_cons, writeMembers] at short
    have spaced : skipSpace (newLine level ++ writeMember level (.ofString nextName, nextValue) ++
        (writeMembers level members ++ (newLine outer ++ '\x7d' :: rest))) =
          writeMember level (.ofString nextName, nextValue) ++
            (writeMembers level members ++ (newLine outer ++ '\x7d' :: rest)) := by
      rw [List.append_assoc, skipSpace_newLine, writeMember, quote_ofString]
      exact skipSpace_cons (by decide) _
    have behind : readMembers fuel _ = _ := ih otherNames (fun m hm => plain m (List.mem_cons_of_mem _ hm))
      (fun m hm => reads m (List.mem_cons_of_mem _ hm)) spaced
      (by simp only [List.length_append, List.length_cons]; omega)
    have comma : skipSpace (writeMembers level ((.ofString nextName, nextValue) :: members) ++
        (newLine outer ++ '\x7d' :: rest)) =
          ',' :: (newLine level ++ writeMember level (.ofString nextName, nextValue) ++
            (writeMembers level members ++ (newLine outer ++ '\x7d' :: rest))) := by
      simp only [writeMembers, List.cons_append, List.append_assoc]
      exact skipSpace_cons (by decide) _
    rw [readMembers_of_member (plain _ List.mem_cons_self) (reads _ List.mem_cons_self) start
      (by rw [writeMembers]; rintro c ⟨⟩; rfl) (by omega), readBehind, comma]
    simp only [behind, Option.bind_some]

theorem readValue_of_bracket {fuel : Nat} {cs inside : List Char} (opened : skipSpace cs = '[' :: inside) :
    readValue (fuel + 1) cs = match skipSpace inside with
      | ']' :: after => some (.arr [], after)
      | _ => (readItems fuel inside).map fun (items, after) => (.arr items, after) := by
  rw [readValue, opened]
  rfl

theorem readValue_of_brace {fuel : Nat} {cs inside : List Char} (opened : skipSpace cs = '\x7b' :: inside) :
    readValue (fuel + 1) cs = match skipSpace inside with
      | '\x7d' :: after => some (.obj [], after)
      | _ => (readMembers fuel inside).map fun (members, after) => (.obj members, after) := by
  rw [readValue, opened]
  rfl

theorem reads_arr {items : List Json} (plain : ∀ item ∈ items, item.Plain) (reads : ∀ item ∈ items, Reads item) :
    Reads (.arr items) := by
  intro level fuel cs rest start ends enough
  obtain ⟨fuel, rfl⟩ := Nat.exists_eq_succ_of_ne_zero (show fuel ≠ 0 by omega)
  cases items with
  | nil =>
    rw [readValue, start]
    rfl
  | cons item items =>
    have short := length_skipSpace_le cs
    obtain ⟨first, more, spelled, opens⟩ := write_eq_cons (plain item List.mem_cons_self) (level + 1)
    have spaced : skipSpace (newLine (level + 1) ++ (write (level + 1) item ++ (writeItems (level + 1) items ++
        (newLine level ++ ']' :: rest)))) = write (level + 1) item ++ (writeItems (level + 1) items ++
        (newLine level ++ ']' :: rest)) := by
      rw [skipSpace_newLine, spelled]
      exact skipSpace_cons opens _
    have opened : skipSpace cs = '[' :: (newLine (level + 1) ++ (write (level + 1) item ++
        (writeItems (level + 1) items ++ (newLine level ++ ']' :: rest)))) := by
      rw [start, write]
      simp
    rw [opened, List.length_cons] at short
    have read : readItems fuel _ = _ := readItems_write plain reads spaced (by omega)
    rw [readValue_of_bracket opened]
    split
    · rename_i same
      rw [spaced, spelled] at same
      rw [(List.cons.inj same).1] at opens
      exact absurd opens (by decide)
    · rw [read]
      rfl

theorem reads_obj {members : List (RawText × Json)} (names : ∀ m ∈ members, ∃ name : String, m.1 = .ofString name)
    (plain : ∀ m ∈ members, m.2.Plain) (reads : ∀ m ∈ members, Reads m.2) : Reads (.obj members) := by
  intro level fuel cs rest start ends enough
  obtain ⟨fuel, rfl⟩ := Nat.exists_eq_succ_of_ne_zero (show fuel ≠ 0 by omega)
  cases members with
  | nil =>
    rw [readValue, start]
    rfl
  | cons member members =>
    obtain ⟨_, value⟩ := member
    obtain ⟨⟨name, rfl⟩, others⟩ := List.forall_mem_cons.mp names
    have short := length_skipSpace_le cs
    have spaced : skipSpace (newLine (level + 1) ++ (writeMember (level + 1) (.ofString name, value) ++
        (writeMembers (level + 1) members ++ (newLine level ++ '\x7d' :: rest)))) =
          writeMember (level + 1) (.ofString name, value) ++ (writeMembers (level + 1) members ++
            (newLine level ++ '\x7d' :: rest)) := by
      rw [skipSpace_newLine, writeMember, quote_ofString]
      exact skipSpace_cons (by decide) _
    have opened : skipSpace cs = '\x7b' :: (newLine (level + 1) ++ (writeMember (level + 1) (.ofString name, value) ++
        (writeMembers (level + 1) members ++ (newLine level ++ '\x7d' :: rest)))) := by
      rw [start, write]
      simp
    rw [opened, List.length_cons] at short
    have read : readMembers fuel _ = _ := readMembers_write others plain reads spaced (by omega)
    rw [readValue_of_brace opened]
    split
    · rename_i same
      rw [spaced, writeMember, quote_ofString] at same
      exact absurd (List.cons.inj same).1 (by decide)
    · rw [read]
      rfl

/-- Every document of scalar texts and whole numbers is read back. -/
theorem Plain.reads {document : Json} (plain : document.Plain) : Reads document := by
  induction plain with
  | null => exact reads_null
  | bool b => exact reads_bool b
  | int n => exact reads_int n
  | str s => exact reads_str s
  | arr each ih => exact reads_arr each ih
  | obj names each ih => exact reads_obj names each ih

end SolidityLint.Json
