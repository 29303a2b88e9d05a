/-! Steps that can fail, one after another. Of several checks that fail the first one is told, and those behind it are
    not made. -/

namespace SolidityLint

variable {α ε : Type} {check : α → Except ε Unit} {items : List α}

theorem exists_of_bind_eq_ok {β : Type} {first : Except ε α} {next : α → Except ε β} {result : β}
    (h : first >>= next = .ok result) : ∃ made, first = .ok made ∧ next made = .ok result := by
  cases first with
  | error e => cases h
  | ok made => exact ⟨made, rfl, h⟩

theorem eq_ok_of_toOption {first : Except ε α} {made : α} (h : first.toOption = some made) : first = .ok made := by
  cases first with
  | error e => cases h
  | ok result => exact congrArg Except.ok (Option.some.inj h)

/-- What is made of a result does not count for whether there is one. -/
theorem exists_map_eq_ok_iff {β : Type} {first : Except ε α} {f : α → β} :
    (∃ result, first.map f = .ok result) ↔ ∃ made, first = .ok made := by
  cases first <;> simp [Except.map]

theorem map_eq_ok_iff {β : Type} {first : Except ε α} {f : α → β} {result : β} :
    first.map f = .ok result ↔ ∃ made, first = .ok made ∧ f made = result := by
  cases first <;> simp [Except.map]

theorem map_eq_error_iff {β : Type} {first : Except ε α} {f : α → β} {e : ε} :
    first.map f = .error e ↔ first = .error e := by
  cases first <;> simp [Except.map]

theorem mapError_eq_ok_iff {δ : Type} {first : Except ε α} {f : ε → δ} {made : α} :
    first.mapError f = .ok made ↔ first = .ok made := by
  cases first with
  | ok value => constructor <;> rintro ⟨⟩ <;> rfl
  | error fault => constructor <;> rintro ⟨⟩

theorem mapError_eq_error_iff {δ : Type} {first : Except ε α} {f : ε → δ} {e : δ} :
    first.mapError f = .error e ↔ ∃ fault, first = .error fault ∧ f fault = e := by
  cases first with
  | error fault =>
    constructor
    · rintro ⟨⟩
      exact ⟨fault, rfl, rfl⟩
    · rintro ⟨_, ⟨⟩, rfl⟩
      rfl
  | ok made =>
    constructor
    · rintro ⟨⟩
    · rintro ⟨_, ⟨⟩, _⟩

theorem map_unit_eq_ok_iff {first : Except ε α} : first.map (fun _ => ()) = .ok () ↔ ∃ made, first = .ok made := by
  cases first <;> simp [Except.map]

theorem map_unit_eq_error_iff {first : Except ε α} {e : ε} : first.map (fun _ => ()) = .error e ↔ first = .error e :=
  map_eq_error_iff

theorem forM_cons (check : α → Except ε Unit) (item : α) (items : List α) :
    (item :: items).forM check = check item >>= fun _ => items.forM check := rfl

theorem forM_cons_of_ok {item : α} (h : check item = .ok ()) : (item :: items).forM check = items.forM check := by
  rw [forM_cons, h]
  rfl

theorem forM_cons_of_error {item : α} {e : ε} (h : check item = .error e) :
    (item :: items).forM check = .error e := by
  rw [forM_cons, h]
  rfl

theorem forM_eq_error_iff {e : ε} :
    items.forM check = .error e ↔ ∃ before item after, items = before ++ item :: after ∧
      (∀ other ∈ before, check other = .ok ()) ∧ check item = .error e := by
  constructor
  · intro h
    induction items with
    | nil => cases h
    | cons item rest ih =>
      cases first : check item with
      | error other =>
        rw [forM_cons_of_error first] at h
        exact ⟨[], item, rest, rfl, nofun, first.trans h⟩
      | ok _ =>
        rw [forM_cons_of_ok first] at h
        obtain ⟨before, item', after, rfl, earlier, refused⟩ := ih h
        exact ⟨item :: before, item', after, rfl, List.forall_mem_cons.mpr ⟨first, earlier⟩, refused⟩
  · rintro ⟨before, item, after, rfl, earlier, refused⟩
    induction before with
    | nil => exact forM_cons_of_error refused
    | cons first rest ih =>
      obtain ⟨passed, earlier⟩ := List.forall_mem_cons.mp earlier
      exact (forM_cons_of_ok passed).trans (ih earlier)

theorem forM_eq_ok_iff : items.forM check = .ok () ↔ ∀ item ∈ items, check item = .ok () := by
  induction items with
  | nil => exact ⟨fun _ => nofun, fun _ => rfl⟩
  | cons item rest ih =>
    rw [List.forall_mem_cons]
    cases first : check item with
    | error e => simp [forM_cons_of_error first]
    | ok _ => simpa [forM_cons_of_ok first] using ih

/-! ### Results one after another -/

theorem mapM_eq_ok_iff {β : Type} {f : α → Except ε β} {made : List β} :
    items.mapM f = .ok made ↔ items.map f = made.map .ok := by
  induction items generalizing made with
  | nil => cases made <;> simp [pure, Except.pure]
  | cons item rest ih =>
    rw [List.mapM_cons, List.map_cons]
    cases first : f item with
    | error e => cases made <;> simp [bind, Except.bind]
    | ok one =>
      cases others : rest.mapM f with
      | error e =>
        refine ⟨nofun, fun h => ?_⟩
        cases made with
        | nil => cases h
        | cons _ others' =>
          rw [ih.mpr (List.cons.inj h).2] at others
          cases others
      | ok more =>
        have same := ih.mp others
        cases made with
        | nil => simp [bind, Except.bind, pure, Except.pure]
        | cons one' more' =>
          have inj : (more.map Except.ok : List (Except ε β)) = more'.map Except.ok ↔ more = more' :=
            List.map_inj_right fun _ _ => Except.ok.inj
          simp [bind, Except.bind, pure, Except.pure, same, inj]

/-- What every step keeps is kept by all of them. -/
theorem foldlM_keeps {β : Type} {step : β → α → Except ε β} {P : β → Prop}
    (keeps : ∀ done item next, P done → step done item = .ok next → P next) {start made : β} (holds : P start)
    (h : items.foldlM step start = .ok made) : P made := by
  induction items generalizing start with
  | nil => exact Except.ok.inj h ▸ holds
  | cons item rest ih =>
    rw [List.foldlM_cons] at h
    obtain ⟨next, first, others⟩ := exists_of_bind_eq_ok h
    exact ih (keeps start item next holds first) others

/-- There is a result of each, or the first one that fails is the failure. -/
theorem mapM_cases {β : Type} (f : α → Except ε β) (items : List α) :
    (∃ made, items.mapM f = .ok made) ∨ ∃ before item after e, items = before ++ item :: after ∧
      (∀ other ∈ before, ∃ one, f other = .ok one) ∧ f item = .error e ∧ items.mapM f = .error e := by
  induction items with
  | nil => exact Or.inl ⟨[], rfl⟩
  | cons item rest ih =>
    rw [List.mapM_cons]
    cases first : f item with
    | error e => exact Or.inr ⟨[], item, rest, e, rfl, nofun, first, rfl⟩
    | ok one =>
      rcases ih with ⟨made, all⟩ | ⟨before, bad, after, e, rfl, good, refused, failed⟩
      · exact Or.inl ⟨one :: made, by rw [all]; rfl⟩
      · refine Or.inr ⟨item :: before, bad, after, e, rfl, List.forall_mem_cons.mpr ⟨⟨one, first⟩, good⟩, refused, ?_⟩
        rw [failed]
        rfl

end SolidityLint
