import Mathlib.Logic.Relation
import SolidityLint.Proofs.Config.Reading

/-! Configurations as mappings. A configuration written out as a mapping is read back, and a mapping may be changed in
    all that a configuration does not see: the order of its keys, and keys that name no category or no rule. -/

namespace SolidityLint

open Value (lookup hasKey)

/-! ### Written out -/

/-- The value of a rule with this setting. -/
def Rule.valueOf (rule : Rule) : Setting → Value
  | .limit limit => .int limit.width
  | .on => match rule.settingKind with
    | .style style => .str style.name
    | _ => .bool true
  | .off => match rule.settingKind with
    | .switch => .bool false
    | _ => .null

/-- The value of a category: null if it is off, or the values of all its rules. -/
def Category.toValue (category : Category) : Option (Rule → Setting) → Value
  | none => .null
  | some setting => .mapping (category.rules.map fun rule => (.str rule.key, rule.valueOf (setting rule)))

namespace RuleConfiguration

/-- The entries of a configuration, one for each category. -/
def toEntries (rules : RuleConfiguration) : List (Value × Value) :=
  Category.all.map fun category => (.str category.key, category.toValue (rules.settings? category))

def toValue (rules : RuleConfiguration) : Value :=
  .mapping rules.toEntries

end RuleConfiguration

theorem Rule.accept_valueOf {rule : Rule} {setting : Setting} (h : rule.takes setting = true) :
    rule.accept (rule.valueOf setting) = .ok setting := by
  unfold takes at h
  unfold accept valueOf
  cases kind : rule.settingKind with
  | switch => cases setting <;> first | rfl | (rw [kind] at h; cases h)
  | style style =>
    cases setting with
    | off => rfl
    | on => simp
    | limit limit => rw [kind] at h; cases h
  | limit =>
    cases setting with
    | off => rfl
    | on => rw [kind] at h; cases h
    | limit limit =>
      have positive : 0 < (limit.width : Int).toNat := limit.width_pos
      exact dif_pos positive

namespace Category

variable {category : Category}

theorem countP_hasKey_toValue_le_one (setting : Rule → Setting) {rule : Rule} (own : rule.category = category) :
    (category.rules.map fun rule => (Value.str rule.key, rule.valueOf (setting rule))).countP (hasKey rule.key) ≤
      1 := by
  subst own
  cases rule <;> exact Nat.le_refl 1

theorem lookup_toValue (setting : Rule → Setting) {rule : Rule} (own : rule.category = category) :
    lookup rule.key (category.rules.map fun rule => (.str rule.key, rule.valueOf (setting rule))) =
      rule.valueOf (setting rule) := by
  subst own
  cases rule <;> rfl

theorem tells_toValue {rules : RuleConfiguration} :
    category.Tells (category.toValue (rules.settings? category)) (rules.settings? category) := by
  cases on : rules.settings? category with
  | none => exact Or.inl rfl
  | some setting =>
    refine ⟨_, rfl, fun rule own => ?_⟩
    rw [lookup_toValue setting own]
    exact Rule.accept_valueOf (RuleConfiguration.takes_setting on own)

end Category

namespace RuleConfiguration

variable {entries entries' : List (Value × Value)} {rules : RuleConfiguration}

theorem wellKeyed_toEntries (rules : RuleConfiguration) : WellKeyed rules.toEntries where
  categories category := by cases category <;> exact Nat.le_refl 1
  rules category inner h rule own := by
    obtain ⟨found, -, same⟩ := List.mem_map.mp h
    obtain ⟨key, value⟩ := Prod.mk.inj same
    obtain rfl := Category.str_key_injective key
    cases on : rules.settings? found with
    | none => rw [on] at value; cases value
    | some setting =>
      rw [on] at value
      obtain rfl := Value.mapping.inj value
      exact Category.countP_hasKey_toValue_le_one setting own

theorem lookup_toEntries (rules : RuleConfiguration) (category : Category) :
    lookup category.key rules.toEntries = category.toValue (rules.settings? category) := by
  cases category <;> rfl

theorem ofValue_toValue (rules : RuleConfiguration) : ofValue rules.toValue = .ok rules := by
  refine (ofValue_eq_ok_iff rules.wellKeyed_toEntries).mpr fun category => ?_
  rw [lookup_toEntries]
  exact category.tells_toValue

/-- Three categories that are off, and one with a single rule on. -/
example : toValue { layout := some { noTabs := true } } =
    .mapping [(.str "structure", .null), (.str "imports", .null), (.str "naming", .null),
      (.str "layout", .mapping [(.str "maxLineLength", .null), (.str "noTabs", .bool true),
        (.str "noTrailingWhitespace", .bool false)])] := rfl

/-! ### Changes that a configuration does not see -/

/-- A change of a mapping in the order of its keys, or in what is under keys that name no category or no rule. -/
inductive Revision : List (Value × Value) → List (Value × Value) → Prop
  | reorder {entries entries' : List (Value × Value)} (h : entries.Perm entries') : Revision entries entries'
  | addCategory (front back : List (Value × Value)) {key : Value} (value : Value)
      (unknown : Category.ofKey? key = none) : Revision (front ++ back) (front ++ (key, value) :: back)
  | reorderRules (front back : List (Value × Value)) (key : Value) {inner inner' : List (Value × Value)}
      (h : inner.Perm inner') :
      Revision (front ++ (key, .mapping inner) :: back) (front ++ (key, .mapping inner') :: back)
  | addRule (front back : List (Value × Value)) (category : Category) (before after : List (Value × Value))
      {key : Value} (value : Value) (unknown : Rule.ofKey? category key = none) :
      Revision (front ++ (.str category.key, .mapping (before ++ after)) :: back)
        (front ++ (.str category.key, .mapping (before ++ (key, value) :: after)) :: back)

/-- Two mappings of a category that its rules accept alike. -/
def SameRules (category : Category) (inner inner' : List (Value × Value)) : Prop :=
  ∀ rule : Rule, rule.category = category →
    rule.accept (lookup rule.key inner') = rule.accept (lookup rule.key inner)

theorem tells_replace {key : Value} {inner inner' : List (Value × Value)}
    (same : ∀ category : Category, key = .str category.key → SameRules category inner inner')
    (front back : List (Value × Value)) (category : Category) (settings : Option (Rule → Setting)) :
    category.Tells (lookup category.key (front ++ (key, .mapping inner') :: back)) settings ↔
      category.Tells (lookup category.key (front ++ (key, .mapping inner) :: back)) settings := by
  rcases Value.lookup_replace category.key key (.mapping inner) (.mapping inner') front back with
    equal | ⟨own, found, found'⟩
  · rw [equal]
  · rw [found, found']
    cases settings with
    | none => exact ⟨fun h => h.elim nofun nofun, fun h => h.elim nofun nofun⟩
    | some setting =>
      have same := same category own
      constructor
      · rintro ⟨_, ⟨⟩, accepted⟩
        exact ⟨inner, rfl, fun rule own => (same rule own).symm.trans (accepted rule own)⟩
      · rintro ⟨_, ⟨⟩, accepted⟩
        exact ⟨inner', rfl, fun rule own => (same rule own).trans (accepted rule own)⟩

theorem WellKeyed.replace {key : Value} {front back inner inner' : List (Value × Value)}
    (keyed : WellKeyed (front ++ (key, .mapping inner) :: back))
    (once : ∀ category : Category, key = .str category.key →
      ∀ rule : Rule, rule.category = category → inner'.countP (hasKey rule.key) ≤ 1) :
    WellKeyed (front ++ (key, .mapping inner') :: back) where
  categories category := by
    have counted := keyed.categories category
    rw [List.countP_append, List.countP_cons] at counted ⊢
    exact counted
  rules category found h := by
    rcases List.mem_append.mp h with h | h
    · exact keyed.rules category found (List.mem_append_left _ h)
    · rcases List.mem_cons.mp h with h | h
      · obtain ⟨own, value⟩ := Prod.mk.inj h
        obtain rfl := Value.mapping.inj value
        exact once category own.symm
      · exact keyed.rules category found (List.mem_append_right _ (List.mem_cons_of_mem _ h))

theorem WellKeyed.perm (keyed : WellKeyed entries) (h : entries.Perm entries') : WellKeyed entries' where
  categories category := h.countP_eq _ ▸ keyed.categories category
  rules category inner there := keyed.rules category inner (h.mem_iff.mpr there)

theorem WellKeyed.addCategory {front back : List (Value × Value)} (keyed : WellKeyed (front ++ back)) {key : Value}
    (unknown : Category.ofKey? key = none) (value : Value) : WellKeyed (front ++ (key, value) :: back) where
  categories category := by
    rw [Value.countP_hasKey_insert_of_ne (Category.key_ne_of_unknown unknown category)]
    exact keyed.categories category
  rules category inner h := by
    refine keyed.rules category inner ?_
    rcases List.mem_append.mp h with h | h
    · exact List.mem_append_left _ h
    · rcases List.mem_cons.mp h with h | h
      · exact absurd (Prod.mk.inj h).1.symm (Category.key_ne_of_unknown unknown category)
      · exact List.mem_append_right _ h

theorem Revision.wellKeyed (h : Revision entries entries') (keyed : WellKeyed entries) : WellKeyed entries' := by
  cases h with
  | reorder h => exact keyed.perm h
  | addCategory front back value unknown => exact keyed.addCategory unknown value
  | reorderRules front back key h =>
    refine keyed.replace fun category named rule own => ?_
    subst named
    rw [← h.countP_eq]
    exact keyed.rules category _ List.mem_append_cons_self rule own
  | addRule front back category before after value unknown =>
    refine keyed.replace fun other named rule own => ?_
    obtain rfl := Category.str_key_injective named
    rw [Value.countP_hasKey_insert_of_ne (Rule.key_ne_of_unknown unknown own)]
    exact keyed.rules category _ List.mem_append_cons_self rule own

theorem Revision.tells_iff (h : Revision entries entries') (keyed : WellKeyed entries) (category : Category)
    (settings : Option (Rule → Setting)) :
    category.Tells (lookup category.key entries') settings ↔ category.Tells (lookup category.key entries) settings := by
  cases h with
  | reorder h => rw [Value.lookup_perm h (keyed.categories category)]
  | addCategory front back value unknown =>
    rw [Value.lookup_insert_of_ne (Category.key_ne_of_unknown unknown category)]
  | reorderRules front back key h =>
    refine tells_replace (fun other named rule own => ?_) front back category settings
    subst named
    rw [Value.lookup_perm h (keyed.rules other _ List.mem_append_cons_self rule own)]
  | addRule front back other before after value unknown =>
    refine tells_replace (fun found named rule own => ?_) front back category settings
    obtain rfl := Category.str_key_injective named
    rw [Value.lookup_insert_of_ne (Rule.key_ne_of_unknown unknown own)]

theorem Revision.ofValue (h : Revision entries entries') (keyed : WellKeyed entries)
    (made : ofValue (.mapping entries) = .ok rules) : ofValue (.mapping entries') = .ok rules := by
  refine (ofValue_eq_ok_iff (h.wellKeyed keyed)).mpr fun category => ?_
  exact (h.tells_iff keyed category _).mpr ((ofValue_eq_ok_iff keyed).mp made category)

/-- Changes one after another. -/
theorem ofValue_of_revisions (h : Relation.ReflTransGen Revision entries entries') (keyed : WellKeyed entries)
    (made : ofValue (.mapping entries) = .ok rules) :
    WellKeyed entries' ∧ ofValue (.mapping entries') = .ok rules := by
  induction h with
  | refl => exact ⟨keyed, made⟩
  | tail _ step ih =>
    obtain ⟨keyed, made⟩ := ih
    exact ⟨step.wellKeyed keyed, step.ofValue keyed made⟩

/-- A category is off if its key is absent, null or false. -/
theorem settings?_eq_none_iff (keyed : WellKeyed entries) (made : ofValue (.mapping entries) = .ok rules)
    (category : Category) :
    rules.settings? category = none ↔
      ∀ value, (.str category.key, value) ∈ entries → value = .null ∨ value = .bool false := by
  have told := (ofValue_eq_ok_iff keyed).mp made category
  constructor
  · intro off value there
    rw [off, Value.lookup_eq_of_mem (keyed.categories category) there] at told
    exact told
  · intro empty
    have off : lookup category.key entries = .null ∨ lookup category.key entries = .bool false := by
      rcases Value.lookup_eq_null_or_mem category.key entries with absent | there
      · exact Or.inl absent
      · exact empty _ there
    cases on : rules.settings? category with
    | none => rfl
    | some setting =>
      rw [on] at told
      obtain ⟨inner, mapping, -⟩ := told
      rw [mapping] at off
      rcases off with off | off <;> cases off

/-- A rule without a key in the mapping of its category is as one that is null. -/
theorem ofValue_null_rule {front back before after : List (Value × Value)} {rule : Rule}
    (keyed : WellKeyed (front ++ (.str rule.category.key, .mapping (before ++ after)) :: back))
    (absent : (before ++ after).countP (hasKey rule.key) = 0) (rules : RuleConfiguration) :
    ofValue (.mapping (front ++ (.str rule.category.key, .mapping (before ++ (.str rule.key, .null) :: after)) ::
        back)) = .ok rules ↔
      ofValue (.mapping (front ++ (.str rule.category.key, .mapping (before ++ after)) :: back)) = .ok rules := by
  have ne {other : Rule} (different : other ≠ rule) : Value.str rule.key ≠ .str other.key := fun keys =>
    different (Rule.str_key_injective keys).symm
  have once (other : Rule) (own : other.category = rule.category) :
      (before ++ (Value.str rule.key, .null) :: after).countP (hasKey other.key) ≤ 1 := by
    by_cases same : other = rule
    · subst same
      have count : (before ++ (Value.str other.key, .null) :: after).countP (hasKey other.key) = 0 + 1 := by
        rw [List.countP_append, List.countP_cons_of_pos (Value.hasKey_iff.mpr rfl), ← Nat.add_assoc,
          ← List.countP_append, absent]
      exact Nat.le_of_eq count
    · rw [Value.countP_hasKey_insert_of_ne (ne same)]
      exact keyed.rules _ _ List.mem_append_cons_self other own
  have alike : SameRules rule.category (before ++ after) (before ++ (.str rule.key, .null) :: after) := by
    intro other own
    by_cases same : other = rule
    · subst same
      rw [Value.lookup_eq_of_mem (once other rfl) List.mem_append_cons_self,
        Value.lookup_eq_null_of_countP_eq_zero absent]
    · rw [Value.lookup_insert_of_ne (ne same)]
  have keyed' := keyed.replace fun category named => Category.str_key_injective named ▸ once
  rw [ofValue_eq_ok_iff keyed', ofValue_eq_ok_iff keyed]
  exact forall_congr' fun category =>
    tells_replace (fun other named => Category.str_key_injective named ▸ alike) front back category _

end RuleConfiguration

open RuleConfiguration in
/-- A configuration that is written out as a mapping is read back. A mapping that makes a configuration still makes
    the same one after changes in the order of its keys and in unknown categories and rules; a category is off if its
    key is absent, null or false, and a rule without a key is as one that is null. -/
theorem configuration_round_trip :
    (∀ rules : RuleConfiguration, ofValue rules.toValue = .ok rules) ∧
    (∀ (entries entries' : List (Value × Value)) (rules : RuleConfiguration), WellKeyed entries →
      Relation.ReflTransGen Revision entries entries' → ofValue (.mapping entries) = .ok rules →
      ofValue (.mapping entries') = .ok rules) ∧
    (∀ (entries : List (Value × Value)) (rules : RuleConfiguration), WellKeyed entries →
      ofValue (.mapping entries) = .ok rules → ∀ category : Category,
      rules.settings? category = none ↔
        ∀ value, (.str category.key, value) ∈ entries → value = .null ∨ value = .bool false) ∧
    (∀ (front back before after : List (Value × Value)) (rule : Rule),
      WellKeyed (front ++ (.str rule.category.key, .mapping (before ++ after)) :: back) →
      (before ++ after).countP (hasKey rule.key) = 0 → ∀ rules : RuleConfiguration,
      ofValue (.mapping (front ++ (.str rule.category.key, .mapping (before ++ (.str rule.key, .null) :: after)) ::
          back)) = .ok rules ↔
        ofValue (.mapping (front ++ (.str rule.category.key, .mapping (before ++ after)) :: back)) = .ok rules) := by
  refine ⟨ofValue_toValue, fun entries entries' rules keyed steps made => ?_, fun entries rules keyed made => ?_,
    fun front back before after rule keyed absent => ?_⟩
  · exact (ofValue_of_revisions steps keyed made).2
  · exact settings?_eq_none_iff keyed made
  · exact ofValue_null_rule keyed absent

open RuleConfiguration in
/-- An unknown category, an unknown rule in front of a known one, and a rule that is null. -/
theorem configuration_round_trip_unknown :
    let entries : List (Value × Value) := [(.str "layout", .mapping [(.str "noTabs", .bool true)])]
    let entries' : List (Value × Value) :=
      [(.str "advanced", .mapping [(.str "noAssembly", .bool true)]),
        (.str "layout", .mapping [(.str "braceStyle", .str "same-line"), (.str "noTabs", .bool true)])]
    let rules : RuleConfiguration := { layout := some { noTabs := true } }
    WellKeyed entries ∧ Relation.ReflTransGen Revision entries entries' ∧ ofValue (.mapping entries) = .ok rules ∧
      ofValue (.mapping entries') = .ok rules ∧ rules.settings? .naming = none ∧
      ofValue (.mapping [(.str "layout", .mapping [(.str "maxLineLength", .null), (.str "noTabs", .bool true)])]) =
        .ok rules := by
  intro entries entries' rules
  have keyed : WellKeyed entries := by
    refine ⟨fun category => by cases category <;> decide, fun category inner h rule own => ?_⟩
    obtain ⟨-, same⟩ := Prod.mk.inj (List.mem_singleton.mp h)
    obtain rfl := Value.mapping.inj same
    cases rule <;> decide
  have steps : Relation.ReflTransGen Revision entries entries' :=
    .tail (.single (.addRule [] [] .layout [] [(.str "noTabs", .bool true)] (.str "same-line") (by decide)))
      (.addCategory [] _ _ (by decide))
  have made : ofValue (.mapping entries) = .ok rules := rfl
  obtain ⟨-, revised, off, null⟩ := configuration_round_trip
  refine ⟨keyed, steps, made, revised entries entries' rules keyed steps made, ?_, ?_⟩
  · refine (off entries rules keyed made .naming).mpr fun value h => ?_
    obtain ⟨key, -⟩ := Prod.mk.inj (List.mem_singleton.mp h)
    exact absurd (Value.str.inj key) (by decide)
  · exact (null [] [] [] [(.str "noTabs", .bool true)] .maxLineLength keyed (by decide) rules).mpr made

end SolidityLint
