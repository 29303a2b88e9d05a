import Mathlib.Data.List.Induction
import SolidityLint.Proofs.Check.Grading
import SolidityLint.Proofs.Config.Severities
import SolidityLint.Proofs.Identifiers
import SolidityLint.Proofs.Result.Partition

/-! Overrides of severities. An entry sets the severity of what its key is written as, so entries whose keys differ in
    kind can set the same one. It then stands where it was set first, and is what it was set to last. -/

namespace SolidityLint

theorem Rule.ofId?_id (rule : Rule) : ofId? rule.id = some rule := by
  cases rule <;> decide

theorem Rule.ofId?_eq_none {id : String} (foreign : ∀ rule : Rule, rule.id ≠ id) : ofId? id = none :=
  List.find?_eq_none.mpr fun rule _ same => foreign rule (of_decide_eq_true same)

namespace SeverityMap

/-- What is set for a text in a list without repetitions. -/
def found? (id : RawText) (overrides : List (RawText × Severity)) : Option Severity :=
  (overrides.find? (·.1 = id)).map (·.2)

/-- The last entry whose key is written as a text. -/
def IsLast (id : RawText) (entries : List (Value × Value)) (entry : Value × Value) : Prop :=
  ∃ before after, entries = before ++ entry :: after ∧ entry.1.plain = id ∧ ∀ other ∈ after, other.1.plain ≠ id

/-- What an entry sets. -/
structure Gives (entry : Value × Value) (setting : RawText × Severity) : Prop where
  text : setting.1 = entry.1.plain
  severity : Severity.ofValue? entry.2 = some setting.2

variable {id key : RawText} {severity : Severity} {severities : SeverityMap}
variable {overrides settings : List (RawText × Severity)} {entries : List (Value × Value)}

/-! ### Setting one severity after another -/

theorem map_fst_insert (overrides : List (RawText × Severity)) (setting : RawText × Severity) :
    (insert overrides setting.1 setting.2).map (·.1) =
      if overrides.any (·.1 = setting.1) then overrides.map (·.1) else overrides.map (·.1) ++ [setting.1] := by
  unfold insert
  split
  · rw [List.map_map]
    refine List.map_congr_left fun entry _ => ?_
    rw [Function.comp_apply]
    split
    · rename_i same
      exact same.symm
    · rfl
  · rw [List.map_append, List.map_singleton]

/-- A setting that is replaced in its place is found where the old one was. -/
theorem find?_replace (id key : RawText) (severity : Severity) (overrides : List (RawText × Severity)) :
    (overrides.map fun entry => if entry.1 = key then (key, severity) else entry).find? (·.1 = id) =
      (overrides.find? (·.1 = id)).map fun entry => if entry.1 = key then (key, severity) else entry := by
  rw [List.find?_map]
  congr 2
  funext entry
  rw [Function.comp_apply]
  split
  · rename_i own
    rw [own]
  · rfl

theorem found?_insert (id key : RawText) (severity : Severity) (overrides : List (RawText × Severity)) :
    found? id (insert overrides key severity) = if key = id then some severity else found? id overrides := by
  have own {entry : RawText × Severity} (found : overrides.find? (·.1 = id) = some entry) : entry.1 = id := by
    simpa using List.find?_some found
  unfold insert found?
  by_cases same : key = id
  · subst same
    rw [if_pos rfl]
    split
    · rename_i there
      obtain ⟨entry, found⟩ := Option.isSome_iff_exists.mp (List.find?_isSome.mpr (List.any_eq_true.mp there))
      rw [find?_replace, found, Option.map_some, Option.map_some, if_pos (own found)]
    · rename_i fresh
      have absent : overrides.find? (·.1 = key) = none :=
        List.find?_eq_none.mpr fun entry he has => fresh (List.any_eq_true.mpr ⟨entry, he, has⟩)
      rw [List.find?_append, absent]
      simp
  · rw [if_neg same]
    split
    · rw [find?_replace]
      cases found : overrides.find? (·.1 = id) with
      | none => rfl
      | some entry => rw [Option.map_some, if_neg fun taken => same (taken.symm.trans (own found))]
    · rw [List.find?_append, List.find?_singleton, if_neg (by simpa using same), Option.or_none]

/-- What is found for a text is what was set last. -/
theorem found?_foldl_insert (id : RawText) (settings : List (RawText × Severity)) :
    found? id (settings.foldl (fun done setting => insert done setting.1 setting.2) []) =
      found? id settings.reverse := by
  induction settings using List.reverseRecOn with
  | nil => rfl
  | append_singleton settings setting ih =>
    rw [List.foldl_append, List.foldl_cons, List.foldl_nil, found?_insert, ih, List.reverse_append, found?, found?,
      List.reverse_singleton, List.singleton_append, List.find?_cons]
    split <;> rename_i same <;> simp [same]

/-- The texts for which something is set come in the order in which they were set first. -/
theorem map_fst_foldl_insert (settings : List (RawText × Severity)) :
    (settings.foldl (fun done setting => insert done setting.1 setting.2) []).map (·.1) =
      CheckResult.distinct (settings.map (·.1)) :=
  CheckResult.map_fst_foldl_of_step map_fst_insert [] settings

/-! ### What entries set -/

theorem gives_of_readEntries (read : readEntries entries = .ok settings) : List.Forall₂ Gives entries settings := by
  induction entries generalizing settings with
  | nil =>
    cases read
    exact .nil
  | cons entry rest ih =>
    obtain ⟨key, value⟩ := entry
    rw [readEntries] at read
    cases known : Severity.ofValue? value with
    | none => simp [known] at read
    | some severity =>
      rw [known] at read
      dsimp only at read
      split at read
      · cases behind : readEntries rest with
        | error e => simp [behind, Except.map] at read
        | ok more =>
          rw [behind] at read
          cases read
          exact .cons ⟨rfl, known⟩ (ih behind)
      · cases read

theorem map_fst_of_gives (h : List.Forall₂ Gives entries settings) :
    settings.map (·.1) = entries.map (·.1.plain) := by
  induction h with
  | nil => rfl
  | cons first _ ih => rw [List.map_cons, List.map_cons, first.text, ih]

theorem found?_of_gives (h : List.Forall₂ Gives entries settings) (id : RawText) :
    found? id settings = (entries.find? (·.1.plain = id)).bind fun entry => Severity.ofValue? entry.2 := by
  induction h with
  | nil => rfl
  | cons first _ ih =>
    rw [found?, List.find?_cons, List.find?_cons, first.text]
    split
    · exact first.severity.symm
    · exact ih

theorem find?_reverse_eq_some_iff {entry : Value × Value} :
    entries.reverse.find? (·.1.plain = id) = some entry ↔ IsLast id entries entry := by
  rw [List.find?_eq_some_iff_append]
  constructor
  · rintro ⟨written, after, before, parts, last⟩
    refine ⟨before.reverse, after.reverse, ?_, of_decide_eq_true written, fun other ho => ?_⟩
    · rw [← List.reverse_reverse entries, parts]
      simp
    · simpa using last other (List.mem_reverse.mp ho)
  · rintro ⟨before, after, rfl, written, last⟩
    refine ⟨decide_eq_true written, after.reverse, before.reverse, by simp, fun other ho => ?_⟩
    simpa using last other (List.mem_reverse.mp ho)

theorem find?_reverse_eq_none_iff :
    entries.reverse.find? (·.1.plain = id) = none ↔ ∀ entry ∈ entries, entry.1.plain ≠ id := by
  simp [List.find?_eq_none]

/-! ### The severities of a mapping -/

theorem ofValue_mapping_eq_ok (made : ofValue (.mapping entries) = .ok severities) :
    ∃ settings, List.Forall₂ Gives entries settings ∧
      severities.overrides = settings.foldl (fun done setting => insert done setting.1 setting.2) [] := by
  rw [ofValue] at made
  cases read : readEntries entries with
  | error e => simp [read, Except.map] at made
  | ok settings =>
    rw [read] at made
    cases made
    exact ⟨settings, gives_of_readEntries read, rfl⟩

theorem map_fst_overrides (made : ofValue (.mapping entries) = .ok severities) :
    severities.overrides.map (·.1) = CheckResult.distinct (entries.map (·.1.plain)) := by
  obtain ⟨settings, gives, overrides⟩ := ofValue_mapping_eq_ok made
  rw [overrides, map_fst_foldl_insert, map_fst_of_gives gives]

theorem found?_overrides (made : ofValue (.mapping entries) = .ok severities) (id : RawText) :
    found? id severities.overrides =
      (entries.reverse.find? (·.1.plain = id)).bind fun entry => Severity.ofValue? entry.2 := by
  obtain ⟨settings, gives, overrides⟩ := ofValue_mapping_eq_ok made
  rw [overrides, found?_foldl_insert, found?_of_gives (List.forall₂_reverse_iff.mpr gives)]

theorem found?_eq_some_of_mem {setting : RawText × Severity} (once : (overrides.map (·.1)).Nodup)
    (there : setting ∈ overrides) : found? setting.1 overrides = some setting.2 := by
  induction overrides with
  | nil => cases there
  | cons first rest ih =>
    rw [List.map_cons, List.nodup_cons] at once
    rw [found?, List.find?_cons]
    rcases List.mem_cons.mp there with rfl | later
    · simp
    · have other : first.1 ≠ setting.1 := fun same => once.1 (same ▸ List.mem_map_of_mem later)
      rw [decide_eq_false other]
      exact ih once.2 later

/-- The fault of the first entry that sets nothing: a text that is no severity, unless what is said of it cannot be
    shown, or a key that cannot be shown. -/
theorem entryFault_iff {entry : Value × Value} {e : ConfigError} :
    EntryFault entry e ↔ ¬Sets entry ∧
      e = if entry.1.isShowable ∧ entry.2.isShowable then .unknownSeverity entry.1 entry.2 else .numberTooLong := by
  obtain ⟨key, value⟩ := entry
  have showable : Value.areShowable [key, value] = true ↔ key.isShowable ∧ value.isShowable := by
    simp [Value.areShowable]
  constructor
  · rintro (unknown | ⟨known, long⟩)
    · refine ⟨fun sets => ?_, ?_⟩
      · obtain ⟨⟨severity, known⟩, -⟩ := sets
        cases unknown.symm.trans known
      · rw [ConfigError.reported]
        exact if_congr showable rfl rfl
    · exact ⟨fun sets => by simp [sets.2] at long, by simp [long]⟩
  · rintro ⟨faulty, rfl⟩
    cases known : Severity.ofValue? value with
    | none =>
      have said : ConfigError.reported (.unknownSeverity key value) =
          if key.isShowable ∧ value.isShowable then .unknownSeverity key value else .numberTooLong :=
        if_congr showable rfl rfl
      exact said ▸ .value known
    | some severity =>
      have long : key.isShowable = false := Bool.eq_false_iff.mpr fun shown => faulty ⟨⟨severity, known⟩, shown⟩
      rw [if_neg fun shown => by simp [long] at shown]
      exact .key known long

/-! ### Resolving -/

theorem sets_of_ofValue (made : ofValue (.mapping entries) = .ok severities) : ∀ entry ∈ entries, Sets entry := by
  rcases exists_ofValue_iff.mp ⟨_, made⟩ with none | ⟨_, same, sets⟩
  · cases none
  · exact Value.mapping.inj same ▸ sets

theorem resolve_of_isLast {name : String} {entry : Value × Value} (made : ofValue (.mapping entries) = .ok severities)
    (last : IsLast name entries entry) : Severity.ofValue? entry.2 = some (severities.resolve name) := by
  have found := found?_overrides made name
  obtain ⟨before, after, rfl, -⟩ := id last
  obtain ⟨⟨severity, known⟩, -⟩ := sets_of_ofValue made entry (by simp)
  rw [find?_reverse_eq_some_iff.mpr last, Option.bind_some, known] at found
  rw [resolve_eq, override?, ← found?, found, known]
  rfl

theorem resolve_of_absent {name : String} (made : ofValue (.mapping entries) = .ok severities)
    (absent : ∀ entry ∈ entries, entry.1.plain ≠ name) :
    severities.resolve name = ((Rule.ofId? name).map Rule.severity).getD .error := by
  have found := found?_overrides made name
  rw [find?_reverse_eq_none_iff.mpr absent, Option.bind_none] at found
  rw [resolve_eq, override?, ← found?, found]
  rfl

/-- Entries of other texts do not count. -/
theorem resolve_replace {name : String} {before old after new : List (Value × Value)} {severities' : SeverityMap}
    (made : ofValue (.mapping (before ++ old ++ after)) = .ok severities)
    (made' : ofValue (.mapping (before ++ new ++ after)) = .ok severities')
    (others : ∀ entry ∈ old ++ new, entry.1.plain ≠ name) : severities'.resolve name = severities.resolve name := by
  have skipped {between : List (Value × Value)} (h : ∀ entry ∈ between, entry.1.plain ≠ name) :
      (before ++ between ++ after).reverse.find? (·.1.plain = RawText.ofString name) =
        (before ++ after).reverse.find? (·.1.plain = RawText.ofString name) := by
    simp only [List.reverse_append, List.find?_append, find?_reverse_eq_none_iff.mpr h, Option.none_or]
  obtain ⟨fromOld, fromNew⟩ := List.forall_mem_append.mp others
  have same : found? name severities'.overrides = found? name severities.overrides := by
    rw [found?_overrides made, found?_overrides made', skipped fromOld, skipped fromNew]
  exact resolve_congr same

end SeverityMap

open SeverityMap in
/-- A mapping sets severities just if each of its entries names one, and no key has a number with too many digits;
    otherwise the fault is that of the first entry that does not, and its text names the value and the key, unless it
    would show such a number. A text for which something is set stands once, where it was set first, with what the last
    entry of that text names. That is the severity for the text; where there is none, a rule has its own severity, and
    anything else `error`. So entries of other texts can come, go and change. -/
theorem severities_resolved (entries : List (Value × Value)) :
    ((∃ severities, ofValue (.mapping entries) = .ok severities) ↔ ∀ entry ∈ entries, Sets entry) ∧
    (∀ e, ofValue (.mapping entries) = .error e ↔ ∃ before key value after,
      entries = before ++ (key, value) :: after ∧ (∀ other ∈ before, Sets other) ∧ ¬Sets (key, value) ∧
        e = if key.isShowable ∧ value.isShowable then .unknownSeverity key value else .numberTooLong) ∧
    (∀ key value, (ConfigError.unknownSeverity key value).message =
      "Unknown severity " ++ ConfigError.shown value ++ " for rule '" ++ key.plain ++ "'") ∧
    ∀ severities, ofValue (.mapping entries) = .ok severities →
      (severities.overrides.map (·.1)).Nodup ∧
      (∀ text, text ∈ severities.overrides.map (·.1) ↔ ∃ entry ∈ entries, entry.1.plain = text) ∧
      (severities.overrides.map (·.1)).Pairwise (fun one other =>
        (entries.map (·.1.plain)).idxOf one < (entries.map (·.1.plain)).idxOf other) ∧
      (∀ setting ∈ severities.overrides, ∃ entry, IsLast setting.1 entries entry ∧
        Severity.ofValue? entry.2 = some setting.2) ∧
      (∀ (id : String) entry, IsLast id entries entry → Severity.ofValue? entry.2 = some (severities.resolve id)) ∧
      (∀ id : String, (∀ entry ∈ entries, entry.1.plain ≠ id) →
        (∀ rule : Rule, rule.id = id → severities.resolve id = rule.severity) ∧
        ((∀ rule : Rule, rule.id ≠ id) → severities.resolve id = .error)) ∧
      ∀ (id : String) before old after new severities', entries = before ++ old ++ after →
        (∀ entry ∈ old ++ new, entry.1.plain ≠ id) → ofValue (.mapping (before ++ new ++ after)) = .ok severities' →
        severities'.resolve id = severities.resolve id := by
  refine ⟨?_, fun e => ?_, fun _ _ => rfl, fun severities made => ?_⟩
  · rw [exists_ofValue_iff]
    simp
  · rw [ofValue_eq_error_iff]
    constructor
    · intro fault
      cases fault with
      | form _ noMapping => exact absurd rfl (noMapping entries)
      | @entry before after entry _ earlier fault =>
        obtain ⟨faulty, told⟩ := entryFault_iff.mp fault
        exact ⟨before, entry.1, entry.2, after, rfl, earlier, faulty, told⟩
    · rintro ⟨before, key, value, after, rfl, earlier, faulty, told⟩
      exact .entry earlier (entryFault_iff.mpr ⟨faulty, told⟩)
  · have once : (severities.overrides.map (·.1)).Nodup := by
      rw [map_fst_overrides made]
      exact CheckResult.nodup_distinct _
    refine ⟨once, fun text => ?_, ?_, fun setting there => ?_, fun _ _ => resolve_of_isLast made,
      fun id absent => ⟨?_, fun foreign => ?_⟩, ?_⟩
    · rw [map_fst_overrides made, CheckResult.mem_distinct_iff, List.mem_map]
    · rw [map_fst_overrides made]
      exact CheckResult.pairwise_idxOf_distinct _
    · have found := found?_eq_some_of_mem once there
      rw [found?_overrides made] at found
      obtain ⟨entry, last, names⟩ := Option.bind_eq_some_iff.mp found
      exact ⟨entry, find?_reverse_eq_some_iff.mp last, names⟩
    · rintro rule rfl
      rw [resolve_of_absent made absent, Rule.ofId?_id]
      rfl
    · rw [resolve_of_absent made absent, Rule.ofId?_eq_none foreign]
      rfl
    · rintro id before old after new severities' rfl others made'
      exact resolve_replace made made' others

open SeverityMap in
/-- A number and a text that are written alike, which are two keys of one mapping: the text is set where the number
    stands, and to what the text names. Where the number alone stands, it counts. -/
theorem severities_resolved_same_text :
    let number : Value × Value := (.int 1, .str "info")
    let rule : Value × Value := (.str "layout.noTabs", .str " Warning ")
    let text : Value × Value := (.str "1", .str "WARNING")
    (∃ severities, ofValue (.mapping [number, rule, text]) = .ok severities ∧
      severities.overrides.map (·.1) = ["1", "layout.noTabs"] ∧ severities.resolve "1" = .warning ∧
      severities.resolve "layout.noTabs" = .warning ∧ severities.resolve "naming.eventsPastTense" = .info ∧
      severities.resolve "no.rule" = .error) ∧
      ∃ severities, ofValue (.mapping [number, rule]) = .ok severities ∧ severities.resolve "1" = .info ∧
        severities.resolve "layout.noTabs" = .warning := by
  intro number rule text
  have info : Severity.ofValue? number.2 = some .info := by decide +kernel
  have spelled : Severity.ofValue? rule.2 = some .warning := by decide +kernel
  have warning : Severity.ofValue? text.2 = some .warning := by decide +kernel
  have sets : ∀ entry ∈ [number, rule], Sets entry := by
    simp only [List.forall_mem_cons]
    exact ⟨⟨⟨_, info⟩, by decide +kernel⟩, ⟨⟨_, spelled⟩, by decide +kernel⟩, nofun⟩
  have all : ∀ entry ∈ [number, rule] ++ [text], Sets entry :=
    List.forall_mem_append.mpr ⟨sets, List.forall_mem_singleton.mpr ⟨⟨_, warning⟩, by decide +kernel⟩⟩
  obtain ⟨severities, made⟩ := (severities_resolved [number, rule, text]).1.mpr all
  obtain ⟨fewer, made'⟩ := (severities_resolved [number, rule]).1.mpr sets
  obtain ⟨-, -, -, -, last, absent, replaced⟩ := (severities_resolved _).2.2.2 severities made
  obtain ⟨-, -, -, -, last', -⟩ := (severities_resolved _).2.2.2 fewer made'
  have one := last "1" text ⟨[number, rule], [], rfl, by decide +kernel, nofun⟩
  have tabs := last "layout.noTabs" rule ⟨[number], [text], rfl, by decide +kernel, by decide +kernel⟩
  have one' := last' "1" number ⟨[], [rule], rfl, by decide +kernel, by decide +kernel⟩
  have kept : fewer.resolve "layout.noTabs" = severities.resolve "layout.noTabs" :=
    replaced "layout.noTabs" [number, rule] [text] [] [] fewer rfl (by decide +kernel) made'
  have tabs : severities.resolve "layout.noTabs" = .warning := Option.some.inj (tabs.symm.trans spelled)
  refine ⟨⟨severities, made, ?_, Option.some.inj (one.symm.trans warning), tabs, ?_, ?_⟩,
    fewer, made', Option.some.inj (one'.symm.trans info), kept.trans tabs⟩
  · rw [map_fst_overrides made]
    decide +kernel
  · exact (absent "naming.eventsPastTense" (by decide +kernel)).1 .eventsPastTense (by decide)
  · refine (absent "no.rule" (by decide +kernel)).2 fun rule => ?_
    cases rule <;> decide

open SeverityMap in
/-- A key with more digits than can be shown is refused, although its value is a severity. -/
theorem key_of_long_number :
    let entries : List (Value × Value) := [(.int (Nat.pow 16 3600), .str "error")]
    (∀ entry ∈ entries, ∃ severity, Severity.ofValue? entry.2 = some severity) ∧
      ofValue (.mapping entries) = .error .numberTooLong ∧
      ¬((∃ severities, ofValue (.mapping entries) = .ok severities) ↔
        ∀ entry ∈ entries, ∃ severity, Severity.ofValue? entry.2 = some severity) := by
  intro entries
  have named : Severity.ofValue? (.str "error") = some .error := by decide +kernel
  have long : (Value.int (Nat.pow 16 3600)).isShowable = false := by decide +kernel
  have meant : ∀ entry ∈ entries, ∃ severity, Severity.ofValue? entry.2 = some severity :=
    List.forall_mem_singleton.mpr ⟨_, named⟩
  have refused : ofValue (.mapping entries) = .error .numberTooLong :=
    ofValue_eq_error_iff.mpr (show Fault (.mapping ([] ++ _ :: [])) _ from .entry nofun (.key named long))
  refine ⟨meant, refused, fun accepted => ?_⟩
  obtain ⟨severities, made⟩ := accepted.mpr meant
  rw [refused] at made
  cases made

end SolidityLint
