import SolidityLint.Proofs.Check.Declarations
import SolidityLint.Proofs.Check.Messages
import SolidityLint.Proofs.Declaration.Events

/-! What is found about events. A name is looked at twice, for its style and for its ending, and neither verdict counts
    for the other; but the rule on the style switches both on and off. -/

namespace SolidityLint

open Text Declaration

/-! ### Past tense -/

/-- All listed endings but the last but one end with the first one. -/
theorem isPastTense_iff {name : List Char} :
    isPastTense name = true ↔ "ed".toList <:+ name ∨ "Set".toList <:+ name := by
  have redundant : ∀ ending ∈ pastTenseEndings, "ed".toList <:+ ending.toList ∨ ending = "Set" := by decide
  simp only [isPastTense, List.any_eq_true, List.isSuffixOf_iff_suffix]
  constructor
  · rintro ⟨ending, listed, ends⟩
    rcases redundant ending listed with front | rfl
    · exact Or.inl (front.trans ends)
    · exact Or.inr ends
  · rintro (ends | ends)
    · exact ⟨"ed", by decide, ends⟩
    · exact ⟨"Set", by decide, ends⟩

/-! ### Events among the names -/

theorem newline_notMem_of_mem_events {cs : List Char} {found : Nat × EventSpan} (h : found ∈ events cs) :
    '\n' ∉ found.2.name :=
  newline_notMem_of_mem_occurrences (fun _ _ _ => EventSpan.exists_identifier?) h

theorem filter_naming_events (rules : NamingRules) (text : List Char) :
    (Check.naming rules text).filter (·.rule ∈ [.events, .eventsPastTense]) =
      if rules.events then (events text).flatMap (Check.event rules) else [] := by
  rw [Check.naming, List.filter_append, List.filter_append, List.filter_append,
    (Check.contracts_inPlace text).ite.filter_eq_nil (by decide),
    (Check.functions_inPlace rules text).filter_eq_nil (by decide),
    (Check.events_inPlace rules text).ite.filter_eq_self,
    (Check.constants_inPlace text).ite.filter_eq_nil (by decide), List.nil_append, List.append_nil]
  rfl

section

variable (source : Source) (rules : RuleConfiguration) (severities : SeverityMap)

/-- The finding about a name that is not in the past tense. -/
def presentTense (line : Nat) (name : List Char) : List Finding :=
  if "ed".toList <:+ name ∨ "Set".toList <:+ name then []
  else [{ path := source.path, line, rule := "naming.eventsPastTense", code := "EventPastTense",
          message := "Event name '" ++ String.ofList name ++
            "' should be past tense (e.g., 'OwnerUpdated' not 'OwnerUpdate')",
          severity := severities.resolve "naming.eventsPastTense" }]

/-- The findings about an event: the style of its name, then its tense if that rule is on. -/
def eventFindings (line : Nat) (name : List Char) : List Finding :=
  misnamed source severities "naming.events" "EventNaming" .capWords line name
      ("Event name '" ++ String.ofList name ++ "' should use CapWords style") ++
    if rules.enables .eventsPastTense then presentTense source severities line name else []

theorem map_event {naming : NamingRules} (h : rules.naming = some naming) {found : Nat × EventSpan}
    (named : '\n' ∉ found.2.name) :
    (Check.event naming found).map (·.toFinding severities source.path) =
      eventFindings source rules severities found.1 found.2.name := by
  have tense : rules.enables .eventsPastTense = naming.eventsPastTense := by
    rw [enables_of_naming rules h rfl, NamingRules.setting, Setting.isOn_ofSwitch]
  have message : Check.styleMessage "Event name" found.2.name NameStyle.capWords.name =
      "Event name '" ++ String.ofList found.2.name ++ "' should use CapWords style" := styleMessage_eq rfl rfl _
  rw [Check.event, eventFindings, tense, List.map_append, message]
  refine congrArg₂ (· ++ ·) (map_toFinding_eq_misnamed source severities .events .capWords found.1 named _) ?_
  cases naming.eventsPastTense with
  | false => rfl
  | true =>
    rw [if_pos rfl, presentTense]
    cases past : isPastTense found.2.name with
    | true =>
      rw [if_pos (isPastTense_iff.mp past)]
      rfl
    | false =>
      have present := mt isPastTense_iff.mpr (Bool.eq_false_iff.mp past)
      rw [if_neg present]
      rfl

/-- What the two rules on events find, event by event. -/
theorem filter_findings_events :
    (checkSources [source] rules severities).findings.filter (·.rule ∈ ["naming.events", "naming.eventsPastTense"]) =
      if rules.enables .events then
        (events source.text.toList).flatMap fun found => eventFindings source rules severities found.1 found.2.name
      else [] := by
  have place : ∀ rule ∈ [Rule.events, .eventsPastTense], rule.category = .naming := by
    simp [Rule.category]
  refine (filter_findings_naming source rules severities place).trans ?_
  cases h : rules.naming with
  | none => rw [enables_of_naming_eq_none rules h rfl, if_neg Bool.false_ne_true]
  | some naming =>
    dsimp only
    rw [filter_naming_events, enables_of_naming rules h rfl, NamingRules.setting, Setting.isOn_ofSwitch]
    cases naming.events with
    | false => rfl
    | true =>
      rw [if_pos rfl, if_pos rfl, List.map_flatMap]
      exact List.flatMap_congr fun found hf => map_event source rules severities h (newline_notMem_of_mem_events hf)

end

/-- The event declarations of a text are the one list of spans that a search from its front takes: the keyword, white
    space, and a name as long as it can be, whatever stands in front of the keyword. With the rule on their style on,
    each of them gives a finding if its name is not in capitalized words, and then another one if that rule is on too
    and the name ends neither with `ed` nor with `Set`, both on the line where the declaration begins; nothing else is
    found for the two rules, and nothing at all with the first one off. The other endings of the past tense add
    nothing. -/
theorem events_exact (source : Source) (rules : RuleConfiguration) (severities : SeverityMap) :
    let cs := source.text.toList
    ∃ spans, Leftmost (EventSpan.SitsAt cs) EventSpan.width 0 spans ∧
      (∀ others, Leftmost (EventSpan.SitsAt cs) EventSpan.width 0 others → others = spans) ∧
      events cs = spans.map (fun span => (lineCount (cs.take span.1), span.2)) ∧
      (checkSources [source] rules severities).findings.filter
          (·.rule ∈ ["naming.events", "naming.eventsPastTense"]) =
        (if rules.enables .events then
          spans.flatMap fun span => eventFindings source rules severities (lineCount (cs.take span.1)) span.2.name
        else []) ∧
      ∀ name, isPastTense name = true ↔ "ed".toList <:+ name ∨ "Set".toList <:+ name := by
  intro cs
  obtain ⟨spans, leftmost, unique, found⟩ := leftmost_events cs
  refine ⟨spans, leftmost, unique, found, ?_, fun name => isPastTense_iff⟩
  rw [filter_findings_events, found, List.flatMap_map]

/-- A declaration takes the keyword of the next one for its name, and another begins inside a word. A name can lack its
    style, its tense, or both. -/
theorem events_exact_keyword_as_name :
    let source : Source := ⟨"a.sol", "event event Foo();\n prevent\n AbUpdated\nevent a_Set; event Sent"⟩
    let cs := source.text.toList
    ∃ spans, Leftmost (EventSpan.SitsAt cs) EventSpan.width 0 spans ∧
      spans.map (fun span => span.2.name) = ["event".toList, "AbUpdated".toList, "a_Set".toList, "Sent".toList] ∧
      ((checkSources [source] .builtin {}).findings.filter
        (·.rule ∈ ["naming.events", "naming.eventsPastTense"])).map (fun finding => (finding.line, finding.code)) =
        [(1, "EventNaming"), (1, "EventPastTense"), (4, "EventNaming"), (4, "EventPastTense")] ∧
      (checkSources [source] { naming := some { eventsPastTense := true } } {}).findings = [] := by
  intro source cs
  obtain ⟨spans, leftmost, -, found, -, -⟩ := events_exact source .builtin {}
  have names : (events cs).map (fun found => found.2.name) =
      ["event".toList, "AbUpdated".toList, "a_Set".toList, "Sent".toList] := by decide +kernel
  rw [found, List.map_map] at names
  exact ⟨spans, leftmost, names, by decide +kernel, by decide +kernel⟩

end SolidityLint
