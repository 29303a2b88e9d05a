import Mathlib.Data.List.Basic
import SolidityLint.Config.Error
import SolidityLint.Proofs.Verdict

/-! Results that grow step by step. A step adds a file, a finding or a list of findings, whose severities are read from
    values first; it fails at the first value that names none. What a failed step has done to the result until then
    stays done, and that is nothing, since all severities are read before anything is added. -/

namespace SolidityLint

/-- What is said of a value that is no severity. -/
def Severity.refusal (value : Value) : String :=
  if value.isShowable then unknownMessage value else ConfigError.numberTooLongMessage

/-- A finding with a value in place of its severity. -/
structure Draft where
  path : RawText
  line : Int
  rule : String
  code : String
  message : String
  severity : Value

namespace Draft

def graded (draft : Draft) (severity : Severity) : Finding :=
  { path := draft.path, line := draft.line, rule := draft.rule, code := draft.code, message := draft.message, severity }

/-- The finding of a draft whose value names a severity. -/
def finding? (draft : Draft) : Option Finding :=
  (Severity.ofValue? draft.severity).map draft.graded

/-- Reads the severity of a draft. -/
def read (draft : Draft) : ExceptT String (StateM CheckResult) Finding :=
  match Severity.ofValue? draft.severity with
  | some severity => return draft.graded severity
  | none => throw (Severity.refusal draft.severity)

end Draft

namespace CheckResult

/-- A step that adds to a result. -/
inductive Step where
  | addFile (path : RawText)
  | addFinding (draft : Draft)
  | extend (drafts : List Draft)

namespace Step

/-- Carries out a step on a result. -/
def perform : Step → ExceptT String (StateM CheckResult) Unit
  | .addFile path => modify (·.addFile path)
  | .addFinding draft => do
    let finding ← draft.read
    modify (·.addFinding finding)
  | .extend drafts => do
    let findings ← drafts.mapM Draft.read
    modify (·.extend findings)

def paths : Step → List RawText
  | .addFile path => [path]
  | _ => []

def drafts : Step → List Draft
  | .addFile _ => []
  | .addFinding draft => [draft]
  | .extend drafts => drafts

/-- The first draft whose value names no severity. -/
def culprit? (step : Step) : Option Draft :=
  step.drafts.find? (·.finding?.isNone)

def findings (step : Step) : List Finding :=
  step.drafts.filterMap Draft.finding?

end Step

/-- The result after steps; what comes behind a failed one goes on from the result that it left. -/
def after (result : CheckResult) (steps : List Step) : CheckResult :=
  steps.foldl (fun result step => (step.perform result).2) result

/-! ### What a step does -/

theorem bind_of_ok {α β : Type} {first : ExceptT String (StateM CheckResult) α} {made : α}
    {result result' : CheckResult} (h : first result = (.ok made, result'))
    (next : α → ExceptT String (StateM CheckResult) β) : (first >>= next) result = next made result' := by
  show (match first result with | (made, result') => ExceptT.bindCont next made result') = _
  rw [h]
  rfl

theorem bind_of_error {α β : Type} {first : ExceptT String (StateM CheckResult) α} {e : String}
    {result result' : CheckResult} (h : first result = (.error e, result'))
    (next : α → ExceptT String (StateM CheckResult) β) : (first >>= next) result = (.error e, result') := by
  show (match first result with | (made, result') => ExceptT.bindCont next made result') = _
  rw [h]
  rfl

theorem read_of_some {draft : Draft} {finding : Finding} (h : draft.finding? = some finding) (result : CheckResult) :
    draft.read result = (.ok finding, result) := by
  obtain ⟨severity, known, rfl⟩ := Option.map_eq_some_iff.mp h
  rw [Draft.read, known]
  rfl

theorem read_of_none {draft : Draft} (h : draft.finding? = none) (result : CheckResult) :
    draft.read result = (.error (Severity.refusal draft.severity), result) := by
  rw [Draft.read, Option.map_eq_none_iff.mp h]
  rfl

/-- Drafts are read up to the first one that fails, and the result is left as it is either way. -/
theorem mapM_read (drafts : List Draft) (result : CheckResult) :
    drafts.mapM Draft.read result =
      (match drafts.find? (·.finding?.isNone) with
        | none => .ok (drafts.filterMap Draft.finding?)
        | some draft => .error (Severity.refusal draft.severity), result) := by
  induction drafts with
  | nil => rfl
  | cons draft rest ih =>
    rw [List.mapM_cons]
    cases h : draft.finding? with
    | none =>
      rw [bind_of_error (read_of_none h result), List.find?_cons_of_pos (by simp [h])]
    | some finding =>
      rw [bind_of_ok (read_of_some h result), List.find?_cons_of_neg (by simp [h]), List.filterMap_cons_some h]
      cases bad : rest.find? (·.finding?.isNone) with
      | none =>
        rw [bad] at ih
        rw [bind_of_ok ih]
        rfl
      | some other =>
        rw [bad] at ih
        rw [bind_of_error ih]

/-- A step adds all that it is to add, or it fails and adds nothing. -/
theorem perform_eq (step : Step) (result : CheckResult) :
    step.perform result =
      match step.culprit? with
      | none => (.ok (), ⟨result.files ++ step.paths, result.findings ++ step.findings⟩)
      | some draft => (.error (Severity.refusal draft.severity), result) := by
  cases step with
  | addFile path =>
    show (_, result.addFile path) = _
    simp [addFile, Step.culprit?, Step.paths, Step.drafts, Step.findings]
  | addFinding draft =>
    cases h : draft.finding? with
    | none =>
      rw [Step.perform, bind_of_error (read_of_none h result)]
      simp [Step.culprit?, Step.drafts, h]
    | some finding =>
      rw [Step.perform, bind_of_ok (read_of_some h result)]
      show (_, result.addFinding finding) = _
      simp [addFinding, Step.culprit?, Step.paths, Step.drafts, Step.findings, h]
  | extend drafts =>
    have read := mapM_read drafts result
    rw [Step.perform, Step.culprit?, Step.drafts]
    cases bad : drafts.find? (·.finding?.isNone) with
    | none =>
      rw [bad] at read
      rw [bind_of_ok read]
      show (_, result.extend _) = _
      simp [extend_eq, Step.paths, Step.drafts, Step.findings]
    | some draft =>
      rw [bad] at read
      rw [bind_of_error read]

theorem culprit?_eq_none_iff {step : Step} :
    step.culprit? = none ↔ ∀ draft ∈ step.drafts, ∃ severity, Severity.ofValue? draft.severity = some severity := by
  simp [Step.culprit?, Draft.finding?, Option.ne_none_iff_exists']

theorem paths_of_culprit? {step : Step} {draft : Draft} (h : step.culprit? = some draft) : step.paths = [] := by
  cases step with
  | addFile path => cases h
  | addFinding _ => rfl
  | extend _ => rfl

/-! ### What steps do one after another -/

theorem after_append (result : CheckResult) (steps more : List Step) :
    result.after (steps ++ more) = (result.after steps).after more :=
  List.foldl_append

theorem after_eq (result : CheckResult) (steps : List Step) :
    result.after steps = ⟨result.files ++ steps.flatMap Step.paths,
      result.findings ++ (steps.filter (·.culprit?.isNone)).flatMap Step.findings⟩ := by
  induction steps generalizing result with
  | nil => simp [after]
  | cons step rest ih =>
    show (step.perform result).2.after rest = _
    rw [perform_eq]
    cases h : step.culprit? with
    | none => simp [ih, h]
    | some draft => simp [ih, h, paths_of_culprit? h]

/-- A list that can be added as a whole can be added finding by finding. -/
theorem after_extend {drafts : List Draft} (h : (Step.extend drafts).culprit? = none) (result : CheckResult) :
    result.after [.extend drafts] = result.after (drafts.map .addFinding) := by
  have known (draft : Draft) (hd : draft ∈ drafts) : (Step.addFinding draft).culprit?.isNone = true := by
    have own : (Step.addFinding draft).culprit? = none :=
      culprit?_eq_none_iff.mpr (List.forall_mem_singleton.mpr (culprit?_eq_none_iff.mp h draft hd))
    rw [own]
    rfl
  have each : (drafts.map Step.addFinding).filter (·.culprit?.isNone) = drafts.map Step.addFinding :=
    List.filter_eq_self.mpr (List.forall_mem_map.mpr known)
  have found : (drafts.map Step.addFinding).flatMap Step.findings = drafts.filterMap Draft.finding? := by
    rw [List.filterMap_eq_flatMap_toList, List.flatMap_map]
    refine List.flatMap_congr fun draft _ => ?_
    cases made : draft.finding? <;> simp [Step.findings, Step.drafts, made]
  rw [after_eq, after_eq, each, found]
  simp [h, Step.findings, Step.drafts, Step.paths, List.flatMap_map]

/-- An error that was found stays found. -/
theorem exitCode_after {result : CheckResult} (h : result.exitCode = 1) (steps : List Step) :
    (result.after steps).exitCode = 1 := by
  obtain ⟨finding, hf, error⟩ := exitCode_eq_one_iff.mp h
  refine exitCode_eq_one_iff.mpr ⟨finding, ?_, error⟩
  rw [after_eq]
  exact List.mem_append_left _ hf

end CheckResult

open CheckResult in
/-- The result after any steps has the files that were added, and the findings of the steps that succeeded, in the order
    of the steps. A step succeeds if all values given for severities name one, and fails with the first that does not;
    then the result is as before. A list that is added counts as its findings added one by one. Findings are counted by
    severity and all of them together; the exit code is one if an error is among them, and then stays one. -/
theorem result_of_steps (steps : List Step) :
    let result := after {} steps
    result.files = steps.flatMap Step.paths ∧
    result.findings = (steps.filter (·.culprit?.isNone)).flatMap Step.findings ∧
    (∀ step : Step, step.culprit? = none ↔
      ∀ draft ∈ step.drafts, ∃ severity, Severity.ofValue? draft.severity = some severity) ∧
    (∀ step : Step, step.culprit? = none → step.perform result = (.ok (), after {} (steps ++ [step]))) ∧
    (∀ (step : Step) (draft : Draft), step.culprit? = some draft →
      step.perform result = (.error (Severity.refusal draft.severity), result) ∧
        after {} (steps ++ [step]) = result) ∧
    (∀ drafts : List Draft, (Step.extend drafts).culprit? = none →
      after {} (steps ++ [.extend drafts]) = after {} (steps ++ drafts.map .addFinding)) ∧
    result.summary.total = result.findings.length ∧
    (∀ severity, result.summary.count severity = result.findings.countP (·.severity = severity)) ∧
    (result.exitCode = 1 ↔ 0 < result.summary.error) ∧
    (result.exitCode = 1 → ∀ more : List Step, (after {} (steps ++ more)).exitCode = 1) := by
  intro result
  have whole : result = ⟨steps.flatMap Step.paths, (steps.filter (·.culprit?.isNone)).flatMap Step.findings⟩ :=
    after_eq {} steps
  have last (step : Step) : after {} (steps ++ [step]) = (step.perform result).2 := after_append {} steps [step]
  refine ⟨by rw [whole], by rw [whole], fun step => culprit?_eq_none_iff, fun step succeeds => ?_,
    fun step draft bad => ?_, fun drafts succeeds => ?_, total_summary result, count_summary result,
    exitCode_eq_one_iff.trans error_pos_iff.symm, fun failed more => ?_⟩
  · rw [last, perform_eq, succeeds]
  · have failed : step.perform result = (.error (Severity.refusal draft.severity), result) := by rw [perform_eq, bad]
    exact ⟨failed, by rw [last, failed]⟩
  · rw [after_append, after_append, after_extend succeeds]
  · rw [after_append]
    exact exitCode_after failed more

open CheckResult in
/-- The last value of a list names no severity: nothing of the list is added, and the error that was found before goes
    on to count. -/
theorem result_of_steps_last_severity :
    let draft (line : Int) (severity : String) : Draft :=
      ⟨"a.sol", line, "layout.noTabs", "NoTabs", "Tab", .str severity⟩
    let steps : List Step := [.addFile "a.sol", .extend [draft 1 "warning", draft 2 " Error\t"], .addFile "a.sol"]
    let failing : Step := .extend [draft 3 "info", draft 4 "fatal"]
    let result := after {} steps
    result.files = ["a.sol", "a.sol"] ∧ result.findings.map (·.line) = [1, 2] ∧ result.summary = ⟨2, 1, 1, 0⟩ ∧
      failing.perform result = (.error "'fatal' is not a valid Severity", result) ∧
      after {} (steps ++ [failing]) = result ∧
      after {} (steps ++ [.extend [draft 5 "info", draft 6 "INFO"]]) =
        after {} (steps ++ [.addFinding (draft 5 "info"), .addFinding (draft 6 "INFO")]) ∧
      (after {} (steps ++ [failing, .addFinding (draft 7 "info")])).exitCode = 1 := by
  intro draft steps failing result
  obtain ⟨files, findings, -, -, fails, whole, -, -, exit, stays⟩ := result_of_steps steps
  have counts : result.summary = ⟨2, 1, 1, 0⟩ := by decide +kernel
  have bad : failing.culprit? = some (draft 4 "fatal") := rfl
  obtain ⟨failed, unchanged⟩ := fails failing (draft 4 "fatal") bad
  have said : Severity.refusal (.str "fatal") = "'fatal' is not a valid Severity" := by decide +kernel
  refine ⟨files, ?_, counts, said ▸ failed, unchanged, whole _ (by decide +kernel), stays (exit.mpr ?_) _⟩
  · decide +kernel
  · rw [counts]
    decide

end SolidityLint
