import SolidityLint.Config.Loading
import SolidityLint.Proofs.Config.Acceptance
import SolidityLint.Proofs.Config.Document
import SolidityLint.Proofs.Files.Following
import SolidityLint.Proofs.Yaml.Empty

/-! Reading configurations from files. Two faults are about the document as a whole: that none was found, and that it is
    no mapping. What is said tells them from all others, so it says what is at the path: nothing, a document without
    content, or one with other content. -/

namespace SolidityLint

/-! ### Faults of a document as a whole -/

/-- A fault that is about the document as a whole. -/
inductive ConfigError.IsOfWhole : ConfigError → Prop
  | notFound (path : RawText) : IsOfWhole (.notFound path)
  | notMapping (path : RawText) : IsOfWhole (.notMapping path)

namespace ConfigError

variable {e : ConfigError} {path place : RawText}

theorem not_isOfWhole_reported (h : ¬e.IsOfWhole) : ¬e.reported.IsOfWhole := by
  rcases reported_eq_iff.mp (Eq.refl e.reported) with ⟨-, same⟩ | ⟨-, same⟩
  · rwa [same]
  · rw [same]
    exact nofun

/-- Nothing else that is said starts like that. -/
theorem isOfWhole_of_head? (start : e.message.points.head? = some (.char 'C')) : e.IsOfWhole := by
  cases e with
  | notFound path => exact .notFound path
  | notMapping path => exact .notMapping path
  | numberTooLong => exact absurd start (by decide +kernel)
  | _ =>
    simp only [message, RawText.points_append, List.append_assoc] at start
    cases start

theorem message_notFound_ne (path place : RawText) :
    (notFound path).message ≠ "Config at " ++ place ++ " is not a mapping" := by
  intro same
  have apart := congrArg (fun text => text.points[7]?) same
  simp only [message, RawText.points_append, List.append_assoc] at apart
  cases apart

theorem message_eq_notFound_iff : e.message = "Config file not found: " ++ place ↔ e = .notFound place := by
  refine ⟨fun said => ?_, fun same => same ▸ rfl⟩
  have whole : e.IsOfWhole := isOfWhole_of_head? (by rw [said]; rfl)
  cases whole with
  | notFound path => rw [RawText.points_injective (List.append_cancel_left (congrArg RawText.points said))]
  | notMapping path => exact absurd said.symm (message_notFound_ne place path)

theorem message_eq_notMapping_iff :
    e.message = "Config at " ++ place ++ " is not a mapping" ↔ e = .notMapping place := by
  refine ⟨fun said => ?_, fun same => same ▸ rfl⟩
  have whole : e.IsOfWhole := isOfWhole_of_head? (by rw [said]; rfl)
  cases whole with
  | notFound path => exact absurd said (message_notFound_ne path place)
  | notMapping path =>
    have start := List.append_cancel_right (congrArg RawText.points said)
    rw [RawText.points_injective (List.append_cancel_left start)]

end ConfigError

theorem Rule.not_isOfWhole_fault (rule : Rule) (value : Value) : ¬(rule.fault value).IsOfWhole := by
  unfold fault
  cases rule.settingKind <;> exact nofun

/-- A part of a document is at fault for itself. -/
theorem CheckerConfig.Part.Fault.not_isOfWhole {part : Part} {value : Value} {e : ConfigError}
    (h : part.Fault value e) : ¬e.IsOfWhole := by
  cases h with
  | rules _ refused =>
    obtain ⟨fault, found, rfl⟩ := RuleConfiguration.ofValue_eq_error_iff.mp refused
    refine ConfigError.not_isOfWhole_reported ?_
    cases found with
    | form => exact nofun
    | category _ fault =>
      cases fault with
      | form => exact nofun
      | @rule _ _ rule value => exact rule.not_isOfWhole_fault value
  | severity fault =>
    cases fault with
    | form => exact nofun
    | entry _ fault =>
      cases fault with
      | value => exact ConfigError.not_isOfWhole_reported nofun
      | key => exact nofun
  | contracts | sourceDir | names => exact nofun

namespace CheckerConfig

variable {fs : FileSystem} {path : Path} {bytes : List UInt8} {text place : RawText} {value : Value}

theorem not_isOfWhole_of_ofEntries {entries : List (Value × Value)} {e : ConfigError}
    (h : ofEntries entries = .error e) : ¬e.IsOfWhole := by
  obtain ⟨_, _, _, _, _, _, _, fault⟩ := ofEntries_eq_error_iff.mp h
  exact fault.not_isOfWhole

theorem ofValue_eq_notFound_iff : ofValue text value = .error (.notFound place) ↔ place = text ∧ value = .null := by
  cases value with
  | mapping entries =>
    refine iff_of_false (fun refused => not_isOfWhole_of_ofEntries refused (.notFound _)) ?_
    rintro ⟨-, ⟨⟩⟩
  | _ => simp [ofValue, eq_comm]

theorem ofValue_eq_notMapping_iff : ofValue text value = .error (.notMapping place) ↔
    place = text ∧ value ≠ .null ∧ ∀ entries, value ≠ .mapping entries := by
  cases value with
  | mapping entries =>
    refine iff_of_false (fun refused => not_isOfWhole_of_ofEntries refused (.notMapping _)) ?_
    rintro ⟨-, -, other⟩
    exact other entries rfl
  | _ => simp [ofValue, eq_comm]

/-! ### Loading -/

theorem load_of_entry?_error {e : FileError} (h : fs.entry? path = .error e) : load fs path = ([], .error (.file e)) := by
  rw [load, readDocument, FileSystem.exists?, h]
  rfl

theorem load_of_missing (h : fs.entry? path = .ok none) :
    load fs path = ([], .error (.content (.notFound path.text))) := by
  rw [load, readDocument, FileSystem.exists?, h]
  rfl

theorem load_of_directory {children : List (String × Entry)}
    (h : fs.entry? path = .ok (some (.directory children))) :
    load fs path = ([], .error (.file ⟨.isDirectory, path⟩)) := by
  obtain ⟨place, located, found⟩ := FileSystem.entry?_eq_some_iff.mp h
  rw [load, readDocument, FileSystem.exists?, h, FileSystem.read, located]
  dsimp only
  rw [found]
  rfl

/-- The configuration in a file that is there. -/
theorem load_of_file (there : fs.entry? path = .ok (some (.file bytes))) :
    load fs path = match Yaml.load purpose bytes with
      | .error fault => ([], .error (.form fault))
      | .ok value => (notices path.text value, (ofValue path.text value).mapError .content) := by
  have document : readDocument fs path = ((Yaml.load purpose bytes).mapError .form).map some := by
    rw [readDocument, FileSystem.exists?, there, FileSystem.read_of_entry? there]
    rfl
  rw [load, document]
  cases Yaml.load purpose bytes <;> rfl

theorem load_eq_error_iff (there : fs.entry? path = .ok (some (.file bytes))) (e : LoadFailure) :
    (load fs path).2 = .error e ↔
      (∃ fault, Yaml.load purpose bytes = .error fault ∧ e = .form fault) ∨
        ∃ value fault, Yaml.load purpose bytes = .ok value ∧ ofValue path.text value = .error fault ∧
          e = .content fault := by
  rw [load_of_file there]
  cases Yaml.load purpose bytes with
  | error fault => simp [eq_comm]
  | ok value =>
    refine mapError_eq_error_iff.trans ⟨?_, ?_⟩
    · rintro ⟨fault, refused, rfl⟩
      exact Or.inr ⟨value, fault, rfl, refused, rfl⟩
    · rintro (⟨_, none, -⟩ | ⟨_, fault, ⟨⟩, refused, rfl⟩)
      · cases none
      · exact ⟨fault, refused, rfl⟩

/-- A fault of content is that nothing is at the path, or that of a document which is there. -/
theorem load_eq_content_error_iff {fault : ConfigError} : (load fs path).2 = .error (.content fault) ↔
    fs.entry? path = .ok none ∧ fault = .notFound path.text ∨
      ∃ bytes value, fs.entry? path = .ok (some (.file bytes)) ∧ Yaml.load purpose bytes = .ok value ∧
        ofValue path.text value = .error fault := by
  cases there : fs.entry? path with
  | error e => simp [load_of_entry?_error there]
  | ok entry? =>
    cases entry? with
    | none => simp [load_of_missing there, eq_comm]
    | some entry =>
      cases entry with
      | directory children => simp [load_of_directory there]
      | file bytes => simp [load_eq_error_iff there]

end CheckerConfig

open CheckerConfig

/-- That a configuration was not found is said of just those paths where nothing is and of files whose document is null,
    as is one that has no content; that it is no mapping, of just those files whose document is neither null nor a
    mapping. Both name the path. A path that cannot be looked at is said to be that, and not that nothing is there. -/
theorem missing_or_no_mapping (fs : FileSystem) (path : Path) :
    (∀ place, (∃ fault, (load fs path).2 = .error (.content fault) ∧
        fault.message = "Config file not found: " ++ place) ↔
      place = path.text ∧ (fs.entry? path = .ok none ∨
        ∃ bytes, fs.entry? path = .ok (some (.file bytes)) ∧ Yaml.load purpose bytes = .ok .null)) ∧
    (∀ place, (∃ fault, (load fs path).2 = .error (.content fault) ∧
        fault.message = "Config at " ++ place ++ " is not a mapping") ↔
      place = path.text ∧ ∃ bytes value, fs.entry? path = .ok (some (.file bytes)) ∧
        Yaml.load purpose bytes = .ok value ∧ value ≠ .null ∧ ∀ entries, value ≠ .mapping entries) ∧
    (∀ e, fs.entry? path = .error e → (load fs path).2 = .error (.file e)) ∧
    (∀ bytes cs, fs.entry? path = .ok (some (.file bytes)) → Yaml.IsShortText bytes cs →
      Yaml.HasNoContent (Text.unifyNewlines cs) → (load fs path).2 = .error (.content (.notFound path.text))) := by
  refine ⟨fun place => ?_, fun place => ?_, fun e unseen => ?_, fun bytes cs there whole empty => ?_⟩
  · simp only [ConfigError.message_eq_notFound_iff, exists_eq_right, load_eq_content_error_iff,
      ofValue_eq_notFound_iff, ConfigError.notFound.injEq]
    constructor
    · rintro (⟨missing, rfl⟩ | ⟨bytes, _, there, null, rfl, rfl⟩)
      · exact ⟨rfl, Or.inl missing⟩
      · exact ⟨rfl, Or.inr ⟨bytes, there, null⟩⟩
    · rintro ⟨rfl, missing | ⟨bytes, there, null⟩⟩
      · exact Or.inl ⟨missing, rfl⟩
      · exact Or.inr ⟨bytes, _, there, null, rfl, rfl⟩
  · simp only [ConfigError.message_eq_notMapping_iff, exists_eq_right, load_eq_content_error_iff,
      ofValue_eq_notMapping_iff]
    constructor
    · rintro (⟨-, ⟨⟩⟩ | ⟨bytes, value, there, read, rfl, other⟩)
      exact ⟨rfl, bytes, value, there, read, other⟩
    · rintro ⟨rfl, bytes, value, there, read, other⟩
      exact Or.inr ⟨bytes, value, there, read, rfl, other⟩
  · rw [load_of_entry?_error unseen]
  · exact load_eq_content_error_iff.mpr
      (Or.inr ⟨bytes, _, there, Yaml.load_of_hasNoContent whole empty purpose, rfl⟩)

/-- A path where nothing is, a file of which all is a comment, a list, and a name that is too long. -/
theorem missing_or_no_mapping_comment_and_list :
    let notes := "# no rules yet\n".toList
    let fs : FileSystem :=
      ⟨.directory [("notes.yaml", .file (Utf8.encode notes)), ("list.yaml", .file (Utf8.encode ['-', ' ', 'a']))], []⟩
    let long := Path.ofText (.ofChars (List.replicate 256 'a'))
    (∃ fault, (load fs (.ofText "absent.yaml")).2 = .error (.content fault) ∧
        fault.message = "Config file not found: " ++ "absent.yaml") ∧
      Yaml.HasNoContent (Text.unifyNewlines notes) ∧
      (load fs (.ofText "notes.yaml")).2 = .error (.content (.notFound "notes.yaml")) ∧
      (∃ fault, (load fs (.ofText "list.yaml")).2 = .error (.content fault) ∧
        fault.message = "Config at " ++ "list.yaml" ++ " is not a mapping") ∧
      (load fs long).2 = .error (.file ⟨.nameTooLong, long⟩) := by
  intro notes fs long
  have absent : fs.entry? (.ofText "absent.yaml") = .ok none := by
    have located : fs.locate (.ofText "absent.yaml") = .error .missing := by decide +kernel
    rw [FileSystem.entry?, located]
  have unseen : fs.entry? long = .error ⟨.nameTooLong, long⟩ := by
    have located : fs.locate long = .error .nameTooLong := by decide +kernel
    rw [FileSystem.entry?, located]
  have notesThere : fs.entry? (.ofText "notes.yaml") = .ok (some (.file (Utf8.encode notes))) :=
    FileSystem.entry?_of_located (by decide +kernel : fs.locate (.ofText "notes.yaml") = .ok ["notes.yaml"])
  have listThere : fs.entry? (.ofText "list.yaml") = .ok (some (.file (Utf8.encode ['-', ' ', 'a']))) :=
    FileSystem.entry?_of_located (by decide +kernel : fs.locate (.ofText "list.yaml") = .ok ["list.yaml"])
  have whole : Yaml.IsShortText (Utf8.encode notes) notes :=
    ⟨by decide +kernel, Utf8.decodeStrict_encode _, by decide +kernel, by decide +kernel⟩
  have empty : Yaml.HasNoContent (Text.unifyNewlines notes) := by
    have same : Text.unifyNewlines notes = '#' :: (" no rules yet".toList ++ ['\n']) := by decide +kernel
    rw [same]
    exact .saysNothing (.comment (by decide +kernel) (by rintro _ ⟨⟩; rfl) (.lineEnd rfl .nil))
  have list : Yaml.load purpose (Utf8.encode ['-', ' ', 'a']) = .ok (.list [.null]) := by
    have short : Yaml.IsShortText (Utf8.encode ['-', ' ', 'a']) ['-', ' ', 'a'] :=
      ⟨by decide +kernel, Utf8.decodeStrict_encode _, by decide +kernel, by decide +kernel⟩
    have read : Yaml.Token.ofInput ⟨['-', ' ', 'a'], none⟩ =
        [.blockSequenceStart, .blockEntry, .scalar "a" true, .blockEnd, .streamEnd] := by decide +kernel
    rw [Yaml.load, short.input, show Text.unifyNewlines ['-', ' ', 'a'] = ['-', ' ', 'a'] from rfl, read]
    rfl
  refine ⟨?_, empty, ?_, ?_, ?_⟩
  · exact ((missing_or_no_mapping fs (.ofText "absent.yaml")).1 "absent.yaml").mpr ⟨rfl, Or.inl absent⟩
  · exact (missing_or_no_mapping fs (.ofText "notes.yaml")).2.2.2 _ _ notesThere whole empty
  · exact ((missing_or_no_mapping fs (.ofText "list.yaml")).2.1 "list.yaml").mpr
      ⟨rfl, _, _, listThere, list, by simp, by simp⟩
  · exact (missing_or_no_mapping fs long).2.2.1 _ unseen

/-- Two files that are there, one with nothing in it and one with null, of which it is said that they were not found. -/
theorem null_document_not_found :
    let fs : FileSystem :=
      ⟨.directory [("empty.yaml", .file []), ("null.yaml", .file (Utf8.encode "null\n".toList))], []⟩
    fs.exists? (.ofText "empty.yaml") = .ok true ∧ fs.exists? (.ofText "null.yaml") = .ok true ∧
      (load fs (.ofText "empty.yaml")).2 = .error (.content (.notFound "empty.yaml")) ∧
      (load fs (.ofText "null.yaml")).2 = .error (.content (.notFound "null.yaml")) ∧
      (ConfigError.notFound "null.yaml").message = "Config file not found: null.yaml" ∧
      (ConfigError.notFound "null.yaml").message ≠ "Config at null.yaml is not a mapping" := by
  intro fs
  have emptyThere : fs.entry? (.ofText "empty.yaml") = .ok (some (.file [])) :=
    FileSystem.entry?_of_located (by decide +kernel : fs.locate (.ofText "empty.yaml") = .ok ["empty.yaml"])
  have nullThere : fs.entry? (.ofText "null.yaml") = .ok (some (.file (Utf8.encode "null\n".toList))) :=
    FileSystem.entry?_of_located (by decide +kernel : fs.locate (.ofText "null.yaml") = .ok ["null.yaml"])
  have null : Yaml.load purpose (Utf8.encode "null\n".toList) = .ok .null := by
    have empty : Yaml.HasNoContent (Text.unifyNewlines "null\n".toList) := by
      rw [show Text.unifyNewlines "null\n".toList = "null".toList ++ ['\n'] by decide +kernel]
      exact .word (by decide) (by decide)
    have short : Yaml.IsShortText (Utf8.encode "null\n".toList) "null\n".toList :=
      ⟨by decide +kernel, Utf8.decodeStrict_encode _, by decide +kernel, by decide +kernel⟩
    exact Yaml.load_of_hasNoContent short empty purpose
  refine ⟨?_, ?_, ?_, ?_, by decide +kernel, by decide +kernel⟩
  · rw [FileSystem.exists?, emptyThere]
    rfl
  · rw [FileSystem.exists?, nullThere]
    rfl
  · rw [load_of_file emptyThere, Yaml.load_nil]
    rfl
  · rw [load_of_file nullThere, null]
    rfl

end SolidityLint
