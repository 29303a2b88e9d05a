import Mathlib.Data.List.Basic
import Mathlib.Data.List.Induction
import SolidityLint.CommandLine.Options

/-! The choices of a command line, option by option. A command line is accepted if its words are complete options, and
    what it chooses depends, for each option, on the values of that option alone: the last one counts, and of contracts
    all of them. So options may change places as long as each keeps its own values in order. -/

namespace SolidityLint.CommandLine

/-! ### The values of an option -/

def Use.flag : Use → Flag
  | .switch s => .switch s
  | .value parameter _ => .parameter parameter

/-- The value that a use gives to an option. -/
def Use.valueOf? (parameter : Parameter) : Use → Option (Option String)
  | .switch _ => none
  | .value other given => if other = parameter then some given else none

/-- All values that an option is given, in order. -/
def valuesOf (parameter : Parameter) (uses : List Use) : List (Option String) :=
  uses.filterMap (Use.valueOf? parameter)

/-- The last of some values, which may be no text. Before the first it is what it was at the start. -/
def lastOr (start : String) (values : List (Option String)) : String :=
  (values.getLast?.map (·.getD "")).getD start

/-- The format that a value stands for. -/
def Format.ofValue? : Option String → Option Format
  | none => some .text
  | some name => ofName? name

theorem valuesOf_filter_flag (parameter : Parameter) (uses : List Use) :
    valuesOf parameter (uses.filter (·.flag = .parameter parameter)) = valuesOf parameter uses := by
  rw [valuesOf, valuesOf, List.filterMap_filter]
  refine List.filterMap_congr fun use _ => ?_
  cases use with
  | switch s => simp [Use.valueOf?]
  | value other value =>
    by_cases same : other = parameter
    · simp [Use.flag, same]
    · simp [Use.flag, Use.valueOf?, same]

theorem valuesOf_switch (parameter : Parameter) (s : Switch) (uses : List Use) :
    valuesOf parameter (.switch s :: uses) = valuesOf parameter uses := rfl

theorem valuesOf_value (parameter other : Parameter) (value : Option String) (uses : List Use) :
    valuesOf parameter (.value other value :: uses) =
      if other = parameter then value :: valuesOf parameter uses else valuesOf parameter uses := by
  by_cases same : other = parameter
  · simp [valuesOf, Use.valueOf?, same]
  · simp [valuesOf, Use.valueOf?, same]

theorem lastOr_cons (start : String) (value : Option String) (values : List (Option String)) :
    lastOr start (value :: values) = lastOr (value.getD "") values := by
  cases values with
  | nil => rfl
  | cons next rest => rw [lastOr, lastOr, List.getLast?_cons_cons, List.getLast?_cons]; rfl

/-! ### What the uses of options choose -/

namespace Options

/-- Takes a format in place of another one. -/
def takeFormat (_ : Format) (value : Option String) : Except Halt Format :=
  match Format.ofValue? value with
  | some format => .ok format
  | none => .error (.misuse (.formatUnknown (value.getD "")))

/-- The choices that uses of options lead to, for each option by itself. -/
def chosen (options : Options) (uses : List Use) : Except Halt Options :=
  ((valuesOf .format uses).foldlM takeFormat options.format).map fun format =>
    { config := lastOr options.config (valuesOf .config uses)
      sourceDir := lastOr options.sourceDir (valuesOf .sourceDir uses)
      contracts := options.contracts ++ (valuesOf .contract uses).map (·.getD "[]")
      format
      out := lastOr options.out (valuesOf .out uses)
      verbose := options.verbose || uses.contains (.switch .verbose) }

/-- Uses of options one after another come to the choices that each option makes by itself, unless help is asked
    for. -/
theorem useAll_eq_chosen {uses : List Use} (helpless : .switch .help ∉ uses) (options : Options) :
    options.useAll uses = options.chosen uses := by
  induction uses generalizing options with
  | nil => simp [useAll, chosen, valuesOf, lastOr, pure, Except.pure, Except.map]
  | cons use uses ih =>
    obtain ⟨first, others⟩ := not_or.mp (List.mem_cons.not.mp helpless)
    have step (next : Options) (used : options.use use = .ok next) :
        options.useAll (use :: uses) = next.chosen uses := by
      rw [useAll, List.foldlM_cons, used]
      exact ih others next
    cases use with
    | switch s =>
      cases s with
      | help => exact absurd rfl first
      | verbose =>
        rw [step { options with verbose := true } rfl]
        simp [chosen, valuesOf_switch]
    | value parameter value =>
      cases parameter with
      | config =>
        rw [step { options with config := value.getD "" } rfl]
        simp [chosen, valuesOf_value, lastOr_cons]
      | sourceDir =>
        rw [step { options with sourceDir := value.getD "" } rfl]
        simp [chosen, valuesOf_value, lastOr_cons]
      | contract =>
        rw [step { options with contracts := options.contracts ++ [value.getD "[]"] } rfl]
        simp [chosen, valuesOf_value]
      | out =>
        rw [step { options with out := value.getD "" } rfl]
        simp [chosen, valuesOf_value, lastOr_cons]
      | format =>
        have taken : options.use (.value .format value) =
            (takeFormat options.format value).map fun format => { options with format } := by
          cases value with
          | none => rfl
          | some name =>
            simp only [use, set, takeFormat, Format.ofValue?]
            cases Format.ofName? name <;> rfl
        cases read : takeFormat options.format value with
        | ok format =>
          rw [step { options with format } (by rw [taken, read]; rfl)]
          simp [chosen, valuesOf_value, List.foldlM_cons, read, Except.bind, bind]
        | error e =>
          rw [useAll, List.foldlM_cons, taken, read]
          simp [chosen, valuesOf_value, List.foldlM_cons, read, Except.bind, bind, Except.map]

/-- Fewer uses come before more. -/
theorem useAll_append (options : Options) (first second : List Use) :
    options.useAll (first ++ second) = (options.useAll first).bind (·.useAll second) :=
  List.foldlM_append

end Options

/-! ### Which command lines are accepted -/

/-- Words that are complete options, and the uses of options that they spell. -/
inductive Word.Spell : List Word → List Use → Prop
  | nil : Spell [] []
  | uses (here : List Use) {rest : List Word} {more : List Use} (others : Spell rest more) :
      Spell (.uses here :: rest) (here ++ more)
  | wanting (here : List Use) (parameter : Parameter) (value : String) {rest : List Word} {more : List Use}
      (others : Spell rest more) :
      Spell (.wanting here parameter :: .operand value :: rest) (here ++ .value parameter (some value) :: more)

/-- Words spell the same uses whenever they spell any. -/
theorem Word.Spell.unique {words : List Word} {uses others : List Use} (h : Spell words uses)
    (h' : Spell words others) : uses = others := by
  induction h generalizing others with
  | nil =>
    cases h'
    rfl
  | uses here rest ih =>
    cases h' with
    | uses _ rest' => rw [ih rest']
  | wanting here parameter value rest ih =>
    cases h' with
    | wanting _ _ _ rest' => rw [ih rest']

namespace Options

theorem readWords_of_spell {words : List Word} {uses : List Use} (spell : Word.Spell words uses) (options : Options) :
    readWords [] options words = options.useAll uses := by
  induction spell generalizing options with
  | nil => rfl
  | uses here others ih =>
    rw [readWords, useAll_append]
    exact congrArg _ (funext ih)
  | @wanting here parameter value rest more others ih =>
    have joined : here ++ .value parameter (some value) :: more = here ++ [.value parameter (some value)] ++ more :=
      List.append_cons ..
    rw [readWords, joined, useAll_append _ (here ++ _)]
    exact congrArg _ (funext ih)

theorem exists_spell_of_readWords {extras : List String} {options after : Options} {words : List Word}
    (h : readWords extras options words = .ok after) : extras = [] ∧ ∃ uses, Word.Spell words uses := by
  fun_induction readWords extras options words with
  | case1 extras options none => exact ⟨List.isEmpty_iff.mp none, [], .nil⟩
  | case2 | case8 | case9 => cases h
  | case3 extras options text rest ih => exact absurd (ih h).1 (by simp)
  | case4 extras options text rest ih => exact absurd (ih h).1 (by simp)
  | case5 extras options rest ih => exact absurd (ih h).1 (by simp)
  | case6 extras options here rest ih =>
    cases used : options.useAll here with
    | error e =>
      rw [used] at h
      cases h
    | ok next =>
      rw [used] at h
      obtain ⟨none, uses, spell⟩ := ih next h
      exact ⟨none, _, .uses here spell⟩
  | case7 extras options here parameter value rest ih =>
    cases used : options.useAll (here ++ [.value parameter (some value)]) with
    | error e =>
      rw [used] at h
      cases h
    | ok next =>
      rw [used] at h
      obtain ⟨none, uses, spell⟩ := ih next h
      exact ⟨none, _, .wanting here parameter value spell⟩

theorem not_help_of_useAll {options after : Options} {uses : List Use} (h : options.useAll uses = .ok after) :
    .switch .help ∉ uses := by
  intro hm
  obtain ⟨first, more, rfl⟩ := List.append_of_mem hm
  rw [useAll_append] at h
  cases used : options.useAll first with
  | error e =>
    rw [used] at h
    cases h
  | ok next =>
    rw [used] at h
    cases h

/-- An accepted command line is made of complete options, and its choices are those of each option by itself. -/
theorem exists_of_ofArguments {arguments : List String} {options : Options}
    (h : ofArguments arguments = .ok options) :
    ∃ words uses, Word.ofStrings arguments = .ok words ∧ Word.Spell words uses ∧
      Options.chosen {} uses = .ok options := by
  unfold ofArguments at h
  split at h
  · cases h
  · rename_i words read
    obtain ⟨-, uses, spell⟩ := exists_spell_of_readWords h
    rw [readWords_of_spell spell] at h
    exact ⟨words, uses, read, spell, useAll_eq_chosen (not_help_of_useAll h) _ ▸ h⟩

/-- What is chosen once all formats are known ones. -/
theorem chosen_eq_ok {options after : Options} {uses : List Use} (h : options.chosen uses = .ok after) :
    after = { config := lastOr options.config (valuesOf .config uses)
              sourceDir := lastOr options.sourceDir (valuesOf .sourceDir uses)
              contracts := options.contracts ++ (valuesOf .contract uses).map (·.getD "[]")
              format := ((valuesOf .format uses).getLast?.bind Format.ofValue?).getD options.format
              out := lastOr options.out (valuesOf .out uses)
              verbose := options.verbose || uses.contains (.switch .verbose) } := by
  have last {values : List (Option String)} {start format : Format}
      (taken : values.foldlM takeFormat start = .ok format) :
      format = (values.getLast?.bind Format.ofValue?).getD start := by
    induction values using List.reverseRecOn generalizing format with
    | nil => exact (Except.ok.inj taken).symm
    | append_singleton values value ih =>
      rw [List.foldlM_append] at taken
      cases before : values.foldlM takeFormat start with
      | error e =>
        rw [before] at taken
        cases taken
      | ok middle =>
        rw [before] at taken
        have taken : (takeFormat middle value).bind .ok = .ok format := taken
        rw [List.getLast?_append, List.getLast?_singleton, Option.some_or, Option.bind_some]
        unfold takeFormat at taken
        cases read : Format.ofValue? value with
        | none =>
          rw [read] at taken
          cases taken
        | some found =>
          rw [read] at taken
          exact (Except.ok.inj taken).symm
  unfold chosen at h
  cases taken : (valuesOf .format uses).foldlM takeFormat options.format with
  | error e =>
    rw [taken] at h
    cases h
  | ok format =>
    rw [taken] at h
    obtain rfl := Except.ok.inj h
    rw [last taken]

end Options

/-! ### Options that change places -/

/-- A complete option in one word: an option with its value behind an equals sign, or the switch for messages. -/
inductive Group where
  | assignment (spelling : String) (parameter : Parameter) (value : String)
      (spelled : (spelling, .parameter parameter) ∈ spellings) (other : value ≠ "--")
  | verbose

namespace Group

def word : Group → String
  | assignment spelling _ value _ _ => spelling ++ "=" ++ value
  | verbose => "--verbose"

def use : Group → Use
  | assignment _ parameter value _ _ => .value parameter (some value)
  | verbose => .switch .verbose

theorem ofSpelling?_of_mem {spelling : String} {flag : Flag} (h : (spelling, flag) ∈ spellings) :
    Flag.ofSpelling? spelling.toList = some flag := by
  have each : ∀ entry ∈ spellings, Flag.ofSpelling? entry.1.toList = some entry.2 := by decide
  exact each _ h

theorem ofSpelling?_of_assignment {word : List Char} (assigns : '=' ∈ word) : Flag.ofSpelling? word = none := by
  have each : ∀ entry ∈ spellings, '=' ∉ entry.1.toList := by decide
  have unfound : spellings.find? (fun entry => entry.1.toList = word) = none := by
    refine List.find?_eq_none.mpr fun entry hm same => each entry hm ?_
    rwa [of_decide_eq_true same]
  rw [Flag.ofSpelling?, unfound]
  rfl

theorem splitAssignment_of_not_mem {before : List Char} (h : '=' ∉ before) (behind : List Char) :
    Word.splitAssignment (before ++ '=' :: behind) = (before, some behind) := by
  have start : (before ++ '=' :: behind).takeWhile (· ≠ '=') = before := by
    rw [List.takeWhile_append_of_pos, List.takeWhile_cons_of_neg (by decide), List.append_nil]
    intro c hc
    exact decide_eq_true fun same => h (same ▸ hc)
  rw [Word.splitAssignment]
  simp only [start, List.drop_left]

/-- A complete option in one word is read as this one use. -/
theorem ofString_word (group : Group) : Word.ofString group.word = .ok (.uses [group.use]) := by
  cases group with
  | verbose => decide
  | assignment spelling parameter value spelled other =>
    have dashed : ∀ entry ∈ spellings, entry.1.toList.head? = some '-' ∧ '=' ∉ entry.1.toList := by decide
    obtain ⟨dash, plain⟩ := dashed _ spelled
    have spread : (spelling ++ "=" ++ value).toList = spelling.toList ++ '=' :: value.toList := by simp
    have start : (spelling.toList ++ '=' :: value.toList).head? = some '-' := by
      rw [List.head?_append, dash, Option.some_or]
    have kept : Word.attachedValue value.toList = some value := by
      rw [Word.attachedValue, if_neg, String.ofList_toList]
      exact fun same => other (String.toList_inj.mp same)
    rw [word, Word.ofString, spread, if_pos start, Word.ofDashed, ofSpelling?_of_assignment (by simp),
      splitAssignment_of_not_mem plain]
    dsimp only
    rw [ofSpelling?_of_mem spelled]
    dsimp only
    rw [Word.assigned, kept]
    rfl

theorem ofStrings_map_word (groups : List Group) :
    Word.ofStrings (groups.map word) = .ok (groups.map fun group => .uses [group.use]) := by
  induction groups with
  | nil => rfl
  | cons group rest ih =>
    have other : group.word ≠ "--" := by
      intro same
      have read := group.ofString_word
      rw [same] at read
      cases read
    rw [List.map_cons, Word.ofStrings, if_neg other, group.ofString_word, ih]
    rfl

/-- Complete options choose for each option by itself. -/
theorem ofArguments_map_word (groups : List Group) :
    Options.ofArguments (groups.map word) = Options.chosen {} (groups.map use) := by
  have spell : Word.Spell (groups.map fun group => .uses [group.use]) (groups.map use) := by
    induction groups with
    | nil => exact .nil
    | cons group rest ih => exact .uses [group.use] ih
  have helpless : .switch .help ∉ groups.map use := by
    intro hm
    obtain ⟨group, -, same⟩ := List.mem_map.mp hm
    cases group <;> cases same
  rw [Options.ofArguments, ofStrings_map_word]
  exact (Options.readWords_of_spell spell {}).trans (Options.useAll_eq_chosen helpless {})

/-- Groups in another order and with other spellings: each option is used as before. -/
def Rearranges (groups others : List Group) : Prop :=
  ∀ flag, (groups.map use).filter (·.flag = flag) = (others.map use).filter (·.flag = flag)

theorem Rearranges.ofArguments_eq {groups others : List Group} (h : Rearranges groups others) :
    Options.ofArguments (groups.map word) = Options.ofArguments (others.map word) := by
  have values (parameter : Parameter) :
      valuesOf parameter (groups.map use) = valuesOf parameter (others.map use) := by
    rw [← valuesOf_filter_flag, h, valuesOf_filter_flag]
  have found (uses : List Use) : uses.contains (.switch .verbose) =
      (uses.filter (·.flag = .switch .verbose)).contains (.switch .verbose) := by
    simp [Use.flag]
  rw [ofArguments_map_word, ofArguments_map_word, Options.chosen, Options.chosen, values .format, values .config,
    values .sourceDir, values .contract, values .out, found, h, ← found]

end Group

end SolidityLint.CommandLine
