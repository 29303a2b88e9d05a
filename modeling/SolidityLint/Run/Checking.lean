import SolidityLint.CommandLine.Options
import SolidityLint.Files.Loading
import SolidityLint.Json.Writer
import SolidityLint.Run.Failure
import SolidityLint.Run.Progress

/-! The check that a run makes: it settles on a configuration, finds the files, and reads and checks them one after
    another. Each step yields the messages that it leaves and a value or a failure. -/

namespace SolidityLint

/-- The configuration with the choices of the command line in place of what it says. -/
def CheckerConfig.override (config : CheckerConfig) (options : CommandLine.Options) : CheckerConfig :=
  { config with
    contractNames :=
      if options.contracts.isEmpty then config.contractNames else options.contracts.map RawText.ofString
    sourceDir := if options.sourceDir.isEmpty then config.sourceDir else options.sourceDir }

namespace Run

/-- The configuration of a run: that of a file, if the command line names one, under the choices of the command
    line. -/
def settle (fs : FileSystem) (options : CommandLine.Options) : List Notice × Except Failure CheckerConfig :=
  let (notices, config) :=
    if options.config.isEmpty then ([], .ok {}) else CheckerConfig.load fs (.ofText options.config)
  (notices, (config.mapError .loading).map (·.override options))

/-- The path under which a file is reported: from the name of the source directory on. -/
def shownPath (directory file : Path) : Except Failure Path :=
  match file.relativeTo? directory.parent with
  | some path => .ok path
  | none => .error (.outside file directory.parent)

/-- A file to check. -/
def loadSource (fs : FileSystem) (directory file : Path) : Except Failure Source := do
  let shown ← shownPath directory file
  (Source.load fs file shown.text).mapError .access

/-- The files to check up to the first that cannot be read, and the failure if there is one. -/
def loadSources (fs : FileSystem) (directory : Path) : List Path → List Source × Option Failure
  | [] => ([], none)
  | file :: rest =>
    match loadSource fs directory file with
    | .error e => ([], some e)
    | .ok source =>
      let (sources, failure) := loadSources fs directory rest
      (source :: sources, failure)

/-- The result of a check, if it can be told: its report and its document show the same numbers. -/
def reportable (result : CheckResult) : Except Failure CheckResult :=
  if result.toJson.isShowable then .ok result else .error .numberTooLong

/-- The check of the files that a configuration asks for. -/
def checkFiles (fs : FileSystem) (config : CheckerConfig) : List Notice × Except Failure CheckResult :=
  let directory := Path.ofText config.sourceDir
  match discover fs directory config.contractNames with
  | .error e => ([], .error (.discovery e))
  | .ok files =>
    let (sources, failure) := loadSources fs directory files
    (.contractsFound files.length :: checkNotices config.rules config.severities {} sources,
      match failure with
      | some e => .error e
      | none => reportable (checkSources sources config.rules config.severities))

/-- The check of a run. -/
def check (fs : FileSystem) (options : CommandLine.Options) : List Notice × Except Failure CheckResult :=
  match settle fs options with
  | (notices, .error e) => (notices, .error e)
  | (notices, .ok config) =>
    let (more, result) := checkFiles fs config
    (notices ++ more, result)

end Run

end SolidityLint
