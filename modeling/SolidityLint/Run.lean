import SolidityLint.CommandLine.Usage
import SolidityLint.Report
import SolidityLint.Run.Checking
import SolidityLint.Run.Outcome

/-! A run of the program: from the words of the command line and a tree of files to what is printed and written. The
    report is printed before anything is written, and nothing is written unless the check is made. -/

namespace SolidityLint.Run

open CommandLine (Options)

/-- The messages about the progress of a run, printed if it is verbose. -/
def progress (options : Options) (notices : List Notice) : List Effect :=
  if options.verbose then notices.map fun notice => .diagnostic (notice.line ++ "\n") else []

/-- The document of a result. -/
def payload (result : CheckResult) : Except Failure String :=
  match result.toJson.print? with
  | some document => .ok document
  | none => .error .numberTooLong

/-- A document is written to a file; its directory is made before. -/
def writeDocument (fs : FileSystem) (out document : String) (code : Nat) : Outcome :=
  let path := Path.ofText out
  let made := Effect.ensureDirectories path.parent
  let written := Effect.writeFile path document
  match fs.ensureDirectories path.parent with
  | (_, .error e) => ⟨[made], .broken (.access e)⟩
  | (fs, .ok ()) =>
    match fs.write path (Utf8.encode document.toList) with
    | .error e => ⟨[made, written], .broken (.access e)⟩
    | .ok _ => ⟨[made, written, .output ("\nReport written to " ++ out ++ "\n")], .exit code⟩

/-- What follows the report: the document in a file, if the command line names one, or printed, if it asks for that. -/
def deliver (fs : FileSystem) (options : Options) (result : CheckResult) : Outcome :=
  match payload result with
  | .error e => ⟨[], .broken e⟩
  | .ok document =>
    if !options.out.isEmpty then writeDocument fs options.out document result.exitCode
    else match options.format with
      | .text => ⟨[], .exit result.exitCode⟩
      | .json => ⟨[.output ("\nJSON Report\n" ++ document ++ "\n")], .exit result.exitCode⟩

/-- A failure to set up the run is reported; any other failure breaks it off. -/
def fail (e : Failure) : Outcome :=
  match e.setupMessage? with
  | some message => ⟨[.diagnostic ("Style check failed: " ++ message ++ "\n")], .exit 2⟩
  | none => ⟨[], .broken e⟩

/-- A run with the choices of a command line. -/
def withOptions (fs : FileSystem) (options : Options) : Outcome :=
  let (notices, result) := check fs options
  let rest := match result with
    | .error e => fail e
    | .ok result => (deliver fs options result).precededBy [.output (result.report ++ "\n")]
  rest.precededBy (progress options notices)

end SolidityLint.Run

namespace SolidityLint

/-- A run of the program. -/
def run (fs : FileSystem) (arguments : List String) : Outcome :=
  match CommandLine.Options.ofArguments arguments with
  | .error .help => ⟨[.output CommandLine.help], .exit 0⟩
  | .error (.misuse e) => ⟨[.diagnostic e.complaint], .exit 2⟩
  | .ok options => Run.withOptions fs options

end SolidityLint
