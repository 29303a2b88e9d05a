import SolidityLint.Config.Loading
import SolidityLint.Files.Discovery

/-! Why a run does not come to its end. -/

namespace SolidityLint

/-- The failure of a run. -/
inductive Failure where
  | loading (e : LoadFailure)
  | discovery (e : DiscoveryError)
  /-- A file to check is not below the directory from which paths are shown. -/
  | outside (file directory : Path)
  | access (e : FileError)
  /-- A number of the result has more digits than can be shown. -/
  | numberTooLong

namespace Failure

/-- The text of a failure that the run reports and ends with: a fault in the content of the configuration, or files
    that are not there. All other failures end the run at once, also a fault or a result that cannot be shown and a path
    that cannot be followed. -/
def setupMessage? : Failure → Option RawText
  | .loading (.content .numberTooLong) => none
  | .loading (.content e) => some e.message
  | .discovery (.access _) => none
  | .discovery e => some e.message
  | _ => none

def message : Failure → RawText
  | .loading (.file e) => e.message
  | .loading (.form e) => e.message
  | .loading (.content e) => e.message
  | .discovery e => e.message
  | .outside file directory =>
    String.ofList (Text.quoted file.text) ++ " is not in the subpath of " ++
      String.ofList (Text.quoted directory.text) ++ " OR one path is relative and the other is absolute."
  | .access e => e.message
  | .numberTooLong => ConfigError.numberTooLongMessage

end Failure

end SolidityLint
