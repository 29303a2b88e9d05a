import SolidityLint.CommandLine.Misuse

/-! What the program tells about its command line. -/

namespace SolidityLint.CommandLine

/-- The lines about the options in short. -/
def usageLines : List String :=
  ["usage: solstyle [-h] [--config CONFIG] [--source-dir SOURCE_DIR]",
   "                [--contract CONTRACTS] [--format \x7btext,json\x7d]",
   "                [--out OUTPUT_PATH] [--verbose]"]

def helpLines : List String :=
  usageLines ++
  ["",
   "Check Solidity sources against the project style guide.",
   "",
   "options:",
   "  -h, --help            show this help message and exit",
   "  --config CONFIG       Path to a YAML rule configuration (defaults to the",
   "                        built-in rules).",
   "  --source-dir SOURCE_DIR",
   "                        Directory holding the contracts (overrides the",
   "                        config's source_dir).",
   "  --contract CONTRACTS, -c CONTRACTS",
   "                        Contract name to check, without .sol (repeatable; '*'",
   "                        checks everything).",
   "  --format \x7btext,json\x7d  Print a JSON report after the summary when no --out is",
   "                        given.",
   "  --out OUTPUT_PATH, --output OUTPUT_PATH",
   "                        Path to write the JSON report (e.g.,",
   "                        artifacts/style.json).",
   "  --verbose, -v         Log per-file progress."]

/-- A text of lines, each with a newline at its end. -/
def ended (lines : List String) : String :=
  String.join (lines.map (· ++ "\n"))

def help : String :=
  ended helpLines

/-- What is told about a faulty command line. -/
def Misuse.complaint (e : Misuse) : String :=
  ended (usageLines ++ ["solstyle: error: " ++ e.message])

end SolidityLint.CommandLine
