/-! The options of the command line and their spellings. -/

namespace SolidityLint.CommandLine

/-- An option without a value. -/
inductive Switch where
  | help
  | verbose
  deriving DecidableEq

/-- An option with a value. -/
inductive Parameter where
  | config
  | sourceDir
  | contract
  | format
  | out
  deriving DecidableEq

inductive Flag where
  | switch (s : Switch)
  | parameter (p : Parameter)
  deriving DecidableEq

/-- The spellings of all options, in the order in which they are offered. -/
def spellings : List (String × Flag) :=
  [("-h", .switch .help), ("--help", .switch .help), ("--config", .parameter .config),
   ("--source-dir", .parameter .sourceDir), ("--contract", .parameter .contract), ("-c", .parameter .contract),
   ("--format", .parameter .format), ("--out", .parameter .out), ("--output", .parameter .out),
   ("--verbose", .switch .verbose), ("-v", .switch .verbose)]

namespace Flag

def ofSpelling? (spelling : List Char) : Option Flag :=
  (spellings.find? fun entry => entry.1.toList = spelling).map (·.2)

def ofLetter? (letter : Char) : Option Flag :=
  ofSpelling? ['-', letter]

/-- The spellings that begin in a given way, and their options. -/
def beginningWith (start : List Char) : List (String × Flag) :=
  spellings.filter fun entry => start.isPrefixOf entry.1.toList

/-- The name of an option in messages: all its spellings. -/
def name (flag : Flag) : String :=
  "/".intercalate ((spellings.filter (·.2 = flag)).map (·.1))

end Flag

end SolidityLint.CommandLine
