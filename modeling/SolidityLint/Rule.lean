import SolidityLint.Naming.Style
import SolidityLint.Severity

/-! The rules of the style guide, in four categories. Every rule has a key inside its category, a code that names
    the violation, and a severity that holds unless the configuration says otherwise. -/

namespace SolidityLint

/-- A group of rules that is switched on or off as a whole. -/
inductive Category where
  | header
  | imports
  | naming
  | layout
  deriving DecidableEq, Inhabited

namespace Category

/-- The categories in the order in which they are checked. -/
def all : List Category :=
  [.header, .imports, .naming, .layout]

def key : Category → String
  | .header => "structure"
  | .imports => "imports"
  | .naming => "naming"
  | .layout => "layout"

def ofKey? : Value → Option Category
  | .str s => all.find? fun category => category.key = s
  | _ => none

end Category

/-- A rule of the style guide. -/
inductive Rule where
  | spdxLicense
  | spdxAtTop
  | pragmaAfterLicense
  | namedOnly
  | alphabetical
  | contracts
  | functions
  | privateInternalFunctions
  | functionArguments
  | events
  | eventsPastTense
  | constants
  | maxLineLength
  | noTabs
  | noTrailingWhitespace
  deriving DecidableEq, Inhabited

/-- What a rule accepts as its setting: a switch, its own casing style, or a limit. -/
inductive SettingKind where
  | switch
  | style (style : NameStyle)
  | limit

namespace Rule

def all : List Rule :=
  [.spdxLicense, .spdxAtTop, .pragmaAfterLicense, .namedOnly, .alphabetical, .contracts, .functions,
    .privateInternalFunctions, .functionArguments, .events, .eventsPastTense, .constants, .maxLineLength, .noTabs,
    .noTrailingWhitespace]

def category : Rule → Category
  | .spdxLicense | .spdxAtTop | .pragmaAfterLicense => .header
  | .namedOnly | .alphabetical => .imports
  | .contracts | .functions | .privateInternalFunctions | .functionArguments | .events | .eventsPastTense
  | .constants => .naming
  | .maxLineLength | .noTabs | .noTrailingWhitespace => .layout

/-- The key of a rule inside its category. -/
def key : Rule → String
  | .spdxLicense => "spdxLicense"
  | .spdxAtTop => "spdxAtTop"
  | .pragmaAfterLicense => "pragmaAfterLicense"
  | .namedOnly => "namedOnly"
  | .alphabetical => "alphabetical"
  | .contracts => "contracts"
  | .functions => "functions"
  | .privateInternalFunctions => "privateInternalFunctions"
  | .functionArguments => "functionArguments"
  | .events => "events"
  | .eventsPastTense => "eventsPastTense"
  | .constants => "constants"
  | .maxLineLength => "maxLineLength"
  | .noTabs => "noTabs"
  | .noTrailingWhitespace => "noTrailingWhitespace"

/-- The name of a rule in findings and severity overrides: its category and its key. -/
def id (rule : Rule) : String :=
  rule.category.key ++ "." ++ rule.key

/-- The code of a violation. -/
def code : Rule → String
  | .spdxLicense => "MissingSPDX"
  | .spdxAtTop => "SPDXNotAtTop"
  | .pragmaAfterLicense => "PragmaBeforeLicense"
  | .namedOnly => "NamedImportRequired"
  | .alphabetical => "ImportsNotAlphabetical"
  | .contracts => "ContractNaming"
  | .functions => "FunctionNaming"
  | .privateInternalFunctions => "PrivateInternalFunctionNaming"
  | .functionArguments => "FunctionArgumentNaming"
  | .events => "EventNaming"
  | .eventsPastTense => "EventPastTense"
  | .constants => "ConstantNaming"
  | .maxLineLength => "MaxLineLength"
  | .noTabs => "NoTabs"
  | .noTrailingWhitespace => "TrailingWhitespace"

/-- The severity of a violation where the configuration does not say otherwise. -/
def severity : Rule → Severity
  | .spdxLicense | .contracts | .functions | .privateInternalFunctions | .functionArguments | .events | .constants
  | .noTabs => .error
  | .eventsPastTense => .info
  | .spdxAtTop | .pragmaAfterLicense | .namedOnly | .alphabetical | .maxLineLength | .noTrailingWhitespace => .warning

def settingKind : Rule → SettingKind
  | .contracts | .events => .style .capWords
  | .functions => .style .mixedCase
  | .privateInternalFunctions | .functionArguments => .style .underscoreMixedCase
  | .constants => .style .upperCase
  | .maxLineLength => .limit
  | _ => .switch

/-- The rule with an identifier. -/
def ofId? (id : String) : Option Rule :=
  all.find? fun rule => rule.id = id

/-- The rule with a key inside a category. -/
def ofKey? (category : Category) : Value → Option Rule
  | .str s => all.find? fun rule => rule.category = category ∧ rule.key = s
  | _ => none

end Rule

end SolidityLint
