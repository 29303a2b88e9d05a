import SolidityLint.Check.Context
import SolidityLint.Text.Blank
import SolidityLint.Text.Lines

/-! The licence line should be there, on the first line, and in front of the pragma. -/

namespace SolidityLint.Check

open Text

/-- The text that marks a licence line. -/
def licenceMarker : List Char :=
  "SPDX-License-Identifier:".toList

/-- Whether a text has the licence marker anywhere. -/
def hasLicence : List Char → Bool
  | [] => false
  | c :: rest => licenceMarker.isPrefixOf (c :: rest) || hasLicence rest

/-- Whether a line is a pragma for the language version, white space aside. -/
def isPragma (line : List Char) : Bool :=
  "pragma solidity".toList.isPrefixOf (trim line)

/-- The violations concerning the licence: it is missing, or not on the first line. -/
def licence (rules : HeaderRules) (text : List Char) : List Violation :=
  if !rules.spdxLicense then []
  else if !hasLicence text then [⟨1, .spdxLicense, "Missing SPDX license identifier"⟩]
  else if rules.spdxAtTop && !(((lines text).head?.map fun line => hasLicence (trim line)).getD false) then
    [⟨1, .spdxAtTop, "SPDX license should be on first line"⟩]
  else []

/-- The violation of a pragma in front of the licence line. -/
def pragma (rules : HeaderRules) (text : List Char) : List Violation :=
  if !rules.pragmaAfterLicense then []
  else match (lines text).findIdx? isPragma, (lines text).findIdx? hasLicence with
    | some pragma, some licence =>
      if pragma < licence then [⟨pragma + 1, .pragmaAfterLicense, "Pragma should come after SPDX license"⟩] else []
    | _, _ => []

/-- The violations of the rules on licence line and pragma. -/
def header (rules : HeaderRules) (text : List Char) : List Violation :=
  licence rules text ++ pragma rules text

/-- The pass over licence line and pragma. -/
def headerPass (context : CheckContext) (rules : HeaderRules) (result : CheckResult) : CheckResult :=
  context.record (context.record result (licence rules context.text)) (pragma rules context.text)

end SolidityLint.Check
