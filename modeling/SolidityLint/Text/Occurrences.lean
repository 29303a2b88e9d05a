/-! Occurrences of a pattern in a text, from left to right and without overlap: after an occurrence the search goes
    on where it ends. -/

namespace SolidityLint.Text

/-- Searches for what `read` finds at the front of a text, told whether a line starts there, and returns what it
    finds with the line it starts on. `skip` characters are passed over first; `width` is the number of characters
    of a finding. -/
def occurrencesFrom {α : Type} (read : Bool → List Char → Option α) (width : α → Nat) :
    (line skip : Nat) → (atLineStart : Bool) → List Char → List (Nat × α)
  | _, _, _, [] => []
  | line, skip + 1, _, c :: rest =>
    occurrencesFrom read width (if c = '\n' then line + 1 else line) skip (c = '\n') rest
  | line, 0, atLineStart, c :: rest =>
    let next := if c = '\n' then line + 1 else line
    match read atLineStart (c :: rest) with
    | some found => (line, found) :: occurrencesFrom read width next (width found - 1) (c = '\n') rest
    | none => occurrencesFrom read width next 0 (c = '\n') rest

/-- The occurrences of a pattern in a text with the lines they start on, counted from one. -/
def occurrences {α : Type} (read : Bool → List Char → Option α) (width : α → Nat) (cs : List Char) :
    List (Nat × α) :=
  occurrencesFrom read width 1 0 true cs

end SolidityLint.Text
