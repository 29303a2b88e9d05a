/-! Sets of code points given as tables of inclusive ranges. -/

namespace SolidityLint.Text

/-- Whether a code point lies in one of the inclusive ranges of a table. -/
def inRanges (table : List (Nat × Nat)) (code : Nat) : Bool :=
  table.any fun range => range.1 ≤ code && code ≤ range.2

theorem inRanges_iff {table : List (Nat × Nat)} {code : Nat} :
    inRanges table code = true ↔ ∃ range ∈ table, range.1 ≤ code ∧ code ≤ range.2 := by
  simp [inRanges]

end SolidityLint.Text
