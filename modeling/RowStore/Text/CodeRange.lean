/-!
Sets of characters given by intervals of code points, the form in which the character classes
of this library are written down.  Main statement: `mem_iff`, which reads membership as "some
interval holds the code point".
-/

namespace RowStore.Text

/-- An interval of code points, both ends included. -/
abbrev CodeRange := Nat × Nat

/-- Whether some interval of `ranges` holds the code point `n`. -/
def CodeRange.mem (ranges : List CodeRange) (n : Nat) : Bool :=
  ranges.any fun r => r.1 ≤ n && n ≤ r.2

theorem CodeRange.mem_iff {ranges : List CodeRange} {n : Nat} :
    CodeRange.mem ranges n = true ↔ ∃ r ∈ ranges, r.1 ≤ n ∧ n ≤ r.2 := by
  simp [CodeRange.mem]

end RowStore.Text
