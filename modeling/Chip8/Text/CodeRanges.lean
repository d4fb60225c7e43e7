/-!
# Sets of characters

A property of characters that only a table can give is held as the ranges of the code points that
have it.

* `CodeRanges`           such a table, in rising order;
* `CodeRanges.contains`  the characters of the table.
-/

namespace Chip8.Text

/-- each range is one that starts at `first` or later, and ends before a gap to the next one -/
def risesFrom (first : Nat) : List (Nat × Nat) → Bool
  | [] => true
  | (low, high) :: rest => first ≤ low && low ≤ high && risesFrom (high + 2) rest

/-- ranges of code points, from the first to the last one of each, in rising order -/
structure CodeRanges where
  ranges : List (Nat × Nat)
  rising : risesFrom 0 ranges = true := by decide +kernel

namespace CodeRanges

def contains (t : CodeRanges) (c : Char) : Bool :=
  t.ranges.any fun r => r.1 ≤ c.toNat && c.toNat ≤ r.2

end CodeRanges

end Chip8.Text
