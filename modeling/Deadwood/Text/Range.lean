/-!
# Ranges of code points

Unicode properties are kept as lists of closed ranges; this module holds the membership test.
-/

namespace Deadwood.Text

/-- Whether `n` lies in one of the closed ranges of `table`. -/
def inRanges (table : List (Nat × Nat)) (n : Nat) : Bool :=
  table.any fun (low, high) => low ≤ n && n ≤ high

end Deadwood.Text
