/-!
# Batches

Work is divided into batches of one size, the last of which may be shorter.
-/

namespace Deadwood.Scan

variable {α : Type}

/-- Batches of `more + 1` items. -/
def batchesOf (more : Nat) : List α → List (List α)
  | [] => []
  | x :: xs => (x :: xs.take more) :: batchesOf more (xs.drop more)
termination_by xs => xs.length
decreasing_by simp only [List.length_drop, List.length_cons]; omega

/-- The most bytes that can be asked for at once. -/
def maxRoom : Nat :=
  Nat.pow 2 63 - 1

/-- Divide items of a given width in bytes into batches; a size of zero counts as one. There has to
be room for a whole batch, whether or not there are as many items. -/
def batches? (width size : Nat) (items : List α) : Option (List (List α)) :=
  if width * max size 1 ≤ maxRoom then some (batchesOf (max size 1 - 1) items) else none

end Deadwood.Scan
