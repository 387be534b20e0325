import Deadwood.Text.Range

/-!
# White space

The Unicode property White_Space, which decides what is dropped from a written type, what a blank
in a reference shape stands for, and what separates words.
-/

namespace Deadwood.Text

/-- Ranges of the property White_Space, in ascending order. -/
def blankRanges : List (Nat × Nat) := [
  (0x9, 0xD), (0x20, 0x20), (0x85, 0x85), (0xA0, 0xA0), (0x1680, 0x1680), (0x2000, 0x200A),
  (0x2028, 0x2029), (0x202F, 0x202F), (0x205F, 0x205F), (0x3000, 0x3000)]

/-- The property White_Space. -/
def isBlank (c : Char) : Bool :=
  inRanges blankRanges c.toNat

end Deadwood.Text
