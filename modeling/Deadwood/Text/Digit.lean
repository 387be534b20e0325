/-!
# Digits

Numbers written with digits of a base up to sixteen, and characters given by their code point.
-/

namespace Deadwood.Text

/-- The value of a digit of a base. -/
def digit? (base : Nat) (c : Char) : Option Nat :=
  let value :=
    if c.isDigit then some (c.toNat - '0'.toNat)
    else if 'a' ≤ c ∧ c ≤ 'f' then some (c.toNat - 'a'.toNat + 10)
    else if 'A' ≤ c ∧ c ≤ 'F' then some (c.toNat - 'A'.toNat + 10)
    else none
  value.filter (· < base)

/-- The number that one or more digits stand for. -/
def digits? (base : Nat) (cs : List Char) : Option Nat :=
  if cs.isEmpty then none
  else cs.foldlM (fun n c => (digit? base c).map (base * n + ·)) 0

/-- The character whose code point the first `n` characters give in hexadecimal digits. -/
def codePoint? (n : Nat) (cs : List Char) : Option Char := do
  if cs.length < n then none
  else
    let code ← digits? 16 (cs.take n)
    if (0xd800 ≤ code && code ≤ 0xdfff) || 0x10ffff < code then none else some (Char.ofNat code)

end Deadwood.Text
