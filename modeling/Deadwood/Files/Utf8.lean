/-!
# Texts as bytes

Bytes are read as UTF-8 one by one. What is owed after the first bytes of a character, and in which
range the next byte has to lie, decides whether a byte goes on with the character or shows that its
beginning is no character. Each such beginning, as long as it can be, counts once.
-/

namespace Deadwood.Utf8

/-- A character of which bytes are still owed. -/
structure Owed where
  /-- The bits read so far. -/
  bits : Nat
  /-- How many bytes are owed besides the next one. -/
  later : Nat
  /-- The least the next byte may be. -/
  low : UInt8
  /-- The greatest the next byte may be. -/
  high : UInt8

/-- What the first byte of a longer character leaves owed. -/
def lead? (b : UInt8) : Option Owed :=
  if 0xc2 ≤ b && b ≤ 0xdf then some ⟨b.toNat - 0xc0, 0, 0x80, 0xbf⟩
  else if b == 0xe0 then some ⟨0, 1, 0xa0, 0xbf⟩
  else if b == 0xed then some ⟨0xd, 1, 0x80, 0x9f⟩
  else if 0xe1 ≤ b && b ≤ 0xef then some ⟨b.toNat - 0xe0, 1, 0x80, 0xbf⟩
  else if b == 0xf0 then some ⟨0, 2, 0x90, 0xbf⟩
  else if 0xf1 ≤ b && b ≤ 0xf3 then some ⟨b.toNat - 0xf0, 2, 0x80, 0xbf⟩
  else if b == 0xf4 then some ⟨4, 2, 0x80, 0x8f⟩
  else none

/-- The bits of a character with those of a further byte. -/
def Owed.extend (p : Owed) (b : UInt8) : Nat :=
  64 * p.bits + (b.toNat - 0x80)

/-- Read bytes as characters; `none` stands for a longest beginning that is no character. -/
def decodeFrom : Option Owed → List UInt8 → List (Option Char)
  | none, [] => []
  | some _, [] => [none]
  | state, b :: bs =>
    let start : List (Option Char) :=
      if b < 0x80 then some (Char.ofNat b.toNat) :: decodeFrom none bs
      else
        match lead? b with
        | some p => decodeFrom (some p) bs
        | none => none :: decodeFrom none bs
    match state with
    | none => start
    | some p =>
      if p.low ≤ b && b ≤ p.high then
        match p.later with
        | 0 => some (Char.ofNat (p.extend b)) :: decodeFrom none bs
        | later + 1 => decodeFrom (some ⟨p.extend b, later, 0x80, 0xbf⟩) bs
      else none :: start

/-- Read bytes as characters; `none` stands for a longest beginning that is no character. -/
def decode (bytes : List UInt8) : List (Option Char) :=
  decodeFrom none bytes

/-- The text of bytes, if all of them are characters. -/
def text? (bytes : List UInt8) : Option String :=
  ((decode bytes).mapM id).map String.ofList

/-- The text of bytes, with a replacement character for what is no character. -/
def text (bytes : List UInt8) : String :=
  String.ofList ((decode bytes).map (·.getD '\ufffd'))

end Deadwood.Utf8
