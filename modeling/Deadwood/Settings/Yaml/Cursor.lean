/-!
# A place in a YAML text

Lines and columns carry meaning in YAML, so a text is read through a cursor that counts them.
-/

namespace Deadwood.Yaml

/-- Characters that a YAML text may hold. -/
def isAllowed (c : Char) : Bool :=
  let n := c.toNat
  c == '\t' || c == '\n' || c == '\r' || (0x20 ≤ n && n ≤ 0x7e) || n == 0x85
    || (0xa0 ≤ n && n ≤ 0xfffd) || 0x10000 ≤ n

def isBlank (c : Char) : Bool :=
  c == ' ' || c == '\t'

/-- Characters that end a line. -/
def isBreak (c : Char) : Bool :=
  c == '\n' || c == '\r' || c == '\x85' || c == '\u2028' || c == '\u2029'

/-- Characters of anchors, tag handles and directive names. -/
def isNameChar (c : Char) : Bool :=
  c.isAlphanum || c == '_' || c == '-'

/-- The rest of a text with its place in the whole. -/
structure Cursor where
  rest : List Char
  index : Nat
  line : Nat
  column : Nat
  deriving Repr

namespace Cursor

def ofText (text : List Char) : Cursor :=
  ⟨text, 0, 0, 0⟩

/-- The character `k` places ahead. -/
def char? (c : Cursor) (k : Nat) : Option Char :=
  c.rest[k]?

/-- Whether `ch` stands `k` places ahead. -/
def has (c : Cursor) (k : Nat) (ch : Char) : Bool :=
  c.char? k == some ch

/-- Whether the character ahead satisfies `p`. -/
def sees (c : Cursor) (p : Char → Bool) : Bool :=
  (c.char? 0).any p

/-- Whether a blank, a line break or the end stands `k` places ahead. -/
def endsWordAt (c : Cursor) (k : Nat) : Bool :=
  (c.char? k).all fun ch => isBlank ch || isBreak ch

/-- Whether a line break or the end stands ahead. -/
def endsLine (c : Cursor) : Bool :=
  (c.char? 0).all isBreak

/-- Go past one character of a line. -/
def skip (c : Cursor) : Cursor :=
  match c.rest with
  | [] => c
  | _ :: rest => ⟨rest, c.index + 1, c.line, c.column + 1⟩

/-- Go past `n` characters of a line. -/
def skips : Nat → Cursor → Cursor
  | 0, c => c
  | n + 1, c => skips n c.skip

/-- Go past the characters of a line that satisfy `p`. -/
def skipWhile (p : Char → Bool) (c : Cursor) : Cursor :=
  c.skips (c.rest.takeWhile p).length

/-- Go past a line break; with it comes the text that it stands for. -/
def skipBreak (c : Cursor) : List Char × Cursor :=
  match c.rest with
  | '\r' :: '\n' :: rest => (['\n'], ⟨rest, c.index + 2, c.line + 1, 0⟩)
  | ch :: rest =>
    let text := if ch == '\u2028' || ch == '\u2029' then ch else '\n'
    if isBreak ch then ([text], ⟨rest, c.index + 1, c.line + 1, 0⟩) else ([], c)
  | [] => ([], c)

/-- Whether three times `ch` stand alone at the start of a line. -/
def hasMark (c : Cursor) (ch : Char) : Bool :=
  c.column == 0 && c.has 0 ch && c.has 1 ch && c.has 2 ch && c.endsWordAt 3

/-- Whether a document starts or ends here. -/
def atDocumentMark (c : Cursor) : Bool :=
  c.hasMark '-' || c.hasMark '.'

end Cursor

end Deadwood.Yaml
