import Deadwood.Settings.Yaml.Scalar

/-!
# Tokens of a YAML text

Indentation is turned into explicit starts and ends of blocks. That a word was a key shows only at
the colon behind it: the tokens that open a key are kept beside the others with the place where they
belong, and are put there at the end, so that scanning only ever appends.
-/

namespace Deadwood.Yaml

/-- How a scalar is written. -/
inductive Style where
  | plain
  | quoted
  | literal
  | folded
  deriving DecidableEq, Repr

/-- A tag as written: a handle that stands for the front of the tag, and the rest. -/
structure TagName where
  handle : List Char
  rest : List UInt8
  deriving DecidableEq, Repr

inductive Token where
  | version (major minor : Nat)
  /-- Declares what a tag handle stands for. -/
  | handle (name : List Char) (front : List UInt8)
  | documentStart
  | documentEnd
  | blockSequence
  | blockMapping
  | blockEnd
  | flowSequence
  | flowSequenceEnd
  | flowMapping
  | flowMappingEnd
  | blockEntry
  | flowEntry
  | key
  | value
  | alias (name : List Char)
  | anchor (name : List Char)
  | tag (name : TagName)
  | scalar (style : Style) (text : List Char)
  deriving DecidableEq, Repr

/-! ## Names, tags and directives -/

/-- A name ahead, with what follows it. -/
def nameAt (c : Cursor) : List Char × Cursor :=
  (c.rest.takeWhile isNameChar, c.skipWhile isNameChar)

/-- The name of an anchor or alias. -/
def anchorName? (c : Cursor) : Option (List Char × Cursor) :=
  let (name, c) := nameAt c.skip
  let ends := c.endsWordAt 0 || c.sees fun ch => "?:,]\x7d%@`".toList.contains ch
  if name.isEmpty || !ends then none else some (name, c)

/-- Characters of a tag; a comma and square brackets only in a tag written in full. -/
def isTagChar (full : Bool) (c : Char) : Bool :=
  isNameChar c || ";/?:@&=+$.!~*'()".toList.contains c || (full && ",[]".toList.contains c)

/-- The byte of a `%` escape. -/
def escapedByte? : List Char → Option UInt8
  | '%' :: a :: b :: _ => (Text.digits? 16 [a, b]).map UInt8.ofNat
  | _ => none

/-- How many bytes an encoded character has by its first byte. -/
def encodedWidth? (b : UInt8) : Option Nat :=
  if b < 0x80 then some 1
  else if b &&& 0xe0 == 0xc0 then some 2
  else if b &&& 0xf0 == 0xe0 then some 3
  else if b &&& 0xf8 == 0xf0 then some 4
  else none

/-- `n` escaped bytes inside an encoded character. -/
def escapedTail? : Nat → Cursor → Option (List UInt8 × Cursor)
  | 0, c => some ([], c)
  | n + 1, c => do
    let b ← escapedByte? c.rest
    if b &&& 0xc0 != 0x80 then none
    else
      let (bs, c) ← escapedTail? n (c.skips 3)
      return (b :: bs, c)

/-- The characters of a tag ahead. -/
def tagText? (full : Bool) : Nat → Cursor → Option (List UInt8 × Cursor)
  | 0, c => some ([], c)
  | fuel + 1, c =>
    match c.char? 0 with
    | none => some ([], c)
    | some ch =>
      if ch == '%' then do
        let b ← escapedByte? c.rest
        let width ← encodedWidth? b
        let (tail, c) ← escapedTail? (width - 1) (c.skips 3)
        let (rest, c) ← tagText? full fuel c
        return (b :: tail ++ rest, c)
      else if isTagChar full ch then
        (tagText? full fuel c.skip).map fun (rest, c) => (ch.toUInt8 :: rest, c)
      else some ([], c)

/-- A tag handle ahead: `!`, `!name` or `!name!`. -/
def handleAt (c : Cursor) : List Char × Cursor :=
  let (name, c) := nameAt c.skip
  if c.has 0 '!' then ('!' :: name ++ ['!'], c.skip) else ('!' :: name, c)

/-- The tag ahead. -/
def tagName? (flow : Bool) (c : Cursor) : Option (TagName × Cursor) := do
  let (tag, c) ← if c.has 1 '<' then written (c.skips 2) else short (handleAt c)
  if c.endsWordAt 0 || (flow && c.has 0 ',') then some (tag, c) else none
where
  written (c : Cursor) : Option (TagName × Cursor) := do
    let (text, c) ← tagText? true c.rest.length c
    if text.isEmpty || !c.has 0 '>' then none else some (⟨[], text⟩, c.skip)
  short : List Char × Cursor → Option (TagName × Cursor)
    | (handle, c) => do
      let (text, c) ← tagText? false c.rest.length c
      if handle.length > 1 && handle.getLast? == some '!' then
        if text.isEmpty then none else some (⟨handle, text⟩, c)
      else
        let rest := handle.tail.map Char.toUInt8 ++ text
        some (if rest.isEmpty then ⟨[], [0x21]⟩ else ⟨['!'], rest⟩, c)

/-- A number of a version, of at most nine digits. -/
def versionNumber? (c : Cursor) : Option (Nat × Cursor) :=
  let digits := c.rest.takeWhile Char.isDigit
  if 9 < digits.length then none
  else (Text.digits? 10 digits).map (·, c.skips digits.length)

/-- The directive ahead, up to the end of its line. -/
def directive? (c : Cursor) : Option (Token × Cursor) := do
  let (name, c) := nameAt c.skip
  if !c.endsWordAt 0 then none
  else
    let (token, c) ← content (String.ofList name) (c.skipWhile isBlank)
    let c := c.skipWhile isBlank
    let c := if c.has 0 '#' then c.skipWhile (!isBreak ·) else c
    if c.endsLine then some (token, c.skipBreak.2) else none
where
  content (name : String) (c : Cursor) : Option (Token × Cursor) := do
    if name == "YAML" then
      let (major, c) ← versionNumber? c
      if !c.has 0 '.' then none
      else
        let (minor, c) ← versionNumber? c.skip
        return (.version major minor, c)
    else if name == "TAG" then
      if !c.has 0 '!' then none
      else
        let (handle, c) := handleAt c
        if handle.length > 1 && handle.getLast? != some '!' then none
        else if !c.sees isBlank then none
        else
          let (front, c) ← tagText? true c.rest.length (c.skipWhile isBlank)
          if front.isEmpty || !c.endsWordAt 0 then none else some (.handle handle front, c)
    else none

/-! ## Scanning -/

/-- A place where a key may have begun. -/
structure KeyMark where
  /-- How many tokens stood before it. -/
  token : Nat
  index : Nat
  line : Nat
  column : Nat
  /-- Whether nothing but a key may stand there. -/
  required : Bool

structure Scanner where
  cursor : Cursor
  /-- The tokens so far, the last one first. -/
  tokens : List Token
  /-- Tokens that belong before the token with the given number. -/
  openings : List (Nat × List Token)
  /-- The columns of the open blocks, the innermost first. -/
  indents : List Nat
  /-- Whether a key may begin here. -/
  keyAllowed : Bool
  /-- Where a key may have begun, for each open bracket and outside of them, the innermost first. -/
  keys : List (Option KeyMark)

namespace Scanner

def ofText (text : List Char) : Scanner :=
  ⟨.ofText text, [], [], [], true, [none]⟩

/-- Whether the place is inside brackets. -/
def inFlow (s : Scanner) : Bool :=
  1 < s.keys.length

/-- The column that lines of a scalar here have to reach. -/
def parent (s : Scanner) : Nat :=
  match s.indents with
  | [] => 0
  | i :: _ => i + 1

def push (s : Scanner) (t : Token) : Scanner :=
  { s with tokens := t :: s.tokens }

/-- Go past blanks, comments and line breaks. -/
def toToken : Nat → Scanner → Scanner
  | 0, s => s
  | fuel + 1, s =>
    let c := s.cursor
    let c := if c.column == 0 && c.has 0 '\ufeff' then c.skip else c
    let tabs := s.inFlow || !s.keyAllowed
    let c := c.skipWhile fun ch => ch == ' ' || (tabs && ch == '\t')
    let c := if c.has 0 '#' then c.skipWhile (!isBreak ·) else c
    if c.sees isBreak then
      toToken fuel { s with cursor := c.skipBreak.2, keyAllowed := s.keyAllowed || !s.inFlow }
    else { s with cursor := c }

/-- Give up places of keys that are on an earlier line or too far back. -/
def dropStale (s : Scanner) : Option Scanner := do
  let keys ← s.keys.mapM fun
    | none => some none
    | some k =>
      if k.line < s.cursor.line || k.index + 1024 < s.cursor.index then
        (if k.required then none else some none)
      else some (some k)
  return { s with keys := keys }

/-- Close the blocks deeper than a column. -/
def closeTo (s : Scanner) (open? : Nat → Bool) : Scanner :=
  if s.inFlow then s
  else
    let closed := s.indents.takeWhile (!open? ·)
    { s with
      tokens := closed.map (fun _ => Token.blockEnd) ++ s.tokens
      indents := s.indents.drop closed.length }

/-- Whether a block may be opened at a column. -/
def opensAt (s : Scanner) (column : Nat) : Bool :=
  !s.inFlow && s.indents.head?.all (· < column)

/-- Open a block at the place of the cursor if it is deeper than the block around it. -/
def openBlock (s : Scanner) (t : Token) : Scanner :=
  if s.opensAt s.cursor.column then { s.push t with indents := s.cursor.column :: s.indents } else s

/-- Forget where a key may have begun. -/
def dropKey (s : Scanner) : Option Scanner :=
  match s.keys with
  | some k :: ks => if k.required then none else some { s with keys := none :: ks }
  | _ => some s

/-- Note that a key may begin here. -/
def saveKey (s : Scanner) : Option Scanner :=
  if !s.keyAllowed then some s
  else do
    let s ← s.dropKey
    let c := s.cursor
    let required := !s.inFlow && s.indents.head? == some c.column
    return { s with
      keys := some ⟨s.tokens.length, c.index, c.line, c.column, required⟩ :: s.keys.drop 1 }

/-- Append a token of `n` characters. -/
def take (s : Scanner) (n : Nat) (t : Token) (allowed : Bool) : Scanner :=
  { s.push t with cursor := s.cursor.skips n, keyAllowed := allowed }

/-- A start or end of a document: all blocks end there. -/
def document (s : Scanner) (t : Token) : Option Scanner := do
  let s ← (s.closeTo fun _ => false).dropKey
  return s.take 3 t false

def openFlow (s : Scanner) (t : Token) : Option Scanner := do
  let s ← s.saveKey
  return { s.take 1 t true with keys := none :: s.keys }

def closeFlow (s : Scanner) (t : Token) : Option Scanner := do
  let s ← s.dropKey
  return { s.take 1 t false with keys := if s.inFlow then s.keys.drop 1 else s.keys }

def flowEntry (s : Scanner) : Option Scanner := do
  let s ← s.dropKey
  return s.take 1 .flowEntry true

def blockEntry (s : Scanner) : Option Scanner := do
  if !s.inFlow && !s.keyAllowed then none
  else
    let s ← (s.openBlock .blockSequence).dropKey
    return s.take 1 .blockEntry true

def key (s : Scanner) : Option Scanner := do
  if !s.inFlow && !s.keyAllowed then none
  else
    let s ← (s.openBlock .blockMapping).dropKey
    return s.take 1 .key (!s.inFlow)

/-- A colon: the key before it, if one may have begun, is opened at its place. -/
def value (s : Scanner) : Option Scanner :=
  match s.keys with
  | some k :: ks =>
    let opens := s.opensAt k.column
    let opening := (if opens then [Token.blockMapping] else []) ++ [Token.key]
    let s := { s with
      openings := (k.token, opening) :: s.openings
      indents := if opens then k.column :: s.indents else s.indents
      keys := none :: ks }
    some (s.take 1 .value false)
  | _ =>
    if !s.inFlow && !s.keyAllowed then none
    else
      let s := s.openBlock .blockMapping
      some (s.take 1 .value (!s.inFlow))

/-- Append a token that may be or begin a key. -/
def word (s : Scanner) (read : Cursor → Option (Token × Cursor)) : Option Scanner := do
  let s ← s.saveKey
  let (t, c) ← read s.cursor
  return { s.push t with cursor := c, keyAllowed := false }

def blockScalar (s : Scanner) (style : Style) : Option Scanner := do
  let s ← s.dropKey
  let (text, c) ← block (style == .literal) s.parent s.cursor
  return { s.push (.scalar style text) with cursor := c, keyAllowed := true }

def plainScalar (s : Scanner) : Option Scanner := do
  let s ← s.saveKey
  let (text, broken, c) ← plain s.inFlow s.parent s.cursor
  return { s.push (.scalar .plain text) with cursor := c, keyAllowed := broken }

/-- Whether a plain scalar may begin at the cursor. -/
def startsPlain (s : Scanner) : Bool :=
  match s.cursor.char? 0 with
  | none => false
  | some ch =>
    !("-?:,[]\x7b\x7d#&*!|>'\"%@`".toList.contains ch || isBlank ch || isBreak ch)
      || (ch == '-' && !(s.cursor.char? 1).any isBlank)
      || (!s.inFlow && (ch == '?' || ch == ':') && !s.cursor.endsWordAt 1)

/-- Scan the token at the cursor. -/
def token (s : Scanner) (ch : Char) : Option Scanner :=
  let c := s.cursor
  let apart := s.inFlow || c.endsWordAt 1
  if c.column == 0 && ch == '%' then do
    let s ← (s.closeTo fun _ => false).dropKey
    let (t, c) ← directive? c
    return { s.push t with cursor := c, keyAllowed := false }
  else if c.hasMark '-' then s.document .documentStart
  else if c.hasMark '.' then s.document .documentEnd
  else if ch == '[' then s.openFlow .flowSequence
  else if ch == '\x7b' then s.openFlow .flowMapping
  else if ch == ']' then s.closeFlow .flowSequenceEnd
  else if ch == '\x7d' then s.closeFlow .flowMappingEnd
  else if ch == ',' then s.flowEntry
  else if ch == '-' && c.endsWordAt 1 then s.blockEntry
  else if ch == '?' && apart then s.key
  else if ch == ':' && apart then s.value
  else if ch == '*' then s.word fun c => (anchorName? c).map fun (n, c) => (.alias n, c)
  else if ch == '&' then s.word fun c => (anchorName? c).map fun (n, c) => (.anchor n, c)
  else if ch == '!' then s.word fun c => (tagName? s.inFlow c).map fun (t, c) => (.tag t, c)
  else if ch == '|' && !s.inFlow then s.blockScalar .literal
  else if ch == '>' && !s.inFlow then s.blockScalar .folded
  else if ch == '\'' then s.word fun c => (quoted true c).map fun (t, c) => (.scalar .quoted t, c)
  else if ch == '"' then s.word fun c => (quoted false c).map fun (t, c) => (.scalar .quoted t, c)
  else if s.startsPlain then s.plainScalar
  else none

/-- Scan to the end of the text, where all blocks end. -/
def run : Nat → Scanner → Option Scanner
  | 0, _ => none
  | fuel + 1, s => do
    let s ← (toToken (s.cursor.rest.length + 1) s).dropStale
    let s := s.closeTo (· ≤ s.cursor.column)
    match s.cursor.char? 0 with
    | none => (s.closeTo fun _ => false).dropKey
    | some ch => run fuel (← s.token ch)

/-- The tokens with the openings of keys at their places. -/
def place (openings : List (Nat × List Token)) : Nat → List Token → List Token
  | _, [] => []
  | n, t :: ts => (openings.lookup n).getD [] ++ t :: place openings (n + 1) ts

end Scanner

/-- The tokens of a text, if it has only allowed characters and is well formed. -/
def Token.scan (text : String) : Option (List Token) :=
  let cs := text.toList
  if !cs.all isAllowed then none
  else do
    let s ← Scanner.run (cs.length + 1) (.ofText cs)
    return Scanner.place s.openings 0 s.tokens.reverse

end Deadwood.Yaml
