import Deadwood.Text.Identifier
import Deadwood.Java.Token
import Deadwood.Java.Token.Number

/-!
# Cutting a source text into tokens

The lexer keeps the open string literals and the interpolated expressions in them as a stack of
modes. It fails where no token fits: at an unclosed comment or string, a broken escape, or a
character that Java does not use.
-/

namespace Deadwood.Java

namespace Lexer

/-- What surrounds the place that is read, innermost first. -/
inductive Mode where
  /-- Inside a string literal. -/
  | string
  /-- Inside a text block. -/
  | textBlock
  /-- Inside an expression within a string, with so many braces open. -/
  | hole (braces : Nat)
  deriving DecidableEq, Repr

/-- White space between tokens. -/
def isSpace (c : Char) : Bool :=
  c == ' ' || ('\t' ≤ c && c ≤ '\r')

/-- Where a gap between two tokens stands. -/
inductive Gap where
  | blank
  | lineComment
  | blockComment

/-- The white space and comments at the front of a text, and what follows them; nothing if a comment
is not closed. -/
def gap : Gap → List Char → Option (List Char × List Char)
  | .blank, '/' :: '/' :: cs => (gap .lineComment cs).map fun (l, r) => ('/' :: '/' :: l, r)
  | .blank, '/' :: '*' :: cs => (gap .blockComment cs).map fun (l, r) => ('/' :: '*' :: l, r)
  | .blank, c :: cs =>
    if isSpace c then (gap .blank cs).map fun (l, r) => (c :: l, r) else some ([], c :: cs)
  | .lineComment, '\n' :: cs => (gap .blank cs).map fun (l, r) => ('\n' :: l, r)
  | .lineComment, c :: cs => (gap .lineComment cs).map fun (l, r) => (c :: l, r)
  | .blockComment, '*' :: '/' :: cs => (gap .blank cs).map fun (l, r) => ('*' :: '/' :: l, r)
  | .blockComment, c :: cs => (gap .blockComment cs).map fun (l, r) => (c :: l, r)
  | .blockComment, [] => none
  | _, [] => some ([], [])

/-- The symbols of more than one character, longer ones first. -/
def longSymbols : List (List Char) :=
  ["@interface", "...", "<<=", "->", "++", "+=", "--", "-=", "*=", "/=", "&&", "&=", "||", "|=",
    "^=", "%=", "<<", "<=", "==", "!=", "::"].map String.toList

/-- The symbols of one character. -/
def shortSymbols : List Char :=
  "()\x7b\x7d[];,.@<>=!~?:+-*/&|^%".toList

/-- The symbol at the front of a text. -/
def symbol? (cs : List Char) : Option (List Char) :=
  match longSymbols.find? (·.isPrefixOf cs) with
  | some s => some s
  | none =>
    match cs with
    | c :: _ => if shortSymbols.contains c then some [c] else none
    | [] => none

/-- The characters of a character literal after its opening quote, the closing quote included. -/
def characterTail : List Char → Option (List Char)
  | '\\' :: c :: cs => (characterTail cs).map fun t => '\\' :: c :: t
  | '\'' :: _ => some ['\'']
  | '\n' :: _ => none
  | '\\' :: [] => none
  | c :: cs => (characterTail cs).map (c :: ·)
  | [] => none

/-- The character literal at the front of a text; an empty one is none. -/
def character? : List Char → Option (List Char)
  | '\'' :: '\'' :: _ => none
  | '\'' :: cs => (characterTail cs).map ('\'' :: ·)
  | _ => none

/-- The word at the front of a text. -/
def word? : List Char → Option (List Char)
  | c :: cs =>
    if Text.isIdentifierStart c then some (c :: cs.takeWhile Text.isIdentifierPart) else none
  | [] => none

/-- Whether the first `n` characters of a text are hexadecimal digits. -/
def startsWithHex (n : Nat) (cs : List Char) : Bool :=
  (cs.take n).length == n && (cs.take n).all Number.isHexDigit

/-- The escape at the front of a string literal's text, the backslash included. -/
def escape? : List Char → Option (List Char)
  | '\\' :: 'x' :: cs => if startsWithHex 2 cs then some ('\\' :: 'x' :: cs.take 2) else none
  | '\\' :: 'u' :: '{' :: cs =>
    let digits := cs.takeWhile Number.isHexDigit
    if !digits.isEmpty && (cs.dropWhile Number.isHexDigit).head? == some '}' then
      some ('\\' :: 'u' :: '{' :: digits ++ ['}'])
    else none
  | '\\' :: 'u' :: cs => if startsWithHex 4 cs then some ('\\' :: 'u' :: cs.take 4) else none
  | '\\' :: c :: cs =>
    if Number.isOctalDigit c then some ('\\' :: c :: (cs.take 2).takeWhile Number.isOctalDigit)
    else some ['\\', c]
  | _ => none

/-- The stretch of a text block that starts with a quote: up to the next quote or backslash, where a
backslash before a quote belongs to it. -/
def quotedStretch : List Char → List Char
  | '\\' :: '"' :: cs => '\\' :: '"' :: quotedStretch cs
  | '\\' :: _ => []
  | '"' :: _ => []
  | c :: cs => c :: quotedStretch cs
  | [] => []

/-- Whether a character may stand in a string without ending a stretch of text. -/
def isPlain (c : Char) : Bool :=
  c != '"' && c != '\\'

/-- A token's kind and characters, and the modes after it. -/
structure Piece where
  kind : TokenKind
  chars : List Char
  modes : List Mode

/-- The next token outside of string texts. -/
def codePiece (modes : List Mode) (cs : List Char) : Option Piece :=
  if "\"\"\"".toList.isPrefixOf cs then some ⟨.quote, "\"\"\"".toList, .textBlock :: modes⟩
  else if cs.head? == some '"' then some ⟨.quote, ['"'], .string :: modes⟩
  else if let some w := word? cs then some ⟨.word, w, modes⟩
  else if let some n := Number.length? cs then some ⟨.number, cs.take n, modes⟩
  else if let some ch := character? cs then some ⟨.character, ch, modes⟩
  else
    (symbol? cs).map fun s =>
      match s, modes with
      | ['{'], .hole n :: outer => ⟨.symbol, s, .hole (n + 1) :: outer⟩
      | ['}'], .hole 0 :: outer => ⟨.symbol, s, outer⟩
      | ['}'], .hole (n + 1) :: outer => ⟨.symbol, s, .hole n :: outer⟩
      | _, _ => ⟨.symbol, s, modes⟩

/-- The opening of an expression within a string. -/
def holeOpening : List Char :=
  ['\\', '{']

/-- The next token inside a string literal. -/
def stringPiece (outer : List Mode) (cs : List Char) : Option Piece :=
  if cs.head? == some '"' then some ⟨.quote, ['"'], outer⟩
  else if holeOpening.isPrefixOf cs then some ⟨.symbol, holeOpening, .hole 0 :: .string :: outer⟩
  else if cs.head? == some '\\' then (escape? cs).map fun e => ⟨.fragment, e, .string :: outer⟩
  else
    let stretch := cs.takeWhile isPlain
    if stretch.isEmpty then none else some ⟨.fragment, stretch, .string :: outer⟩

/-- The next token inside a text block, where every character may be escaped. -/
def textBlockPiece (outer : List Mode) (cs : List Char) : Option Piece :=
  if "\"\"\"".toList.isPrefixOf cs then some ⟨.quote, "\"\"\"".toList, outer⟩
  else if holeOpening.isPrefixOf cs then
    some ⟨.symbol, holeOpening, .hole 0 :: .textBlock :: outer⟩
  else
    match cs with
    | '\\' :: c :: _ => some ⟨.fragment, ['\\', c], .textBlock :: outer⟩
    | '"' :: rest => some ⟨.fragment, '"' :: quotedStretch rest, .textBlock :: outer⟩
    | _ =>
      let stretch := cs.takeWhile isPlain
      if stretch.isEmpty then none else some ⟨.fragment, stretch, .textBlock :: outer⟩

/-- The number of line ends in a text. -/
def lineEnds (cs : List Char) : Nat :=
  cs.count '\n'

/-- The token made of `piece`, found after the gap `lead` that starts on `line`. -/
def Piece.token (piece : Piece) (lead : List Char) (line : Nat) : Token :=
  let start := line + lineEnds lead
  { kind := piece.kind
    lead := String.ofList lead
    text := String.ofList piece.chars
    line := start
    endLine := start + lineEnds piece.chars }

/-- The tokens of a text that starts on `line`, in at most `fuel` steps. Every token has at least one
character, so as many steps as there are characters, and one more, are enough. -/
def go : Nat → List Mode → Nat → List Char → Option (List Token)
  | 0, _, _, _ => none
  | fuel + 1, modes, line, cs =>
    let next (lead : List Char) (piece : Option Piece) (rest : List Char) : Option (List Token) :=
      piece.bind fun p =>
        let t := p.token lead line
        (go fuel p.modes t.endLine (rest.drop p.chars.length)).map (t :: ·)
    match modes with
    | .string :: outer => next [] (stringPiece outer cs) cs
    | .textBlock :: outer => next [] (textBlockPiece outer cs) cs
    | _ =>
      match gap .blank cs with
      | none => none
      | some (_, []) => if modes.isEmpty then some [] else none
      | some (lead, rest) => next lead (codePiece modes rest) rest

end Lexer

/-- The tokens of a source text, or nothing if it cannot be cut into tokens. A byte order mark at the
very start is passed over. -/
def Token.scan (source : String) : Option (List Token) :=
  let cs := source.toList
  let cs := if cs.head? == some '\ufeff' then cs.tail else cs
  Lexer.go (cs.length + 1) [] 1 cs

end Deadwood.Java
