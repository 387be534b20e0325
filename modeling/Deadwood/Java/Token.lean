/-!
# Tokens of Java

The source text is cut into words, numbers, character literals, the parts of string literals, and
symbols. Keywords are words: whether a word is a keyword depends on where it stands, so the grammar
decides. A `>` is always a token of its own, because it may close a list of type arguments; longer
operators that start with it are put together by the grammar from adjacent tokens.

A token keeps the white space and comments in front of it, so the tokens of a text spell the text.
-/

namespace Deadwood.Java

/-- The lexical classes. -/
inductive TokenKind where
  | word
  | number
  | character
  /-- The quotes around a string literal or text block. -/
  | quote
  /-- A stretch of text or an escape inside a string. -/
  | fragment
  | symbol
  deriving DecidableEq, Repr

/-- A token, what stands between it and the token before it, and its lines, counted from one. -/
structure Token where
  kind : TokenKind
  lead : String
  text : String
  line : Nat
  endLine : Nat
  deriving DecidableEq, Repr

namespace Token

/-- Whether nothing stands between a token and the one before it. -/
def isAdjacent (t : Token) : Bool :=
  t.lead.isEmpty

/-- Whether a token is the word `w`. -/
def isWord (t : Token) (w : String) : Bool :=
  t.kind == .word && t.text == w

/-- Whether a token is the symbol `s`. -/
def isSymbol (t : Token) (s : String) : Bool :=
  t.kind == .symbol && t.text == s

/-- Whether a token is the word or symbol `s`. -/
def spells (t : Token) (s : String) : Bool :=
  t.isWord s || t.isSymbol s

/-- The text from the end of the token before to the end of this one. -/
def full (t : Token) : String :=
  t.lead ++ t.text

end Token

end Deadwood.Java
