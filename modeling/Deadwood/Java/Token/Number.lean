/-!
# Number literals

A number literal is the longest text that fits one of the literal forms: decimal, hexadecimal,
octal and binary integers, and decimal and hexadecimal fractions. A `Scan` takes a form off the
front of a text in every way it fits.
-/

namespace Deadwood.Java.Number

/-- A scanner gives what can follow the form it takes, once for each way the form fits. -/
abbrev Scan := List Char → List (List Char)

/-- One character of a class. -/
def one (p : Char → Bool) : Scan
  | [] => []
  | c :: cs => if p c then [cs] else []

/-- Two forms, one after the other. -/
def andThen (a b : Scan) : Scan :=
  fun cs => (a cs).flatMap b

/-- A form that may be left out. -/
def maybe (a : Scan) : Scan :=
  fun cs => cs :: a cs

/-- Either of two forms. -/
def either (a b : Scan) : Scan :=
  fun cs => a cs ++ b cs

/-- All forms in a row. -/
def all (forms : List Scan) : Scan :=
  forms.foldr andThen fun cs => [cs]

/-- What can follow a digit and those after it, where underscores stand singly between digits. -/
def moreDigits (digit : Char → Bool) : Scan
  | [] => [[]]
  | c :: cs =>
    if digit c then (c :: cs) :: moreDigits digit cs
    else
      match c, cs with
      | '_', d :: rest => (c :: cs) :: (if digit d then moreDigits digit rest else [])
      | _, _ => [c :: cs]

/-- Groups of digits with single underscores between them. -/
def groups (digit : Char → Bool) : Scan :=
  andThen (one digit) (moreDigits digit)

/-- What can follow a digit and those after it, where runs of underscores stand between digits. The
first of the ways takes nothing. -/
def looseDigits : Scan
  | [] => [[]]
  | c :: cs =>
    if c.isDigit then (c :: cs) :: looseDigits cs
    else if c == '_' && ((cs.dropWhile (· == '_')).head?.any Char.isDigit) then
      (c :: cs) :: (looseDigits cs).tail
    else [c :: cs]

/-- What may follow the first digit of a decimal: at most one underscore, then digits. -/
def decimalTail : Scan :=
  all [maybe (one (· == '_')), one Char.isDigit, looseDigits]

/-- A decimal without leading zeros. -/
def decimal : Scan :=
  either (one (· == '0'))
    (andThen (one fun c => c.isDigit && c != '0') (maybe decimalTail))

def isHexDigit (c : Char) : Bool :=
  c.isDigit || ('a' ≤ c && c ≤ 'f') || ('A' ≤ c && c ≤ 'F')

def isOctalDigit (c : Char) : Bool :=
  '0' ≤ c && c ≤ '7'

def isBinaryDigit (c : Char) : Bool :=
  c == '0' || c == '1'

/-- A zero and a letter in either case. -/
def radix (lower upper : Char) : Scan :=
  andThen (one (· == '0')) (one fun c => c == lower || c == upper)

def long : Scan :=
  one fun c => c == 'l' || c == 'L'

def floatSuffix : Scan :=
  one fun c => c == 'f' || c == 'F' || c == 'd' || c == 'D'

def sign : Scan :=
  one fun c => c == '-' || c == '+'

/-- The letter `e`, a sign if there is one, and digits. -/
def exponent : Scan :=
  all [one fun c => c == 'e' || c == 'E', maybe sign, groups Char.isDigit]

/-- The letter `e` or `p`, a sign if there is one, and the digits that `digits` takes. -/
def anyExponent (digits : Scan) : Scan :=
  all [one fun c => c == 'e' || c == 'E' || c == 'p' || c == 'P', maybe sign, digits]

def point : Scan :=
  one (· == '.')

/-- The forms of a number literal. -/
def forms : List Scan :=
  [ all [decimal, maybe long],
    all [radix 'x' 'X', groups isHexDigit, maybe long],
    all [either (radix 'o' 'O') (one (· == '0')), groups isOctalDigit, maybe long],
    all [radix 'b' 'B', groups isBinaryDigit, maybe long],
    all [groups Char.isDigit, point, maybe (groups Char.isDigit), maybe exponent, maybe floatSuffix],
    all [point, groups Char.isDigit, maybe exponent, maybe floatSuffix],
    all [decimal, anyExponent (groups Char.isDigit), maybe floatSuffix],
    all [decimal, maybe exponent, floatSuffix],
    all [radix 'x' 'X', groups isHexDigit, maybe point,
      maybe (all [anyExponent decimal, maybe floatSuffix])],
    all [radix 'x' 'X', maybe (groups isHexDigit), point, groups isHexDigit,
      maybe (all [anyExponent decimal, maybe floatSuffix])] ]

/-- Whether a character occurs in some number literal. -/
def mayOccur (c : Char) : Bool :=
  c.isAlphanum || c == '_' || c == '.' || c == '+' || c == '-'

/-- The number of characters of the longest number literal at the front of a text. -/
def length? (cs : List Char) : Option Nat :=
  let front := cs.takeWhile mayOccur
  ((forms.flatMap fun form => form front).map fun rest => front.length - rest.length).max?

end Deadwood.Java.Number
