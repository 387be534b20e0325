import Deadwood.Text.Blank
import Deadwood.Text.Word

/-!
# Patterns

Patterns in the notation of regular expressions, with classes of characters, repetition, groups,
alternatives and the starts of lines. `Regex.read?` reads a pattern from its text.

Where a pattern can match in several ways, there is an order among them: a repetition goes on as
long as it can and gives way only if what follows does not match, and of alternatives the first that
matches is taken. `Regex.ways` lists the ways to match in this order, and `Regex.search?` takes the
first of them at the first place where there is any.
-/

namespace Deadwood.Usage

open Text

/-! ## Characters -/

/-- A character or a kind of characters. -/
inductive Member where
  | char (c : Char)
  | blank
  | wordChar
  deriving DecidableEq, Repr

def Member.accepts : Member → Char → Bool
  | .char d, c => c == d
  | .blank, c => isBlank c
  | .wordChar, c => isWordChar c

/-- What one character is matched by: any of some members, or a dot. -/
inductive Atom where
  | set (members : List Member)
  | dot
  deriving DecidableEq, Repr

def Atom.accepts : Atom → Char → Bool
  | .set members, c => members.any (·.accepts c)
  | .dot, c => c != '\n'

/-- A character that is written as it is accepts just itself. -/
theorem Atom.accepts_char {c d : Char} : (set [.char c]).accepts d = true ↔ d = c := by
  rw [accepts, List.any_cons, List.any_nil, Bool.or_false]
  exact beq_iff_eq

/-! ## Matching -/

inductive Regex where
  | empty
  | one (a : Atom)
  /-- Any number of characters, as many as possible. -/
  | many (a : Atom)
  | lineStart
  | seq (r s : Regex)
  | alt (r s : Regex)
  | capture (r : Regex)
  deriving DecidableEq, Repr

/-- A place in a text, and what was captured on the way to it. -/
structure Cursor where
  /-- The character in front of the place; none at the start. -/
  before : Option Char
  rest : List Char
  captured : Option (List Char)
  deriving DecidableEq, Repr

/-- The places behind characters that an atom accepts one after the other, the furthest first, and
then those that were `passed`. -/
def Atom.run (a : Atom) (captured : Option (List Char)) :
    Option Char → List Char → List Cursor → List Cursor
  | before, [], passed => ⟨before, [], captured⟩ :: passed
  | before, c :: cs, passed =>
    let here : Cursor := ⟨before, c :: cs, captured⟩
    if a.accepts c then a.run captured (some c) cs (here :: passed) else here :: passed

namespace Regex

/-- At least one character, and as many as possible. -/
def more (a : Atom) : Regex :=
  .seq (.one a) (.many a)

/-- The places that the ways to match from a place on lead to, in the order of the ways. -/
def ways : Regex → Cursor → List Cursor
  | .empty, p => [p]
  | .one a, p =>
    match p.rest with
    | [] => []
    | c :: cs => if a.accepts c then [⟨some c, cs, p.captured⟩] else []
  | .many a, p => a.run p.captured p.before p.rest []
  | .lineStart, p => if p.before.all (· == '\n') then [p] else []
  | .seq r s, p => (r.ways p).flatMap s.ways
  | .alt r s, p => r.ways p ++ s.ways p
  | .capture r, p => (r.ways p).map fun q =>
    { q with captured := some (p.rest.take (p.rest.length - q.rest.length)) }

/-- The end of the first match in a text, in front of which `before` stands. -/
def search? (r : Regex) (before : Option Char) : List Char → Option Cursor
  | [] => (r.ways ⟨before, [], none⟩).head?
  | c :: cs =>
    match (r.ways ⟨before, c :: cs, none⟩).head? with
    | some found => some found
    | none => r.search? (some c) cs

/-- What the first match in a text captures. -/
def firstCapture? (r : Regex) (text : List Char) : Option (List Char) :=
  (r.search? none text).bind (·.captured)

end Regex

/-! ## Reading -/

/-- Characters that mean something else than themselves outside brackets. -/
def operators : List Char :=
  ['\\', '.', '+', '*', '?', '(', ')', '|', '[', ']', '\x7b', '\x7d', '^', '$']

/-- Characters that mean something else than themselves in some place of a pattern. -/
def metaChars : List Char :=
  operators ++ ['#', '&', '-', '~']

/-- What a backslash makes of the character behind it. -/
def escaped? (c : Char) : Option Member :=
  if c = 's' then some .blank
  else if c = 'w' then some .wordChar
  else if c ∈ metaChars then some (.char c)
  else none

/-- A group that is being read. -/
structure Group where
  captures : Bool
  /-- The alternatives that are complete, the last one first. -/
  complete : List Regex
  /-- The parts of the next one, the last one first. -/
  parts : List Regex
  deriving DecidableEq, Repr

namespace Group

def add (g : Group) (r : Regex) : Group :=
  { g with parts := r :: g.parts }

def alternative (g : Group) : Regex :=
  g.parts.foldl (fun rest r => .seq r rest) .empty

/-- Begins the next alternative. -/
def next (g : Group) : Group :=
  { g with complete := g.alternative :: g.complete, parts := [] }

def regex (g : Group) : Regex :=
  let body := g.complete.foldl (fun rest r => .alt r rest) g.alternative
  if g.captures then .capture body else body

/-- Lets the last part be repeated, if it is a single character. -/
def repeat? (g : Group) (repeated : Atom → Regex) : Option Group :=
  match g.parts with
  | .one a :: parts => some { g with parts := repeated a :: parts }
  | _ => none

end Group

/-- Where a reader stands in the notation. -/
inductive Stage where
  | outside
  /-- Behind a backslash. -/
  | escaped
  /-- Behind some members in brackets. -/
  | inSet (members : List Member)
  /-- Behind a backslash in brackets. -/
  | escapedInSet (members : List Member)
  /-- Behind an opening parenthesis. -/
  | opened
  /-- Behind an opening parenthesis and a question mark. -/
  | questioned
  /-- Behind the letter of a flag. -/
  | flagged
  deriving DecidableEq, Repr

/-- A reader of a pattern, with the groups that are open. -/
structure RegexReader where
  stage : Stage
  /-- Whether the starts of lines can be matched. -/
  multiline : Bool
  inner : Group
  outer : List Group
  deriving DecidableEq, Repr

namespace RegexReader

def start : RegexReader :=
  ⟨.outside, false, ⟨false, [], []⟩, []⟩

def add (r : RegexReader) (part : Regex) : RegexReader :=
  { r with stage := .outside, inner := r.inner.add part }

def openGroup (r : RegexReader) (captures : Bool) : RegexReader :=
  { r with stage := .outside, inner := ⟨captures, [], []⟩, outer := r.inner :: r.outer }

def closeGroup? (r : RegexReader) : Option RegexReader :=
  match r.outer with
  | [] => none
  | g :: outer => some { r with inner := g.add r.inner.regex, outer := outer }

def repeat? (r : RegexReader) (repeated : Atom → Regex) : Option RegexReader :=
  (r.inner.repeat? repeated).map fun g => { r with inner := g }

/-- Reads a character outside brackets. Counts, ends of lines and choices between something and
nothing are not read. -/
def outside? (r : RegexReader) (c : Char) : Option RegexReader :=
  match c with
  | '\\' => some { r with stage := .escaped }
  | '[' => some { r with stage := .inSet [] }
  | '(' => some { r with stage := .opened }
  | ')' => r.closeGroup?
  | '|' => some { r with inner := r.inner.next }
  | '^' => if r.multiline then some (r.add .lineStart) else none
  | '.' => some (r.add (.one .dot))
  | '*' => r.repeat? .many
  | '+' => r.repeat? .more
  | c => if c ∈ operators then none else some (r.add (.one (.set [.char c])))

/-- Reads a character inside brackets. Ranges, negations and brackets in brackets are not read. -/
def member? (r : RegexReader) (members : List Member) (c : Char) : Option RegexReader :=
  if c = '\\' then some { r with stage := .escapedInSet members }
  else if c = ']' then if members = [] then none else some (r.add (.one (.set members)))
  else if c ∈ ['[', '^', '-', '&', '~'] then none
  else some { r with stage := .inSet (members ++ [.char c]) }

/-- Reads one character. The flag for starts of lines is read at the front of a pattern only. -/
def step? (r : RegexReader) (c : Char) : Option RegexReader :=
  match r.stage with
  | .outside => r.outside? c
  | .escaped => (escaped? c).map fun m => r.add (.one (.set [m]))
  | .inSet members => r.member? members c
  | .escapedInSet members => (escaped? c).map fun m => { r with stage := .inSet (members ++ [m]) }
  | .opened =>
    if c = '?' then some { r with stage := .questioned } else (r.openGroup true).outside? c
  | .questioned =>
    if c = ':' then some (r.openGroup false)
    else if c = 'm' ∧ { r with stage := .outside } = start then some { r with stage := .flagged }
    else none
  | .flagged => if c = ')' then some { r with stage := .outside, multiline := true } else none

def run? (r : RegexReader) (cs : List Char) : Option RegexReader :=
  cs.foldlM step? r

end RegexReader

/-- The pattern that a text is, if it is one. -/
def Regex.read? (text : String) : Option Regex :=
  (RegexReader.start.run? text.toList).bind fun r =>
    if r.stage = .outside ∧ r.outer = [] then some r.inner.regex else none

end Deadwood.Usage
