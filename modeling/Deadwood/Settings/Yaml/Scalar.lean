import Deadwood.Settings.Yaml.Cursor
import Deadwood.Text.Digit

/-!
# Texts of scalars

A scalar is written plain, in quotes, or as a block of indented lines. Over several lines, plain and
quoted scalars are folded: one line break is a blank, and of several all but the first are kept.
-/

namespace Deadwood.Yaml

open Text

/-! ## Gaps between words -/

/-- Blanks and line breaks between two words of a scalar. -/
structure Gap where
  /-- Blanks before the first line break. -/
  blanks : List Char
  /-- Whether there is a line break, written or escaped. -/
  broken : Bool
  /-- The first line break, if it is written. -/
  first : List Char
  /-- The further line breaks. -/
  more : List Char

namespace Gap

def none : Gap :=
  ⟨[], false, [], []⟩

/-- A gap that begins with an escaped line break. -/
def escaped : Gap :=
  ⟨[], true, [], []⟩

def addBlank (g : Gap) (c : Char) : Gap :=
  if g.broken then g else { g with blanks := g.blanks ++ [c] }

def addBreak (g : Gap) (text : List Char) : Gap :=
  if g.broken then { g with more := g.more ++ text } else ⟨[], true, text, g.more⟩

/-- What a gap is folded to. -/
def text (g : Gap) : List Char :=
  if !g.broken then g.blanks
  else if g.first.head? == some '\n' then (if g.more.isEmpty then [' '] else g.more)
  else g.first ++ g.more

/-- Extend a gap by the blanks and breaks ahead. On a new line, no tab may stand before the column
`limit`. -/
def scan (limit : Nat) : Nat → Gap → Cursor → Option (Gap × Cursor)
  | 0, g, c => some (g, c)
  | fuel + 1, g, c =>
    match c.char? 0 with
    | .none => some (g, c)
    | some ch =>
      if isBlank ch then
        if g.broken && c.column < limit && ch == '\t' then .none
        else scan limit fuel (g.addBlank ch) c.skip
      else if isBreak ch then
        let (text, next) := c.skipBreak
        scan limit fuel (g.addBreak text) next
      else some (g, c)

end Gap

/-! ## Plain scalars -/

/-- Characters that end a plain scalar inside brackets. -/
def isFlowIndicator (c : Char) : Bool :=
  c == ',' || c == '[' || c == ']' || c == '\x7b' || c == '\x7d'

/-- The next word of a plain scalar. -/
def plainWord (flow : Bool) : Nat → Cursor → Option (List Char × Cursor)
  | 0, c => some ([], c)
  | fuel + 1, c =>
    match c.char? 0 with
    | none => some ([], c)
    | some ch =>
      if isBlank ch || isBreak ch then some ([], c)
      else if flow && ch == ':' && (c.char? 1).any (fun d => d == '?' || isFlowIndicator d) then none
      else if (ch == ':' && c.endsWordAt 1) || (flow && isFlowIndicator ch) then some ([], c)
      else (plainWord flow fuel c.skip).map fun (word, next) => (ch :: word, next)

/-- A plain scalar whose further lines stand at the column `indent` or deeper, and whether lines
were left behind it. -/
def plainFrom (flow : Bool) (indent : Nat) :
    Nat → List Char → Gap → Cursor → Option (List Char × Bool × Cursor)
  | 0, text, g, c => some (text, g.broken, c)
  | fuel + 1, text, g, c =>
    if c.atDocumentMark || c.has 0 '#' then some (text, g.broken, c)
    else do
      let (word, c) ← plainWord flow c.rest.length c
      let (text, g) := if word.isEmpty then (text, g) else (text ++ g.text ++ word, Gap.none)
      if !c.sees (fun ch => isBlank ch || isBreak ch) then return (text, g.broken, c)
      let (g, c) ← g.scan indent c.rest.length c
      if !flow && c.column < indent then return (text, g.broken, c)
      plainFrom flow indent fuel text g c

/-- The plain scalar ahead. -/
def plain (flow : Bool) (indent : Nat) (c : Cursor) : Option (List Char × Bool × Cursor) :=
  plainFrom flow indent (c.rest.length + 1) [] .none c

/-! ## Quoted scalars -/

/-- The character an escape stands for and how many characters follow the backslash. -/
def escape? : List Char → Option (Char × Nat)
  | [] => none
  | c :: cs =>
    match c with
    | '0' => some ('\x00', 1)
    | 'a' => some ('\x07', 1)
    | 'b' => some ('\x08', 1)
    | 't' | '\t' => some ('\t', 1)
    | 'n' => some ('\n', 1)
    | 'v' => some ('\x0b', 1)
    | 'f' => some ('\x0c', 1)
    | 'r' => some ('\r', 1)
    | 'e' => some ('\x1b', 1)
    | ' ' | '"' | '/' | '\\' => some (c, 1)
    | 'N' => some ('\x85', 1)
    | '_' => some ('\xa0', 1)
    | 'L' => some ('\u2028', 1)
    | 'P' => some ('\u2029', 1)
    | 'x' => (codePoint? 2 cs).map (·, 3)
    | 'u' => (codePoint? 4 cs).map (·, 5)
    | 'U' => (codePoint? 8 cs).map (·, 9)
    | _ => none

/-- The quote of a quoted scalar. -/
def quoteChar (single : Bool) : Char :=
  if single then '\'' else '"'

/-- The next word of a quoted scalar, and the gap that an escaped line break opens. -/
def quotedWord (single : Bool) : Nat → Cursor → Option (List Char × Gap × Cursor)
  | 0, c => some ([], .none, c)
  | fuel + 1, c =>
    let go (ch : Char) (next : Cursor) :=
      (quotedWord single fuel next).map fun (word, rest) => (ch :: word, rest)
    match c.char? 0 with
    | none => some ([], .none, c)
    | some ch =>
      if isBlank ch || isBreak ch then some ([], .none, c)
      else if single && ch == '\'' && c.has 1 '\'' then go '\'' (c.skips 2)
      else if ch == quoteChar single then some ([], .none, c)
      else if !single && ch == '\\' then
        if (c.char? 1).any isBreak then some ([], .escaped, c.skip.skipBreak.2)
        else
          match escape? c.rest.tail with
          | none => none
          | some (value, n) => go value (c.skips (n + 1))
      else go ch c.skip

/-- The rest of a quoted scalar. -/
def quotedFrom (single : Bool) : Nat → List Char → Cursor → Option (List Char × Cursor)
  | 0, _, _ => none
  | fuel + 1, text, c =>
    if c.atDocumentMark || c.rest.isEmpty then none
    else do
      let (word, g, c) ← quotedWord single c.rest.length c
      if c.has 0 (quoteChar single) then return (text ++ word, c.skip)
      let (g, c) ← g.scan 0 c.rest.length c
      quotedFrom single fuel (text ++ word ++ g.text) c

/-- The quoted scalar ahead. -/
def quoted (single : Bool) (c : Cursor) : Option (List Char × Cursor) :=
  quotedFrom single (c.rest.length + 1) [] c.skip

/-! ## Block scalars -/

/-- What becomes of the line breaks at the end of a block. -/
inductive Chomping where
  | strip
  | clip
  | keep
  deriving DecidableEq, Repr

/-- The header of a block: its chomping and its indentation, zero if it is not given. -/
def blockHeader? (c : Cursor) : Option (Chomping × Nat × Cursor) :=
  let (before, c) := chomping c
  let digit := (c.char? 0).filter Char.isDigit
  if digit == some '0' then none
  else
    let width := (digit.map fun d => d.toNat - '0'.toNat).getD 0
    let c := if digit.isSome then c.skip else c
    match before, digit with
    | none, some _ =>
      let (after, c) := chomping c
      some (after.getD .clip, width, c)
    | _, _ => some (before.getD .clip, width, c)
where
  chomping (c : Cursor) : Option Chomping × Cursor :=
    if c.has 0 '+' then (some .keep, c.skip)
    else if c.has 0 '-' then (some .strip, c.skip)
    else (none, c)

/-- Go past indentation, up to the column `indent` if it is not zero. -/
def skipIndent (indent : Nat) : Nat → Cursor → Cursor
  | 0, c => c
  | fuel + 1, c =>
    if (indent == 0 || c.column < indent) && c.has 0 ' ' then skipIndent indent fuel c.skip else c

/-- The empty lines ahead: the deepest indentation met and their breaks. -/
def emptyLines (indent : Nat) : Nat → Nat → List Char → Cursor → Option (Nat × List Char × Cursor)
  | 0, deepest, breaks, c => some (deepest, breaks, c)
  | fuel + 1, deepest, breaks, c =>
    let c := skipIndent indent c.rest.length c
    let deepest := max deepest c.column
    if (indent == 0 || c.column < indent) && c.has 0 '\t' then none
    else if c.sees isBreak then
      let (text, next) := c.skipBreak
      emptyLines indent fuel deepest (breaks ++ text) next
    else some (deepest, breaks, c)

/-- The lines of a block. `pending` is the break of the line before, `breaks` the empty lines since,
and `blank` tells whether that line began with a blank. -/
def blockLines (literal : Bool) (indent : Nat) :
    Nat → List Char → List Char → List Char → Bool → Cursor →
      Option (List Char × List Char × List Char × Cursor)
  | 0, text, pending, breaks, _, c => some (text, pending, breaks, c)
  | fuel + 1, text, pending, breaks, blank, c =>
    if c.column != indent || c.rest.isEmpty then some (text, pending, breaks, c)
    else
      let startsBlank := c.sees isBlank
      let folded := !literal && pending.head? == some '\n' && !blank && !startsBlank
      let lead :=
        if folded then (if breaks.isEmpty then [' '] else breaks) else pending ++ breaks
      let line := c.rest.takeWhile (!isBreak ·)
      let (pending, c) := (c.skips line.length).skipBreak
      match emptyLines indent (c.rest.length + 1) 0 [] c with
      | none => none
      | some (_, breaks, c) =>
        blockLines literal indent fuel (text ++ lead ++ line) pending breaks startsBlank c

/-- The block scalar ahead, inside a block whose entries stand one column before `parent`. -/
def block (literal : Bool) (parent : Nat) (c : Cursor) : Option (List Char × Cursor) := do
  let (chomping, width, c) ← blockHeader? c.skip
  let c := c.skipWhile isBlank
  let c := if c.has 0 '#' then c.skipWhile (!isBreak ·) else c
  if !c.endsLine then none
  else
    let c := c.skipBreak.2
    let indent := if width == 0 then 0 else (parent - 1) + width
    let (deepest, breaks, c) ← emptyLines indent (c.rest.length + 1) 0 [] c
    let indent := if indent == 0 then max deepest (max parent 1) else indent
    let (text, pending, breaks, c) ← blockLines literal indent (c.rest.length + 1) [] [] breaks false c
    return (text ++ (if chomping == .strip then [] else pending)
      ++ (if chomping == .keep then breaks else []), c)

end Deadwood.Yaml
