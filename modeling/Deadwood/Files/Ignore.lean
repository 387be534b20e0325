import Deadwood.Files.Tree
import Deadwood.Text.Blank
import Deadwood.Text.Slice

/-!
# Rules that leave files out

A file of rules has a pattern on each line. A pattern speaks about paths below the directory of its
file; the last line that fits a path decides, and a line with `!` in front takes the path in again.
-/

namespace Deadwood.Ignore

/-! ## Patterns -/

/-- A part of a pattern. Paths are matched byte by byte. -/
inductive Part where
  | byte (b : UInt8)
  /-- Any byte but a slash. -/
  | any
  /-- Any number of bytes without a slash. -/
  | stretch
  /-- Nothing, or directories at the start of a path. -/
  | leading
  /-- A slash and whatever follows it. -/
  | trailing
  /-- A slash, or directories between two slashes. -/
  | between
  /-- A byte within one of the ranges, or outside of all of them. -/
  | range (negated : Bool) (ranges : List (UInt8 × UInt8))
  /-- One of several rows of parts. -/
  | oneOf (rows : List (List Part))
  deriving Inhabited

/-- The bytes of a character. -/
def bytesOf (c : Char) : List UInt8 :=
  c.toString.toUTF8.toList

/-- The parts that stand for a character itself. -/
def literal (c : Char) : List Part :=
  (bytesOf c).map .byte

def slash : UInt8 := 0x2f

/-- What can be left of a path after bytes that satisfy `p`. -/
def restsWhile (p : UInt8 → Bool) : List UInt8 → List (List UInt8)
  | [] => [[]]
  | b :: bs => (b :: bs) :: if p b then restsWhile p bs else []

/-- What can be left of a path after a slash in it. -/
def restsAfterSlash : List UInt8 → List (List UInt8)
  | [] => []
  | b :: bs => if b = slash then bs :: restsAfterSlash bs else restsAfterSlash bs

mutual

/-- What can be left of a path after a part. -/
def Part.rests : Part → List UInt8 → List (List UInt8)
  | .byte b, bs => if bs.head? = some b then [bs.tail] else []
  | .any, bs => if bs.head?.any (· != slash) then [bs.tail] else []
  | .stretch, bs => restsWhile (· != slash) bs
  | .leading, bs => bs :: restsAfterSlash bs
  | .trailing, bs => if bs.head? = some slash then restsWhile (fun _ => true) bs.tail else []
  | .between, bs => if bs.head? = some slash then bs.tail :: restsAfterSlash bs.tail else []
  | .range negated ranges, bs =>
    let within (b : UInt8) := ranges.any fun (low, high) => low ≤ b && b ≤ high
    if bs.head?.any fun b => within b != negated then [bs.tail] else []
  | .oneOf rows, bs => anyRests rows bs

/-- What can be left of a path after one of several rows of parts. -/
def anyRests : List (List Part) → List UInt8 → List (List UInt8)
  | [], _ => []
  | row :: rows, bs => rowRests row bs ++ anyRests rows bs

/-- What can be left of a path after a row of parts. -/
def rowRests : List Part → List UInt8 → List (List UInt8)
  | [], bs => [bs]
  | part :: parts, bs => (part.rests bs).flatMap (rowRests parts)

end

/-! ## Reading patterns -/

/-- The ranges of bytes that a range of characters stands for. -/
def byteRanges (low high : Char) : List (UInt8 × UInt8) :=
  if low = high then (bytesOf low).map fun b => (b, b)
  else
    let front := bytesOf low
    let back := bytesOf high
    front.dropLast.map (fun b => (b, b)) ++ [(front.getLast?.getD 0, back.head?.getD 0)]
      ++ back.tail.map fun b => (b, b)

/-- What comes of reading a class. -/
inductive ClassReading where
  | closed (ranges : List (Char × Char)) (rest : List Char)
  /-- There is no closing bracket. -/
  | unclosed
  /-- A range goes down. -/
  | descending

/-- The ranges of a class up to its closing bracket, which may come first to stand for itself.
`dash` tells whether the last range waits for its end. -/
def classRanges (first dash : Bool) (ranges : List (Char × Char)) : List Char → ClassReading
  | [] => .unclosed
  | c :: cs =>
    if c = ']' ∧ !first then .closed (if dash then ('-', '-') :: ranges else ranges) cs
    else if c = '-' ∧ !first ∧ !dash then classRanges false true ranges cs
    else
      match dash, ranges with
      | true, (low, _) :: rest =>
        if c < low then .descending else classRanges false false ((low, c) :: rest) cs
      | _, _ => classRanges false false ((c, c) :: ranges) cs

/-- A pattern read so far. -/
structure Reading where
  /-- For each open brace, the innermost first, the rows read in it, the latest first, and at last the
  row around it; each has its parts in reverse order. -/
  braces : List (List (List Part))
  /-- The row that is read, in reverse order. -/
  row : List Part
  /-- The character before. -/
  before : Option Char

namespace Reading

def push (r : Reading) (part : Part) (c : Char) : Reading :=
  { r with row := part :: r.row, before := some c }

def inBraces (r : Reading) : Bool :=
  !r.braces.isEmpty

end Reading

/-- The parts that two stars stand for, given the row before them, the character before them and what
follows. They stand for directories where they fill the place between slashes. -/
def doubleStar (r : Reading) (cs : List Char) : Reading × List Char :=
  let plain := ({ r with row := .stretch :: .stretch :: r.row, before := some '*' }, cs)
  if r.row.isEmpty then
    match cs with
    | [] => (r.push .leading '*', [])
    | '/' :: rest => (r.push .leading '/', rest)
    | _ => plain
  else if r.before != some '/' && !(r.inBraces && (r.before == some ',' || r.before == some '\x7b')) then
    plain
  else
    let put (last : Part) := match r.row with
      | .leading :: _ => r.row
      | .trailing :: _ => r.row
      | _ :: row => last :: row
      | [] => [last]
    match cs with
    | [] => ({ r with row := put .trailing, before := some '*' }, [])
    | '/' :: rest => ({ r with row := put .between, before := some '/' }, rest)
    | c :: _ =>
      if r.inBraces && (c == ',' || c == '\x7d') then
        ({ r with row := put .trailing, before := some '*' }, cs)
      else plain

/-- Read a pattern. A backslash takes the next character for itself, and one at the end is an error,
as are braces that do not match and ranges that go down. A bracket that is not closed stands for
itself. -/
def parts? : Nat → Reading → List Char → Option (List Part)
  | 0, _, _ => none
  | _, r, [] => if r.inBraces then none else some r.row.reverse
  | fuel + 1, r, c :: cs =>
    match c with
    | '?' => parts? fuel (r.push .any c) cs
    | '*' =>
      match cs with
      | '*' :: rest =>
        let (r, rest) := doubleStar r rest
        parts? fuel r rest
      | _ => parts? fuel (r.push .stretch c) cs
    | '[' =>
      let (negated, body) := match cs with
        | '!' :: body | '^' :: body => (true, body)
        | _ => (false, cs)
      match classRanges true false [] body with
      | .closed ranges rest =>
        let bytes := ranges.flatMap fun (low, high) => byteRanges low high
        parts? fuel (r.push (.range negated bytes) ']') rest
      | .unclosed => parts? fuel (r.push (.byte 0x5b) c) cs
      | .descending => none
    | '\x7b' => parts? fuel { braces := [r.row] :: r.braces, row := [], before := some c } cs
    | '\x7d' =>
      match r.braces with
      | [] => none
      | rows :: rest =>
        let alternatives := ((r.row :: rows.dropLast).map List.reverse).filter (!·.isEmpty)
        let outer := rows.getLast?.getD []
        let row := if alternatives.isEmpty then outer else .oneOf alternatives :: outer
        parts? fuel { braces := rest, row := row, before := some c } cs
    | ',' =>
      match r.braces with
      | [] => parts? fuel { r with row := (literal c).reverse ++ r.row, before := some c } cs
      | rows :: rest => parts? fuel { braces := (r.row :: rows) :: rest, row := [], before := some c } cs
    | '\\' =>
      match cs with
      | [] => none
      | d :: rest => parts? fuel { r with row := (literal d).reverse ++ r.row, before := some d } rest
    | _ => parts? fuel { r with row := (literal c).reverse ++ r.row, before := some c } cs

/-- A pattern. One that is nothing but directories at the start fits every path. -/
def pattern? (cs : List Char) : Option (List Part) :=
  (parts? (cs.length + 1) ⟨[], [], none⟩ cs).map fun
    | [.leading] => [.leading, .stretch]
    | row => row

/-! ## Rules -/

structure Rule where
  /-- Whether the rule takes a path in again. -/
  keeps : Bool
  /-- Whether the rule is about directories only. -/
  directoryOnly : Bool
  pattern : List Part

/-- What rules say about a path. -/
inductive Verdict where
  | ignored
  | kept
  deriving DecidableEq, Repr

namespace Rule

/-- The pattern of a line without its marks. One without a slash fits at any depth; one for all below
a directory does not fit the directory itself. -/
def widen (anchored : Bool) (cs : List Char) : List Char :=
  let twoStars := ['*', '*']
  let deep := !anchored && !cs.contains '/' && cs != twoStars
  let cs := if deep then twoStars ++ '/' :: cs else cs
  if ('/' :: twoStars).isSuffixOf cs then cs ++ ['/', '*'] else cs

/-- The rule on a line, if there is one. Blanks at the end do not count unless they are escaped. -/
def ofLine? (line : List Char) : Option Rule := do
  let cs :=
    if ['\\', ' '].isSuffixOf line then line
    else (line.reverse.dropWhile Text.isBlank).reverse
  if cs.isEmpty || line.head? == some '#' then none
  else
    let escaped := ['\\', '!'].isPrefixOf cs || ['\\', '#'].isPrefixOf cs
    let keeps := !escaped && cs.head? == some '!'
    let cs := if escaped || keeps then cs.tail else cs
    let anchored := !escaped && cs.head? == some '/'
    let cs := if anchored then cs.tail else cs
    let directoryOnly := cs.getLast? == some '/'
    let cs := if directoryOnly then cs.dropLast else cs
    let cs := if directoryOnly && cs.getLast? == some '\\' then cs.dropLast else cs
    return ⟨keeps, directoryOnly, ← pattern? (widen anchored cs)⟩

def fits (r : Rule) (isDirectory : Bool) (path : List UInt8) : Bool :=
  (!r.directoryOnly || isDirectory) && (rowRests r.pattern path).any (·.isEmpty)

def verdict (r : Rule) : Verdict :=
  if r.keeps then .kept else .ignored

end Rule

/-- The lines of a text. -/
def linesOf (bytes : List UInt8) : List (List UInt8) :=
  (split bytes).map fun line => if line.getLast? == some 0x0d then line.dropLast else line
where
  split : List UInt8 → List (List UInt8)
    | [] => [[]]
    | b :: bs =>
      if b = 0x0a then [] :: split bs
      else
        match split bs with
        | [] => [[b]]
        | line :: lines => (b :: line) :: lines

/-- The rules of a file. A byte order mark at its start is passed over, and reading stops at a line
that is no text. -/
def rulesOf (bytes : List UInt8) : List Rule :=
  let bytes := if [0xef, 0xbb, 0xbf].isPrefixOf bytes then bytes.drop 3 else bytes
  let lines := (linesOf bytes).map Utf8.text?
  ((lines.takeWhile Option.isSome).filterMap id).filterMap fun line => Rule.ofLine? line.toList

/-- What rules say about a path: the last one that fits decides. -/
def verdict? (rules : List Rule) (isDirectory : Bool) (path : String) : Option Verdict :=
  (rules.reverse.find? (·.fits isDirectory path.toUTF8.toList)).map Rule.verdict

end Deadwood.Ignore
