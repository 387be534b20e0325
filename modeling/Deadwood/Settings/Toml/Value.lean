import Deadwood.Text.Digit

/-!
# TOML values

Values as they stand behind an equals sign. How a table came about decides what may still be added to
it, so tables carry their origin.
-/

namespace Deadwood.Toml

/-- How a table came about. -/
inductive Origin where
  /-- By a header of its own, or as the whole text. -/
  | header
  /-- By a longer header that goes through it. -/
  | implied
  /-- By a dotted key. -/
  | dotted
  /-- In braces. -/
  | inline
  deriving DecidableEq, Repr

inductive Value where
  | text (s : String)
  | integer (n : Int)
  | float
  | bool (b : Bool)
  /-- A date, a time of day, or both. -/
  | time
  | array (items : List Value)
  | table (origin : Origin) (members : List (String × Value))
  /-- Tables under one header in double brackets. -/
  | tables (elements : List (List (String × Value)))
  deriving Repr, Inhabited

/-- The members of a table. -/
abbrev Members := List (String × Value)

namespace Members

/-- Give a member another value, or add it. -/
def set (ms : Members) (name : String) (value : Value) : Members :=
  if ms.any (·.1 == name) then ms.map fun m => if m.1 == name then (name, value) else m
  else ms ++ [(name, value)]

/-- Change the table at the end of a path. Missing tables on the way are made with the origin `made`;
a dotted path does not go through a table that has a header of its own. -/
def update (made : Origin) (change : Origin → Members → Option (Origin × Members)) :
    List String → Origin → Members → Option (Origin × Members)
  | [], origin, ms => change origin ms
  | name :: path, origin, ms =>
    match ms.lookup name with
    | none => (update made change path made []).map fun (o, inner) =>
        (origin, ms.set name (.table o inner))
    | some (.table o inner) =>
      if o == .inline || (made == .dotted && o == .header) then none
      else (update made change path o inner).map fun (o, inner) =>
        (origin, ms.set name (.table o inner))
    | some (.tables elements) =>
      match elements.getLast? with
      | none => none
      | some last => (update made change path .header last).map fun (_, inner) =>
          (origin, ms.set name (.tables (elements.dropLast ++ [inner])))
    | some _ => none

/-- Add a member under a dotted key. No member stands twice, and a table is either filled by dotted
keys or by its header. -/
def insert (path : List String) (name : String) (value : Value) (origin : Origin) (ms : Members) :
    Option (Origin × Members) :=
  update .dotted
    (fun o inner =>
      if (o == .dotted) == path.isEmpty || (inner.lookup name).isSome then none
      else some (o, inner ++ [(name, value)]))
    path origin ms

end Members

/-! ## Lexical parts -/

/-- A reader of the front of a text. -/
abbrev Parse (α : Type) := List Char → Option (α × List Char)

def isBlank (c : Char) : Bool :=
  c == ' ' || c == '\t'

/-- Characters that may stand in comments and strings. -/
def isPrintable (c : Char) : Bool :=
  c == '\t' || (' ' ≤ c && c != '\x7f')

def skipBlanks (cs : List Char) : List Char :=
  cs.dropWhile isBlank

/-- A line break: a line feed, also after a carriage return. -/
def lineBreak? : List Char → Option (List Char)
  | '\n' :: cs => some cs
  | '\r' :: '\n' :: cs => some cs
  | _ => none

/-- Go past a comment, if there is one. -/
def skipComment : List Char → List Char
  | '#' :: cs => cs.dropWhile isPrintable
  | cs => cs

/-- Go past blanks, comments and line breaks. -/
def skipLines : Nat → List Char → List Char
  | 0, cs => cs
  | fuel + 1, cs =>
    let cs := skipBlanks cs
    match lineBreak? (skipComment cs) with
    | some rest => skipLines fuel rest
    | none => cs

/-! ## Strings -/

/-- The character an escape stands for, read behind the backslash. -/
def escape? : Parse Char
  | 'b' :: cs => some ('\x08', cs)
  | 't' :: cs => some ('\t', cs)
  | 'n' :: cs => some ('\n', cs)
  | 'f' :: cs => some ('\x0c', cs)
  | 'r' :: cs => some ('\r', cs)
  | '"' :: cs => some ('"', cs)
  | '\\' :: cs => some ('\\', cs)
  | 'u' :: cs => (Text.codePoint? 4 cs).map (·, cs.drop 4)
  | 'U' :: cs => (Text.codePoint? 8 cs).map (·, cs.drop 8)
  | _ => none

/-- The rest of a string on one line, up to its closing quote. -/
def lineString (quote : Char) : Nat → Parse (List Char)
  | 0, _ => none
  | fuel + 1, cs =>
    match cs with
    | [] => none
    | c :: rest =>
      if c == quote then some ([], rest)
      else if c == '\\' && quote == '"' then do
        let (value, rest) ← escape? rest
        let (text, rest) ← lineString quote fuel rest
        return (value :: text, rest)
      else if isPrintable c then
        (lineString quote fuel rest).map fun (text, rest) => (c :: text, rest)
      else none

/-- Go past blanks and line breaks. -/
def skipBlankLines : Nat → List Char → List Char
  | 0, cs => cs
  | fuel + 1, cs =>
    match lineBreak? (skipBlanks cs) with
    | some rest => skipBlankLines fuel rest
    | none => skipBlanks cs

/-- The rest of a string over several lines. Up to two quotes may stand in it, also right before the
closing three. -/
def linesString (quote : Char) : Nat → Parse (List Char)
  | 0, _ => none
  | fuel + 1, cs =>
    let more (front : List Char) (rest : List Char) :=
      (linesString quote fuel rest).map fun (text, rest) => (front ++ text, rest)
    match cs with
    | [] => none
    | c :: rest =>
      if c == quote then
        let run := cs.takeWhile (· == quote)
        if run.length < 3 then more run (cs.drop run.length)
        else
          let inside := min (run.length - 3) 2
          some (run.take inside, cs.drop (inside + 3))
      else if c == '\\' && quote == '"' then
        match lineBreak? (skipBlanks rest) with
        | some next => more [] (skipBlankLines next.length next)
        | none => do
          let (value, rest) ← escape? rest
          more [value] rest
      else
        match lineBreak? cs with
        | some next => more ['\n'] next
        | none => if isPrintable c then more [c] rest else none

/-- A string in quotes of either kind, on one line. -/
def quoted? : Parse String
  | c :: cs =>
    if c == '"' || c == '\'' then
      (lineString c (cs.length + 1) cs).map fun (text, rest) => (String.ofList text, rest)
    else none
  | [] => none

/-- A string of any kind. A line break right behind three opening quotes does not count. -/
def string? : Parse String
  | a :: b :: c :: cs =>
    if a == b && b == c && (a == '"' || a == '\'') then
      let body := (lineBreak? cs).getD cs
      (linesString a (body.length + 1) body).map fun (text, rest) => (String.ofList text, rest)
    else quoted? (a :: b :: c :: cs)
  | cs => quoted? cs

/-! ## Keys -/

/-- Characters of a key without quotes. -/
def isBareKeyChar (c : Char) : Bool :=
  c.isAlphanum || c == '_' || c == '-'

def simpleKey? (cs : List Char) : Option (String × List Char) :=
  match cs with
  | '"' :: _ | '\'' :: _ => quoted? cs
  | _ =>
    let name := cs.takeWhile isBareKeyChar
    if name.isEmpty then none else some (String.ofList name, cs.drop name.length)

/-- A key with its parts between dots; blanks may stand around each. -/
def key? : Nat → Parse (List String)
  | 0, _ => none
  | fuel + 1, cs => do
    let (name, rest) ← simpleKey? (skipBlanks cs)
    match skipBlanks rest with
    | '.' :: rest => (key? fuel rest).map fun (names, rest) => (name :: names, rest)
    | rest => return ([name], rest)

/-! ## Numbers, dates and times -/

/-- The digits of a base ahead; single underscores may stand between two of them. -/
def digitRun (base : Nat) : List Char → List Char × List Char
  | [] => ([], [])
  | c :: '_' :: d :: cs =>
    if (Text.digit? base c).isNone then ([], c :: '_' :: d :: cs)
    else if (Text.digit? base d).isNone then ([c], '_' :: d :: cs)
    else
      let (run, rest) := digitRun base (d :: cs)
      (c :: run, rest)
  | c :: cs =>
    if (Text.digit? base c).isNone then ([], c :: cs)
    else
      let (run, rest) := digitRun base cs
      (c :: run, rest)

/-- A whole number without sign that has a mark of its base in front. -/
def based? (base : Nat) (cs : List Char) : Option (Value × List Char) := do
  let (run, rest) := digitRun base cs
  let n ← Text.digits? base run
  if n < Nat.pow 2 63 then some (.integer n, rest) else none

/-- Whether `digits` times a power of ten is too large for a binary number of 64 bits. -/
def overflows (digits : Nat) (exponent : Int) : Bool :=
  let limit := Nat.pow 2 1024 - Nat.pow 2 970
  if digits == 0 then false
  else if 0 ≤ exponent then 310 < exponent || limit ≤ digits * Nat.pow 10 exponent.toNat
  else
    exponent.natAbs < (Nat.toDigits 10 digits).length &&
      limit * Nat.pow 10 exponent.natAbs ≤ digits

/-- The exponent of a number, zero if there is none. -/
def exponent? : List Char → Option (Option Int × List Char)
  | c :: cs =>
    if c == 'e' || c == 'E' then do
      let (negative, cs) := match cs with
        | '-' :: cs => (true, cs)
        | '+' :: cs => (false, cs)
        | cs => (false, cs)
      let (run, rest) := digitRun 10 cs
      let n ← Text.digits? 10 run
      return (some (if negative then -n else n), rest)
    else some (none, c :: cs)
  | [] => some (none, [])

/-- A decimal number behind its sign. A whole number has no leading zeros and fits in 64 bits. -/
def decimal? (negative : Bool) (cs : List Char) : Option (Value × List Char) := do
  let (whole, rest) := match cs with
    | '0' :: rest => (['0'], rest)
    | cs => digitRun 10 cs
  let n ← Text.digits? 10 whole
  let (fraction, rest) ← match rest with
    | '.' :: rest =>
      let (run, rest) := digitRun 10 rest
      if run.isEmpty then none else some (run, rest)
    | rest => some ([], rest)
  let (exponent, rest) ← exponent? rest
  if fraction.isEmpty && exponent.isNone then
    if n < Nat.pow 2 63 || (negative && n == Nat.pow 2 63) then
      some (.integer (if negative then -n else n), rest)
    else none
  else
    let all ← Text.digits? 10 (whole ++ fraction)
    if !negative && overflows all (exponent.getD 0 - fraction.length) then none
    else some (.float, rest)

/-- A number. -/
def number? : Parse Value
  | '+' :: cs => signed false cs
  | '-' :: cs => signed true cs
  | '0' :: 'x' :: cs => based? 16 cs
  | '0' :: 'o' :: cs => based? 8 cs
  | '0' :: 'b' :: cs => based? 2 cs
  | cs => signed false cs
where
  signed (negative : Bool) : Parse Value
    | 'i' :: 'n' :: 'f' :: cs => some (.float, cs)
    | 'n' :: 'a' :: 'n' :: cs => some (.float, cs)
    | cs => decimal? negative cs

/-- A number of exactly `n` digits. -/
def fixed? (n : Nat) (cs : List Char) : Option (Nat × List Char) :=
  if cs.length < n then none else (Text.digits? 10 (cs.take n)).map (·, cs.drop n)

/-- A number of two digits within bounds. -/
def field? (low high : Nat) (cs : List Char) : Option (Nat × List Char) :=
  (fixed? 2 cs).filter fun (n, _) => low ≤ n && n ≤ high

/-- Go past one given character. -/
def expect? (c : Char) : List Char → Option (List Char)
  | d :: cs => if d == c then some cs else none
  | [] => none

/-- The days of a month. -/
def daysIn (year month : Nat) : Nat :=
  if month == 2 then
    if year % 4 == 0 && (year % 100 != 0 || year % 400 == 0) then 29 else 28
  else if month == 4 || month == 6 || month == 9 || month == 11 then 30
  else 31

/-- A date; what follows it is returned. -/
def date? (cs : List Char) : Option (List Char) := do
  let (year, cs) ← fixed? 4 cs
  let (month, cs) ← field? 1 12 (← expect? '-' cs)
  let (_, cs) ← field? 1 (daysIn year month) (← expect? '-' cs)
  return cs

/-- A time of day; what follows it is returned. -/
def clock? (cs : List Char) : Option (List Char) := do
  let (_, cs) ← field? 0 23 cs
  let (_, cs) ← field? 0 59 (← expect? ':' cs)
  let (_, cs) ← field? 0 60 (← expect? ':' cs)
  match cs with
  | '.' :: rest =>
    let rest' := rest.dropWhile Char.isDigit
    if rest'.length < rest.length then some rest' else none
  | cs => some cs

/-- The distance from universal time behind a time, if there is any. -/
def offset? : List Char → Option (List Char)
  | c :: cs =>
    if c == 'Z' || c == 'z' then some cs
    else if c == '+' || c == '-' then do
      let (_, cs) ← field? 0 23 cs
      let (_, cs) ← field? 0 59 (← expect? ':' cs)
      return cs
    else some (c :: cs)
  | [] => some []

/-- Whether a text begins with `n` digits and then `c`. -/
def startsField (n : Nat) (c : Char) (cs : List Char) : Bool :=
  (fixed? n cs).any fun (_, rest) => rest.head? == some c

/-- A date, a time of day, or both. -/
def time? (cs : List Char) : Option (Value × List Char) := do
  if startsField 4 '-' cs then
    let rest ← date? cs
    match rest with
    | c :: more =>
      if (c == 'T' || c == 't' || c == ' ') && startsField 2 ':' more then
        return (.time, ← offset? (← clock? more))
      else return (.time, rest)
    | [] => return (.time, [])
  else return (.time, ← clock? cs)

/-! ## Values -/

mutual

/-- A value. -/
def value? : Nat → Parse Value
  | 0, _ => none
  | fuel + 1, cs =>
    match cs with
    | [] => none
    | '"' :: _ | '\'' :: _ => (string? cs).map fun (s, rest) => (.text s, rest)
    | '[' :: rest => (items? fuel rest).map fun (items, rest) => (.array items, rest)
    | '\x7b' :: rest =>
      match skipBlanks rest with
      | '\x7d' :: rest => some (.table .inline [], rest)
      | _ => (members? fuel [] rest).map fun (ms, rest) => (.table .inline ms, rest)
    | 't' :: 'r' :: 'u' :: 'e' :: rest => some (.bool true, rest)
    | 'f' :: 'a' :: 'l' :: 's' :: 'e' :: rest => some (.bool false, rest)
    | _ => if startsField 4 '-' cs || startsField 2 ':' cs then time? cs else number? cs

/-- The items of an array, to the closing bracket; a comma may stand behind the last. -/
def items? : Nat → Parse (List Value)
  | 0, _ => none
  | fuel + 1, cs =>
    match skipLines cs.length cs with
    | ']' :: rest => some ([], rest)
    | cs => do
      let (item, rest) ← value? fuel cs
      match skipLines rest.length rest with
      | ']' :: rest => return ([item], rest)
      | ',' :: rest => (items? fuel rest).map fun (items, rest) => (item :: items, rest)
      | _ => none

/-- The members of a table in braces, to the closing one; all stand on one line. -/
def members? : Nat → Members → Parse Members
  | 0, _, _ => none
  | fuel + 1, ms, cs => do
    let (path, rest) ← key? (cs.length + 1) cs
    let rest ← expect? '=' rest
    let (value, rest) ← value? fuel (skipBlanks rest)
    let (_, ms) ← ms.insert path.dropLast (path.getLast?.getD "") value .header
    match skipBlanks rest with
    | '\x7d' :: rest => return (ms, rest)
    | ',' :: rest => members? fuel ms rest
    | _ => none

end

end Deadwood.Toml
