import Deadwood.Settings.Reader
import Deadwood.Settings.Toml.Value

/-!
# Settings in TOML

A text is a list of lines, each with a key and a value or with the header of a table. Values keep
their types: a text is a string and a number a whole number. An array may stand for a table, its
items being the fields in order.
-/

namespace Deadwood.Toml

/-! ## Texts -/

/-- A text read so far: the table of all, and the header that the lines now belong to. -/
structure Document where
  root : Members
  current : List String

namespace Document

def empty : Document :=
  ⟨[], []⟩

/-- Add a member to the current table. -/
def addMember? (d : Document) (key : List String) (value : Value) : Option Document := do
  let add (origin : Origin) (ms : Members) :=
    ms.insert key.dropLast (key.getLast?.getD "") value origin
  let (_, root) ← d.root.update .implied add d.current .header
  return { d with root := root }

/-- Begin a table. It may not exist, unless only longer headers went through it. -/
def addTable? (d : Document) (path : List String) : Option Document := do
  let name := path.getLast?.getD ""
  let add (origin : Origin) (ms : Members) : Option (Origin × Members) :=
    match ms.lookup name with
    | none => some (origin, ms.set name (.table .header []))
    | some (.table .implied inner) => some (origin, ms.set name (.table .header inner))
    | some _ => none
  let (_, root) ← d.root.update .implied add path.dropLast .header
  return ⟨root, path⟩

/-- Begin a further table of an array of tables. -/
def addElement? (d : Document) (path : List String) : Option Document := do
  let name := path.getLast?.getD ""
  let add (origin : Origin) (ms : Members) : Option (Origin × Members) :=
    match ms.lookup name with
    | none => some (origin, ms.set name (.tables [[]]))
    | some (.tables elements) => some (origin, ms.set name (.tables (elements ++ [[]])))
    | some _ => none
  let (_, root) ← d.root.update .implied add path.dropLast .header
  return ⟨root, path⟩

/-- Read a line that is not empty; what follows it is returned. -/
def line? (d : Document) (cs : List Char) : Option (Document × List Char) := do
  match cs with
  | '[' :: '[' :: rest =>
    let (path, rest) ← key? (rest.length + 1) rest
    let rest ← (expect? ']' rest).bind (expect? ']')
    return (← d.addElement? path, rest)
  | '[' :: rest =>
    let (path, rest) ← key? (rest.length + 1) rest
    return (← d.addTable? path, ← expect? ']' rest)
  | cs =>
    let (path, rest) ← key? (cs.length + 1) cs
    let rest ← expect? '=' rest
    let (value, rest) ← value? (rest.length + 1) (skipBlanks rest)
    return (← d.addMember? path value, rest)

/-- Read all lines. -/
def lines? : Nat → Document → List Char → Option Document
  | 0, _, _ => none
  | fuel + 1, d, cs => do
    let cs := skipBlanks cs
    let blank := match cs with
      | [] | '#' :: _ | '\n' :: _ | '\r' :: _ => true
      | _ => false
    let (d, rest) ← if blank then some (d, cs) else d.line? cs
    match skipComment (skipBlanks rest) with
    | [] => return d
    | rest => lines? fuel d (← lineBreak? rest)

/-- Read a text, past a byte order mark at its start. -/
def parse? (text : String) : Option Document :=
  let cs := match text.toList with
    | '\ufeff' :: cs => cs
    | cs => cs
  lines? (cs.length + 1) .empty cs

end Document

/-! ## Settings -/

namespace Value

def text? : Value → Option String
  | .text s => some s
  | _ => none

def count? : Value → Option Nat
  | .integer (.ofNat n) => some n
  | _ => none

def elements? : Value → Option (List Value)
  | .array items => some items
  | .tables elements => some (elements.map (.table .header))
  | _ => none

/-- The fields of a table. An array gives them in order, and a date has none of them. -/
def fields? (fields : List String) : Value → Option (List (String × Value))
  | .table _ members => some members
  | .time => some []
  | v => v.elements?.map (fields.zip ·)

end Value

/-- How values are read. -/
def reader : Settings.Reader Value where
  text? := Value.text?
  count? := Value.count?
  optionalCount? v := v.count?.map some
  items? := Value.elements?
  members? := Value.fields?

/-- Settings written in TOML. -/
def settings? (text : String) : Option Settings := do
  let d ← Document.parse? text
  reader.settings? (.table .header d.root)

end Deadwood.Toml
