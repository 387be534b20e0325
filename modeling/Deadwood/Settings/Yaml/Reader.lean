import Deadwood.Settings.Reader
import Deadwood.Settings.Yaml.Node

/-!
# Settings in YAML

Any scalar can be read as a text. A number is a plain scalar. A value that is left blank is an empty
list, an empty table or no number.
-/

namespace Deadwood.Yaml

/-- The number that digits stand for, if it fits in 64 bits. -/
def word? (base : Nat) (cs : List Char) : Option Nat :=
  (Text.digits? base cs).filter (· < UInt64.size)

/-- A number: decimal without leading zeros, or with `0x`, `0o` or `0b` in front, after an optional
plus sign. -/
def number? (text : String) : Option Nat :=
  let unsigned := match text.toList with
    | '+' :: cs => cs
    | cs => cs
  match unsigned with
  | '0' :: 'x' :: cs => word? 16 cs
  | '0' :: 'o' :: cs => word? 8 cs
  | '0' :: 'b' :: cs => word? 2 cs
  | '0' :: _ :: _ => none
  | cs => word? 10 cs

/-- The ways to write that there is no value. -/
def isNull (text : String) : Bool :=
  ["null", "Null", "NULL", "~"].contains text

def standardTag (name : String) : List UInt8 :=
  ("tag:yaml.org,2002:" ++ name).toUTF8.toList

namespace Node

def text? : Node → Option String
  | .scalar _ _ text => some text
  | _ => none

/-- A number is written plain, or as a literal block with the tag of whole numbers. -/
def count? : Node → Option Nat
  | .scalar style tag text =>
    if style == .plain || (style == .literal && tag == some (standardTag "int")) then number? text
    else none
  | _ => none

def isBlank : Node → Bool
  | .scalar .plain _ "" => true
  | _ => false

/-- No number is written as nothing or as a null. The tag of nulls allows nothing but a null. -/
def optionalCount? (n : Node) : Option (Option Nat) :=
  match n with
  | .scalar .plain tag text =>
    if tag == some (standardTag "null") then (if isNull text then some none else none)
    else if tag.isNone && (text.isEmpty || isNull text) then some none
    else n.count?.map some
  | _ => n.count?.map some

def items? : Node → Option (List Node)
  | .sequence items => some items
  | n => if n.isBlank then some [] else none

def members? : Node → Option (List (Node × Node))
  | .mapping members => some members
  | n => if n.isBlank then some [] else none

end Node

/-- How values of a document are read. -/
def reader (d : Document) : Settings.Reader Node where
  text? n := (d.resolve? n).bind Node.text?
  count? n := (d.resolve? n).bind Node.count?
  optionalCount? n := (d.resolve? n).bind Node.optionalCount?
  items? n := (d.resolve? n).bind Node.items?
  members? _ n := do
    let members ← (d.resolve? n).bind Node.members?
    members.mapM fun (key, value) => do
      let name ← (d.resolve? key).bind Node.text?
      return (name, value)

/-- Settings written in YAML; a text without a document gives the default settings. -/
def settings? (text : String) : Option Settings := do
  match ← Document.parse? text with
  | none => return .default
  | some d => (reader d).settings? d.root

end Deadwood.Yaml
