import Deadwood.Report.Finding
import Deadwood.Proofs.Report.Values

/-!
# Reading JSON reports

A report is read back from its text: the text is read as a JSON value, and the value as the document
of a report. Objects are read member by member in the order of a record's fields. A member that is
out of order, of another kind or that the record does not have is refused, so a field that may be
missing is missing exactly where its member is.
-/

namespace Deadwood.Report

open Code Usage

namespace Json

def text? : Json → Option String
  | .string s => some s
  | _ => none

def number? : Json → Option Nat
  | .number n => some n
  | _ => none

def listOf? {β : Type} (read? : Json → Option β) : Json → Option (List β)
  | .array items => items.mapM read?
  | _ => none

/-- The value of the first member with a key. -/
def get? (key : String) : Json → Option Json
  | .object members => members.lookup key
  | _ => none

def keys : Json → List String
  | .object members => members.map Prod.fst
  | _ => []

theorem listOf?_map {β : Type} {read? : Json → Option β} {write : β → Json}
    (h : ∀ b, read? (write b) = some b) (bs : List β) :
    listOf? read? (.array (bs.map write)) = some bs := by
  rw [listOf?]
  induction bs with
  | nil => rfl
  | cons b bs ih => rw [List.map_cons, List.mapM_cons, h, ih]; rfl

end Json

/-! ## Members -/

/-- A reader of the first members of an object. -/
abbrev Reader (β : Type) :=
  StateT (List (String × Json)) Option β

section Members

variable {β : Type}

/-- Reads the next member, which has the given key. -/
def field (key : String) (read? : Json → Option β) : Reader β
  | (k, j) :: rest => if k = key then (read? j).map fun b => (b, rest) else none
  | [] => none

/-- Reads the next member if it has the given key. -/
def fieldIfAny (key : String) (read? : Json → Option β) : Reader (Option β)
  | (k, j) :: rest =>
    if k = key then (read? j).map fun b => (some b, rest) else some (none, (k, j) :: rest)
  | [] => some (none, [])

/-- Reads an object with no more members than the reader takes. -/
def object? (reader : Reader β) : Json → Option β
  | .object members => (reader.run members).bind fun r => if r.2.isEmpty then some r.1 else none
  | _ => none

variable {key : String} {read? : Json → Option β}

/-- A reader of a member takes it from the front and leaves the rest. -/
theorem run_field {j : Json} {b : β} (h : read? j = some b) (rest : List (String × Json)) :
    (field key read?).run ((key, j) :: rest) = some (b, rest) := by
  simp [StateT.run, field, h]

@[simp] theorem run_field_text (s : String) (rest : List (String × Json)) :
    (field key Json.text?).run ((key, .string s) :: rest) = some (s, rest) := by
  apply run_field
  rfl

@[simp] theorem run_field_number (n : Nat) (rest : List (String × Json)) :
    (field key Json.number?).run ((key, .number n) :: rest) = some (n, rest) := by
  apply run_field
  rfl

/-- A member that stands where its value is set, in front of members with other keys. -/
theorem run_fieldIfAny {write : β → Json} (h : ∀ b, read? (write b) = some b) (o : Option β)
    {rest : List (String × Json)} (hrest : key ∉ rest.map Prod.fst) :
    (fieldIfAny key read?).run ((o.map fun b => (key, write b)).toList ++ rest) = some (o, rest) := by
  cases o with
  | some b => simp [StateT.run, fieldIfAny, h]
  | none =>
    cases rest with
    | nil => rfl
    | cons member rest =>
      have hkey : member.1 ≠ key := by
        intro heq
        simp [heq] at hrest
      simp [StateT.run, fieldIfAny, hkey]

/-- An object is read if its reader takes all members. -/
theorem object?_object {reader : Reader β} {members : List (String × Json)} {b : β}
    (h : reader.run members = some (b, [])) : object? reader (.object members) = some b := by
  simp [object?, h]

end Members

/-! ## Findings -/

def readLocation : Reader Location := do
  let file ← field "file" Json.text?
  let line ← field "line" Json.number?
  let endLine ← field "end_line" Json.number?
  return ⟨⟨file⟩, line, endLine⟩

def readClass : Reader ClassFinding := do
  let name ← field "original_class" Json.text?
  let referencedBy ← fieldIfAny "referenced_by" (Json.listOf? Json.text?)
  let location ← fieldIfAny "location" (object? readLocation)
  return ⟨name, referencedBy, location⟩

/-- A method has the members of its class and then its own. -/
def readMethod : Reader MethodFinding := do
  let owner ← readClass
  let method ← field "method" Json.text?
  let descriptor ← field "descriptor" Json.text?
  let lines ← field "method_lines" Json.number?
  return ⟨owner, method, descriptor, lines⟩

theorem object?_locationJson (l : Location) : object? readLocation (locationJson l) = some l := by
  apply object?_object
  simp [readLocation]

/-- A finding is read back from its members, also where some are left out: what comes behind has
other keys. -/
theorem run_readClass (f : ClassFinding) (rest : List (String × Json))
    (hnames : "referenced_by" ∉ rest.map Prod.fst) (hlocation : "location" ∉ rest.map Prod.fst) :
    readClass.run (classMembers f ++ rest) = some (f, rest) := by
  have hread := run_fieldIfAny object?_locationJson f.location hlocation
  -- The key that is looked for is not that of the members behind, so a missing member is noticed.
  have hnext : "referenced_by"
      ∉ ((f.location.map fun l => ("location", locationJson l)).toList ++ rest).map Prod.fst := by
    cases f.location <;> simp_all
  have hlist := run_fieldIfAny (Json.listOf?_map (fun _ => rfl : ∀ s, Json.text? (.string s) = some s))
    f.referencedBy hnext
  rw [readClass, classMembers]
  simp only [List.append_assoc, List.cons_append, List.nil_append, StateT.run_bind, run_field_text,
    Option.bind_eq_bind, Option.bind_some, hlist, hread, StateT.run_pure]
  rfl

/-- Findings that can be read back from the members of their object. -/
class Readable (α : Type) [Finding α] where
  read : Reader α
  run_members : ∀ f : α, read.run (Finding.members f) = some (f, [])

instance : Readable ClassFinding where
  read := readClass
  run_members f := by
    have h := run_readClass f [] (by simp) (by simp)
    rwa [List.append_nil] at h

instance : Readable MethodFinding where
  read := readMethod
  run_members f := by
    have howner := run_readClass f.owner [("method", .string f.method),
      ("descriptor", .string f.descriptor), ("method_lines", .number f.lines)] (by simp) (by simp)
    simp [readMethod, Finding.members, howner]

/-! ## Documents -/

/-- What the document of a report says. -/
structure Document (α : Type) where
  version : String
  kind : String
  total : Nat
  outcome : Outcome α

section Documents

variable {α : Type}

def readOutcome (read : Reader α) : Reader (Outcome α) := do
  let status ← field "status" Json.text?
  if status = "findings" then
    let items ← field "data" (Json.listOf? (object? read))
    return .findings items
  else if status = "no_issues" then return .noIssues
  else if status = "failed" then
    let message ← field "data" (object? (field "message" Json.text?))
    return .failed message
  else failure

def readDocument (read : Reader α) : Reader (Document α) := do
  let version ← field "version" Json.text?
  let kind ← field "kind" Json.text?
  let total ← field "total" Json.number?
  let outcome ← field "report" (object? (readOutcome read))
  return ⟨version, kind, total, outcome⟩

variable [Finding α] [Readable α]

def readReport? (text : String) : Option (Document α) :=
  (Json.parse? text).bind (object? (readDocument Readable.read))

/-- Every outcome is read back from its object, whose status tells the three kinds apart. -/
theorem object?_outcomeJson (o : Outcome α) :
    object? (readOutcome Readable.read) (outcomeJson o) = some o := by
  cases o with
  | findings items =>
    apply object?_object
    have hitems := Json.listOf?_map (fun f : α => object?_object (Readable.run_members f)) items
    simp [readOutcome, run_field hitems]
  | noIssues =>
    apply object?_object
    simp [readOutcome]
  | failed message =>
    apply object?_object
    have hmessage : object? (field "message" Json.text?) (.object [("message", .string message)])
        = some message := object?_object (run_field_text message [])
    simp [readOutcome, run_field hmessage]

theorem readReport?_jsonText (o : Outcome α) :
    readReport? (jsonText o) = some ⟨"1.0", Finding.kind α, o.items.length, o⟩ := by
  rw [readReport?, jsonText, Json.parse?_of_spells (Json.spells_render _), Option.bind_some]
  apply object?_object
  simp [readDocument, run_field (object?_outcomeJson o)]

/-- Different outcomes have different documents. -/
theorem jsonText_injective : Function.Injective (jsonText : Outcome α → String) := by
  intro o p h
  have ho := readReport?_jsonText o
  rw [h, readReport?_jsonText p] at ho
  have hsame := Option.some.inj ho
  exact (congrArg Document.outcome hsame).symm

end Documents

/-! ## Nothing is lost -/

/-- The keys of the findings of a document, finding by finding. -/
def findingKeys (j : Json) : List (List String) :=
  match (j.get? "report").bind (Json.get? "data") with
  | some (.array items) => items.map Json.keys
  | _ => []

/-- The keys of a class; those of the facts that are not known are missing. -/
def classKeys (f : ClassFinding) : List String :=
  ["original_class"] ++ (if f.referencedBy.isSome then ["referenced_by"] else [])
    ++ (if f.location.isSome then ["location"] else [])

def methodKeys (f : MethodFinding) : List String :=
  classKeys f.owner ++ ["method", "descriptor", "method_lines"]

section Lossless

variable {α : Type} [Finding α]

/-- The keys in a document are those of its findings' members; without findings there are none. -/
theorem findingKeys_document {keysOf : α → List String}
    (h : ∀ f : α, (Finding.members f).map Prod.fst = keysOf f) (o : Outcome α) :
    findingKeys (document o) = o.items.map keysOf := by
  cases o with
  | findings items =>
    have hdata : ((document (.findings items)).get? "report").bind (Json.get? "data")
        = some (.array (items.map fun f => .object (Finding.members f))) := rfl
    rw [findingKeys, hdata]
    simp [Json.keys, Outcome.items, h]
  | noIssues => rfl
  | failed message => rfl

/-- The text of a report is JSON from which the whole report can be read, and its findings have just
the keys that they should have, in order. -/
structure Lossless [Readable α] (kind : String) (keysOf : α → List String) (o : Outcome α) :
    Prop where
  spells : (document o).Spells (jsonText o)
  read : readReport? (jsonText o) = some ⟨"1.0", kind, o.items.length, o⟩
  keys : (Json.parse? (jsonText o)).map findingKeys = some (o.items.map keysOf)

theorem Lossless.of_keys [Readable α] {keysOf : α → List String}
    (h : ∀ f : α, (Finding.members f).map Prod.fst = keysOf f) (o : Outcome α) :
    Lossless (Finding.kind α) keysOf o where
  spells := Json.spells_render (document o)
  read := readReport?_jsonText o
  keys := by
    rw [jsonText, Json.parse?_of_spells (Json.spells_render _), Option.map_some,
      findingKeys_document h]

end Lossless

theorem keys_classMembers (f : ClassFinding) : (classMembers f).map Prod.fst = classKeys f := by
  rw [classMembers, classKeys]
  cases f.referencedBy <;> cases f.location <;> rfl

/-- **Reports lose nothing.** What a scan of classes or of methods came to can be read back from the
text of its report, so different outcomes have different reports. -/
theorem jsonText_lossless :
    (∀ o : Outcome ClassFinding, Lossless "classes" classKeys o)
      ∧ (∀ o : Outcome MethodFinding, Lossless "methods" methodKeys o)
      ∧ Function.Injective (jsonText : Outcome ClassFinding → String)
      ∧ Function.Injective (jsonText : Outcome MethodFinding → String) := by
  have hmethod : ∀ f : MethodFinding, (Finding.members f).map Prod.fst = methodKeys f := by
    intro f
    have howner := keys_classMembers f.owner
    simp [Finding.members, methodKeys, ← howner]
  refine ⟨fun o => ?_, fun o => ?_, jsonText_injective, jsonText_injective⟩
  · exact Lossless.of_keys keys_classMembers o
  · exact Lossless.of_keys hmethod o

end Deadwood.Report
