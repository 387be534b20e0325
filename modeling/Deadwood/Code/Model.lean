import Deadwood.Code.Index
import Deadwood.Code.Unit
import Deadwood.Error

/-!
# The code model

The declarations and calls of all files of a source tree, numbered by their position, with two
indexes of the types by name. Files are added one by one: the numbers inside a file are shifted past
those that are taken.
-/

namespace Deadwood.Code

/-- All declarations and calls of a source tree. -/
structure Model where
  units : List UnitInfo
  types : List TypeDecl
  methods : List MethodDecl
  calls : List CallSite
  /-- The first type declared under each qualified name. -/
  qualified : Index TypeId
  /-- All types declared under each simple name. -/
  simple : Index (List TypeId)
  deriving DecidableEq, Repr

namespace TypeDecl

/-- The declaration as part of the file `unit`, behind `types` types and `methods` methods. -/
def shift (unit : UnitId) (types methods : Nat) (t : TypeDecl) : TypeDecl :=
  { t with
    id := t.id + types
    unit := unit
    enclosing := t.enclosing.map (· + types)
    methods := t.methods.map (· + methods) }

end TypeDecl

namespace MethodDecl

/-- The declaration behind `types` types and `methods` methods. -/
def shift (types methods : Nat) (m : MethodDecl) : MethodDecl :=
  { m with id := m.id + methods, declaringType := m.declaringType + types }

end MethodDecl

namespace CallSite

/-- The call as part of the file `unit`, behind `types` types and `calls` calls. -/
def shift (unit : UnitId) (types calls : Nat) (c : CallSite) : CallSite :=
  { c with
    id := c.id + calls
    unit := unit
    enclosingType := c.enclosingType.map (· + types) }

end CallSite

namespace Model

/-- The model of no files. -/
def empty : Model :=
  ⟨[], [], [], [], [], []⟩

/-- The first type declared under a qualified name. -/
def byQualified? (m : Model) (name : String) : Option TypeId :=
  m.qualified.get? name

/-- All types declared under a simple name. -/
def bySimple (m : Model) (name : String) : List TypeId :=
  m.simple.getAll name

/-- The path of the file that declares a type. -/
def pathOf? (m : Model) (id : TypeId) : Option Path :=
  (m.types[id]?.bind fun t => m.units[t.unit]?).map (·.path)

/-- The error that a type of `unit` causes if its qualified name is taken by a file that was added
before. -/
def duplicate? (m : Model) (unit : SourceUnit) (t : TypeDecl) : Option ScanError :=
  (m.byQualified? t.qualifiedName).map fun first =>
    .duplicate t.qualifiedName ((m.pathOf? first).getD ⟨""⟩) unit.info.path

/-- Enters a type into the indexes and adds it behind the others. -/
def addType (m : Model) (t : TypeDecl) : Model :=
  { m with
    types := m.types ++ [t]
    qualified := m.qualified.insertNew t.qualifiedName t.id
    simple := m.simple.push t.name t.id }

def addMethod (m : Model) (d : MethodDecl) : Model :=
  { m with methods := m.methods ++ [d] }

def addCall (m : Model) (c : CallSite) : Model :=
  { m with calls := m.calls ++ [c] }

def addInfo (m : Model) (info : UnitInfo) : Model :=
  { m with units := m.units ++ [info] }

end Model

/-- Work on a model in place, which an error can break off. What was done before the error stays
done. -/
abbrev Edit := ExceptT ScanError (StateM Model)

namespace Edit

/-- Breaks off if the qualified name of a type of `unit` is taken. -/
def refuseTaken (unit : SourceUnit) (t : TypeDecl) : Edit Unit := do
  match (← get).duplicate? unit t with
  | some error => throw error
  | none => return ()

/-- Enters the types, methods and calls of a file behind what is there, and gives the number that the
file gets. -/
def enterUnit (unit : SourceUnit) : Edit UnitId := do
  let m ← get
  let id := m.units.length
  unit.types.forM fun t => modify (·.addType (t.shift id m.types.length m.methods.length))
  unit.methods.forM fun d => modify (·.addMethod (d.shift m.types.length m.methods.length))
  unit.calls.forM fun c => modify (·.addCall (c.shift id m.types.length m.calls.length))
  modify (·.addInfo unit.info)
  return id

/-- Adds a file. Unless duplicates are allowed, it is an error if the file declares a qualified name
that another file declares; where they are allowed, the first declaration keeps the name. -/
def addUnit (unit : SourceUnit) (allowDuplicates : Bool) : Edit UnitId := do
  unless allowDuplicates do
    unit.types.forM (refuseTaken unit)
  enterUnit unit

end Edit

namespace Model

/-- The model with a file added to it, or the error that broke it off. -/
def addUnit (m : Model) (unit : SourceUnit) (allowDuplicates : Bool) : Except ScanError Model :=
  let (result, after) := (Edit.addUnit unit allowDuplicates).run.run m
  result.map fun _ => after

end Model

end Deadwood.Code
