import Deadwood.Code.Binding

/-!
# Questions about numbers that may be out of range

The questions to a model, asked with numbers that come from outside. A number that the model does not
have is reported, at the moment the answer would depend on it.
-/

namespace Deadwood.Code

/-- A number that a model does not have. -/
inductive OutOfRange where
  | unit (id : UnitId)
  | type (id : TypeId)
  | method (id : MethodId)
  | call (id : CallId)
  deriving DecidableEq, Repr

/-- An answer, or the number it failed on. -/
abbrev Checked := Except OutOfRange

namespace Model

def unitAt (m : Model) (id : UnitId) : Checked UnitInfo :=
  match m.units[id]? with
  | some u => .ok u
  | none => .error (.unit id)

def typeAt (m : Model) (id : TypeId) : Checked TypeDecl :=
  match m.types[id]? with
  | some t => .ok t
  | none => .error (.type id)

def methodAt (m : Model) (id : MethodId) : Checked MethodDecl :=
  match m.methods[id]? with
  | some d => .ok d
  | none => .error (.method id)

def callAt (m : Model) (id : CallId) : Checked CallSite :=
  match m.calls[id]? with
  | some c => .ok c
  | none => .error (.call id)

/-- A type that may be missing, but not be out of range. -/
def placeAt (m : Model) : Option TypeId → Checked Unit
  | none => .ok ()
  | some id => (m.typeAt id).map fun _ => ()

/-- The type of a written name. Neither the file nor the type around it is looked at if the name is
empty or names a type outright. -/
def checkedResolveIn (m : Model) (written : String) (unit : UnitId) (place : Option TypeId) :
    Checked (Option TypeId) := do
  let name := Java.elementName written
  if name.isEmpty then return none
  if let some id := m.outright? name then return some id
  let info ← m.unitAt unit
  m.placeAt place
  return m.lookUp? info place name

def checkedResolve (m : Model) (written : String) (scope : TypeId) : Checked (Option TypeId) := do
  let t ← m.typeAt scope
  m.checkedResolveIn written t.unit (some scope)

/-- Whether a type is another one or nested in it; every type is nested in itself, known or not. -/
def checkedIsNestedIn (m : Model) (inner outer : TypeId) : Checked Bool := do
  if inner = outer then return true
  let _ ← m.typeAt inner
  return m.isNestedIn inner outer

def checkedStaticTargets (m : Model) (unit : UnitId) (member : String) : Checked (List TypeId) := do
  let _ ← m.unitAt unit
  return m.staticTargets unit member

def checkedSuperTypes (m : Model) (id : TypeId) : Checked (List TypeId) := do
  let _ ← m.typeAt id
  return m.superTypes id

def checkedAncestors (m : Model) (id : TypeId) : Checked (List TypeId) := do
  let _ ← m.typeAt id
  return m.ancestors id

def checkedFindMethods (m : Model) (id : TypeId) (name : String) (arity : Option Nat) :
    Checked (List MethodId) := do
  let _ ← m.typeAt id
  return m.findMethods id name arity

def checkedBind (m : Model) (id : CallId) : Checked (Option MethodId) := do
  let c ← m.callAt id
  return m.bind? c

end Model

end Deadwood.Code
