import Deadwood.Code.Hierarchy

/-!
# Binding calls

A call is bound to a method if the place where it is looked up decides on exactly one. An ambiguous
inner place is never passed over in favour of an outer one.
-/

namespace Deadwood.Code.Model

/-- The first list that is not empty, or else the empty one. -/
def firstNonempty {α : Type} (lists : List (List α)) : List α :=
  (lists.find? fun l => !l.isEmpty).getD []

/-- The methods of a type or its supertypes that a call can target. -/
def targetsOn (m : Model) (c : CallSite) (type : TypeId) : List MethodId :=
  m.findMethods type c.methodName c.arity

/-- The static methods of a type that a call can target. -/
def staticTargetsOn (m : Model) (c : CallSite) (type : TypeId) : List MethodId :=
  (m.targetsOn c type).filter fun id => (m.methods[id]?.map (·.isStatic)).getD false

/-- The methods among which a call is decided. -/
def deciding (m : Model) (c : CallSite) : List MethodId :=
  match c.receiver with
  | .implicit =>
    firstNonempty ((m.enclosingChain c.enclosingType).map (m.targetsOn c)
      ++ (m.staticTargets c.unit c.methodName).map (m.staticTargetsOn c))
  | .this => ((c.enclosingType).map (m.targetsOn c)).getD []
  | .super =>
    match c.enclosingType with
    | none => []
    | some type =>
      let superclass := m.types[type]?.bind (·.superclass)
      ((superclass.bind (m.resolve? · type)).map (m.targetsOn c)).getD []
  | .type name | .variable _ (some name) =>
    ((m.resolveIn? name c.unit c.enclosingType).map (m.targetsOn c)).getD []
  | .variable _ none | .expression => []

/-- The method that a call is bound to: the only one it can target. -/
def bind? (m : Model) (c : CallSite) : Option MethodId :=
  match m.deciding c with
  | [only] => some only
  | _ => none

/-- Binds all calls anew. -/
def bindCalls (m : Model) : Model :=
  { m with calls := m.calls.map fun c => { c with binding := m.bind? c } }

/-- How many calls are bound. -/
def boundCount (m : Model) : Nat :=
  m.calls.countP (·.binding.isSome)

end Deadwood.Code.Model
