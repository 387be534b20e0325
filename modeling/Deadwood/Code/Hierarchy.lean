import Deadwood.Code.Resolution

/-!
# Supertypes

The supertypes of a type are explored level by level: the type itself, its direct supertypes, theirs,
and so on, each type in the first level that reaches it. Ancestors and inherited methods are read off
the levels, so cycles and shared ancestors do no harm.
-/

namespace Deadwood.Code

/-- The elements of a list that are not in `seen`, each once and in order. -/
def fresh (seen xs : List Nat) : List Nat :=
  (xs.filter fun x => !seen.contains x).eraseDups

/-- The levels of a search that starts with `level`, follows `next` and leaves out what was `seen`,
in at most `fuel` levels. A level is never empty. -/
def levelsFrom (next : Nat → List Nat) : Nat → List Nat → List Nat → List (List Nat)
  | 0, _, _ => []
  | fuel + 1, seen, level =>
    match fresh seen level with
    | [] => []
    | now => now :: levelsFrom next fuel (seen ++ now) (now.flatMap next)

namespace Model

/-- The direct supertypes of a type that are declared in the model, each once. -/
def superTypes (m : Model) (id : TypeId) : List TypeId :=
  match m.types[id]? with
  | none => []
  | some t => ((t.superTypes.filterMap (m.resolve? · id)).filter (· != id)).eraseDups

/-- A type and its ancestors by distance. Every level after the first holds types of the model, so
there are at most as many as there are types, and one more. -/
def levels (m : Model) (id : TypeId) : List (List TypeId) :=
  levelsFrom m.superTypes (m.types.length + 1) [] [id]

/-- All types above a type, nearer ones first. -/
def ancestors (m : Model) (id : TypeId) : List TypeId :=
  (m.levels id).tail.flatten

/-- Whether a method has a name and, if one is given, a number of parameters. -/
def isCalled (m : Model) (name : String) (arity : Option Nat) (id : MethodId) : Bool :=
  match m.methods[id]? with
  | none => false
  | some method => method.name == name && arity.all (method.parameters.length == ·)

/-- The methods that a type declares under a name with a number of parameters. -/
def declaredMethods (m : Model) (name : String) (arity : Option Nat) (id : TypeId) :
    List MethodId :=
  match m.types[id]? with
  | none => []
  | some t => t.methods.filter (m.isCalled name arity)

/-- The methods with a name and number of parameters on a type or, where it has none, on the nearest
level of its supertypes that has some. -/
def findMethods (m : Model) (id : TypeId) (name : String) (arity : Option Nat) : List MethodId :=
  (((m.levels id).map fun level => level.flatMap (m.declaredMethods name arity)).find?
    fun found => !found.isEmpty).getD []

end Model

end Deadwood.Code
