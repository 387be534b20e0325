import Deadwood.Code.Model

/-!
# Methods by signature

Methods are found by the simple name of the declaring type, their own name and their number of
parameters. Types with the same simple name share the entry; the method that comes last has it.
-/

namespace Deadwood.Usage

open Code

/-- The three parts of a signature, joined by number signs. -/
def signatureKey (declaring method : String) (count : Nat) : String :=
  declaring ++ "#" ++ method ++ "#" ++ toString count

/-- The simple name of the type that declares a method. -/
def declaringName (m : Model) (d : MethodDecl) : String :=
  (m.types[d.declaringType]?.map (·.name)).getD ""

/-- The signature under which a method is found. -/
def methodKey (m : Model) (d : MethodDecl) : String :=
  signatureKey (declaringName m d) d.name d.parameters.length

/-- All methods of a model by signature. -/
def signatures (m : Model) : Index MethodId :=
  m.methods.foldl (fun index d => index.insert (methodKey m d) d.id) []

/-- The method with a signature. -/
def bySignature? (index : Index MethodId) (declaring method : String) (count : Nat) :
    Option MethodId :=
  index.get? (signatureKey declaring method count)

end Deadwood.Usage
