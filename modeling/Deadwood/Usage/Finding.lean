import Deadwood.Code.Declaration
import Deadwood.Sorted

/-!
# Findings

What a scan reports: classes or methods that nothing uses.
-/

namespace Deadwood.Usage

open Code

/-- A type that nothing uses from outside. -/
structure ClassFinding where
  /-- The qualified name of the type. -/
  name : String
  /-- The types that mention it all the same, in order; none if there are none. -/
  referencedBy : Option (List String)
  /-- Where it is declared, if known. -/
  location : Option Location
  deriving DecidableEq, Repr

namespace ClassFinding

/-- A finding without further facts. -/
def of (name : String) : ClassFinding :=
  ⟨name, none, none⟩

def located (f : ClassFinding) (location : Location) : ClassFinding :=
  { f with location := some location }

/-- Adds a type that mentions the one that was found. -/
def append (f : ClassFinding) (referencing : String) : ClassFinding :=
  { f with referencedBy := some (insertSorted referencing (f.referencedBy.getD [])) }

def label (f : ClassFinding) : String :=
  f.name

end ClassFinding

/-- A method that nothing uses. -/
structure MethodFinding where
  /-- The declaring type, with the location of the method. -/
  owner : ClassFinding
  method : String
  /-- The name and the parameter types as written. -/
  descriptor : String
  lines : Nat
  deriving DecidableEq, Repr

def MethodFinding.label (f : MethodFinding) : String :=
  f.owner.name ++ "#" ++ f.method ++ " (" ++ toString f.lines ++ " lines)"

/-- What a scan comes to. -/
inductive Outcome (α : Type) where
  | findings (items : List α)
  | noIssues
  | failed (message : String)
  deriving DecidableEq, Repr

namespace Outcome

variable {α : Type}

/-- The outcome of a scan that ran to its end. -/
def ofFindings (items : List α) : Outcome α :=
  if items.isEmpty then .noIssues else .findings items

/-- The findings, if there are any. -/
def items : Outcome α → List α
  | .findings xs => xs
  | _ => []

def isFailed : Outcome α → Bool
  | .failed _ => true
  | _ => false

end Outcome

end Deadwood.Usage
