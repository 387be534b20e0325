import Deadwood.Code.Model
import Deadwood.Usage.Exclusion
import Deadwood.Usage.Finding
import Deadwood.Usage.UsedSet

/-!
# Ranking unused methods

The methods that are neither used nor excluded, longest first; methods of equal length stay in the
order of the model.
-/

namespace Deadwood.Usage

open Code

/-- The finding for a method of the type `declaring`. -/
def methodFinding (d : MethodDecl) (declaring : TypeDecl) : MethodFinding :=
  { owner := (ClassFinding.of declaring.qualifiedName).located d.location
    method := d.name
    descriptor := d.descriptor
    lines := d.lineCount }

/-- The finding for a method, unless it is used or excluded. -/
def unusedMethod? (policy : Policy) (m : Model) (used : UsedSet) (d : MethodDecl) :
    Option MethodFinding :=
  if used.contains d.id then none
  else
    m.types[d.declaringType]?.bind fun declaring =>
      if (policy.exclusion? d declaring).isNone then some (methodFinding d declaring) else none

/-- The findings of a model, longest methods first. -/
def rank (policy : Policy) (m : Model) (used : UsedSet) : List MethodFinding :=
  (m.methods.filterMap (unusedMethod? policy m used)).mergeSort fun a b => b.lines ≤ a.lines

end Deadwood.Usage
