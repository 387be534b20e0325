import Deadwood.Code.Hierarchy
import Deadwood.Usage.Exclusion
import Deadwood.Usage.Finding

/-!
# Use of classes

A type is used if some type mentions it that is neither the type itself nor nested in it. Types
nested in it that mention it are listed with the finding.
-/

namespace Deadwood.Usage

open Code

/-- A model with the mentions between its types. -/
structure ClassUse where
  model : Model
  policy : Policy
  /-- Which type mentions which other type. -/
  mentions : List (TypeId × TypeId)

/-- The other types that a type mentions. -/
def mentionedBy (m : Model) (t : TypeDecl) : List TypeId :=
  (t.typeRefs.filterMap (m.resolve? · t.id)).filter (· != t.id)

namespace ClassUse

def ofModel (m : Model) (policy : Policy) : ClassUse :=
  ⟨m, policy, m.types.flatMap fun t => (mentionedBy m t).map (t.id, ·)⟩

variable (u : ClassUse)

/-- The types of which unused ones are reported. -/
def candidates : List TypeId :=
  (u.model.types.filter u.policy.isCandidate).map (·.id)

/-- The types that mention a type. -/
def mentioning (id : TypeId) : List TypeId :=
  (u.mentions.filter (·.2 == id)).map (·.1)

/-- Whether a type is mentioned from outside of it. -/
def isUsed (id : TypeId) : Bool :=
  (u.mentioning id).any fun source => !u.model.isNestedIn source id

/-- The qualified names of the types that mention a type, in order. -/
def referencing (id : TypeId) : List String :=
  sortedSet ((u.mentioning id).filterMap fun source =>
    u.model.types[source]?.map (·.qualifiedName))

/-- The finding for a type. -/
def finding? (id : TypeId) : Option ClassFinding :=
  u.model.types[id]?.map fun t =>
    (u.referencing id).foldl (·.append ·) ((ClassFinding.of t.qualifiedName).located t.location)

/-- The findings for the types of a batch that are not used. -/
def unusedIn (batch : List TypeId) : List ClassFinding :=
  (batch.filter fun id => !u.isUsed id).filterMap u.finding?

end ClassUse

end Deadwood.Usage
