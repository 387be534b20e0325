import Deadwood.Usage.DeclaredName
import Deadwood.Usage.Exclusion
import Deadwood.Usage.Finding
import Deadwood.Usage.Shape

/-!
# Use of classes by text

Without parsing, a class counts as used if the text of some other file has one of the reference shapes
with its name.
-/

namespace Deadwood.Usage

open Code

/-- A file and its text. -/
structure LoadedFile where
  path : Path
  text : String
  deriving DecidableEq, Repr

/-- A file that is taken for a class. -/
structure TextCandidate where
  /-- The position of the file among the loaded ones. -/
  index : Nat
  path : Path
  className : String
  qualifiedName : String
  deriving DecidableEq, Repr

/-- The loaded files of a source tree. -/
structure TextUse where
  root : Path
  files : List LoadedFile

namespace TextUse

variable (u : TextUse)

/-- The file at a position as a candidate. -/
def candidate (index : Nat) (f : LoadedFile) : TextCandidate :=
  let name := className f.path f.text
  ⟨index, f.path, name, qualifiedClassName u.root f.path f.text name⟩

/-- The files that are taken for classes. -/
def candidates (policy : Policy) : List TextCandidate :=
  (u.files.zipIdx.filter fun (f, _) => !policy.excludesFile f.path).map fun (f, i) =>
    u.candidate i f

/-- Whether a text refers to a class. -/
def refersTo (className text : String) : Bool :=
  shapes.any (·.occursIn className text)

/-- Whether another file refers to a candidate. -/
def isUsed (c : TextCandidate) : Bool :=
  (u.files.filter fun f => !f.path.same c.path).any fun f => refersTo c.className f.text

/-- The finding for a candidate that is not used. -/
def check (c : TextCandidate) : Option ClassFinding :=
  if u.isUsed c then none else some ((ClassFinding.of c.qualifiedName).located ⟨c.path, 1, 1⟩)

end TextUse

end Deadwood.Usage
