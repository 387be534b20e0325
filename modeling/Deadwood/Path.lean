import Deadwood.Text.Slice

/-!
# Paths

A path is shown as it was written, but two paths are the same, and are ordered, by their steps:
doubled slashes and inner `.` steps do not count, a leading `.` does.
-/

namespace Deadwood

/-- One step of a path. -/
inductive Step where
  /-- The root directory. -/
  | root
  /-- A leading `.`. -/
  | here
  /-- A `..`. -/
  | parent
  /-- A named entry. -/
  | name (text : String)
  deriving DecidableEq, Repr

namespace Step

/-- The text a step is written as. -/
def text : Step → String
  | .root => "/"
  | .here => "."
  | .parent => ".."
  | .name n => n

/-- The place of a step's kind in the order of steps. -/
def rank : Step → Nat
  | .root => 0
  | .here => 1
  | .parent => 2
  | .name _ => 3

/-- Steps are ordered by kind, and names among themselves by their characters. -/
def compare (a b : Step) : Ordering :=
  (Ord.compare a.rank b.rank).then (Ord.compare a.text b.text)

/-- The step that a non-leading piece between two slashes stands for, if any. -/
def ofPiece? (piece : List Char) : Option Step :=
  if piece = [] ∨ piece = ['.'] then none
  else if piece = ['.', '.'] then some .parent
  else some (.name (String.ofList piece))

end Step

/-- A path as written. -/
structure Path where
  text : String
  deriving DecidableEq, Repr, Inhabited

namespace Path

/-- The steps of a path: empty pieces and inner `.` pieces are dropped. -/
def steps (p : Path) : List Step :=
  match Text.splitAtChar '/' p.text.toList with
  | [] => []
  | first :: rest =>
    let tail := rest.filterMap Step.ofPiece?
    if first = [] then (if rest = [] then tail else .root :: tail)
    else if first = ['.'] then .here :: tail
    else (Step.ofPiece? first).toList ++ tail

/-- Compare two lists of steps, the first difference deciding. -/
def compareSteps : List Step → List Step → Ordering
  | [], [] => .eq
  | [], _ :: _ => .lt
  | _ :: _, [] => .gt
  | a :: as, b :: bs => (a.compare b).then (compareSteps as bs)

/-- Paths are ordered by their steps. -/
def compare (p q : Path) : Ordering :=
  compareSteps p.steps q.steps

/-- Whether two paths have the same steps. -/
def same (p q : Path) : Bool :=
  p.steps == q.steps

/-- Whether `p` sorts no later than `q`. -/
def le (p q : Path) : Bool :=
  (p.compare q).isLE

/-- The name of the last step, if it is a name. -/
def fileName? (p : Path) : Option String :=
  match p.steps.getLast? with
  | some (.name n) => some n
  | _ => none

/-- A file name cut at its last dot. A name whose only dot is its first character is not cut. -/
def cutName (name : String) : String × Option String :=
  let back := name.toList.reverse
  match back.dropWhile (· != '.') with
  | [] => (name, none)
  | [_] => (name, none)
  | _ :: front =>
    (String.ofList front.reverse, some (String.ofList (back.takeWhile (· != '.')).reverse))

/-- The file name without its extension. -/
def stem? (p : Path) : Option String :=
  p.fileName?.map fun n => (cutName n).1

/-- The part of the file name after its last dot. -/
def extension? (p : Path) : Option String :=
  p.fileName?.bind fun n => (cutName n).2

/-- Whether the path names a Java source file. -/
def isJava (p : Path) : Bool :=
  p.extension? == some "java"

/-- The path of the entry `name` below `p`, joined as written. -/
def child (p : Path) (name : String) : Path :=
  if name.toList.head? = some '/' then ⟨name⟩
  else if p.text = "" ∨ p.text.toList.getLast? = some '/' then ⟨p.text ++ name⟩
  else ⟨p.text ++ "/" ++ name⟩

/-- The steps of `p` below `base`, if `p` lies there. -/
def below? (p base : Path) : Option (List Step) :=
  if base.steps.isPrefixOf p.steps then some (p.steps.drop base.steps.length) else none

end Path

end Deadwood
