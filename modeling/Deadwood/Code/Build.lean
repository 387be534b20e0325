import Deadwood.Code.Binding
import Deadwood.Code.Extraction

/-!
# Building a model from source files

A strict build drops files that are not well formed and refuses a name that is declared twice. A
tolerant build keeps both. Files that cannot be read are left out of either.

What a tolerant build keeps of a file that is not well formed is up to a `Recovery`. The builds of
the program keep no more than the file itself.
-/

namespace Deadwood.Code

open Java (Node)

/-- A source file; its text is missing if the file cannot be read. -/
structure Source where
  path : Path
  text : Option String
  deriving DecidableEq, Repr

/-- How forgiving a build is. -/
inductive Tolerance where
  | strict
  | tolerant
  deriving DecidableEq, Repr

/-- What a tolerant build gets out of a text that is not well formed, if anything. -/
abbrev Recovery := Path → String → Option SourceUnit

namespace Recovery

/-- The declarations and calls of some syntax trees that texts are given. -/
def ofTrees (tree? : String → Option Node) : Recovery :=
  fun path text => (tree? text).map (SourceUnit.ofTree path)

/-- Nothing but the fact that there is a file. -/
def bare : Recovery :=
  fun path _ => some (.empty path)

end Recovery

/-- What a source file adds to a model. -/
def Source.unit? (r : Recovery) (tolerance : Tolerance) (s : Source) : Option SourceUnit :=
  s.text.bind fun text =>
    match SourceUnit.parse? s.path text, tolerance with
    | some unit, _ => some unit
    | none, .tolerant => r s.path text
    | none, .strict => none

namespace Model

/-- Add units one after the other. -/
def addUnits (m : Model) (allowDuplicates : Bool) (units : List SourceUnit) : Except ScanError Model :=
  units.foldlM (fun m unit => m.addUnit unit allowDuplicates) m

/-- The bound model of source files. -/
def buildWith (r : Recovery) (tolerance : Tolerance) (sources : List Source) :
    Except ScanError Model := do
  let m ← Model.empty.addUnits (tolerance == .tolerant) (sources.filterMap (·.unit? r tolerance))
  return m.bindCalls

/-- A strict build, or a tolerant one if that can get past the error. -/
def buildOrRetryWith (r : Recovery) (sources : List Source) : Except ScanError Model :=
  match buildWith r .strict sources with
  | .ok m => .ok m
  | .error e => if e.isRetryable then buildWith r .tolerant sources else .error e

/-- The build of the program, which knows nothing about files that are not well formed. -/
def build : Tolerance → List Source → Except ScanError Model :=
  buildWith .bare

/-- The build of the program with its retry. -/
def buildOrRetry : List Source → Except ScanError Model :=
  buildOrRetryWith .bare

end Model

end Deadwood.Code
