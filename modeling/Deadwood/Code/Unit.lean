import Deadwood.Code.Call

/-!
# Source files

One parsed file: its package and imports, and the declarations and calls in it. Numbers inside a
unit count from zero; adding the unit to a model shifts them.
-/

namespace Deadwood.Code

/-- A static import of one member, or of all members if none is named. -/
structure StaticImport where
  typeName : String
  member : Option String
  deriving DecidableEq, Repr

/-- Package and imports of a file. -/
structure UnitInfo where
  path : Path
  package : Option String
  /-- Imports as written; an import on demand ends in `.*`. -/
  imports : List String
  staticImports : List StaticImport
  deriving DecidableEq, Repr

/-- The file name without its extension. -/
def UnitInfo.simpleName? (u : UnitInfo) : Option String :=
  u.path.stem?

/-- A parsed file. -/
structure SourceUnit where
  info : UnitInfo
  types : List TypeDecl
  methods : List MethodDecl
  calls : List CallSite
  deriving DecidableEq, Repr

/-- A file without declarations. -/
def SourceUnit.empty (path : Path) : SourceUnit :=
  ⟨⟨path, none, [], []⟩, [], [], []⟩

end Deadwood.Code
