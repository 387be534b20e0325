import Deadwood.Code.Model

/-!
# Resolving type names

A type name as written is looked up in the model from where it stands: as a qualified name, among
the types nested in the enclosing types and these types themselves, through imports of single types,
in the package, through imports on demand, and last as a simple name that only one type bears.
-/

namespace Deadwood.Code.Model

/-- A type and the types around it, innermost first, in at most `fuel` steps. -/
def enclosingFrom (m : Model) : Nat → TypeId → List TypeId
  | 0, id => [id]
  | fuel + 1, id =>
    match m.types[id]?.bind (·.enclosing) with
    | some outer => id :: enclosingFrom m fuel outer
    | none => [id]

/-- A type and the types around it, innermost first. No type is nested deeper than there are
types. -/
def enclosingTypes (m : Model) (id : TypeId) : List TypeId :=
  m.enclosingFrom m.types.length id

/-- The types around a place: those around the type it is in. -/
def enclosingChain (m : Model) (place : Option TypeId) : List TypeId :=
  (place.map m.enclosingTypes).getD []

/-- Whether a type is another one or nested in it. -/
def isNestedIn (m : Model) (inner outer : TypeId) : Bool :=
  (m.enclosingTypes inner).contains outer

/-- The type `name` seen from inside the type `scope`: nested in it, or the type itself. -/
def inScopeOf? (m : Model) (name : String) (scope : TypeId) : Option TypeId :=
  m.types[scope]?.bind fun t =>
    (m.byQualified? (Text.joinDot t.qualifiedName name)).or
      (if t.name == name then some scope else none)

/-- The type that an import of a single type gives `name`, if the import ends in the first segment
of the name. -/
def byImport? (m : Model) (name imported : String) : Option TypeId :=
  if (Text.wildcardPackage? imported).isNone
      && Text.lastSegment imported == Text.firstSegment name then
    m.byQualified? (imported ++ Text.afterFirstSegment name)
  else none

/-- The type `name` in the package of a file. -/
def inPackage? (m : Model) (info : UnitInfo) (name : String) : Option TypeId :=
  m.byQualified? (match info.package with
    | some package => Text.joinDot package name
    | none => name)

/-- The type that an import on demand gives `name`. -/
def byWildcard? (m : Model) (name imported : String) : Option TypeId :=
  (Text.wildcardPackage? imported).bind fun package => m.byQualified? (Text.joinDot package name)

/-- The only type with a simple name. -/
def onlyBySimple? (m : Model) (simple : String) : Option TypeId :=
  match m.bySimple simple with
  | [only] => some only
  | _ => none

/-- The type that a name with dots names outright. -/
def outright? (m : Model) (name : String) : Option TypeId :=
  if Text.isDotted name then m.byQualified? name else none

/-- The type that a name without generics and brackets has in a file, inside the type `place` if one
is given. -/
def lookUp? (m : Model) (info : UnitInfo) (place : Option TypeId) (name : String) :
    Option TypeId :=
  (m.outright? name)
    |>.or ((m.enclosingChain place).findSome? (m.inScopeOf? name))
    |>.or (info.imports.findSome? (m.byImport? name))
    |>.or (m.inPackage? info name)
    |>.or (info.imports.findSome? (m.byWildcard? name))
    |>.or (m.onlyBySimple? (Text.lastSegment name))

/-- The type that a written name has in a file, inside the type `place` if one is given. -/
def resolveIn? (m : Model) (written : String) (unit : UnitId) (place : Option TypeId) :
    Option TypeId :=
  let name := Java.elementName written
  if name.isEmpty then none
  else
    match m.units[unit]? with
    | some info => m.lookUp? info place name
    | none => m.outright? name

/-- The type that a name written inside the type `scope` has. -/
def resolve? (m : Model) (written : String) (scope : TypeId) : Option TypeId :=
  m.types[scope]?.bind fun t => m.resolveIn? written t.unit (some scope)

/-- The static imports of a file that can give `member`: those of one member before those of all. -/
def staticImportsOf (info : UnitInfo) (member : String) : List StaticImport :=
  info.staticImports.filter (·.member == some member)
    ++ info.staticImports.filter (·.member.isNone)

/-- The types from which a file statically imports `member`, in order and each once. -/
def staticTargets (m : Model) (unit : UnitId) (member : String) : List TypeId :=
  match m.units[unit]? with
  | none => []
  | some info =>
    ((staticImportsOf info member).filterMap fun i => m.resolveIn? i.typeName unit none).eraseDups

end Deadwood.Code.Model
