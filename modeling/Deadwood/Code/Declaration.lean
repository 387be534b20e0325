import Deadwood.Java.TypeName
import Deadwood.Path

/-!
# Declarations

Types and methods as a source file declares them. Types, methods, calls and files are numbered from
zero; a declaration refers to another one by its number.
-/

namespace Deadwood.Code

/-- The number of a type. -/
abbrev TypeId := Nat

/-- The number of a method. -/
abbrev MethodId := Nat

/-- The number of a call site. -/
abbrev CallId := Nat

/-- The number of a source file. -/
abbrev UnitId := Nat

/-- A stretch of lines in a file, counted from one, both ends included. -/
structure Location where
  file : Path
  line : Nat
  endLine : Nat
  deriving DecidableEq, Repr

namespace Location

/-- How many lines a location spans; at least one, whatever its ends. -/
def lineCount (l : Location) : Nat :=
  l.endLine - l.line + 1

/-- The file and the first line. -/
def display (l : Location) : String :=
  l.file.text ++ ":" ++ toString l.line

end Location

/-- The kinds of type declarations. -/
inductive TypeKind where
  | classType
  | interface
  | enum
  | record
  /-- The declaration of an annotation interface. -/
  | annotationType
  deriving DecidableEq, Repr

namespace TypeKind

/-- Whether types of the kind carry implementations. -/
def isClassLike : TypeKind → Bool
  | .classType | .enum | .record => true
  | .interface | .annotationType => false

/-- The word for the kind. -/
def displayName : TypeKind → String
  | .classType => "class"
  | .interface => "interface"
  | .enum => "enum"
  | .record => "record"
  | .annotationType => "annotation"

end TypeKind

/-- An annotation as written on a declaration. -/
structure AnnotationUse where
  /-- The name as written, possibly qualified. -/
  name : String
  /-- The qualified name, where the imports of the file give one. -/
  qualifiedName : Option String
  deriving DecidableEq, Repr

namespace AnnotationUse

/-- The last segment of the name as written. -/
def simpleName (a : AnnotationUse) : String :=
  Text.lastSegment a.name

/-- The qualified name if known, and else the name as written. -/
def fullName (a : AnnotationUse) : String :=
  a.qualifiedName.getD a.name

end AnnotationUse

/-- A parameter of a method, with its type as written. -/
structure Parameter where
  name : String
  typeName : String
  deriving DecidableEq, Repr

/-- The parameter's type without generics and qualification. -/
def Parameter.simpleType (p : Parameter) : String :=
  Java.simpleTypeName p.typeName

/-- A class, interface, enum, record or annotation interface. -/
structure TypeDecl where
  id : TypeId
  name : String
  /-- The package and the enclosing types, joined by dots. -/
  qualifiedName : String
  kind : TypeKind
  unit : UnitId
  /-- The type around a nested declaration. -/
  enclosing : Option TypeId
  /-- The superclass as written, without generics. -/
  superclass : Option String
  /-- Implemented interfaces, or those an interface extends. -/
  interfaces : List String
  annotations : List AnnotationUse
  /-- The methods declared directly in the body. -/
  methods : List MethodId
  /-- The type names mentioned outside nested declarations. -/
  typeRefs : List String
  /-- Whether the body has no members. -/
  emptyBody : Bool
  location : Location
  deriving DecidableEq, Repr

/-- The direct supertypes as written, superclass first. -/
def TypeDecl.superTypes (t : TypeDecl) : List String :=
  t.superclass.toList ++ t.interfaces

/-- Whether the list holds an annotation with the simple name `simple`. -/
def isAnnotatedWith (annotations : List AnnotationUse) (simple : String) : Bool :=
  annotations.any fun a => a.simpleName == simple

/-- A method with its parameters as written. -/
structure MethodDecl where
  id : MethodId
  name : String
  declaringType : TypeId
  parameters : List Parameter
  returnType : Option String
  annotations : List AnnotationUse
  isStatic : Bool
  location : Location
  deriving DecidableEq, Repr

namespace MethodDecl

/-- The name and the parameter types as written. -/
def descriptor (m : MethodDecl) : String :=
  m.name ++ "(" ++ String.intercalate "," (m.parameters.map (·.typeName)) ++ ")"

/-- The simple types of the parameters. -/
def simpleTypes (m : MethodDecl) : List String :=
  m.parameters.map (·.simpleType)

/-- The lines of the declaration. -/
def lineCount (m : MethodDecl) : Nat :=
  m.location.lineCount

/-- Same name and the same simple parameter types in order. -/
def sameSignature (m n : MethodDecl) : Bool :=
  m.name == n.name && m.simpleTypes == n.simpleTypes

end MethodDecl

end Deadwood.Code
