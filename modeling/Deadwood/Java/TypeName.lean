import Deadwood.Text.Blank
import Deadwood.Text.Dotted

/-!
# Written types

A type as written may carry generic arguments, blanks, a qualification, array brackets and the dots
of a variable-arity parameter. Two normal forms are used: the type without generics and blanks, and
the simple type name, which also loses the qualification and the dots but keeps its brackets.
-/

namespace Deadwood.Java

open Text

/-- Drop what stands inside angle brackets, the brackets themselves and blanks. `depth` counts the
brackets that are open; a closing bracket too many is dropped without effect. -/
def eraseFrom (depth : Nat) : List Char → List Char
  | [] => []
  | c :: cs =>
    if c = '<' then eraseFrom (depth + 1) cs
    else if c = '>' then eraseFrom (depth - 1) cs
    else if depth = 0 ∧ isBlank c = false then c :: eraseFrom depth cs
    else eraseFrom depth cs

/-- A written type without generic arguments and blanks. -/
def eraseGenerics (type : String) : String :=
  String.ofList (eraseFrom 0 type.toList)

/-- The simple form of the characters of a type without generics: the dots of a variable arity are
dropped, the qualification in front of the first bracket too, and the brackets are kept. -/
def simpleChars (erased : List Char) : List Char :=
  let text := trimEndOf ['.', '.', '.'] erased
  lastSegmentChars (text.takeWhile (· != '[')) ++ text.dropWhile (· != '[')

/-- The unqualified, non-generic form of a written type, with its array brackets. -/
def simpleTypeName (type : String) : String :=
  String.ofList (simpleChars (eraseFrom 0 type.toList))

/-- A written type without generics, blanks and trailing array brackets: the name to resolve. -/
def elementName (type : String) : String :=
  String.ofList (trimEndOf ['[', ']'] (eraseFrom 0 type.toList))

end Deadwood.Java
