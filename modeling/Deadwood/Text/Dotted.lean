import Deadwood.Text.Slice

/-!
# Dotted names

A qualified name is a list of segments joined by dots. The last segment is the simple name, the
first one is what an import has to end in for the name to be found through it.
-/

namespace Deadwood.Text

/-- The characters after the last dot. -/
def lastSegmentChars (name : List Char) : List Char :=
  (name.reverse.takeWhile (· != '.')).reverse

/-- The part of a name after its last dot. -/
def lastSegment (name : String) : String :=
  String.ofList (lastSegmentChars name.toList)

/-- The part of a name before its first dot. -/
def firstSegment (name : String) : String :=
  String.ofList (name.toList.takeWhile (· != '.'))

/-- What follows the first segment, with the dot in front. -/
def afterFirstSegment (name : String) : String :=
  String.ofList (name.toList.dropWhile (· != '.'))

/-- Whether a name has more than one segment. -/
def isDotted (name : String) : Bool :=
  name.toList.contains '.'

/-- The part before the last dot and the part after it, if there is a dot. -/
def splitLastDot (name : String) : Option (String × String) :=
  if isDotted name then
    some (String.ofList ((name.toList.reverse.dropWhile (· != '.')).drop 1).reverse,
      lastSegment name)
  else none

/-- Two names joined by a dot. -/
def joinDot (scope name : String) : String :=
  scope ++ "." ++ name

/-- The package named by an import that ends in `.*`. -/
def wildcardPackage? (name : String) : Option String :=
  match name.toList.reverse with
  | '*' :: '.' :: rest => some (String.ofList rest.reverse)
  | _ => none

end Deadwood.Text
