import Deadwood.Path
import Deadwood.Usage.Pattern

/-!
# Names read off a source text

The textual scan does not parse. It takes the name after the first keyword of a declaration, and the
package after the first line that starts with the keyword for it.
-/

namespace Deadwood.Usage

/-- A keyword of a declaration, at the start of a line or behind a blank, with the name that it
declares. -/
def declarationPattern : Option Regex :=
  Regex.read? "(?m)(?:^|\\s)(?:class|interface|enum)\\s+(\\w+)"

/-- A line that declares a package. -/
def packagePattern : Option Regex :=
  Regex.read? "(?m)^\\s*package\\s+([\\w.]+)\\s*;"

/-- The class that a file is taken for: the first one declared in its text, or else its name. -/
def className (path : Path) (text : String) : String :=
  match declarationPattern.bind (·.firstCapture? text.toList) with
  | some name => String.ofList name
  | none => path.stem?.getD ""

/-- The directories between the root and a file. -/
def directoriesBelow (root path : Path) : List String :=
  ((path.below? root).getD path.steps).dropLast.map Step.text

/-- The qualified name of a class: with the declared package, or else with the directories below the
root. -/
def qualifiedClassName (root path : Path) (text name : String) : String :=
  match packagePattern.bind (·.firstCapture? text.toList) with
  | some package => String.ofList package ++ "." ++ name
  | none => String.intercalate "." (directoriesBelow root path ++ [name])

end Deadwood.Usage
