/-!
# Variables in scope

A scope gives declared variables their types as written; a variable without a known type is in scope
all the same. The innermost scope that declares a name decides.
-/

namespace Deadwood.Code

/-- Declared names with their types, the latest declaration first. -/
abbrev Scope := List (String × Option String)

/-- The open scopes, innermost first. -/
abbrev Scopes := List Scope

namespace Scope

/-- A scope with one more declaration. -/
def declare (s : Scope) (name : String) (type : Option String) : Scope :=
  (name, type) :: s

/-- The type of a declared name, if the scope declares it. -/
def find? (s : Scope) (name : String) : Option (Option String) :=
  s.lookup name

end Scope

namespace Scopes

/-- The type of a name in the innermost scope that declares it. -/
def find? (scopes : Scopes) (name : String) : Option (Option String) :=
  scopes.findSome? (Scope.find? · name)

/-- Whether some open scope declares a name. -/
def declares (scopes : Scopes) (name : String) : Bool :=
  (scopes.find? name).isSome

/-- Declares a name in the innermost scope. -/
def declare (scopes : Scopes) (name : String) (type : Option String) : Scopes :=
  match scopes with
  | [] => []
  | s :: outer => s.declare name type :: outer

end Scopes

end Deadwood.Code
