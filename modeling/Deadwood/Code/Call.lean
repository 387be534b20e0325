import Deadwood.Code.Declaration

/-!
# Call sites

An invocation or a method reference, with what it is invoked on.
-/

namespace Deadwood.Code

/-- The two forms of a call site. -/
inductive CallKind where
  /-- `target.name(arguments)` -/
  | invocation
  /-- `target::name` -/
  | methodReference
  deriving DecidableEq, Repr

/-- What a call is invoked on. -/
inductive Receiver where
  /-- Nothing is written in front of the name. -/
  | implicit
  | this
  | super
  /-- A type name. -/
  | type (name : String)
  /-- A variable, with its declared type if the variable is known. -/
  | variable (name : String) (staticType : Option String)
  /-- Any other expression. -/
  | expression
  deriving DecidableEq, Repr

/-- A method invocation or method reference. -/
structure CallSite where
  id : CallId
  kind : CallKind
  methodName : String
  /-- The number of arguments; unknown for method references. -/
  argCount : Option Nat
  receiver : Receiver
  /-- The innermost named type around the call. -/
  enclosingType : Option TypeId
  unit : UnitId
  line : Nat
  /-- The method the call is bound to, if exactly one fits. -/
  binding : Option MethodId
  deriving DecidableEq, Repr

namespace CallSite

/-- The number of parameters a target must have; any number fits a method reference. -/
def arity (c : CallSite) : Option Nat :=
  match c.kind with
  | .invocation => c.argCount
  | .methodReference => none

/-- The declaring type that the call site alone gives, as written. -/
def staticType? (c : CallSite) : Option String :=
  match c.receiver with
  | .type name => some name
  | .variable _ type => type
  | _ => none

end CallSite

end Deadwood.Code
