import Deadwood.Code.Checked
import Deadwood.Usage.Implementers
import Deadwood.Usage.Signature
import Deadwood.Usage.UsedSet

/-!
# Use of methods

A call uses the method it is bound to, or else the one that its name and what is known about its
receiver lead to: by the declaring type that the call site gives, by the file's own name, and by
static imports. With the method, all methods of the same signature are used that implementers of the
declaring type and of the receiver's type declare, because the call may reach them.
-/

namespace Deadwood.Usage

open Code

/-- A model with what is needed to resolve its calls. -/
structure MethodUse where
  model : Model
  policy : Policy
  signatures : Index MethodId
  implementers : Implementers

namespace MethodUse

def ofModel (m : Model) (policy : Policy) : MethodUse :=
  ⟨m, policy, Usage.signatures m, Implementers.ofModel m policy⟩

variable (u : MethodUse)

/-- The superclass as written on a type. -/
def superclassOf? (id : TypeId) : Option String :=
  u.model.types[id]?.bind (·.superclass)

/-- The declaring type that the call site gives, as written. -/
def staticType? (c : CallSite) : Option String :=
  match c.receiver with
  | .super => c.enclosingType.bind u.superclassOf?
  | _ => c.staticType?

/-- The simple name of the type that declares a method. -/
def ownerName? (id : MethodId) : Option String :=
  (u.model.methods[id]?.bind fun d => u.model.types[d.declaringType]?).map (·.name)

/-- The declaring type of a call as far as it is known at all. -/
def knownType? (c : CallSite) : Option String :=
  match c.binding with
  | some bound => u.ownerName? bound
  | none =>
    (u.staticType? c).or
      (match c.receiver with
        | .implicit | .this =>
          (c.enclosingType.bind fun id => u.model.types[id]?).map (·.name)
        | _ => none)

/-- A written type name without generics, and its last segment if that differs. -/
def namesOf (declaring : String) : List String :=
  let written := Java.eraseGenerics declaring
  let last := Text.lastSegment written
  if last = written then [written] else [written, last]

/-- The parameter counts to look for: that of the arguments, none, and one. -/
def countsOf (c : CallSite) : List Nat :=
  c.argCount.toList ++ [0, 1]

/-- The method that a call has on a written type, by signature. -/
def onType? (c : CallSite) (declaring : String) : Option MethodId :=
  (namesOf declaring).findSome? fun name =>
    (countsOf c).findSome? fun count => bySignature? u.signatures name c.methodName count

/-- The method that a call has on the type its file is named for. -/
def onOwnFile? (c : CallSite) : Option MethodId :=
  (u.model.units[c.unit]?.bind (·.simpleName?)).bind (u.onType? c)

/-- The method that a call has on a type from which it is imported. -/
def onImports? (c : CallSite) : Option MethodId :=
  (u.model.staticTargets c.unit c.methodName).findSome? fun id =>
    u.model.types[id]?.bind fun t => u.onType? c t.name

/-- The method that a call uses. -/
def resolve? (c : CallSite) : Option MethodId :=
  c.binding
    |>.or ((u.staticType? c).bind (u.onType? c))
    |>.or
      (match c.receiver with
        | .implicit => (u.onOwnFile? c).or (u.onImports? c)
        | .this => u.onOwnFile? c
        | _ => none)

/-- The simple names through which a call of a method can reach implementers. -/
def dispatchNames (c : CallSite) (method : MethodId) : List String :=
  (u.ownerName? method).toList
    ++ ((u.staticType? c).map fun t => Text.lastSegment (Java.eraseGenerics t)).toList

/-- The first method of a type that has the signature of `target`. -/
def overriding? (target : MethodDecl) (type : TypeId) : Option MethodId :=
  u.model.types[type]?.bind fun t =>
    t.methods.find? fun id => u.model.methods[id]?.any (·.sameSignature target)

/-- The methods that a call of a method can reach through implementers. -/
def dispatched (c : CallSite) (method : MethodId) : List MethodId :=
  match u.model.methods[method]? with
  | none => []
  | some target =>
    ((u.dispatchNames c method).flatMap u.implementers.reachedBy).filterMap (u.overriding? target)

/-- Whether a call is passed over. -/
def skips (c : CallSite) : Bool :=
  u.policy.skipsCall c.methodName (u.knownType? c)

/-- The methods that a call uses. -/
def usedBy (c : CallSite) : List MethodId :=
  if u.skips c then []
  else
    match u.resolve? c with
    | none => []
    | some method => method :: u.dispatched c method

/-- The methods that some call of the model uses. -/
def used : UsedSet :=
  .ofList (u.model.calls.flatMap u.usedBy)

/-! ## With checked numbers -/

/-- Checks that a method and its declaring type are in the model. -/
def checkMethod (id : MethodId) : Checked MethodDecl := do
  let d ← u.model.methodAt id
  let _ ← u.model.typeAt d.declaringType
  return d

/-- Checks the numbers that finding out the declaring type of a call looks at. -/
def checkKnown (c : CallSite) : Checked Unit := do
  match c.binding, c.receiver with
  | some bound, _ => let _ ← u.checkMethod bound
  | none, .super | none, .implicit | none, .this => u.model.placeAt c.enclosingType
  | none, _ => return ()

/-- Checks the numbers that looking for a call on the types it is imported from looks at: those of
the types up to the first that has it. -/
def checkImports (c : CallSite) : List TypeId → Checked Unit
  | [] => return ()
  | id :: ids => do
    let t ← u.model.typeAt id
    if (u.onType? c t.name).isNone then checkImports c ids

/-- Checks the numbers that resolving a call looks at. -/
def checkResolve (c : CallSite) : Checked Unit := do
  match c.binding, c.receiver with
  | none, .implicit =>
    let _ ← u.model.unitAt c.unit
    if (u.onOwnFile? c).isNone then
      checkImports u c (u.model.staticTargets c.unit c.methodName)
  | none, .this => let _ ← u.model.unitAt c.unit
  | _, _ => return ()

/-- Checks the numbers that looking for the signature of `target` looks at: those of the methods up to
the first that has it. -/
def checkOverriding (target : MethodDecl) : List MethodId → Checked Unit
  | [] => return ()
  | id :: ids => do
    let d ← u.model.methodAt id
    if !d.sameSignature target then checkOverriding target ids

/-- Checks the numbers that following a call to implementers looks at. -/
def checkDispatch (c : CallSite) (method : MethodId) : Checked Unit := do
  let target ← u.checkMethod method
  if c.receiver = .super then u.model.placeAt c.enclosingType
  ((u.dispatchNames c method).flatMap u.implementers.reachedBy).forM fun type => do
    let t ← u.model.typeAt type
    checkOverriding u target t.methods

/-- The methods that the call with a number uses. -/
def usedByCall (id : CallId) : Checked (List MethodId) := do
  let c ← u.model.callAt id
  u.checkKnown c
  if u.skips c then return []
  u.checkResolve c
  match u.resolve? c with
  | none => return []
  | some method =>
    u.checkDispatch c method
    return u.usedBy c

/-- The methods that a batch of calls uses. -/
def usedByBatch (ids : List CallId) : Checked UsedSet := do
  let batches ← ids.mapM u.usedByCall
  return .ofList batches.flatten

end MethodUse

end Deadwood.Usage
