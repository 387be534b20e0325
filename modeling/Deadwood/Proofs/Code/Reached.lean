import Deadwood.Code.Binding
import Mathlib.Data.List.Basic

/-!
# Models that files can lead to

Adding a file works on a model in place: it looks for names that are taken, then enters the types,
the methods and the calls one by one. `Edit.run_addUnit` says what that comes to: an error leaves
the model as it was, and else the whole file stands behind what was there (`Model.append`).

`Model.Reached P` are the models that lead from the empty one through files with the property `P`
and through binding, in any order. The files come in shapes: `SourceUnit.Numbered`, where numbers
are positions, `SourceUnit.Shaped`, where the links between the declarations hold as well,
`SourceUnit.Named`, where names are written as a source file can write them, and
`SourceUnit.WellFormed`, which is all of it.
-/

namespace Deadwood.Code

/-! ## Shapes of files -/

/-- A type as written without generics, blanks and trailing array brackets. -/
structure IsPlain (written : String) : Prop where
  no_angle : '<' ∉ written.toList ∧ '>' ∉ written.toList
  no_blank : ∀ c ∈ written.toList, Text.isBlank c = false
  no_brackets : ¬ ['[', ']'] <:+ written.toList

namespace SourceUnit

/-- The declarations and the calls of a file are numbered by their positions. -/
structure Numbered (u : SourceUnit) : Prop where
  type_ids : u.types.map (·.id) = List.range u.types.length
  method_ids : u.methods.map (·.id) = List.range u.methods.length
  call_ids : u.calls.map (·.id) = List.range u.calls.length

/-- A file in the shape in which a walk over a syntax tree leaves it: outer types come before inner
ones, a type lists exactly the methods that name it as declaring type, and no call is bound. -/
structure Shaped (u : SourceUnit) : Prop extends Numbered u where
  enclosing_lt : ∀ t ∈ u.types, ∀ e ∈ t.enclosing, e < t.id
  declaring_lt : ∀ d ∈ u.methods, d.declaringType < u.types.length
  methods_eq : ∀ t ∈ u.types, t.methods = u.methods.findIdxs (·.declaringType == t.id)
  place_lt : ∀ c ∈ u.calls, ∀ e ∈ c.enclosingType, e < u.types.length
  unbound : ∀ c ∈ u.calls, c.binding = none

/-- The types of a file have the last segment of their qualified name as simple name, and plain
supertypes. -/
structure Named (u : SourceUnit) : Prop where
  name_eq : ∀ t ∈ u.types, Text.lastSegment t.qualifiedName = t.name
  plain : ∀ t ∈ u.types, ∀ s ∈ t.superTypes, IsPlain s

/-- A file as a source text gives it. -/
structure WellFormed (u : SourceUnit) : Prop extends Shaped u, Named u

end SourceUnit

/-! ## Adding a file as a whole -/

namespace Model

/-- The first error that a type of `unit` causes because its qualified name is taken. -/
def firstDuplicate? (m : Model) (unit : SourceUnit) : Option ScanError :=
  unit.types.findSome? (m.duplicate? unit)

/-- The types of `unit` with the numbers they get in a model. -/
def shiftedTypes (m : Model) (unit : SourceUnit) : List TypeDecl :=
  unit.types.map (·.shift m.units.length m.types.length m.methods.length)

/-- The methods of `unit` with the numbers they get in a model. -/
def shiftedMethods (m : Model) (unit : SourceUnit) : List MethodDecl :=
  unit.methods.map (·.shift m.types.length m.methods.length)

/-- The calls of `unit` with the numbers they get in a model. -/
def shiftedCalls (m : Model) (unit : SourceUnit) : List CallSite :=
  unit.calls.map (·.shift m.units.length m.types.length m.calls.length)

/-- The model with a file behind what was there, whatever names the file declares. -/
def append (m : Model) (unit : SourceUnit) : Model :=
  { (m.shiftedTypes unit).foldl addType m with
    units := m.units ++ [unit.info]
    methods := m.methods ++ m.shiftedMethods unit
    calls := m.calls ++ m.shiftedCalls unit }

theorem foldl_addType_types (m : Model) (ts : List TypeDecl) :
    (ts.foldl addType m).types = m.types ++ ts := by
  induction ts generalizing m with
  | nil => simp
  | cons t ts ih =>
    rw [List.foldl_cons, ih]
    simp [addType]

/-- Entering types touches nothing but the types and their indexes. -/
theorem foldl_addType_frame (m : Model) (ts : List TypeDecl) :
    (ts.foldl addType m).units = m.units ∧ (ts.foldl addType m).methods = m.methods ∧
      (ts.foldl addType m).calls = m.calls := by
  induction ts generalizing m with
  | nil => simp
  | cons t ts ih => exact ih (m.addType t)

theorem foldl_addMethod (m : Model) (ds : List MethodDecl) :
    ds.foldl addMethod m = { m with methods := m.methods ++ ds } := by
  induction ds generalizing m with
  | nil => simp
  | cons d ds ih =>
    rw [List.foldl_cons, ih]
    simp [addMethod]

theorem foldl_addCall (m : Model) (cs : List CallSite) :
    cs.foldl addCall m = { m with calls := m.calls ++ cs } := by
  induction cs generalizing m with
  | nil => simp
  | cons c cs ih =>
    rw [List.foldl_cons, ih]
    simp [addCall]

@[simp] theorem append_units (m : Model) (u : SourceUnit) :
    (m.append u).units = m.units ++ [u.info] := rfl

@[simp] theorem append_types (m : Model) (u : SourceUnit) :
    (m.append u).types = m.types ++ m.shiftedTypes u :=
  foldl_addType_types m _

@[simp] theorem append_methods (m : Model) (u : SourceUnit) :
    (m.append u).methods = m.methods ++ m.shiftedMethods u := rfl

@[simp] theorem append_calls (m : Model) (u : SourceUnit) :
    (m.append u).calls = m.calls ++ m.shiftedCalls u := rfl

end Model

/-! ## What adding in place comes to -/

namespace Edit

/-- An edit goes on from where the one before it went through. -/
theorem run_bind_ok {α β : Type} {x : Edit α} {f : α → Edit β} {m after : Model} {a : α}
    (h : x.run.run m = (.ok a, after)) : (x >>= f).run.run m = (f a).run.run after := by
  rw [ExceptT.run_bind, StateT.run_bind, h]
  rfl

/-- Entering the items of a list one by one is a fold over the model, and never fails. -/
theorem run_forM_modify {α β : Type} (op : Model → β → Model) (g : α → β) (xs : List α)
    (m : Model) :
    (xs.forM fun x => (modify (op · (g x)) : Edit PUnit)).run.run m =
      (.ok ⟨⟩, (xs.map g).foldl op m) := by
  induction xs generalizing m with
  | nil => rfl
  | cons x xs ih => exact ih (op m (g x))

/-- Looking for a name that is taken does not change the model. -/
theorem run_refuseTaken (unit : SourceUnit) (t : TypeDecl) (m : Model) :
    (refuseTaken unit t).run.run m =
      match m.duplicate? unit t with
      | some error => (.error error, m)
      | none => (.ok ⟨⟩, m) := by
  change StateT.run (ExceptT.run (match m.duplicate? unit t with
    | some error => throw error
    | none => pure ())) m = _
  cases m.duplicate? unit t with
  | none => rfl
  | some error => rfl

/-- Looking for names that are taken breaks off at the first one and changes nothing. -/
theorem run_forM_refuseTaken (unit : SourceUnit) (ts : List TypeDecl) (m : Model) :
    (ts.forM (refuseTaken unit)).run.run m =
      match ts.findSome? (m.duplicate? unit) with
      | some error => (.error error, m)
      | none => (.ok ⟨⟩, m) := by
  induction ts with
  | nil => rfl
  | cons t ts ih =>
    have ht := run_refuseTaken unit t m
    rw [List.findSome?_cons]
    change StateT.run (ExceptT.run
      (refuseTaken unit t >>= fun _ => ts.forM (refuseTaken unit))) m = _
    rw [ExceptT.run_bind, StateT.run_bind, ht]
    cases m.duplicate? unit t with
    | some error => rfl
    | none => exact ih

/-- The loops over types, methods and calls put the whole file behind what was there. -/
theorem run_enterUnit (unit : SourceUnit) (m : Model) :
    (enterUnit unit).run.run m = (.ok m.units.length, m.append unit) := by
  have hget : (get : Edit Model).run.run m = (.ok m, m) := rfl
  have htypes := run_forM_modify Model.addType
    (·.shift m.units.length m.types.length m.methods.length) unit.types
  have hmethods := run_forM_modify Model.addMethod
    (·.shift m.types.length m.methods.length) unit.methods
  have hcalls := run_forM_modify Model.addCall
    (·.shift m.units.length m.types.length m.calls.length) unit.calls
  obtain ⟨hu, hd, hc⟩ := Model.foldl_addType_frame m (m.shiftedTypes unit)
  -- Every loop starts from the state that the one before it left; the sizes are those of `m`.
  unfold enterUnit
  rw [run_bind_ok hget]
  dsimp only
  rw [run_bind_ok (htypes _), run_bind_ok (hmethods _), run_bind_ok (hcalls _)]
  change (Except.ok m.units.length, Model.addInfo ((m.shiftedCalls unit).foldl Model.addCall
    ((m.shiftedMethods unit).foldl Model.addMethod
      ((m.shiftedTypes unit).foldl Model.addType m))) unit.info) = _
  rw [Model.foldl_addCall, Model.foldl_addMethod]
  simp only [Model.addInfo, Model.append, hu, hd, hc]

/-- **Adding a file in place** changes the model as a whole or not at all. -/
theorem run_addUnit (unit : SourceUnit) (allow : Bool) (m : Model) :
    (addUnit unit allow).run.run m =
      match allow, m.firstDuplicate? unit with
      | false, some error => (.error error, m)
      | _, _ => (.ok m.units.length, m.append unit) := by
  cases allow with
  | true => exact run_enterUnit unit m
  | false =>
    have hcheck := run_forM_refuseTaken unit unit.types m
    change StateT.run (ExceptT.run
      (unit.types.forM (refuseTaken unit) >>= fun _ => enterUnit unit)) m = _
    rw [ExceptT.run_bind, StateT.run_bind, hcheck]
    unfold Model.firstDuplicate?
    cases unit.types.findSome? (m.duplicate? unit) with
    | some error => rfl
    | none => exact run_enterUnit unit m

/-- The state that adding a file leaves behind. -/
theorem state_addUnit (unit : SourceUnit) (allow : Bool) (m : Model) :
    ((addUnit unit allow).run.run m).2 = m ∨
      ((addUnit unit allow).run.run m).2 = m.append unit := by
  rw [run_addUnit]
  split
  · exact Or.inl rfl
  · exact Or.inr rfl

end Edit

/-! ## Models that are reached -/

namespace Model

/-- The models that come about when files with the property `P` are added in place to the empty
model and calls are bound, in any order. A file that is refused leaves whatever state it leaves. -/
inductive Reached (P : SourceUnit → Prop) : Model → Prop where
  | empty : Reached P .empty
  | add {m : Model} {unit : SourceUnit} (allow : Bool) (hm : Reached P m) (hu : P unit) :
    Reached P ((Edit.addUnit unit allow).run.run m).2
  | bind {m : Model} (hm : Reached P m) : Reached P m.bindCalls

namespace Reached

variable {P Q : SourceUnit → Prop} {m : Model}

theorem mono (hPQ : ∀ u, P u → Q u) (h : Reached P m) : Reached Q m := by
  induction h with
  | empty => exact .empty
  | add allow _ hu ih => exact .add allow ih (hPQ _ hu)
  | bind _ ih => exact .bind ih

/-- What the empty model has and what whole files and binding keep, every reached model has. -/
theorem keeps {I : Model → Prop} (hempty : I .empty)
    (happend : ∀ m unit, P unit → I m → I (m.append unit))
    (hbind : ∀ m, I m → I m.bindCalls) (h : Reached P m) : I m := by
  induction h with
  | empty => exact hempty
  | @add m unit allow _ hu ih =>
    rcases Edit.state_addUnit unit allow m with hs | hs
    · rw [hs]
      exact ih
    · rw [hs]
      exact happend m unit hu ih
  | bind _ ih => exact hbind _ ih

end Reached

end Model

/-! ## A small file -/

namespace Sample

/-- A class of the sample file that implements the interface in it. -/
def type (id : TypeId) (name : String) (methods : List MethodId) : TypeDecl where
  id := id
  name := name
  qualifiedName := "a." ++ name
  kind := .classType
  unit := 0
  enclosing := none
  superclass := none
  interfaces := ["a.Shape"]
  annotations := []
  methods := methods
  typeRefs := []
  emptyBody := false
  location := ⟨⟨"a/Shape.java"⟩, id + 1, id + 1⟩

def method (id : MethodId) (type : TypeId) : MethodDecl where
  id := id
  name := "area"
  declaringType := type
  parameters := []
  returnType := none
  annotations := []
  isStatic := false
  location := ⟨⟨"a/Shape.java"⟩, id + 1, id + 1⟩

/-- An interface, a class that implements it, a nested class that does so too, and a call through
the interface. -/
def shapes : SourceUnit where
  info := ⟨⟨"a/Shape.java"⟩, some "a", [], []⟩
  types := [
    { type 0 "Shape" [0] with kind := .interface, interfaces := [] },
    type 1 "Square" [1],
    { type 2 "Corner" [2] with qualifiedName := "a.Square.Corner", enclosing := some 1 }]
  methods := [method 0 0, method 1 1, method 2 2]
  calls := [
    { id := 0
      kind := .invocation
      methodName := "area"
      argCount := some 0
      receiver := .variable "s" (some "Shape")
      enclosingType := some 1
      unit := 0
      line := 2
      binding := none }]

theorem shapes_shaped : shapes.Shaped := by
  constructor
  · constructor <;> decide
  all_goals decide

theorem shapes_named : shapes.Named := by
  constructor
  · decide +kernel
  · have hall : ∀ t ∈ shapes.types, ∀ s ∈ t.superTypes, s = "a.Shape" := by decide
    have hblank : ("a.Shape".toList.all fun c => !Text.isBlank c) = true := by decide +kernel
    intro t ht s hs
    rw [hall t ht s hs]
    refine ⟨by decide +kernel, fun c hc => ?_, by decide +kernel⟩
    simpa using List.all_eq_true.1 hblank c hc

theorem shapes_wellFormed : shapes.WellFormed :=
  ⟨shapes_shaped, shapes_named⟩

/-- The sample file added and bound, then added once more although its names are taken. -/
def model : Model :=
  ((Edit.addUnit shapes true).run.run
    ((Edit.addUnit shapes false).run.run .empty).2.bindCalls).2

theorem model_reached {P : SourceUnit → Prop} (hP : P shapes) : Model.Reached P model :=
  .add true (.bind (.add false .empty hP)) hP

end Sample

end Deadwood.Code
