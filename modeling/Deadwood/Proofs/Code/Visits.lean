import Deadwood.Proofs.Code.Walk

/-!
# What a visit can do

The walk over a syntax tree is put together from few changes of its state. `Entered` says what a
node by itself can do: declare variables, mention a type name, add a call or add a method. `Visits`
says what a relation between the states before and after a visit has to allow for: one such change,
one change after the other, and the visit of what lies inside a named type or a scope. A relation
that allows for these holds of the visit of every node (`Visits.visit`).
-/

namespace Deadwood.Code.Extraction

open Java (Kind Role Node)

/-! ## A node by itself -/

/-- The states that the node `n` can leave by itself, before its children are visited. -/
inductive Entered (ctx : Context) (n : Node) (s : State) : State → Prop where
  | declares (bound : List (String × Option String)) :
    Entered ctx n s (bound.foldl (fun s b => s.declare b.1 b.2) s)
  | mentions (name : String) : Entered ctx n s (mention ctx name s)
  | calls (kind : CallKind) (name : String) (args : Option Nat) (recv : Receiver) (line : Nat) :
    Entered ctx n s (addCall ctx kind name args recv line s)
  | method : Entered ctx n s (addMethod ctx n s)

namespace Entered

variable {ctx : Context} {n : Node} {s : State}

theorem nothing : Entered ctx n s s :=
  .declares []

theorem invocation : Entered ctx n s (addInvocation ctx n s) := by
  unfold addInvocation
  split
  · exact .nothing
  · exact .calls ..

theorem reference : Entered ctx n s (addReference ctx n s) := by
  simp only [addReference]
  split
  · exact .nothing
  · exact .calls ..

end Entered

/-- The changes of `Entered` are all that entering a node can make. -/
theorem entered_enter (ctx : Context) (n : Node) (s : State) : Entered ctx n s (enter ctx n s) := by
  unfold enter
  split
  case h_1 => exact .method
  case h_2 =>
    -- local variables
    have hbound : Entered ctx n s _ := .declares
      ((declaratorNames n).map fun name => (name, (n.child? .type).bind declaredType?))
    rwa [List.foldl_map] at hbound
  case h_3 | h_4 | h_5 =>
    -- variables of caught exceptions, resources and type tests
    split
    · next name type _ => exact .declares [(name, type)]
    · exact .nothing
  case h_6 => exact .invocation
  case h_7 => exact .reference
  case h_8 =>
    -- a field of what may be a type
    split
    · split
      · exact .mentions _
      · exact .nothing
    · exact .nothing
  case h_9 =>
    split
    · exact .nothing
    · exact .mentions _
  case h_10 => exact .mentions _
  case h_11 | h_12 =>
    -- annotations
    split
    · exact .mentions _
    · exact .nothing
  case h_13 => exact .nothing

/-! ## A node with its children -/

/-- The context inside the type `name`, which is the next one to be collected. -/
def Context.inType (ctx : Context) (name : String) (s : State) : Context :=
  { ctx with
    enclosing := some s.types.length
    scopeName := some (ctx.qualify name)
    anonymous := false }

/-- Which type a node belongs to is not changed by the method or class body that it opens. -/
theorem within_enclosing (ctx : Context) (n : Node) : (ctx.within n).enclosing = ctx.enclosing := by
  unfold Context.within
  split <;> rfl

/-- A relation between the states before and after a visit in a context, closed under all that a
visit is put together from. -/
structure Visits (R : Context → State → State → Prop) : Prop where
  trans : ∀ {ctx s t u}, R ctx s t → R ctx t u → R ctx s u
  enter : ∀ {ctx n s t}, Entered ctx n s t → R ctx s t
  inType : ∀ {ctx kind name n s t},
    R (ctx.inType name s) ((addType ctx kind name n s).openScope (typeScope n)) t →
      R ctx s (t.leaveType s.types.length)
  inScope : ∀ {ctx n scope s t}, R (ctx.within n) (s.openScope scope) t → R ctx s t.closeScope

namespace Visits

variable {R : Context → State → State → Prop} (h : Visits R)

include h

theorem refl (ctx : Context) (s : State) : R ctx s s :=
  h.enter (n := .mk .token none "" 0 0 []) .nothing

mutual

/-- A relation that allows for the changes of a visit holds of the visit of every node. The
induction is on the tree, with the lists of children as the other two parts. -/
theorem visit {ctx : Context} {parent : Kind} {s : State} :
    (n : Node) → R ctx s (Extraction.visit ctx parent n s)
  | .mk kind role text line endLine children => by
    cases htype : namedType? (.mk kind role text line endLine children) with
    | some type =>
      obtain ⟨typeKind, name⟩ := type
      rw [visit_of_type htype]
      exact h.inType (visitAll children)
    | none =>
      have hentered := h.enter (entered_enter ctx (.mk kind role text line endLine children) s)
      rw [visit_of_other htype]
      split
      · exact h.trans hentered (visitFirst children)
      · split
        · exact hentered
        · cases scopeOf? parent (.mk kind role text line endLine children) with
          | none => exact h.trans hentered (visitAll children)
          | some scope => exact h.trans hentered (h.inScope (visitAll children))

theorem visitAll {ctx : Context} {parent : Kind} {s : State} :
    (ns : List Node) → R ctx s (Extraction.visitAll ctx parent ns s)
  | [] => by
    rw [Extraction.visitAll]
    exact h.refl ctx s
  | n :: ns => by
    rw [Extraction.visitAll]
    exact h.trans (visit n) (visitAll ns)

theorem visitFirst {ctx : Context} {parent : Kind} {role : Role} {s : State} :
    (ns : List Node) → R ctx s (Extraction.visitFirst ctx parent role ns s)
  | [] => by
    rw [Extraction.visitFirst]
    exact h.refl ctx s
  | n :: ns => by
    rw [Extraction.visitFirst]
    split
    · exact visit n
    · exact visitFirst ns

end

end Visits

end Deadwood.Code.Extraction
