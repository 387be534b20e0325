import Deadwood.Proofs.Code.Embedding

/-!
# Unrelated files

A file that is added can change what a name means only by declaring a type with the simple name that
the name ends in. Each place where a name is looked up builds another qualified name from it, but
all of them end as the name does, so a new type that is found has its last segment as simple name.
A model therefore lies unchanged inside the model with the file added, as far as other names are
concerned (`Embeds.append`), and resolution and bindings are what they were.
-/

namespace Deadwood.Code

/-! ## Keeping all numbers -/

/-- Every number stays what it is. -/
def Renumbering.same : Renumbering :=
  ⟨id, id, id, id⟩

@[simp] theorem TypeDecl.renumber_same (t : TypeDecl) : t.renumber .same = t := by
  simp [TypeDecl.renumber, Renumbering.same]

@[simp] theorem MethodDecl.renumber_same (d : MethodDecl) : d.renumber .same = d := rfl

@[simp] theorem CallSite.renumber_same (c : CallSite) : c.renumber .same = c := by
  simp [CallSite.renumber, Renumbering.same]

namespace Model

/-- The simple names that no type of a file has. -/
def Undeclared (u : SourceUnit) (name : String) : Prop :=
  ∀ t ∈ u.types, t.name ≠ name

section Append

variable {m : Model} {u : SourceUnit}

theorem append_byQualified? (hu : ∀ t ∈ u.types, Text.lastSegment t.qualifiedName = t.name)
    {full : String} (hfull : Undeclared u (Text.lastSegment full)) :
    (m.append u).byQualified? full = m.byQualified? full := by
  have hnone : (m.shiftedTypes u).find? (·.qualifiedName == full) = none := by
    refine List.find?_eq_none.2 fun t ht heq => ?_
    obtain ⟨s, hs, rfl⟩ := mem_shiftedTypes.1 ht
    have hname : s.qualifiedName = full := beq_iff_eq.1 heq
    exact hfull s hs (by rw [← hname, hu s hs])
  have hadd := foldl_addType_byQualified? m (m.shiftedTypes u) full
  rw [hnone, Option.map_none, Option.or_none] at hadd
  exact hadd

theorem append_onlyBySimple? {simple : String} (hsimple : Undeclared u simple) :
    (m.append u).onlyBySimple? simple = m.onlyBySimple? simple := by
  have hnil : (m.shiftedTypes u).filter (·.name == simple) = [] := by
    refine List.filter_eq_nil_iff.2 fun t ht heq => ?_
    obtain ⟨s, hs, rfl⟩ := mem_shiftedTypes.1 ht
    exact hsimple s hs (beq_iff_eq.1 heq)
  have hadd := foldl_addType_bySimple m (m.shiftedTypes u) simple
  rw [hnil, List.map_nil, List.append_nil] at hadd
  have hsame : (m.append u).bySimple simple = m.bySimple simple := hadd
  rw [onlyBySimple?, onlyBySimple?, hsame]

/-- A model lies inside the model with a file added. Only names that the file declares can come to
mean something else. -/
theorem Embeds.append (hu : ∀ t ∈ u.types, Text.lastSegment t.qualifiedName = t.name) :
    Embeds .same (Undeclared u) m (m.append u) where
  unit i info hi := by
    rw [append_units]
    exact getElem?_append_of_some hi _
  type i t ht := by
    rw [append_types, TypeDecl.renumber_same]
    exact getElem?_append_of_some ht _
  method i d hd := by
    rw [append_methods, MethodDecl.renumber_same]
    exact getElem?_append_of_some hd _
  type_inj _ _ _ _ hij := hij
  qualified full hfull := by
    rw [append_byQualified? hu hfull]
    exact Option.map_id_apply.symm
  only simple hsimple := by
    rw [append_onlyBySimple? hsimple]
    exact Option.map_id_apply.symm

end Append

/-- **Unrelated files.** When a file is added to a model, a written name resolves as before from
every place of the model, unless the file declares a type with the simple name that is sought. If it
declares no simple name that the supertypes, receivers and static imports of the model are sought
under, every call of the model is bound as before. -/
theorem addUnit_unrelated {m after : Model} (h : m.Reached SourceUnit.Shaped) {u : SourceUnit}
    (hu : u.Shaped) (hnames : ∀ t ∈ u.types, Text.lastSegment t.qualifiedName = t.name)
    {allow : Bool} {number : UnitId}
    (hadd : (Edit.addUnit u allow).run.run m = (.ok number, after)) :
    (∀ written, Undeclared u (soughtName written) → ∀ unit < m.units.length,
      ∀ place : Option TypeId, (∀ e ∈ place, e < m.types.length) →
        after.resolveIn? written unit place = m.resolveIn? written unit place) ∧
    (m.Uses (Undeclared u) →
      (∀ c ∈ m.calls, after.bind? c = m.bind? c) ∧
      after.bindCalls.calls.take m.calls.length = m.bindCalls.calls) := by
  obtain ⟨-, hafter⟩ := addUnit_ok (congrArg Prod.fst hadd)
  rw [hadd] at hafter
  subst hafter
  have hm := h.arena
  have hm' : (m.append u).Arena :=
    ⟨hm.toIndexed.append hu.toNumbered, hm.toLinked.append hm.toIndexed hu⟩
  have hembeds : Embeds .same (Undeclared u) m (m.append u) := .append hnames
  refine ⟨fun written hwritten unit hunit place hplace => ?_, fun huses => ?_⟩
  · have hmap := hembeds.resolveIn?_map hm hm' hwritten hunit hplace
    have hid : ∀ o : Option TypeId, o.map Renumbering.same.type = o := fun _ => Option.map_id_apply
    rwa [hid, hid] at hmap
  · have hbind : ∀ c ∈ m.calls, (m.append u).bind? c = m.bind? c := by
      intro c hc
      have hmap := hembeds.bind?_map hm hm' huses hc
      rw [CallSite.renumber_same] at hmap
      exact hmap.trans Option.map_id_apply
    refine ⟨hbind, ?_⟩
    simp only [Model.bindCalls, append_calls, List.map_append]
    rw [List.take_left' (List.length_map ..)]
    exact List.map_congr_left fun c hc => by rw [hbind c hc]

end Model

/-- A second class `Square` in another package. -/
def Sample.squares : SourceUnit where
  info := ⟨⟨"b/Square.java"⟩, some "b", [], []⟩
  types := [{ type 0 "Square" [] with qualifiedName := "b.Square" }]
  methods := []
  calls := []

namespace Model

/-- The sample file has a class `Square`, but nothing in it is sought under that name. A second
`Square` leaves the meaning of `Shape` and the call through it as they are. -/
theorem addUnit_unrelated_sample :
    let m := ((Edit.addUnit Sample.shapes false).run.run .empty).2
    let after := ((Edit.addUnit Sample.squares false).run.run m).2
    m.Reached SourceUnit.Shaped ∧ Sample.squares.Shaped ∧
    (∃ t ∈ m.types, ¬ Undeclared Sample.squares t.name) ∧ m.Uses (Undeclared Sample.squares) ∧
    after.resolveIn? "Shape" 0 (some 1) = some 0 ∧
    after.bindCalls.calls.map (·.binding) = [some 0] := by
  intro m after
  have hreached : m.Reached SourceUnit.Shaped := .add false .empty Sample.shapes_shaped
  have hshaped : Sample.squares.Shaped := by
    constructor
    · constructor <;> decide
    all_goals decide
  have hnames : ∀ t ∈ Sample.squares.types, Text.lastSegment t.qualifiedName = t.name := by
    decide +kernel
  have huses : m.Uses (Undeclared Sample.squares) := by
    constructor <;> unfold Undeclared <;> decide +kernel
  have hadd : (Edit.addUnit Sample.squares false).run.run m = (.ok 1, after) := by
    have hfree : m.firstDuplicate? Sample.squares = none := by decide +kernel
    refine Prod.ext ?_ rfl
    rw [Edit.run_addUnit, hfree]
    rfl
  obtain ⟨hresolve, hbind⟩ := addUnit_unrelated hreached hshaped hnames hadd
  have hshape := hresolve "Shape" (by unfold Undeclared; decide +kernel) 0 (by decide +kernel)
    (some 1) (by decide +kernel)
  refine ⟨hreached, hshaped, ?_, huses, ?_, ?_⟩
  · unfold Undeclared
    decide +kernel
  · rw [hshape]
    decide +kernel
  · have hcalls := (hbind huses).2
    have hlength : after.bindCalls.calls.length ≤ m.calls.length := by decide +kernel
    rw [List.take_of_length_le hlength] at hcalls
    rw [hcalls]
    decide +kernel

end Model

end Deadwood.Code
