import Deadwood.Code.Build
import Deadwood.Proofs.Code.Extracted

/-!
# Models that builds give

A file that can be parsed comes from its syntax tree. If what is recovered of the others comes from
syntax trees as well, whichever these are, so does every file that a build adds. A build that
succeeds, strict or not, then gives a model that such files lead to
(`Model.reached_of_buildOrRetryWith`).
-/

namespace Deadwood.Code

open Java (Node)

/-- A file that a syntax tree gives, whatever the tree is. -/
def SourceUnit.Extracted (u : SourceUnit) : Prop :=
  ∃ path root, u = .ofTree path root

theorem SourceUnit.Extracted.shaped {u : SourceUnit} (h : u.Extracted) : u.Shaped := by
  obtain ⟨path, root, rfl⟩ := h
  exact (Extraction.ofTree_recorded path root).toShaped

theorem SourceUnit.extracted_of_parse? {path : Path} {text : String} {u : SourceUnit}
    (h : parse? path text = some u) : u.Extracted := by
  obtain ⟨root, -, rfl⟩ := Option.map_eq_some_iff.1 h
  exact ⟨path, root, rfl⟩

/-- The program takes a text that is not well formed for one with an empty tree. -/
theorem Recovery.bare_eq_ofTrees : bare = ofTrees fun _ => some (.mk .program none "" 1 1 []) :=
  rfl

/-- Whatever the tolerance, a file that enters a model was extracted from a tree: the one that its
text parses to or the one that recovery puts in its place. -/
theorem Source.extracted_of_unit? {trees : String → Option Node} {tolerance : Tolerance}
    {s : Source} {u : SourceUnit} (h : s.unit? (.ofTrees trees) tolerance = some u) :
    u.Extracted := by
  obtain ⟨text, -, h⟩ := Option.bind_eq_some_iff.1 h
  split at h
  · next unit hparse _ =>
    cases h
    exact SourceUnit.extracted_of_parse? hparse
  · obtain ⟨root, -, rfl⟩ := Option.map_eq_some_iff.1 h
    exact ⟨s.path, root, rfl⟩
  · cases h

theorem exists_of_bind_eq_ok {ε α β : Type} {x : Except ε α} {f : α → Except ε β} {b : β}
    (h : (x >>= f) = .ok b) : ∃ a, x = .ok a ∧ f a = .ok b := by
  cases x with
  | error e => cases h
  | ok a => exact ⟨a, rfl, h⟩

namespace Model

/-- A checked addition that goes through leaves the state of the unchecked one. -/
theorem state_of_addUnit {m after : Model} {u : SourceUnit} {allow : Bool}
    (h : m.addUnit u allow = .ok after) : ((Edit.addUnit u allow).run.run m).2 = after := by
  unfold addUnit at h
  generalize (Edit.addUnit u allow).run.run m = p at h ⊢
  obtain ⟨_ | id, state⟩ := p <;> cases h
  rfl

/-- Models that are reached by additions stay so when a list of files is added that goes through. -/
theorem Reached.of_addUnits {P : SourceUnit → Prop} {allow : Bool} {us : List SourceUnit}
    (hus : ∀ u ∈ us, P u) {m after : Model} (hm : Reached P m)
    (h : m.addUnits allow us = .ok after) : Reached P after := by
  induction us generalizing m with
  | nil =>
    cases h
    exact hm
  | cons u us ih =>
    rw [addUnits, List.foldlM_cons] at h
    obtain ⟨next, hadd, h⟩ := exists_of_bind_eq_ok h
    refine ih (fun v hv => hus v (List.mem_cons_of_mem _ hv)) ?_ h
    rw [← state_of_addUnit hadd]
    exact .add allow hm (hus u List.mem_cons_self)

section Builds

variable {trees : String → Option Node} {sources : List Source} {m : Model}

/-- A build that goes through gives a model that is reached by adding extracted files and binding
calls, whichever trees recovery takes texts for. -/
theorem reached_of_buildWith {tolerance : Tolerance}
    (h : buildWith (.ofTrees trees) tolerance sources = .ok m) :
    m.Reached SourceUnit.Extracted := by
  obtain ⟨added, hadd, h⟩ := exists_of_bind_eq_ok h
  cases h
  refine .bind (.of_addUnits (fun u hu => ?_) .empty hadd)
  obtain ⟨s, -, hs⟩ := List.mem_filterMap.1 hu
  exact Source.extracted_of_unit? hs

/-- A build with its retry gives a model that files of syntax trees lead to. -/
theorem reached_of_buildOrRetryWith (h : buildOrRetryWith (.ofTrees trees) sources = .ok m) :
    m.Reached SourceUnit.Extracted := by
  unfold buildOrRetryWith at h
  split at h
  · next strict hstrict =>
    cases h
    exact reached_of_buildWith hstrict
  · split at h
    · exact reached_of_buildWith h
    · cases h

end Builds

end Model

end Deadwood.Code
