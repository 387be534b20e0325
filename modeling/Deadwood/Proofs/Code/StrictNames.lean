import Deadwood.Proofs.Code.Built
import Deadwood.Proofs.Code.FileOrder

/-!
# Names that files share

A file is added strictly or tolerantly. A tolerant addition never fails (`addUnits_tolerant`). A
strict one compares the names of a file with those of the files before it, and it does so before any
type of the file is entered. So files can be added strictly just if no two of them declare a name in
common (`addUnits_strict_iff`), and the model is then the one that tolerant additions give
(`eq_of_addUnits`). Types of one name are types of one file in it (`SharesInUnit`), but nothing keeps
a file from declaring a name twice: the names of the model are distinct just if those of each file
are (`strict_names_apart`).
-/

namespace Deadwood.Code

/-- The qualified names that a file declares. -/
def SourceUnit.names (u : SourceUnit) : List String :=
  u.types.map (·.qualifiedName)

namespace Model

/-- The qualified names that a model has. -/
def names (m : Model) : List String :=
  m.types.map (·.qualifiedName)

theorem names_append (m : Model) (u : SourceUnit) : (m.append u).names = m.names ++ u.names :=
  map_qualifiedName_append m u

/-- No name is declared twice in a model exactly if no file repeats one and no two files share one.
-/
theorem nodup_names_ofUnits (us : List SourceUnit) :
    (ofUnits us).names.Nodup ↔
      (∀ u ∈ us, u.names.Nodup) ∧ us.Pairwise fun u v => u.names.Disjoint v.names := by
  have hnames : (ofUnits us).names = us.flatMap SourceUnit.names := map_qualifiedName_ofUnits us
  rw [hnames, List.nodup_flatMap]

/-! ## One addition -/

theorem addUnit_tolerant (m : Model) (u : SourceUnit) : m.addUnit u true = .ok (m.append u) := by
  have hrun := Edit.run_addUnit u true m
  simp only [addUnit, hrun]
  rfl

/-- Strictly, a file is added as it is or refused for its first name that is taken. -/
theorem addUnit_strict (m : Model) (u : SourceUnit) :
    m.addUnit u false = (m.firstDuplicate? u).elim (.ok (m.append u)) .error := by
  have hrun := Edit.run_addUnit u false m
  cases hdup : m.firstDuplicate? u with
  | none => exact addUnit_eq hdup false
  | some error =>
    rw [hdup] at hrun
    simp only [addUnit, hrun]
    rfl

/-- Whatever an addition gives, it is the model with the whole file behind it. -/
theorem eq_append_of_addUnit {m after : Model} {u : SourceUnit} {allow : Bool}
    (h : m.addUnit u allow = .ok after) : after = m.append u := by
  cases allow with
  | true =>
    rw [addUnit_tolerant] at h
    cases h
    rfl
  | false =>
    rw [addUnit_strict] at h
    cases hdup : m.firstDuplicate? u with
    | none =>
      rw [hdup] at h
      cases h
      rfl
    | some error =>
      rw [hdup] at h
      cases h

/-- Only names of other files are taken, so a file that repeats a name of its own is not refused. -/
theorem firstDuplicate?_eq_none_iff_disjoint {m : Model} (hm : m.Indexed) (u : SourceUnit) :
    m.firstDuplicate? u = none ↔ m.names.Disjoint u.names := by
  rw [firstDuplicate?_eq_none_iff hm u]
  constructor
  · intro hfree name hold hnew
    obtain ⟨old, hmem, rfl⟩ := List.mem_map.1 hold
    obtain ⟨t, ht, hname⟩ := List.mem_map.1 hnew
    exact hfree t ht ⟨old, hmem, hname.symm⟩
  · rintro hdisjoint t ht ⟨old, hold, hname⟩
    exact hdisjoint (List.mem_map.2 ⟨old, hold, hname⟩) (List.mem_map.2 ⟨t, ht, rfl⟩)

/-! ## Additions one after the other -/

theorem addUnits_tolerant (m : Model) (us : List SourceUnit) :
    m.addUnits true us = .ok (us.foldl append m) := by
  induction us generalizing m with
  | nil => rfl
  | cons u us ih =>
    rw [addUnits, List.foldlM_cons, addUnit_tolerant]
    exact ih (m.append u)

/-- Additions that go through give the same model, strict or not. -/
theorem eq_of_addUnits {m after : Model} {us : List SourceUnit} {allow : Bool}
    (h : m.addUnits allow us = .ok after) : after = us.foldl append m := by
  induction us generalizing m with
  | nil =>
    cases h
    rfl
  | cons u us ih =>
    rw [addUnits, List.foldlM_cons] at h
    obtain ⟨next, hadd, h⟩ := exists_of_bind_eq_ok h
    rw [List.foldl_cons, ← eq_append_of_addUnit hadd]
    exact ih h

/-- Files can be added strictly just if the names of the model and those of the files have nothing in
common with each other. -/
theorem exists_addUnits_strict_iff {m : Model} (hm : m.Indexed) {us : List SourceUnit}
    (hus : ∀ u ∈ us, u.Shaped) :
    (∃ after, m.addUnits false us = .ok after) ↔
      (m.names :: us.map SourceUnit.names).Pairwise List.Disjoint := by
  induction us generalizing m with
  | nil =>
    refine ⟨fun _ => List.pairwise_singleton _ _, fun _ => ⟨m, rfl⟩⟩
  | cons u us ih =>
    have hstep := ih (hm.append (hus u List.mem_cons_self).toNumbered) fun v hv =>
      hus v (List.mem_cons_of_mem _ hv)
    have hfree := firstDuplicate?_eq_none_iff_disjoint hm u
    rw [addUnits, List.foldlM_cons, addUnit_strict]
    cases hdup : m.firstDuplicate? u with
    | none =>
      have hdisjoint := hfree.1 hdup
      refine hstep.trans ?_
      rw [names_append]
      simp only [List.map_cons, List.pairwise_cons, List.mem_cons, forall_eq_or_imp,
        List.disjoint_append_left]
      constructor
      · rintro ⟨hnew, hrest⟩
        exact ⟨⟨hdisjoint, fun v hv => (hnew v hv).1⟩, fun v hv => (hnew v hv).2, hrest⟩
      · rintro ⟨⟨-, hold⟩, hu, hrest⟩
        exact ⟨fun v hv => ⟨hold v hv, hu v hv⟩, hrest⟩
    | some error =>
      constructor
      · rintro ⟨after, h⟩
        cases h
      · intro hpairwise
        have hdisjoint := (List.pairwise_cons.1 hpairwise).1 u.names List.mem_cons_self
        rw [hfree.2 hdisjoint] at hdup
        cases hdup

/-- Files are added strictly exactly if no two of them declare one name. -/
theorem addUnits_strict_iff {us : List SourceUnit} (hus : ∀ u ∈ us, u.Shaped) :
    (∃ m, Model.empty.addUnits false us = .ok m) ↔
      us.Pairwise fun u v => u.names.Disjoint v.names := by
  rw [exists_addUnits_strict_iff .empty hus, List.pairwise_cons, List.pairwise_map]
  exact and_iff_right fun names _ => List.disjoint_nil_left names

/-! ## Types of one name -/

/-- Types that share a name are types of one file. -/
def SharesInUnit (m : Model) : Prop :=
  ∀ s ∈ m.types, ∀ t ∈ m.types, s.qualifiedName = t.qualifiedName → s.unit = t.unit

/-- A file that shares no name with the model keeps equal names within one file. -/
theorem SharesInUnit.append {m : Model} (h : m.SharesInUnit) {u : SourceUnit}
    (hdisjoint : m.names.Disjoint u.names) : (m.append u).SharesInUnit := by
  have hapart : ∀ s ∈ m.types, ∀ t ∈ m.shiftedTypes u, s.qualifiedName ≠ t.qualifiedName := by
    intro s hs t ht hname
    obtain ⟨d, hd, rfl⟩ := mem_shiftedTypes.1 ht
    exact hdisjoint (List.mem_map.2 ⟨s, hs, hname⟩) (List.mem_map.2 ⟨d, hd, rfl⟩)
  intro s hs t ht hname
  rw [append_types, List.mem_append] at hs ht
  rcases hs with hs | hs <;> rcases ht with ht | ht
  · exact h s hs t ht hname
  · exact absurd hname (hapart s hs t ht)
  · exact absurd hname.symm (hapart t ht s hs)
  · -- All types of the new file get its number.
    obtain ⟨d, -, rfl⟩ := mem_shiftedTypes.1 hs
    obtain ⟨e, -, rfl⟩ := mem_shiftedTypes.1 ht
    rfl

theorem SharesInUnit.of_addUnits {m after : Model} (hm : m.Indexed) (h : m.SharesInUnit)
    {us : List SourceUnit} (hus : ∀ u ∈ us, u.Shaped)
    (hadd : m.addUnits false us = .ok after) : after.SharesInUnit := by
  induction us generalizing m with
  | nil =>
    cases hadd
    exact h
  | cons u us ih =>
    have hpairwise := (exists_addUnits_strict_iff hm hus).1 ⟨after, hadd⟩
    have hdisjoint := (List.pairwise_cons.1 hpairwise).1 u.names List.mem_cons_self
    rw [addUnits, List.foldlM_cons,
      addUnit_eq ((firstDuplicate?_eq_none_iff_disjoint hm u).2 hdisjoint)] at hadd
    exact ih (hm.append (hus u List.mem_cons_self).toNumbered) (h.append hdisjoint)
      (fun v hv => hus v (List.mem_cons_of_mem _ hv)) hadd

/-- **Names of a strict model.** Files can be added strictly, one after the other, just if no two of
them declare a name in common. In the model that comes about, types of one name are types of one
file, and its names are distinct just if each file declares distinct names. -/
theorem strict_names_apart {us : List SourceUnit} (hus : ∀ u ∈ us, u.Extracted) :
    ((∃ m, Model.empty.addUnits false us = .ok m) ↔
      us.Pairwise fun u v => u.names.Disjoint v.names) ∧
    ∀ m, Model.empty.addUnits false us = .ok m →
      (∀ s ∈ m.types, ∀ t ∈ m.types, s.qualifiedName = t.qualifiedName → s.unit = t.unit) ∧
      ((m.types.map (·.qualifiedName)).Nodup ↔
        ∀ u ∈ us, (u.types.map (·.qualifiedName)).Nodup) := by
  have hshaped : ∀ u ∈ us, u.Shaped := fun u hu => (hus u hu).shaped
  have hiff := addUnits_strict_iff hshaped
  refine ⟨hiff, fun m hadd => ⟨?_, ?_⟩⟩
  · refine SharesInUnit.of_addUnits .empty ?_ hshaped hadd
    intro s hs
    cases hs
  · have hapart := hiff.1 ⟨m, hadd⟩
    rw [eq_of_addUnits hadd]
    exact (nodup_names_ofUnits us).trans (and_iff_left hapart)

end Model

/-! ## A name twice in one file -/

namespace Sample

/-- A class without members. -/
def bare (path : Path) (id : TypeId) (name : String) : TypeDecl :=
  { type id name [] with
    qualifiedName := name, interfaces := [], emptyBody := true, location := ⟨path, 1, 1⟩ }

/-- A file of classes without members. -/
def bareFile (path : Path) (names : List String) : SourceUnit where
  info := ⟨path, none, [], []⟩
  types := names.mapIdx (bare path)
  methods := []
  calls := []

theorem parse_twice : SourceUnit.parse? ⟨"r/A.java"⟩ "class A \x7b\x7d class A \x7b\x7d" =
    some (bareFile ⟨"r/A.java"⟩ ["A", "A"]) := by
  decide +kernel

theorem parse_other :
    SourceUnit.parse? ⟨"r/B.java"⟩ "class B \x7b\x7d" = some (bareFile ⟨"r/B.java"⟩ ["B"]) := by
  decide +kernel

end Sample

namespace Model

/-- A file that declares a class twice is added strictly, and the model has the name twice. -/
theorem repeated_class_accepted :
    let twice := Sample.bareFile ⟨"r/A.java"⟩ ["A", "A"]
    SourceUnit.parse? ⟨"r/A.java"⟩ "class A \x7b\x7d class A \x7b\x7d" = some twice ∧
    Model.empty.addUnits false [twice] = .ok (ofUnits [twice]) ∧
    (ofUnits [twice]).types.map (·.qualifiedName) = ["A", "A"] := by
  intro twice
  have hfree : Model.empty.firstDuplicate? twice = none := by decide
  refine ⟨Sample.parse_twice, ?_, map_qualifiedName_ofUnits [twice]⟩
  rw [addUnits, List.foldlM_cons, addUnit_eq hfree]
  rfl

/-- The file that declares a class twice goes with another one, but not with itself. -/
theorem strict_names_apart_sample :
    let twice := Sample.bareFile ⟨"r/A.java"⟩ ["A", "A"]
    let other := Sample.bareFile ⟨"r/B.java"⟩ ["B"]
    (∀ u ∈ [twice, other], u.Extracted) ∧
    (∃ m, Model.empty.addUnits false [twice, other] = .ok m ∧
      (∀ s ∈ m.types, ∀ t ∈ m.types, s.qualifiedName = t.qualifiedName → s.unit = t.unit) ∧
      ¬ (m.types.map (·.qualifiedName)).Nodup) ∧
    ¬ ∃ m, Model.empty.addUnits false [twice, other, twice] = .ok m := by
  intro twice other
  have htwice : twice.Extracted := SourceUnit.extracted_of_parse? Sample.parse_twice
  have hother : other.Extracted := SourceUnit.extracted_of_parse? Sample.parse_other
  have hpair : ∀ u ∈ [twice, other], u.Extracted := by simp [htwice, hother]
  have hthree : ∀ u ∈ [twice, other, twice], u.Extracted := by simp [htwice, hother]
  obtain ⟨hiff, hmodel⟩ := strict_names_apart hpair
  obtain ⟨hiff', -⟩ := strict_names_apart hthree
  have hapart : [twice, other].Pairwise fun u v => u.names.Disjoint v.names :=
    List.pairwise_pair.2 (List.disjoint_left.2 (by decide))
  obtain ⟨m, hm⟩ := hiff.2 hapart
  obtain ⟨hshares, hdistinct⟩ := hmodel m hm
  refine ⟨hpair, ⟨m, hm, hshares, fun hnodup => ?_⟩, fun hadded => ?_⟩
  · have hnodup : twice.names.Nodup := hdistinct.1 hnodup twice List.mem_cons_self
    exact absurd hnodup (by decide)
  · have hself : twice.names.Disjoint twice.names :=
      List.rel_of_pairwise_cons (hiff'.1 hadded) (by simp)
    have hname : "A" ∈ twice.names := by decide
    exact hself hname hname

end Model

end Deadwood.Code
