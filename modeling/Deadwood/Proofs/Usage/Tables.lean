import Deadwood.Proofs.Usage.Reported
import Deadwood.Usage.MethodUse

/-!
# What longer tables do

A longer table leaves out more: candidates of the textual scan, candidates of the class scan, methods
of the report, or calls. A call that is passed over uses nothing, so with more container methods fewer
methods are used. Infrastructure markers keep calls from being passed over, so with more of them more
methods are used (`MethodUse.used_mono`). Which types implement what depends on none of the tables
that settings add to.
-/

namespace Deadwood.Usage

open Code

/-! ## Sorting a part of a list -/

section Sorting

variable {α : Type} {le : α → α → Bool}
  (htrans : ∀ a b c, le a b = true → le b c = true → le a c = true)
  (htotal : ∀ a b, (le a b || le b a) = true)

include htrans htotal

/-- An item is put in front of the first one that it is not behind. -/
theorem mergeSort_cons_eq (a : α) (l : List α) :
    (a :: l).mergeSort le =
      (l.mergeSort le).filter (fun b => !le a b) ++ a :: (l.mergeSort le).filter (le a) := by
  obtain ⟨before, after, hcons, hl, hbefore⟩ := List.mergeSort_cons htrans htotal a l
  have hsorted := List.pairwise_mergeSort htrans htotal (a :: l)
  rw [hcons, List.pairwise_append, List.pairwise_cons] at hsorted
  obtain ⟨-, ⟨hafter, -⟩, -⟩ := hsorted
  have hfront : before.filter (le a) = [] :=
    List.filter_eq_nil_iff.2 fun b hb => by simpa using hbefore b hb
  have hback : after.filter (fun b => !le a b) = [] :=
    List.filter_eq_nil_iff.2 fun b hb => by simpa using hafter b hb
  rw [hcons, hl, List.filter_append, List.filter_append, hfront, hback,
    List.filter_eq_self.2 hbefore, List.filter_eq_self.2 hafter, List.append_nil, List.nil_append]

/-- Leaving out items before sorting leaves the others in the order that they have with them.
Sorting is stable, so this holds for items that tie as well. -/
theorem mergeSort_sublist {xs ys : List α} (h : xs.Sublist ys) :
    (xs.mergeSort le).Sublist (ys.mergeSort le) := by
  induction h with
  | slnil => exact .refl _
  | @cons xs ys a _ ih =>
    obtain ⟨before, after, hcons, hys, -⟩ := List.mergeSort_cons htrans htotal a ys
    rw [hcons]
    rw [hys] at ih
    exact ih.trans ((List.Sublist.refl before).append (List.sublist_cons_self a after))
  | cons_cons a _ ih =>
    rw [mergeSort_cons_eq htrans htotal, mergeSort_cons_eq htrans htotal]
    exact (ih.filter _).append ((ih.filter _).cons_cons a)

end Sorting

/-! Items go by descending size, whatever the size is. -/

theorem descending_trans {α : Type} (size : α → Nat) (a b c : α)
    (hab : decide (size b ≤ size a) = true) (hbc : decide (size c ≤ size b) = true) :
    decide (size c ≤ size a) = true := by
  simp only [decide_eq_true_eq] at hab hbc ⊢
  omega

theorem descending_total {α : Type} (size : α → Nat) (a b : α) :
    (decide (size b ≤ size a) || decide (size a ≤ size b)) = true := by
  simp only [Bool.or_eq_true, decide_eq_true_eq]
  omega

/-! ## Tables that settings add to -/

/-- The tables that settings add to. -/
inductive Table where
  | fileSuffixes
  | beanAnnotations
  | typeAnnotations
  | lifecycleAnnotations
  | lifecycleMethods
  | containerMethods
  | infrastructureMarkers
  deriving DecidableEq

namespace Exclusions

variable (e : Exclusions)

/-- The entries of a table. -/
def entries : Table → List String
  | .fileSuffixes => e.fileSuffixes
  | .beanAnnotations => e.beanAnnotations
  | .typeAnnotations => e.typeAnnotations
  | .lifecycleAnnotations => e.lifecycleAnnotations
  | .lifecycleMethods => e.lifecycleMethods
  | .containerMethods => e.containerMethods
  | .infrastructureMarkers => e.infrastructureMarkers

/-- The additions with more entries at the end of one table. -/
def append (more : List String) : Table → Exclusions
  | .fileSuffixes => { e with fileSuffixes := e.fileSuffixes ++ more }
  | .beanAnnotations => { e with beanAnnotations := e.beanAnnotations ++ more }
  | .typeAnnotations => { e with typeAnnotations := e.typeAnnotations ++ more }
  | .lifecycleAnnotations => { e with lifecycleAnnotations := e.lifecycleAnnotations ++ more }
  | .lifecycleMethods => { e with lifecycleMethods := e.lifecycleMethods ++ more }
  | .containerMethods => { e with containerMethods := e.containerMethods ++ more }
  | .infrastructureMarkers => { e with infrastructureMarkers := e.infrastructureMarkers ++ more }

theorem entries_append (more : List String) (table other : Table) :
    (e.append more table).entries other =
      if other = table then e.entries other ++ more else e.entries other := by
  cases table <;> cases other <;> rfl

theorem entries_subset_append (more : List String) (table other : Table) :
    e.entries other ⊆ (e.append more table).entries other := by
  rw [entries_append]
  split
  · exact List.subset_append_left _ _
  · exact List.Subset.refl _

theorem append_entries_subset (more : List String) {table other : Table} (h : other ≠ table) :
    (e.append more table).entries other ⊆ e.entries other := by
  rw [entries_append, if_neg h]
  exact List.Subset.refl _

end Exclusions

/-! ## Policies -/

namespace Policy

theorem any_of_subset {table more : List String} (h : table ⊆ more) {q : String → Bool}
    (hany : table.any q = true) : more.any q = true := by
  obtain ⟨entry, hentry, hq⟩ := List.any_eq_true.1 hany
  exact List.any_eq_true.2 ⟨entry, h hentry, hq⟩

theorem append_subset_append (table : List String) {xs ys : List String} (h : xs ⊆ ys) :
    table ++ xs ⊆ table ++ ys := by
  intro entry hentry
  rcases List.mem_append.1 hentry with hentry | hentry
  · exact List.mem_append_left _ hentry
  · exact List.mem_append_right _ (h hentry)

/-- With more suffixes no fewer files are left out of the textual scan. -/
theorem excludesFile_mono {p p' : Policy} (h : p.fileSuffixes ⊆ p'.fileSuffixes) {path : Path}
    (hp : p.excludesFile path = true) : p'.excludesFile path = true := by
  unfold excludesFile at hp ⊢
  split at hp
  · cases hp
  · exact any_of_subset h hp

/-- With more annotations of beans no more types are candidates of the class scan. -/
theorem isCandidate_anti {p p' : Policy} (h : p.beanAnnotations ⊆ p'.beanAnnotations)
    {t : TypeDecl} (ht : p'.isCandidate t = true) : p.isCandidate t = true := by
  simp only [isCandidate, Bool.and_eq_true, Bool.not_eq_true', ← Bool.not_eq_true] at ht ⊢
  exact ⟨ht.1, fun hany => ht.2 (any_of_subset h hany)⟩

theorem ite_some_eq_none_iff {α : Type} {c : Prop} [Decidable c] {a : α} {o : Option α} :
    (if c then some a else o) = none ↔ ¬ c ∧ o = none := by
  split <;> simp [*]

/-- A method stays in the report if none of the seven reasons to leave it out applies. -/
theorem exclusion?_eq_none_iff {p : Policy} {d : MethodDecl} {t : TypeDecl} :
    p.exclusion? d t = none ↔
      ¬ p.nameFragments.any (containsText t.qualifiedName) = true ∧
      ¬ hasAny p.typeAnnotations t.annotations = true ∧
      ¬ hasAny p.lifecycleAnnotations d.annotations = true ∧
      ¬ (t.annotations.any fun a => p.mappingPackages.any (startsWithText a.fullName)) = true ∧
      ¬ endsWithText t.qualifiedName p.builderSuffix = true ∧ ¬ (!t.kind.isClassLike) = true ∧
      ¬ p.lifecycleMethods.contains d.name = true := by
  simp only [exclusion?, ite_some_eq_none_iff, and_true]

/-- Settings that leave out no fewer methods of the report and no more calls. -/
structure Spares (e e' : Exclusions) : Prop where
  typeAnnotations : e.typeAnnotations ⊆ e'.typeAnnotations
  lifecycleAnnotations : e.lifecycleAnnotations ⊆ e'.lifecycleAnnotations
  lifecycleMethods : e.lifecycleMethods ⊆ e'.lifecycleMethods
  infrastructureMarkers : e.infrastructureMarkers ⊆ e'.infrastructureMarkers
  containerMethods : e'.containerMethods ⊆ e.containerMethods

/-- Adding to any table but that of container methods can only take methods out of the report and
calls back in. -/
theorem spares_append (e : Exclusions) (more : List String) {table : Table}
    (h : table ≠ .containerMethods) : Spares e (e.append more table) where
  typeAnnotations := e.entries_subset_append more table .typeAnnotations
  lifecycleAnnotations := e.entries_subset_append more table .lifecycleAnnotations
  lifecycleMethods := e.entries_subset_append more table .lifecycleMethods
  infrastructureMarkers := e.entries_subset_append more table .infrastructureMarkers
  containerMethods := e.append_entries_subset more h.symm

/-- Adding container methods goes the other way. The two tables that the method scan does not read
are in both lists, as adding to them changes nothing there. -/
theorem append_spares (e : Exclusions) (more : List String) {table : Table}
    (h : table = .containerMethods ∨ table = .fileSuffixes ∨ table = .beanAnnotations) :
    Spares (e.append more table) e := by
  have hcontainer := e.entries_subset_append more table .containerMethods
  -- With the table known, the other four are those of `e`.
  rcases h with rfl | rfl | rfl
  all_goals
    refine ⟨?_, ?_, ?_, ?_, hcontainer⟩
    all_goals exact List.Subset.refl _

section Spares

variable {e e' : Exclusions} (h : Spares e e')

include h

/-- A method that the larger tables leave in the report is left in it by the smaller ones. -/
theorem Spares.exclusion? {d : MethodDecl} {t : TypeDecl}
    (hnone : (extend e').exclusion? d t = none) : (extend e).exclusion? d t = none := by
  rw [exclusion?_eq_none_iff] at hnone ⊢
  obtain ⟨hfragment, htype, hlifecycle, hmapping, hbuilder, hkind, hmethod⟩ := hnone
  refine ⟨hfragment, fun hany => htype ?_, fun hany => hlifecycle ?_, hmapping, hbuilder, hkind,
    fun hmem => hmethod ?_⟩
  · exact any_of_subset (append_subset_append _ h.typeAnnotations) hany
  · exact any_of_subset (append_subset_append _ h.lifecycleAnnotations) hany
  · rw [List.contains_iff_mem] at hmem ⊢
    exact append_subset_append _ h.lifecycleMethods hmem

/-- A call that is passed over in spite of more markers and fewer container methods is passed over.
-/
theorem Spares.skipsCall {method : String} {declaring : Option String}
    (hskips : (extend e').skipsCall method declaring = true) :
    (extend e).skipsCall method declaring = true := by
  simp only [Policy.skipsCall, Bool.and_eq_true, List.contains_iff_mem, Option.any_eq_true]
    at hskips ⊢
  obtain ⟨hcontainer, type, htype, hplain⟩ := hskips
  refine ⟨append_subset_append _ h.containerMethods hcontainer, type, htype, ?_⟩
  rw [Bool.not_eq_true', ← Bool.not_eq_true] at hplain ⊢
  have hmarkers := append_subset_append Policy.builtIn.infrastructureMarkers h.infrastructureMarkers
  exact fun hmarked => hplain (any_of_subset hmarkers hmarked)

end Spares

end Policy

/-! ## Used methods -/

namespace MethodUse

/-- A policy that passes over no more calls makes no fewer methods used. -/
theorem usedBy_subset (u : MethodUse) {p : Policy}
    (h : ∀ method declaring, p.skipsCall method declaring = true →
      u.policy.skipsCall method declaring = true) (c : CallSite) :
    u.usedBy c ⊆ { u with policy := p }.usedBy c := by
  by_cases hskips : u.skips c = true
  · rw [usedBy, if_pos hskips]
    exact List.nil_subset _
  · have hskips' : ¬ { u with policy := p }.skips c = true := fun hp => hskips (h _ _ hp)
    rw [usedBy, usedBy, if_neg hskips, if_neg hskips']
    exact List.Subset.refl _

/-- Settings that pass over fewer calls make no fewer methods used. -/
theorem used_mono {e e' : Exclusions} (h : Policy.Spares e e') (m : Model) {id : MethodId}
    (hid : id ∈ (ofModel m (.extend e)).used) : id ∈ (ofModel m (.extend e')).used := by
  have hused := UsedSet.mem_ofList.1 hid
  obtain ⟨c, hc, hid⟩ := List.mem_flatMap.1 hused
  -- The index of implementers is the same under both policies.
  have hsubset : (ofModel m (.extend e)).usedBy c ⊆ (ofModel m (.extend e')).usedBy c :=
    usedBy_subset (ofModel m (.extend e)) (fun _ _ => h.skipsCall) c
  exact UsedSet.mem_ofList.2 (List.mem_flatMap.2 ⟨c, hc, hsubset hid⟩)

end MethodUse

theorem filterMap_sublist {α β : Type} {f g : α → Option β}
    (h : ∀ a b, f a = some b → g a = some b) (l : List α) :
    (l.filterMap f).Sublist (l.filterMap g) := by
  induction l with
  | nil => exact .refl _
  | cons a l ih =>
    rw [List.filterMap_cons, List.filterMap_cons]
    cases hf : f a with
    | none =>
      cases g a with
      | none => exact ih
      | some b => exact ih.cons b
    | some b =>
      rw [h a b hf]
      exact ih.cons_cons b

/-- More used methods and more exclusions make a report that is part of the other one, in the same
order. -/
theorem rank_sublist {p p' : Policy} {m : Model} {used used' : UsedSet}
    (hused : ∀ id ∈ used, id ∈ used')
    (hexclusion : ∀ d t, p'.exclusion? d t = none → p.exclusion? d t = none) :
    (rank p' m used').Sublist (rank p m used) := by
  refine mergeSort_sublist (descending_trans _) (descending_total _)
    (filterMap_sublist (fun d f hf => ?_) _)
  obtain ⟨hfree, t, ht, hnone, hfinding⟩ := unusedMethod?_eq_some_iff.1 hf
  exact unusedMethod?_eq_some_iff.2
    ⟨fun hid => hfree (hused _ hid), t, ht, hexclusion d t hnone, hfinding⟩

end Deadwood.Usage
