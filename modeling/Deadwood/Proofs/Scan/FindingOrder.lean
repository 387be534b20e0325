import Deadwood.Scan.Unused
import Mathlib.Data.List.Perm.Basic

/-!
# The order of findings

Findings are sorted by name, then by file and line, where files compare step by step. Each of these
comparisons is put together from comparisons that are transitive, so the order of findings is a
total preorder (`findingLe_trans`, `findingLe_total`). What sorting gives then depends on the
findings only and not on the order in which they came, as long as the order tells different findings
apart (`sortFindings_eq_of_separated`), as it does if they have different names
(`sortFindings_eq_of_perm`).
-/

namespace Deadwood

/-! ## Paths -/

instance : Std.TransCmp Step.compare :=
  inferInstanceAs (Std.TransCmp (compareLex (compareOn Step.rank) (compareOn Step.text)))

/-- Paths are compared step by step, as in a dictionary. -/
theorem Path.compareSteps_eq (as bs : List Step) :
    compareSteps as bs = List.compareLex Step.compare as bs := by
  induction as generalizing bs with
  | nil => cases bs <;> rfl
  | cons a as ih =>
    cases bs with
    | nil => rfl
    | cons b bs => rw [compareSteps, List.compareLex_cons_cons, ih]

instance : Std.TransCmp Path.compare where
  eq_swap {p q} := by
    rw [Path.compare, Path.compare, Path.compareSteps_eq, Path.compareSteps_eq]
    exact Std.OrientedCmp.eq_swap
  isLE_trans {p q r} hpq hqr := by
    rw [Path.compare, Path.compareSteps_eq] at hpq hqr ⊢
    exact Std.TransCmp.isLE_trans hpq hqr

instance : Std.LawfulEqCmp Step.compare where
  eq_of_compare {a b} h := by
    rw [Step.compare, Ordering.then_eq_eq] at h
    have hrank : a.rank = b.rank := Std.LawfulEqCmp.eq_of_compare h.1
    have htext : a.text = b.text := Std.LawfulEqCmp.eq_of_compare h.2
    cases a <;> cases b <;> first | rfl | exact congrArg Step.name htext | cases hrank

theorem Path.compare_eq_iff {p q : Path} : p.compare q = .eq ↔ p.same q = true := by
  rw [compare, compareSteps_eq, Std.LawfulEqCmp.compare_eq_iff_eq, same, beq_iff_eq]

/-! ## Sorting -/

/-- Sorting leaves items that are all tied in their order. -/
theorem filter_mergeSort {α : Type} {le : α → α → Bool}
    (htrans : ∀ a b c, le a b = true → le b c = true → le a c = true)
    (htotal : ∀ a b, (le a b || le b a) = true) {p : α → Bool}
    (htied : ∀ a b, p a = true → p b = true → le a b = true) (xs : List α) :
    (xs.mergeSort le).filter p = xs.filter p := by
  have hpairwise : (xs.filter p).Pairwise fun a b => le a b = true := by
    apply List.pairwise_of_forall_mem_list
    intro a ha b hb
    exact htied a b (List.mem_filter.1 ha).2 (List.mem_filter.1 hb).2
  have hsub := List.sublist_mergeSort htrans htotal hpairwise List.filter_sublist
  have hfilter := hsub.filter p
  simp only [List.filter_filter, Bool.and_self] at hfilter
  refine (hfilter.eq_of_length ?_).symm
  exact ((List.mergeSort_perm xs le).filter p).length_eq.symm

/-! ## Findings -/

namespace Scan

open Code Usage

/-- Locations compare by file and first line. -/
instance : Ord Location :=
  ⟨compareLex (fun l m => l.file.compare m.file) (compareOn (·.line))⟩

instance : Std.TransCmp fun l m : Location => l.file.compare m.file where
  eq_swap {l m} := (Std.OrientedCmp.eq_swap : l.file.compare m.file = _)
  isLE_trans {k l m} (hkl : (k.file.compare l.file).isLE) (hlm : (l.file.compare m.file).isLE) :=
    Std.TransCmp.isLE_trans hkl hlm

instance : Std.TransOrd Location :=
  inferInstanceAs (Std.TransCmp
    (compareLex (fun l m : Location => l.file.compare m.file) (compareOn (·.line))))

/-- Findings compare by name, then by place; those without a place come first. -/
def findingOrder : ClassFinding → ClassFinding → Ordering :=
  compareLex (compareOn (·.name)) (compareOn (·.location))

instance : Std.TransCmp findingOrder :=
  inferInstanceAs (Std.TransCmp
    (compareLex (compareOn ClassFinding.name) (compareOn ClassFinding.location)))

theorem findingLe_eq (a b : ClassFinding) : findingLe a b = (findingOrder a b).isLE := by
  obtain ⟨aName, aRefs, aPlace⟩ := a
  obtain ⟨bName, bRefs, bPlace⟩ := b
  cases aPlace <;> cases bPlace <;> rfl

theorem findingLe_trans (a b c : ClassFinding) (hab : findingLe a b = true)
    (hbc : findingLe b c = true) : findingLe a c = true := by
  rw [findingLe_eq] at hab hbc ⊢
  exact Std.TransCmp.isLE_trans hab hbc

theorem findingLe_total (a b : ClassFinding) : (findingLe a b || findingLe b a) = true := by
  have hswap : findingOrder b a = (findingOrder a b).swap := Std.OrientedCmp.eq_swap
  rw [findingLe_eq, findingLe_eq, hswap]
  cases findingOrder a b <;> rfl

theorem pairwise_sortFindings (xs : List ClassFinding) :
    (sortFindings xs).Pairwise fun a b => findingLe a b = true :=
  List.pairwise_mergeSort findingLe_trans findingLe_total xs

theorem sortFindings_perm (xs : List ClassFinding) : (sortFindings xs).Perm xs :=
  List.mergeSort_perm xs _

/-- If no two findings tie, the order that they are sorted from does not matter. -/
theorem sortFindings_eq_of_separated {xs ys : List ClassFinding} (h : xs.Perm ys)
    (hseparated : ∀ a ∈ xs, ∀ b ∈ xs, findingOrder a b = .eq → a = b) :
    sortFindings xs = sortFindings ys := by
  have hperm : (sortFindings xs).Perm (sortFindings ys) :=
    ((sortFindings_perm xs).trans h).trans (sortFindings_perm ys).symm
  refine hperm.eq_of_pairwise (fun a b ha hb hab hba => ?_) (pairwise_sortFindings xs)
    (pairwise_sortFindings ys)
  rw [findingLe_eq] at hab hba
  refine hseparated a ((sortFindings_perm xs).mem_iff.1 ha) b ?_
    (Std.OrientedCmp.isLE_antisymm hab hba)
  exact h.mem_iff.2 ((sortFindings_perm ys).mem_iff.1 hb)

/-- Names come first in the order, so findings with different names never tie. -/
theorem sortFindings_eq_of_perm {xs ys : List ClassFinding} (h : xs.Perm ys)
    (hname : ∀ a ∈ xs, ∀ b ∈ xs, a.name = b.name → a = b) :
    sortFindings xs = sortFindings ys := by
  refine sortFindings_eq_of_separated h fun a ha b hb horder => hname a ha b hb ?_
  rw [findingOrder, compareLex, Ordering.then_eq_eq] at horder
  exact Std.LawfulEqCmp.eq_of_compare horder.1

end Scan

end Deadwood
