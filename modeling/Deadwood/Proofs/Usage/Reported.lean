import Deadwood.Usage.Ranking
import Mathlib.Data.List.Perm.Basic

/-!
# Used sets and the methods that are reported

A used set is determined by its members, so the order in which batches are merged into it does not
matter. The ranking is a rearrangement of the findings of the methods that are neither used nor
excluded (`rank_perm_reported`); a method that is used is none of them.
-/

namespace Deadwood.Usage

open Code

namespace UsedSet

variable {s t : UsedSet} {ids ids' : List Nat} {x : Nat}

theorem mem_ofList : x ∈ ofList ids ↔ x ∈ ids := by
  rw [ofList, mem_extend]
  exact or_iff_right List.not_mem_nil

/-- Sets of numbers with the same members are the same set, as they are kept in order. -/
theorem ext_mem (h : ∀ x, x ∈ s ↔ x ∈ t) : s = t := by
  obtain ⟨xs, hxs⟩ := s
  obtain ⟨ys, hys⟩ := t
  have hperm : xs.Perm ys :=
    (List.perm_ext_iff_of_nodup (hxs.imp Nat.ne_of_lt) (hys.imp Nat.ne_of_lt)).2 h
  have heq := hperm.eq_of_pairwise (fun a b _ _ hab hba => absurd hab (Nat.lt_asymm hba)) hxs hys
  subst heq
  rfl

end UsedSet

variable {policy : Policy} {m : Model} {used : UsedSet}

/-- The finding for a method, if its declaring type is known. -/
def finding? (m : Model) (d : MethodDecl) : Option MethodFinding :=
  m.types[d.declaringType]?.map (methodFinding d)

/-- The methods that are neither used nor excluded. -/
def reported (policy : Policy) (m : Model) (used : UsedSet) : List MethodDecl :=
  m.methods.filter fun d => (unusedMethod? policy m used d).isSome

theorem unusedMethod?_eq_finding? {d : MethodDecl} (h : (unusedMethod? policy m used d).isSome) :
    unusedMethod? policy m used d = finding? m d := by
  unfold unusedMethod? at h ⊢
  split
  · next hused =>
    rw [if_pos hused] at h
    cases h
  · next hused =>
    rw [if_neg hused] at h
    unfold finding?
    cases ht : m.types[d.declaringType]? with
    | none => rfl
    | some declaring =>
      rw [ht, Option.bind_some] at h
      rw [Option.bind_some, Option.map_some]
      split at h
      · next hfree => rw [if_pos hfree]
      · cases h

/-- The ranking has the findings of the methods that are reported, and nothing else. -/
theorem rank_perm_reported :
    (rank policy m used).Perm ((reported policy m used).filterMap (finding? m)) := by
  have hfindings : m.methods.filterMap (unusedMethod? policy m used) =
      (reported policy m used).filterMap (finding? m) := by
    rw [reported, List.filterMap_filter]
    refine List.filterMap_congr fun d _ => ?_
    split
    · next hsome => exact unusedMethod?_eq_finding? hsome
    · next hnone => exact Option.not_isSome_iff_eq_none.1 hnone
  rw [← hfindings]
  exact List.mergeSort_perm _ _

theorem unusedMethod?_eq_some_iff {d : MethodDecl} {f : MethodFinding} :
    unusedMethod? policy m used d = some f ↔ d.id ∉ used ∧
      ∃ t, m.types[d.declaringType]? = some t ∧ policy.exclusion? d t = none ∧
        methodFinding d t = f := by
  rw [← UsedSet.contains_iff, unusedMethod?]
  split
  · next hused => simp [hused]
  · next hfree => simp [hfree, Option.bind_eq_some_iff]

theorem notMem_used_of_mem_reported {d : MethodDecl} (h : d ∈ reported policy m used) :
    d.id ∉ used := by
  intro hused
  have hsome := (List.mem_filter.1 h).2
  rw [unusedMethod?, if_pos (UsedSet.contains_iff.2 hused)] at hsome
  cases hsome

end Deadwood.Usage
