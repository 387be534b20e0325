import Mathlib.Data.List.Basic
import Mathlib.Data.List.Perm.Basic

/-!
# Positions in lists

Declarations, calls and batches are kept in lists and known by their position. These are the facts
about positions that the arguments about models and runs share.
-/

namespace Deadwood

variable {α : Type}

theorem perm_cons_eraseIdx {xs : List α} {i : Nat} {x : α} (h : xs[i]? = some x) :
    xs.Perm (x :: xs.eraseIdx i) := by
  obtain ⟨hi, rfl⟩ := List.getElem?_eq_some_iff.1 h
  exact (List.getElem_cons_eraseIdx_perm hi).symm

theorem getElem?_append_of_some {xs : List α} {i : Nat} {x : α} (h : xs[i]? = some x)
    (ys : List α) : (xs ++ ys)[i]? = some x := by
  rw [List.getElem?_append_left (List.getElem?_eq_some_iff.1 h).1, h]

theorem map_range_getElem? (xs : List α) : (List.range xs.length).map (xs[·]?) = xs.map some := by
  apply List.ext_getElem
  · simp
  · intro i hi _
    rw [List.length_map, List.length_range] at hi
    simp [hi]

theorem flatMap_range_getElem? {β : Type} (xs : List α) (f : α → List β) :
    (List.range xs.length).flatMap (fun i => (xs[i]?.map f).getD []) = xs.flatMap f := by
  have hmap := congrArg (List.flatMap fun x : Option α => (x.map f).getD []) (map_range_getElem? xs)
  rw [List.flatMap_map, List.flatMap_map] at hmap
  exact hmap

/-- Where keys differ, an element is the first one with its key. -/
theorem findIdx?_of_nodup {β : Type} [BEq β] [LawfulBEq β] {f : α → β} {xs : List α}
    (h : (xs.map f).Nodup) {i : Nat} {x : α} (hx : xs[i]? = some x) :
    xs.findIdx? (f · == f x) = some i := by
  obtain ⟨hi, rfl⟩ := List.getElem?_eq_some_iff.1 hx
  refine List.findIdx?_eq_some_iff_getElem.2 ⟨hi, beq_self_eq_true _, fun j hj heq => ?_⟩
  have hne := List.pairwise_iff_getElem.1 (List.pairwise_map.1 h) j i (Nat.lt_trans hj hi) hi hj
  exact hne (beq_iff_eq.1 heq)

/-! ## Elements that know their position -/

section Numbers

variable {f : α → Nat} {p : α → Bool}

/-- If items are numbered by their positions, the numbers of some are their positions. -/
theorem filter_map_of_numbers {s : Nat} {xs : List α} (h : xs.map f = List.range' s xs.length) :
    (xs.filter p).map f = xs.findIdxs p s := by
  induction xs generalizing s with
  | nil => rfl
  | cons x xs ih =>
    rw [List.map_cons, List.length_cons, List.range'_succ, List.cons.injEq] at h
    rw [List.findIdxs_cons, List.filter_cons]
    by_cases hx : p x = true
    · rw [if_pos hx, if_pos hx, List.map_cons, h.1, ih h.2]
    · rw [if_neg hx, if_neg hx, ih h.2]

/-- So the number of the first item of a kind is the position of the first one. -/
theorem find?_map_of_numbers {s : Nat} {xs : List α} (h : xs.map f = List.range' s xs.length) :
    (xs.find? p).map f = (xs.findIdx? p).map (· + s) := by
  induction xs generalizing s with
  | nil => rfl
  | cons x xs ih =>
    rw [List.map_cons, List.length_cons, List.range'_succ, List.cons.injEq] at h
    rw [List.findIdx?_cons, List.find?_cons]
    by_cases hx : p x = true
    · rw [hx, if_pos rfl, Option.map_some, Option.map_some, h.1, Nat.zero_add]
    · rw [Bool.not_eq_true] at hx
      rw [hx, if_neg Bool.false_ne_true, ih h.2, Option.map_map]
      congr 1
      funext i
      simp only [Function.comp_apply]
      omega

theorem number_eq {xs : List α} (h : xs.map f = List.range xs.length) {i : Nat} {x : α}
    (hx : xs[i]? = some x) : f x = i := by
  have hi : (xs.map f)[i]? = some (f x) := by rw [List.getElem?_map, hx]; rfl
  rw [h] at hi
  obtain ⟨_, he⟩ := List.getElem?_eq_some_iff.1 hi
  rw [← he, List.getElem_range]

theorem getElem?_number {xs : List α} (h : xs.map f = List.range xs.length) {x : α} (hx : x ∈ xs) :
    xs[f x]? = some x := by
  obtain ⟨i, hi⟩ := List.mem_iff_getElem?.1 hx
  rw [number_eq h hi]
  exact hi

theorem number_lt {xs : List α} (h : xs.map f = List.range xs.length) {x : α} (hx : x ∈ xs) :
    f x < xs.length :=
  (List.getElem?_eq_some_iff.1 (getElem?_number h hx)).1

/-- Numbers that are all moved by `n` begin at `n`. -/
theorem shifted_numbers {β : Type} {g : β → Nat} {xs : List α} {sh : α → β} {n : Nat}
    (hsh : ∀ x, g (sh x) = f x + n) (h : xs.map f = List.range xs.length) :
    (xs.map sh).map g = List.range' n (xs.map sh).length := by
  have hmap : (xs.map sh).map g = (xs.map f).map (· + n) := by
    rw [List.map_map, List.map_map]
    exact List.map_congr_left fun x _ => hsh x
  rw [hmap, h, List.length_map, List.range'_eq_map_range]
  exact List.map_congr_left fun i _ => Nat.add_comm i n

theorem append_numbers {xs ys : List α} (hx : xs.map f = List.range xs.length)
    (hy : ys.map f = List.range' xs.length ys.length) :
    (xs ++ ys).map f = List.range (xs ++ ys).length := by
  rw [List.map_append, hx, hy, List.length_append, List.range_add, List.range'_eq_map_range]

end Numbers

end Deadwood
