/-!
# Sorted lists without repetitions

Sets are kept as strictly increasing lists, so that equal sets are equal lists. `insertSorted` adds
an element in its place; `sortedSet` makes a set of any list.
-/

namespace Deadwood

variable {α : Type} [LT α] [DecidableLT α] [DecidableEq α]

/-- Inserts an element into a strictly increasing list, unless it is there. -/
def insertSorted (x : α) : List α → List α
  | [] => [x]
  | y :: ys => if x < y then x :: y :: ys else if x = y then y :: ys else y :: insertSorted x ys

/-- The elements of a list, in increasing order and each once. -/
def sortedSet (xs : List α) : List α :=
  xs.foldl (fun set x => insertSorted x set) []

theorem mem_insertSorted {a x : α} {xs : List α} : a ∈ insertSorted x xs ↔ a = x ∨ a ∈ xs := by
  induction xs with
  | nil => simp [insertSorted]
  | cons y ys ih =>
    simp only [insertSorted]
    split
    · simp
    · split
      · subst_vars; simp
      · simp only [List.mem_cons, ih]
        exact or_left_comm

theorem mem_foldl_insertSorted {a : α} {xs set : List α} :
    a ∈ xs.foldl (fun set x => insertSorted x set) set ↔ a ∈ set ∨ a ∈ xs := by
  induction xs generalizing set with
  | nil => simp
  | cons x xs ih =>
    simp only [List.foldl_cons, ih, mem_insertSorted, List.mem_cons]
    constructor
    · rintro ((rfl | h) | h) <;> simp [*]
    · rintro (h | rfl | h) <;> simp [*]

theorem mem_sortedSet {a : α} {xs : List α} : a ∈ sortedSet xs ↔ a ∈ xs := by
  simp [sortedSet, mem_foldl_insertSorted]

/-- Insertion keeps a list strictly increasing, in an order whose elements compare. -/
theorem pairwise_insertSorted (trans : ∀ {a b c : α}, a < b → b < c → a < c)
    (compares : ∀ a b : α, a < b ∨ a = b ∨ b < a) {x : α} {xs : List α}
    (h : xs.Pairwise (· < ·)) : (insertSorted x xs).Pairwise (· < ·) := by
  induction xs with
  | nil => simp [insertSorted]
  | cons y ys ih =>
    obtain ⟨hy, hys⟩ := List.pairwise_cons.1 h
    simp only [insertSorted]
    split
    · rename_i hxy
      refine List.pairwise_cons.2 ⟨fun b hb => ?_, h⟩
      rcases List.mem_cons.1 hb with rfl | hb
      · exact hxy
      · exact trans hxy (hy b hb)
    · split
      · exact h
      · rename_i hlt hne
        refine List.pairwise_cons.2 ⟨fun b hb => ?_, ih hys⟩
        rcases mem_insertSorted.1 hb with rfl | hb
        · exact ((compares _ _).resolve_left hlt).resolve_left hne
        · exact hy b hb

/-- Values that are inserted one by one come to stand in order, each once. -/
theorem pairwise_foldl_insertSorted (trans : ∀ {a b c : α}, a < b → b < c → a < c)
    (compares : ∀ a b : α, a < b ∨ a = b ∨ b < a) {xs set : List α} (h : set.Pairwise (· < ·)) :
    (xs.foldl (fun set x => insertSorted x set) set).Pairwise (· < ·) := by
  induction xs generalizing set with
  | nil => exact h
  | cons x xs ih => exact ih (pairwise_insertSorted trans compares h)

end Deadwood
