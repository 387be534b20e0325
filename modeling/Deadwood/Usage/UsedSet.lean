import Deadwood.Sorted

/-!
# Sets of used methods

The methods that a scan has found in use, as an increasing list of numbers. Batches are merged into
the set in any order with the same result.
-/

namespace Deadwood.Usage

/-- A set of method numbers. -/
structure UsedSet where
  ids : List Nat
  sorted : ids.Pairwise (· < ·)

namespace UsedSet

def empty : UsedSet :=
  ⟨[], .nil⟩

def insert (s : UsedSet) (id : Nat) : UsedSet :=
  ⟨insertSorted id s.ids,
    pairwise_insertSorted (fun h k => Nat.lt_trans h k) Nat.lt_trichotomy s.sorted⟩

/-- Merges a batch into the set. -/
def extend (s : UsedSet) (batch : List Nat) : UsedSet :=
  batch.foldl insert s

def ofList (ids : List Nat) : UsedSet :=
  empty.extend ids

def contains (s : UsedSet) (id : Nat) : Bool :=
  s.ids.contains id

def size (s : UsedSet) : Nat :=
  s.ids.length

instance : Membership Nat UsedSet :=
  ⟨fun s id => id ∈ s.ids⟩

theorem contains_iff {s : UsedSet} {id : Nat} : s.contains id = true ↔ id ∈ s :=
  List.contains_iff_mem

theorem mem_insert {s : UsedSet} {id x : Nat} : x ∈ s.insert id ↔ x = id ∨ x ∈ s :=
  mem_insertSorted

theorem mem_extend {s : UsedSet} {batch : List Nat} {x : Nat} :
    x ∈ s.extend batch ↔ x ∈ s ∨ x ∈ batch := by
  unfold extend
  induction batch generalizing s with
  | nil => simp
  | cons b bs ih =>
    simp only [List.foldl_cons, ih, mem_insert, List.mem_cons]
    constructor
    · rintro ((h | h) | h) <;> simp [h]
    · rintro (h | h | h) <;> simp [h]

end UsedSet

end Deadwood.Usage
