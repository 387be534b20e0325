import Deadwood.Code.Hierarchy
import Deadwood.Usage.Exclusion

/-!
# Implementers

A class implements, for whoever calls through a supertype, every supertype that is written on it or
on a type above it. Supertypes are known by simple name, so those outside the source tree count too,
but only types of the source tree have supertypes that are followed.
-/

namespace Deadwood.Usage

open Code

/-- The simple names of the supertypes written on a type. -/
def writtenSuperNames (m : Model) (id : TypeId) : List String :=
  match m.types[id]? with
  | none => []
  | some t => t.superTypes.map Text.lastSegment

/-- The types of the model that the supertypes written on a type lead to. -/
def writtenSuperTypes (m : Model) (id : TypeId) : List TypeId :=
  match m.types[id]? with
  | none => []
  | some t => t.superTypes.filterMap (m.resolve? · id)

/-- The simple names of the supertypes written on the types of `stack` and on those above them,
depth first. Only types that are still `unseen` are looked at. -/
def superNamesFrom (m : Model) (unseen : List TypeId) : List TypeId → List String
  | [] => []
  | id :: stack =>
    if _h : id ∈ unseen then
      writtenSuperNames m id ++
        superNamesFrom m (unseen.removeAll [id]) (writtenSuperTypes m id ++ stack)
    else superNamesFrom m unseen stack
termination_by stack => (unseen.length, stack.length)
decreasing_by
  · exact Prod.Lex.left _ _ (List.length_filter_lt_length_iff_exists.2 ⟨id, _h, by simp⟩)
  · exact Prod.Lex.right _ (Nat.lt_succ_self _)

/-- The simple names under which calls can reach a type: its own, and those of the supertypes
written on it and on the types above it. -/
def reachableNames (m : Model) (t : TypeDecl) : List String :=
  t.name :: superNamesFrom m (List.range m.types.length) [t.id]

/-- The implementers that each name reaches. -/
structure Implementers where
  byName : Index (List TypeId)

namespace Implementers

/-- The classes that a call through `ancestor` can reach. -/
def reachedBy (index : Implementers) (ancestor : String) : List TypeId :=
  index.byName.getAll ancestor

/-- Enters a class under a name, unless it is there. -/
def register (index : Implementers) (id : TypeId) (name : String) : Implementers :=
  ⟨index.byName.pushNew name id⟩

/-- Enters a class under all names that reach it. -/
def add (m : Model) (index : Implementers) (t : TypeDecl) : Implementers :=
  (reachableNames m t).foldl (fun index name => index.register t.id name) index

/-- All implementers of a model, entered in its order. -/
def ofModel (m : Model) (policy : Policy) : Implementers :=
  (m.types.filter policy.isImplementer).foldl (add m) ⟨[]⟩

/-- However often a name occurs, a class is entered under it once, and last. -/
theorem reachedBy_foldl_register (index : Implementers) (id : TypeId) (names : List String)
    (name : String) :
    (names.foldl (fun index name => index.register id name) index).reachedBy name =
      index.reachedBy name ++
        (if name ∈ names ∧ id ∉ index.reachedBy name then [id] else []) := by
  induction names generalizing index with
  | nil => simp
  | cons first names ih =>
    have hfirst : (index.register id first).reachedBy name = index.reachedBy name ++
        (if name = first ∧ id ∉ index.reachedBy name then [id] else []) :=
      Index.getAll_pushNew index.byName first name id
    rw [List.foldl_cons, ih, hfirst]
    by_cases hmem : id ∈ index.reachedBy name
    · simp [hmem]
    · by_cases hname : name = first <;> simp [hmem, hname]

/-- A type is added under each name that it can be reached by, unless it is there. -/
theorem reachedBy_add (m : Model) (index : Implementers) (t : TypeDecl) (name : String) :
    (index.add m t).reachedBy name = index.reachedBy name ++
      (if name ∈ reachableNames m t ∧ t.id ∉ index.reachedBy name then [t.id] else []) :=
  reachedBy_foldl_register index t.id (reachableNames m t) name

theorem mem_reachedBy_foldl {m : Model} {index : Implementers} {ts : List TypeDecl}
    {name : String} {id : TypeId} :
    id ∈ (ts.foldl (add m) index).reachedBy name ↔
      id ∈ index.reachedBy name ∨ ∃ t ∈ ts, name ∈ reachableNames m t ∧ t.id = id := by
  induction ts generalizing index with
  | nil => simp
  | cons t ts ih =>
    have hadd : id ∈ (index.add m t).reachedBy name ↔
        id ∈ index.reachedBy name ∨ name ∈ reachableNames m t ∧ t.id = id := by
      rw [reachedBy_add]
      by_cases hid : t.id = id
      · subst hid
        by_cases hmem : t.id ∈ index.reachedBy name <;> simp [hmem]
      · by_cases hnew : name ∈ reachableNames m t ∧ t.id ∉ index.reachedBy name
        · simp [hnew, hid, Ne.symm hid]
        · simp [hnew, hid]
    rw [List.foldl_cons, ih, hadd]
    simp only [List.mem_cons, exists_eq_or_imp, or_assoc]

/-- A name reaches the implementers that it is a name of. -/
theorem mem_reachedBy {m : Model} {policy : Policy} {name : String} {id : TypeId} :
    id ∈ (ofModel m policy).reachedBy name ↔
      ∃ t ∈ m.types, policy.isImplementer t = true ∧ name ∈ reachableNames m t ∧ t.id = id := by
  have hempty : (⟨[]⟩ : Implementers).reachedBy name = [] := rfl
  rw [ofModel, mem_reachedBy_foldl, hempty]
  simp only [List.not_mem_nil, false_or, List.mem_filter, and_assoc]

end Implementers

end Deadwood.Usage
