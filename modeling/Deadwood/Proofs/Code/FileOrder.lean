import Deadwood.Code.Build
import Deadwood.Proofs.Code.Embedding
import Mathlib.Algebra.Ring.Nat
import Mathlib.Data.List.OfFn
import Mathlib.GroupTheory.Perm.Basic

/-!
# The order of files

Files that are added in another order get other numbers, and so do the declarations and calls in
them: a block of numbers moves as a whole with its file (`Renumbering.ofPlaces`). Where no two types
have the same qualified name, this is all that changes. Looking up a qualified or a simple name
never depends on which file came first, so the one model lies inside the other
(`Embeds.ofPlaces`), and they answer all questions alike (`Corresponds.ofPlaces`).
-/

namespace Deadwood.Code

/-! ## Blocks of numbers -/

/-- The first number of a block, where blocks of these sizes follow each other. -/
def startOf (sizes : List Nat) (i : Nat) : Nat :=
  (sizes.take i).sum

/-- The block that a number lies in, and its place there. -/
def locate : List Nat → Nat → Nat × Nat
  | [], n => (0, n)
  | size :: sizes, n =>
    if n < size then (0, n)
    else ((locate sizes (n - size)).1 + 1, (locate sizes (n - size)).2)

/-- The number that `n` becomes when each block `i` goes to the place `place i`. -/
def moved (sizes sizes' : List Nat) (place : Nat → Nat) (n : Nat) : Nat :=
  startOf sizes' (place (locate sizes n).1) + (locate sizes n).2

theorem startOf_cons_succ (size : Nat) (sizes : List Nat) (i : Nat) :
    startOf (size :: sizes) (i + 1) = size + startOf sizes i := by
  simp [startOf]

/-- An item is found again in the file that it was counted from. -/
theorem locate_startOf {sizes : List Nat} {i k size : Nat} (hi : sizes[i]? = some size)
    (hk : k < size) : locate sizes (startOf sizes i + k) = (i, k) := by
  induction sizes generalizing i with
  | nil => cases hi
  | cons first sizes ih =>
    cases i with
    | zero =>
      cases hi
      simp [locate, startOf, hk]
    | succ i =>
      have hrest : first + startOf sizes i + k - first = startOf sizes i + k := by omega
      rw [startOf_cons_succ, locate, if_neg (by omega), hrest, ih hi]

/-- Every number belongs to some file, as one of its items. -/
theorem exists_startOf {sizes : List Nat} {n : Nat} (hn : n < sizes.sum) :
    ∃ i size k, sizes[i]? = some size ∧ k < size ∧ n = startOf sizes i + k := by
  induction sizes generalizing n with
  | nil => exact absurd hn (Nat.not_lt_zero _)
  | cons first sizes ih =>
    by_cases hfirst : n < first
    · exact ⟨0, first, n, rfl, hfirst, by simp [startOf]⟩
    · rw [List.sum_cons] at hn
      obtain ⟨i, size, k, hi, hk, hsum⟩ := ih (by omega : n - first < sizes.sum)
      refine ⟨i + 1, size, k, hi, hk, ?_⟩
      rw [startOf_cons_succ]
      omega

/-- A number moves with its file and keeps its distance from the start of it. -/
theorem moved_startOf {sizes sizes' : List Nat} {place : Nat → Nat} {i k size : Nat}
    (hi : sizes[i]? = some size) (hk : k < size) :
    moved sizes sizes' place (startOf sizes i + k) = startOf sizes' (place i) + k := by
  rw [moved, locate_startOf hi hk]

/-! ## Lists in another order -/

/-- The list `ys` has the elements of `xs`, changed by `g`, at the positions to which `f` takes
them, and no others. -/
structure Carries {α : Type} (f : Nat → Nat) (g : α → α) (xs ys : List α) : Prop where
  length_eq : ys.length = xs.length
  getElem? : ∀ i x, xs[i]? = some x → ys[f i]? = some (g x)
  inj : ∀ i < xs.length, ∀ j < xs.length, f i = f j → i = j

namespace Carries

variable {α : Type} {f : Nat → Nat} {g : α → α} {xs ys : List α} (h : Carries f g xs ys)

include h

theorem perm_range : ((List.range xs.length).map f).Perm (List.range xs.length) := by
  have hnodup : ((List.range xs.length).map f).Nodup := by
    refine List.Nodup.map_on (fun i hi j hj => ?_) List.nodup_range
    exact h.inj i (List.mem_range.1 hi) j (List.mem_range.1 hj)
  refine (hnodup.subperm fun j hj => ?_).perm_of_length_le (by simp)
  obtain ⟨i, hi, rfl⟩ := List.mem_map.1 hj
  have hx := h.getElem? i _ (List.getElem?_eq_getElem (List.mem_range.1 hi))
  rw [List.mem_range, ← h.length_eq]
  exact (List.getElem?_eq_some_iff.1 hx).1

theorem perm : ys.Perm (xs.map g) := by
  have hxs : ((List.range xs.length).map f).map (ys[·]?) = (xs.map g).map some := by
    have hmap := congrArg (List.map (Option.map g)) (map_range_getElem? xs)
    rw [List.map_map, List.map_map] at hmap
    rw [List.map_map, List.map_map]
    refine Eq.trans (List.map_congr_left fun i hi => ?_) hmap
    have hx := List.getElem?_eq_getElem (List.mem_range.1 hi)
    rw [Function.comp_apply, Function.comp_apply, hx, h.getElem? i _ hx]
    rfl
  have hperm := h.perm_range.map (ys[·]?)
  rw [hxs, ← h.length_eq, map_range_getElem?] at hperm
  have hsome := (hperm.filterMap id).symm
  rwa [List.filterMap_map, List.filterMap_map, Function.id_comp, List.filterMap_some,
    List.filterMap_some] at hsome

end Carries

/-- The list that has at each place `i` the element at `σ i` of the list `xs`. -/
def reorder {α : Type} (xs : List α) (σ : Equiv.Perm (Fin xs.length)) : List α :=
  List.ofFn fun i => xs.get (σ i)

/-- The place in the new order of what was at `i`. -/
def placeIn {n : Nat} (σ : Equiv.Perm (Fin n)) (i : Nat) : Nat :=
  if h : i < n then σ.symm ⟨i, h⟩ else i

theorem carries_reorder {α : Type} (xs : List α) (σ : Equiv.Perm (Fin xs.length)) :
    Carries (placeIn σ) id xs (reorder xs σ) where
  length_eq := List.length_ofFn
  getElem? i x hx := by
    obtain ⟨hi, rfl⟩ := List.getElem?_eq_some_iff.1 hx
    rw [placeIn, dif_pos hi, reorder, List.getElem?_ofFn, dif_pos (Fin.is_lt _)]
    simp
  inj i hi j hj hij := by
    rw [placeIn, placeIn, dif_pos hi, dif_pos hj] at hij
    exact Fin.mk.inj (σ.symm.injective (Fin.ext hij))

/-- Two items never move to one number. -/
theorem moved_inj {sizes sizes' : List Nat} {place : Nat → Nat}
    (hplace : ∀ i size, sizes[i]? = some size → sizes'[place i]? = some size)
    (hinj : ∀ i < sizes.length, ∀ j < sizes.length, place i = place j → i = j) :
    ∀ a < sizes.sum, ∀ b < sizes.sum,
      moved sizes sizes' place a = moved sizes sizes' place b → a = b := by
  intro a ha b hb hab
  obtain ⟨i, size, k, hi, hk, rfl⟩ := exists_startOf ha
  obtain ⟨j, size', l, hj, hl, rfl⟩ := exists_startOf hb
  rw [moved_startOf hi hk, moved_startOf hj hl] at hab
  have hat := locate_startOf (hplace i size hi) hk
  rw [hab, locate_startOf (hplace j size' hj) hl] at hat
  obtain ⟨hij, hkl⟩ := Prod.mk.inj hat
  have hsame := hinj j (List.getElem?_eq_some_iff.1 hj).1 i (List.getElem?_eq_some_iff.1 hi).1 hij
  rw [hsame, hkl]

/-! ## Models of lists of files -/

namespace Model

/-- The model of files that are added one after the other, whatever names they declare. -/
def ofUnits (us : List SourceUnit) : Model :=
  us.foldl append .empty

theorem Reached.foldl_append {P : SourceUnit → Prop} {m : Model} {us : List SourceUnit}
    (h : m.Reached P) (hus : ∀ u ∈ us, P u) : (us.foldl append m).Reached P := by
  induction us generalizing m with
  | nil => exact h
  | cons u us ih =>
    have hadd := Reached.add true h (hus u List.mem_cons_self)
    rw [Edit.run_addUnit] at hadd
    exact ih hadd fun v hv => hus v (List.mem_cons_of_mem _ hv)

section Blocks

variable {α β : Type} (list : Model → List β) {items : SourceUnit → List α} {put : Model → α → β}
  (hput : ∀ m u, list (m.append u) = list m ++ (items u).map (put m))

include hput

theorem length_foldl_append (m : Model) (us : List SourceUnit) :
    (list (us.foldl append m)).length =
      (list m).length + (us.map fun u => (items u).length).sum := by
  induction us generalizing m with
  | nil => rfl
  | cons u us ih =>
    rw [List.foldl_cons, ih, hput, List.length_append, List.length_map, List.map_cons,
      List.sum_cons, Nat.add_assoc]

/-- A model has the items of all files, and no others. -/
theorem length_ofUnits (hempty : list .empty = []) (us : List SourceUnit) :
    (list (ofUnits us)).length = (us.map fun u => (items u).length).sum := by
  have hlength := length_foldl_append list hput .empty us
  rwa [hempty, List.length_nil, Nat.zero_add] at hlength

/-- Additions leave the numbers that were given before. -/
theorem getElem?_foldl_append {m : Model} {n : Nat} {x : β} (h : (list m)[n]? = some x)
    (us : List SourceUnit) : (list (us.foldl append m))[n]? = some x := by
  induction us generalizing m with
  | nil => exact h
  | cons u us ih =>
    refine ih ?_
    rw [hput]
    exact getElem?_append_of_some h _

/-- The items of a file begin where the files before it end. -/
theorem startOf_eq (hempty : list .empty = []) (us : List SourceUnit) (i : Nat) :
    startOf (us.map fun u => (items u).length) i = (list (ofUnits (us.take i))).length := by
  rw [length_ofUnits list hput hempty, List.map_take, startOf]

/-- The items of a file stand behind those of the files before it, as these files shift them. -/
theorem getElem?_block {us : List SourceUnit} (hempty : list .empty = []) {i k : Nat}
    {u : SourceUnit} {a : α} (hi : us[i]? = some u) (hk : (items u)[k]? = some a) :
    (list (ofUnits us))[startOf (us.map fun u => (items u).length) i + k]? =
      some (put (ofUnits (us.take i)) a) := by
  have hsplit : us = us.take i ++ u :: us.drop (i + 1) := by
    obtain ⟨hlt, rfl⟩ := List.getElem?_eq_some_iff.1 hi
    rw [List.getElem_cons_drop, List.take_append_drop]
  have hmodel : ofUnits us = (us.drop (i + 1)).foldl append ((ofUnits (us.take i)).append u) := by
    conv_lhs => rw [hsplit]
    rw [ofUnits, List.foldl_append, List.foldl_cons]
    rfl
  rw [hmodel]
  refine getElem?_foldl_append list hput ?_ _
  rw [hput, startOf_eq list hput hempty, List.getElem?_append_right (Nat.le_add_right ..),
    Nat.add_sub_cancel_left, List.getElem?_map, hk]
  rfl

/-- Every item comes from a file. -/
theorem exists_block {us : List SourceUnit} (hempty : list .empty = []) {n : Nat} {x : β}
    (h : (list (ofUnits us))[n]? = some x) :
    ∃ i u k a, us[i]? = some u ∧ (items u)[k]? = some a ∧
      n = startOf (us.map fun u => (items u).length) i + k ∧ x = put (ofUnits (us.take i)) a := by
  have hlt := (List.getElem?_eq_some_iff.1 h).1
  rw [length_ofUnits list hput hempty] at hlt
  obtain ⟨i, size, k, hi, hk, rfl⟩ := exists_startOf hlt
  rw [List.getElem?_map] at hi
  obtain ⟨u, hu, rfl⟩ := Option.map_eq_some_iff.1 hi
  have hitem := List.getElem?_eq_getElem hk
  have hblock := getElem?_block list hput hempty hu hitem
  exact ⟨i, u, k, _, hu, hitem, rfl, Option.some_inj.1 (h.symm.trans hblock)⟩

/-- Numbers inside a file are shifted by what is in front of its new place. -/
theorem moved_shift {us vs : List SourceUnit} {place : Nat → Nat} (hempty : list .empty = [])
    {i x : Nat} {u : SourceUnit} (hi : us[i]? = some u) (hx : x < (items u).length) :
    moved (us.map fun u => (items u).length) (vs.map fun u => (items u).length) place
      (x + (list (ofUnits (us.take i))).length) =
        x + (list (ofUnits (vs.take (place i)))).length := by
  have hsize : (us.map fun u => (items u).length)[i]? = some (items u).length := by
    rw [List.getElem?_map, hi]
    rfl
  rw [← startOf_eq list hput hempty, ← startOf_eq list hput hempty, Nat.add_comm,
    moved_startOf hsize hx, Nat.add_comm]

/-- Blocks move with their files, if an item in its new block is the old item renumbered. -/
theorem carries_block {us vs : List SourceUnit} {place : Nat → Nat} (hempty : list .empty = [])
    (h : Carries place id us vs) {g : β → β}
    (hg : ∀ (i : Nat) (u : SourceUnit) (k : Nat) (a : α), us[i]? = some u → (items u)[k]? = some a →
      g (put (ofUnits (us.take i)) a) = put (ofUnits (vs.take (place i))) a) :
    Carries (moved (us.map fun u => (items u).length) (vs.map fun u => (items u).length) place) g
      (list (ofUnits us)) (list (ofUnits vs)) where
  length_eq := by
    have hperm := h.perm.map fun u => (items u).length
    rw [List.map_id] at hperm
    rw [length_ofUnits list hput hempty, length_ofUnits list hput hempty, hperm.sum_nat]
  getElem? n x hx := by
    obtain ⟨i, u, k, a, hi, hk, rfl, rfl⟩ := exists_block list hput hempty hx
    have hsize : (us.map fun u => (items u).length)[i]? = some (items u).length := by
      rw [List.getElem?_map, hi]
      rfl
    rw [moved_startOf hsize (List.getElem?_eq_some_iff.1 hk).1, hg i u k a hi hk]
    exact getElem?_block list hput hempty (h.getElem? i u hi) hk
  inj := by
    rw [length_ofUnits list hput hempty]
    refine moved_inj (fun i size hi => ?_) ?_
    · rw [List.getElem?_map] at hi ⊢
      obtain ⟨u, hu, rfl⟩ := Option.map_eq_some_iff.1 hi
      rw [h.getElem? i u hu]
      rfl
    · rw [List.length_map]
      exact h.inj

end Blocks

theorem ofUnits_units (us : List SourceUnit) : (ofUnits us).units = us.map (·.info) := by
  have hfold : ∀ (us : List SourceUnit) (m : Model),
      (us.foldl append m).units = m.units ++ us.map (·.info) := by
    intro us
    induction us with
    | nil => simp
    | cons u us ih =>
      intro m
      rw [List.foldl_cons, ih, append_units, List.append_assoc]
      rfl
  exact hfold us .empty

end Model

/-! ## The renumbering -/

/-- The numbers that the files `us` and what is in them get when each file `i` goes to the position
`place i` of `vs`. -/
def Renumbering.ofPlaces (us vs : List SourceUnit) (place : Nat → Nat) : Renumbering where
  unit := place
  type := moved (us.map (·.types.length)) (vs.map (·.types.length)) place
  method := moved (us.map (·.methods.length)) (vs.map (·.methods.length)) place
  call := moved (us.map (·.calls.length)) (vs.map (·.calls.length)) place

namespace Model

section Places

variable {us vs : List SourceUnit} {place : Nat → Nat} (h : Carries place id us vs)
  (hus : ∀ u ∈ us, u.Shaped) {i x : Nat} {u : SourceUnit} (hi : us[i]? = some u)

include hi

theorem ofPlaces_unit (h : Carries place id us vs) :
    (Renumbering.ofPlaces us vs place).unit (ofUnits (us.take i)).units.length =
      (ofUnits (vs.take (place i))).units.length := by
  have hlt := (List.getElem?_eq_some_iff.1 hi).1
  have hlt' := (List.getElem?_eq_some_iff.1 (h.getElem? i u hi)).1
  rw [ofUnits_units, ofUnits_units, List.length_map, List.length_map, List.length_take,
    List.length_take, Nat.min_eq_left (Nat.le_of_lt hlt), Nat.min_eq_left (Nat.le_of_lt hlt')]
  rfl

theorem ofPlaces_type (hx : x < u.types.length) :
    (Renumbering.ofPlaces us vs place).type (x + (ofUnits (us.take i)).types.length) =
      x + (ofUnits (vs.take (place i))).types.length :=
  moved_shift types append_types rfl hi hx

theorem ofPlaces_method (hx : x < u.methods.length) :
    (Renumbering.ofPlaces us vs place).method (x + (ofUnits (us.take i)).methods.length) =
      x + (ofUnits (vs.take (place i))).methods.length :=
  moved_shift methods append_methods rfl hi hx

theorem ofPlaces_call (hx : x < u.calls.length) :
    (Renumbering.ofPlaces us vs place).call (x + (ofUnits (us.take i)).calls.length) =
      x + (ofUnits (vs.take (place i))).calls.length :=
  moved_shift calls append_calls rfl hi hx

/-- The type around a declaration is moved as the declaration is, since it is in the same file. -/
theorem ofPlaces_place {e : Option TypeId} (he : ∀ x ∈ e, x < u.types.length) :
    (e.map (· + (ofUnits (us.take i)).types.length)).map (Renumbering.ofPlaces us vs place).type =
      e.map (· + (ofUnits (vs.take (place i))).types.length) := by
  rw [Option.map_map]
  exact Option.map_congr fun x hx => ofPlaces_type hi (he x hx)

omit hi

include h

theorem carries_units : Carries place id (ofUnits us).units (ofUnits vs).units where
  length_eq := by
    rw [ofUnits_units, ofUnits_units, List.length_map, List.length_map, h.length_eq]
  getElem? i info hinfo := by
    rw [ofUnits_units, List.getElem?_map] at hinfo ⊢
    obtain ⟨u, hu, rfl⟩ := Option.map_eq_some_iff.1 hinfo
    rw [h.getElem? i u hu]
    rfl
  inj := by
    rw [ofUnits_units, List.length_map]
    exact h.inj

include hus

/-- Types move with their files, and the numbers in them with the types. -/
theorem carries_types :
    Carries (Renumbering.ofPlaces us vs place).type (·.renumber (.ofPlaces us vs place))
      (ofUnits us).types (ofUnits vs).types := by
  refine carries_block types append_types rfl h fun i u k t hi ht => ?_
  have hu := hus u (List.mem_of_getElem? hi)
  have hmem := List.mem_of_getElem? ht
  have hid := number_lt hu.type_ids hmem
  have hmethods : (t.methods.map (· + (ofUnits (us.take i)).methods.length)).map
      (Renumbering.ofPlaces us vs place).method =
        t.methods.map (· + (ofUnits (vs.take (place i))).methods.length) := by
    rw [List.map_map]
    refine List.map_congr_left fun d hd => ofPlaces_method hi ?_
    rw [hu.methods_eq t hmem, List.mem_findIdxs_iff_exists_getElem_pos] at hd
    exact hd.1
  simp only [TypeDecl.renumber, TypeDecl.shift, ofPlaces_unit hi h, ofPlaces_type hi hid, hmethods,
    ofPlaces_place hi fun e he => Nat.lt_trans (hu.enclosing_lt t hmem e he) hid]

theorem carries_methods :
    Carries (Renumbering.ofPlaces us vs place).method (·.renumber (.ofPlaces us vs place))
      (ofUnits us).methods (ofUnits vs).methods := by
  refine carries_block methods append_methods rfl h fun i u k d hi hd => ?_
  have hu := hus u (List.mem_of_getElem? hi)
  have hmem := List.mem_of_getElem? hd
  simp only [MethodDecl.renumber, MethodDecl.shift, ofPlaces_type hi (hu.declaring_lt d hmem),
    ofPlaces_method hi (number_lt hu.method_ids hmem)]

theorem carries_calls :
    Carries (Renumbering.ofPlaces us vs place).call (·.renumber (.ofPlaces us vs place))
      (ofUnits us).calls (ofUnits vs).calls := by
  refine carries_block calls append_calls rfl h fun i u k c hi hc => ?_
  have hu := hus u (List.mem_of_getElem? hi)
  have hmem := List.mem_of_getElem? hc
  simp only [CallSite.renumber, CallSite.shift, ofPlaces_unit hi h, hu.unbound c hmem,
    ofPlaces_call hi (number_lt hu.call_ids hmem), ofPlaces_place hi (hu.place_lt c hmem),
    Option.map_none]

end Places

/-! ## Names -/

section Names

variable {r : Renumbering} {m m' : Model}
  (h : Carries r.type (·.renumber r) m.types m'.types) (hi : m.Indexed) (hi' : m'.Indexed)

include h

theorem perm_map_types {α : Type} (f : TypeDecl → α) (hf : ∀ t, f (t.renumber r) = f t) :
    (m'.types.map f).Perm (m.types.map f) := by
  have hperm := h.perm.map f
  have hcomp : f ∘ (·.renumber r) = f := funext hf
  rwa [List.map_map, hcomp] at hperm

include hi hi'

/-- With distinct names it does not matter which file was entered first. -/
theorem byQualified?_carries (hdistinct : (m.types.map (·.qualifiedName)).Nodup) (full : String) :
    m'.byQualified? full = (m.byQualified? full).map r.type := by
  have hperm := perm_map_types h (·.qualifiedName) fun _ => rfl
  rw [hi.qualified, hi'.qualified]
  cases hfind : m.types.findIdx? (·.qualifiedName == full) with
  | none =>
    rw [List.findIdx?_eq_none_iff] at hfind
    refine List.findIdx?_eq_none_iff.2 fun t' ht' => ?_
    obtain ⟨t, ht, hname⟩ := List.mem_map.1 (hperm.mem_iff.1 (List.mem_map_of_mem ht'))
    rw [← hname]
    exact hfind t ht
  | some id =>
    obtain ⟨hlt, hname, -⟩ := List.findIdx?_eq_some_iff_getElem.1 hfind
    have ht' := h.getElem? id _ (List.getElem?_eq_getElem hlt)
    have hfirst := findIdx?_of_nodup (hperm.nodup_iff.2 hdistinct) ht'
    change m'.types.findIdx? (·.qualifiedName == m.types[id].qualifiedName) = _ at hfirst
    rwa [beq_iff_eq.1 hname] at hfirst

/-- A simple name that only one type bears is borne by only one type in any order. -/
theorem onlyBySimple?_carries (simple : String) :
    m'.onlyBySimple? simple = (m.onlyBySimple? simple).map r.type := by
  have hlength : (m'.bySimple simple).length = (m.bySimple simple).length := by
    have hperm := perm_map_types h (·.name) fun _ => rfl
    have hcount := hperm.countP_eq (· == simple)
    rw [List.countP_map, List.countP_map] at hcount
    rw [hi.simple, hi'.simple, List.length_findIdxs, List.length_findIdxs]
    exact hcount
  have hmem : ∀ id ∈ m.bySimple simple, r.type id ∈ m'.bySimple simple := by
    intro id hid
    rw [hi.simple, List.mem_findIdxs_iff_exists_getElem_pos] at hid
    obtain ⟨hlt, hname⟩ := hid
    obtain ⟨hlt', heq⟩ := List.getElem?_eq_some_iff.1
      (h.getElem? id _ (List.getElem?_eq_getElem hlt))
    rw [hi'.simple, List.mem_findIdxs_iff_exists_getElem_pos]
    refine ⟨hlt', ?_⟩
    rw [heq]
    exact hname
  unfold onlyBySimple?
  rcases hold : m.bySimple simple with _ | ⟨id, _ | ⟨second, rest⟩⟩
  · rw [hold] at hlength
    rw [List.length_eq_zero_iff.1 hlength]
    rfl
  · rw [hold] at hlength hmem
    obtain ⟨only, honly⟩ := List.length_eq_one_iff.1 hlength
    have hid := hmem id List.mem_cons_self
    rw [honly, List.mem_singleton] at hid
    rw [honly, ← hid]
    rfl
  · rw [hold] at hlength
    rcases hnew : m'.bySimple simple with _ | ⟨a, _ | ⟨b, others⟩⟩
    · rw [hnew] at hlength
      cases hlength
    · rw [hnew] at hlength
      cases hlength
    · rfl

end Names

/-! ## Adding files with distinct names -/

/-- The qualified names that files declare. -/
def declaredNames (us : List SourceUnit) : List String :=
  us.flatMap fun u => u.types.map (·.qualifiedName)

theorem map_qualifiedName_append (m : Model) (u : SourceUnit) :
    (m.append u).types.map (·.qualifiedName) =
      m.types.map (·.qualifiedName) ++ u.types.map (·.qualifiedName) := by
  rw [append_types, List.map_append, shiftedTypes, List.map_map]
  rfl

theorem map_qualifiedName_ofUnits (us : List SourceUnit) :
    (ofUnits us).types.map (·.qualifiedName) = declaredNames us := by
  have hfold : ∀ (us : List SourceUnit) (m : Model),
      (us.foldl append m).types.map (·.qualifiedName) =
        m.types.map (·.qualifiedName) ++ declaredNames us := by
    intro us
    induction us with
    | nil => simp [declaredNames]
    | cons u us ih =>
      intro m
      rw [List.foldl_cons, ih, map_qualifiedName_append, List.append_assoc]
      rfl
  exact hfold us .empty

theorem addUnit_eq {m : Model} {u : SourceUnit} (hfree : m.firstDuplicate? u = none)
    (allow : Bool) : m.addUnit u allow = .ok (m.append u) := by
  have hrun := Edit.run_addUnit u allow m
  rw [hfree] at hrun
  cases allow <;> simp only [Model.addUnit, hrun] <;> rfl

/-- Files with distinct names can be added in a strict build as well as in a tolerant one. -/
theorem addUnits_ofUnits {us : List SourceUnit} (hus : ∀ u ∈ us, u.Shaped)
    (hdistinct : (declaredNames us).Nodup) (allow : Bool) :
    Model.empty.addUnits allow us = .ok (ofUnits us) := by
  have hfold : ∀ (us : List SourceUnit) (m : Model), (∀ u ∈ us, u.Shaped) → m.Indexed →
      (m.types.map (·.qualifiedName) ++ declaredNames us).Nodup →
      m.addUnits allow us = .ok (us.foldl append m) := by
    intro us
    induction us with
    | nil => exact fun _ _ _ _ => rfl
    | cons u us ih =>
      intro m hus hm hdistinct
      have hu := hus u List.mem_cons_self
      have hsplit : m.types.map (·.qualifiedName) ++ declaredNames (u :: us) =
          (m.append u).types.map (·.qualifiedName) ++ declaredNames us := by
        rw [map_qualifiedName_append, List.append_assoc]
        rfl
      have hfree : m.firstDuplicate? u = none := by
        refine (firstDuplicate?_eq_none_iff hm u).2 ?_
        rintro t ht ⟨old, hold, hname⟩
        refine (List.nodup_append.1 hdistinct).2.2 _ (List.mem_map_of_mem hold) t.qualifiedName
          (List.mem_flatMap.2 ⟨u, List.mem_cons_self, List.mem_map_of_mem ht⟩) hname
      have hrest := ih (m.append u) (fun v hv => hus v (List.mem_cons_of_mem _ hv))
        (hm.append hu.toNumbered) (hsplit ▸ hdistinct)
      rw [addUnits, List.foldlM_cons, addUnit_eq hfree]
      exact hrest
  exact hfold us .empty hus .empty hdistinct

/-! ## Models that correspond -/

/-- Two models that differ by a renumbering only. They have the same files, declarations and calls,
and calls are bound alike; names, supertypes and inherited methods are found alike. -/
structure Corresponds (r : Renumbering) (m m' : Model) : Prop where
  units : Carries r.unit id m.units m'.units
  types : Carries r.type (·.renumber r) m.types m'.types
  methods : Carries r.method (·.renumber r) m.methods m'.methods
  calls : Carries r.call (·.renumber r) m.calls m'.calls
  resolveIn? : ∀ written, ∀ unit < m.units.length, ∀ place : Option TypeId,
    (∀ e ∈ place, e < m.types.length) →
      m'.resolveIn? written (r.unit unit) (place.map r.type) =
        (m.resolveIn? written unit place).map r.type
  resolve? : ∀ written, ∀ scope < m.types.length,
    m'.resolve? written (r.type scope) = (m.resolve? written scope).map r.type
  superTypes : ∀ id < m.types.length,
    m'.superTypes (r.type id) = (m.superTypes id).map r.type
  ancestors : ∀ id < m.types.length, m'.ancestors (r.type id) = (m.ancestors id).map r.type
  findMethods : ∀ id < m.types.length, ∀ name arity,
    m'.findMethods (r.type id) name arity = (m.findMethods id name arity).map r.method

/-- Every name is looked up alike, so nothing restricts the names that are used. -/
theorem Uses.any (m : Model) : m.Uses fun _ => True :=
  ⟨fun _ _ _ _ => trivial, fun _ _ _ _ => trivial, fun _ _ _ _ => trivial⟩

section Reordered

variable {us vs : List SourceUnit} {place : Nat → Nat} (h : Carries place id us vs)
  (hus : ∀ u ∈ us, u.Shaped) (hdistinct : (declaredNames us).Nodup)

theorem arena_ofUnits (hus : ∀ u ∈ us, u.Shaped) : (ofUnits us).Arena :=
  (Reached.empty.foldl_append hus).arena

include h in
theorem shaped_of_carries (hus : ∀ u ∈ us, u.Shaped) : ∀ u ∈ vs, u.Shaped := by
  intro u hu
  have hmem := h.perm.mem_iff.1 hu
  rw [List.map_id] at hmem
  exact hus u hmem

include h hus hdistinct

/-- Files in another order give a model with the same declarations under other numbers. -/
theorem Embeds.ofPlaces :
    Embeds (.ofPlaces us vs place) (fun _ => True) (ofUnits us) (ofUnits vs) where
  unit := (carries_units h).getElem?
  type := (carries_types h hus).getElem?
  method := (carries_methods h hus).getElem?
  type_inj := (carries_types h hus).inj
  qualified full _ := by
    refine byQualified?_carries (carries_types h hus) (arena_ofUnits hus).toIndexed
      (arena_ofUnits (shaped_of_carries h hus)).toIndexed ?_ full
    rwa [map_qualifiedName_ofUnits]
  only simple _ := onlyBySimple?_carries (carries_types h hus) (arena_ofUnits hus).toIndexed
    (arena_ofUnits (shaped_of_carries h hus)).toIndexed simple

/-- Calls are bound alike in both, so that all of the two models corresponds. -/
theorem Corresponds.ofPlaces :
    Corresponds (.ofPlaces us vs place) (ofUnits us).bindCalls (ofUnits vs).bindCalls := by
  have hm := arena_ofUnits hus
  have hm' := arena_ofUnits (shaped_of_carries h hus)
  have hembeds := Embeds.ofPlaces h hus hdistinct
  have huses := Uses.any (ofUnits us)
  have hcalls := carries_calls h hus
  have hbound : Carries (Renumbering.ofPlaces us vs place).call
      (·.renumber (.ofPlaces us vs place)) (ofUnits us).bindCalls.calls
      (ofUnits vs).bindCalls.calls := by
    constructor
    · simp only [bindCalls, List.length_map, hcalls.length_eq]
    · intro i c hc
      obtain ⟨d, hd, rfl⟩ := Option.map_eq_some_iff.1 (List.getElem?_map.symm.trans hc)
      have hbind := hembeds.bind?_map hm hm' huses (List.mem_of_getElem? hd)
      simp only [bindCalls, List.getElem?_map, hcalls.getElem? i d hd, Option.map_some, hbind]
      rfl
    · simpa only [bindCalls, List.length_map] using hcalls.inj
  -- Binding touches only the calls, so the answers are those of the models before it.
  have hb := hm.bindCalls
  have hb' := hm'.bindCalls
  have hbembeds : Embeds (.ofPlaces us vs place) (fun _ => True) (ofUnits us).bindCalls
      (ofUnits vs).bindCalls :=
    ⟨hembeds.unit, hembeds.type, hembeds.method, hembeds.type_inj, hembeds.qualified, hembeds.only⟩
  have hbuses := Uses.any (ofUnits us).bindCalls
  exact {
    units := carries_units h
    types := carries_types h hus
    methods := carries_methods h hus
    calls := hbound
    resolveIn? := fun _ _ hunit _ hplace => hbembeds.resolveIn?_map hb hb' trivial hunit hplace
    resolve? := fun _ _ hscope => hbembeds.resolve?_map hb hb' trivial hscope
    superTypes := fun _ hid => hbembeds.superTypes_map hb hb' hbuses hid
    ancestors := fun _ hid => hbembeds.ancestors_map hb hb' hbuses hid
    findMethods := fun _ hid => hbembeds.findMethods_map hb hb' hbuses hid }

end Reordered

end Model

end Deadwood.Code
