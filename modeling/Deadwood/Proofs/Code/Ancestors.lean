import Deadwood.Proofs.Code.Distance

/-!
# Ancestors by distance

The ancestors of a type are the levels of a search behind the first one. No node stands in two
levels (`nodup_flatten_levelsFrom`), and level `n` has the types at distance `n`, so the list has
every type above once and nearer types first. The type itself stays out, also where it is above
itself.

The same list comes from a search that keeps its nodes in a queue and marks a node when it enters the
queue (`Search.round`). A queue never mixes levels: rounds for all of one level leave the next level
in it (`Search.rounds_level`), and the queue is empty when the levels end (`Search.rounds_levels`).
-/

namespace Deadwood.Code

variable {next : Nat → List Nat}

/-! ## Ways and steps -/

section Ways

variable {a b n : Nat}

theorem Steps.transGen (h : Steps next a (n + 1) b) :
    Relation.TransGen (fun x y => y ∈ next x) a b := by
  induction n generalizing b with
  | zero =>
    obtain - | ⟨hstart, hb⟩ := h
    cases hstart
    exact .single hb
  | succ n ih =>
    obtain - | ⟨hbefore, hb⟩ := h
    exact .tail (ih hbefore) hb

theorem exists_steps_of_transGen (h : Relation.TransGen (fun x y => y ∈ next x) a b) :
    ∃ n, Steps next a (n + 1) b := by
  induction h with
  | single hb => exact ⟨0, .step .start hb⟩
  | tail _ hb ih =>
    obtain ⟨n, hn⟩ := ih
    exact ⟨n + 1, .step hn hb⟩

/-- Where a way of one or more steps leads, there is a distance, and only the start is at distance
zero. -/
theorem exists_atDistance_succ_iff :
    (∃ n, AtDistance next a (n + 1) b) ↔
      b ≠ a ∧ Relation.TransGen (fun x y => y ∈ next x) a b := by
  constructor
  · rintro ⟨n, hn⟩
    refine ⟨?_, hn.1.transGen⟩
    rintro rfl
    exact hn.2 0 (Nat.succ_pos n) .start
  · rintro ⟨hne, hway⟩
    obtain ⟨n, hsteps⟩ := exists_steps_of_transGen hway
    obtain ⟨k, -, hk⟩ := hsteps.exists_atDistance
    cases k with
    | zero => exact absurd (atDistance_zero_iff.1 hk) hne
    | succ k => exact ⟨k, hk⟩

end Ways

/-! ## What is fresh -/

theorem fresh_cons_of_mem {seen xs : List Nat} {x : Nat} (h : x ∈ seen) :
    fresh seen (x :: xs) = fresh seen xs := by
  simp [fresh, h]

/-- What is seen for the first time is kept, and is seen from then on. -/
theorem fresh_cons_of_notMem {seen xs : List Nat} {x : Nat} (h : x ∉ seen) :
    fresh seen (x :: xs) = x :: fresh (seen ++ [x]) xs := by
  have hfilter : (xs.filter fun y => !seen.contains y).filter (fun y => !y == x) =
      xs.filter fun y => !(seen ++ [x]).contains y := by
    rw [List.filter_filter]
    apply List.filter_congr
    intro y _
    by_cases hy : y = x <;> simp [hy]
  simp only [fresh]
  rw [List.filter_cons_of_pos (by simpa using h), List.eraseDups_cons, hfilter]

/-- Going through two lists is going through one after the other, with what the first has shown in
mind. -/
theorem fresh_append (seen xs ys : List Nat) :
    fresh seen (xs ++ ys) = fresh seen xs ++ fresh (seen ++ fresh seen xs) ys := by
  induction xs generalizing seen with
  | nil => simp [fresh]
  | cons x xs ih =>
    by_cases hx : x ∈ seen
    · rw [List.cons_append, fresh_cons_of_mem hx, fresh_cons_of_mem hx, ih]
    · rw [List.cons_append, fresh_cons_of_notMem hx, fresh_cons_of_notMem hx, ih]
      simp [List.append_assoc]

/-- The levels of a search have no node in common, and none that was seen before. -/
theorem nodup_flatten_levelsFrom {fuel : Nat} {seen level : List Nat} :
    (levelsFrom next fuel seen level).flatten.Nodup ∧
      ∀ x ∈ (levelsFrom next fuel seen level).flatten, x ∉ seen := by
  fun_induction levelsFrom next fuel seen level with
  | case1 => simp
  | case2 => simp
  | case3 fuel seen level _ ih =>
    obtain ⟨hnodup, hunseen⟩ := ih
    rw [List.flatten_cons]
    constructor
    · rw [List.nodup_append]
      refine ⟨nodup_eraseDups _, hnodup, ?_⟩
      intro x hx y hy hxy
      apply hunseen y hy
      rw [← hxy]
      exact List.mem_append_right _ hx
    · intro x hx
      rcases List.mem_append.1 hx with hx | hx
      · exact (mem_fresh.1 hx).2
      · intro hseen
        exact hunseen x hx (List.mem_append_left _ hseen)

/-- With fuel left for a node that is fresh, the fresh nodes are the first level. -/
theorem flatten_levelsFrom {bound fuel : Nat} {seen level : List Nat}
    (hlevel : ∀ x ∈ level, x < bound) (hfuel : (unseen bound seen).card ≤ fuel) :
    fresh seen level ++ (levelsFrom next fuel seen level).tail.flatten =
      (levelsFrom next fuel seen level).flatten := by
  by_cases hnil : fresh seen level = []
  · simp [levelsFrom_eq_nil hnil, hnil]
  · cases fuel with
    | zero => exact absurd (fresh_eq_nil hlevel hfuel) hnil
    | succ fuel => rw [levelsFrom_succ hnil, List.tail_cons, List.flatten_cons]

/-! ## Searching with a queue -/

/-- A search with a queue: the nodes that are marked, those that wait, and those that were found, in
order. -/
structure Search where
  marked : List Nat
  queue : List Nat
  found : List Nat

namespace Search

def start (a : Nat) : Search :=
  ⟨[a], [a], []⟩

/-- A node that is not marked is marked, found and put into the queue. -/
def enter (s : Search) (x : Nat) : Search :=
  if s.marked.contains x then s else ⟨s.marked ++ [x], s.queue ++ [x], s.found ++ [x]⟩

/-- The first node of the queue leaves it, and what it leads to enters. -/
def round (next : Nat → List Nat) (s : Search) : Search :=
  match s.queue with
  | [] => s
  | x :: rest => (next x).foldl enter { s with queue := rest }

/-- Entering a list puts the new items of it at the end of all three lists of the search. -/
theorem foldl_enter (s : Search) (xs : List Nat) :
    xs.foldl enter s = ⟨s.marked ++ fresh s.marked xs, s.queue ++ fresh s.marked xs,
      s.found ++ fresh s.marked xs⟩ := by
  induction xs generalizing s with
  | nil => simp [fresh]
  | cons x xs ih =>
    rw [List.foldl_cons, ih]
    by_cases hx : x ∈ s.marked
    · simp [enter, hx, fresh_cons_of_mem hx]
    · simp [enter, hx, fresh_cons_of_notMem hx]

/-- A round for each node of a level at the front of the queue puts the next level behind the rest. -/
theorem rounds_level (next : Nat → List Nat) (level rest marked found : List Nat) :
    (round next)^[level.length] ⟨marked, level ++ rest, found⟩ =
      ⟨marked ++ fresh marked (level.flatMap next), rest ++ fresh marked (level.flatMap next),
        found ++ fresh marked (level.flatMap next)⟩ := by
  induction level generalizing rest marked found with
  | nil => simp [fresh]
  | cons x level ih =>
    rw [List.length_cons, Function.iterate_succ_apply, List.cons_append]
    simp only [round]
    rw [foldl_enter]
    simp only [List.append_assoc]
    rw [ih, List.flatMap_cons, fresh_append]
    simp [List.append_assoc]

variable {bound fuel : Nat} {seen level : List Nat}
  (hnext : ∀ x < bound, ∀ y ∈ next x, y < bound) (hlevel : ∀ x ∈ level, x < bound)
  (hfuel : (unseen bound seen).card ≤ fuel)

include hnext hlevel hfuel

/-- A round for each node of the levels empties the queue; all but the first level is found on the
way. -/
theorem rounds_levels (found : List Nat) :
    let levels := levelsFrom next fuel seen level
    (round next)^[levels.flatten.length] ⟨seen ++ fresh seen level, fresh seen level, found⟩ =
      ⟨seen ++ levels.flatten, [], found ++ levels.tail.flatten⟩ := by
  intro levels
  induction fuel generalizing seen level found with
  | zero =>
    have hnil : fresh seen level = [] := fresh_eq_nil hlevel hfuel
    simp [levels, levelsFrom, hnil]
  | succ fuel ih =>
    by_cases hnil : fresh seen level = []
    · simp [levels, levelsFrom_eq_nil hnil, hnil]
    -- The rounds of the first level leave the fresh nodes of the next one as the whole queue.
    · have hcard := card_unseen_fresh_lt hlevel hnil
      have hleft : (unseen bound (seen ++ fresh seen level)).card ≤ fuel := by omega
      have hbelow : ∀ y ∈ (fresh seen level).flatMap next, y < bound :=
        lt_of_mem_flatMap_fresh hnext hlevel
      have hnow := rounds_level next (fresh seen level) [] (seen ++ fresh seen level) found
      rw [List.append_nil, List.nil_append] at hnow
      simp only [levels, levelsFrom_succ hnil, List.flatten_cons, List.length_append,
        List.tail_cons]
      rw [Nat.add_comm, Function.iterate_add_apply, hnow, ih hbelow hleft, List.append_assoc,
        List.append_assoc, flatten_levelsFrom hbelow hleft]

end Search

/-! ## Types above a type -/

namespace Model

variable {m : Model}

/-- Levels in a row are the type and then its ancestors. -/
theorem flatten_levels (m : Model) (id : TypeId) : (m.levels id).flatten = id :: m.ancestors id := by
  rw [levels_eq_cons, List.flatten_cons]
  rfl

theorem nodup_cons_ancestors (m : Model) (id : TypeId) : (id :: m.ancestors id).Nodup := by
  rw [← flatten_levels]
  exact nodup_flatten_levelsFrom.1

section Ancestors

variable (hm : m.Arena) {id : Nat} (hid : id < m.types.length)

include hm hid

/-- The ancestors are what the type inherits from over any number of steps, without the type itself.
-/
theorem mem_ancestors_iff {type : TypeId} :
    type ∈ m.ancestors id ↔
      type ≠ id ∧ Relation.TransGen (fun a b => b ∈ m.superTypes a) id type := by
  have hself : id ∉ m.ancestors id := (List.nodup_cons.1 (nodup_cons_ancestors m id)).1
  rw [← exists_atDistance_succ_iff]
  constructor
  · intro hmem
    obtain ⟨n, hn⟩ := (exists_atDistance_iff_ancestors hm hid).2 (Or.inr hmem)
    cases n with
    | zero =>
      rw [atDistance_zero_iff.1 hn] at hmem
      exact absurd hmem hself
    | succ n => exact ⟨n, hn⟩
  · rintro ⟨n, hn⟩
    refine ((exists_atDistance_iff_ancestors hm hid).1 ⟨n + 1, hn⟩).resolve_left ?_
    rintro rfl
    exact hn.2 0 (Nat.succ_pos n) .start

/-- Nearer types come first. -/
theorem pairwise_levels :
    (m.levels id).flatten.Pairwise fun a b => ∃ i j, i ≤ j ∧
      AtDistance m.superTypes id i a ∧ AtDistance m.superTypes id j b := by
  have hat : ∀ (n : Nat) (h : n < (m.levels id).length), ∀ type ∈ (m.levels id)[n],
      AtDistance m.superTypes id n type := by
    intro n h type htype
    apply (mem_levels hm hid n).1
    simpa [h] using htype
  rw [List.pairwise_flatten]
  constructor
  · intro level hlevel
    obtain ⟨n, hn, rfl⟩ := List.getElem_of_mem hlevel
    apply List.pairwise_of_forall_mem_list
    intro a ha b hb
    exact ⟨n, n, Nat.le_refl n, hat n hn a ha, hat n hn b hb⟩
  · rw [List.pairwise_iff_getElem]
    intro i j hi hj hij a ha b hb
    exact ⟨i, j, Nat.le_of_lt hij, hat i hi a ha, hat j hj b hb⟩

/-- The queue is empty after one round for the type and one for each ancestor. -/
theorem rounds_ancestors :
    (Search.round m.superTypes)^[(m.ancestors id).length + 1] (.start id) =
      ⟨id :: m.ancestors id, [], m.ancestors id⟩ := by
  have hlevel : ∀ x ∈ [id], x < m.types.length := by simpa using hid
  have hfuel : (unseen m.types.length []).card ≤ m.types.length + 1 := by
    rw [card_unseen_nil]
    omega
  have hfresh : fresh [] [id] = [id] := by
    rw [fresh_cons_of_notMem List.not_mem_nil]
    rfl
  have hrounds := Search.rounds_levels (superTypes_closed hm) hlevel hfuel []
  rw [hfresh] at hrounds
  change (Search.round m.superTypes)^[(m.levels id).flatten.length] (.start id) =
    ⟨(m.levels id).flatten, [], m.ancestors id⟩ at hrounds
  rw [flatten_levels] at hrounds
  exact hrounds

end Ancestors

/-- **Ancestors are the types above, nearer ones first.** The search for the ancestors of a type ends
by itself, with a queue as well as by levels. It lists every type once that one or more steps to
supertypes lead to, except the type itself, and no type behind one that is farther away. -/
theorem ancestors_exact {m : Model} (h : m.Reached SourceUnit.Shaped) {id : TypeId}
    (hid : id < m.types.length) :
    let above := m.ancestors id
    m.checkedAncestors id = .ok above ∧
    (∀ fuel, m.types.length ≤ fuel →
      levelsFrom m.superTypes fuel [] [id] = m.levels id) ∧
    (Search.round m.superTypes)^[above.length + 1] (.start id) = ⟨id :: above, [], above⟩ ∧
    above.Nodup ∧
    (∀ type, type ∈ above ↔
      type ≠ id ∧ Relation.TransGen (fun a b => b ∈ m.superTypes a) id type) ∧
    above.Pairwise fun a b => ∃ i j, i ≤ j ∧
      AtDistance m.superTypes id i a ∧ AtDistance m.superTypes id j b := by
  intro above
  have hm := h.arena
  have hpairwise := pairwise_levels hm hid
  rw [flatten_levels] at hpairwise
  refine ⟨?_, fun fuel hfuel => levelsFrom_eq_levels hm hid hfuel, rounds_ancestors hm hid,
    (List.nodup_cons.1 (nodup_cons_ancestors m id)).2, fun type => mem_ancestors_iff hm hid,
    hpairwise.of_cons⟩
  have ht : m.typeAt id = .ok m.types[id] := by rw [typeAt, List.getElem?_eq_getElem hid]
  rw [checkedAncestors, ht]
  rfl

/-- `Left` is above itself and both types at distance one are above each other; the search from it
meets each of the others once. -/
theorem ancestors_exact_knot :
    let m := ((Edit.addUnit Sample.knot false).run.run .empty).2
    m.Reached SourceUnit.Shaped ∧ 0 < m.types.length ∧
    Relation.TransGen (fun a b => b ∈ m.superTypes a) 0 0 ∧
    m.ancestors 0 = [1, 2, 3] ∧
    (∀ type, type ∈ m.ancestors 0 ↔
      type ≠ 0 ∧ Relation.TransGen (fun a b => b ∈ m.superTypes a) 0 type) ∧
    (Search.round m.superTypes)^[4] (.start 0) = ⟨[0, 1, 2, 3], [], [1, 2, 3]⟩ := by
  intro m
  have hshaped : Sample.knot.Shaped := by
    constructor
    · constructor <;> decide
    all_goals decide
  have hreached : m.Reached SourceUnit.Shaped := .add false .empty hshaped
  have hid : 0 < m.types.length := by decide
  have habove : m.ancestors 0 = [1, 2, 3] := by decide +kernel
  obtain ⟨-, -, hrounds, -, hmem, -⟩ := Model.ancestors_exact hreached hid
  rw [habove] at hrounds
  refine ⟨hreached, hid, ?_, habove, hmem, hrounds⟩
  have hup : 1 ∈ m.superTypes 0 := by decide +kernel
  have hback : 0 ∈ m.superTypes 1 := by decide +kernel
  exact .tail (.single hup) hback

end Model

end Deadwood.Code
