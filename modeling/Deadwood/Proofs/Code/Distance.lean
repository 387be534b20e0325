import Deadwood.Code.Checked
import Deadwood.Proofs.Code.Embedding
import Mathlib.Data.List.Nodup
import Mathlib.Data.Nat.Find

/-!
# Distances between types

A search by levels drops what it has seen only when it comes to it, so a level as it is collected
may have types twice and types of earlier levels. Still, level `n` of a search ends up with exactly
the types at distance `n`: those that `n` steps lead to and fewer do not (`mem_levels`). The
invariant is `Frontier`: what was seen is what is nearer, and the collected level has all that is at
the distance it stands for. So the methods that a search for a name finds are those of the nearest
types that declare some, wherever the hierarchy has cycles and shared ancestors.
-/

namespace Deadwood.Code

/-! ## Steps and distances -/

section Distance

variable {next : Nat → List Nat} {a b n k : Nat}

/-- A number of steps leads from `a` to a node. -/
inductive Steps (next : Nat → List Nat) (a : Nat) : Nat → Nat → Prop where
  | start : Steps next a 0 a
  | step {n b c : Nat} (h : Steps next a n b) (hc : c ∈ next b) : Steps next a (n + 1) c

/-- `n` steps lead from `a` to `b`, and no fewer do. -/
def AtDistance (next : Nat → List Nat) (a n b : Nat) : Prop :=
  Steps next a n b ∧ ∀ k < n, ¬ Steps next a k b

/-- Whatever is reached in some steps has a distance, which is no more than these. -/
theorem Steps.exists_atDistance (h : Steps next a n b) : ∃ k ≤ n, AtDistance next a k b := by
  classical
  have hsome : ∃ k, Steps next a k b := ⟨n, h⟩
  refine ⟨Nat.find hsome, Nat.find_min' hsome h, Nat.find_spec hsome, ?_⟩
  intro k hk
  exact Nat.find_min hsome hk

theorem AtDistance.unique (h : AtDistance next a n b) (h' : AtDistance next a k b) : n = k := by
  rcases Nat.lt_trichotomy n k with hlt | heq | hlt
  · exact absurd h.1 (h'.2 n hlt)
  · exact heq
  · exact absurd h'.1 (h.2 k hlt)

theorem atDistance_zero_iff : AtDistance next a 0 b ↔ b = a := by
  constructor
  · rintro ⟨h, -⟩
    cases h
    rfl
  · rintro rfl
    exact ⟨.start, fun k hk => absurd hk (Nat.not_lt_zero k)⟩

/-- The last but one node of a shortest way is one step nearer. -/
theorem AtDistance.exists_before (h : AtDistance next a (n + 1) b) :
    ∃ c, AtDistance next a n c ∧ b ∈ next c := by
  obtain ⟨hsteps, hmin⟩ := h
  cases hsteps with
  | @step _ c _ hc hb =>
    refine ⟨c, ⟨hc, fun k hk hshort => ?_⟩, hb⟩
    exact hmin (k + 1) (by omega) (hshort.step hb)

/-- If nothing is at one distance, nothing is any further away: there is no way past the gap. -/
theorem not_atDistance_add (h : ∀ b, ¬ AtDistance next a n b) (k : Nat) :
    ∀ b, ¬ AtDistance next a (n + k) b := by
  induction k with
  | zero => exact h
  | succ k ih =>
    intro b hb
    obtain ⟨c, hc, -⟩ := AtDistance.exists_before hb
    exact ih c hc

end Distance

/-! ## Levels of a search -/

theorem nodup_eraseDups (xs : List Nat) : xs.eraseDups.Nodup := by
  match xs with
  | [] => exact .nil
  | x :: xs =>
    rw [List.eraseDups_cons, List.nodup_cons]
    refine ⟨?_, nodup_eraseDups _⟩
    simp [List.mem_eraseDups]
termination_by xs.length
decreasing_by
  simp only [List.length_cons]
  exact Nat.lt_succ_of_le (List.length_filter_le ..)

theorem nodup_of_mem_levelsFrom {next : Nat → List Nat} {fuel : Nat} {seen level now : List Nat}
    (h : now ∈ levelsFrom next fuel seen level) : now.Nodup := by
  fun_induction levelsFrom next fuel seen level with
  | case1 => cases h
  | case2 => cases h
  | case3 fuel seen level _ ih =>
    rcases List.mem_cons.1 h with rfl | h
    · exact nodup_eraseDups _
    · exact ih h

/-- A search from `a` has come to distance `n`: it has seen what is nearer, and it goes on with a
level that has everything at this distance, and maybe nodes that are nearer. -/
structure Frontier (next : Nat → List Nat) (a n : Nat) (seen level : List Nat) : Prop where
  seen_iff : ∀ b, b ∈ seen ↔ ∃ k < n, AtDistance next a k b
  reached : ∀ b ∈ level, Steps next a n b
  covers : ∀ b, AtDistance next a n b → b ∈ level

namespace Frontier

variable {next : Nat → List Nat} {a n : Nat} {seen level : List Nat}

theorem start (next : Nat → List Nat) (a : Nat) : Frontier next a 0 [] [a] where
  seen_iff b := by simp
  reached b hb := by
    rw [List.mem_singleton.1 hb]
    exact .start
  covers b hb := by
    rw [atDistance_zero_iff.1 hb]
    exact List.mem_singleton_self a

variable (h : Frontier next a n seen level)

include h

/-- What is new on a level is what is at its distance. -/
theorem mem_fresh_iff {b : Nat} : b ∈ fresh seen level ↔ AtDistance next a n b := by
  rw [mem_fresh, h.seen_iff]
  constructor
  · rintro ⟨hlevel, hfar⟩
    refine ⟨h.reached b hlevel, fun k hk hsteps => ?_⟩
    obtain ⟨j, hj, hdist⟩ := hsteps.exists_atDistance
    exact hfar ⟨j, by omega, hdist⟩
  · intro hdist
    refine ⟨h.covers b hdist, ?_⟩
    rintro ⟨k, hk, hnear⟩
    have heq := hdist.unique hnear
    omega

/-- One round of the search moves the frontier on by one step. -/
theorem advance :
    Frontier next a (n + 1) (seen ++ fresh seen level) ((fresh seen level).flatMap next) where
  seen_iff b := by
    rw [List.mem_append, h.seen_iff, h.mem_fresh_iff]
    constructor
    · rintro (⟨k, hk, hdist⟩ | hdist)
      · exact ⟨k, by omega, hdist⟩
      · exact ⟨n, by omega, hdist⟩
    · rintro ⟨k, hk, hdist⟩
      by_cases hn : k = n
      · subst hn
        exact Or.inr hdist
      · exact Or.inl ⟨k, by omega, hdist⟩
  reached b hb := by
    obtain ⟨c, hc, hbc⟩ := List.mem_flatMap.1 hb
    exact (h.mem_fresh_iff.1 hc).1.step hbc
  covers b hb := by
    obtain ⟨c, hc, hbc⟩ := hb.exists_before
    exact List.mem_flatMap.2 ⟨c, h.mem_fresh_iff.2 hc, hbc⟩

/-- With enough fuel for what is unseen, the levels from a frontier on are the nodes by their
distance. -/
theorem mem_levelsFrom_iff {bound : Nat} (hnext : ∀ x < bound, ∀ y ∈ next x, y < bound)
    (hlevel : ∀ x ∈ level, x < bound) {fuel : Nat} (hfuel : (unseen bound seen).card ≤ fuel)
    (k : Nat) {b : Nat} :
    b ∈ (levelsFrom next fuel seen level)[k]?.getD [] ↔ AtDistance next a (n + k) b := by
  induction fuel generalizing n seen level k with
  | zero =>
    have hnone : ∀ c, ¬ AtDistance next a n c := by
      intro c hc
      have hfresh := h.mem_fresh_iff.2 hc
      simp [fresh_eq_nil hlevel hfuel] at hfresh
    simp [levelsFrom, not_atDistance_add hnone k b]
  | succ fuel ih =>
    by_cases hnil : fresh seen level = []
    · have hnone : ∀ c, ¬ AtDistance next a n c := by
        intro c hc
        have hfresh := h.mem_fresh_iff.2 hc
        simp [hnil] at hfresh
      simp [levelsFrom_eq_nil hnil, not_atDistance_add hnone k b]
    · rw [levelsFrom_succ hnil]
      cases k with
      | zero => simpa using h.mem_fresh_iff
      | succ k =>
        have hcard := card_unseen_fresh_lt hlevel hnil
        have hrest := ih h.advance (lt_of_mem_flatMap_fresh hnext hlevel) (by omega) k
        rw [List.getElem?_cons_succ, hrest, Nat.add_right_comm, Nat.add_assoc]

end Frontier

/-! ## Types above a type -/

namespace Model

variable {m : Model}

theorem card_unseen_nil (n : Nat) : (unseen n []).card = n := by
  simp [unseen]

theorem superTypes_closed (hm : m.Arena) :
    ∀ x < m.types.length, ∀ y ∈ m.superTypes x, y < m.types.length := by
  intro x _ y hy
  exact superTypes_lt hm hy

section Levels

variable (hm : m.Arena) {id : Nat} (hid : id < m.types.length)

include hm hid

/-- The levels of a type are its supertypes by distance. -/
theorem mem_levels (n : Nat) {type : TypeId} :
    type ∈ (m.levels id)[n]?.getD [] ↔ AtDistance m.superTypes id n type := by
  have hlevel : ∀ x ∈ [id], x < m.types.length := by simpa using hid
  have hfuel : (unseen m.types.length []).card ≤ m.types.length + 1 := by
    rw [card_unseen_nil]
    omega
  have hmem := (Frontier.start m.superTypes id).mem_levelsFrom_iff (superTypes_closed hm) hlevel
    hfuel n (b := type)
  rw [Nat.zero_add] at hmem
  exact hmem

/-- The search ends by itself: with more fuel it finds the same levels. -/
theorem levelsFrom_eq_levels {fuel : Nat} (hfuel : m.types.length ≤ fuel) :
    levelsFrom m.superTypes fuel [] [id] = m.levels id := by
  have hlevel : ∀ x ∈ [id], x < m.types.length := by simpa using hid
  have hcard := card_unseen_nil m.types.length
  have hmap : levelsFrom m.superTypes fuel ([].map fun x => x) ([id].map fun x => x) =
      (m.levels id).map (·.map fun x => x) := by
    apply levelsFrom_map (fun _ _ _ _ heq => heq) (superTypes_closed hm) _ _ hlevel
    · omega
    · omega
    · simp
    · simp
  simpa using hmap

end Levels

theorem levels_eq_cons (m : Model) (id : TypeId) : m.levels id = [id] :: (m.levels id).tail := by
  have hfresh : fresh [] [id] = [id] := by simp [fresh, List.eraseDups_cons]
  have hne : fresh [] [id] ≠ [] := by simp [hfresh]
  rw [levels, levelsFrom_succ hne, hfresh, List.tail_cons]

theorem mem_levels_iff_ancestors {id type : TypeId} :
    (∃ level ∈ m.levels id, type ∈ level) ↔ type = id ∨ type ∈ m.ancestors id := by
  rw [levels_eq_cons, ancestors]
  simp [List.mem_flatten]

/-- The ancestors are what has a distance other than none. -/
theorem exists_atDistance_iff_ancestors (hm : m.Arena) {id : Nat} (hid : id < m.types.length)
    {type : TypeId} :
    (∃ n, AtDistance m.superTypes id n type) ↔ type = id ∨ type ∈ m.ancestors id := by
  rw [← mem_levels_iff_ancestors]
  constructor
  · rintro ⟨n, hn⟩
    have hmem := (mem_levels hm hid n).2 hn
    cases hlevel : (m.levels id)[n]? with
    | none => simp [hlevel] at hmem
    | some level => exact ⟨level, List.mem_of_getElem? hlevel, by simpa [hlevel] using hmem⟩
  · rintro ⟨level, hlevel, htype⟩
    obtain ⟨n, hn⟩ := List.mem_iff_getElem?.1 hlevel
    exact ⟨n, (mem_levels hm hid n).1 (by simpa [hn] using htype)⟩

/-! ## Methods of the nearest types -/

/-- The type declares the method, under a name and with a number of parameters if one is given. -/
def Declares (m : Model) (name : String) (arity : Option Nat) (type : TypeId)
    (method : MethodId) : Prop :=
  ∃ d, m.methods[method]? = some d ∧ d.declaringType = type ∧ d.name = name ∧
    ∀ n ∈ arity, d.parameters.length = n

variable {name : String} {arity : Option Nat}

theorem isCalled_iff {method : MethodId} :
    m.isCalled name arity method = true ↔
      ∃ d, m.methods[method]? = some d ∧ d.name = name ∧ ∀ n ∈ arity, d.parameters.length = n := by
  unfold isCalled
  cases m.methods[method]? with
  | none => simp
  | some d => cases arity <;> simp

/-- The methods of a name that a type lists are the ones that are declared in it. -/
theorem mem_declaredMethods (hm : m.Arena) {type : TypeId} {method : MethodId} :
    method ∈ m.declaredMethods name arity type ↔ m.Declares name arity type method := by
  unfold declaredMethods
  split
  · next hnone =>
    refine ⟨fun h => absurd h List.not_mem_nil, ?_⟩
    rintro ⟨d, hd, rfl, -⟩
    have hlt := hm.declaring_lt d (List.mem_of_getElem? hd)
    rw [List.getElem?_eq_none_iff] at hnone
    exact absurd hnone (Nat.not_le.2 hlt)
  · next t ht =>
    have hself := number_eq hm.type_ids ht
    rw [List.mem_filter, isCalled_iff, hm.methods_eq t (List.mem_of_getElem? ht), hself,
      List.mem_findIdxs_iff_exists_getElem_pos]
    constructor
    · rintro ⟨⟨hlt, htype⟩, d, hd, hcalled⟩
      rw [List.getElem?_eq_getElem hlt, Option.some_inj] at hd
      subst hd
      exact ⟨_, List.getElem?_eq_getElem hlt, beq_iff_eq.1 htype, hcalled⟩
    · rintro ⟨d, hd, htype, hcalled⟩
      obtain ⟨hlt, rfl⟩ := List.getElem?_eq_some_iff.1 hd
      exact ⟨⟨hlt, beq_iff_eq.2 htype⟩, _, hd, hcalled⟩

theorem nodup_declaredMethods (hm : m.Arena) (type : TypeId) :
    (m.declaredMethods name arity type).Nodup := by
  unfold declaredMethods
  split
  · exact .nil
  · next t ht =>
    rw [hm.methods_eq t (List.mem_of_getElem? ht)]
    exact List.nodup_findIdxs.filter _

/-- The methods of a level are all different, since a method has one declaring type. -/
theorem nodup_flatMap_declaredMethods (hm : m.Arena) {level : List TypeId} (h : level.Nodup) :
    (level.flatMap (m.declaredMethods name arity)).Nodup := by
  refine List.nodup_flatMap.2 ⟨fun type _ => nodup_declaredMethods hm type, ?_⟩
  refine h.imp fun {s t} hne method hs ht => hne ?_
  obtain ⟨d, hd, hds, -⟩ := (mem_declaredMethods hm).1 hs
  obtain ⟨e, he, het, -⟩ := (mem_declaredMethods hm).1 ht
  rw [hd, Option.some_inj] at he
  subst he
  rw [← hds, het]

theorem firstNonempty_eq_nil_iff {α : Type} {lists : List (List α)} :
    firstNonempty lists = [] ↔ ∀ l ∈ lists, l = [] := by
  unfold firstNonempty
  cases hfind : lists.find? fun l => !l.isEmpty with
  | none => simpa using List.find?_eq_none.1 hfind
  | some l =>
    have hl : l ≠ [] := by simpa using List.find?_some hfind
    simp only [Option.getD_some]
    constructor
    · exact fun hnil => absurd hnil hl
    · exact fun hall => absurd (hall l (List.mem_of_find?_eq_some hfind)) hl

/-- A first list that is not empty stands behind empty ones only. -/
theorem exists_firstNonempty {α : Type} {lists : List (List α)} (h : firstNonempty lists ≠ []) :
    ∃ n : Nat, lists[n]? = some (firstNonempty lists) ∧ ∀ k < n, lists[k]?.getD [] = [] := by
  unfold firstNonempty at h ⊢
  cases hfind : lists.find? fun l => !l.isEmpty with
  | none => simp [hfind] at h
  | some l =>
    obtain ⟨-, before, after, rfl, hbefore⟩ := List.find?_eq_some_iff_append.1 hfind
    refine ⟨before.length, by simp, fun k hk => ?_⟩
    have hmem := List.getElem_mem hk
    rw [List.getElem?_append_left hk, List.getElem?_eq_getElem hk]
    simpa using hbefore _ hmem

/-- A level offers the methods that are declared at its distance. -/
theorem mem_flatMap_level (hm : m.Arena) {id : Nat} (hid : id < m.types.length) (n : Nat)
    {method : MethodId} :
    method ∈ ((m.levels id)[n]?.getD []).flatMap (m.declaredMethods name arity) ↔
      ∃ type, AtDistance m.superTypes id n type ∧ m.Declares name arity type method := by
  rw [List.mem_flatMap]
  refine exists_congr fun type => and_congr (mem_levels hm hid n) (mem_declaredMethods hm)

theorem nodup_findMethods (hm : m.Arena) (id : TypeId) : (m.findMethods id name arity).Nodup := by
  rw [findMethods_eq]
  by_cases hnil : firstNonempty ((m.levels id).map (·.flatMap (m.declaredMethods name arity))) = []
  · rw [hnil]
    exact .nil
  · obtain ⟨n, hn, -⟩ := exists_firstNonempty hnil
    obtain ⟨level, hlevel, heq⟩ := List.mem_map.1 (List.mem_of_getElem? hn)
    rw [← heq]
    exact nodup_flatMap_declaredMethods hm (nodup_of_mem_levelsFrom hlevel)

theorem mem_findMethods (hm : m.Arena) {id : TypeId} {method : MethodId}
    (h : method ∈ m.findMethods id name arity) :
    ∃ type, (type = id ∨ type ∈ m.ancestors id) ∧ m.Declares name arity type method := by
  obtain ⟨found, hfound, hmethod⟩ := mem_firstNonempty h
  obtain ⟨level, hlevel, rfl⟩ := List.mem_map.1 hfound
  obtain ⟨type, htype, hdeclares⟩ := List.mem_flatMap.1 hmethod
  exact ⟨type, mem_levels_iff_ancestors.1 ⟨level, hlevel, htype⟩,
    (mem_declaredMethods hm).1 hdeclares⟩

/-- Nothing is inherited exactly if neither the type nor an ancestor declares the method. -/
theorem findMethods_eq_nil_iff (hm : m.Arena) {id : TypeId} :
    m.findMethods id name arity = [] ↔
      ∀ type, type = id ∨ type ∈ m.ancestors id →
        ∀ method, ¬ m.Declares name arity type method := by
  rw [findMethods_eq, firstNonempty_eq_nil_iff]
  constructor
  · intro hall type htype method hmethod
    obtain ⟨level, hlevel, htype⟩ := mem_levels_iff_ancestors.2 htype
    have hnil := hall _ (List.mem_map_of_mem hlevel)
    have hmem := List.mem_flatMap.2 ⟨type, htype, (mem_declaredMethods hm).2 hmethod⟩
    rw [hnil] at hmem
    cases hmem
  · intro hnone found hfound
    obtain ⟨level, hlevel, rfl⟩ := List.mem_map.1 hfound
    refine List.eq_nil_iff_forall_not_mem.2 fun method hmethod => ?_
    obtain ⟨type, htype, hmethod⟩ := List.mem_flatMap.1 hmethod
    exact hnone type (mem_levels_iff_ancestors.1 ⟨level, hlevel, htype⟩) method
      ((mem_declaredMethods hm).1 hmethod)

/-- The least distance from a type at which some type declares such a method. -/
structure Nearest (m : Model) (id : TypeId) (name : String) (arity : Option Nat) (d : Nat) :
    Prop where
  declares : ∃ type method, AtDistance m.superTypes id d type ∧ m.Declares name arity type method
  none_nearer : ∀ k < d, ∀ type, AtDistance m.superTypes id k type →
    ∀ method, ¬ m.Declares name arity type method

theorem Nearest.unique {id : TypeId} {d e : Nat} (h : m.Nearest id name arity d)
    (h' : m.Nearest id name arity e) : d = e := by
  obtain ⟨⟨s, x, hs, hx⟩, hnear⟩ := h
  obtain ⟨⟨t, y, ht, hy⟩, hnear'⟩ := h'
  rcases Nat.lt_trichotomy d e with hlt | heq | hlt
  · exact absurd hx (hnear' d hlt s hs x)
  · exact heq
  · exact absurd hy (hnear e hlt t ht y)

/-- What is found comes from one level, and that is the nearest one with such a method. -/
theorem exists_nearest (hm : m.Arena) {id : Nat} (hid : id < m.types.length)
    (h : m.findMethods id name arity ≠ []) :
    ∃ d, m.Nearest id name arity d ∧ ∀ method, method ∈ m.findMethods id name arity ↔
      ∃ type, AtDistance m.superTypes id d type ∧ m.Declares name arity type method := by
  rw [findMethods_eq] at h ⊢
  obtain ⟨d, hd, hbefore⟩ := exists_firstNonempty h
  have hlevel : ∀ k : Nat,
      ((m.levels id).map (·.flatMap (m.declaredMethods name arity)))[k]?.getD [] =
        ((m.levels id)[k]?.getD []).flatMap (m.declaredMethods name arity) := by
    intro k
    rw [List.getElem?_map]
    cases (m.levels id)[k]? <;> rfl
  have hfound : ∀ method, method ∈
      firstNonempty ((m.levels id).map (·.flatMap (m.declaredMethods name arity))) ↔
        ∃ type, AtDistance m.superTypes id d type ∧ m.Declares name arity type method := by
    intro method
    rw [← mem_flatMap_level hm hid d, ← hlevel, hd, Option.getD_some]
  refine ⟨d, ⟨?_, fun k hk type htype method hmethod => ?_⟩, hfound⟩
  · obtain ⟨method, hmethod⟩ := List.exists_mem_of_ne_nil _ h
    obtain ⟨type, htype, hdeclares⟩ := (hfound method).1 hmethod
    exact ⟨type, method, htype, hdeclares⟩
  · have hmem := (mem_flatMap_level hm hid k).2 ⟨type, htype, hmethod⟩
    rw [← hlevel, hbefore k hk] at hmem
    cases hmem

/-- **Methods are found on the nearest types that declare some.** A search for methods from a type
of the model ends by itself. It finds every method once, and exactly those that types at the least
distance declare at which any type does. It finds none if neither the type nor any of its ancestors
declares one. -/
theorem findMethods_nearest {m : Model} (h : m.Reached SourceUnit.Shaped) {id : TypeId}
    (hid : id < m.types.length) (name : String) (arity : Option Nat) :
    let found := m.findMethods id name arity
    m.checkedFindMethods id name arity = .ok found ∧
    (∀ fuel, m.types.length ≤ fuel → levelsFrom m.superTypes fuel [] [id] = m.levels id) ∧
    found.Nodup ∧
    (∀ d, m.Nearest id name arity d → ∀ method, method ∈ found ↔
      ∃ type, AtDistance m.superTypes id d type ∧ m.Declares name arity type method) ∧
    (found ≠ [] → ∃ d, m.Nearest id name arity d) ∧
    (found = [] ↔
      ∀ type, type = id ∨ type ∈ m.ancestors id → ∀ method, ¬ m.Declares name arity type method) ∧
    ∀ type, (type = id ∨ type ∈ m.ancestors id) ↔ ∃ n, AtDistance m.superTypes id n type := by
  intro found
  have hm := h.arena
  refine ⟨?_, fun fuel hfuel => levelsFrom_eq_levels hm hid hfuel, nodup_findMethods hm id, ?_, ?_,
    findMethods_eq_nil_iff hm, fun type => (exists_atDistance_iff_ancestors hm hid).symm⟩
  · have ht : m.typeAt id = .ok m.types[id] := by rw [typeAt, List.getElem?_eq_getElem hid]
    rw [checkedFindMethods, ht]
    rfl
  · intro d hd method
    have hsome : found ≠ [] := by
      obtain ⟨type, x, htype, hx⟩ := hd.declares
      have habove := (exists_atDistance_iff_ancestors hm hid).1 ⟨d, htype⟩
      exact fun hnil => (findMethods_eq_nil_iff hm).1 hnil type habove x hx
    obtain ⟨e, he, hfound⟩ := exists_nearest hm hid hsome
    rw [hd.unique he]
    exact hfound method
  · intro hsome
    obtain ⟨d, hd, -⟩ := exists_nearest hm hid hsome
    exact ⟨d, hd⟩

end Model

/-- Two classes with each other as supertypes, an interface above both that has one of them as
supertype again, and another interface above that. -/
def Sample.knot : SourceUnit where
  info := ⟨⟨"a/Knot.java"⟩, some "a", [], []⟩
  types := [
    { type 0 "Left" [] with interfaces := ["Right", "Shape"] },
    { type 1 "Right" [1] with interfaces := ["Left", "Shape"] },
    { type 2 "Shape" [0] with interfaces := ["Left", "Far"] },
    { type 3 "Far" [2] with interfaces := [] }]
  methods := [method 0 2, method 1 1, method 2 3]
  calls := []

/-- From `Left` both types at distance one have the method; the one at distance two is not looked
at. -/
theorem Model.findMethods_nearest_sample :
    let m := ((Edit.addUnit Sample.knot false).run.run .empty).2
    m.Reached SourceUnit.Shaped ∧ 0 < m.types.length ∧
    m.superTypes 0 = [1, 2] ∧ m.superTypes 1 = [0, 2] ∧ m.superTypes 2 = [0, 3] ∧
    m.Nearest 0 "area" (some 0) 1 ∧ m.findMethods 0 "area" (some 0) = [1, 0] ∧
    (∀ method, method ∈ m.findMethods 0 "area" (some 0) ↔
      ∃ type, AtDistance m.superTypes 0 1 type ∧ m.Declares "area" (some 0) type method) ∧
    3 ∈ m.ancestors 0 ∧ m.Declares "area" (some 0) 3 2 := by
  intro m
  have hshaped : Sample.knot.Shaped := by
    constructor
    · constructor <;> decide
    all_goals decide
  have hreached : m.Reached SourceUnit.Shaped := .add false .empty hshaped
  have hm := hreached.arena
  have hid : 0 < m.types.length := by decide
  have hnearest : m.Nearest 0 "area" (some 0) 1 := by
    refine ⟨⟨1, 1, (Model.mem_levels hm hid 1).1 (by decide +kernel),
      (Model.mem_declaredMethods hm).1 (by decide)⟩, ?_⟩
    intro k hk type htype method hmethod
    obtain rfl : k = 0 := by omega
    have hnone : m.declaredMethods "area" (some 0) 0 = [] := by decide
    rw [atDistance_zero_iff.1 htype, ← Model.mem_declaredMethods hm, hnone] at hmethod
    cases hmethod
  obtain ⟨-, -, -, hfound, -⟩ := Model.findMethods_nearest hreached hid "area" (some 0)
  exact ⟨hreached, hid, by decide +kernel, by decide +kernel, by decide +kernel, hnearest,
    by decide +kernel, hfound 1 hnearest, by decide +kernel,
    (Model.mem_declaredMethods hm).1 (by decide)⟩

end Deadwood.Code
