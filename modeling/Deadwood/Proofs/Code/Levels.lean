import Deadwood.Code.Hierarchy
import Mathlib.Data.Finset.Card
import Mathlib.Logic.Relation

/-!
# Searches by levels

A search by levels is bounded by a number of steps, here called its fuel. What bounds it in truth is
the number of nodes that it has not seen (`unseen`), so any two searches with enough fuel for that
find the same levels. This is proved at once for two searches that take corresponding steps
(`levelsFrom_map`). What a search finds can be reached from where it starts (`mem_levelsFrom`).
-/

namespace Deadwood.Code

/-! ## Searches under an injection -/

section Search

variable {f : Nat → Nat} {n : Nat} (hf : ∀ i < n, ∀ j < n, f i = f j → i = j)

include hf

theorem map_beq {x y : Nat} (hx : x < n) (hy : y < n) : (f x == f y) = (x == y) := by
  rw [Bool.eq_iff_iff, beq_iff_eq, beq_iff_eq]
  exact ⟨hf x hx y hy, congrArg f⟩

/-- An injective renumbering makes no new repetitions. -/
theorem eraseDups_map {xs : List Nat} (hxs : ∀ x ∈ xs, x < n) :
    (xs.map f).eraseDups = xs.eraseDups.map f := by
  induction hlen : xs.length using Nat.strongRecOn generalizing xs with
  | ind len ih =>
    cases xs with
    | nil => rfl
    | cons x xs =>
      have hx := hxs x List.mem_cons_self
      have hrest : (xs.map f).filter (fun b => !b == f x) =
          (xs.filter fun b => !b == x).map f := by
        rw [List.filter_map]
        congr 1
        refine List.filter_congr fun y hy => ?_
        rw [Function.comp_apply, map_beq hf (hxs y (List.mem_cons_of_mem _ hy)) hx]
      have hshort : (xs.filter fun b => !b == x).length < len := by
        rw [← hlen, List.length_cons]
        exact Nat.lt_succ_of_le (List.length_filter_le _ _)
      rw [List.map_cons, List.eraseDups_cons, List.eraseDups_cons, List.map_cons, hrest,
        ih _ hshort (fun y hy => hxs y (List.mem_cons_of_mem _ (List.mem_filter.1 hy).1)) rfl]

theorem contains_map {xs : List Nat} (hxs : ∀ x ∈ xs, x < n) {y : Nat} (hy : y < n) :
    (xs.map f).contains (f y) = xs.contains y := by
  rw [Bool.eq_iff_iff, List.contains_iff_mem, List.contains_iff_mem, List.mem_map]
  constructor
  · rintro ⟨x, hx, hxy⟩
    rwa [← hf x (hxs x hx) y hy hxy]
  · exact fun h => ⟨y, h, rfl⟩

/-- What is new stays new under an injective renumbering. -/
theorem fresh_map {seen xs : List Nat} (hseen : ∀ x ∈ seen, x < n) (hxs : ∀ x ∈ xs, x < n) :
    fresh (seen.map f) (xs.map f) = (fresh seen xs).map f := by
  have hfilter : (xs.map f).filter (fun x => !(seen.map f).contains x) =
      (xs.filter fun x => !seen.contains x).map f := by
    rw [List.filter_map]
    congr 1
    refine List.filter_congr fun y hy => ?_
    rw [Function.comp_apply, contains_map hf hseen (hxs y hy)]
  rw [fresh, fresh, hfilter, eraseDups_map hf]
  exact fun x hx => hxs x (List.mem_filter.1 hx).1

end Search

theorem mem_fresh {seen xs : List Nat} {x : Nat} : x ∈ fresh seen xs ↔ x ∈ xs ∧ x ∉ seen := by
  rw [fresh, List.mem_eraseDups, List.mem_filter, Bool.not_eq_true', ← Bool.not_eq_true,
    List.contains_iff_mem]

/-- The numbers below `n` that a search has not seen. -/
def unseen (n : Nat) (seen : List Nat) : Finset Nat :=
  (Finset.range n).filter (· ∉ seen)

theorem card_unseen_append_lt {n : Nat} {seen now : List Nat} {x : Nat} (hn : x < n)
    (hnow : x ∈ now) (hseen : x ∉ seen) :
    (unseen n (seen ++ now)).card < (unseen n seen).card := by
  refine Finset.card_lt_card ⟨fun y hy => ?_, fun hsub => ?_⟩
  · rw [unseen, Finset.mem_filter, List.mem_append, not_or] at hy
    exact Finset.mem_filter.2 ⟨hy.1, hy.2.1⟩
  · have hx := hsub (Finset.mem_filter.2 ⟨Finset.mem_range.2 hn, hseen⟩)
    exact (Finset.mem_filter.1 hx).2 (List.mem_append_right _ hnow)

/-- Where nothing is unseen, nothing is fresh. -/
theorem fresh_eq_nil {n : Nat} {seen level : List Nat} (hlevel : ∀ x ∈ level, x < n)
    (h : (unseen n seen).card ≤ 0) : fresh seen level = [] := by
  refine List.eq_nil_iff_forall_not_mem.2 fun x hx => ?_
  have hmem : x ∈ unseen n seen := Finset.mem_filter.2
    ⟨Finset.mem_range.2 (hlevel x (mem_fresh.1 hx).1), (mem_fresh.1 hx).2⟩
  exact absurd (Finset.card_pos.2 ⟨x, hmem⟩) (by omega)

/-- A level with anything new leaves less unseen, which is why the levels end. -/
theorem card_unseen_fresh_lt {n : Nat} {seen level : List Nat} (hlevel : ∀ x ∈ level, x < n)
    (h : fresh seen level ≠ []) :
    (unseen n (seen ++ fresh seen level)).card < (unseen n seen).card := by
  obtain ⟨x, hx⟩ := List.exists_mem_of_ne_nil _ h
  obtain ⟨hmem, hseen⟩ := mem_fresh.1 hx
  exact card_unseen_append_lt (hlevel x hmem) hx hseen

/-- A level that is left for the next one stays among the nodes. -/
theorem lt_of_mem_flatMap_fresh {n : Nat} {next : Nat → List Nat} {seen level : List Nat}
    (hnext : ∀ x < n, ∀ y ∈ next x, y < n) (hlevel : ∀ x ∈ level, x < n) :
    ∀ y ∈ (fresh seen level).flatMap next, y < n := by
  intro y hy
  obtain ⟨x, hx, hyx⟩ := List.mem_flatMap.1 hy
  exact hnext x (hlevel x (mem_fresh.1 hx).1) y hyx

theorem levelsFrom_eq_nil {next : Nat → List Nat} {fuel : Nat} {seen level : List Nat}
    (h : fresh seen level = []) : levelsFrom next fuel seen level = [] := by
  cases fuel with
  | zero => rfl
  | succ fuel => simp [levelsFrom, h]

theorem levelsFrom_succ {next : Nat → List Nat} {fuel : Nat} {seen level : List Nat}
    (h : fresh seen level ≠ []) :
    levelsFrom next (fuel + 1) seen level = fresh seen level ::
      levelsFrom next fuel (seen ++ fresh seen level) ((fresh seen level).flatMap next) := by
  rw [levelsFrom]
  split
  · next hnil => exact absurd hnil h
  · rfl

/-- Two searches with enough fuel that take corresponding steps find corresponding levels. -/
theorem levelsFrom_map {f : Nat → Nat} {n : Nat} (hf : ∀ i < n, ∀ j < n, f i = f j → i = j)
    {next next' : Nat → List Nat} (hnext : ∀ x < n, ∀ y ∈ next x, y < n)
    (hmap : ∀ x < n, next' (f x) = (next x).map f) {fuel fuel' : Nat} {seen level : List Nat}
    (hseen : ∀ x ∈ seen, x < n) (hlevel : ∀ x ∈ level, x < n)
    (hfuel : (unseen n seen).card ≤ fuel) (hfuel' : (unseen n seen).card ≤ fuel') :
    levelsFrom next' fuel' (seen.map f) (level.map f) =
      (levelsFrom next fuel seen level).map (·.map f) := by
  induction fuel generalizing fuel' seen level with
  | zero =>
    -- Nothing is unseen, so there is nothing fresh to go on with on either side.
    have hnil : fresh seen level = [] := fresh_eq_nil hlevel hfuel
    rw [levelsFrom_eq_nil hnil, levelsFrom_eq_nil (by rw [fresh_map hf hseen hlevel, hnil]; rfl)]
    rfl
  | succ fuel ih =>
    by_cases hnil : fresh seen level = []
    · rw [levelsFrom_eq_nil hnil, levelsFrom_eq_nil (by rw [fresh_map hf hseen hlevel, hnil]; rfl)]
      rfl
    · have hlt : ∀ x ∈ fresh seen level, x < n := fun x hx => hlevel x (mem_fresh.1 hx).1
      have hcard := card_unseen_fresh_lt hlevel hnil
      obtain ⟨fuel', rfl⟩ : ∃ k, fuel' = k + 1 := ⟨fuel' - 1, by omega⟩
      have hne : fresh (seen.map f) (level.map f) ≠ [] := by
        rwa [fresh_map hf hseen hlevel, Ne, List.map_eq_nil_iff]
      have hsteps : ((fresh seen level).map f).flatMap next' =
          ((fresh seen level).flatMap next).map f := by
        rw [List.flatMap_map, List.map_flatMap]
        exact List.flatMap_congr fun y hy => hmap y (hlt y hy)
      rw [levelsFrom_succ hnil, levelsFrom_succ hne, fresh_map hf hseen hlevel, hsteps,
        ← List.map_append, List.map_cons]
      congr 1
      apply ih
      · intro y hy
        rcases List.mem_append.1 hy with hy | hy
        · exact hseen y hy
        · exact hlt y hy
      · exact lt_of_mem_flatMap_fresh hnext hlevel
      · omega
      · omega

/-- A search finds only what can be reached from where it starts. -/
theorem mem_levelsFrom {next : Nat → List Nat} {fuel : Nat} {seen level : List Nat} {a : Nat}
    (h : a ∈ (levelsFrom next fuel seen level).flatten) :
    ∃ s ∈ level, Relation.ReflTransGen (fun x y => y ∈ next x) s a := by
  fun_induction levelsFrom next fuel seen level with
  | case1 => cases h
  | case2 => cases h
  | case3 fuel seen level _ ih =>
    have hsub : ∀ x ∈ fresh seen level, x ∈ level := fun x hx => (mem_fresh.1 hx).1
    rw [List.flatten_cons, List.mem_append] at h
    rcases h with h | h
    · exact ⟨a, hsub a h, .refl⟩
    · obtain ⟨s, hs, hway⟩ := ih h
      obtain ⟨p, hp, hsp⟩ := List.mem_flatMap.1 hs
      exact ⟨p, hsub p hp, .head hsp hway⟩

/-- Levels stay inside a range that steps do not lead out of. -/
theorem levelsFrom_lt {n : Nat} {next : Nat → List Nat} (hnext : ∀ x < n, ∀ y ∈ next x, y < n)
    {fuel : Nat} {seen level : List Nat} (hlevel : ∀ x ∈ level, x < n) :
    ∀ now ∈ levelsFrom next fuel seen level, ∀ x ∈ now, x < n := by
  intro now hnow x hx
  obtain ⟨start, hstart, hway⟩ := mem_levelsFrom (List.mem_flatten.2 ⟨now, hnow, hx⟩)
  clear hx
  induction hway with
  | refl => exact hlevel start hstart
  | tail _ hstep ih => exact hnext _ ih _ hstep

end Deadwood.Code
