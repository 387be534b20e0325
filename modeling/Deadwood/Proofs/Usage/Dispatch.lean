import Deadwood.Proofs.Code.Levels
import Deadwood.Proofs.Usage.InRange
import Deadwood.Proofs.Usage.Reported

/-!
# Calls through supertypes

Three walks over the supertypes have to agree for a call to reach the methods it may run. The
ancestors of a class are found level by level, the implementers of a name by a depth-first walk over
the supertypes as written, and a call looks for implementers under the simple name of the type that
declares its method. Whatever is above a class is seen by the depth-first walk (`exists_seen`), and
resolution keeps simple names, so every implementer is found under the name of each type above it
(`above_name`), and the method in it that a call may run counts as used
(`MethodUse.mem_dispatched`).
-/

namespace Deadwood.Usage

open Code

/-! ## Types above a type -/

/-- Whether a type is another one or above it. -/
def Above (m : Model) : TypeId → TypeId → Prop :=
  Relation.ReflTransGen fun a b => b ∈ m.superTypes a

/-- The search by levels finds only types above. -/
theorem above_of_mem_ancestors {m : Model} {id a : TypeId} (h : a ∈ m.ancestors id) :
    Above m id a := by
  obtain ⟨level, hlevel, ha⟩ := List.mem_flatten.1 h
  have hmem : a ∈ (m.levels id).flatten :=
    List.mem_flatten.2 ⟨level, List.mem_of_mem_tail hlevel, ha⟩
  obtain ⟨s, hs, hway⟩ := mem_levelsFrom hmem
  rw [List.mem_singleton.1 hs] at hway
  exact hway

theorem mem_superTypes {m : Model} {a b : TypeId} (h : b ∈ m.superTypes a) :
    ∃ t, m.types[a]? = some t ∧ ∃ s ∈ t.superTypes, m.resolve? s a = some b := by
  unfold Model.superTypes at h
  split at h
  · cases h
  · next t ht =>
    have hmem := (List.mem_filter.1 (List.mem_eraseDups.1 h)).1
    exact ⟨t, ht, List.mem_filterMap.1 hmem⟩

theorem mem_writtenSuperTypes {m : Model} {a b : TypeId} (h : b ∈ m.superTypes a) :
    b ∈ writtenSuperTypes m a := by
  obtain ⟨t, ht, hs⟩ := mem_superTypes h
  simp only [writtenSuperTypes, ht]
  exact List.mem_filterMap.2 hs

/-! ## The depth-first walk -/

theorem mem_removeAll_singleton {xs : List Nat} {x y : Nat} :
    x ∈ xs.removeAll [y] ↔ x ∈ xs ∧ x ≠ y := by
  simp [List.removeAll]

/-- The types that a walk can go to from a type while it sees only unseen ones. -/
def Way (m : Model) (unseen : List TypeId) : TypeId → TypeId → Prop :=
  Relation.ReflTransGen fun a b => b ∈ writtenSuperTypes m a ∧ b ∈ unseen

/-- When `id` has been seen, a way that went through it is taken up again behind its last visit. -/
theorem Way.resume {m : Model} {unseen : List TypeId} {s a : TypeId} (h : Way m unseen s a)
    (hs : s ∈ unseen) (id : TypeId) :
    a = id ∨ ∃ b, (b = s ∨ b ∈ writtenSuperTypes m id) ∧ b ∈ unseen.removeAll [id] ∧
      Way m (unseen.removeAll [id]) b a := by
  induction h using Relation.ReflTransGen.head_induction_on with
  | refl =>
    by_cases hid : a = id
    · exact Or.inl hid
    · exact Or.inr ⟨a, Or.inl rfl, mem_removeAll_singleton.2 ⟨hs, hid⟩, .refl⟩
  | @head s next hstep _ ih =>
    rcases ih hstep.2 with hid | ⟨b, hb, hunseen, hway⟩
    · exact Or.inl hid
    · rcases hb with rfl | hb
      · by_cases hid : s = id
        · exact Or.inr ⟨b, Or.inr (hid ▸ hstep.1), hunseen, hway⟩
        · exact Or.inr ⟨s, Or.inl rfl, mem_removeAll_singleton.2 ⟨hs, hid⟩,
            .head ⟨hstep.1, hunseen⟩ hway⟩
      · exact Or.inr ⟨b, Or.inr hb, hunseen, hway⟩

theorem Way.mem {m : Model} {unseen : List TypeId} {s a : TypeId} (h : Way m unseen s a)
    (hs : s ∈ unseen) : a ∈ unseen := by
  induction h with
  | refl => exact hs
  | tail _ hstep _ => exact hstep.2

theorem Way.of_removeAll {m : Model} {unseen : List TypeId} {id s a : TypeId}
    (h : Way m (unseen.removeAll [id]) s a) : Way m unseen s a :=
  Relation.ReflTransGen.mono
    (fun _ _ hstep => ⟨hstep.1, (mem_removeAll_singleton.1 hstep.2).1⟩) _ _ h

/-- The depth-first walk sees the types that it can go to, each once, and comes by the names that
are written on them. -/
theorem exists_seen (m : Model) (unseen stack : List TypeId) :
    ∃ seen : List TypeId, seen.Nodup ∧
      (∀ a, a ∈ seen ↔ ∃ s ∈ stack, s ∈ unseen ∧ Way m unseen s a) ∧
      superNamesFrom m unseen stack = seen.flatMap (writtenSuperNames m) := by
  fun_induction superNamesFrom m unseen stack with
  | case1 => exact ⟨[], .nil, by simp, rfl⟩
  | case2 unseen id stack hid ih =>
    obtain ⟨seen, hnodup, hseen, heq⟩ := ih
    refine ⟨id :: seen, List.nodup_cons.2 ⟨fun hmem => ?_, hnodup⟩,
      fun a => ⟨fun hmem => ?_, ?_⟩, ?_⟩
    · obtain ⟨s, -, hrest, hway⟩ := (hseen id).1 hmem
      exact (mem_removeAll_singleton.1 (hway.mem hrest)).2 rfl
    · rcases List.mem_cons.1 hmem with rfl | hmem
      · exact ⟨a, List.mem_cons_self, hid, .refl⟩
      · obtain ⟨s, hs, hrest, hway⟩ := (hseen a).1 hmem
        have hunseen := (mem_removeAll_singleton.1 hrest).1
        rcases List.mem_append.1 hs with hs | hs
        · exact ⟨id, List.mem_cons_self, hid, .head ⟨hs, hunseen⟩ hway.of_removeAll⟩
        · exact ⟨s, List.mem_cons_of_mem _ hs, hunseen, hway.of_removeAll⟩
    · -- Seeing `id` closes every way through it, but what was behind it is on the stack now.
      rintro ⟨s, hs, hunseen, hway⟩
      rcases hway.resume hunseen id with rfl | ⟨b, hb, hrest, hway⟩
      · exact List.mem_cons_self
      · refine List.mem_cons_of_mem _ ((hseen a).2 ⟨b, ?_, hrest, hway⟩)
        rcases hb with rfl | hb
        · have hne := (mem_removeAll_singleton.1 hrest).2
          exact List.mem_append_right _ (List.mem_of_ne_of_mem hne hs)
        · exact List.mem_append_left _ hb
    · rw [List.flatMap_cons, heq]
  | case3 unseen id stack hid ih =>
    obtain ⟨seen, hnodup, hseen, heq⟩ := ih
    refine ⟨seen, hnodup, fun a => (hseen a).trans ⟨?_, ?_⟩, heq⟩
    · rintro ⟨s, hs, hway⟩
      exact ⟨s, List.mem_cons_of_mem _ hs, hway⟩
    · rintro ⟨s, hs, hunseen, hway⟩
      have hne : s ≠ id := fun heq => hid (heq ▸ hunseen)
      exact ⟨s, List.mem_of_ne_of_mem hne hs, hunseen, hway⟩

theorem mem_superNamesFrom {m : Model} {unseen stack : List TypeId} {s a : TypeId} {name : String}
    (hs : s ∈ stack) (hunseen : s ∈ unseen) (h : Way m unseen s a)
    (hname : name ∈ writtenSuperNames m a) : name ∈ superNamesFrom m unseen stack := by
  obtain ⟨seen, -, hseen, heq⟩ := exists_seen m unseen stack
  rw [heq]
  exact List.mem_flatMap.2 ⟨a, (hseen a).2 ⟨s, hs, hunseen, h⟩, hname⟩

section Names

variable {m : Model} (hi : m.Indexed) (hn : m.Named)

include hi hn in
/-- A supertype has the simple name that is written. -/
theorem superTypes_name {a b : TypeId} (h : b ∈ m.superTypes a) :
    ∃ t, m.types[b]? = some t ∧ t.name ∈ writtenSuperNames m a := by
  obtain ⟨ta, hta, s, hs, hb⟩ := mem_superTypes h
  obtain ⟨t, ht, hname⟩ := (Model.resolve?_found hb).simpleName hi hn
  rw [(hn.plain ta (List.mem_of_getElem? hta) s hs).elementName_eq] at hname
  refine ⟨t, ht, ?_⟩
  simp only [writtenSuperNames, hta, hname]
  exact List.mem_map_of_mem hs

include hi in
theorem way_of_above {a b : TypeId} (h : Above m a b) :
    Way m (List.range m.types.length) a b := by
  refine Relation.ReflTransGen.mono ?_ _ _ h
  intro x y hxy
  obtain ⟨t, -, s, -, hy⟩ := mem_superTypes hxy
  exact ⟨mem_writtenSuperTypes hxy, List.mem_range.2 ((Model.resolve?_found hy).lt hi)⟩

include hi hn in
/-- The names under which calls can reach a type are those of the types above it. -/
theorem above_name {t : TypeDecl} (ht : t ∈ m.types) {a : TypeId} (h : Above m t.id a) :
    ∃ owner, m.types[a]? = some owner ∧ owner.name ∈ reachableNames m t := by
  have hrange := List.mem_range.2 (number_lt hi.type_ids ht)
  rcases Relation.ReflTransGen.cases_tail h with rfl | ⟨b, hb, hab⟩
  · exact ⟨t, getElem?_number hi.type_ids ht, List.mem_cons_self⟩
  · obtain ⟨owner, howner, hname⟩ := superTypes_name hi hn hab
    refine ⟨owner, howner, List.mem_cons_of_mem _ ?_⟩
    exact mem_superNamesFrom List.mem_cons_self hrange (way_of_above hi hb) hname

end Names

/-! ## Methods that calls may run -/

namespace MethodUse

variable {m : Model} {policy : Policy} {c : CallSite} {id : MethodId}

theorem mem_used {u : MethodUse} (hc : c ∈ u.model.calls) (hskip : u.skips c = false)
    (h : u.resolve? c = some id) {used : MethodId} (hused : used ∈ id :: u.dispatched c id) :
    used ∈ u.used := by
  refine UsedSet.mem_ofList.2 (List.mem_flatMap.2 ⟨c, hc, ?_⟩)
  rw [usedBy, if_neg (by rw [hskip]; exact Bool.false_ne_true), h]
  exact hused

/-- A call can run the first method of the signature in every implementer below the type that
declares its method. -/
theorem mem_dispatched (hi : m.Indexed) (hn : m.Named) {target : MethodDecl}
    (htarget : m.methods[id]? = some target) {t : TypeDecl} (ht : t ∈ m.types)
    (himpl : policy.isImplementer t = true) (h : Above m t.id target.declaringType)
    {found : MethodId}
    (hfound : t.methods.find? (fun i => m.methods[i]?.any (·.sameSignature target)) = some found) :
    found ∈ (ofModel m policy).dispatched c id := by
  have hself := getElem?_number hi.type_ids ht
  obtain ⟨owner, howner, hname⟩ := above_name hi hn ht h
  have hreached : t.id ∈ (Implementers.ofModel m policy).reachedBy owner.name :=
    Implementers.mem_reachedBy.2 ⟨t, ht, himpl, hname, rfl⟩
  have hown : (ofModel m policy).ownerName? id = some owner.name := by
    simp [ownerName?, ofModel, htarget, howner]
  have hoverriding : (ofModel m policy).overriding? target t.id = some found := by
    simp only [overriding?, ofModel, hself, Option.bind_some]
    exact hfound
  have hdispatched : (ofModel m policy).dispatched c id =
      (((ofModel m policy).dispatchNames c id).flatMap
        (Implementers.ofModel m policy).reachedBy).filterMap
          ((ofModel m policy).overriding? target) := by
    simp only [dispatched, ofModel, htarget]
  rw [hdispatched]
  refine List.mem_filterMap.2 ⟨t.id, List.mem_flatMap.2 ⟨owner.name, ?_, hreached⟩, hoverriding⟩
  rw [dispatchNames, hown]
  exact List.mem_append_left _ (List.mem_singleton_self _)

end MethodUse

/-! ## Soundness -/

/-- **Calls through supertypes are sound.** When files were added in any order and calls were bound,
looking over all calls gives a used set. A call that is not passed over puts the method it resolves
to in it, and with it, for every implementer that declares that method or is below the type that
does, the first method of the same signature. None of these methods is among those that are ranked. -/
theorem dispatch_sound {before : Model} (h : before.Reached SourceUnit.WellFormed)
    (policy : Policy) :
    let m := before.bindCalls
    let use := MethodUse.ofModel m policy
    use.usedByBatch (List.range m.calls.length) = .ok use.used ∧
    (rank policy m use.used).Perm ((reported policy m use.used).filterMap (finding? m)) ∧
    ∀ c ∈ m.calls, use.skips c = false → ∀ id, use.resolve? c = some id →
      (id ∈ use.used ∧ ∀ d ∈ reported policy m use.used, d.id ≠ id) ∧
      ∃ target, m.methods[id]? = some target ∧
        ∀ t ∈ m.types, policy.isImplementer t = true →
          (t.id = target.declaringType ∨ target.declaringType ∈ m.ancestors t.id) →
          (∃ i ∈ t.methods, m.methods[i]?.any (·.sameSignature target) = true) →
          ∃ found,
            t.methods.find? (fun i => m.methods[i]?.any (·.sameSignature target)) = some found ∧
            found ∈ use.used ∧ ∀ d ∈ reported policy m use.used, d.id ≠ found := by
  intro m use
  have harena : m.Arena := (h.bind.mono fun _ hu => hu.toShaped).arena
  have hnamed : m.Named := h.bind.named fun _ hu => hu.toNamed
  have hsound : use.Sound := MethodUse.sound_ofModel harena policy
  have hfree : ∀ used ∈ use.used, ∀ d ∈ reported policy m use.used, d.id ≠ used := by
    rintro used hused d hd rfl
    exact notMem_used_of_mem_reported hd hused
  refine ⟨hsound.usedByBatch_range, rank_perm_reported, fun c hc hskip id hid => ?_⟩
  have hused : ∀ used ∈ id :: use.dispatched c id, used ∈ use.used :=
    fun used => MethodUse.mem_used hc hskip hid
  obtain ⟨target, htarget⟩ : ∃ target, m.methods[id]? = some target :=
    ⟨_, List.getElem?_eq_getElem (hsound.resolve?_lt hc hid)⟩
  have hown := hused id List.mem_cons_self
  refine ⟨⟨hown, hfree id hown⟩, target, htarget, fun t ht himpl hbelow hsome => ?_⟩
  have habove : Above m t.id target.declaringType := by
    rcases hbelow with heq | hmem
    · rw [heq]
      exact .refl
    · exact above_of_mem_ancestors hmem
  obtain ⟨found, hfound⟩ := Option.isSome_iff_exists.1 (List.find?_isSome.2 hsome)
  have hdispatched := MethodUse.mem_dispatched (c := c) harena.toIndexed hnamed htarget ht himpl
    habove hfound
  have hmem := hused found (List.mem_cons_of_mem _ hdispatched)
  exact ⟨found, hfound, hmem, hfree found hmem⟩

/-- In the sample, the call through the interface reaches the nested class of the second copy of the
file, which implements the interface of the first one. -/
theorem dispatch_sound_sample :
    Sample.model.Reached SourceUnit.WellFormed ∧
    let m := Sample.model.bindCalls
    let use := MethodUse.ofModel m .builtIn
    ∃ c ∈ m.calls, ∃ target ∈ m.methods, ∃ t ∈ m.types,
      use.skips c = false ∧ use.resolve? c = some target.id ∧
      Policy.builtIn.isImplementer t = true ∧ target.declaringType ∈ m.ancestors t.id ∧
      t.methods.find? (fun i => m.methods[i]?.any (·.sameSignature target)) = some 5 ∧
      5 ∈ use.used ∧ ∀ d ∈ reported .builtIn m use.used, d.id ≠ 5 := by
  have hreached := Sample.model_reached Sample.shapes_wellFormed
  refine ⟨hreached, ?_⟩
  intro m use
  obtain ⟨c, hc, hskip, hid⟩ : ∃ c ∈ m.calls, use.skips c = false ∧ use.resolve? c = some 0 := by
    decide +kernel
  obtain ⟨t, ht, himpl, hbelow, hfind⟩ : ∃ t ∈ m.types, Policy.builtIn.isImplementer t = true ∧
      0 ∈ m.ancestors t.id ∧ t.methods.find? (fun i => m.methods[i]?.any
        (·.sameSignature (Sample.method 0 0))) = some 5 := by
    decide +kernel
  obtain ⟨-, -, hsound⟩ := dispatch_sound hreached .builtIn
  obtain ⟨-, target, htarget, hall⟩ := hsound c hc hskip 0 hid
  have heq : target = Sample.method 0 0 := by
    have hzero : m.methods[0]? = some (Sample.method 0 0) := by decide +kernel
    exact Option.some_inj.1 (htarget.symm.trans hzero)
  subst heq
  have hsome := List.find?_isSome.1 (Option.isSome_iff_exists.2 ⟨5, hfind⟩)
  obtain ⟨found, hfound, hused, hfree⟩ := hall t ht himpl (Or.inr hbelow) hsome
  rw [hfind] at hfound
  cases hfound
  exact ⟨c, hc, _, List.mem_of_getElem? htarget, t, ht, hskip, hid, himpl, hbelow, hfind, hused,
    hfree⟩

end Deadwood.Usage
