import Deadwood.Proofs.Code.Naming
import Deadwood.Usage.MethodUse

/-!
# Numbers that resolving calls looks at

Resolving a call and following it to implementers looks up files, types, methods and calls by
number. On a model in good order none of these lookups fails (`MethodUse.Sound.usedByCall_eq`), so a
batch of calls uses what its calls use one by one (`MethodUse.Sound.usedByBatch_eq`).
-/

namespace Deadwood

namespace Code

/-! ## Numbers that exist -/

theorem Checked.bind_ok {α β : Type} {x : Checked α} {a : α} (h : x = .ok a) (f : α → Checked β) :
    (x >>= f) = f a := by
  rw [h]
  rfl

theorem Checked.mapM_ok {α β : Type} {f : α → Checked β} {g : α → β} {xs : List α}
    (h : ∀ x ∈ xs, f x = .ok (g x)) : xs.mapM f = .ok (xs.map g) := by
  induction xs with
  | nil => rfl
  | cons x xs ih =>
    have hrest := ih fun y hy => h y (List.mem_cons_of_mem _ hy)
    rw [List.mapM_cons, bind_ok (h x List.mem_cons_self), bind_ok hrest]
    rfl

namespace Model

variable {m : Model}

theorem unitAt_ok {id : UnitId} (h : id < m.units.length) : ∃ info, m.unitAt id = .ok info := by
  rw [unitAt, List.getElem?_eq_getElem h]
  exact ⟨_, rfl⟩

theorem typeAt_ok {id : TypeId} (h : id < m.types.length) : ∃ t ∈ m.types, m.typeAt id = .ok t := by
  rw [typeAt, List.getElem?_eq_getElem h]
  exact ⟨_, List.getElem_mem h, rfl⟩

theorem methodAt_ok {id : MethodId} (h : id < m.methods.length) :
    ∃ d ∈ m.methods, m.methodAt id = .ok d := by
  rw [methodAt, List.getElem?_eq_getElem h]
  exact ⟨_, List.getElem_mem h, rfl⟩

theorem placeAt_ok {place : Option TypeId} (h : ∀ e ∈ place, e < m.types.length) :
    m.placeAt place = .ok () := by
  cases place with
  | none => rfl
  | some id =>
    obtain ⟨t, -, ht⟩ := typeAt_ok (h id rfl)
    rw [placeAt, ht]
    rfl

end Model

end Code

namespace Usage.MethodUse

open Code

/-! ## Methods that calls resolve to -/

/-- What is found in an index was in it before or was entered from the list. -/
theorem exists_of_get?_foldl_insert {key : MethodDecl → String} {ds : List MethodDecl}
    {index : Index MethodId} {name : String} {id : MethodId}
    (h : (ds.foldl (fun index d => index.insert (key d) d.id) index).get? name = some id) :
    index.get? name = some id ∨ ∃ d ∈ ds, d.id = id := by
  induction ds generalizing index with
  | nil => exact Or.inl h
  | cons d ds ih =>
    rcases ih h with hget | ⟨e, he, heq⟩
    · rw [Index.get?_insert] at hget
      split at hget
      · cases hget
        exact Or.inr ⟨d, List.mem_cons_self, rfl⟩
      · exact Or.inl hget
    · exact Or.inr ⟨e, List.mem_cons_of_mem _ he, heq⟩

variable {m : Model} {policy : Policy} {c : CallSite} {id : MethodId}

/-- The index by signature only has methods of the model. -/
theorem onType?_lt (hi : m.Indexed) {declaring : String}
    (h : (ofModel m policy).onType? c declaring = some id) : id < m.methods.length := by
  obtain ⟨name, -, hname⟩ := List.exists_of_findSome?_eq_some h
  obtain ⟨count, -, hcount⟩ := List.exists_of_findSome?_eq_some hname
  rcases exists_of_get?_foldl_insert hcount with hnone | ⟨d, hd, rfl⟩
  · cases hnone
  · exact number_lt hi.method_ids hd

/-- A call resolves to what it is bound to, or to a method that a name of its type has. -/
theorem resolve?_cases {u : MethodUse} (h : u.resolve? c = some id) :
    c.binding = some id ∨ ∃ declaring, u.onType? c declaring = some id := by
  simp only [resolve?, Option.or_eq_some_iff] at h
  rcases h with (h | ⟨-, h⟩) | ⟨-, h⟩
  · exact Or.inl h
  · obtain ⟨declaring, -, h⟩ := Option.bind_eq_some_iff.1 h
    exact Or.inr ⟨declaring, h⟩
  · have hown : ∀ {found}, u.onOwnFile? c = some found →
        ∃ declaring, u.onType? c declaring = some found := by
      intro found hfound
      obtain ⟨declaring, -, hfound⟩ := Option.bind_eq_some_iff.1 hfound
      exact ⟨declaring, hfound⟩
    split at h
    · rcases Option.or_eq_some_iff.1 h with h | ⟨-, h⟩
      · exact Or.inr (hown h)
      · obtain ⟨type, -, h⟩ := List.exists_of_findSome?_eq_some h
        obtain ⟨t, -, h⟩ := Option.bind_eq_some_iff.1 h
        exact Or.inr ⟨t.name, h⟩
    · exact Or.inr (hown h)
    · cases h

/-! ## Checks on a model in good order -/

/-- A model in good order, with indexes that lead to declarations it has. -/
structure Sound (u : MethodUse) : Prop where
  arena : u.model.Arena
  onType_lt : ∀ c declaring, ∀ id ∈ u.onType? c declaring, id < u.model.methods.length
  reachedBy_lt : ∀ name, ∀ id ∈ u.implementers.reachedBy name, id < u.model.types.length

/-- The use of a model whose numbers are positions is sound, under every policy. -/
theorem sound_ofModel {m : Model} (h : m.Arena) (policy : Policy) : (ofModel m policy).Sound where
  arena := h
  onType_lt _ _ _ hid := onType?_lt h.toIndexed hid
  reachedBy_lt name id hid := by
    obtain ⟨t, ht, -, -, rfl⟩ := Implementers.mem_reachedBy.1 hid
    exact number_lt h.type_ids ht

namespace Sound

variable {u : MethodUse} {c : CallSite} {target : MethodDecl}

theorem resolve?_lt (h : u.Sound) (hc : c ∈ u.model.calls) {id : MethodId}
    (hid : u.resolve? c = some id) : id < u.model.methods.length := by
  rcases resolve?_cases hid with hb | ⟨declaring, ht⟩
  · exact h.arena.binding_lt c hc id hb
  · exact h.onType_lt c declaring id ht

theorem checkImports_ok {ids : List TypeId} (h : ∀ id ∈ ids, id < u.model.types.length) :
    u.checkImports c ids = .ok () := by
  induction ids with
  | nil => rfl
  | cons id ids ih =>
    obtain ⟨t, -, ht⟩ := Model.typeAt_ok (h id List.mem_cons_self)
    rw [checkImports, Checked.bind_ok ht]
    split
    · exact ih fun i hi => h i (List.mem_cons_of_mem _ hi)
    · rfl

theorem checkOverriding_ok {ids : List MethodId} (h : ∀ id ∈ ids, id < u.model.methods.length) :
    u.checkOverriding target ids = .ok () := by
  induction ids with
  | nil => rfl
  | cons id ids ih =>
    obtain ⟨d, -, hd⟩ := Model.methodAt_ok (h id List.mem_cons_self)
    rw [checkOverriding, Checked.bind_ok hd]
    split
    · exact ih fun i hi => h i (List.mem_cons_of_mem _ hi)
    · rfl

theorem checkMethod_ok (h : u.Sound) {id : MethodId} (hlt : id < u.model.methods.length) :
    ∃ d, u.checkMethod id = .ok d := by
  obtain ⟨d, hmem, hd⟩ := Model.methodAt_ok hlt
  obtain ⟨t, -, ht⟩ := Model.typeAt_ok (h.arena.declaring_lt d hmem)
  refine ⟨d, ?_⟩
  rw [checkMethod, Checked.bind_ok hd, Checked.bind_ok ht]
  rfl

theorem checkKnown_ok (h : u.Sound) (hc : c ∈ u.model.calls) : u.checkKnown c = .ok () := by
  have hplace := Model.placeAt_ok (h.arena.place_lt c hc)
  unfold checkKnown
  split
  · next hb =>
    obtain ⟨d, hd⟩ := h.checkMethod_ok (h.arena.binding_lt c hc _ hb)
    rw [Checked.bind_ok hd]
    rfl
  · exact hplace
  · exact hplace
  · exact hplace
  · rfl

/-- Resolving a call reads no number that is out of range. -/
theorem checkResolve_ok (h : u.Sound) (hc : c ∈ u.model.calls) : u.checkResolve c = .ok () := by
  obtain ⟨info, hinfo⟩ := Model.unitAt_ok (h.arena.call_unit_lt c hc)
  unfold checkResolve
  split
  · rw [Checked.bind_ok hinfo]
    split
    · exact checkImports_ok fun id hid => Model.staticTargets_lt h.arena.toIndexed hid
    · rfl
  · rw [Checked.bind_ok hinfo]
    rfl
  · rfl

theorem checkImplementers_ok (h : u.Sound) {ids : List TypeId}
    (hlt : ∀ id ∈ ids, id < u.model.types.length) :
    (ids.forM fun type => do
      let t ← u.model.typeAt type
      u.checkOverriding target t.methods) = .ok () := by
  induction ids with
  | nil => rfl
  | cons id ids ih =>
    obtain ⟨t, hmem, ht⟩ := Model.typeAt_ok (hlt id List.mem_cons_self)
    have hfirst : (u.model.typeAt id >>= fun t => u.checkOverriding target t.methods) = .ok () := by
      rw [Checked.bind_ok ht]
      exact checkOverriding_ok fun i hi => h.arena.methods_lt hmem hi
    have hrest := ih fun i hi => hlt i (List.mem_cons_of_mem _ hi)
    exact (Checked.bind_ok hfirst _).trans hrest

/-- Neither does going through the implementers, whose types and methods are all in the model. -/
theorem checkDispatch_ok (h : u.Sound) (hc : c ∈ u.model.calls) {id : MethodId}
    (hlt : id < u.model.methods.length) : u.checkDispatch c id = .ok () := by
  obtain ⟨d, hd⟩ := h.checkMethod_ok hlt
  have hplace := Model.placeAt_ok (h.arena.place_lt c hc)
  have hids : ∀ type ∈ (u.dispatchNames c id).flatMap u.implementers.reachedBy,
      type < u.model.types.length := by
    intro type htype
    obtain ⟨name, -, hname⟩ := List.mem_flatMap.1 htype
    exact h.reachedBy_lt name type hname
  rw [checkDispatch, Checked.bind_ok hd]
  split
  · rw [Checked.bind_ok hplace]
    exact h.checkImplementers_ok hids
  · exact h.checkImplementers_ok hids

/-- **No number is out of range** on the way from a call to the methods it uses. -/
theorem usedByCall_eq (h : u.Sound) {id : CallId} (hc : u.model.calls[id]? = some c) :
    u.usedByCall id = .ok (u.usedBy c) := by
  have hmem := List.mem_of_getElem? hc
  have hcall : u.model.callAt id = .ok c := by rw [Model.callAt, hc]
  rw [usedByCall, Checked.bind_ok hcall, Checked.bind_ok (h.checkKnown_ok hmem), usedBy]
  split
  · rfl
  · rw [Checked.bind_ok (h.checkResolve_ok hmem)]
    cases hid : u.resolve? c with
    | none => rfl
    | some method =>
      exact Checked.bind_ok (h.checkDispatch_ok hmem (h.resolve?_lt hmem hid)) _

end Sound

/-! ## Batches -/

/-- The methods that the call with a number uses, if there is such a call. -/
def usedAt (u : MethodUse) (id : CallId) : List MethodId :=
  (u.model.calls[id]?.map u.usedBy).getD []

/-- What a batch uses is what its calls use. -/
theorem Sound.usedByBatch_eq {u : MethodUse} (h : u.Sound) {ids : List CallId}
    (hlt : ∀ id ∈ ids, id < u.model.calls.length) :
    u.usedByBatch ids = .ok (.ofList (ids.flatMap u.usedAt)) := by
  have hcalls : ids.mapM u.usedByCall = .ok (ids.map u.usedAt) := by
    refine Checked.mapM_ok fun id hid => ?_
    have hc := List.getElem?_eq_getElem (hlt id hid)
    rw [h.usedByCall_eq hc, usedAt, hc]
    rfl
  rw [usedByBatch, Checked.bind_ok hcalls]
  rfl

/-- The used methods, collected over the numbers of calls in place of the calls. -/
theorem used_eq (u : MethodUse) :
    u.used = .ofList ((List.range u.model.calls.length).flatMap u.usedAt) := by
  rw [used, ← flatMap_range_getElem?]
  rfl

/-- One look over all calls gives the methods that are used. -/
theorem Sound.usedByBatch_range {u : MethodUse} (h : u.Sound) :
    u.usedByBatch (List.range u.model.calls.length) = .ok u.used := by
  rw [h.usedByBatch_eq fun id hid => List.mem_range.1 hid, ← u.used_eq]

end Usage.MethodUse

end Deadwood
