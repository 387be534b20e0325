import Deadwood.Proofs.Usage.Dispatch

/-!
# Who is found under a name

Types are followed by number but found by simple name, so the two have to agree. Resolution never
touches the last segment of a written name: what it finds has that segment as its simple name, and
so has every supertype (`resolution_keeps_name`). The walk over the supertypes of an implementer
sees each type that written supertypes lead to once, on a cyclic hierarchy too, so the implementers
of a name are exactly those that bear it or have it written on a type they lead to
(`implementers_exact`).
-/

namespace Deadwood.Usage

open Code

/-! ## Names that resolution keeps -/

/-- **Resolution keeps the simple name.** Where types are named by the last segment of their
qualified names, whatever a written name resolves to, in any file and inside any type, is a type of
the model whose simple name is the last segment of the written name without generics, blanks and
trailing brackets. So each supertype of a type has the last segment of a supertype that is written
on it, and if that is written plainly, it is the last segment as it stands. -/
theorem resolution_keeps_name {m : Model} (h : m.Reached SourceUnit.Shaped)
    (hnames : ∀ t ∈ m.types, Text.lastSegment t.qualifiedName = t.name) :
    (∀ (written : String) (unit : UnitId) (place : Option TypeId) (id : TypeId),
      m.resolveIn? written unit place = some id →
      ∃ t, m.types[id]? = some t ∧ t.name = Text.lastSegment (Java.elementName written)) ∧
    ∀ (id above : TypeId), above ∈ m.superTypes id →
      ∃ t owner, m.types[id]? = some t ∧ m.types[above]? = some owner ∧
        ∃ s ∈ t.superTypes, owner.name = Text.lastSegment (Java.elementName s) ∧
          (IsPlain s → owner.name = Text.lastSegment s) := by
  have hi := h.arena.toIndexed
  constructor
  · intro written unit place id hid
    exact (Model.resolveIn?_found hid).name_eq_lastSegment hi hnames
  · intro id above habove
    obtain ⟨t, ht, s, hs, hresolved⟩ := mem_superTypes habove
    obtain ⟨owner, howner, hname⟩ := (Model.resolve?_found hresolved).name_eq_lastSegment hi hnames
    refine ⟨t, owner, ht, howner, s, hs, hname, fun hplain => ?_⟩
    rw [hname, hplain.elementName_eq]

/-- In the sample, a name with generics, blanks and brackets means the nested class of the first
copy of the file, and the interface that is written with its package is known without it. -/
theorem resolution_keeps_name_sample :
    Sample.model.Reached SourceUnit.Shaped ∧
    (∀ t ∈ Sample.model.types, Text.lastSegment t.qualifiedName = t.name) ∧
    Sample.model.resolveIn? "Square . Corner < a.Shape > [ ] []" 0 (some 0) = some 2 ∧
    Text.lastSegment (Java.elementName "Square . Corner < a.Shape > [ ] []") = "Corner" ∧
    (∃ t, Sample.model.types[2]? = some t ∧ t.name = "Corner") ∧
    0 ∈ Sample.model.superTypes 5 ∧
    ∃ t owner, Sample.model.types[5]? = some t ∧ Sample.model.types[0]? = some owner ∧
      t.superTypes = ["a.Shape"] ∧ owner.name = "Shape" := by
  have hreached := Sample.model_reached Sample.shapes_shaped
  have hnames : ∀ t ∈ Sample.model.types, Text.lastSegment t.qualifiedName = t.name := by
    decide +kernel
  have hcorner : Sample.model.resolveIn? "Square . Corner < a.Shape > [ ] []" 0 (some 0) =
      some 2 := by
    decide +kernel
  have hlast : Text.lastSegment (Java.elementName "Square . Corner < a.Shape > [ ] []") =
      "Corner" := by
    decide +kernel
  have habove : 0 ∈ Sample.model.superTypes 5 := by decide +kernel
  obtain ⟨hkept, hsuper⟩ := resolution_keeps_name hreached hnames
  obtain ⟨t, ht, hname⟩ := hkept _ 0 (some 0) 2 hcorner
  obtain ⟨below, owner, hbelow, howner, s, hs, hown, -⟩ := hsuper 5 0 habove
  have hwritten : below.superTypes = ["a.Shape"] := by
    have hfive : Sample.model.types[5]?.map (·.superTypes) = some ["a.Shape"] := by decide
    rw [hbelow, Option.map_some] at hfive
    exact Option.some_inj.1 hfive
  rw [hwritten, List.mem_singleton] at hs
  subst hs
  have hshape : Text.lastSegment (Java.elementName "a.Shape") = "Shape" := by decide +kernel
  exact ⟨hreached, hnames, hcorner, hlast, ⟨t, ht, hname.trans hlast⟩, habove, below, owner, hbelow,
    howner, hwritten, hown.trans hshape⟩

/-! ## Types that written supertypes lead to -/

/-- A supertype that is written on the first type means the second. -/
def Leads (m : Model) (a b : TypeId) : Prop :=
  ∃ t, m.types[a]? = some t ∧ ∃ s ∈ t.superTypes, m.resolve? s a = some b

/-- A supertype that is written on a type has `name` as its last segment, whether it means a type of
the model or not. -/
def Writes (m : Model) (a : TypeId) (name : String) : Prop :=
  ∃ t, m.types[a]? = some t ∧ ∃ s ∈ t.superTypes, Text.lastSegment s = name

section Leads

variable {m : Model} {a b : TypeId}

theorem leads_iff : Leads m a b ↔ b ∈ writtenSuperTypes m a := by
  unfold Leads writtenSuperTypes
  cases m.types[a]? with
  | none => simp
  | some t => simp [List.mem_filterMap]

theorem writes_iff {name : String} : Writes m a name ↔ name ∈ writtenSuperNames m a := by
  unfold Writes writtenSuperNames
  cases m.types[a]? with
  | none => simp
  | some t => simp [List.mem_map]

theorem Leads.lt (hi : m.Indexed) (h : Leads m a b) : b < m.types.length := by
  obtain ⟨t, -, s, -, hb⟩ := h
  exact Model.resolve?_lt hi hb

theorem way_iff (hi : m.Indexed) :
    Way m (List.range m.types.length) a b ↔ Relation.ReflTransGen (Leads m) a b := by
  constructor
  · exact Relation.ReflTransGen.mono (fun _ _ hstep => leads_iff.2 hstep.1) a b
  · exact Relation.ReflTransGen.mono
      (fun _ _ hstep => ⟨leads_iff.1 hstep, List.mem_range.2 (hstep.lt hi)⟩) a b

/-- The walk from a type sees exactly the types that it leads to, each once. -/
theorem reachableNames_eq (hi : m.Indexed) {t : TypeDecl} (ht : t ∈ m.types) :
    ∃ seen : List TypeId, seen.Nodup ∧ (∀ x ∈ seen, x < m.types.length) ∧
      (∀ x, x ∈ seen ↔ Relation.ReflTransGen (Leads m) t.id x) ∧
      reachableNames m t = t.name :: seen.flatMap (writtenSuperNames m) := by
  have hrange := List.mem_range.2 (number_lt hi.type_ids ht)
  obtain ⟨seen, hnodup, hseen, heq⟩ := exists_seen m (List.range m.types.length) [t.id]
  refine ⟨seen, hnodup, fun x hx => ?_, fun x => ?_, by rw [reachableNames, heq]⟩
  · obtain ⟨s, -, hs, hway⟩ := (hseen x).1 hx
    exact List.mem_range.1 (hway.mem hs)
  · rw [hseen, ← way_iff hi]
    constructor
    · rintro ⟨s, hs, -, hway⟩
      rwa [List.mem_singleton.1 hs] at hway
    · exact fun hway => ⟨t.id, List.mem_singleton_self _, hrange, hway⟩

theorem mem_reachableNames (hi : m.Indexed) {t : TypeDecl} (ht : t ∈ m.types) {name : String} :
    name ∈ reachableNames m t ↔
      t.name = name ∨
        ∃ above, Relation.ReflTransGen (Leads m) t.id above ∧ Writes m above name := by
  obtain ⟨seen, -, -, hseen, heq⟩ := reachableNames_eq hi ht
  rw [heq, List.mem_cons, List.mem_flatMap, eq_comm]
  simp only [hseen, writes_iff]

end Leads

/-! ## The implementers of a name -/

/-- Where the classes have different numbers, none of them is found under a name before it is
entered, and the classes under a name are those of which it is a name, in their order. -/
theorem reachedBy_foldl (m : Model) (name : String) {ts : List TypeDecl}
    (hts : (ts.map (·.id)).Nodup) {index : Implementers}
    (hnew : ∀ t ∈ ts, t.id ∉ index.reachedBy name) :
    (ts.foldl (Implementers.add m) index).reachedBy name =
      index.reachedBy name ++
        (ts.filter fun t => (reachableNames m t).contains name).map (·.id) := by
  induction ts generalizing index with
  | nil => simp
  | cons t ts ih =>
    obtain ⟨hout, hts⟩ := List.nodup_cons.1 hts
    have hself : t.id ∉ index.reachedBy name := hnew t List.mem_cons_self
    have hadd := Implementers.reachedBy_add m index t name
    rw [List.foldl_cons, ih hts, hadd, List.append_assoc, List.filter_cons]
    · by_cases hname : name ∈ reachableNames m t <;> simp [hname, hself]
    · intro s hs
      have hne : s.id ≠ t.id := fun heq => hout (List.mem_map.2 ⟨s, hs, heq⟩)
      rw [hadd, List.mem_append, not_or]
      refine ⟨hnew s (List.mem_cons_of_mem _ hs), ?_⟩
      split
      · exact fun hmem => hne (List.mem_singleton.1 hmem)
      · exact List.not_mem_nil

theorem reachedBy_eq {m : Model} (hi : m.Indexed) (policy : Policy) (name : String) :
    (Implementers.ofModel m policy).reachedBy name =
      (m.types.filter fun t => policy.isImplementer t && (reachableNames m t).contains name).map
        (·.id) := by
  have hids : ((m.types.filter policy.isImplementer).map (·.id)).Nodup := by
    refine List.Nodup.sublist (List.filter_sublist.map _) ?_
    rw [hi.type_ids]
    exact List.nodup_range
  have hempty : (⟨[]⟩ : Implementers).reachedBy name = [] := rfl
  rw [Implementers.ofModel, reachedBy_foldl m name hids fun _ _ => List.not_mem_nil, hempty,
    List.nil_append, List.filter_filter]
  simp only [Bool.and_comm]

/-- **The implementers of a name are found exactly.** Looking for the names of a type ends on every
hierarchy, because each type that it leads to is seen once. The implementers of a name are listed in
increasing order, and they are the classes that bear the name themselves or lead, by supertypes that
resolve, to a type on which a supertype with that last segment is written. -/
theorem implementers_exact {m : Model} (h : m.Reached SourceUnit.Shaped) (policy : Policy) :
    (∀ t ∈ m.types, ∃ seen : List TypeId, seen.Nodup ∧ (∀ x ∈ seen, x < m.types.length) ∧
      (∀ x, x ∈ seen ↔ Relation.ReflTransGen (Leads m) t.id x) ∧
      reachableNames m t = t.name :: seen.flatMap (writtenSuperNames m)) ∧
    ∀ name : String,
      let found := (Implementers.ofModel m policy).reachedBy name
      found.Pairwise (· < ·) ∧
      ∀ id, id ∈ found ↔ ∃ t, m.types[id]? = some t ∧ policy.isImplementer t = true ∧
        (t.name = name ∨
          ∃ above, Relation.ReflTransGen (Leads m) id above ∧ Writes m above name) := by
  have hi := h.arena.toIndexed
  refine ⟨fun t ht => reachableNames_eq hi ht, fun name => ?_⟩
  intro found
  constructor
  · have hsub : found.Sublist (List.range m.types.length) := by
      have hfound : found = _ := reachedBy_eq hi policy name
      rw [hfound, ← hi.type_ids]
      exact List.filter_sublist.map _
    exact List.pairwise_lt_range.sublist hsub
  · intro id
    refine Implementers.mem_reachedBy.trans ⟨?_, ?_⟩
    · rintro ⟨t, ht, himpl, hname, rfl⟩
      exact ⟨t, getElem?_number hi.type_ids ht, himpl, (mem_reachableNames hi ht).1 hname⟩
    · rintro ⟨t, ht, himpl, hname⟩
      have hmem := List.mem_of_getElem? ht
      obtain rfl : t.id = id := number_eq hi.type_ids ht
      exact ⟨t, hmem, himpl, (mem_reachableNames hi hmem).2 hname, rfl⟩

/-- Two classes with each other as superclass, one of which has a supertype outside of the model,
and an interface above them. -/
def Sample.ring : SourceUnit where
  info := ⟨⟨"a/Ring.java"⟩, some "a", [], []⟩
  types := [
    { Sample.type 0 "Left" [] with superclass := some "Right", interfaces := [] },
    { Sample.type 1 "Right" [] with
      superclass := some "Left", interfaces := ["Plan", "java.lang.Runnable"] },
    { Sample.type 2 "Plan" [] with kind := .interface, interfaces := ["Left"] }]
  methods := []
  calls := []

/-- Both classes are found under a name that is written on only one of them, and the interface is
not. -/
theorem implementers_exact_ring :
    let m := ((Edit.addUnit Sample.ring false).run.run .empty).2
    let index := Implementers.ofModel m .builtIn
    m.Reached SourceUnit.Shaped ∧ Leads m 0 1 ∧ Leads m 1 0 ∧ Leads m 2 0 ∧
    Writes m 1 "Runnable" ∧ ¬ Writes m 0 "Runnable" ∧
    0 ∈ index.reachedBy "Runnable" ∧ 1 ∈ index.reachedBy "Runnable" ∧
    2 ∉ index.reachedBy "Runnable" ∧ (index.reachedBy "Runnable").Pairwise (· < ·) := by
  intro m index
  have hshaped : Sample.ring.Shaped := by
    constructor
    · constructor <;> decide
    all_goals decide
  have hreached : m.Reached SourceUnit.Shaped := .add false .empty hshaped
  obtain ⟨-, hnames⟩ := implementers_exact hreached .builtIn
  obtain ⟨hsorted, hmem⟩ := hnames "Runnable"
  have hleft : Leads m 0 1 := leads_iff.2 (by decide +kernel)
  have hright : Leads m 1 0 := leads_iff.2 (by decide +kernel)
  have hplan : Leads m 2 0 := leads_iff.2 (by decide +kernel)
  have hwrites : Writes m 1 "Runnable" := writes_iff.2 (by decide +kernel)
  have hfree : ¬ Writes m 0 "Runnable" := fun hw => absurd (writes_iff.1 hw) (by decide +kernel)
  have hkinds : m.types.map Policy.builtIn.isImplementer = [true, true, false] := by decide +kernel
  have hkind : ∀ id : Nat,
      m.types[id]?.map Policy.builtIn.isImplementer = [true, true, false][id]? := by
    intro id
    rw [← hkinds, List.getElem?_map]
  obtain ⟨zero, hzero, himpl⟩ := Option.map_eq_some_iff.1 (hkind 0)
  obtain ⟨one, hone, himpl'⟩ := Option.map_eq_some_iff.1 (hkind 1)
  refine ⟨hreached, hleft, hright, hplan, hwrites, hfree, ?_, ?_, fun hin => ?_, hsorted⟩
  · exact (hmem 0).2 ⟨zero, hzero, himpl, .inr ⟨1, .single hleft, hwrites⟩⟩
  · exact (hmem 1).2 ⟨one, hone, himpl', .inr ⟨1, .refl, hwrites⟩⟩
  · obtain ⟨t, ht, himpl, -⟩ := (hmem 2).1 hin
    have htwo := hkind 2
    rw [ht, Option.map_some, himpl] at htwo
    cases htwo

end Deadwood.Usage
