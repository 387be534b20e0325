import Deadwood.Proofs.Code.Nesting
import Deadwood.Usage.ClassUse

/-!
# Mentions of classes

The class scan goes by mentions: a type name that is written in one type and resolves to another
one. Mentions from inside the type do not count as use but are listed with the finding. Here the
scan's answers are put in terms of `Mentions` and of the nesting of types: what it means for a type
to be used (`ClassUse.isUsed_iff`), and what the finding for an unused type says (`Describes`).
-/

namespace Deadwood

namespace Usage

open Code

/-- The type `s` mentions the type with the number `target`. -/
def Mentions (m : Model) (s : TypeDecl) (target : TypeId) : Prop :=
  ∃ name ∈ s.typeRefs, m.resolve? name s.id = some target

/-! ## What the scan knows of a type -/

namespace ClassUse

variable {m : Model} {policy : Policy} {id : TypeId}

theorem mem_mentioning {source : TypeId} :
    source ∈ (ofModel m policy).mentioning id ↔
      ∃ s ∈ m.types, s.id = source ∧ Mentions m s id ∧ s.id ≠ id := by
  have hmentioned : ∀ s : TypeDecl, id ∈ mentionedBy m s ↔ Mentions m s id ∧ s.id ≠ id := by
    intro s
    rw [mentionedBy, List.mem_filter, List.mem_filterMap, bne_iff_ne]
    exact and_congr_right fun _ => ne_comm
  simp only [mentioning, ofModel, List.mem_map, List.mem_filter, List.mem_flatMap, beq_iff_eq]
  constructor
  · rintro ⟨⟨_, _⟩, ⟨⟨s, hs, target, htarget, ⟨⟩⟩, rfl⟩, rfl⟩
    exact ⟨s, hs, rfl, (hmentioned s).1 htarget⟩
  · rintro ⟨s, hs, rfl, hid⟩
    exact ⟨(s.id, id), ⟨⟨s, hs, id, (hmentioned s).2 hid, rfl⟩, rfl⟩, rfl⟩

theorem isUsed_iff (hm : m.Arena) :
    (ofModel m policy).isUsed id = true ↔
      ∃ s ∈ m.types, Mentions m s id ∧ s.id ≠ id ∧ ¬ m.Inside s.id id := by
  rw [isUsed, List.any_eq_true]
  constructor
  · rintro ⟨source, hsource, hout⟩
    obtain ⟨s, hs, rfl, hmention, hne⟩ := mem_mentioning.1 hsource
    refine ⟨s, hs, hmention, hne, fun hin => ?_⟩
    have hnested : m.isNestedIn s.id id = true := (Model.isNestedIn_iff hm).2 (Or.inr hin)
    rw [Bool.not_eq_true'] at hout
    exact Bool.false_ne_true (hout.symm.trans hnested)
  · rintro ⟨s, hs, hmention, hne, hout⟩
    refine ⟨s.id, mem_mentioning.2 ⟨s, hs, rfl, hmention, hne⟩, ?_⟩
    rw [Bool.not_eq_true', ← Bool.not_eq_true]
    intro hnested
    rcases (Model.isNestedIn_iff hm).1 hnested with heq | hin
    · exact hne heq.symm
    · exact hout hin

theorem mem_referencing (hm : m.Arena) {name : String} :
    name ∈ (ofModel m policy).referencing id ↔
      ∃ s ∈ m.types, Mentions m s id ∧ s.id ≠ id ∧ s.qualifiedName = name := by
  rw [referencing, mem_sortedSet, List.mem_filterMap]
  constructor
  · rintro ⟨source, hsource, hname⟩
    obtain ⟨s, hs, rfl, hmention, hne⟩ := mem_mentioning.1 hsource
    have hself : m.types[s.id]? = some s := getElem?_number hm.type_ids hs
    obtain ⟨t, ht, rfl⟩ := Option.map_eq_some_iff.1 hname
    cases hself.symm.trans ht
    exact ⟨s, hs, hmention, hne, rfl⟩
  · rintro ⟨s, hs, hmention, hne, rfl⟩
    refine ⟨s.id, mem_mentioning.2 ⟨s, hs, rfl, hmention, hne⟩, ?_⟩
    have hself : m.types[s.id]? = some s := getElem?_number hm.type_ids hs
    exact Option.map_eq_some_iff.2 ⟨s, hself, rfl⟩

/-- For a type that is not used, only types inside it mention it. -/
theorem mem_referencing_of_unused (hm : m.Arena) (hunused : (ofModel m policy).isUsed id = false)
    (name : String) :
    name ∈ (ofModel m policy).referencing id ↔
      ∃ s ∈ m.types, m.Inside s.id id ∧ Mentions m s id ∧ s.qualifiedName = name := by
  rw [mem_referencing hm]
  constructor
  · rintro ⟨s, hs, hmention, hne, hname⟩
    refine ⟨s, hs, by_contra fun hout => ?_, hmention, hname⟩
    have hused : (ofModel m policy).isUsed id = true :=
      (isUsed_iff hm).2 ⟨s, hs, hmention, hne, hout⟩
    exact Bool.false_ne_true (hunused.symm.trans hused)
  · rintro ⟨s, hs, hin, hmention, hname⟩
    exact ⟨s, hs, hmention, Nat.ne_of_gt (hin.lt hm), hname⟩

end ClassUse

/-! ## Findings -/

theorem foldl_append_name (names : List String) (f : ClassFinding) :
    (names.foldl (·.append ·) f).name = f.name ∧
      (names.foldl (·.append ·) f).location = f.location := by
  induction names generalizing f with
  | nil => exact ⟨rfl, rfl⟩
  | cons name names ih => exact ih (f.append name)

theorem foldl_append_referencedBy (names : List String) (f : ClassFinding) :
    (names.foldl (·.append ·) f).referencedBy =
      if names = [] then f.referencedBy
      else some (names.foldl (fun set x => insertSorted x set) (f.referencedBy.getD [])) := by
  induction names generalizing f with
  | nil => rfl
  | cons name names ih =>
    rw [List.foldl_cons, ih, if_neg (List.cons_ne_nil _ _), List.foldl_cons]
    split
    · next hnil => rw [hnil]; rfl
    · rfl

/-- Names that are added to a finding without any make a set of exactly these names. -/
theorem mem_foldl_append {names set : List String} {f : ClassFinding} (hf : f.referencedBy = none)
    (hset : set ∈ (names.foldl (·.append ·) f).referencedBy) :
    set.Pairwise (· < ·) ∧ ∀ name, name ∈ set ↔ name ∈ names := by
  rw [foldl_append_referencedBy, hf] at hset
  split at hset
  · cases hset
  · cases hset
    refine ⟨pairwise_foldl_insertSorted String.lt_trans Std.lt_trichotomy .nil, fun name => ?_⟩
    rw [Option.getD_none, mem_foldl_insertSorted]
    exact or_iff_right List.not_mem_nil

/-- What the finding for the type with the number `id` says: its name and place, and as mentions,
if there are any, exactly the names of the types inside it that mention it. Each of these continues
the name of the type. -/
structure Describes (m : Model) (id : TypeId) (f : ClassFinding) : Prop where
  declared : ∃ t, m.types[id]? = some t ∧ f.name = t.qualifiedName ∧ f.location = some t.location
  absent : f.referencedBy = none ↔ ∀ s ∈ m.types, m.Inside s.id id → ¬ Mentions m s id
  ordered : ∀ names ∈ f.referencedBy, names.Pairwise (· < ·)
  exactly : ∀ names ∈ f.referencedBy, ∀ name, name ∈ names ↔
    ∃ s ∈ m.types, m.Inside s.id id ∧ Mentions m s id ∧ s.qualifiedName = name
  inside : ∀ names ∈ f.referencedBy, ∀ name ∈ names, ∃ rest, name = Text.joinDot f.name rest

namespace ClassUse

variable {m : Model} {policy : Policy} {id : TypeId}

theorem finding?_eq {t : TypeDecl} (ht : m.types[id]? = some t) :
    (ofModel m policy).finding? id = some (((ofModel m policy).referencing id).foldl (·.append ·)
      ((ClassFinding.of t.qualifiedName).located t.location)) := by
  change m.types[id]?.map _ = _
  rw [ht]
  rfl

theorem getElem?_of_finding? {f : ClassFinding} (hf : (ofModel m policy).finding? id = some f) :
    (m.types.map (·.qualifiedName))[id]? = some f.name := by
  obtain ⟨t, ht, rfl⟩ := Option.map_eq_some_iff.1 hf
  change m.types[id]? = some t at ht
  rw [List.getElem?_map, ht, (foldl_append_name _ _).1]
  rfl

theorem describes_finding (hm : m.Arena) (hscoped : m.ScopedNames) (hid : id < m.types.length)
    (hunused : (ofModel m policy).isUsed id = false) :
    ∃ f, (ofModel m policy).finding? id = some f ∧ Describes m id f := by
  have ht := List.getElem?_eq_getElem hid
  have hmem := mem_referencing_of_unused hm hunused
  refine ⟨_, finding?_eq ht, ?_⟩
  obtain ⟨hname, hlocation⟩ := foldl_append_name ((ofModel m policy).referencing id)
    ((ClassFinding.of m.types[id].qualifiedName).located m.types[id].location)
  refine ⟨⟨_, ht, hname, hlocation⟩, ?_, ?_, ?_, ?_⟩
  · rw [foldl_append_referencedBy]
    split
    · next hnil =>
      refine ⟨fun _ s hs hin hmention => ?_, fun _ => rfl⟩
      have hlisted := (hmem s.qualifiedName).2 ⟨s, hs, hin, hmention, rfl⟩
      rw [hnil] at hlisted
      cases hlisted
    · next hne =>
      refine ⟨fun hnone => absurd hnone (Option.some_ne_none _), fun hfree => ?_⟩
      obtain ⟨name, hlisted⟩ := List.exists_mem_of_ne_nil _ hne
      obtain ⟨s, hs, hin, hmention, -⟩ := (hmem name).1 hlisted
      exact absurd hmention (hfree s hs hin)
  · exact fun set hset => (mem_foldl_append rfl hset).1
  · exact fun set hset name => ((mem_foldl_append rfl hset).2 name).trans (hmem name)
  · intro set hset name hlisted
    obtain ⟨s, hs, hin, -, rfl⟩ := (hmem name).1 (((mem_foldl_append rfl hset).2 name).1 hlisted)
    rw [hname]
    exact hin.qualifiedName hscoped (getElem?_number hm.type_ids hs) ht

/-- The findings of a batch describe its unused types, one for each and in their order. -/
theorem describes_unusedIn (hm : m.Arena) (hscoped : m.ScopedNames) {batch : List TypeId}
    (hbatch : ∀ id ∈ batch, id < m.types.length) :
    List.Forall₂ (Describes m) (batch.filter fun id => !(ofModel m policy).isUsed id)
      ((ofModel m policy).unusedIn batch) := by
  induction batch with
  | nil => exact .nil
  | cons id batch ih =>
    have hrest := ih fun x hx => hbatch x (List.mem_cons_of_mem _ hx)
    rw [unusedIn, List.filter_cons]
    split
    · next hunused =>
      obtain ⟨f, hf, hdescribes⟩ := describes_finding hm hscoped
        (hbatch id List.mem_cons_self) (by simpa using hunused)
      rw [List.filterMap_cons, hf]
      exact .cons hdescribes hrest
    · exact hrest

end ClassUse

/-- **The class scan is exact.** Whatever files were added, a type is used just if another type
mentions it that is not inside it. Each unused type of a batch has one finding, which lists exactly
the types inside it that mention it, if there are any. -/
theorem classUse_exact {m : Model} (h : m.Reached fun u => u.Shaped ∧ u.ScopedNames)
    (policy : Policy) :
    let use := ClassUse.ofModel m policy
    (∀ t ∈ m.types, use.isUsed t.id = true ↔
      ∃ s ∈ m.types, Mentions m s t.id ∧ s.id ≠ t.id ∧ ¬ m.Inside s.id t.id) ∧
    ∀ batch : List TypeId, (∀ id ∈ batch, id < m.types.length) →
      List.Forall₂ (Describes m) (batch.filter fun id => !use.isUsed id) (use.unusedIn batch) := by
  have hm : m.Arena := (h.mono fun _ hu => hu.1).arena
  have hscoped : m.ScopedNames := h.scopedNames fun _ hu => hu.2
  exact ⟨fun t _ => ClassUse.isUsed_iff hm, fun _ => ClassUse.describes_unusedIn hm hscoped⟩

/-- A class in which two nested classes mention it, the inner one of them also the outer one. -/
def Sample.tree : SourceUnit where
  info := ⟨⟨"a/Tree.java"⟩, some "a", [], []⟩
  types := [
    { Sample.type 0 "Tree" [] with interfaces := [], typeRefs := ["Node", "Tree"] },
    { Sample.type 1 "Node" [] with
      qualifiedName := "a.Tree.Node", enclosing := some 0, interfaces := [], typeRefs := ["Tree"] },
    { Sample.type 2 "Leaf" [] with
      qualifiedName := "a.Tree.Node.Leaf", enclosing := some 1, interfaces := []
      typeRefs := ["Node", "Tree"] }]
  methods := []
  calls := []

theorem Sample.tree_shaped : Sample.tree.Shaped := by
  constructor
  · constructor <;> decide
  all_goals decide

/-- The class `Node` is used, by the class around it. The classes `Tree` and `Leaf` are not; the
finding for `Tree` lists the two classes inside it. -/
theorem classUse_exact_sample :
    let m := ((Edit.addUnit Sample.tree false).run.run .empty).2
    let use := ClassUse.ofModel m .builtIn
    (m.Reached fun u => u.Shaped ∧ u.ScopedNames) ∧ use.isUsed 1 = true ∧
    ∃ tree leaf, use.unusedIn [0, 1, 2] = [tree, leaf] ∧
      Describes m 0 tree ∧ tree.referencedBy = some ["a.Tree.Node", "a.Tree.Node.Leaf"] ∧
      Describes m 2 leaf ∧ leaf.referencedBy = none := by
  intro m use
  have hscoped : Sample.tree.ScopedNames := by
    unfold SourceUnit.ScopedNames
    decide +kernel
  have hreached : m.Reached fun u => u.Shaped ∧ u.ScopedNames :=
    .add false .empty ⟨Sample.tree_shaped, hscoped⟩
  obtain ⟨-, hfindings⟩ := classUse_exact hreached .builtIn
  have hnode : use.isUsed 1 = true := by decide +kernel
  have hunused : ([0, 1, 2].filter fun id => !use.isUsed id) = [0, 2] := by decide +kernel
  have hdescribes := hfindings [0, 1, 2] (by decide +kernel)
  rw [hunused] at hdescribes
  have hlists : (use.unusedIn [0, 1, 2]).map (·.referencedBy) =
      [some ["a.Tree.Node", "a.Tree.Node.Leaf"], none] := by decide +kernel
  obtain ⟨tree, rest, htree, hrest, hall⟩ := List.forall₂_cons_left_iff.1 hdescribes
  obtain ⟨leaf, others, hleaf, hothers, rfl⟩ := List.forall₂_cons_left_iff.1 hrest
  cases List.forall₂_nil_left_iff.1 hothers
  rw [hall] at hlists
  obtain ⟨htreeList, hleafList⟩ := List.cons.inj hlists
  exact ⟨hreached, hnode, tree, leaf, hall, htree, htreeList, hleaf, (List.cons.inj hleafList).1⟩

end Usage

end Deadwood
