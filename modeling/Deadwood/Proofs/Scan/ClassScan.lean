import Deadwood.Proofs.Code.FileOrder
import Deadwood.Proofs.Scan.FindingOrder
import Deadwood.Proofs.Usage.ClassMentions
import Mathlib.Data.List.Sort

/-!
# The class scan and the order of files

In models that correspond, types are nested alike and mention each other alike. So a type is used in
both or in neither, and the findings for it are the same (`finding?_renumber`): a finding has names
and places but no numbers. The findings of the two models are then the same up to their order, which
sorting removes (`classFindings_eq`).
-/

namespace Deadwood

/-! ## Nesting in models that correspond -/

namespace Code.Model.Corresponds

variable {r : Renumbering} {m m' : Model} (h : Corresponds r m m')

include h

theorem exists_mem_types {p : TypeDecl → Prop} :
    (∃ t ∈ m'.types, p t) ↔ ∃ t ∈ m.types, p (t.renumber r) := by
  constructor
  · rintro ⟨t', ht', hp⟩
    obtain ⟨t, ht, rfl⟩ := List.mem_map.1 (h.types.perm.mem_iff.1 ht')
    exact ⟨t, ht, hp⟩
  · rintro ⟨t, ht, hp⟩
    exact ⟨_, h.types.perm.mem_iff.2 (List.mem_map_of_mem ht), hp⟩

theorem type_eq_iff {a b : Nat} (ha : a < m.types.length) (hb : b < m.types.length) :
    r.type a = r.type b ↔ a = b :=
  ⟨h.types.inj a ha b hb, congrArg r.type⟩

theorem map_eq_some_iff {o : Option TypeId} {a : Nat} (ho : ∀ x ∈ o, x < m.types.length)
    (ha : a < m.types.length) : o.map r.type = some (r.type a) ↔ o = some a := by
  cases o with
  | none => simp
  | some x => rw [Option.map_some, Option.some_inj, Option.some_inj, h.type_eq_iff (ho x rfl) ha]

theorem declaredIn {a b : TypeId} (hab : m.DeclaredIn a b) :
    m'.DeclaredIn (r.type a) (r.type b) := by
  obtain ⟨t, ht, he⟩ := hab
  exact ⟨t.renumber r, h.types.getElem? a t ht, congrArg (Option.map r.type) he⟩

theorem exists_declaredIn {a b' : Nat} (ha : a < m.types.length)
    (hab : m'.DeclaredIn (r.type a) b') : ∃ b, r.type b = b' ∧ m.DeclaredIn a b := by
  obtain ⟨t', ht', he'⟩ := hab
  have ht := List.getElem?_eq_getElem ha
  cases (h.types.getElem? a _ ht).symm.trans ht'
  obtain ⟨b, hb, rfl⟩ := Option.map_eq_some_iff.1 he'
  exact ⟨b, rfl, _, ht, hb⟩

/-- Types lie inside each other in one model exactly if they do so in the other. -/
theorem inside_iff (hm : m.Arena) {a b : Nat} (ha : a < m.types.length)
    (hb : b < m.types.length) : m'.Inside (r.type a) (r.type b) ↔ m.Inside a b := by
  -- Every type around a carried type is carried itself, so a chain outwards can be taken back.
  have hback : ∀ b', m'.Inside (r.type a) b' →
      ∃ b, r.type b = b' ∧ b < m.types.length ∧ m.Inside a b := by
    intro b' hab
    induction hab with
    | single hab =>
      obtain ⟨b, hb, hab⟩ := h.exists_declaredIn ha hab
      exact ⟨b, hb, hab.lt_length hm, .single hab⟩
    | tail _ hbc ih =>
      obtain ⟨b, rfl, hb, hab⟩ := ih
      obtain ⟨c, hc, hbc⟩ := h.exists_declaredIn hb hbc
      exact ⟨c, hc, hbc.lt_length hm, hab.tail hbc⟩
  constructor
  · intro hab
    obtain ⟨c, hc, hlt, hac⟩ := hback _ hab
    rwa [(h.type_eq_iff hlt hb).1 hc] at hac
  · intro hab
    exact Relation.TransGen.lift r.type (fun _ _ => h.declaredIn) _ _ hab

end Code.Model.Corresponds

/-! ## Findings of models that correspond -/

namespace Usage

open Code Model

variable {r : Renumbering} {m m' : Model} (h : Corresponds r m m') (hm : m.Arena)
  (hm' : m'.Arena) {policy : Policy} {id : Nat} (hid : id < m.types.length)

include h hm hid

/-- A type mentions another under the new numbers exactly if it does so under the old ones. -/
theorem mentions_renumber {s : TypeDecl} (hs : s ∈ m.types) :
    Mentions m' (s.renumber r) (r.type id) ↔ Mentions m s id := by
  refine exists_congr fun name => and_congr_right fun _ => ?_
  have hlt := number_lt hm.type_ids hs
  change m'.resolve? name (r.type s.id) = some (r.type id) ↔ _
  rw [h.resolve? name s.id hlt]
  exact h.map_eq_some_iff (fun x hx => resolve?_lt hm.toIndexed hx) hid

include hm'

/-- Whether a class is used does not depend on its number. -/
theorem isUsed_renumber :
    (ClassUse.ofModel m' policy).isUsed (r.type id) = (ClassUse.ofModel m policy).isUsed id := by
  rw [Bool.eq_iff_iff, ClassUse.isUsed_iff hm, ClassUse.isUsed_iff hm', h.exists_mem_types]
  refine exists_congr fun s => and_congr_right fun hs => ?_
  have hlt := number_lt hm.type_ids hs
  exact and_congr (mentions_renumber h hm hid hs)
    (and_congr (not_congr (h.type_eq_iff hlt hid)) (not_congr (h.inside_iff hm hlt hid)))

theorem referencing_renumber :
    (ClassUse.ofModel m' policy).referencing (r.type id) =
      (ClassUse.ofModel m policy).referencing id := by
  have hsorted : ∀ names : List String,
      (names.foldl (fun set x => insertSorted x set) []).Pairwise (· < ·) := fun _ =>
    pairwise_foldl_insertSorted String.lt_trans Std.lt_trichotomy .nil
  refine List.Pairwise.eq_of_mem_iff (hsorted _) (hsorted _) fun name => ?_
  rw [ClassUse.mem_referencing hm, ClassUse.mem_referencing hm', h.exists_mem_types]
  refine exists_congr fun s => and_congr_right fun hs => ?_
  have hlt := number_lt hm.type_ids hs
  exact and_congr (mentions_renumber h hm hid hs)
    (and_congr (not_congr (h.type_eq_iff hlt hid)) Iff.rfl)

/-- Neither does what is reported of it: findings show names and places, no numbers. -/
theorem finding?_renumber :
    (ClassUse.ofModel m' policy).finding? (r.type id) =
      (ClassUse.ofModel m policy).finding? id := by
  have ht := List.getElem?_eq_getElem hid
  rw [ClassUse.finding?_eq ht, ClassUse.finding?_eq (h.types.getElem? id _ ht),
    referencing_renumber h hm hm' hid]
  rfl

omit hid

theorem unusedIn_renumber {batch : List TypeId} (hbatch : ∀ id ∈ batch, id < m.types.length) :
    (ClassUse.ofModel m' policy).unusedIn (batch.map r.type) =
      (ClassUse.ofModel m policy).unusedIn batch := by
  have hunused : (batch.map r.type).filter (fun id => !(ClassUse.ofModel m' policy).isUsed id) =
      (batch.filter fun id => !(ClassUse.ofModel m policy).isUsed id).map r.type := by
    rw [List.filter_map]
    refine congrArg (List.map r.type) (List.filter_congr fun id hid => ?_)
    rw [Function.comp_apply, isUsed_renumber h hm hm' (hbatch id hid)]
  rw [ClassUse.unusedIn, ClassUse.unusedIn, hunused, List.filterMap_map]
  refine List.filterMap_congr fun id hid => ?_
  exact finding?_renumber h hm hm' (hbatch id (List.mem_filter.1 hid).1)

omit hm hm'

/-- The candidates are the same, in an order of their own. -/
theorem candidates_renumber :
    (ClassUse.ofModel m' policy).candidates.Perm
      ((ClassUse.ofModel m policy).candidates.map r.type) := by
  have hperm := (h.types.perm.filter policy.isCandidate).map (·.id)
  rw [List.filter_map, List.map_map] at hperm
  have hsame : (ClassUse.ofModel m policy).candidates.map r.type =
      (m.types.filter policy.isCandidate).map (r.type ∘ (·.id)) := List.map_map
  rw [hsame]
  exact hperm

end Usage

/-! ## The report -/

namespace Scan

open Code Model Usage

/-- The findings of the class scan, in the order of the report. -/
def classFindings (m : Model) (policy : Policy) : List ClassFinding :=
  let use := ClassUse.ofModel m policy
  sortFindings (use.unusedIn use.candidates)

/-- With distinct names no two findings tie, so that sorting undoes the change of order. -/
theorem classFindings_eq {r : Renumbering} {m m' : Model} (h : Corresponds r m m') (hm : m.Arena)
    (hm' : m'.Arena) (hdistinct : (m.types.map (·.qualifiedName)).Nodup) (policy : Policy) :
    classFindings m' policy = classFindings m policy := by
  have hlt : ∀ id ∈ (ClassUse.ofModel m policy).candidates, id < m.types.length := by
    intro id hid
    obtain ⟨t, ht, rfl⟩ := List.mem_map.1 hid
    exact number_lt hm.type_ids (List.mem_filter.1 ht).1
  have hperm : ((ClassUse.ofModel m policy).unusedIn (ClassUse.ofModel m policy).candidates).Perm
      ((ClassUse.ofModel m' policy).unusedIn (ClassUse.ofModel m' policy).candidates) := by
    rw [← unusedIn_renumber h hm hm' hlt]
    exact ((candidates_renumber h).symm.filter _).filterMap _
  refine (sortFindings_eq_of_perm hperm fun f hf g hg hname => ?_).symm
  -- Types with distinct names have findings with distinct names.
  obtain ⟨a, -, hfa⟩ := List.mem_filterMap.1 hf
  obtain ⟨b, -, hgb⟩ := List.mem_filterMap.1 hg
  have hfa' := ClassUse.getElem?_of_finding? hfa
  have hgb' := ClassUse.getElem?_of_finding? hgb
  rw [← hname, ← hfa'] at hgb'
  have hab := (List.getElem?_inj (List.getElem?_eq_some_iff.1 hfa').1 hdistinct).1 hgb'.symm
  rw [hab, hgb] at hfa
  exact (Option.some_inj.1 hfa).symm

/-- **The class scan does not depend on the order of the files.** Files whose types have distinct
qualified names can be added in any order, strictly or tolerantly. The bound models correspond, each
number having moved with its file, and the reports are the same. -/
theorem classScan_order_independent {us : List SourceUnit} (hus : ∀ u ∈ us, u.Shaped)
    (hdistinct : (declaredNames us).Nodup) (σ : Equiv.Perm (Fin us.length))
    (allow allow' : Bool) (policy : Policy) :
    ∃ m m', Model.empty.addUnits allow us = .ok m ∧
      Model.empty.addUnits allow' (reorder us σ) = .ok m' ∧
      Corresponds (.ofPlaces us (reorder us σ) (placeIn σ)) m.bindCalls m'.bindCalls ∧
      classFindings m'.bindCalls policy = classFindings m.bindCalls policy := by
  have hcarries := carries_reorder us σ
  have hus' := shaped_of_carries hcarries hus
  have hcorresponds := Corresponds.ofPlaces hcarries hus hdistinct
  have hnames := map_qualifiedName_ofUnits us
  have hdistinct' : (declaredNames (reorder us σ)).Nodup := by
    rw [← map_qualifiedName_ofUnits]
    refine (perm_map_types hcorresponds.types (·.qualifiedName) fun _ => rfl).nodup_iff.2 ?_
    exact hnames ▸ hdistinct
  refine ⟨ofUnits us, ofUnits (reorder us σ), addUnits_ofUnits hus hdistinct allow,
    addUnits_ofUnits hus' hdistinct' allow', hcorresponds, ?_⟩
  exact classFindings_eq hcorresponds (arena_ofUnits hus).bindCalls (arena_ofUnits hus').bindCalls
    (hnames ▸ hdistinct) policy

/-- A class in another package that implements the interface of the sample file and mentions types
of two other files. -/
def Sample.circles : SourceUnit where
  info := ⟨⟨"b/Circle.java"⟩, some "b", [], []⟩
  types := [
    { Code.Sample.type 0 "Circle" [0] with
      qualifiedName := "b.Circle", typeRefs := ["a.Shape", "a.Tree"] }]
  methods := [Code.Sample.method 0 0]
  calls := []

/-- With the first and the last file exchanged, the method of the interface has another number, so
the call through it is bound to that. -/
theorem classScan_order_independent_sample :
    let us := [Code.Sample.shapes, Usage.Sample.tree, Sample.circles]
    let σ : Equiv.Perm (Fin us.length) := Equiv.swap ⟨0, by decide⟩ ⟨2, by decide⟩
    (∀ u ∈ us, u.Shaped) ∧ (declaredNames us).Nodup ∧
    reorder us σ = [Sample.circles, Usage.Sample.tree, Code.Sample.shapes] ∧
    ∃ m m', Model.empty.addUnits false us = .ok m ∧
      Model.empty.addUnits false (reorder us σ) = .ok m' ∧
      Corresponds (.ofPlaces us (reorder us σ) (placeIn σ)) m.bindCalls m'.bindCalls ∧
      m.bindCalls.calls.map (·.binding) = [some 0] ∧
      m'.bindCalls.calls.map (·.binding) = [some 1] ∧
      classFindings m'.bindCalls .builtIn = classFindings m.bindCalls .builtIn ∧
      (classFindings m.bindCalls .builtIn).map (·.name) =
        ["a.Square", "a.Square.Corner", "a.Tree.Node.Leaf", "b.Circle"] := by
  intro us σ
  have hcircles : Sample.circles.Shaped := by
    constructor
    · constructor <;> decide
    all_goals decide
  have hus : ∀ u ∈ us, u.Shaped := by
    simpa [us] using ⟨Code.Sample.shapes_shaped, Usage.Sample.tree_shaped, hcircles⟩
  have hdistinct : (declaredNames us).Nodup := by decide +kernel
  have hreorder : reorder us σ = [Sample.circles, Usage.Sample.tree, Code.Sample.shapes] := by
    rfl
  obtain ⟨m, m', hm, hm', hcorresponds, hreport⟩ :=
    classScan_order_independent hus hdistinct σ false false .builtIn
  cases (addUnits_ofUnits hus hdistinct false).symm.trans hm
  refine ⟨hus, hdistinct, hreorder, _, m', hm, hm', hcorresponds, by decide +kernel, ?_, hreport,
    ?_⟩
  · have hus' : ∀ u ∈ [Sample.circles, Usage.Sample.tree, Code.Sample.shapes], u.Shaped := by
      simpa using ⟨hcircles, Usage.Sample.tree_shaped, Code.Sample.shapes_shaped⟩
    rw [hreorder] at hm'
    cases (addUnits_ofUnits hus' (by decide +kernel) false).symm.trans hm'
    decide +kernel
  · have hsorted : classFindings (ofUnits us).bindCalls .builtIn = ClassUse.unusedIn
        (.ofModel (ofUnits us).bindCalls .builtIn) [0, 1, 2, 3, 4, 5, 6] :=
      List.mergeSort_of_pairwise (by decide +kernel)
    rw [hsorted]
    decide +kernel

end Scan

end Deadwood
