import Deadwood.Proofs.Scan.Degradation

/-!
# What becomes of every method

A method is used, or it is excluded, or it has one finding in the ranking: `rank_partition` follows
the methods through the two filters and the sort. Findings do not say which method they are for, and
two methods can have equal ones, so the methods are kept beside the findings while these are sorted.
The sort is stable, so methods of equal length stay in the order of the model
(`pairwise_mergeSort_stable`).
-/

namespace Deadwood.Scan

open Code Usage

/-! ## Stable sorting -/

/-- A stable sort leaves items that are tied in the order in which they were. -/
theorem pairwise_mergeSort_stable {α : Type} {le : α → α → Bool}
    (htrans : ∀ a b c, le a b = true → le b c = true → le a c = true)
    (htotal : ∀ a b, (le a b || le b a) = true) {before : α → α → Prop} {l : List α}
    (h : l.Pairwise before) :
    (l.mergeSort le).Pairwise fun a b => le a b = true ∧ (le b a = true → before a b) := by
  induction l with
  | nil => simp
  | cons a l ih =>
    obtain ⟨ha, hl⟩ := List.pairwise_cons.1 h
    have hsorted := ih hl
    -- `a` is put behind the items that it may not precede, and in front of all others.
    have hfront : ∀ b ∈ (l.mergeSort le).filter (fun b => !le a b),
        le a b = false ∧ le b a = true := by
      intro b hb
      have hnot : le a b = false := by simpa using (List.mem_filter.1 hb).2
      have hback := htotal a b
      rw [hnot, Bool.false_or] at hback
      exact ⟨hnot, hback⟩
    have hback : ∀ c ∈ (l.mergeSort le).filter (le a), le a c = true ∧ before a c := by
      intro c hc
      obtain ⟨hmem, hle⟩ := List.mem_filter.1 hc
      exact ⟨hle, ha c (List.mem_mergeSort.1 hmem)⟩
    rw [mergeSort_cons_eq htrans htotal]
    refine List.pairwise_append.2
      ⟨hsorted.filter _, List.pairwise_cons.2 ⟨?_, hsorted.filter _⟩, ?_⟩
    · exact fun c hc => ⟨(hback c hc).1, fun _ => (hback c hc).2⟩
    · intro b hb c hc
      obtain ⟨hnot, hba⟩ := hfront b hb
      rcases List.mem_cons.1 hc with rfl | hc
      · exact ⟨hba, fun hcb => by rw [hnot] at hcb; cases hcb⟩
      · refine ⟨htrans b a c hba (hback c hc).1, fun hcb => ?_⟩
        have hab := htrans a c b (hback c hc).1 hcb
        rw [hnot] at hab
        cases hab

/-! ## Methods beside their findings -/

section Entries

variable (policy : Policy) (m : Model) (used : UsedSet)

/-- The methods that are neither used nor excluded, with their findings. -/
def keptEntries : List (MethodDecl × MethodFinding) :=
  m.methods.filterMap fun d => (unusedMethod? policy m used d).map (Prod.mk d)

/-- The same, in the order of the ranking. -/
def rankedEntries : List (MethodDecl × MethodFinding) :=
  (keptEntries policy m used).mergeSort fun a b => b.2.lines ≤ a.2.lines

variable {policy m used}

theorem mem_keptEntries {d : MethodDecl} {f : MethodFinding} :
    (d, f) ∈ keptEntries policy m used ↔
      d ∈ m.methods ∧ unusedMethod? policy m used d = some f := by
  simp only [keptEntries, List.mem_filterMap, Option.map_eq_some_iff, Prod.mk.injEq]
  constructor
  · rintro ⟨d, hd, f, hf, rfl, rfl⟩
    exact ⟨hd, hf⟩
  · rintro ⟨hd, hf⟩
    exact ⟨d, hd, f, hf, rfl, rfl⟩

theorem mem_rankedEntries {d : MethodDecl} {f : MethodFinding} :
    (d, f) ∈ rankedEntries policy m used ↔
      d ∈ m.methods ∧ unusedMethod? policy m used d = some f := by
  rw [rankedEntries, List.mem_mergeSort, mem_keptEntries]

/-- The ranked entries are the report with the method of each finding beside it. -/
theorem map_snd_rankedEntries : (rankedEntries policy m used).map (·.2) = rank policy m used := by
  have hsort : (rankedEntries policy m used).map (·.2) =
      ((keptEntries policy m used).map (·.2)).mergeSort fun a b => b.lines ≤ a.lines :=
    List.map_mergeSort fun _ _ _ _ => rfl
  have hkept : (keptEntries policy m used).map (·.2) =
      m.methods.filterMap (unusedMethod? policy m used) := by
    rw [keptEntries, List.map_filterMap]
    refine List.filterMap_congr fun d _ => ?_
    rw [Option.map_map]
    exact Option.map_id'
  rw [hsort, hkept, rank]

theorem pairwise_keptEntries (hm : m.Indexed) :
    (keptEntries policy m used).Pairwise fun a b => a.1.id < b.1.id := by
  have hids : (m.methods.map (·.id)).Pairwise (· < ·) := by
    rw [hm.method_ids]
    exact List.pairwise_lt_range
  refine (List.pairwise_map.1 hids).filterMap _ fun a b hlt e he e' he' => ?_
  obtain ⟨f, -, rfl⟩ := Option.map_eq_some_iff.1 he
  obtain ⟨g, -, rfl⟩ := Option.map_eq_some_iff.1 he'
  exact hlt

/-- Entries go by descending size, and by number where sizes tie. -/
theorem pairwise_rankedEntries (hm : m.Indexed) :
    (rankedEntries policy m used).Pairwise fun a b =>
      b.2.lines < a.2.lines ∨ b.2.lines = a.2.lines ∧ a.1.id < b.1.id := by
  have hkept : (keptEntries policy m used).Pairwise _ := pairwise_keptEntries hm
  let size (e : MethodDecl × MethodFinding) : Nat := e.2.lines
  have hsorted := pairwise_mergeSort_stable (descending_trans size) (descending_total size) hkept
  refine hsorted.imp fun hab => ?_
  simp only [decide_eq_true_eq] at hab
  exact (Nat.lt_or_eq_of_le hab.1).imp_right fun heq => ⟨heq, hab.2 heq.ge⟩

variable (policy m used) in
/-- The methods that the findings of the ranking are for, in the same order. -/
def rankedMethods : List MethodDecl :=
  (rankedEntries policy m used).map (·.1)

/-- The ranked methods are those that are neither used nor excluded. -/
theorem mem_rankedMethods {d : MethodDecl} :
    d ∈ rankedMethods policy m used ↔ d ∈ m.methods ∧ d.id ∉ used ∧
      ∃ t, m.types[d.declaringType]? = some t ∧ policy.exclusion? d t = none := by
  rw [← isSome_unusedMethod?_iff, Option.isSome_iff_exists, rankedMethods, List.mem_map]
  constructor
  · rintro ⟨⟨d, f⟩, he, rfl⟩
    obtain ⟨hd, hf⟩ := mem_rankedEntries.1 he
    exact ⟨hd, f, hf⟩
  · rintro ⟨hd, f, hf⟩
    exact ⟨(d, f), mem_rankedEntries.2 ⟨hd, hf⟩, rfl⟩

theorem finding?_of_mem_rankedEntries {e : MethodDecl × MethodFinding}
    (h : e ∈ rankedEntries policy m used) : finding? m e.1 = some e.2 := by
  obtain ⟨-, hf⟩ := mem_rankedEntries.1 h
  rw [← unusedMethod?_eq_finding? (Option.isSome_of_eq_some hf), hf]

/-- The report has the finding of each ranked method, in their order. -/
theorem forall₂_rankedMethods :
    List.Forall₂ (fun f d => finding? m d = some f) (rank policy m used)
      (rankedMethods policy m used) := by
  rw [← map_snd_rankedEntries, rankedMethods, List.forall₂_map_left_iff, List.forall₂_map_right_iff,
    List.forall₂_same]
  exact fun e he => finding?_of_mem_rankedEntries he

theorem pairwise_rankedMethods (hm : m.Indexed) :
    (rankedMethods policy m used).Pairwise fun a b =>
      b.lineCount < a.lineCount ∨ b.lineCount = a.lineCount ∧ a.id < b.id := by
  have hlines : ∀ e ∈ rankedEntries policy m used, e.2.lines = e.1.lineCount := by
    intro e he
    obtain ⟨t, -, ht⟩ := Option.map_eq_some_iff.1 (finding?_of_mem_rankedEntries he)
    rw [← ht]
    rfl
  refine List.pairwise_map.2 ((pairwise_rankedEntries hm).imp_of_mem fun ha hb hab => ?_)
  rwa [hlines _ ha, hlines _ hb] at hab

end Entries

/-! ## The partition -/

/-- One of the rules for methods that are left out holds of a method. -/
def IsExcluded (policy : Policy) (m : Model) (d : MethodDecl) : Prop :=
  ∃ t, m.types[d.declaringType]? = some t ∧ (policy.exclusion? d t).isSome = true

/-- The findings are one for each method of `ranked`, which are the methods that are neither used
nor excluded: longer ones first, those of equal length in the order of the model. -/
structure Ranks (policy : Policy) (m : Model) (used : UsedSet) (findings : List MethodFinding)
    (ranked : List MethodDecl) : Prop where
  findings_eq : List.Forall₂ (fun f d => finding? m d = some f) findings ranked
  subset : ranked ⊆ m.methods
  sorted : ranked.Pairwise fun a b =>
    b.lineCount < a.lineCount ∨ b.lineCount = a.lineCount ∧ a.id < b.id
  partition : ∀ d ∈ m.methods,
    (d.id ∈ used ∧ d ∉ ranked) ∨
    (d.id ∉ used ∧ IsExcluded policy m d ∧ d ∉ ranked) ∨
    (d.id ∉ used ∧ ¬ IsExcluded policy m d ∧ ∃! i : Nat, ranked[i]? = some d)

theorem mem_rankedMethods_iff {policy : Policy} {m : Model} {used : UsedSet} (hm : m.Linked)
    {d : MethodDecl} (hd : d ∈ m.methods) :
    d ∈ rankedMethods policy m used ↔ d.id ∉ used ∧ ¬ IsExcluded policy m d := by
  have ht : m.types[d.declaringType]? = some _ :=
    List.getElem?_eq_getElem (hm.declaring_lt d hd)
  rw [mem_rankedMethods, IsExcluded, ht]
  simp [hd]

theorem nodup_rankedMethods {policy : Policy} {m : Model} {used : UsedSet} (hm : m.Indexed) :
    (rankedMethods policy m used).Nodup := by
  refine (pairwise_rankedMethods hm).imp fun hab heq => ?_
  subst heq
  rcases hab with hlt | ⟨-, hlt⟩ <;> exact Nat.lt_irrefl _ hlt

/-- The report meets the description of a ranking by the methods that are ranked in it. -/
theorem rank_ranks {m : Model} (hm : m.Arena) (policy : Policy) (used : UsedSet) :
    Ranks policy m used (rank policy m used) (rankedMethods policy m used) where
  findings_eq := forall₂_rankedMethods
  subset _ hd := (mem_rankedMethods.1 hd).1
  sorted := pairwise_rankedMethods hm.toIndexed
  partition d hd := by
    have hmem : d ∈ rankedMethods policy m used ↔ d.id ∉ used ∧ ¬ IsExcluded policy m d :=
      mem_rankedMethods_iff hm.toLinked hd
    by_cases hused : d.id ∈ used
    · exact Or.inl ⟨hused, fun h => (hmem.1 h).1 hused⟩
    by_cases hexcluded : IsExcluded policy m d
    · exact Or.inr (Or.inl ⟨hused, hexcluded, fun h => (hmem.1 h).2 hexcluded⟩)
    obtain ⟨i, hi⟩ := List.mem_iff_getElem?.1 (hmem.2 ⟨hused, hexcluded⟩)
    refine Or.inr (Or.inr ⟨hused, hexcluded, i, hi, fun j hj => ?_⟩)
    have hlt : j < (rankedMethods policy m used).length := (List.getElem?_eq_some_iff.1 hj).1
    exact (List.getElem?_inj hlt (nodup_rankedMethods hm.toIndexed)).1 (hj.trans hi.symm)

/-- Additions to the tables take no annotation of the lifecycle away. -/
theorem isExcluded_of_lifecycle {m : Model} (hm : m.Linked) (extra : Exclusions) {d : MethodDecl}
    (hd : d ∈ m.methods) {a : AnnotationUse} (ha : a ∈ d.annotations)
    (hname : a.simpleName ∈ Policy.builtIn.lifecycleAnnotations) :
    IsExcluded (.extend extra) m d := by
  refine ⟨_, List.getElem?_eq_getElem (hm.declaring_lt d hd), ?_⟩
  by_contra hnone
  obtain ⟨-, -, hlifecycle, -⟩ :=
    Policy.exclusion?_eq_none_iff.1 (Option.not_isSome_iff_eq_none.1 hnone)
  refine hlifecycle (List.any_eq_true.2 ⟨a.simpleName, List.mem_append_left _ hname, ?_⟩)
  exact List.any_eq_true.2 ⟨a, ha, beq_self_eq_true _⟩

/-- **A method is used, excluded or ranked once.** The ranking has longer methods first and keeps
the order of the model among methods of equal length. With more methods used it is a subsequence.
However the tables are added to and however a run goes, its report has no method with an annotation
`PostConstruct` or `PreDestroy`. -/
theorem rank_partition {m : Model} (h : m.Reached SourceUnit.Shaped) :
    (∀ policy used, (rank policy m used).Pairwise (fun a b => b.lines ≤ a.lines) ∧
      ∃ ranked, Ranks policy m used (rank policy m used) ranked) ∧
    (∀ policy (used used' : UsedSet), (∀ id ∈ used, id ∈ used') →
      (rank policy m used').Sublist (rank policy m used)) ∧
    ∀ (extra : Exclusions) (run : Run CallId MethodId),
      let use := MethodUse.ofModel m (.extend extra)
      let report := (Setup.conclude run (methodFindings use run)).outcome.items
      ((∃ payload, run.ending = some (.broken payload)) ∧ report = []) ∨
      ∃ ranked, Ranks (.extend extra) m (.ofList run.produced) report ranked ∧
        ∀ d ∈ ranked, ∀ a ∈ d.annotations,
          a.simpleName ≠ "PostConstruct" ∧ a.simpleName ≠ "PreDestroy" := by
  have hm := h.arena
  refine ⟨fun policy used => ⟨?_, _, rank_ranks hm policy used⟩,
    fun policy used used' hused => rank_sublist hused fun _ _ hnone => hnone, ?_⟩
  · rw [← map_snd_rankedEntries]
    exact List.pairwise_map.2 ((pairwise_rankedEntries hm.toIndexed).imp fun hab => by omega)
  intro extra run use report
  obtain hbroken | hreport := conclude_items_cases run (methodFindings use run)
  · exact Or.inl hbroken
  have hranks := rank_ranks hm (.extend extra) (.ofList run.produced)
  refine Or.inr ⟨rankedMethods (.extend extra) m (.ofList run.produced), ?_, fun d hd a ha => ?_⟩
  · rwa [show report = rank (.extend extra) m (.ofList run.produced) from hreport]
  have hmem := hranks.subset hd
  have hfree := ((mem_rankedMethods_iff hm.toLinked hmem).1 hd).2
  have hname : a.simpleName ∉ ["PostConstruct", "PreDestroy"] := fun hname =>
    hfree (isExcluded_of_lifecycle hm.toLinked extra hmem ha hname)
  simpa using hname

namespace Sample

def shedMethod (id : MethodId) (name : String) (line endLine : Nat) : MethodDecl :=
  { Code.Sample.method id 0 with name := name, location := ⟨⟨"Shed.java"⟩, line, endLine⟩ }

/-- A class with a method for its start, a method that is called, and a longer method behind shorter
ones. -/
def shed : SourceUnit where
  info := ⟨⟨"Shed.java"⟩, none, [], []⟩
  types := [{ Code.Sample.type 0 "Shed" [0, 1, 2, 3, 4] with
    qualifiedName := "Shed", interfaces := [], typeRefs := ["PostConstruct"],
    location := ⟨⟨"Shed.java"⟩, 1, 8⟩ }]
  methods := [
    { shedMethod 0 "start" 2 2 with annotations := [⟨"PostConstruct", none⟩] },
    shedMethod 1 "open" 3 3, shedMethod 2 "shut" 4 4, shedMethod 3 "run" 5 5,
    shedMethod 4 "tidy" 6 7]
  calls := [⟨0, .invocation, "run", some 0, .implicit, some 0, 0, 3, none⟩]

def shedModel : Model :=
  ((Edit.addUnit shed false).run.run .empty).2

theorem shedModel_reached : shedModel.Reached SourceUnit.Shaped := by
  have hshaped : shed.Shaped := by
    constructor
    · constructor <;> decide
    all_goals decide
  exact .add false .empty hshaped

/-- The class has no supertypes, so only its own name reaches it. -/
theorem shedModel_implementers :
    Implementers.ofModel shedModel .builtIn = ⟨[("Shed", [0])]⟩ := by
  have hnames : writtenSuperNames shedModel 0 = [] := by decide +kernel
  have htypes : writtenSuperTypes shedModel 0 = [] := by decide +kernel
  have hwalk : superNamesFrom shedModel (List.range shedModel.types.length) [0] = [] := by
    rw [superNamesFrom, dif_pos (by decide +kernel), hnames, htypes, List.nil_append,
      List.nil_append, superNamesFrom]
  have hadd : ∀ t : TypeDecl, t.id = 0 → t.name = "Shed" →
      Implementers.add shedModel ⟨[]⟩ t = ⟨[("Shed", [0])]⟩ := by
    intro t hid hname
    rw [Implementers.add, reachableNames, hid, hname, hwalk]
    rfl
  have hone : shedModel.types.filter Policy.builtIn.isImplementer = shed.types := by decide +kernel
  rw [Implementers.ofModel, hone]
  exact hadd _ rfl rfl

end Sample

/-- The method that is called and the one for the start are left out, and the others stand by
length. The run does no batch, so its report has the called method too. -/
theorem rank_partition_shed :
    let m := Sample.shedModel
    let used := (MethodUse.ofModel m .builtIn).used
    let run : Run CallId MethodId := Run.init [[0]]
    let use := MethodUse.ofModel m (.extend .none)
    let report := (Setup.conclude run (methodFindings use run)).outcome.items
    m.Reached SourceUnit.Shaped ∧ used.ids = [3] ∧ (∀ id ∈ UsedSet.empty, id ∈ used) ∧
    (rank .builtIn m used).map (·.method) = ["tidy", "open", "shut"] ∧
    (∃ ranked, Ranks .builtIn m used (rank .builtIn m used) ranked) ∧
    (rank .builtIn m used).Sublist (rank .builtIn m .empty) ∧ run.ending = none ∧
    ∃ ranked, Ranks (.extend .none) m .empty report ranked ∧
      ∀ d ∈ ranked, ∀ a ∈ d.annotations,
        a.simpleName ≠ "PostConstruct" ∧ a.simpleName ≠ "PreDestroy" := by
  intro m used run use report
  obtain ⟨hranks, hsublist, hreport⟩ := rank_partition Sample.shedModel_reached
  have hused : used.ids = [3] := by
    change (MethodUse.used ⟨m, .builtIn, signatures m, Implementers.ofModel m .builtIn⟩).ids = [3]
    rw [Sample.shedModel_implementers]
    decide +kernel
  have hrank : (rank .builtIn m used).map (·.method) = ["tidy", "open", "shut"] := by
    have hkept : m.methods.filterMap (unusedMethod? .builtIn m used) =
        [⟨⟨"Shed", none, some ⟨⟨"Shed.java"⟩, 3, 3⟩⟩, "open", "open()", 1⟩,
          ⟨⟨"Shed", none, some ⟨⟨"Shed.java"⟩, 4, 4⟩⟩, "shut", "shut()", 1⟩,
          ⟨⟨"Shed", none, some ⟨⟨"Shed.java"⟩, 6, 7⟩⟩, "tidy", "tidy()", 2⟩] := by
      have hset : used = .ofList [3] := UsedSet.ext_mem fun id => by
        rw [UsedSet.mem_ofList, ← hused]
        rfl
      rw [hset]
      decide +kernel
    rw [rank, hkept]
    simp [List.mergeSort, List.MergeSort.Internal.splitInTwo]
  have hsub : ∀ id ∈ UsedSet.empty, id ∈ used := fun id hid => absurd hid List.not_mem_nil
  refine ⟨Sample.shedModel_reached, hused, hsub, hrank, (hranks _ _).2, hsublist _ _ _ hsub, rfl,
    ?_⟩
  refine (hreport .none run).resolve_left ?_
  rintro ⟨⟨payload, hbroken⟩, -⟩
  cases hbroken

end Deadwood.Scan
