import Deadwood.Proofs.Scan.Arrival
import Deadwood.Proofs.Scan.Reports

/-!
# Ties in the class report

The class report is sorted by name, file and first line. Findings that agree in all three are tied,
and sorting leaves them in the order in which they came in: a report is determined by the findings
of each tie in their order (`sortFindings_eq_iff`). So the order in which batches come in shows in
the report exactly if two batches have findings that are tied and do not commute. A file can bring
this about: local classes of one name in different methods of a class have the same qualified name,
and may begin on the same line.
-/

namespace Deadwood.Scan

open Code Usage

/-! ## Sorting up to ties -/

/-- A name, and the file and line if known. -/
abbrev Place := String × Option (List Deadwood.Step × Nat)

/-- What the order of the report looks at. -/
def place (f : ClassFinding) : Place :=
  (f.name, f.location.map fun l => (l.file.steps, l.line))

theorem compare_location_eq_iff {l m : Location} :
    compare l m = .eq ↔ l.file.steps = m.file.steps ∧ l.line = m.line := by
  change (l.file.compare m.file).then (compare l.line m.line) = .eq ↔ _
  rw [Ordering.then_eq_eq, Path.compare_eq_iff, Path.same, beq_iff_eq,
    Std.LawfulEqCmp.compare_eq_iff_eq]

/-- Findings tie exactly if they name the same place. -/
theorem findingOrder_eq_iff {a b : ClassFinding} : findingOrder a b = .eq ↔ place a = place b := by
  have hlocation : compare a.location b.location = .eq ↔
      a.location.map (fun l => (l.file.steps, l.line)) =
        b.location.map fun l => (l.file.steps, l.line) := by
    cases a.location with
    | none => cases b.location <;> simp [compare]
    | some l =>
      cases b.location with
      | none => simp [compare]
      | some m =>
        change compare l m = .eq ↔ _
        simp [compare_location_eq_iff]
  change (compare a.name b.name).then (compare a.location b.location) = .eq ↔ _
  rw [Ordering.then_eq_eq, hlocation, Std.LawfulEqCmp.compare_eq_iff_eq, place, place,
    Prod.mk.injEq]

theorem findingLe_of_place_eq {a b : ClassFinding} (h : place a = place b) :
    findingLe a b = true := by
  rw [findingLe_eq, findingOrder_eq_iff.2 h]
  rfl

theorem place_eq_of_findingLe {a b : ClassFinding} (hab : findingLe a b = true)
    (hba : findingLe b a = true) : place a = place b := by
  rw [findingLe_eq] at hab hba
  exact findingOrder_eq_iff.1 (Std.OrientedCmp.isLE_antisymm hab hba)

/-- Sorting leaves tied findings in their order. -/
theorem filter_sortFindings (xs : List ClassFinding) (k : Place) :
    (sortFindings xs).filter (place · = k) = xs.filter (place · = k) := by
  apply filter_mergeSort findingLe_trans findingLe_total
  intro a b ha hb
  apply findingLe_of_place_eq
  rw [of_decide_eq_true ha, of_decide_eq_true hb]

theorem findingLe_head {a c : ClassFinding} {xs : List ClassFinding}
    (h : (a :: xs).Pairwise fun a b => findingLe a b = true) (hc : c ∈ a :: xs) :
    findingLe a c = true := by
  rcases List.mem_cons.1 hc with rfl | hc
  · exact findingLe_of_place_eq rfl
  · exact List.rel_of_pairwise_cons h hc

/-- Lists that agree on every place have the same members. -/
theorem mem_iff_of_filter_eq {xs ys : List ClassFinding}
    (h : ∀ k, xs.filter (place · = k) = ys.filter (place · = k)) (a : ClassFinding) :
    a ∈ xs ↔ a ∈ ys := by
  have ha : a ∈ xs.filter (place · = place a) ↔ a ∈ ys.filter (place · = place a) := by rw [h]
  simpa using ha

/-- Sorted findings are determined by those at each place. -/
theorem eq_of_filter_eq {xs ys : List ClassFinding}
    (hxs : xs.Pairwise fun a b => findingLe a b = true)
    (hys : ys.Pairwise fun a b => findingLe a b = true)
    (h : ∀ k, xs.filter (place · = k) = ys.filter (place · = k)) : xs = ys := by
  induction xs generalizing ys with
  | nil =>
    cases ys with
    | nil => rfl
    | cons b ys => simpa using mem_iff_of_filter_eq h b
  | cons a xs ih =>
    cases ys with
    | nil => simpa using mem_iff_of_filter_eq h a
    | cons b ys =>
      -- Each head is in the other list, so neither comes before the other.
      have hab := findingLe_head hxs ((mem_iff_of_filter_eq h b).2 List.mem_cons_self)
      have hba := findingLe_head hys ((mem_iff_of_filter_eq h a).1 List.mem_cons_self)
      have hplace := place_eq_of_findingLe hab hba
      have hhead := h (place a)
      simp only [List.filter_cons, hplace, decide_true, if_true] at hhead
      obtain ⟨rfl, -⟩ := List.cons.inj hhead
      have htail : ∀ k, xs.filter (place · = k) = ys.filter (place · = k) := by
        intro k
        have hk := h k
        by_cases hp : place a = k
        · simpa [List.filter_cons, hp] using hk
        · simpa [List.filter_cons, hp] using hk
      rw [ih hxs.of_cons hys.of_cons htail]

/-- Two lists are sorted alike exactly if they agree on every place, since sorting keeps the order
of what ties. -/
theorem sortFindings_eq_iff {xs ys : List ClassFinding} :
    sortFindings xs = sortFindings ys ↔
      ∀ k, xs.filter (place · = k) = ys.filter (place · = k) := by
  constructor
  · intro h k
    rw [← filter_sortFindings xs, h, filter_sortFindings]
  · intro h
    refine eq_of_filter_eq (pairwise_sortFindings xs) (pairwise_sortFindings ys) fun k => ?_
    rw [filter_sortFindings, filter_sortFindings, h]

/-- Whatever order findings come in, the report has the same places in the same order. -/
theorem map_place_sortFindings {xs ys : List ClassFinding} (h : xs.Perm ys) :
    (sortFindings xs).map place = (sortFindings ys).map place := by
  let le (j k : Place) : Prop := ∃ a b, place a = j ∧ place b = k ∧ findingLe a b = true
  have hsorted : ∀ zs, ((sortFindings zs).map place).Pairwise le := fun zs =>
    List.pairwise_map.2 ((pairwise_sortFindings zs).imp fun hab => ⟨_, _, rfl, rfl, hab⟩)
  have hperm := (((sortFindings_perm xs).trans h).trans (sortFindings_perm ys).symm).map place
  refine hperm.eq_of_pairwise (fun j k _ _ hjk hkj => ?_) (hsorted xs) (hsorted ys)
  obtain ⟨a, b, rfl, rfl, hab⟩ := hjk
  obtain ⟨c, d, hc, hd, hcd⟩ := hkj
  have hbd := findingLe_trans b c d (findingLe_of_place_eq hc.symm) hcd
  exact place_eq_of_findingLe hab (findingLe_trans b d a hbd (findingLe_of_place_eq hd))

/-! ## Batches in any order -/

section Commuting

variable {α : Type} {f : α → List ClassFinding}

/-- If any two batches can be exchanged, so can all of them, as far as one place is concerned. -/
theorem filter_flatMap_eq_of_perm {xs ys : List α} (h : xs.Perm ys)
    (hcommute : ∀ a ∈ xs, ∀ b ∈ xs, sortFindings (f a ++ f b) = sortFindings (f b ++ f a))
    (k : Place) :
    (xs.flatMap f).filter (place · = k) = (ys.flatMap f).filter (place · = k) := by
  induction h with
  | nil => rfl
  | cons x h ih =>
    simp only [List.flatMap_cons, List.filter_append]
    rw [ih fun a ha b hb => hcommute a (List.mem_cons_of_mem x ha) b (List.mem_cons_of_mem x hb)]
  | swap x y l =>
    have hk := sortFindings_eq_iff.1 (hcommute y (by simp) x (by simp)) k
    simp only [List.filter_append] at hk
    simp only [List.flatMap_cons, List.filter_append, ← List.append_assoc, hk]
  | trans h h' ih ih' =>
    rw [ih hcommute, ih' fun a ha b hb => hcommute a (h.mem_iff.2 ha) b (h.mem_iff.2 hb)]

/-- What stands behind both lists can be left out. -/
theorem sortFindings_append_right {xs ys zs : List ClassFinding}
    (h : sortFindings (xs ++ zs) = sortFindings (ys ++ zs)) :
    sortFindings xs = sortFindings ys := by
  refine sortFindings_eq_iff.2 fun k => ?_
  have hk := sortFindings_eq_iff.1 h k
  simpa only [List.filter_append, List.append_cancel_right_eq] using hk

end Commuting

/-! ## Reports of the class scan -/

/-- A report of the class scan on batches of types: that of a run which returned in time. -/
def InTime (use : ClassUse) (batches : List (List TypeId)) (report : List ClassFinding) : Prop :=
  ∃ workers notify events,
    let run := (Run.init batches).steps (classJob use workers notify) events
    run.Returned ∧ run.report.timedOut = false ∧
      (Setup.conclude run (sortFindings run.report.results)).outcome.items = report

/-- The reports in time are those of the batches in every order. -/
theorem inTime_iff {use : ClassUse} {batches : List (List TypeId)} {report : List ClassFinding} :
    InTime use batches report ↔
      ∃ order : List (List TypeId), order.Perm batches ∧
        report = sortFindings (order.flatMap use.unusedIn) := by
  constructor
  · rintro ⟨workers, notify, events, hreturned, htime, hreport⟩
    have hrun := Run.accounted_steps (classJob use workers notify) batches events
    obtain ⟨order, horder, hresults⟩ :=
      hrun.exists_order (hrun.complete_of_returned hreturned htime)
    rw [conclude_items hreturned, hresults] at hreport
    exact ⟨order, horder, hreport.symm⟩
  · rintro ⟨order, horder, rfl⟩
    let job := classJob use batches.length fun _ => none
    obtain ⟨events, hended, hresults⟩ := exists_arrival job horder (Nat.le_refl _)
      (fun _ => rfl) fun _ _ => rfl
    have hrun := Run.accounted_steps job batches events
    refine ⟨_, _, events, Or.inl hended, hrun.timedOut_eq_false hended, ?_⟩
    rw [conclude_items (Or.inl hended), hresults]
    rfl

/-- Batches that come in so that nothing is left to sort give the report as it is. -/
theorem inTime_of_pairwise {use : ClassUse} {batches order : List (List TypeId)}
    {report : List ClassFinding} (horder : order.Perm batches)
    (hfound : order.flatMap use.unusedIn = report)
    (hsorted : report.Pairwise fun a b => findingLe a b = true) : InTime use batches report := by
  refine inTime_iff.2 ⟨order, horder, ?_⟩
  rw [hfound]
  exact (List.mergeSort_of_pairwise hsorted).symm

theorem exists_perm_pair {α : Type} [DecidableEq α] {xs : List α} {a b : α} (ha : a ∈ xs)
    (hb : b ∈ xs) (hne : a ≠ b) : ∃ rest, (a :: b :: rest).Perm xs := by
  have hb' : b ∈ xs.erase a := (List.mem_erase_of_ne hne.symm).2 hb
  refine ⟨(xs.erase a).erase b, ?_⟩
  exact ((List.perm_cons_erase hb').symm.cons a).trans (List.perm_cons_erase ha).symm

/-- **The class report does not depend on the schedule, up to ties.** Every run that returns in time
reports the same findings, each as often, at the same places in the same order. The reports are all
the same if and only if the findings of any two batches can be exchanged before they are sorted; so
they are if no two different findings share name, file and first line. -/
theorem classScan_up_to_ties (m : Model) (policy : Policy) {size : Nat}
    {batches : List (List TypeId)}
    (hb : batches? numberWidth size (ClassUse.ofModel m policy).candidates = some batches) :
    let use := ClassUse.ofModel m policy
    InTime use batches (classFindings m policy) ∧
    (∀ report, InTime use batches report → report.Perm (classFindings m policy) ∧
      report.map place = (classFindings m policy).map place) ∧
    ((∀ report report', InTime use batches report → InTime use batches report' →
        report = report') ↔
      ∀ a ∈ batches, ∀ b ∈ batches,
        sortFindings (use.unusedIn a ++ use.unusedIn b) =
          sortFindings (use.unusedIn b ++ use.unusedIn a)) ∧
    ((∀ f ∈ classFindings m policy, ∀ g ∈ classFindings m policy, place f = place g → f = g) →
      ∀ report, InTime use batches report → report = classFindings m policy) := by
  intro use
  have hall : classFindings m policy = sortFindings (batches.flatMap use.unusedIn) := by
    rw [classFindings, ← classJob_results hb 1 fun _ => none]
    rfl
  have hfindings : ∀ {order : List (List TypeId)}, order.Perm batches →
      (order.flatMap use.unusedIn).Perm (batches.flatMap use.unusedIn) :=
    fun horder => horder.flatMap_right use.unusedIn
  refine ⟨inTime_iff.2 ⟨batches, .refl _, hall⟩, fun report hreport => ?_, ⟨?_, ?_⟩, ?_⟩
  · obtain ⟨order, horder, rfl⟩ := inTime_iff.1 hreport
    rw [hall]
    refine ⟨?_, map_place_sortFindings (hfindings horder)⟩
    exact ((sortFindings_perm _).trans (hfindings horder)).trans (sortFindings_perm _).symm
  · intro hsame a ha b hb
    by_cases hne : a = b
    · rw [hne]
    · obtain ⟨rest, hrest⟩ := exists_perm_pair ha hb hne
      have hswap := (List.Perm.swap a b rest).trans hrest
      have heq := hsame _ _ (inTime_iff.2 ⟨_, hrest, rfl⟩) (inTime_iff.2 ⟨_, hswap, rfl⟩)
      simp only [List.flatMap_cons, ← List.append_assoc] at heq
      exact sortFindings_append_right heq
  · intro hcommute report report' hreport hreport'
    obtain ⟨order, horder, rfl⟩ := inTime_iff.1 hreport
    obtain ⟨order', horder', rfl⟩ := inTime_iff.1 hreport'
    refine sortFindings_eq_iff.2 (filter_flatMap_eq_of_perm (horder.trans horder'.symm) ?_)
    exact fun a ha b hb => hcommute a (horder.mem_iff.1 ha) b (horder.mem_iff.1 hb)
  · intro hseparated report hreport
    obtain ⟨order, horder, rfl⟩ := inTime_iff.1 hreport
    rw [hall] at hseparated ⊢
    refine (sortFindings_eq_of_separated (hfindings horder).symm fun f hf g hg htied => ?_).symm
    exact hseparated f ((sortFindings_perm _).mem_iff.2 hf) g ((sortFindings_perm _).mem_iff.2 hg)
      (findingOrder_eq_iff.1 htied)

namespace Sample

/-- A class of one line. -/
def onLine (id : TypeId) (name qualifiedName : String) (enclosing : Option TypeId) : TypeDecl :=
  { Code.Sample.type id name [] with
    qualifiedName := qualifiedName
    enclosing := enclosing
    interfaces := []
    location := ⟨⟨"r/A.java"⟩, 1, 1⟩ }

def localsText : String :=
  "class A \x7b void f() \x7b class L \x7b class M \x7b L x; \x7d \x7d \x7d " ++
    "void g() \x7b class L \x7b int y; \x7d \x7d \x7d"

/-- Two methods on one line with a local class `L` each, of which the first is mentioned inside. -/
def locals : SourceUnit where
  info := ⟨⟨"r/A.java"⟩, none, [], []⟩
  types := [
    { onLine 0 "A" "A" none with methods := [0, 1] },
    onLine 1 "L" "A.L" (some 0),
    { onLine 2 "M" "A.L.M" (some 1) with typeRefs := ["L"] },
    onLine 3 "L" "A.L" (some 0)]
  methods := [
    { Code.Sample.method 0 0 with name := "f", location := ⟨⟨"r/A.java"⟩, 1, 1⟩ },
    { Code.Sample.method 1 0 with name := "g", location := ⟨⟨"r/A.java"⟩, 1, 1⟩ }]
  calls := []

/-- The sample file parses to four classes, two of which have one name and begin on one line. -/
theorem parse_locals : SourceUnit.parse? ⟨"r/A.java"⟩ localsText = some locals := by
  decide +kernel

def localsModel : Model :=
  ((Edit.addUnit locals true).run.run .empty).2

theorem localsModel_reached : localsModel.Reached SourceUnit.Extracted :=
  .add true .empty (SourceUnit.extracted_of_parse? parse_locals)

def localsUse : ClassUse :=
  .ofModel localsModel .builtIn

/-- The findings of the file, the two tied ones in the order that is given. -/
def localsReport (first second : Option (List String)) : List ClassFinding :=
  let here : Location := ⟨⟨"r/A.java"⟩, 1, 1⟩
  [⟨"A", none, some here⟩, ⟨"A.L", first, some here⟩, ⟨"A.L", second, some here⟩,
    ⟨"A.L.M", none, some here⟩]

theorem localsReport_inTime :
    InTime localsUse [[0], [1], [2], [3]] (localsReport (some ["A.L.M"]) none) := by
  have hfound : [[0], [1], [3], [2]].flatMap localsUse.unusedIn =
      localsReport (some ["A.L.M"]) none := by
    decide +kernel
  exact inTime_of_pairwise (by decide) hfound (by decide +kernel)

theorem swapped_inTime :
    InTime localsUse [[0], [1], [2], [3]] (localsReport none (some ["A.L.M"])) := by
  have hfound : [[0], [3], [1], [2]].flatMap localsUse.unusedIn =
      localsReport none (some ["A.L.M"]) := by
    decide +kernel
  exact inTime_of_pairwise (by decide) hfound (by decide +kernel)

end Sample

/-- With batches of one type each, the first of the two classes `L` to come in is the first in the
report. -/
theorem tied_classes_swap :
    let batches := [[0], [1], [2], [3]]
    let report := Sample.localsReport (some ["A.L.M"]) none
    let swapped := Sample.localsReport none (some ["A.L.M"])
    SourceUnit.parse? ⟨"r/A.java"⟩ Sample.localsText = some Sample.locals ∧
    Sample.localsModel.Reached SourceUnit.Extracted ∧
    batches? numberWidth 1 Sample.localsUse.candidates = some batches ∧
    InTime Sample.localsUse batches report ∧ InTime Sample.localsUse batches swapped ∧
    report ≠ swapped :=
  ⟨Sample.parse_locals, Sample.localsModel_reached, by decide +kernel, Sample.localsReport_inTime,
    Sample.swapped_inTime, by decide⟩

/-- One batch of all types leaves no choice. -/
theorem classScan_up_to_ties_sample :
    let swapped := Sample.localsReport none (some ["A.L.M"])
    batches? numberWidth 1 Sample.localsUse.candidates = some [[0], [1], [2], [3]] ∧
    InTime Sample.localsUse [[0], [1], [2], [3]] swapped ∧
    swapped.map place = (classFindings Sample.localsModel .builtIn).map place ∧
    batches? numberWidth 4 Sample.localsUse.candidates = some [[0, 1, 2, 3]] ∧
    InTime Sample.localsUse [[0, 1, 2, 3]] (classFindings Sample.localsModel .builtIn) ∧
    ∀ report, InTime Sample.localsUse [[0, 1, 2, 3]] report →
      report = classFindings Sample.localsModel .builtIn := by
  intro swapped
  have hone : batches? numberWidth 1 Sample.localsUse.candidates = some [[0], [1], [2], [3]] := by
    decide +kernel
  have hfour : batches? numberWidth 4 Sample.localsUse.candidates = some [[0, 1, 2, 3]] := by
    decide +kernel
  obtain ⟨-, hplaces, -⟩ := classScan_up_to_ties Sample.localsModel .builtIn hone
  obtain ⟨hinTime, -, hsame, -⟩ := classScan_up_to_ties Sample.localsModel .builtIn hfour
  refine ⟨hone, Sample.swapped_inTime, (hplaces swapped Sample.swapped_inTime).2, hfour, hinTime,
    fun report hreport => ?_⟩
  refine hsame.2 (fun a ha b hb => ?_) report _ hreport hinTime
  rw [List.mem_singleton.1 ha, List.mem_singleton.1 hb]

end Deadwood.Scan
