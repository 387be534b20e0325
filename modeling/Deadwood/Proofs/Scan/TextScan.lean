import Deadwood.Proofs.Scan.Completion
import Deadwood.Proofs.Scan.FindingOrder
import Deadwood.Proofs.Usage.TextVerdict
import Mathlib.Data.List.Pairwise

/-!
# The textual scan does not depend on its schedule

A candidate that is not used makes one finding, at the first line of its file. Files may share a
qualified name, but if they have different paths the order of findings tells any two apart
(`Apart.findingOrder_ne`). So sorting undoes whatever order the batches come in, and what it gives is
ordered strictly (`Apart.precedes`).
-/

namespace Deadwood.Scan

open Code Usage

/-! ## Findings in different files -/

/-- The findings are at the first lines of files with different paths. -/
def Apart (a b : ClassFinding) : Prop :=
  ∃ p q : Path, p.same q = false ∧ a.location = some ⟨p, 1, 1⟩ ∧ b.location = some ⟨q, 1, 1⟩

/-- One finding comes before another: by name, or by path where the names are the same. -/
def Precedes (a b : ClassFinding) : Prop :=
  a.name < b.name ∨
    a.name = b.name ∧ ∃ l ∈ a.location, ∃ m ∈ b.location, l.file.compare m.file = .lt

namespace Apart

variable {a b : ClassFinding}

theorem symm (h : Apart a b) : Apart b a := by
  obtain ⟨p, q, hpq, ha, hb⟩ := h
  refine ⟨q, p, ?_, hb, ha⟩
  rw [Path.same, beq_eq_false_iff_ne] at hpq ⊢
  exact hpq.symm

instance : Std.Symm Apart :=
  ⟨fun _ _ => symm⟩

/-- Findings with locations are ordered by name and then by file, so files that differ decide. -/
theorem exists_findingOrder (h : Apart a b) : ∃ l ∈ a.location, ∃ m ∈ b.location,
    l.file.compare m.file ≠ .eq ∧
      findingOrder a b = (compare a.name b.name).then (l.file.compare m.file) := by
  obtain ⟨p, q, hpq, ha, hb⟩ := h
  refine ⟨_, ha, _, hb, ?_, ?_⟩
  · rw [Ne, Path.compare_eq_iff, hpq]
    exact Bool.false_ne_true
  · have hplace : compare a.location b.location = (p.compare q).then .eq := by
      rw [ha, hb]
      rfl
    rw [Ordering.then_eq] at hplace
    rw [← hplace]
    rfl

theorem findingOrder_ne (h : Apart a b) : findingOrder a b ≠ .eq := by
  obtain ⟨l, -, m, -, hne, horder⟩ := h.exists_findingOrder
  rw [horder, Ne, Ordering.then_eq_eq]
  exact fun heq => hne heq.2

theorem precedes (h : Apart a b) (hle : findingLe a b = true) : Precedes a b := by
  obtain ⟨l, hl, m, hm, hne, horder⟩ := h.exists_findingOrder
  rw [findingLe_eq, horder] at hle
  cases hname : compare a.name b.name with
  | lt => exact Or.inl (compareOfLessAndEq_eq_lt.1 hname)
  | eq =>
    rw [hname, Ordering.eq_then] at hle
    refine Or.inr ⟨Std.LawfulEqCmp.eq_of_compare hname, l, hl, m, hm, ?_⟩
    cases hpath : l.file.compare m.file with
    | lt => rfl
    | eq => exact absurd hpath hne
    | gt =>
      rw [hpath] at hle
      cases hle
  | gt =>
    rw [hname] at hle
    cases hle

end Apart

/-! ## Findings of the textual scan -/

/-- The findings of the textual scan, in the order of the report. -/
def textFindings (u : TextUse) (policy : Policy) : List ClassFinding :=
  sortFindings ((u.candidates policy).filterMap u.check)

section Findings

variable {u : TextUse} (hpaths : u.files.Pairwise fun f g => f.path.same g.path = false)
  (policy : Policy)

include hpaths

theorem pairwise_candidates :
    (u.candidates policy).Pairwise fun c d => c.path.same d.path = false := by
  have hfiles : (u.files.zipIdx.map Prod.fst).Pairwise fun f g => f.path.same g.path = false := by
    rw [List.zipIdx_map_fst]
    exact hpaths
  exact List.pairwise_map.2 ((List.pairwise_map.1 hfiles).filter _)

theorem pairwise_apart : ((u.candidates policy).filterMap u.check).Pairwise Apart := by
  refine (pairwise_candidates hpaths policy).filterMap _ fun c d hcd a ha b hb => ?_
  obtain ⟨-, rfl⟩ := TextUse.check_eq_some_iff.1 ha
  obtain ⟨-, rfl⟩ := TextUse.check_eq_some_iff.1 hb
  exact ⟨c.path, d.path, hcd, rfl, rfl⟩

/-- The report is in strict order: no two findings of the textual scan tie. -/
theorem pairwise_textFindings : (textFindings u policy).Pairwise Precedes := by
  have hapart : (textFindings u policy).Pairwise Apart :=
    (sortFindings_perm _).symm.pairwise (pairwise_apart hpaths policy) Apart.symm
  exact (hapart.and (pairwise_sortFindings _)).imp fun h => h.1.precedes h.2

/-- In whatever order results come in, sorting them gives the report. -/
theorem sortFindings_eq_textFindings {results : List ClassFinding}
    (h : results.Perm ((u.candidates policy).filterMap u.check)) :
    sortFindings results = textFindings u policy := by
  refine (sortFindings_eq_of_separated h.symm fun a ha b hb heq => ?_).symm
  by_contra hne
  exact ((pairwise_apart hpaths policy).forall ha hb hne).findingOrder_ne heq

end Findings

/-! ## The report -/

theorem textJob_results {u : TextUse} {policy : Policy} {size : Nat}
    {batches : List (List TextCandidate)}
    (hb : batches? candidateWidth size (u.candidates policy) = some batches)
    (workers : Nat) (notify : Progress → Option Payload) :
    (batches.flatMap fun batch => ((textJob u workers notify).work batch).results) =
      (u.candidates policy).filterMap u.check := by
  rw [← flatten_batches? hb, List.filterMap_flatten, ← List.flatMap_def]
  rfl

/-- **The textual scan does not depend on its schedule.** If the files have different paths, the
report has one finding for each candidate that the check makes one for, strictly ordered by name and
then by path. Whatever the size of the batches, the number of workers and the order of their steps, no
batch fails, a run that is not over can go on, and one that returns in time gives that report. -/
theorem textScan_schedule_independent {u : TextUse}
    (hpaths : u.files.Pairwise fun f g => f.path.same g.path = false) (policy : Policy) :
    (textFindings u policy).Perm ((u.candidates policy).filterMap u.check) ∧
    (textFindings u policy).Pairwise Precedes ∧
    ∀ (size : Nat) (batches : List (List TextCandidate)),
      batches? candidateWidth size (u.candidates policy) = some batches →
      ∀ (workers : Nat) (notify : Progress → Option Payload) (events : List Event),
        let job := textJob u workers notify
        let run := (Run.init batches).steps job events
        run.report.failed = 0 ∧
        (run.ending = none → ∃ e next, e ≠ .deadline ∧ run.step? job e = some next) ∧
        (run.Returned → run.report.timedOut = false →
          sortFindings run.report.results = textFindings u policy ∧
          (Setup.conclude run (sortFindings run.report.results)).outcome =
            .ofFindings (textFindings u policy)) := by
  refine ⟨sortFindings_perm _, pairwise_textFindings hpaths policy,
    fun size batches hb workers notify events => ?_⟩
  intro job run
  have hrun : Run.Accounted job batches run := Run.accounted_steps _ _ _
  refine ⟨hrun.failed_eq_zero fun _ _ => rfl, fun hopen => ?_, fun hreturned htime => ?_⟩
  · exact hrun.exists_step hopen fun _ _ => rfl
  · have hcomplete := hrun.complete_of_returned hreturned htime
    have hresults := hrun.results_perm hcomplete
    rw [textJob_results hb] at hresults
    have hsorted := sortFindings_eq_textFindings hpaths policy hresults
    refine ⟨hsorted, ?_⟩
    simp only [Setup.conclude, hcomplete, hsorted]

/-- Two files of one name and package. The batch of the second overtakes that of the first, and its
finding comes first in the report as well. -/
theorem textScan_schedule_independent_sample :
    let first : LoadedFile := ⟨⟨"src/b/Shop.java"⟩, "package p;"⟩
    let second : LoadedFile := ⟨⟨"src/a/Shop.java"⟩, "package p;"⟩
    let u : TextUse := ⟨⟨"src"⟩, [first, second]⟩
    let batches := [[u.candidate 0 first], [u.candidate 1 second]]
    let run := (Run.init batches).steps (textJob u 2 fun _ => none)
      [.start 0, .start 0, .finish 1, .send 0, .receive, .finish 0, .send 0, .receive]
    u.files.Pairwise (fun f g => f.path.same g.path = false) ∧
    batches? candidateWidth 1 (u.candidates .builtIn) = some batches ∧
    run.received.map (·.number) = [1, 0] ∧ run.ending = some .complete ∧
    run.report.timedOut = false ∧ run.report.failed = 0 ∧
    textFindings u .builtIn = [⟨"p.Shop", none, some ⟨second.path, 1, 1⟩⟩,
      ⟨"p.Shop", none, some ⟨first.path, 1, 1⟩⟩] ∧
    (textFindings u .builtIn).Pairwise Precedes ∧
    (Setup.conclude run (sortFindings run.report.results)).outcome =
      .ofFindings (textFindings u .builtIn) := by
  intro first second u batches run
  have hpaths : u.files.Pairwise (fun f g => f.path.same g.path = false) := by decide +kernel
  have hbatches : batches? candidateWidth 1 (u.candidates .builtIn) = some batches := by
    decide +kernel
  have hreceived : run.received.map (·.number) = [1, 0] := rfl
  have hcomplete : run.ending = some .complete := rfl
  have htime : run.report.timedOut = false := rfl
  obtain ⟨-, hordered, hruns⟩ := textScan_schedule_independent hpaths .builtIn
  obtain ⟨hfailed, -, hend⟩ := hruns 1 batches hbatches 2 (fun _ => none)
    [.start 0, .start 0, .finish 1, .send 0, .receive, .finish 0, .send 0, .receive]
  obtain ⟨hreport, houtcome⟩ := hend (Or.inl hcomplete) htime
  -- The findings happen to come in in the order of the report.
  have hresults : run.report.results = [⟨"p.Shop", none, some ⟨second.path, 1, 1⟩⟩,
      ⟨"p.Shop", none, some ⟨first.path, 1, 1⟩⟩] := by
    decide +kernel
  have hsorted : sortFindings run.report.results = run.report.results := by
    rw [hresults]
    exact List.mergeSort_of_pairwise (by decide +kernel)
  refine ⟨hpaths, hbatches, hreceived, hcomplete, htime, hfailed, ?_, hordered, houtcome⟩
  rw [← hreport, hsorted, hresults]

end Deadwood.Scan
