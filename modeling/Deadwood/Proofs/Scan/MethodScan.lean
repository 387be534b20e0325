import Deadwood.Proofs.Scan.Completion
import Deadwood.Proofs.Usage.InRange
import Deadwood.Proofs.Usage.Reported
import Deadwood.Scan.Unused

/-!
# The method scan does not depend on its schedule

The calls of a model are divided into batches, which workers finish in any order and whose used
methods they merge into one set. On a model in good order no batch looks at a number that the model
does not have (`Sound.usedByCall_eq`), what a batch uses is what its calls use one by one
(`Sound.usedByBatch_eq`), and the batches together are the calls (`flatten_batches?`). So a run
that is not over can go on, and one that returns in time ends with the set that one look over all
calls gives, and with the same report.
-/

namespace Deadwood.Scan

open Code Usage

section MethodRuns

variable {use : MethodUse} (h : use.Sound) {size : Nat} {batches : List (List CallId)}
  (hb : batches? numberWidth size (List.range use.model.calls.length) = some batches)

include h hb in
/-- No batch breaks off, and each uses what its calls use. -/
theorem usedByBatch_eq_of_mem {batch : List CallId} (hbatch : batch ∈ batches) :
    use.usedByBatch batch = .ok (.ofList (batch.flatMap use.usedAt)) := by
  refine h.usedByBatch_eq fun id hid => List.mem_range.1 ?_
  rw [← flatten_batches? hb]
  exact List.mem_flatten.2 ⟨batch, hbatch, hid⟩

variable (workers : Nat) (notify : Progress → Option Payload)

include h hb in
theorem methodJob_work {batch : List CallId} (hbatch : batch ∈ batches) :
    (methodJob use workers notify).work batch =
      .returns (UsedSet.ofList (batch.flatMap use.usedAt)).ids := by
  simp only [methodJob, usedByBatch_eq_of_mem h hb hbatch]

include h hb in
theorem methodJob_not_failsAt (n : Nat) :
    (methodJob use workers notify).failsAt batches n = false := by
  refine Job.failsAt_eq_false (fun batch hbatch => ?_) n
  rw [methodJob_work h hb workers notify hbatch]
  rfl

include h hb in
/-- The work on every batch ends. -/
theorem methodJob_ends {batch : List CallId} (hbatch : batch ∈ batches) :
    ((methodJob use workers notify).work batch).message?.isSome := by
  rw [methodJob_work h hb workers notify hbatch]
  rfl

include h hb in
/-- The methods that the batches give are those that the calls use. -/
theorem mem_methodJob_results (id : MethodId) :
    id ∈ batches.flatMap (fun b => ((methodJob use workers notify).work b).results) ↔
      id ∈ use.used := by
  rw [use.used_eq, UsedSet.mem_ofList, ← flatten_batches? hb, List.mem_flatMap]
  constructor
  · rintro ⟨batch, hbatch, hid⟩
    rw [methodJob_work h hb workers notify hbatch] at hid
    obtain ⟨call, hcall, hid⟩ := List.mem_flatMap.1 (UsedSet.mem_ofList.1 hid)
    exact List.mem_flatMap.2 ⟨call, List.mem_flatten.2 ⟨batch, hbatch, hcall⟩, hid⟩
  · intro hid
    obtain ⟨call, hcall, hid⟩ := List.mem_flatMap.1 hid
    obtain ⟨batch, hbatch, hcall⟩ := List.mem_flatten.1 hcall
    refine ⟨batch, hbatch, ?_⟩
    rw [methodJob_work h hb workers notify hbatch]
    exact UsedSet.mem_ofList.2 (List.mem_flatMap.2 ⟨call, hcall, hid⟩)

variable {workers notify}

include h hb in
/-- A complete run has found what one look over all calls finds. The order in which batches were
merged is lost here: sets are compared by their members. -/
theorem produced_eq_used {run : Run CallId MethodId}
    (hrun : Run.Accounted (methodJob use workers notify) batches run)
    (hcomplete : run.ending = some .complete) : UsedSet.ofList run.produced = use.used := by
  refine UsedSet.ext_mem fun id => ?_
  rw [UsedSet.mem_ofList, (hrun.produced_perm hcomplete).mem_iff, mem_methodJob_results h hb]

end MethodRuns

/-- **The method scan does not depend on its schedule.** On a model that files lead to, no batch of
calls breaks off, whatever the size of the batches, the number of workers and the order of their
steps. A run that is not over can go on, and one that returns in time has merged the set that one
look over all calls gives, and reports the ranking of that set. -/
theorem methodScan_schedule_independent {m : Model} (h : m.Reached SourceUnit.Shaped)
    (policy : Policy) :
    let use := MethodUse.ofModel m policy
    (∀ c ∈ m.calls, c.unit < m.units.length) ∧
    use.usedByBatch (List.range m.calls.length) = .ok use.used ∧
    ∀ (size : Nat) (batches : List (List CallId)),
      batches? numberWidth size (List.range m.calls.length) = some batches →
      (∀ batch ∈ batches, ∃ used, use.usedByBatch batch = .ok used) ∧
      ∀ (workers : Nat) (notify : Progress → Option Payload) (events : List Event),
        let job := methodJob use workers notify
        let run := (Run.init batches).steps job events
        run.report.failed = 0 ∧
        (run.ending = none → ∃ e next, e ≠ .deadline ∧ run.step? job e = some next) ∧
        (run.Returned → run.report.timedOut = false →
          UsedSet.ofList run.produced = use.used ∧
          (Setup.conclude run (methodFindings use run)).outcome =
            .ofFindings (rank policy m use.used)) := by
  intro use
  have hsound : use.Sound := MethodUse.sound_ofModel h.arena policy
  refine ⟨h.arena.call_unit_lt, hsound.usedByBatch_range,
    fun size batches hb => ⟨?_, fun workers notify events => ?_⟩⟩
  · exact fun batch hbatch => ⟨_, usedByBatch_eq_of_mem hsound hb hbatch⟩
  intro job run
  have hrun : Run.Accounted job batches run := Run.accounted_steps _ _ _
  refine ⟨?_, fun hopen => ?_, fun hreturned htime => ?_⟩
  · rw [hrun.failed_eq, List.countP_eq_zero]
    intro n _
    rw [methodJob_not_failsAt hsound hb workers notify n]
    exact Bool.false_ne_true
  · exact hrun.exists_step hopen fun _ hbatch => methodJob_ends hsound hb workers notify hbatch
  · have hcomplete := hrun.complete_of_returned hreturned htime
    have hused : UsedSet.ofList run.produced = use.used := produced_eq_used hsound hb hrun hcomplete
    refine ⟨hused, ?_⟩
    simp only [Setup.conclude, hcomplete, methodFindings, hused]
    rfl

/-- Two workers take the two calls of the sample and can go on; the second overtakes the first. -/
theorem methodScan_schedule_independent_sample :
    Sample.model.Reached SourceUnit.Shaped ∧
    let use := MethodUse.ofModel Sample.model .builtIn
    let job := methodJob use 2 fun _ => none
    let taken := (Run.init [[0], [1]]).steps job [.start 0, .start 0]
    let run := (Run.init [[0], [1]]).steps job
      [.start 0, .start 0, .finish 1, .send 0, .receive, .finish 0, .send 0, .receive]
    taken.ending = none ∧ (∃ e next, e ≠ .deadline ∧ taken.step? job e = some next) ∧
    batches? numberWidth 1 (List.range Sample.model.calls.length) = some [[0], [1]] ∧
    run.received.map (·.number) = [1, 0] ∧ run.report.failed = 0 ∧
    run.ending = some .complete ∧ run.report.timedOut = false ∧
    UsedSet.ofList run.produced = use.used ∧
    (Setup.conclude run (methodFindings use run)).outcome =
      .ofFindings (rank .builtIn Sample.model use.used) := by
  have hreached := Sample.model_reached Sample.shapes_shaped
  refine ⟨hreached, ?_⟩
  intro use job taken run
  have hbatches : batches? numberWidth 1 (List.range Sample.model.calls.length) =
      some [[0], [1]] := by
    decide +kernel
  obtain ⟨-, -, hscan⟩ := methodScan_schedule_independent hreached .builtIn
  obtain ⟨hok, hruns⟩ := hscan 1 _ hbatches
  obtain ⟨-, hgoes, -⟩ := hruns 2 (fun _ => none) [.start 0, .start 0]
  obtain ⟨hfailed, -, hend⟩ := hruns 2 (fun _ => none)
    [.start 0, .start 0, .finish 1, .send 0, .receive, .finish 0, .send 0, .receive]
  obtain ⟨first, hfirst⟩ := hok [0] (by simp)
  obtain ⟨second, hsecond⟩ := hok [1] (by simp)
  -- The steps only depend on whether the work returns, which the theorem gives for both batches.
  have hfinal : run.received.map (·.number) = [1, 0] ∧ run.ending = some .complete ∧
      run.report.timedOut = false := by
    simp [run, job, use, Run.init, Run.steps, Run.step?, Run.hasFreeWorker, Run.receive, methodJob,
      hfirst, hsecond, Behaviour.message?, BatchReport.receive, BatchReport.ofTotal]
  obtain ⟨hreceived, hcomplete, htime⟩ := hfinal
  obtain ⟨hused, houtcome⟩ := hend (Or.inl hcomplete) htime
  have hopen : taken.ending = none := rfl
  exact ⟨hopen, hgoes hopen, hbatches, hreceived, hfailed, hcomplete, htime, hused, houtcome⟩

end Deadwood.Scan
