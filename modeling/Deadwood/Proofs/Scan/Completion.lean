import Deadwood.Proofs.Scan.Accounting

/-!
# Runs that complete

Where all work ends, a run that is not over can go on without waiting for the deadline
(`Run.Accounted.exists_step`). The run in which one worker takes the batches one by one completes if
nobody breaks it off, and its results are those of the batches in their order (`Job.run_complete`).
-/

namespace Deadwood.Scan

variable {τ ρ : Type} {job : Job τ ρ}

/-! ## Open runs -/

theorem Run.hasFreeWorker_of_idle {r : Run τ ρ} (hactive : r.active = []) (hready : r.ready = []) :
    r.hasFreeWorker job = true := by
  simp only [hasFreeWorker, hactive, hready, List.length_nil, decide_eq_true_eq]
  omega

/-- A run that is not over never has to wait for the deadline, if the work on every batch ends: some
step of a worker or of the collector can be taken. Either something is on its way and can be moved
on, or a worker is free for a batch that waits; that neither is so would mean that every batch came
in, and then the run is over. -/
theorem Run.Accounted.exists_step {batches : List (List τ)} {r : Run τ ρ}
    (h : Run.Accounted job batches r) (hopen : r.ending = none)
    (hends : ∀ batch ∈ batches, (job.work batch).message?.isSome) :
    ∃ e next, e ≠ .deadline ∧ r.step? job e = some next := by
  -- What is furthest on its way to the collector is moved on.
  cases hsent : r.sent with
  | cons reply rest =>
    refine ⟨.receive, r.receive job reply rest, by simp, ?_⟩
    simp only [step?, hopen, hsent]
  | nil =>
    cases hready : r.ready with
    | cons reply rest =>
      refine ⟨.send 0, { r with ready := rest, sent := [reply] }, by simp, ?_⟩
      simp only [step?, hready, hsent, List.getElem?_cons_zero, List.eraseIdx_zero, List.tail_cons,
        List.nil_append]
    | nil =>
      cases hactive : r.active with
      | cons batch rest =>
        have hheld := h.tracked.held batch (by simp [underway, hactive])
        obtain ⟨m, hm⟩ := Option.isSome_iff_exists.1 (hends _ (List.mem_of_getElem? hheld))
        refine ⟨.finish 0, { r with
          active := rest, ready := [⟨batch.number, m⟩], produced := r.produced ++ m.results },
          by simp, ?_⟩
        simp only [step?, hactive, hready, hm, List.getElem?_cons_zero, List.eraseIdx_zero,
          List.tail_cons, List.nil_append, Option.map_some]
      | nil =>
        have hflag := h.orderly.not_cancelled hopen
        cases hwaiting : r.waiting with
        | cons batch rest =>
          have hfree : r.hasFreeWorker job = true := hasFreeWorker_of_idle hactive hready
          refine ⟨.start 0, { r with waiting := rest, active := [batch] }, by simp, ?_⟩
          simp [step?, hfree, hwaiting, hactive, hflag]
        | nil =>
          exact (h.orderly.not_disconnected h.tracked h.collected hopen hwaiting hactive hready
            hsent).elim

/-! ## The run in order -/

namespace Run

/-- All batches but `rest` came in, and nothing is on its way. -/
structure Idle (r : Run τ ρ) (rest : List (Batch τ)) : Prop where
  waiting : r.waiting = rest
  active : r.active = []
  ready : r.ready = []
  sent : r.sent = []
  cancelled : r.cancelled = false
  left : r.report.completed + rest.length = r.report.total
  ending : r.ending = if rest.length = 0 then some .complete else none

/-- At the start nothing is on its way, and without batches the run is over at once. -/
theorem Idle.init (batches : List (List τ)) :
    Idle (Run.init batches : Run τ ρ) (batches.mapIdx Batch.mk) where
  waiting := rfl
  active := rfl
  ready := rfl
  sent := rfl
  cancelled := rfl
  left := by
    rw [List.length_mapIdx]
    exact Nat.zero_add _
  ending := by
    rw [List.length_mapIdx]
    cases batches <;> rfl

/-- The state after the first waiting batch was taken, finished, sent and received. -/
def serve (job : Job τ ρ) (r : Run τ ρ) (number : Nat) (m : Message ρ) : Run τ ρ :=
  receive job { r with waiting := r.waiting.tail, produced := r.produced ++ m.results }
    ⟨number, m⟩ []

section Serve

variable {r : Run τ ρ} {batch : Batch τ} {rest : List (Batch τ)} (h : Idle r (batch :: rest))
  {m : Message ρ}

include h

/-- Four steps bring the first waiting batch through, and then the run goes on from there. -/
theorem Idle.steps_eq (hm : (job.work batch.items).message? = some m) (events : List Event) :
    r.steps job (.start 0 :: .finish 0 :: .send 0 :: .receive :: events) =
      (r.serve job batch.number m).steps job events := by
  have hfree : r.hasFreeWorker job = true := hasFreeWorker_of_idle h.active h.ready
  simp [steps, step?, serve, receive, hfree, hm, h.waiting, h.active, h.ready, h.sent, h.cancelled,
    h.ending]

/-- Nothing is on its way again once a batch was brought through, as long as progress does not ask
to stop. -/
theorem Idle.serve (hquiet : ∀ p, job.notify p = none) :
    Idle (r.serve job batch.number m) rest where
  waiting := congrArg List.tail h.waiting
  active := h.active
  ready := h.ready
  sent := rfl
  cancelled := h.cancelled
  left := by
    have hleft := h.left
    rw [List.length_cons] at hleft
    change r.report.completed + 1 + rest.length = r.report.total
    omega
  ending := by
    have hleft := h.left
    rw [List.length_cons] at hleft
    simp only [Run.serve, receive, BatchReport.receive, hquiet]
    refine if_congr ?_ rfl rfl
    omega

end Serve

/-- With one worker's steps in order, the batches that are left are worked off one after the other,
and their results are appended in that order. -/
theorem Idle.complete {r : Run τ ρ} {rest : List (Batch τ)} (h : Idle r rest)
    (hquiet : ∀ p, job.notify p = none)
    (hends : ∀ batch ∈ rest, (job.work batch.items).message?.isSome) :
    (r.steps job (inOrder job (rest.map (·.items)))).ending = some .complete ∧
      (r.steps job (inOrder job (rest.map (·.items)))).report.results =
        r.report.results ++ (rest.map (·.items)).flatMap fun items => (job.work items).results := by
  induction rest generalizing r with
  | nil =>
    refine ⟨?_, ?_⟩
    · exact h.ending
    · exact (List.append_nil _).symm
  | cons batch rest ih =>
    obtain ⟨m, hm⟩ := Option.isSome_iff_exists.1 (hends batch List.mem_cons_self)
    have hnext : Idle (r.serve job batch.number m) rest := h.serve hquiet
    have hrest := ih hnext fun b hb => hends b (List.mem_cons_of_mem _ hb)
    simp only [List.map_cons, inOrder, hm]
    rw [h.steps_eq hm]
    refine ⟨hrest.1, hrest.2.trans ?_⟩
    change r.report.results ++ m.results ++ _ = _
    rw [List.flatMap_cons, List.append_assoc, (Behaviour.of_message? hm).1]

end Run

theorem map_items_mapIdx (batches : List (List τ)) :
    (batches.mapIdx Batch.mk).map (·.items) = batches := by
  apply List.ext_getElem
  · simp
  · simp

/-- A run by itself completes, and collects what the work on each batch gives, in the order of the
batches. -/
theorem Job.run_complete {batches : List (List τ)} (hquiet : ∀ p, job.notify p = none)
    (hends : ∀ batch ∈ batches, (job.work batch).message?.isSome) :
    (job.run batches).ending = some .complete ∧
      (job.run batches).report.results = batches.flatMap fun batch => (job.work batch).results := by
  have hitems := map_items_mapIdx batches
  have hidle : Run.Idle (Run.init batches : Run τ ρ) (batches.mapIdx Batch.mk) := .init batches
  have hrun := hidle.complete hquiet fun b hb => hends _ (hitems ▸ List.mem_map_of_mem hb)
  rw [hitems] at hrun
  exact hrun

end Deadwood.Scan
