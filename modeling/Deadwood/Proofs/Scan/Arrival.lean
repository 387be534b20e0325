import Deadwood.Proofs.Scan.Completion

/-!
# Orders of arrival

With as many workers as batches, all batches can be worked on at a time, and then any one of them
can be the next to come in. So a complete run can receive the batches in every order, and its
results are those of the batches in that order (`exists_arrival`); other results a complete run
cannot have (`Run.Accounted.exists_order`).
-/

namespace Deadwood.Scan

variable {τ ρ : Type} {job : Job τ ρ}

namespace Run

/-- Where workers are free for them, the waiting batches are taken in their order. -/
theorem steps_start (job : Job τ ρ) {r : Run τ ρ} {waiting : List (Batch τ)}
    (hwaiting : r.waiting = waiting)
    (hfree : r.active.length + r.ready.length + waiting.length ≤ job.workers)
    (hcancelled : r.cancelled = false) (events : List Event) :
    r.steps job (List.replicate waiting.length (.start 0) ++ events) =
      { r with waiting := [], active := r.active ++ waiting }.steps job events := by
  induction waiting generalizing r with
  | nil =>
    simp only [List.length_nil, List.replicate_zero, List.nil_append, List.append_nil]
    rw [← hwaiting]
  | cons batch waiting ih =>
    rw [List.length_cons] at hfree
    have hworker : r.hasFreeWorker job = true := by
      simp only [hasFreeWorker, decide_eq_true_eq]
      omega
    have hstep : r.step? job (.start 0) =
        some { r with waiting := waiting, active := r.active ++ [batch] } := by
      simp [step?, hworker, hwaiting, hcancelled]
    have hrest := ih (r := { r with waiting := waiting, active := r.active ++ [batch] }) rfl
      (by simp only [List.length_append, List.length_singleton]; omega) hcancelled
    rw [List.length_cons, List.replicate_succ, List.cons_append, steps, hstep]
    simp only [hrest, List.append_assoc, List.singleton_append]

/-- All batches that did not come in are worked on. -/
structure Busy (r : Run τ ρ) : Prop where
  ready : r.ready = []
  sent : r.sent = []
  left : r.report.completed + r.active.length = r.report.total
  ending : r.ending = if r.active.length = 0 then some .complete else none

/-- The state after the active batch at a position was finished, sent and received. -/
def deliver (job : Job τ ρ) (r : Run τ ρ) (i : Nat) (number : Nat) (m : Message ρ) : Run τ ρ :=
  receive job { r with active := r.active.eraseIdx i, produced := r.produced ++ m.results }
    ⟨number, m⟩ []

section Deliver

variable {r : Run τ ρ} (h : Busy r) {i : Nat} {batch : Batch τ}
  (hi : r.active[i]? = some batch) {m : Message ρ}

include h hi

theorem Busy.steps_eq (hm : (job.work batch.items).message? = some m) (events : List Event) :
    r.steps job (.finish i :: .send 0 :: .receive :: events) =
      (r.deliver job i batch.number m).steps job events := by
  have hlt := (List.getElem?_eq_some_iff.1 hi).1
  have hopen : r.ending = none := by
    rw [h.ending, if_neg]
    omega
  simp [steps, step?, deliver, receive, hi, hm, h.ready, h.sent, hopen]

theorem Busy.deliver (hquiet : ∀ p, job.notify p = none) :
    Busy (r.deliver job i batch.number m) := by
  have hlt := (List.getElem?_eq_some_iff.1 hi).1
  have hlength : (r.deliver job i batch.number m).active.length = r.active.length - 1 :=
    List.length_eraseIdx_of_lt hlt
  have hleft := h.left
  refine ⟨h.ready, rfl, ?_, ?_⟩
  · rw [hlength]
    change r.report.completed + 1 + (r.active.length - 1) = r.report.total
    omega
  · rw [hlength]
    simp only [Run.deliver, receive, BatchReport.receive, hquiet]
    refine if_congr ?_ rfl rfl
    omega

end Deliver

/-- What is worked on can come in in any order. -/
theorem Busy.exists_events {r : Run τ ρ} (h : Busy r) (hquiet : ∀ p, job.notify p = none)
    (hends : ∀ b ∈ r.active, (job.work b.items).message?.isSome) (order : List (List τ))
    (horder : order.Perm (r.active.map (·.items))) :
    ∃ events, (r.steps job events).ending = some .complete ∧
      (r.steps job events).report.results =
        r.report.results ++ order.flatMap fun items => (job.work items).results := by
  induction order generalizing r with
  | nil =>
    have hactive : r.active = [] := List.map_eq_nil_iff.1 horder.nil_eq.symm
    refine ⟨[], ?_, (List.append_nil _).symm⟩
    rw [steps, h.ending, hactive]
    rfl
  | cons items order ih =>
    obtain ⟨batch, hbatch, rfl⟩ := List.mem_map.1 (horder.mem_iff.1 List.mem_cons_self)
    obtain ⟨i, hi⟩ := List.mem_iff_getElem?.1 hbatch
    obtain ⟨m, hm⟩ := Option.isSome_iff_exists.1 (hends batch hbatch)
    have hrest : order.Perm ((r.active.eraseIdx i).map (·.items)) := by
      refine List.Perm.cons_inv (a := batch.items) (horder.trans ?_)
      exact (perm_cons_eraseIdx hi).map (·.items)
    obtain ⟨events, hended, hresults⟩ := ih (h.deliver hi hquiet)
      (fun b hb => hends b (List.mem_of_mem_eraseIdx hb)) hrest
    refine ⟨.finish i :: .send 0 :: .receive :: events, ?_, ?_⟩
    · rw [h.steps_eq hi hm]
      exact hended
    · rw [h.steps_eq hi hm, hresults, List.flatMap_cons, ← (Behaviour.of_message? hm).1,
        ← List.append_assoc]
      rfl

end Run

/-- A complete run can receive its batches in every order. -/
theorem exists_arrival (job : Job τ ρ) {batches order : List (List τ)} (horder : order.Perm batches)
    (hworkers : batches.length ≤ job.workers) (hquiet : ∀ p, job.notify p = none)
    (hends : ∀ batch ∈ batches, (job.work batch).message?.isSome) :
    ∃ events, ((Run.init batches).steps job events).ending = some .complete ∧
      ((Run.init batches).steps job events).report.results =
        order.flatMap fun items => (job.work items).results := by
  have hitems := map_items_mapIdx batches
  let taken : Run τ ρ := { Run.init batches with waiting := [], active := batches.mapIdx Batch.mk }
  have hbusy : Run.Busy taken := by
    refine ⟨rfl, rfl, ?_, ?_⟩
    · change 0 + (batches.mapIdx Batch.mk).length = batches.length
      simp
    · change (if batches.isEmpty then some Ending.complete else none) =
        if (batches.mapIdx Batch.mk).length = 0 then some Ending.complete else none
      simp
  have htaken : order.Perm (taken.active.map (·.items)) := hitems.symm ▸ horder
  obtain ⟨events, hended, hresults⟩ := hbusy.exists_events hquiet
    (fun b hb => hends _ (hitems ▸ List.mem_map_of_mem hb)) order htaken
  have hstart := Run.steps_start job (r := Run.init batches) rfl
    (by simpa [Run.init] using hworkers) rfl events
  exact ⟨_, hstart ▸ hended, hstart ▸ hresults⟩

namespace Run.Accounted

variable {batches : List (List τ)} {r : Run τ ρ}

/-- The results of a complete run are those of its batches in some order. -/
theorem exists_order (h : Accounted job batches r) (he : r.ending = some .complete) :
    ∃ order : List (List τ), order.Perm batches ∧
      r.report.results = order.flatMap fun items => (job.work items).results := by
  obtain ⟨hunder, hreplies⟩ := h.all_received he
  have hplaces := h.tracked.places
  rw [hunder, hreplies, List.map_nil, List.nil_append] at hplaces
  have hall : (List.range batches.length).map (fun n => batches[n]?.getD []) = batches := by
    have hmap := congrArg (List.map (·.getD [])) (map_range_getElem? batches)
    simpa [Function.comp_def] using hmap
  refine ⟨(r.received.map (·.number)).map fun n => batches[n]?.getD [], ?_, ?_⟩
  · have hperm := hplaces.map fun n => batches[n]?.getD []
    rw [hall] at hperm
    exact hperm
  · rw [h.results_eq]
    generalize r.received.map (·.number) = numbers at hplaces ⊢
    rw [List.flatMap_map]
    refine List.flatMap_congr fun n hn => ?_
    have hlt := List.mem_range.1 (hplaces.mem_iff.1 hn)
    simp [Job.resultsAt, List.getElem?_eq_getElem hlt]

theorem timedOut_eq_false (h : Accounted job batches r) (he : r.ending = some .complete) :
    r.report.timedOut = false := by
  by_contra htime
  have hend := h.orderly.timedOut_iff.1 (eq_true_of_ne_false htime)
  rw [he] at hend
  cases hend

end Run.Accounted

end Deadwood.Scan
