import Deadwood.Proofs.Positions
import Deadwood.Scan.Run

/-!
# Accounting for batches

In every state of a run, whatever steps led to it, each batch is in exactly one place: underway
(waiting or worked on), or answered by one reply (ready, sent or received). From this one account
(`Run.Tracked`) follow the counts of the collector (`Run.Collected`) and that no batch which was
given up is ever counted (`Run.Orderly`). Together they are `Run.Accounted`, which every run keeps;
a run that returns before its deadline then has everything.

`Step` says what a single step can do; everything below goes by its cases.
-/

namespace Deadwood.Scan

variable {τ ρ : Type}

/-! ## What a step can do -/

/-- The steps of a run. -/
inductive Step (job : Job τ ρ) (r : Run τ ρ) : Run τ ρ → Prop where
  | take {i : Nat} {batch : Batch τ} (hw : r.waiting[i]? = some batch) (hc : r.cancelled = false) :
    Step job r { r with waiting := r.waiting.eraseIdx i, active := r.active ++ [batch] }
  | giveUp {i : Nat} {batch : Batch τ} (hw : r.waiting[i]? = some batch) (hc : r.cancelled = true) :
    Step job r { r with
      waiting := r.waiting.eraseIdx i
      ready := r.ready ++ [⟨batch.number, .cancelled⟩] }
  | finish {i : Nat} {batch : Batch τ} {m : Message ρ} (ha : r.active[i]? = some batch)
    (hm : (job.work batch.items).message? = some m) :
    Step job r { r with
      active := r.active.eraseIdx i
      ready := r.ready ++ [⟨batch.number, m⟩]
      produced := r.produced ++ m.results }
  | send {i : Nat} {reply : Reply ρ} (hr : r.ready[i]? = some reply) :
    Step job r { r with ready := r.ready.eraseIdx i, sent := r.sent ++ [reply] }
  | receive {reply : Reply ρ} {rest : List (Reply ρ)} (he : r.ending = none)
    (hs : r.sent = reply :: rest) : Step job r (r.receive job reply rest)
  | deadline (he : r.ending = none) :
    Step job r { r with
      report := { r.report with timedOut := true }
      cancelled := true
      ending := some .deadline }
  | disconnect (he : r.ending = none) (hw : r.waiting = []) (ha : r.active = [])
    (hr : r.ready = []) (hs : r.sent = []) : Step job r { r with ending := some .disconnected }

/-- Every event that a run takes is one of the steps. -/
theorem Step.of_step? {job : Job τ ρ} {r next : Run τ ρ} {e : Event}
    (h : r.step? job e = some next) : Step job r next := by
  cases e with
  | start i =>
    simp only [Run.step?] at h
    split at h
    · next batch _ hw =>
      split at h
      · next hc =>
        cases h
        exact .giveUp hw hc
      · next hc =>
        cases h
        exact .take hw (eq_false_of_ne_true hc)
    · cases h
  | finish i =>
    simp only [Run.step?] at h
    split at h
    · cases h
    · next batch ha =>
      obtain ⟨m, hm, rfl⟩ := Option.map_eq_some_iff.1 h
      exact .finish ha hm
  | send i =>
    simp only [Run.step?] at h
    split at h
    · cases h
    · next reply hr =>
      cases h
      exact .send hr
  | receive =>
    simp only [Run.step?] at h
    split at h
    · next reply rest he hs =>
      cases h
      exact .receive he hs
    · cases h
  | deadline =>
    simp only [Run.step?] at h
    split at h
    · next he =>
      cases h
      exact .deadline he
    · cases h
  | disconnect =>
    simp only [Run.step?] at h
    split at h
    · next he hw ha hr hs =>
      cases h
      exact .disconnect he hw ha hr hs
    · cases h

/-- What every step keeps, every run keeps. -/
theorem Run.steps_keeps {job : Job τ ρ} {I : Run τ ρ → Prop}
    (hstep : ∀ {r next : Run τ ρ}, I r → Step job r next → I next) {r : Run τ ρ} (h : I r)
    (events : List Event) : I (r.steps job events) := by
  induction events generalizing r with
  | nil => exact h
  | cons e es ih =>
    rw [Run.steps]
    cases hs : r.step? job e with
    | none => exact h
    | some next => exact ih (hstep h (.of_step? hs))

/-! ## Where the batches are -/

namespace Run

/-- The batches that are not answered. -/
def underway (r : Run τ ρ) : List (Batch τ) :=
  r.waiting ++ r.active

/-- The replies to all batches that are answered, in whatever hands they are. -/
def replies (r : Run τ ρ) : List (Reply ρ) :=
  r.ready ++ (r.sent ++ r.received)

end Run

/-- A step moves batches about, or answers one of them. -/
theorem Step.moves {job : Job τ ρ} {r next : Run τ ρ} (h : Step job r next) :
    (next.underway.Perm r.underway ∧ next.replies.Perm r.replies ∧ next.produced = r.produced) ∨
    ∃ (batch : Batch τ) (m : Message ρ), r.underway.Perm (batch :: next.underway) ∧
      next.replies.Perm (⟨batch.number, m⟩ :: r.replies) ∧
      next.produced = r.produced ++ m.results ∧
      ((job.work batch.items).message? = some m ∨ m = .cancelled ∧ r.cancelled = true) := by
  cases h with
  | @take i batch hw hc =>
    refine Or.inl ⟨?_, .refl _, rfl⟩
    have hmove : (r.waiting.eraseIdx i ++ (r.active ++ [batch])).Perm
        (batch :: (r.waiting.eraseIdx i ++ r.active)) := by
      rw [← List.append_assoc]
      exact List.perm_append_singleton _ _
    exact hmove.trans ((perm_cons_eraseIdx hw).append_right r.active).symm
  | @giveUp i batch hw hc =>
    refine Or.inr ⟨batch, .cancelled, (perm_cons_eraseIdx hw).append_right r.active, ?_,
      (List.append_nil _).symm, Or.inr ⟨rfl, hc⟩⟩
    exact (List.perm_append_singleton _ r.ready).append_right (r.sent ++ r.received)
  | @finish i batch m ha hm =>
    refine Or.inr ⟨batch, m, ?_, ?_, rfl, Or.inl hm⟩
    · have hmove := (perm_cons_eraseIdx ha).append_left r.waiting
      exact hmove.trans List.perm_middle
    · exact (List.perm_append_singleton _ r.ready).append_right (r.sent ++ r.received)
  | @send i reply hr =>
    refine Or.inl ⟨.refl _, ?_, rfl⟩
    have hready := (perm_cons_eraseIdx hr).append_right (r.sent ++ r.received)
    have hmove : (r.ready.eraseIdx i ++ ((r.sent ++ [reply]) ++ r.received)).Perm
        (reply :: (r.ready.eraseIdx i ++ (r.sent ++ r.received))) := by
      rw [List.append_assoc, List.singleton_append]
      exact (List.perm_middle.append_left (r.ready.eraseIdx i)).trans List.perm_middle
    exact hmove.trans hready.symm
  | @receive reply rest he hs =>
    refine Or.inl ⟨.refl _, ?_, rfl⟩
    have hmove : (rest ++ (r.received ++ [reply])).Perm (reply :: (rest ++ r.received)) := by
      rw [← List.append_assoc]
      exact List.perm_append_singleton _ _
    have hsent : r.replies = r.ready ++ (reply :: (rest ++ r.received)) := by
      rw [Run.replies, hs, List.cons_append]
    rw [hsent]
    exact hmove.append_left r.ready
  | deadline he => exact Or.inl ⟨.refl _, .refl _, rfl⟩
  | disconnect he hw ha hr hs => exact Or.inl ⟨.refl _, .refl _, rfl⟩

namespace Run

/-- Every batch is in one place, goes by its own number, and is answered by what its work does. -/
structure Tracked (job : Job τ ρ) (batches : List (List τ)) (r : Run τ ρ) : Prop where
  places : (r.underway.map (·.number) ++ r.replies.map (·.number)).Perm
    (List.range batches.length)
  held : ∀ b ∈ r.underway, batches[b.number]? = some b.items
  replied : ∀ p ∈ r.replies, ∃ items, batches[p.number]? = some items ∧
    ((job.work items).message? = some p.message ∨ p.message = .cancelled)
  produced_perm : r.produced.Perm (r.replies.flatMap (·.message.results))

namespace Tracked

variable {job : Job τ ρ} {batches : List (List τ)} {r next : Run τ ρ}

theorem init : Tracked job batches (Run.init batches) where
  places := by
    have hnumbers : (batches.mapIdx Batch.mk).map (·.number) = List.range batches.length := by
      apply List.ext_getElem
      · simp
      · intro i _ _
        simp
    simp [underway, replies, Run.init, hnumbers]
  held b hb := by
    have hb' : b ∈ batches.mapIdx Batch.mk := by simpa [underway, Run.init] using hb
    obtain ⟨i, hi, rfl⟩ := List.mem_mapIdx.1 hb'
    exact List.getElem?_eq_getElem hi
  replied p hp := by cases hp
  produced_perm := .refl _

/-- A step moves the account along. -/
theorem step (h : Tracked job batches r) (hs : Step job r next) : Tracked job batches next := by
  rcases hs.moves with ⟨hu, hr, hp⟩ | ⟨batch, m, hu, hr, hp, hm⟩
  · refine ⟨?_, ?_, ?_, ?_⟩
    · exact ((hu.map _).append (hr.map _)).trans h.places
    · exact fun b hb => h.held b (hu.mem_iff.1 hb)
    · exact fun p hp => h.replied p (hr.mem_iff.1 hp)
    · rw [hp]
      exact h.produced_perm.trans (hr.flatMap_right _).symm
  · -- A batch is answered: its number moves from the one side of the account to the other.
    have hitems := h.held batch (hu.mem_iff.2 List.mem_cons_self)
    refine ⟨?_, ?_, ?_, ?_⟩
    · have hbefore := (hu.map (·.number)).append_right (r.replies.map (·.number))
      have hafter := (hr.map (·.number)).append_left (next.underway.map (·.number))
      exact (hafter.trans List.perm_middle).trans (hbefore.symm.trans h.places)
    · exact fun b hb => h.held b (hu.mem_iff.2 (List.mem_cons_of_mem _ hb))
    · intro p hp
      rcases List.mem_cons.1 (hr.mem_iff.1 hp) with rfl | hp
      · exact ⟨batch.items, hitems, hm.imp_right And.left⟩
      · exact h.replied p hp
    · rw [hp]
      have hflat := hr.flatMap_right (·.message.results)
      rw [List.flatMap_cons] at hflat
      exact ((h.produced_perm.append_right _).trans List.perm_append_comm).trans hflat.symm

/-- No batch is lost, and none is there twice: what is underway and what has been answered make up
all. -/
theorem length_add (h : Tracked job batches r) :
    r.underway.length + r.replies.length = batches.length := by
  have hlen := h.places.length_eq
  rwa [List.length_append, List.length_map, List.length_map, List.length_range] at hlen

/-- No batch is received twice. -/
theorem received_nodup (h : Tracked job batches r) : (r.received.map (·.number)).Nodup := by
  have hsub : (r.received.map (·.number)).Sublist
      (r.underway.map (·.number) ++ r.replies.map (·.number)) := by
    have hreplies : r.received.Sublist r.replies :=
      (List.sublist_append_right _ _).trans (List.sublist_append_right _ _)
    exact (hreplies.map _).trans (List.sublist_append_right _ _)
  exact (h.places.nodup_iff.2 List.nodup_range).sublist hsub

end Tracked

/-! ## What the collector counts -/

/-- The reports of progress up to a number of batches. -/
def progressUpTo (label : String) (total completed : Nat) : List Progress :=
  (List.range completed).map fun i => ⟨label, i + 1, total⟩

theorem progressUpTo_succ (label : String) (total completed : Nat) :
    progressUpTo label total (completed + 1) =
      progressUpTo label total completed ++ [⟨label, completed + 1, total⟩] := by
  rw [progressUpTo, List.range_succ, List.map_append]
  rfl

/-- The report of the collector agrees with what it received. -/
structure Collected (job : Job τ ρ) (total : Nat) (r : Run τ ρ) : Prop where
  total_eq : r.report.total = total
  completed_eq : r.report.completed = r.received.length
  failed_eq : r.report.failed = r.received.countP (·.message.isFailed)
  results_eq : r.report.results = r.received.flatMap (·.message.results)
  progress_eq : r.progress = progressUpTo job.label total r.report.completed

namespace Collected

variable {job : Job τ ρ} {total : Nat} {r next : Run τ ρ}

theorem init (batches : List (List τ)) :
    Collected job batches.length (Run.init batches : Run τ ρ) :=
  ⟨rfl, rfl, rfl, rfl, rfl⟩

theorem receive (h : Collected job total r) (reply : Reply ρ) (rest : List (Reply ρ)) :
    Collected job total (r.receive job reply rest) where
  total_eq := h.total_eq
  completed_eq := by
    change r.report.completed + 1 = (r.received ++ [reply]).length
    rw [h.completed_eq, List.length_append, List.length_singleton]
  failed_eq := by
    change (if reply.message.isFailed then r.report.failed + 1 else r.report.failed) =
      (r.received ++ [reply]).countP (·.message.isFailed)
    rw [List.countP_append, List.countP_singleton, h.failed_eq]
    split <;> rfl
  results_eq := by
    change r.report.results ++ reply.message.results =
      (r.received ++ [reply]).flatMap (·.message.results)
    rw [List.flatMap_append, List.flatMap_singleton, h.results_eq]
  progress_eq := by
    change r.progress ++ [⟨job.label, r.report.completed + 1, r.report.total⟩] =
      progressUpTo job.label total (r.report.completed + 1)
    rw [progressUpTo_succ, h.progress_eq, h.total_eq]

theorem step (h : Collected job total r) (hs : Step job r next) : Collected job total next := by
  obtain ⟨htotal, hcompleted, hfailed, hresults, hprogress⟩ := h
  cases hs with
  | receive he hs =>
    exact receive ⟨htotal, hcompleted, hfailed, hresults, hprogress⟩ _ _
  | _ => exact ⟨htotal, hcompleted, hfailed, hresults, hprogress⟩

/-- No more batches are counted than there are. -/
theorem completed_le {batches : List (List τ)} (h : Collected job batches.length r)
    (ht : Tracked job batches r) : r.report.completed ≤ r.report.total := by
  rw [h.total_eq, h.completed_eq, ← ht.length_add]
  simp only [replies, List.length_append]
  omega

end Collected

/-! ## How a run ends -/

/-- The flag goes up at the deadline only and what is given up is never received; the collector
stops when it has everything, and not for want of senders. -/
structure Orderly (r : Run τ ρ) : Prop where
  cancelled_ending : r.cancelled = true → r.ending = some .deadline
  timedOut_iff : r.report.timedOut = true ↔ r.ending = some .deadline
  replies_kept : r.cancelled = false → ∀ p ∈ r.replies, p.message ≠ .cancelled
  received_kept : ∀ p ∈ r.received, p.message ≠ .cancelled
  open_lt : r.ending = none → r.report.completed < r.report.total
  complete_eq : r.ending = some .complete → r.report.completed = r.report.total
  connected : r.ending ≠ some .disconnected

namespace Orderly

variable {job : Job τ ρ} {batches : List (List τ)} {r next : Run τ ρ}

theorem init (batches : List (List τ)) : Orderly (Run.init batches : Run τ ρ) where
  cancelled_ending h := by cases h
  timedOut_iff := by
    simp only [Run.init, BatchReport.ofTotal]
    split <;> simp
  replies_kept _ p hp := by cases hp
  received_kept p hp := by cases hp
  open_lt he := by
    simp only [Run.init] at he
    split at he
    · cases he
    · next hne =>
      change 0 < batches.length
      exact List.length_pos_iff.2 fun hnil => hne (List.isEmpty_iff.2 hnil)
  complete_eq he := by
    simp only [Run.init] at he
    split at he
    · next hnil =>
      change 0 = batches.length
      rw [List.isEmpty_iff.1 hnil]
      rfl
    · cases he
  connected he := by
    simp only [Run.init] at he
    split at he <;> cases he

/-- While a run is open, the flag is down. -/
theorem not_cancelled (h : Orderly r) (he : r.ending = none) : r.cancelled = false := by
  cases hc : r.cancelled with
  | false => rfl
  | true =>
    have hend := h.cancelled_ending hc
    rw [he] at hend
    cases hend

/-- What a step does not answer stays as it was answered. -/
theorem replies_kept_step (h : Orderly r) (hs : Step job r next) (hc : r.cancelled = false) :
    ∀ p ∈ next.replies, p.message ≠ .cancelled := by
  intro p hp
  rcases hs.moves with ⟨-, hr, -⟩ | ⟨batch, m, -, hr, -, hm⟩
  · exact h.replies_kept hc p (hr.mem_iff.1 hp)
  · rcases List.mem_cons.1 (hr.mem_iff.1 hp) with rfl | hp
    · rcases hm with hm | ⟨-, hcancelled⟩
      · intro hcancel
        change m = .cancelled at hcancel
        subst hcancel
        cases hw : job.work batch.items <;> rw [hw] at hm <;> cases hm
      · rw [hc] at hcancelled
        cases hcancelled
    · exact h.replies_kept hc p hp

/-- After a reply the run was broken off, is complete with the last batch, or goes on because one is
missing. -/
theorem receive_ending (job : Job τ ρ) (r : Run τ ρ) (reply : Reply ρ) (rest : List (Reply ρ)) :
    (∃ payload, (r.receive job reply rest).ending = some (.broken payload)) ∨
    ((r.receive job reply rest).ending = some .complete ∧
      (r.receive job reply rest).report.completed = (r.receive job reply rest).report.total) ∨
    ((r.receive job reply rest).ending = none ∧
      (r.receive job reply rest).report.completed ≠ (r.receive job reply rest).report.total) := by
  cases hn : job.notify ⟨job.label, (r.report.receive reply.message).completed,
      (r.report.receive reply.message).total⟩ with
  | some payload =>
    refine Or.inl ⟨payload, ?_⟩
    simp only [Run.receive, hn]
  | none =>
    by_cases hall : (r.report.receive reply.message).completed =
        (r.report.receive reply.message).total
    · refine Or.inr (Or.inl ⟨?_, hall⟩)
      simp only [Run.receive, hn, if_pos hall]
    · refine Or.inr (Or.inr ⟨?_, hall⟩)
      simp only [Run.receive, hn, if_neg hall]

theorem receive (h : Orderly r) (ht : Tracked job batches r)
    (hc : Collected job batches.length r) {reply : Reply ρ} {rest : List (Reply ρ)}
    (he : r.ending = none) (hs : r.sent = reply :: rest) :
    Orderly (r.receive job reply rest) := by
  have hstep : Step job r (r.receive job reply rest) := .receive he hs
  -- The run is open, so the flag is still down and the reply was not given up.
  have hflag := h.not_cancelled he
  have hkept := h.replies_kept_step hstep hflag
  have hle := (hc.step hstep).completed_le (ht.step hstep)
  have hend := receive_ending job r reply rest
  have hdead : (r.receive job reply rest).ending ≠ some .deadline := by
    rcases hend with ⟨payload, hb⟩ | ⟨hb, -⟩ | ⟨hb, -⟩ <;> rw [hb] <;> simp
  have hdis : (r.receive job reply rest).ending ≠ some .disconnected := by
    rcases hend with ⟨payload, hb⟩ | ⟨hb, -⟩ | ⟨hb, -⟩ <;> rw [hb] <;> simp
  refine ⟨?_, ?_, fun _ => hkept, ?_, ?_, ?_, hdis⟩
  · intro hcancelled
    change r.cancelled = true at hcancelled
    rw [hflag] at hcancelled
    cases hcancelled
  · have htimed : r.report.timedOut ≠ true := by
      rw [Ne, h.timedOut_iff, he]
      simp
    exact ⟨fun htrue => absurd htrue htimed, fun h => absurd h hdead⟩
  · exact fun p hp => hkept p (List.mem_append_right _ (List.mem_append_right _ hp))
  · intro hopen
    rcases hend with ⟨payload, hb⟩ | ⟨hb, -⟩ | ⟨-, hne⟩
    · rw [hb] at hopen
      cases hopen
    · rw [hb] at hopen
      cases hopen
    · exact Nat.lt_of_le_of_ne hle hne
  · intro hcomplete
    rcases hend with ⟨payload, hb⟩ | ⟨-, heq⟩ | ⟨hb, -⟩
    · rw [hb] at hcomplete
      cases hcomplete
    · exact heq
    · rw [hb] at hcomplete
      cases hcomplete

/-- An open run has something left to send, so nobody finds the channel abandoned. -/
theorem not_disconnected (h : Orderly r) (ht : Tracked job batches r)
    (hc : Collected job batches.length r) (he : r.ending = none) (hw : r.waiting = [])
    (ha : r.active = []) (hr : r.ready = []) (hs : r.sent = []) : False := by
  -- Fewer replies came in than there are batches, yet every batch was answered and received.
  have hlt := h.open_lt he
  have hlen := ht.length_add
  rw [hc.total_eq, hc.completed_eq] at hlt
  simp only [underway, replies, hw, ha, hr, hs, List.nil_append, List.length_nil] at hlen
  omega

theorem step (h : Orderly r) (ht : Tracked job batches r) (hc : Collected job batches.length r)
    (hs : Step job r next) : Orderly next := by
  have hkept := h.replies_kept_step hs
  have ⟨hflag, htimed, _, hreceived, hopen, hcomplete, hconnected⟩ := h
  cases hs with
  | receive he hs => exact receive h ht hc he hs
  | deadline he =>
    exact ⟨fun _ => rfl, by simp, by simp, hreceived, by simp, by simp, by simp⟩
  | disconnect he hw ha hr hs => exact (not_disconnected h ht hc he hw ha hr hs).elim
  | _ => exact ⟨hflag, htimed, hkept, hreceived, hopen, hcomplete, hconnected⟩

end Orderly

/-- Everything that a run keeps. -/
structure Accounted (job : Job τ ρ) (batches : List (List τ)) (r : Run τ ρ) : Prop where
  tracked : Tracked job batches r
  collected : Collected job batches.length r
  orderly : Orderly r

/-- All three invariants hold along every run, whatever the events. -/
theorem accounted_steps (job : Job τ ρ) (batches : List (List τ)) (events : List Event) :
    Accounted job batches ((Run.init batches).steps job events) := by
  refine steps_keeps (I := Accounted job batches) ?_ ⟨.init, .init _, .init _⟩ events
  intro r next h hs
  exact ⟨h.tracked.step hs, h.collected.step hs, h.orderly.step h.tracked h.collected hs⟩

/-- A run that is complete has received a reply to every batch. -/
theorem Accounted.all_received {job : Job τ ρ} {batches : List (List τ)} {r : Run τ ρ}
    (h : Accounted job batches r) (he : r.ending = some .complete) :
    r.underway = [] ∧ r.replies = r.received := by
  have hlen := h.tracked.length_add
  have hall := h.orderly.complete_eq he
  rw [h.collected.completed_eq, h.collected.total_eq] at hall
  have hsplit : r.replies.length = r.ready.length + (r.sent.length + r.received.length) := by
    simp only [replies, List.length_append]
  have hready : r.ready = [] := List.eq_nil_of_length_eq_zero (by omega)
  have hsent : r.sent = [] := List.eq_nil_of_length_eq_zero (by omega)
  refine ⟨List.eq_nil_of_length_eq_zero (by omega), ?_⟩
  rw [replies, hready, hsent, List.nil_append, List.nil_append]

end Run

/-! ## What the work does -/

namespace Behaviour

/-- The results of work that is successful. -/
def results : Behaviour ρ → List ρ
  | .returns results => results
  | _ => []

/-- Whether work ends without success: with an error, or because it breaks off. -/
def isFailure : Behaviour ρ → Bool
  | .fails _ | .breaks _ => true
  | _ => false

/-- A message carries the results of the work that it ends. -/
theorem of_message? {b : Behaviour ρ} {m : Message ρ} (h : b.message? = some m) :
    m.results = b.results ∧ m.isFailed = b.isFailure := by
  cases b <;> cases h <;> exact ⟨rfl, rfl⟩

end Behaviour

namespace Job

/-- The results of the batch with a number, if its work is successful. -/
def resultsAt (job : Job τ ρ) (batches : List (List τ)) (n : Nat) : List ρ :=
  (batches[n]?.map fun b => (job.work b).results).getD []

/-- Whether the work on the batch with a number ends without success. -/
def failsAt (job : Job τ ρ) (batches : List (List τ)) (n : Nat) : Bool :=
  batches[n]?.any fun b => (job.work b).isFailure

theorem failsAt_eq_false {job : Job τ ρ} {batches : List (List τ)}
    (h : ∀ batch ∈ batches, (job.work batch).isFailure = false) (n : Nat) :
    job.failsAt batches n = false := by
  unfold failsAt
  cases hn : batches[n]? with
  | none => rfl
  | some batch => exact h batch (List.mem_of_getElem? hn)

end Job

namespace Run

/-- The run has returned: everything came in, the deadline passed, or nobody was left to send. -/
def Returned (r : Run τ ρ) : Prop :=
  r.ending = some .complete ∨ r.ending = some .deadline ∨ r.ending = some .disconnected

namespace Accounted

variable {job : Job τ ρ} {batches : List (List τ)} {r : Run τ ρ}

/-- A reply that was received is what the work on its batch came to. -/
theorem received_message (h : Accounted job batches r) {p : Reply ρ} (hp : p ∈ r.received) :
    ∃ items, batches[p.number]? = some items ∧ (job.work items).message? = some p.message := by
  obtain ⟨items, hitems, hm⟩ :=
    h.tracked.replied p (List.mem_append_right _ (List.mem_append_right _ hp))
  exact ⟨items, hitems, hm.resolve_right (h.orderly.received_kept p hp)⟩

/-- The failures that are counted are those of the batches that came in. -/
theorem failed_eq (h : Accounted job batches r) :
    r.report.failed = (r.received.map (·.number)).countP (job.failsAt batches) := by
  rw [h.collected.failed_eq, List.countP_map]
  refine List.countP_congr fun p hp => ?_
  obtain ⟨items, hitems, hm⟩ := h.received_message hp
  simp only [Function.comp_apply, Job.failsAt, hitems, Option.any_some,
    (Behaviour.of_message? hm).2]

/-- The results are those of the batches that came in, in the order in which they did. -/
theorem results_eq (h : Accounted job batches r) :
    r.report.results = (r.received.map (·.number)).flatMap (job.resultsAt batches) := by
  rw [h.collected.results_eq, List.flatMap_map]
  refine List.flatMap_congr fun p hp => ?_
  obtain ⟨items, hitems, hm⟩ := h.received_message hp
  simp only [Job.resultsAt, hitems, Option.map_some, Option.getD_some, (Behaviour.of_message? hm).1]

theorem failed_eq_zero (h : Accounted job batches r)
    (hok : ∀ batch ∈ batches, (job.work batch).isFailure = false) : r.report.failed = 0 := by
  rw [h.failed_eq, List.countP_eq_zero]
  intro n _
  rw [Job.failsAt_eq_false hok n]
  exact Bool.false_ne_true

/-- A run that returns in time is complete. -/
theorem complete_of_returned (h : Accounted job batches r) (hr : r.Returned)
    (ht : r.report.timedOut = false) : r.ending = some .complete := by
  rcases hr with he | he | he
  · exact he
  · have htrue := h.orderly.timedOut_iff.2 he
    rw [ht] at htrue
    cases htrue
  · exact absurd he h.orderly.connected

/-- The results of a complete run are those of all batches, in the order in which they came in. -/
theorem results_perm (h : Accounted job batches r) (he : r.ending = some .complete) :
    r.report.results.Perm (batches.flatMap fun b => (job.work b).results) := by
  obtain ⟨hunder, hreplies⟩ := h.all_received he
  have hplaces := h.tracked.places
  rw [hunder, hreplies, List.map_nil, List.nil_append] at hplaces
  rw [h.results_eq, ← flatMap_range_getElem? batches]
  exact hplaces.flatMap_right (job.resultsAt batches)

/-- In a complete run, all that was produced came in. -/
theorem produced_perm (h : Accounted job batches r) (he : r.ending = some .complete) :
    r.produced.Perm (batches.flatMap fun b => (job.work b).results) := by
  have hproduced := h.tracked.produced_perm
  rw [(h.all_received he).2, ← h.collected.results_eq] at hproduced
  exact hproduced.trans (h.results_perm he)

end Accounted

end Run

/-! ## How items are divided -/

/-- Batches put one behind the other are the items again. -/
theorem flatten_batchesOf {α : Type} (more : Nat) (items : List α) :
    (batchesOf more items).flatten = items := by
  fun_induction batchesOf more items with
  | case1 => rfl
  | case2 x xs ih => rw [List.flatten_cons, ih, List.cons_append, List.take_append_drop]

theorem length_batchesOf {α : Type} (more : Nat) (items : List α) :
    (batchesOf more items).length = (items.length + more) / (more + 1) := by
  fun_induction batchesOf more items with
  | case1 =>
    rw [List.length_nil, List.length_nil, Nat.zero_add, Nat.div_eq_of_lt (Nat.lt_succ_self _)]
  | case2 x xs ih =>
    rw [List.length_cons, ih, List.length_drop, List.length_cons]
    rcases Nat.lt_or_ge xs.length more with hlt | hge
    · -- The last batch: nothing is left behind it.
      rw [Nat.sub_eq_zero_of_le (Nat.le_of_lt hlt), Nat.zero_add,
        Nat.div_eq_of_lt (Nat.lt_succ_self _)]
      exact (Nat.div_eq_of_lt_le (by omega) (by omega)).symm
    · have hsplit : xs.length + 1 + more = xs.length - more + more + (more + 1) := by omega
      rw [hsplit, Nat.add_div_right _ (Nat.succ_pos _)]

theorem flatten_batches? {α : Type} {width size : Nat} {items : List α} {batches : List (List α)}
    (h : batches? width size items = some batches) : batches.flatten = items := by
  rw [batches?, Option.ite_none_right_eq_some] at h
  obtain ⟨-, hb⟩ := h
  rw [← Option.some_inj.1 hb, flatten_batchesOf]

/-- The number of batches is the number of items by the size, rounded up. -/
theorem length_batches? {α : Type} {width size : Nat} {items : List α} {batches : List (List α)}
    (h : batches? width size items = some batches) :
    batches.length = (items.length + (max size 1 - 1)) / max size 1 := by
  rw [batches?, Option.ite_none_right_eq_some] at h
  obtain ⟨-, hb⟩ := h
  rw [← Option.some_inj.1 hb, length_batchesOf, Nat.sub_add_cancel (Nat.le_max_right size 1)]

/-! ## The account of a run -/

/-- In every state of a run, the collector has counted each batch that it received once, as what the
work on it came to, and has told the caller of each; nothing that was given up is among them. A run
that returns in time has them all. -/
theorem run_accounted (job : Job τ ρ) {width size : Nat} {items : List τ} {batches : List (List τ)}
    (h : batches? width size items = some batches) (events : List Event) :
    let run := (Run.init batches).steps job events
    let received := run.received.map (·.number)
    run.report.total = batches.length ∧
    run.report.completed = received.length ∧
    run.report.completed ≤ run.report.total ∧
    run.report.failed = received.countP (job.failsAt batches) ∧
    run.report.results = received.flatMap (job.resultsAt batches) ∧
    received.Nodup ∧
    (∀ reply ∈ run.received, reply.message ≠ .cancelled ∧
      ∃ batch, batches[reply.number]? = some batch ∧
        (job.work batch).message? = some reply.message) ∧
    run.progress = Run.progressUpTo job.label run.report.total run.report.completed ∧
    run.ending ≠ some .disconnected ∧
    (run.Returned → run.report.timedOut = false →
      run.report.completed = run.report.total ∧
      run.report.total = (items.length + (max size 1 - 1)) / max size 1 ∧
      run.report.results.Perm (batches.flatMap fun batch => (job.work batch).results)) := by
  intro run received
  have hrun : Run.Accounted job batches run := Run.accounted_steps job batches events
  have htotal := hrun.collected.total_eq
  refine ⟨htotal, ?_, hrun.collected.completed_le hrun.tracked, hrun.failed_eq, hrun.results_eq,
    hrun.tracked.received_nodup, ?_, ?_, hrun.orderly.connected, ?_⟩
  · rw [List.length_map]
    exact hrun.collected.completed_eq
  · exact fun reply hreply =>
      ⟨hrun.orderly.received_kept reply hreply, hrun.received_message hreply⟩
  · rw [htotal]
    exact hrun.collected.progress_eq
  · intro hreturned htime
    have hcomplete := hrun.complete_of_returned hreturned htime
    exact ⟨hrun.orderly.complete_eq hcomplete, htotal.trans (length_batches? h),
      hrun.results_perm hcomplete⟩

namespace Sample

/-- Doubles numbers, refuses batches that begin with zero and breaks off on those that begin with
one. -/
def doubling : Job Nat Nat where
  label := "doubling"
  work
    | 0 :: _ => .fails "zero"
    | 1 :: _ => .breaks (.text "one")
    | batch => .returns (batch.map (2 * ·))
  workers := 2
  notify _ := none

/-- The second batch overtakes the first, and the fourth the third. -/
def overtaking : List Event :=
  [.start 0, .start 0, .finish 1, .send 0, .receive, .start 0, .finish 0, .send 0, .finish 0,
    .start 0, .finish 0, .send 1, .send 0, .receive, .receive, .receive]

end Sample

/-- Two of four batches fail, in two ways, and the others come in with their results. -/
theorem run_accounted_overtaking :
    batches? 8 2 [2, 3, 1, 5, 0, 7, 4] = some [[2, 3], [1, 5], [0, 7], [4]] ∧
    (let run := (Run.init [[2, 3], [1, 5], [0, 7], [4]]).steps Sample.doubling Sample.overtaking
     run.received.map (·.number) = [1, 0, 3, 2] ∧ run.report.failed = 2 ∧
     run.Returned ∧ run.report.timedOut = false ∧ run.report.completed = (7 + 1) / 2 ∧
     run.report.results.Perm [4, 6, 8]) := by
  have hbatches : batches? 8 2 [2, 3, 1, 5, 0, 7, 4] = some [[2, 3], [1, 5], [0, 7], [4]] := by
    decide +kernel
  have hreturned : ((Run.init [[2, 3], [1, 5], [0, 7], [4]]).steps Sample.doubling
      Sample.overtaking).Returned := Or.inl (by decide)
  have hrun := run_accounted Sample.doubling hbatches Sample.overtaking
  obtain ⟨-, -, -, hfailed, -, -, -, -, -, hall⟩ := hrun
  obtain ⟨hcompleted, htotal, hresults⟩ := hall hreturned rfl
  exact ⟨hbatches, by decide, hfailed, hreturned, rfl, hcompleted.trans htotal, hresults⟩

end Deadwood.Scan
