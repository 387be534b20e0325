import Deadwood.Proofs.Scan.Reports
import Deadwood.Proofs.Usage.Tables
import Mathlib.Data.List.Flatten

/-!
# Runs that lose batches

Work on a batch may fail, break off or not end, and a deadline may leave batches behind. A job that
loses batches in this way is one that another job `Weakens` to. What it reports can only be missing
results (`results_subperm`), and what a batch would have produced is missing from what was produced
only if the batch is `Lost` (`mem_produced_or_lost`). For the class scans a result is a finding, so
the report shrinks; for the method scan a result keeps a method out of the report, so it grows.
-/

namespace Deadwood.Scan

open Code Usage

variable {τ ρ : Type}

/-- On every batch `worse` does what `job` does, or does not return at all. -/
def Job.Weakens (job worse : Job τ ρ) : Prop :=
  ∀ batch, worse.work batch = job.work batch ∨ ∀ results, worse.work batch ≠ .returns results

/-- The batch with a number has no results: it is not answered, or was given up, or failed. -/
def Run.Lost (r : Run τ ρ) (n : Nat) : Prop :=
  (∃ b ∈ r.underway, b.number = n) ∨
    ∃ p ∈ r.replies, p.number = n ∧ ∀ results, p.message ≠ .done results

/-- A run on batches of some items that has returned, of a job that may have lost batches. -/
structure Degraded (job : Job τ ρ) (width : Nat) (items : List τ) (batches : List (List τ))
    (run : Run τ ρ) : Prop where
  divided : ∃ size, batches? width size items = some batches
  reached : ∃ worse events, job.Weakens worse ∧ run = (Run.init batches).steps worse events
  returned : run.Returned

/-- A run of the job itself on the same items, however divided, to which every batch came in. -/
structure Completed (job : Job τ ρ) (width : Nat) (items : List τ) (run : Run τ ρ) : Prop where
  reached : ∃ size batches events, batches? width size items = some batches ∧
    run = (Run.init batches).steps job events
  complete : run.ending = some .complete

/-! ## Results of a run -/

section Results

variable {job worse : Job τ ρ} {batches : List (List τ)} {r : Run τ ρ}

theorem Job.Weakens.results_sublist (h : job.Weakens worse) (batch : List τ) :
    (worse.work batch).results.Sublist (job.work batch).results := by
  rcases h batch with heq | hnone
  · rw [heq]
  · cases hwork : worse.work batch with
    | returns results => exact absurd hwork (hnone results)
    | fails | breaks | stalls => exact List.nil_sublist _

theorem Job.Weakens.resultsAt_sublist (h : job.Weakens worse) (batches : List (List τ)) (n : Nat) :
    (worse.resultsAt batches n).Sublist (job.resultsAt batches n) := by
  unfold resultsAt
  cases batches[n]? with
  | none => exact .refl _
  | some batch => exact h.results_sublist batch

theorem subperm_flatMap {α β : Type} {xs ys : List α} (h : xs.Subperm ys) (f : α → List β) :
    (xs.flatMap f).Subperm (ys.flatMap f) := by
  obtain ⟨zs, hperm, hsub⟩ := h
  exact ⟨zs.flatMap f, hperm.flatMap_right f, hsub.flatMap f⟩

namespace Run

theorem Tracked.numbers_subperm (h : Tracked job batches r) :
    (r.received.map (·.number)).Subperm (List.range batches.length) := by
  have hreplies : r.received.Sublist r.replies :=
    (List.sublist_append_right _ _).trans (List.sublist_append_right _ _)
  have hall := (hreplies.map (·.number)).trans
    (List.sublist_append_right (r.underway.map (·.number)) _)
  exact hall.subperm.trans h.places.subperm

/-- What came in is part of what all batches would have given. -/
theorem Accounted.results_subperm (h : Accounted worse batches r) (hw : job.Weakens worse) :
    r.report.results.Subperm (batches.flatMap fun b => (job.work b).results) := by
  have hnumbers := subperm_flatMap h.tracked.numbers_subperm (worse.resultsAt batches)
  have hless : ((List.range batches.length).flatMap (worse.resultsAt batches)).Sublist
      ((List.range batches.length).flatMap (job.resultsAt batches)) :=
    List.Sublist.flatMap_right _ fun n _ => hw.resultsAt_sublist batches n
  rw [h.results_eq, ← flatMap_range_getElem? batches]
  exact hnumbers.trans hless.subperm

theorem Accounted.mem_results_of_produced (h : Accounted worse batches r) (hw : job.Weakens worse)
    {x : ρ} (hx : x ∈ r.produced) : x ∈ batches.flatMap fun b => (job.work b).results := by
  obtain ⟨p, hp, hx⟩ := List.mem_flatMap.1 (h.tracked.produced_perm.mem_iff.1 hx)
  obtain ⟨items, hitems, hm | hm⟩ := h.tracked.replied p hp
  · rw [(Behaviour.of_message? hm).1] at hx
    have hfull := (hw.results_sublist items).subset hx
    exact List.mem_flatMap.2 ⟨items, List.mem_of_getElem? hitems, hfull⟩
  · rw [hm] at hx
    cases hx

/-- What a batch would have given was produced, unless the batch is lost. -/
theorem Accounted.mem_produced_or_lost (h : Accounted worse batches r) (hw : job.Weakens worse)
    {n : Nat} {batch : List τ} (hbatch : batches[n]? = some batch) {x : ρ}
    (hx : x ∈ (job.work batch).results) : x ∈ r.produced ∨ r.Lost n := by
  have hn : n ∈ List.range batches.length :=
    List.mem_range.2 (List.getElem?_eq_some_iff.1 hbatch).1
  rcases List.mem_append.1 (h.tracked.places.mem_iff.2 hn) with hunder | hreply
  · obtain ⟨b, hb, hnumber⟩ := List.mem_map.1 hunder
    exact Or.inr (Or.inl ⟨b, hb, hnumber⟩)
  · obtain ⟨p, hp, rfl⟩ := List.mem_map.1 hreply
    by_cases hdone : ∃ results, p.message = .done results
    · obtain ⟨results, hdone⟩ := hdone
      obtain ⟨items, hitems, hm | hm⟩ := h.tracked.replied p hp
      · rw [hbatch, Option.some_inj] at hitems
        subst hitems
        refine Or.inl (h.tracked.produced_perm.mem_iff.2 (List.mem_flatMap.2 ⟨p, hp, ?_⟩))
        -- The reply has results, so the work returned, and then it is the work of `job`.
        rcases hw batch with heq | hnone
        · rw [(Behaviour.of_message? hm).1, heq]
          exact hx
        · cases hwork : worse.work batch with
          | returns results => exact absurd hwork (hnone results)
          | fails | breaks | stalls =>
            rw [hwork, hdone] at hm
            cases hm
      · rw [hdone] at hm
        cases hm
    · exact Or.inr (Or.inr ⟨p, hp, rfl, fun results hm => hdone ⟨results, hm⟩⟩)

end Run

end Results

/-! ## Class reports -/

/-- The findings of a class scan that loses batches are some of those of a complete run. -/
theorem Degraded.subperm {job : Job τ ClassFinding} {width : Nat} {items : List τ}
    {batches : List (List τ)} {run full : Run τ ClassFinding} {findings : List ClassFinding}
    (hrun : Degraded job width items batches run) (hfull : Completed job width items full)
    (hall : ∀ size batches, batches? width size items = some batches →
      (batches.flatMap fun b => (job.work b).results) = findings) :
    (Setup.conclude run (sortFindings run.report.results)).outcome.items.Subperm
      (Setup.conclude full (sortFindings full.report.results)).outcome.items := by
  rw [conclude_items hrun.returned, conclude_items (Or.inl hfull.complete)]
  obtain ⟨⟨size, hb⟩, ⟨worse, events, hweak, rfl⟩, -⟩ := hrun
  obtain ⟨⟨size', batches', events', hb', rfl⟩, hcomplete⟩ := hfull
  have hpart := (Run.accounted_steps worse batches events).results_subperm hweak
  have hperm := (Run.accounted_steps job batches' events').results_perm hcomplete
  rw [hall size batches hb] at hpart
  rw [hall size' batches' hb'] at hperm
  exact (((sortFindings_perm _).subperm.trans hpart).trans hperm.symm.subperm).trans
    (sortFindings_perm _).symm.subperm

/-! ## Method reports -/

section Methods

variable {use : MethodUse} (hsound : use.Sound) {size : Nat} {batches : List (List CallId)}
  (hb : batches? numberWidth size (List.range use.model.calls.length) = some batches)
  {workers : Nat} {notify : Progress → Option Payload} {worse : Job CallId MethodId}
  (hweak : (methodJob use workers notify).Weakens worse) {run : Run CallId MethodId}
  (hrun : Run.Accounted worse batches run)

include hsound hb hweak hrun

theorem used_of_produced {id : MethodId} (h : id ∈ UsedSet.ofList run.produced) :
    id ∈ use.used := by
  have hproduced := hrun.mem_results_of_produced hweak (UsedSet.mem_ofList.1 h)
  exact (mem_methodJob_results hsound hb workers notify id).1 hproduced

/-- A batch with a call that uses a method which is not known to be used is lost. -/
theorem lost_of_used {id : MethodId} (h : id ∉ UsedSet.ofList run.produced) {n : Nat}
    {batch : List CallId} (hn : batches[n]? = some batch) {call : CallId} (hcall : call ∈ batch)
    (hid : id ∈ use.usedAt call) : run.Lost n := by
  have hresult : id ∈ ((methodJob use workers notify).work batch).results := by
    rw [methodJob_work hsound hb workers notify (List.mem_of_getElem? hn)]
    exact UsedSet.mem_ofList.2 (List.mem_flatMap.2 ⟨call, hcall, hid⟩)
  rcases hrun.mem_produced_or_lost hweak hn hresult with hproduced | hlost
  · exact absurd (UsedSet.mem_ofList.2 hproduced) h
  · exact hlost

end Methods

theorem isSome_unusedMethod?_iff {policy : Policy} {m : Model} {used : UsedSet} {d : MethodDecl} :
    (unusedMethod? policy m used d).isSome = true ↔ d.id ∉ used ∧
      ∃ t, m.types[d.declaringType]? = some t ∧ policy.exclusion? d t = none := by
  simp only [Option.isSome_iff_exists, unusedMethod?_eq_some_iff]
  constructor
  · rintro ⟨f, hfree, t, ht, hnone, -⟩
    exact ⟨hfree, t, ht, hnone⟩
  · rintro ⟨hfree, t, ht, hnone⟩
    exact ⟨_, hfree, t, ht, hnone, rfl⟩

/-- A smaller set of used methods adds methods of the larger one to the report. -/
theorem rank_perm_append (policy : Policy) (m : Model) {used used' : UsedSet}
    (h : ∀ id ∈ used, id ∈ used') :
    ∃ extra : List MethodDecl,
      (rank policy m used).Perm (rank policy m used' ++ extra.filterMap (finding? m)) ∧
      ∀ d ∈ extra, d ∈ m.methods ∧ d.id ∉ used ∧ d.id ∈ used' := by
  let kept (d : MethodDecl) : Bool := (unusedMethod? policy m used' d).isSome
  have hkept : (reported policy m used).filter kept = reported policy m used' := by
    rw [reported, List.filter_filter]
    refine List.filter_congr fun d _ => ?_
    rw [Bool.and_eq_left_iff_imp, isSome_unusedMethod?_iff, isSome_unusedMethod?_iff]
    intro hsome
    exact ⟨fun hid => hsome.1 (h _ hid), hsome.2⟩
  refine ⟨(reported policy m used).filter fun d => !kept d, ?_, fun d hd => ?_⟩
  · have hsplit := (List.filter_append_perm kept (reported policy m used)).symm
    rw [hkept] at hsplit
    have hfindings := hsplit.filterMap (finding? m)
    rw [List.filterMap_append] at hfindings
    exact (rank_perm_reported.trans hfindings).trans (rank_perm_reported.symm.append_right _)
  · obtain ⟨hreported, hlost⟩ := List.mem_filter.1 hd
    obtain ⟨hmem, hsome⟩ := List.mem_filter.1 hreported
    obtain ⟨hfree, ht⟩ := isSome_unusedMethod?_iff.1 hsome
    refine ⟨hmem, hfree, ?_⟩
    by_contra hused
    have hstill : kept d = true := isSome_unusedMethod?_iff.2 ⟨hused, ht⟩
    simp [hstill] at hlost

/-- **Lost batches hide unused classes and never a method.** Whatever batches fail, break off, do
not end or are left behind at the deadline: the findings of a class scan are some of those of a
complete run, each as often at most. The method report has that of a complete run as a subsequence,
and what it has besides are methods that calls use, but only calls in batches that are lost. -/
theorem lost_batches_degrade (policy : Policy) (workers : Nat)
    (notify : Progress → Option Payload) :
    (∀ (u : TextUse) (batches : List (List TextCandidate)) (run full : Run _ ClassFinding),
      Degraded (textJob u workers notify) candidateWidth (u.candidates policy) batches run →
      Completed (textJob u workers notify) candidateWidth (u.candidates policy) full →
      (Setup.conclude run (sortFindings run.report.results)).outcome.items.Subperm
        (Setup.conclude full (sortFindings full.report.results)).outcome.items) ∧
    (∀ (m : Model) (batches : List (List TypeId)) (run full : Run _ ClassFinding),
      let use := ClassUse.ofModel m policy
      Degraded (classJob use workers notify) numberWidth use.candidates batches run →
      Completed (classJob use workers notify) numberWidth use.candidates full →
      (Setup.conclude run (sortFindings run.report.results)).outcome.items.Subperm
        (Setup.conclude full (sortFindings full.report.results)).outcome.items) ∧
    ∀ (m : Model) (batches : List (List CallId)) (run full : Run _ MethodId),
      let use := MethodUse.ofModel m policy
      let calls := List.range m.calls.length
      let report := (Setup.conclude run (methodFindings use run)).outcome.items
      let complete := (Setup.conclude full (methodFindings use full)).outcome.items
      m.Reached SourceUnit.Shaped →
      Degraded (methodJob use workers notify) numberWidth calls batches run →
      Completed (methodJob use workers notify) numberWidth calls full →
      complete.Sublist report ∧
      ∃ extra : List MethodDecl, report.Perm (complete ++ extra.filterMap (finding? m)) ∧
        ∀ d ∈ extra, d ∈ m.methods ∧ (∃ call ∈ calls, d.id ∈ use.usedAt call) ∧
          ∀ n batch, batches[n]? = some batch → ∀ call ∈ batch, d.id ∈ use.usedAt call →
            run.Lost n := by
  refine ⟨?_, ?_, ?_⟩
  · intro u batches run full hrun hfull
    exact hrun.subperm hfull fun size batches hb => textJob_results hb workers notify
  · intro m batches run full use hrun hfull
    exact hrun.subperm hfull fun size batches hb => classJob_results hb workers notify
  intro m batches run full use calls report complete hm hdegraded hcompleted
  have hsound : use.Sound := MethodUse.sound_ofModel hm.arena policy
  have hreport : report = rank policy m (.ofList run.produced) :=
    conclude_items hdegraded.returned _
  have hcomplete : complete = rank policy m use.used := by
    have hitems : complete = methodFindings use full :=
      conclude_items (Or.inl hcompleted.complete) _
    obtain ⟨⟨size', batches', events', hb', rfl⟩, hended⟩ := hcompleted
    rw [hitems]
    exact methodFindings_of_complete hsound hb' (Run.accounted_steps ..) hended
  obtain ⟨⟨size, hb⟩, ⟨worse, events, hweak, hreached⟩, -⟩ := hdegraded
  have hrun : Run.Accounted worse batches run := hreached ▸ Run.accounted_steps ..
  have hused : ∀ id ∈ UsedSet.ofList run.produced, id ∈ use.used := fun id hid =>
    used_of_produced hsound hb hweak hrun hid
  rw [hreport, hcomplete]
  obtain ⟨extra, hperm, hextra⟩ := rank_perm_append policy m hused
  refine ⟨rank_sublist hused fun _ _ h => h, extra, hperm, fun d hd => ?_⟩
  obtain ⟨hmem, hfree, hid⟩ := hextra d hd
  refine ⟨hmem, ?_, fun n batch hn call hcall hin => ?_⟩
  · rw [use.used_eq, UsedSet.mem_ofList] at hid
    exact List.mem_flatMap.1 hid
  · exact lost_of_used hsound hb hweak hrun hfree hn hcall hin

/-- The job, if its work fails on one batch. -/
def Job.failingOn [DecidableEq τ] (job : Job τ ρ) (lost : List τ) : Job τ ρ :=
  { job with work := fun batch => if batch = lost then .fails "lost" else job.work batch }

theorem Job.weakens_failingOn [DecidableEq τ] (job : Job τ ρ) (lost : List τ) :
    job.Weakens (job.failingOn lost) := by
  intro batch
  by_cases h : batch = lost
  · refine Or.inr fun results hwork => ?_
    simp [failingOn, h] at hwork
  · exact Or.inl (if_neg h)

/-- Of two files that are not referred to, one is lost and not reported. Of three batches of types,
one is received and one is given up at the deadline. Of two batches of calls one fails and one is
not finished, so all methods that they use are reported. -/
theorem lost_batches_degrade_sample :
    let quiet : Progress → Option Payload := fun _ => none
    let first : LoadedFile := ⟨⟨"src/Shop.java"⟩, "package p;"⟩
    let second : LoadedFile := ⟨⟨"src/Bank.java"⟩, "package p;"⟩
    let u : TextUse := ⟨⟨"src"⟩, [first, second]⟩
    let files := [[u.candidate 0 first], [u.candidate 1 second]]
    let byText := textJob u 2 quiet
    let textRun := (Run.init files).steps (byText.failingOn [u.candidate 0 first])
      [.start 0, .start 0, .finish 0, .finish 0, .send 0, .receive, .send 0, .receive]
    let m := Sample.model
    let byModel := classJob (.ofModel m .builtIn) 2 quiet
    let classRun := (Run.init [[0, 1], [2, 3], [4, 5]]).steps byModel
      [.start 0, .start 0, .finish 0, .send 0, .receive, .deadline, .start 0]
    let use := MethodUse.ofModel m .builtIn
    let methods := methodJob use 2 quiet
    let methodRun := (Run.init [[0], [1]]).steps (methods.failingOn [0])
      [.start 0, .start 0, .finish 0, .send 0, .receive, .deadline]
    (Degraded byText candidateWidth (u.candidates .builtIn) files textRun ∧
      Completed byText candidateWidth (u.candidates .builtIn) (byText.run files) ∧
      textRun.report.results = [⟨"p.Bank", none, some ⟨second.path, 1, 1⟩⟩] ∧
      (Setup.conclude textRun (sortFindings textRun.report.results)).outcome.items.Subperm
        (Setup.conclude (byText.run files)
          (sortFindings (byText.run files).report.results)).outcome.items) ∧
    (Degraded byModel numberWidth [0, 1, 2, 3, 4, 5] [[0, 1], [2, 3], [4, 5]] classRun ∧
      Completed byModel numberWidth [0, 1, 2, 3, 4, 5] (byModel.run [[0, 1, 2, 3], [4, 5]]) ∧
      classRun.received.map (·.number) = [0] ∧ classRun.Lost 2 ∧
      (Setup.conclude classRun (sortFindings classRun.report.results)).outcome.items.Subperm
        (Setup.conclude (byModel.run [[0, 1, 2, 3], [4, 5]])
          (sortFindings (byModel.run [[0, 1, 2, 3], [4, 5]]).report.results)).outcome.items) ∧
    m.Reached SourceUnit.Shaped ∧
    Degraded methods numberWidth [0, 1] [[0], [1]] methodRun ∧
    Completed methods numberWidth [0, 1] (methods.run [[0], [1]]) ∧
    (reported .builtIn m (.ofList methodRun.produced)).map (·.id) = [1, 2, 4, 5] ∧
    (Setup.conclude (methods.run [[0], [1]])
      (methodFindings use (methods.run [[0], [1]]))).outcome.items.Sublist
        (Setup.conclude methodRun (methodFindings use methodRun)).outcome.items := by
  intro quiet first second u files byText textRun m byModel classRun use methods methodRun
  have hreached : m.Reached SourceUnit.Shaped := Sample.model_reached Sample.shapes_shaped
  obtain ⟨htext, hclass, hmethod⟩ := lost_batches_degrade .builtIn 2 quiet
  have htextRun : Degraded byText candidateWidth (u.candidates .builtIn) files textRun :=
    ⟨⟨1, by decide +kernel⟩, ⟨_, _, byText.weakens_failingOn _, rfl⟩, Or.inl (by decide +kernel)⟩
  have htextFull : Completed byText candidateWidth (u.candidates .builtIn) (byText.run files) :=
    ⟨⟨1, files, _, by decide +kernel, rfl⟩, rfl⟩
  have hcandidates : (ClassUse.ofModel m .builtIn).candidates = [0, 1, 2, 3, 4, 5] := by
    decide +kernel
  have hclassRun : Degraded byModel numberWidth [0, 1, 2, 3, 4, 5] [[0, 1], [2, 3], [4, 5]]
      classRun :=
    ⟨⟨2, by decide +kernel⟩, ⟨byModel, _, fun _ => Or.inl rfl, rfl⟩, Or.inr (Or.inl rfl)⟩
  have hclassFull : Completed byModel numberWidth [0, 1, 2, 3, 4, 5]
      (byModel.run [[0, 1, 2, 3], [4, 5]]) :=
    ⟨⟨4, _, _, by decide +kernel, rfl⟩, rfl⟩
  have hclassReport := hclass m [[0, 1], [2, 3], [4, 5]] classRun
    (byModel.run [[0, 1, 2, 3], [4, 5]])
  simp only [hcandidates] at hclassReport
  have hgivenUp : classRun.Lost 2 := Or.inr ⟨⟨2, .cancelled⟩, List.mem_cons_self, rfl, nofun⟩
  have hsound : use.Sound := MethodUse.sound_ofModel hreached.arena .builtIn
  have hcalls : batches? numberWidth 1 (List.range m.calls.length) = some [[0], [1]] := by
    decide +kernel
  have hmethodRun : Degraded methods numberWidth [0, 1] [[0], [1]] methodRun :=
    ⟨⟨1, hcalls⟩, ⟨_, _, methods.weakens_failingOn _, rfl⟩, Or.inr (Or.inl rfl)⟩
  have hends : ∀ batch ∈ [[0], [1]], (methods.work batch).message?.isSome := by
    intro batch hbatch
    rw [methodJob_work hsound hcalls 2 quiet hbatch]
    rfl
  have hmethodFull : Completed methods numberWidth [0, 1] (methods.run [[0], [1]]) :=
    ⟨⟨1, _, _, hcalls, rfl⟩, (methods.run_complete (fun _ => rfl) hends).1⟩
  obtain ⟨hsub, -⟩ := hmethod m [[0], [1]] methodRun (methods.run [[0], [1]]) hreached hmethodRun
    hmethodFull
  exact ⟨⟨htextRun, htextFull, by decide +kernel, htext u files _ _ htextRun htextFull⟩,
    ⟨hclassRun, hclassFull, rfl, hgivenUp, hclassReport hclassRun hclassFull⟩,
    hreached, hmethodRun, hmethodFull, by decide +kernel, hsub⟩

end Deadwood.Scan
