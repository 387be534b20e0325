import Deadwood.Proofs.Code.Built
import Deadwood.Proofs.Scan.ClassScan
import Deadwood.Proofs.Scan.Completion
import Deadwood.Proofs.Scan.MethodScan
import Deadwood.Proofs.Scan.TextScan

/-!
# What the scans report

A scan that nobody breaks off runs its batches to the end in their order. Its outcome then follows
from the files alone: it fails if the files cannot be found, the model cannot be built or there is
no room for a batch, and else it reports the findings of one look over all candidates or calls.
-/

namespace Deadwood.Scan

open Code Usage

/-- What a scan comes to if its findings, or what keeps it from making them, are known before its
work is divided. -/
def outcomeOf {α : Type} (width size : Nat) : Except ScanError (List α) → Outcome α
  | .error e => .failed e.message
  | .ok findings =>
    if width * max size 1 ≤ maxRoom then .ofFindings findings else .failed "capacity overflow"

/-! ## Results of all batches -/

theorem classJob_results {use : ClassUse} {size : Nat} {batches : List (List TypeId)}
    (hb : batches? numberWidth size use.candidates = some batches) (workers : Nat)
    (notify : Progress → Option Payload) :
    (batches.flatMap fun batch => ((classJob use workers notify).work batch).results) =
      use.unusedIn use.candidates := by
  rw [← flatten_batches? hb, ClassUse.unusedIn, List.filter_flatten, List.filterMap_flatten,
    List.map_map]
  exact List.flatMap_def

/-- What a complete run of the method scan reports does not depend on how its calls were divided:
every call was followed, so that all used methods are known. -/
theorem methodFindings_of_complete {use : MethodUse} (h : use.Sound) {size : Nat}
    {batches : List (List CallId)}
    (hb : batches? numberWidth size (List.range use.model.calls.length) = some batches)
    {workers : Nat} {notify : Progress → Option Payload} {run : Run CallId MethodId}
    (hrun : Run.Accounted (methodJob use workers notify) batches run)
    (hcomplete : run.ending = some .complete) :
    methodFindings use run = rank use.policy use.model use.used := by
  rw [methodFindings, produced_eq_used h hb hrun hcomplete]

/-! ## Outcomes -/

theorem items_ofFindings {α : Type} (findings : List α) :
    (Outcome.ofFindings findings).items = findings := by
  cases findings <;> rfl

/-- The report of a run that breaks off is empty; that of any other has all findings. -/
theorem conclude_items_cases {τ ρ α : Type} (r : Run τ ρ) (findings : List α) :
    ((∃ payload, r.ending = some (.broken payload)) ∧
      (Setup.conclude r findings).outcome.items = []) ∨
    (Setup.conclude r findings).outcome.items = findings := by
  unfold Setup.conclude
  split
  · next payload hbroken => exact Or.inl ⟨⟨payload, hbroken⟩, rfl⟩
  · exact Or.inr (items_ofFindings findings)

theorem conclude_items {τ ρ α : Type} {r : Run τ ρ} (h : r.Returned) (findings : List α) :
    (Setup.conclude r findings).outcome.items = findings := by
  refine (conclude_items_cases r findings).resolve_left ?_
  rintro ⟨⟨payload, hbroken⟩, -⟩
  rcases h with he | he | he <;> simp [he] at hbroken

/-- The outcome of a scan whose run by itself completes: the expected findings, unless there is no
room for the batches. -/
theorem Setup.report_outcome {τ ρ α : Type} {job : Job τ ρ} {width size : Nat} {items : List τ}
    {findings : Run τ ρ → List α} {expected : List α} (hquiet : ∀ p, job.notify p = none)
    (hends : ∀ batches, batches? width size items = some batches →
      ∀ batch ∈ batches, (job.work batch).message?.isSome)
    (hfindings : ∀ batches, batches? width size items = some batches →
      (job.run batches).ending = some .complete → findings (job.run batches) = expected) :
    (report job width size items findings).outcome = outcomeOf width size (.ok expected) := by
  rw [report, outcomeOf]
  by_cases hroom : width * max size 1 ≤ maxRoom
  · have hb : batches? width size items = some _ := if_pos hroom
    have hcomplete := (job.run_complete hquiet (hends _ hb)).1
    rw [hb, if_pos hroom]
    simp only [conclude, hcomplete, hfindings _ hb hcomplete]
  · have hb : batches? width size items = none := if_neg hroom
    rw [hb, if_neg hroom]

namespace Scanner

variable {s : Scanner} (hquiet : ∀ p, s.notify p = none) (root : Path)

include hquiet in
/-- What the textual scan reports, without its batches and runs. -/
theorem classesByText_outcome :
    (s.classesByText root).outcome = outcomeOf candidateWidth s.settings.scan.regexBatchSize
      ((s.sources root).map fun sources =>
        textFindings ⟨root, load sources⟩ s.settings.policy) := by
  rw [classesByText]
  cases s.sources root with
  | error e => rfl
  | ok sources =>
    refine Setup.report_outcome hquiet (fun _ _ _ _ => rfl) fun batches hb _ => ?_
    rw [(Job.run_complete hquiet fun _ _ => rfl).2, textJob_results hb]
    rfl

include hquiet in
/-- What the class scan reports, without its batches and runs. -/
theorem classesByModel_outcome :
    (s.classesByModel root).outcome = outcomeOf numberWidth s.settings.scan.astBatchSize
      ((s.model root).map fun m => classFindings m s.settings.policy) := by
  rw [classesByModel]
  cases s.model root with
  | error e => rfl
  | ok m =>
    refine Setup.report_outcome hquiet (fun _ _ _ _ => rfl) fun batches hb _ => ?_
    rw [(Job.run_complete hquiet fun _ _ => rfl).2, classJob_results hb]
    rfl

/-- The model that a scanner builds is reached by adding files, whichever trees malformed texts are
taken for. -/
theorem reached_model {trees : String → Option Java.Node} (hs : s.recovery = .ofTrees trees)
    {m : Model} (h : s.model root = .ok m) : m.Reached SourceUnit.Extracted := by
  obtain ⟨sources, -, hbuild⟩ := exists_of_bind_eq_ok h
  rw [hs] at hbuild
  exact Model.reached_of_buildOrRetryWith hbuild

include hquiet in
/-- What the method scan reports, without its batches and runs. The trees matter here: a number that
is out of range would break a run off, and models of extracted files have none. -/
theorem methods_outcome {trees : String → Option Java.Node} (hs : s.recovery = .ofTrees trees) :
    (s.methods root).outcome = outcomeOf numberWidth s.settings.scan.astBatchSize
      ((s.model root).map fun m =>
        rank s.settings.policy m (MethodUse.ofModel m s.settings.policy).used) := by
  rw [methods]
  cases hmodel : s.model root with
  | error e => rfl
  | ok m =>
    have hreached := (reached_model root hs hmodel).mono fun _ hu => hu.shaped
    have hsound := MethodUse.sound_ofModel hreached.arena s.settings.policy
    refine Setup.report_outcome hquiet (fun _ hb _ => methodJob_ends hsound hb _ _)
      fun batches hb hcomplete => ?_
    exact methodFindings_of_complete hsound hb (Run.accounted_steps _ _ _) hcomplete

end Scanner

end Deadwood.Scan
