import Deadwood.Proofs.Scan.Reports
import Deadwood.Proofs.Usage.Tables

/-!
# What additions to the tables do to the reports

Settings can add to seven tables. Each scan goes by some of them only, and its findings shrink or
grow with those, in the order in which they were. Sorting keeps that, because what is left out of a
list is left out of the sorted list (`mergeSort_sublist`). A scan that a table does not concern
reports the same with the additions, since what it goes by is longer and shorter at once.
-/

namespace Deadwood

/-! ## Outcomes -/

namespace Usage.Outcome

variable {α : Type} {a b : Outcome α}

/-- Both scans fail alike, or both end and the second reports what the first does, in the same
order and with more in between at most. -/
inductive Within : Outcome α → Outcome α → Prop where
  | failed (message : String) : Within (.failed message) (.failed message)
  | ended {xs ys : List α} (h : xs.Sublist ys) : Within (.ofFindings xs) (.ofFindings ys)

theorem Within.items (h : Within a b) : a.items.Sublist b.items := by
  cases h with
  | failed => exact .refl _
  | ended h =>
    rw [Scan.items_ofFindings, Scan.items_ofFindings]
    exact h

/-- Outcomes that are part of each other are the same, as findings keep their order. -/
theorem Within.antisymm (h : Within a b) (h' : Within b a) : a = b := by
  cases h with
  | failed => rfl
  | @ended xs ys h =>
    have hback := h'.items
    rw [Scan.items_ofFindings, Scan.items_ofFindings] at hback
    rw [h.antisymm hback]

end Usage.Outcome

namespace Scan

open Code Usage
open Java (Node)

/-- If every model has fewer findings, so has the outcome. What goes wrong before there are findings
goes wrong alike. -/
theorem outcomeOf_within {α β : Type} {width size : Nat} {x : Except ScanError β}
    {f g : β → List α} (h : ∀ b, (f b).Sublist (g b)) :
    (outcomeOf width size (x.map f)).Within (outcomeOf width size (x.map g)) := by
  cases x with
  | error e => exact .failed _
  | ok b =>
    simp only [Except.map, outcomeOf]
    split
    · exact .ended (h b)
    · exact .failed _

/-! ## Findings -/

/-- Candidates that a longer table of suffixes leaves are in the order that they had. -/
theorem textFindings_sublist {p p' : Policy} (h : p.fileSuffixes ⊆ p'.fileSuffixes)
    (u : TextUse) : (textFindings u p').Sublist (textFindings u p) := by
  refine mergeSort_sublist findingLe_trans findingLe_total (.filterMap _ (.map _ ?_))
  refine List.monotone_filter_right _ fun f hf => ?_
  simp only [Bool.not_eq_true', ← Bool.not_eq_true] at hf ⊢
  exact fun hp => hf (Policy.excludesFile_mono h hp)

theorem classFindings_sublist {p p' : Policy} (h : p.beanAnnotations ⊆ p'.beanAnnotations)
    (m : Model) : (classFindings m p').Sublist (classFindings m p) := by
  refine mergeSort_sublist findingLe_trans findingLe_total (.filterMap _ (.filter _ (.map _ ?_)))
  exact List.monotone_filter_right _ fun t ht => Policy.isCandidate_anti h ht

/-- Both effects of the tables on methods point the same way: what is not used with fewer calls
passed over is not used, and what is not excluded by more entries is not excluded. -/
theorem rank_sublist_of_spares {e e' : Exclusions} (h : Policy.Spares e e') (m : Model) :
    (rank (.extend e') m (MethodUse.ofModel m (.extend e')).used).Sublist
      (rank (.extend e) m (MethodUse.ofModel m (.extend e)).used) :=
  rank_sublist (fun _ => MethodUse.used_mono h m) fun _ _ => h.exclusion?

/-! ## Reports -/

namespace Scanner

/-- A scanner that nobody breaks off. Files that are not well formed have the syntax trees that
`trees` gives them, if it gives any. -/
def quiet (walk : Path → Except ScanError (List Path)) (read : Path → Option String)
    (trees : String → Option Node) (settings : Settings) (processors : Nat) : Scanner :=
  ⟨walk, read, .ofTrees trees, settings, processors, fun _ => none⟩

section Longer

variable (walk : Path → Except ScanError (List Path)) (read : Path → Option String)
  (trees : String → Option Node) (settings : Settings) (processors : Nat) (root : Path)
  {e e' : Exclusions}

theorem classesByText_within (h : e.fileSuffixes ⊆ e'.fileSuffixes) :
    let scan e := quiet walk read trees { settings with exclusions := e } processors
    ((scan e').classesByText root).outcome.Within ((scan e).classesByText root).outcome := by
  intro scan
  rw [classesByText_outcome fun _ => rfl, classesByText_outcome fun _ => rfl]
  exact outcomeOf_within fun _ => textFindings_sublist (Policy.append_subset_append _ h) _

theorem classesByModel_within (h : e.beanAnnotations ⊆ e'.beanAnnotations) :
    let scan e := quiet walk read trees { settings with exclusions := e } processors
    ((scan e').classesByModel root).outcome.Within ((scan e).classesByModel root).outcome := by
  intro scan
  rw [classesByModel_outcome fun _ => rfl, classesByModel_outcome fun _ => rfl]
  exact outcomeOf_within fun m => classFindings_sublist (Policy.append_subset_append _ h) m

theorem methods_within (h : Policy.Spares e e') :
    let scan e := quiet walk read trees { settings with exclusions := e } processors
    ((scan e').methods root).outcome.Within ((scan e).methods root).outcome := by
  intro scan
  rw [methods_outcome (fun _ => rfl) root rfl, methods_outcome (fun _ => rfl) root rfl]
  exact outcomeOf_within fun m => rank_sublist_of_spares h m

end Longer

end Scanner

/-- **What additions to a table do to the reports.** Ends of file names act on the textual scan
alone and bean annotations on the class scan alone; they leave findings out. Container methods let
the method scan report more, the other four tables let it report less, and none of these five acts
on another scan. All this holds for whatever files are found and read below a root, and for whatever
syntax trees those of them have that are not well formed. -/
theorem longer_table_reports (walk : Path → Except ScanError (List Path))
    (read : Path → Option String) (trees : String → Option Node) (settings : Settings)
    (processors : Nat) (root : Path) (table : Table) (more : List String) :
    let longer := { settings with exclusions := settings.exclusions.append more table }
    let before := Scanner.quiet walk read trees settings processors
    let after := Scanner.quiet walk read trees longer processors
    ((after.classesByText root).outcome.Within (before.classesByText root).outcome ∧
      (table ≠ .fileSuffixes →
        (after.classesByText root).outcome = (before.classesByText root).outcome)) ∧
    ((after.classesByModel root).outcome.Within (before.classesByModel root).outcome ∧
      (table ≠ .beanAnnotations →
        (after.classesByModel root).outcome = (before.classesByModel root).outcome)) ∧
    (table ≠ .containerMethods →
      (after.methods root).outcome.Within (before.methods root).outcome) ∧
    (table = .containerMethods →
      (before.methods root).outcome.Within (after.methods root).outcome) ∧
    (table = .fileSuffixes ∨ table = .beanAnnotations →
      (after.methods root).outcome = (before.methods root).outcome) := by
  intro longer before after
  have htext := Scanner.classesByText_within walk read trees settings processors root
    (settings.exclusions.entries_subset_append more table .fileSuffixes)
  have hclass := Scanner.classesByModel_within walk read trees settings processors root
    (settings.exclusions.entries_subset_append more table .beanAnnotations)
  refine ⟨⟨htext, fun hne => ?_⟩, ⟨hclass, fun hne => ?_⟩, fun hne => ?_, fun heq => ?_,
    fun h => ?_⟩
  · exact htext.antisymm (Scanner.classesByText_within walk read trees settings processors root
      (settings.exclusions.append_entries_subset more hne.symm))
  · exact hclass.antisymm (Scanner.classesByModel_within walk read trees settings processors root
      (settings.exclusions.append_entries_subset more hne.symm))
  · exact Scanner.methods_within walk read trees settings processors root
      (Policy.spares_append settings.exclusions more hne)
  · exact Scanner.methods_within walk read trees settings processors root
      (Policy.append_spares settings.exclusions more (Or.inl heq))
  · have hne : table ≠ .containerMethods := by
      rcases h with rfl | rfl <;> decide
    have hless := Scanner.methods_within walk read trees settings processors root
      (Policy.spares_append settings.exclusions more hne)
    exact hless.antisymm (Scanner.methods_within walk read trees settings processors root
      (Policy.append_spares settings.exclusions more (Or.inr h)))

end Scan

end Deadwood
