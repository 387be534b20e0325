import Deadwood.Proofs.Usage.Shapes
import Deadwood.Usage.TextUse
import Mathlib.Data.List.Forall2

/-!
# Verdicts of the textual scan

The textual scan finds a class used if another file refers to it, in one of the reference shapes.
What is known of shapes (`Shape.name_mem_text`, `Shape.occursIn_mono`) carries over to the verdict:
a class whose name no other file has in it is reported, a class that is used stays used when files
are added and texts get longer (`Extends`), and what the class's own file says does not matter
(`AgreeElsewhere`).
-/

namespace Deadwood.Usage.TextUse

/-! ## References in a text -/

theorem refersTo_iff {className text : String} :
    refersTo className text = true ↔ ∃ s ∈ shapes, s.occursIn className text = true :=
  List.any_eq_true

/-- Every shape has the name in it, so a text that refers to a class holds its name. -/
theorem name_mem_of_refersTo {className text : String} (h : refersTo className text = true) :
    className.toList <:+: text.toList := by
  obtain ⟨s, hs, hoccurs⟩ := refersTo_iff.1 h
  exact Shape.name_mem_text hs hoccurs

/-- Text around a reference does not hide it. -/
theorem refersTo_append {className text : String} (h : refersTo className text = true)
    (before after : String) : refersTo className (before ++ text ++ after) = true := by
  obtain ⟨s, hs, hoccurs⟩ := refersTo_iff.1 h
  have hpart : text.toList <:+: (before ++ text ++ after).toList := by
    rw [String.toList_append, String.toList_append]
    exact ⟨before.toList, after.toList, rfl⟩
  exact refersTo_iff.2 ⟨s, hs, Shape.occursIn_mono hoccurs hpart⟩

/-! ## References in other files -/

section Verdict

variable {u v : TextUse} {c : TextCandidate}

/-- A class is used if any file but its own refers to it. -/
theorem isUsed_iff : u.isUsed c = true ↔
    ∃ f ∈ u.files, f.path.same c.path = false ∧ refersTo c.className f.text = true := by
  simp only [isUsed, List.any_eq_true, List.mem_filter, Bool.not_eq_true', and_assoc]

/-- The finding that a candidate makes if it is not used. -/
def finding (c : TextCandidate) : ClassFinding :=
  (ClassFinding.of c.qualifiedName).located ⟨c.path, 1, 1⟩

theorem check_eq_none_iff : u.check c = none ↔ u.isUsed c = true := by
  rw [check]
  split <;> simp [*]

/-- A candidate that is not used is reported with its finding, which only depends on itself. -/
theorem check_eq_some_iff {f : ClassFinding} :
    u.check c = some f ↔ u.isUsed c = false ∧ finding c = f := by
  rw [check]
  split <;> simp [*, finding]

theorem check_congr (h : v.isUsed c = u.isUsed c) : v.check c = u.check c := by
  rw [check, check, h]

end Verdict

/-! ## Universes that grow -/

/-- The files `vs` come from `us` when files are added, in any place, and files with other paths than
`own` get more text before and after theirs. -/
inductive Extends (own : Path) : List LoadedFile → List LoadedFile → Prop where
  | nil : Extends own [] []
  | add (f : LoadedFile) {us vs : List LoadedFile} : Extends own us vs → Extends own us (f :: vs)
  | keep (f : LoadedFile) {us vs : List LoadedFile} :
    Extends own us vs → Extends own (f :: us) (f :: vs)
  | widen (f : LoadedFile) (before after : String) {us vs : List LoadedFile} :
    f.path.same own = false → Extends own us vs →
      Extends own (f :: us) ({ f with text := before ++ f.text ++ after } :: vs)

theorem Extends.exists_mem {own : Path} {us vs : List LoadedFile} (h : Extends own us vs)
    {f : LoadedFile} (hf : f ∈ us) :
    ∃ g ∈ vs, g.path = f.path ∧
      (g.text = f.text ∨ ∃ before after, g.text = before ++ f.text ++ after) := by
  induction h with
  | nil => cases hf
  | add new _ ih =>
    obtain ⟨g, hg, hsame⟩ := ih hf
    exact ⟨g, List.mem_cons_of_mem _ hg, hsame⟩
  | keep old _ ih =>
    rcases List.mem_cons.1 hf with rfl | hf
    · exact ⟨f, List.mem_cons_self, rfl, Or.inl rfl⟩
    · obtain ⟨g, hg, hsame⟩ := ih hf
      exact ⟨g, List.mem_cons_of_mem _ hg, hsame⟩
  | widen old before after _ _ ih =>
    rcases List.mem_cons.1 hf with rfl | hf
    · exact ⟨_, List.mem_cons_self, rfl, Or.inr ⟨before, after, rfl⟩⟩
    · obtain ⟨g, hg, hsame⟩ := ih hf
      exact ⟨g, List.mem_cons_of_mem _ hg, hsame⟩

/-- More files, and more text in them, can only make a class used. -/
theorem isUsed_of_extends {u v : TextUse} {c : TextCandidate} (hused : u.isUsed c = true)
    (h : Extends c.path u.files v.files) : v.isUsed c = true := by
  obtain ⟨f, hf, hother, hrefers⟩ := isUsed_iff.1 hused
  obtain ⟨g, hg, hpath, htext⟩ := h.exists_mem hf
  refine isUsed_iff.2 ⟨g, hg, hpath ▸ hother, ?_⟩
  rcases htext with htext | ⟨before, after, htext⟩
  · rw [htext]
    exact hrefers
  · rw [htext]
    exact refersTo_append hrefers before after

/-! ## The file of the class -/

/-- The files of `us` and `vs` have the same paths, and the same texts where the path is not
`own`. -/
def AgreeElsewhere (own : Path) (us vs : List LoadedFile) : Prop :=
  List.Forall₂ (fun f g => g.path = f.path ∧ (f.path.same own = false → g.text = f.text)) us vs

/-- Only the candidate's own file is allowed to differ, and it is left out of the search. -/
theorem AgreeElsewhere.filter_eq {own : Path} {us vs : List LoadedFile}
    (h : AgreeElsewhere own us vs) :
    vs.filter (fun f => !f.path.same own) = us.filter (fun f => !f.path.same own) := by
  induction h with
  | nil => rfl
  | @cons f g us vs hfg _ ih =>
    obtain ⟨hpath, htext⟩ := hfg
    rw [List.filter_cons, List.filter_cons, ih, hpath]
    split
    · next hother =>
      have hsame : g = f := by
        rw [LoadedFile.mk.injEq]
        exact ⟨hpath, htext (by simpa using hother)⟩
      rw [hsame]
    · rfl

/-- So what stands in its own file does not matter to a class. -/
theorem isUsed_of_agreeElsewhere {u v : TextUse} {c : TextCandidate}
    (h : AgreeElsewhere c.path u.files v.files) : v.isUsed c = u.isUsed c := by
  rw [isUsed, isUsed, h.filter_eq]

/-- **The laws of the textual verdict.** A candidate is taken for used just if some stretch of
another file's text splits into the parts of a reference shape. So it is reported if no other text
has its name in it; once it is used it stays used when files are added and other texts get longer;
and the texts of files with its own path do not matter. -/
theorem check_laws (u : TextUse) (c : TextCandidate) :
    (u.check c = none ↔ ∃ f ∈ u.files, f.path.same c.path = false ∧ ∃ s ∈ shapes, ∃ stretch,
      Splits c.className.toList s.parts stretch ∧ stretch <:+: f.text.toList) ∧
    ((∀ f ∈ u.files, f.path.same c.path = false → ¬ c.className.toList <:+: f.text.toList) →
      u.check c = some ((ClassFinding.of c.qualifiedName).located ⟨c.path, 1, 1⟩)) ∧
    (u.check c = none → ∀ v : TextUse, Extends c.path u.files v.files → v.check c = none) ∧
    ∀ v : TextUse, AgreeElsewhere c.path u.files v.files → v.check c = u.check c := by
  refine ⟨?_, fun habsent => ?_, fun hnone v hextends => ?_, fun v hagree => ?_⟩
  · rw [check_eq_none_iff, isUsed_iff]
    simp only [refersTo_iff, Shape.occursIn_iff]
  · rw [check_eq_some_iff, ← Bool.not_eq_true]
    refine ⟨fun hused => ?_, rfl⟩
    obtain ⟨f, hf, hother, hrefers⟩ := isUsed_iff.1 hused
    exact habsent f hf hother (name_mem_of_refersTo hrefers)
  · rw [check_eq_none_iff] at hnone ⊢
    exact isUsed_of_extends hnone hextends
  · exact check_congr (isUsed_of_agreeElsewhere hagree)

/-- A class whose name is no word. The other file creates an object of it, also behind a comment; with
the plus sign left out it does not refer to it, whatever the class's own file says. -/
theorem check_laws_sample :
    let own : LoadedFile := ⟨⟨"src/A+b.java"⟩, ""⟩
    let other : LoadedFile := ⟨⟨"src/Other.java"⟩, "new A+b ()"⟩
    let u : TextUse := ⟨⟨"src"⟩, [own, other]⟩
    let c := u.candidate 0 own
    let wider : TextUse :=
      ⟨⟨"src"⟩, [⟨⟨"src/New.java"⟩, ""⟩, own, { other with text := "/*" ++ other.text ++ "*/" }]⟩
    let without : TextUse := ⟨⟨"src"⟩, [own, { other with text := "new Ab ()" }]⟩
    let louder : TextUse :=
      ⟨⟨"src"⟩, [{ own with text := "new A+b ()" }, { other with text := "new Ab ()" }]⟩
    c.className = "A+b" ∧ u.check c = none ∧ wider.check c = none ∧
      without.check c = some ((ClassFinding.of "A+b").located ⟨⟨"src/A+b.java"⟩, 1, 1⟩) ∧
      louder.check c = without.check c := by
  intro own other u c wider without louder
  have hname : c.className = "A+b" := by decide +kernel
  have hqualified : c.qualifiedName = "A+b" := by decide +kernel
  have hother : other.path.same c.path = false := by decide +kernel
  have hused : u.check c = none := by decide +kernel
  obtain ⟨-, -, hextends, -⟩ := check_laws u c
  obtain ⟨-, habsent, -, hagree⟩ := check_laws without c
  refine ⟨hname, hused, hextends hused wider ?_, ?_, hagree louder ?_⟩
  · exact .add _ (.keep own (.widen other "/*" "*/" hother .nil))
  · have hreported := habsent (by decide +kernel)
    rw [hqualified] at hreported
    exact hreported
  · exact .cons ⟨rfl, by decide +kernel⟩ (.cons ⟨rfl, fun _ => rfl⟩ .nil)

end Deadwood.Usage.TextUse
