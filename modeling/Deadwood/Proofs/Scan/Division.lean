import Deadwood.Proofs.Code.Retry
import Deadwood.Proofs.Scan.Additions

/-!
# How work is divided

Where there is room for a batch, any size divides the items: into batches that are full except
perhaps the last one, as many as it takes (`Divides`). Room is asked for a whole batch before any
item is looked at, so a size can be too large although there are few items or none. What a scan
reports does not depend on the size of its batches, as long as there is room for one; where there is
none, a scan that could be made fails (`outcomeOf_eq`).
-/

namespace Deadwood.Scan

open Code Usage
open Java (Node)

variable {α : Type}

/-! ## Batches -/

/-- Items in their order in batches of one size, none of them empty and only the last one shorter.
-/
structure Divides (size : Nat) (items : List α) (batches : List (List α)) : Prop where
  flatten_eq : batches.flatten = items
  ne_nil : ∀ batch ∈ batches, batch ≠ []
  length_le : ∀ batch ∈ batches, batch.length ≤ size
  full : ∀ batch ∈ batches.dropLast, batch.length = size
  count : batches.length = (items.length + (size - 1)) / size

theorem ne_nil_of_mem_batchesOf {more : Nat} {items batch : List α}
    (h : batch ∈ batchesOf more items) : batch ≠ [] := by
  fun_induction batchesOf more items with
  | case1 => cases h
  | case2 x xs ih =>
    rcases List.mem_cons.1 h with rfl | h
    · simp
    · exact ih h

theorem length_le_of_mem_batchesOf {more : Nat} {items batch : List α}
    (h : batch ∈ batchesOf more items) : batch.length ≤ more + 1 := by
  fun_induction batchesOf more items with
  | case1 => cases h
  | case2 x xs ih =>
    rcases List.mem_cons.1 h with rfl | h
    · simp only [List.length_cons, List.length_take]
      omega
    · exact ih h

/-- A batch with another one behind it is full: what is left for the other was too much for it. -/
theorem length_of_mem_dropLast_batchesOf {more : Nat} {items batch : List α}
    (h : batch ∈ (batchesOf more items).dropLast) : batch.length = more + 1 := by
  fun_induction batchesOf more items with
  | case1 => cases h
  | case2 x xs ih =>
    by_cases hrest : batchesOf more (xs.drop more) = []
    · simp [hrest] at h
    · have hleft : xs.drop more ≠ [] := by
        intro hnil
        apply hrest
        rw [hnil, batchesOf]
      rw [List.dropLast_cons_of_ne_nil hrest] at h
      rcases List.mem_cons.1 h with rfl | h
      · have hmore : more < xs.length := by
          rw [← Nat.not_le, ← List.drop_eq_nil_iff]
          exact hleft
        simp only [List.length_cons, List.length_take]
        omega
      · exact ih h

theorem divides_batchesOf (more : Nat) (items : List α) :
    Divides (more + 1) items (batchesOf more items) where
  flatten_eq := flatten_batchesOf more items
  ne_nil _ := ne_nil_of_mem_batchesOf
  length_le _ := length_le_of_mem_batchesOf
  full _ := length_of_mem_dropLast_batchesOf
  count := length_batchesOf more items

/-- There is no room exactly if one full batch is larger than the largest allocation. How many items
there are does not matter, as room is set aside for a full batch. -/
theorem batches?_eq_none_iff {width size : Nat} {items : List α} :
    batches? width size items = none ↔ maxRoom < width * max size 1 := by
  rw [batches?]
  split
  · next hroom => exact iff_of_false (by simp) (Nat.not_lt.2 hroom)
  · next hroom => exact iff_of_true rfl (Nat.not_le.1 hroom)

/-- Where there is room, the batches divide the items. A size of zero counts as one. -/
theorem divides_of_batches? {width size : Nat} {items : List α} {batches : List (List α)}
    (h : batches? width size items = some batches) : Divides (max size 1) items batches := by
  rw [batches?, Option.ite_none_right_eq_some] at h
  obtain ⟨-, hb⟩ := h
  have hsize : max size 1 - 1 + 1 = max size 1 := Nat.sub_add_cancel (Nat.le_max_right size 1)
  rw [← hsize, ← Option.some_inj.1 hb]
  exact divides_batchesOf (max size 1 - 1) items

/-! ## Reports -/

/-- What a scan comes to that would come to `plain` with batches of one item each. -/
def ifRoom (width size : Nat) (plain : Outcome α) : Outcome α :=
  if width * max size 1 ≤ maxRoom ∨ plain.isFailed then plain else .failed "capacity overflow"

theorem isFailed_ofFindings (findings : List α) :
    (Outcome.ofFindings findings).isFailed = false := by
  cases findings <;> rfl

/-- Batches of one item fit if anything does, so their outcome is that of the findings. -/
theorem outcomeOf_one {width : Nat} (hwidth : width ≤ maxRoom) (findings : List α) :
    outcomeOf width 1 (.ok findings) = .ofFindings findings := by
  simp [outcomeOf, hwidth]

/-- The size of batches decides only whether there is room. -/
theorem outcomeOf_eq {width : Nat} (hwidth : width ≤ maxRoom) (size : Nat)
    (result : Except ScanError (List α)) :
    outcomeOf width size result = ifRoom width size (outcomeOf width 1 result) := by
  cases result with
  | error e => simp [outcomeOf, ifRoom, Outcome.isFailed]
  | ok findings =>
    rw [outcomeOf_one hwidth, outcomeOf, ifRoom, isFailed_ofFindings]
    simp

namespace Scanner

/-- A scanner that nobody breaks off, with sizes of batches of its own. -/
def sized (walk : Path → Except ScanError (List Path)) (read : Path → Option String)
    (trees : String → Option Node) (settings : Settings) (processors regexSize astSize : Nat) :
    Scanner :=
  quiet walk read trees { settings with
    scan := { settings.scan with regexBatchSize := regexSize, astBatchSize := astSize } } processors

section Sizes

variable (walk : Path → Except ScanError (List Path)) (read : Path → Option String)
  (trees : String → Option Node) (settings : Settings) (processors regexSize astSize : Nat)
  (root : Path)

/-- Where there is room, the textual report is the one with batches of one item. -/
theorem classesByText_sized :
    let scan := sized walk read trees settings processors
    ((scan regexSize astSize).classesByText root).outcome =
      ifRoom candidateWidth regexSize ((scan 1 1).classesByText root).outcome := by
  intro scan
  rw [classesByText_outcome fun _ => rfl, classesByText_outcome fun _ => rfl]
  exact outcomeOf_eq (by decide) regexSize _

theorem classesByModel_sized :
    let scan := sized walk read trees settings processors
    ((scan regexSize astSize).classesByModel root).outcome =
      ifRoom numberWidth astSize ((scan 1 1).classesByModel root).outcome := by
  intro scan
  rw [classesByModel_outcome fun _ => rfl, classesByModel_outcome fun _ => rfl]
  exact outcomeOf_eq (by decide) astSize _

theorem methods_sized :
    let scan := sized walk read trees settings processors
    ((scan regexSize astSize).methods root).outcome =
      ifRoom numberWidth astSize ((scan 1 1).methods root).outcome := by
  intro scan
  rw [methods_outcome (fun _ => rfl) root rfl, methods_outcome (fun _ => rfl) root rfl]
  exact outcomeOf_eq (by decide) astSize _

end Sizes

end Scanner

/-- **Batches are made wherever there is room for one.** A division fails exactly if a whole batch
would take more room than can be asked for, and else divides the items. Whatever files are scanned,
the size of batches leaves the outcome of every scan as it is with batches of one item, except that
a scan which would not fail then fails without such room. -/
theorem batches_with_room {α : Type} (width size : Nat) (items : List α)
    (walk : Path → Except ScanError (List Path)) (read : Path → Option String)
    (trees : String → Option Node) (settings : Settings) (processors regexSize astSize : Nat)
    (root : Path) :
    let scan := Scanner.sized walk read trees settings processors
    (batches? width size items = none ↔ maxRoom < width * max size 1) ∧
    (∀ batches, batches? width size items = some batches →
      Divides (max size 1) items batches) ∧
    ((scan regexSize astSize).classesByText root).outcome =
      ifRoom candidateWidth regexSize ((scan 1 1).classesByText root).outcome ∧
    ((scan regexSize astSize).classesByModel root).outcome =
      ifRoom numberWidth astSize ((scan 1 1).classesByModel root).outcome ∧
    ((scan regexSize astSize).methods root).outcome =
      ifRoom numberWidth astSize ((scan 1 1).methods root).outcome := by
  intro scan
  refine ⟨batches?_eq_none_iff, ?_, Scanner.classesByText_sized .., Scanner.classesByModel_sized ..,
    Scanner.methods_sized ..⟩
  intro batches h
  exact divides_of_batches? h

/-- A scan of the program that nobody breaks off, with sizes of batches of its own. -/
def Setup.sized (tree : FileTree) (settings : Settings) (processors regexSize astSize : Nat) :
    Setup :=
  ⟨tree, { settings with
    scan := { settings.scan with regexBatchSize := regexSize, astBatchSize := astSize } },
    processors, fun _ => none⟩

/-- The program's own scan is one over the walk of its tree, where a malformed text gives an empty
file. -/
theorem Setup.sized_scanner (tree : FileTree) (settings : Settings)
    (processors regexSize astSize : Nat) :
    (sized tree settings processors regexSize astSize).scanner =
      Scanner.sized tree.filesAt (fun p => (tree.sourceText p).toOption)
        (fun _ => some (.mk .program none "" 1 1 [])) settings processors regexSize astSize := by
  rw [scanner, Recovery.bare_eq_ofTrees]
  rfl

namespace Sample

/-- A working directory with one source file. -/
def alone : FileTree where
  root := .directory [("A.java", .file "class A \x7b int x; \x7d".toUTF8)]
  working := []

/-- The sample is a single file, which the walk finds. -/
theorem alone_found : alone.filesAt ⟨"A.java"⟩ = .ok [⟨"A.java"⟩] := by
  have hstart : FileTree.start [] "A.java" = ([], ["A.java"]) := by decide
  have hresolve : alone.resolve ⟨"A.java"⟩ = .ok ["A.java"] := by
    have hne : "A.java".isEmpty = false := by decide
    simp [FileTree.resolve, hne, alone, hstart, FileTree.follow, Entry.find?]
  rw [FileTree.filesAt, hresolve]
  rfl

/-- The model of the file is built, whatever the sizes of batches. -/
theorem alone_built (astSize : Nat) :
    ∃ m, (Setup.sized alone .default 1 1 astSize).scanner.model ⟨"A.java"⟩ = .ok m := by
  obtain ⟨m, hm⟩ := (Model.RetryLaws.of_recovery .bare _).total
  refine ⟨m, ?_⟩
  simp only [Scanner.model, Scanner.sources, Setup.scanner, Setup.sized, alone_found]
  exact hm

end Sample

/-- The largest size of 64 bits leaves no room for a batch of numbers, and so a scan of one file
fails that would not fail with smaller batches. -/
theorem largest_size_overflows :
    let scan := Setup.sized Sample.alone .default 1
    batches? numberWidth 18446744073709551615 [0] = none ∧
    ((scan 1 1).classesByModel ⟨"A.java"⟩).outcome.isFailed = false ∧
    ((scan 1 18446744073709551615).classesByModel ⟨"A.java"⟩).outcome =
      .failed "capacity overflow" := by
  intro scan
  obtain ⟨m, hm⟩ := Sample.alone_built 1
  have hplain : ((scan 1 1).classesByModel ⟨"A.java"⟩).outcome.isFailed = false := by
    rw [Setup.classesByModel, Scanner.classesByModel_outcome fun _ => rfl, hm]
    exact (congrArg Outcome.isFailed (outcomeOf_one (by decide) _)).trans (isFailed_ofFindings _)
  refine ⟨batches?_eq_none_iff.2 (by decide), hplain, ?_⟩
  rw [Setup.classesByModel, Setup.sized_scanner] at hplain ⊢
  rw [Scanner.classesByModel_sized, ifRoom, if_neg]
  rintro (hroom | hfailed)
  · exact absurd hroom (by decide)
  · rw [hplain] at hfailed
    cases hfailed

end Deadwood.Scan
