import Deadwood.Proofs.Scan.FindingOrder
import Deadwood.Report.Terminal
import Mathlib.Data.List.Induction

/-!
# Findings under their files

The terminal report sorts findings by file and cuts the sorted list where the file changes. What it
prints is described by a table of files with their findings, `Regroups`: the files ascend, the
findings of a file are those of the report in their order, and a file is written as its first
finding writes it. Such a table is unique (`Regroups.unique`), so it does not matter how it is made:
cutting the sorted list gives it (`regroups_fileTable`), and so does entering the findings one by one
into a table that is kept in order (`regroups_foldl_enter`).
-/

namespace Deadwood.Report

open Code Usage

/-! ## The order of files -/

section Order

instance : Ord Path :=
  ⟨Path.compare⟩

instance : Std.TransOrd Path :=
  inferInstanceAs (Std.TransCmp Path.compare)

variable {p q r : Option Path}

theorem fileLe_eq (p q : Option Path) : fileLe p q = (compare p q).isLE := by
  cases p <;> cases q <;> rfl

theorem fileLe_refl (p : Option Path) : fileLe p p = true := by
  have heq : compare p p = .eq := Std.ReflCmp.compare_self
  rw [fileLe_eq, heq]
  rfl

theorem fileLe_trans (hpq : fileLe p q = true) (hqr : fileLe q r = true) : fileLe p r = true := by
  rw [fileLe_eq] at hpq hqr ⊢
  exact Std.TransCmp.isLE_trans hpq hqr

theorem fileLe_total (p q : Option Path) : (fileLe p q || fileLe q p) = true := by
  have hswap : compare q p = (compare p q).swap := Std.OrientedCmp.eq_swap
  rw [fileLe_eq, fileLe_eq, hswap]
  cases compare p q <;> rfl

/-- Files are the same if neither comes before the other. -/
theorem sameFile_iff : sameFile p q = true ↔ fileLe p q = true ∧ fileLe q p = true := by
  have hswap : compare q p = (compare p q).swap := Std.OrientedCmp.eq_swap
  have hle : (compare p q).isLE = true ∧ (compare q p).isLE = true ↔ compare p q = .eq := by
    rw [hswap]
    cases compare p q <;> decide
  rw [fileLe_eq, fileLe_eq, hle]
  cases p with
  | none => cases q <;> simp [sameFile, compare]
  | some p =>
    cases q with
    | none => simp [sameFile, compare]
    | some q => exact Path.compare_eq_iff.symm

/-- What is no later than a file comes before all that are later than that. -/
theorem fileLe_eq_false (hpq : fileLe p q = true) (hlt : fileLe r q = false) :
    fileLe r p = false := by
  rw [← Bool.not_eq_true] at hlt ⊢
  intro hrp
  exact hlt (fileLe_trans hrp hpq)

/-- Of two different files only one comes before the other. -/
theorem fileLe_eq_false_of_apart (hle : fileLe p q = true) (hne : sameFile p q ≠ true) :
    fileLe q p = false := by
  rw [← Bool.not_eq_true]
  intro hge
  exact hne (sameFile_iff.2 ⟨hle, hge⟩)

theorem sameFile_refl (p : Option Path) : sameFile p p = true :=
  sameFile_iff.2 ⟨fileLe_refl p, fileLe_refl p⟩

theorem sameFile_symm (h : sameFile p q = true) : sameFile q p = true :=
  sameFile_iff.2 (sameFile_iff.1 h).symm

theorem sameFile_trans (hpq : sameFile p q = true) (hqr : sameFile q r = true) :
    sameFile p r = true := by
  rw [sameFile_iff] at hpq hqr ⊢
  exact ⟨fileLe_trans hpq.1 hqr.1, fileLe_trans hqr.2 hpq.2⟩

/-- A file is the same as two others only if these are the same. -/
theorem sameFile_congr (h : sameFile p q = true) : sameFile p r = sameFile q r := by
  rw [Bool.eq_iff_iff]
  exact ⟨sameFile_trans (sameFile_symm h), sameFile_trans h⟩

end Order

/-! ## Tables of files -/

section Tables

variable {α : Type} [Finding α] {findings : List α} {table : List (Option Path × List α)}

/-- A table of the files of findings: the files ascend, each has its findings in their order and is
written as the first of them writes it, and every finding has its file in the table. -/
structure Regroups (findings : List α) (table : List (Option Path × List α)) : Prop where
  ascending : table.Pairwise fun d e => fileLe e.1 d.1 = false
  items_eq : ∀ e ∈ table, e.2 = findings.filter fun f => sameFile e.1 (fileOf f)
  written : ∀ e ∈ table, e.2.head?.map fileOf = some e.1
  covers : ∀ f ∈ findings, ∃ e ∈ table, sameFile e.1 (fileOf f) = true

namespace Regroups

/-- Two tables that group the same findings agree on the group of a file. -/
theorem entry_eq {other : List (Option Path × List α)} (h : Regroups findings table)
    (h' : Regroups findings other) {d e : Option Path × List α} (hd : d ∈ table) (he : e ∈ other)
    (hsame : sameFile d.1 e.1 = true) : d = e := by
  have hitems : d.2 = e.2 := by
    rw [h.items_eq d hd, h'.items_eq e he]
    apply List.filter_congr
    intro f _
    exact sameFile_congr hsame
  have hfile : some d.1 = some e.1 := by
    rw [← h.written d hd, ← h'.written e he, hitems]
  exact Prod.ext (Option.some_inj.1 hfile) hitems

theorem mem_of_mem {other : List (Option Path × List α)} (h : Regroups findings table)
    (h' : Regroups findings other) {d : Option Path × List α} (hd : d ∈ table) : d ∈ other := by
  obtain ⟨f, hf, hfile⟩ := Option.map_eq_some_iff.1 (h.written d hd)
  have hmem : f ∈ findings := by
    have hf := List.mem_of_mem_head? hf
    rw [h.items_eq d hd] at hf
    exact (List.mem_filter.1 hf).1
  obtain ⟨e, he, hsame⟩ := h'.covers f hmem
  rw [hfile] at hsame
  rw [h.entry_eq h' hd he (sameFile_symm hsame)]
  exact he

theorem nodup (h : Regroups findings table) : table.Nodup := by
  refine h.ascending.imp ?_
  rintro d e hlt rfl
  rw [fileLe_refl] at hlt
  cases hlt

/-- The findings of a report determine the table. -/
theorem unique {other : List (Option Path × List α)} (h : Regroups findings table)
    (h' : Regroups findings other) : table = other := by
  have hperm : table.Perm other := by
    rw [List.perm_ext_iff_of_nodup h.nodup h'.nodup]
    intro e
    exact ⟨h.mem_of_mem h', h'.mem_of_mem h⟩
  refine hperm.eq_of_pairwise ?_ h.ascending h'.ascending
  intro d e _ _ hde hed
  have htotal := fileLe_total d.1 e.1
  rw [hde, hed] at htotal
  cases htotal

end Regroups

/-! ## Entering findings one by one -/

/-- Puts a finding behind those of its file. A file that is not in the table gets its place in the
order, written as the finding writes it. -/
def enter (table : List (Option Path × List α)) (f : α) : List (Option Path × List α) :=
  match table with
  | [] => [(fileOf f, [f])]
  | (file, items) :: rest =>
    if sameFile file (fileOf f) then (file, items ++ [f]) :: rest
    else if fileLe (fileOf f) file then (fileOf f, [f]) :: (file, items) :: rest
    else (file, items) :: enter rest f

/-- Where a finding goes in a table: behind the findings of its file, of which there are none if the
file is new, and between the files before and after it. -/
structure Enters (table : List (Option Path × List α)) (f : α)
    (before : List (Option Path × List α)) (file : Option Path) (items : List α)
    (after : List (Option Path × List α)) : Prop where
  same : sameFile file (fileOf f) = true
  enter_eq : enter table f = before ++ (file, items ++ [f]) :: after
  table_eq : table = before ++ (file, items) :: after ∨
    table = before ++ after ∧ file = fileOf f ∧ items = []
  earlier : ∀ d ∈ before, fileLe (fileOf f) d.1 = false
  later : ∀ d ∈ after, fileLe d.1 (fileOf f) = false

/-- There is one entry of an ascending table that a finding can go to, or a place for a new one. -/
theorem exists_enters (h : table.Pairwise fun d e => fileLe e.1 d.1 = false) (f : α) :
    ∃ before file items after, Enters table f before file items after := by
  induction table with
  | nil =>
    exact ⟨[], fileOf f, [], [], sameFile_refl _, rfl, Or.inr ⟨rfl, rfl, rfl⟩, by simp, by simp⟩
  | cons entry rest ih =>
    obtain ⟨file, items⟩ := entry
    obtain ⟨hfirst, hrest⟩ := List.pairwise_cons.1 h
    by_cases hsame : sameFile file (fileOf f) = true
    · refine ⟨[], file, items, rest, hsame, by simp [enter, hsame], Or.inl rfl, by simp, ?_⟩
      intro d hd
      exact fileLe_eq_false (sameFile_iff.1 hsame).2 (hfirst d hd)
    · by_cases hle : fileLe (fileOf f) file = true
      -- A new file goes in front of the first one that is later.
      · refine ⟨[], fileOf f, [], (file, items) :: rest, sameFile_refl _,
          by simp [enter, hsame, hle], Or.inr ⟨rfl, rfl, rfl⟩, by simp, ?_⟩
        intro d hd
        rcases List.mem_cons.1 hd with rfl | hd
        · exact fileLe_eq_false_of_apart hle fun h => hsame (sameFile_symm h)
        · exact fileLe_eq_false hle (hfirst d hd)
      · obtain ⟨before, g, gs, after, hg⟩ := ih hrest
        refine ⟨(file, items) :: before, g, gs, after, hg.same, ?_, ?_, ?_, hg.later⟩
        · simp [enter, hsame, hle, hg.enter_eq]
        · rcases hg.table_eq with htable | ⟨htable, hnew⟩
          · exact Or.inl (by rw [htable, List.cons_append])
          · exact Or.inr ⟨by rw [htable, List.cons_append], hnew⟩
        · intro d hd
          rcases List.mem_cons.1 hd with rfl | hd
          · simpa using hle
          · exact hg.earlier d hd

namespace Enters

variable {f : α} {before after : List (Option Path × List α)} {file : Option Path} {items : List α}
  (h : Enters table f before file items after)

include h

/-- All other entries are of other files. -/
theorem apart : ∀ d ∈ before ++ after, sameFile d.1 (fileOf f) = false := by
  intro d hd
  rw [← Bool.not_eq_true]
  intro hsame
  obtain ⟨hdf, hfd⟩ := sameFile_iff.1 hsame
  rcases List.mem_append.1 hd with hd | hd
  · rw [h.earlier d hd] at hfd
    cases hfd
  · rw [h.later d hd] at hdf
    cases hdf

theorem sublist : (before ++ after).Sublist table := by
  rcases h.table_eq with rfl | ⟨rfl, -⟩
  · exact (List.sublist_cons_self _ _).append_left before
  · exact .refl _

/-- The entry of the file gains the finding, and the others stay. -/
theorem mem_enter {e : Option Path × List α} :
    e ∈ enter table f ↔ e = (file, items ++ [f]) ∨ e ∈ before ++ after := by
  rw [h.enter_eq, List.mem_append, List.mem_cons, List.mem_append]
  exact or_left_comm

theorem file_eq_or_mem {e : Option Path × List α} (he : e ∈ table) :
    e.1 = file ∨ e ∈ before ++ after := by
  rcases h.table_eq with rfl | ⟨rfl, -⟩
  · rw [List.mem_append, List.mem_cons, or_left_comm] at he
    rw [List.mem_append]
    exact he.imp_left (congrArg Prod.fst)
  · exact Or.inr he

/-- A finding that is entered leaves the table ascending. -/
theorem ascending (hasc : table.Pairwise fun d e => fileLe e.1 d.1 = false) :
    (enter table f).Pairwise fun d e => fileLe e.1 d.1 = false := by
  obtain ⟨hle, hge⟩ := sameFile_iff.1 h.same
  have hrest := hasc.sublist h.sublist
  rw [List.pairwise_append] at hrest
  rw [h.enter_eq, List.pairwise_append]
  refine ⟨hrest.1, List.pairwise_cons.2 ⟨?_, hrest.2.1⟩, ?_⟩
  · intro d hd
    exact fileLe_eq_false hle (h.later d hd)
  · intro d hd e he
    rcases List.mem_cons.1 he with rfl | he
    · rw [← Bool.not_eq_true]
      intro hfd
      have hlt := h.earlier d hd
      rw [fileLe_trans hge hfd] at hlt
      cases hlt
    · exact hrest.2.2 d hd e he

/-- What stands in front of the finding is all of its file so far. -/
theorem items_eq (hgroups : Regroups findings table) :
    items = findings.filter fun g => sameFile file (fileOf g) := by
  rcases h.table_eq with htable | ⟨htable, hfile, hitems⟩
  · apply hgroups.items_eq (file, items)
    simp [htable]
  · rw [hitems, eq_comm, List.filter_eq_nil_iff]
    intro g hg hfg
    obtain ⟨e, he, heg⟩ := hgroups.covers g hg
    rw [htable] at he
    have hapart := h.apart e he
    rw [← hfile, sameFile_trans heg (sameFile_symm hfg)] at hapart
    cases hapart

theorem written (hgroups : Regroups findings table) :
    (items ++ [f]).head?.map fileOf = some file := by
  rcases h.table_eq with htable | ⟨-, hfile, hitems⟩
  · have hfirst := hgroups.written (file, items) (by simp [htable])
    obtain ⟨g, hg, -⟩ := Option.map_eq_some_iff.1 hfirst
    rw [List.head?_append, hg, Option.some_or, ← hg]
    exact hfirst
  · rw [hitems, hfile]
    rfl

end Enters

namespace Regroups

theorem empty : Regroups ([] : List α) [] where
  ascending := .nil
  items_eq := by simp
  written := by simp
  covers := by simp

/-- Entering one more finding regroups them all. -/
theorem enter (h : Regroups findings table) (f : α) :
    Regroups (findings ++ [f]) (enter table f) := by
  obtain ⟨before, file, items, after, henters⟩ := exists_enters h.ascending f
  refine ⟨henters.ascending h.ascending, ?_, ?_, ?_⟩
  · intro e he
    rw [List.filter_append]
    rcases henters.mem_enter.1 he with rfl | he
    · simp [henters.same, ← henters.items_eq h]
    · simp [henters.apart e he, ← h.items_eq e (henters.sublist.mem he)]
  · intro e he
    rcases henters.mem_enter.1 he with rfl | he
    · exact henters.written h
    · exact h.written e (henters.sublist.mem he)
  · intro g hg
    rcases List.mem_append.1 hg with hg | hg
    · obtain ⟨e, he, hsame⟩ := h.covers g hg
      rcases henters.file_eq_or_mem he with hfile | he
      · exact ⟨_, henters.mem_enter.2 (Or.inl rfl), hfile ▸ hsame⟩
      · exact ⟨e, henters.mem_enter.2 (Or.inr he), hsame⟩
    · rw [List.mem_singleton.1 hg]
      exact ⟨_, henters.mem_enter.2 (Or.inl rfl), henters.same⟩

end Regroups

/-- The file of a group, as its first finding writes it. -/
def groupFile (part : List α) : Option Path :=
  part.head?.bind fileOf

/-- A list is cut into groups of one file each, in ascending order. -/
structure Cuts (fs : List α) (parts : List (List α)) : Prop where
  flatten_eq : parts.flatten = fs
  ne_nil : ∀ part ∈ parts, part ≠ []
  together : ∀ part ∈ parts, ∀ g ∈ part, sameFile (groupFile part) (fileOf g) = true
  ascending : parts.Pairwise fun c d => fileLe (groupFile d) (groupFile c) = false

namespace Cuts

variable {fs : List α} {parts : List (List α)}

theorem opened {f : α} (h : Cuts fs parts)
    (hlater : ∀ part ∈ parts, fileLe (groupFile part) (fileOf f) = false) :
    Cuts (f :: fs) ([f] :: parts) where
  flatten_eq := by
    rw [List.flatten_cons, h.flatten_eq]
    rfl
  ne_nil := List.forall_mem_cons.2 ⟨by simp, h.ne_nil⟩
  together := by
    refine List.forall_mem_cons.2 ⟨?_, h.together⟩
    intro g hg
    rw [List.mem_singleton.1 hg]
    exact sameFile_refl _
  ascending := List.pairwise_cons.2 ⟨hlater, h.ascending⟩

theorem apart {before after : List (List α)} {part : List α}
    (h : Cuts fs (before ++ part :: after)) :
    ∀ d ∈ before ++ after, ∀ g ∈ d, sameFile (groupFile part) (fileOf g) = false := by
  obtain ⟨-, hafter, hbefore⟩ := List.pairwise_append.1 h.ascending
  intro d hd g hg
  rw [← Bool.not_eq_true]
  intro hsame
  have hmem : d ∈ before ++ part :: after :=
    ((List.sublist_cons_self part after).append_left before).mem hd
  have hfile := sameFile_iff.1 (sameFile_trans hsame (sameFile_symm (h.together d hmem g hg)))
  rcases List.mem_append.1 hd with hd | hd
  · have hlt := hbefore d hd part List.mem_cons_self
    rw [hfile.1] at hlt
    cases hlt
  · have hlt := (List.pairwise_cons.1 hafter).1 d hd
    rw [hfile.2] at hlt
    cases hlt

/-- The group of a file is all that the list has of it. -/
theorem filter_eq (h : Cuts fs parts) {part : List α} (hpart : part ∈ parts) :
    fs.filter (fun g => sameFile (groupFile part) (fileOf g)) = part := by
  obtain ⟨before, after, rfl⟩ := List.append_of_mem hpart
  have hnone : ∀ some_parts : List (List α), (∀ d ∈ some_parts, d ∈ before ++ after) →
      some_parts.flatten.filter (fun g => sameFile (groupFile part) (fileOf g)) = [] := by
    intro some_parts hsub
    rw [List.filter_eq_nil_iff]
    intro g hg
    obtain ⟨d, hd, hgd⟩ := List.mem_flatten.1 hg
    simp [h.apart d (hsub d hd) g hgd]
  have hall : part.filter (fun g => sameFile (groupFile part) (fileOf g)) = part :=
    List.filter_eq_self.2 (h.together part hpart)
  rw [← h.flatten_eq, List.flatten_append, List.flatten_cons, List.filter_append,
    List.filter_append, hall, hnone before (fun d hd => List.mem_append_left _ hd),
    hnone after (fun d hd => List.mem_append_right _ hd)]
  simp

/-- A finding of another file than the next one comes before all groups behind it. -/
theorem later {f g : α} {gs : List α} (h : Cuts fs ((g :: gs) :: parts))
    (hle : fileLe (fileOf f) (fileOf g) = true) (hne : sameFile (fileOf f) (fileOf g) = false) :
    ∀ part ∈ (g :: gs) :: parts, fileLe (groupFile part) (fileOf f) = false := by
  refine List.forall_mem_cons.2 ⟨?_, ?_⟩
  · exact fileLe_eq_false_of_apart hle (Bool.eq_false_iff.1 hne)
  · intro part hpart
    exact fileLe_eq_false hle ((List.pairwise_cons.1 h.ascending).1 part hpart)

end Cuts

end Tables

end Deadwood.Report
