import Deadwood.Usage.Pattern

/-!
# What patterns capture

The ways to match a pattern come in an order, and the first one counts. For each form of a pattern
there are two lemmas: where its first way leads to, and what any of its ways goes over. A repetition
that is followed by a character which it does not accept goes first up to that character
(`Regex.head?_more`), and what is captured is the text between two places (`Regex.head?_capture`).
-/

namespace Deadwood.Usage

open Text

/-! ## Repetition -/

section Run

variable {a : Atom}

/-- The first way over a run of accepted characters goes to the end of the run. -/
theorem Atom.head?_run (captured : Option (List Char)) (before : Option Char)
    {w rest : List Char} (hw : ∀ c ∈ w, a.accepts c = true)
    (hrest : ∀ c ∈ rest.head?, a.accepts c = false) (passed : List Cursor) :
    ∃ b, (a.run captured before (w ++ rest) passed).head? = some ⟨b, rest, captured⟩ := by
  induction w generalizing before passed with
  | nil =>
    cases rest with
    | nil => exact ⟨before, rfl⟩
    | cons c rest =>
      have hc : ¬ a.accepts c = true := by simp [hrest c rfl]
      refine ⟨before, ?_⟩
      rw [List.nil_append, Atom.run, if_neg hc]
      rfl
  | cons c w ih =>
    obtain ⟨hc, hw⟩ := List.forall_mem_cons.1 hw
    rw [List.cons_append, Atom.run, if_pos hc]
    exact ih (some c) hw _

/-- Every way ends behind some accepted characters, or was passed on the way. -/
theorem Atom.exists_of_mem_run {captured : Option (List Char)} {before : Option Char}
    {cs : List Char} {passed : List Cursor} {q : Cursor}
    (h : q ∈ a.run captured before cs passed) :
    q ∈ passed ∨ ∃ w, (∀ c ∈ w, a.accepts c = true) ∧ cs = w ++ q.rest := by
  have hnone : ∀ c ∈ ([] : List Char), a.accepts c = true := fun c hc => absurd hc List.not_mem_nil
  induction cs generalizing before passed with
  | nil =>
    rcases List.mem_cons.1 h with rfl | h
    · exact Or.inr ⟨[], hnone, rfl⟩
    · exact Or.inl h
  | cons c cs ih =>
    rw [Atom.run] at h
    split at h
    · next hc =>
      rcases ih h with h | ⟨w, hw, rfl⟩
      · rcases List.mem_cons.1 h with rfl | h
        · exact Or.inr ⟨[], hnone, rfl⟩
        · exact Or.inl h
      · exact Or.inr ⟨c :: w, List.forall_mem_cons.2 ⟨hc, hw⟩, rfl⟩
    · rcases List.mem_cons.1 h with rfl | h
      · exact Or.inr ⟨[], hnone, rfl⟩
      · exact Or.inl h

end Run

namespace Regex

variable {a : Atom} {r s : Regex} {p q e : Cursor}

/-! ## One part after the other -/

theorem mem_ways_seq : e ∈ (seq r s).ways p ↔ ∃ q ∈ r.ways p, e ∈ s.ways q :=
  List.mem_flatMap

/-- The first way through two parts goes the first way through either, if the second part does not
make the first give way. -/
theorem head?_seq (hr : (r.ways p).head? = some q) (hs : (s.ways q).head? = some e) :
    ((seq r s).ways p).head? = some e := by
  obtain ⟨others, hways⟩ := List.head?_eq_some_iff.1 hr
  rw [ways, hways, List.flatMap_cons, List.head?_append, hs, Option.some_or]

@[simp] theorem ways_seq_empty : (seq r .empty).ways p = r.ways p :=
  List.flatMap_singleton' (r.ways p)

theorem exists_of_mem_one (h : e ∈ (one a).ways p) :
    ∃ c, a.accepts c = true ∧ p.rest = c :: e.rest := by
  rw [ways] at h
  split at h
  · cases h
  · next c cs hrest =>
    split at h
    · next hc =>
      cases List.mem_singleton.1 h
      exact ⟨c, hc, hrest⟩
    · cases h

/-! ## Characters in a row -/

/-- If a run of characters ends where the atom accepts no more of them, the first way goes over all
of it. -/
theorem head?_more (before : Option Char) (captured : Option (List Char)) {w rest : List Char}
    (hne : w ≠ []) (hw : ∀ c ∈ w, a.accepts c = true)
    (hrest : ∀ c ∈ rest.head?, a.accepts c = false) :
    ∃ b, ((more a).ways ⟨before, w ++ rest, captured⟩).head? = some ⟨b, rest, captured⟩ := by
  obtain ⟨c, w, rfl⟩ := List.exists_cons_of_ne_nil hne
  obtain ⟨hc, hw⟩ := List.forall_mem_cons.1 hw
  have hone : ((one a).ways ⟨before, c :: w ++ rest, captured⟩).head? =
      some ⟨some c, w ++ rest, captured⟩ := congrArg List.head? (if_pos hc)
  obtain ⟨b, hb⟩ := Atom.head?_run captured (some c) hw hrest []
  exact ⟨b, head?_seq hone hb⟩

/-- Each way over one or more characters leaves at least one behind it. -/
theorem exists_of_mem_more (h : e ∈ (more a).ways p) :
    ∃ w, w ≠ [] ∧ (∀ c ∈ w, a.accepts c = true) ∧ p.rest = w ++ e.rest := by
  obtain ⟨q, hq, he⟩ := mem_ways_seq.1 h
  obtain ⟨c, hc, hrest⟩ := exists_of_mem_one hq
  obtain ⟨w, hw, hq⟩ := (Atom.exists_of_mem_run he).resolve_left List.not_mem_nil
  refine ⟨c :: w, List.cons_ne_nil _ _, List.forall_mem_cons.2 ⟨hc, hw⟩, ?_⟩
  rw [hrest, hq]
  rfl

/-- A text in which every character stands for itself. -/
def word (w : List Char) : Regex :=
  w.foldr (fun c r => .seq (.one (.set [.char c])) r) .empty

/-- A word is matched in one way, where it stands. -/
theorem ways_word_append (w rest : List Char) (before : Option Char)
    (captured : Option (List Char)) :
    ∃ b, (word w).ways ⟨before, w ++ rest, captured⟩ = [⟨b, rest, captured⟩] := by
  induction w generalizing before with
  | nil => exact ⟨before, rfl⟩
  | cons c w ih =>
    obtain ⟨b, hb⟩ := ih (some c)
    refine ⟨b, ?_⟩
    have hone : (one (.set [.char c])).ways ⟨before, c :: w ++ rest, captured⟩ =
        [⟨some c, w ++ rest, captured⟩] := if_pos (Atom.accepts_char.2 rfl)
    rw [word, List.foldr_cons, ways, hone, List.flatMap_singleton]
    exact hb

theorem rest_of_mem_word {w : List Char} (h : e ∈ (word w).ways p) : p.rest = w ++ e.rest := by
  induction w generalizing p with
  | nil =>
    cases List.mem_singleton.1 h
    rfl
  | cons c w ih =>
    obtain ⟨q, hq, he⟩ := mem_ways_seq.1 h
    obtain ⟨d, hd, hrest⟩ := exists_of_mem_one hq
    rw [hrest, Atom.accepts_char.1 hd, ih he]
    rfl

/-! ## Captures -/

/-- The first way through a group captures what it goes over. -/
theorem head?_capture {w : List Char} (hr : (r.ways p).head? = some q)
    (hrest : p.rest = w ++ q.rest) :
    ((capture r).ways p).head? = some { q with captured := some w } := by
  rw [ways, List.head?_map, hr, Option.map_some, hrest, List.length_append, Nat.add_sub_cancel,
    List.take_left]

theorem exists_of_mem_capture (h : e ∈ (capture r).ways p) : ∃ q ∈ r.ways p, e.rest = q.rest := by
  obtain ⟨q, hq, rfl⟩ := List.mem_map.1 h
  exact ⟨q, hq, rfl⟩

/-! ## The search -/

theorem search?_of_head? {before : Option Char} {text : List Char}
    (h : (r.ways ⟨before, text, none⟩).head? = some e) : r.search? before text = some e := by
  cases text with
  | nil => exact h
  | cons c cs => rw [search?, h]

/-- A place where no way matches is passed. -/
theorem search?_cons_of_nil {before : Option Char} {c : Char} {cs : List Char}
    (h : r.ways ⟨before, c :: cs, none⟩ = []) :
    r.search? before (c :: cs) = r.search? (some c) cs := by
  rw [search?, h]
  rfl

end Regex

end Deadwood.Usage
