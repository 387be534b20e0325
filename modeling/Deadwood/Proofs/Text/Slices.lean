import Deadwood.Text.Slice
import Mathlib.Data.List.Basic

/-!
# Laws of the parts of a text

Splitting at a character loses nothing: the pieces determine the text (`splitAtChar_inj`), and where
two texts are put end to end their outer pieces become one (`splitAtChar_append`). Searching for a
part finds exactly the infixes, and a part is removed from an end for as long as it stands there.
-/

namespace Deadwood.Text

/-! ## Pieces -/

section Pieces

variable {sep : Char} {text other : List Char}

theorem splitAtChar_eq_splitOn (sep : Char) (text : List Char) :
    splitAtChar sep text = text.splitOn sep := by
  induction text with
  | nil => rfl
  | cons c cs ih =>
    rw [splitAtChar, ih, List.splitOn_cons_eq_if_modifyHead]
    obtain ⟨piece, pieces, hpieces⟩ := List.exists_cons_of_ne_nil (List.splitOn_ne_nil sep cs)
    simp only [beq_iff_eq, hpieces, List.modifyHead_cons]

theorem intercalate_splitAtChar (sep : Char) (text : List Char) :
    [sep].intercalate (splitAtChar sep text) = text := by
  rw [splitAtChar_eq_splitOn, List.intercalate_splitOn]

theorem splitAtChar_intercalate {pieces : List (List Char)} (hne : pieces ≠ [])
    (h : ∀ piece ∈ pieces, sep ∉ piece) : splitAtChar sep ([sep].intercalate pieces) = pieces := by
  rw [splitAtChar_eq_splitOn, List.splitOn_intercalate sep h hne]

theorem splitAtChar_inj (sep : Char) :
    splitAtChar sep text = splitAtChar sep other ↔ text = other := by
  refine ⟨fun h => ?_, fun h => h ▸ rfl⟩
  rw [← intercalate_splitAtChar sep text, h, intercalate_splitAtChar]

theorem splitAtChar_append_sep (text other : List Char) :
    splitAtChar sep (text ++ sep :: other) = splitAtChar sep text ++ splitAtChar sep other := by
  simp only [splitAtChar_eq_splitOn, List.splitOn_append_cons_self]

theorem splitAtChar_eq_singleton (h : sep ∉ text) : splitAtChar sep text = [text] := by
  rw [splitAtChar_eq_splitOn, List.splitOn_eq_singleton h]

theorem notMem_of_mem_splitAtChar {piece : List Char} (h : piece ∈ splitAtChar sep text) :
    sep ∉ piece := by
  induction text generalizing piece with
  | nil =>
    rw [splitAtChar, List.mem_singleton] at h
    simp [h]
  | cons c cs ih =>
    obtain ⟨first, pieces, hpieces⟩ := List.exists_cons_of_ne_nil (splitAtChar_ne_nil sep cs)
    rw [hpieces] at ih
    rw [splitAtChar, hpieces] at h
    split at h
    · rcases List.mem_cons.1 h with rfl | h
      · exact List.not_mem_nil
      · exact ih h
    · next hc =>
      rcases List.mem_cons.1 h with rfl | h
      · rw [List.mem_cons, not_or]
        exact ⟨Ne.symm hc, ih List.mem_cons_self⟩
      · exact ih (List.mem_cons_of_mem _ h)

theorem exists_splitAtChar_concat (sep : Char) (text : List Char) :
    ∃ before last, splitAtChar sep text = before ++ [last] := by
  obtain ⟨before, last, h⟩ :=
    (splitAtChar sep text).eq_nil_or_concat.resolve_left (splitAtChar_ne_nil sep text)
  exact ⟨before, last, h.trans List.concat_eq_append⟩

/-- Two texts put end to end share the piece where they meet. -/
theorem splitAtChar_append {before after : List (List Char)} {last first : List Char}
    (htext : splitAtChar sep text = before ++ [last])
    (hother : splitAtChar sep other = first :: after) :
    splitAtChar sep (text ++ other) = before ++ (last ++ first) :: after := by
  induction text generalizing before last with
  | nil =>
    obtain ⟨rfl, hlast⟩ := List.append_eq_singleton_iff.1 htext.symm |>.resolve_right (by simp)
    cases hlast
    exact hother
  | cons c cs ih =>
    obtain ⟨piece, pieces, hpieces⟩ := List.exists_cons_of_ne_nil (splitAtChar_ne_nil sep cs)
    rw [List.cons_append, splitAtChar]
    rw [splitAtChar, hpieces] at htext
    cases before with
    | nil =>
      split at htext
      · simp at htext
      · next hc =>
        -- `c` belongs to the one piece of `text`, which `other` goes on with
        obtain ⟨rfl, rfl⟩ := List.cons.inj htext
        have hcs : splitAtChar sep cs = [] ++ [piece] := hpieces
        rw [if_neg hc, ih hcs]
        rfl
    | cons head before =>
      obtain hc | hc := em (c = sep)
      · rw [if_pos hc] at htext ⊢
        obtain ⟨rfl, htail⟩ := List.cons.inj htext
        rw [ih (hpieces.trans htail), List.cons_append]
      · rw [if_neg hc] at htext ⊢
        obtain ⟨rfl, rfl⟩ := List.cons.inj htext
        have hcs : splitAtChar sep cs = (piece :: before) ++ [last] := hpieces
        rw [ih hcs]
        rfl

/-- Where the pieces are cut in two, so is the text, at the separator between them. -/
theorem splitAtChar_eq_append_iff {before after : List (List Char)} (hbefore : before ≠ [])
    (hafter : after ≠ []) :
    splitAtChar sep text = before ++ after ↔
      ∃ front back, text = front ++ sep :: back ∧
        splitAtChar sep front = before ∧ splitAtChar sep back = after := by
  constructor
  · intro h
    have hfree : ∀ piece ∈ before ++ after, sep ∉ piece := fun piece hpiece =>
      notMem_of_mem_splitAtChar (h ▸ hpiece)
    have hfront := splitAtChar_intercalate hbefore fun piece hpiece =>
      hfree piece (List.mem_append_left _ hpiece)
    have hback := splitAtChar_intercalate hafter fun piece hpiece =>
      hfree piece (List.mem_append_right _ hpiece)
    refine ⟨_, _, (splitAtChar_inj sep).1 ?_, hfront, hback⟩
    rw [splitAtChar_append_sep, hfront, hback, h]
  · rintro ⟨front, back, rfl, rfl, rfl⟩
    exact splitAtChar_append_sep front back

/-- Where one of the pieces is cut in two, so is the text, inside that piece. -/
theorem splitAtChar_eq_within_iff {before after : List (List Char)} {last first : List Char} :
    splitAtChar sep text = before ++ (last ++ first) :: after ↔
      ∃ front back, text = front ++ back ∧
        splitAtChar sep front = before ++ [last] ∧ splitAtChar sep back = first :: after := by
  constructor
  · intro h
    have hfree : ∀ piece ∈ before ++ (last ++ first) :: after, sep ∉ piece := fun piece hpiece =>
      notMem_of_mem_splitAtChar (h ▸ hpiece)
    have hmiddle : sep ∉ last ++ first :=
      hfree _ (List.mem_append_right _ List.mem_cons_self)
    rw [List.mem_append, not_or] at hmiddle
    have hfront : splitAtChar sep ([sep].intercalate (before ++ [last])) = before ++ [last] := by
      refine splitAtChar_intercalate (by simp) fun piece hpiece => ?_
      rcases List.mem_append.1 hpiece with hpiece | hpiece
      · exact hfree piece (List.mem_append_left _ hpiece)
      · exact List.mem_singleton.1 hpiece ▸ hmiddle.1
    have hback : splitAtChar sep ([sep].intercalate (first :: after)) = first :: after := by
      refine splitAtChar_intercalate (by simp) fun piece hpiece => ?_
      rcases List.mem_cons.1 hpiece with rfl | hpiece
      · exact hmiddle.2
      · exact hfree piece (List.mem_append_right _ (List.mem_cons_of_mem _ hpiece))
    refine ⟨_, _, (splitAtChar_inj sep).1 ?_, hfront, hback⟩
    rw [splitAtChar_append hfront hback, h]
  · rintro ⟨front, back, rfl, hfront, hback⟩
    exact splitAtChar_append hfront hback

end Pieces

/-! ## Searching and trimming -/

theorem occursIn_iff {part text : List Char} : occursIn part text = true ↔ part <:+: text := by
  induction text with
  | nil => rw [occursIn, List.isEmpty_iff, List.infix_nil]
  | cons c cs ih =>
    rw [occursIn, Bool.or_eq_true, ih, List.isPrefixOf_iff_prefix, List.infix_cons_iff]

theorem dropWhile_ne_cases (c : Char) (text : List Char) :
    text.dropWhile (· != c) = [] ∨ ∃ rest, text.dropWhile (· != c) = c :: rest := by
  have hhead := List.head?_dropWhile_not (· != c) text
  cases hrest : text.dropWhile (· != c) with
  | nil => exact Or.inl rfl
  | cons d rest =>
    rw [hrest] at hhead
    have hd : d = c := by simpa using hhead
    exact Or.inr ⟨rest, by rw [hd]⟩

theorem trimStartOf_eq_self {lead text : List Char} (h : ¬ lead <+: text) :
    trimStartOf lead text = text := by
  rw [trimStartOf, dif_neg]
  rintro ⟨-, hpre⟩
  exact h (List.isPrefixOf_iff_prefix.1 hpre)

theorem trimStartOf_append {lead : List Char} (hne : lead ≠ []) (text : List Char) :
    trimStartOf lead (lead ++ text) = trimStartOf lead text := by
  rw [trimStartOf, dif_pos ⟨hne, List.isPrefixOf_iff_prefix.2 (List.prefix_append _ _)⟩,
    List.drop_left]

/-- What is trimmed does not begin with the lead any more, however often that was repeated. -/
theorem not_lead_trimStartOf {lead : List Char} (hne : lead ≠ []) (text : List Char) :
    ¬ lead <+: trimStartOf lead text := by
  fun_induction trimStartOf lead text with
  | case1 text _ ih => exact ih
  | case2 text h =>
    intro hpre
    exact h ⟨hne, List.isPrefixOf_iff_prefix.2 hpre⟩

theorem trimStartOf_suffix (lead text : List Char) : trimStartOf lead text <:+ text := by
  fun_induction trimStartOf lead text with
  | case1 text _ ih => exact ih.trans (List.drop_suffix _ _)
  | case2 => exact List.suffix_rfl

/-- A character that `lead` does not have stops the trimming. -/
theorem trimStartOf_append_cons {lead : List Char} {c : Char} (hc : c ∉ lead)
    (text rest : List Char) :
    trimStartOf lead (text ++ c :: rest) = trimStartOf lead text ++ c :: rest := by
  fun_induction trimStartOf lead text with
  | case1 text h ih =>
    obtain ⟨hne, hpre⟩ := h
    obtain ⟨back, rfl⟩ := List.isPrefixOf_iff_prefix.1 hpre
    rw [List.drop_left] at ih ⊢
    rw [List.append_assoc, trimStartOf_append hne, ih]
  | case2 text h =>
    rw [trimStartOf, dif_neg]
    rintro ⟨hne, hpre⟩
    have hlead := List.isPrefixOf_iff_prefix.1 hpre
    rcases List.prefix_or_prefix_of_prefix hlead (List.prefix_append text _) with hshort | hlong
    · exact h ⟨hne, List.isPrefixOf_iff_prefix.2 hshort⟩
    · -- `lead` goes on behind `text`, so it is `text` itself or has `c`
      obtain ⟨back, rfl⟩ := hlong
      obtain ⟨_, heq⟩ := (List.prefix_append_right_inj text).1 hlead
      cases back with
      | nil => exact h ⟨hne, by simp⟩
      | cons d back =>
        obtain ⟨rfl, -⟩ := List.cons.inj heq
        exact hc (by simp)

theorem trimEndOf_eq_self {tail text : List Char} (h : ¬ tail <:+ text) :
    trimEndOf tail text = text := by
  rw [trimEndOf, trimStartOf_eq_self, List.reverse_reverse]
  exact fun hpre => h (List.reverse_prefix.1 hpre)

theorem trimEndOf_append {tail : List Char} (hne : tail ≠ []) (text : List Char) :
    trimEndOf tail (text ++ tail) = trimEndOf tail text := by
  rw [trimEndOf, trimEndOf, List.reverse_append, trimStartOf_append]
  exact fun h => hne (List.reverse_eq_nil_iff.1 h)

theorem not_tail_trimEndOf {tail : List Char} (hne : tail ≠ []) (text : List Char) :
    ¬ tail <:+ trimEndOf tail text := by
  intro hsuf
  have hlead := not_lead_trimStartOf (List.reverse_ne_nil_iff.2 hne) text.reverse
  rw [trimEndOf, ← List.reverse_prefix, List.reverse_reverse] at hsuf
  exact hlead hsuf

theorem mem_of_mem_trimEndOf {tail text : List Char} {c : Char} (h : c ∈ trimEndOf tail text) :
    c ∈ text := by
  rw [trimEndOf, List.mem_reverse] at h
  exact List.mem_reverse.1 ((trimStartOf_suffix _ _).subset h)

/-- Trimming stops at a character that is not in the tail, whatever stands in front of it. -/
theorem trimEndOf_append_cons {tail : List Char} {c : Char} (hc : c ∉ tail)
    (front text : List Char) :
    trimEndOf tail (front ++ c :: text) = front ++ c :: trimEndOf tail text := by
  have hc' : c ∉ tail.reverse := by simpa using hc
  simp [trimEndOf, trimStartOf_append_cons hc']

end Deadwood.Text
