import Deadwood.Text.Blank
import Deadwood.Text.Word
import Mathlib.Data.List.TakeWhile

/-!
# Words and blanks

No character is both a word character and a blank. So a stretch of one kind that is followed by the
other ends in one place only.
-/

namespace Deadwood.Usage

open Text

/-- One word character or more. -/
def IsWord (w : List Char) : Prop :=
  w ≠ [] ∧ ∀ c ∈ w, isWordChar c = true

/-- Blanks and nothing else. -/
def IsGap (g : List Char) : Prop :=
  ∀ c ∈ g, isBlank c = true

/-- Tables whose ranges lie apart have no number in common. Comparing ranges is what `decide` can
do, where comparing characters is not. -/
theorem inRanges_eq_false_of_apart {table other : List (Nat × Nat)}
    (hapart : (table.all fun r => other.all fun s => r.2 < s.1 || s.2 < r.1) = true) {n : Nat}
    (h : inRanges table n = true) : inRanges other n = false := by
  obtain ⟨r, hr, hin⟩ := List.any_eq_true.1 h
  refine List.any_eq_false.2 fun s hs hin' => ?_
  have hrs := List.all_eq_true.1 (List.all_eq_true.1 hapart r hr) s hs
  simp only [Bool.and_eq_true, Bool.or_eq_true, decide_eq_true_eq] at hin hin' hrs
  omega

theorem isWordChar_of_toNat_lt {c : Char} (h : c.toNat < 33) : isWordChar c = false := by
  have hcodes : ∀ n < 33, isWordChar (Char.ofNat n) = false := by decide
  rw [← Char.ofNat_toNat c]
  exact hcodes c.toNat h

/-- No blank is part of a word. -/
theorem isWordChar_of_isBlank {c : Char} (h : isBlank c = true) : isWordChar c = false := by
  by_cases hascii : c.toNat < 128
  · apply isWordChar_of_toNat_lt
    simp only [isBlank, inRanges, blankRanges, List.any_cons, List.any_nil, Bool.or_false,
      Bool.or_eq_true, Bool.and_eq_true, decide_eq_true_eq] at h
    omega
  · have halphabetic : inRanges alphabeticRanges c.toNat = false :=
      inRanges_eq_false_of_apart (by decide +kernel) h
    have hmark : inRanges markRanges c.toNat = false :=
      inRanges_eq_false_of_apart (by decide +kernel) h
    rw [isWordChar, isAlphabetic, isMark, if_neg hascii, if_neg hascii, halphabetic, hmark]
    rfl

theorem isBlank_of_isWordChar {c : Char} (h : isWordChar c = true) : isBlank c = false := by
  by_contra hblank
  rw [Bool.not_eq_false] at hblank
  rw [isWordChar_of_isBlank hblank] at h
  cases h

/-- A stretch of one class of characters ends in one place only. -/
theorem split_inj {p : Char → Bool} {g g' rest rest' : List Char} {c c' : Char}
    (hg : ∀ x ∈ g, p x = true) (hg' : ∀ x ∈ g', p x = true) (hc : p c = false) (hc' : p c' = false)
    (h : g ++ c :: rest = g' ++ c' :: rest') : g = g' ∧ c = c' ∧ rest = rest' := by
  have htake : ∀ {g rest : List Char} {c : Char}, (∀ x ∈ g, p x = true) → p c = false →
      (g ++ c :: rest).takeWhile p = g := by
    intro g rest c hg hc
    rw [List.takeWhile_append_of_pos hg, List.takeWhile_cons_of_neg (by simp [hc]), List.append_nil]
  have hsame : g = g' := (htake hg hc).symm.trans ((congrArg _ h).trans (htake hg' hc'))
  subst hsame
  have htail := List.append_cancel_left h
  exact ⟨rfl, List.cons.inj htail⟩

end Deadwood.Usage
