import Deadwood.Proofs.Usage.TextVerdict
import Deadwood.Proofs.Usage.Words

/-!
# Bounds in lists of type arguments

The reference shapes know a wildcard with a bound only as the sole argument of a list, between the
two angle brackets. So `<? extends C>` counts as a use of `C`, with any blanks, but the same
argument in a longer list does not. There is one exception: a blank behind the name makes an upper
bound look like the head of a class, `extends C` and a blank, wherever it stands.

`refersTo_argumentList` says exactly which lists of plain arguments refer to a class, if no blank
stands behind an argument: those of one argument, which is the class or a bound on it. In a longer
list even a plain `C` is not seen.
-/

namespace Deadwood.Usage

open Text

/-! ## Lists as written -/

/-- The two bounds that a wildcard can have. -/
inductive Bound where
  | upper
  | lower
  deriving DecidableEq, Repr

namespace Bound

def keyword : Bound → String
  | .upper => "extends"
  | .lower => "super"

/-- A wildcard with a bound on the class: `? extends C` or `? super C`. -/
def parts (b : Bound) : List Part :=
  [.text "?", .blanks1, .text b.keyword, .blanks1, .name]

/-- A bounded argument is a question mark, a keyword and the name, with a gap before and behind the
keyword. -/
theorem splits_parts {b : Bound} {name arg : List Char} :
    Splits name b.parts arg ↔ ∃ g h, (g ≠ [] ∧ IsGap g) ∧ (h ≠ [] ∧ IsGap h) ∧
      arg = '?' :: (g ++ (b.keyword.toList ++ (h ++ name))) := by
  simp only [parts, splits_cons_iff, splits_nil_iff, Part.Fits]
  constructor
  · rintro ⟨_, _, rfl, rfl, g, _, rfl, hg, _, _, rfl, rfl, h, _, rfl, hh, _, _, rfl, rfl, rfl⟩
    exact ⟨g, h, hg, hh, by simp⟩
  · rintro ⟨g, h, hg, hh, rfl⟩
    exact ⟨_, _, rfl, rfl, g, _, rfl, hg, _, _, rfl, rfl, h, _, rfl, hh, name, [], by simp, rfl,
      rfl⟩

end Bound

/-- A type argument and the blanks around it. -/
structure Argument where
  before : List Char
  text : List Char
  after : List Char
  before_gap : IsGap before
  after_gap : IsGap after

def Argument.written (a : Argument) : List Char :=
  a.before ++ a.text ++ a.after

/-- What follows an argument: further ones, each behind a comma, and the closing bracket. -/
def closing : List Argument → List Char
  | [] => ['>']
  | a :: as => ',' :: (a.written ++ closing as)

/-- A list of one type argument or more. -/
def argumentList (first : Argument) (others : List Argument) : List Char :=
  '<' :: (first.written ++ closing others)

theorem written_infix_closing {a : Argument} {as : List Argument} (ha : a ∈ as) :
    a.written <:+: closing as := by
  induction as with
  | nil => cases ha
  | cons d as ih =>
    have htail : d.written ++ closing as <:+: closing (d :: as) := (List.suffix_cons _ _).isInfix
    rcases List.mem_cons.1 ha with rfl | ha
    · exact (List.prefix_append _ _).isInfix.trans htail
    · exact ((ih ha).trans (List.suffix_append _ _).isInfix).trans htail

/-- Each argument stands in the list as it is written. -/
theorem written_infix_argumentList {a first : Argument} {others : List Argument}
    (ha : a ∈ first :: others) : a.written <:+: argumentList first others := by
  have htail : first.written ++ closing others <:+: argumentList first others :=
    (List.suffix_cons _ _).isInfix
  rcases List.mem_cons.1 ha with rfl | ha
  · exact (List.prefix_append _ _).isInfix.trans htail
  · exact ((written_infix_closing ha).trans (List.suffix_append _ _).isInfix).trans htail

/-! ## Bounds that are seen -/

theorem refersTo_of_infix {className text : String} {s : Shape} (hs : s ∈ shapes)
    {stretch : List Char} (hsplits : Splits className.toList s.parts stretch)
    (hpart : stretch <:+: text.toList) : TextUse.refersTo className text = true :=
  TextUse.refersTo_iff.2 ⟨s, hs, Shape.occursIn_iff.2 ⟨stretch, hsplits, hpart⟩⟩

/-- The shape of a list with a bound as its sole argument. -/
def Bound.shape (b : Bound) : Shape :=
  ⟨"wildcard " ++ b.keyword, [.text "<", .blanks] ++ b.parts ++ [.blanks, .text ">"]⟩

theorem Bound.shape_mem (b : Bound) : b.shape ∈ shapes := by
  cases b <;> decide

/-- An only argument with brackets around it has the shape of its bound. -/
theorem Bound.splits_sole {b : Bound} {name : List Char} {a : Argument}
    (h : Splits name b.parts a.text) : Splits name b.shape.parts (argumentList a []) := by
  have hsplits : Splits name b.shape.parts
      ("<".toList ++ (a.before ++ (a.text ++ (a.after ++ (">".toList ++ []))))) :=
    .cons rfl (.cons a.before_gap (h.append (.cons a.after_gap (.cons rfl .nil))))
  simpa [argumentList, closing, Argument.written] using hsplits

def extendsShape : Shape :=
  ⟨"extends", [.text "extends", .blanks1, .name, .blankOr "\x7b"]⟩

/-- An upper bound with a blank behind it looks like the head of a class. -/
theorem exists_extendsShape {name : List Char} {a : Argument}
    (h : Splits name Bound.upper.parts a.text) (hafter : a.after ≠ []) :
    ∃ stretch, Splits name extendsShape.parts stretch ∧ stretch <:+: a.written := by
  obtain ⟨g, h, -, hh, htext⟩ := Bound.splits_parts.1 h
  obtain ⟨c, rest, hrest⟩ := List.exists_cons_of_ne_nil hafter
  have hc : isBlank c = true := a.after_gap c (hrest ▸ List.mem_cons_self)
  refine ⟨"extends".toList ++ (h ++ (name ++ ([c] ++ []))), ?_, a.before ++ '?' :: g, rest, ?_⟩
  · exact .cons rfl (.cons hh (.cons rfl (.cons ⟨c, rfl, Or.inl hc⟩ .nil)))
  · rw [Argument.written, htext, hrest]
    simp [Bound.keyword]

/-! ## Plain arguments -/

/-- An argument that is a word or a wildcard with a word as its bound, with no blank behind it. -/
structure Argument.IsPlain (a : Argument) : Prop where
  after_eq : a.after = []
  text : IsWord a.text ∨
    ∃ (b : Bound) (bound : List Char), IsWord bound ∧ Splits bound b.parts a.text

theorem Argument.IsPlain.written_eq {a : Argument} (h : a.IsPlain) :
    a.written = a.before ++ a.text := by
  rw [written, h.after_eq, List.append_nil]

theorem Bound.isWord_keyword (b : Bound) : IsWord b.keyword.toList := by
  have hall : b.keyword.toList.all isWordChar = true := by cases b <;> decide
  exact ⟨by cases b <;> decide, List.all_eq_true.1 hall⟩

/-- Whatever follows an argument begins with a comma or a bracket. -/
theorem exists_closing (as : List Argument) :
    ∃ c rest, closing as = c :: rest ∧ isWordChar c = false ∧ isBlank c = false := by
  cases as with
  | nil => exact ⟨'>', [], rfl, by decide, by decide⟩
  | cons a as => exact ⟨',', _, rfl, by decide, by decide⟩

/-- Where the bracket closes behind a gap, no further argument comes. -/
theorem eq_nil_of_closing {as : List Argument} {g rest : List Char} (hg : IsGap g)
    (h : closing as = g ++ '>' :: rest) : as = [] := by
  obtain ⟨c, tail, hclosing, -, hc⟩ := exists_closing as
  obtain ⟨-, hbracket, -⟩ := split_inj (g := []) (p := isBlank) (by simp) hg hc (by decide)
    (hclosing.symm.trans h)
  cases as with
  | nil => rfl
  | cons a as =>
    rw [closing] at hclosing
    cases hclosing
    exact absurd hbracket (by decide)

/-- Blanks, a word and the end of the word can be told apart in one way only. -/
theorem gap_word_inj {g g' w w' rest rest' : List Char} {c c' : Char} (hg : IsGap g)
    (hg' : IsGap g') (hw : IsWord w) (hw' : IsWord w') (hc : isWordChar c = false)
    (hc' : isWordChar c' = false) (h : g ++ (w ++ c :: rest) = g' ++ (w' ++ c' :: rest')) :
    g = g' ∧ w = w' ∧ c :: rest = c' :: rest' := by
  obtain ⟨d, t, rfl⟩ := List.exists_cons_of_ne_nil hw.1
  obtain ⟨d', t', rfl⟩ := List.exists_cons_of_ne_nil hw'.1
  obtain ⟨hd, ht⟩ := List.forall_mem_cons.1 hw.2
  obtain ⟨hd', ht'⟩ := List.forall_mem_cons.1 hw'.2
  obtain ⟨rfl, rfl, htail⟩ :=
    split_inj hg hg' (isBlank_of_isWordChar hd) (isBlank_of_isWordChar hd') h
  obtain ⟨rfl, rfl, rfl⟩ := split_inj ht ht' hc hc' htail
  exact ⟨rfl, rfl, rfl⟩

section Reading

variable {a : Argument} (ha : a.IsPlain) {as : List Argument} {g rest : List Char} (hg : IsGap g)

include ha hg

/-- If a word can be read where an argument begins, the argument is the word. -/
theorem word_of_argument {w : List Char} {c : Char} (hw : IsWord w) (hc : isWordChar c = false)
    (h : a.written ++ closing as = g ++ (w ++ c :: rest)) :
    a.text = w ∧ closing as = c :: rest := by
  obtain ⟨d, tail, hclosing, hd, -⟩ := exists_closing as
  rw [ha.written_eq, List.append_assoc, hclosing] at h
  rcases ha.text with htext | ⟨b, bound, -, hsplits⟩
  · obtain ⟨-, hsame, hrest⟩ := gap_word_inj a.before_gap hg htext hw hd hc h
    exact ⟨hsame, hclosing.trans hrest⟩
  · obtain ⟨gap, gap', -, -, htext⟩ := Bound.splits_parts.1 hsplits
    obtain ⟨e, t, rfl⟩ := List.exists_cons_of_ne_nil hw.1
    have he := hw.2 e List.mem_cons_self
    rw [htext] at h
    obtain ⟨-, rfl, -⟩ := split_inj a.before_gap hg (by decide) (isBlank_of_isWordChar he) h
    exact absurd he (by decide)

/-- If a bound can be read where an argument begins, the argument is the bound. -/
theorem bound_of_argument {b : Bound} {name gap gap' : List Char} {c : Char}
    (hgap : gap ≠ [] ∧ IsGap gap) (hgap' : gap' ≠ [] ∧ IsGap gap') (hname : IsWord name)
    (hc : isWordChar c = false)
    (h : a.written ++ closing as =
      g ++ '?' :: (gap ++ (b.keyword.toList ++ (gap' ++ (name ++ c :: rest))))) :
    Splits name b.parts a.text ∧ closing as = c :: rest := by
  obtain ⟨d, tail, hclosing, hd, -⟩ := exists_closing as
  rw [ha.written_eq, List.append_assoc, hclosing] at h
  rcases ha.text with hword | ⟨b', bound, hbound, hsplits⟩
  · obtain ⟨e, t, he⟩ := List.exists_cons_of_ne_nil hword.1
    have hchar := hword.2 e (he ▸ List.mem_cons_self)
    rw [he] at h
    obtain ⟨-, rfl, -⟩ := split_inj a.before_gap hg (isBlank_of_isWordChar hchar) (by decide) h
    exact absurd hchar (by decide)
  · obtain ⟨left, right, hleft, hright, htext⟩ := Bound.splits_parts.1 hsplits
    obtain ⟨e, right, rfl⟩ := List.exists_cons_of_ne_nil hright.1
    obtain ⟨e', gap', rfl⟩ := List.exists_cons_of_ne_nil hgap'.1
    have he := isWordChar_of_isBlank (hright.2 e List.mem_cons_self)
    have he' := isWordChar_of_isBlank (hgap'.2 e' List.mem_cons_self)
    rw [htext] at h
    simp only [List.cons_append, List.append_assoc] at h
    obtain ⟨-, -, hmark⟩ := split_inj a.before_gap hg (by decide) (by decide) h
    obtain ⟨-, hkeyword, hrest⟩ := gap_word_inj hleft.2 hgap.2 b'.isWord_keyword b.isWord_keyword
      he he' hmark
    obtain ⟨-, rfl, hend⟩ := gap_word_inj hright.2 hgap'.2 hbound hname hd hc hrest
    refine ⟨?_, hclosing.trans hend⟩
    rw [htext, hkeyword]
    exact Bound.splits_parts.2 ⟨left, e :: right, hleft, hright, rfl⟩

end Reading

/-! ## Characters of a list -/

/-- Whether a character can stand in a plain argument. -/
def isArgumentChar (c : Char) : Bool :=
  isWordChar c || isBlank c || c == '?'

theorem IsWord.argumentChar_of_mem {w : List Char} (h : IsWord w) {c : Char} (hc : c ∈ w) :
    isArgumentChar c = true := by
  rw [isArgumentChar, h.2 c hc]
  rfl

theorem IsGap.argumentChar_of_mem {g : List Char} (h : IsGap g) {c : Char} (hc : c ∈ g) :
    isArgumentChar c = true := by
  rw [isArgumentChar, h c hc, Bool.or_true]
  rfl

theorem Argument.IsPlain.argumentChar_of_mem {a : Argument} (ha : a.IsPlain) {c : Char}
    (hc : c ∈ a.written) : isArgumentChar c = true := by
  rw [ha.written_eq, List.mem_append] at hc
  rcases hc with hc | hc
  · exact a.before_gap.argumentChar_of_mem hc
  · rcases ha.text with hword | ⟨b, bound, hbound, hsplits⟩
    · exact hword.argumentChar_of_mem hc
    · obtain ⟨g, h, hg, hh, htext⟩ := Bound.splits_parts.1 hsplits
      rw [htext, List.mem_cons, List.mem_append, List.mem_append, List.mem_append] at hc
      rcases hc with rfl | hc | hc | hc | hc
      · rfl
      · exact hg.2.argumentChar_of_mem hc
      · exact b.isWord_keyword.argumentChar_of_mem hc
      · exact hh.2.argumentChar_of_mem hc
      · exact hbound.argumentChar_of_mem hc

/-- Behind an argument only plain arguments, commas and the closing bracket come. -/
theorem mem_closing {as : List Argument} (has : ∀ a ∈ as, a.IsPlain) {c : Char}
    (hc : c ∈ closing as) : isArgumentChar c = true ∨ c ∈ [',', '>'] := by
  induction as with
  | nil => exact Or.inr (List.mem_cons_of_mem _ hc)
  | cons a as ih =>
    obtain ⟨ha, has⟩ := List.forall_mem_cons.1 has
    rw [closing, List.mem_cons, List.mem_append] at hc
    rcases hc with rfl | hc | hc
    · exact Or.inr List.mem_cons_self
    · exact Or.inl (ha.argumentChar_of_mem hc)
    · exact ih has hc

/-- Whether no list of plain arguments has a character in it. -/
def isForeignChar (c : Char) : Bool :=
  !isArgumentChar c && !(['<', ',', '>'].contains c)

/-- Whether all that fits a part has a foreign character in it. -/
def Part.isForeign : Part → Bool
  | .text s => s.toList.any isForeignChar
  | .oneOf s => s.toList.all isForeignChar
  | _ => false

theorem Part.exists_foreign {part : Part} {name front : List Char}
    (hforeign : part.isForeign = true) (h : part.Fits name front) :
    ∃ c ∈ front, isForeignChar c = true := by
  cases part with
  | text s =>
    rw [show front = s.toList from h]
    exact List.any_eq_true.1 hforeign
  | oneOf s =>
    obtain ⟨c, rfl, hc⟩ := h
    exact ⟨c, List.mem_cons_self, List.all_eq_true.1 hforeign c hc⟩
  | _ => cases hforeign

/-- A shape with a part that asks for a foreign character only fits stretches that have one. -/
theorem Splits.exists_foreign {name stretch : List Char} {parts : List Part}
    (h : Splits name parts stretch) (hforeign : parts.any Part.isForeign = true) :
    ∃ c ∈ stretch, isForeignChar c = true := by
  induction h with
  | nil => cases hforeign
  | cons hfits _ ih =>
    rw [List.any_cons, Bool.or_eq_true] at hforeign
    rcases hforeign with hpart | hparts
    · obtain ⟨c, hc, hchar⟩ := Part.exists_foreign hpart hfits
      exact ⟨c, List.mem_append_left _ hc, hchar⟩
    · obtain ⟨c, hc, hchar⟩ := ih hparts
      exact ⟨c, List.mem_append_right _ hc, hchar⟩

/-! ## Words in front of blanks -/

/-- The words of a text that a blank follows, each with all that follows it. What has been read of
the word at hand comes first. -/
def spacedWords : List Char → List Char → List (List Char × List Char)
  | _, [] => []
  | run, c :: cs =>
    if isWordChar c then spacedWords (run ++ [c]) cs
    else if isBlank c && !run.isEmpty then (run, c :: cs) :: spacedWords [] cs
    else spacedWords [] cs

section SpacedWords

variable {run cs : List Char}

theorem spacedWords_word {w : List Char} (hw : ∀ c ∈ w, isWordChar c = true) :
    spacedWords run (w ++ cs) = spacedWords (run ++ w) cs := by
  induction w generalizing run with
  | nil => rw [List.nil_append, List.append_nil]
  | cons c w ih =>
    obtain ⟨hc, hw⟩ := List.forall_mem_cons.1 hw
    rw [List.cons_append, spacedWords, if_pos hc, ih hw, List.append_assoc, List.singleton_append]

theorem spacedWords_mark {c : Char} (hword : isWordChar c = false) (hblank : isBlank c = false) :
    spacedWords run (c :: cs) = spacedWords [] cs := by
  rw [spacedWords, hword, hblank]
  rfl

theorem spacedWords_gap {g : List Char} (hg : IsGap g) :
    spacedWords [] (g ++ cs) = spacedWords [] cs := by
  induction g with
  | nil => rfl
  | cons c g ih =>
    obtain ⟨hc, hg⟩ := List.forall_mem_cons.1 hg
    rw [List.cons_append, spacedWords, isWordChar_of_isBlank hc, hc]
    exact ih hg

theorem spacedWords_blank {w g : List Char} (hw : IsWord w) (hg : g ≠ [] ∧ IsGap g) :
    spacedWords [] (w ++ (g ++ cs)) = (w, g ++ cs) :: spacedWords [] cs := by
  obtain ⟨c, g, rfl⟩ := List.exists_cons_of_ne_nil hg.1
  obtain ⟨hc, htail⟩ := List.forall_mem_cons.1 hg.2
  obtain ⟨d, w, rfl⟩ := List.exists_cons_of_ne_nil hw.1
  rw [spacedWords_word hw.2, List.nil_append, List.cons_append, spacedWords,
    isWordChar_of_isBlank hc, hc, spacedWords_gap htail]
  rfl

/-- A word that a blank follows is the end of one of the spaced words. -/
theorem mem_spacedWords {w : List Char} {c : Char} (hw : IsWord w) (hc : isBlank c = true)
    (run before cs : List Char) :
    ∃ word, w <:+ word ∧ (word, c :: cs) ∈ spacedWords run (before ++ (w ++ c :: cs)) := by
  induction before generalizing run with
  | nil =>
    refine ⟨run ++ w, List.suffix_append _ _, ?_⟩
    obtain ⟨d, w, rfl⟩ := List.exists_cons_of_ne_nil hw.1
    rw [List.nil_append, spacedWords_word hw.2, spacedWords, isWordChar_of_isBlank hc, hc]
    simp
  | cons d before ih =>
    rw [List.cons_append, spacedWords]
    split
    · exact ih _
    · split
      · obtain ⟨word, hsuffix, hmem⟩ := ih []
        exact ⟨word, hsuffix, List.mem_cons_of_mem _ hmem⟩
      · exact ih _

end SpacedWords

/-- What a spaced word in a list of plain arguments is: the keyword of a bound, with the class in
the bound and the rest of the list behind it. -/
def IsKeywordEntry (entry : List Char × List Char) : Prop :=
  ∃ (b : Bound) (g bound : List Char) (as : List Argument), IsGap g ∧ IsWord bound ∧
    entry = (b.keyword.toList, g ++ (bound ++ closing as))

theorem spacedWords_written {a : Argument} (ha : a.IsPlain) {as : List Argument}
    {entry : List Char × List Char} (h : entry ∈ spacedWords [] (a.written ++ closing as)) :
    IsKeywordEntry entry ∨ ∃ run, entry ∈ spacedWords run (closing as) := by
  rw [ha.written_eq, List.append_assoc, spacedWords_gap a.before_gap] at h
  rcases ha.text with hword | ⟨b, bound, hbound, hsplits⟩
  · rw [spacedWords_word hword.2] at h
    exact Or.inr ⟨_, h⟩
  · obtain ⟨g, g', hg, hg', htext⟩ := Bound.splits_parts.1 hsplits
    rw [htext] at h
    simp only [List.cons_append, List.append_assoc] at h
    rw [spacedWords_mark (by decide) (by decide), spacedWords_gap hg.2,
      spacedWords_blank b.isWord_keyword hg', spacedWords_word hbound.2, List.mem_cons] at h
    rcases h with rfl | h
    · exact Or.inl ⟨b, g', bound, as, hg'.2, hbound, rfl⟩
    · exact Or.inr ⟨_, h⟩

/-- In the rest of a list, words with a blank behind them are the keywords of bounds. -/
theorem spacedWords_closing {as : List Argument} (has : ∀ a ∈ as, a.IsPlain) {run : List Char}
    {entry : List Char × List Char} (h : entry ∈ spacedWords run (closing as)) :
    IsKeywordEntry entry := by
  induction as generalizing run with
  | nil =>
    rw [closing, spacedWords_mark (by decide) (by decide)] at h
    cases h
  | cons a as ih =>
    obtain ⟨ha, has⟩ := List.forall_mem_cons.1 has
    rw [closing, spacedWords_mark (by decide) (by decide)] at h
    rcases spacedWords_written ha h with hentry | ⟨run', h⟩
    · exact hentry
    · exact ih has h

/-! ## Shapes in a list -/

/-- Behind a comma stands an argument. -/
theorem exists_of_comma {as : List Argument} (has : ∀ a ∈ as, a.IsPlain) {front rest : List Char}
    (h : closing as = front ++ ',' :: rest) :
    ∃ (a : Argument) (as' : List Argument), a.IsPlain ∧ rest = a.written ++ closing as' := by
  induction as generalizing front with
  | nil =>
    have hcomma : ',' ∈ closing [] := by simp [h]
    exact absurd hcomma (by decide)
  | cons a as ih =>
    obtain ⟨ha, has⟩ := List.forall_mem_cons.1 has
    rw [closing] at h
    cases front with
    | nil => exact ⟨a, as, ha, (List.cons.inj h).2.symm⟩
    | cons c front =>
      obtain ⟨-, htail⟩ := List.cons.inj h
      rcases List.append_eq_append_iff.1 htail with ⟨front', -, hclosing⟩ | ⟨back, hwritten, hback⟩
      · exact ih has hclosing
      · cases back with
        | nil =>
          have hclosing : closing as = [] ++ ',' :: rest := hback.symm
          exact ih has hclosing
        | cons d back =>
          obtain ⟨rfl, -⟩ := List.cons.inj hback
          have hcomma : isArgumentChar ',' = true := ha.argumentChar_of_mem (by simp [hwritten])
          exact absurd hcomma (by decide)

/-- Blanks and a bracket begin with no word character. -/
theorem exists_gap_bracket {g : List Char} (hg : IsGap g) (rest : List Char) :
    ∃ c tail, g ++ '>' :: rest = c :: tail ∧ isWordChar c = false := by
  cases g with
  | nil => exact ⟨'>', rest, rfl, by decide⟩
  | cons c g => exact ⟨c, _, rfl, isWordChar_of_isBlank (hg c List.mem_cons_self)⟩

def genericShape : Shape :=
  ⟨"generic", [.text "<", .blanks, .name, .blanks, .text ">"]⟩

def nextShape : Shape :=
  ⟨"next parameter", [.text ",", .blanks, .name, .blanks1, .word]⟩

/-- The words that begin a shape and are not the keyword of a bound. -/
def leadingWords : List String :=
  ["implements", "throws", "static", "instanceof"]

/-- Every shape asks for a foreign character, begins with a word that is no keyword of bounds, or is
one of five that are looked at one by one. -/
theorem shapes_cases : ∀ s ∈ shapes, s.parts.any Part.isForeign = true ∨
    (∃ word ∈ leadingWords, [.text word, .blanks1] <+: s.parts) ∨
    s ∈ [extendsShape, nextShape, genericShape, Bound.upper.shape, Bound.lower.shape] := by
  decide

section Lists

variable {first : Argument} {others : List Argument} (hplain : ∀ a ∈ first :: others, a.IsPlain)
  {name stretch : List Char} (hpart : stretch <:+: argumentList first others)

include hplain hpart

theorem isForeignChar_of_mem_list {c : Char} (hc : c ∈ stretch) : isForeignChar c = false := by
  obtain ⟨hfirst, hothers⟩ := List.forall_mem_cons.1 hplain
  have hmem := hpart.subset hc
  rw [argumentList, List.mem_cons, List.mem_append] at hmem
  have hcases : isArgumentChar c = true ∨ c ∈ ['<', ',', '>'] := by
    rcases hmem with rfl | hmem | hmem
    · exact Or.inr List.mem_cons_self
    · exact Or.inl (hfirst.argumentChar_of_mem hmem)
    · exact (mem_closing hothers hmem).imp_right (List.mem_cons_of_mem _)
  rcases hcases with hchar | hmark
  · rw [isForeignChar, hchar]
    rfl
  · rw [isForeignChar, List.contains_iff_mem.2 hmark, Bool.not_true, Bool.and_false]

/-- A word in front of a blank ends the keyword of a bound. -/
theorem keyword_of_list {w g rest : List Char} (hw : IsWord w) (hg : g ≠ [] ∧ IsGap g)
    (hstretch : stretch = w ++ (g ++ rest)) :
    ∃ (b : Bound) (g' bound after : List Char) (as : List Argument), w <:+ b.keyword.toList ∧
      IsGap g' ∧ IsWord bound ∧ g ++ (rest ++ after) = g' ++ (bound ++ closing as) := by
  obtain ⟨hfirst, hothers⟩ := List.forall_mem_cons.1 hplain
  obtain ⟨before, after, htext⟩ := hpart
  obtain ⟨c, g, rfl⟩ := List.exists_cons_of_ne_nil hg.1
  have hc := hg.2 c List.mem_cons_self
  obtain ⟨word, hsuffix, hmem⟩ := mem_spacedWords hw hc [] before (g ++ (rest ++ after))
  have hlist : before ++ (w ++ c :: (g ++ (rest ++ after))) = argumentList first others := by
    rw [← htext, hstretch]
    simp
  rw [hlist, argumentList, spacedWords_mark (by decide) (by decide)] at hmem
  have hentry : IsKeywordEntry (word, c :: (g ++ (rest ++ after))) := by
    rcases spacedWords_written hfirst hmem with hentry | ⟨run, hmem⟩
    · exact hentry
    · exact spacedWords_closing hothers hmem
  obtain ⟨b, g', bound, as, hg', hbound, heq⟩ := hentry
  obtain ⟨rfl, hrest⟩ := Prod.mk.inj heq
  exact ⟨b, g', bound, after, as, hsuffix, hg', hbound, hrest⟩

/-- The opening bracket stands only at the start. -/
theorem after_bracket {rest : List Char} (hstretch : stretch = '<' :: rest) :
    ∃ after, first.written ++ closing others = rest ++ after := by
  obtain ⟨hfirst, hothers⟩ := List.forall_mem_cons.1 hplain
  obtain ⟨before, after, htext⟩ := hpart
  rw [hstretch, argumentList] at htext
  cases before with
  | nil => exact ⟨after, (List.cons.inj htext).2.symm⟩
  | cons c before =>
    obtain ⟨-, htail⟩ := List.cons.inj htext
    have hmem : '<' ∈ first.written ++ closing others := by simp [← htail]
    have hcases : isArgumentChar '<' = true ∨ '<' ∈ [',', '>'] := by
      rcases List.mem_append.1 hmem with hmem | hmem
      · exact Or.inl (hfirst.argumentChar_of_mem hmem)
      · exact mem_closing hothers hmem
    exact absurd hcases (by decide)

/-- Such words do not stand in front of a blank anywhere in an argument list. -/
theorem not_leadingWord {word : String} (hword : word ∈ leadingWords) {parts : List Part}
    (hparts : [.text word, .blanks1] <+: parts) : ¬ Splits name parts stretch := by
  intro h
  have hchars :
      (leadingWords.all fun w => !w.toList.isEmpty && w.toList.all isWordChar) = true := by
    decide
  have hend : ∀ w ∈ leadingWords, ∀ b ∈ [Bound.upper, Bound.lower],
      ¬ w.toList <:+ b.keyword.toList := by
    decide
  have hw : IsWord word.toList := by
    simpa [IsWord] using List.all_eq_true.1 hchars word hword
  obtain ⟨more, rfl⟩ := hparts
  obtain ⟨_, _, hstretch, rfl, h⟩ := splits_cons_iff.1 h
  obtain ⟨g, rest, rfl, hg, -⟩ := splits_cons_iff.1 h
  obtain ⟨b, -, -, -, -, hsuffix, -⟩ := keyword_of_list hplain hpart hw hg hstretch
  exact hend word hword b (by cases b <;> simp) hsuffix

section Named

variable (hname : IsWord name)

include hname

/-- Behind the class that a keyword bounds stands no blank. -/
theorem not_extendsShape : ¬ Splits name extendsShape.parts stretch := by
  intro h
  simp only [extendsShape, splits_cons_iff, splits_nil_iff, Part.Fits] at h
  obtain ⟨_, _, hstretch, rfl, g, _, rfl, hg, _, _, rfl, rfl, _, _, rfl, ⟨c, rfl, hc⟩, rfl⟩ := h
  have hblank : isBlank c = true := by
    rcases hc with hc | hc
    · exact hc
    · have hforeign := isForeignChar_of_mem_list hplain hpart (c := c) (by simp [hstretch])
      rw [List.mem_singleton.1 hc] at hforeign
      exact absurd hforeign (by decide)
  obtain ⟨b, g', bound, after, as, -, hg', hbound, htext⟩ :=
    keyword_of_list hplain hpart Bound.upper.isWord_keyword hg hstretch
  obtain ⟨d, tail, hclosing, hd, hd'⟩ := exists_closing as
  rw [hclosing] at htext
  simp only [List.append_assoc, List.singleton_append] at htext
  obtain ⟨-, -, hend⟩ :=
    gap_word_inj hg.2 hg' hname hbound (isWordChar_of_isBlank hblank) hd htext
  obtain ⟨rfl, -⟩ := List.cons.inj hend
  rw [hblank] at hd'
  cases hd'

/-- Behind a word that a comma leads stands no blank. -/
theorem not_nextShape : ¬ Splits name nextShape.parts stretch := by
  intro h
  simp only [nextShape, splits_cons_iff, splits_nil_iff, Part.Fits] at h
  obtain ⟨_, _, hstretch, rfl, g, _, rfl, hg, name, _, rfl, rfl, g', _, rfl, hg', word, _, rfl, -,
    rfl⟩ := h
  obtain ⟨before, after, htext⟩ := hpart
  rw [hstretch, argumentList] at htext
  cases before with
  | nil => exact absurd (List.cons.inj htext).1 (by decide)
  | cons c before =>
    obtain ⟨-, htail⟩ := List.cons.inj htext
    have hclosing : closing (first :: others) =
        (',' :: before) ++ ',' :: (g ++ (name ++ (g' ++ (word ++ after)))) := by
      rw [closing, ← htail]
      simp
    obtain ⟨a, as, ha, hrest⟩ := exists_of_comma hplain hclosing
    obtain ⟨d, g', rfl⟩ := List.exists_cons_of_ne_nil hg'.1
    have hd := hg'.2 d List.mem_cons_self
    obtain ⟨-, hend⟩ := word_of_argument ha hg hname (isWordChar_of_isBlank hd) hrest.symm
    obtain ⟨e, tail, heq, -, he⟩ := exists_closing as
    obtain ⟨rfl, -⟩ := List.cons.inj (heq.symm.trans hend)
    rw [hd] at he
    cases he

/-- The shape of a plain argument only fits a list of one argument, which is the name. -/
theorem sole_of_genericShape (h : Splits name genericShape.parts stretch) :
    others = [] ∧ first.text = name := by
  simp only [genericShape, splits_cons_iff, splits_nil_iff, Part.Fits] at h
  obtain ⟨_, _, hstretch, rfl, g, _, rfl, hg, name, _, rfl, rfl, g', _, rfl, hg', _, _, rfl, rfl,
    rfl⟩ := h
  obtain ⟨after, htail⟩ := after_bracket hplain hpart hstretch
  obtain ⟨c, tail, hbracket, hc⟩ := exists_gap_bracket hg' after
  have hread : first.written ++ closing others = g ++ (name ++ c :: tail) := by
    rw [htail, ← hbracket]
    simp
  obtain ⟨htext, hclosing⟩ := word_of_argument (hplain first List.mem_cons_self) hg hname hc hread
  exact ⟨eq_nil_of_closing hg' (hclosing.trans hbracket.symm), htext⟩

/-- The shape of a bound only fits a list of one argument, which has that bound. -/
theorem sole_of_boundShape {b : Bound} (h : Splits name b.shape.parts stretch) :
    others = [] ∧ Splits name b.parts first.text := by
  simp only [Bound.shape, Bound.parts, List.cons_append, List.nil_append, splits_cons_iff,
    splits_nil_iff, Part.Fits] at h
  obtain ⟨_, _, hstretch, rfl, g, _, rfl, hg, _, _, rfl, rfl, gap, _, rfl, hgap, _, _, rfl, rfl,
    gap', _, rfl, hgap', name, _, rfl, rfl, g', _, rfl, hg', _, _, rfl, rfl, rfl⟩ := h
  obtain ⟨after, htail⟩ := after_bracket hplain hpart hstretch
  obtain ⟨c, tail, hbracket, hc⟩ := exists_gap_bracket hg' after
  have hread : first.written ++ closing others =
      g ++ '?' :: (gap ++ (b.keyword.toList ++ (gap' ++ (name ++ c :: tail)))) := by
    rw [htail, ← hbracket]
    simp
  obtain ⟨htext, hclosing⟩ :=
    bound_of_argument (hplain first List.mem_cons_self) hg hgap hgap' hname hc hread
  exact ⟨eq_nil_of_closing hg' (hclosing.trans hbracket.symm), htext⟩

end Named

end Lists

/-- **What a list of plain arguments refers to:** the class that is its sole argument, bare or as a
bound, and nothing else. -/
theorem refersTo_argumentList {className text : String} (hname : IsWord className.toList)
    {first : Argument} {others : List Argument} (hplain : ∀ a ∈ first :: others, a.IsPlain)
    (htext : text.toList = argumentList first others) :
    TextUse.refersTo className text = true ↔
      others = [] ∧ (first.text = className.toList ∨
        ∃ b : Bound, Splits className.toList b.parts first.text) := by
  constructor
  · intro h
    obtain ⟨s, hs, hoccurs⟩ := TextUse.refersTo_iff.1 h
    obtain ⟨stretch, hsplits, hpart⟩ := Shape.occursIn_iff.1 hoccurs
    rw [htext] at hpart
    rcases shapes_cases s hs with hforeign | ⟨word, hword, hparts⟩ | hmem
    · obtain ⟨c, hc, hchar⟩ := hsplits.exists_foreign hforeign
      rw [isForeignChar_of_mem_list hplain hpart hc] at hchar
      cases hchar
    · exact absurd hsplits (not_leadingWord hplain hpart hword hparts)
    · simp only [List.mem_cons, List.not_mem_nil, or_false] at hmem
      rcases hmem with rfl | rfl | rfl | rfl | rfl
      · exact absurd hsplits (not_extendsShape hplain hpart hname)
      · exact absurd hsplits (not_nextShape hplain hpart hname)
      · exact (sole_of_genericShape hplain hpart hname hsplits).imp_right Or.inl
      · exact (sole_of_boundShape hplain hpart hname hsplits).imp_right fun h => Or.inr ⟨_, h⟩
      · exact (sole_of_boundShape hplain hpart hname hsplits).imp_right fun h => Or.inr ⟨_, h⟩
  · rintro ⟨rfl, hclass | ⟨b, hsplits⟩⟩
    · have hsplits : Splits className.toList genericShape.parts
          ("<".toList ++ (first.before ++ (first.text ++ (first.after ++ (">".toList ++ []))))) :=
        .cons rfl (.cons first.before_gap (.cons hclass (.cons first.after_gap (.cons rfl .nil))))
      refine refersTo_of_infix (s := genericShape) (by decide) hsplits ?_
      simp [htext, argumentList, closing, Argument.written]
    · refine refersTo_of_infix b.shape_mem (Bound.splits_sole hsplits) ?_
      rw [htext]

namespace TextUse

/-- **Bounds that count as uses.** Let another file have a list of type arguments in it, one of them
a wildcard with a bound on the candidate. The candidate is used if there is no second argument, and
also if the bound is an upper one with a blank behind it. If the other file is nothing but a list of
plain arguments, the candidate is used just if it is the sole argument or the bound of it: in a
longer list no bound is seen. -/
theorem wildcard_bound_used (u : TextUse) (c : TextCandidate) {f : LoadedFile} (hf : f ∈ u.files)
    (hother : f.path.same c.path = false) (first : Argument) (others : List Argument) :
    (argumentList first others <:+: f.text.toList → ∀ a ∈ first :: others, ∀ b : Bound,
      Splits c.className.toList b.parts a.text → (others = [] ∨ b = .upper ∧ a.after ≠ []) →
      u.isUsed c = true) ∧
    (f.text.toList = argumentList first others →
      (∀ g ∈ u.files, g.path.same c.path = false → g = f) →
      IsWord c.className.toList → (∀ a ∈ first :: others, a.IsPlain) →
      (u.isUsed c = true ↔ others = [] ∧ (first.text = c.className.toList ∨
        ∃ b : Bound, Splits c.className.toList b.parts first.text))) := by
  constructor
  · intro hlist a ha b hsplits hcase
    refine isUsed_iff.2 ⟨f, hf, hother, ?_⟩
    rcases hcase with rfl | ⟨rfl, hafter⟩
    · obtain rfl := List.mem_singleton.1 ha
      exact refersTo_of_infix b.shape_mem (Bound.splits_sole hsplits) hlist
    · obtain ⟨stretch, hstretch, hpart⟩ := exists_extendsShape hsplits hafter
      exact refersTo_of_infix (s := extendsShape) (by decide) hstretch
        (hpart.trans ((written_infix_argumentList ha).trans hlist))
  · intro htext honly hname hplain
    rw [← refersTo_argumentList hname hplain htext, isUsed_iff]
    constructor
    · rintro ⟨g, hg, hpath, hrefers⟩
      rw [← honly g hg hpath]
      exact hrefers
    · intro hrefers
      exact ⟨f, hf, hother, hrefers⟩

end TextUse

/-! ## Lists beside a class `Foo` -/

namespace Sample

def fooFile : LoadedFile :=
  ⟨⟨"r/Foo.java"⟩, "class Foo \x7b \x7d"⟩

def barFile (text : String) : LoadedFile :=
  ⟨⟨"r/Bar.java"⟩, text⟩

def besideFoo (text : String) : TextUse :=
  ⟨⟨"r"⟩, [fooFile, barFile text]⟩

def foo : TextCandidate :=
  (besideFoo "").candidate 0 fooFile

theorem foo_className : foo.className = "Foo" := by
  decide

theorem barFile_apart (text : String) : (barFile text).path.same foo.path = false := by
  have hapart : (barFile "").path.same foo.path = false := by decide
  exact hapart

theorem barFile_mem (text : String) : barFile text ∈ (besideFoo text).files :=
  List.mem_cons_of_mem _ List.mem_cons_self

theorem isGap_blank : IsGap [' '] :=
  List.forall_mem_singleton.2 (by decide)

/-- An argument right behind the opening bracket. -/
def leading (text : String) : Argument :=
  ⟨[], text.toList, [], List.forall_mem_nil _, List.forall_mem_nil _⟩

/-- An argument with a blank before it. -/
def following (text : String) : Argument :=
  ⟨[' '], text.toList, [], isGap_blank, List.forall_mem_nil _⟩

/-- An argument between two blanks. -/
def between (text : String) : Argument :=
  ⟨[' '], text.toList, [' '], isGap_blank, isGap_blank⟩

/-- Both bounds of the sample class split as their shapes ask. -/
theorem splits_foo (b : Bound) :
    Splits foo.className.toList b.parts ("? " ++ b.keyword ++ " Foo").toList := by
  rw [foo_className]
  exact Bound.splits_parts.2
    ⟨[' '], [' '], ⟨by simp, isGap_blank⟩, ⟨by simp, isGap_blank⟩, by simp⟩

theorem isWord_foo : IsWord foo.className.toList := by
  rw [foo_className]
  exact ⟨by decide, List.all_eq_true.1 (by decide)⟩

end Sample

namespace TextUse

open Sample

/-- The second argument has `Foo` for an upper bound, and `Foo` is reported. -/
theorem second_bound_unseen :
    let text := "class Bar \x7b java.util.Map<String, ? extends Foo> m; \x7d"
    let second := following "? extends Foo"
    (besideFoo text).candidate 0 fooFile = foo ∧ IsWord foo.className.toList ∧
    (barFile text).path.same foo.path = false ∧
    argumentList (leading "String") [second] <:+: text.toList ∧
    Splits foo.className.toList Bound.upper.parts second.text ∧
    (besideFoo text).isUsed foo = false := by
  intro text second
  exact ⟨rfl, isWord_foo, barFile_apart _, by decide, splits_foo .upper, by decide⟩

/-- A sole bound is seen, and an upper bound with a blank behind it; of two plain arguments none
is. -/
theorem wildcard_bound_used_sample :
    (besideFoo "class Bar \x7b java.util.List<? super Foo> l; \x7d").isUsed foo = true ∧
    (besideFoo "class Bar \x7b java.util.Map<String, ? extends Foo > m; \x7d").isUsed foo = true ∧
    (besideFoo "<Foo, ? super Foo>").isUsed foo = false := by
  refine ⟨?_, ?_, ?_⟩
  · obtain ⟨hused, -⟩ := wildcard_bound_used (besideFoo _) foo (barFile_mem _) (barFile_apart _)
      (leading "? super Foo") []
    exact hused (by decide) _ List.mem_cons_self .lower (splits_foo .lower) (Or.inl rfl)
  · obtain ⟨hused, -⟩ := wildcard_bound_used (besideFoo _) foo (barFile_mem _) (barFile_apart _)
      (leading "String") [between "? extends Foo"]
    exact hused (by decide) (between "? extends Foo") (by simp) .upper (splits_foo .upper)
      (Or.inr ⟨rfl, List.cons_ne_nil _ _⟩)
  · obtain ⟨-, hexact⟩ := wildcard_bound_used (besideFoo "<Foo, ? super Foo>") foo (barFile_mem _)
      (barFile_apart _) (leading "Foo") [following "? super Foo"]
    have hplain : ∀ a ∈ [leading "Foo", following "? super Foo"], a.IsPlain := by
      rw [List.forall_mem_cons, List.forall_mem_singleton]
      refine ⟨⟨rfl, Or.inl ?_⟩, ⟨rfl, Or.inr ⟨.lower, _, isWord_foo, splits_foo .lower⟩⟩⟩
      exact foo_className ▸ isWord_foo
    have honly : ∀ g ∈ (besideFoo "<Foo, ? super Foo>").files, g.path.same foo.path = false →
        g = barFile "<Foo, ? super Foo>" := by
      decide
    rw [← Bool.not_eq_true, hexact (by decide) honly isWord_foo hplain]
    exact fun h => List.cons_ne_nil _ _ h.1

end TextUse

end Deadwood.Usage
