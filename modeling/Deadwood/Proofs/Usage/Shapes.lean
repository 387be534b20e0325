import Deadwood.Usage.Shape
import Mathlib.Data.List.Infix

/-!
# What the search for shapes finds

The search for a shape goes through a text with the parts that are left and all the ways in which
each part can end. Here it is compared with what the parts stand for: a part can leave a rest just
if the text in front of the rest fits the part (`Part.mem_rests`), so the search finds a shape just
if some stretch of the text splits into its parts (`Shape.occursIn_iff`). Two consequences hold
whatever the text is: every shape has the name in it, so no shape is found where the name is not
(`Shape.name_mem_text`), and more text around a text only adds stretches (`Shape.occursIn_mono`).
-/

namespace Deadwood.Usage

open Text

section Search

variable {name : List Char}

theorem after?_eq_some_iff {front cs rest : List Char} :
    after? front cs = some rest ↔ cs = front ++ rest := by
  fun_induction after? front cs with
  | case1 cs => simp
  | case2 f front => simp
  | case3 f front cs ih => simp [ih]
  | case4 f front c cs hne =>
    have hne' : c ≠ f := fun heq => hne heq.symm
    simp [hne']

/-- The rests behind any number of characters of a kind, none included. -/
theorem mem_tailsWhile {p : Char → Bool} {cs rest : List Char} :
    rest ∈ tailsWhile p cs ↔ ∃ front, (∀ c ∈ front, p c = true) ∧ cs = front ++ rest := by
  induction cs with
  | nil =>
    rw [tailsWhile, List.mem_singleton]
    constructor
    · rintro rfl
      exact ⟨[], by simp, rfl⟩
    · rintro ⟨front, -, hsplit⟩
      exact (List.nil_eq_append_iff.1 hsplit).2
  | cons c cs ih =>
    rw [tailsWhile, List.mem_cons]
    constructor
    · rintro (rfl | hmem)
      · exact ⟨[], by simp, rfl⟩
      · split at hmem
        · next hc =>
          obtain ⟨front, hfront, rfl⟩ := ih.1 hmem
          exact ⟨c :: front, List.forall_mem_cons.2 ⟨hc, hfront⟩, rfl⟩
        · cases hmem
    · rintro ⟨front, hfront, hsplit⟩
      cases front with
      | nil => exact Or.inl hsplit.symm
      | cons d front =>
        obtain ⟨rfl, rfl⟩ := List.cons.inj hsplit
        obtain ⟨hc, hrest⟩ := List.forall_mem_cons.1 hfront
        right
        rw [if_pos hc]
        exact ih.2 ⟨front, hrest, rfl⟩

theorem afterOne?_eq_some_iff {p : Char → Bool} {cs rest : List Char} :
    afterOne? p cs = some rest ↔ ∃ c, p c = true ∧ cs = c :: rest := by
  cases cs with
  | nil => simp [afterOne?]
  | cons c cs =>
    rw [afterOne?, Option.ite_none_right_eq_some, Option.some_inj]
    constructor
    · rintro ⟨hc, rfl⟩
      exact ⟨c, hc, rfl⟩
    · rintro ⟨d, hd, hsplit⟩
      obtain ⟨rfl, rfl⟩ := List.cons.inj hsplit
      exact ⟨hd, rfl⟩

/-- One character of a class or more. -/
theorem mem_tailsWhile_afterOne {p : Char → Bool} {cs rest : List Char} :
    rest ∈ ((afterOne? p cs).map (tailsWhile p)).getD [] ↔
      ∃ front, (front ≠ [] ∧ ∀ c ∈ front, p c = true) ∧ cs = front ++ rest := by
  constructor
  · intro hmem
    cases hone : afterOne? p cs with
    | none =>
      rw [hone] at hmem
      cases hmem
    | some back =>
      rw [hone] at hmem
      obtain ⟨c, hc, rfl⟩ := afterOne?_eq_some_iff.1 hone
      obtain ⟨front, hfront, rfl⟩ := mem_tailsWhile.1 hmem
      exact ⟨c :: front, ⟨List.cons_ne_nil _ _, List.forall_mem_cons.2 ⟨hc, hfront⟩⟩, rfl⟩
  · rintro ⟨front, ⟨hne, hfront⟩, rfl⟩
    cases front with
    | nil => exact absurd rfl hne
    | cons c front =>
      obtain ⟨hc, hrest⟩ := List.forall_mem_cons.1 hfront
      rw [List.cons_append, afterOne?_eq_some_iff.2 ⟨c, hc, rfl⟩]
      exact mem_tailsWhile.2 ⟨front, hrest, rfl⟩

/-- One character of a class. -/
theorem mem_toList_afterOne {p : Char → Bool} {cs rest : List Char} :
    rest ∈ (afterOne? p cs).toList ↔ ∃ front, (∃ c, front = [c] ∧ p c = true) ∧
      cs = front ++ rest := by
  rw [Option.mem_toList, afterOne?_eq_some_iff]
  constructor
  · rintro ⟨c, hc, rfl⟩
    exact ⟨[c], ⟨c, rfl, hc⟩, rfl⟩
  · rintro ⟨_, ⟨c, rfl, hc⟩, rfl⟩
    exact ⟨c, hc, rfl⟩

/-- A part leaves the rests whose fronts fit it. -/
theorem Part.mem_rests {part : Part} {cs rest : List Char} :
    rest ∈ part.rests name cs ↔ ∃ front, part.Fits name front ∧ cs = front ++ rest := by
  cases part with
  | text s => simp [rests, Fits, after?_eq_some_iff]
  | name => simp [rests, Fits, after?_eq_some_iff]
  | blanks => exact mem_tailsWhile
  | blanks1 => exact mem_tailsWhile_afterOne
  | word => exact mem_tailsWhile_afterOne
  | anything =>
    rw [rests, mem_tailsWhile]
    simp only [bne_iff_ne, Fits]
  | blankOr s =>
    rw [rests, mem_toList_afterOne]
    simp only [Bool.or_eq_true, List.contains_iff_mem, Fits]
  | oneOf s =>
    rw [rests, mem_toList_afterOne]
    simp only [List.contains_iff_mem, Fits]

/-- The search over all rests decides whether a text begins with a stretch that splits into the
parts. -/
theorem startsWith_iff {parts : List Part} {cs : List Char} :
    startsWith name parts cs = true ↔ ∃ front, Splits name parts front ∧ front <+: cs := by
  induction parts generalizing cs with
  | nil =>
    rw [startsWith]
    exact ⟨fun _ => ⟨[], .nil, List.nil_prefix⟩, fun _ => rfl⟩
  | cons part parts ih =>
    rw [startsWith, List.any_eq_true]
    constructor
    · rintro ⟨rest, hrest, hstarts⟩
      obtain ⟨front, hfits, rfl⟩ := Part.mem_rests.1 hrest
      obtain ⟨back, hsplits, after, rfl⟩ := ih.1 hstarts
      exact ⟨front ++ back, .cons hfits hsplits, after, List.append_assoc _ _ _⟩
    · rintro ⟨_, hsplits, after, rfl⟩
      cases hsplits with
      | @cons _ _ front back hfits hsplits =>
        have hrest : back ++ after ∈ part.rests name (front ++ back ++ after) :=
          Part.mem_rests.2 ⟨front, hfits, List.append_assoc _ _ _⟩
        exact ⟨_, hrest, ih.2 ⟨back, hsplits, List.prefix_append _ _⟩⟩

/-- The same anywhere in the text. -/
theorem somewhere_iff {parts : List Part} {cs : List Char} :
    somewhere name parts cs = true ↔ ∃ stretch, Splits name parts stretch ∧ stretch <:+: cs := by
  induction cs with
  | nil =>
    rw [somewhere, startsWith_iff]
    simp only [List.prefix_nil, List.infix_nil]
  | cons c cs ih =>
    rw [somewhere, Bool.or_eq_true, startsWith_iff, ih, ← exists_or]
    refine exists_congr fun stretch => ?_
    rw [List.infix_cons_iff, ← and_or_left]

theorem splits_nil_iff {stretch : List Char} : Splits name [] stretch ↔ stretch = [] := by
  constructor
  · rintro ⟨⟩
    rfl
  · rintro rfl
    exact .nil

theorem splits_cons_iff {part : Part} {parts : List Part} {stretch : List Char} :
    Splits name (part :: parts) stretch ↔
      ∃ front back, stretch = front ++ back ∧ part.Fits name front ∧ Splits name parts back := by
  constructor
  · intro h
    cases h with
    | cons hfits hsplits => exact ⟨_, _, rfl, hfits, hsplits⟩
  · rintro ⟨front, back, rfl, hfits, hsplits⟩
    exact .cons hfits hsplits

/-- Parts behind parts split a stretch behind a stretch. -/
theorem Splits.append {parts more : List Part} {front back : List Char}
    (h : Splits name parts front) (h' : Splits name more back) :
    Splits name (parts ++ more) (front ++ back) := by
  induction h with
  | nil => exact h'
  | cons hfits _ ih =>
    rw [List.append_assoc]
    exact .cons hfits ih

/-- Parts with the name among them only split what has the name in it. -/
theorem Splits.has_name {parts : List Part} {stretch : List Char}
    (h : Splits name parts stretch) (hname : Part.name ∈ parts) : name <:+: stretch := by
  induction h with
  | nil => cases hname
  | @cons part parts front back hfits _ ih =>
    rcases List.mem_cons.1 hname with rfl | hname
    · rw [show front = name from hfits]
      exact ⟨[], back, rfl⟩
    · exact (ih hname).trans (List.suffix_append front back).isInfix

end Search

/-! ## Shapes in texts -/

namespace Shape

variable {s : Shape} {className text : String}

/-- **A text has a shape** just if some stretch of it splits into the parts of the shape. -/
theorem occursIn_iff : s.occursIn className text = true ↔
    ∃ stretch, Splits className.toList s.parts stretch ∧ stretch <:+: text.toList :=
  somewhere_iff

/-- There is no shape without a place for the name. -/
theorem name_mem_parts : ∀ s ∈ shapes, Part.name ∈ s.parts := by
  decide

theorem name_mem_text (hs : s ∈ shapes) (h : s.occursIn className text = true) :
    className.toList <:+: text.toList := by
  obtain ⟨stretch, hsplits, hpart⟩ := occursIn_iff.1 h
  exact (hsplits.has_name (name_mem_parts s hs)).trans hpart

/-- A shape occurs in every text that has one in it where it occurs. -/
theorem occursIn_mono {wider : String} (h : s.occursIn className text = true)
    (hpart : text.toList <:+: wider.toList) : s.occursIn className wider = true := by
  obtain ⟨stretch, hsplits, hstretch⟩ := occursIn_iff.1 h
  exact occursIn_iff.2 ⟨stretch, hsplits, hstretch.trans hpart⟩

end Shape

end Deadwood.Usage
