import Deadwood.Proofs.Code.Naming
import Mathlib.Data.List.Infix
import Mathlib.Logic.Relation

/-!
# Spellings of a type

The same type can be written with a qualification in front of it or without, and with generic
arguments or without. Erasing generics passes over bracketed arguments wherever they stand
(`eraseFrom_arguments`), because a text whose brackets pair off never brings the depth back to where
it was before the bracket around it. What is left has no angle brackets and no blanks, and such texts
are kept as they are (`eraseGenerics_eq_self_iff`).

The simple type name cuts three times: the dots of a variable arity from the end, as often as three
of them stand there, the brackets from the first one on, and the qualification from what is left.
The cuts do not get in each other's way. After them there is nothing left to cut
(`isSimple_simpleChars`), and a qualification is lost whatever it is (`simpleChars_qualified`) if the
type does not begin with a dot, since dots alone would run together with the one in front of them.

Two texts are spellings of one type (`Respells`) if qualifications and generic arguments make the
difference, and then they have the same simple name (`Respells.simple_eq`).
-/

namespace Deadwood.Java

open Text

/-! ## Generic arguments -/

/-- Angle brackets that pair off: no bracket closes that was not opened, and none stays open. -/
structure IsBalanced (text : List Char) : Prop where
  level : text.count '<' = text.count '>'
  covered : ∀ front, front <+: text → front.count '>' ≤ front.count '<'

instance (text : List Char) : Decidable (IsBalanced text) :=
  decidable_of_iff
    (text.count '<' = text.count '>' ∧ ∀ front ∈ text.inits, front.count '>' ≤ front.count '<')
    ⟨fun h => ⟨h.1, fun front hfront => h.2 front ((List.mem_inits front text).2 hfront)⟩,
      fun h => ⟨h.level, fun front hfront => h.covered front ((List.mem_inits front text).1 hfront)⟩⟩

/-- Inside a bracket every character only moves the depth. -/
theorem eraseFrom_cons_inside {depth : Nat} (h : 0 < depth) (c : Char) (cs : List Char) :
    eraseFrom depth (c :: cs) = eraseFrom (depth + [c].count '<' - [c].count '>') cs := by
  rw [eraseFrom]
  by_cases hopen : c = '<'
  · subst hopen
    rfl
  · by_cases hclose : c = '>'
    · subst hclose
      rfl
    · have hzero : ¬ (depth = 0 ∧ isBlank c = false) := by omega
      rw [if_neg hopen, if_neg hclose, if_neg hzero, List.count_singleton, List.count_singleton]
      simp [hopen, hclose]

/-- Nothing is kept of a text in which the depth never comes down to zero. -/
theorem eraseFrom_enclosed {inner : List Char} {depth : Nat}
    (h : ∀ front, front <+: inner → front.count '>' < depth + front.count '<')
    (rest : List Char) :
    eraseFrom depth (inner ++ rest) =
      eraseFrom (depth + inner.count '<' - inner.count '>') rest := by
  induction inner generalizing depth with
  | nil => rfl
  | cons c cs ih =>
    have hcount : ∀ x (front : List Char), (c :: front).count x = [c].count x + front.count x := by
      intro x front
      rw [← List.count_append, List.singleton_append]
    have hpos : 0 < depth := by simpa using h [] List.nil_prefix
    -- not even `c` takes the depth to zero, so no subtraction is cut off
    have hfirst := h [c] (List.cons_prefix_cons.2 ⟨rfl, List.nil_prefix⟩)
    rw [List.cons_append, eraseFrom_cons_inside hpos, ih]
    · rw [hcount '<' cs, hcount '>' cs]
      congr 1
      omega
    · intro front hfront
      have hlonger := h (c :: front) (List.cons_prefix_cons.2 ⟨rfl, hfront⟩)
      rw [hcount '>' front, hcount '<' front] at hlonger
      omega

/-- Arguments whose brackets pair off are passed over whole, also inside others. -/
theorem eraseFrom_arguments {inner : List Char} (h : IsBalanced inner) (depth : Nat)
    (back : List Char) :
    eraseFrom depth ('<' :: (inner ++ '>' :: back)) = eraseFrom depth back := by
  have hinner : ∀ front, front <+: inner →
      front.count '>' < depth + 1 + front.count '<' := by
    intro front hfront
    have := h.covered front hfront
    omega
  rw [eraseFrom, if_pos rfl, eraseFrom_enclosed hinner, eraseFrom, if_neg (by decide), if_pos rfl,
    h.level]
  congr 1
  omega

/-- What stands in front decides how deep the rest is nested, and no more. -/
theorem eraseFrom_append_congr {back back' : List Char}
    (h : ∀ depth, eraseFrom depth back = eraseFrom depth back') (front : List Char) (depth : Nat) :
    eraseFrom depth (front ++ back) = eraseFrom depth (front ++ back') := by
  induction front generalizing depth with
  | nil => exact h depth
  | cons c cs ih => simp only [List.cons_append, eraseFrom, ih]

/-- Generic arguments can be taken away anywhere in a type without changing its erasure. -/
theorem eraseGenerics_arguments {inner : String} (h : IsBalanced inner.toList)
    (front back : String) :
    eraseGenerics (front ++ "<" ++ inner ++ ">" ++ back) = eraseGenerics (front ++ back) := by
  have hchars : (front ++ "<" ++ inner ++ ">" ++ back).toList =
      front.toList ++ '<' :: (inner.toList ++ '>' :: back.toList) := by
    simp [String.toList_append]
  rw [eraseGenerics, eraseGenerics, hchars, String.toList_append,
    eraseFrom_append_congr fun depth => eraseFrom_arguments h depth back.toList]

/-! ## Texts without generics -/

/-- A text without angle brackets and blanks. -/
def IsBare (text : List Char) : Prop :=
  ∀ c ∈ text, c ≠ '<' ∧ c ≠ '>' ∧ isBlank c = false

/-- Nothing that erasure takes away is left by it. -/
theorem isBare_eraseFrom (depth : Nat) (text : List Char) : IsBare (eraseFrom depth text) := by
  induction text generalizing depth with
  | nil =>
    intro c hc
    cases hc
  | cons c cs ih =>
    rw [eraseFrom]
    split
    · exact ih _
    · next hopen =>
      split
      · exact ih _
      · next hclose =>
        split
        · next hkept => exact List.forall_mem_cons.2 ⟨⟨hopen, hclose, hkept.2⟩, ih _⟩
        · exact ih _

theorem IsBare.eraseFrom_eq {text : List Char} (h : IsBare text) : eraseFrom 0 text = text :=
  eraseFrom_eq_self (fun hmem => (h _ hmem).1 rfl) (fun hmem => (h _ hmem).2.1 rfl)
    fun c hc => (h c hc).2.2

theorem isBare_eraseGenerics (type : String) : IsBare (eraseGenerics type).toList := by
  rw [eraseGenerics, String.toList_ofList]
  exact isBare_eraseFrom 0 type.toList

/-- A type is its own erasure exactly if there is nothing to erase. -/
theorem eraseGenerics_eq_self_iff (type : String) :
    eraseGenerics type = type ↔ IsBare type.toList := by
  constructor
  · intro h
    rw [← h]
    exact isBare_eraseGenerics type
  · intro h
    rw [eraseGenerics, h.eraseFrom_eq, String.ofList_toList]

@[simp] theorem eraseGenerics_eraseGenerics (type : String) :
    eraseGenerics (eraseGenerics type) = eraseGenerics type :=
  (eraseGenerics_eq_self_iff _).2 (isBare_eraseGenerics type)

/-! ## Simple type names -/

theorem simpleTypeName_eq (type : String) :
    simpleTypeName type = String.ofList (simpleChars (eraseGenerics type).toList) := by
  rw [simpleTypeName, eraseGenerics, String.toList_ofList]

/-- A text without a dot in front of its first bracket and without the dots of a variable arity at
its end. -/
structure IsSimple (text : List Char) : Prop where
  unqualified : '.' ∉ text.takeWhile (· != '[')
  no_dots : ¬ ['.', '.', '.'] <:+ text

theorem IsSimple.simpleChars_eq {text : List Char} (h : IsSimple text) :
    simpleChars text = text := by
  rw [simpleChars, trimEndOf_eq_self h.no_dots, lastSegmentChars_eq_self h.unqualified,
    List.takeWhile_append_dropWhile]

theorem mem_of_mem_lastSegmentChars {name : List Char} {c : Char} (h : c ∈ lastSegmentChars name) :
    c ∈ name := by
  rw [lastSegmentChars, List.mem_reverse] at h
  exact List.mem_reverse.1 ((List.takeWhile_sublist _).subset h)

/-- Taking away the dots at the end and the qualification leaves neither, as what is trimmed has no
further dots at its end and the last segment has none at all. -/
theorem isSimple_simpleChars (text : List Char) : IsSimple (simpleChars text) := by
  have htrimmed := not_tail_trimEndOf (by decide : ['.', '.', '.'] ≠ []) text
  rw [simpleChars]
  generalize trimEndOf ['.', '.', '.'] text = trimmed at htrimmed ⊢
  have hdot := dot_notMem_lastSegmentChars (trimmed.takeWhile (· != '['))
  have hbase : ∀ c ∈ lastSegmentChars (trimmed.takeWhile (· != '[')), (c != '[') = true := by
    intro c hc
    exact List.mem_takeWhile_imp (p := (· != '[')) (mem_of_mem_lastSegmentChars hc)
  rcases dropWhile_ne_cases '[' trimmed with hnone | ⟨rest, hbrackets⟩
  · rw [hnone, List.append_nil]
    constructor
    · exact fun hmem => hdot ((List.takeWhile_sublist _).subset hmem)
    · exact fun hdots => hdot (hdots.subset (by simp))
  · have hsuffix : '[' :: rest <:+ trimmed := hbrackets ▸ List.dropWhile_suffix _
    rw [hbrackets]
    constructor
    · rw [List.takeWhile_append_of_pos hbase, List.takeWhile_cons_of_neg (by decide),
        List.append_nil]
      exact hdot
    · -- the dots would have to stand behind the bracket, where the first cut has left none
      intro hdots
      rcases List.suffix_or_suffix_of_suffix hdots (List.suffix_append _ _) with hshort | hlong
      · exact htrimmed (hshort.trans hsuffix)
      · have hmem : '[' ∈ ['.', '.', '.'] := hlong.subset List.mem_cons_self
        exact absurd hmem (by decide)

theorem IsBare.simpleChars {text : List Char} (h : IsBare text) : IsBare (simpleChars text) := by
  intro c hc
  rcases List.mem_append.1 hc with hname | hbrackets
  · exact h c (mem_of_mem_trimEndOf
      ((List.takeWhile_sublist _).subset (mem_of_mem_lastSegmentChars hname)))
  · exact h c (mem_of_mem_trimEndOf ((List.dropWhile_sublist _).subset hbrackets))

theorem isSimple_simpleTypeName (type : String) :
    IsBare (simpleTypeName type).toList ∧ IsSimple (simpleTypeName type).toList := by
  rw [simpleTypeName_eq, String.toList_ofList]
  exact ⟨(isBare_eraseGenerics type).simpleChars, isSimple_simpleChars _⟩

/-- A type is its own simple name exactly if there is nothing in it to take away. -/
theorem simpleTypeName_eq_self_iff (type : String) :
    simpleTypeName type = type ↔ IsBare type.toList ∧ IsSimple type.toList := by
  constructor
  · intro h
    rw [← h]
    exact isSimple_simpleTypeName type
  · rintro ⟨hbare, hsimple⟩
    rw [simpleTypeName, hbare.eraseFrom_eq, hsimple.simpleChars_eq, String.ofList_toList]

@[simp] theorem simpleTypeName_simpleTypeName (type : String) :
    simpleTypeName (simpleTypeName type) = simpleTypeName type :=
  (simpleTypeName_eq_self_iff _).2 (isSimple_simpleTypeName type)

/-! ## Qualifications -/

theorem eraseFrom_append {front : List Char} (h : '<' ∉ front) (back : List Char) :
    eraseFrom 0 (front ++ back) = eraseFrom 0 front ++ eraseFrom 0 back := by
  induction front with
  | nil => rfl
  | cons c cs ih =>
    rw [List.mem_cons, not_or] at h
    simp only [List.cons_append, eraseFrom, if_neg (Ne.symm h.1), ih h.2]
    split_ifs <;> rfl

theorem mem_of_mem_eraseFrom {depth : Nat} {text : List Char} {c : Char}
    (h : c ∈ eraseFrom depth text) : c ∈ text := by
  induction text generalizing depth with
  | nil => cases h
  | cons d ds ih =>
    rw [eraseFrom] at h
    split_ifs at h
    · exact List.mem_cons_of_mem _ (ih h)
    · exact List.mem_cons_of_mem _ (ih h)
    · rcases List.mem_cons.1 h with rfl | h
      · exact List.mem_cons_self
      · exact List.mem_cons_of_mem _ (ih h)
    · exact List.mem_cons_of_mem _ (ih h)

/-- A qualification is cut off at its last dot, as long as the type behind it does not begin with
one. -/
theorem simpleChars_qualified {scope rest : List Char} {c : Char} (hscope : '[' ∉ scope)
    (hc : c ≠ '.') : simpleChars (scope ++ '.' :: c :: rest) = simpleChars (c :: rest) := by
  have hdots : c ∉ ['.', '.', '.'] := by simp [hc]
  have hlong := trimEndOf_append_cons hdots (scope ++ ['.']) rest
  have hshort := trimEndOf_append_cons hdots [] rest
  have hbase : ∀ d ∈ scope ++ ['.'], (d != '[') = true := by
    intro d hd
    rw [bne_iff_ne]
    rintro rfl
    simp [hscope] at hd
  rw [List.append_assoc, List.singleton_append] at hlong
  rw [List.nil_append, List.nil_append] at hshort
  rw [simpleChars, simpleChars, hlong, hshort, List.takeWhile_append_of_pos hbase,
    List.dropWhile_append_of_pos hbase, List.append_assoc, List.singleton_append,
    lastSegmentChars_append_dot]

/-- A text that can qualify a type: no generics and no brackets, with any dots in it. -/
structure IsQualifier (scope : String) : Prop where
  no_angle : '<' ∉ scope.toList ∧ '>' ∉ scope.toList
  no_bracket : '[' ∉ scope.toList

/-- A type that can be qualified: there is something of it without generics, and it does not begin
with a dot. -/
structure IsQualifiable (type : String) : Prop where
  ne_empty : eraseGenerics type ≠ ""
  no_dot : (eraseGenerics type).toList.head? ≠ some '.'

theorem toList_eraseGenerics_qualified {scope : String} (h : '<' ∉ scope.toList) (type : String) :
    (eraseGenerics (scope ++ "." ++ type)).toList =
      (eraseGenerics scope).toList ++ '.' :: (eraseGenerics type).toList := by
  have hchars : (scope ++ "." ++ type).toList = scope.toList ++ '.' :: type.toList := by
    simp [String.toList_append]
  have hdot : eraseFrom 0 ('.' :: type.toList) = '.' :: eraseFrom 0 type.toList := by
    rw [eraseFrom, if_neg (by decide), if_neg (by decide), if_pos (by decide)]
  simp only [eraseGenerics, String.toList_ofList, hchars, eraseFrom_append h, hdot]

/-- A qualified type has the simple name of the type without the qualification. -/
theorem simpleTypeName_qualified {scope type : String} (hscope : IsQualifier scope)
    (htype : IsQualifiable type) : simpleTypeName (scope ++ "." ++ type) = simpleTypeName type := by
  have hbracket : '[' ∉ (eraseGenerics scope).toList := by
    rw [eraseGenerics, String.toList_ofList]
    exact fun hmem => hscope.no_bracket (mem_of_mem_eraseFrom hmem)
  rw [simpleTypeName_eq, simpleTypeName_eq, toList_eraseGenerics_qualified hscope.no_angle.1]
  cases herased : (eraseGenerics type).toList with
  | nil => exact absurd (String.toList_eq_nil_iff.1 herased) htype.ne_empty
  | cons c rest =>
    have hc : c ≠ '.' := by
      rintro rfl
      exact htype.no_dot (by rw [herased, List.head?_cons])
    rw [simpleChars_qualified hbracket hc]

-- dots alone and the one behind the qualification are taken for those of a variable arity
example : simpleTypeName ("q" ++ "." ++ "..") = "q" ∧ simpleTypeName ".." = "" := by
  decide +kernel

/-! ## Spellings -/

/-- One step from a written type to a longer spelling of it: a qualification in front, or generic
arguments somewhere in it. -/
inductive Lengthens : String → String → Prop where
  | qualification {scope type : String} (hscope : IsQualifier scope) (htype : IsQualifiable type) :
    Lengthens type (scope ++ "." ++ type)
  | arguments {inner : String} (h : IsBalanced inner.toList) (front back : String) :
    Lengthens (front ++ back) (front ++ "<" ++ inner ++ ">" ++ back)

/-- Two spellings of a type: qualifications and generic arguments are added to one of them and taken
away, any number of times, until it is the other. -/
def Respells : String → String → Prop :=
  Relation.EqvGen Lengthens

section Invariants

variable {type type' : String}

/-- What a step leaves as it is, all spellings share. -/
theorem Respells.eq_of_lengthens {α : Type} {f : String → α}
    (hf : ∀ {short long}, Lengthens short long → f long = f short) (h : Respells type type') :
    f type' = f type := by
  induction h with
  | rel _ _ hstep => exact hf hstep
  | refl => rfl
  | symm _ _ _ ih => exact ih.symm
  | trans _ _ _ _ _ ih ih' => exact ih'.trans ih

/-- All spellings of a type have one simple name. -/
theorem Respells.simple_eq (h : Respells type type') :
    simpleTypeName type' = simpleTypeName type := by
  refine h.eq_of_lengthens fun hstep => ?_
  cases hstep with
  | qualification hscope htype => exact simpleTypeName_qualified hscope htype
  | arguments h front back =>
    rw [simpleTypeName_eq, simpleTypeName_eq, eraseGenerics_arguments h]

theorem Respells.lastSegment_eq (h : Respells type type') :
    lastSegment (eraseGenerics type') = lastSegment (eraseGenerics type) := by
  refine h.eq_of_lengthens (f := fun t => lastSegment (eraseGenerics t)) fun hstep => ?_
  cases hstep with
  | qualification hscope htype =>
    rw [lastSegment, lastSegment, toList_eraseGenerics_qualified hscope.no_angle.1,
      lastSegmentChars_append_dot]
  | arguments h front back => rw [eraseGenerics_arguments h]

end Invariants

end Deadwood.Java
