import Deadwood.Proofs.Usage.Shapes
import Deadwood.Usage.Pattern
import Mathlib.Computability.Language

/-!
# Shapes as written patterns

Reference shapes come from a table of templates: texts in the notation of regular expressions with a
placeholder for the name of a class. Here the notation gets its usual meaning. `Pattern.read?` reads
a pattern from its text, with the reader for all regular expressions, and `Pattern.language` is the
language that the pattern denotes, by products and Kleene stars of sets of single characters.

A template is used by writing the name into it (`fill`), with a backslash in front of every character
that would mean something else (`escape`). Whatever the name is, the pattern that is read from this
text denotes the template with just the characters of the name in the place of the placeholder, and
the search for the shape finds the stretches of that language (`shapes_denote_templates`). A shape
and its row of the table are tied together by writing out the parts (`Part.written`).
-/

namespace Deadwood.Usage

open Text
open scoped Computability

/-! ## Patterns and their languages -/

def Atom.language (a : Atom) : Language Char :=
  {w | ∃ c, w = [c] ∧ a.accepts c = true}

/-- How often an atom stands: once, any number of times, or at least once. -/
inductive Times where
  | once
  | many
  | more
  deriving DecidableEq, Repr

structure Piece where
  atom : Atom
  times : Times
  deriving DecidableEq, Repr

/-- A character that is matched by itself. -/
def Piece.lit (c : Char) : Piece :=
  ⟨.set [.char c], .once⟩

def Piece.language (p : Piece) : Language Char :=
  match p.times with
  | .once => p.atom.language
  | .many => p.atom.language∗
  | .more => p.atom.language * p.atom.language∗

/-- A pattern is a row of pieces. -/
abbrev Pattern := List Piece

def Pattern.language (p : Pattern) : Language Char :=
  (p.map Piece.language).prod

section Language

variable {w : List Char}

theorem mem_kstar_language {a : Atom} :
    w ∈ a.language∗ ↔ ∀ c ∈ w, a.accepts c = true := by
  rw [Language.mem_kstar]
  constructor
  · rintro ⟨chunks, rfl, hchunks⟩ c hc
    obtain ⟨chunk, hchunk, hmem⟩ := List.mem_flatten.1 hc
    obtain ⟨d, rfl, hd⟩ := hchunks chunk hchunk
    rw [List.mem_singleton.1 hmem]
    exact hd
  · intro haccepts
    have hflat : w = (w.map fun c => [c]).flatten := by
      rw [← List.flatMap_def, List.flatMap_singleton']
    refine ⟨w.map fun c => [c], hflat, fun chunk hchunk => ?_⟩
    obtain ⟨c, hc, rfl⟩ := List.mem_map.1 hchunk
    exact ⟨c, rfl, haccepts c hc⟩

theorem mem_mul_kstar_language {a : Atom} :
    w ∈ a.language * a.language∗ ↔ w ≠ [] ∧ ∀ c ∈ w, a.accepts c = true := by
  rw [Language.mem_mul]
  constructor
  · rintro ⟨_, ⟨c, rfl, hc⟩, rest, hrest, rfl⟩
    exact ⟨List.cons_ne_nil _ _, List.forall_mem_cons.2 ⟨hc, mem_kstar_language.1 hrest⟩⟩
  · rintro ⟨hne, haccepts⟩
    cases w with
    | nil => exact absurd rfl hne
    | cons c rest =>
      obtain ⟨hc, hrest⟩ := List.forall_mem_cons.1 haccepts
      exact ⟨[c], ⟨c, rfl, hc⟩, rest, mem_kstar_language.2 hrest, rfl⟩

namespace Pattern

theorem language_singleton (p : Piece) : language [p] = p.language :=
  mul_one p.language

theorem language_append (p q : Pattern) : (p ++ q).language = p.language * q.language := by
  rw [language, List.map_append, List.prod_append]
  rfl

/-- Characters that are matched by themselves denote just the text they are. -/
theorem language_lits (cs : List Char) : language (cs.map .lit) = {cs} := by
  ext w
  induction cs generalizing w with
  | nil => exact Language.mem_one w
  | cons c cs ih =>
    have hcons : language ((c :: cs).map .lit) = (Piece.lit c).language * language (cs.map .lit) :=
      List.prod_cons
    rw [hcons, Language.mem_mul]
    constructor
    · rintro ⟨_, ⟨d, rfl, hd⟩, rest, hrest, rfl⟩
      have hrest' : rest = cs := (ih rest).1 hrest
      rw [Atom.accepts_char.1 hd, hrest']
      rfl
    · rintro rfl
      exact ⟨[c], ⟨c, rfl, Atom.accepts_char.2 rfl⟩, cs, (ih cs).2 rfl, rfl⟩

end Pattern

end Language

/-! ## Reading a pattern -/

/-- The same piece, to be matched. -/
def Piece.regex (p : Piece) : Regex :=
  match p.times with
  | .once => .one p.atom
  | .many => .many p.atom
  | .more => .more p.atom

namespace Pattern

/-- The row of pieces that a regular expression is, if it has neither groups nor alternatives nor
starts of lines in it. -/
def ofRegex? : Regex → Option Pattern
  | .empty => some []
  | .seq (.one a) rest => (ofRegex? rest).map (⟨a, .once⟩ :: ·)
  | .seq (.many a) rest => (ofRegex? rest).map (⟨a, .many⟩ :: ·)
  | .seq (.seq (.one a) (.many b)) rest =>
    if a = b then (ofRegex? rest).map (⟨a, .more⟩ :: ·) else none
  | _ => none

/-- The pattern that a text is, if it is one. -/
def read? (cs : List Char) : Option Pattern :=
  (Regex.read? (String.ofList cs)).bind ofRegex?

theorem ofRegex?_seq (p : Piece) (rest : Regex) :
    ofRegex? (.seq p.regex rest) = (ofRegex? rest).map (p :: ·) := by
  obtain ⟨a, _ | _ | _⟩ := p
  · rfl
  · rfl
  · exact if_pos rfl

/-- Pieces that were read, the last one first, make up the row of them. -/
theorem ofRegex?_foldl {rest : Regex} {q : Pattern} (h : ofRegex? rest = some q)
    (done : List Piece) :
    ofRegex? ((done.map Piece.regex).foldl (fun rest r => .seq r rest) rest) =
      some (done.reverse ++ q) := by
  induction done generalizing rest q with
  | nil => exact h
  | cons p done ih =>
    have hp : ofRegex? (.seq p.regex rest) = some (p :: q) := by
      rw [ofRegex?_seq, h, Option.map_some]
    rw [List.map_cons, List.foldl_cons, ih hp, List.reverse_cons, List.append_assoc]
    rfl

end Pattern

namespace RegexReader

/-- A reader that has read a row of pieces, the last one first, and nothing else. -/
def ofPieces (stage : Stage) (done : List Piece) : RegexReader :=
  ⟨stage, false, ⟨false, [], done.map Piece.regex⟩, []⟩

theorem run?_append (r : RegexReader) (front back : List Char) :
    r.run? (front ++ back) = (r.run? front).bind (·.run? back) :=
  List.foldlM_append

theorem run?_cons (r : RegexReader) (c : Char) (cs : List Char) :
    r.run? (c :: cs) = (r.step? c).bind (·.run? cs) :=
  List.foldlM_cons

end RegexReader

/-- What is read as a row of pieces is the pattern of them. -/
theorem Pattern.read?_of_run? {cs : List Char} {done : List Piece}
    (h : (RegexReader.ofPieces .outside []).run? cs = some (.ofPieces .outside done)) :
    Pattern.read? cs = some done.reverse := by
  have hregex : Regex.read? (String.ofList cs) =
      some ((done.map Piece.regex).foldl (fun rest r => .seq r rest) .empty) := by
    rw [Regex.read?, String.toList_ofList]
    change ((RegexReader.ofPieces .outside []).run? cs).bind _ = _
    rw [h]
    rfl
  rw [Pattern.read?, hregex, Option.bind_some, Pattern.ofRegex?_foldl rfl, List.append_nil]

/-! ## Names in templates -/

/-- A text in which no character means anything else than itself. -/
def escape (cs : List Char) : List Char :=
  cs.flatMap fun c => if c ∈ metaChars then ['\\', c] else [c]

/-- The placeholder of templates. -/
def placeholder : List Char :=
  ['%', 's']

/-- A template with a text in the places of the placeholder. -/
def fill (cs : List Char) : List Char → List Char
  | '%' :: 's' :: rest => cs ++ fill cs rest
  | c :: rest => c :: fill cs rest
  | [] => []

theorem escaped?_of_mem {c : Char} (h : c ∈ metaChars) : escaped? c = some (.char c) := by
  have hblank : c ≠ 's' := by
    rintro rfl
    exact absurd h (by decide)
  have hword : c ≠ 'w' := by
    rintro rfl
    exact absurd h (by decide)
  rw [escaped?, if_neg hblank, if_neg hword, if_pos h]

namespace RegexReader

theorem step?_escaped {c : Char} (h : c ∈ metaChars) (done : List Piece) :
    (ofPieces .escaped done).step? c = some (ofPieces .outside (.lit c :: done)) := by
  change (escaped? c).map _ = _
  rw [escaped?_of_mem h]
  rfl

theorem step?_plain {c : Char} (h : c ∉ operators) (done : List Piece) :
    (ofPieces .outside done).step? c = some (ofPieces .outside (.lit c :: done)) := by
  change (ofPieces .outside done).outside? c = _
  unfold outside?
  split
  case h_10 => exact if_neg h
  all_goals exact absurd (by decide) h

/-- An escaped text is read as what it was. -/
theorem run?_escape (done : List Piece) (cs : List Char) :
    (ofPieces .outside done).run? (escape cs) =
      some (ofPieces .outside ((cs.map .lit).reverse ++ done)) := by
  induction cs generalizing done with
  | nil => rfl
  | cons c cs ih =>
    have hone : (ofPieces .outside done).run? (if c ∈ metaChars then ['\\', c] else [c]) =
        some (ofPieces .outside (.lit c :: done)) := by
      split
      · next hmeta =>
        change ((ofPieces .escaped done).step? c).bind (·.run? []) = _
        rw [step?_escaped hmeta]
        rfl
      · next hplain =>
        have hoperator : c ∉ operators := fun hmem => hplain (List.mem_append_left _ hmem)
        rw [run?_cons, step?_plain hoperator]
        rfl
    rw [escape, List.flatMap_cons, run?_append, hone, Option.bind_some]
    refine (ih _).trans ?_
    rw [List.map_cons, List.reverse_cons, List.append_assoc]
    rfl

end RegexReader

theorem mem_escape {c : Char} {cs : List Char} (h : c ∈ escape cs) : c = '\\' ∨ c ∈ cs := by
  obtain ⟨d, hd, hmem⟩ := List.mem_flatMap.1 h
  split at hmem
  · rcases List.mem_cons.1 hmem with hc | hmem
    · exact Or.inl hc
    · exact Or.inr (List.mem_singleton.1 hmem ▸ hd)
  · exact Or.inr (List.mem_singleton.1 hmem ▸ hd)

/-- Text without a percent sign stays when a template is filled. -/
theorem fill_append {cs front : List Char} (hfront : '%' ∉ front) (back : List Char) :
    fill cs (front ++ back) = front ++ fill cs back := by
  induction front with
  | nil => rfl
  | cons c front ih =>
    rw [List.mem_cons, not_or] at hfront
    rw [List.cons_append, fill, ih hfront.2]
    · rfl
    · intro rest hc
      exact absurd hc.symm hfront.1

theorem fill_placeholder (cs back : List Char) : fill cs (placeholder ++ back) = cs ++ fill cs back :=
  rfl

/-! ## Shapes written out -/

namespace Part

/-- A part in the notation of patterns, with a text in the place of the name. -/
def written (name : List Char) : Part → List Char
  | .text s => escape s.toList
  | .name => name
  | .blanks => ['\\', 's', '*']
  | .blanks1 => ['\\', 's', '+']
  | .word => ['\\', 'w', '+']
  | .anything => ['.', '*']
  | .blankOr s => ['[', '\\', 's'] ++ s.toList ++ [']']
  | .oneOf s => ['['] ++ s.toList ++ [']']

/-- The pieces of a pattern that a part is. -/
def pieces (name : List Char) : Part → Pattern
  | .text s => s.toList.map .lit
  | .name => name.map .lit
  | .blanks => [⟨.set [.blank], .many⟩]
  | .blanks1 => [⟨.set [.blank], .more⟩]
  | .word => [⟨.set [.wordChar], .more⟩]
  | .anything => [⟨.dot, .many⟩]
  | .blankOr s => [⟨.set (.blank :: s.toList.map .char), .once⟩]
  | .oneOf s => [⟨.set (s.toList.map .char), .once⟩]

/-- Characters that stand for themselves inside brackets, and are not the percent sign. -/
def isPlainMember (c : Char) : Bool :=
  !(['%', '\\', ']', '[', '^', '-', '&', '~'].contains c)

/-- A part whose own texts can be written out without further ado. -/
def isPlain : Part → Bool
  | .text s => !s.toList.contains '%'
  | .blankOr s => s.toList.all isPlainMember
  | .oneOf s => !s.toList.isEmpty && s.toList.all isPlainMember
  | _ => true

/-- Only one part depends on the name. -/
theorem written_eq {part : Part} (h : part ≠ .name) (name name' : List Char) :
    part.written name = part.written name' := by
  cases part with
  | name => exact absurd rfl h
  | _ => rfl

theorem pieces_eq {part : Part} (h : part ≠ .name) (name name' : List Char) :
    part.pieces name = part.pieces name' := by
  cases part with
  | name => exact absurd rfl h
  | _ => rfl

theorem run?_members {cs : List Char} (hcs : cs.all isPlainMember = true) (members : List Member)
    (done : List Piece) :
    (RegexReader.ofPieces (.inSet members) done).run? cs =
      some (.ofPieces (.inSet (members ++ cs.map .char)) done) := by
  induction cs generalizing members with
  | nil =>
    rw [List.map_nil, List.append_nil]
    rfl
  | cons c cs ih =>
    rw [List.all_cons, Bool.and_eq_true] at hcs
    obtain ⟨hc, hrest⟩ := hcs
    have hstep : (RegexReader.ofPieces (.inSet members) done).step? c =
        some (.ofPieces (.inSet (members ++ [.char c])) done) := by
      simp only [isPlainMember, List.contains_eq_mem, List.mem_cons, List.not_mem_nil, or_false,
        Bool.not_eq_true', decide_eq_false_iff_not, not_or] at hc
      simp [RegexReader.step?, RegexReader.member?, RegexReader.ofPieces, hc]
    rw [RegexReader.run?_cons, hstep, Option.bind_some, ih hrest, List.append_assoc]
    rfl

/-- Brackets with members in them are read as one piece. -/
theorem run?_brackets {cs : List Char} (hcs : cs.all isPlainMember = true) (members : List Member)
    (hne : members ++ cs.map .char ≠ []) (done : List Piece) :
    (RegexReader.ofPieces (.inSet members) done).run? (cs ++ [']']) =
      some (.ofPieces .outside (⟨.set (members ++ cs.map .char), .once⟩ :: done)) := by
  have hclose : (RegexReader.ofPieces (.inSet (members ++ cs.map .char)) done).step? ']' =
      some (.ofPieces .outside (⟨.set (members ++ cs.map .char), .once⟩ :: done)) :=
    if_neg hne
  rw [RegexReader.run?_append, run?_members hcs, Option.bind_some, RegexReader.run?_cons, hclose]
  rfl

/-- A part that is written out with the escaped name is read as its pieces. -/
theorem run?_written {part : Part} (h : part.isPlain = true) (name : List Char)
    (done : List Piece) :
    (RegexReader.ofPieces .outside done).run? (part.written (escape name)) =
      some (.ofPieces .outside ((part.pieces name).reverse ++ done)) := by
  cases part with
  | text s => exact RegexReader.run?_escape done s.toList
  | name => exact RegexReader.run?_escape done name
  | blanks => rfl
  | blanks1 => rfl
  | word => rfl
  | anything => rfl
  | blankOr s => exact run?_brackets h [.blank] (List.cons_ne_nil _ _) done
  | oneOf s =>
    rw [isPlain, Bool.and_eq_true] at h
    have hne : s.toList.map Member.char ≠ [] := by simpa using h.1
    exact run?_brackets h.2 [] hne done

theorem percent_notMem_of_plain {cs : List Char} (h : cs.all isPlainMember = true) : '%' ∉ cs := by
  intro hmem
  exact absurd (List.all_eq_true.1 h _ hmem) (by decide)

/-- Only the name can bring a percent sign into a part. -/
theorem percent_notMem_written {part : Part} (h : part.isPlain = true) (hname : part ≠ .name)
    (name : List Char) : '%' ∉ part.written name := by
  cases part with
  | text s =>
    intro hmem
    have hplain : '%' ∉ s.toList := by simpa [isPlain] using h
    rcases mem_escape hmem with hback | hmem
    · exact absurd hback (by decide)
    · exact hplain hmem
  | name => exact absurd rfl hname
  | blanks => simp [written]
  | blanks1 => simp [written]
  | word => simp [written]
  | anything => simp [written]
  | blankOr s => simpa [written] using percent_notMem_of_plain h
  | oneOf s =>
    rw [isPlain, Bool.and_eq_true] at h
    simpa [written] using percent_notMem_of_plain h.2

/-- The pieces of a part denote what fits it. -/
theorem mem_language_pieces {part : Part} {name w : List Char} :
    w ∈ (part.pieces name).language ↔ part.Fits name w := by
  cases part with
  | text s =>
    rw [pieces, Pattern.language_lits]
    rfl
  | name =>
    rw [pieces, Pattern.language_lits]
    rfl
  | blanks =>
    rw [pieces, Pattern.language_singleton]
    exact mem_kstar_language.trans (by simp [Atom.accepts, Member.accepts, Fits])
  | blanks1 =>
    rw [pieces, Pattern.language_singleton]
    exact mem_mul_kstar_language.trans (by simp [Atom.accepts, Member.accepts, Fits])
  | word =>
    rw [pieces, Pattern.language_singleton]
    exact mem_mul_kstar_language.trans (by simp [Atom.accepts, Member.accepts, Fits])
  | anything =>
    rw [pieces, Pattern.language_singleton]
    exact mem_kstar_language.trans (by simp [Atom.accepts, Fits])
  | blankOr s =>
    rw [pieces, Pattern.language_singleton]
    refine exists_congr fun c => and_congr_right fun _ => ?_
    simp [Atom.accepts, Member.accepts]
  | oneOf s =>
    rw [pieces, Pattern.language_singleton]
    refine exists_congr fun c => and_congr_right fun _ => ?_
    simp [Atom.accepts, Member.accepts]

end Part

/-! ## Rows of parts -/

section Rows

variable {parts : List Part} (hplain : parts.all Part.isPlain = true)

include hplain in
/-- Parts that are written out with the escaped name are read as their pieces. -/
theorem read?_written (name : List Char) :
    Pattern.read? (parts.flatMap (·.written (escape name))) =
      some (parts.flatMap (·.pieces name)) := by
  have hrun : ∀ done,
      (RegexReader.ofPieces .outside done).run? (parts.flatMap (·.written (escape name))) =
        some (.ofPieces .outside ((parts.flatMap (·.pieces name)).reverse ++ done)) := by
    induction parts with
    | nil => exact fun done => rfl
    | cons part parts ih =>
      intro done
      rw [List.all_cons, Bool.and_eq_true] at hplain
      rw [List.flatMap_cons, RegexReader.run?_append, Part.run?_written hplain.1, Option.bind_some,
        ih hplain.2, List.flatMap_cons, List.reverse_append, List.append_assoc]
  rw [Pattern.read?_of_run? (hrun []), List.append_nil, List.reverse_reverse]

include hplain in
/-- Filling the template that parts are written out as puts the text in the places of the name. -/
theorem fill_written (cs : List Char) :
    fill cs (parts.flatMap (·.written placeholder)) = parts.flatMap (·.written cs) := by
  induction parts with
  | nil => rfl
  | cons part parts ih =>
    rw [List.all_cons, Bool.and_eq_true] at hplain
    rw [List.flatMap_cons, List.flatMap_cons, ← ih hplain.2]
    by_cases hname : part = .name
    · rw [hname]
      exact fill_placeholder cs _
    · rw [fill_append (Part.percent_notMem_written hplain.1 hname _),
        Part.written_eq hname placeholder cs]

theorem splits_iff {name w : List Char} :
    Splits name parts w ↔ w ∈ Pattern.language (parts.flatMap (·.pieces name)) := by
  induction parts generalizing w with
  | nil => exact splits_nil_iff.trans (Language.mem_one w).symm
  | cons part parts ih =>
    rw [List.flatMap_cons, Pattern.language_append, Language.mem_mul, splits_cons_iff]
    constructor
    · rintro ⟨front, back, rfl, hfits, hsplits⟩
      exact ⟨front, Part.mem_language_pieces.2 hfits, back, ih.1 hsplits, rfl⟩
    · rintro ⟨front, hfront, back, hback, rfl⟩
      exact ⟨front, back, rfl, Part.mem_language_pieces.1 hfront, ih.2 hback⟩

end Rows

/-! ## The table -/

namespace Shape

/-- A shape is what a template says. The text of the template in front of the placeholder and behind
it reads as a pattern. The shape is found just where a stretch of the text is made of something that
the first denotes, the name, and something that the second denotes; and this is also the language of
the pattern that is read when the name is escaped and written into the template. -/
def Denotes (template : String) (s : Shape) : Prop :=
  ∃ (front back : List Char) (p q : Pattern),
    template.toList = front ++ placeholder ++ back ∧
    Pattern.read? front = some p ∧ Pattern.read? back = some q ∧
    ∀ className text : String,
      (s.occursIn className text = true ↔
        ∃ stretch ∈ p.language * {className.toList} * q.language, stretch <:+: text.toList) ∧
      ∃ pattern, Pattern.read? (fill (escape className.toList) template.toList) = some pattern ∧
        pattern.language = p.language * {className.toList} * q.language

/-- The template that a shape is written out as. -/
def template (s : Shape) : String :=
  String.ofList (s.parts.flatMap (·.written placeholder))

theorem denotes_template {s : Shape} {ps qs : List Part} (hparts : s.parts = ps ++ .name :: qs)
    (hplain : s.parts.all Part.isPlain = true) (hps : .name ∉ ps) (hqs : .name ∉ qs) :
    s.Denotes s.template := by
  have htemplate : s.template.toList = s.parts.flatMap (·.written placeholder) :=
    String.toList_ofList
  have hsides : ps.all Part.isPlain = true ∧ qs.all Part.isPlain = true := by
    rw [hparts] at hplain
    simpa [Part.isPlain] using hplain
  -- Without the name among them, the parts of a side are written and read alike for every name.
  have hread : ∀ {side : List Part}, side.all Part.isPlain = true → .name ∉ side →
      Pattern.read? (side.flatMap (·.written placeholder)) = some (side.flatMap (·.pieces [])) := by
    intro side hside hname
    rw [← read?_written hside []]
    congr 1
    exact List.flatMap_congr fun part hpart =>
      Part.written_eq (fun heq => hname (heq ▸ hpart)) _ _
  have hsame : ∀ {side : List Part}, .name ∉ side → ∀ name : List Char,
      side.flatMap (·.pieces name) = side.flatMap (·.pieces []) := by
    intro side hname name
    exact List.flatMap_congr fun part hpart =>
      Part.pieces_eq (fun heq => hname (heq ▸ hpart)) _ _
  have hlanguage : ∀ name : List Char, Pattern.language (s.parts.flatMap (·.pieces name)) =
      Pattern.language (ps.flatMap (·.pieces [])) * {name} *
        Pattern.language (qs.flatMap (·.pieces [])) := by
    intro name
    rw [hparts, List.flatMap_append, List.flatMap_cons, Pattern.language_append,
      Pattern.language_append, hsame hps, hsame hqs, ← mul_assoc]
    exact congrArg (_ * · * _) (Pattern.language_lits name)
  refine ⟨_, _, _, _, ?_, hread hsides.1 hps, hread hsides.2 hqs, fun className text => ⟨?_, ?_⟩⟩
  · rw [htemplate, hparts, List.flatMap_append, List.flatMap_cons, List.append_assoc]
    rfl
  · rw [occursIn_iff, ← hlanguage]
    simp only [splits_iff]
  · refine ⟨_, ?_, hlanguage className.toList⟩
    rw [htemplate, fill_written hplain]
    exact read?_written hplain className.toList

end Shape

/-- The titles and templates of the reference shapes. -/
def templates : List (String × String) :=
  [ ("import", "import\\s+.*\\.%s\\s*;"),
    ("extends", "extends\\s+%s[\\s\x7b]"),
    ("implements", "implements\\s+.*%s[\\s,\x7b]"),
    ("annotation", "@%s[\\s(]"),
    ("generic", "<\\s*%s\\s*>"),
    ("wildcard extends", "<\\s*\\?\\s+extends\\s+%s\\s*>"),
    ("wildcard super", "<\\s*\\?\\s+super\\s+%s\\s*>"),
    ("variable", "%s\\s+\\w+\\s*[;=]"),
    ("array", "%s\\[\\]"),
    ("instantiation", "new\\s+%s\\s*\\("),
    ("throws", "throws\\s+.*%s"),
    ("catch", "catch\\s*\\(\\s*%s"),
    ("return type", "public\\s+.*%s\\s+\\w+\\s*\\("),
    ("first parameter", "\\(\\s*%s\\s+\\w+"),
    ("next parameter", ",\\s*%s\\s+\\w+"),
    ("static field", "static\\s+.*%s\\s+\\w+"),
    ("class literal", "%s\\.class"),
    ("static access", "%s\\."),
    ("instanceof", "instanceof\\s+%s") ]

theorem templates_eq : templates = shapes.map fun s => (s.title, s.template) := by
  decide +kernel

/-- Every shape of the table has the name in it once, between parts that can be written out. -/
theorem shapes_split : ∀ s ∈ shapes,
    let front := s.parts.takeWhile (· != .name)
    let back := (s.parts.dropWhile (· != .name)).tail
    s.parts = front ++ .name :: back ∧ s.parts.all Part.isPlain = true ∧
      .name ∉ front ∧ .name ∉ back := by
  decide +kernel

/-- **Shapes denote their templates.** In every row of the table, whatever the name of the class is,
the search for the shape and the pattern with the escaped name written into the template find the
same: the template with just the name in the place of the placeholder. -/
theorem shapes_denote_templates :
    List.Forall₂ (fun row s => row.1 = s.title ∧ s.Denotes row.2) templates shapes := by
  rw [templates_eq, List.forall₂_map_left_iff, List.forall₂_same]
  intro s hs
  obtain ⟨hparts, hplain, hfront, hback⟩ := shapes_split s hs
  exact ⟨rfl, Shape.denotes_template hparts hplain hfront hback⟩

end Deadwood.Usage
