import Deadwood.Proofs.Usage.Captures
import Deadwood.Proofs.Usage.Words
import Deadwood.Usage.DeclaredName

/-!
# The first declaration of a text

The textual scan takes a file for the class that its text declares first, which is what the first
match of `declarationPattern` captures. `OpensAt` says where a declaration opens, without saying how
it is searched for: at a keyword that stands at the start or after a blank, with blanks and a word
behind it. The two come to the same (`className_first`).

From a keyword on, the first way to match goes over all blanks and all of the word, as keywords
begin with different letters, and neither blanks nor words reach into what follows
(`head?_openingPattern`). In front of the keyword the pattern has the start of a line or a blank, so
a match begins at the keyword or one character before it. Still the match that begins first has the
first keyword: what opens right behind a blank is matched with the blank, before the place itself is
looked at (`search?_append`).

What stands behind the name has no part in this: whether a declaration opens before a blank and a
word is settled by what is before the word (`Opens.replace`).
-/

namespace Deadwood.Usage

open Text

/-- The keywords of declarations. -/
def declarationKeywords : List String :=
  ["class", "interface", "enum"]

/-- A keyword, blanks and a word stand at the front of a text. -/
def Opens (cs : List Char) : Prop :=
  ∃ keyword ∈ declarationKeywords, ∃ gap c rest, gap ≠ [] ∧ IsGap gap ∧ isWordChar c = true ∧
    cs = keyword.toList ++ (gap ++ c :: rest)

/-- No word goes on in a text. -/
def EndsWord (rest : List Char) : Prop :=
  ∀ c ∈ rest.head?, isWordChar c = false

/-- A declaration opens at position `k`, which is the start of the text or follows a blank. -/
def OpensAt (text : List Char) (k : Nat) : Prop :=
  (k = 0 ∨ (text[k - 1]?).any isBlank = true) ∧ Opens (text.drop k)

/-! ## A declaration at the front -/

section Front

variable {keyword : String} {gap name rest cs : List Char}

theorem isWord_keyword (h : keyword ∈ declarationKeywords) : IsWord keyword.toList := by
  have hall :
      (declarationKeywords.all fun k => k.toList != [] && k.toList.all isWordChar) = true := by
    decide
  have hword := List.all_eq_true.1 hall keyword h
  rw [Bool.and_eq_true, bne_iff_ne] at hword
  exact ⟨hword.1, List.all_eq_true.1 hword.2⟩

/-- No two keywords begin with the same letter. -/
theorem keyword_eq_of_prefix {other : String} (hkeyword : keyword ∈ declarationKeywords)
    (hother : other ∈ declarationKeywords) (h : other.toList <+: keyword.toList ++ cs) :
    other = keyword := by
  have hheads : (declarationKeywords.all fun a => declarationKeywords.all fun b =>
      a == b || a.toList.head? != b.toList.head?) = true := by decide
  have hdiffer := List.all_eq_true.1 (List.all_eq_true.1 hheads other hother) keyword hkeyword
  rw [Bool.or_eq_true, beq_iff_eq, bne_iff_ne] at hdiffer
  refine hdiffer.resolve_right fun hne => hne ?_
  obtain ⟨c, front, hc⟩ := List.exists_cons_of_ne_nil (isWord_keyword hkeyword).1
  obtain ⟨d, front', hd⟩ := List.exists_cons_of_ne_nil (isWord_keyword hother).1
  rw [hc, hd, List.cons_append] at h
  rw [hc, hd, List.head?_cons, List.head?_cons, (List.cons_prefix_cons.1 h).1]

/-- The word behind the blanks goes as far as word characters do. -/
theorem Opens.exists_name (h : Opens cs) :
    ∃ keyword ∈ declarationKeywords, ∃ gap name rest, gap ≠ [] ∧ IsGap gap ∧ IsWord name ∧
      EndsWord rest ∧ cs = keyword.toList ++ (gap ++ (name ++ rest)) := by
  obtain ⟨keyword, hkeyword, gap, c, back, hne, hgap, hc, rfl⟩ := h
  refine ⟨keyword, hkeyword, gap, (c :: back).takeWhile isWordChar,
    (c :: back).dropWhile isWordChar, hne, hgap, ⟨?_, fun d hd => List.mem_takeWhile_imp hd⟩,
    fun d hd => ?_, by rw [List.takeWhile_append_dropWhile]⟩
  · rw [List.takeWhile_cons_of_pos hc]
    exact List.cons_ne_nil _ _
  · have hhead := List.head?_dropWhile_not isWordChar (c :: back)
    rwa [hd] at hhead

end Front

/-! ## The pattern from a keyword on -/

/-- Any of the keywords. -/
def keywordPattern : Regex :=
  .alt (.word "class".toList) (.alt (.word "interface".toList) (.word "enum".toList))

/-- The pattern from the keyword on. -/
def openingPattern : Regex :=
  .seq keywordPattern (.seq (.more (.set [.blank]))
    (.seq (.capture (.seq (.more (.set [.wordChar])) .empty)) .empty))

/-- The pattern in front of the keyword. -/
def leadingPattern : Regex :=
  .alt (.seq .lineStart .empty) (.seq (.one (.set [.blank])) .empty)

/-- The text of the pattern is read as it is meant. -/
theorem declarationPattern_eq : declarationPattern = some (.seq leadingPattern openingPattern) := by
  decide +kernel

theorem accepts_blank (c : Char) : (Atom.set [.blank]).accepts c = isBlank c :=
  Bool.or_false _

theorem accepts_wordChar (c : Char) : (Atom.set [.wordChar]).accepts c = isWordChar c :=
  Bool.or_false _

section Opening

variable {keyword : String} {gap name rest cs : List Char} {p e : Cursor}
  {before : Option Char}

theorem mem_ways_keywordPattern :
    e ∈ keywordPattern.ways p ↔
      ∃ keyword ∈ declarationKeywords, e ∈ (Regex.word keyword.toList).ways p := by
  simp only [keywordPattern, Regex.ways, List.mem_append, declarationKeywords, List.mem_cons,
    List.not_mem_nil, or_false, exists_eq_or_imp, exists_eq_left]

/-- At a keyword no other one can be matched. -/
theorem head?_keywordPattern (hkeyword : keyword ∈ declarationKeywords) (before : Option Char)
    (cs : List Char) :
    ∃ b, (keywordPattern.ways ⟨before, keyword.toList ++ cs, none⟩).head? = some ⟨b, cs, none⟩ := by
  obtain ⟨b, hb⟩ := Regex.ways_word_append keyword.toList cs before none
  have honly : ∀ e ∈ keywordPattern.ways ⟨before, keyword.toList ++ cs, none⟩,
      e = ⟨b, cs, none⟩ := by
    intro e he
    obtain ⟨other, hother, he⟩ := mem_ways_keywordPattern.1 he
    cases keyword_eq_of_prefix hkeyword hother ⟨e.rest, (Regex.rest_of_mem_word he).symm⟩
    rw [hb] at he
    exact List.mem_singleton.1 he
  refine ⟨b, ?_⟩
  cases hways : keywordPattern.ways ⟨before, keyword.toList ++ cs, none⟩ with
  | nil =>
    have hmem := mem_ways_keywordPattern.2 ⟨keyword, hkeyword, hb ▸ List.mem_singleton_self _⟩
    rw [hways] at hmem
    cases hmem
  | cons first others => rw [List.head?_cons, honly first (hways ▸ List.mem_cons_self)]

/-- From a keyword on, the first way to match goes over all blanks and captures all of the word. -/
theorem head?_openingPattern (hkeyword : keyword ∈ declarationKeywords) (hne : gap ≠ [])
    (hgap : IsGap gap) (hname : IsWord name) (hrest : EndsWord rest) (before : Option Char) :
    ∃ b, (openingPattern.ways
      ⟨before, keyword.toList ++ (gap ++ (name ++ rest)), none⟩).head? =
        some ⟨b, rest, some name⟩ := by
  obtain ⟨b, hb⟩ := head?_keywordPattern hkeyword before (gap ++ (name ++ rest))
  have hblanks : ∀ c ∈ gap, (Atom.set [.blank]).accepts c = true := fun c hc =>
    (accepts_blank c).trans (hgap c hc)
  have hstop : ∀ c ∈ (name ++ rest).head?, (Atom.set [.blank]).accepts c = false := by
    intro c hc
    obtain ⟨d, name, rfl⟩ := List.exists_cons_of_ne_nil hname.1
    cases hc
    exact (accepts_blank c).trans (isBlank_of_isWordChar (hname.2 c List.mem_cons_self))
  obtain ⟨b', hb'⟩ := Regex.head?_more b none hne hblanks hstop
  obtain ⟨b'', hb''⟩ := Regex.head?_more b' none hname.1
    (fun c hc => (accepts_wordChar c).trans (hname.2 c hc))
    (fun c hc => (accepts_wordChar c).trans (hrest c hc))
  rw [← Regex.ways_seq_empty] at hb''
  have hcaptured := Regex.head?_capture hb'' rfl
  rw [← Regex.ways_seq_empty] at hcaptured
  exact ⟨b'', Regex.head?_seq hb (Regex.head?_seq hb' hcaptured)⟩

theorem opens_of_mem_openingPattern (h : e ∈ openingPattern.ways p) : Opens p.rest := by
  obtain ⟨q, hq, h⟩ := Regex.mem_ways_seq.1 h
  obtain ⟨keyword, hkeyword, hq⟩ := mem_ways_keywordPattern.1 hq
  obtain ⟨q', hq', h⟩ := Regex.mem_ways_seq.1 h
  obtain ⟨gap, hne, hgap, hgapRest⟩ := Regex.exists_of_mem_more hq'
  rw [Regex.ways_seq_empty] at h
  obtain ⟨e', he', -⟩ := Regex.exists_of_mem_capture h
  rw [Regex.ways_seq_empty] at he'
  obtain ⟨name, hname, hword, hnameRest⟩ := Regex.exists_of_mem_more he'
  obtain ⟨c, name, rfl⟩ := List.exists_cons_of_ne_nil hname
  refine ⟨keyword, hkeyword, gap, c, name ++ e'.rest, hne, fun d hd => ?_, ?_, ?_⟩
  · exact (accepts_blank d).symm.trans (hgap d hd)
  · exact (accepts_wordChar c).symm.trans (hword c List.mem_cons_self)
  · rw [Regex.rest_of_mem_word hq, hgapRest, hnameRest]
    rfl

theorem openingPattern_eq_nil_iff : openingPattern.ways ⟨before, cs, none⟩ = [] ↔ ¬ Opens cs := by
  constructor
  · intro hnil hopens
    obtain ⟨keyword, hkeyword, gap, name, rest, hne, hgap, hname, hrest, rfl⟩ := hopens.exists_name
    obtain ⟨b, hb⟩ := head?_openingPattern hkeyword hne hgap hname hrest before
    rw [hnil] at hb
    cases hb
  · intro hopens
    exact List.eq_nil_iff_forall_not_mem.2 fun e he => hopens (opens_of_mem_openingPattern he)

end Opening

instance : DecidablePred Opens := fun cs =>
  decidable_of_iff (openingPattern.ways ⟨none, cs, none⟩ ≠ [])
    (by rw [Ne, openingPattern_eq_nil_iff, not_not])

instance (text : List Char) (k : Nat) : Decidable (OpensAt text k) :=
  inferInstanceAs (Decidable (_ ∧ _))

/-! ## What stands behind the name -/

theorem word_gap_ne {w gap front tail : List Char} {b d : Char} (hw : IsWord w) (hgap : IsGap gap)
    (hb : isBlank b = true) (hd : isWordChar d = true) : w ++ gap ≠ front ++ b :: d :: tail := by
  have hnot : ∀ lead, gap ≠ lead ++ b :: d :: tail := by
    rintro lead rfl
    have hblank := hgap d (by simp)
    rw [isBlank_of_isWordChar hd] at hblank
    cases hblank
  intro h
  rcases List.append_eq_append_iff.1 h with ⟨lead, -, hlead⟩ | ⟨back, rfl, hback⟩
  · exact hnot lead hlead
  · cases back with
    | nil => exact hnot [] hback.symm
    | cons c back =>
      obtain ⟨rfl, -⟩ := List.cons.inj hback
      have hword := hw.2 b (by simp)
      rw [isWordChar_of_isBlank hb] at hword
      cases hword

/-- Behind a blank and the first character of a word, any text may follow: no declaration that opens
before the blank reaches as far. -/
theorem Opens.replace {front tail : List Char} {b d : Char} (hb : isBlank b = true)
    (hd : isWordChar d = true) (h : Opens (front ++ b :: d :: tail)) (other : List Char) :
    Opens (front ++ b :: d :: other) := by
  obtain ⟨keyword, hkeyword, gap, c, rest, hne, hgap, hc, htext⟩ := h
  have hread : (front ++ [b, d]) ++ tail = (keyword.toList ++ (gap ++ [c])) ++ rest := by
    simpa using htext
  obtain ⟨more, hmore⟩ : ∃ more, front ++ [b, d] = keyword.toList ++ (gap ++ [c]) ++ more := by
    rcases List.append_eq_append_iff.1 hread with ⟨beyond, hbeyond, -⟩ | ⟨more, hmore, -⟩
    · rcases beyond.eq_nil_or_concat with rfl | ⟨middle, last, rfl⟩
      · exact ⟨[], by rw [hbeyond, List.append_nil, List.append_nil]⟩
      · have hinner : (keyword.toList ++ gap) ++ [c] = (front ++ b :: d :: middle) ++ [last] := by
          simpa using hbeyond
        exact absurd (List.append_inj_left' hinner rfl)
          (word_gap_ne (isWord_keyword hkeyword) hgap hb hd)
    · exact ⟨more, hmore⟩
  refine ⟨keyword, hkeyword, gap, c, more ++ other, hne, hgap, hc, ?_⟩
  calc front ++ b :: d :: other = (front ++ [b, d]) ++ other := by simp
    _ = keyword.toList ++ (gap ++ c :: (more ++ other)) := by simp [hmore]

/-! ## The search -/

/-- Whether a keyword may stand behind `front`, if `boundary` tells this for the start. -/
def boundaryAfter (boundary : Bool) (front : List Char) : Bool :=
  front.getLast?.elim boundary isBlank

theorem boundaryAfter_cons (boundary : Bool) (c : Char) (front : List Char) :
    boundaryAfter boundary (c :: front) = boundaryAfter (isBlank c) front := by
  rw [boundaryAfter, boundaryAfter, List.getLast?_cons]
  cases front.getLast? <;> rfl

theorem opensAt_length_iff {front back : List Char} :
    OpensAt (front ++ back) front.length ↔ boundaryAfter true front = true ∧ Opens back := by
  rw [OpensAt, List.drop_left]
  refine and_congr_left fun _ => ?_
  rcases front.eq_nil_or_concat with rfl | ⟨init, c, rfl⟩
  · exact ⟨fun _ => rfl, fun _ => Or.inl rfl⟩
  · simp [boundaryAfter]

section Search

variable {before : Option Char} {c : Char} {cs : List Char}

/-- The end of a line is a blank. -/
theorem mem_ways_lineStart {q : Cursor}
    (h : q ∈ (Regex.seq .lineStart .empty).ways ⟨before, cs, none⟩) :
    before.all isBlank = true ∧ q = ⟨before, cs, none⟩ := by
  rw [Regex.ways_seq_empty, Regex.ways] at h
  split at h
  · next hline =>
    refine ⟨?_, List.mem_singleton.1 h⟩
    cases before with
    | none => rfl
    | some d =>
      rw [beq_iff_eq.1 hline]
      decide
  · cases h

/-- No match starts at a place if no declaration opens there or right behind it. -/
theorem declaration_eq_nil (hhere : before.all isBlank = true → ¬ Opens cs)
    (hnext : ∀ c rest, cs = c :: rest → isBlank c = true → ¬ Opens rest) :
    (Regex.seq leadingPattern openingPattern).ways ⟨before, cs, none⟩ = [] := by
  refine List.eq_nil_iff_forall_not_mem.2 fun e he => ?_
  obtain ⟨q, hq, he⟩ := Regex.mem_ways_seq.1 he
  have hopens := opens_of_mem_openingPattern he
  rcases List.mem_append.1 hq with hq | hq
  · obtain ⟨hboundary, rfl⟩ := mem_ways_lineStart hq
    exact hhere hboundary hopens
  · rw [Regex.ways_seq_empty] at hq
    obtain ⟨c, hc, hrest⟩ := Regex.exists_of_mem_one hq
    exact hnext c q.rest hrest ((accepts_blank c).symm.trans hc) hopens

/-- At the start of a text a declaration is matched without a blank in front of it. -/
theorem head?_declaration_start {e : Cursor}
    (h : (openingPattern.ways ⟨none, cs, none⟩).head? = some e) :
    ((Regex.seq leadingPattern openingPattern).ways ⟨none, cs, none⟩).head? = some e :=
  Regex.head?_seq rfl h

/-- Behind a blank it is matched together with the blank. -/
theorem head?_declaration_blank (hc : isBlank c = true) {e : Cursor}
    (h : (openingPattern.ways ⟨some c, cs, none⟩).head? = some e)
    (hhere : before.all isBlank = true → ¬ Opens (c :: cs)) :
    ((Regex.seq leadingPattern openingPattern).ways ⟨before, c :: cs, none⟩).head? = some e := by
  have hblank : (Regex.seq (.one (.set [.blank])) .empty).ways ⟨before, c :: cs, none⟩ =
      [⟨some c, cs, none⟩] := by
    rw [Regex.ways_seq_empty]
    exact if_pos ((accepts_blank c).trans hc)
  have hline : ((Regex.seq .lineStart .empty).ways ⟨before, c :: cs, none⟩).flatMap
      openingPattern.ways = [] := by
    refine List.eq_nil_iff_forall_not_mem.2 fun e he => ?_
    obtain ⟨q, hq, he⟩ := List.mem_flatMap.1 he
    obtain ⟨hboundary, rfl⟩ := mem_ways_lineStart hq
    exact hhere hboundary (opens_of_mem_openingPattern he)
  rw [Regex.ways, leadingPattern, Regex.ways, List.flatMap_append, hline, hblank, List.nil_append,
    List.flatMap_singleton]
  exact h

/-- The search passes a stretch of text in which no declaration opens, and matches the declaration
that opens behind it. -/
theorem search?_append {front back : List Char} {name : List Char}
    (hfound : ∀ b, ∃ e,
      (openingPattern.ways ⟨b, back, none⟩).head? = some e ∧ e.captured = some name)
    (hboundary : boundaryAfter (before.all isBlank) front = true)
    (hstart : front = [] → before = none)
    (h : ∀ start rest, front = start ++ rest → rest ≠ [] →
      boundaryAfter (before.all isBlank) start = true → ¬ Opens (rest ++ back)) :
    ((Regex.seq leadingPattern openingPattern).search? before (front ++ back)).bind
      (·.captured) = some name := by
  induction front generalizing before with
  | nil =>
    cases hstart rfl
    obtain ⟨e, he, hname⟩ := hfound none
    rw [List.nil_append, Regex.search?_of_head? (head?_declaration_start he)]
    exact hname
  | cons c front ih =>
    have hhere : before.all isBlank = true → ¬ Opens (c :: front ++ back) :=
      h [] (c :: front) rfl (List.cons_ne_nil _ _)
    rw [boundaryAfter_cons] at hboundary
    cases front with
    | nil =>
      obtain ⟨e, he, hname⟩ := hfound (some c)
      rw [List.cons_append, List.nil_append,
        Regex.search?_of_head? (head?_declaration_blank hboundary he hhere)]
      exact hname
    | cons d front =>
      have hnil : (Regex.seq leadingPattern openingPattern).ways
          ⟨before, c :: (d :: front ++ back), none⟩ = [] := by
        refine declaration_eq_nil hhere fun x rest hrest hx => ?_
        obtain ⟨rfl, rfl⟩ := List.cons.inj hrest
        exact h [c] (d :: front) rfl (List.cons_ne_nil _ _) hx
      rw [List.cons_append, Regex.search?_cons_of_nil hnil]
      refine ih hboundary (fun hnil => by cases hnil) fun start rest hfront hrest hstart => ?_
      refine h (c :: start) rest (congrArg (c :: ·) hfront) hrest ?_
      rwa [boundaryAfter_cons]

/-- Where no declaration opens anywhere, every place is passed. -/
theorem search?_eq_none {text : List Char}
    (h : ∀ start rest, text = start ++ rest → boundaryAfter (before.all isBlank) start = true →
      ¬ Opens rest) :
    (Regex.seq leadingPattern openingPattern).search? before text = none := by
  induction text generalizing before with
  | nil =>
    have hnil := declaration_eq_nil (h [] [] rfl) fun c rest htext => h [c] rest htext
    exact congrArg List.head? hnil
  | cons c text ih =>
    have hnil := declaration_eq_nil (h [] (c :: text) rfl) fun d rest htext => h [d] rest htext
    rw [Regex.search?_cons_of_nil hnil]
    refine ih fun start rest htext hboundary => h (c :: start) rest (congrArg (c :: ·) htext) ?_
    rwa [boundaryAfter_cons]

end Search

/-! ## Declarations in a text -/

/-- A declaration with the text in front of it. -/
structure Declaration where
  front : List Char
  keyword : String
  gap : List Char
  name : List Char
  starts : boundaryAfter true front = true
  keyword_mem : keyword ∈ declarationKeywords
  gap_ne : gap ≠ []
  isGap : IsGap gap
  isWord : IsWord name

namespace Declaration

/-- The text up to the end of the name. -/
def head (d : Declaration) : List Char :=
  d.front ++ (d.keyword.toList ++ (d.gap ++ d.name))

theorem head_append (d : Declaration) (rest : List Char) :
    d.head ++ rest = d.front ++ (d.keyword.toList ++ (d.gap ++ (d.name ++ rest))) := by
  simp [head]

/-- What opens before a declaration does so whatever follows its name. -/
theorem opens_before {d : Declaration} {before after : List Char}
    (hfront : d.front = before ++ after) (hafter : after ≠ []) {rest : List Char}
    (h : Opens (after ++ (d.keyword.toList ++ (d.gap ++ (d.name ++ rest))))) (other : List Char) :
    Opens (after ++ (d.keyword.toList ++ (d.gap ++ (d.name ++ other)))) := by
  obtain ⟨init, b, hinit⟩ := after.eq_nil_or_concat.resolve_left hafter
  obtain ⟨c, cs, hkeyword⟩ := List.exists_cons_of_ne_nil (isWord_keyword d.keyword_mem).1
  have hb : isBlank b = true := by
    have hstarts := d.starts
    rw [hfront, hinit, boundaryAfter, List.concat_eq_append, ← List.append_assoc,
      List.getLast?_concat] at hstarts
    exact hstarts
  have hc : isWordChar c = true :=
    (isWord_keyword d.keyword_mem).2 c (hkeyword ▸ List.mem_cons_self)
  have hsplit : ∀ rest, after ++ (d.keyword.toList ++ (d.gap ++ (d.name ++ rest))) =
      init ++ b :: c :: (cs ++ (d.gap ++ (d.name ++ rest))) := fun rest => by
    simp [hinit, hkeyword]
  rw [hsplit] at h ⊢
  exact h.replace hb hc _

/-- The first declaration of a text gives its name, and stays the first one whatever follows. -/
theorem firstCapture?_eq {d : Declaration} {rest : List Char}
    (hfirst : ∀ j < d.front.length, ¬ OpensAt (d.head ++ rest) j) {other : List Char}
    (hother : EndsWord other) :
    (Regex.seq leadingPattern openingPattern).firstCapture? (d.head ++ other) = some d.name := by
  have hpass : ∀ start after, d.front = start ++ after → after ≠ [] →
      boundaryAfter true start = true →
      ¬ Opens (after ++ (d.keyword.toList ++ (d.gap ++ (d.name ++ other)))) := by
    intro start after hfront hafter hboundary hopens
    have hlt : start.length < d.front.length := by
      rw [hfront, List.length_append]
      exact Nat.lt_add_of_pos_right (List.length_pos_iff.2 hafter)
    apply hfirst start.length hlt
    rw [head_append, hfront, List.append_assoc]
    exact opensAt_length_iff.2 ⟨hboundary, opens_before hfront hafter hopens rest⟩
  rw [head_append]
  refine search?_append (fun b => ?_) d.starts (fun _ => rfl) hpass
  obtain ⟨b', hb'⟩ := head?_openingPattern d.keyword_mem d.gap_ne d.isGap d.isWord hother b
  exact ⟨_, hb', rfl⟩

end Declaration

theorem OpensAt.exists_declaration {text : List Char} {k : Nat} (h : OpensAt text k) :
    ∃ (d : Declaration) (rest : List Char), d.front.length = k ∧ text = d.head ++ rest ∧
      EndsWord rest := by
  obtain ⟨keyword, hkeyword, gap, name, rest, hne, hgap, hname, hrest, htail⟩ := h.2.exists_name
  have hk : (text.take k).length = k := by
    refine List.length_take_of_le (Nat.le_of_lt ?_)
    refine Nat.lt_of_not_le fun hle => ?_
    rw [List.drop_eq_nil_of_le hle] at htail
    simp [hne] at htail
  have hstarts : boundaryAfter true (text.take k) = true := by
    have hopens : OpensAt (text.take k ++ text.drop k) (text.take k).length := by
      rw [List.take_append_drop, hk]
      exact h
    exact (opensAt_length_iff.1 hopens).1
  exact ⟨⟨text.take k, keyword, gap, name, hstarts, hkeyword, hne, hgap, hname⟩, rest, hk, by
    rw [Declaration.head_append, ← htail, List.take_append_drop], hrest⟩

/-- A file is taken for the class whose declaration opens first, and for its stem if none does. The
name is all of the word behind the keyword, and nothing that follows it matters. -/
theorem className_first (path : Path) (text : String) :
    (∀ k, OpensAt text.toList k → (∀ j < k, ¬ OpensAt text.toList j) →
      ∃ (d : Declaration) (rest : List Char), d.front.length = k ∧ text.toList = d.head ++ rest ∧
        (∀ c ∈ rest.head?, isWordChar c = false) ∧ className path text = String.ofList d.name ∧
        ∀ other : List Char, (∀ c ∈ other.head?, isWordChar c = false) →
          className path (String.ofList (d.head ++ other)) = className path text) ∧
    ((∀ k, ¬ OpensAt text.toList k) → className path text = path.stem?.getD "") := by
  constructor
  · intro k hopens hleast
    obtain ⟨d, rest, rfl, htext, hrest⟩ := hopens.exists_declaration
    rw [htext] at hleast
    have hname : ∀ other : List Char, (∀ c ∈ other.head?, isWordChar c = false) →
        className path (String.ofList (d.head ++ other)) = String.ofList d.name := by
      intro other hother
      rw [className, declarationPattern_eq, String.toList_ofList, Option.bind_some,
        d.firstCapture?_eq hleast hother]
    have hself : className path text = String.ofList d.name := by
      rw [← hname rest hrest, ← htext, String.ofList_toList]
    exact ⟨d, rest, rfl, htext, hrest, hself, fun other hother => by rw [hname other hother, hself]⟩
  · intro hnone
    have hsearch : (Regex.seq leadingPattern openingPattern).search? none text.toList = none := by
      refine search?_eq_none fun start rest htext hboundary hopens => hnone start.length ?_
      rw [htext]
      exact opensAt_length_iff.2 ⟨hboundary, hopens⟩
    rw [className, declarationPattern_eq, Option.bind_some, Regex.firstCapture?, hsearch,
      Option.bind_none]

/-- A keyword in a longer word and one before a punctuation mark open nothing. -/
theorem className_first_sample :
    (∃ d : Declaration, d.front.length = 26 ∧ String.ofList d.name = "Helper" ∧
      className ⟨"src/Fallback.java"⟩ "subclass A; /* enum: */ a\nclass\tHelper<T>" =
        String.ofList d.name) ∧
    className ⟨"src/Fallback.java"⟩ "// no class" = "Fallback" := by
  constructor
  · obtain ⟨d, -, hlength, -, -, hname, -⟩ :=
      (className_first ⟨"src/Fallback.java"⟩ "subclass A; /* enum: */ a\nclass\tHelper<T>").1 26
        (by decide +kernel) (by decide +kernel)
    exact ⟨d, hlength, hname.symm.trans (by decide +kernel), hname⟩
  · have hnone : ∀ k, ¬ OpensAt "// no class".toList k := by
      intro k hopens
      have hk : k < 11 := by
        refine Nat.lt_of_not_le fun hle => ?_
        have hback := hopens.2
        rw [List.drop_eq_nil_of_le (Nat.le_trans (by decide) hle)] at hback
        exact absurd hback (by decide)
      exact absurd hopens ((by decide +kernel : ∀ k < 11, ¬ OpensAt "// no class".toList k) k hk)
    rw [(className_first ⟨"src/Fallback.java"⟩ "// no class").2 hnone]
    decide

end Deadwood.Usage
