import Deadwood.Report.Json
import Mathlib.Data.List.Basic

/-!
# The tokens of a JSON text

A JSON text is a row of tokens: brackets, commas and colons, numbers and quoted texts, with white
space between them. `Lexes` says of which tokens a text is a row. The rules are those of JSON for the
kinds of values that reports have; inside a quoted text, a character beyond the first plane stands
for itself.

Tokens are read by a machine that goes over the characters one by one (`readFrom?`) and finds in
every row the tokens that it is a row of (`readFrom?_of_lexes`).
-/

namespace Deadwood.Report.Json

/-! ## Tokens -/

inductive Token where
  | openArray
  | closeArray
  | openObject
  | closeObject
  | comma
  | colon
  | text (s : String)
  | number (n : Nat)
  deriving DecidableEq, Repr

/-- The tokens of one character. -/
def mark? : Char → Option Token
  | '[' => some .openArray
  | ']' => some .closeArray
  | '\x7b' => some .openObject
  | '\x7d' => some .closeObject
  | ',' => some .comma
  | ':' => some .colon
  | _ => none

def isSpace (c : Char) : Bool :=
  c == ' ' || c == '\n' || c == '\r' || c == '\t'

/-- What a letter behind a backslash stands for. -/
def escaped? : Char → Option Char
  | '"' => some '"'
  | '\\' => some '\\'
  | '/' => some '/'
  | 'b' => some '\x08'
  | 'f' => some '\x0c'
  | 'n' => some '\n'
  | 'r' => some '\r'
  | 't' => some '\t'
  | _ => none

def digitValue (c : Char) : Nat :=
  c.toNat - '0'.toNat

/-- The value of a digit below sixteen, small or capital. -/
def hexValue? (c : Char) : Option Nat :=
  if c.isDigit then some (digitValue c)
  else if 'a' ≤ c ∧ c ≤ 'f' then some (c.toNat - 'a'.toNat + 10)
  else if 'A' ≤ c ∧ c ≤ 'F' then some (c.toNat - 'A'.toNat + 10)
  else none

def hexCode (values : List Nat) : Nat :=
  values.foldl (fun code v => 16 * code + v) 0

/-- The ways to write a character inside a quoted text: as it is, by a letter or by its code. -/
inductive SpellsChar : Char → List Char → Prop where
  | plain {c : Char} (hc : 32 ≤ c.toNat) (hquote : c ≠ '"') (hback : c ≠ '\\') : SpellsChar c [c]
  | letter {c l : Char} (hl : escaped? l = some c) : SpellsChar c ['\\', l]
  | code {c w x y z : Char} {i j k l : Nat} (hw : hexValue? w = some i) (hx : hexValue? x = some j)
    (hy : hexValue? y = some k) (hz : hexValue? z = some l) (hc : c.toNat = hexCode [i, j, k, l]) :
    SpellsChar c ['\\', 'u', w, x, y, z]

inductive SpellsText : List Char → List Char → Prop where
  | nil : SpellsText [] []
  | cons {c : Char} {s word body : List Char} (hc : SpellsChar c word) (h : SpellsText s body) :
    SpellsText (c :: s) (word ++ body)

/-- Decimal digits of a number; only zero itself begins with a zero. -/
inductive SpellsNumber : Nat → List Char → Prop where
  | digit {c : Char} (hc : c.isDigit = true) : SpellsNumber (digitValue c) [c]
  | more {n : Nat} {digits : List Char} {c : Char} (h : SpellsNumber n digits) (hn : n ≠ 0)
    (hc : c.isDigit = true) : SpellsNumber (10 * n + digitValue c) (digits ++ [c])

/-- A text that would not go on with the digits of a number in front of it. -/
def NoDigit (cs : List Char) : Prop :=
  ∀ c ∈ cs.head?, c.isDigit = false

theorem noDigit_cons {c : Char} {cs : List Char} (h : c.isDigit = false) : NoDigit (c :: cs) := by
  rintro d ⟨⟩
  exact h

/-- The texts that are a row of tokens. -/
inductive Lexes : List Token → List Char → Prop where
  | done : Lexes [] []
  | space {c : Char} {ts : List Token} {cs : List Char} (hc : isSpace c = true) (h : Lexes ts cs) :
    Lexes ts (c :: cs)
  | mark {c : Char} {t : Token} {ts : List Token} {cs : List Char} (hc : mark? c = some t)
    (h : Lexes ts cs) : Lexes (t :: ts) (c :: cs)
  | text {s : String} {body : List Char} {ts : List Token} {cs : List Char}
    (hs : SpellsText s.toList body) (h : Lexes ts cs) :
    Lexes (.text s :: ts) ('"' :: (body ++ '"' :: cs))
  | number {n : Nat} {digits : List Char} {ts : List Token} {cs : List Char}
    (hn : SpellsNumber n digits) (hend : NoDigit cs) (h : Lexes ts cs) :
    Lexes (.number n :: ts) (digits ++ cs)

/-! ## Reading tokens -/

/-- Where a reader stands in a text. -/
inductive Mode where
  | between
  /-- In a number, behind the digits of `n`. -/
  | number (n : Nat)
  /-- In a quoted text. -/
  | text (s : List Char)
  /-- Behind a backslash in a quoted text. -/
  | escape (s : List Char)
  /-- In the code of a character of a quoted text. -/
  | code (s : List Char) (values : List Nat)

/-- What a character between tokens begins or is. -/
def begin? (c : Char) : Option (Mode × List Token) :=
  if isSpace c then some (.between, [])
  else if c = '"' then some (.text [], [])
  else if c.isDigit then some (.number (digitValue c), [])
  else (mark? c).map fun t => (.between, [t])

/-- The mode behind a character, and the tokens that end there. -/
def step? : Mode → Char → Option (Mode × List Token)
  | .between, c => begin? c
  | .number n, c =>
    if c.isDigit then (if n = 0 then none else some (.number (10 * n + digitValue c), []))
    else (begin? c).map fun next => (next.1, .number n :: next.2)
  | .text s, c =>
    if c = '"' then some (.between, [.text (String.ofList s)])
    else if c = '\\' then some (.escape s, [])
    else if c.toNat < 32 then none
    else some (.text (s ++ [c]), [])
  | .escape s, c =>
    if c = 'u' then some (.code s [], []) else (escaped? c).map fun d => (.text (s ++ [d]), [])
  | .code s values, c =>
    (hexValue? c).bind fun v =>
      let values := values ++ [v]
      if values.length < 4 then some (.code s values, [])
      else if (hexCode values).isValidChar then
        some (.text (s ++ [Char.ofNat (hexCode values)]), [])
      else none

def readFrom? : Mode → List Char → Option (List Token)
  | .between, [] => some []
  | .number n, [] => some [.number n]
  | _, [] => none
  | mode, c :: cs => (step? mode c).bind fun next => (readFrom? next.1 cs).map (next.2 ++ ·)

section Steps

variable {mode next : Mode} {c : Char} {cs : List Char}

/-- Reading goes character by character, and each adds its tokens. -/
theorem readFrom?_cons {ts : List Token} (h : step? mode c = some (next, ts)) :
    readFrom? mode (c :: cs) = (readFrom? next cs).map (ts ++ ·) := by
  rw [readFrom?, h, Option.bind_some]

/-- A step inside a token or over white space. -/
theorem readFrom?_inside (h : step? mode c = some (next, [])) :
    readFrom? mode (c :: cs) = readFrom? next cs := by
  rw [readFrom?_cons h]
  simp

theorem begin?_of_mark {t : Token} (h : mark? c = some t) : begin? c = some (.between, [t]) := by
  unfold mark? at h
  split at h
  all_goals first | cases h; rfl | cases h

theorem begin?_of_isDigit (h : c.isDigit = true) : begin? c = some (.number (digitValue c), []) := by
  have hspace : isSpace c = false := by
    rw [← Bool.not_eq_true]
    intro hc
    simp only [isSpace, Bool.or_eq_true, beq_iff_eq] at hc
    rcases hc with ((rfl | rfl) | rfl) | rfl <;> exact absurd h (by decide)
  have hquote : c ≠ '"' := by
    rintro rfl
    exact absurd h (by decide)
  simp [begin?, hspace, hquote, h]

end Steps

/-- Inside a text every spelling of a character stands for that character. -/
theorem readFrom?_spellsChar {c : Char} {word : List Char} (h : SpellsChar c word)
    (s cs : List Char) : readFrom? (.text s) (word ++ cs) = readFrom? (.text (s ++ [c])) cs := by
  cases h with
  | plain hc hquote hback =>
    apply readFrom?_inside
    have hlt : ¬ c.toNat < 32 := by omega
    simp [step?, hquote, hback, hlt]
  | @letter l hl =>
    have hu : l ≠ 'u' := by
      rintro rfl
      cases hl
    have hback : step? (.text s) '\\' = some (.escape s, []) := by simp [step?]
    have hletter : step? (.escape s) l = some (.text (s ++ [c]), []) := by simp [step?, hu, hl]
    rw [List.cons_append, readFrom?_inside hback, List.cons_append, readFrom?_inside hletter]
    rfl
  | @code w x y z i j k l hw hx hy hz hc =>
    have hback : step? (.text s) '\\' = some (.escape s, []) := by simp [step?]
    have hu : step? (.escape s) 'u' = some (.code s [], []) := by simp [step?]
    have hfirst : step? (.code s []) w = some (.code s [i], []) := by simp [step?, hw]
    have hsecond : step? (.code s [i]) x = some (.code s [i, j], []) := by simp [step?, hx]
    have hthird : step? (.code s [i, j]) y = some (.code s [i, j, k], []) := by simp [step?, hy]
    have hlast : step? (.code s [i, j, k]) z = some (.text (s ++ [c]), []) := by
      -- The code is that of a character, so it is not refused.
      have hvalid : c.toNat.isValidChar := c.valid
      simp [step?, hz, ← hc, hvalid]
    simp only [List.cons_append, List.nil_append]
    rw [readFrom?_inside hback, readFrom?_inside hu, readFrom?_inside hfirst,
      readFrom?_inside hsecond, readFrom?_inside hthird, readFrom?_inside hlast]

/-- So a spelled text is read to its end, whatever comes behind. -/
theorem readFrom?_spellsText {s body : List Char} (h : SpellsText s body) (before cs : List Char) :
    readFrom? (.text before) (body ++ cs) = readFrom? (.text (before ++ s)) cs := by
  induction h generalizing before with
  | nil => simp
  | cons hc _ ih => rw [List.append_assoc, readFrom?_spellsChar hc, ih, List.append_assoc]; rfl

/-- Digits add up to the number that they spell. -/
theorem readFrom?_spellsNumber {n : Nat} {digits : List Char} (h : SpellsNumber n digits)
    (cs : List Char) : readFrom? .between (digits ++ cs) = readFrom? (.number n) cs := by
  induction h generalizing cs with
  | digit hc =>
    apply readFrom?_inside
    exact begin?_of_isDigit hc
  | more _ hn hc ih =>
    rw [List.append_assoc, ih]
    apply readFrom?_inside
    simp [step?, hn, hc]

/-- A number ends where no digit follows. -/
theorem readFrom?_number {cs : List Char} (h : NoDigit cs) (n : Nat) :
    readFrom? (.number n) cs = (readFrom? .between cs).map (.number n :: ·) := by
  cases cs with
  | nil => rfl
  | cons c cs =>
    have hc : c.isDigit = false := h c rfl
    simp only [readFrom?, step?, hc]
    cases begin? c with
    | none => rfl
    | some next => simp [Function.comp_def]

/-- **The tokens of a text are found.** -/
theorem readFrom?_of_lexes {ts : List Token} {cs : List Char} (h : Lexes ts cs) :
    readFrom? .between cs = some ts := by
  induction h with
  | done => rfl
  | space hc _ ih =>
    rw [← ih]
    apply readFrom?_inside
    simp [step?, begin?, hc]
  | @mark c t ts cs hc _ ih =>
    have hstep : step? .between c = some (.between, [t]) := begin?_of_mark hc
    rw [readFrom?_cons hstep, ih]
    rfl
  | @text s body ts cs hs _ ih =>
    have hopen : step? .between '"' = some (.text [], []) := rfl
    have hclose : step? (.text s.toList) '"' = some (.between, [.text s]) := by simp [step?]
    rw [readFrom?_inside hopen, readFrom?_spellsText hs, List.nil_append, readFrom?_cons hclose, ih]
    rfl
  | number hn hend _ ih =>
    rw [readFrom?_spellsNumber hn, readFrom?_number hend, ih]
    rfl

end Deadwood.Report.Json
