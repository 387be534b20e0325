import Deadwood.Proofs.Report.Tokens
import Mathlib.Data.List.Forall2
import Mathlib.Data.Nat.Digits.Defs

/-!
# The texts of JSON values

`tokens` are the tokens of a value, and a text `Spells` a value if it is a row of them, whatever
white space and escapes it uses. Two facts tie this to printing and reading:

* what is printed for a value spells it (`spells_render`);
* a text that spells a value is read as that value (`parse?_of_spells`), so it spells no other.

Values are read from tokens by a machine with a stack of the arrays and objects that are open.
-/

namespace Deadwood.Report.Json

mutual

def tokens : Json → List Token
  | .string s => [.text s]
  | .number n => [.number n]
  | .array items => .openArray :: ([.comma].intercalate (itemTokens items) ++ [.closeArray])
  | .object members => .openObject :: ([.comma].intercalate (memberTokens members) ++ [.closeObject])

def itemTokens : List Json → List (List Token)
  | [] => []
  | item :: rest => tokens item :: itemTokens rest

def memberTokens : List (String × Json) → List (List Token)
  | [] => []
  | (key, value) :: rest => (.text key :: .colon :: tokens value) :: memberTokens rest

end

/-- The texts of JSON that stand for a value. -/
def Spells (j : Json) (text : String) : Prop :=
  Lexes j.tokens text.toList

/-! ## Printed texts -/

theorem hexValue?_hexDigit {n : Nat} (h : n < 16) : hexValue? (hexDigit n) = some n := by
  revert n
  decide

/-- Every character is written in a way that is read as that character, with an escape or as it is.
-/
theorem spellsChar_escapeChar (c : Char) : SpellsChar c (escapeChar c) := by
  unfold escapeChar
  split
  -- No letter stands for the character: it needs its code, or no escape at all.
  case h_8 hquote hback _ _ _ _ _ =>
    split
    case isTrue hlt =>
      have hsixteen : c.toNat = hexCode [0, 0, c.toNat / 16, c.toNat % 16] := by
        simp only [hexCode, List.foldl_cons, List.foldl_nil]
        omega
      exact .code (by decide) (by decide) (hexValue?_hexDigit (by omega))
        (hexValue?_hexDigit (by omega)) hsixteen
    case isFalse hge => exact .plain (by omega) hquote hback
  all_goals exact .letter rfl

theorem spellsText_escape (s : List Char) : SpellsText s (s.flatMap escapeChar) := by
  induction s with
  | nil => exact .nil
  | cons c s ih => exact .cons (spellsChar_escapeChar c) ih

theorem digitValue_digitChar {n : Nat} (h : n < 10) : digitValue n.digitChar = n := by
  rw [digitValue, Nat.toNat_digitChar_of_lt_ten h]
  exact Nat.add_sub_cancel_left 48 n

theorem isDigit_digitChar {n : Nat} (h : n < 10) : n.digitChar.isDigit = true := by
  rw [Nat.isDigit_digitChar]
  exact decide_eq_true h

/-- Numbers are written with digits that spell them. -/
theorem spellsNumber_toDigits (n : Nat) : SpellsNumber n (Nat.toDigits 10 n) := by
  induction n using Nat.strongRecOn with
  | _ n ih =>
    by_cases hn : n < 10
    · have hdigit : SpellsNumber (digitValue n.digitChar) [n.digitChar] :=
        .digit (isDigit_digitChar hn)
      rw [digitValue_digitChar hn] at hdigit
      rwa [Nat.toDigits_of_lt_base hn]
    · have hlast : n % 10 < 10 := by omega
      have hmore : SpellsNumber (10 * (n / 10) + digitValue (n % 10).digitChar)
          (Nat.toDigits 10 (n / 10) ++ [(n % 10).digitChar]) :=
        .more (ih (n / 10) (by omega)) (by omega) (isDigit_digitChar hlast)
      rw [digitValue_digitChar hlast, Nat.div_add_mod] at hmore
      rwa [Nat.toDigits_of_base_le (by omega) (by omega)]

/-- A text that, in front of a row of tokens, adds the given ones. -/
def Reads (words : List Token) (text : String) : Prop :=
  ∀ ts rest, NoDigit rest → Lexes ts rest → Lexes (words ++ ts) (text.toList ++ rest)

theorem reads_quote (s : String) : Reads [.text s] (quote s) := by
  intro ts rest _ h
  have htext := Lexes.text (spellsText_escape s.toList) h
  simpa [quote] using htext

theorem reads_number (n : Nat) : Reads [.number n] (toString n) := by
  intro ts rest hrest h
  rw [Nat.toString_eq_repr, Nat.toList_repr]
  exact .number (spellsNumber_toDigits n) hrest h

/-- Line ends and indentation are passed over between tokens. -/
theorem lexes_newline {ts : List Token} {cs : List Char} (level : Nat) (h : Lexes ts cs) :
    Lexes ts ((newline level).toList ++ cs) := by
  have hblanks : ∀ n, Lexes ts (List.replicate n ' ' ++ cs) := by
    intro n
    induction n with
    | zero => exact h
    | succ n ih => exact .space (by decide) ih
  rw [newline, String.toList_ofList]
  exact .space (by decide) (hblanks _)

theorem noDigit_newline (level : Nat) (cs : List Char) : NoDigit ((newline level).toList ++ cs) := by
  rw [newline, String.toList_ofList]
  exact noDigit_cons rfl

/-- Texts that are joined by a comma and a line end. -/
theorem reads_intercalate (level : Nat) {words : List (List Token)} {texts : List String}
    (h : List.Forall₂ Reads words texts) :
    Reads ([.comma].intercalate words) (String.intercalate ("," ++ newline level) texts) := by
  intro ts rest hrest hts
  rw [String.toList_intercalate]
  induction h with
  | nil => exact hts
  | @cons w t words texts hw hrow ih =>
    cases hrow with
    | nil => simpa using hw ts rest hrest hts
    | cons hnext hrow =>
      have hcomma : ("," ++ newline level).toList = ',' :: (newline level).toList := by simp
      rw [hcomma] at ih ⊢
      simp only [List.map_cons, List.intercalate_cons_cons, List.append_assoc] at ih ⊢
      exact hw _ _ (noDigit_cons rfl) (.mark rfl (lexes_newline level ih))

/-- Items in brackets are read as their tokens with commas between, at every level of indentation
and also if there are none. -/
theorem reads_bracket {opening closing : String} {c d : Char} {a b : Token}
    (hopening : opening.toList = [c]) (hclosing : closing.toList = [d]) (ha : mark? c = some a)
    (hb : mark? d = some b) (level : Nat) {words : List (List Token)} {texts : List String}
    (h : List.Forall₂ Reads words texts) :
    Reads (a :: ([.comma].intercalate words ++ [b])) (bracket opening closing level texts) := by
  intro ts rest _ hts
  have hend : Lexes (b :: ts) (d :: rest) := .mark hb hts
  cases h with
  | nil => simpa [bracket, hopening, hclosing] using Lexes.mark ha hend
  | cons hw hrow =>
    have hitems := reads_intercalate (level + 1) (.cons hw hrow) (b :: ts)
      ((newline level).toList ++ d :: rest) (noDigit_newline _ _) (lexes_newline level hend)
    have hall := Lexes.mark ha (lexes_newline (level + 1) hitems)
    simpa [bracket, hopening, hclosing] using hall

mutual

/-- What is written for a value is read as the tokens of the value. The induction is on the value,
with its items and members as the other two parts. -/
theorem reads_renderAt (level : Nat) (j : Json) : Reads j.tokens (j.renderAt level) := by
  cases j with
  | string s =>
    rw [tokens, renderAt]
    exact reads_quote s
  | number n =>
    rw [tokens, renderAt]
    exact reads_number n
  | array items =>
    rw [tokens, renderAt]
    exact reads_bracket rfl rfl rfl rfl level (reads_renderItems (level + 1) items)
  | object members =>
    rw [tokens, renderAt]
    exact reads_bracket rfl rfl rfl rfl level (reads_renderMembers (level + 1) members)

theorem reads_renderItems (level : Nat) (items : List Json) :
    List.Forall₂ Reads (itemTokens items) (renderItems level items) := by
  cases items with
  | nil =>
    rw [itemTokens, renderItems]
    exact .nil
  | cons item rest =>
    rw [itemTokens, renderItems]
    exact .cons (reads_renderAt level item) (reads_renderItems level rest)

theorem reads_renderMembers (level : Nat) (members : List (String × Json)) :
    List.Forall₂ Reads (memberTokens members) (renderMembers level members) := by
  cases members with
  | nil =>
    rw [memberTokens, renderMembers]
    exact .nil
  | cons member rest =>
    obtain ⟨key, value⟩ := member
    rw [memberTokens, renderMembers]
    refine .cons ?_ (reads_renderMembers level rest)
    intro ts text htext hts
    have hvalue := reads_renderAt level value ts text htext hts
    have hcolon : Lexes (.colon :: (value.tokens ++ ts))
        (':' :: ' ' :: ((value.renderAt level).toList ++ text)) := .mark rfl (.space (by decide) hvalue)
    have hkey := reads_quote key _ _ (noDigit_cons rfl) hcolon
    simpa using hkey

end

/-- **What is printed for a value spells it.** -/
theorem spells_render (j : Json) : Spells j j.render := by
  have h := reads_renderAt 0 j [] [] (by rintro c ⟨⟩) .done
  simpa [Spells, render] using h

/-! ## Reading values -/

/-- An array or an object that is not closed yet, in front of the value that comes next in it. -/
inductive Open where
  | array (items : List Json)
  | object (members : List (String × Json)) (key : String)

/-- Where a reader of tokens stands. -/
inductive State where
  | value (outer : List Open)
  /-- Behind the bracket that opens an array. -/
  | opened (outer : List Open)
  /-- In an object, in front of a key; it may be closed here if it has no members. -/
  | key (members : List (String × Json)) (outer : List Open)
  | colon (members : List (String × Json)) (key : String) (outer : List Open)
  /-- Behind a value. -/
  | behind (j : Json) (outer : List Open)

def beginValue? (outer : List Open) : Token → Option State
  | .text s => some (.behind (.string s) outer)
  | .number n => some (.behind (.number n) outer)
  | .openArray => some (.opened outer)
  | .openObject => some (.key [] outer)
  | _ => none

def advance? : State → Token → Option State
  | .value outer, t => beginValue? outer t
  | .opened outer, .closeArray => some (.behind (.array []) outer)
  | .opened outer, t => beginValue? (.array [] :: outer) t
  | .key [] outer, .closeObject => some (.behind (.object []) outer)
  | .key members outer, .text key => some (.colon members key outer)
  | .colon members key outer, .colon => some (.value (.object members key :: outer))
  | .behind j (.array items :: outer), .comma => some (.value (.array (items ++ [j]) :: outer))
  | .behind j (.array items :: outer), .closeArray => some (.behind (.array (items ++ [j])) outer)
  | .behind j (.object members key :: outer), .comma => some (.key (members ++ [(key, j)]) outer)
  | .behind j (.object members key :: outer), .closeObject =>
    some (.behind (.object (members ++ [(key, j)])) outer)
  | _, _ => none

/-- The value that the rest of a row of tokens ends. -/
def valueFrom? : State → List Token → Option Json
  | .behind j [], [] => some j
  | _, [] => none
  | state, t :: ts => (advance? state t).bind fun next => valueFrom? next ts

def parse? (text : String) : Option Json :=
  (readFrom? .between text.toList).bind (valueFrom? (.value []))

theorem valueFrom?_cons {state next : State} {t : Token} {ts : List Token}
    (h : advance? state t = some next) : valueFrom? state (t :: ts) = valueFrom? next ts := by
  rw [valueFrom?, h, Option.bind_some]

/-- No value begins with the bracket that closes an array. -/
theorem valueFrom?_opened (outer : List Open) (j : Json) (ts : List Token) :
    valueFrom? (.opened outer) (j.tokens ++ ts)
      = valueFrom? (.value (.array [] :: outer)) (j.tokens ++ ts) := by
  cases j <;> rw [tokens] <;> rfl

theorem intercalate_comma (w : List Token) (words : List (List Token)) :
    [Token.comma].intercalate (w :: words) = w ++ words.flatMap (.comma :: ·) := by
  induction words generalizing w with
  | nil => simp
  | cons next words ih => rw [List.intercalate_cons_cons, ih, List.flatMap_cons]; simp

mutual

/-- The tokens of a value take the reader behind it. -/
theorem valueFrom?_tokens (outer : List Open) (j : Json) (ts : List Token) :
    valueFrom? (.value outer) (j.tokens ++ ts) = valueFrom? (.behind j outer) ts := by
  cases j with
  | string s => rw [tokens]; rfl
  | number n => rw [tokens]; rfl
  | array items =>
    have hopen : advance? (.value outer) .openArray = some (.opened outer) := rfl
    rw [tokens, List.cons_append, valueFrom?_cons hopen]
    cases items with
    | nil => rw [itemTokens]; rfl
    | cons item rest =>
      rw [itemTokens, intercalate_comma]
      simp only [List.append_assoc, List.singleton_append]
      -- What follows the bracket begins an item, so it does not close the array.
      rw [valueFrom?_opened, valueFrom?_tokens, valueFrom?_moreItems, List.nil_append]
  | object members =>
    have hopen : advance? (.value outer) .openObject = some (.key [] outer) := rfl
    rw [tokens, List.cons_append, valueFrom?_cons hopen]
    cases members with
    | nil => rw [memberTokens]; rfl
    | cons member rest =>
      obtain ⟨key, value⟩ := member
      have hkey : advance? (.key [] outer) (.text key) = some (.colon [] key outer) := rfl
      have hcolon : advance? (.colon [] key outer) .colon = some (.value (.object [] key :: outer)) :=
        rfl
      rw [memberTokens, intercalate_comma]
      simp only [List.append_assoc, List.cons_append, List.nil_append]
      rw [valueFrom?_cons hkey, valueFrom?_cons hcolon, valueFrom?_tokens, valueFrom?_moreMembers,
        List.nil_append]

/-- The items behind the first one of an array. -/
theorem valueFrom?_moreItems (before : List Json) (outer : List Open) (j : Json) (rest : List Json)
    (ts : List Token) :
    valueFrom? (.behind j (.array before :: outer))
        ((itemTokens rest).flatMap (.comma :: ·) ++ .closeArray :: ts)
      = valueFrom? (.behind (.array (before ++ j :: rest)) outer) ts := by
  cases rest with
  | nil => rw [itemTokens]; rfl
  | cons next rest =>
    have hcomma : advance? (.behind j (.array before :: outer)) .comma
        = some (.value (.array (before ++ [j]) :: outer)) := rfl
    rw [itemTokens, List.flatMap_cons]
    simp only [List.cons_append, List.append_assoc]
    rw [valueFrom?_cons hcomma, valueFrom?_tokens, valueFrom?_moreItems, List.append_assoc,
      List.singleton_append]

/-- The members behind the first one of an object. -/
theorem valueFrom?_moreMembers (before : List (String × Json)) (key : String) (outer : List Open)
    (j : Json) (rest : List (String × Json)) (ts : List Token) :
    valueFrom? (.behind j (.object before key :: outer))
        ((memberTokens rest).flatMap (.comma :: ·) ++ .closeObject :: ts)
      = valueFrom? (.behind (.object (before ++ (key, j) :: rest)) outer) ts := by
  cases rest with
  | nil => rw [memberTokens]; rfl
  | cons member rest =>
    obtain ⟨next, value⟩ := member
    have hcomma : advance? (.behind j (.object before key :: outer)) .comma
        = some (.key (before ++ [(key, j)]) outer) := rfl
    -- Behind a comma there are members before, so the object cannot be closed here.
    have hnext : advance? (.key (before ++ [(key, j)]) outer) (.text next)
        = some (.colon (before ++ [(key, j)]) next outer) := by simp [advance?]
    have hcolon : advance? (.colon (before ++ [(key, j)]) next outer) .colon
        = some (.value (.object (before ++ [(key, j)]) next :: outer)) := rfl
    rw [memberTokens, List.flatMap_cons]
    simp only [List.cons_append, List.append_assoc]
    rw [valueFrom?_cons hcomma, valueFrom?_cons hnext, valueFrom?_cons hcolon, valueFrom?_tokens,
      valueFrom?_moreMembers, List.append_assoc, List.singleton_append]

end

/-- **A text that spells a value is read as that value.** -/
theorem parse?_of_spells {j : Json} {text : String} (h : Spells j text) : parse? text = some j := by
  have hvalue := valueFrom?_tokens [] j []
  rw [List.append_nil] at hvalue
  rw [parse?, readFrom?_of_lexes h, Option.bind_some, hvalue]
  rfl

end Deadwood.Report.Json
