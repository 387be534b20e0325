import Deadwood.Java.Token
import Deadwood.Java.Tree

/-!
# Grammar rules and how they read tokens

A grammar gives each of its symbols a rule. A rule reads tokens off the front of a list and gives
the nodes they make up. Alternatives are ordered: the first one that fits is taken for good. Forms
that grow to the left, such as calls in a row, are chains: a base and the suffixes that may follow
it, each of which wraps what was read so far.
-/

namespace Deadwood.Java.Grammar

mutual

/-- A rule over the grammar symbols `σ`. -/
inductive Rule (σ : Type) where
  /-- The word `w`. -/
  | word (w : String)
  /-- The symbol `s`. -/
  | symbol (s : String)
  /-- The word or symbol `text`, as a node of a kind of its own. -/
  | leaf (kind : Kind) (text : String)
  /-- Any token of a lexical class. -/
  | lexeme (kind : Kind) (tokenKind : TokenKind)
  /-- Any word but the ones listed. -/
  | name (kind : Kind) (reserved : List String)
  /-- Adjacent words and symbols that count as one, unless one of `stops` is adjacent to them. -/
  | glued (parts stops : List String)
  /-- All rules, one after the other. -/
  | seq (rules : List (Rule σ))
  /-- The first rule that fits. -/
  | alt (rules : List (Rule σ))
  /-- A rule as often as it fits. -/
  | many (rule : Rule σ)
  /-- Nothing, where the rule would fit. -/
  | ahead (rule : Rule σ)
  /-- Nothing, where the rule would not fit. -/
  | unless (rule : Rule σ)
  /-- One node around what the rule reads. -/
  | node (kind : Kind) (rule : Rule σ)
  /-- What the rule reads, in a role. -/
  | role (role : Role) (rule : Rule σ)
  /-- What the rule reads, if the first node of it passes a test. -/
  | only (test : Node → Bool) (rule : Rule σ)
  /-- The rule of another symbol. -/
  | ref (symbol : σ)
  /-- A base and suffixes, the first that fits, as often as one fits. -/
  | chain (base : Rule σ) (suffixes : List (Suffix σ))

/-- A suffix of a chain: it makes what was read so far the first child of a node of `kind`, in the
role `left`, provided that its kind passes `after`. -/
inductive Suffix (σ : Type) where
  | mk (kind : Kind) (left : Option Role) (after : Kind → Bool) (rest : Rule σ)

end

variable {σ : Type}

namespace Rule

/-- A rule that may be left out. -/
def opt (r : Rule σ) : Rule σ :=
  .alt [r, .seq []]

/-- A rule once or more. -/
def many1 (r : Rule σ) : Rule σ :=
  .seq [r, .many r]

/-- A rule once or more, with separators. -/
def sepBy1 (r separator : Rule σ) : Rule σ :=
  .seq [r, .many (.seq [separator, r])]

/-- A rule once or more, with commas. -/
def commas1 (r : Rule σ) : Rule σ :=
  r.sepBy1 (.symbol ",")

/-- A rule any number of times, with commas. -/
def commas (r : Rule σ) : Rule σ :=
  r.commas1.opt

/-- One of some words. -/
def words (ws : List String) : Rule σ :=
  .alt (ws.map .word)

/-- One of some symbols. -/
def symbols (ss : List String) : Rule σ :=
  .alt (ss.map .symbol)

/-- A node made of rules in a row. -/
def form (kind : Kind) (rules : List (Rule σ)) : Rule σ :=
  .node kind (.seq rules)

/-- A rule between two symbols. -/
def between (opening closing : String) (r : Rule σ) : Rule σ :=
  .seq [.symbol opening, r, .symbol closing]

def parens (r : Rule σ) : Rule σ :=
  r.between "(" ")"

def braces (r : Rule σ) : Rule σ :=
  r.between "\x7b" "\x7d"

def brackets (r : Rule σ) : Rule σ :=
  r.between "[" "]"

end Rule

/-- A suffix that may follow anything. -/
def Suffix.of (kind : Kind) (left : Option Role) (rules : List (Rule σ)) : Suffix σ :=
  .mk kind left (fun _ => true) (.seq rules)

/-- A node, and what stands between it and the token before it. -/
structure Piece where
  lead : String
  node : Node

namespace Piece

/-- The node of one token. -/
def ofToken (kind : Kind) (t : Token) : Piece :=
  ⟨t.lead, .mk kind none t.text t.line t.endLine []⟩

def withRole (r : Role) (p : Piece) : Piece :=
  { p with node := p.node.withRole r }

/-- The text of adjacent pieces. -/
def joinText (first : Piece) (rest : List Piece) : String :=
  rest.foldl (fun text p => text ++ p.lead ++ p.node.text) first.node.text

/-- One node around some pieces. -/
def bundle (kind : Kind) : List Piece → Piece
  | [] => ⟨"", .mk kind none "" 1 1 []⟩
  | first :: rest =>
    let last := (first :: rest).getLast (List.cons_ne_nil first rest)
    ⟨first.lead, .mk kind none (joinText first rest) first.node.line last.node.endLine
      ((first :: rest).map (·.node))⟩

end Piece

/-- Why a rule gives nothing: it does not fit, or its rules are nested deeper than allowed. -/
inductive Stop where
  | mismatch
  | exhausted
  deriving DecidableEq, Repr

/-- What a rule reads, and the tokens after it. -/
abbrev Reading := Except Stop (List Piece × List Token)

/-- A token that passes a test, as a node. -/
def readToken (kind : Kind) (test : Token → Bool) : List Token → Reading
  | t :: ts => if test t then .ok ([.ofToken kind t], ts) else .error .mismatch
  | [] => .error .mismatch

/-- The adjacent tokens after the first of those that count as one. -/
def readGlued : List String → List Token → Option (List Token × List Token)
  | [], ts => some ([], ts)
  | s :: ss, t :: ts =>
    if t.isAdjacent && t.spells s then (readGlued ss ts).map fun (l, r) => (t :: l, r) else none
  | _ :: _, [] => none

/-- The tokens `parts` in a row as one, if none of `stops` is adjacent to it. -/
def readOperator (parts stops : List String) (ts : List Token) : Reading :=
  match parts, ts with
  | s :: ss, t :: ts =>
    if t.spells s then
      match readGlued ss ts with
      | some (more, rest) =>
        if rest.head?.any fun n => n.isAdjacent && stops.any n.spells then .error .mismatch
        else
          let text := (more.map (·.text)).foldl (· ++ ·) t.text
          .ok ([.ofToken .token { t with text := text }], rest)
      | none => .error .mismatch
    else .error .mismatch
  | _, _ => .error .mismatch

/-- Readings in a row. -/
def readAll (read : Rule σ → List Token → Reading) : List (Rule σ) → List Token → Reading
  | [], ts => .ok ([], ts)
  | r :: rs, ts => do
    let (ps, ts) ← read r ts
    let (qs, ts) ← readAll read rs ts
    return (ps ++ qs, ts)

/-- The first reading that fits. -/
def readFirst (read : Rule σ → List Token → Reading) : List (Rule σ) → List Token → Reading
  | [], _ => .error .mismatch
  | r :: rs, ts =>
    match read r ts with
    | .error .mismatch => readFirst read rs ts
    | result => result

/-- A reading as often as it fits, at most `limit` times. -/
def readMany (read : List Token → Reading) : Nat → List Token → Reading
  | 0, _ => .error .exhausted
  | limit + 1, ts =>
    match read ts with
    | .error .mismatch => .ok ([], ts)
    | .error .exhausted => .error .exhausted
    | .ok (ps, ts) => do
      let (qs, ts) ← readMany read limit ts
      return (ps ++ qs, ts)

/-- The first suffix that fits after `left`. -/
def readSuffix (read : Rule σ → List Token → Reading) (left : List Piece) :
    List (Suffix σ) → List Token → Reading
  | [], _ => .error .mismatch
  | .mk kind role after rest :: more, ts =>
    if left.all fun p => after p.node.kind then
      match read rest ts with
      | .ok (ps, ts) =>
        let left := match role with
          | some r => left.map (·.withRole r)
          | none => left
        .ok ([.bundle kind (left ++ ps)], ts)
      | .error .mismatch => readSuffix read left more ts
      | .error .exhausted => .error .exhausted
    else readSuffix read left more ts

/-- Suffixes after `left` as often as one fits, at most `limit` times. -/
def readChain (read : Rule σ → List Token → Reading) (suffixes : List (Suffix σ)) :
    Nat → List Piece → List Token → Reading
  | 0, _, _ => .error .exhausted
  | limit + 1, left, ts =>
    match readSuffix read left suffixes ts with
    | .ok (left, ts) => readChain read suffixes limit left ts
    | .error .mismatch => .ok (left, ts)
    | .error .exhausted => .error .exhausted

/-- Reads tokens by a rule of the grammar `g`, nesting rules at most `fuel` deep. -/
def read (g : σ → Rule σ) : Nat → Rule σ → List Token → Reading
  | 0, _, _ => .error .exhausted
  | fuel + 1, rule, ts =>
    match rule with
    | .word w => readToken .token (·.isWord w) ts
    | .symbol s => readToken .token (·.isSymbol s) ts
    | .leaf kind text => readToken kind (·.spells text) ts
    | .lexeme kind tokenKind => readToken kind (·.kind == tokenKind) ts
    | .name kind reserved =>
      readToken kind (fun t => t.kind == .word && !reserved.contains t.text) ts
    | .glued parts stops => readOperator parts stops ts
    | .seq rules => readAll (read g fuel) rules ts
    | .alt rules => readFirst (read g fuel) rules ts
    | .many rule => readMany (read g fuel rule) fuel ts
    | .ahead rule => (read g fuel rule ts).map fun _ => ([], ts)
    | .unless rule =>
      match read g fuel rule ts with
      | .ok _ => .error .mismatch
      | .error .mismatch => .ok ([], ts)
      | .error .exhausted => .error .exhausted
    | .node kind rule => (read g fuel rule ts).map fun (ps, ts) => ([.bundle kind ps], ts)
    | .role role rule => (read g fuel rule ts).map fun (ps, ts) => (ps.map (·.withRole role), ts)
    | .only test rule =>
      match read g fuel rule ts with
      | .ok (ps, ts) =>
        if ps.head?.any fun p => test p.node then .ok (ps, ts) else .error .mismatch
      | .error stop => .error stop
    | .ref symbol => read g fuel (g symbol) ts
    | .chain base suffixes => do
      let (left, ts) ← read g fuel base ts
      readChain (read g fuel) suffixes fuel left ts

end Deadwood.Java.Grammar
