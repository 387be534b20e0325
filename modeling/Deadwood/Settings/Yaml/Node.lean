import Deadwood.Settings.Yaml.Token

/-!
# YAML documents

A document is a tree of scalars, sequences and mappings. A node may be named by an anchor and be
referred to by an alias, also from inside itself, so aliases stay in the tree and the document holds
the named nodes.
-/

namespace Deadwood.Yaml

inductive Node where
  | scalar (style : Style) (tag : Option (List UInt8)) (text : String)
  | sequence (items : List Node)
  | mapping (members : List (Node × Node))
  /-- Stands for the named node with this number. -/
  | alias (number : Nat)
  deriving Repr, Inhabited

/-- A value that is left out. -/
def Node.blank : Node :=
  .scalar .plain none ""

structure Document where
  root : Node
  /-- The named nodes by number. -/
  named : List (Nat × Node)

namespace Document

/-- The node that a node stands for. -/
def resolve? (d : Document) : Node → Option Node
  | .alias n => d.named.lookup n
  | node => some node

end Document

/-! ## From tokens to nodes -/

/-- What is left to read, and what names and handles mean there. -/
structure Reading where
  tokens : List Token
  handles : List (List Char × List UInt8)
  /-- The numbers of names, the latest first. -/
  names : List (List Char × Nat)
  named : List (Nat × Node)

namespace Reading

/-- The front that the handle of a tag stands for, followed by its rest. -/
def tag? (r : Reading) (t : TagName) : Option (List UInt8) :=
  if t.handle.isEmpty then some t.rest else (r.handles.lookup t.handle).map (· ++ t.rest)

/-- The anchor and the tag in front of a node, in either order. -/
def properties (r : Reading) : Option (List Char) × Option TagName × Reading :=
  match r.tokens with
  | .anchor a :: .tag t :: rest => (some a, some t, { r with tokens := rest })
  | .tag t :: .anchor a :: rest => (some a, some t, { r with tokens := rest })
  | .anchor a :: rest => (some a, none, { r with tokens := rest })
  | .tag t :: rest => (none, some t, { r with tokens := rest })
  | _ => (none, none, r)

/-- Give a name the next number. -/
def declare (r : Reading) : Option (List Char) → Option Nat × Reading
  | none => (none, r)
  | some name => (some r.names.length, { r with names := (name, r.names.length) :: r.names })

/-- Keep a node under its number. -/
def keep (r : Reading) (number : Option Nat) (node : Node) : Node × Reading :=
  match number with
  | none => (node, r)
  | some n => (node, { r with named := (n, node) :: r.named })

/-- Whether the next token is one of those given. -/
def atOne (r : Reading) (ends : List Token) : Bool :=
  r.tokens.head?.any ends.contains

/-- Go past one token. -/
def next (r : Reading) : Reading :=
  { r with tokens := r.tokens.drop 1 }

end Reading

/-- The tag that says nothing about a scalar. -/
def unspecific : List UInt8 :=
  "!".toUTF8.toList

mutual

/-- A node. Blocks are allowed where `block` holds, and a sequence that is not indented where
`indentless` does. -/
def node (block indentless : Bool) : Nat → Reading → Option (Node × Reading)
  | 0, _ => none
  | fuel + 1, r =>
    match r.tokens with
    | .alias name :: _ => (r.names.lookup name).map fun n => (.alias n, r.next)
    | _ => do
      let (anchor, written, r) := r.properties
      let tag ← match written with
        | none => some none
        | some t => (r.tag? t).map some
      let (number, r) := r.declare anchor
      let sequence := Option.map fun (x : List Node × Reading) => (Node.sequence x.1, x.2)
      let mapping := Option.map fun (x : List (Node × Node) × Reading) => (Node.mapping x.1, x.2)
      let blank : Option (Node × Reading) :=
        if anchor.isSome || tag.isSome then some (.scalar .plain tag "", r) else none
      let (result, r) ← match r.tokens with
        | .scalar style text :: _ =>
          some (.scalar style (tag.filter (· != unspecific)) (String.ofList text), r.next)
        | .flowSequence :: _ => sequence (flowItems true fuel r.next)
        | .flowMapping :: _ => mapping (flowMembers true fuel r.next)
        | .blockEntry :: _ => if indentless then sequence (indentlessItems fuel r) else blank
        | .blockSequence :: _ => if block then sequence (blockItems fuel r.next) else blank
        | .blockMapping :: _ => if block then mapping (blockMembers fuel r.next) else blank
        | _ => blank
      return r.keep number result

/-- A node, or a blank one in front of one of the tokens `ends`. -/
def nodeOrBlank (block indentless : Bool) (ends : List Token) :
    Nat → Reading → Option (Node × Reading)
  | 0, _ => none
  | fuel + 1, r => if r.atOne ends then some (.blank, r) else node block indentless fuel r

/-- The value behind a key, or a blank one. -/
def valueOrBlank (block : Bool) (ends : List Token) : Nat → Reading → Option (Node × Reading)
  | 0, _ => none
  | fuel + 1, r =>
    if r.atOne [.value] then nodeOrBlank block block ends fuel r.next else some (.blank, r)

/-- The items of a sequence of lines, to its end. -/
def blockItems : Nat → Reading → Option (List Node × Reading)
  | 0, _ => none
  | fuel + 1, r =>
    match r.tokens with
    | .blockEnd :: _ => some ([], r.next)
    | .blockEntry :: _ => do
      let (item, r) ← nodeOrBlank true false [.blockEntry, .blockEnd] fuel r.next
      let (items, r) ← blockItems fuel r
      return (item :: items, r)
    | _ => none

/-- The items of a sequence that stands no deeper than the key before it. -/
def indentlessItems : Nat → Reading → Option (List Node × Reading)
  | 0, _ => none
  | fuel + 1, r =>
    match r.tokens with
    | .blockEntry :: _ => do
      let (item, r) ← nodeOrBlank true false [.blockEntry, .key, .value, .blockEnd] fuel r.next
      let (items, r) ← indentlessItems fuel r
      return (item :: items, r)
    | _ => some ([], r)

/-- The members of a mapping of lines, to its end. -/
def blockMembers : Nat → Reading → Option (List (Node × Node) × Reading)
  | 0, _ => none
  | fuel + 1, r =>
    match r.tokens with
    | .blockEnd :: _ => some ([], r.next)
    | .key :: _ => do
      let ends := [Token.key, .value, .blockEnd]
      let (key, r) ← nodeOrBlank true true ends fuel r.next
      let (value, r) ← valueOrBlank true ends fuel r
      let (members, r) ← blockMembers fuel r
      return ((key, value) :: members, r)
    | _ => none

/-- The items of a sequence in brackets, to the closing one. -/
def flowItems (first : Bool) : Nat → Reading → Option (List Node × Reading)
  | 0, _ => none
  | fuel + 1, r =>
    if r.atOne [.flowSequenceEnd] then some ([], r.next)
    else if !first && !r.atOne [.flowEntry] then none
    else
      let r := if first then r else r.next
      if r.atOne [.flowSequenceEnd] then some ([], r.next)
      else do
        let (item, r) ← if r.atOne [.key] then flowPair fuel r.next else node false false fuel r
        let (items, r) ← flowItems false fuel r
        return (item :: items, r)

/-- A mapping of one member that stands as an item in brackets. The token in place of a key that is
left out is passed over. -/
def flowPair : Nat → Reading → Option (Node × Reading)
  | 0, _ => none
  | fuel + 1, r => do
    let ends := [Token.flowEntry, .flowSequenceEnd]
    let (key, r) ←
      if r.atOne (.value :: ends) then some (.blank, r.next) else node false false fuel r
    let (value, r) ← valueOrBlank false ends fuel r
    return (.mapping [(key, value)], r)

/-- The members of a mapping in braces, to the closing one. -/
def flowMembers (first : Bool) : Nat → Reading → Option (List (Node × Node) × Reading)
  | 0, _ => none
  | fuel + 1, r =>
    let ends := [Token.flowEntry, .flowMappingEnd]
    if r.atOne [.flowMappingEnd] then some ([], r.next)
    else if !first && !r.atOne [.flowEntry] then none
    else
      let r := if first then r else r.next
      if r.atOne [.flowMappingEnd] then some ([], r.next)
      else if r.atOne [.key] then do
        let (key, r) ← nodeOrBlank false false (.value :: ends) fuel r.next
        let (value, r) ← valueOrBlank false ends fuel r
        let (members, r) ← flowMembers false fuel r
        return ((key, value) :: members, r)
      else do
        let (key, r) ← node false false fuel r
        let (members, r) ← flowMembers false fuel r
        return ((key, .blank) :: members, r)

end

/-! ## Documents -/

/-- What handles stand for unless a directive says otherwise. -/
def standardHandles : List (List Char × List UInt8) :=
  [("!".toList, "!".toUTF8.toList), ("!!".toList, "tag:yaml.org,2002:".toUTF8.toList)]

/-- The directives in front of a document: the handles they declare and the tokens behind them. Only
one version may be given, which has to be 1.1 or 1.2, and no handle twice. -/
def directives? (versioned : Bool) (handles : List (List Char × List UInt8)) :
    List Token → Option (List (List Char × List UInt8) × List Token)
  | .version major minor :: ts =>
    if versioned || major != 1 || (minor != 1 && minor != 2) then none
    else directives? true handles ts
  | .handle name front :: ts =>
    if (handles.lookup name).isSome then none
    else directives? versioned (handles ++ [(name, front)]) ts
  | ts => some (handles, ts)

/-- Whether a token starts or ends a document or stands before one. -/
def Token.isDocumentMark : Token → Bool
  | .version .. | .handle .. | .documentStart | .documentEnd => true
  | _ => false

namespace Document

/-- The one document of a text, if there is any. Directives need an explicit start behind them. -/
def ofTokens? (tokens : List Token) : Option (Option Document) := do
  if tokens.isEmpty then some none
  else
    let (handles, rest) ← directives? false [] tokens
    let explicit := rest.head? == some .documentStart
    if !explicit && rest.length < tokens.length then none
    else
      let body := if explicit then rest.drop 1 else rest
      let r : Reading := ⟨body, handles ++ standardHandles, [], []⟩
      let (root, r) ←
        if explicit && body.head?.all Token.isDocumentMark then some (.blank, r)
        else node true false (4 * body.length + 4) r
      if r.tokens.all (· == .documentEnd) then some (some ⟨root, r.named⟩) else none

/-- Read the one document of a text. -/
def parse? (text : String) : Option (Option Document) :=
  (Token.scan text).bind ofTokens?

end Document

end Deadwood.Yaml
