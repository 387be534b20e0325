import Deadwood.Code.Extraction
import Mathlib.Data.List.Induction
import Mathlib.Data.List.Lex

/-!
# Places in a syntax tree

A node is found by its place: which child to take at each step from the root. What a walk over the
tree should record is said in terms of places and without the walk: which places it comes by
(`Comes`), which named type is the innermost one around a place (`around`), whether an anonymous
body comes first on the way out (`isAnonymous`), and in which scope a place lies (`scopeAt`). The
list `walked` has the places that the walk comes by in the order of the text (`mem_walked`,
`pairwise_walked`).
-/

namespace Deadwood

namespace Java

/-- The way from the root of a tree to a node: which child to take at each step. -/
abbrev TreePlace := List Nat

/-- The node at a place. -/
def Node.at? : Node → TreePlace → Option Node
  | n, [] => some n
  | n, i :: p => n.children[i]?.bind fun c => c.at? p

theorem Node.at?_append (n : Node) (p q : TreePlace) :
    n.at? (p ++ q) = (n.at? p).bind fun c => c.at? q := by
  induction p generalizing n with
  | nil => rfl
  | cons i p ih =>
    rw [List.cons_append, at?, at?, Option.bind_assoc]
    exact congrArg _ (funext fun c => ih c)

theorem Node.at?_child {root n : Node} {p : TreePlace} (h : root.at? p = some n) (i : Nat) :
    root.at? (p ++ [i]) = n.children[i]? := by
  rw [at?_append, h, Option.bind_some, at?]
  exact Option.bind_fun_some _

/-- The places around a place, from the innermost to the root. -/
def TreePlace.outwards (p : TreePlace) : List TreePlace :=
  (List.range p.length).reverse.map (p.take ·)

theorem TreePlace.outwards_concat (p : TreePlace) (i : Nat) :
    outwards (p ++ [i]) = p :: outwards p := by
  rw [outwards, List.length_append, List.length_singleton, List.range_succ, List.reverse_append,
    List.reverse_singleton, List.singleton_append, List.map_cons, List.take_left, outwards]
  refine congrArg (p :: ·) (List.map_congr_left fun k hk => ?_)
  rw [List.mem_reverse, List.mem_range] at hk
  exact List.take_append_of_le_length (Nat.le_of_lt hk)

end Java

namespace Code.Extraction

open Java (Kind Role Node TreePlace)

/-! ## What stands at a place -/

/-- The kind and the name of the type that a node declares, if it declares a named one. -/
def namedType? (n : Node) : Option (TypeKind × String) :=
  match typeKind? n.kind, n.child? .name with
  | some kind, some name => some (kind, name.text)
  | _, _ => none

/-- The name of the method that a node declares. -/
def namedMethod? (n : Node) : Option String :=
  if n.kind == .methodDeclaration then (n.child? .name).map (·.text) else none

/-- The kind of call that a node is, and the name of the method that is called. A method reference
names it behind the colons. -/
def namedCall? (n : Node) : Option (CallKind × String) :=
  match n.kind with
  | .methodInvocation => (n.child? .name).map fun name => (.invocation, name.text)
  | .methodReference =>
    ((n.children.dropWhile fun c => !(c.kind == .token && c.text == "::")).find?
      (·.kind == .identifier)).map fun name => (.methodReference, name.text)
  | _ => none

section Around

variable (root : Node)

/-- The named type that is declared at a place. -/
def typeAt? (p : TreePlace) : Option (TypeKind × String) :=
  (root.at? p).bind namedType?

/-- The kind of the node around a place. -/
def parentKind? (p : TreePlace) : Option Kind :=
  (p.outwards.head?.bind root.at?).map (·.kind)

/-- Whether a class without a name can have its body in a node of this kind. -/
def holdsAnonymous (parent : Kind) : Bool :=
  parent == .objectCreation || parent == .enumConstant

/-- Whether the body of a class without a name stands at a place. -/
def isAnonymousBody (p : TreePlace) : Bool :=
  (root.at? p).any (·.kind == .classBody) && (parentKind? root p).any holdsAnonymous

/-- The innermost named type around a place. -/
def around (p : TreePlace) : Option TreePlace :=
  p.outwards.find? fun q => (typeAt? root q).isSome

/-- Whether an anonymous body stands around a place, with no named type in between. -/
def isAnonymous (p : TreePlace) : Bool :=
  (p.outwards.find? fun q => (typeAt? root q).isSome || isAnonymousBody root q).any
    (isAnonymousBody root)

/-- A name inside a scope. -/
def qualified (scope : Option String) (name : String) : String :=
  match scope with
  | some scope => Text.joinDot scope name
  | none => name

/-- The scope inside these types, from the innermost on: their names behind the package. -/
def scopeWithin (package : Option String) : List TreePlace → Option String
  | [] => package
  | q :: qs =>
    match typeAt? root q with
    | some (_, name) => some (qualified (scopeWithin package qs) name)
    | none => scopeWithin package qs

/-- The scope in which a place lies. -/
def scopeAt (package : Option String) (p : TreePlace) : Option String :=
  scopeWithin root package p.outwards

end Around

section Concat

variable {root : Node} {p : TreePlace} (i : Nat)

theorem parentKind?_concat : parentKind? root (p ++ [i]) = (root.at? p).map (·.kind) := by
  rw [parentKind?, TreePlace.outwards_concat]
  rfl

/-- The type around a child is the node itself if it declares one, and else the type around the
node. -/
theorem around_concat :
    around root (p ++ [i]) = if (typeAt? root p).isSome then some p else around root p := by
  rw [around, TreePlace.outwards_concat, List.find?_cons]
  cases (typeAt? root p).isSome <;> rfl

/-- Names are qualified by the types around them, from the package inwards. -/
theorem scopeAt_concat (package : Option String) :
    scopeAt root package (p ++ [i]) =
      match typeAt? root p with
      | some (_, name) => some (qualified (scopeAt root package p) name)
      | none => scopeAt root package p := by
  rw [scopeAt, TreePlace.outwards_concat]
  rfl

/-- A node does not both declare a type and be the body of one. -/
theorem isAnonymousBody_of_type (h : (typeAt? root p).isSome = true) :
    isAnonymousBody root p = false := by
  obtain ⟨⟨kind, name⟩, htype⟩ := Option.isSome_iff_exists.1 h
  obtain ⟨n, hn, hnamed⟩ := Option.bind_eq_some_iff.1 htype
  have hkind : n.kind ≠ .classBody := by
    intro hbody
    rw [namedType?, hbody] at hnamed
    cases hnamed
  rw [isAnonymousBody, hn, Option.any_some, beq_eq_false_iff_ne.2 hkind, Bool.false_and]

/-- A named type between a place and an anonymous body takes the place out of the body. -/
theorem isAnonymous_concat :
    isAnonymous root (p ++ [i]) =
      (!(typeAt? root p).isSome && (isAnonymousBody root p || isAnonymous root p)) := by
  rw [isAnonymous, TreePlace.outwards_concat, List.find?_cons]
  cases htype : (typeAt? root p).isSome with
  | true =>
    rw [Bool.true_or, Option.any_some, isAnonymousBody_of_type htype]
    rfl
  | false =>
    cases hbody : isAnonymousBody root p with
    | true => exact hbody
    | false => rfl

end Concat

theorem isSome_typeAt?_of_around {root : Node} {p q : TreePlace} (h : around root p = some q) :
    (typeAt? root q).isSome = true := by
  have hsome := List.find?_some h
  exact hsome

/-- The scope inside a named type is the name of that type inside its own scope, and else it is the
package. -/
theorem scopeAt_eq (root : Node) (package : Option String) (p : TreePlace) :
    match around root p with
    | some q => ∃ type, typeAt? root q = some type ∧
        scopeAt root package p = some (qualified (scopeAt root package q) type.2)
    | none => scopeAt root package p = package := by
  induction p using List.reverseRecOn with
  | nil => rfl
  | append_singleton p i ih =>
    rw [around_concat, scopeAt_concat]
    cases htype : typeAt? root p with
    | some type => exact ⟨type, htype, rfl⟩
    | none => exact ih

/-! ## The places of a walk -/

/-- Whether the walk goes on to the child `i` of a node. Of an annotation it looks at the arguments
only, and at nothing of a type name. -/
def goesTo (n : Node) (i : Nat) : Bool :=
  if isAnnotationUse n then n.children.findIdx? (·.role == some .arguments) == some i
  else n.kind != .typeIdentifier

/-- The walk over a node comes by a place in it. -/
inductive Comes : Node → TreePlace → Prop where
  | here (n : Node) : Comes n []
  | child {n c : Node} {i : Nat} {p : TreePlace} (hchild : n.children[i]? = some c)
      (hgoes : goesTo n i = true) (hcomes : Comes c p) : Comes n (i :: p)

mutual

/-- The places that the walk over a node comes by, in order. -/
def walked : Node → List TreePlace
  | .mk kind role text line endLine children =>
    let n := Node.mk kind role text line endLine children
    [] ::
      if isAnnotationUse n then walkedFirst .arguments 0 children
      else if kind == .typeIdentifier then []
      else walkedAll 0 children

/-- The places in the children from `i` on. -/
def walkedAll (i : Nat) : List Node → List TreePlace
  | [] => []
  | n :: ns => (walked n).map (i :: ·) ++ walkedAll (i + 1) ns

/-- The places in the first child in a role, of the children from `i` on. -/
def walkedFirst (role : Role) (i : Nat) : List Node → List TreePlace
  | [] => []
  | n :: ns =>
    if n.role == some role then (walked n).map (i :: ·) else walkedFirst role (i + 1) ns

end

/-- The walk comes to a place below a child if it goes to the child and from there to the place. -/
theorem comes_cons_iff {n : Node} {i : Nat} {p : TreePlace} :
    Comes n (i :: p) ↔ goesTo n i = true ∧ ∃ c, n.children[i]? = some c ∧ Comes c p := by
  constructor
  · rintro ⟨⟩
    next c hchild hgoes hcomes => exact ⟨hgoes, c, hchild, hcomes⟩
  · rintro ⟨hgoes, c, hchild, hcomes⟩
    exact .child hchild hgoes hcomes

mutual

/-- The walk comes to exactly the places that each node on the way lets it through to. -/
theorem mem_walked {p : TreePlace} : (n : Node) → (p ∈ walked n ↔ Comes n p)
  | .mk kind role text line endLine children => by
    cases p with
    | nil => exact ⟨fun _ => .here _, fun _ => List.mem_cons_self⟩
    | cons j q =>
      rw [walked, List.mem_cons, or_iff_right (List.cons_ne_nil j q), comes_cons_iff, goesTo]
      split
      · rw [mem_walkedFirst children, beq_iff_eq]
        constructor
        · rintro ⟨k, c, q, hfirst, hc, hcomes, heq⟩
          obtain ⟨rfl, rfl⟩ := List.cons.inj heq
          rw [Nat.zero_add]
          exact ⟨hfirst, c, hc, hcomes⟩
        · rintro ⟨hfirst, c, hc, hcomes⟩
          exact ⟨j, c, q, hfirst, hc, hcomes, by rw [Nat.zero_add]⟩
      · split
        · next hname =>
          refine ⟨fun h => absurd h List.not_mem_nil, fun h => ?_⟩
          exact absurd (beq_iff_eq.1 hname) (bne_iff_ne.1 h.1)
        · next hname =>
          rw [mem_walkedAll children]
          constructor
          · rintro ⟨k, c, q, hc, hcomes, heq⟩
            obtain ⟨rfl, rfl⟩ := List.cons.inj heq
            rw [Nat.zero_add]
            exact ⟨bne_iff_ne.2 fun h => hname (beq_iff_eq.2 h), c, hc, hcomes⟩
          · rintro ⟨-, c, hc, hcomes⟩
            exact ⟨j, c, q, hc, hcomes, by rw [Nat.zero_add]⟩

theorem mem_walkedAll {i : Nat} {p : TreePlace} : (ns : List Node) →
    (p ∈ walkedAll i ns ↔ ∃ k c q, ns[k]? = some c ∧ Comes c q ∧ p = (i + k) :: q)
  | [] => by simp [walkedAll]
  | n :: ns => by
    rw [walkedAll, List.mem_append, List.mem_map, mem_walkedAll ns]
    constructor
    · rintro (⟨q, hq, rfl⟩ | ⟨k, c, q, hc, hcomes, rfl⟩)
      · exact ⟨0, n, q, rfl, (mem_walked n).1 hq, rfl⟩
      · exact ⟨k + 1, c, q, hc, hcomes, by rw [Nat.add_right_comm, Nat.add_assoc]⟩
    · rintro ⟨k, c, q, hc, hcomes, rfl⟩
      cases k with
      | zero =>
        cases hc
        exact Or.inl ⟨q, (mem_walked n).2 hcomes, rfl⟩
      | succ k => exact Or.inr ⟨k, c, q, hc, hcomes, by rw [Nat.add_right_comm, Nat.add_assoc]⟩

theorem mem_walkedFirst {role : Role} {i : Nat} {p : TreePlace} : (ns : List Node) →
    (p ∈ walkedFirst role i ns ↔
      ∃ k c q, ns.findIdx? (·.role == some role) = some k ∧ ns[k]? = some c ∧ Comes c q ∧
        p = (i + k) :: q)
  | [] => by simp [walkedFirst]
  | n :: ns => by
    rw [walkedFirst, List.findIdx?_cons]
    split
    · rw [List.mem_map]
      constructor
      · rintro ⟨q, hq, rfl⟩
        exact ⟨0, n, q, rfl, rfl, (mem_walked n).1 hq, rfl⟩
      · rintro ⟨k, c, q, hk, hc, hcomes, rfl⟩
        cases hk
        cases hc
        exact ⟨q, (mem_walked n).2 hcomes, rfl⟩
    · rw [mem_walkedFirst ns]
      constructor
      · rintro ⟨k, c, q, hk, hc, hcomes, rfl⟩
        exact ⟨k + 1, c, q, by rw [hk]; rfl, hc, hcomes, by rw [Nat.add_right_comm, Nat.add_assoc]⟩
      · rintro ⟨k, c, q, hk, hc, hcomes, rfl⟩
        obtain ⟨k, hfirst, rfl⟩ := Option.map_eq_some_iff.1 hk
        exact ⟨k, c, q, hfirst, hc, hcomes, by rw [Nat.add_right_comm, Nat.add_assoc]⟩

end

theorem pairwise_map_cons {ps : List TreePlace} (i : Nat) (h : ps.Pairwise (· < ·)) :
    (ps.map (i :: ·)).Pairwise (· < ·) := by
  rw [List.pairwise_map]
  exact h.imp fun hlt => List.cons_lt_cons_iff.2 (Or.inr ⟨rfl, hlt⟩)

mutual

/-- The walk goes by its places in the order of the text. -/
theorem pairwise_walked : (n : Node) → (walked n).Pairwise (· < ·)
  | .mk kind role text line endLine children => by
    rw [walked, List.pairwise_cons]
    split
    · refine ⟨fun p hp => ?_, pairwise_walkedFirst _ 0 children⟩
      obtain ⟨k, c, q, -, -, -, rfl⟩ := (mem_walkedFirst children).1 hp
      exact List.nil_lt_cons _ _
    · split
      · exact ⟨fun p hp => absurd hp List.not_mem_nil, .nil⟩
      · refine ⟨fun p hp => ?_, pairwise_walkedAll 0 children⟩
        obtain ⟨k, c, q, -, -, rfl⟩ := (mem_walkedAll children).1 hp
        exact List.nil_lt_cons _ _

theorem pairwise_walkedAll (i : Nat) : (ns : List Node) → (walkedAll i ns).Pairwise (· < ·)
  | [] => .nil
  | n :: ns => by
    rw [walkedAll, List.pairwise_append]
    refine ⟨pairwise_map_cons i (pairwise_walked n), pairwise_walkedAll (i + 1) ns, ?_⟩
    intro p hp p' hp'
    obtain ⟨q, -, rfl⟩ := List.mem_map.1 hp
    obtain ⟨k, c, q', -, -, rfl⟩ := (mem_walkedAll ns).1 hp'
    exact List.cons_lt_cons_iff.2 (Or.inl (by omega))

theorem pairwise_walkedFirst (role : Role) (i : Nat) :
    (ns : List Node) → (walkedFirst role i ns).Pairwise (· < ·)
  | [] => .nil
  | n :: ns => by
    rw [walkedFirst]
    split
    · exact pairwise_map_cons i (pairwise_walked n)
    · exact pairwise_walkedFirst role (i + 1) ns

end

theorem nodup_walked (n : Node) : (walked n).Nodup :=
  (pairwise_walked n).imp fun hlt heq => absurd (heq ▸ hlt) (List.lt_irrefl _)

end Code.Extraction

end Deadwood
