import Deadwood.Proofs.Code.Nesting
import Deadwood.Proofs.Code.Visits
import Mathlib.Data.List.Forall2

/-!
# Files that mirror their syntax tree

The numbers in the entries of a file stand for places in the tree. Read back as places they say what
a type, a method or a call has to do with the tree around it: `Mirrors root u`. Every file that is
made of a syntax tree mirrors it, whatever the nodes of the tree are (`ofTree_mirrors`).
-/

namespace Deadwood

/-! ## Lists in step -/

section Pairs

variable {α β : Type} {R S : α → β → Prop} {xs : List α} {ys : List β}

theorem forall₂_imp_of_mem (h : List.Forall₂ R xs ys) (himp : ∀ x, ∀ y ∈ ys, R x y → S x y) :
    List.Forall₂ S xs ys := by
  induction h with
  | nil => exact .nil
  | cons hxy _ ih =>
    have hrest := ih fun x y hy => himp x y (List.mem_cons_of_mem _ hy)
    exact .cons (himp _ _ List.mem_cons_self hxy) hrest

theorem exists_of_forall₂_getElem? (h : List.Forall₂ R xs ys) {i : Nat} {x : α}
    (hx : xs[i]? = some x) : ∃ y, ys[i]? = some y ∧ R x y := by
  induction h generalizing i with
  | nil => cases hx
  | cons hxy _ ih =>
    cases i with
    | zero =>
      cases hx
      exact ⟨_, rfl, hxy⟩
    | succ i => exact ih hx

theorem exists_of_forall₂_mem (h : List.Forall₂ R xs ys) {y : β} (hy : y ∈ ys) : ∃ x, R x y := by
  induction h with
  | nil => cases hy
  | cons hxy _ ih =>
    rcases List.mem_cons.1 hy with rfl | hy
    · exact ⟨_, hxy⟩
    · exact ih hy

end Pairs

section Follow

variable {α β γ : Type} {g : α → β} {e : γ → Option β} {xs : List α} {ys : List γ}

/-- A list that shows the same as what is kept of another one goes along with it, item by item. -/
theorem forall₂_of_map_eq_filterMap (h : xs.map g = ys.filterMap e) {p : γ → Bool}
    (hp : ∀ y, (e y).isSome = p y) :
    List.Forall₂ (fun y x => e y = some (g x)) (ys.filter p) xs := by
  induction ys generalizing xs with
  | nil =>
    rw [List.map_eq_nil_iff.1 h]
    exact .nil
  | cons y ys ih =>
    cases hy : e y with
    | none =>
      rw [List.filterMap_cons_none hy] at h
      rw [List.filter_cons_of_neg (by rw [← hp, hy]; exact Bool.false_ne_true)]
      exact ih h
    | some b =>
      rw [List.filterMap_cons_some hy] at h
      obtain ⟨x, rest, rfl, hx, hrest⟩ := List.map_eq_cons_iff.1 h
      rw [List.filter_cons_of_pos (by rw [← hp, hy]; rfl)]
      exact .cons (hy.trans (congrArg some hx.symm)) (ih hrest)

end Follow

namespace Code.Extraction

open Java (Kind Role Node TreePlace)

/-! ## Reading the entries -/

section Places

variable (root : Node)

/-- The places of the methods that are recorded: they have a name, and the first thing on the way
out that is a named type or an anonymous body is a named type. -/
def methodPlaces : List TreePlace :=
  (walked root).filter fun p =>
    ((root.at? p).bind namedMethod?).isSome && (around root p).isSome && !isAnonymous root p

/-- The places of the calls that the walk comes by. -/
def callPlaces : List TreePlace :=
  (walked root).filter fun p => ((root.at? p).bind namedCall?).isSome

end Places

section Reading

variable {root : Node} {u : SourceUnit} (h : Recorded root (walked root) u)

/-- Types are numbered in the order of their places. -/
theorem getElem?_number_place {q : TreePlace} (hq : number root q < (typePlaces root).length) :
    (typePlaces root)[number root q]? = some q :=
  List.getElem?_idxOf (List.idxOf_lt_length_iff.1 hq)

/-- Numbers that count something stand for the places they were made of. -/
theorem map_number_place {o : Option TreePlace}
    (ho : ∀ e ∈ o.map (number root), e < (typePlaces root).length) :
    (o.map (number root)).map ((typePlaces root)[·]?) = o.map some := by
  cases o with
  | none => rfl
  | some q => exact congrArg some (getElem?_number_place (ho _ rfl))

include h

theorem Recorded.types_at : List.Forall₂
    (fun p t => typeRecord? root u.info.package p =
      some (t.kind, t.name, t.qualifiedName, t.enclosing))
    (typePlaces root) u.types :=
  forall₂_of_map_eq_filterMap h.type_entries fun _ => Option.isSome_map

theorem Recorded.methods_at : List.Forall₂
    (fun p d => methodRecord? root p = some (d.name, d.declaringType)) (methodPlaces root)
      u.methods := by
  refine forall₂_of_map_eq_filterMap h.method_entries fun p => ?_
  unfold methodRecord?
  cases isAnonymous root p <;> cases around root p <;> cases (root.at? p).bind namedMethod? <;> rfl

theorem Recorded.calls_at : List.Forall₂
    (fun p c => callRecord? root p = some (c.kind, c.methodName, c.enclosingType))
    (callPlaces root) u.calls :=
  forall₂_of_map_eq_filterMap h.call_entries fun _ => Option.isSome_map

theorem Recorded.length_typePlaces : (typePlaces root).length = u.types.length :=
  h.types_at.length_eq

/-- Each type stands for its place, and the type around it for the place around. -/
theorem Recorded.types_placed : List.Forall₂
    (fun p t => typeAt? root p = some (t.kind, t.name) ∧
      t.enclosing.map ((typePlaces root)[·]?) = (around root p).map some)
    (typePlaces root) u.types := by
  refine forall₂_imp_of_mem h.types_at fun p t ht hentry => ?_
  obtain ⟨type, htype, heq⟩ := Option.map_eq_some_iff.1 hentry
  have hlt : ∀ e ∈ t.enclosing, e < (typePlaces root).length := fun e he => by
    rw [h.length_typePlaces]
    exact Nat.lt_trans (h.enclosing_lt t ht e he) (number_lt h.type_ids ht)
  simp only [Prod.mk.injEq] at heq
  obtain ⟨hkind, hname, -, henclosing⟩ := heq
  rw [← henclosing] at hlt ⊢
  exact ⟨by rw [htype, ← hkind, ← hname], map_number_place hlt⟩

/-- Each method stands for its place, in the type that the place lies in. -/
theorem Recorded.methods_placed : List.Forall₂
    (fun p d => (root.at? p).bind namedMethod? = some d.name ∧
      (typePlaces root)[d.declaringType]? = around root p)
    (methodPlaces root) u.methods := by
  refine forall₂_imp_of_mem h.methods_at fun p d hd hentry => ?_
  have hlt := h.declaring_lt d hd
  rw [← h.length_typePlaces] at hlt
  unfold methodRecord? at hentry
  split at hentry
  · next q name _ haround hname =>
    simp only [Option.some.injEq, Prod.mk.injEq] at hentry
    obtain ⟨rfl, hnumber⟩ := hentry
    rw [← hnumber] at hlt ⊢
    exact ⟨hname, (getElem?_number_place hlt).trans haround.symm⟩
  · cases hentry

/-- Each call stands for its place, in the type that the place lies in, if any. -/
theorem Recorded.calls_placed : List.Forall₂
    (fun p c => (root.at? p).bind namedCall? = some (c.kind, c.methodName) ∧
      c.enclosingType.map ((typePlaces root)[·]?) = (around root p).map some)
    (callPlaces root) u.calls := by
  refine forall₂_imp_of_mem h.calls_at fun p c hc hentry => ?_
  obtain ⟨call, hcall, heq⟩ := Option.map_eq_some_iff.1 hentry
  have hlt : ∀ e ∈ c.enclosingType, e < (typePlaces root).length := fun e he => by
    rw [h.length_typePlaces]
    exact h.place_lt c hc e he
  simp only [Prod.mk.injEq] at heq
  obtain ⟨hkind, hname, henclosing⟩ := heq
  rw [← henclosing] at hlt ⊢
  exact ⟨by rw [hcall, ← hkind, ← hname], map_number_place hlt⟩

/-- A type is qualified by the type around it, and else by the package. -/
theorem Recorded.qualifiedName_eq {t : TypeDecl} (ht : t ∈ u.types) :
    match t.enclosing with
    | some e => ∃ outer, u.types[e]? = some outer ∧
        t.qualifiedName = Text.joinDot outer.qualifiedName t.name
    | none => t.qualifiedName = qualified u.info.package t.name := by
  obtain ⟨p, hentry⟩ := exists_of_forall₂_mem h.types_at ht
  obtain ⟨type, htype, heq⟩ := Option.map_eq_some_iff.1 hentry
  simp only [Prod.mk.injEq] at heq
  obtain ⟨-, hname, hqualified, henclosing⟩ := heq
  have hscope := scopeAt_eq root u.info.package p
  cases haround : around root p with
  | none =>
    rw [haround] at henclosing hscope
    rw [← henclosing, ← hqualified, hname, hscope]
    rfl
  | some q =>
    rw [haround] at henclosing hscope
    obtain ⟨outerType, houterType, hscope⟩ := hscope
    have hlt : number root q < (typePlaces root).length := by
      rw [h.length_typePlaces]
      exact Nat.lt_trans (h.enclosing_lt t ht _ henclosing.symm) (number_lt h.type_ids ht)
    obtain ⟨outer, houter, houterRecord⟩ :=
      exists_of_forall₂_getElem? h.types_at (getElem?_number_place hlt)
    rw [typeRecord?, houterType, Option.map_some, Option.some_inj] at houterRecord
    simp only [Prod.mk.injEq] at houterRecord
    rw [← henclosing]
    refine ⟨outer, houter, ?_⟩
    rw [← hqualified, hname, hscope, houterRecord.2.2.1]
    rfl

end Reading

/-! ## Mentions in order -/

/-- All types but those that are `unfinished` mention names in order, each once. -/
def OrderedBut (unfinished : TypeId → Prop) (types : List TypeDecl) : Prop :=
  ∀ (i : Nat) (t : TypeDecl), types[i]? = some t → ¬ unfinished i → t.typeRefs.Pairwise (· < ·)

namespace OrderedBut

variable {unfinished : TypeId → Prop} {types : List TypeDecl} {id : TypeId}

/-- A type that is being visited may mention what it will, the others may not. -/
theorem modify {f : TypeDecl → TypeDecl} (h : OrderedBut unfinished types)
    (hf : unfinished id ∨ ∀ t, (f t).typeRefs = t.typeRefs) :
    OrderedBut unfinished (types.modify id f) := by
  intro i t ht hi
  rw [List.getElem?_modify] at ht
  obtain ⟨old, hold, rfl⟩ := Option.map_eq_some_iff.1 ht
  split
  · next heq =>
    subst heq
    rw [hf.resolve_left hi old]
    exact h _ old hold hi
  · exact h i old hold hi

/-- A type that is added is unfinished. -/
theorem concat (h : OrderedBut unfinished types) (t : TypeDecl) :
    OrderedBut (fun i => i = types.length ∨ unfinished i) (types ++ [t]) := by
  intro i s hs hi
  rw [not_or] at hi
  refine h i s ?_ hi.2
  have hlt : i < types.length := by
    have hle := (List.getElem?_eq_some_iff.1 hs).1
    rw [List.length_append, List.length_singleton] at hle
    exact Nat.lt_of_le_of_ne (Nat.le_of_lt_succ hle) hi.1
  rwa [List.getElem?_append_left hlt] at hs

/-- It is finished when it is left. -/
theorem leave (h : OrderedBut (fun i => i = id ∨ unfinished i) types) :
    OrderedBut unfinished
      (types.modify id fun t => { t with typeRefs := sortedSet t.typeRefs }) := by
  intro i t ht hi
  rw [List.getElem?_modify] at ht
  obtain ⟨old, hold, rfl⟩ := Option.map_eq_some_iff.1 ht
  split
  · exact pairwise_foldl_insertSorted String.lt_trans Std.lt_trichotomy .nil
  · next hne =>
    refine h i old hold fun hor => ?_
    exact hor.elim (fun heq => hne heq.symm) hi

/-- A node by itself only adds to the type around it, which is being visited. -/
theorem entered {ctx : Context} {n : Node} {s t : State} (h : OrderedBut unfinished s.types)
    (hctx : ∀ e ∈ ctx.enclosing, unfinished e) (hentered : Entered ctx n s t) :
    OrderedBut unfinished t.types := by
  have hmention : ∀ name, OrderedBut unfinished (mention ctx name s).types := by
    intro name
    unfold mention
    split
    · exact h
    · next e he => exact h.modify (Or.inl (hctx e he))
  cases hentered with
  | declares bound =>
    clear hmention
    induction bound generalizing s with
    | nil => exact h
    | cons b bound ih => exact ih (s := s.declare b.1 b.2) h
  | mentions name => exact hmention name
  | calls kind name args recv line =>
    cases recv with
    | type type => exact hmention type
    | _ => exact h
  | method =>
    unfold addMethod
    split
    · exact h.modify (Or.inr fun _ => rfl)
    · exact h

end OrderedBut

/-- Whatever is visited, only types around it are left unfinished. -/
theorem visits_ordered : Visits fun ctx s t => ∀ unfinished : TypeId → Prop,
    (∀ e ∈ ctx.enclosing, unfinished e) → OrderedBut unfinished s.types →
      OrderedBut unfinished t.types where
  trans hst htu unfinished hctx h := htu unfinished hctx (hst unfinished hctx h)
  enter hentered unfinished hctx h := h.entered hctx hentered
  inType {ctx kind name n s t} hinner unfinished _ h := by
    refine OrderedBut.leave (hinner _ ?_ (h.concat _))
    rintro _ ⟨⟩
    exact Or.inl rfl
  inScope {ctx n scope s t} hinner unfinished hctx h := by
    refine hinner unfinished ?_ h
    rw [within_enclosing]
    exact hctx

/-- All types of a tree have been left in the end, so that each has what it mentions in order. -/
theorem ofTree_ordered (path : Path) (root : Node) :
    ∀ t ∈ (SourceUnit.ofTree path root).types, t.typeRefs.Pairwise (· < ·) := by
  have hstart : OrderedBut (fun _ => False) State.start.types :=
    fun i t ht => absurd (List.mem_of_getElem? ht) List.not_mem_nil
  have hroot : OrderedBut (fun _ => False) (SourceUnit.ofTree path root).types :=
    visits_ordered.visit root _ (fun e he => by cases he) hstart
  intro t ht
  obtain ⟨i, hi⟩ := List.mem_iff_getElem?.1 ht
  exact hroot i t hi not_false

/-! ## Files of syntax trees -/

/-- The file `u` has the declarations and the calls of the tree `root`, in the order of the text,
each with the innermost named type around it. -/
structure Mirrors (root : Node) (u : SourceUnit) : Prop extends SourceUnit.Shaped u where
  types : List.Forall₂
    (fun p t => typeAt? root p = some (t.kind, t.name) ∧
      t.enclosing.map ((typePlaces root)[·]?) = (around root p).map some)
    (typePlaces root) u.types
  methods : List.Forall₂
    (fun p d => (root.at? p).bind namedMethod? = some d.name ∧
      (typePlaces root)[d.declaringType]? = around root p)
    (methodPlaces root) u.methods
  calls : List.Forall₂
    (fun p c => (root.at? p).bind namedCall? = some (c.kind, c.methodName) ∧
      c.enclosingType.map ((typePlaces root)[·]?) = (around root p).map some)
    (callPlaces root) u.calls
  /-- A method is in the list of its type and in no other one, and these lists increase. -/
  listed : ∀ t ∈ u.types, t.methods.Pairwise (· < ·) ∧
    ∀ d ∈ u.methods, d.id ∈ t.methods ↔ d.declaringType = t.id
  nested : u.ScopedNames
  outermost : ∀ t ∈ u.types, t.enclosing = none →
    t.qualifiedName = qualified u.info.package t.name
  sorted : ∀ t ∈ u.types, t.typeRefs.Pairwise (· < ·)

/-- A type lists the methods that are declared in it, in order. -/
theorem listed_of_shaped {u : SourceUnit} (h : u.Shaped) {t : TypeDecl} (ht : t ∈ u.types) :
    t.methods.Pairwise (· < ·) ∧ ∀ d ∈ u.methods, d.id ∈ t.methods ↔ d.declaringType = t.id := by
  rw [h.methods_eq t ht]
  refine ⟨List.pairwise_findIdxs, fun d hd => ?_⟩
  obtain ⟨hlt, hself⟩ := List.getElem?_eq_some_iff.1 (getElem?_number h.method_ids hd)
  rw [List.mem_findIdxs_iff_exists_getElem_pos]
  constructor
  · rintro ⟨_, heq⟩
    rw [hself] at heq
    exact beq_iff_eq.1 heq
  · intro heq
    exact ⟨hlt, by rw [hself]; exact beq_iff_eq.2 heq⟩

/-- **A file mirrors the syntax tree that it is made of**, whatever the tree is. The places at which
its types, methods and calls stand are those that the walk comes by, in the order of the text. -/
theorem ofTree_mirrors (path : Path) (root : Node) :
    Mirrors root (SourceUnit.ofTree path root) ∧
      (walked root).Pairwise (· < ·) ∧ ∀ p, p ∈ walked root ↔ Comes root p := by
  have h := ofTree_recorded path root
  refine ⟨⟨h.toShaped, h.types_placed, h.methods_placed, h.calls_placed,
    fun t ht => listed_of_shaped h.toShaped ht, fun t ht e he => ?_, fun t ht hnone => ?_,
    ofTree_ordered path root⟩, pairwise_walked root, fun p => mem_walked root⟩
  · have hname := h.qualifiedName_eq ht
    rwa [he] at hname
  · have hname := h.qualifiedName_eq ht
    rwa [hnone] at hname

/-- A class with an anonymous class in it, which has a method `run` with a class `Inner` in it, and
with a method `work`. -/
def Sample.host : Node :=
  let node kind children : Node := .mk kind none "" 1 1 children
  let name text : Node := .mk .identifier (some .name) text 1 1 []
  let inner := node .classDeclaration [name "Inner", node .methodDeclaration [name "deep"]]
  let run := node .methodDeclaration [name "run", inner]
  node .classDeclaration [name "Host", node .objectCreation [node .classBody [run]],
    node .methodDeclaration [name "work"]]

example : methodPlaces Sample.host = [[1, 0, 0, 1, 1], [2]] ∧
    (SourceUnit.ofTree ⟨"Host.java"⟩ Sample.host).methods.map (·.name) = ["deep", "work"] := by
  decide +kernel

end Code.Extraction

end Deadwood
