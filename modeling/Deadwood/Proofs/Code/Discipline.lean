import Deadwood.Proofs.Code.Visits

/-!
# What a visit leaves as it was

A visit may change little of what is there before it. `Keeps` says how little: it declares variables
in the innermost scope, adds calls, methods and types at the ends of their lists, and of the types
that were there it touches only the innermost one around it, in its methods and mentions. All that a
visit is put together from keeps this (`visits_keeps`).

The context of a visit is handed down the tree and never handed back. The same walk can keep its
place by itself: a `Walker` has a stack of the named types around and counts the anonymous bodies
that are open in the innermost one. It pushes and counts on the way in, pops, subtracts and restores
on the way out. `Follows` compares the two: the stack and the counter come out of a visit as they
went in, so that the walker stands for the same context at the next node, and collects the same.
-/

namespace Deadwood.Code.Extraction

open Java (Kind Role Node)

/-! ## Frames -/

/-- The types of `xs` are in the same places of `ys`, and at most `top` has other methods and
mentions. -/
def SameBut (top : Option TypeId) (xs ys : List TypeDecl) : Prop :=
  ∀ (i : Nat) (d : TypeDecl), xs[i]? = some d → ∃ d', ys[i]? = some d' ∧
    (d' = d ∨ top = some i ∧ d' = { d with methods := d'.methods, typeRefs := d'.typeRefs })

namespace SameBut

variable {top : Option TypeId} {xs ys zs : List TypeDecl}

theorem refl (top : Option TypeId) (xs : List TypeDecl) : SameBut top xs xs :=
  fun _ d hd => ⟨d, hd, Or.inl rfl⟩

theorem trans (h : SameBut top xs ys) (h' : SameBut top ys zs) : SameBut top xs zs := by
  intro i d hd
  obtain ⟨d', hd', hsame⟩ := h i d hd
  obtain ⟨d'', hd'', hsame'⟩ := h' i d' hd'
  refine ⟨d'', hd'', ?_⟩
  rcases hsame with rfl | ⟨htop, hsame⟩
  · exact hsame'
  · rcases hsame' with rfl | ⟨-, hsame'⟩
    · exact Or.inr ⟨htop, hsame⟩
    · refine Or.inr ⟨htop, ?_⟩
      rw [hsame', hsame]

/-- A type may gain methods and mentions in place, if it is the one on top. -/
theorem modify {f : TypeDecl → TypeDecl}
    (hf : ∀ d, f d = { d with methods := (f d).methods, typeRefs := (f d).typeRefs })
    (xs : List TypeDecl) (id : TypeId) : SameBut (some id) xs (xs.modify id f) := by
  intro i d hd
  rw [List.getElem?_modify, hd]
  refine ⟨_, rfl, ?_⟩
  dsimp only
  split
  · next hid => exact Or.inr ⟨congrArg some hid, hf d⟩
  · exact Or.inl rfl

/-- If a type is added and only that one is touched, all others are as before. -/
theorem of_concat {d : TypeDecl} (h : SameBut (some xs.length) (xs ++ [d]) ys)
    (top : Option TypeId) : SameBut top xs ys := by
  intro i e he
  obtain ⟨e', he', hsame⟩ := h i e (getElem?_append_of_some he _)
  refine ⟨e', he', Or.inl (hsame.resolve_right ?_)⟩
  rintro ⟨hlast, -⟩
  have hi : i < xs.length := (List.getElem?_eq_some_iff.1 he).1
  exact absurd (Option.some.inj hlast) (Nat.ne_of_gt hi)

theorem length_le (h : SameBut top xs ys) : xs.length ≤ ys.length := by
  refine Nat.le_of_not_lt fun hlt => ?_
  obtain ⟨d', hd', -⟩ := h _ _ (List.getElem?_eq_getElem hlt)
  rw [List.getElem?_eq_none (Nat.le_refl _)] at hd'
  cases hd'

theorem qualifiedName (h : SameBut top xs ys) {i : Nat} (hi : i < xs.length) :
    (ys[i]?).map (·.qualifiedName) = (xs[i]?).map (·.qualifiedName) := by
  obtain ⟨d', hd', hsame⟩ := h i _ (List.getElem?_eq_getElem hi)
  rw [hd', List.getElem?_eq_getElem hi]
  rcases hsame with rfl | ⟨-, hsame⟩
  · rfl
  · rw [hsame]
    rfl

end SameBut

/-- From `s` to `t`, where `top` is the innermost named type, nothing changed but for variables in
the innermost scope, entries at the ends of the lists, and the methods and mentions of `top`. -/
structure Keeps (top : Option TypeId) (s t : State) : Prop where
  depth : t.scopes.length = s.scopes.length
  outer : t.scopes.tail = s.scopes.tail
  inner : ∀ scope ∈ s.scopes.head?, ∃ declared, t.scopes.head? = some (declared ++ scope)
  calls : s.calls <+: t.calls
  methods : s.methods <+: t.methods
  types : ∀ (i : Nat) (d : TypeDecl), s.types[i]? = some d →
    ∃ d', t.types[i]? = some d' ∧
      (d' = d ∨ top = some i ∧ d' = { d with methods := d'.methods, typeRefs := d'.typeRefs })

namespace Keeps

variable {top : Option TypeId} {s t u : State}

theorem sameBut (h : Keeps top s t) : SameBut top s.types t.types :=
  h.types

theorem of_scopes_eq (hscopes : t.scopes = s.scopes) (hcalls : s.calls <+: t.calls)
    (hmethods : s.methods <+: t.methods) (htypes : SameBut top s.types t.types) :
    Keeps top s t where
  depth := by rw [hscopes]
  outer := by rw [hscopes]
  inner scope hscope := ⟨[], hscopes ▸ hscope⟩
  calls := hcalls
  methods := hmethods
  types := htypes

theorem refl (top : Option TypeId) (s : State) : Keeps top s s :=
  of_scopes_eq rfl (List.prefix_refl _) (List.prefix_refl _) (.refl _ _)

theorem trans (h : Keeps top s t) (h' : Keeps top t u) : Keeps top s u where
  depth := h'.depth.trans h.depth
  outer := h'.outer.trans h.outer
  inner scope hscope := by
    obtain ⟨declared, ht⟩ := h.inner scope hscope
    obtain ⟨more, hu⟩ := h'.inner _ ht
    exact ⟨more ++ declared, by rw [hu, List.append_assoc]⟩
  calls := h.calls.trans h'.calls
  methods := h.methods.trans h'.methods
  types := h.sameBut.trans h'.sameBut

/-! ### A node by itself -/

/-- Variables are added to the innermost scope and to nothing else. -/
theorem declares (top : Option TypeId) (bound : List (String × Option String)) (s : State) :
    Keeps top s (bound.foldl (fun s b => s.declare b.1 b.2) s) := by
  induction bound generalizing s with
  | nil => exact refl top s
  | cons b bound ih =>
    have hfirst : Keeps top s (s.declare b.1 b.2) := by
      refine ⟨?_, ?_, fun scope hscope => ?_, List.prefix_refl _, List.prefix_refl _,
        SameBut.refl _ _⟩
      · cases hscopes : s.scopes <;> simp [State.declare, Scopes.declare, hscopes]
      · cases hscopes : s.scopes <;> simp [State.declare, Scopes.declare, hscopes]
      · refine ⟨[b], ?_⟩
        cases hscopes : s.scopes with
        | nil =>
          rw [hscopes] at hscope
          cases hscope
        | cons first outer =>
          rw [hscopes] at hscope
          cases hscope
          simp [State.declare, Scopes.declare, Scope.declare, hscopes]
    exact hfirst.trans (ih (s.declare b.1 b.2))

theorem mention (ctx : Context) (name : String) (s : State) :
    Keeps ctx.enclosing s (mention ctx name s) := by
  unfold Extraction.mention
  split
  · exact refl _ s
  · next id hid =>
    rw [hid]
    exact of_scopes_eq rfl (List.prefix_refl _) (List.prefix_refl _) (.modify (fun _ => rfl) _ _)

theorem addCall (ctx : Context) (kind : CallKind) (name : String) (args : Option Nat)
    (recv : Receiver) (line : Nat) (s : State) :
    Keeps ctx.enclosing s (addCall ctx kind name args recv line s) := by
  have hpush : ∀ (mentioned : State) (call : CallSite),
      Keeps ctx.enclosing mentioned { mentioned with calls := mentioned.calls ++ [call] } :=
    fun mentioned call => of_scopes_eq rfl (List.prefix_append _ _) (List.prefix_refl _) (.refl _ _)
  cases recv with
  | type type => exact (mention ctx type s).trans (hpush _ _)
  | _ => exact hpush s _

theorem addMethod (ctx : Context) (n : Node) (s : State) :
    Keeps ctx.enclosing s (addMethod ctx n s) := by
  unfold Extraction.addMethod
  split
  · next type name _ htype _ =>
    rw [htype]
    exact of_scopes_eq rfl (List.prefix_refl _) (List.prefix_append _ _)
      (.modify (fun _ => rfl) _ _)
  · exact refl _ s

/-- A node by itself leaves all scopes but the innermost as they are, and all types but the one
around it. -/
theorem entered {ctx : Context} {n : Node} (h : Entered ctx n s t) : Keeps ctx.enclosing s t := by
  cases h with
  | declares bound => exact declares _ bound s
  | mentions name => exact mention ctx name s
  | calls kind name args recv line => exact addCall ctx kind name args recv line s
  | method => exact addMethod ctx n s

/-! ### Types and scopes around a visit -/

/-- What was done in a scope of its own is gone with the scope. -/
theorem closeScope {scope : Scope} (h : Keeps top (s.openScope scope) t) :
    Keeps top s t.closeScope :=
  of_scopes_eq h.outer h.calls h.methods h.sameBut

/-- Inside a new type, none of the types before it can be touched. -/
theorem closeType {scope : Scope} {ctx : Context} {kind : TypeKind} {name : String} {n : Node}
    (h : Keeps (some s.types.length) ((addType ctx kind name n s).openScope scope) t)
    (top : Option TypeId) : Keeps top s (t.leaveType s.types.length) :=
  of_scopes_eq h.outer h.calls h.methods
    ((h.sameBut.trans (.modify (fun _ => rfl) t.types _)).of_concat top)

end Keeps

/-- So does the visit of a node with all that lies inside it: what is opened is closed again. -/
theorem visits_keeps : Visits fun ctx s t => Keeps ctx.enclosing s t where
  trans := Keeps.trans
  enter := Keeps.entered
  inType h := h.closeType _
  inScope {ctx n _ _ _} h := by
    rw [within_enclosing] at h
    exact h.closeScope

/-! ## A walk that keeps its place by itself -/

/-- A walk over a tree, with the place that it has come to. -/
structure Walker where
  state : State
  /-- The named types around, the innermost first. -/
  typeStack : List TypeId
  /-- The number of anonymous bodies that are open inside the innermost of them. -/
  anonymous : Nat

namespace Walker

/-- The name that declarations are qualified with: that of the innermost type, or the package. -/
def scopeName (info : UnitInfo) (w : Walker) : Option String :=
  w.typeStack.head?.elim info.package fun id => (w.state.types[id]?).map (·.qualifiedName)

def context (info : UnitInfo) (w : Walker) : Context :=
  ⟨info.path, info.imports, w.typeStack.head?, w.scopeName info, w.anonymous != 0⟩

def enter (info : UnitInfo) (n : Node) (w : Walker) : Walker :=
  { w with state := Extraction.enter (w.context info) n w.state }

/-- Collects a type and goes into it. No anonymous body is open in it. -/
def openType (info : UnitInfo) (kind : TypeKind) (name : String) (n : Node) (w : Walker) : Walker where
  state := (addType (w.context info) kind name n w.state).openScope (typeScope n)
  typeStack := w.state.types.length :: w.typeStack
  anonymous := 0

/-- Comes out of the type `id`, back to the number of anonymous bodies before it. -/
def closeType (id : TypeId) (saved : Nat) (w : Walker) : Walker where
  state := w.state.leaveType id
  typeStack := w.typeStack.tail
  anonymous := saved

/-- Goes into a scope, which may be that of an anonymous body. -/
def openScope (n : Node) (scope : Scope) (w : Walker) : Walker :=
  { w with
    state := w.state.openScope scope
    anonymous := if n.kind == .classBody then w.anonymous + 1 else w.anonymous }

def closeScope (n : Node) (w : Walker) : Walker :=
  { w with
    state := w.state.closeScope
    anonymous := if n.kind == .classBody then w.anonymous - 1 else w.anonymous }

/-- At the root of a file. -/
def start : Walker :=
  ⟨.start, [], 0⟩

/-- The types on the stack have been collected. -/
def InRange (w : Walker) : Prop :=
  ∀ id ∈ w.typeStack, id < w.state.types.length

end Walker

mutual

/-- Walks over a node, whose parent has the kind `parent`. -/
def walk (info : UnitInfo) (parent : Kind) : Node → Walker → Walker
  | .mk kind role text line endLine children, w =>
    let n := Node.mk kind role text line endLine children
    match namedType? n with
    | some (typeKind, name) =>
      (walkAll info kind children (w.openType info typeKind name n)).closeType
        w.state.types.length w.anonymous
    | none =>
      if isAnnotationUse n then walkFirst info kind .arguments children (w.enter info n)
      else if kind == .typeIdentifier then w.enter info n
      else
        match scopeOf? parent n with
        | some scope =>
          (walkAll info kind children ((w.enter info n).openScope n scope)).closeScope n
        | none => walkAll info kind children (w.enter info n)

def walkAll (info : UnitInfo) (parent : Kind) : List Node → Walker → Walker
  | [], w => w
  | n :: ns, w => walkAll info parent ns (walk info parent n w)

def walkFirst (info : UnitInfo) (parent : Kind) (role : Role) : List Node → Walker → Walker
  | [], w => w
  | n :: ns, w =>
    if n.role == some role then walk info parent n w else walkFirst info parent role ns w

end

/-- A walker that went from `w` to `w'` has come back to its place, kept what it should, and
collected what is in `t`. -/
structure Follows (info : UnitInfo) (w : Walker) (t : State) (w' : Walker) : Prop where
  typeStack : w'.typeStack = w.typeStack
  anonymous : w'.anonymous = w.anonymous
  keeps : Keeps w.typeStack.head? w.state w'.state
  state : w.InRange → w'.state = t

namespace Follows

variable {info : UnitInfo} {w w' w'' : Walker} {t u : State} {n : Node}

/-- No type is taken away by a walk, so those on the stack stay in range. -/
theorem inRange (h : Follows info w t w') (hw : w.InRange) : w'.InRange := by
  intro id hid
  rw [h.typeStack] at hid
  exact Nat.lt_of_lt_of_le (hw id hid) h.keeps.sameBut.length_le

/-- The walker stands for the same context as before: the innermost type is the same, and its name
has not changed. -/
theorem context_eq (h : Follows info w t w') (hw : w.InRange) :
    w'.context info = w.context info := by
  have hname : w'.scopeName info = w.scopeName info := by
    rw [Walker.scopeName, Walker.scopeName, h.typeStack]
    cases htop : w.typeStack.head? with
    | none => rfl
    | some id => exact h.keeps.sameBut.qualifiedName (hw id (List.mem_of_mem_head? htop))
  rw [Walker.context, Walker.context, h.typeStack, h.anonymous, hname]

/-- One walk after the other. -/
theorem next {f : Context → State → State} (h : Follows info w t w')
    (h' : Follows info w' (f (w'.context info) w'.state) w'') :
    Follows info w (f (w.context info) t) w'' where
  typeStack := h'.typeStack.trans h.typeStack
  anonymous := h'.anonymous.trans h.anonymous
  keeps := by
    have hkeeps := h'.keeps
    rw [h.typeStack] at hkeeps
    exact h.keeps.trans hkeeps
  state hw := by rw [h'.state (h.inRange hw), h.context_eq hw, h.state hw]

theorem refl (info : UnitInfo) (w : Walker) : Follows info w w.state w :=
  ⟨rfl, rfl, .refl _ _, fun _ => rfl⟩

theorem enter (info : UnitInfo) (n : Node) (w : Walker) :
    Follows info w (Extraction.enter (w.context info) n w.state) (w.enter info n) where
  typeStack := rfl
  anonymous := rfl
  keeps := Keeps.entered (entered_enter (w.context info) n w.state)
  state _ := rfl

/-- Leaving a type takes it off the stack, and brings back the count of anonymous bodies that was
put aside. -/
theorem closeType {kind : TypeKind} {name : String}
    (h : Follows info (w.openType info kind name n) t w') :
    Follows info w (t.leaveType w.state.types.length)
      (w'.closeType w.state.types.length w.anonymous) where
  typeStack := congrArg List.tail h.typeStack
  anonymous := rfl
  keeps := h.keeps.closeType _
  state hw := by
    have hinner : (w.openType info kind name n).InRange := by
      intro id hid
      refine Nat.lt_of_lt_of_le ?_ (Nat.le_of_eq List.length_append.symm)
      rcases List.mem_cons.1 hid with rfl | hid
      · exact Nat.lt_succ_self _
      · exact Nat.lt_succ_of_lt (hw id hid)
    exact congrArg (State.leaveType · w.state.types.length) (h.state hinner)

theorem closeScope {scope : Scope} (h : Follows info (w.openScope n scope) t w') :
    Follows info w t.closeScope (w'.closeScope n) where
  typeStack := h.typeStack
  anonymous := by
    have hcount := h.anonymous
    simp only [Walker.openScope] at hcount
    simp only [Walker.closeScope, hcount]
    split
    · exact Nat.add_sub_cancel ..
    · rfl
  keeps := h.keeps.closeScope
  state hw := congrArg State.closeScope (h.state hw)

end Follows

theorem context_openType (info : UnitInfo) (kind : TypeKind) (name : String) (n : Node)
    (w : Walker) :
    (w.openType info kind name n).context info = (w.context info).inType name w.state := by
  have hname : (w.openType info kind name n).scopeName info =
      some ((w.context info).qualify name) := by
    simp [Walker.scopeName, Walker.openType, State.openScope, addType]
  rw [Walker.context, hname]
  rfl

theorem context_openScope (info : UnitInfo) (n : Node) (scope : Scope) (w : Walker) :
    (w.openScope n scope).context info = (w.context info).within n := by
  unfold Context.within
  split
  · next hbody => simp [Walker.context, Walker.scopeName, Walker.openScope, State.openScope, hbody]
  · next hbody => simp [Walker.context, Walker.scopeName, Walker.openScope, State.openScope, hbody]

section Node

variable {info : UnitInfo} {parent : Kind} {w : Walker} {n : Node}

theorem walk_of_type {kind : TypeKind} {name : String} (h : namedType? n = some (kind, name)) :
    walk info parent n w =
      (walkAll info n.kind n.children (w.openType info kind name n)).closeType
        w.state.types.length w.anonymous := by
  cases n
  rw [walk, h]
  rfl

/-- The walk of a node that declares no type, case by case as the visit has them. -/
theorem walk_of_other (h : namedType? n = none) :
    walk info parent n w =
      if isAnnotationUse n then walkFirst info n.kind .arguments n.children (w.enter info n)
      else if n.kind == .typeIdentifier then w.enter info n
      else (scopeOf? parent n).elim (walkAll info n.kind n.children (w.enter info n)) fun scope =>
        (walkAll info n.kind n.children ((w.enter info n).openScope n scope)).closeScope n := by
  cases n
  rw [walk, h]
  cases scopeOf? parent _ <;> rfl

/-- A node is walked over as it is visited, if its children are. -/
theorem Follows.node
    (hall : ∀ v : Walker, Follows info v (visitAll (v.context info) n.kind n.children v.state)
      (walkAll info n.kind n.children v))
    (hfirst : ∀ v : Walker,
      Follows info v (visitFirst (v.context info) n.kind .arguments n.children v.state)
        (walkFirst info n.kind .arguments n.children v)) :
    Follows info w (visit (w.context info) parent n w.state) (walk info parent n w) := by
  cases htype : namedType? n with
  | some type =>
    obtain ⟨kind, name⟩ := type
    have hinner := hall (w.openType info kind name n)
    rw [context_openType] at hinner
    rw [visit_of_type htype, walk_of_type htype]
    exact hinner.closeType
  | none =>
    have hentered := Follows.enter info n w
    rw [visit_of_other htype, walk_of_other htype]
    split
    · exact hentered.next (f := (visitFirst · n.kind .arguments n.children)) (hfirst _)
    · split
      · exact hentered
      · cases scopeOf? parent n with
        | none => exact hentered.next (f := (visitAll · n.kind n.children)) (hall _)
        | some scope =>
          have hinner := hall ((w.enter info n).openScope n scope)
          rw [context_openScope] at hinner
          exact hentered.next (f := fun ctx s =>
            (visitAll (ctx.within n) n.kind n.children (s.openScope scope)).closeScope)
            hinner.closeScope

end Node

mutual

/-- The walk with a stack goes through the same states as the visit with a context passed down. The
induction is on the tree. -/
theorem walk_follows (info : UnitInfo) (parent : Kind) (w : Walker) :
    (n : Node) → Follows info w (visit (w.context info) parent n w.state) (walk info parent n w)
  | .mk kind _ _ _ _ children =>
    .node (fun v => walkAll_follows info kind v children)
      (fun v => walkFirst_follows info kind .arguments v children)

theorem walkAll_follows (info : UnitInfo) (parent : Kind) (w : Walker) :
    (ns : List Node) →
    Follows info w (visitAll (w.context info) parent ns w.state) (walkAll info parent ns w)
  | [] => by
    rw [visitAll, walkAll]
    exact .refl info w
  | n :: ns => by
    rw [visitAll, walkAll]
    exact (walk_follows info parent w n).next (f := (visitAll · parent ns))
      (walkAll_follows info parent _ ns)

theorem walkFirst_follows (info : UnitInfo) (parent : Kind) (role : Role) (w : Walker) :
    (ns : List Node) →
    Follows info w (visitFirst (w.context info) parent role ns w.state)
      (walkFirst info parent role ns w)
  | [] => by
    rw [visitFirst, walkFirst]
    exact .refl info w
  | n :: ns => by
    rw [visitFirst, walkFirst]
    split
    · exact walk_follows info parent w n
    · exact walkFirst_follows info parent role w ns

end

/-- The visit of a node keeps the frame, in every context and state. A walker comes out of the node
with the stack and the counter that it went in with, whatever its state; and while the types on the
stack are ones that it has collected, as they are from the root of a file on, it collects what the
visit collects. -/
theorem visit_disciplined (info : UnitInfo) (parent : Kind) (n : Node) :
    (∀ (ctx : Context) (s : State), Keeps ctx.enclosing s (visit ctx parent n s)) ∧
    (∀ w : Walker,
      (walk info parent n w).typeStack = w.typeStack ∧
      (walk info parent n w).anonymous = w.anonymous ∧
      Keeps w.typeStack.head? w.state (walk info parent n w).state ∧
      (w.InRange → (walk info parent n w).InRange ∧
        (walk info parent n w).state = visit (w.context info) parent n w.state)) ∧
    ∀ path : Path, SourceUnit.ofTree path n =
      (walk (unitInfo path n) .program n .start).state.unit (unitInfo path n) := by
  refine ⟨fun ctx s => visits_keeps.visit n, fun w => ?_, fun path => ?_⟩
  · have h := walk_follows info parent w n
    exact ⟨h.typeStack, h.anonymous, h.keeps, fun hw => ⟨h.inRange hw, h.state hw⟩⟩
  · have hroot : Walker.start.InRange := fun id hid => absurd hid List.not_mem_nil
    rw [(walk_follows (unitInfo path n) .program .start n).state hroot]
    rfl

namespace Sample

/-- A named class, as it may stand in an anonymous body. -/
def localClass : Node :=
  .mk .classDeclaration none "class B \x7b void f() \x7b g(); \x7d \x7d" 2 2 [
    .mk .token none "class" 2 2 [],
    .mk .identifier (some .name) "B" 2 2 [],
    .mk .classBody (some .body) "\x7b void f() \x7b g(); \x7d \x7d" 2 2 [
      .mk .methodDeclaration none "void f() \x7b g(); \x7d" 2 2 [
        .mk .identifier (some .name) "f" 2 2 [],
        .mk .formalParameters (some .parameters) "()" 2 2 [],
        .mk .block (some .body) "\x7b g(); \x7d" 2 2 [
          .mk .methodInvocation none "g()" 2 2 [
            .mk .identifier (some .name) "g" 2 2 [],
            .mk .argumentList (some .arguments) "()" 2 2 []]]]]]

def info : UnitInfo :=
  ⟨⟨"A.java"⟩, none, [], []⟩

/-- In an anonymous body of the class `A`. -/
def inBody : Walker where
  state := { State.start with
    types := [⟨0, "A", "A", .classType, 0, none, none, [], [], [], [], false, ⟨⟨"A.java"⟩, 1, 3⟩⟩]
    scopes := [[], []] }
  typeStack := [0]
  anonymous := 1

end Sample

/-- A named class in an anonymous body of `A` is visited: it is named after `A`, and the stack and
the count are what they were. -/
theorem visit_disciplined_sample :
    Sample.inBody.InRange ∧
      (walk Sample.info .classBody Sample.localClass Sample.inBody).typeStack = [0] ∧
      (walk Sample.info .classBody Sample.localClass Sample.inBody).anonymous = 1 ∧
      (visit (Sample.inBody.context Sample.info) .classBody Sample.localClass
        Sample.inBody.state).types.map (·.qualifiedName) = ["A", "A.B"] ∧
      (walk Sample.info .classBody Sample.localClass Sample.inBody).state =
        visit (Sample.inBody.context Sample.info) .classBody Sample.localClass
          Sample.inBody.state := by
  have hrange : Sample.inBody.InRange := by
    intro id hid
    cases List.mem_singleton.1 hid
    exact Nat.zero_lt_one
  obtain ⟨hstack, hcount, -, hsame⟩ :=
    (visit_disciplined Sample.info .classBody Sample.localClass).2.1 Sample.inBody
  exact ⟨hrange, hstack, hcount, by decide +kernel, (hsame hrange).2⟩

end Deadwood.Code.Extraction
