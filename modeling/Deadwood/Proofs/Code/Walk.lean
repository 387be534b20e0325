import Deadwood.Proofs.Code.Growth
import Deadwood.Proofs.Code.Places
import Mathlib.Data.String.Basic

/-!
# The walk over a syntax tree

The walk changes three lists in place while it keeps track of the types around it. Here its state is
compared with the tree: `Recorded root seen u` says that the file `u` has an entry for each type,
method and call at the places `seen`, in their order, and that these entries are what the tree
around the places makes them. `Stands` says the same of the context. A node keeps both with its own
place added (`Recorded.addType`, `Recorded.enter`), so the walk over a whole tree records all places
that it comes by (`ofTree_recorded`).
-/

namespace Deadwood

/-! ## Lists that follow another list -/

section Follow

variable {α β γ : Type} {g : α → β} {e : γ → Option β} {xs : List α} {ys : List γ} {y : γ}

theorem map_eq_filterMap_concat {x : α} (h : xs.map g = ys.filterMap e) (hy : e y = some (g x)) :
    (xs ++ [x]).map g = (ys ++ [y]).filterMap e := by
  rw [List.map_append, List.filterMap_append, h, List.filterMap_cons_some hy]
  rfl

theorem map_eq_filterMap_skip (h : xs.map g = ys.filterMap e) (hy : e y = none) :
    xs.map g = (ys ++ [y]).filterMap e := by
  rw [List.filterMap_append, List.filterMap_cons_none hy, h]
  exact (List.append_nil _).symm

end Follow

namespace Code.Extraction

open Java (Kind Role Node TreePlace)

/-! ## What should be recorded -/

section Entries

variable (root : Node)

/-- The places of the named types that the walk comes by. -/
def typePlaces : List TreePlace :=
  (walked root).filter fun p => (typeAt? root p).isSome

/-- The number of the type at a place. -/
def number (p : TreePlace) : TypeId :=
  (typePlaces root).idxOf p

/-- What is recorded of the type at a place: its kind, its names and the type around it. -/
def typeRecord? (package : Option String) (p : TreePlace) :
    Option (TypeKind × String × String × Option TypeId) :=
  (typeAt? root p).map fun (kind, name) =>
    (kind, name, qualified (scopeAt root package p) name, (around root p).map (number root))

/-- What is recorded of the method at a place: its name and its type. Methods outside of named types
and in anonymous bodies are not recorded. -/
def methodRecord? (p : TreePlace) : Option (String × TypeId) :=
  match isAnonymous root p, around root p, (root.at? p).bind namedMethod? with
  | false, some q, some name => some (name, number root q)
  | _, _, _ => none

/-- What is recorded of the call at a place: its kind, the name that is called and the type around
it. -/
def callRecord? (p : TreePlace) : Option (CallKind × String × Option TypeId) :=
  ((root.at? p).bind namedCall?).map fun (kind, name) =>
    (kind, name, (around root p).map (number root))

end Entries

/-- The file `u` has exactly the entries of the places `seen`, in their order. -/
structure Recorded (root : Node) (seen : List TreePlace) (u : SourceUnit) : Prop
    extends SourceUnit.Shaped u where
  type_entries : u.types.map (fun t => (t.kind, t.name, t.qualifiedName, t.enclosing)) =
    seen.filterMap (typeRecord? root u.info.package)
  method_entries : u.methods.map (fun d => (d.name, d.declaringType)) =
    seen.filterMap (methodRecord? root)
  call_entries : u.calls.map (fun c => (c.kind, c.methodName, c.enclosingType)) =
    seen.filterMap (callRecord? root)

/-- The file that a state of the walk stands for. -/
def State.unit (s : State) (info : UnitInfo) : SourceUnit :=
  ⟨info, s.types, s.methods, s.calls⟩

theorem unit_foldl_declare (names : List String) (type : Option String) (s : State)
    (info : UnitInfo) :
    (names.foldl (fun s name => s.declare name type) s).unit info = s.unit info := by
  induction names generalizing s with
  | nil => rfl
  | cons name names ih => exact ih (s.declare name type)

/-! ## Where the walk stands -/

/-- The context inside a node that declares no named type. Only an anonymous body changes it. -/
structure Context.Inner (ctx : Context) (parent : Kind) (n : Node) (inner : Context) : Prop where
  enclosing : inner.enclosing = ctx.enclosing
  scopeName : inner.scopeName = ctx.scopeName
  anonymous : inner.anonymous = (n.kind == .classBody && holdsAnonymous parent || ctx.anonymous)

/-- The context of the walk at a place is what the tree around that place makes it, and all of that
has been seen. -/
structure Stands (root : Node) (package : Option String) (seen : List TreePlace) (ctx : Context)
    (parent : Kind) (p : TreePlace) : Prop where
  enclosing : ctx.enclosing = (around root p).map (number root)
  scopeName : ctx.scopeName = scopeAt root package p
  anonymous : ctx.anonymous = isAnonymous root p
  parent : (parentKind? root p).any holdsAnonymous = holdsAnonymous parent
  seen : ∀ q ∈ p.outwards, q ∈ seen

section Numbers

variable {root : Node} {seen : List TreePlace} {p : TreePlace}

/-- A type that the walk comes to next gets the number of types before it. -/
theorem number_eq_length (hseen : seen ++ [p] <+: walked root)
    (htype : (typeAt? root p).isSome = true) :
    number root p = (seen.filter fun q => (typeAt? root q).isSome).length := by
  obtain ⟨rest, hrest⟩ := hseen
  have hnew : p ∉ seen := by
    intro hmem
    have hnodup := nodup_walked root
    rw [← hrest, List.append_assoc, List.nodup_append] at hnodup
    exact hnodup.2.2 p hmem p (List.mem_append_left _ List.mem_cons_self) rfl
  rw [number, typePlaces, ← hrest, List.filter_append, List.filter_append, List.append_assoc,
    List.idxOf_append_of_notMem fun hmem => hnew (List.mem_filter.1 hmem).1,
    List.filter_singleton, htype]
  simp

/-- A type that was walked over has a number below the count of types so far. -/
theorem number_lt_of_mem (hseen : seen <+: walked root) (hp : p ∈ seen)
    (htype : (typeAt? root p).isSome = true) :
    number root p < (seen.filter fun q => (typeAt? root q).isSome).length := by
  obtain ⟨rest, hrest⟩ := hseen
  have hmem : p ∈ seen.filter fun q => (typeAt? root q).isSome := List.mem_filter.2 ⟨hp, htype⟩
  rw [number, typePlaces, ← hrest, List.filter_append, List.idxOf_append_of_mem hmem]
  exact List.idxOf_lt_length_iff.2 hmem

theorem Recorded.length_types {u : SourceUnit} (h : Recorded root seen u) :
    u.types.length = (seen.filter fun q => (typeAt? root q).isSome).length := by
  have hlength := congrArg List.length h.type_entries
  rw [List.length_map, List.length_filterMap_eq_countP, List.countP_eq_length_filter] at hlength
  simpa only [typeRecord?, Option.isSome_map] using hlength

/-- The type around a place was walked over before the place, so it has been collected. -/
theorem Stands.enclosing_lt {u : SourceUnit} {package : Option String} {ctx : Context}
    {parent : Kind} (h : Recorded root seen u) (hstands : Stands root package seen ctx parent p)
    (hseen : seen <+: walked root) : ∀ e ∈ ctx.enclosing, e < u.types.length := by
  intro e he
  rw [hstands.enclosing] at he
  obtain ⟨q, hq, rfl⟩ := Option.map_eq_some_iff.1 he
  rw [h.length_types]
  exact number_lt_of_mem hseen (hstands.seen q (List.mem_of_find?_eq_some hq))
    (isSome_typeAt?_of_around hq)

end Numbers

namespace Stands

variable {root : Node} {package : Option String} {seen : List TreePlace} {ctx : Context}
  {parent : Kind} {p : TreePlace} (h : Stands root package seen ctx parent p)

include h

theorem mono {seen' : List TreePlace} (hsub : ∀ q ∈ seen, q ∈ seen') :
    Stands root package seen' ctx parent p :=
  ⟨h.enclosing, h.scopeName, h.anonymous, h.parent, fun q hq => hsub q (h.seen q hq)⟩

theorem seen_child (i : Nat) : ∀ q ∈ (p ++ [i]).outwards, q ∈ seen ++ [p] := by
  intro q hq
  rw [TreePlace.outwards_concat] at hq
  rcases List.mem_cons.1 hq with rfl | hq
  · exact List.mem_append_right _ List.mem_cons_self
  · exact List.mem_append_left _ (h.seen q hq)

theorem isAnonymousBody_eq {n : Node} (hn : root.at? p = some n) :
    isAnonymousBody root p = (n.kind == .classBody && holdsAnonymous parent) := by
  rw [isAnonymousBody, hn, Option.any_some, h.parent]

/-- Inside a named type. -/
theorem typeChild {n : Node} {kind : TypeKind} {name : String} (hn : root.at? p = some n)
    (htype : namedType? n = some (kind, name)) (i : Nat) :
    Stands root package (seen ++ [p])
      { ctx with
        enclosing := some (number root p)
        scopeName := some (ctx.qualify name)
        anonymous := false }
      n.kind (p ++ [i]) := by
  have hat : typeAt? root p = some (kind, name) := by rw [typeAt?, hn, Option.bind_some, htype]
  refine ⟨?_, ?_, ?_, ?_, h.seen_child i⟩
  · rw [around_concat, hat]
    rfl
  · rw [scopeAt_concat, hat, ← h.scopeName]
    rfl
  · rw [isAnonymous_concat, hat]
    rfl
  · rw [parentKind?_concat, hn]
    rfl

/-- What stands below a node that declares no type is in the context that the visit passes on to it.
-/
theorem otherChild {n : Node} {inner : Context} (hn : root.at? p = some n)
    (htype : namedType? n = none) (hinner : ctx.Inner parent n inner) (i : Nat) :
    Stands root package (seen ++ [p]) inner n.kind (p ++ [i]) := by
  have hat : typeAt? root p = none := by rw [typeAt?, hn, Option.bind_some, htype]
  refine ⟨?_, ?_, ?_, ?_, h.seen_child i⟩
  · rw [around_concat, hat, hinner.enclosing]
    exact h.enclosing
  · rw [scopeAt_concat, hat, hinner.scopeName]
    exact h.scopeName
  · rw [isAnonymous_concat, hat, hinner.anonymous, h.isAnonymousBody_eq hn, h.anonymous]
    rfl
  · rw [parentKind?_concat, hn]
    rfl

end Stands

/-! ## One node -/

section Kinds

variable {n : Node}

theorem kind_ne_of_type (h : (namedType? n).isSome = true) {kind : Kind}
    (hnone : typeKind? kind = none) : n.kind ≠ kind := by
  rintro rfl
  rw [namedType?, hnone] at h
  cases h

theorem namedMethod?_of_type (h : (namedType? n).isSome = true) : namedMethod? n = none :=
  if_neg fun hkind => kind_ne_of_type h rfl (beq_iff_eq.1 hkind)

/-- No node declares a type and makes a call. -/
theorem namedCall?_of_type (h : (namedType? n).isSome = true) : namedCall? n = none := by
  unfold namedCall?
  split
  · exact absurd ‹_› (kind_ne_of_type h rfl)
  · exact absurd ‹_› (kind_ne_of_type h rfl)
  · rfl

variable {root : Node} {p : TreePlace} (hn : root.at? p = some n)

include hn

theorem typeAt?_eq : typeAt? root p = namedType? n := by
  rw [typeAt?, hn, Option.bind_some]

theorem typeRecord?_eq_none (h : namedType? n = none) (package : Option String) :
    typeRecord? root package p = none := by
  rw [typeRecord?, typeAt?_eq hn, h]
  rfl

theorem methodRecord?_eq_none (h : namedMethod? n = none) : methodRecord? root p = none := by
  unfold methodRecord?
  rw [hn, Option.bind_some, h]
  split
  · next hsome => cases hsome
  · rfl

theorem callRecord?_eq_none (h : namedCall? n = none) : callRecord? root p = none := by
  rw [callRecord?, hn, Option.bind_some, h]
  rfl

theorem callRecord?_eq : callRecord? root p = (namedCall? n).map fun (kind, name) =>
    (kind, name, (around root p).map (number root)) := by
  rw [callRecord?, hn, Option.bind_some]

end Kinds

/-- Whether a method is recorded can be told from the context. -/
theorem Stands.methodRecord?_eq {root : Node} {package : Option String} {seen : List TreePlace}
    {ctx : Context} {parent : Kind} {p : TreePlace} (h : Stands root package seen ctx parent p)
    {n : Node} (hn : root.at? p = some n) :
    methodRecord? root p =
      match ctx.anonymous, ctx.enclosing, namedMethod? n with
      | false, some type, some name => some (name, type)
      | _, _, _ => none := by
  rw [methodRecord?, hn, Option.bind_some, h.anonymous, h.enclosing]
  cases isAnonymous root p <;> cases around root p <;> cases namedMethod? n <;> rfl

namespace Recorded

variable {root n : Node} {seen : List TreePlace} {p : TreePlace} {info : UnitInfo} {s : State}

/-- The names that types mention are not among the entries. -/
theorem modifyRefs (h : Recorded root seen (s.unit info)) (id : TypeId)
    (f : List String → List String) :
    Recorded root seen
      ((s.modifyType id fun t => { t with typeRefs := f t.typeRefs }).unit info) := by
  refine ⟨?_, ?_, h.method_entries, h.call_entries⟩
  · exact h.toShaped.modifyType (fun _ => rfl) (fun _ => rfl) (fun _ => rfl)
  · refine Eq.trans ?_ h.type_entries
    exact map_modify fun _ => rfl

theorem mention (h : Recorded root seen (s.unit info)) (ctx : Context) (name : String) :
    Recorded root seen ((mention ctx name s).unit info) := by
  unfold Extraction.mention
  split
  · exact h
  · exact h.modifyRefs _ (· ++ [name])

theorem leaveType (h : Recorded root seen (s.unit info)) (id : TypeId) :
    Recorded root seen ((s.leaveType id).unit info) :=
  h.modifyRefs id sortedSet

/-- A node that is neither a method nor a call adds mentions and variables in scope. -/
theorem enter_quiet {ctx : Context} (h : Recorded root seen (s.unit info))
    (hmethod : n.kind ≠ .methodDeclaration) (hinvocation : n.kind ≠ .methodInvocation)
    (hreference : n.kind ≠ .methodReference) :
    Recorded root seen ((enter ctx n s).unit info) := by
  unfold Extraction.enter
  split
  case h_1 => exact absurd ‹_› hmethod
  case h_2 =>
    -- local variables
    rw [unit_foldl_declare]
    exact h
  case h_3 | h_4 | h_5 =>
    -- variables of caught exceptions, resources and type tests
    split <;> exact h
  case h_6 => exact absurd ‹_› hinvocation
  case h_7 => exact absurd ‹_› hreference
  case h_8 =>
    -- a field of what may be a type
    split
    · split
      · exact h.mention ctx _
      · exact h
    · exact h
  case h_9 =>
    split
    · exact h
    · exact h.mention ctx _
  case h_10 => exact h.mention ctx _
  case h_11 | h_12 =>
    -- annotations
    split
    · exact h.mention ctx _
    · exact h
  case h_13 => exact h

variable (hn : root.at? p = some n)

include hn

/-- A node of which nothing is recorded. -/
theorem skip {u : SourceUnit} (h : Recorded root seen u) (htype : namedType? n = none)
    (hmethod : methodRecord? root p = none) (hcall : namedCall? n = none) :
    Recorded root (seen ++ [p]) u where
  toShaped := h.toShaped
  type_entries := map_eq_filterMap_skip h.type_entries (typeRecord?_eq_none hn htype _)
  method_entries := map_eq_filterMap_skip h.method_entries hmethod
  call_entries := map_eq_filterMap_skip h.call_entries (callRecord?_eq_none hn hcall)

variable {ctx : Context} {parent : Kind} (h : Recorded root seen (s.unit info))
  (hstands : Stands root info.package seen ctx parent p) (hseen : seen <+: walked root)

include h hstands hseen

theorem addType {kind : TypeKind} {name : String} (htype : namedType? n = some (kind, name)) :
    Recorded root (seen ++ [p]) ((addType ctx kind name n s).unit info) where
  toShaped := h.toShaped.addType rfl (hstands.enclosing_lt h hseen) rfl
  type_entries := by
    refine map_eq_filterMap_concat h.type_entries ?_
    change typeRecord? root info.package p = some (kind, name, ctx.qualify name, ctx.enclosing)
    rw [typeRecord?, typeAt?_eq hn, htype, hstands.enclosing, Context.qualify, hstands.scopeName]
    rfl
  method_entries := map_eq_filterMap_skip h.method_entries
    (methodRecord?_eq_none hn (namedMethod?_of_type (by rw [htype]; rfl)))
  call_entries := map_eq_filterMap_skip h.call_entries
    (callRecord?_eq_none hn (namedCall?_of_type (by rw [htype]; rfl)))

/-- A call that is added is the record of the node that makes it. -/
theorem addCall {kind : CallKind} {name : String} (htype : namedType? n = none)
    (hmethod : methodRecord? root p = none) (hcall : namedCall? n = some (kind, name))
    (args : Option Nat) (recv : Receiver) (line : Nat) :
    Recorded root (seen ++ [p]) ((addCall ctx kind name args recv line s).unit info) := by
  -- A mention comes before the call; the file that the call is added to is recorded either way.
  have hpush : ∀ s' : State, Recorded root seen (s'.unit info) →
      Recorded root (seen ++ [p]) (State.unit
        { s' with calls := s'.calls ++ [⟨s'.calls.length, kind, name, args, recv, ctx.enclosing, 0,
          line, none⟩] } info) := by
    intro s' h'
    refine ⟨h'.toShaped.addCall rfl (hstands.enclosing_lt h' hseen) rfl,
      map_eq_filterMap_skip h'.type_entries (typeRecord?_eq_none hn htype _),
      map_eq_filterMap_skip h'.method_entries hmethod, ?_⟩
    refine map_eq_filterMap_concat h'.call_entries ?_
    rw [callRecord?_eq hn, hcall, hstands.enclosing]
    rfl
  cases recv with
  | type type => exact hpush _ (h.mention ctx type)
  | _ => exact hpush _ h

theorem addInvocation (hkind : n.kind = .methodInvocation) (htype : namedType? n = none)
    (hmethod : methodRecord? root p = none) :
    Recorded root (seen ++ [p]) ((addInvocation ctx n s).unit info) := by
  have hcall : namedCall? n = (n.child? .name).map fun name => (.invocation, name.text) := by
    rw [namedCall?, hkind]
  unfold Extraction.addInvocation
  cases hname : n.child? .name with
  | none =>
    rw [hname] at hcall
    exact h.skip hn htype hmethod hcall
  | some name =>
    rw [hname] at hcall
    exact addCall hn h hstands hseen htype hmethod hcall _ _ _

theorem addReference (hkind : n.kind = .methodReference) (htype : namedType? n = none)
    (hmethod : methodRecord? root p = none) :
    Recorded root (seen ++ [p]) ((addReference ctx n s).unit info) := by
  have hcall : namedCall? n =
      ((n.children.dropWhile fun c => !(c.kind == .token && c.text == "::")).find?
        (·.kind == .identifier)).map fun name => (.methodReference, name.text) := by
    rw [namedCall?, hkind]
  simp only [Extraction.addReference]
  split
  · next hname =>
    rw [hname] at hcall
    exact h.skip hn htype hmethod hcall
  · next name hname =>
    rw [hname] at hcall
    exact addCall hn h hstands hseen htype hmethod hcall _ _ _

theorem addMethod (hkind : n.kind = .methodDeclaration) (htype : namedType? n = none) :
    Recorded root (seen ++ [p]) ((addMethod ctx n s).unit info) := by
  have hcall : namedCall? n = none := by rw [namedCall?, hkind]
  have hmethod : namedMethod? n = (n.child? .name).map (·.text) := by rw [namedMethod?, hkind]; rfl
  have hentry := hstands.methodRecord?_eq hn
  rw [hmethod] at hentry
  unfold Extraction.addMethod
  split
  · next type name hnamed henclosing hname =>
    rw [hkind, beq_self_eq_true, Bool.true_and, Bool.not_eq_true'] at hnamed
    rw [hnamed, henclosing, hname] at hentry
    have hlt := hstands.enclosing_lt h hseen type henclosing
    refine ⟨h.toShaped.addMethod rfl rfl hlt, ?_, map_eq_filterMap_concat h.method_entries hentry,
      map_eq_filterMap_skip h.call_entries (callRecord?_eq_none hn hcall)⟩
    refine Eq.trans ?_ (map_eq_filterMap_skip h.type_entries (typeRecord?_eq_none hn htype _))
    exact map_modify fun _ => rfl
  · next hout =>
    refine h.skip hn htype ?_ hcall
    rw [hentry]
    split
    · next hanonymous henclosing hname =>
      obtain ⟨name, hname, -⟩ := Option.map_eq_some_iff.1 hname
      refine absurd hname (hout _ _ ?_ henclosing)
      rw [hkind, hanonymous]
      rfl
    · rfl

/-- Entering a node that declares no type records what the node says, and nothing else. -/
theorem enter (htype : namedType? n = none) :
    Recorded root (seen ++ [p]) ((enter ctx n s).unit info) := by
  by_cases hmethod : n.kind = .methodDeclaration
  · have heq : Extraction.enter ctx n s = Extraction.addMethod ctx n s := by
      rw [Extraction.enter, hmethod]
    rw [heq]
    exact addMethod hn h hstands hseen hmethod htype
  have hentry : methodRecord? root p = none :=
    methodRecord?_eq_none hn (if_neg fun hkind => hmethod (beq_iff_eq.1 hkind))
  by_cases hinvocation : n.kind = .methodInvocation
  · have heq : Extraction.enter ctx n s = Extraction.addInvocation ctx n s := by
      rw [Extraction.enter, hinvocation]
    rw [heq]
    exact addInvocation hn h hstands hseen hinvocation htype hentry
  by_cases hreference : n.kind = .methodReference
  · have heq : Extraction.enter ctx n s = Extraction.addReference ctx n s := by
      rw [Extraction.enter, hreference]
    rw [heq]
    exact addReference hn h hstands hseen hreference htype hentry
  have hcall : namedCall? n = none := by
    unfold namedCall?
    split
    · exact absurd ‹_› hinvocation
    · exact absurd ‹_› hreference
    · rfl
  exact (h.skip hn htype hentry hcall).enter_quiet hmethod hinvocation hreference

end Recorded

/-! ## The walk -/

section Cases

variable {n : Node} {ctx : Context} {parent : Kind} {s : State}

/-- The walk goes below a node as the visit does: only to the arguments of an annotation, and to
nothing below a type identifier. -/
theorem walked_eq (n : Node) :
    walked n = [] ::
      if isAnnotationUse n then walkedFirst .arguments 0 n.children
      else if n.kind == .typeIdentifier then []
      else walkedAll 0 n.children := by
  cases n
  rw [walked]
  rfl

theorem walked_of_type (h : (namedType? n).isSome = true) :
    walked n = [] :: walkedAll 0 n.children := by
  have hannotation : isAnnotationUse n = false := by
    rw [isAnnotationUse, beq_false_of_ne (kind_ne_of_type h rfl),
      beq_false_of_ne (kind_ne_of_type h rfl)]
    rfl
  rw [walked_eq, hannotation, beq_false_of_ne (kind_ne_of_type h rfl)]
  rfl

/-- The visit of a declared type: its children are visited inside it, with what is collected for it
sorted at the end. -/
theorem visit_of_type {kind : TypeKind} {name : String} (h : namedType? n = some (kind, name)) :
    visit ctx parent n s =
      (visitAll
        { ctx with
          enclosing := some s.types.length
          scopeName := some (ctx.qualify name)
          anonymous := false }
        n.kind n.children ((addType ctx kind name n s).openScope (typeScope n))).leaveType
          s.types.length := by
  unfold namedType? at h
  split at h
  · next hkind hname =>
    cases h
    cases n with
    | mk nodeKind role text line endLine children =>
      change typeKind? nodeKind = _ at hkind
      rw [visit, hkind, hname]
      rfl
  · cases h

theorem scopeOf?_classBody (h : n.kind = .classBody) :
    (scopeOf? parent n).isSome = holdsAnonymous parent := by
  rw [scopeOf?, h]
  change (if holdsAnonymous parent then some (memberScope n) else none).isSome = _
  cases holdsAnonymous parent <;> rfl

theorem inner_within (ctx : Context) (h : (scopeOf? parent n).isSome = true) :
    ctx.Inner parent n (ctx.within n) := by
  unfold Context.within
  split
  · next hbody =>
    refine ⟨rfl, rfl, ?_⟩
    rw [hbody, ← scopeOf?_classBody (beq_iff_eq.1 hbody), h]
    rfl
  · next hbody =>
    rw [Bool.not_eq_true] at hbody
    exact ⟨rfl, rfl, by rw [hbody]; rfl⟩

theorem inner_same (ctx : Context) (h : (scopeOf? parent n).isSome = false) :
    ctx.Inner parent n ctx := by
  refine ⟨rfl, rfl, ?_⟩
  cases hbody : n.kind == .classBody with
  | false => rfl
  | true =>
    rw [← scopeOf?_classBody (beq_iff_eq.1 hbody), h]
    rfl

/-- What the walk does with a node that declares no named type. -/
theorem visit_of_other (h : namedType? n = none) :
    visit ctx parent n s =
      if isAnnotationUse n then visitFirst ctx n.kind .arguments n.children (enter ctx n s)
      else if n.kind == .typeIdentifier then enter ctx n s
      else (scopeOf? parent n).elim (visitAll ctx n.kind n.children (enter ctx n s)) fun scope =>
        (visitAll (ctx.within n) n.kind n.children
          ((enter ctx n s).openScope scope)).closeScope := by
  unfold namedType? at h
  split at h
  · cases h
  · next hno =>
    cases n
    rw [visit]
    split
    · next hkind hname => exact (hno _ _ hkind hname).elim
    · cases scopeOf? parent _ <;> rfl

/-- It looks at the arguments of an annotation, at nothing of a type name, and at all children of any
other node. -/
theorem visit_cases (h : namedType? n = none) :
    (walked n = [] :: walkedFirst .arguments 0 n.children ∧ ctx.Inner parent n ctx ∧
      visit ctx parent n s = visitFirst ctx n.kind .arguments n.children (enter ctx n s)) ∨
    (walked n = [[]] ∧ visit ctx parent n s = enter ctx n s) ∨
    (walked n = [] :: walkedAll 0 n.children ∧ ∃ inner scopes, ctx.Inner parent n inner ∧
      ∀ info, (visit ctx parent n s).unit info =
        (visitAll inner n.kind n.children { enter ctx n s with scopes := scopes }).unit info) := by
  rw [visit_of_other h, walked_eq]
  split
  · next hannotation =>
    have hscope : scopeOf? parent n = none := by
      unfold isAnnotationUse at hannotation
      rcases Bool.or_eq_true_iff.1 hannotation with hkind | hkind
      all_goals rw [scopeOf?, beq_iff_eq.1 hkind]
    exact Or.inl ⟨rfl, inner_same ctx (by rw [hscope]; rfl), rfl⟩
  · split
    · exact Or.inr (Or.inl ⟨rfl, rfl⟩)
    · refine Or.inr (Or.inr ⟨rfl, ?_⟩)
      cases hscope : scopeOf? parent n with
      | some scope => exact ⟨_, _, inner_within ctx (by rw [hscope]; rfl), fun _ => rfl⟩
      | none => exact ⟨_, _, inner_same ctx (by rw [hscope]; rfl), fun _ => rfl⟩

end Cases

theorem map_cons_append (ps : List TreePlace) (p : TreePlace) (i : Nat) :
    (ps.map (i :: ·)).map (p ++ ·) = ps.map ((p ++ [i]) ++ ·) := by
  rw [List.map_map]
  exact List.map_congr_left fun q _ => List.append_cons p i q

/-- The place of a node comes first among those in it. -/
theorem append_map_cons (seen ps : List TreePlace) (p : TreePlace) :
    seen ++ ([] :: ps).map (p ++ ·) = seen ++ [p] ++ ps.map (p ++ ·) := by
  rw [List.map_cons, List.append_nil, List.append_cons]

section Walk

variable {root : Node} {info : UnitInfo}

mutual

/-- The walk over a node records the places in it. -/
theorem visit_recorded {ctx : Context} {parent : Kind} {p : TreePlace} {seen : List TreePlace}
    {s : State} : (n : Node) → root.at? p = some n → Stands root info.package seen ctx parent p →
    seen ++ (walked n).map (p ++ ·) <+: walked root → Recorded root seen (s.unit info) →
    Recorded root (seen ++ (walked n).map (p ++ ·)) ((visit ctx parent n s).unit info)
  | .mk kind role text line endLine children => by
    intro hn hstands hseen h
    have hchildren : ∀ k c, children[k]? = some c → root.at? (p ++ [0 + k]) = some c := by
      intro k c hc
      rw [Nat.zero_add, Node.at?_child hn]
      exact hc
    have hself : seen ++ [p] <+: walked root := by
      rw [walked, append_map_cons] at hseen
      exact (List.prefix_append _ _).trans hseen
    have hbefore : seen <+: walked root := (List.prefix_append _ _).trans hself
    cases htype : namedType? (.mk kind role text line endLine children) with
    | some type =>
      obtain ⟨typeKind, name⟩ := type
      have hat : (typeAt? root p).isSome = true := by rw [typeAt?_eq hn, htype]; rfl
      -- The type gets the next number, and that is the number of its place.
      have hbelow := hstands.typeChild hn htype
      rw [number_eq_length hself hat, ← h.length_types] at hbelow
      have hadded := Recorded.addType hn h hstands hbefore htype
      rw [walked_of_type (by rw [htype]; rfl), append_map_cons] at hseen ⊢
      rw [visit_of_type htype]
      refine Recorded.leaveType ?_ _
      exact visitAll_recorded children hchildren hbelow hseen hadded
    | none =>
      have hentered := Recorded.enter hn h hstands hbefore htype
      rcases visit_cases htype with ⟨hwalked, hinner, hvisit⟩ | ⟨hwalked, hvisit⟩ |
        ⟨hwalked, inner, scopes, hinner, hvisit⟩
      · rw [hwalked, append_map_cons] at hseen ⊢
        rw [hvisit]
        exact visitFirst_recorded children hchildren (hstands.otherChild hn htype hinner) hseen
          hentered
      · rw [hwalked, append_map_cons, List.map_nil, List.append_nil, hvisit]
        exact hentered
      · rw [hwalked, append_map_cons] at hseen ⊢
        rw [hvisit]
        exact visitAll_recorded children hchildren (hstands.otherChild hn htype hinner) hseen
          hentered

theorem visitAll_recorded {ctx : Context} {parent : Kind} {p : TreePlace} {seen : List TreePlace}
    {s : State} {i : Nat} : (ns : List Node) →
    (∀ k c, ns[k]? = some c → root.at? (p ++ [i + k]) = some c) →
    (∀ j, Stands root info.package seen ctx parent (p ++ [j])) →
    seen ++ (walkedAll i ns).map (p ++ ·) <+: walked root → Recorded root seen (s.unit info) →
    Recorded root (seen ++ (walkedAll i ns).map (p ++ ·)) ((visitAll ctx parent ns s).unit info)
  | [] => by
    intro _ _ _ h
    rw [walkedAll, List.map_nil, List.append_nil]
    exact h
  | n :: ns => by
    intro hns hstands hseen h
    rw [walkedAll, List.map_append, map_cons_append, ← List.append_assoc] at hseen ⊢
    have hupto := (List.prefix_append _ _).trans hseen
    have hfirst := visit_recorded n (hns 0 n rfl) (hstands i) hupto h
    refine visitAll_recorded ns (fun k c hc => ?_) (fun j => ?_) hseen hfirst
    · rw [Nat.add_assoc, Nat.add_comm 1 k]
      exact hns (k + 1) c hc
    · exact (hstands j).mono fun q hq => List.mem_append_left _ hq

theorem visitFirst_recorded {ctx : Context} {parent : Kind} {p : TreePlace} {seen : List TreePlace}
    {s : State} {wanted : Role} {i : Nat} : (ns : List Node) →
    (∀ k c, ns[k]? = some c → root.at? (p ++ [i + k]) = some c) →
    (∀ j, Stands root info.package seen ctx parent (p ++ [j])) →
    seen ++ (walkedFirst wanted i ns).map (p ++ ·) <+: walked root →
    Recorded root seen (s.unit info) →
    Recorded root (seen ++ (walkedFirst wanted i ns).map (p ++ ·))
      ((visitFirst ctx parent wanted ns s).unit info)
  | [] => by
    intro _ _ _ h
    rw [walkedFirst, List.map_nil, List.append_nil]
    exact h
  | n :: ns => by
    intro hns hstands hseen h
    rw [walkedFirst] at hseen ⊢
    rw [visitFirst]
    split at hseen
    · rw [if_pos ‹_›, if_pos ‹_›]
      rw [map_cons_append] at hseen ⊢
      exact visit_recorded n (hns 0 n rfl) (hstands i) hseen h
    · rw [if_neg ‹_›, if_neg ‹_›]
      refine visitFirst_recorded ns (fun k c hc => ?_) hstands hseen h
      rw [Nat.add_assoc, Nat.add_comm 1 k]
      exact hns (k + 1) c hc

end

/-- What is extracted from a tree is a record of all places of the tree, in the order of the walk.
-/
theorem ofTree_recorded (path : Path) (root : Node) :
    Recorded root (walked root) (SourceUnit.ofTree path root) := by
  have hstart : Stands root (unitInfo path root).package []
      ⟨path, (unitInfo path root).imports, none, (unitInfo path root).package, false⟩ .program [] :=
    ⟨rfl, rfl, rfl, rfl, fun q hq => hq⟩
  have hempty : Recorded root [] (State.start.unit (unitInfo path root)) := by
    refine ⟨⟨⟨rfl, rfl, rfl⟩, ?_, ?_, ?_, ?_, ?_⟩, rfl, rfl, rfl⟩
    all_goals exact fun x hx => absurd hx List.not_mem_nil
  have hall : [] ++ (walked root).map ([] ++ ·) = walked root := by
    rw [List.nil_append]
    exact List.map_id _
  have hupto : [] ++ (walked root).map ([] ++ ·) <+: walked root :=
    ⟨[], by rw [List.append_nil, hall]⟩
  have hvisit := visit_recorded root rfl hstart hupto hempty
  rw [hall] at hvisit
  exact hvisit

end Walk

end Code.Extraction

end Deadwood
