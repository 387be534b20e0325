import Deadwood.Proofs.Code.Built
import Deadwood.Proofs.Code.Visits
import Deadwood.Proofs.Usage.ClassMentions

/-!
# Types that calls are made on

The method scan takes the receivers of calls to types, the class scan goes by the type names that a
type mentions. Both come out of one walk over the syntax tree, which mentions the type name that a
call is made on in the type around the call (`Grown.addCall`) and never takes a mention back
(`Gains`). So the two agree: a type that a call from outside of it leads to is mentioned there, and
the class scan counts it as used (`called_type_used`).
-/

namespace Deadwood

namespace Code

/-- The type around the call, if there is one, mentions the type name that the call is made on. -/
def CallSite.MentionedIn (c : CallSite) (types : List TypeDecl) : Prop :=
  ∀ name, c.receiver = .type name → ∀ e ∈ c.enclosingType,
    ∃ t, types[e]? = some t ∧ name ∈ t.typeRefs

/-! ## The walk -/

namespace Extraction

/-- The types of `xs` are in the same places of `ys`, with more mentions at most. -/
def Gains (xs ys : List TypeDecl) : Prop :=
  ∀ (i : Nat) (t : TypeDecl), xs[i]? = some t →
    ∃ t' : TypeDecl, ys[i]? = some t' ∧ t.typeRefs ⊆ t'.typeRefs

namespace Gains

variable {xs ys zs : List TypeDecl}

theorem refl (xs : List TypeDecl) : Gains xs xs :=
  fun _ t ht => ⟨t, ht, List.Subset.refl _⟩

theorem trans (h : Gains xs ys) (h' : Gains ys zs) : Gains xs zs := by
  intro i t ht
  obtain ⟨t', ht', hsub⟩ := h i t ht
  obtain ⟨t'', ht'', hsub'⟩ := h' i t' ht'
  exact ⟨t'', ht'', List.Subset.trans hsub hsub'⟩

theorem concat (xs : List TypeDecl) (t : TypeDecl) : Gains xs (xs ++ [t]) :=
  fun _ t ht => ⟨t, getElem?_append_of_some ht _, List.Subset.refl _⟩

/-- A type that gains mentions in place keeps those that it had. -/
theorem modify {f : TypeDecl → TypeDecl} (hf : ∀ t, t.typeRefs ⊆ (f t).typeRefs)
    (xs : List TypeDecl) (id : TypeId) : Gains xs (xs.modify id f) := by
  intro i t ht
  rw [List.getElem?_modify, ht]
  refine ⟨_, rfl, ?_⟩
  dsimp only
  split
  · exact hf t
  · exact List.Subset.refl _

theorem lt_length (h : Gains xs ys) {i : Nat} (hi : i < xs.length) : i < ys.length := by
  obtain ⟨t', ht', -⟩ := h i _ (List.getElem?_eq_getElem hi)
  exact (List.getElem?_eq_some_iff.1 ht').1

/-- A call whose receiver is mentioned stays so while types gain mentions. -/
theorem mentionedIn (h : Gains xs ys) {c : CallSite} (hc : c.MentionedIn xs) :
    c.MentionedIn ys := by
  intro name hname e he
  obtain ⟨t, ht, hmem⟩ := hc name hname e he
  obtain ⟨t', ht', hsub⟩ := h e t ht
  exact ⟨t', ht', hsub hmem⟩

end Gains

/-- From `s` to `t`, types only gained mentions, and the calls that were added are made on type names
that the types around them mention. -/
structure Grown (s t : State) : Prop where
  types : Gains s.types t.types
  calls : ∀ c ∈ t.calls, c ∈ s.calls ∨ c.MentionedIn t.types

namespace Grown

variable {ctx : Context} {s t u : State}

theorem of_calls_eq (htypes : Gains s.types t.types) (hcalls : t.calls = s.calls) : Grown s t :=
  ⟨htypes, fun _ hc => Or.inl (hcalls ▸ hc)⟩

theorem trans (h : Grown s t) (h' : Grown t u) : Grown s u where
  types := h.types.trans h'.types
  calls c hc := by
    rcases h'.calls c hc with hc | hc
    · exact (h.calls c hc).imp_right h'.types.mentionedIn
    · exact Or.inr hc

theorem declare (bound : List (String × Option String)) (s : State) :
    Grown s (bound.foldl (fun s b => s.declare b.1 b.2) s) := by
  induction bound generalizing s with
  | nil => exact of_calls_eq (.refl _) rfl
  | cons b bound ih =>
    have hfirst : Grown s (s.declare b.1 b.2) := of_calls_eq (.refl _) rfl
    exact hfirst.trans (ih (s.declare b.1 b.2))

/-- A mention adds to the type around it and leaves the calls. -/
theorem mention (ctx : Context) (name : String) (s : State) :
    Grown s (mention ctx name s) := by
  unfold Extraction.mention
  split
  · exact of_calls_eq (.refl _) rfl
  · refine of_calls_eq (Gains.modify (fun t x hx => ?_) s.types _) rfl
    exact List.mem_append_left _ hx

theorem addMethod (ctx : Context) (n : Java.Node) (s : State) : Grown s (addMethod ctx n s) := by
  unfold Extraction.addMethod
  split
  · refine of_calls_eq ?_ rfl
    change Gains s.types (s.types.modify _ _)
    refine .modify (fun t => ?_) s.types _
    exact List.Subset.refl t.typeRefs
  · exact of_calls_eq (.refl _) rfl

/-- Sorting what a type mentions loses nothing. -/
theorem leaveType (s : State) (id : TypeId) : Grown s (s.leaveType id) :=
  of_calls_eq (.modify (fun _ _ hx => mem_sortedSet.2 hx) s.types id) rfl

/-- After the mention of a name, the enclosing type mentions it. -/
theorem getElem?_mention {e : TypeId} (he : ctx.enclosing = some e) (hlt : e < s.types.length)
    (name : String) :
    ∃ t, (Extraction.mention ctx name s).types[e]? = some t ∧ name ∈ t.typeRefs := by
  have htypes : (Extraction.mention ctx name s).types =
      s.types.modify e fun t => { t with typeRefs := t.typeRefs ++ [name] } := by
    rw [Extraction.mention, he]
    rfl
  rw [htypes, List.getElem?_modify_eq, List.getElem?_eq_getElem hlt]
  exact ⟨_, rfl, List.mem_append_right _ (List.mem_singleton_self name)⟩

/-- The type name that a call is made on is mentioned before the call is added. -/
theorem addCall (hctx : ∀ e ∈ ctx.enclosing, e < s.types.length) (kind : CallKind) (name : String)
    (args : Option Nat) (recv : Receiver) (line : Nat) :
    Grown s (addCall ctx kind name args recv line s) := by
  -- Either way the call is the only new one; only a call on a type name has anything to show.
  have hpush : ∀ mentioned : State, Grown s mentioned →
      (∀ type, recv = .type type → mentioned = Extraction.mention ctx type s) →
      Grown s { mentioned with calls := mentioned.calls ++ [⟨mentioned.calls.length, kind, name,
        args, recv, ctx.enclosing, 0, line, none⟩] } := by
    intro mentioned hgrown hmention
    refine ⟨hgrown.types, fun c hc => ?_⟩
    rcases List.mem_append.1 hc with hc | hc
    · exact hgrown.calls c hc
    · cases List.mem_singleton.1 hc
      refine Or.inr fun type htype e he => ?_
      cases hmention type htype
      exact getElem?_mention he (hctx e he) type
  cases recv with
  | type type => exact hpush _ (.mention ctx type s) fun _ h => by cases h; rfl
  | _ => exact hpush s (of_calls_eq (.refl _) rfl) fun _ h => by cases h

end Grown

/-- Whatever is visited, the state grows, as long as the type around it has been collected. -/
theorem visits_grown :
    Visits fun ctx s t => (∀ e ∈ ctx.enclosing, e < s.types.length) → Grown s t where
  trans hst htu hctx := by
    have hgrown := hst hctx
    exact hgrown.trans (htu fun e he => hgrown.types.lt_length (hctx e he))
  enter hentered hctx := by
    cases hentered with
    | declares bound => exact .declare bound _
    | mentions name => exact .mention _ name _
    | calls kind name args recv line => exact .addCall hctx kind name args recv line
    | method => exact .addMethod _ _ _
  inType {ctx kind name n s t} hinner _ := by
    have hlast : ∀ e ∈ (ctx.inType name s).enclosing,
        e < (addType ctx kind name n s).types.length := by
      rintro _ ⟨⟩
      exact List.length_append ▸ Nat.lt_succ_self _
    have hadded : Grown s ((addType ctx kind name n s).openScope (typeScope n)) :=
      .of_calls_eq (.concat _ _) rfl
    exact (hadded.trans (hinner hlast)).trans (.leaveType t _)
  inScope {ctx n scope s t} hinner hctx := by
    have hgrown : Grown (s.openScope scope) t := hinner fun e he => by
      rw [within_enclosing] at he
      exact hctx e he
    exact ⟨hgrown.types, hgrown.calls⟩

/-- Every call on a type name that is extracted from a tree is mentioned by the type around it. -/
theorem ofTree_mentionedIn (path : Path) (root : Java.Node) :
    ∀ c ∈ (SourceUnit.ofTree path root).calls,
      c.MentionedIn (SourceUnit.ofTree path root).types := by
  have hgrown : Grown .start (visit ⟨path, (unitInfo path root).imports, none,
      (unitInfo path root).package, false⟩ .program root .start) :=
    visits_grown.visit root fun e he => by cases he
  exact fun c hc => (hgrown.calls c hc).resolve_left List.not_mem_nil

end Extraction

/-! ## The model -/

theorem SourceUnit.Extracted.mentionedIn {u : SourceUnit} (h : u.Extracted) :
    ∀ c ∈ u.calls, c.MentionedIn u.types := by
  obtain ⟨path, root, rfl⟩ := h
  exact Extraction.ofTree_mentionedIn path root

namespace Model

/-- The type around each call lies in the same file and mentions the type name that the call is made
on. -/
def MentionsReceivers (m : Model) : Prop :=
  ∀ c ∈ m.calls, ∀ name, c.receiver = .type name → ∀ e ∈ c.enclosingType,
    ∃ t, m.types[e]? = some t ∧ t.unit = c.unit ∧ name ∈ t.typeRefs

/-- Adding a file shifts types and calls alike, so that each call stays with its type. -/
theorem MentionsReceivers.append {m : Model} {u : SourceUnit} (h : m.MentionsReceivers)
    (hu : ∀ c ∈ u.calls, c.MentionedIn u.types) : (m.append u).MentionsReceivers := by
  intro c hc name hname e he
  rw [append_calls] at hc
  rw [append_types]
  rcases List.mem_append.1 hc with hc | hc
  · obtain ⟨t, ht, hunit, hmem⟩ := h c hc name hname e he
    exact ⟨t, getElem?_append_of_some ht _, hunit, hmem⟩
  · -- The call and the type around it were shifted together, into the same file.
    obtain ⟨old, hold, rfl⟩ := mem_shiftedCalls.1 hc
    obtain ⟨o, ho, rfl⟩ := Option.map_eq_some_iff.1 he
    obtain ⟨t, ht, hmem⟩ := hu old hold name hname o ho
    refine ⟨t.shift m.units.length m.types.length m.methods.length, ?_, rfl, hmem⟩
    rw [List.getElem?_append_right (Nat.le_add_left ..), Nat.add_sub_cancel, shiftedTypes,
      List.getElem?_map, ht]
    rfl

theorem MentionsReceivers.bindCalls {m : Model} (h : m.MentionsReceivers) :
    m.bindCalls.MentionsReceivers := by
  intro c hc
  obtain ⟨old, hold, rfl⟩ := List.mem_map.1 hc
  exact h old hold

/-- So it is in every model that is built from trees. -/
theorem Reached.mentionsReceivers {m : Model} (h : Reached SourceUnit.Extracted m) :
    m.MentionsReceivers := by
  refine h.keeps ?_ (fun _ _ hu hm => hm.append hu.mentionedIn) fun _ hm => hm.bindCalls
  intro c hc
  cases hc

/-- A call on a type name is bound through the type that the name has where the call stands. -/
theorem exists_target_of_bind? {m : Model} {c : CallSite} {name : String} {method : MethodId}
    (hname : c.receiver = .type name) (hbind : m.bind? c = some method) :
    ∃ target, m.resolveIn? name c.unit c.enclosingType = some target ∧
      m.findMethods target c.methodName c.arity = [method] := by
  have honly : m.deciding c = [method] := by
    unfold bind? at hbind
    split at hbind
    · cases hbind
      assumption
    · cases hbind
  rw [deciding, hname] at honly
  cases htarget : m.resolveIn? name c.unit c.enclosingType with
  | none =>
    simp only [htarget] at honly
    cases honly
  | some target =>
    simp only [htarget] at honly
    exact ⟨target, rfl, honly⟩

end Model

end Code

/-! ## The class scan -/

namespace Usage

open Code

/-- A type that is used makes no finding, in whatever batch it is. -/
theorem ClassUse.unusedIn_filter_of_used {use : ClassUse} {target : TypeId}
    (h : use.isUsed target = true) (batch : List TypeId) :
    use.unusedIn batch = use.unusedIn (batch.filter (· != target)) := by
  rw [unusedIn, unusedIn, List.filter_filter]
  refine congrArg (List.filterMap use.finding?) (List.filter_congr fun id _ => ?_)
  by_cases hid : id = target
  · rw [hid, h]
    rfl
  · rw [bne_iff_ne.2 hid, Bool.and_true]

/-- A call on a type makes the type around the call mention that type. -/
theorem mentions_of_call {m : Model} (hm : m.Arena) (h : m.MentionsReceivers) {c : CallSite}
    (hc : c ∈ m.calls) {name : String} (hname : c.receiver = .type name) {source target : TypeId}
    (hsource : c.enclosingType = some source)
    (htarget : m.resolveIn? name c.unit (some source) = some target) :
    ∃ s ∈ m.types, s.id = source ∧ Mentions m s target := by
  obtain ⟨s, hs, hunit, hmem⟩ := h c hc name hname source hsource
  have hid : s.id = source := number_eq hm.type_ids hs
  refine ⟨s, List.mem_of_getElem? hs, hid, name, hmem, ?_⟩
  rw [hid, Model.resolve?, hs, Option.bind_some, hunit]
  exact htarget

/-- **Types that calls are made on are used.** Whatever syntax trees the files were made of: where a
call inside the type `source` is made on a type name, the type that the name has there is used,
unless it is `source` itself or a type around it, and then no finding of any batch is due to it. A
call that is bound is bound through that type. -/
theorem called_type_used {m : Model} (h : m.Reached SourceUnit.Extracted) (policy : Policy)
    {c : CallSite} (hc : c ∈ m.calls) {name : String} (hname : c.receiver = .type name)
    {source : TypeId} (hsource : c.enclosingType = some source) :
    let use := ClassUse.ofModel m policy
    (∀ target, m.resolveIn? name c.unit (some source) = some target → target ≠ source →
      ¬ m.Inside source target →
      use.isUsed target = true ∧
        ∀ batch, use.unusedIn batch = use.unusedIn (batch.filter (· != target))) ∧
    ∀ method, m.bind? c = some method →
      ∃ target, m.resolveIn? name c.unit (some source) = some target ∧
        m.findMethods target c.methodName c.arity = [method] := by
  intro use
  have hm : m.Arena := (h.mono fun _ hu => hu.shaped).arena
  refine ⟨fun target htarget hne hout => ?_, fun method hbind => ?_⟩
  · obtain ⟨s, hs, hid, hmention⟩ :=
      mentions_of_call hm h.mentionsReceivers hc hname hsource htarget
    have hused : use.isUsed target = true := by
      refine (ClassUse.isUsed_iff hm).2 ⟨s, hs, hmention, ?_⟩
      rw [hid]
      exact ⟨hne.symm, hout⟩
    exact ⟨hused, ClassUse.unusedIn_filter_of_used hused⟩
  · rw [← hsource]
    exact Model.exists_target_of_bind? hname hbind

/-- A class `Shop` with a class `Desk` in it, which has the call `(Bank).open()`. -/
def Sample.shop : Java.Node :=
  let node kind role children : Java.Node := .mk kind role "" 1 1 children
  let name role text : Java.Node := .mk .identifier (some role) text 1 1 []
  let call := node .methodInvocation none
    [node .parenthesized (some .object) [name .object "Bank"], name .name "open"]
  node .classDeclaration none
    [name .name "Shop", node .classDeclaration none [name .name "Desk", call]]

/-- A class `Bank` with a method `open`. -/
def Sample.bank : Java.Node :=
  let name text : Java.Node := .mk .identifier (some .name) text 1 1 []
  .mk .classDeclaration none "" 1 1
    [name "Bank", .mk .methodDeclaration none "" 1 1 [name "open"]]

/-- The call leads from `Desk`, with number 1, to `Bank`, with number 2, so `Bank` is used. -/
theorem called_type_used_sample :
    let shop := SourceUnit.ofTree ⟨"Shop.java"⟩ Sample.shop
    let bank := SourceUnit.ofTree ⟨"Bank.java"⟩ Sample.bank
    let m := ((Edit.addUnit bank false).run.run ((Edit.addUnit shop false).run.run .empty).2).2
    let use := ClassUse.ofModel m .builtIn
    m.Reached SourceUnit.Extracted ∧ ∃ c ∈ m.calls, c.receiver = .type "Bank" ∧
      c.enclosingType = some 1 ∧ m.resolveIn? "Bank" c.unit (some 1) = some 2 ∧
      use.isUsed 2 = true ∧ use.unusedIn [0, 1, 2] = use.unusedIn [0, 1] ∧
      m.bind? c = some 0 ∧ m.findMethods 2 "open" (some 0) = [0] := by
  intro shop bank m use
  have hreached : m.Reached SourceUnit.Extracted :=
    .add false (.add false .empty ⟨_, _, rfl⟩) ⟨_, _, rfl⟩
  have hcall : ∃ c ∈ m.calls, c.receiver = .type "Bank" ∧ c.enclosingType = some 1 ∧
      m.resolveIn? "Bank" c.unit (some 1) = some 2 ∧ m.bind? c = some 0 ∧
      c.methodName = "open" ∧ c.arity = some 0 := by
    decide +kernel
  obtain ⟨c, hc, hname, hsource, htarget, hbind, hmethod, harity⟩ := hcall
  obtain ⟨hused, hbound⟩ := called_type_used hreached .builtIn hc hname hsource
  have hm : m.Arena := (hreached.mono fun _ hu => hu.shaped).arena
  have hout : ¬ m.Inside 1 2 := fun hin => absurd (hin.lt hm) (by decide)
  obtain ⟨hbank, hbatch⟩ := hused 2 htarget (by decide) hout
  obtain ⟨target, htarget', hfound⟩ := hbound 0 hbind
  cases htarget.symm.trans htarget'
  rw [hmethod, harity] at hfound
  exact ⟨hreached, c, hc, hname, hsource, htarget, hbank, hbatch [0, 1, 2], hbind, hfound⟩

end Usage

end Deadwood
