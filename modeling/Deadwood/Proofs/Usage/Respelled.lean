import Deadwood.Proofs.Java.Spellings
import Deadwood.Proofs.Usage.Dispatch
import Mathlib.Data.List.Forall2

/-!
# Calls do not see how parameter types are spelled

Signatures are compared by simple types, so nothing changes for a call when the parameters of a
model's methods are `simplified`: every written type gives way to its simple name, which is its own
simple name. Each question that following a call asks of a model gives the same answer on the
simplified one, down to the number that it fails on. Models whose parameter types are spelled
differently simplify to the same model (`Model.Respelled.simplified_eq`), and so the same methods are
used in both.
-/

namespace Deadwood

open Java

/-- Lists that are related item by item look the same to what does not see the relation. -/
theorem map_eq_of_forall₂ {α β : Type} {R : α → α → Prop} {f : α → β} {xs ys : List α}
    (hf : ∀ x y, R x y → f y = f x) (h : List.Forall₂ R xs ys) : ys.map f = xs.map f := by
  induction h with
  | nil => rfl
  | cons hxy _ ih => rw [List.map_cons, List.map_cons, hf _ _ hxy, ih]

namespace Code

/-! ## Simplified declarations -/

/-- The parameter with its simple type in place of the written one. -/
def Parameter.simplified (p : Parameter) : Parameter :=
  { p with typeName := p.simpleType }

def MethodDecl.simplified (d : MethodDecl) : MethodDecl :=
  { d with parameters := d.parameters.map Parameter.simplified }

def Model.simplified (m : Model) : Model :=
  { m with methods := m.methods.map MethodDecl.simplified }

/-- The simple types stay, as a simple name is its own simple name. -/
theorem MethodDecl.simpleTypes_simplified (d : MethodDecl) :
    d.simplified.simpleTypes = d.simpleTypes := by
  simp only [simpleTypes, simplified, List.map_map]
  refine List.map_congr_left fun p _ => ?_
  exact simpleTypeName_simpleTypeName p.typeName

/-- Signatures are compared by simple types, so methods agree in them exactly if their simplified
forms do. -/
theorem MethodDecl.sameSignature_simplified (d e : MethodDecl) :
    d.simplified.sameSignature e.simplified = d.sameSignature e := by
  simp only [sameSignature, simpleTypes_simplified]
  rfl

/-! ## Respelled declarations -/

/-- The same parameter with another spelling of its type. -/
structure Parameter.Respelled (p q : Parameter) : Prop where
  name_eq : q.name = p.name
  type : Respells p.typeName q.typeName

/-- The same method with other spellings of its parameter types. -/
structure MethodDecl.Respelled (d e : MethodDecl) : Prop where
  rest : e = { d with parameters := e.parameters }
  parameters : List.Forall₂ Parameter.Respelled d.parameters e.parameters

/-- The same model with other spellings of the parameter types of its methods. -/
structure Model.Respelled (m n : Model) : Prop where
  rest : n = { m with methods := n.methods }
  methods : List.Forall₂ MethodDecl.Respelled m.methods n.methods

/-- The same call, where a variable that it is invoked on has another spelling of its type. -/
inductive CallSite.Respelled (c : CallSite) : CallSite → Prop where
  | same : Respelled c c
  | onVariable {name type type' : String} (hreceiver : c.receiver = .variable name (some type))
    (h : Respells type type') : Respelled c { c with receiver := .variable name (some type') }

theorem Parameter.Respelled.simplified_eq {p q : Parameter} (h : p.Respelled q) :
    q.simplified = p.simplified := by
  simp only [Parameter.simplified, Parameter.simpleType, h.name_eq, h.type.simple_eq]

theorem MethodDecl.Respelled.simplified_eq {d e : MethodDecl} (h : d.Respelled e) :
    e.simplified = d.simplified := by
  have hparameters := map_eq_of_forall₂ (fun _ _ hp => hp.simplified_eq) h.parameters
  rw [h.rest]
  simp only [simplified, hparameters]

/-- Models that differ in the spelling of parameter types simplify to one model, which is what makes
the simplified form a normal form of them. -/
theorem Model.Respelled.simplified_eq {m n : Model} (h : m.Respelled n) :
    n.simplified = m.simplified := by
  have hmethods := map_eq_of_forall₂ (fun _ _ hd => hd.simplified_eq) h.methods
  rw [h.rest]
  simp only [simplified, hmethods]

/-- Methods whose parameter types are pairwise spellings of one type have the same signature. -/
theorem MethodDecl.sameSignature_of_respells {d e : MethodDecl} (hname : d.name = e.name)
    (h : List.Forall₂ (fun p q => Respells p.typeName q.typeName) d.parameters e.parameters) :
    d.sameSignature e = true := by
  have htypes : e.simpleTypes = d.simpleTypes :=
    map_eq_of_forall₂ (fun _ _ hpq => Respells.simple_eq hpq) h
  simp [sameSignature, hname, htypes]

/-- Other spellings on either side do not change whether two signatures agree. -/
theorem MethodDecl.Respelled.sameSignature_eq {d d' e e' : MethodDecl} (hd : d.Respelled d')
    (he : e.Respelled e') : d'.sameSignature e' = d.sameSignature e := by
  rw [← sameSignature_simplified, hd.simplified_eq, he.simplified_eq, sameSignature_simplified]

/-! ## Names in a simplified model -/

namespace Model

theorem methods_simplified (m : Model) (id : MethodId) :
    m.simplified.methods[id]? = m.methods[id]?.map MethodDecl.simplified :=
  List.getElem?_map

theorem enclosingFrom_simplified (m : Model) (fuel : Nat) (id : TypeId) :
    m.simplified.enclosingFrom fuel id = m.enclosingFrom fuel id := by
  induction fuel generalizing id with
  | zero => rfl
  | succ fuel ih =>
    simp only [enclosingFrom, ih]
    rfl

/-- No name is resolved through a parameter. -/
theorem resolve?_simplified (m : Model) (written : String) (scope : TypeId) :
    m.simplified.resolve? written scope = m.resolve? written scope := by
  have hchain : m.simplified.enclosingChain (some scope) = m.enclosingChain (some scope) :=
    m.enclosingFrom_simplified m.types.length scope
  simp only [resolve?, resolveIn?, lookUp?, hchain]
  rfl

end Model

end Code

/-! ## Calls in a simplified model -/

namespace Usage

open Code

/-- The names of supertypes are collected over types only, and those are the same in both models. -/
theorem superNamesFrom_simplified (m : Model) (unseen stack : List TypeId) :
    superNamesFrom m.simplified unseen stack = superNamesFrom m unseen stack := by
  have htypes : writtenSuperTypes m.simplified = writtenSuperTypes m := by
    funext id
    simp only [writtenSuperTypes, Model.resolve?_simplified]
    rfl
  fun_induction superNamesFrom m unseen stack with
  | case1 => rw [superNamesFrom]
  | case2 unseen id stack hid ih =>
    rw [superNamesFrom, dif_pos hid, htypes, ih]
    rfl
  | case3 unseen id stack hid ih => rw [superNamesFrom, dif_neg hid, ih]

/-- The types that a name is implemented by are registered alike. -/
theorem implementers_simplified (m : Model) (policy : Policy) :
    Implementers.ofModel m.simplified policy = Implementers.ofModel m policy := by
  have hadd : Implementers.add m.simplified = Implementers.add m := by
    funext index t
    rw [Implementers.add, Implementers.add, reachableNames, superNamesFrom_simplified]
    rfl
  rw [Implementers.ofModel, Implementers.ofModel, hadd]
  rfl

/-- Methods are keyed by owner, name and number of parameters, not by the types of these. -/
theorem signatures_simplified (m : Model) : signatures m.simplified = signatures m := by
  have hkey : ∀ d : MethodDecl, methodKey m.simplified d.simplified = methodKey m d := by
    intro d
    simp only [methodKey, MethodDecl.simplified, List.length_map]
    rfl
  have hmethods : m.simplified.methods = m.methods.map MethodDecl.simplified := rfl
  rw [signatures, hmethods, List.foldl_map]
  simp only [hkey]
  rfl

namespace MethodUse

/-- The same use of a model whose declarations are simplified. -/
def simplified (u : MethodUse) : MethodUse :=
  { u with model := u.model.simplified }

theorem ofModel_simplified (m : Model) (policy : Policy) :
    ofModel m.simplified policy = (ofModel m policy).simplified := by
  rw [ofModel, signatures_simplified, implementers_simplified]
  rfl

variable (u : MethodUse) (c : CallSite)

theorem methods_simplified (id : MethodId) :
    u.simplified.model.methods[id]? = u.model.methods[id]?.map MethodDecl.simplified :=
  u.model.methods_simplified id

theorem ownerName?_simplified (id : MethodId) : u.simplified.ownerName? id = u.ownerName? id := by
  rw [ownerName?, ownerName?, methods_simplified]
  cases u.model.methods[id]? <;> rfl

theorem resolve?_simplified : u.simplified.resolve? c = u.resolve? c :=
  rfl

theorem skips_simplified : u.simplified.skips c = u.skips c := by
  have hknown : u.simplified.knownType? c = u.knownType? c := by
    simp only [knownType?, ownerName?_simplified]
    rfl
  rw [skips, hknown]
  rfl

theorem dispatchNames_simplified (method : MethodId) :
    u.simplified.dispatchNames c method = u.dispatchNames c method := by
  rw [dispatchNames, ownerName?_simplified]
  rfl

/-- The method of a type that overrides a target is found by comparing signatures with it, which is
the one place where a call sees parameter types. -/
theorem overriding?_simplified (target : MethodDecl) :
    u.simplified.overriding? target.simplified = u.overriding? target := by
  funext type
  simp only [overriding?, methods_simplified, Option.any_map,
    MethodDecl.sameSignature_simplified]
  rfl

theorem dispatched_simplified (method : MethodId) :
    u.simplified.dispatched c method = u.dispatched c method := by
  rw [dispatched, dispatched, methods_simplified, dispatchNames_simplified]
  cases u.model.methods[method]? with
  | none => rfl
  | some target =>
    simp only [Option.map_some, overriding?_simplified]
    rfl

theorem usedBy_simplified : u.simplified.usedBy c = u.usedBy c := by
  simp only [usedBy, skips_simplified, resolve?_simplified, dispatched_simplified]

theorem used_simplified : u.simplified.used = u.used := by
  have husedBy : u.simplified.usedBy = u.usedBy := funext u.usedBy_simplified
  rw [used, husedBy]
  rfl

/-! ## With checked numbers -/

theorem methodAt_simplified (id : MethodId) :
    u.simplified.model.methodAt id = MethodDecl.simplified <$> u.model.methodAt id := by
  rw [Model.methodAt, Model.methodAt, methods_simplified]
  cases u.model.methods[id]? <;> rfl

theorem checkMethod_simplified (id : MethodId) :
    u.simplified.checkMethod id = MethodDecl.simplified <$> u.checkMethod id := by
  simp only [checkMethod, methodAt_simplified, bind_map_left, map_bind, map_pure]
  rfl

theorem checkKnown_simplified : u.simplified.checkKnown c = u.checkKnown c := by
  unfold checkKnown
  cases c.binding with
  | none => cases c.receiver <;> rfl
  | some bound => simp only [checkMethod_simplified, bind_map_left]

theorem checkResolve_simplified : u.simplified.checkResolve c = u.checkResolve c := by
  have himports : ∀ ids, u.simplified.checkImports c ids = u.checkImports c ids := by
    intro ids
    induction ids with
    | nil => rfl
    | cons id ids ih =>
      simp only [checkImports, ih]
      rfl
  simp only [checkResolve, himports]
  rfl

/-- The search for an overriding method reads the same numbers, and stops at the same one that is
out of range. -/
theorem checkOverriding_simplified (target : MethodDecl) (ids : List MethodId) :
    u.simplified.checkOverriding target.simplified ids = u.checkOverriding target ids := by
  induction ids with
  | nil => rfl
  | cons id ids ih =>
    simp only [checkOverriding, methodAt_simplified, bind_map_left,
      MethodDecl.sameSignature_simplified, ih]

theorem checkDispatch_simplified (method : MethodId) :
    u.simplified.checkDispatch c method = u.checkDispatch c method := by
  simp only [checkDispatch, checkMethod_simplified, bind_map_left, dispatchNames_simplified,
    checkOverriding_simplified]
  rfl

/-- Following a call gives the same methods, or fails on the same number. -/
theorem usedByCall_simplified (id : CallId) : u.simplified.usedByCall id = u.usedByCall id := by
  simp only [usedByCall, checkKnown_simplified, skips_simplified, checkResolve_simplified,
    resolve?_simplified, checkDispatch_simplified, usedBy_simplified]
  rfl

/-- So does following the calls of a batch. -/
theorem usedByBatch_simplified (ids : List CallId) :
    u.simplified.usedByBatch ids = u.usedByBatch ids := by
  have hcalls : u.simplified.usedByCall = u.usedByCall := funext u.usedByCall_simplified
  rw [usedByBatch, usedByBatch, hcalls]

/-! ## Calls on a respelled variable -/

section Calls

variable {u : MethodUse} {c c' : CallSite} (h : c.Respelled c')

include h

/-- Implementers are sought under the last segment of a variable's type, which all its spellings
share. -/
theorem dispatchNames_respelled (method : MethodId) :
    u.dispatchNames c' method = u.dispatchNames c method := by
  cases h with
  | same => rfl
  | @onVariable name type type' hreceiver htype =>
    have hshort : u.staticType? c = some type := by
      simp only [staticType?, CallSite.staticType?, hreceiver]
    have hlong : u.staticType? { c with receiver := .variable name (some type') } = some type' :=
      rfl
    rw [dispatchNames, dispatchNames, hshort, hlong, Option.map_some, Option.map_some,
      htype.lastSegment_eq]

theorem dispatched_respelled (method : MethodId) :
    u.dispatched c' method = u.dispatched c method := by
  rw [dispatched, dispatched, dispatchNames_respelled h]

/-- The same holds with checked numbers: a spelling is only read through the names that are sought.
-/
theorem checkDispatch_respelled (method : MethodId) :
    u.checkDispatch c' method = u.checkDispatch c method := by
  have hnames := dispatchNames_respelled (u := u) h method
  cases h with
  | same => rfl
  | onVariable hreceiver htype =>
    simp only [checkDispatch, hnames, hreceiver]
    rfl

end Calls

end MethodUse

/-! ## Spellings do not matter -/

/-- **The spelling of a type does not matter.** Generic arguments whose brackets pair off are passed
over wherever they stand, and so is a qualification in front of a type that does not begin with a
dot. Both forms are normal forms: taking them twice changes nothing, and a text is its own form
exactly if there is nothing in it to take away. So methods whose parameter types are spellings of
the same types have the same signature, and other spellings, in the declarations of a model or of
the variable of a call, change neither the methods that a call reaches through implementers nor
those that calls use, nor the number that following a call fails on. -/
theorem spelling_indifferent :
    (∀ front inner back : String, IsBalanced inner.toList →
      eraseGenerics (front ++ "<" ++ inner ++ ">" ++ back) = eraseGenerics (front ++ back)) ∧
    (∀ type, eraseGenerics (eraseGenerics type) = eraseGenerics type ∧
      (eraseGenerics type = type ↔ IsBare type.toList)) ∧
    (∀ type, simpleTypeName (simpleTypeName type) = simpleTypeName type ∧
      (simpleTypeName type = type ↔ IsBare type.toList ∧ IsSimple type.toList)) ∧
    (∀ scope type : String, IsQualifier scope → IsQualifiable type →
      simpleTypeName (scope ++ "." ++ type) = simpleTypeName type) ∧
    (∀ d e : MethodDecl, d.name = e.name →
      List.Forall₂ (fun p q => Respells p.typeName q.typeName) d.parameters e.parameters →
      d.sameSignature e = true) ∧
    (∀ d d' e e' : MethodDecl, d.Respelled d' → e.Respelled e' →
      d'.sameSignature e' = d.sameSignature e) ∧
    ∀ (m m' : Model) (policy : Policy), m.Respelled m' →
      let use := MethodUse.ofModel m policy
      let use' := MethodUse.ofModel m' policy
      (∀ c c' : CallSite, c.Respelled c' → ∀ method,
        use'.checkDispatch c' method = use.checkDispatch c method ∧
        use'.dispatched c' method = use.dispatched c method) ∧
      (∀ ids, use'.usedByBatch ids = use.usedByBatch ids) ∧
      use'.used = use.used := by
  refine ⟨fun front inner back h => eraseGenerics_arguments h front back,
    fun type => ⟨eraseGenerics_eraseGenerics type, eraseGenerics_eq_self_iff type⟩,
    fun type => ⟨simpleTypeName_simpleTypeName type, simpleTypeName_eq_self_iff type⟩,
    fun scope type => simpleTypeName_qualified,
    fun d e => MethodDecl.sameSignature_of_respells,
    fun d d' e e' => MethodDecl.Respelled.sameSignature_eq, fun m m' policy h => ?_⟩
  intro use use'
  -- both models simplify to the same one, and no question sees the difference to it
  have hsame : use'.simplified = use.simplified := by
    rw [← MethodUse.ofModel_simplified, ← MethodUse.ofModel_simplified, h.simplified_eq]
  refine ⟨fun c c' hc method => ⟨?_, ?_⟩, fun ids => ?_, ?_⟩
  · rw [← use'.checkDispatch_simplified, hsame, use.checkDispatch_simplified,
      MethodUse.checkDispatch_respelled hc]
  · rw [← use'.dispatched_simplified, hsame, use.dispatched_simplified,
      MethodUse.dispatched_respelled hc]
  · rw [← use'.usedByBatch_simplified, hsame, use.usedByBatch_simplified]
  · rw [← use'.used_simplified, hsame, use.used_simplified]

namespace Sample

/-- A call on a variable of the type `shape` as written, bound to the first method. -/
def drawingCall (shape : String) : CallSite where
  id := 0
  kind := .invocation
  methodName := "area"
  argCount := some 1
  receiver := .variable "s" (some shape)
  enclosingType := none
  unit := 0
  line := 1
  binding := some 0

/-- A method of the type with its number, whose parameter has a type as written. -/
def drawingMethod (id : MethodId) (points : String) : MethodDecl :=
  { Code.Sample.method id id with parameters := [⟨"points", points⟩] }

/-- An interface and a class that implements it, with a method each, and a call of the method of the
interface. -/
def drawing (above below : String) : Model where
  units := []
  types := [
    { Code.Sample.type 0 "Shape" [0] with kind := .interface, interfaces := [] },
    Code.Sample.type 1 "Square" [1]]
  methods := [drawingMethod 0 above, drawingMethod 1 below]
  calls := [drawingCall "Shape"]
  qualified := [("a.Shape", 0), ("a.Square", 1)]
  simple := [("Shape", [0]), ("Square", [1])]

/-- The call of the interface's method reaches the class, where both are written plainly. -/
theorem drawing_dispatched :
    1 ∈ (MethodUse.ofModel (drawing "List..." "List...") .builtIn).dispatched
      (drawingCall "Shape") 0 := by
  have hname : "Shape" ∈ reachableNames (drawing "List..." "List...")
      (Code.Sample.type 1 "Square" [1]) :=
    List.mem_cons_of_mem _ (mem_superNamesFrom (a := 1) List.mem_cons_self (by decide) .refl
      (by decide +kernel))
  have hreached : 1 ∈ (Implementers.ofModel (drawing "List..." "List...") .builtIn).reachedBy
      "Shape" :=
    Implementers.mem_reachedBy.2 ⟨Code.Sample.type 1 "Square" [1], by simp [drawing],
      by decide +kernel, hname, rfl⟩
  exact List.mem_filterMap.2 ⟨1, List.mem_flatMap.2 ⟨"Shape", by decide +kernel, hreached⟩,
    by decide +kernel⟩

end Sample

/-- An interface writes `List<Integer>...` where the class that implements it qualifies the type and
has other arguments, and a variable has a qualified type. The call on it reaches the class as if all
were written `List...` and `Shape`. -/
theorem spelling_indifferent_drawing :
    let plain := Sample.drawing "List..." "List..."
    let written := Sample.drawing "List<Integer>..." "java.util.List<Map<K, V>>..."
    let call := Sample.drawingCall "a.Shape"
    IsBalanced "Map<K, V>".toList ∧
    eraseGenerics ("List" ++ "<" ++ "Map<K, V>" ++ ">" ++ "...") = eraseGenerics ("List" ++ "...") ∧
    IsQualifier "java.util" ∧ IsQualifiable "List<Map<K, V>>..." ∧
    simpleTypeName ("java.util" ++ "." ++ "List<Map<K, V>>...") =
      simpleTypeName "List<Map<K, V>>..." ∧
    (Sample.drawingMethod 0 "List<Integer>...").sameSignature
      (Sample.drawingMethod 1 "java.util.List<Map<K, V>>...") = true ∧
    (Sample.drawingMethod 0 "List<Integer>...").sameSignature
      (Sample.drawingMethod 1 "Set<Integer>...") = false ∧
    plain.Respelled written ∧ (Sample.drawingCall "Shape").Respelled call ∧
    1 ∈ (MethodUse.ofModel written .builtIn).dispatched call 0 ∧
    (MethodUse.ofModel written .builtIn).used = (MethodUse.ofModel plain .builtIn).used := by
  intro plain written call
  obtain ⟨harguments, -, -, hqualified, hsame, hkept, hmodel⟩ := spelling_indifferent
  have hmap : IsBalanced "Map<K, V>".toList := by decide
  have hinteger : IsBalanced "Integer".toList := by decide
  have hscope : IsQualifier "java.util" := ⟨by decide, by decide⟩
  have htype : IsQualifiable "List<Map<K, V>>..." := ⟨by decide +kernel, by decide +kernel⟩
  have hpackage : IsQualifier "a" := ⟨by decide, by decide⟩
  have hshape : IsQualifiable "Shape" := ⟨by decide +kernel, by decide +kernel⟩
  have habove : Respells "List..." "List<Integer>..." :=
    .rel _ _ (.arguments hinteger "List" "...")
  have hbelow : Respells "List..." "java.util.List<Map<K, V>>..." :=
    .trans _ _ _ (.rel _ _ (.arguments hmap "List" "...")) (.rel _ _ (.qualification hscope htype))
  have hother : Respells "Set..." "Set<Integer>..." :=
    .rel _ _ (.arguments hinteger "Set" "...")
  have hmethod : ∀ id {points points'}, Respells points points' →
      (Sample.drawingMethod id points).Respelled (Sample.drawingMethod id points') :=
    fun id _ _ h => ⟨rfl, .cons ⟨rfl, h⟩ .nil⟩
  have hrespelled : plain.Respelled written :=
    ⟨rfl, .cons (hmethod 0 habove) (.cons (hmethod 1 hbelow) .nil)⟩
  have hcall : (Sample.drawingCall "Shape").Respelled call :=
    .onVariable rfl (.rel _ _ (.qualification hpackage hshape))
  obtain ⟨hdispatched, -, hused⟩ := hmodel plain written .builtIn hrespelled
  refine ⟨hmap, harguments "List" "Map<K, V>" "..." hmap, hscope, htype,
    hqualified "java.util" _ hscope htype, ?_, ?_, hrespelled, hcall, ?_, hused⟩
  · exact hsame _ _ rfl (.cons (.trans _ _ _ (.symm _ _ habove) hbelow) .nil)
  · rw [hkept _ _ _ _ (hmethod 0 habove) (hmethod 1 hother)]
    decide +kernel
  · rw [(hdispatched _ _ hcall 0).2]
    exact Sample.drawing_dispatched

end Usage

end Deadwood
