import Deadwood.Proofs.Code.Levels
import Deadwood.Proofs.Code.Naming
import Deadwood.Proofs.Code.Nesting

/-!
# Models inside other models

When files are added in another order, or further files are added, the declarations of a model are
found in the other model under other numbers. `Model.Embeds r names m m'` says so for a renumbering
`r`: declarations of `m` are declarations of `m'`, and the names in `names` mean the same in both.
Every question is then answered alike up to `r`, as long as it only looks up such names: resolution
(`Embeds.resolveIn?_map`), supertypes and their levels (`Embeds.superTypes_map`,
`Embeds.levels_map`), inherited methods (`Embeds.findMethods_map`) and bindings
(`Embeds.bind?_map`). Which names a model looks up by itself is `Model.Uses`.
-/

namespace Deadwood.Code

/-! ## Renumberings -/

/-- New numbers for files, types, methods and calls. -/
structure Renumbering where
  unit : UnitId → UnitId
  type : TypeId → TypeId
  method : MethodId → MethodId
  call : CallId → CallId

/-- A declaration with new numbers in it. -/
def TypeDecl.renumber (r : Renumbering) (t : TypeDecl) : TypeDecl :=
  { t with
    id := r.type t.id
    unit := r.unit t.unit
    enclosing := t.enclosing.map r.type
    methods := t.methods.map r.method }

def MethodDecl.renumber (r : Renumbering) (d : MethodDecl) : MethodDecl :=
  { d with id := r.method d.id, declaringType := r.type d.declaringType }

def CallSite.renumber (r : Renumbering) (c : CallSite) : CallSite :=
  { c with
    id := r.call c.id
    unit := r.unit c.unit
    enclosingType := c.enclosingType.map r.type
    binding := c.binding.map r.method }

namespace Model

/-- The declarations of `m` are declarations of `m'` under the numbers that `r` gives them, and the
two models agree on the types that are named in `names`. -/
structure Embeds (r : Renumbering) (names : String → Prop) (m m' : Model) : Prop where
  unit : ∀ i info, m.units[i]? = some info → m'.units[r.unit i]? = some info
  type : ∀ i t, m.types[i]? = some t → m'.types[r.type i]? = some (t.renumber r)
  method : ∀ i d, m.methods[i]? = some d → m'.methods[r.method i]? = some (d.renumber r)
  type_inj : ∀ i < m.types.length, ∀ j < m.types.length, r.type i = r.type j → i = j
  qualified : ∀ full, names (Text.lastSegment full) →
    m'.byQualified? full = (m.byQualified? full).map r.type
  only : ∀ simple, names simple → m'.onlyBySimple? simple = (m.onlyBySimple? simple).map r.type

/-- The simple name that a written type is looked up by in the end. -/
def soughtName (written : String) : String :=
  Text.lastSegment (Java.elementName written)

/-- The supertypes, static imports and receivers of a model are sought under names in `names`. -/
structure Uses (names : String → Prop) (m : Model) : Prop where
  superTypes : ∀ t ∈ m.types, ∀ s ∈ t.superTypes, names (soughtName s)
  imports : ∀ info ∈ m.units, ∀ i ∈ info.staticImports, names (soughtName i.typeName)
  receivers : ∀ c ∈ m.calls, ∀ s ∈ c.staticType?, names (soughtName s)

/-! ## Searches in one model -/

/-- The first hit of a search is renumbered if every hit is. -/
theorem findSome?_map_congr {α : Type} {xs : List α} {look look' : α → Option Nat} {g : Nat → Nat}
    (heq : ∀ x ∈ xs, look' x = (look x).map g) :
    xs.findSome? look' = (xs.findSome? look).map g := by
  induction xs with
  | nil => rfl
  | cons x xs ih =>
    have hx := heq x List.mem_cons_self
    have hrest := ih fun y hy => heq y (List.mem_cons_of_mem _ hy)
    rw [List.findSome?_cons, List.findSome?_cons, hx, hrest]
    cases look x <;> rfl

theorem lt_of_mem_enclosingChain {m : Model} (hm : m.Arena) {place : Option TypeId}
    (hplace : ∀ e ∈ place, e < m.types.length) {id : TypeId} (hid : id ∈ m.enclosingChain place) :
    id < m.types.length := by
  cases place with
  | none => cases hid
  | some e => exact lt_of_mem_enclosingTypes hm (hplace e rfl) hid

theorem superTypes_lt {m : Model} (hm : m.Arena) {a b : Nat} (hb : b ∈ m.superTypes a) :
    b < m.types.length := by
  unfold superTypes at hb
  split at hb
  · cases hb
  · have hmem := (List.mem_filter.1 (List.mem_eraseDups.1 hb)).1
    obtain ⟨s, -, hs⟩ := List.mem_filterMap.1 hmem
    exact resolve?_lt hm.toIndexed hs

/-- Renumbering does not make a list empty, so the first one with anything in it stays the first. -/
theorem firstNonempty_map {lists : List (List Nat)} {f : Nat → Nat} :
    firstNonempty (lists.map (·.map f)) = (firstNonempty lists).map f := by
  have hp : (fun l : List Nat => !l.isEmpty) ∘ (·.map f) = fun l : List Nat => !l.isEmpty := by
    funext l
    rw [Function.comp_apply, List.isEmpty_map]
  rw [firstNonempty, firstNonempty, List.find?_map, hp]
  cases lists.find? fun l => !l.isEmpty <;> rfl

/-- Inherited methods, as those of the nearest level that declares any. -/
theorem findMethods_eq (m : Model) (id : TypeId) (name : String) (arity : Option Nat) :
    m.findMethods id name arity =
      firstNonempty ((m.levels id).map (·.flatMap (m.declaredMethods name arity))) :=
  rfl

namespace Embeds

variable {r : Renumbering} {names : String → Prop} {m m' : Model} (h : Embeds r names m m')

include h

/-- A model has no more types than one that it is found in, as two types never get one number. -/
theorem length_le : m.types.length ≤ m'.types.length := by
  have hinto : ∀ i ∈ Finset.range m.types.length, r.type i ∈ Finset.range m'.types.length := by
    intro i hi
    have ht := h.type i _ (List.getElem?_eq_getElem (Finset.mem_range.1 hi))
    exact Finset.mem_range.2 (List.getElem?_eq_some_iff.1 ht).1
  have hcard := Finset.card_le_card_of_injOn r.type hinto fun i hi j hj =>
    h.type_inj i (Finset.mem_range.1 hi) j (Finset.mem_range.1 hj)
  rwa [Finset.card_range, Finset.card_range] at hcard

/-! ## Methods of a type -/

theorem isCalled_map (name : String) (arity : Option Nat) {id : MethodId}
    (hid : id < m.methods.length) :
    m'.isCalled name arity (r.method id) = m.isCalled name arity id := by
  have hd := List.getElem?_eq_getElem hid
  simp only [isCalled, hd, h.method id _ hd]
  rfl

/-- The methods of a name that a type declares are those of the type in the larger model. -/
theorem declaredMethods_map (hm : m.Arena) (name : String) (arity : Option Nat) {id : TypeId}
    (hid : id < m.types.length) :
    m'.declaredMethods name arity (r.type id) =
      (m.declaredMethods name arity id).map r.method := by
  have ht := List.getElem?_eq_getElem hid
  simp only [declaredMethods, ht, h.type id _ ht]
  change (m.types[id].methods.map r.method).filter _ = _
  rw [List.filter_map]
  congr 1
  refine List.filter_congr fun d hd => ?_
  exact h.isCalled_map name arity (hm.methods_lt (List.mem_of_getElem? ht) hd)

/-! ## Names -/

section Names

variable {name : String} (hname : names (Text.lastSegment name))

include hname

/-- A name that is qualified as it is written means the same type in both models. -/
theorem outright?_map : m'.outright? name = (m.outright? name).map r.type := by
  unfold outright?
  split
  · exact h.qualified name hname
  · rfl

/-- Inside a type a name is sought as that of the type itself or of one nested in it, and the
qualified name of the latter ends in the name. -/
theorem inScopeOf?_map {scope : TypeId} (hscope : scope < m.types.length) :
    m'.inScopeOf? name (r.type scope) = (m.inScopeOf? name scope).map r.type := by
  have ht := List.getElem?_eq_getElem hscope
  have hjoin := h.qualified (Text.joinDot m.types[scope].qualifiedName name)
    (by rwa [Text.lastSegment_joinDot])
  rw [inScopeOf?, inScopeOf?, ht, h.type scope _ ht, Option.bind_some, Option.bind_some,
    Option.map_or, ← hjoin]
  congr 1
  change (if m.types[scope].name == name then some (r.type scope) else none) = _
  split <;> rfl

/-- An import is completed by what follows the first segment of the name, so that both end alike. -/
theorem byImport?_map (imported : String) :
    m'.byImport? name imported = (m.byImport? name imported).map r.type := by
  unfold byImport?
  split
  · next hends =>
    obtain ⟨-, hlast⟩ := Bool.and_eq_true_iff.1 hends
    apply h.qualified
    rwa [Text.lastSegment_append_afterFirst (beq_iff_eq.1 hlast)]
  · rfl

theorem inPackage?_map (info : UnitInfo) :
    m'.inPackage? info name = (m.inPackage? info name).map r.type := by
  unfold inPackage?
  split
  · exact h.qualified _ (by rwa [Text.lastSegment_joinDot])
  · exact h.qualified name hname

theorem byWildcard?_map (imported : String) :
    m'.byWildcard? name imported = (m.byWildcard? name imported).map r.type := by
  unfold byWildcard?
  cases Text.wildcardPackage? imported with
  | none => rfl
  | some package => exact h.qualified _ (by rwa [Text.lastSegment_joinDot])

end Names

/-! ## Resolution -/

section Arenas

variable (hm : m.Arena) (hm' : m'.Arena)

include hm hm'

/-- The types around a type are the ones around it in the larger model. The induction is on the
number, which is above that of the type around it. -/
theorem enclosingTypes_map {id : Nat} (hid : id < m.types.length) :
    m'.enclosingTypes (r.type id) = (m.enclosingTypes id).map r.type := by
  induction id using Nat.strongRecOn with
  | ind id ih =>
    have ht := List.getElem?_eq_getElem hid
    rw [enclosingTypes_eq hm, enclosingTypes_eq hm', ht, h.type id _ ht, Option.bind_some,
      Option.bind_some, List.map_cons]
    congr 1
    change ((m.types[id].enclosing.map r.type).map m'.enclosingTypes).getD [] = _
    cases he : m.types[id].enclosing with
    | none => rfl
    | some outer =>
      have hin : m.DeclaredIn id outer := ⟨_, ht, he⟩
      exact ih outer (hin.lt hm) (hin.lt_length hm)

theorem enclosingChain_map {place : Option TypeId} (hplace : ∀ e ∈ place, e < m.types.length) :
    m'.enclosingChain (place.map r.type) = (m.enclosingChain place).map r.type := by
  cases place with
  | none => rfl
  | some id => exact h.enclosingTypes_map hm hm' (hplace id rfl)

/-- Each place that a name is sought in answers alike, so the first of them that has an answer is
the same. -/
theorem lookUp?_map {name : String} (hname : names (Text.lastSegment name)) (info : UnitInfo)
    {place : Option TypeId} (hplace : ∀ e ∈ place, e < m.types.length) :
    m'.lookUp? info (place.map r.type) name = (m.lookUp? info place name).map r.type := by
  have hscopes : (m'.enclosingChain (place.map r.type)).findSome? (m'.inScopeOf? name) =
      ((m.enclosingChain place).findSome? (m.inScopeOf? name)).map r.type := by
    rw [h.enclosingChain_map hm hm' hplace, List.findSome?_map]
    exact findSome?_map_congr fun scope hscope =>
      h.inScopeOf?_map hname (lt_of_mem_enclosingChain hm hplace hscope)
  have himports : info.imports.findSome? (m'.byImport? name) =
      (info.imports.findSome? (m.byImport? name)).map r.type :=
    findSome?_map_congr fun i _ => h.byImport?_map hname i
  have hwildcards : info.imports.findSome? (m'.byWildcard? name) =
      (info.imports.findSome? (m.byWildcard? name)).map r.type :=
    findSome?_map_congr fun i _ => h.byWildcard?_map hname i
  rw [lookUp?, lookUp?, hscopes, himports, hwildcards, h.outright?_map hname,
    h.inPackage?_map hname, h.only _ hname]
  simp only [Option.map_or]

/-- A written name has the same type in both models, wherever it stands in the smaller one. -/
theorem resolveIn?_map {written : String} (hname : names (soughtName written)) {unit : UnitId}
    (hunit : unit < m.units.length) {place : Option TypeId}
    (hplace : ∀ e ∈ place, e < m.types.length) :
    m'.resolveIn? written (r.unit unit) (place.map r.type) =
      (m.resolveIn? written unit place).map r.type := by
  have hinfo := List.getElem?_eq_getElem hunit
  simp only [resolveIn?, hinfo, h.unit unit _ hinfo]
  split
  · rfl
  · exact h.lookUp?_map hm hm' hname _ hplace

theorem resolve?_map {written : String} (hname : names (soughtName written)) {scope : TypeId}
    (hscope : scope < m.types.length) :
    m'.resolve? written (r.type scope) = (m.resolve? written scope).map r.type := by
  have ht := List.getElem?_eq_getElem hscope
  have hunit := hm.unit_lt _ (List.mem_of_getElem? ht)
  have hplace : ∀ e ∈ some scope, e < m.types.length := by
    rintro e ⟨⟩
    exact hscope
  have hmap := h.resolveIn?_map hm hm' hname hunit hplace
  rw [resolve?, resolve?, ht, h.type scope _ ht, Option.bind_some, Option.bind_some]
  exact hmap

/-! ## Supertypes -/

/-- The supertypes of a type are those that it has in the larger model, as they are sought under
names that mean the same there. -/
theorem superTypes_map (hu : m.Uses names) {id : Nat} (hid : id < m.types.length) :
    m'.superTypes (r.type id) = (m.superTypes id).map r.type := by
  have ht := List.getElem?_eq_getElem hid
  have hresolved : (m.types[id].renumber r).superTypes.filterMap (m'.resolve? · (r.type id)) =
      (m.types[id].superTypes.filterMap (m.resolve? · id)).map r.type := by
    rw [List.map_filterMap]
    exact List.filterMap_congr fun s hs =>
      h.resolve?_map hm hm' (hu.superTypes _ (List.mem_of_getElem? ht) s hs) hid
  have hlt : ∀ x ∈ m.types[id].superTypes.filterMap (m.resolve? · id), x < m.types.length := by
    intro x hx
    obtain ⟨s, -, hs⟩ := List.mem_filterMap.1 hx
    exact resolve?_lt hm.toIndexed hs
  simp only [superTypes, ht, h.type id _ ht, hresolved]
  rw [List.filter_map, ← eraseDups_map h.type_inj fun x hx => hlt x (List.mem_filter.1 hx).1]
  congr 2
  refine List.filter_congr fun x hx => ?_
  rw [Function.comp_apply, bne, bne, map_beq h.type_inj (hlt x hx) hid]

/-- The levels above a type are found alike. The larger model allows for more levels, but a type has
no more of them than its own model has types. -/
theorem levels_map (hu : m.Uses names) {id : Nat} (hid : id < m.types.length) :
    m'.levels (r.type id) = (m.levels id).map (·.map r.type) := by
  have hcard : (unseen m.types.length []).card ≤ m.types.length := by
    have hle := Finset.card_filter_le (Finset.range m.types.length) (· ∉ ([] : List Nat))
    rwa [Finset.card_range] at hle
  have hlen := h.length_le
  have hseen : ∀ x ∈ ([] : List Nat), x < m.types.length := by simp
  have hlevel : ∀ x ∈ [id], x < m.types.length := by simpa using hid
  exact levelsFrom_map h.type_inj (fun x _ y hy => superTypes_lt hm hy)
    (fun x hx => h.superTypes_map hm hm' hu hx) hseen hlevel (by omega) (by omega)

theorem ancestors_map (hu : m.Uses names) {id : Nat} (hid : id < m.types.length) :
    m'.ancestors (r.type id) = (m.ancestors id).map r.type := by
  rw [ancestors, ancestors, h.levels_map hm hm' hu hid, List.map_flatten, List.map_tail]

/-- A method is inherited from the same types in both models, since it is sought level by level. -/
theorem findMethods_map (hu : m.Uses names) {id : Nat} (hid : id < m.types.length)
    (name : String) (arity : Option Nat) :
    m'.findMethods (r.type id) name arity = (m.findMethods id name arity).map r.method := by
  have hlt : ∀ level ∈ m.levels id, ∀ x ∈ level, x < m.types.length := by
    refine levelsFrom_lt (fun x _ y hy => superTypes_lt hm hy) ?_
    intro x hx
    rwa [List.mem_singleton.1 hx]
  rw [findMethods_eq, findMethods_eq, h.levels_map hm hm' hu hid, ← firstNonempty_map,
    List.map_map, List.map_map]
  congr 1
  refine List.map_congr_left fun level hlevel => ?_
  rw [Function.comp_apply, Function.comp_apply, List.flatMap_map, List.map_flatMap]
  exact List.flatMap_congr fun x hx => h.declaredMethods_map hm name arity (hlt level hlevel x hx)

/-! ## Bindings -/

theorem staticTargets_map (hu : m.Uses names) {unit : UnitId} (hunit : unit < m.units.length)
    (member : String) :
    m'.staticTargets (r.unit unit) member = (m.staticTargets unit member).map r.type := by
  have hinfo := List.getElem?_eq_getElem hunit
  have hnames : ∀ i ∈ staticImportsOf m.units[unit] member, names (soughtName i.typeName) := by
    intro i hi
    refine hu.imports _ (List.mem_of_getElem? hinfo) i ?_
    rcases List.mem_append.1 hi with hi | hi
    · exact (List.mem_filter.1 hi).1
    · exact (List.mem_filter.1 hi).1
  have hresolved : (staticImportsOf m.units[unit] member).filterMap
      (fun i => m'.resolveIn? i.typeName (r.unit unit) none) =
      ((staticImportsOf m.units[unit] member).filterMap
        fun i => m.resolveIn? i.typeName unit none).map r.type := by
    rw [List.map_filterMap]
    refine List.filterMap_congr fun i hi => ?_
    have hnone : ∀ e ∈ (none : Option TypeId), e < m.types.length := by simp
    have hmap := h.resolveIn?_map hm hm' (hnames i hi) hunit hnone
    rwa [Option.map_none] at hmap
  simp only [staticTargets, hinfo, h.unit unit _ hinfo, hresolved]
  refine eraseDups_map h.type_inj fun x hx => ?_
  obtain ⟨i, -, hi⟩ := List.mem_filterMap.1 hx
  exact resolveIn?_lt hm.toIndexed hi

theorem staticTargetsOn_map (hu : m.Uses names) (c : CallSite) {type : Nat}
    (htype : type < m.types.length) :
    m'.staticTargetsOn (c.renumber r) (r.type type) = (m.staticTargetsOn c type).map r.method := by
  have htargets : m'.targetsOn (c.renumber r) (r.type type) = (m.targetsOn c type).map r.method :=
    h.findMethods_map hm hm' hu htype c.methodName c.arity
  rw [staticTargetsOn, staticTargetsOn, htargets, List.filter_map]
  congr 1
  refine List.filter_congr fun d hd => ?_
  have hget := List.getElem?_eq_getElem (lt_of_mem_findMethods hd)
  rw [Function.comp_apply, hget, h.method d _ hget]
  rfl

/-- The methods of a type that may be missing. -/
theorem targets_map (hu : m.Uses names) (c : CallSite) {place : Option TypeId}
    (hplace : ∀ e ∈ place, e < m.types.length) :
    ((place.map r.type).map (m'.targetsOn (c.renumber r))).getD [] =
      ((place.map (m.targetsOn c)).getD []).map r.method := by
  cases place with
  | none => rfl
  | some id => exact h.findMethods_map hm hm' hu (hplace id rfl) c.methodName c.arity

/-- The methods that a call could mean are the same in both models, for every kind of receiver. An
implicit one is where they are sought longest: in the types around the call and then in the static
imports of its file, up to the first that has any. -/
theorem deciding_map (hu : m.Uses names) {c : CallSite} (hunit : c.unit < m.units.length)
    (hplace : ∀ e ∈ c.enclosingType, e < m.types.length)
    (hreceiver : ∀ s ∈ c.staticType?, names (soughtName s)) :
    m'.deciding (c.renumber r) = (m.deciding c).map r.method := by
  have hnamed : ∀ name, names (soughtName name) →
      ((m'.resolveIn? name (r.unit c.unit) (c.enclosingType.map r.type)).map
        (m'.targetsOn (c.renumber r))).getD [] =
      (((m.resolveIn? name c.unit c.enclosingType).map (m.targetsOn c)).getD []).map r.method := by
    intro name hname
    rw [h.resolveIn?_map hm hm' hname hunit hplace]
    exact h.targets_map hm hm' hu c fun e he => resolveIn?_lt hm.toIndexed he
  cases hr : c.receiver with
  | implicit =>
    have hchain : (m'.enclosingChain (c.enclosingType.map r.type)).map
        (m'.targetsOn (c.renumber r)) =
        ((m.enclosingChain c.enclosingType).map (m.targetsOn c)).map (·.map r.method) := by
      rw [h.enclosingChain_map hm hm' hplace, List.map_map, List.map_map]
      refine List.map_congr_left fun type htype => ?_
      have hlt := lt_of_mem_enclosingChain hm hplace htype
      exact h.findMethods_map hm hm' hu hlt c.methodName c.arity
    have hstatic : (m'.staticTargets (r.unit c.unit) c.methodName).map
        (m'.staticTargetsOn (c.renumber r)) =
        ((m.staticTargets c.unit c.methodName).map (m.staticTargetsOn c)).map
          (·.map r.method) := by
      rw [h.staticTargets_map hm hm' hu hunit, List.map_map, List.map_map]
      refine List.map_congr_left fun type htype => ?_
      exact h.staticTargetsOn_map hm hm' hu c (staticTargets_lt hm.toIndexed htype)
    simp only [deciding, CallSite.renumber, hr]
    rw [← firstNonempty_map, List.map_append]
    exact congrArg firstNonempty (congrArg₂ (· ++ ·) hchain hstatic)
  | this =>
    simp only [deciding, CallSite.renumber, hr]
    exact h.targets_map hm hm' hu c hplace
  | super =>
    cases he : c.enclosingType with
    | none => simp [deciding, CallSite.renumber, hr, he]
    | some type =>
      have hlt := hplace type he
      have ht := List.getElem?_eq_getElem hlt
      simp only [deciding, CallSite.renumber, hr, he, Option.map_some, ht, h.type type _ ht,
        Option.bind_some]
      change (((m.types[type].superclass).bind (m'.resolve? · (r.type type))).map
        (m'.targetsOn (c.renumber r))).getD [] = _
      cases hs : m.types[type].superclass with
      | none => rfl
      | some superclass =>
        have hmem : superclass ∈ m.types[type].superTypes := by simp [TypeDecl.superTypes, hs]
        have hname := hu.superTypes _ (List.mem_of_getElem? ht) superclass hmem
        rw [Option.bind_some, Option.bind_some, h.resolve?_map hm hm' hname hlt]
        exact h.targets_map hm hm' hu c fun e he => resolve?_lt hm.toIndexed he
  | type name =>
    simp only [deciding, CallSite.renumber, hr]
    exact hnamed name (hreceiver name (by simp [CallSite.staticType?, hr]))
  | «variable» name static =>
    cases static with
    | none => simp [deciding, CallSite.renumber, hr]
    | some static =>
      simp only [deciding, CallSite.renumber, hr]
      exact hnamed static (hreceiver static (by simp [CallSite.staticType?, hr]))
  | expression => simp [deciding, CallSite.renumber, hr]

/-- A call is bound to the same method in both models. -/
theorem bind?_map (hu : m.Uses names) {c : CallSite} (hc : c ∈ m.calls) :
    m'.bind? (c.renumber r) = (m.bind? c).map r.method := by
  have hdeciding := h.deciding_map hm hm' hu (hm.call_unit_lt c hc) (hm.place_lt c hc)
    (hu.receivers c hc)
  rw [bind?, bind?, hdeciding]
  rcases m.deciding c with _ | ⟨only, _ | ⟨_, _⟩⟩ <;> rfl

end Arenas

end Embeds

end Model

end Deadwood.Code
