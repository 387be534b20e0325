import Deadwood.Proofs.Code.Reached
import Deadwood.Proofs.Positions

/-!
# Numbers, links and indexes of a model

A model keeps its declarations and calls in lists and refers to them by position, without looking
whether a position exists. `Model.Arena` says that every reference is good and that the two indexes
of the types give exactly what a search through the list gives. It holds of every model that files
of the right shape lead to, however strict and tolerant additions and bindings are mixed
(`Model.Reached.arena`). With it goes what adding a file does: a file that is refused leaves the
model as it was (`Model.addUnit_error`).
-/

namespace Deadwood.Code

namespace Model

/-! ## The invariant -/

/-- Numbers are positions, and the indexes give the first type with a qualified name and all types
with a simple name. -/
structure Indexed (m : Model) : Prop where
  type_ids : m.types.map (·.id) = List.range m.types.length
  method_ids : m.methods.map (·.id) = List.range m.methods.length
  call_ids : m.calls.map (·.id) = List.range m.calls.length
  qualified : ∀ name, m.byQualified? name = m.types.findIdx? (·.qualifiedName == name)
  simple : ∀ name, m.bySimple name = m.types.findIdxs (·.name == name)

/-- Every number that a declaration or a call refers to is one that the model has, nesting leads to
earlier types of the same file, and types and methods agree on which declares which. -/
structure Linked (m : Model) : Prop where
  unit_lt : ∀ t ∈ m.types, t.unit < m.units.length
  enclosing : ∀ t ∈ m.types, ∀ e ∈ t.enclosing,
    e < t.id ∧ ∃ outer, m.types[e]? = some outer ∧ outer.unit = t.unit
  declaring_lt : ∀ d ∈ m.methods, d.declaringType < m.types.length
  methods_eq : ∀ t ∈ m.types, t.methods = m.methods.findIdxs (·.declaringType == t.id)
  call_unit_lt : ∀ c ∈ m.calls, c.unit < m.units.length
  place_lt : ∀ c ∈ m.calls, ∀ e ∈ c.enclosingType, e < m.types.length
  binding_lt : ∀ c ∈ m.calls, ∀ b ∈ c.binding, b < m.methods.length

/-- A model whose numbers, links and indexes are all good. -/
structure Arena (m : Model) : Prop extends Indexed m, Linked m

/-! ## Indexes -/

/-- The first type of a qualified name keeps it. -/
theorem foldl_addType_byQualified? (m : Model) (ts : List TypeDecl) (name : String) :
    (ts.foldl addType m).byQualified? name =
      (m.byQualified? name).or ((ts.find? (·.qualifiedName == name)).map (·.id)) := by
  induction ts generalizing m with
  | nil => simp
  | cons t ts ih =>
    have hstep : (m.addType t).byQualified? name =
        (m.byQualified? name).or (if name = t.qualifiedName then some t.id else none) :=
      Index.get?_insertNew m.qualified t.qualifiedName name t.id
    rw [List.foldl_cons, ih, hstep, Option.or_assoc, List.find?_cons]
    by_cases ht : t.qualifiedName = name
    · simp [ht]
    · have hne : (t.qualifiedName == name) = false := beq_false_of_ne ht
      rw [hne, if_neg (Ne.symm ht), Option.none_or]

/-- The types of a simple name are listed in the order that they are entered in. -/
theorem foldl_addType_bySimple (m : Model) (ts : List TypeDecl) (name : String) :
    (ts.foldl addType m).bySimple name =
      m.bySimple name ++ (ts.filter (·.name == name)).map (·.id) := by
  induction ts generalizing m with
  | nil => simp
  | cons t ts ih =>
    have hstep : (m.addType t).bySimple name =
        m.bySimple name ++ (if name = t.name then [t.id] else []) :=
      Index.getAll_push m.simple t.name name t.id
    rw [List.foldl_cons, ih, hstep, List.append_assoc, List.filter_cons]
    by_cases ht : t.name = name
    · simp [ht]
    · simp [ht, Ne.symm ht]

theorem shiftedTypes_ids {m : Model} {u : SourceUnit} (hu : u.Numbered) :
    (m.shiftedTypes u).map (·.id) = List.range' m.types.length (m.shiftedTypes u).length :=
  shifted_numbers (fun _ => rfl) hu.type_ids

theorem Indexed.empty : Indexed .empty :=
  ⟨rfl, rfl, rfl, fun _ => rfl, fun _ => rfl⟩

/-- Adding a file keeps numbers positions and the indexes exact. -/
theorem Indexed.append {m : Model} {u : SourceUnit} (h : m.Indexed) (hu : u.Numbered) :
    (m.append u).Indexed where
  type_ids := by
    rw [append_types]
    exact append_numbers h.type_ids (shiftedTypes_ids hu)
  method_ids := by
    rw [append_methods]
    exact append_numbers h.method_ids (shifted_numbers (fun _ => rfl) hu.method_ids)
  call_ids := by
    rw [append_calls]
    exact append_numbers h.call_ids (shifted_numbers (fun _ => rfl) hu.call_ids)
  qualified name := by
    have hadd := foldl_addType_byQualified? m (m.shiftedTypes u) name
    rw [h.qualified, find?_map_of_numbers (shiftedTypes_ids hu)] at hadd
    rw [append_types, List.findIdx?_append]
    exact hadd
  simple name := by
    have hadd := foldl_addType_bySimple m (m.shiftedTypes u) name
    rw [h.simple, filter_map_of_numbers (shiftedTypes_ids hu)] at hadd
    rw [append_types, List.findIdxs_append, Nat.zero_add]
    exact hadd

theorem Indexed.bindCalls {m : Model} (h : m.Indexed) : m.bindCalls.Indexed where
  type_ids := h.type_ids
  method_ids := h.method_ids
  call_ids := by
    have hids : m.bindCalls.calls.map (·.id) = m.calls.map (·.id) := by
      simp [Model.bindCalls, Function.comp_def]
    have hlen : m.bindCalls.calls.length = m.calls.length := by simp [Model.bindCalls]
    rw [hids, hlen]
    exact h.call_ids
  qualified := h.qualified
  simple := h.simple

/-! ## Links -/

theorem mem_shiftedTypes {m : Model} {u : SourceUnit} {t : TypeDecl} :
    t ∈ m.shiftedTypes u ↔
      ∃ s ∈ u.types, s.shift m.units.length m.types.length m.methods.length = t :=
  List.mem_map

theorem mem_shiftedMethods {m : Model} {u : SourceUnit} {d : MethodDecl} :
    d ∈ m.shiftedMethods u ↔ ∃ s ∈ u.methods, s.shift m.types.length m.methods.length = d :=
  List.mem_map

theorem mem_shiftedCalls {m : Model} {u : SourceUnit} {c : CallSite} :
    c ∈ m.shiftedCalls u ↔
      ∃ s ∈ u.calls, s.shift m.units.length m.types.length m.calls.length = c :=
  List.mem_map

/-- The methods of a file declare none of the types that were there before. -/
theorem findIdxs_shiftedMethods_old {m : Model} (u : SourceUnit) {t : TypeId}
    (ht : t < m.types.length) (s : Nat) :
    (m.shiftedMethods u).findIdxs (·.declaringType == t) s = [] := by
  rw [List.findIdxs_eq_nil_iff]
  intro d hd
  obtain ⟨s, -, rfl⟩ := mem_shiftedMethods.1 hd
  have hne : s.declaringType + m.types.length ≠ t := Nat.ne_of_gt (Nat.lt_add_left _ ht)
  exact beq_false_of_ne hne

/-- Among the methods of a file, those of a type are the ones they were before the shift. -/
theorem findIdxs_shiftedMethods_new (m : Model) (u : SourceUnit) (t : TypeId) (s : Nat) :
    (m.shiftedMethods u).findIdxs (·.declaringType == t + m.types.length) s =
      (u.methods.findIdxs (·.declaringType == t)).map (· + s) := by
  have hp : (fun d : MethodDecl => d.declaringType == t + m.types.length) ∘
      MethodDecl.shift m.types.length m.methods.length = fun d => d.declaringType == t := by
    funext d
    have hiff : d.declaringType + m.types.length = t + m.types.length ↔ d.declaringType = t :=
      Nat.add_right_cancel_iff
    rw [Bool.eq_iff_iff, Function.comp_apply, beq_iff_eq, beq_iff_eq]
    exact hiff
  rw [shiftedMethods, List.findIdxs_map, hp, List.findIdxs_start]

/-- No method of the model is declared in a type that is yet to come. -/
theorem findIdxs_methods_new {m : Model} (h : m.Linked) (t : TypeId) :
    m.methods.findIdxs (·.declaringType == t + m.types.length) = [] := by
  rw [List.findIdxs_eq_nil_iff]
  intro d hd
  have hlt := h.declaring_lt d hd
  have hne : d.declaringType ≠ t + m.types.length := Nat.ne_of_lt (Nat.lt_add_left t hlt)
  exact beq_false_of_ne hne

theorem Linked.empty : Linked .empty := by
  constructor <;> intro x hx <;> cases hx

theorem Linked.methods_lt {m : Model} (h : m.Linked) {t : TypeDecl} (ht : t ∈ m.types)
    {id : MethodId} (hid : id ∈ t.methods) : id < m.methods.length := by
  rw [h.methods_eq t ht, List.mem_findIdxs_iff_exists_getElem_pos] at hid
  exact hid.1

section Append

variable {m : Model} {u : SourceUnit} (hi : m.Indexed) (h : m.Linked) (hu : u.Shaped)

include h hu in
/-- The type around a type comes before it, in the same file, also after files were added. -/
theorem Linked.enclosing_append : ∀ t ∈ (m.append u).types, ∀ e ∈ t.enclosing,
    e < t.id ∧ ∃ outer, (m.append u).types[e]? = some outer ∧ outer.unit = t.unit := by
  intro t ht e he
  rw [append_types] at ht ⊢
  rcases List.mem_append.1 ht with ht | ht
  · obtain ⟨hlt, outer, ho, hunit⟩ := h.enclosing t ht e he
    have hbound := (List.getElem?_eq_some_iff.1 ho).1
    exact ⟨hlt, outer, by rw [List.getElem?_append_left hbound, ho], hunit⟩
  · -- A new type: its outer type is new as well, and both were shifted by the same number.
    obtain ⟨s, hs, rfl⟩ := mem_shiftedTypes.1 ht
    obtain ⟨o, ho, rfl⟩ := Option.map_eq_some_iff.1 he
    have hlt := hu.enclosing_lt s hs o ho
    have hbound : o < u.types.length := Nat.lt_trans hlt (number_lt hu.type_ids hs)
    refine ⟨Nat.add_lt_add_right hlt _, u.types[o].shift m.units.length m.types.length
      m.methods.length, ?_, rfl⟩
    rw [List.getElem?_append_right (Nat.le_add_left ..), Nat.add_sub_cancel, shiftedTypes,
      List.getElem?_map, List.getElem?_eq_getElem hbound]
    rfl

include hi h hu in
/-- A type lists the methods that name it, in the old files and in the new one. -/
theorem Linked.methods_eq_append : ∀ t ∈ (m.append u).types,
    t.methods = (m.append u).methods.findIdxs (·.declaringType == t.id) := by
  intro t ht
  rw [append_types] at ht
  rw [append_methods, List.findIdxs_append, Nat.zero_add]
  rcases List.mem_append.1 ht with ht | ht
  · rw [findIdxs_shiftedMethods_old u (number_lt hi.type_ids ht), List.append_nil]
    exact h.methods_eq t ht
  · -- A new type: no old method names it, and its own are shifted along with its list.
    obtain ⟨s, hs, rfl⟩ := mem_shiftedTypes.1 ht
    change s.methods.map (· + m.methods.length) =
      m.methods.findIdxs (·.declaringType == s.id + m.types.length) ++
        (m.shiftedMethods u).findIdxs (·.declaringType == s.id + m.types.length) m.methods.length
    rw [hu.methods_eq s hs]
    rw [findIdxs_methods_new h, findIdxs_shiftedMethods_new, List.nil_append]

include hi h hu in
/-- Adding a file keeps every link good. -/
theorem Linked.append : (m.append u).Linked where
  unit_lt t ht := by
    rw [append_units, List.length_append, List.length_singleton]
    rw [append_types] at ht
    rcases List.mem_append.1 ht with ht | ht
    · exact Nat.lt_succ_of_lt (h.unit_lt t ht)
    · obtain ⟨s, -, rfl⟩ := mem_shiftedTypes.1 ht
      exact Nat.lt_succ_self _
  enclosing := h.enclosing_append hu
  declaring_lt d hd := by
    rw [append_types, List.length_append, shiftedTypes, List.length_map]
    rw [append_methods] at hd
    rcases List.mem_append.1 hd with hd | hd
    · exact Nat.lt_add_right _ (h.declaring_lt d hd)
    · obtain ⟨s, hs, rfl⟩ := mem_shiftedMethods.1 hd
      rw [Nat.add_comm m.types.length]
      exact Nat.add_lt_add_right (hu.declaring_lt s hs) _
  methods_eq := h.methods_eq_append hi hu
  call_unit_lt c hc := by
    rw [append_units, List.length_append, List.length_singleton]
    rw [append_calls] at hc
    rcases List.mem_append.1 hc with hc | hc
    · exact Nat.lt_succ_of_lt (h.call_unit_lt c hc)
    · obtain ⟨s, -, rfl⟩ := mem_shiftedCalls.1 hc
      exact Nat.lt_succ_self _
  place_lt c hc e he := by
    rw [append_types, List.length_append, shiftedTypes, List.length_map]
    rw [append_calls] at hc
    rcases List.mem_append.1 hc with hc | hc
    · exact Nat.lt_add_right _ (h.place_lt c hc e he)
    · obtain ⟨s, hs, rfl⟩ := mem_shiftedCalls.1 hc
      obtain ⟨o, ho, rfl⟩ := Option.map_eq_some_iff.1 he
      rw [Nat.add_comm m.types.length]
      exact Nat.add_lt_add_right (hu.place_lt s hs o ho) _
  binding_lt c hc b hb := by
    rw [append_methods, List.length_append]
    rw [append_calls] at hc
    rcases List.mem_append.1 hc with hc | hc
    · exact Nat.lt_add_right _ (h.binding_lt c hc b hb)
    · obtain ⟨s, hs, rfl⟩ := mem_shiftedCalls.1 hc
      -- Bindings are not shifted, which is good only because a new file has none.
      change b ∈ s.binding at hb
      rw [hu.unbound s hs] at hb
      cases hb

end Append

/-! ## Bindings -/

theorem mem_firstNonempty {α : Type} {x : α} {lists : List (List α)}
    (h : x ∈ firstNonempty lists) : ∃ l ∈ lists, x ∈ l := by
  unfold firstNonempty at h
  cases hf : lists.find? fun l => !l.isEmpty with
  | none =>
    rw [hf] at h
    cases h
  | some l =>
    rw [hf] at h
    exact ⟨l, List.mem_of_find?_eq_some hf, h⟩

theorem lt_of_isCalled {m : Model} {name : String} {arity : Option Nat} {id : MethodId}
    (h : m.isCalled name arity id = true) : id < m.methods.length := by
  unfold isCalled at h
  cases hd : m.methods[id]? with
  | none =>
    rw [hd] at h
    cases h
  | some d => exact (List.getElem?_eq_some_iff.1 hd).1

theorem lt_of_mem_declaredMethods {m : Model} {name : String} {arity : Option Nat} {t : TypeId}
    {id : MethodId} (h : id ∈ m.declaredMethods name arity t) : id < m.methods.length := by
  unfold declaredMethods at h
  split at h
  · cases h
  · exact lt_of_isCalled (List.mem_filter.1 h).2

theorem lt_of_mem_findMethods {m : Model} {name : String} {arity : Option Nat} {t : TypeId}
    {id : MethodId} (h : id ∈ m.findMethods t name arity) : id < m.methods.length := by
  obtain ⟨found, hfound, hid⟩ := mem_firstNonempty h
  obtain ⟨level, -, rfl⟩ := List.mem_map.1 hfound
  obtain ⟨t', -, ht'⟩ := List.mem_flatMap.1 hid
  exact lt_of_mem_declaredMethods ht'

theorem lt_of_mem_targets {m : Model} {c : CallSite} {place : Option TypeId} {id : MethodId}
    (h : id ∈ (place.map (m.targetsOn c)).getD []) : id < m.methods.length := by
  cases place with
  | none => cases h
  | some t => exact lt_of_mem_findMethods h

/-- A call is decided among methods of the model. -/
theorem lt_of_mem_deciding {m : Model} {c : CallSite} {id : MethodId} (h : id ∈ m.deciding c) :
    id < m.methods.length := by
  unfold deciding at h
  split at h
  · obtain ⟨found, hfound, hid⟩ := mem_firstNonempty h
    rcases List.mem_append.1 hfound with hfound | hfound
    · obtain ⟨t, -, rfl⟩ := List.mem_map.1 hfound
      exact lt_of_mem_findMethods hid
    · obtain ⟨t, -, rfl⟩ := List.mem_map.1 hfound
      exact lt_of_mem_findMethods (List.mem_filter.1 hid).1
  · exact lt_of_mem_targets h
  · split at h
    · cases h
    · exact lt_of_mem_targets h
  · exact lt_of_mem_targets h
  · exact lt_of_mem_targets h
  · cases h
  · cases h

/-- A call is only ever bound to a method of the model. -/
theorem bind?_lt {m : Model} {c : CallSite} {id : MethodId} (h : m.bind? c = some id) :
    id < m.methods.length := by
  unfold bind? at h
  split at h
  · next only hd =>
    cases h
    exact lt_of_mem_deciding (hd ▸ List.mem_singleton_self _)
  · cases h

/-- Binding keeps the links and replaces the bindings by good ones. -/
theorem Linked.bindCalls {m : Model} (h : m.Linked) : m.bindCalls.Linked where
  unit_lt := h.unit_lt
  enclosing := h.enclosing
  declaring_lt := h.declaring_lt
  methods_eq := h.methods_eq
  call_unit_lt c hc := by
    obtain ⟨c, hc', rfl⟩ := List.mem_map.1 hc
    exact h.call_unit_lt c hc'
  place_lt c hc := by
    obtain ⟨c, hc', rfl⟩ := List.mem_map.1 hc
    exact h.place_lt c hc'
  binding_lt c hc b hb := by
    obtain ⟨c, -, rfl⟩ := List.mem_map.1 hc
    have hlt : b < m.methods.length := bind?_lt hb
    exact hlt

theorem Arena.bindCalls {m : Model} (h : m.Arena) : m.bindCalls.Arena :=
  ⟨h.toIndexed.bindCalls, h.toLinked.bindCalls⟩

/-- **The arena invariant** holds of every model that files of the right shape lead to. -/
theorem Reached.arena {m : Model} (h : Reached SourceUnit.Shaped m) : m.Arena := by
  refine h.keeps ⟨.empty, .empty⟩ ?_ ?_
  · intro m u hu hm
    exact ⟨hm.toIndexed.append hu.toNumbered, hm.toLinked.append hm.toIndexed hu⟩
  · intro m hm
    exact hm.bindCalls

/-! ## Files that are refused -/

/-- Whether a type of the model has the qualified name of `t`. -/
def Taken (m : Model) (t : TypeDecl) : Prop :=
  ∃ old ∈ m.types, old.qualifiedName = t.qualifiedName

/-- The error names the first type of `unit` whose qualified name is taken, the file of the first
type that took it, and the file that is refused. -/
def Refuses (m : Model) (unit : SourceUnit) (error : ScanError) : Prop :=
  ∃ before t after first info,
    unit.types = before ++ t :: after ∧ (∀ b ∈ before, ¬ m.Taken b) ∧
    m.types.find? (·.qualifiedName == t.qualifiedName) = some first ∧
    m.units[first.unit]? = some info ∧
    error = .duplicate t.qualifiedName info.path unit.info.path

/-- A name is refused exactly if the model has it. -/
theorem duplicate?_eq_none_iff {m : Model} (h : m.Indexed) {unit : SourceUnit} {t : TypeDecl} :
    m.duplicate? unit t = none ↔ ¬ m.Taken t := by
  rw [duplicate?, Option.map_eq_none_iff, h.qualified, List.findIdx?_eq_none_iff]
  constructor
  · rintro hall ⟨old, hold, heq⟩
    have hne := hall old hold
    rw [heq, beq_self_eq_true] at hne
    cases hne
  · intro hfree old hold
    exact beq_false_of_ne fun heq => hfree ⟨old, hold, heq⟩

theorem firstDuplicate?_eq_none_iff {m : Model} (h : m.Indexed) (unit : SourceUnit) :
    m.firstDuplicate? unit = none ↔ ∀ t ∈ unit.types, ¬ m.Taken t := by
  rw [firstDuplicate?, List.findSome?_eq_none_iff]
  exact forall₂_congr fun t _ => duplicate?_eq_none_iff h

/-- In an arena the path in the error is that of the first declaration under the name. -/
theorem duplicate?_eq_some {m : Model} (h : m.Arena) {unit : SourceUnit} {t : TypeDecl}
    {error : ScanError} (he : m.duplicate? unit t = some error) :
    ∃ first info, m.types.find? (·.qualifiedName == t.qualifiedName) = some first ∧
      m.units[first.unit]? = some info ∧
      error = .duplicate t.qualifiedName info.path unit.info.path := by
  obtain ⟨id, hid, rfl⟩ := Option.map_eq_some_iff.1 he
  have hfirst := find?_map_of_numbers (p := (·.qualifiedName == t.qualifiedName))
    (List.range_eq_range' ▸ h.type_ids)
  rw [← h.qualified, hid] at hfirst
  obtain ⟨first, hfind, heq⟩ := Option.map_eq_some_iff.1 hfirst
  have hmem := List.mem_of_find?_eq_some hfind
  have hget : m.types[id]? = some first := by
    have hnum := getElem?_number h.type_ids hmem
    rw [heq] at hnum
    exact hnum
  have hunit := List.getElem?_eq_getElem (h.unit_lt first hmem)
  refine ⟨first, _, hfind, hunit, ?_⟩
  simp [pathOf?, hget, hunit]

/-- An addition fails just if a name is taken and duplicates are not allowed. -/
theorem addUnit_error_iff {m : Model} (h : m.Indexed) {unit : SourceUnit} {allow : Bool} :
    (∃ error, ((Edit.addUnit unit allow).run.run m).1 = .error error) ↔
      allow = false ∧ ∃ t ∈ unit.types, m.Taken t := by
  rw [Edit.run_addUnit]
  have hdup := firstDuplicate?_eq_none_iff h unit
  cases allow with
  | true => simp
  | false =>
    cases hd : m.firstDuplicate? unit with
    | none =>
      have hfree := hdup.1 hd
      simpa using hfree
    | some error =>
      have htaken : ∃ t ∈ unit.types, m.Taken t := by
        by_contra hfree
        have hnone := hdup.2 fun t ht hm => hfree ⟨t, ht, hm⟩
        rw [hd] at hnone
        cases hnone
      simpa using htaken

/-- A failed addition says which name was taken and changes nothing. -/
theorem addUnit_error {m : Model} (h : m.Arena) {unit : SourceUnit} {allow : Bool}
    {error : ScanError} (he : ((Edit.addUnit unit allow).run.run m).1 = .error error) :
    m.Refuses unit error ∧ ((Edit.addUnit unit allow).run.run m).2 = m := by
  rw [Edit.run_addUnit] at he ⊢
  split at he
  · next hd =>
    cases he
    obtain ⟨before, t, after, hsplit, ht, hbefore⟩ := List.findSome?_eq_some_iff.1 hd
    obtain ⟨first, info, hfirst, hinfo, heq⟩ := duplicate?_eq_some h ht
    refine ⟨⟨before, t, after, first, info, hsplit, ?_, hfirst, hinfo, heq⟩, rfl⟩
    exact fun b hb => (duplicate?_eq_none_iff h.toIndexed).1 (hbefore b hb)
  · cases he

/-- An addition that goes through gives the file the next number and leaves it at the end of the
model. -/
theorem addUnit_ok {m : Model} {unit : SourceUnit} {allow : Bool} {id : UnitId}
    (hok : ((Edit.addUnit unit allow).run.run m).1 = .ok id) :
    id = m.units.length ∧ ((Edit.addUnit unit allow).run.run m).2 = m.append unit := by
  rw [Edit.run_addUnit] at hok ⊢
  split at hok
  · cases hok
  · cases hok
    exact ⟨rfl, rfl⟩

/-- **Arena and atomicity.** Whatever files of the right shape were added, strictly or not, and
however often calls were bound in between, numbers, links and indexes are good. Adding one more file
fails just if it is strict and a name of the file is taken; then the error names the first such type
and the file that took the name first, and the model is unchanged. Else the whole file is added. -/
theorem reached_arena_atomic {m : Model} (h : m.Reached SourceUnit.Shaped) :
    m.Arena ∧ ∀ (unit : SourceUnit) (allow : Bool),
      let run := (Edit.addUnit unit allow).run.run m
      ((∃ error, run.1 = .error error) ↔ allow = false ∧ ∃ t ∈ unit.types, m.Taken t) ∧
      (∀ error, run.1 = .error error → m.Refuses unit error ∧ run.2 = m) ∧
      (∀ id, run.1 = .ok id → id = m.units.length ∧ run.2 = m.append unit) := by
  have harena := h.arena
  refine ⟨harena, fun unit allow => ⟨?_, ?_, ?_⟩⟩
  · exact addUnit_error_iff harena.toIndexed
  · exact fun error he => addUnit_error harena he
  · exact fun id hok => addUnit_ok hok

/-- The sample model, whose file is refused when it is added strictly a third time. -/
theorem reached_arena_atomic_sample :
    Sample.model.Reached SourceUnit.Shaped ∧ Sample.model.Arena ∧
      (∃ error, ((Edit.addUnit Sample.shapes false).run.run Sample.model).1 = .error error) ∧
      ((Edit.addUnit Sample.shapes false).run.run Sample.model).2 = Sample.model := by
  have hreached := Sample.model_reached Sample.shapes_shaped
  obtain ⟨harena, hadd⟩ := reached_arena_atomic hreached
  obtain ⟨hfails, herror, -⟩ := hadd Sample.shapes false
  have htaken : ∃ t ∈ Sample.shapes.types, Sample.model.Taken t := by
    unfold Taken
    decide
  obtain ⟨error, he⟩ := hfails.2 ⟨rfl, htaken⟩
  exact ⟨hreached, harena, ⟨error, he⟩, (herror error he).2⟩

end Model

end Deadwood.Code
