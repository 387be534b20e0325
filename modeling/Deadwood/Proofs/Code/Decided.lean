import Deadwood.Proofs.Code.Distance
import Deadwood.Proofs.Code.Nesting

/-!
# Where a call is decided

A call is decided on one type: the one named in front of it, the superclass, the type the call
stands in, the innermost of the types around it that has a target, or the first statically imported
one that has. `Decides` says which, by what stands in the file and without the order in which the
model looks. The call is bound if that type leaves exactly one target, and to nothing else.
-/

namespace Deadwood.Code

namespace Model

/-! ## First lists -/

section FirstNonempty

variable {α β γ : Type}

theorem firstNonempty_nil_cons (ls : List (List α)) : firstNonempty ([] :: ls) = firstNonempty ls :=
  rfl

theorem firstNonempty_cons_of_ne {l : List α} (h : l ≠ []) (ls : List (List α)) :
    firstNonempty (l :: ls) = l := by
  simp [firstNonempty, h]

/-- Where the first lists have nothing, the others decide. -/
theorem firstNonempty_append_of_nil {xs ys : List (List α)} (h : firstNonempty xs = []) :
    firstNonempty (xs ++ ys) = firstNonempty ys := by
  induction xs with
  | nil => rfl
  | cons x xs ih =>
    by_cases hx : x = []
    · subst hx
      rw [List.cons_append, firstNonempty_nil_cons, ih h]
    · rw [firstNonempty_cons_of_ne hx] at h
      exact absurd h hx

theorem firstNonempty_append_of_ne {xs ys : List (List α)} (h : firstNonempty xs ≠ []) :
    firstNonempty (xs ++ ys) = firstNonempty xs := by
  induction xs with
  | nil => exact absurd rfl h
  | cons x xs ih =>
    by_cases hx : x = []
    · subst hx
      rw [List.cons_append, firstNonempty_nil_cons, firstNonempty_nil_cons, ih h]
    · rw [List.cons_append, firstNonempty_cons_of_ne hx, firstNonempty_cons_of_ne hx]

/-- Elements without a value count as if they had an empty list. -/
theorem firstNonempty_filterMap (xs : List α) (g : α → Option β) (f : β → List γ) :
    firstNonempty ((xs.filterMap g).map f) =
      firstNonempty (xs.map fun x => ((g x).map f).getD []) := by
  induction xs with
  | nil => rfl
  | cons x xs ih =>
    cases hx : g x with
    | none => simpa [hx, firstNonempty_nil_cons] using ih
    | some y =>
      by_cases hy : f y = []
      · simpa [hx, hy, firstNonempty_nil_cons] using ih
      · simp [hx, firstNonempty_cons_of_ne hy]

theorem firstNonempty_filter (xs : List α) (p : α → Bool) (f : α → List γ) :
    firstNonempty ((xs.filter p).map f) =
      firstNonempty (xs.map fun x => if p x then f x else []) := by
  rw [← List.filterMap_eq_filter, firstNonempty_filterMap]
  congr 2
  funext x
  cases hp : p x <;> simp [Option.guard, hp]

/-- A list that comes again has no say, as it would have decided the first time. -/
theorem firstNonempty_eraseDups (xs : List Nat) (f : Nat → List α) :
    firstNonempty (xs.eraseDups.map f) = firstNonempty (xs.map f) := by
  induction hn : xs.length using Nat.strongRecOn generalizing xs with
  | ind n ih =>
    cases xs with
    | nil => rfl
    | cons x xs =>
      have hlt : (xs.filter fun y => !y == x).length < n := by
        have hle := List.length_filter_le (fun y => !y == x) xs
        rw [List.length_cons] at hn
        omega
      rw [List.eraseDups_cons, List.map_cons, List.map_cons]
      by_cases hx : f x = []
      · rw [hx, firstNonempty_nil_cons, firstNonempty_nil_cons, ih _ hlt _ rfl,
          firstNonempty_filter]
        congr 1
        refine List.map_congr_left fun y _ => ?_
        by_cases hy : y = x
        · simp [hy, hx]
        · simp [hy]
      · rw [firstNonempty_cons_of_ne hx, firstNonempty_cons_of_ne hx]

/-- A list decides exactly if it comes from an item before which all items have nothing. -/
theorem firstNonempty_map_eq_iff {xs : List α} {f : α → List β} {l : List β} (hl : l ≠ []) :
    firstNonempty (xs.map f) = l ↔
      ∃ before x after, xs = before ++ x :: after ∧ f x = l ∧ ∀ y ∈ before, f y = [] := by
  constructor
  · intro h
    induction xs with
    | nil => exact absurd h.symm hl
    | cons x xs ih =>
      by_cases hx : f x = []
      · rw [List.map_cons, hx, firstNonempty_nil_cons] at h
        obtain ⟨before, y, after, rfl, hy, hbefore⟩ := ih h
        refine ⟨x :: before, y, after, rfl, hy, ?_⟩
        simpa [hx] using hbefore
      · rw [List.map_cons, firstNonempty_cons_of_ne hx] at h
        exact ⟨[], x, xs, rfl, h, by simp⟩
  · rintro ⟨before, x, after, rfl, rfl, hbefore⟩
    have hnil : firstNonempty (before.map f) = [] := by
      rw [firstNonempty_eq_nil_iff]
      simpa using hbefore
    rw [List.map_append, firstNonempty_append_of_nil hnil, List.map_cons,
      firstNonempty_cons_of_ne hl]

/-- The first element of a kind that has a list which is not empty, and none of the kind before. -/
theorem firstNonempty_filter_eq_iff {xs : List α} {p : α → Bool} {f : α → List β} {l : List β}
    (hl : l ≠ []) :
    firstNonempty ((xs.filter p).map f) = l ↔
      ∃ before x after, xs = before ++ x :: after ∧ p x = true ∧ f x = l ∧
        ∀ y ∈ before, p y = true → f y = [] := by
  rw [firstNonempty_filter, firstNonempty_map_eq_iff hl]
  refine exists_congr fun before => exists_congr fun x => exists_congr fun after =>
    and_congr_right fun _ => ?_
  have hx : (if p x then f x else []) = l ↔ p x = true ∧ f x = l := by
    cases p x <;> simp [hl.symm]
  simp only [hx, ite_eq_right_iff, and_assoc]

end FirstNonempty

/-! ## The types around a call -/

variable {m : Model} {c : CallSite}

/-- A type is declared in every type that comes after it on the way outwards. -/
theorem pairwise_enclosingTypes (hm : m.Arena) (a : TypeId) :
    (m.enclosingTypes a).Pairwise m.Inside := by
  induction a using Nat.strongRecOn with
  | ind a ih =>
    rw [enclosingTypes_eq hm]
    cases houter : m.types[a]?.bind (·.enclosing) with
    | none => simp
    | some outer =>
      have hin := bind_enclosing_iff.1 houter
      rw [Option.map_some, Option.getD_some]
      refine List.pairwise_cons.2 ⟨fun b hb => ?_, ih outer (hin.lt hm)⟩
      rcases (mem_enclosingTypes hm).1 hb with rfl | hb
      · exact .single hin
      · exact .head hin hb

/-- The call stands in the body of a type, at any depth. -/
def StandsIn (m : Model) (c : CallSite) (type : TypeId) : Prop :=
  ∃ here, c.enclosingType = some here ∧ (type = here ∨ m.Inside here type)

/-- The chain that is gone through for a call has the types that the call stands in. -/
theorem mem_enclosingChain (hm : m.Arena) {type : TypeId} :
    type ∈ m.enclosingChain c.enclosingType ↔ m.StandsIn c type := by
  unfold enclosingChain StandsIn
  cases c.enclosingType with
  | none => simp
  | some here => simp [mem_enclosingTypes hm]

theorem pairwise_enclosingChain (hm : m.Arena) (place : Option TypeId) :
    (m.enclosingChain place).Pairwise m.Inside := by
  cases place with
  | none => exact .nil
  | some here => exact pairwise_enclosingTypes hm here

/-- Before a type on the way outwards come the types that are inside of it. -/
theorem mem_before_iff (hm : m.Arena) {before after : List TypeId} {type inner : TypeId}
    (h : m.enclosingChain c.enclosingType = before ++ type :: after) :
    inner ∈ before ↔ m.StandsIn c inner ∧ m.Inside inner type := by
  have hpairs := pairwise_enclosingChain hm c.enclosingType
  rw [h] at hpairs
  obtain ⟨-, hafter, hbefore⟩ := List.pairwise_append.1 hpairs
  rw [← mem_enclosingChain hm, h]
  constructor
  · intro hinner
    exact ⟨List.mem_append_left _ hinner, hbefore inner hinner type List.mem_cons_self⟩
  · rintro ⟨hmem, hinside⟩
    rcases List.mem_append.1 hmem with hinner | hinner
    · exact hinner
    · have hlt := hinside.lt hm
      rcases List.mem_cons.1 hinner with rfl | hinner
      · exact absurd hlt (Nat.lt_irrefl _)
      · have hgt := (List.rel_of_pairwise_cons hafter hinner).lt hm
        exact absurd hlt (Nat.lt_asymm hgt)

/-! ## The deciding type -/

/-- The static methods of an imported type that a call can target. -/
def offered (m : Model) (c : CallSite) (i : StaticImport) : List MethodId :=
  ((m.resolveIn? i.typeName c.unit none).map (m.staticTargetsOn c)).getD []

/-- A type that a static import gives a call with targets: by the first import of the method's name
that offers some, or if none does, by the first import on demand that does. -/
inductive Imported (m : Model) (c : CallSite) : TypeId → Prop where
  | single {info : UnitInfo} {before after : List StaticImport} {i : StaticImport} {type : TypeId}
      (hinfo : m.units[c.unit]? = some info)
      (hsplit : info.staticImports = before ++ i :: after)
      (hmember : i.member = some c.methodName)
      (htype : m.resolveIn? i.typeName c.unit none = some type)
      (hfound : m.staticTargetsOn c type ≠ [])
      (hbefore : ∀ j ∈ before, j.member = some c.methodName → m.offered c j = []) :
      Imported m c type
  | onDemand {info : UnitInfo} {before after : List StaticImport} {i : StaticImport} {type : TypeId}
      (hinfo : m.units[c.unit]? = some info)
      (hsplit : info.staticImports = before ++ i :: after)
      (hmember : i.member = none)
      (htype : m.resolveIn? i.typeName c.unit none = some type)
      (hfound : m.staticTargetsOn c type ≠ [])
      (hbefore : ∀ j ∈ before, j.member = none → m.offered c j = [])
      (hsingle : ∀ j ∈ info.staticImports, j.member = some c.methodName → m.offered c j = []) :
      Imported m c type

/-- A type decides a call, by the targets it leaves. -/
inductive Decides (m : Model) (c : CallSite) : TypeId → List MethodId → Prop where
  /-- The type is named, or is that of a variable. -/
  | named {name : String} {type : TypeId} (hname : c.staticType? = some name)
      (htype : m.resolveIn? name c.unit c.enclosingType = some type) :
      Decides m c type (m.targetsOn c type)
  | super {here type : TypeId} {t : TypeDecl} {name : String} (hreceiver : c.receiver = .super)
      (hhere : c.enclosingType = some here) (ht : m.types[here]? = some t)
      (hname : t.superclass = some name) (htype : m.resolve? name here = some type) :
      Decides m c type (m.targetsOn c type)
  | this {type : TypeId} (hreceiver : c.receiver = .this) (hhere : c.enclosingType = some type) :
      Decides m c type (m.targetsOn c type)
  /-- The type is the innermost one with targets. -/
  | scope {type : TypeId} (hreceiver : c.receiver = .implicit) (hin : m.StandsIn c type)
      (hfound : m.targetsOn c type ≠ [])
      (hinner : ∀ inner, m.StandsIn c inner → m.Inside inner type → m.targetsOn c inner = []) :
      Decides m c type (m.targetsOn c type)
  /-- No type around the call has targets. -/
  | imported {type : TypeId} (hreceiver : c.receiver = .implicit)
      (hnone : ∀ outer, m.StandsIn c outer → m.targetsOn c outer = [])
      (himported : m.Imported c type) :
      Decides m c type (m.staticTargetsOn c type)

/-- The targets that the static imports leave. -/
theorem firstNonempty_staticTargets {info : UnitInfo} (hinfo : m.units[c.unit]? = some info) :
    firstNonempty ((m.staticTargets c.unit c.methodName).map (m.staticTargetsOn c)) =
      firstNonempty ((info.staticImports.filter (·.member == some c.methodName)).map (m.offered c)
        ++ (info.staticImports.filter (·.member.isNone)).map (m.offered c)) := by
  simp only [staticTargets, hinfo, firstNonempty_eraseDups]
  rw [firstNonempty_filterMap, staticImportsOf, List.map_append]
  rfl

/-- An import that offers anything names a type of the model. -/
theorem exists_of_offered_eq {i : StaticImport} {found : List MethodId} (h : m.offered c i = found)
    (hfound : found ≠ []) :
    ∃ type, m.resolveIn? i.typeName c.unit none = some type ∧ m.staticTargetsOn c type = found := by
  unfold offered at h
  cases htype : m.resolveIn? i.typeName c.unit none with
  | none =>
    rw [htype] at h
    exact absurd h.symm hfound
  | some type =>
    rw [htype] at h
    exact ⟨type, rfl, h⟩

theorem offered_eq {i : StaticImport} {type : TypeId}
    (h : m.resolveIn? i.typeName c.unit none = some type) :
    m.offered c i = m.staticTargetsOn c type := by
  rw [offered, h, Option.map_some, Option.getD_some]

theorem single_eq_nil_iff {info : UnitInfo} :
    firstNonempty
        ((info.staticImports.filter (·.member == some c.methodName)).map (m.offered c)) = [] ↔
      ∀ j ∈ info.staticImports, j.member = some c.methodName → m.offered c j = [] := by
  rw [firstNonempty_eq_nil_iff, List.forall_mem_map]
  simp

/-- If a type is the one that the imports of a file bring the method from, its methods decide. -/
theorem Imported.firstNonempty_eq {type : TypeId} (h : m.Imported c type) :
    firstNonempty ((m.staticTargets c.unit c.methodName).map (m.staticTargetsOn c)) =
      m.staticTargetsOn c type := by
  cases h with
  | single hinfo hsplit hmember htype hfound hbefore =>
    have hfirst := (firstNonempty_filter_eq_iff (p := (·.member == some c.methodName)) hfound).2
      ⟨_, _, _, hsplit, beq_iff_eq.2 hmember, offered_eq htype,
        fun j hj hmem => hbefore j hj (beq_iff_eq.1 hmem)⟩
    rw [firstNonempty_staticTargets hinfo, firstNonempty_append_of_ne (hfirst ▸ hfound), hfirst]
  | onDemand hinfo hsplit hmember htype hfound hbefore hsingle =>
    have hfirst := (firstNonempty_filter_eq_iff (p := (·.member.isNone)) hfound).2
      ⟨_, _, _, hsplit, Option.isNone_iff_eq_none.2 hmember, offered_eq htype,
        fun j hj hmem => hbefore j hj (Option.isNone_iff_eq_none.1 hmem)⟩
    rw [firstNonempty_staticTargets hinfo,
      firstNonempty_append_of_nil (single_eq_nil_iff.2 hsingle), hfirst]

/-- And if the imports decide anything, there is such a type. -/
theorem exists_imported {found : List MethodId} (hfound : found ≠ [])
    (h : firstNonempty ((m.staticTargets c.unit c.methodName).map (m.staticTargetsOn c)) = found) :
    ∃ type, m.Imported c type ∧ m.staticTargetsOn c type = found := by
  cases hinfo : m.units[c.unit]? with
  | none =>
    simp only [staticTargets, hinfo, List.map_nil] at h
    exact absurd h.symm hfound
  | some info =>
    rw [firstNonempty_staticTargets hinfo] at h
    by_cases hsingle : firstNonempty
        ((info.staticImports.filter (·.member == some c.methodName)).map (m.offered c)) = []
    · rw [firstNonempty_append_of_nil hsingle, firstNonempty_filter_eq_iff hfound] at h
      obtain ⟨before, i, after, hsplit, hmember, hi, hbefore⟩ := h
      obtain ⟨type, htype, rfl⟩ := exists_of_offered_eq hi hfound
      refine ⟨type, .onDemand hinfo hsplit (Option.isNone_iff_eq_none.1 hmember) htype hfound ?_
        (single_eq_nil_iff.1 hsingle), rfl⟩
      exact fun j hj hmem => hbefore j hj (Option.isNone_iff_eq_none.2 hmem)
    · rw [firstNonempty_append_of_ne hsingle, firstNonempty_filter_eq_iff hfound] at h
      obtain ⟨before, i, after, hsplit, hmember, hi, hbefore⟩ := h
      obtain ⟨type, htype, rfl⟩ := exists_of_offered_eq hi hfound
      refine ⟨type, .single hinfo hsplit (beq_iff_eq.1 hmember) htype hfound ?_, rfl⟩
      exact fun j hj hmem => hbefore j hj (beq_iff_eq.2 hmem)

theorem chain_eq_nil_iff (hm : m.Arena) :
    firstNonempty ((m.enclosingChain c.enclosingType).map (m.targetsOn c)) = [] ↔
      ∀ outer, m.StandsIn c outer → m.targetsOn c outer = [] := by
  rw [firstNonempty_eq_nil_iff, List.forall_mem_map]
  simp only [mem_enclosingChain hm]

/-- With a type name or a typed variable in front of the call, only that type is asked. -/
theorem deciding_of_staticType? {name : String} (h : c.staticType? = some name) :
    m.deciding c = ((m.resolveIn? name c.unit c.enclosingType).map (m.targetsOn c)).getD [] := by
  unfold CallSite.staticType? at h
  split at h
  · next name' hreceiver =>
    cases h
    simp only [deciding, hreceiver]
  · next var type hreceiver =>
    subst h
    simp only [deciding, hreceiver]
  · cases h

/-- What a deciding type leaves is what the call is decided among. -/
theorem Decides.deciding_eq (hm : m.Arena) {type : TypeId} {found : List MethodId}
    (h : m.Decides c type found) : m.deciding c = found := by
  cases h with
  | named hname htype =>
    rw [deciding_of_staticType? hname, htype, Option.map_some, Option.getD_some]
  | super hreceiver hhere ht hname htype => simp [deciding, hreceiver, hhere, ht, hname, htype]
  | this hreceiver hhere => simp [deciding, hreceiver, hhere]
  | scope hreceiver hin hfound hinner =>
    obtain ⟨before, after, hsplit⟩ := List.append_of_mem ((mem_enclosingChain hm).2 hin)
    have hbefore : ∀ inner ∈ before, m.targetsOn c inner = [] := by
      intro inner hmem
      obtain ⟨hstands, hinside⟩ := (mem_before_iff hm hsplit).1 hmem
      exact hinner inner hstands hinside
    have hfirst := (firstNonempty_map_eq_iff hfound).2 ⟨before, type, after, hsplit, rfl, hbefore⟩
    simp only [deciding, hreceiver]
    rw [firstNonempty_append_of_ne (hfirst ▸ hfound), hfirst]
  | imported hreceiver hnone himported =>
    simp only [deciding, hreceiver]
    rw [firstNonempty_append_of_nil ((chain_eq_nil_iff hm).2 hnone), himported.firstNonempty_eq]

/-- A call with nothing in front of it is decided by a type around it or by an import. -/
theorem exists_decides_of_implicit (hm : m.Arena) (hreceiver : c.receiver = .implicit)
    (h : m.deciding c ≠ []) : ∃ type, m.Decides c type (m.deciding c) := by
  have hdeciding : m.deciding c =
      firstNonempty ((m.enclosingChain c.enclosingType).map (m.targetsOn c)
        ++ (m.staticTargets c.unit c.methodName).map (m.staticTargetsOn c)) := by
    simp only [deciding, hreceiver]
  by_cases hchain : firstNonempty ((m.enclosingChain c.enclosingType).map (m.targetsOn c)) = []
  · rw [firstNonempty_append_of_nil hchain] at hdeciding
    obtain ⟨type, himported, hfound⟩ := exists_imported h hdeciding.symm
    rw [← hfound]
    exact ⟨type, .imported hreceiver ((chain_eq_nil_iff hm).1 hchain) himported⟩
  · rw [firstNonempty_append_of_ne hchain] at hdeciding
    obtain ⟨before, type, after, hsplit, hfound, hbefore⟩ :=
      (firstNonempty_map_eq_iff h).1 hdeciding.symm
    have hin : m.StandsIn c type := (mem_enclosingChain hm).1 (by simp [hsplit])
    rw [← hfound] at h ⊢
    refine ⟨type, .scope hreceiver hin h fun inner hinner hinside => ?_⟩
    exact hbefore inner ((mem_before_iff hm hsplit).2 ⟨hinner, hinside⟩)

theorem exists_decides_of_super (hreceiver : c.receiver = .super) (h : m.deciding c ≠ []) :
    ∃ type, m.Decides c type (m.deciding c) := by
  simp only [deciding, hreceiver] at h ⊢
  cases hhere : c.enclosingType with
  | none => simp [hhere] at h
  | some here =>
    simp only [hhere] at h ⊢
    cases htype : (m.types[here]?.bind (·.superclass)).bind (m.resolve? · here) with
    | none => simp [htype] at h
    | some type =>
      obtain ⟨name, hname, htype⟩ := Option.bind_eq_some_iff.1 htype
      obtain ⟨t, ht, hname⟩ := Option.bind_eq_some_iff.1 hname
      exact ⟨type, .super hreceiver hhere ht hname htype⟩

/-- A call that is decided among some targets has a deciding type. -/
theorem exists_decides (hm : m.Arena) (h : m.deciding c ≠ []) :
    ∃ type, m.Decides c type (m.deciding c) := by
  cases hname : c.staticType? with
  | some name =>
    rw [deciding_of_staticType? hname] at h ⊢
    cases htype : m.resolveIn? name c.unit c.enclosingType with
    | none => simp [htype] at h
    | some type => exact ⟨type, .named hname htype⟩
  | none =>
    cases hreceiver : c.receiver with
    | implicit => exact exists_decides_of_implicit hm hreceiver h
    | this =>
      simp only [deciding, hreceiver] at h ⊢
      cases hhere : c.enclosingType with
      | none => simp [hhere] at h
      | some here => exact ⟨here, .this hreceiver hhere⟩
    | super => exact exists_decides_of_super hreceiver h
    | type name => simp [CallSite.staticType?, hreceiver] at hname
    | «variable» name type =>
      simp only [CallSite.staticType?, hreceiver] at hname
      simp [deciding, hreceiver, hname] at h
    | expression => simp [deciding, hreceiver] at h

/-- A call is bound where there is exactly one method to decide for. -/
theorem bind?_eq_some_iff {method : MethodId} :
    m.bind? c = some method ↔ m.deciding c = [method] := by
  unfold bind?
  split
  · next only hd => simp [hd]
  · next hmany =>
    constructor
    · intro h
      cases h
    · intro h
      exact absurd h (hmany method)

theorem nodup_targetsOn (hm : m.Arena) (type : TypeId) : (m.targetsOn c type).Nodup :=
  nodup_findMethods hm type

theorem Decides.nodup (hm : m.Arena) {type : TypeId} {found : List MethodId}
    (h : m.Decides c type found) : found.Nodup := by
  cases h with
  | imported => exact (nodup_targetsOn hm type).filter _
  | named | super | this | scope => exact nodup_targetsOn hm type

/-- A type decides among its own and inherited methods. -/
theorem Decides.subset_targetsOn {type : TypeId} {found : List MethodId}
    (h : m.Decides c type found) : found ⊆ m.targetsOn c type := by
  cases h with
  | imported => exact List.filter_sublist.subset
  | named | super | this | scope => exact List.Subset.refl _

theorem eq_singleton_iff {found : List MethodId} (h : found.Nodup) {method : MethodId} :
    found = [method] ↔ ∀ x, x ∈ found ↔ x = method := by
  constructor
  · rintro rfl x
    exact List.mem_singleton
  · intro hall
    refine List.perm_singleton.1 ((List.perm_ext_iff_of_nodup h (List.nodup_singleton _)).2 ?_)
    simpa using hall

/-- **Calls are bound to the only target that is left.** No two types that decide a call leave
different targets. The call is bound to a method if and only if that method is the only one left;
so a call which no type decides is not bound, and a type that leaves several methods is not passed
over. Each method left has the name of the call, as many parameters as an invocation has arguments,
and is declared by the deciding type or one above. -/
theorem bind?_exact {m : Model} (h : m.Reached SourceUnit.Shaped) (c : CallSite) :
    (∀ method, m.bind? c = some method ↔
      ∃ type found, m.Decides c type found ∧ ∀ x, x ∈ found ↔ x = method) ∧
    ∀ type found, m.Decides c type found →
      (∀ type' found', m.Decides c type' found' → found' = found) ∧
      (∀ x ∈ found, ∀ y ∈ found, x ≠ y → m.bind? c = none) ∧
      ∀ x ∈ found, ∃ d, m.methods[x]? = some d ∧ d.name = c.methodName ∧
        (c.kind = .invocation → ∀ n ∈ c.argCount, d.parameters.length = n) ∧
        (d.declaringType = type ∨ d.declaringType ∈ m.ancestors type) := by
  have hm := h.arena
  constructor
  · intro method
    rw [bind?_eq_some_iff]
    constructor
    · intro honly
      have hsome : m.deciding c ≠ [] := by simp [honly]
      obtain ⟨type, hdecides⟩ := exists_decides hm hsome
      exact ⟨type, _, hdecides, (eq_singleton_iff (hdecides.nodup hm)).1 honly⟩
    · rintro ⟨type, found, hdecides, honly⟩
      rw [hdecides.deciding_eq hm]
      exact (eq_singleton_iff (hdecides.nodup hm)).2 honly
  · intro type found hdecides
    have heq := hdecides.deciding_eq hm
    refine ⟨fun type' found' hdecides' => ?_, fun x hx y hy hne => ?_, fun x hx => ?_⟩
    · rw [← hdecides'.deciding_eq hm, heq]
    · refine Option.eq_none_iff_forall_ne_some.2 fun method hbound => hne ?_
      rw [bind?_eq_some_iff, heq] at hbound
      subst hbound
      rw [List.mem_singleton.1 hx, List.mem_singleton.1 hy]
    · obtain ⟨above, habove, d, hd, rfl, hname, harity⟩ :=
        mem_findMethods hm (hdecides.subset_targetsOn hx)
      refine ⟨d, hd, hname, fun hkind => ?_, habove⟩
      rw [CallSite.arity, hkind] at harity
      exact harity

end Model

namespace Sample

def call (id : CallId) (name : String) : CallSite where
  id := id
  kind := .invocation
  methodName := name
  argCount := some 1
  receiver := .implicit
  enclosingType := some 1
  unit := 0
  line := 3
  binding := none

/-- A class with a method `area`, a class in it with two more that take as many arguments, and
two calls there: of `area`, and of a method `round` that is imported. -/
def nest : SourceUnit where
  info := ⟨⟨"a/Nest.java"⟩, some "a", [], [⟨"a.Lost", some "round"⟩, ⟨"a.Tools", none⟩]⟩
  types := [
    { type 0 "Nest" [0] with interfaces := [] },
    { type 1 "Egg" [1, 2] with
      qualifiedName := "a.Nest.Egg", enclosing := some 0, interfaces := [] },
    { type 2 "Tools" [3] with interfaces := [] }]
  methods := [
    { method 0 0 with parameters := [⟨"side", "int"⟩] },
    { method 1 1 with parameters := [⟨"side", "int"⟩] },
    { method 2 1 with parameters := [⟨"sides", "List<Integer>"⟩] },
    { method 3 2 with name := "round", parameters := [⟨"x", "double"⟩], isStatic := true }]
  calls := [call 0 "area", call 1 "round"]

end Sample

/-- The outer `area` would be the only one, but the inner ones decide. -/
theorem Model.bind?_exact_sample :
    let m := ((Edit.addUnit Sample.nest false).run.run .empty).2
    m.Reached SourceUnit.Shaped ∧ m.calls = [Sample.call 0 "area", Sample.call 1 "round"] ∧
    m.Decides (Sample.call 0 "area") 1 [1, 2] ∧ m.targetsOn (Sample.call 0 "area") 0 = [0] ∧
    m.bind? (Sample.call 0 "area") = none ∧
    m.Decides (Sample.call 1 "round") 2 [3] ∧ m.bind? (Sample.call 1 "round") = some 3 := by
  intro m
  have hshaped : Sample.nest.Shaped := by
    constructor
    · constructor <;> decide
    all_goals decide
  have hreached : m.Reached SourceUnit.Shaped := .add false .empty hshaped
  have hm := hreached.arena
  have hinner : m.targetsOn (Sample.call 0 "area") 1 = [1, 2] := by decide +kernel
  have harea : m.Decides (Sample.call 0 "area") 1 [1, 2] := by
    rw [← hinner]
    refine .scope rfl ⟨1, rfl, .inl rfl⟩ (by simp [hinner]) ?_
    rintro inner ⟨here, hhere, rfl | hin⟩ hinside
    · cases hhere
      exact absurd (hinside.lt hm) (Nat.lt_irrefl 1)
    · cases hhere
      exact absurd (hinside.lt hm) (Nat.lt_asymm (hin.lt hm))
  have hstatic : m.staticTargetsOn (Sample.call 1 "round") 2 = [3] := by decide +kernel
  have hround : m.Decides (Sample.call 1 "round") 2 [3] := by
    have hsplit : Sample.nest.info.staticImports =
        [⟨"a.Lost", some "round"⟩] ++ ⟨"a.Tools", none⟩ :: [] := rfl
    have hlost : m.offered (Sample.call 1 "round") ⟨"a.Lost", some "round"⟩ = [] := by
      decide +kernel
    rw [← hstatic]
    refine .imported rfl ((Model.chain_eq_nil_iff hm).1 (by decide +kernel)) ?_
    refine .onDemand rfl hsplit rfl (by decide +kernel) (by simp [hstatic]) ?_ ?_
    · intro j hj hmember
      simp only [List.mem_singleton] at hj
      subst hj
      cases hmember
    · intro j hj hmember
      simp only [hsplit, List.mem_append, List.mem_cons, List.not_mem_nil, or_false] at hj
      rcases hj with rfl | rfl
      · exact hlost
      · cases hmember
  refine ⟨hreached, rfl, harea, by decide +kernel, ?_, hround, ?_⟩
  · obtain ⟨-, hall⟩ := Model.bind?_exact hreached (Sample.call 0 "area")
    exact (hall 1 _ harea).2.1 1 (by decide) 2 (by decide) (by decide)
  · obtain ⟨hbind, -⟩ := Model.bind?_exact hreached (Sample.call 1 "round")
    exact (hbind 3).2 ⟨2, _, hround, by simp⟩

end Deadwood.Code
