import Deadwood.Proofs.Code.Arena
import Mathlib.Logic.Relation

/-!
# Nesting

The types around a type are found by going outwards in at most as many steps as there are types. In
an arena the outer type has the smaller number, so the steps always suffice: `enclosingTypes_eq` is
the equation without a bound, and `mem_enclosingTypes` says that exactly the type itself and the
types it is `Inside` of are found. Where the qualified name of a nested type continues that of the
type around it (`ScopedNames`), a type inside another one has a name that starts with the other
one's and a dot (`Inside.qualifiedName`).
-/

namespace Deadwood.Code

namespace Model

/-- The type `a` is declared directly in `b`. -/
def DeclaredIn (m : Model) (a b : TypeId) : Prop :=
  ∃ t, m.types[a]? = some t ∧ t.enclosing = some b

/-- The type `a` is nested in `b`, at any depth. -/
def Inside (m : Model) : TypeId → TypeId → Prop :=
  Relation.TransGen m.DeclaredIn

variable {m : Model}

theorem bind_enclosing_iff {a b : TypeId} :
    m.types[a]?.bind (·.enclosing) = some b ↔ m.DeclaredIn a b :=
  Option.bind_eq_some_iff

/-- The type around a type has a smaller number, so that there is no way around in a circle. -/
theorem DeclaredIn.lt (h : m.Arena) {a b : Nat} (hab : m.DeclaredIn a b) : b < a := by
  obtain ⟨t, ht, he⟩ := hab
  have hlt := (h.enclosing t (List.mem_of_getElem? ht) b he).1
  rw [number_eq h.type_ids ht] at hlt
  exact hlt

theorem Inside.lt (h : m.Arena) {a b : Nat} (hab : m.Inside a b) : b < a := by
  induction hab with
  | single hab => exact hab.lt h
  | tail _ hbc ih => exact Nat.lt_trans (hbc.lt h) ih

theorem DeclaredIn.lt_length (h : m.Arena) {a b : Nat} (hab : m.DeclaredIn a b) :
    b < m.types.length := by
  have hlt := hab.lt h
  obtain ⟨t, ht, -⟩ := hab
  exact Nat.lt_trans hlt (List.getElem?_eq_some_iff.1 ht).1

/-! ## The types around a type -/

theorem enclosingFrom_first (h : m.Arena) (fuel : Nat) : m.enclosingFrom fuel 0 = [0] := by
  cases fuel with
  | zero => rfl
  | succ fuel =>
    simp only [enclosingFrom]
    split
    · next outer houter => exact absurd ((bind_enclosing_iff.1 houter).lt h) (Nat.not_lt_zero _)
    · rfl

/-- Going outwards takes no more steps than the number of the type. -/
theorem enclosingFrom_congr (h : m.Arena) {fuel fuel' id : Nat} (hf : id ≤ fuel)
    (hf' : id ≤ fuel') : m.enclosingFrom fuel id = m.enclosingFrom fuel' id := by
  induction fuel generalizing fuel' id with
  | zero =>
    rw [Nat.le_zero.1 hf, enclosingFrom_first h, enclosingFrom_first h]
  | succ fuel ih =>
    cases fuel' with
    | zero => rw [Nat.le_zero.1 hf', enclosingFrom_first h, enclosingFrom_first h]
    | succ fuel' =>
      simp only [enclosingFrom]
      split
      · next outer houter =>
        have hlt := (bind_enclosing_iff.1 houter).lt h
        rw [ih (Nat.le_of_lt_succ (Nat.lt_of_lt_of_le hlt hf))
          (Nat.le_of_lt_succ (Nat.lt_of_lt_of_le hlt hf'))]
      · rfl

/-- The types around a type are the type and those around the type it is declared in. -/
theorem enclosingTypes_eq (h : m.Arena) (id : TypeId) :
    m.enclosingTypes id =
      id :: ((m.types[id]?.bind (·.enclosing)).map m.enclosingTypes).getD [] := by
  unfold enclosingTypes
  cases hn : m.types.length with
  | zero =>
    have hnone : m.types[id]? = none := List.getElem?_eq_none (by omega)
    simp [enclosingFrom, hnone]
  | succ n =>
    cases houter : m.types[id]?.bind (·.enclosing) with
    | none => simp [enclosingFrom, houter]
    | some outer =>
      have hin := bind_enclosing_iff.1 houter
      have hlt := hin.lt_length h
      have hfuel : m.enclosingFrom n outer = m.enclosingFrom (n + 1) outer :=
        enclosingFrom_congr h (by omega) (by omega)
      simp [enclosingFrom, houter, hfuel]

/-- The enclosing types of a type are itself and those that it is inside of. -/
theorem mem_enclosingTypes (h : m.Arena) {a b : TypeId} :
    b ∈ m.enclosingTypes a ↔ b = a ∨ m.Inside a b := by
  induction a using Nat.strongRecOn with
  | ind a ih =>
    rw [enclosingTypes_eq h, List.mem_cons]
    refine or_congr_right ?_
    cases houter : m.types[a]?.bind (·.enclosing) with
    | none =>
      refine ⟨fun hb => absurd hb List.not_mem_nil, fun hab => ?_⟩
      obtain ⟨c, hac, -⟩ := Relation.TransGen.head'_iff.1 hab
      rw [bind_enclosing_iff.2 hac] at houter
      cases houter
    | some outer =>
      have hin := bind_enclosing_iff.1 houter
      rw [Option.map_some, Option.getD_some, ih outer (hin.lt h)]
      constructor
      · rintro (rfl | hrest)
        · exact .single hin
        · exact .head hin hrest
      · intro hab
        obtain ⟨c, hac, hcb⟩ := Relation.TransGen.head'_iff.1 hab
        have hc : c = outer := by
          rw [bind_enclosing_iff.2 hac] at houter
          exact Option.some_inj.1 houter
        subst hc
        rcases Relation.reflTransGen_iff_eq_or_transGen.1 hcb with rfl | hcb
        · exact Or.inl rfl
        · exact Or.inr hcb

/-- A type counts as nested in itself. -/
theorem isNestedIn_iff (h : m.Arena) {inner outer : TypeId} :
    m.isNestedIn inner outer = true ↔ outer = inner ∨ m.Inside inner outer := by
  rw [isNestedIn, List.contains_iff_mem, mem_enclosingTypes h]

/-- All types around a type of the model are types of the model. -/
theorem lt_of_mem_enclosingTypes (h : m.Arena) {a b : TypeId} (ha : a < m.types.length)
    (hb : b ∈ m.enclosingTypes a) : b < m.types.length := by
  rcases (mem_enclosingTypes h).1 hb with rfl | hab
  · exact ha
  · exact Nat.lt_trans (hab.lt h) ha

end Model

/-! ## Names of nested types -/

/-- A nested type is qualified by the type around it. -/
def SourceUnit.ScopedNames (u : SourceUnit) : Prop :=
  ∀ t ∈ u.types, ∀ e ∈ t.enclosing, ∃ outer, u.types[e]? = some outer ∧
    t.qualifiedName = Text.joinDot outer.qualifiedName t.name

namespace Model

/-- Every nested type of the model is qualified by the type around it. -/
def ScopedNames (m : Model) : Prop :=
  ∀ t ∈ m.types, ∀ e ∈ t.enclosing, ∃ outer, m.types[e]? = some outer ∧
    t.qualifiedName = Text.joinDot outer.qualifiedName t.name

theorem ScopedNames.append {m : Model} {u : SourceUnit} (h : m.ScopedNames) (hu : u.ScopedNames) :
    (m.append u).ScopedNames := by
  intro t ht e he
  rw [append_types] at ht ⊢
  rcases List.mem_append.1 ht with ht | ht
  · obtain ⟨outer, houter, hname⟩ := h t ht e he
    have hbound := (List.getElem?_eq_some_iff.1 houter).1
    exact ⟨outer, by rw [List.getElem?_append_left hbound, houter], hname⟩
  · obtain ⟨s, hs, rfl⟩ := mem_shiftedTypes.1 ht
    obtain ⟨o, ho, rfl⟩ := Option.map_eq_some_iff.1 he
    obtain ⟨outer, houter, hname⟩ := hu s hs o ho
    refine ⟨outer.shift m.units.length m.types.length m.methods.length, ?_, hname⟩
    rw [List.getElem?_append_right (Nat.le_add_left ..), Nat.add_sub_cancel, shiftedTypes,
      List.getElem?_map, houter]
    rfl

theorem Reached.scopedNames {P : SourceUnit → Prop} {m : Model} (h : Reached P m)
    (hP : ∀ u, P u → u.ScopedNames) : m.ScopedNames := by
  refine h.keeps ?_ (fun _ u hu hm => hm.append (hP u hu)) fun _ hm => hm
  intro t ht
  cases ht

/-- The qualified name of a type begins with that of each type around it. -/
theorem Inside.qualifiedName {m : Model} (h : m.ScopedNames) {a b : TypeId} (hab : m.Inside a b)
    {s t : TypeDecl} (hs : m.types[a]? = some s) (ht : m.types[b]? = some t) :
    ∃ rest, s.qualifiedName = Text.joinDot t.qualifiedName rest := by
  induction hab using Relation.TransGen.head_induction_on generalizing s with
  | single hab =>
    obtain ⟨s', hs', he⟩ := hab
    obtain ⟨outer, houter, hname⟩ := h s' (List.mem_of_getElem? hs') b he
    rw [hs] at hs'
    rw [ht] at houter
    cases hs'
    cases houter
    exact ⟨s.name, hname⟩
  | head hac _ ih =>
    obtain ⟨s', hs', he⟩ := hac
    obtain ⟨outer, houter, hname⟩ := h s' (List.mem_of_getElem? hs') _ he
    rw [hs] at hs'
    cases hs'
    obtain ⟨rest, hrest⟩ := ih houter
    refine ⟨Text.joinDot rest s.name, ?_⟩
    rw [hname, hrest]
    simp only [Text.joinDot, String.append_assoc]

end Model

end Deadwood.Code
