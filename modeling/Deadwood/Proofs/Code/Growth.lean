import Deadwood.Proofs.Code.Reached
import Deadwood.Proofs.Positions

/-!
# Files that grow

The declarations and calls of a file are collected one by one. Each of the ways in which a file
grows keeps its shape: a type or a call is added at the end, a method is added at the end and to the
list of its type, and a type is changed in what links nothing.
-/

namespace Deadwood

/-! ## Changes of one element -/

section Modify

variable {α β : Type} {f : α → α} {xs : List α} {i : Nat}

theorem exists_of_mem_modify {x : α} (h : x ∈ xs.modify i f) :
    ∃ j y, xs[j]? = some y ∧ x = if i = j then f y else y := by
  obtain ⟨j, hj⟩ := List.mem_iff_getElem?.1 h
  rw [List.getElem?_modify] at hj
  obtain ⟨y, hy, rfl⟩ := Option.map_eq_some_iff.1 hj
  exact ⟨j, y, hy, rfl⟩

theorem map_modify {g : α → β} (h : ∀ x, g (f x) = g x) : (xs.modify i f).map g = xs.map g := by
  refine List.ext_getElem? fun j => ?_
  rw [List.getElem?_map, List.getElem?_map, List.getElem?_modify]
  cases xs[j]? with
  | none => rfl
  | some x =>
    refine congrArg some ?_
    split
    · exact h x
    · rfl

end Modify

namespace Code.SourceUnit.Shaped

variable {u : SourceUnit} (h : u.Shaped)

include h

/-- A new type has the next number and no methods yet, and stands inside one that is there. -/
theorem addType {t : TypeDecl} (hid : t.id = u.types.length)
    (henclosing : ∀ e ∈ t.enclosing, e < u.types.length) (hmethods : t.methods = []) :
    Shaped { u with types := u.types ++ [t] } where
  type_ids := append_numbers h.type_ids (by rw [List.map_singleton, hid]; rfl)
  method_ids := h.method_ids
  call_ids := h.call_ids
  enclosing_lt s hs e he := by
    rcases List.mem_append.1 hs with hs | hs
    · exact h.enclosing_lt s hs e he
    · cases List.mem_singleton.1 hs
      rw [hid]
      exact henclosing e he
  declaring_lt d hd := by
    rw [List.length_append]
    exact Nat.lt_add_right _ (h.declaring_lt d hd)
  methods_eq s hs := by
    rcases List.mem_append.1 hs with hs | hs
    · exact h.methods_eq s hs
    · cases List.mem_singleton.1 hs
      rw [hmethods, hid, eq_comm, List.findIdxs_eq_nil_iff]
      exact fun d hd => beq_false_of_ne (Nat.ne_of_lt (h.declaring_lt d hd))
  place_lt c hc e he := by
    rw [List.length_append]
    exact Nat.lt_add_right _ (h.place_lt c hc e he)
  unbound := h.unbound

/-- A new call has the next number, stands inside a type that is there and is not bound. -/
theorem addCall {c : CallSite} (hid : c.id = u.calls.length)
    (hplace : ∀ e ∈ c.enclosingType, e < u.types.length) (hunbound : c.binding = none) :
    Shaped { u with calls := u.calls ++ [c] } where
  type_ids := h.type_ids
  method_ids := h.method_ids
  call_ids := append_numbers h.call_ids (by rw [List.map_singleton, hid]; rfl)
  enclosing_lt := h.enclosing_lt
  declaring_lt := h.declaring_lt
  methods_eq := h.methods_eq
  place_lt d hd e he := by
    rcases List.mem_append.1 hd with hd | hd
    · exact h.place_lt d hd e he
    · cases List.mem_singleton.1 hd
      exact hplace e he
  unbound d hd := by
    rcases List.mem_append.1 hd with hd | hd
    · exact h.unbound d hd
    · cases List.mem_singleton.1 hd
      exact hunbound

/-- A change of a type that touches none of its links. -/
theorem modifyType {id : TypeId} {f : TypeDecl → TypeDecl} (hid : ∀ t, (f t).id = t.id)
    (henclosing : ∀ t, (f t).enclosing = t.enclosing) (hmethods : ∀ t, (f t).methods = t.methods) :
    Shaped { u with types := u.types.modify id f } where
  type_ids := by rw [map_modify hid, List.length_modify, h.type_ids]
  method_ids := h.method_ids
  call_ids := h.call_ids
  enclosing_lt s hs e he := by
    obtain ⟨j, t, ht, rfl⟩ := exists_of_mem_modify hs
    split at he
    · rw [if_pos ‹_›, hid]
      rw [henclosing] at he
      exact h.enclosing_lt t (List.mem_of_getElem? ht) e he
    · rw [if_neg ‹_›]
      exact h.enclosing_lt t (List.mem_of_getElem? ht) e he
  declaring_lt d hd := by
    rw [List.length_modify]
    exact h.declaring_lt d hd
  methods_eq s hs := by
    obtain ⟨j, t, ht, rfl⟩ := exists_of_mem_modify hs
    split
    · rw [hmethods, hid]
      exact h.methods_eq t (List.mem_of_getElem? ht)
    · exact h.methods_eq t (List.mem_of_getElem? ht)
  place_lt c hc e he := by
    rw [List.length_modify]
    exact h.place_lt c hc e he
  unbound := h.unbound

/-- A method is entered in the list of all methods and in the one of its type. -/
theorem addMethod {d : MethodDecl} {type : TypeId} (hid : d.id = u.methods.length)
    (hdeclaring : d.declaringType = type) (htype : type < u.types.length) :
    Shaped { u with
      types := u.types.modify type fun t => { t with methods := t.methods ++ [u.methods.length] }
      methods := u.methods ++ [d] } where
  type_ids := by
    rw [List.length_modify, ← h.type_ids]
    exact map_modify fun _ => rfl
  method_ids := append_numbers h.method_ids (by rw [List.map_singleton, hid]; rfl)
  call_ids := h.call_ids
  enclosing_lt s hs e he := by
    obtain ⟨j, t, ht, rfl⟩ := exists_of_mem_modify hs
    have hlt := h.enclosing_lt t (List.mem_of_getElem? ht) e
    split at he
    · rw [if_pos ‹_›]
      exact hlt he
    · rw [if_neg ‹_›]
      exact hlt he
  declaring_lt d' hd' := by
    rw [List.length_modify]
    rcases List.mem_append.1 hd' with hd' | hd'
    · exact h.declaring_lt d' hd'
    · cases List.mem_singleton.1 hd'
      exact hdeclaring ▸ htype
  methods_eq s hs := by
    obtain ⟨j, t, ht, rfl⟩ := exists_of_mem_modify hs
    have hlisted := h.methods_eq t (List.mem_of_getElem? ht)
    have hnumber : t.id = j := number_eq h.type_ids ht
    rw [List.findIdxs_append, List.findIdxs_singleton, Nat.zero_add, hdeclaring]
    by_cases hj : type = j
    · have hself : (type == t.id) = true := by rw [hnumber, hj, beq_self_eq_true]
      simp only [if_pos hj, if_pos hself, hlisted]
    · have hother : ¬ (type == t.id) = true := by
        rw [hnumber, beq_iff_eq]
        exact hj
      simp only [if_neg hj, if_neg hother, List.append_nil, hlisted]
  place_lt c hc e he := by
    rw [List.length_modify]
    exact h.place_lt c hc e he
  unbound := h.unbound

end Code.SourceUnit.Shaped

end Deadwood
