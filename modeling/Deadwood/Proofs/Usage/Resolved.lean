import Deadwood.Proofs.Code.Built
import Deadwood.Proofs.Code.Decided
import Deadwood.Proofs.Usage.InRange
import Mathlib.Data.List.Induction
import Mathlib.Data.List.ProdSigma
import Mathlib.Order.Bounds.Basic

/-!
# Which method a call resolves to

A call that is not bound is looked up by simple names and numbers of parameters, one pair after the
other, in an index that knows signatures as joined texts. The texts can be taken apart again where
method names have no number sign in them (`signatureKey_inj`), and the index keeps the last method
that was entered (`get?_foldl_insert`). So resolution is an ordered search: the call resolves to
the last method of the first pair that has any (`resolve?_ordered`).
-/

namespace Deadwood.Usage

open Code

/-! ## Signatures as texts -/

/-- What stands in front of and behind the last `c` of a list. -/
theorem append_cons_inj {α : Type} {c : α} {xs ys xs' ys' : List α}
    (h : xs ++ c :: ys = xs' ++ c :: ys') (hys : c ∉ ys) (hys' : c ∉ ys') :
    xs = xs' ∧ ys = ys' := by
  rcases List.append_eq_append_iff.1 h with ⟨as, rfl, htail⟩ | ⟨as, rfl, htail⟩
  · cases as with
    | nil => simpa using htail
    | cons a as => simp_all
  · cases as with
    | nil => simpa using htail.symm
    | cons a as => simp_all

/-- A number is written without the character that keys are joined with, so its part can be told
from the rest. -/
theorem hash_notMem_toString (n : Nat) : '#' ∉ (toString n).toList := by
  intro hmem
  rw [Nat.toString_eq_repr, Nat.toList_repr] at hmem
  have hdigit := Nat.isDigit_of_mem_toDigits (by decide) (by decide) hmem
  revert hdigit
  decide

theorem toString_toList_inj {n k : Nat} (h : (toString n).toList = (toString k).toList) :
    n = k := by
  rw [Nat.toString_eq_repr, Nat.toString_eq_repr, Nat.toList_repr, Nat.toList_repr] at h
  rw [← Nat.ofDigitChars_ten_toDigits (n := n), h, Nat.ofDigitChars_ten_toDigits]

/-- A key is the three parts with two marks between them. -/
theorem toList_signatureKey (declaring method : String) (count : Nat) :
    (signatureKey declaring method count).toList =
      (declaring.toList ++ '#' :: method.toList) ++ '#' :: (toString count).toList := by
  simp [signatureKey, String.toList_append]

/-- The text of a signature gives back its parts, whatever the declaring type is called. -/
theorem signatureKey_inj {declaring declaring' method method' : String} {count count' : Nat}
    (hmethod : '#' ∉ method.toList) (hmethod' : '#' ∉ method'.toList) :
    signatureKey declaring method count = signatureKey declaring' method' count' ↔
      declaring = declaring' ∧ method = method' ∧ count = count' := by
  constructor
  · intro h
    have hlist := congrArg String.toList h
    rw [toList_signatureKey, toList_signatureKey] at hlist
    obtain ⟨hfront, hcount⟩ :=
      append_cons_inj hlist (hash_notMem_toString count) (hash_notMem_toString count')
    obtain ⟨hdeclaring, hname⟩ := append_cons_inj hfront hmethod hmethod'
    exact ⟨String.toList_inj.1 hdeclaring, String.toList_inj.1 hname, toString_toList_inj hcount⟩
  · rintro ⟨rfl, rfl, rfl⟩
    rfl

/-! ## The last method with a signature -/

/-- The methods that types with the simple name `declaring` declare under a name with a number of
parameters. -/
def bearers (m : Model) (declaring method : String) (count : Nat) : Set MethodId :=
  {id | ∃ d t, m.methods[id]? = some d ∧ m.types[d.declaringType]? = some t ∧
    t.name = declaring ∧ d.name = method ∧ d.parameters.length = count}

section Keyed

variable {key : MethodDecl → String} {ds : List MethodDecl} {name : String}

/-- The positions of the methods with a key. -/
def keyed (key : MethodDecl → String) (ds : List MethodDecl) (name : String) : Set Nat :=
  {i | ∃ d, ds[i]? = some d ∧ key d = name}

theorem lt_of_mem_keyed {i : Nat} (h : i ∈ keyed key ds name) : i < ds.length := by
  obtain ⟨d, hd, -⟩ := h
  exact (List.getElem?_eq_some_iff.1 hd).1

theorem mem_keyed_snoc {d : MethodDecl} {i : Nat} :
    i ∈ keyed key (ds ++ [d]) name ↔ i ∈ keyed key ds name ∨ (i = ds.length ∧ key d = name) := by
  constructor
  · rintro ⟨e, he, hkey⟩
    rw [List.getElem?_append] at he
    split at he
    · exact .inl ⟨e, he, hkey⟩
    · obtain ⟨hzero, rfl⟩ : i - ds.length = 0 ∧ d = e := by
        simpa [List.getElem?_singleton] using he
      exact .inr ⟨by omega, hkey⟩
  · rintro (⟨e, he, hkey⟩ | ⟨rfl, hkey⟩)
    · exact ⟨e, getElem?_append_of_some he _, hkey⟩
    · exact ⟨d, by simp, hkey⟩

/-- An index in which methods are entered one after the other keeps the last one under each key. -/
theorem get?_foldl_insert (hids : ds.map (·.id) = List.range ds.length) :
    let index : Index MethodId := ds.foldl (fun index d => Index.insert index (key d) d.id) []
    (keyed key ds name = ∅ ∧ index.get? name = none) ∨
      ∃ id, IsGreatest (keyed key ds name) id ∧ index.get? name = some id := by
  induction ds using List.reverseRecOn with
  | nil => exact .inl ⟨by simp [keyed], rfl⟩
  | append_singleton ds d ih =>
    intro index
    obtain ⟨hrest, hid⟩ : ds.map (·.id) = List.range ds.length ∧ d.id = ds.length := by
      simpa [List.range_succ] using hids
    have hget : index.get? name = if name = key d then some d.id else
        (ds.foldl (fun index d => Index.insert index (key d) d.id) ([] : Index MethodId)).get?
          name := by
      simp only [index, List.foldl_append, List.foldl_cons, List.foldl_nil]
      exact Index.get?_insert _ _ _ _
    by_cases hkey : name = key d
    · refine .inr ⟨ds.length, ⟨mem_keyed_snoc.2 (.inr ⟨rfl, hkey.symm⟩), fun i hi => ?_⟩, ?_⟩
      · have hlt := lt_of_mem_keyed hi
        rw [List.length_append, List.length_singleton] at hlt
        omega
      · rw [hget, if_pos hkey, hid]
    · have hsame : keyed key (ds ++ [d]) name = keyed key ds name := by
        ext i
        rw [mem_keyed_snoc]
        exact or_iff_left fun hnew => hkey hnew.2.symm
      rw [hsame, hget, if_neg hkey]
      exact ih hrest

end Keyed

section Signatures

variable {m : Model} (hm : m.Arena) (hmethods : ∀ d ∈ m.methods, '#' ∉ d.name.toList)
  {declaring method : String} (hmethod : '#' ∉ method.toList) {count : Nat}

include hm hmethods hmethod

/-- The methods that a key stands for are those whose own key it is. -/
theorem bearers_eq_keyed :
    bearers m declaring method count =
      keyed (methodKey m) m.methods (signatureKey declaring method count) := by
  ext id
  constructor
  · rintro ⟨d, t, hd, ht, rfl, rfl, rfl⟩
    exact ⟨d, hd, by simp [methodKey, declaringName, ht]⟩
  · rintro ⟨d, hd, hkey⟩
    have hmem := List.mem_of_getElem? hd
    have ht := List.getElem?_eq_getElem (hm.declaring_lt d hmem)
    obtain ⟨hdeclaring, hname, hcount⟩ := (signatureKey_inj (hmethods d hmem) hmethod).1 hkey
    rw [declaringName, ht] at hdeclaring
    exact ⟨d, _, hd, ht, hdeclaring, hname, hcount⟩

/-- A signature is found if any method bears it, and then it is the last one that is found. -/
theorem bySignature?_cases (declaring : String) (count : Nat) :
    (bearers m declaring method count = ∅ ∧
      bySignature? (signatures m) declaring method count = none) ∨
    ∃ id, IsGreatest (bearers m declaring method count) id ∧
      bySignature? (signatures m) declaring method count = some id := by
  rw [bearers_eq_keyed hm hmethods hmethod]
  exact get?_foldl_insert hm.method_ids

/-- A signature finds the last method that bears it, since each one is entered over those before it.
-/
theorem bySignature?_eq_some_iff {id : MethodId} :
    bySignature? (signatures m) declaring method count = some id ↔
      IsGreatest (bearers m declaring method count) id := by
  rcases bySignature?_cases hm hmethods hmethod declaring count with
    ⟨hempty, hnone⟩ | ⟨last, hlast, hsome⟩
  · simp [hempty, hnone, IsGreatest]
  · rw [hsome, Option.some_inj]
    exact ⟨fun heq => heq ▸ hlast, fun hid => hlast.unique hid⟩

theorem bySignature?_eq_none_iff :
    bySignature? (signatures m) declaring method count = none ↔
      bearers m declaring method count = ∅ := by
  rcases bySignature?_cases hm hmethods hmethod declaring count with
    ⟨hempty, hnone⟩ | ⟨last, hlast, hsome⟩
  · simp [hempty, hnone]
  · simp [hsome, hlast.nonempty.ne_empty]

end Signatures

/-! ## The search -/

/-- A method is the last one of the first pair of a simple name and a number of parameters that has
any. -/
def IsFirstLast (m : Model) (method : String) (pairs : List (String × Nat)) (id : MethodId) :
    Prop :=
  ∃ before p after, pairs = before ++ p :: after ∧ IsGreatest (bearers m p.1 method p.2) id ∧
    ∀ q ∈ before, bearers m q.1 method q.2 = ∅

theorem findSome?_flatMap {α β γ : Type} (xs : List α) (f : α → List β) (g : β → Option γ) :
    (xs.flatMap f).findSome? g = xs.findSome? fun x => (f x).findSome? g := by
  induction xs with
  | nil => rfl
  | cons x xs ih =>
    rw [List.flatMap_cons, List.findSome?_append, ih, List.findSome?_cons]
    cases (f x).findSome? g <;> rfl

namespace MethodUse

variable (u : MethodUse) (c : CallSite)

/-- A type name as written but without generics and blanks, and the last segment of that. -/
def spellings (written : String) : List String :=
  [Java.eraseGenerics written, Text.lastSegment (Java.eraseGenerics written)]

/-- The simple names of declaring types under which a call is looked up, in order: those of the type
that the call site gives; if nothing or `this` stands in front of the call, those of its file; and
if nothing does, those of the types from which the method is imported. -/
def searchNames : List String :=
  (u.staticType? c).toList.flatMap spellings
    ++ (if c.receiver = .implicit ∨ c.receiver = .this then
          (u.model.units[c.unit]?.bind (·.simpleName?)).toList.flatMap spellings
        else [])
    ++ (if c.receiver = .implicit then
          (u.model.staticTargets c.unit c.methodName).flatMap fun id =>
            (u.model.types[id]?.map (·.name)).toList.flatMap spellings
        else [])

/-- The pairs of a simple name and a number of parameters under which a call is looked up, in
order. -/
def searchPairs : List (String × Nat) :=
  u.searchNames c ×ˢ (c.argCount.toList ++ [0, 1])

/-- The method that a call has on the types with a simple name. -/
def onName? (name : String) : Option MethodId :=
  (countsOf c).findSome? fun count => bySignature? u.signatures name c.methodName count

/-- A type is sought under each of its spellings in turn. -/
theorem onType?_eq (declaring : String) :
    u.onType? c declaring = (spellings declaring).findSome? (u.onName? c) := by
  change (namesOf declaring).findSome? (u.onName? c) = _
  simp only [namesOf, spellings]
  split
  · next hsame =>
    rw [hsame]
    cases hfound : u.onName? c (Java.eraseGenerics declaring) <;> simp [hfound]
  · rfl

theorem bind_onType? (declaring : Option String) :
    declaring.bind (u.onType? c) =
      (declaring.toList.flatMap spellings).findSome? (u.onName? c) := by
  cases declaring with
  | none => rfl
  | some name => simp [onType?_eq]

/-- Static imports are sought through by the simple names of the types that they name. -/
theorem onImports?_eq :
    u.onImports? c = ((u.model.staticTargets c.unit c.methodName).flatMap fun id =>
      (u.model.types[id]?.map (·.name)).toList.flatMap spellings).findSome? (u.onName? c) := by
  rw [onImports?, findSome?_flatMap]
  congr 1
  funext id
  rw [← bind_onType?]
  cases u.model.types[id]? <;> rfl

variable {u c}

/-- A call that is not bound is looked up under one pair after the other. -/
theorem resolve?_eq_findSome? (hb : c.binding = none) :
    u.resolve? c = (u.searchPairs c).findSome? fun p =>
      bySignature? u.signatures p.1 c.methodName p.2 := by
  have hpairs : ((u.searchPairs c).findSome? fun p =>
      bySignature? u.signatures p.1 c.methodName p.2) =
        (u.searchNames c).findSome? (u.onName? c) := by
    change List.findSome? _ ((u.searchNames c).flatMap fun name => List.map (Prod.mk name) _) = _
    rw [findSome?_flatMap]
    congr 1
    funext name
    rw [List.findSome?_map]
    rfl
  rw [hpairs, searchNames, List.findSome?_append, List.findSome?_append, ← bind_onType?, resolve?,
    hb, Option.none_or]
  cases hreceiver : c.receiver with
  | implicit => simp [← bind_onType?, ← onImports?_eq, onOwnFile?, Option.or_assoc]
  | this => simp [← bind_onType?, onOwnFile?]
  | super | type | «variable» | expression => simp

end MethodUse

/-! ## Bindings -/

/-- A call is bound to a method with its name. -/
theorem bind?_name {m : Model} (hm : m.Arena) {c : CallSite} {id : MethodId}
    (h : m.bind? c = some id) : ∃ d, m.methods[id]? = some d ∧ d.name = c.methodName := by
  have honly := Model.bind?_eq_some_iff.1 h
  obtain ⟨type, hdecides⟩ := Model.exists_decides hm (c := c) (by simp [honly])
  have hmem : id ∈ m.targetsOn c type := hdecides.subset_targetsOn (by simp [honly])
  obtain ⟨above, -, d, hd, -, hname, -⟩ := Model.mem_findMethods hm hmem
  exact ⟨d, hd, hname⟩

/-- Every binding leads to a method with the name of the call. -/
def BoundByName (m : Model) : Prop :=
  ∀ c ∈ m.calls, ∀ id ∈ c.binding, ∃ d, m.methods[id]? = some d ∧ d.name = c.methodName

/-- In a model that was built, calls are only bound to methods of their name. -/
theorem boundByName_of_reached {m : Model} (h : m.Reached SourceUnit.Shaped) : BoundByName m := by
  have hboth : m.Arena ∧ BoundByName m := by
    refine h.keeps (I := fun m => m.Arena ∧ BoundByName m)
      ⟨⟨.empty, .empty⟩, fun c hc => absurd hc List.not_mem_nil⟩ ?_ ?_
    · rintro m u hu ⟨hm, hbound⟩
      refine ⟨⟨hm.toIndexed.append hu.toNumbered, hm.toLinked.append hm.toIndexed hu⟩, ?_⟩
      intro c hc id hid
      rw [Model.append_calls] at hc
      rcases List.mem_append.1 hc with hc | hc
      · obtain ⟨d, hd, hname⟩ := hbound c hc id hid
        exact ⟨d, getElem?_append_of_some hd _, hname⟩
      · -- The calls of a new file are not bound.
        obtain ⟨s, hs, rfl⟩ := Model.mem_shiftedCalls.1 hc
        change id ∈ s.binding at hid
        rw [hu.unbound s hs] at hid
        cases hid
    · rintro m ⟨hm, -⟩
      refine ⟨hm.bindCalls, fun c hc id hid => ?_⟩
      obtain ⟨s, -, rfl⟩ := List.mem_map.1 hc
      exact bind?_name hm hid
  exact hboth.2

/-! ## Resolution -/

/-- **Resolution is an ordered search in which the last method wins.** A call that is bound resolves
to its binding. Else it resolves to the last method, in the order of the model, that bears the first
of the pairs under which the call is looked up that any method bears, and to nothing if there is no
such pair. A call of the model only ever resolves to a method with its name. -/
theorem resolve?_ordered {m : Model} (h : m.Reached SourceUnit.Shaped)
    (hmethods : ∀ d ∈ m.methods, '#' ∉ d.name.toList) (policy : Policy) {c : CallSite}
    (hcall : '#' ∉ c.methodName.toList) :
    let use := MethodUse.ofModel m policy
    let pairs := use.searchPairs c
    (∀ bound, c.binding = some bound → use.resolve? c = some bound) ∧
    (c.binding = none →
      (∀ id, use.resolve? c = some id ↔ IsFirstLast m c.methodName pairs id) ∧
      (use.resolve? c = none ↔ ∀ p ∈ pairs, bearers m p.1 c.methodName p.2 = ∅)) ∧
    (c ∈ m.calls → ∀ id, use.resolve? c = some id →
      ∃ d, m.methods[id]? = some d ∧ d.name = c.methodName) := by
  intro use pairs
  have hm := h.arena
  have hbound : ∀ bound, c.binding = some bound → use.resolve? c = some bound := by
    intro bound hb
    rw [MethodUse.resolve?, hb]
    rfl
  have hsome : c.binding = none →
      ∀ id, use.resolve? c = some id ↔ IsFirstLast m c.methodName pairs id := by
    intro hb id
    rw [MethodUse.resolve?_eq_findSome? hb, List.findSome?_eq_some_iff]
    refine exists_congr fun before => exists_congr fun p => exists_congr fun after =>
      and_congr_right fun _ => and_congr ?_ ?_
    · exact bySignature?_eq_some_iff hm hmethods hcall
    · exact forall₂_congr fun q _ => bySignature?_eq_none_iff hm hmethods hcall
  refine ⟨hbound, fun hb => ⟨hsome hb, ?_⟩, fun hc id hid => ?_⟩
  · rw [MethodUse.resolve?_eq_findSome? hb, List.findSome?_eq_none_iff]
    exact forall₂_congr fun p _ => bySignature?_eq_none_iff hm hmethods hcall
  · cases hb : c.binding with
    | some bound =>
      obtain rfl : bound = id := Option.some_inj.1 ((hbound bound hb).symm.trans hid)
      exact boundByName_of_reached h c hc bound hb
    | none =>
      obtain ⟨before, p, after, -, hlast, -⟩ := (hsome hb id).1 hid
      obtain ⟨d, t, hd, -, -, hname, -⟩ := hlast.1
      exact ⟨d, hd, hname⟩

/-- In the sample, a call on `a.Shape<X>` with two arguments finds nothing under the name with its
package and nothing with two parameters. Of the two methods of types named `Shape` it resolves to
that of the second copy of the file, and so does the call of that copy. -/
theorem resolve?_ordered_sample :
    let m := Sample.model
    let use := MethodUse.ofModel m .builtIn
    let c : CallSite :=
      { Sample.call 2 "area" with
        argCount := some 2, receiver := .variable "s" (some "a.Shape<X>") }
    m.Reached SourceUnit.Shaped ∧ (∀ d ∈ m.methods, '#' ∉ d.name.toList) ∧
    '#' ∉ c.methodName.toList ∧ c.binding = none ∧
    use.searchPairs c =
      [("a.Shape", 2), ("a.Shape", 0), ("a.Shape", 1), ("Shape", 2), ("Shape", 0), ("Shape", 1)] ∧
    0 ∈ bearers m "Shape" "area" 0 ∧ use.resolve? c = some 3 ∧
    IsFirstLast m "area" (use.searchPairs c) 3 ∧
    ∃ own ∈ m.calls, own.binding = none ∧ use.resolve? own = some 3 ∧
      ∃ d, m.methods[3]? = some d ∧ d.name = own.methodName := by
  intro m use c
  have hreached := Sample.model_reached Sample.shapes_shaped
  have hmethods : ∀ d ∈ m.methods, '#' ∉ d.name.toList := by decide +kernel
  have hcall : '#' ∉ c.methodName.toList := by decide +kernel
  have hpairs : use.searchPairs c =
      [("a.Shape", 2), ("a.Shape", 0), ("a.Shape", 1), ("Shape", 2), ("Shape", 0),
        ("Shape", 1)] := by
    decide +kernel
  have hresolved : use.resolve? c = some 3 := by decide +kernel
  obtain ⟨own, hown, hfree, hname, hresolved'⟩ : ∃ own ∈ m.calls, own.binding = none ∧
      '#' ∉ own.methodName.toList ∧ use.resolve? own = some 3 := by
    decide +kernel
  obtain ⟨-, hsearch, -⟩ := resolve?_ordered hreached hmethods .builtIn hcall
  obtain ⟨-, -, hbears⟩ := resolve?_ordered hreached hmethods .builtIn hname
  have hfirst : 0 ∈ bearers m "Shape" "area" 0 :=
    ⟨Sample.method 0 0, _, by decide +kernel, rfl, rfl, rfl, rfl⟩
  exact ⟨hreached, hmethods, hcall, rfl, hpairs, hfirst, hresolved, ((hsearch rfl).1 3).1 hresolved,
    own, hown, hfree, hresolved', hbears hown 3 hresolved'⟩

namespace Sample

def spacedText : String :=
  "class A \x7b void f() \x7b g(); \x7d \x7d class AB \x7b void g() \x7b \x7d \x7d"

/-- A class with a call of a method that another class of the file has, in a file with a blank in
its name. -/
def spaced : SourceUnit where
  info := ⟨⟨"A B.java"⟩, none, [], []⟩
  types := [
    { Code.Sample.type 0 "A" [0] with
      qualifiedName := "A", interfaces := [], location := ⟨⟨"A B.java"⟩, 1, 1⟩ },
    { Code.Sample.type 1 "AB" [1] with
      qualifiedName := "AB", interfaces := [], location := ⟨⟨"A B.java"⟩, 1, 1⟩ }]
  methods := [
    { Code.Sample.method 0 0 with name := "f", location := ⟨⟨"A B.java"⟩, 1, 1⟩ },
    { Code.Sample.method 1 1 with name := "g", location := ⟨⟨"A B.java"⟩, 1, 1⟩ }]
  calls := [{ Code.Sample.call 0 "g" with argCount := some 0, enclosingType := some 0, line := 1 }]

/-- The sample file parses to the unit that is written out. -/
theorem parse_spaced : SourceUnit.parse? ⟨"A B.java"⟩ spacedText = some spaced := by
  decide +kernel

def spacedModel : Model :=
  ((Edit.addUnit spaced false).run.run .empty).2.bindCalls

theorem spacedModel_reached : spacedModel.Reached SourceUnit.Extracted :=
  .bind (.add false .empty (SourceUnit.extracted_of_parse? parse_spaced))

end Sample

/-- No type has the name of the file, but the call resolves to a method of the type that has it
without the blank. -/
theorem blank_in_file_name :
    let m := Sample.spacedModel
    let use := MethodUse.ofModel m .builtIn
    SourceUnit.parse? ⟨"A B.java"⟩ Sample.spacedText = some Sample.spaced ∧
    m.Reached SourceUnit.Extracted ∧ (∀ t ∈ m.types, '#' ∉ t.name.toList) ∧
    (∀ d ∈ m.methods, '#' ∉ d.name.toList) ∧
    ∃ c ∈ m.calls, '#' ∉ c.methodName.toList ∧ c.binding = none ∧ c.receiver = .implicit ∧
      use.staticType? c = none ∧ m.units[c.unit]?.bind (·.simpleName?) = some "A B" ∧
      m.staticTargets c.unit c.methodName = [] ∧
      (∀ d ∈ ["A B", Text.lastSegment "A B"], ∀ k ∈ c.argCount.toList ++ [0, 1],
        bearers m d c.methodName k = ∅) ∧
      use.resolve? c = some 1 := by
  intro m use
  have hreached := Sample.spacedModel_reached
  have hm : m.Arena := (hreached.mono fun _ hu => hu.shaped).arena
  have hmethods : ∀ d ∈ m.methods, '#' ∉ d.name.toList := by decide +kernel
  obtain ⟨c, hc, hcall, hfacts⟩ : ∃ c ∈ m.calls, '#' ∉ c.methodName.toList ∧ c.binding = none ∧
      c.receiver = .implicit ∧ use.staticType? c = none ∧
      m.units[c.unit]?.bind (·.simpleName?) = some "A B" ∧
      m.staticTargets c.unit c.methodName = [] ∧
      (∀ d ∈ ["A B", Text.lastSegment "A B"], ∀ k ∈ c.argCount.toList ++ [0, 1],
        bySignature? (signatures m) d c.methodName k = none) ∧
      use.resolve? c = some 1 := by
    decide +kernel
  simp only [bySignature?_eq_none_iff hm hmethods hcall] at hfacts
  exact ⟨Sample.parse_spaced, hreached, by decide +kernel, hmethods, c, hc, hcall, hfacts⟩

end Deadwood.Usage
