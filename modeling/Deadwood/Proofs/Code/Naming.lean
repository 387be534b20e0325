import Deadwood.Proofs.Code.Arena
import Deadwood.Proofs.Text.Slices
import Mathlib.Data.List.TakeWhile

/-!
# The simple name survives resolution

A name is resolved through scopes, imports and packages, each of which puts segments in front of it
or exchanges its first ones, but the last segment is never touched. `Model.Found` says in which ways
a name can be found at all; from it follows that the type which a written name resolves to is one of
the model and has the last segment of the name as its simple name
(`Model.Found.name_eq_lastSegment`). So
whoever knows types by simple name and whoever follows written names mean the same types.
-/

namespace Deadwood

/-! ## Last segments -/

namespace Text

theorem lastSegmentChars_append_dot (scope name : List Char) :
    lastSegmentChars (scope ++ '.' :: name) = lastSegmentChars name := by
  unfold lastSegmentChars
  rw [List.reverse_append, List.reverse_cons, List.append_assoc, List.takeWhile_append]
  split
  · next hall =>
    -- No dot in `name`: the dot in front of it ends the search.
    have hname : name.reverse.takeWhile (· != '.') = name.reverse :=
      (List.takeWhile_sublist _).eq_of_length hall
    rw [hname, List.singleton_append, List.takeWhile_cons_of_neg (by decide), List.append_nil]
  · rfl

theorem lastSegmentChars_eq_self {name : List Char} (h : '.' ∉ name) :
    lastSegmentChars name = name := by
  unfold lastSegmentChars
  rw [List.takeWhile_eq_self_iff.2, List.reverse_reverse]
  intro c hc
  rw [bne_iff_ne]
  rintro rfl
  exact h (List.mem_reverse.1 hc)

theorem dot_notMem_lastSegmentChars (name : List Char) : '.' ∉ lastSegmentChars name := by
  intro hmem
  have htrue := List.mem_takeWhile_imp (List.mem_reverse.1 hmem)
  cases htrue

/-- A nested name ends as the name itself does. -/
theorem lastSegment_joinDot (scope name : String) :
    lastSegment (joinDot scope name) = lastSegment name := by
  have hchars : (joinDot scope name).toList = scope.toList ++ '.' :: name.toList := by
    simp [joinDot, String.toList_append]
  rw [lastSegment, hchars, lastSegmentChars_append_dot]
  rfl

@[simp] theorem lastSegment_lastSegment (name : String) :
    lastSegment (lastSegment name) = lastSegment name := by
  rw [lastSegment, lastSegment, String.toList_ofList,
    lastSegmentChars_eq_self (dot_notMem_lastSegmentChars _)]

/-- An import that ends in the first segment of a name can stand in front of the rest of it. -/
theorem lastSegment_append_afterFirst {imported name : String}
    (h : lastSegment imported = firstSegment name) :
    lastSegment (imported ++ afterFirstSegment name) = lastSegment name := by
  have hsplit := List.takeWhile_append_dropWhile (p := (· != '.')) (l := name.toList)
  have hchars : (imported ++ afterFirstSegment name).toList =
      imported.toList ++ name.toList.dropWhile (· != '.') := by
    simp [afterFirstSegment, String.toList_append]
  rw [lastSegment, hchars]
  rcases dropWhile_ne_cases '.' name.toList with hnone | ⟨rest, hrest⟩
  · rw [hnone, List.append_nil] at hsplit
    have hname : firstSegment name = name := by rw [firstSegment, hsplit, String.ofList_toList]
    rw [hnone, List.append_nil]
    change lastSegment imported = lastSegment name
    rw [← lastSegment_lastSegment imported, h, hname]
  · rw [hrest] at hsplit ⊢
    rw [lastSegmentChars_append_dot, lastSegment, ← hsplit, lastSegmentChars_append_dot]

end Text

/-! ## Names without generics and brackets -/

theorem Java.eraseFrom_eq_self {text : List Char} (hopen : '<' ∉ text) (hclose : '>' ∉ text)
    (hblank : ∀ c ∈ text, Text.isBlank c = false) : eraseFrom 0 text = text := by
  induction text with
  | nil => rfl
  | cons c cs ih =>
    rw [List.mem_cons, not_or] at hopen hclose
    rw [eraseFrom, if_neg (Ne.symm hopen.1), if_neg (Ne.symm hclose.1),
      if_pos ⟨rfl, hblank c List.mem_cons_self⟩,
      ih hopen.2 hclose.2 fun d hd => hblank d (List.mem_cons_of_mem _ hd)]

namespace Code

/-- A plain name is looked up as it is written. -/
theorem IsPlain.elementName_eq {written : String} (h : IsPlain written) :
    Java.elementName written = written := by
  rw [Java.elementName, Java.eraseFrom_eq_self h.no_angle.1 h.no_angle.2 h.no_blank,
    Text.trimEndOf_eq_self h.no_brackets, String.ofList_toList]

namespace Model

/-! ## How names are found -/

/-- How a name can be found: under a qualified name that ends as the name does, as the type in whose
scope it stands, or as the only type with its last segment. -/
inductive Found (m : Model) (name : String) (id : TypeId) : Prop where
  | qualified {full : String} (h : m.byQualified? full = some id)
    (hlast : Text.lastSegment full = Text.lastSegment name) : Found m name id
  | scope {t : TypeDecl} (ht : m.types[id]? = some t) (hname : t.name = name) : Found m name id
  | only (h : m.bySimple (Text.lastSegment name) = [id]) : Found m name id

section Found

variable {m : Model} {name : String} {id : TypeId}

theorem outright?_found (h : m.outright? name = some id) : m.Found name id := by
  unfold outright? at h
  split at h
  · exact .qualified h rfl
  · cases h

/-- A type that is found in scope is registered under the name that is looked up, with the scope in
front. -/
theorem inScopeOf?_found {scope : TypeId} (h : m.inScopeOf? name scope = some id) :
    m.Found name id := by
  obtain ⟨t, ht, h⟩ := Option.bind_eq_some_iff.1 h
  rcases Option.or_eq_some_iff.1 h with hq | ⟨-, hself⟩
  · exact .qualified hq (Text.lastSegment_joinDot _ _)
  · split at hself
    · next hname =>
      cases hself
      exact .scope ht (beq_iff_eq.1 hname)
    · cases hself

theorem byImport?_found {imported : String} (h : m.byImport? name imported = some id) :
    m.Found name id := by
  unfold byImport? at h
  split at h
  · next hends =>
    obtain ⟨-, hlast⟩ := Bool.and_eq_true_iff.1 hends
    exact .qualified h (Text.lastSegment_append_afterFirst (beq_iff_eq.1 hlast))
  · cases h

theorem inPackage?_found {info : UnitInfo} (h : m.inPackage? info name = some id) :
    m.Found name id := by
  unfold inPackage? at h
  split at h
  · exact .qualified h (Text.lastSegment_joinDot _ _)
  · exact .qualified h rfl

theorem byWildcard?_found {imported : String} (h : m.byWildcard? name imported = some id) :
    m.Found name id := by
  obtain ⟨package, -, h⟩ := Option.bind_eq_some_iff.1 h
  exact .qualified h (Text.lastSegment_joinDot _ _)

theorem onlyBySimple?_found (h : m.onlyBySimple? (Text.lastSegment name) = some id) :
    m.Found name id := by
  unfold onlyBySimple? at h
  split at h
  · next hall =>
    cases h
    exact .only hall
  · cases h

/-- Each of the places where a name is looked up keeps its last segment. -/
theorem lookUp?_found {info : UnitInfo} {place : Option TypeId}
    (h : m.lookUp? info place name = some id) : m.Found name id := by
  simp only [lookUp?, Option.or_eq_some_iff] at h
  rcases h with ((((h | ⟨-, h⟩) | ⟨-, h⟩) | ⟨-, h⟩) | ⟨-, h⟩) | ⟨-, h⟩
  · exact outright?_found h
  · obtain ⟨scope, -, hscope⟩ := List.exists_of_findSome?_eq_some h
    exact inScopeOf?_found hscope
  · obtain ⟨imported, -, himport⟩ := List.exists_of_findSome?_eq_some h
    exact byImport?_found himport
  · exact inPackage?_found h
  · obtain ⟨imported, -, himport⟩ := List.exists_of_findSome?_eq_some h
    exact byWildcard?_found himport
  · exact onlyBySimple?_found h

/-- Whatever a written name is resolved to is registered under a name that ends alike. -/
theorem resolveIn?_found {written : String} {unit : UnitId} {place : Option TypeId}
    (h : m.resolveIn? written unit place = some id) : m.Found (Java.elementName written) id := by
  simp only [resolveIn?] at h
  split at h
  · cases h
  · split at h
    · exact lookUp?_found h
    · exact outright?_found h

theorem resolve?_found {written : String} {scope : TypeId}
    (h : m.resolve? written scope = some id) : m.Found (Java.elementName written) id := by
  obtain ⟨t, -, h⟩ := Option.bind_eq_some_iff.1 h
  exact resolveIn?_found h

end Found

/-! ## Types and their names -/

/-- The types of a model are named as a source file can name them. -/
structure Named (m : Model) : Prop where
  name_eq : ∀ t ∈ m.types, Text.lastSegment t.qualifiedName = t.name
  plain : ∀ t ∈ m.types, ∀ s ∈ t.superTypes, IsPlain s

/-- Adding a file registers its types under their own names. -/
theorem Named.append {m : Model} {u : SourceUnit} (h : m.Named) (hu : u.Named) :
    (m.append u).Named where
  name_eq t ht := by
    rw [append_types] at ht
    rcases List.mem_append.1 ht with ht | ht
    · exact h.name_eq t ht
    · obtain ⟨s, hs, rfl⟩ := mem_shiftedTypes.1 ht
      exact hu.name_eq s hs
  plain t ht := by
    rw [append_types] at ht
    rcases List.mem_append.1 ht with ht | ht
    · exact h.plain t ht
    · obtain ⟨s, hs, rfl⟩ := mem_shiftedTypes.1 ht
      exact hu.plain s hs

/-- So it is in every model that is built from files with this property. -/
theorem Reached.named {P : SourceUnit → Prop} {m : Model} (h : Reached P m)
    (hP : ∀ u, P u → u.Named) : m.Named := by
  refine h.keeps ⟨?_, ?_⟩ (fun _ u hu hm => hm.append (hP u hu)) fun _ hm => ⟨hm.1, hm.2⟩
  · intro t ht
    cases ht
  · intro t ht
    cases ht

namespace Found

variable {m : Model} {name : String} {id : TypeId}

/-- What is found is a type of the model, and where it was not found in its own scope, one with the
last segment of the name. -/
theorem exists_type (hi : m.Indexed) (h : m.Found name id) :
    ∃ t, m.types[id]? = some t ∧
      (Text.lastSegment t.qualifiedName = Text.lastSegment name ∨ t.name = name ∨
        t.name = Text.lastSegment name) := by
  cases h with
  | @qualified full h hlast =>
    rw [hi.qualified, List.findIdx?_eq_some_iff_getElem] at h
    obtain ⟨hlt, hfull, -⟩ := h
    refine ⟨m.types[id], List.getElem?_eq_getElem hlt, Or.inl ?_⟩
    rw [beq_iff_eq.1 hfull, hlast]
  | scope ht hname => exact ⟨_, ht, Or.inr (Or.inl hname)⟩
  | only h =>
    have hmem : id ∈ m.bySimple (Text.lastSegment name) := h ▸ List.mem_singleton_self _
    rw [hi.simple, List.mem_findIdxs_iff_exists_getElem_pos] at hmem
    obtain ⟨hlt, hname⟩ := hmem
    exact ⟨m.types[id], List.getElem?_eq_getElem hlt, Or.inr (Or.inr (beq_iff_eq.1 hname))⟩

theorem lt (hi : m.Indexed) (h : m.Found name id) : id < m.types.length := by
  obtain ⟨t, ht, -⟩ := h.exists_type hi
  exact (List.getElem?_eq_some_iff.1 ht).1

/-- **The simple name survives resolution**, whichever way a type was found. -/
theorem name_eq_lastSegment (hi : m.Indexed)
    (hnames : ∀ t ∈ m.types, Text.lastSegment t.qualifiedName = t.name) (h : m.Found name id) :
    ∃ t, m.types[id]? = some t ∧ t.name = Text.lastSegment name := by
  obtain ⟨t, ht, hname⟩ := h.exists_type hi
  have hown := hnames t (List.mem_of_getElem? ht)
  refine ⟨t, ht, ?_⟩
  rcases hname with hname | hname | hname
  · rw [← hown, hname]
  · -- A type that is found by its own name has no dot in that name, being a last segment.
    rw [← hname, ← hown, Text.lastSegment_lastSegment]
  · exact hname

/-- A type that is found has the last segment of the name for its simple name. -/
theorem simpleName (hi : m.Indexed) (hn : m.Named) (h : m.Found name id) :
    ∃ t, m.types[id]? = some t ∧ t.name = Text.lastSegment name :=
  h.name_eq_lastSegment hi hn.name_eq

end Found

section Lt

variable {m : Model} (hi : m.Indexed)

include hi

theorem resolveIn?_lt {written : String} {unit : UnitId} {place : Option TypeId} {id : TypeId}
    (h : m.resolveIn? written unit place = some id) : id < m.types.length :=
  (resolveIn?_found h).lt hi

theorem resolve?_lt {written : String} {scope id : TypeId}
    (h : m.resolve? written scope = some id) : id < m.types.length :=
  (resolve?_found h).lt hi

theorem staticTargets_lt {unit : UnitId} {member : String} {id : TypeId}
    (h : id ∈ m.staticTargets unit member) : id < m.types.length := by
  unfold staticTargets at h
  split at h
  · cases h
  · obtain ⟨i, -, hresolved⟩ := List.mem_filterMap.1 (List.mem_eraseDups.1 h)
    exact resolveIn?_lt hi hresolved

end Lt

end Model

end Code

end Deadwood
