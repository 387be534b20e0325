import Deadwood.Proofs.Code.StrictNames

/-!
# Builds that are retried

A build is strict at first and tolerant if that fails. The only thing that a strict build can trip
over is a name that two of its files declare (`exists_buildWith_strict_iff`), which is an error that
is worth a retry (`isRetryable_of_addUnit`), and a tolerant build trips over nothing
(`buildWith_tolerant`). Where both succeed on the same files they agree, numbers and bindings
included, as both put the files behind each other in order.

What is left of a text that is not well formed has no part in this: the laws hold for every
`Recovery` (`RetryLaws.of_recovery`).
-/

namespace Deadwood.Code

/-! ## Sources -/

namespace Source

/-- A source that can be read and is well formed declares a type under the name. -/
def Declares (s : Source) (name : String) : Prop :=
  ∃ text unit, s.text = some text ∧ SourceUnit.parse? s.path text = some unit ∧
    ∃ t ∈ unit.types, t.qualifiedName = name

/-- A source that is well formed if it can be read at all. -/
def IsSound (s : Source) : Prop :=
  ∀ text, s.text = some text → (SourceUnit.parse? s.path text).isSome = true

end Source

namespace Source

variable {r : Recovery} {tolerance : Tolerance} {s : Source}

/-- The strict build takes files as they parse, so recovery has no part in it. -/
theorem unit?_strict : s.unit? r .strict = s.text.bind (SourceUnit.parse? s.path) := by
  unfold unit?
  congr 1
  funext text
  cases SourceUnit.parse? s.path text <;> rfl

/-- A file that parses is the same to both builds. -/
theorem unit?_of_isSound (h : s.IsSound) :
    s.unit? r .tolerant = s.unit? r .strict := by
  unfold unit?
  cases htext : s.text with
  | none => rfl
  | some text =>
    obtain ⟨unit, hunit⟩ := Option.isSome_iff_exists.1 (h text htext)
    simp only [Option.bind_some, hunit]

theorem unit?_eq_none (h : s.text = none) : s.unit? r tolerance = none := by
  rw [unit?, h, Option.bind_none]

theorem declares_iff {name : String} :
    s.Declares name ↔ ∃ unit, s.unit? r .strict = some unit ∧ name ∈ unit.names := by
  rw [unit?_strict]
  constructor
  · rintro ⟨text, unit, htext, hparse, t, ht, hname⟩
    exact ⟨unit, Option.bind_eq_some_iff.2 ⟨text, htext, hparse⟩, List.mem_map.2 ⟨t, ht, hname⟩⟩
  · rintro ⟨unit, hunit, hname⟩
    obtain ⟨text, htext, hparse⟩ := Option.bind_eq_some_iff.1 hunit
    exact ⟨text, unit, htext, hparse, List.mem_map.1 hname⟩

theorem shaped_of_unit? {unit : SourceUnit} (h : s.unit? r .strict = some unit) :
    unit.Shaped := by
  rw [unit?_strict] at h
  obtain ⟨text, -, hparse⟩ := Option.bind_eq_some_iff.1 h
  exact (SourceUnit.extracted_of_parse? hparse).shaped

end Source

/-! ## Builds with a recovery -/

namespace Model

/-- The only error of an addition is a name that is taken, and that is worth a retry. -/
theorem isRetryable_of_addUnit {m : Model} {u : SourceUnit} {allow : Bool} {e : ScanError}
    (h : m.addUnit u allow = .error e) : e.isRetryable = true := by
  cases allow with
  | true =>
    rw [addUnit_tolerant] at h
    cases h
  | false =>
    rw [addUnit_strict] at h
    cases hdup : m.firstDuplicate? u with
    | none =>
      rw [hdup] at h
      cases h
    | some error =>
      rw [hdup] at h
      cases h
      obtain ⟨t, -, ht⟩ := List.exists_of_findSome?_eq_some hdup
      obtain ⟨id, -, rfl⟩ := Option.map_eq_some_iff.1 ht
      rfl

/-- Additions only fail for a name that is there already. -/
theorem isRetryable_of_addUnits {m : Model} {us : List SourceUnit} {allow : Bool} {e : ScanError}
    (h : m.addUnits allow us = .error e) : e.isRetryable = true := by
  induction us generalizing m with
  | nil => cases h
  | cons u us ih =>
    rw [addUnits, List.foldlM_cons] at h
    cases hadd : m.addUnit u allow with
    | ok next =>
      rw [hadd] at h
      exact ih h
    | error e' =>
      rw [hadd] at h
      cases h
      exact isRetryable_of_addUnit hadd

section Recovery

variable (r : Recovery) (sources : List Source)

/-- The tolerant build always goes through: repeated names are allowed in it. -/
theorem buildWith_tolerant :
    buildWith r .tolerant sources =
      .ok (ofUnits (sources.filterMap (·.unit? r .tolerant))).bindCalls := by
  have hadd := addUnits_tolerant .empty (sources.filterMap (·.unit? r .tolerant))
  unfold buildWith
  rw [show (Tolerance.tolerant == Tolerance.tolerant) = true from rfl, hadd]
  rfl

theorem exists_buildWith_strict_iff_addUnits :
    (∃ m, buildWith r .strict sources = .ok m) ↔
      ∃ m, Model.empty.addUnits false (sources.filterMap (·.unit? r .strict)) = .ok m := by
  unfold buildWith
  rw [show (Tolerance.strict == Tolerance.tolerant) = false from rfl]
  cases Model.empty.addUnits false (sources.filterMap (·.unit? r .strict)) with
  | ok m => exact ⟨fun _ => ⟨m, rfl⟩, fun _ => ⟨m.bindCalls, rfl⟩⟩
  | error e =>
    constructor <;> rintro ⟨_, h⟩ <;> cases h

/-- The strict build goes through exactly if no two files declare one name. Malformed files declare
none in it. -/
theorem exists_buildWith_strict_iff :
    (∃ m, buildWith r .strict sources = .ok m) ↔
      sources.Pairwise fun s t => ∀ name, ¬ (s.Declares name ∧ t.Declares name) := by
  have hshaped : ∀ u ∈ sources.filterMap (·.unit? r .strict), u.Shaped := by
    intro u hu
    obtain ⟨s, -, hs⟩ := List.mem_filterMap.1 hu
    exact Source.shaped_of_unit? hs
  rw [exists_buildWith_strict_iff_addUnits, addUnits_strict_iff hshaped, List.pairwise_filterMap]
  refine List.Pairwise.iff ?_
  intro s t
  constructor
  · rintro hdisjoint name ⟨hs, ht⟩
    obtain ⟨u, hu, hname⟩ := Source.declares_iff.1 hs
    obtain ⟨v, hv, hname'⟩ := Source.declares_iff.1 ht
    exact hdisjoint u hu v hv hname hname'
  · intro hapart u hu v hv name hname hname'
    exact hapart name ⟨Source.declares_iff.2 ⟨u, hu, hname⟩, Source.declares_iff.2 ⟨v, hv, hname'⟩⟩

theorem isRetryable_of_buildWith {tolerance : Tolerance} {e : ScanError}
    (h : buildWith r tolerance sources = .error e) : e.isRetryable = true := by
  unfold buildWith at h
  cases hadd : Model.empty.addUnits (tolerance == .tolerant)
      (sources.filterMap (·.unit? r tolerance)) with
  | ok m =>
    rw [hadd] at h
    cases h
  | error e' =>
    rw [hadd] at h
    cases h
    exact isRetryable_of_addUnits hadd

theorem buildOrRetryWith_of_ok {m : Model} (h : buildWith r .strict sources = .ok m) :
    buildOrRetryWith r sources = .ok m := by
  rw [buildOrRetryWith, h]

/-- Every failure of the strict build is retried, as each is of the kind that is. -/
theorem buildOrRetryWith_of_error {e : ScanError} (h : buildWith r .strict sources = .error e) :
    buildOrRetryWith r sources = buildWith r .tolerant sources := by
  rw [buildOrRetryWith, h]
  exact if_pos (isRetryable_of_buildWith r sources h)

/-- If every file parses, the retry could not have given anything else than the strict build. -/
theorem buildWith_eq_of_isSound (hsound : ∀ s ∈ sources, s.IsSound) {m : Model}
    (h : buildWith r .strict sources = .ok m) : buildWith r .tolerant sources = .ok m := by
  have hunits : sources.filterMap (·.unit? r .tolerant) =
      sources.filterMap (·.unit? r .strict) :=
    List.filterMap_congr fun s hs => Source.unit?_of_isSound (hsound s hs)
  obtain ⟨added, hadd, hbound⟩ := exists_of_bind_eq_ok h
  cases hbound
  rw [buildWith_tolerant, hunits, eq_of_addUnits hadd]
  rfl

/-- A file that cannot be read has no part in a build. -/
theorem filterMap_without {before after : List Source} {s : Source} (htext : s.text = none)
    (tolerance : Tolerance) :
    (before ++ s :: after).filterMap (·.unit? r tolerance) =
      (before ++ after).filterMap (·.unit? r tolerance) := by
  rw [List.filterMap_append, List.filterMap_append,
    List.filterMap_cons_none (Source.unit?_eq_none htext)]

end Recovery

/-! ## Laws of builds -/

/-- How a build and a build with a retry behave on a list of sources. -/
structure RetryLaws (build : Tolerance → List Source → Except ScanError Model)
    (retry : List Source → Except ScanError Model) (sources : List Source) : Prop where
  /-- A retry always gives a model. -/
  total : ∃ m, retry sources = .ok m
  /-- It is the strict model if there is one, -/
  strict : ∀ m, build .strict sources = .ok m → retry sources = .ok m
  /-- and the tolerant one if not. -/
  tolerant : ∀ e, build .strict sources = .error e → retry sources = build .tolerant sources
  /-- There is no strict model just if two entries declare a name in common. -/
  fails_iff : (∃ e, build .strict sources = .error e) ↔
    ∃ (i j : Nat) (s t : Source) (name : String), i < j ∧ sources[i]? = some s ∧
      sources[j]? = some t ∧ s.Declares name ∧ t.Declares name
  /-- The strict model is the tolerant one if no source that can be read is malformed. -/
  agree : (∀ s ∈ sources, s.IsSound) → ∀ m, build .strict sources = .ok m →
    build .tolerant sources = .ok m
  /-- A source that cannot be read makes no difference. -/
  unreadable : ∀ (before : List Source) (s : Source) (after : List Source),
    sources = before ++ s :: after → s.text = none →
      retry (before ++ after) = retry sources ∧
        ∀ tolerance, build tolerance (before ++ after) = build tolerance sources

/-- The laws of retrying do not depend on what recovery makes of a malformed text. -/
theorem RetryLaws.of_recovery (r : Recovery) (sources : List Source) :
    RetryLaws (buildWith r) (buildOrRetryWith r) sources where
  total := by
    cases hstrict : buildWith r .strict sources with
    | ok m => exact ⟨m, buildOrRetryWith_of_ok r sources hstrict⟩
    | error e =>
      exact ⟨_, (buildOrRetryWith_of_error r sources hstrict).trans (buildWith_tolerant r sources)⟩
  strict _ := buildOrRetryWith_of_ok r sources
  tolerant _ := buildOrRetryWith_of_error r sources
  fails_iff := by
    have hok := exists_buildWith_strict_iff r sources
    rw [List.pairwise_iff_getElem] at hok
    cases hstrict : buildWith r .strict sources with
    | ok m =>
      have hapart := hok.1 ⟨m, hstrict⟩
      constructor
      · rintro ⟨e, he⟩
        cases he
      · rintro ⟨i, j, s, t, name, hij, hi, hj, hs, ht⟩
        obtain ⟨hilt, rfl⟩ := List.getElem?_eq_some_iff.1 hi
        obtain ⟨hjlt, rfl⟩ := List.getElem?_eq_some_iff.1 hj
        exact absurd ⟨hs, ht⟩ (hapart i j hilt hjlt hij name)
    | error e =>
      refine iff_of_true ⟨e, rfl⟩ ?_
      by_contra hnone
      obtain ⟨m, hm⟩ := hok.2 fun i j hi hj hij name hshared =>
        hnone ⟨i, j, _, _, name, hij, List.getElem?_eq_getElem hi, List.getElem?_eq_getElem hj,
          hshared.1, hshared.2⟩
      rw [hstrict] at hm
      cases hm
  agree hsound _ := buildWith_eq_of_isSound r sources hsound
  unreadable before s after hsplit htext := by
    have hbuild : ∀ tolerance,
        buildWith r tolerance (before ++ after) = buildWith r tolerance sources := by
      intro tolerance
      rw [hsplit, buildWith, buildWith, filterMap_without r htext]
    refine ⟨?_, hbuild⟩
    rw [buildOrRetryWith, buildOrRetryWith, hbuild, hbuild]

/-- **Builds are total and agree.** The laws hold of the builds of the program, and of builds that
get anything else out of malformed texts. -/
theorem buildOrRetry_laws (sources : List Source) :
    RetryLaws build buildOrRetry sources ∧
      ∀ r : Recovery, RetryLaws (buildWith r) (buildOrRetryWith r) sources :=
  ⟨RetryLaws.of_recovery .bare sources, fun r => RetryLaws.of_recovery r sources⟩

end Model

namespace Sample

def twiceSource : Source :=
  ⟨⟨"r/A.java"⟩, some "class A \x7b\x7d class A \x7b\x7d"⟩

def callingSource : Source :=
  ⟨⟨"r/B.java"⟩, some "class B \x7b void f() \x7b f(); \x7d \x7d"⟩

def missingSource : Source :=
  ⟨⟨"r/C.java"⟩, none⟩

def malformedSource : Source :=
  ⟨⟨"r/D.java"⟩, some "%"⟩

theorem twiceSource_declares : twiceSource.Declares "A" :=
  ⟨_, _, rfl, parse_twice, by decide⟩

end Sample

namespace Model

/-- A list with a source that cannot be read, where both builds agree and bind the call of a method
although a file declares a class twice, and a list with a malformed source, where the strict build
fails because two entries are the same. -/
theorem buildOrRetry_laws_sample :
    let sources := [Sample.twiceSource, Sample.missingSource, Sample.callingSource]
    let doubled := [Sample.twiceSource, Sample.malformedSource, Sample.twiceSource]
    (∃ m, build .strict sources = .ok m ∧ build .tolerant sources = .ok m ∧
      buildOrRetry [Sample.twiceSource, Sample.callingSource] = .ok m ∧
      m.calls.map (·.binding) = [some 0]) ∧
    (∃ e, build .strict doubled = .error e) ∧
    ∃ m, build .tolerant doubled = .ok m ∧ buildOrRetry doubled = .ok m := by
  intro sources doubled
  obtain ⟨hlaws, -⟩ := buildOrRetry_laws sources
  obtain ⟨hdoubled, -⟩ := buildOrRetry_laws doubled
  have hsound : ∀ s ∈ sources, s.IsSound := by
    intro s hs text htext
    simp only [sources, List.mem_cons, List.not_mem_nil, or_false] at hs
    rcases hs with rfl | rfl | rfl
    · cases htext
      rw [show Sample.twiceSource.path = ⟨"r/A.java"⟩ from rfl, Sample.parse_twice]
      rfl
    · cases htext
    · cases htext
      decide +kernel
  have hdeclares := Sample.twiceSource_declares
  have hfails := hdoubled.fails_iff.2 ⟨0, 2, _, _, "A", by decide, rfl, rfl, hdeclares, hdeclares⟩
  obtain ⟨m, hm, hbound⟩ : ∃ m, build .strict sources = .ok m ∧
      m.calls.map (·.binding) = [some 0] := by
    have hbound : (build .strict sources).toOption.map (fun m => m.calls.map (·.binding)) =
        some [some 0] := by decide +kernel
    cases hbuild : build .strict sources with
    | ok m =>
      rw [hbuild] at hbound
      exact ⟨m, rfl, Option.some_inj.1 hbound⟩
    | error e =>
      rw [hbuild] at hbound
      cases hbound
  obtain ⟨hretry, -⟩ := hlaws.unreadable [Sample.twiceSource] _ [Sample.callingSource] rfl rfl
  obtain ⟨e, he⟩ := hfails
  obtain ⟨m', hm'⟩ := hdoubled.total
  refine ⟨⟨m, hm, hlaws.agree hsound m hm, hretry.trans (hlaws.strict m hm), hbound⟩, ⟨e, he⟩,
    m', ?_, hm'⟩
  rw [← hdoubled.tolerant e he]
  exact hm'

end Model

end Deadwood.Code
