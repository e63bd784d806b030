import PkgApply.Observation

/-!
# Knowledge

One observation refines another when it settles some of the unknown facts and
changes nothing that was known.  The precondition check says exactly what it
should of what is known, and more knowledge never makes it stale.
-/

namespace PkgApply

/-! ## Refinement -/

namespace QualifiedFact

variable {α : Type} {f g : QualifiedFact α} {v : α}

/-- An unknown fact may become known; every other fact stays. -/
inductive Refines : QualifiedFact α → QualifiedFact α → Prop
  | same (f : QualifiedFact α) : Refines f f
  | learned (v : α) : Refines .unknown (.known v)

/-- The fact is known and is `v`. -/
def Agrees (f : QualifiedFact α) (v : α) : Prop := f = .known v

/-- The fact is known and is not `v`. -/
def Differs (f : QualifiedFact α) (v : α) : Prop := ∃ w, f = .known w ∧ w ≠ v

theorem Agrees.refines (h : f.Agrees v) (hg : f.Refines g) : g.Agrees v := by
  cases hg with
  | same => exact h
  | learned => cases h

end QualifiedFact

/-- The same object, some of its unknown facts settled. -/
structure CompletedObjectFact.Refines (a b : CompletedObjectFact) : Prop where
  path : b.path = a.path
  kind : b.kind = a.kind
  provenance : b.provenance = a.provenance
  mode : a.mode.Refines b.mode
  uid : a.uid.Refines b.uid
  gid : a.gid.Refines b.gid
  size : a.size.Refines b.size
  mtime : a.mtime.Refines b.mtime
  regularContent : a.regularContent.Refines b.regularContent
  symlinkTarget : a.symlinkTarget.Refines b.symlinkTarget
  device : a.device.Refines b.device
  hardlink : a.hardlink.Refines b.hardlink

/-- The same path, with more known about it. -/
inductive PathObservation.Refines : PathObservation → PathObservation → Prop
  | present {a b : CompletedObjectFact} (h : a.Refines b) : Refines (present a) (present b)
  | absent (path : PackagePath) : Refines (absent path) (absent path)
  | unknown (o : PathObservation) : Refines (unknown o.path) o

theorem PathObservation.Refines.path {o o' : PathObservation} (h : o.Refines o') :
    o'.path = o.path := by
  cases h with
  | present h => exact h.path
  | absent => rfl
  | unknown => rfl

/-- The same paths, with more known about them. -/
structure BackendObservationBatch.Refines (a b : BackendObservationBatch) : Prop where
  requested : b.requested = a.requested
  observations : List.Forall₂ PathObservation.Refines a.observations b.observations

/-- What was observed of a path is refined where the batch is. -/
theorem BackendObservationBatch.Refines.find {a b : BackendObservationBatch} (h : a.Refines b)
    {path : PackagePath} {o : PathObservation} (ho : a.find path = some o) :
    ∃ o', b.find path = some o' ∧ o.Refines o' := by
  have hlists : ∀ {l l' : List PathObservation}, List.Forall₂ PathObservation.Refines l l' →
      l.find? (·.path == path) = some o →
      ∃ o', l'.find? (·.path == path) = some o' ∧ o.Refines o' := by
    intro l l' hl
    induction hl with
    | nil => simp
    | @cons x y _ _ hxy _ ih =>
      intro hfind
      by_cases hx : x.path = path
      · rw [List.find?_cons_of_pos (by simpa using hx)] at hfind
        rw [List.find?_cons_of_pos (by simpa [hxy.path] using hx)]
        exact ⟨y, rfl, Option.some.inj hfind ▸ hxy⟩
      · rw [List.find?_cons_of_neg (by simpa using hx)] at hfind
        rw [List.find?_cons_of_neg (by simpa [hxy.path] using hx)]
        exact ih hfind
  exact hlists h.observations ho

/-! ## What a plan recorded, and what was observed -/

section Recorded

variable {metadata : FilesystemObjectMetadata} {object object' : CompletedObjectFact}

/-- Every attribute the plan recorded stands in a relation to what was observed. -/
def FilesystemObjectMetadata.Every (metadata : FilesystemObjectMetadata)
    (object : CompletedObjectFact) (p : ∀ {α : Type}, QualifiedFact α → α → Prop) : Prop :=
  p object.mode metadata.mode ∧ p object.uid metadata.uid ∧ p object.gid metadata.gid ∧
    (∀ v, metadata.size = some v → p object.size v) ∧
    (∀ v, metadata.mtime = some v → p object.mtime v) ∧
    (∀ v, metadata.regularContent = some v → p object.regularContent v) ∧
    (∀ v, metadata.symlinkTarget = some v → p object.symlinkTarget v) ∧
    (∀ v, metadata.device = some v → p object.device v)

/-- Some attribute the plan recorded stands in a relation to what was observed. -/
def FilesystemObjectMetadata.Any (metadata : FilesystemObjectMetadata)
    (object : CompletedObjectFact) (p : ∀ {α : Type}, QualifiedFact α → α → Prop) : Prop :=
  p object.mode metadata.mode ∨ p object.uid metadata.uid ∨ p object.gid metadata.gid ∨
    (∃ v, metadata.size = some v ∧ p object.size v) ∨
    (∃ v, metadata.mtime = some v ∧ p object.mtime v) ∨
    (∃ v, metadata.regularContent = some v ∧ p object.regularContent v) ∨
    (∃ v, metadata.symlinkTarget = some v ∧ p object.symlinkTarget v) ∨
    (∃ v, metadata.device = some v ∧ p object.device v)

/-- Presence and kind are as the plan has them, and every recorded attribute
is known and equal. -/
def PathPrecondition.HoldsIn (expected : PathPrecondition) : PathObservation → Prop
  | .present object => ∃ metadata, expected.observation = some metadata ∧
      metadata.kind = object.kind ∧ metadata.Every object fun f v => f.Agrees v
  | .absent _ => expected.observation = none
  | .unknown _ => False

/-- Presence, the kind or a recorded attribute is known and different. -/
def PathPrecondition.FailsIn (expected : PathPrecondition) : PathObservation → Prop
  | .present object => expected.observation = none ∨
      ∃ metadata, expected.observation = some metadata ∧
        (metadata.kind ≠ object.kind ∨ metadata.Any object fun f v => f.Differs v)
  | .absent _ => expected.observation ≠ none
  | .unknown _ => False

end Recorded

/-! ## The precondition check -/

namespace PreconditionCheck

variable {path : PackagePath} {field : PreconditionField}

section Attribute

variable {α : Type} [DecidableEq α] {observed observed' : QualifiedFact α} {expected : α}

theorem compareRequired_eq_nil :
    compareRequired path field observed expected = [] ↔ observed.Agrees expected := by
  cases observed with
  | known value =>
    by_cases hvalue : value = expected
    · simp [compareRequired, QualifiedFact.Agrees, hvalue]
    · simp [compareRequired, QualifiedFact.Agrees, hvalue]
  | unknown => simp [compareRequired, QualifiedFact.Agrees]
  | notApplicable => simp [compareRequired, QualifiedFact.Agrees]

theorem mismatch_compareRequired : (∃ f ∈ compareRequired path field observed expected,
    f.kind = .mismatch) ↔ observed.Differs expected := by
  cases observed with
  | known value =>
    by_cases hvalue : value = expected
    · simp [compareRequired, QualifiedFact.Differs, hvalue]
    · simp [compareRequired, QualifiedFact.Differs, hvalue]
  | unknown => simp [compareRequired, QualifiedFact.Differs]
  | notApplicable => simp [compareRequired, QualifiedFact.Differs]

theorem compareRecorded_eq_nil {recorded : Option α} :
    compareRecorded path field observed recorded = [] ↔
      ∀ v, recorded = some v → observed.Agrees v := by
  cases recorded with
  | none => simp [compareRecorded]
  | some v => simp [compareRecorded, compareRequired_eq_nil]

theorem mismatch_compareRecorded {recorded : Option α} :
    (∃ f ∈ compareRecorded path field observed recorded, f.kind = .mismatch) ↔
      ∃ v, recorded = some v ∧ observed.Differs v := by
  cases recorded with
  | none => simp [compareRecorded]
  | some v => simpa [compareRecorded] using mismatch_compareRequired

/-- Every mismatch among some failures is among others too. -/
def KeepsMismatches (failures failures' : List PreconditionFailure) : Prop :=
  ∀ f ∈ failures, f.kind = .mismatch → f ∈ failures'

theorem KeepsMismatches.append {a a' b b' : List PreconditionFailure}
    (ha : KeepsMismatches a a') (hb : KeepsMismatches b b') :
    KeepsMismatches (a ++ b) (a' ++ b') := by
  intro f hf hkind
  rcases List.mem_append.mp hf with hf | hf
  · exact List.mem_append_left _ (ha f hf hkind)
  · exact List.mem_append_right _ (hb f hf hkind)

theorem compareRequired_keeps (h : observed.Refines observed') :
    KeepsMismatches (compareRequired path field observed expected)
      (compareRequired path field observed' expected) := by
  cases h with
  | same => exact fun f hf _ => hf
  | learned v =>
    intro f hf hkind
    simp only [compareRequired, List.mem_singleton] at hf
    subst hf
    cases hkind

theorem compareRecorded_keeps {recorded : Option α} (h : observed.Refines observed') :
    KeepsMismatches (compareRecorded path field observed recorded)
      (compareRecorded path field observed' recorded) := by
  cases recorded with
  | none => exact fun f hf _ => hf
  | some v => exact compareRequired_keeps h

end Attribute

section Object

variable {expected : FilesystemObjectMetadata} {object object' : CompletedObjectFact}

theorem compareObject_eq_nil : compareObject expected object = [] ↔
    expected.kind = object.kind ∧ expected.Every object fun f v => f.Agrees v := by
  unfold compareObject FilesystemObjectMetadata.Every
  by_cases hkind : expected.kind = object.kind
  · simp only [hkind, ne_eq, not_true_eq_false, if_false, List.append_eq_nil_iff,
      compareRequired_eq_nil, compareRecorded_eq_nil, and_assoc, true_and]
  · simp [hkind]

theorem mismatch_compareObject : (∃ f ∈ compareObject expected object, f.kind = .mismatch) ↔
    expected.kind ≠ object.kind ∨ expected.Any object fun f v => f.Differs v := by
  unfold compareObject FilesystemObjectMetadata.Any
  by_cases hkind : expected.kind = object.kind
  · simp only [hkind, ne_eq, not_true_eq_false, if_false, List.mem_append, or_and_right, exists_or,
      mismatch_compareRequired, mismatch_compareRecorded, or_assoc, false_or]
  · simp [hkind]

theorem compareObject_keeps (h : object.Refines object') :
    KeepsMismatches (compareObject expected object) (compareObject expected object') := by
  unfold compareObject
  simp only [h.path, h.kind]
  split
  · exact fun f hf _ => hf
  · exact (((((((compareRequired_keeps h.mode).append (compareRequired_keeps h.uid)).append
      (compareRequired_keeps h.gid)).append (compareRecorded_keeps h.size)).append
      (compareRecorded_keeps h.mtime)).append (compareRecorded_keeps h.regularContent)).append
      (compareRecorded_keeps h.symlinkTarget)).append (compareRecorded_keeps h.device)

end Object

section Path

variable {expected : PathPrecondition} {o o' : PathObservation}

theorem comparePath_eq_nil : comparePath expected o = [] ↔ expected.HoldsIn o := by
  cases o with
  | present object =>
    cases hplanned : expected.observation with
    | none => simp [comparePath, PathPrecondition.HoldsIn, hplanned]
    | some metadata => simp [comparePath, PathPrecondition.HoldsIn, hplanned, compareObject_eq_nil]
  | absent =>
    cases hplanned : expected.observation with
    | none => simp [comparePath, PathPrecondition.HoldsIn, PathPrecondition.isPresent, hplanned]
    | some metadata =>
      simp [comparePath, PathPrecondition.HoldsIn, PathPrecondition.isPresent, hplanned]
  | unknown => simp [comparePath, PathPrecondition.HoldsIn]

theorem mismatch_comparePath :
    (∃ f ∈ comparePath expected o, f.kind = .mismatch) ↔ expected.FailsIn o := by
  cases o with
  | present object =>
    cases hplanned : expected.observation with
    | none => simp [comparePath, PathPrecondition.FailsIn, hplanned]
    | some metadata =>
      simpa [comparePath, PathPrecondition.FailsIn, hplanned] using mismatch_compareObject
  | absent =>
    cases hplanned : expected.observation with
    | none => simp [comparePath, PathPrecondition.FailsIn, PathPrecondition.isPresent, hplanned]
    | some metadata =>
      simp [comparePath, PathPrecondition.FailsIn, PathPrecondition.isPresent, hplanned]
  | unknown => simp [comparePath, PathPrecondition.FailsIn]

theorem comparePath_keeps (h : o.Refines o') :
    KeepsMismatches (comparePath expected o) (comparePath expected o') := by
  cases h with
  | present h =>
    unfold comparePath
    cases expected.observation with
    | none => exact fun f hf _ => hf
    | some metadata => exact compareObject_keeps h
  | absent => exact fun f hf _ => hf
  | unknown =>
    intro f hf hkind
    simp only [comparePath, List.mem_singleton] at hf
    subst hf
    cases hkind

end Path

section Batch

variable {expected : List PathPrecondition} {batch batch' : BackendObservationBatch}
  {check check' : PreconditionCheck}

/-- The failures are those of the single paths. -/
private theorem collectFailures_spec (hfind : ∀ p ∈ expected, ∃ o, batch.find p.path = some o) :
    ∃ failures, collectFailures batch expected = .ok failures ∧ ∀ f, f ∈ failures ↔
      ∃ p ∈ expected, ∃ o, batch.find p.path = some o ∧ f ∈ comparePath p o := by
  induction expected with
  | nil => exact ⟨[], rfl, by simp⟩
  | cons p rest ih =>
    obtain ⟨o, ho⟩ := hfind p List.mem_cons_self
    obtain ⟨failures, hfailures, hmem⟩ := ih fun q hq => hfind q (List.mem_cons_of_mem _ hq)
    refine ⟨comparePath p o ++ failures, ?_, fun f => ?_⟩
    · simp [collectFailures, ho, hfailures, bind, Except.bind, pure, Except.pure]
    · rw [List.mem_append, hmem]
      constructor
      · rintro (hf | ⟨q, hq, o', ho', hf⟩)
        · exact ⟨p, List.mem_cons_self, o, ho, hf⟩
        · exact ⟨q, List.mem_cons_of_mem _ hq, o', ho', hf⟩
      · rintro ⟨q, hq, o', ho', hf⟩
        rcases List.mem_cons.mp hq with rfl | hq
        · rw [ho] at ho'
          cases ho'
          exact .inl hf
        · exact .inr ⟨q, hq, o', ho', hf⟩

/-- A check over the paths it requires always exists. -/
theorem exists_make (hpaths : expected.map PathPrecondition.path = batch.requested) :
    ∃ check, make expected batch = .ok check := by
  have hfind : ∀ p ∈ expected, ∃ o, batch.find p.path = some o := fun p hp =>
    BackendObservationBatch.exists_find (hpaths ▸ List.mem_map_of_mem hp)
  obtain ⟨failures, hfailures, -⟩ := collectFailures_spec hfind
  have hlength : expected.length = batch.requested.length := by rw [← hpaths, List.length_map]
  unfold make
  rw [refuseIf_bind_of_not (not_not.mpr hlength), refuseIf_bind_of_not (not_not.mpr hpaths),
    hfailures]
  exact ⟨_, rfl⟩

/-- What a check observed, and what it found. -/
theorem make_eq_ok (h : make expected batch = .ok check) :
    check.observations = batch ∧ expected.map PathPrecondition.path = batch.requested ∧
      (∀ p ∈ expected, ∃ o, batch.find p.path = some o) ∧ ∀ f, f ∈ check.failures ↔
        ∃ p ∈ expected, ∃ o, batch.find p.path = some o ∧ f ∈ comparePath p o := by
  unfold make at h
  obtain ⟨-, h⟩ := refuseIf_bind_eq_ok.mp h
  obtain ⟨hpaths, h⟩ := refuseIf_bind_eq_ok.mp h
  have hpaths := not_not.mp hpaths
  have hfind : ∀ p ∈ expected, ∃ o, batch.find p.path = some o := fun p hp =>
    BackendObservationBatch.exists_find (hpaths ▸ List.mem_map_of_mem hp)
  obtain ⟨failures, hfailures, hmem⟩ := collectFailures_spec hfind
  rw [hfailures] at h
  cases h
  refine ⟨rfl, hpaths, hfind, fun f => ?_⟩
  rw [← hmem f]
  exact List.mem_insertionSort PreconditionFailure.le

/-- A check is satisfied exactly when every path is as required. -/
theorem satisfied_iff (h : make expected batch = .ok check) : check.satisfied ↔
    ∀ p ∈ expected, ∃ o, batch.find p.path = some o ∧ p.HoldsIn o := by
  obtain ⟨-, -, hfind, hmem⟩ := make_eq_ok h
  rw [satisfied, List.isEmpty_iff, List.eq_nil_iff_forall_not_mem]
  constructor
  · intro hnone p hp
    obtain ⟨o, ho⟩ := hfind p hp
    refine ⟨o, ho, comparePath_eq_nil.mp (List.eq_nil_iff_forall_not_mem.mpr fun f hf => ?_)⟩
    exact hnone f ((hmem f).mpr ⟨p, hp, o, ho, hf⟩)
  · intro hall f hf
    obtain ⟨p, hp, o, ho, hf⟩ := (hmem f).mp hf
    obtain ⟨o', ho', hholds⟩ := hall p hp
    rw [ho] at ho'
    cases ho'
    rw [comparePath_eq_nil.mpr hholds] at hf
    cases hf

/-- A check has a mismatch exactly when something known is different. -/
theorem mismatch_iff (h : make expected batch = .ok check) :
    (∃ f ∈ check.failures, f.kind = .mismatch) ↔
      ∃ p ∈ expected, ∃ o, batch.find p.path = some o ∧ p.FailsIn o := by
  obtain ⟨-, -, -, hmem⟩ := make_eq_ok h
  constructor
  · rintro ⟨f, hf, hkind⟩
    obtain ⟨p, hp, o, ho, hf⟩ := (hmem f).mp hf
    exact ⟨p, hp, o, ho, mismatch_comparePath.mp ⟨f, hf, hkind⟩⟩
  · rintro ⟨p, hp, o, ho, hfails⟩
    obtain ⟨f, hf, hkind⟩ := mismatch_comparePath.mpr hfails
    exact ⟨f, (hmem f).mpr ⟨p, hp, o, ho, hf⟩, hkind⟩

end Batch

end PreconditionCheck

/-- What holds of an observation holds of every refinement. -/
theorem PathPrecondition.HoldsIn.refines {expected : PathPrecondition} {o o' : PathObservation}
    (h : expected.HoldsIn o) (ho : o.Refines o') : expected.HoldsIn o' := by
  cases ho with
  | present ho =>
    obtain ⟨metadata, hplanned, hkind, hmode, huid, hgid, hsize, hmtime, hcontent, htarget,
      hdevice⟩ := h
    exact ⟨metadata, hplanned, hkind.trans ho.kind.symm, hmode.refines ho.mode,
      huid.refines ho.uid, hgid.refines ho.gid, fun v hv => (hsize v hv).refines ho.size,
      fun v hv => (hmtime v hv).refines ho.mtime,
      fun v hv => (hcontent v hv).refines ho.regularContent,
      fun v hv => (htarget v hv).refines ho.symlinkTarget,
      fun v hv => (hdevice v hv).refines ho.device⟩
  | absent => exact h
  | unknown => exact h.elim

/-- The precondition check is exact, and more knowledge keeps it: a satisfied
check stays satisfied, whatever is learned of attributes the plan did not
record, and no mismatch goes away. -/
theorem PreconditionCheck.exact_and_monotone {expected : List PathPrecondition}
    {batch : BackendObservationBatch}
    (hpaths : expected.map PathPrecondition.path = batch.requested) :
    ∃ check, make expected batch = .ok check ∧
      (check.satisfied ↔ ∀ p ∈ expected, ∃ o, batch.find p.path = some o ∧ p.HoldsIn o) ∧
      ((∃ f ∈ check.failures, f.kind = .mismatch) ↔
        ∃ p ∈ expected, ∃ o, batch.find p.path = some o ∧ p.FailsIn o) ∧
      ∀ batch', batch.Refines batch' → ∃ check', make expected batch' = .ok check' ∧
        (check.satisfied → check'.satisfied) ∧
        ∀ f ∈ check.failures, f.kind = .mismatch → f ∈ check'.failures := by
  obtain ⟨check, hcheck⟩ := exists_make hpaths
  refine ⟨check, hcheck, satisfied_iff hcheck, mismatch_iff hcheck, fun batch' hrefines => ?_⟩
  obtain ⟨check', hcheck'⟩ := exists_make (hpaths.trans hrefines.requested.symm)
  refine ⟨check', hcheck', fun hsatisfied => ?_, fun f hf hkind => ?_⟩
  · rw [satisfied_iff hcheck] at hsatisfied
    refine (satisfied_iff hcheck').mpr fun p hp => ?_
    obtain ⟨o, ho, hholds⟩ := hsatisfied p hp
    obtain ⟨o', ho', hmore⟩ := hrefines.find ho
    exact ⟨o', ho', hholds.refines hmore⟩
  · obtain ⟨p, hp, o, ho, hf⟩ := ((make_eq_ok hcheck).2.2.2 f).mp hf
    obtain ⟨o', ho', hmore⟩ := hrefines.find ho
    exact ((make_eq_ok hcheck').2.2.2 f).mpr ⟨p, hp, o', ho', comparePath_keeps hmore f hf hkind⟩

/-- A directory of unknown modification time. -/
def untimedDirectory : CompletedObjectFact where
  path := ⟨[0x64]⟩
  kind := .directory
  mode := .known 0o755
  uid := .known 0
  gid := .known 0
  size := .notApplicable
  mtime := .unknown
  regularContent := .notApplicable
  symlinkTarget := .notApplicable
  device := .notApplicable
  hardlink := .notApplicable
  provenance := .applicationObservation
  completeness := .partialFacts
  applicable := applicable_directory

def untimedBatch : BackendObservationBatch :=
  ⟨[⟨[0x64]⟩], [.present untimedDirectory], ∅, List.pairwise_singleton _ _, rfl⟩

/-- A plan that recorded no modification time. -/
def untimedPrecondition : PathPrecondition :=
  ⟨⟨[0x64]⟩, some ⟨.directory, 0o755, 0, 0, none, none, none, none, none⟩⟩

theorem PreconditionCheck.exact_and_monotone_untimed :
    ∃ check, make [untimedPrecondition] untimedBatch = .ok check ∧ check.satisfied ∧
      ∀ batch', untimedBatch.Refines batch' → ∃ check',
        make [untimedPrecondition] batch' = .ok check' ∧ check'.satisfied := by
  have hpaths : [untimedPrecondition].map PathPrecondition.path = untimedBatch.requested := rfl
  obtain ⟨check, hcheck, hexact, -, hmono⟩ := PreconditionCheck.exact_and_monotone hpaths
  have hsatisfied : check.satisfied := by
    refine hexact.mpr fun p hp => ?_
    rw [List.mem_singleton.mp hp]
    exact ⟨.present untimedDirectory, rfl, _, rfl, rfl, rfl, rfl, rfl, nofun, nofun, nofun, nofun,
      nofun⟩
  refine ⟨check, hcheck, hsatisfied, fun batch' hrefines => ?_⟩
  obtain ⟨check', hcheck', hkeeps, -⟩ := hmono batch' hrefines
  exact ⟨check', hcheck', hkeeps hsatisfied⟩

end PkgApply
