import PkgApply.Restart.Conclusion
import PkgApply.Transport.Recorded
import PkgApply.Transport.Validation

/-!
# Assessment of a stored journal

How an application may go on, as the record read back from its bytes tells it.
A well-formed record always answers, and the record of a live history answers
what the history does.
-/

namespace PkgApply

open Library Transport

namespace Transport.Snapshot

section Definitions

/-- Begun without a terminal event, or with one that is no success. -/
def leftUnresolved : EffectProgress → Bool
  | ⟨intended, none⟩ => intended
  | ⟨_, some kind⟩ => kind == .failed || kind == .indeterminate

variable (X : Externals)

/-- One event, recorded for the effect it cites. -/
def recordEvent (effects : List JournalEffect) (table : List EffectProgress) (event : Event) :
    Except Exn (List EffectProgress) :=
  match effects.find? fun effect => identifyEffect X effect = event.effect with
  | none => .error (.logicError "validated journal cites an unknown effect")
  | some effect => .ok (table.modify effect.ordinal fun p => p.record event.kind)

variable (s : Snapshot)

/-- What the events amount to, by effect ordinal. -/
def progress : Except Exn (List EffectProgress) :=
  s.events.foldlM (recordEvent X s.effects) (List.replicate s.effects.length .untouched)

/-- An active effect left without a terminal event, or with a failed one. -/
def activeEffectRequiresRecovery : Except Exn Bool := do
  let states ← s.progress X
  return s.effects.any fun effect =>
    effect.kind == .publishActiveObject && leftUnresolved (states.getD effect.ordinal .untouched)

/-- How the application of a stored journal may go on. -/
def disposition : Except Exn RestartDisposition :=
  if s.receipt.isSome then
    if s.state = .indeterminate ∨ s.state = .externalResolutionPending then
      .ok .externalResolutionRequired
    else .ok .terminal
  else
    match s.state with
    | .preparing | .prepared | .effectsVisible | .resultObserved => .ok .resumeForward
    | .mutating => do
      return if ← s.activeEffectRequiresRecovery X then .resumeRecovery else .resumeForward
    | .recoveryPending | .recovering => .ok .resumeRecovery
    | .applicationCompleted | .recovered | .finalized | .abandoned => .ok .terminal
    | .externalResolutionPending | .indeterminate => .ok .externalResolutionRequired

end Definitions

/-! ## Progress of a well-formed record -/

/-- What events of these kinds amount to. -/
def amount (kinds : List EventKind) : EffectProgress := kinds.foldl EffectProgress.record .untouched

section Progress

variable {X : Externals} {s : Snapshot} {effects : List JournalEffect} {effect : JournalEffect}
  {events : List Event} {event : Event}

theorem coursed_cons {identity : EffectIdentity} : coursed (event :: events) identity =
    if event.effect = identity then event.kind :: coursed events identity
    else coursed events identity := by
  unfold coursed
  rw [List.filter_cons]
  split <;> simp_all

/-- Recording an event of one effect in a table of all. -/
theorem modify_table (hordinals : effects.map JournalEffect.ordinal = List.range effects.length)
    (hdistinct : (effects.map (identifyEffect X)).Nodup) (heffect : effect ∈ effects)
    (g : JournalEffect → EffectProgress) (f : EffectProgress → EffectProgress) :
    (effects.map g).modify effect.ordinal f = effects.map fun other =>
      if identifyEffect X effect = identifyEffect X other then f (g other) else g other := by
  obtain ⟨j, hj, rfl⟩ := List.mem_iff_getElem.mp heffect
  have hordinal : effects[j].ordinal = j := by
    have hget : (effects.map JournalEffect.ordinal)[j]? = (List.range effects.length)[j]? := by
      rw [hordinals]
    simpa [hj] using hget
  apply List.ext_getElem (by simp)
  intro i hi hi'
  have hlt : i < effects.length := by simpa using hi'
  have hsame : identifyEffect X effects[j] = identifyEffect X effects[i] ↔ j = i := by
    constructor
    · intro heq
      have hj' : j < (effects.map (identifyEffect X)).length := by simpa using hj
      have hi'' : i < (effects.map (identifyEffect X)).length := by simpa using hlt
      have hget : (effects.map (identifyEffect X))[j] = (effects.map (identifyEffect X))[i] := by
        simpa using heq
      exact hdistinct.getElem_inj_iff.mp hget
    · intro heq
      subst heq
      rfl
  simp only [List.getElem_modify, hordinal, List.getElem_map, hsame]

/-- Recording the events in a table of all effects follows each effect's course. -/
theorem foldlM_recordEvent (hordinals : effects.map JournalEffect.ordinal = List.range effects.length)
    (hdistinct : (effects.map (identifyEffect X)).Nodup)
    (hdeclared : ∀ event ∈ events, ∃ effect ∈ effects, event.effect = identifyEffect X effect)
    (g : JournalEffect → EffectProgress) :
    events.foldlM (recordEvent X effects) (effects.map g) = .ok (effects.map fun effect =>
      (coursed events (identifyEffect X effect)).foldl EffectProgress.record (g effect)) := by
  induction events generalizing g with
  | nil => rfl
  | cons event events ih =>
    obtain ⟨⟨effect, heffect, hcites⟩, hdeclared⟩ := List.forall_mem_cons.mp hdeclared
    have hfind : effects.find? (fun other => identifyEffect X other = event.effect) =
        some effect := by
      cases hfound : effects.find? fun other => identifyEffect X other = event.effect with
      | none => simpa [hcites] using List.find?_eq_none.mp hfound effect heffect
      | some other =>
        have hother : identifyEffect X other = event.effect := by simpa using List.find?_some hfound
        rw [List.inj_on_of_nodup_map hdistinct (List.mem_of_find?_eq_some hfound) heffect
          (hother.trans hcites)]
    have hone : recordEvent X effects (effects.map g) event = .ok (effects.map fun other =>
        if identifyEffect X effect = identifyEffect X other then (g other).record event.kind
        else g other) := by
      rw [recordEvent, hfind]
      exact congrArg Except.ok (modify_table hordinals hdistinct heffect g _)
    rw [List.foldlM_cons, hone]
    refine (ih hdeclared _).trans ?_
    apply congrArg Except.ok
    apply List.map_congr_left
    intro other _
    rw [coursed_cons, hcites]
    split <;> rfl

/-- The progress of a well-formed record is what each effect's course amounts to. -/
theorem progress_eq (h : s.WellFormed X) : s.progress X =
    .ok (s.effects.map fun effect => amount (coursed s.events (identifyEffect X effect))) := by
  have htable : List.replicate s.effects.length EffectProgress.untouched =
      s.effects.map fun _ => .untouched := by simp
  rw [progress, htable]
  exact foldlM_recordEvent h.ordinals h.distinct h.declared _

/-- An effect with its intent alone, or with a terminal event that is no success. -/
def Unresolved (kinds : List EventKind) : Prop :=
  kinds = [.intent] ∨ kinds = [.intent, .failed] ∨ kinds = [.intent, .indeterminate]

theorem leftUnresolved_iff {kinds : List EventKind} (h : ValidCourse kinds) :
    leftUnresolved (amount kinds) = true ↔ Unresolved kinds := by
  unfold Unresolved
  rcases h with rfl | rfl | ⟨kind, hkind, rfl⟩
  · simp [amount, leftUnresolved, EffectProgress.untouched]
  · exact iff_of_true rfl (.inl rfl)
  · cases kind <;> simp_all [amount, leftUnresolved, EffectProgress.record]

/-- A well-formed record always tells whether its active effects need recovery:
when the course of one of them is left unresolved. -/
theorem activeEffectRequiresRecovery_eq (h : s.WellFormed X) :
    ∃ required, s.activeEffectRequiresRecovery X = .ok required ∧
      (required = true ↔ ∃ effect ∈ s.effects, effect.kind = .publishActiveObject ∧
        Unresolved (coursed s.events (identifyEffect X effect))) := by
  refine ⟨_, by rw [activeEffectRequiresRecovery, progress_eq h]; rfl, ?_⟩
  rw [List.any_eq_true]
  apply exists_congr
  intro effect
  apply and_congr_right
  intro heffect
  obtain ⟨i, hi, rfl⟩ := List.mem_iff_getElem.mp heffect
  have hordinal : s.effects[i].ordinal = i := by
    have hget : (s.effects.map JournalEffect.ordinal)[i]? = (List.range s.effects.length)[i]? := by
      rw [h.ordinals]
    simpa [hi] using hget
  rw [Bool.and_eq_true, beq_iff_eq, hordinal]
  apply and_congr_right
  intro _
  rw [← leftUnresolved_iff (h.courses _ heffect)]
  simp [hi]

end Progress

/-! ## Records of live histories -/

section Recorded

variable {X : Externals} {r : JournalRecord} {effect : JournalEffect}

/-- The course of a recorded effect is what the live record has for it. -/
theorem amount_coursed_recorded (hdistinct : (r.effects.map (identifyEffect X)).Nodup)
    (hcited : ∀ event ∈ r.events, event.effect ∈ r.effects) (heffect : effect ∈ r.effects) :
    amount (coursed (r.recorded X).events (identifyEffect X effect)) =
      eventsProgress r.events effect := by
  have hfold : ∀ (events : List JournalEvent) (p : EffectProgress),
      (∀ event ∈ events, event.effect ∈ r.effects) →
      (coursed (events.map (JournalEvent.recorded X)) (identifyEffect X effect)).foldl
          EffectProgress.record p =
        events.foldl (fun p event =>
          if event.effect = effect then p.record event.kind else p) p := by
    intro events
    induction events with
    | nil => intro p _; rfl
    | cons event events ih =>
      intro p hcited
      obtain ⟨hevent, hcited⟩ := List.forall_mem_cons.mp hcited
      have hsame : identifyEffect X event.effect = identifyEffect X effect ↔
          event.effect = effect :=
        ⟨List.inj_on_of_nodup_map hdistinct hevent heffect, congrArg _⟩
      rw [List.map_cons, coursed_cons, List.foldl_cons, ← ih _ hcited]
      by_cases hcites : event.effect = effect
      · simp [JournalEvent.recorded, hcites]
      · simp [JournalEvent.recorded, hcites, hsame]
  exact hfold r.events .untouched hcited

/-- Read back from its bytes, a record says what the live record does. -/
theorem disposition_recorded (h : (r.recorded X).WellFormed X)
    (hcited : ∀ event ∈ r.events, event.effect ∈ r.effects) :
    (r.recorded X).disposition X = .ok (PkgApply.assessRestart r) := by
  have hrequires : (r.recorded X).activeEffectRequiresRecovery X =
      .ok (PkgApply.activeEffectRequiresRecovery r) := by
    obtain ⟨required, hrequired, hiff⟩ := activeEffectRequiresRecovery_eq h
    rw [hrequired]
    apply congrArg Except.ok
    rw [Bool.eq_iff_iff, hiff, PkgApply.activeEffectRequiresRecovery, List.any_eq_true]
    apply exists_congr
    intro effect
    apply and_congr_right
    intro heffect
    rw [Bool.and_eq_true, beq_iff_eq, ← leftUnresolved_iff (h.courses effect heffect),
      amount_coursed_recorded h.distinct hcited heffect]
    rfl
  unfold disposition PkgApply.assessRestart
  have hreceipt : (r.recorded X).receipt.isSome = r.receipt.isSome := by
    simp [JournalRecord.recorded]
  rw [hreceipt, show (r.recorded X).state = r.state from rfl, hrequires]
  split
  · split <;> rfl
  · cases r.state <;> rfl

end Recorded

end Transport.Snapshot

/-! ## Journals read back -/

open Transport.Snapshot Transport.JournalCodec

/-- Every event of an accepted history cites a declared effect. -/
theorem JournalHistory.Appended.cited {h : JournalHistory} (happended : JournalHistory.Appended h) :
    ∀ event ∈ h.events, event.effect ∈ h.effects := by
  induction happended with
  | initial d => simp [JournalHistory.initial]
  | append _ happend ih =>
    obtain ⟨hadmits, rfl⟩ := JournalHistory.append_eq_ok_iff.mp happend
    intro event hevent
    rw [JournalHistory.after_events, List.mem_append, Option.mem_toList] at hevent
    rcases hevent with hold | hnew
    · exact ih event hold
    · exact (hadmits.event event hnew).declared

/-- What constructors outside the journal promise of the parts of a record. -/
structure Storable (X : Externals) (s : Snapshot) : Prop where
  header : s.header.make = .ok s.header
  paths : ∀ projected ∈ s.header.stateProjection.paths, X.IsPath projected.path
  effects : ∀ effect ∈ s.effects, ∀ path, effect.path = some path → X.IsPath path

/-- A stored record the constructor makes is constructed. -/
theorem Storable.constructed {X : Externals} {s : Snapshot} (h : Storable X s)
    (hcounts : WithinCounts s) (hwell : s.WellFormed X) : s.Constructed X where
  header := h.header
  paths := h.paths
  paths_size := hcounts.paths.trans_lt (by decide)
  owners_size := fun projected hprojected => (hcounts.owners projected hprojected).trans_lt (by decide)
  effects := by
    intro effect heffect
    refine ⟨?_, h.effects effect heffect⟩
    have hmem : effect.ordinal ∈ List.range s.effects.length := by
      rw [← hwell.ordinals]
      exact List.mem_map_of_mem heffect
    have hlimit : maximumEffectCount < 2 ^ 64 := by decide
    have hcount := hcounts.effects
    rw [List.mem_range] at hmem
    omega
  effects_size := hcounts.effects.trans_lt (by decide)
  events_size := hcounts.events.trans_lt (by decide)
  evidence_size := fun event hevent => (hcounts.evidence event hevent).trans_lt (by decide)
  made := by
    refine ⟨s.effects, make_eq_ok_iff.mpr ⟨?_, hwell⟩⟩
    have hsorted : s.effects.insertionSort (fun a b => a.ordinal ≤ b.ordinal) = s.effects := by
      have hordinals : (s.effects.map JournalEffect.ordinal).Pairwise (· ≤ ·) := by
        rw [hwell.ordinals]
        exact List.pairwise_lt_range.imp Nat.le_of_lt
      exact (List.pairwise_map.mp hordinals).insertionSort_eq
    rw [hsorted]

/-- **Journals read back.**  The record of any accepted history whose effects
have distinct identities is well formed, and where its lists keep within the
limits, the bytes it is written to are read back as that record, which tells of
how the application may go on what the live history does. -/
theorem JournalHistory.Appended.reread {X : Externals} {h : JournalHistory}
    (happended : JournalHistory.Appended h) (hstorable : Storable X (h.record.recorded X))
    (hdistinct : (h.effects.map (identifyEffect X)).Nodup)
    (hcounts : WithinCounts (h.record.recorded X)) {data : List Byte}
    (hdata : encodeApplicationJournal X (h.record.recorded X) = .ok data) :
    h.snapshot = .ok h.record ∧ (h.record.recorded X).WellFormed X ∧
      decodeApplicationJournal X data = .ok (h.record.recorded X) ∧
      (h.record.recorded X).disposition X = .ok (PkgApply.assessRestart h.record) := by
  have hsnapshot := happended.sound.snapshot_eq
  have hsize : h.events.length ≤ 2 ^ 64 := by
    have hevents : (h.events.map (JournalEvent.recorded X)).length ≤ maximumEventCount :=
      hcounts.events
    have hlimit : maximumEventCount < 2 ^ 64 := by decide
    rw [List.length_map] at hevents
    omega
  have hinjective : Set.InjOn (identifyEffect X) {a | a ∈ h.effects} := by
    intro a ha b hb
    exact List.inj_on_of_nodup_map hdistinct ha hb
  have hwell := (make_eq_ok_iff.mp (JournalRecord.make_recorded hinjective hsize hsnapshot)).2
  have hconstructed := hstorable.constructed hcounts hwell
  refine ⟨hsnapshot, hwell, ?_, ?_⟩
  · exact (encodes_journal.decode_iff decodes_journal
      (validBelow_snapshot (fits_of_constructed hconstructed)) hdata).mpr
        ((denotes_spellSnapshot hconstructed).mpr hcounts)
  · exact disposition_recorded hwell happended.cited

/-! ## The journal of an interrupted removal -/

section Interrupted

open AdmittedApplication

variable {X : Externals} {A : AdmittedApplication} {h : JournalHistory}

/-- The records of an application's journal are as storable as its declaration. -/
theorem AdmittedApplication.Declares.storable (hd : A.Declares h)
    (hheader : A.header.make = .ok A.header)
    (hpaths : ∀ projected ∈ A.header.stateProjection.paths, X.IsPath projected.path)
    (heffects : ∀ effect ∈ A.effects, ∀ path, effect.path = some path → X.IsPath path) :
    Storable X (h.record.recorded X) := by
  constructor
  · rw [← hd.header] at hheader
    exact hheader
  · rw [← hd.header] at hpaths
    exact hpaths
  · rw [← hd.effects] at heffects
    exact heffects

/-- The records of an application's journal keep within the limits when its
declaration and the recorded events do. -/
theorem AdmittedApplication.Declares.withinCounts (hd : A.Declares h)
    (heffects : A.effects.length ≤ maximumEffectCount)
    (hevents : h.events.length ≤ maximumEventCount)
    (hevidence : ∀ event ∈ h.events, event.evidence.card ≤ maximumEvidenceCount)
    (hpaths : A.header.stateProjection.paths.length ≤ maximumProjectionPathCount)
    (howners : ∀ projected ∈ A.header.stateProjection.paths,
      projected.owners.card ≤ maximumProjectionOwnerCount) :
    WithinCounts (h.record.recorded X) := by
  constructor
  · rw [← hd.effects] at heffects
    exact heffects
  · change (h.events.map _).length ≤ maximumEventCount
    rw [List.length_map]
    exact hevents
  · intro event hevent
    obtain ⟨e, he, rfl⟩ := List.mem_map.mp hevent
    exact hevidence e he
  · rw [← hd.header] at hpaths
    exact hpaths
  · rw [← hd.header] at howners
    exact howners

private def interruptedRemoval : AdmittedApplication :=
  .removal .exactPriorState .visibilityOnly

/-- The directory is captured, and its removal is begun. -/
private def interruptedState : EngineState :=
  (interruptedRemoval.apply.cuts
    (engineMachine (removalMechanisms .completed .completed .confirmed))
    interruptedRemoval.start).getD 19 interruptedRemoval.start

private theorem left_interrupted : interruptedRemoval.Left (fun _ => True) interruptedState := by
  have hcut : 19 < (interruptedRemoval.apply.cuts
      (engineMachine (removalMechanisms .completed .completed .confirmed))
      interruptedRemoval.start).length := by
    decide +kernel
  apply Left.applied (m := removalMechanisms .completed .completed .confirmed) trivial
  left
  unfold interruptedState
  rw [List.getD_eq_getElem?_getD, List.getElem?_eq_getElem hcut]
  exact List.getElem_mem hcut

private theorem interrupted :
    interruptedState.history.state = .mutating ∧
    (interruptedState.history.slot .publishActiveObject (some removalPath)).progress =
      ⟨true, none⟩ ∧
    assessRestart interruptedState.history.record = .resumeRecovery ∧
    interruptedState.history.events.length ≤ maximumEventCount ∧
    (∀ event ∈ interruptedState.history.events, event.evidence.card ≤ maximumEvidenceCount) := by
  decide +kernel

private theorem length_interrupted :
    (snapshotFormat.spell (spellSnapshot .reference
      (interruptedState.history.record.recorded .reference))).length ≤
        RecordCodec.journal.maximum := by
  decide +kernel

private theorem distinct_interrupted :
    (interruptedRemoval.effects.map (identifyEffect .reference)).Nodup := by
  have hidentities : interruptedRemoval.effects.map (identifyEffect .reference) =
      [⟨0xb5175ac299f48c27c7689c51f632d37b37efa7c822b6fa84e8b76cb195c7ee27⟩,
        ⟨0x7f35ea64651bfd469332650dcee54c49666d909b5aa22596867517469713c6e1⟩,
        ⟨0xce7fdac9ed1979f3c766539cee14ab6078c1579e1ed1d2e84226f86991556038⟩,
        ⟨0x8b934594de97202ee7ccf6009eb6314cf33a46d93c6294d09e55f5fd97002a6e⟩,
        ⟨0x749d1b1058357fb9fa442b7e6ca32ebc247af3ec9518b555b9d72f13177b0e0a⟩,
        ⟨0x556922c2ae339949ceac50ae9ceb2585021c9f046c600a16d3df33f6620890e7⟩,
        ⟨0x4e3f12d6ffedabd7cc69839103652b33fb60f589d6f887ac11663d5ce96a12b7⟩,
        ⟨0xf261b098406e09dc2c86ed1c21208d457343b4337e211ebc5f22f4059019438f⟩] := by
    decide +kernel
  rw [hidentities]
  decide

private theorem isPath_removal : Externals.reference.IsPath removalPath := ⟨⟨_, rfl⟩, by decide⟩

private theorem storable_interrupted (hd : interruptedRemoval.Declares h) :
    Storable .reference (h.record.recorded .reference) := by
  apply hd.storable
  · decide +kernel
  · intro projected hprojected
    obtain rfl := List.mem_singleton.mp hprojected
    exact isPath_removal
  · have hpaths : ∀ e ∈ interruptedRemoval.effects, ∀ path ∈ e.path, path = removalPath := by
      decide +kernel
    intro effect heffect path hpath
    obtain rfl := hpaths effect heffect path hpath
    exact isPath_removal

/-- The journal is read back with its unresolved effect, which recovery is to
resolve. -/
theorem reread_interrupted : ∃ h data, JournalHistory.Appended h ∧ h.state = .mutating ∧
    (h.slot .publishActiveObject (some removalPath)).progress = ⟨true, none⟩ ∧
    encodeApplicationJournal .reference (h.record.recorded .reference) = .ok data ∧
    decodeApplicationJournal .reference data = .ok (h.record.recorded .reference) ∧
    (h.record.recorded .reference).disposition .reference = .ok .resumeRecovery := by
  have hlogged := left_interrupted.logged
  have hlength := length_interrupted
  obtain ⟨hstate, hslot, hassessment, hevents, hevidence⟩ := interrupted
  generalize interruptedState = s at *
  have hdata := (encodes_journal _ _).mpr ⟨trivial, rfl, hlength⟩
  have hdistinct : (s.history.effects.map (identifyEffect .reference)).Nodup := by
    rw [hlogged.declares.effects]
    exact distinct_interrupted
  have hcounts : WithinCounts (s.history.record.recorded .reference) := by
    apply hlogged.declares.withinCounts _ hevents hevidence <;> decide +kernel
  obtain ⟨-, -, hdecoded, hdisposition⟩ :=
    hlogged.appended.reread (storable_interrupted hlogged.declares) hdistinct hcounts hdata
  rw [hassessment] at hdisposition
  exact ⟨_, _, hlogged.appended, hstate, hslot, hdata, hdecoded, hdisposition⟩

end Interrupted

end PkgApply
