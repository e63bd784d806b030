import PkgApply.Transport.Value

/-!
# Whole-record snapshots

A journal record as the byte level has it: events cite their effect by its
identity, and receipt and evidence are identities.  The constructor sorts the
effects and validates the whole history.
-/

namespace PkgApply.Transport

open Library

structure Snapshot where
  header : JournalHeader
  state : JournalState
  effects : List JournalEffect
  events : List Event
  receipt : Option (TypedDigest .applicationReceipt)
  completedEvidence : Option (TypedDigest .completedApplicationEvidence)
deriving DecidableEq

namespace Snapshot

/-! ## Validation -/

/-- Events replayed against a progress table, from event `index` on; an effect
is found by its identity. -/
def validateEventsFrom (identities : List (TypedDigest .applicationJournalEffect)) :
    List Event → Nat → List EffectProgress → Except Exn (List EffectProgress)
  | [], _, progress => .ok progress
  | event :: rest, index, progress =>
    if event.sequence.toNat ≠ index then
      .error (.invalidArgument "journal event sequence is not consecutive")
    else
      match identities.idxOf? event.effect with
      | none => .error (.invalidArgument "journal event cites an unknown effect")
      | some ordinal =>
        let state := progress.getD ordinal .untouched
        if event.kind = .intent then
          if state.intended ∨ state.terminal.isSome then
            .error (.invalidArgument "duplicate or late journal effect intent")
          else
            validateEventsFrom identities rest (index + 1)
              (progress.set ordinal { state with intended := true })
        else if !state.intended then
          .error (.invalidArgument "journal terminal event precedes intent")
        else if state.terminal.isSome then
          .error (.invalidArgument "journal effect has multiple terminal events")
        else
          validateEventsFrom identities rest (index + 1)
            (progress.set ordinal { state with terminal := some event.kind })

def validateEvents (X : Externals) (effects : List JournalEffect) (events : List Event) :
    Except Exn (List EffectProgress) := do
  let identities := effects.map (identifyEffect X)
  refuseIf (¬identities.Nodup) (.invalidArgument "journal effect identity is duplicated")
  validateEventsFrom identities events 0 (List.replicate effects.length .untouched)

def validateResolution (snapshot : Snapshot) (progress : List EffectProgress) :
    Except Exn Unit := do
  refuseIf (snapshot.completedEvidence.isSome ∧ snapshot.receipt.isNone)
    (.invalidArgument "journal completed evidence lacks its application receipt")
  refuseIf (successfulState snapshot.state ∧
      (snapshot.receipt.isNone ∨ snapshot.completedEvidence.isNone))
    (.invalidArgument "completed journal state lacks receipt or completed evidence")
  refuseIf (successfulState snapshot.state ∧ !successEffectsCompleted snapshot.effects progress)
    (.invalidArgument "completed journal state has unfinished effects")
  refuseIf (!successfulState snapshot.state ∧ snapshot.completedEvidence.isSome)
    (.invalidArgument "non-completed journal state contains completed evidence")
  refuseIf (snapshot.state = .recovered ∧ snapshot.receipt.isNone)
    (.invalidArgument "recovered journal state lacks failure receipt")
  refuseIf (snapshot.state = .abandoned ∧ snapshot.completedEvidence.isSome)
    (.invalidArgument "abandoned journal contains completed evidence")

def make (X : Externals) (header : JournalHeader) (state : JournalState)
    (effects : List JournalEffect) (events : List Event)
    (receipt : Option (TypedDigest .applicationReceipt))
    (completedEvidence : Option (TypedDigest .completedApplicationEvidence)) :
    Except Exn Snapshot := do
  let effects := effects.insertionSort fun a b => a.ordinal ≤ b.ordinal
  refuseIf (effects.map JournalEffect.ordinal ≠ List.range effects.length)
    (.invalidArgument "journal effect ordinals are not consecutive")
  let progress ← validateEvents X effects events
  let snapshot : Snapshot := ⟨header, state, effects, events, receipt, completedEvidence⟩
  snapshot.validateResolution progress
  return snapshot

/-! ## Identity -/

def appendEvent (record : CanonicalRecord) (event : Event) : CanonicalRecord :=
  ((((record.appendU64 event.sequence.toNat).appendU8 (canonicalEvent event.kind)).appendDigest
    event.effect.digest).appendU64 event.backendEvidence.card).appendDigests
    ((ascending event.backendEvidence).map Identity.digest)

def record (X : Externals) (snapshot : Snapshot) : CanonicalRecord :=
  let record := (((((CanonicalRecord.start .applicationJournalRecord).appendU16
    schemaVersion).appendDigest (identifyHeader X snapshot.header).digest).appendU8
    (canonicalState snapshot.state)).appendU64 snapshot.effects.length).appendDigests
    (snapshot.effects.map fun effect => (identifyEffect X effect).digest)
  ((snapshot.events.foldl appendEvent (record.appendU64
    snapshot.events.length)).appendOptionalDigest
    (snapshot.receipt.map TypedDigest.digest)).appendOptionalDigest
    (snapshot.completedEvidence.map TypedDigest.digest)

def identity (X : Externals) (snapshot : Snapshot) : TypedDigest .applicationJournalRecord :=
  ⟨X.sha256 (snapshot.record X).bytes⟩

/-! ## What the source can construct -/

/-- The parts are constructed, containers have a `size_t` size, and `make`
accepted them. -/
structure Constructed (X : Externals) (snapshot : Snapshot) : Prop where
  header : snapshot.header.make = .ok snapshot.header
  paths : ∀ projected ∈ snapshot.header.stateProjection.paths, X.IsPath projected.path
  paths_size : snapshot.header.stateProjection.paths.length < 2 ^ 64
  owners_size : ∀ projected ∈ snapshot.header.stateProjection.paths,
    projected.owners.card < 2 ^ 64
  effects : ∀ effect ∈ snapshot.effects, EffectFits X effect
  effects_size : snapshot.effects.length < 2 ^ 64
  events_size : snapshot.events.length < 2 ^ 64
  evidence_size : ∀ event ∈ snapshot.events, event.backendEvidence.card < 2 ^ 64
  made : ∃ effects, make X snapshot.header snapshot.state effects snapshot.events
    snapshot.receipt snapshot.completedEvidence = .ok snapshot

section Make

variable {X : Externals} {header : JournalHeader} {state : JournalState}
  {effects : List JournalEffect} {events : List Event}
  {receipt : Option (TypedDigest .applicationReceipt)}
  {completedEvidence : Option (TypedDigest .completedApplicationEvidence)} {snapshot : Snapshot}

/-- A made snapshot has the fields it was made from, the effects in the order of
their consecutive ordinals. -/
theorem make_eq_ok (h : make X header state effects events receipt completedEvidence =
      .ok snapshot) :
    snapshot = ⟨header, state, effects.insertionSort fun a b => a.ordinal ≤ b.ordinal, events,
      receipt, completedEvidence⟩ ∧
    snapshot.effects.map JournalEffect.ordinal = List.range snapshot.effects.length := by
  simp only [make, bind_eq_ok_iff, refuseIf_eq_ok, not_not, pure, Except.pure,
    Except.ok.injEq] at h
  obtain ⟨_, hordinals, progress, -, _, -, rfl⟩ := h
  exact ⟨rfl, hordinals⟩

/-- Making a snapshot again from its own fields gives it back. -/
theorem make_again (h : make X header state effects events receipt completedEvidence =
      .ok snapshot) :
    make X snapshot.header snapshot.state snapshot.effects snapshot.events snapshot.receipt
      snapshot.completedEvidence = .ok snapshot := by
  obtain ⟨hsnapshot, -⟩ := make_eq_ok h
  have hsorted : (effects.insertionSort fun a b => a.ordinal ≤ b.ordinal).insertionSort
      (fun a b => a.ordinal ≤ b.ordinal) =
      effects.insertionSort fun a b => a.ordinal ≤ b.ordinal :=
    (List.pairwise_insertionSort _ _).insertionSort_eq
  rw [hsnapshot] at h ⊢
  rw [← h]
  simp only [make, hsorted]

end Make

end Snapshot

end PkgApply.Transport
