import PkgApply.Journal.Record
import PkgApply.Transport.Digest

/-!
# Transport values

The declaration, the steps and the cursor of a journal as the byte level has
them: every reference to another record is the digest of that record, and a
replay payload is its bytes.  The record each identity is the digest of is a
definition of its own.
-/

namespace PkgApply.Transport

open Library

/-! ## Canonical enumerations -/

def canonicalKind : OperationKind → Byte
  | .install => 1
  | .upgrade => 2
  | .remove => 3

def canonicalCompleteness : StateProjectionCompleteness → Byte
  | .complete => 1
  | .incomplete => 2

def canonicalState : JournalState → Byte
  | .preparing => 1
  | .prepared => 2
  | .mutating => 3
  | .effectsVisible => 4
  | .resultObserved => 5
  | .applicationCompleted => 6
  | .externalResolutionPending => 7
  | .recovering => 8
  | .recovered => 9
  | .finalized => 10
  | .abandoned => 11
  | .indeterminate => 12
  | .recoveryPending => 13

def canonicalEffect : EffectKind → Byte
  | .captureOldObject => 1
  | .stageIncomingPayload => 2
  | .publishActiveObject => 3
  | .publishRejectedObject => 4
  | .observeResult => 5
  | .synchronizeActiveNamespace => 7
  | .synchronizeRejectedStore => 8
  | .sealReceipt => 9
  | .synchronizeIncomingStaging => 10
  | .synchronizeRecoveryStaging => 11
  | .synchronizeCompletedEvidence => 12
  | .recoverActiveObject => 13
  | .synchronizeRecoveredNamespace => 14
  | .publishCompletedEvidence => 15

def canonicalEvent : EventKind → Byte
  | .intent => 1
  | .completed => 2
  | .failed => 3
  | .indeterminate => 4

theorem canonicalState_injective : Function.Injective canonicalState := by
  intro a b
  cases a <;> cases b <;> decide

theorem canonicalEffect_injective : Function.Injective canonicalEffect := by
  intro a b
  cases a <;> cases b <;> decide

theorem canonicalEvent_injective : Function.Injective canonicalEvent := by
  intro a b
  cases a <;> cases b <;> decide

/-! ## Headers -/

/-- The schema version every record of this version carries. -/
def schemaVersion : Nat := 1

/-- The constructor sorts the owners and refuses a duplicate. -/
def makeProjectedPathOwners (path : PackagePath) (owners : List InstalledPackageIdentity) :
    Except Exn ProjectedPathOwners := do
  refuseIf (¬owners.Nodup) (.invalidArgument "duplicate installed owner in state projection")
  return ⟨path, owners.toFinset⟩

/-- The constructor sorts the paths and refuses a duplicate. -/
def makeStateProjection (lease : MutationLeaseInstanceIdentity)
    (snapshot : InstalledStateSnapshotIdentity) (ownershipInventory : OwnershipInventoryIdentity)
    (completeness : StateProjectionCompleteness) (paths : List ProjectedPathOwners)
    (evidence : StateProjectionEvidenceIdentity) : Except Exn LeaseBoundStateProjection :=
  let paths := paths.insertionSort fun a b => a.path ≤ b.path
  if h : (paths.map ProjectedPathOwners.path).Pairwise (· < ·) then
    .ok ⟨lease, snapshot, ownershipInventory, completeness, paths, evidence, h⟩
  else
    .error (.invalidArgument "duplicate path in state projection")

section Header

variable (X : Externals)

/-- The path and the owners of one projected path. -/
def appendProjectedPath (record : CanonicalRecord) (path : ProjectedPathOwners) :
    CanonicalRecord :=
  (ascending path.owners).foldl (fun record owner => record.appendBytes (X.planningText owner))
    ((record.appendBytes path.path.bytes).appendU64 path.owners.card)

def projectionRecord (projection : LeaseBoundStateProjection) : CanonicalRecord :=
  let record := (((((CanonicalRecord.start .leaseBoundStateProjection).appendU16
    schemaVersion).appendDigest projection.lease.digest).appendBytes
    (X.planningText projection.snapshot)).appendBytes
    (X.planningText projection.ownershipInventory)).appendU8
    (canonicalCompleteness projection.completeness)
  (projection.paths.foldl (appendProjectedPath X)
    (record.appendU64 projection.paths.length)).appendDigest projection.evidence.digest

def identifyProjection (projection : LeaseBoundStateProjection) :
    TypedDigest .leaseBoundStateProjection :=
  ⟨X.sha256 (projectionRecord X projection).bytes⟩

def attemptRecord (attempt : ApplicationAttempt) : CanonicalRecord :=
  let record := ((((CanonicalRecord.start .applicationAttempt).appendU16
    schemaVersion).appendDigest attempt.request.digest).appendDigest
    attempt.target.digest).appendDigest attempt.backend.digest
  ⟨record.bytes ++ digestBytes attempt.nonce⟩

def identifyAttempt (attempt : ApplicationAttempt) : TypedDigest .applicationAttempt :=
  ⟨X.sha256 (attemptRecord attempt).bytes⟩

def headerRecord (header : JournalHeader) : CanonicalRecord :=
  (((((((((CanonicalRecord.start .applicationJournal).appendU16
    schemaVersion).appendU8 (canonicalKind header.kind)).appendDigest
    header.request.digest).appendBytes (X.planningText header.plan)).appendDigest
    (identifyAttempt X header.attempt).digest).appendDigest header.target.digest).appendDigest
    header.control.digest).appendDigest
    (identifyProjection X header.stateProjection).digest).appendDigest header.lease.digest
    |>.appendDigest header.backend.digest

def identifyHeader (header : JournalHeader) : TypedDigest .applicationJournal :=
  ⟨X.sha256 (headerRecord X header).bytes⟩

end Header

/-! ## Effects and declarations -/

/-- A path a parse gave, of a size the source can hold. -/
structure Externals.IsPath (X : Externals) (path : PackagePath) : Prop where
  parsed : ∃ text, X.parsePath text = .ok path
  size : path.bytes.length < 2 ^ 64

/-- An effect the source can hold: its ordinal is a `uint64_t`. -/
structure EffectFits (X : Externals) (effect : JournalEffect) : Prop where
  ordinal : effect.ordinal < 2 ^ 64
  path : ∀ path, effect.path = some path → X.IsPath path

def effectRecord (effect : JournalEffect) : CanonicalRecord :=
  let record := (((CanonicalRecord.start .applicationJournalEffect).appendU16
    schemaVersion).appendU64 effect.ordinal).appendU8 (canonicalEffect effect.kind)
  match effect.path with
  | none => record.appendBool false
  | some path => (record.appendBool true).appendBytes path.bytes

def identifyEffect (X : Externals) (effect : JournalEffect) :
    TypedDigest .applicationJournalEffect :=
  ⟨X.sha256 (effectRecord effect).bytes⟩

/-- Ordinals count up, and no identity repeats the one before it. -/
def validateEffectGraphFrom (X : Externals) :
    Nat → Option (TypedDigest .applicationJournalEffect) → List JournalEffect → Except Exn Unit
  | _, _, [] => return ()
  | index, previous, effect :: rest => do
    refuseIf (effect.ordinal ≠ index)
      (.invalidArgument "application journal declaration effects are not consecutive")
    refuseIf (previous = some (identifyEffect X effect))
      (.invalidArgument "application journal declaration repeats an effect identity")
    validateEffectGraphFrom X (index + 1) (some (identifyEffect X effect)) rest

def validateEffectGraph (X : Externals) (effects : List JournalEffect) : Except Exn Unit :=
  validateEffectGraphFrom X 0 none effects

theorem validateEffectGraphFrom_eq_ok_iff {X : Externals} {index : Nat}
    {previous : Option (TypedDigest .applicationJournalEffect)} {effects : List JournalEffect} :
    validateEffectGraphFrom X index previous effects = .ok () ↔
      effects.map JournalEffect.ordinal = List.range' index effects.length ∧
        (previous.toList ++ effects.map (identifyEffect X)).IsChain (· ≠ ·) := by
  induction effects generalizing index previous with
  | nil => cases previous <;> simp [validateEffectGraphFrom, pure, Except.pure]
  | cons effect rest ih =>
    rw [validateEffectGraphFrom, refuseIf_bind_eq_ok, refuseIf_bind_eq_ok, ih]
    simp only [List.map_cons, List.length_cons, List.range'_succ, List.cons.injEq, not_not,
      Option.toList_some, List.singleton_append]
    cases previous with
    | none =>
      simp
      tauto
    | some identity =>
      simp
      tauto

/-- A graph is valid whose ordinals count up and whose identities are distinct. -/
theorem validateEffectGraph_of_nodup {X : Externals} {effects : List JournalEffect}
    (hordinals : effects.map JournalEffect.ordinal = List.range effects.length)
    (hidentities : (effects.map (identifyEffect X)).Nodup) :
    validateEffectGraph X effects = .ok () := by
  rw [validateEffectGraph, validateEffectGraphFrom_eq_ok_iff, ← List.range_eq_range']
  exact ⟨hordinals, List.Pairwise.isChain hidentities⟩

structure Declaration where
  header : JournalHeader
  effects : List JournalEffect
  replaySeed : List Byte
deriving DecidableEq

namespace Declaration

def make (X : Externals) (header : JournalHeader) (effects : List JournalEffect)
    (replaySeed : List Byte) : Except Exn Declaration := do
  validateEffectGraph X effects
  return ⟨header, effects, replaySeed⟩

/-- What the source can construct: the parts are constructed, containers have
a `size_t` size, and `make` accepted the effects. -/
structure Constructed (X : Externals) (declaration : Declaration) : Prop where
  header : declaration.header.make = .ok declaration.header
  paths : ∀ projected ∈ declaration.header.stateProjection.paths, X.IsPath projected.path
  effects : ∀ effect ∈ declaration.effects, EffectFits X effect
  effects_size : declaration.effects.length < 2 ^ 64
  seed_size : declaration.replaySeed.length < 2 ^ 64
  made : make X declaration.header declaration.effects declaration.replaySeed = .ok declaration

def record (X : Externals) (declaration : Declaration) : CanonicalRecord :=
  ((((((CanonicalRecord.start .applicationJournalDeclaration).appendU16
    schemaVersion).appendDigest (identifyHeader X declaration.header).digest).appendU64
    declaration.effects.length).appendDigests
    (declaration.effects.map fun effect => (identifyEffect X effect).digest)).appendU64
    declaration.replaySeed.length).appendBytes declaration.replaySeed

def identity (X : Externals) (declaration : Declaration) :
    TypedDigest .applicationJournalDeclaration :=
  ⟨X.sha256 (declaration.record X).bytes⟩

end Declaration

/-! ## Steps -/

structure Event where
  sequence : UInt64
  kind : EventKind
  effect : TypedDigest .applicationJournalEffect
  backendEvidence : Evidence
deriving DecidableEq

/-- The constructor sorts the evidence and refuses a duplicate. -/
def Event.make (sequence : UInt64) (kind : EventKind)
    (effect : TypedDigest .applicationJournalEffect)
    (backendEvidence : List BackendEvidenceIdentity) : Except Exn Event := do
  refuseIf (¬backendEvidence.Nodup) (.invalidArgument "duplicate journal backend evidence")
  return ⟨sequence, kind, effect, backendEvidence.toFinset⟩

/-- One append-only transition, bound to its predecessor's identity. -/
structure Step where
  declaration : TypedDigest .applicationJournalDeclaration
  sequence : UInt64
  predecessor : Option (TypedDigest .applicationJournalStep)
  state : JournalState
  event : Option Event
  replayFact : List Byte
  receipt : Option (TypedDigest .applicationReceipt)
  completedEvidence : Option (TypedDigest .completedApplicationEvidence)
  predecessor_iff : sequence = 0 ↔ predecessor = none
  evidence_receipt : completedEvidence.isSome → receipt.isSome
deriving DecidableEq

namespace Step

def make (declaration : TypedDigest .applicationJournalDeclaration) (sequence : UInt64)
    (predecessor : Option (TypedDigest .applicationJournalStep)) (state : JournalState)
    (event : Option Event) (replayFact : List Byte)
    (receipt : Option (TypedDigest .applicationReceipt))
    (completedEvidence : Option (TypedDigest .completedApplicationEvidence)) : Except Exn Step :=
  if h : sequence = 0 ↔ predecessor = none then
    if h' : completedEvidence.isSome → receipt.isSome then
      .ok ⟨declaration, sequence, predecessor, state, event, replayFact, receipt,
        completedEvidence, h, h'⟩
    else
      .error (.invalidArgument
        "application journal step completed evidence lacks receipt authority")
  else
    .error (.invalidArgument "application journal step predecessor contradicts its sequence")

/-- A step the source can hold: its containers have a `size_t` size. -/
structure Fits (step : Step) : Prop where
  evidence : ∀ event, step.event = some event → event.backendEvidence.card < 2 ^ 64
  replayFact : step.replayFact.length < 2 ^ 64

def appendEvent (record : CanonicalRecord) (event : Event) : CanonicalRecord :=
  ((((record.appendU64 event.sequence.toNat).appendU8 (canonicalEvent event.kind)).appendDigest
    event.effect.digest).appendU64 event.backendEvidence.card).appendDigests
    ((ascending event.backendEvidence).map Identity.digest)

def appendOptionalEvent (record : CanonicalRecord) : Option Event → CanonicalRecord
  | none => record.appendBool false
  | some event => appendEvent (record.appendBool true) event

def record (step : Step) : CanonicalRecord :=
  let head := ((((CanonicalRecord.start .applicationJournalStep).appendU16
    schemaVersion).appendDigest step.declaration.digest).appendU64
    step.sequence.toNat).appendOptionalDigest (step.predecessor.map TypedDigest.digest)
  ((((appendOptionalEvent (head.appendU8 (canonicalState step.state)) step.event).appendU64
    step.replayFact.length).appendBytes step.replayFact).appendOptionalDigest
    (step.receipt.map TypedDigest.digest)).appendOptionalDigest
    (step.completedEvidence.map TypedDigest.digest)

def identity (X : Externals) (step : Step) : TypedDigest .applicationJournalStep :=
  ⟨X.sha256 step.record.bytes⟩

end Step

/-! ## Cursors -/

/-- Locator of the latest admitted step. -/
structure Cursor where
  declaration : TypedDigest .applicationJournalDeclaration
  stepCount : UInt64
  latestStep : Option (TypedDigest .applicationJournalStep)
  state : JournalState
  receipt : Option (TypedDigest .applicationReceipt)
  completedEvidence : Option (TypedDigest .completedApplicationEvidence)
deriving DecidableEq

namespace Cursor

def initial (X : Externals) (declaration : Declaration) (state : JournalState) :
    Except Exn Cursor := do
  refuseIf (state ≠ .preparing)
    (.invalidArgument "initial application journal cursor must begin in preparing state")
  return ⟨declaration.identity X, 0, none, state, none, none⟩

/-- Advance by the exact next step; the count wraps as a `uint64_t` does. -/
def advance (X : Externals) (current : Cursor) (step : Step) : Except Exn Cursor := do
  refuseIf (step.declaration ≠ current.declaration)
    (.invalidArgument "application journal step belongs to another declaration")
  refuseIf (step.sequence ≠ current.stepCount)
    (.invalidArgument "application journal step is not the exact cursor successor")
  refuseIf (step.predecessor ≠ current.latestStep)
    (.invalidArgument "application journal step predecessor differs from the cursor head")
  refuseIf (!stateMayFollow current.state step.state)
    (.invalidArgument "application journal step has an invalid state transition")
  refuseIf (current.receipt.isSome ∧ step.receipt ≠ current.receipt)
    (.invalidArgument "application journal step changes retained receipt authority")
  refuseIf (current.completedEvidence.isSome ∧ step.completedEvidence ≠ current.completedEvidence)
    (.invalidArgument "application journal step changes retained completed evidence")
  return ⟨current.declaration, current.stepCount + 1, some (step.identity X), step.state,
    step.receipt, step.completedEvidence⟩

theorem initial_eq_ok_iff {X : Externals} {declaration : Declaration} {cursor : Cursor} :
    initial X declaration .preparing = .ok cursor ↔
      cursor = ⟨declaration.identity X, 0, none, .preparing, none, none⟩ := by
  simp [initial, refuseIf_bind_eq_ok, pure, Except.pure, eq_comm (b := cursor)]

/-- `advance` accepts exactly the chained successor on an allowed edge that keeps
retained authority. -/
theorem advance_eq_ok_iff {X : Externals} {c c' : Cursor} {step : Step} :
    c.advance X step = .ok c' ↔
      (step.declaration = c.declaration ∧ step.sequence = c.stepCount ∧
        step.predecessor = c.latestStep ∧ stateMayFollow c.state step.state = true ∧
        (c.receipt.isSome → step.receipt = c.receipt) ∧
        (c.completedEvidence.isSome → step.completedEvidence = c.completedEvidence)) ∧
      c' = ⟨c.declaration, c.stepCount + 1, some (step.identity X), step.state, step.receipt,
          step.completedEvidence⟩ := by
  unfold Cursor.advance
  simp only [refuseIf_bind_eq_ok, pure, Except.pure, Except.ok.injEq, not_not, ne_eq, not_and,
    Bool.not_eq_true', Bool.not_eq_false, and_assoc, eq_comm (b := c')]

def record (cursor : Cursor) : CanonicalRecord :=
  (((((((CanonicalRecord.start .applicationJournalCursor).appendU16
    schemaVersion).appendDigest cursor.declaration.digest).appendU64
    cursor.stepCount.toNat).appendOptionalDigest
    (cursor.latestStep.map TypedDigest.digest)).appendU8
    (canonicalState cursor.state)).appendOptionalDigest
    (cursor.receipt.map TypedDigest.digest)).appendOptionalDigest
    (cursor.completedEvidence.map TypedDigest.digest)

def identity (X : Externals) (cursor : Cursor) : TypedDigest .applicationJournalCursor :=
  ⟨X.sha256 cursor.record.bytes⟩

end Cursor

/-! ## Histories -/

/-- A cursor the initial one reaches by advancing over steps in order. -/
inductive Reaches (X : Externals) (declaration : Declaration) : List Step → Cursor → Prop
  | initial {cursor : Cursor} (h : Cursor.initial X declaration .preparing = .ok cursor) :
      Reaches X declaration [] cursor
  | advance {steps : List Step} {current next : Cursor} {step : Step}
      (hsteps : Reaches X declaration steps current) (h : current.advance X step = .ok next) :
      Reaches X declaration (steps ++ [step]) next

/-- An in-memory history.  The source builds one from the initial cursor and
extends it only by a step its cursor advances over; it refuses more besides. -/
structure History (X : Externals) where
  declaration : Declaration
  steps : List Step
  cursor : Cursor
  constructed : declaration.Constructed X
  fits : ∀ step ∈ steps, step.Fits
  reaches : Reaches X declaration steps cursor

section Preimages

variable (X : Externals)

/-- The records the identities of a declaration are digests of. -/
def Declaration.preimages (declaration : Declaration) : List (List Byte) :=
  (declaration.record X).bytes :: declaration.effects.map fun effect => (effectRecord effect).bytes

/-- The records the identities of a history are digests of. -/
def History.preimages (h : History X) : List (List Byte) :=
  h.declaration.preimages X ++ h.steps.map (fun step => step.record.bytes) ++
    [h.cursor.record.bytes]

end Preimages

/-! ## A journal of one published object -/

/-- The digest whose bytes count up from `first`. -/
def countingDigest (first : Nat) : BitVec 256 :=
  BitVec.ofNat 256 (ofBigEndian ((List.range 32).map fun i => Fin.ofNat 256 (first + i)))

def toolPath : PackagePath := ⟨ascii "usr/bin/tool"⟩

def toolHeader : JournalHeader where
  kind := .install
  request := ⟨countingDigest 1⟩
  plan := ⟨countingDigest 5⟩
  attempt := ⟨⟨countingDigest 1⟩, ⟨countingDigest 2⟩, ⟨countingDigest 3⟩, countingDigest 31⟩
  target := ⟨countingDigest 2⟩
  control := ⟨countingDigest 6⟩
  stateProjection :=
    { lease := ⟨countingDigest 4⟩
      snapshot := ⟨countingDigest 7⟩
      ownershipInventory := ⟨countingDigest 8⟩
      completeness := .complete
      paths := [⟨toolPath, {⟨countingDigest 10⟩}⟩]
      evidence := ⟨countingDigest 9⟩
      sorted := List.pairwise_singleton _ _ }
  lease := ⟨countingDigest 4⟩
  backend := ⟨countingDigest 3⟩

def toolDeclaration : Declaration where
  header := toolHeader
  effects := [⟨0, .publishActiveObject, some toolPath, rfl⟩, ⟨1, .observeResult, some toolPath, rfl⟩]
  replaySeed := [0x00, 0x7f, 0x80, 0xff]

theorem identifyProjection_tool :
    identifyProjection .reference toolDeclaration.header.stateProjection =
      ⟨0xa517ccb6ebdb5a1c813cd47617903f452bf3a640f015a6c714a475806b9b45db⟩ := by
  decide +kernel

theorem identifyHeader_tool : identifyHeader .reference toolDeclaration.header =
    ⟨0xce1a1e470d6db597c1d6ccfda01f4fca2aaed60510f4ad03ba07f7af89fb9c90⟩ := by
  rw [identifyHeader, headerRecord, identifyProjection_tool]
  decide +kernel

theorem identifyEffect_tool : toolDeclaration.effects.map (identifyEffect .reference) =
    [⟨0x1e1a549c38805eff0cac6b13aae44814560780bff354342f7d0fd48ea038e228⟩,
      ⟨0x8f3b998b3486ddd560ad67e450529bf0864299ad0dabfeeb179c4fc113e39e85⟩] := by
  decide +kernel

/-- The identity of `toolDeclaration`. -/
def toolIdentity : TypedDigest .applicationJournalDeclaration :=
  ⟨0xefe21d0a095a697614da29e1a550b656851b8721cc4d28fe8a03d80b0b0c5240⟩

theorem identity_toolDeclaration : toolDeclaration.identity .reference = toolIdentity := by
  have heffects : toolDeclaration.effects.map
      (fun effect => (identifyEffect .reference effect).digest) = _ :=
    (List.map_map ..).symm.trans (congrArg (List.map TypedDigest.digest) identifyEffect_tool)
  rw [Declaration.identity, Declaration.record, heffects, identifyHeader_tool]
  decide +kernel

theorem constructed_toolDeclaration : toolDeclaration.Constructed .reference where
  header := by decide +kernel
  paths := by
    intro projected hprojected
    obtain rfl := List.mem_singleton.mp hprojected
    exact ⟨⟨_, rfl⟩, by decide +kernel⟩
  effects := by
    intro effect heffect
    have hpath : ∀ path, effect.path = some path → Externals.reference.IsPath path := by
      intro path hpath
      have hfixed : ∀ e ∈ toolDeclaration.effects, e.path = some toolPath := by decide +kernel
      obtain rfl := Option.some.inj ((hfixed effect heffect).symm.trans hpath)
      exact ⟨⟨_, rfl⟩, by decide +kernel⟩
    have hordinal : ∀ e ∈ toolDeclaration.effects, e.ordinal < 2 ^ 64 := by decide +kernel
    exact ⟨hordinal effect heffect, hpath⟩
  effects_size := by decide
  seed_size := by decide
  made := by
    have hvalid : validateEffectGraph .reference toolDeclaration.effects = .ok () := by
      apply validateEffectGraph_of_nodup
      · decide
      · rw [identifyEffect_tool]
        decide
    rw [Declaration.make, hvalid]
    rfl

/-- Preparation completed. -/
def toolPrepared : Step where
  declaration := toolIdentity
  sequence := 0
  predecessor := none
  state := .prepared
  event := none
  replayFact := []
  receipt := none
  completedEvidence := none
  predecessor_iff := by decide
  evidence_receipt := by decide

theorem identity_toolPrepared : toolPrepared.identity .reference =
    ⟨0x8d4c97994f1ce62afc3d378236049b39b8276a79a5b74eb8d732bca5d7fd5bd2⟩ := by
  decide +kernel

/-- The cursor once preparation completed. -/
def toolCursor : Cursor :=
  ⟨toolIdentity, 1, some ⟨0x8d4c97994f1ce62afc3d378236049b39b8276a79a5b74eb8d732bca5d7fd5bd2⟩,
    .prepared, none, none⟩

theorem identity_toolCursor : toolCursor.identity .reference =
    ⟨0xf8061166eff4b080277944199767aa0f084b486c82a03aec94bfaee3e67655d5⟩ := by
  decide +kernel

theorem reaches_toolCursor : Reaches .reference toolDeclaration [toolPrepared] toolCursor := by
  have hinitial : Cursor.initial .reference toolDeclaration .preparing =
      .ok ⟨toolIdentity, 0, none, .preparing, none, none⟩ := by
    rw [Cursor.initial_eq_ok_iff, identity_toolDeclaration]
  have hadvance : Cursor.advance .reference ⟨toolIdentity, 0, none, .preparing, none, none⟩
      toolPrepared = .ok toolCursor := by
    rw [Cursor.advance_eq_ok_iff, identity_toolPrepared]
    exact ⟨by decide, rfl⟩
  exact .advance (.initial hinitial) hadvance

namespace TransportCodec

theorem unevidenced : (none : Option (TypedDigest .completedApplicationEvidence)).isSome →
    (none : Option (TypedDigest .applicationReceipt)).isSome := id

/-- The intent of the first effect, with this backend evidence. -/
def toolIntent (evidence : Evidence) : Step where
  declaration := toolIdentity
  sequence := 1
  predecessor := some ⟨0x8d4c97994f1ce62afc3d378236049b39b8276a79a5b74eb8d732bca5d7fd5bd2⟩
  state := .mutating
  event := some ⟨0, .intent,
    ⟨0x1e1a549c38805eff0cac6b13aae44814560780bff354342f7d0fd48ea038e228⟩, evidence⟩
  replayFact := []
  receipt := none
  completedEvidence := none
  predecessor_iff := by decide
  evidence_receipt := unevidenced

end TransportCodec

end PkgApply.Transport
