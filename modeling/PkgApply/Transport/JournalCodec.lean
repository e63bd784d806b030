import PkgApply.Transport.Records
import PkgApply.Transport.Snapshot

/-!
# Journal record codec

The byte form of a whole journal record.  The encoder writes every list whatever
its length; the decoder refuses a list beyond its count limit, rebuilds the
record through the constructors and compares the identity it carries.
-/

namespace PkgApply.Transport

open Library

namespace JournalCodec

open RecordCodec

def journalMagic : List Byte := ascii "ZLAPJNL" ++ [0]

/-- The other count limits of the record codec are those of the transport codec. -/
def maximumEventCount : Nat := 4000000

def refusal (code : RefusalCode) (message : String) : Failure :=
  RecordCodec.journal.refusal code message

/-! ## Encoder -/

section Encoder

variable (X : Externals)

def appendProjectedPathOwners (projected : ProjectedPathOwners) : Writing := do
  journal.appendPath projected.path
  appendList (journal.appendPlanning X) (ascending projected.owners)

def appendStateProjection (projection : LeaseBoundStateProjection) : Writing := do
  journal.appendTyped (identifyProjection X projection)
  Stream.appendU16 schemaVersion
  journal.appendIdentity projection.lease
  journal.appendPlanning X projection.snapshot
  journal.appendPlanning X projection.ownershipInventory
  Stream.appendU8 (canonicalCompleteness projection.completeness)
  appendList (appendProjectedPathOwners X) projection.paths
  journal.appendIdentity projection.evidence

def appendHeader (header : JournalHeader) : Writing := do
  Stream.appendU16 schemaVersion
  Stream.appendU8 (canonicalKind header.kind)
  journal.appendIdentity header.request
  journal.appendPlanning X header.plan
  Stream.appendU16 schemaVersion
  journal.stream.appendBytes (digestBytes header.attempt.nonce)
  journal.appendIdentity header.target
  journal.appendIdentity header.control
  appendStateProjection X header.stateProjection
  journal.appendIdentity header.lease
  journal.appendIdentity header.backend

def appendEffect (effect : JournalEffect) : Writing := do
  Stream.appendU64 effect.ordinal
  Stream.appendU8 (canonicalEffect effect.kind)
  appendOptional journal.appendPath effect.path

def appendEvent (event : Event) : Writing := do
  Stream.appendU64 event.sequence.toNat
  Stream.appendU8 (canonicalEvent event.kind)
  journal.appendTyped event.effect
  appendList journal.appendIdentity (ascending event.backendEvidence)

def appendRecord (snapshot : Snapshot) : Writing := do
  journal.stream.appendBytes journalMagic
  Stream.appendU16 encodingVersion
  journal.appendTyped (snapshot.identity X)
  Stream.appendU16 schemaVersion
  appendHeader X snapshot.header
  Stream.appendU8 (canonicalState snapshot.state)
  appendList appendEffect snapshot.effects
  appendList appendEvent snapshot.events
  appendOptional journal.appendTyped snapshot.receipt
  appendOptional journal.appendTyped snapshot.completedEvidence

def encodeApplicationJournal (snapshot : Snapshot) : Except Failure (List Byte) :=
  journal.stream.finish (appendRecord X snapshot)

end Encoder

/-! ## Decoder -/

section Decoder

variable (X : Externals)

def readProjectedPathOwners : Reading ProjectedPathOwners := do
  let path ← journal.readPath X
  let owners ← journal.readList maximumProjectionOwnerCount
    "application journal state-projection owner universe"
    (journal.readPlanning X .installedPackage)
  build (makeProjectedPathOwners path owners)

def readStateProjection : Reading LeaseBoundStateProjection := do
  let expected ← journal.readTyped .leaseBoundStateProjection
  journal.stream.expectU16 schemaVersion
    (refusal .unsupportedVersion "application journal state-projection schema is unsupported")
  let lease ← journal.readIdentity .leaseInstance
  let snapshot ← journal.readPlanning X .installedSnapshot
  let ownership ← journal.readPlanning X .ownershipInventory
  let completeness ← journal.stream.readCode completenesses (refusal .invalidValue
    "application journal encoding contains invalid state-projection completeness")
  let paths ← journal.readList maximumProjectionPathCount
    "application journal state-projection path universe" (readProjectedPathOwners X)
  let evidence ← journal.readIdentity .projectionEvidence
  let projection ← build
    (makeStateProjection lease snapshot ownership completeness paths evidence)
  refuseWhen (identifyProjection X projection ≠ expected) (refusal .identityMismatch
    "application journal state-projection body does not reproduce its identity")
  return projection

def readNonce : Reading AttemptNonce := do
  return BitVec.ofNat 256 (ofBigEndian (← decodeEach journal.stream.readU8 32))

def readHeader : Reading JournalHeader := do
  journal.stream.expectU16 schemaVersion
    (refusal .unsupportedVersion "application journal header schema is unsupported")
  let kind ← journal.stream.readCode operationKinds
    (refusal .invalidValue "application journal encoding contains an invalid operation kind")
  let request ← journal.readIdentity .applicationRequest
  let plan ← journal.readPlanning X .operationPlan
  journal.stream.expectU16 schemaVersion
    (refusal .unsupportedVersion "application attempt schema is unsupported")
  let nonce ← readNonce
  let target ← journal.readIdentity .targetContext
  let control ← journal.readIdentity .executionControl
  let projection ← readStateProjection X
  let lease ← journal.readIdentity .leaseInstance
  let backend ← journal.readIdentity .mutationBackend
  build (JournalHeader.make ⟨kind, request, plan, ⟨request, target, backend, nonce⟩, target,
    control, projection, lease, backend⟩)

def readEffect : Reading JournalEffect := do
  let ordinal ← journal.stream.readU64
  let kind ← journal.stream.readCode effectKinds
    (refusal .invalidValue "application journal encoding contains an invalid effect kind")
  let path ← journal.readOptional (journal.readPath X)
  build (makeEffect ordinal kind path)

def readEvent : Reading Event := do
  let sequence ← journal.stream.readU64
  let kind ← journal.stream.readCode eventKinds
    (refusal .invalidValue "application journal encoding contains an invalid event kind")
  let effect ← journal.readTyped .applicationJournalEffect
  let evidence ← journal.readList maximumEvidenceCount "application journal backend evidence"
    (journal.readIdentity .backendEvidence)
  build (Event.make (.ofNat sequence) kind effect evidence)

/-- The identity a record carries, and what its constructor makes of the
fields. -/
def readRecord : Reading (TypedDigest .applicationJournalRecord × Except Exn Snapshot) := do
  journal.stream.expect journalMagic
    (refusal .invalidMagic "application journal encoding has invalid magic")
  journal.stream.expectU16 encodingVersion
    (refusal .unsupportedVersion "application journal encoding version is unsupported")
  let expected ← journal.readTyped .applicationJournalRecord
  journal.stream.expectU16 schemaVersion
    (refusal .unsupportedVersion "application journal record schema is unsupported")
  let header ← readHeader X
  let state ← journal.stream.readCode journalStates
    (refusal .invalidValue "application journal encoding contains an invalid state")
  let effects ← journal.readList maximumEffectCount "application journal effect graph"
    (readEffect X)
  let events ← journal.readList maximumEventCount "application journal event history" readEvent
  let receipt ← journal.readOptional (journal.readTyped .applicationReceipt)
  let completedEvidence ← journal.readOptional (journal.readTyped .completedApplicationEvidence)
  return (expected, Snapshot.make X header state effects events receipt completedEvidence)

/-- What `decode_application_journal` does inside its `try`. -/
def readWholeRecord : Reading Snapshot := do
  let (expected, made) ← readRecord X
  journal.stream.requireEnd
  let snapshot ← build made
  refuseWhen (snapshot.identity X ≠ expected) (refusal .identityMismatch
    "application journal encoding identity does not match its content")
  return snapshot

def decodeApplicationJournal (data : List Byte) : Except Failure Snapshot :=
  journal.decode (journal.translate "application journal encoding is invalid: "
    (readWholeRecord X)) data

end Decoder

end JournalCodec

end PkgApply.Transport
