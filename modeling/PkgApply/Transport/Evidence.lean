import PkgApply.Transport.Objects

/-!
# Completed evidence and receipts as records

Completed evidence and receipts as the byte level has them: the attempt, the
projection and the journal are identities, and each record is identified by the
SHA-256 of its canonical form.  The constructors check what the request and its
plan demand, and normalise the order of paths and backend evidence.
-/

namespace PkgApply.Transport

open Library

/-! ## Enumerations -/

def pathRoles : Codes PathRole where
  all := [.incomingEntry, .obsoleteOldPath, .structuralParent, .installedOwnedPath]
  code
    | .incomingEntry => 1
    | .obsoleteOldPath => 2
    | .structuralParent => 3
    | .installedOwnedPath => 4
  complete a := by cases a <;> decide
  injective a b := by cases a <;> cases b <;> decide

def activeOutcomes : Codes PlannedActiveOutcome where
  all := [.activateIncoming, .retainObserved, .removeObserved, .removeDirectoryIfEmpty,
    .remainAbsent]
  code
    | .activateIncoming => 1
    | .retainObserved => 2
    | .removeObserved => 3
    | .removeDirectoryIfEmpty => 4
    | .remainAbsent => 5
  complete a := by cases a <;> decide
  injective a b := by cases a <;> cases b <;> decide

def rejectedOutcomes : Codes PlannedRejectedOutcome where
  all := [.none, .stageIncoming, .stageOld]
  code
    | .none => 1
    | .stageIncoming => 2
    | .stageOld => 3
  complete a := by cases a <;> decide
  injective a b := by cases a <;> cases b <;> decide

def effectStatuses : Codes EffectStatus where
  all := [.notAttempted, .completed, .conditionalRetained, .failed, .indeterminate]
  code
    | .notAttempted => 1
    | .completed => 2
    | .conditionalRetained => 3
    | .failed => 4
    | .indeterminate => 5
  complete a := by cases a <;> decide
  injective a b := by cases a <;> cases b <;> decide

def publicationStatuses : Codes OwnershipPublicationStatus where
  all := [.ineligible, .eligible]
  code
    | .ineligible => 1
    | .eligible => 2
  complete a := by cases a <;> decide
  injective a b := by cases a <;> cases b <;> decide

def attemptOutcomes : Codes AttemptOutcome where
  all := [.preconditionRefused, .failedBeforeTargetMutation, .completed, .failedFullyRecovered,
    .failedWithPartialEffects, .effectsVisibleDurabilityUnconfirmed, .indeterminate]
  code
    | .preconditionRefused => 1
    | .failedBeforeTargetMutation => 2
    | .completed => 3
    | .failedFullyRecovered => 4
    | .failedWithPartialEffects => 5
    | .effectsVisibleDurabilityUnconfirmed => 6
    | .indeterminate => 7
  complete a := by cases a <;> decide
  injective a b := by cases a <;> cases b <;> decide

def recoveryStates : Codes RecoveryState where
  all := [.unchanged, .exactPriorStateRestored, .recoveryAssetsRetained, .knownResidualEffects,
    .recoveryNotRepresentable, .requiresAuthoritativeObservation]
  code
    | .unchanged => 1
    | .exactPriorStateRestored => 2
    | .recoveryAssetsRetained => 3
    | .knownResidualEffects => 4
    | .recoveryNotRepresentable => 5
    | .requiresAuthoritativeObservation => 6
  complete a := by cases a <;> decide
  injective a b := by cases a <;> cases b <;> decide

/-! ## Canonical records -/

def CanonicalRecord.appendU32 (record : CanonicalRecord) (value : Nat) : CanonicalRecord :=
  ⟨record.bytes ++ bigEndian 4 value⟩

namespace EvidenceRecord

variable (X : Externals)

def appendFact {α : Type} (encode : CanonicalRecord → α → CanonicalRecord)
    (record : CanonicalRecord) (fact : QualifiedFact α) : CanonicalRecord :=
  let record := record.appendU8 (factStates.code fact.state)
  match fact with
  | .known value => encode record value
  | _ => record

/-- The seconds as the `uint64_t` they convert to. -/
def appendTimestamp (record : CanonicalRecord) (time : CompletedObjectTimestamp) :
    CanonicalRecord :=
  (record.appendU64 (time.seconds % 2 ^ 64).toNat).appendU32 time.nanoseconds.toNat

def appendObject (record : CanonicalRecord) (object : CompletedObjectFact) : CanonicalRecord :=
  let record := (record.appendBytes object.path.bytes).appendU8 (objectKinds.code object.kind)
  let record := appendFact (fun record value => record.appendU32 value.toNat) record object.mode
  let record := appendFact (fun record value => record.appendU64 value.toNat) record object.uid
  let record := appendFact (fun record value => record.appendU64 value.toNat) record object.gid
  let record := appendFact (fun record value => record.appendU64 value.toNat) record object.size
  let record := appendFact appendTimestamp record object.mtime
  let record := appendFact (fun record value => record.appendDigest value.digest) record
    object.regularContent
  let record := appendFact CanonicalRecord.appendBytes record object.symlinkTarget
  let record := appendFact (fun record value =>
    (record.appendU64 value.major.toNat).appendU64 value.minor.toNat) record object.device
  let record := appendFact (fun record anchor => record.appendBytes anchor.bytes) record
    object.hardlink
  (record.appendU8 (provenances.code object.provenance)).appendU8
    (objectCompletenesses.code object.completeness)

def appendObservation (record : CanonicalRecord) (o : PathObservation) : CanonicalRecord :=
  let record := (record.appendBytes o.path.bytes).appendU8 (factStates.code o.state)
  match o.object with
  | some object => appendObject record object
  | none => record

def appendOwners (record : CanonicalRecord) (owners : List InstalledPackageIdentity) :
    CanonicalRecord :=
  owners.foldl (fun record owner => record.appendBytes (X.planningText owner))
    (record.appendU64 owners.length)

def appendEntry (record : CanonicalRecord) : Option EntryId → CanonicalRecord
  | none => record.appendBool false
  | some entry => (record.appendBool true).appendU64 entry

def appendPath (record : CanonicalRecord) (path : PathConsequence) : CanonicalRecord :=
  let record := (((record.appendBytes path.path.bytes).appendU8 (pathRoles.code path.role)).appendU8
    (activeOutcomes.code path.requestedActive)).appendU8
    (rejectedOutcomes.code path.requestedRejected)
  let record := appendOwners X (appendEntry record path.incomingEntry)
    path.ownership.beforeExistingOwners
  let record := (((appendOwners X record path.ownership.afterExistingOwners).appendBool
    path.ownership.incomingPackageOwnsAfter).appendU8
    (effectStatuses.code path.activeStatus)).appendU8 (effectStatuses.code path.rejectedStatus)
  let record := appendObservation (appendObservation record path.before) path.after
  (record.appendOptionalDigest (path.rejectedObject.map Identity.digest)).appendU8
    (publicationStatuses.code path.publication)

def appendPaths (record : CanonicalRecord) (paths : List PathConsequence) : CanonicalRecord :=
  paths.foldl (appendPath X) (record.appendU64 paths.length)

def appendDurability (record : CanonicalRecord) (durability : DurabilityProfile) :
    CanonicalRecord :=
  (durabilityFacts durability).foldl (fun record fact =>
    (record.appendU8 (durabilityDomains.code fact.domain)).appendU8
      (durabilityStatuses.code fact.status)) record

def appendBackendEvidence (record : CanonicalRecord) (evidence : Evidence) : CanonicalRecord :=
  (record.appendU64 evidence.card).appendDigests ((ascending evidence).map Identity.digest)

end EvidenceRecord

/-! ## Completed evidence -/

/-- A constructor refuses repeated backend evidence and sorts the rest. -/
def normalizeBackendEvidence (message : String) (evidence : List BackendEvidenceIdentity) :
    Except Exn Evidence := do
  refuseIf (¬evidence.Nodup) (.invalidArgument message)
  return evidence.toFinset

structure EvidenceRecord where
  kind : OperationKind
  request : ApplicationRequestIdentity
  plan : OperationPlanIdentity
  attempt : TypedDigest .applicationAttempt
  target : TargetContextIdentity
  control : ExecutionControlIdentity
  stateProjection : TypedDigest .leaseBoundStateProjection
  journal : TypedDigest .applicationJournal
  paths : List PathConsequence
  durability : DurabilityProfile
  backendEvidence : Evidence
deriving DecidableEq

namespace EvidenceRecord

/-- Completed evidence of a request of any kind. -/
def make (request : ApplicationRequest) (attempt : TypedDigest .applicationAttempt)
    (stateProjection : TypedDigest .leaseBoundStateProjection)
    (journal : TypedDigest .applicationJournal) (paths : List PathConsequence)
    (durability : DurabilityProfile) (backendEvidence : List BackendEvidenceIdentity) :
    Except Exn EvidenceRecord := do
  let paths ← normalizePaths paths
  validatePlanPaths request.plan paths true
  validateCompletedDurability request.control durability
  let backendEvidence ← normalizeBackendEvidence "duplicate backend application evidence"
    backendEvidence
  refuseIf (!paths.all PathConsequence.completedPath)
    (.invalidArgument "completed application evidence contains incomplete path effects")
  return ⟨request.plan.kind, request.identity, request.plan.identity, attempt, request.target,
    request.control.identity, stateProjection, journal, paths, durability, backendEvidence⟩

def record (X : Externals) (evidence : EvidenceRecord) : CanonicalRecord :=
  let record := ((((((((((CanonicalRecord.start .completedApplicationEvidence).appendU16
    schemaVersion).appendU8 (canonicalKind evidence.kind)).appendDigest
    evidence.request.digest).appendBytes (X.planningText evidence.plan)).appendDigest
    evidence.attempt.digest).appendDigest evidence.target.digest).appendDigest
    evidence.control.digest).appendDigest evidence.stateProjection.digest).appendDigest
    evidence.journal.digest)
  appendBackendEvidence (appendDurability (appendPaths X record evidence.paths)
    evidence.durability) evidence.backendEvidence

def identity (X : Externals) (evidence : EvidenceRecord) :
    TypedDigest .completedApplicationEvidence :=
  ⟨X.sha256 (evidence.record X).bytes⟩

end EvidenceRecord

/-! ## Receipts -/

structure ReceiptRecord where
  kind : OperationKind
  request : ApplicationRequestIdentity
  plan : OperationPlanIdentity
  attempt : TypedDigest .applicationAttempt
  target : TargetContextIdentity
  control : ExecutionControlIdentity
  stateProjection : TypedDigest .leaseBoundStateProjection
  outcome : AttemptOutcome
  recovery : RecoveryState
  durability : DurabilityProfile
  paths : List PathConsequence
  journal : Option (TypedDigest .applicationJournal)
  completedEvidence : Option EvidenceRecord
  backendEvidence : Evidence
deriving DecidableEq

namespace ReceiptRecord

/-- A completed receipt names its evidence. -/
def completed (evidence : EvidenceRecord) (recovery : RecoveryState)
    (backendEvidence : List BackendEvidenceIdentity) : Except Exn ReceiptRecord := do
  refuseIf (recovery ≠ .recoveryAssetsRetained ∧ recovery ≠ .unchanged)
    (.invalidArgument "completed receipt has invalid recovery state")
  let backendEvidence ← normalizeBackendEvidence "duplicate backend application evidence"
    backendEvidence
  return ⟨evidence.kind, evidence.request, evidence.plan, evidence.attempt, evidence.target,
    evidence.control, evidence.stateProjection, .completed, recovery, evidence.durability,
    evidence.paths, some evidence.journal, some evidence, backendEvidence⟩

/-- Which recovery state, journal and durability a failure outcome admits. -/
def validateFailedOutcome (outcome : AttemptOutcome) (recovery : RecoveryState)
    (journal : Option (TypedDigest .applicationJournal)) (durability : DurabilityProfile) :
    Except Exn Unit := do
  refuseIf (outcome = .completed)
    (.invalidArgument "failed receipt cannot report completed outcome")
  refuseIf (outcome = .preconditionRefused ∧ recovery ≠ .unchanged)
    (.invalidArgument "precondition refusal must leave active target unchanged")
  refuseIf (outcome = .failedBeforeTargetMutation ∧ recovery ≠ .unchanged)
    (.invalidArgument "pre-target-mutation failure must leave active target unchanged")
  refuseIf (outcome = .preconditionRefused ∧ journal.isSome)
    (.invalidArgument "precondition refusal must not create a journal")
  refuseIf (outcome = .failedFullyRecovered ∧ recovery ≠ .exactPriorStateRestored)
    (.invalidArgument "fully recovered outcome requires exact restoration")
  refuseIf (outcome = .failedWithPartialEffects ∧ recovery ≠ .knownResidualEffects)
    (.invalidArgument "partial effects require residual-effect recovery state")
  refuseIf (outcome = .indeterminate ∧ recovery ≠ .requiresAuthoritativeObservation)
    (.invalidArgument "indeterminate outcome requires authoritative observation")
  refuseIf ((outcome = .failedFullyRecovered ∨ outcome = .failedWithPartialEffects ∨
      outcome = .effectsVisibleDurabilityUnconfirmed ∨ outcome = .indeterminate) ∧ journal.isNone)
    (.invalidArgument "post-mutation receipt requires application journal")
  refuseIf (outcome = .effectsVisibleDurabilityUnconfirmed ∧
      durability.all fun s => s != .visible && s != .unconfirmed)
    (.invalidArgument "durability-unconfirmed outcome has no visible or unconfirmed domain")

/-- A failed receipt of a request of any kind. -/
def failed (request : ApplicationRequest) (attempt : TypedDigest .applicationAttempt)
    (stateProjection : TypedDigest .leaseBoundStateProjection) (outcome : AttemptOutcome)
    (recovery : RecoveryState) (durability : DurabilityProfile) (paths : List PathConsequence)
    (journal : Option (TypedDigest .applicationJournal))
    (backendEvidence : List BackendEvidenceIdentity) : Except Exn ReceiptRecord := do
  let paths ← normalizePaths paths
  validatePlanPaths request.plan paths false
  validateFailedOutcome outcome recovery journal durability
  validateFailedPaths outcome paths
  let backendEvidence ← normalizeBackendEvidence "duplicate backend application evidence"
    backendEvidence
  return ⟨request.plan.kind, request.identity, request.plan.identity, attempt, request.target,
    request.control.identity, stateProjection, outcome, recovery, durability, paths, journal,
    none, backendEvidence⟩

def record (X : Externals) (receipt : ReceiptRecord) : CanonicalRecord :=
  let record := (((((((((((CanonicalRecord.start .applicationReceipt).appendU16
    schemaVersion).appendU8 (canonicalKind receipt.kind)).appendDigest
    receipt.request.digest).appendBytes (X.planningText receipt.plan)).appendDigest
    receipt.attempt.digest).appendDigest receipt.target.digest).appendDigest
    receipt.control.digest).appendDigest receipt.stateProjection.digest).appendU8
    (attemptOutcomes.code receipt.outcome)).appendU8 (recoveryStates.code receipt.recovery))
  let record := EvidenceRecord.appendPaths X
    (EvidenceRecord.appendDurability record receipt.durability) receipt.paths
  EvidenceRecord.appendBackendEvidence ((record.appendOptionalDigest
    (receipt.journal.map TypedDigest.digest)).appendOptionalDigest
    (receipt.completedEvidence.map fun evidence => (evidence.identity X).digest))
    receipt.backendEvidence

def identity (X : Externals) (receipt : ReceiptRecord) : TypedDigest .applicationReceipt :=
  ⟨X.sha256 (receipt.record X).bytes⟩

end ReceiptRecord

end PkgApply.Transport
