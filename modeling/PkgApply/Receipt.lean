import PkgApply.Plan

/-!
# Durability, path consequences, evidence and receipts

The terminal authorities of an application.  Their identities stand for the
records, so a journal retains a receipt or a completed-evidence record itself.
Every constructor keeps the checks of the source, in the source's order.
-/

namespace PkgApply

/-! ## Durability -/

inductive DurabilityDomain where
  | journal
  | incomingStaging
  | recoveryStaging
  | activeNamespace
  | rejectedObjectStore
  | completedEvidence
deriving DecidableEq, Repr

inductive DurabilityStatus where
  | notAttempted
  | visible
  | confirmed
  | unconfirmed
  | indeterminate
deriving DecidableEq, Repr

/-- The status of one domain, as a backend reports it. -/
structure DurabilityFact where
  domain : DurabilityDomain
  status : DurabilityStatus
deriving DecidableEq, Repr

/-- One status for each of the six domains. -/
structure DurabilityProfile where
  journal : DurabilityStatus
  incomingStaging : DurabilityStatus
  recoveryStaging : DurabilityStatus
  activeNamespace : DurabilityStatus
  rejectedObjectStore : DurabilityStatus
  completedEvidence : DurabilityStatus
deriving DecidableEq, Repr

namespace DurabilityProfile

def status (p : DurabilityProfile) : DurabilityDomain → DurabilityStatus
  | .journal => p.journal
  | .incomingStaging => p.incomingStaging
  | .recoveryStaging => p.recoveryStaging
  | .activeNamespace => p.activeNamespace
  | .rejectedObjectStore => p.rejectedObjectStore
  | .completedEvidence => p.completedEvidence

/-- One domain of a profile changed. -/
def set (p : DurabilityProfile) (domain : DurabilityDomain) (status : DurabilityStatus) :
    DurabilityProfile :=
  match domain with
  | .journal => { p with journal := status }
  | .incomingStaging => { p with incomingStaging := status }
  | .recoveryStaging => { p with recoveryStaging := status }
  | .activeNamespace => { p with activeNamespace := status }
  | .rejectedObjectStore => { p with rejectedObjectStore := status }
  | .completedEvidence => { p with completedEvidence := status }

def all (p : DurabilityProfile) (f : DurabilityStatus → Bool) : Bool :=
  f p.journal && f p.incomingStaging && f p.recoveryStaging && f p.activeNamespace &&
    f p.rejectedObjectStore && f p.completedEvidence

end DurabilityProfile

def visibleOrConfirmed : DurabilityStatus → Bool
  | .visible | .confirmed | .notAttempted => true
  | .unconfirmed | .indeterminate => false

def notAttemptedOrConfirmed : DurabilityStatus → Bool
  | .notAttempted | .confirmed => true
  | .visible | .unconfirmed | .indeterminate => false

/-- What completion demands of every durability domain under a control. -/
def validateCompletedDurability (control : ExecutionControl) (p : DurabilityProfile) :
    Except Exn Unit := do
  refuseIf (p.journal ≠ .confirmed ∨ p.completedEvidence ≠ .confirmed)
    (.invalidArgument "completed application requires durable journal and evidence")
  match control.durability with
  | .visibilityOnly =>
    refuseIf (!p.all visibleOrConfirmed)
      (.invalidArgument "visibility-only application has unresolved durability")
  | .journalAndRecovery =>
    refuseIf (!notAttemptedOrConfirmed p.recoveryStaging)
      (.invalidArgument "required recovery staging durability is not confirmed")
    refuseIf (!visibleOrConfirmed p.activeNamespace || !visibleOrConfirmed p.rejectedObjectStore)
      (.invalidArgument "completed application visibility is not established")
  | .allApplicationDomains =>
    refuseIf (!p.all notAttemptedOrConfirmed)
      (.invalidArgument "application domain durability is not confirmed")

/-! ## Path consequences -/

inductive EffectStatus where
  | notAttempted
  | completed
  | conditionalRetained
  | failed
  | indeterminate
deriving DecidableEq, Repr

inductive OwnershipPublicationStatus where
  | ineligible
  | eligible
deriving DecidableEq, Repr

/-- What happened at one path of the plan. -/
structure PathConsequence where
  path : PackagePath
  role : PathRole
  requestedActive : PlannedActiveOutcome
  requestedRejected : PlannedRejectedOutcome
  incomingEntry : Option EntryId
  ownership : OwnershipTransition
  activeStatus : EffectStatus
  rejectedStatus : EffectStatus
  before : PathObservation
  after : PathObservation
  rejectedObject : Option RejectedObjectRecordIdentity
  publication : OwnershipPublicationStatus
deriving DecidableEq

namespace PathConsequence

/-- The checks of the constructor, in its order. -/
def make (c : PathConsequence) : Except Exn PathConsequence := do
  refuseIf (c.before.path ≠ c.path ∨ c.after.path ≠ c.path)
    (.invalidArgument "application consequence observation path mismatch")
  refuseIf ((c.role == .incomingEntry) ≠ c.incomingEntry.isSome)
    (.invalidArgument "application consequence incoming entry mismatch")
  refuseIf (c.requestedRejected = .none ∧
      (c.rejectedStatus ≠ .notAttempted ∨ c.rejectedObject.isSome))
    (.invalidArgument "unplanned rejected consequence")
  refuseIf (c.requestedRejected ≠ .none ∧ c.rejectedStatus = .completed ∧
      c.rejectedObject.isNone)
    (.invalidArgument "completed rejected consequence lacks record")
  refuseIf (c.requestedRejected ≠ .none ∧ c.rejectedObject.isSome ∧
      c.rejectedStatus ≠ .completed)
    (.invalidArgument "rejected record lacks completed consequence")
  refuseIf (c.activeStatus = .conditionalRetained ∧ c.requestedActive ≠ .removeDirectoryIfEmpty)
    (.invalidArgument "conditional retention requires conditional directory removal")
  refuseIf
    (c.publication = .eligible ∧ (c.activeStatus ≠ .completed ∧ c.activeStatus ≠ .conditionalRetained))
    (.invalidArgument "ownership publication requires a completed active consequence")
  refuseIf (c.publication = .eligible ∧ c.after.state = .unknown)
    (.invalidArgument "ownership publication requires a known resulting observation")
  return c

/-- Whether a consequence repeats the decision of the plan at its path. -/
def matchesDecision (c : PathConsequence) (d : PathDecision) : Bool :=
  c.path == d.path && c.role == d.role && c.requestedActive == d.active &&
    c.requestedRejected == d.rejected && c.incomingEntry == d.incomingEntry &&
    c.ownership == d.ownership

/-- Whether a path is completely applied and publishable. -/
def completedPath (c : PathConsequence) : Bool :=
  c.before.state != .unknown && c.after.state != .unknown && c.publication == .eligible &&
    (if c.requestedRejected = .none then
      c.rejectedStatus == .notAttempted && c.rejectedObject.isNone
    else
      c.rejectedStatus == .completed && c.rejectedObject.isSome) &&
    (match c.requestedActive with
    | .activateIncoming | .retainObserved =>
      c.activeStatus == .completed && c.after.state == .known
    | .removeObserved | .remainAbsent =>
      c.activeStatus == .completed && c.after.state == .notApplicable
    | .removeDirectoryIfEmpty =>
      (c.activeStatus == .completed && c.after.state == .notApplicable) ||
        (c.activeStatus == .conditionalRetained && c.after.state == .known))

end PathConsequence

/-- Consequences in path order; a repeated path is refused. -/
def normalizePaths (paths : List PathConsequence) : Except Exn (List PathConsequence) :=
  if (paths.map PathConsequence.path).Nodup then
    .ok (paths.insertionSort fun a b => a.path ≤ b.path)
  else
    .error (.invalidArgument "duplicate path in application result")

/-- Every consequence repeats a plan decision, and completed evidence covers
the whole path universe. -/
def validatePlanPaths (plan : OperationPlan) (paths : List PathConsequence) (complete : Bool) :
    Except Exn Unit := do
  refuseIf (complete ∧ paths.length ≠ plan.paths.length)
    (.invalidArgument "completed evidence path universe mismatch")
  refuseIf (!paths.all fun c => (plan.decision c.path).any c.matchesDecision)
    (.invalidArgument "application result differs from accepted plan")

/-! ## Journal header -/

/-- Fixed authority of one application journal. -/
structure JournalHeader where
  kind : OperationKind
  request : ApplicationRequestIdentity
  plan : OperationPlanIdentity
  attempt : ApplicationAttempt
  target : TargetContextIdentity
  control : ExecutionControlIdentity
  stateProjection : LeaseBoundStateProjection
  lease : MutationLeaseInstanceIdentity
  backend : MutationBackendIdentity
deriving DecidableEq

namespace JournalHeader

def make (h : JournalHeader) : Except Exn JournalHeader := do
  refuseIf (h.attempt.request ≠ h.request)
    (.invalidArgument "application journal attempt belongs to another request")
  refuseIf (h.attempt.target ≠ h.target)
    (.invalidArgument "application journal attempt belongs to another target")
  refuseIf (h.attempt.backend ≠ h.backend)
    (.invalidArgument "application journal attempt belongs to another backend")
  refuseIf (h.stateProjection.lease ≠ h.lease)
    (.invalidArgument "application journal state projection belongs to another lease")
  return h

end JournalHeader

/-! ## Completed evidence -/

/-- Everything a completed application establishes. -/
structure CompletedEvidence where
  kind : OperationKind
  request : ApplicationRequestIdentity
  plan : OperationPlanIdentity
  attempt : ApplicationAttempt
  target : TargetContextIdentity
  control : ExecutionControlIdentity
  stateProjection : LeaseBoundStateProjection
  journal : JournalHeader
  paths : List PathConsequence
  durability : DurabilityProfile
  backendEvidence : Evidence
deriving DecidableEq

namespace CompletedEvidence

/-- Completed evidence of a request of any kind. -/
def make (request : ApplicationRequest) (attempt : ApplicationAttempt)
    (stateProjection : LeaseBoundStateProjection) (journal : JournalHeader)
    (paths : List PathConsequence) (durability : DurabilityProfile)
    (backendEvidence : Evidence) : Except Exn CompletedEvidence := do
  let paths ← normalizePaths paths
  validatePlanPaths request.plan paths true
  validateCompletedDurability request.control durability
  refuseIf (!paths.all PathConsequence.completedPath)
    (.invalidArgument "completed application evidence contains incomplete path effects")
  return ⟨request.plan.kind, request.identity, request.plan.identity, attempt, request.target,
    request.control.identity, stateProjection, journal, paths, durability, backendEvidence⟩

/-- Evidence the constructor made for the request. -/
def MadeFor (request : ApplicationRequest) (e : CompletedEvidence) : Prop :=
  ∃ attempt stateProjection journal paths durability evidence,
    make request attempt stateProjection journal paths durability evidence = .ok e

end CompletedEvidence

/-! ## Receipts -/

inductive AttemptOutcome where
  | preconditionRefused
  | failedBeforeTargetMutation
  | completed
  | failedFullyRecovered
  | failedWithPartialEffects
  | effectsVisibleDurabilityUnconfirmed
  | indeterminate
deriving DecidableEq, Repr

inductive RecoveryState where
  | unchanged
  | exactPriorStateRestored
  | recoveryAssetsRetained
  | knownResidualEffects
  | recoveryNotRepresentable
  | requiresAuthoritativeObservation
deriving DecidableEq, Repr

/-- The terminal receipt of one attempt. -/
structure ApplicationReceipt where
  kind : OperationKind
  request : ApplicationRequestIdentity
  plan : OperationPlanIdentity
  attempt : ApplicationAttempt
  target : TargetContextIdentity
  control : ExecutionControlIdentity
  stateProjection : LeaseBoundStateProjection
  outcome : AttemptOutcome
  recovery : RecoveryState
  durability : DurabilityProfile
  paths : List PathConsequence
  journal : Option JournalHeader
  completedEvidence : Option CompletedEvidence
  backendEvidence : Evidence
deriving DecidableEq

/-- Paths a failed receipt may not contain under its outcome. -/
def validateFailedPath (outcome : AttemptOutcome) (c : PathConsequence) : Except Exn Unit := do
  refuseIf (c.publication ≠ .ineligible)
    (.invalidArgument "failed application path is publication eligible")
  refuseIf
    (outcome = .preconditionRefused ∧
      (c.activeStatus ≠ .notAttempted ∨ c.rejectedStatus ≠ .notAttempted))
    (.invalidArgument "precondition refusal contains attempted application effects")
  refuseIf
    (outcome = .failedBeforeTargetMutation ∧ c.activeStatus ≠ .notAttempted ∧ c.activeStatus ≠ .failed)
    (.invalidArgument "pre-target-mutation failure contains a possibly applied active effect")

def validateFailedPaths (outcome : AttemptOutcome) :
    List PathConsequence → Except Exn Unit
  | [] => return ()
  | c :: rest => do
    validateFailedPath outcome c
    validateFailedPaths outcome rest

/-- Which recovery state, journal and durability a failure outcome admits. -/
def validateFailedOutcome (outcome : AttemptOutcome) (recovery : RecoveryState)
    (journal : Option JournalHeader) (durability : DurabilityProfile) : Except Exn Unit := do
  refuseIf (outcome = .completed)
    (.invalidArgument "failed receipt cannot report completed outcome")
  refuseIf (outcome = .preconditionRefused ∧ recovery ≠ .unchanged)
    (.invalidArgument "precondition refusal must leave active target unchanged")
  refuseIf (outcome = .failedBeforeTargetMutation ∧ recovery ≠ .unchanged)
    (.invalidArgument "pre-target-mutation failure must leave active target unchanged")
  refuseIf (outcome = .preconditionRefused ∧ journal.isSome)
    (.invalidArgument "precondition refusal must not create a journal")
  refuseIf (outcome = .failedFullyRecovered ∧ recovery ≠ .exactPriorStateRestored)
    (.invalidArgument "fully recovered outcome requires exact restoration")
  refuseIf (outcome = .failedWithPartialEffects ∧ recovery ≠ .knownResidualEffects)
    (.invalidArgument "partial effects require residual-effect recovery state")
  refuseIf (outcome = .indeterminate ∧ recovery ≠ .requiresAuthoritativeObservation)
    (.invalidArgument "indeterminate outcome requires authoritative observation")
  refuseIf
    ((outcome = .failedFullyRecovered ∨ outcome = .failedWithPartialEffects ∨
      outcome = .effectsVisibleDurabilityUnconfirmed ∨ outcome = .indeterminate) ∧ journal.isNone)
    (.invalidArgument "post-mutation receipt requires application journal")
  refuseIf
    (outcome = .effectsVisibleDurabilityUnconfirmed ∧
      durability.all fun s => s != .visible && s != .unconfirmed)
    (.invalidArgument "durability-unconfirmed outcome has no visible or unconfirmed domain")

namespace ApplicationReceipt

/-- A completed receipt names its evidence. -/
def completed (evidence : CompletedEvidence) (recovery : RecoveryState)
    (backendEvidence : Evidence) : Except Exn ApplicationReceipt := do
  refuseIf (recovery ≠ .recoveryAssetsRetained ∧ recovery ≠ .unchanged)
    (.invalidArgument "completed receipt has invalid recovery state")
  return ⟨evidence.kind, evidence.request, evidence.plan, evidence.attempt, evidence.target,
    evidence.control, evidence.stateProjection, .completed, recovery, evidence.durability,
    evidence.paths, some evidence.journal, some evidence, backendEvidence⟩

/-- A failed receipt of a request of any kind. -/
def failed (request : ApplicationRequest) (attempt : ApplicationAttempt)
    (stateProjection : LeaseBoundStateProjection) (outcome : AttemptOutcome)
    (recovery : RecoveryState) (durability : DurabilityProfile) (paths : List PathConsequence)
    (journal : Option JournalHeader) (backendEvidence : Evidence) :
    Except Exn ApplicationReceipt := do
  let paths ← normalizePaths paths
  validatePlanPaths request.plan paths false
  validateFailedOutcome outcome recovery journal durability
  validateFailedPaths outcome paths
  return ⟨request.plan.kind, request.identity, request.plan.identity, attempt, request.target,
    request.control.identity, stateProjection, outcome, recovery, durability, paths, journal,
    none, backendEvidence⟩

end ApplicationReceipt

end PkgApply
