import PkgApply.Receipt
import PkgApply.Schedule

/-!
# Mechanism requests and results

The values the engine exchanges with a backend transaction, and the typed
facts a journal retains about them for replay.  A result satisfies what its
constructor checks.
-/

namespace PkgApply

/-- Result of one mechanism operation. -/
structure BackendOperationResult where
  outcome : BackendOperationOutcome
  evidence : Evidence
deriving DecidableEq

/-- Result of publishing one rejected-object record. -/
structure RejectedObjectPublicationResult where
  outcome : BackendOperationOutcome
  record : Option RejectedObjectRecordIdentity
  evidence : Evidence
  unconditional : outcome ≠ .conditionalRetained
  record_iff : outcome = .completed ↔ record.isSome
deriving DecidableEq

/-- Result of publishing one completed-evidence record. -/
structure CompletedEvidencePublicationResult where
  outcome : BackendOperationOutcome
  record : Option CompletedEvidence
  evidence : Evidence
  unconditional : outcome ≠ .conditionalRetained
  record_iff : outcome = .completed ↔ record.isSome
deriving DecidableEq

/-- Evidence established while capturing one old object. -/
structure OldObjectCaptureResult where
  outcome : BackendOperationOutcome
  captured : PathObservation
  exactRecoveryPossible : Bool
  evidence : Evidence
  completed_present : outcome = .completed → captured.state = .known
  exact_completed : exactRecoveryPossible = true → outcome = .completed
deriving DecidableEq

/-- Result of sealing a payload stage, with the stage's own claim of being
sealed. -/
structure PayloadStageResult where
  result : BackendOperationResult
  sealed : Bool
deriving DecidableEq

/-- One active-namespace command. -/
structure BackendActiveEffectRequest where
  path : PackagePath
  outcome : PlannedActiveOutcome
  incomingEntry : Option EntryId
deriving DecidableEq, Repr

/-- An entry accompanies exactly an activation. -/
def BackendActiveEffectRequest.make (path : PackagePath) (outcome : PlannedActiveOutcome)
    (incomingEntry : Option EntryId) : Except Exn BackendActiveEffectRequest :=
  if (outcome == .activateIncoming) ≠ incomingEntry.isSome then
    .error (.invalidArgument "active effect incoming entry mismatch")
  else
    .ok ⟨path, outcome, incomingEntry⟩

/-- One rejected-object command, copied from the plan's structured intent. -/
structure BackendRejectedEffectRequest where
  path : PackagePath
  source : RejectedObjectSource
deriving DecidableEq, Repr

namespace BackendRejectedEffectRequest

def fromPlan (plan : RejectedObjectPlan) : BackendRejectedEffectRequest :=
  ⟨plan.path, plan.source⟩

def outcome (request : BackendRejectedEffectRequest) : PlannedRejectedOutcome :=
  RejectedObjectPlan.outcome ⟨request.path, request.source⟩

def incomingEntry (request : BackendRejectedEffectRequest) : Option EntryId :=
  RejectedObjectPlan.incomingEntry ⟨request.path, request.source⟩

end BackendRejectedEffectRequest

/-- What the terminal event of an effect retains about its result. -/
inductive ReplayFact where
  | payloadSeal (result : BackendOperationResult)
  | capture (result : OldObjectCaptureResult)
  | rejectedEffect (path : PackagePath) (result : RejectedObjectPublicationResult)
  | activeEffect (path : PackagePath) (result : BackendOperationResult)
  | recoveryEffect (path : PackagePath) (result : BackendOperationResult)
  | synchronization (result : DurabilityFact)
  | completedEvidence (evidence : CompletedEvidence)
deriving DecidableEq

/-- The status a mechanism outcome leaves in its domain. -/
def outcomeDurability (previous : DurabilityStatus) : BackendOperationOutcome → DurabilityStatus
  | .completed => .visible
  | .indeterminate => .indeterminate
  | .failed | .conditionalRetained => previous

end PkgApply
