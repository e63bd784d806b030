import PkgApply.Engine.Completion

/-!
# Recovery

Undoing what an interrupted active execution changed, most recent effect
first, and the failure receipt it ends with.
-/

namespace PkgApply

open Engine

/-- One recovered path, with whether its prior state can be restored exactly. -/
structure RecoveryEffectResult where
  path : PackagePath
  result : BackendOperationResult
  exactPriorStatePossible : Bool
deriving DecidableEq

/-! ## Candidates and exactness -/

/-- Whether an active effect changed the target, or may have. -/
def ActiveEffectResult.recoverable (e : ActiveEffectResult) : Bool :=
  e.changedTarget || e.result.outcome == .indeterminate

/-- The effects recovery undoes, most recent first. -/
def recoveryCandidates (effects : List ActiveEffectResult) : List ActiveEffectResult :=
  effects.reverse.filter ActiveEffectResult.recoverable

/-- The completed capture of one path. -/
def findCompletedCapture (captures : List OldObjectCaptureResult) (path : PackagePath) :
    Option OldObjectCaptureResult :=
  captures.find? fun c => c.captured.path == path && c.outcome == .completed

/-- Whether the prior state of a path can be restored exactly: it was absent,
or a completed capture claims so. -/
def exactRecoveryPossible (prepared : PreparedApplication) (path : PackagePath) :
    Except Exn Bool :=
  match prepared.journaled.observations.find path with
  | none => .error (.logicError "recovery path lacks admitted observation")
  | some (.absent _) => .ok true
  | some (.unknown _) => .ok false
  | some (.present _) =>
    .ok ((findCompletedCapture prepared.captures path).any
      OldObjectCaptureResult.exactRecoveryPossible)

/-! ## Consequences -/

def findRecoveryEffect (recoveries : List RecoveryEffectResult) (path : PackagePath) :
    Option RecoveryEffectResult :=
  recoveries.find? fun r => r.path == path

/-- Whether a recovered path is back in its prior state. -/
def RecoveryEffectResult.restored (r : RecoveryEffectResult) : Bool :=
  r.result.outcome == .completed && r.exactPriorStatePossible

/-- Status and final observation of a path under its active effect. -/
def recoveredActive (recoveries : List RecoveryEffectResult) (path : PackagePath)
    (before : PathObservation) : Option ActiveEffectResult → EffectStatus × PathObservation
  | none => (.notAttempted, before)
  | some active =>
    (activeEffectStatus active.result.outcome,
      if active.recoverable && !(findRecoveryEffect recoveries path).any (·.restored) then
        .unknown path
      else before)

def recoveryPathConsequence (interrupted : ActiveInterruptedApplication) (d : PathDecision)
    (recoveries : List RecoveryEffectResult) : Except Exn PathConsequence := do
  let some before := interrupted.rejected.prepared.journaled.observations.find d.path
    | throw (.logicError "failure consequence lacks admitted observation")
  let (activeStatus, after) :=
    recoveredActive recoveries d.path before (findActiveEffect interrupted.effects d.path)
  let (status, record) ← rejectedStatusAt interrupted.rejected.effects d.path
  PathConsequence.make ⟨d.path, d.role, d.active, d.rejected, d.incomingEntry, d.ownership,
    activeStatus, status, before, after, record, .ineligible⟩

/-- Consequences of the paths some effect was attempted at. -/
def recoveryPathConsequences (interrupted : ActiveInterruptedApplication)
    (recoveries : List RecoveryEffectResult) :
    List PathDecision → Except Exn (List PathConsequence)
  | [] => return []
  | d :: rest =>
    if (findActiveEffect interrupted.effects d.path).isNone &&
        (findRejectedEffect interrupted.rejected.effects d.path).isNone then
      recoveryPathConsequences interrupted recoveries rest
    else do
      let c ← recoveryPathConsequence interrupted d recoveries
      let cs ← recoveryPathConsequences interrupted recoveries rest
      return c :: cs

/-! ## Sealing -/

/-- The journal state each failure outcome ends in. -/
def terminalFailureJournalState (rejected : List RejectedEffectResult) :
    AttemptOutcome → Except Exn JournalState
  | .failedFullyRecovered => .ok .recovered
  | .effectsVisibleDurabilityUnconfirmed | .failedWithPartialEffects => .ok .effectsVisible
  | .indeterminate => .ok .indeterminate
  | .failedBeforeTargetMutation =>
    .ok (if rejected.any fun e => e.result.outcome == .completed then .effectsVisible
      else .abandoned)
  | .preconditionRefused | .completed =>
    .error (.logicError "invalid terminal recovery outcome")

/-- Outcome and recovery state of one ending. -/
structure RecoveryVerdict where
  outcome : AttemptOutcome
  recovery : RecoveryState
deriving DecidableEq

namespace RecoveryVerdict

def fullyRecovered : RecoveryVerdict := ⟨.failedFullyRecovered, .exactPriorStateRestored⟩
def partialEffects : RecoveryVerdict := ⟨.failedWithPartialEffects, .knownResidualEffects⟩
def indeterminate : RecoveryVerdict := ⟨.indeterminate, .requiresAuthoritativeObservation⟩
def beforeMutation : RecoveryVerdict := ⟨.failedBeforeTargetMutation, .unchanged⟩
def unconfirmed : RecoveryVerdict :=
  ⟨.effectsVisibleDurabilityUnconfirmed, .recoveryNotRepresentable⟩

end RecoveryVerdict

def sealRecoveryReceipt (interrupted : ActiveInterruptedApplication)
    (request : ApplicationRequest) (state : LeaseBoundStateProjection)
    (verdict : RecoveryVerdict) (durability : DurabilityProfile)
    (recoveries : List RecoveryEffectResult) (evidence : Evidence) :
    Engine ApplicationReceipt := do
  let paths ← recoveryPathConsequences interrupted recoveries request.plan.paths
  let h ← history
  let receipt ← ApplicationReceipt.failed request interrupted.rejected.prepared.journaled.attempt
    state verdict.outcome verdict.recovery durability paths (some h.header) evidence
  let terminal ← terminalFailureJournalState interrupted.rejected.effects verdict.outcome
  publishState terminal (some receipt)
  return receipt

/-! ## The phase -/

/-- The journal state an interruption is recovered from. -/
def ActiveInterruption.journalState (interruption : ActiveInterruption) : JournalState :=
  if interruption.indeterminate then .indeterminate else .recoveryPending

/-- Whether an interruption arose from the final observation. -/
def ActiveInterruption.observational : ActiveInterruption → Bool
  | resultObservationMismatch | resultObservationIndeterminate => true
  | _ => false

/-- The verdict when no effect changed the target. -/
def unchangedVerdict (interruption : ActiveInterruption) : RecoveryVerdict :=
  if interruption.observational then .indeterminate else .beforeMutation

/-- The verdict when the control selects no recovery. -/
def unrecoveredVerdict (interruption : ActiveInterruption) : RecoveryVerdict :=
  if interruption.indeterminate then .indeterminate
  else if interruption = .durabilityUnconfirmed then .unconfirmed
  else .partialEffects

def requiresRecoveredNamespaceSynchronization (control : ExecutionControl) : Bool :=
  control.durability == .allApplicationDomains

/-- Recover one path between its intent and its terminal event. -/
def recoverPath (prepared : PreparedApplication) (path : PackagePath) :
    Engine RecoveryEffectResult := do
  let exact_ ← exactRecoveryPossible prepared path
  let h ← history
  let effect ← findEffect h.effects .recoverActiveObject (some path)
  publishEvent .recovering effect .intent
  let result ← mechanism (.recover path)
  let terminal ← terminalEvent result.outcome
  publishEvent .recovering effect terminal result.evidence (some (.recoveryEffect path result))
  return ⟨path, result, exact_⟩

/-- Candidates in order, up to the first that is not recovered. -/
def recoverCandidates (prepared : PreparedApplication) :
    List ActiveEffectResult → List RecoveryEffectResult → Engine (List RecoveryEffectResult)
  | [], recoveries => return recoveries
  | candidate :: rest, recoveries => do
    let recovery ← recoverPath prepared candidate.request.path
    let recoveries := recoveries ++ [recovery]
    if recovery.result.outcome = .completed then recoverCandidates prepared rest recoveries
    else return recoveries

/-- Evidence of a list of recoveries. -/
def recoveryEvidence (recoveries : List RecoveryEffectResult) : Evidence :=
  recoveries.foldr (fun r evidence => r.result.evidence ∪ evidence) ∅

def allRecovered (recoveries : List RecoveryEffectResult) : Bool :=
  recoveries.all fun r => r.result.outcome == .completed

def allExact (recoveries : List RecoveryEffectResult) : Bool :=
  recoveries.all RecoveryEffectResult.exactPriorStatePossible

/-- Any completed recovery leaves the active namespace visible. -/
def recoveredDurability (durability : DurabilityProfile)
    (recoveries : List RecoveryEffectResult) : DurabilityProfile :=
  if recoveries.any fun r => r.result.outcome == .completed then
    { durability with activeNamespace := .visible }
  else durability

def synchronizeRecoveredNamespace : Engine DurabilityFact :=
  synchronizeDomain .recovering .synchronizeRecoveredNamespace .activeNamespace
    "backend synchronized another recovered namespace domain"
    "backend reported unattempted recovered namespace durability"

/-- Durability once the recovered namespace is synchronized, if it must be. -/
def finishRecoveredDurability (control : ExecutionControl) (recovered : Bool)
    (durability : DurabilityProfile) : Engine DurabilityProfile :=
  if recovered && requiresRecoveredNamespaceSynchronization control then do
    let fact ← synchronizeRecoveredNamespace
    return { durability with activeNamespace := fact.status }
  else
    return durability

/-- The verdict of a recovery that was attempted. -/
def recoveredVerdict (interruption : ActiveInterruption)
    (recoveries : List RecoveryEffectResult) : RecoveryVerdict :=
  let recovered := allRecovered recoveries
  let exactly := allExact recoveries
  let uncertain := recoveries.any fun r => r.result.outcome == .indeterminate
  if recovered && exactly then .fullyRecovered
  else if interruption.indeterminate || uncertain || (recovered && !exactly) then .indeterminate
  else .partialEffects

/-- Recover an interruption that left something to undo. -/
def recoverChanged (interrupted : ActiveInterruptedApplication) (request : ApplicationRequest)
    (state : LeaseBoundStateProjection) : Engine ApplicationReceipt := do
  publishState .recovering
  let recoveries ← recoverCandidates interrupted.rejected.prepared
    (recoveryCandidates interrupted.effects) []
  let durability ← finishRecoveredDurability request.control (allRecovered recoveries)
    (recoveredDurability interrupted.durability recoveries)
  sealRecoveryReceipt interrupted request state
    (recoveredVerdict interrupted.interruption recoveries) durability recoveries
    (interrupted.evidence ∪ recoveryEvidence recoveries)

/-- The recovery phase. -/
def recoverInterrupted (interrupted : ActiveInterruptedApplication)
    (request : ApplicationRequest) (state : LeaseBoundStateProjection) :
    Engine ApplicationReceipt := do
  let h ← history
  validateBinding interrupted.rejected.prepared.journaled request state h
    [interrupted.interruption.journalState, .recovering]
    "recovery inputs differ from interrupted active execution"
  if (recoveryCandidates interrupted.effects).isEmpty then
    sealRecoveryReceipt interrupted request state (unchangedVerdict interrupted.interruption)
      interrupted.durability [] interrupted.evidence
  else if !recoverySelected request.control then
    sealRecoveryReceipt interrupted request state (unrecoveredVerdict interrupted.interruption)
      interrupted.durability [] interrupted.evidence
  else
    recoverChanged interrupted request state

end PkgApply
