import PkgApply.Engine.Mechanisms

/-!
# Preparation

Capturing old objects, staging incoming payloads and making both durable,
before any mutation.  A failure here seals a receipt that leaves the target
unchanged.
-/

namespace PkgApply

open Engine

/-! ## The journaled application -/

/-- What an engine process holds about the journaled attempt. -/
structure JournaledApplication where
  attempt : ApplicationAttempt
  observations : BackendObservationBatch
  payloads : Option IncomingPayloadPlan
  captures : List OldObjectCaptureRequest
  schedule : List EffectStep
  stateProjection : LeaseBoundStateProjection
deriving DecidableEq

namespace JournaledApplication

/-- Whether a non-empty payload closure is staged. -/
def hasPayloads (app : JournaledApplication) : Bool :=
  app.payloads.any fun p => p.selection.length != 0

/-- Scheduled steps of one kind, in order. -/
def stepsOf (app : JournaledApplication) (kind : EffectStepKind) : List EffectStep :=
  app.schedule.filter fun step => step.kind == kind

end JournaledApplication

/-- The inputs of a phase are those the journal was declared for. -/
def validateBinding (app : JournaledApplication) (request : ApplicationRequest)
    (state : LeaseBoundStateProjection) (h : JournalHistory) (expected : List JournalState)
    (message : String) : Except Exn Unit :=
  refuseIf (h.state ∉ expected ∨ h.header.request ≠ request.identity ∨
      h.header.plan ≠ request.plan.identity ∨ h.header.target ≠ request.target ∨
      h.header.control ≠ request.control.identity ∨ app.stateProjection ≠ state ∨
      h.header.attempt ≠ app.attempt)
    (.invalidArgument message)

/-! ## Captures -/

/-- What captures have established so far. -/
structure CapturePreparation where
  captures : List OldObjectCaptureResult
  durability : DurabilityStatus
  completed : Bool
  evidence : Evidence
deriving DecidableEq

/-- A capture that cannot restore exactly fails a control that requires it. -/
def captureSemanticOutcome (control : ExecutionControl) (request : OldObjectCaptureRequest)
    (captured : OldObjectCaptureResult) : BackendOperationOutcome :=
  if captured.outcome = .completed ∧ request.forRecovery ∧
      control.recovery = .exactPriorState ∧ !captured.exactRecoveryPossible then
    .failed
  else
    captured.outcome

/-- A captured object is the one admitted at the requested path. -/
def validateCaptured (observations : BackendObservationBatch)
    (request : OldObjectCaptureRequest) (captured : OldObjectCaptureResult) :
    Except Exn Unit := do
  let some observed := observations.find request.path
    | throw (.logicError "old-object capture lacks admitted observation")
  refuseIf (captured.captured.path ≠ request.path)
    (.logicError "backend captured another logical path")
  refuseIf (captured.outcome = .completed ∧ captured.captured ≠ observed)
    (.logicError "backend capture differs from the admitted live object")

/-- Capture one old object between its intent and its terminal event. -/
def captureOldObject (app : JournaledApplication) (control : ExecutionControl)
    (request : OldObjectCaptureRequest) : Engine OldObjectCaptureResult := do
  let h ← history
  let effect ← findEffect h.effects .captureOldObject (some request.path)
  publishEvent .preparing effect .intent
  let captured ← mechanism (.captureOld request)
  validateCaptured app.observations request captured
  let terminal ← terminalEvent (captureSemanticOutcome control request captured)
  publishEvent .preparing effect terminal captured.evidence (some (.capture captured))
  return captured

/-- Captures in request order, up to the first that does not complete. -/
def captureOldObjects (app : JournaledApplication) (control : ExecutionControl) :
    List OldObjectCaptureRequest → CapturePreparation → Engine CapturePreparation
  | [], acc => return acc
  | request :: rest, acc => do
    let captured ← captureOldObject app control request
    let durability :=
      if captured.outcome = .completed then DurabilityStatus.visible else .indeterminate
    let completed := captureSemanticOutcome control request captured == .completed
    let acc := ⟨acc.captures ++ [captured], durability, completed,
      acc.evidence ∪ captured.evidence⟩
    if completed then captureOldObjects app control rest acc else return acc

/-! ## Payload staging -/

def stageIntents : List PackagePath → Engine Unit
  | [] => return ()
  | path :: rest => do
    let h ← history
    let effect ← findEffect h.effects .stageIncomingPayload (some path)
    publishEvent .preparing effect .intent
    stageIntents rest

/-- Every staging effect retains the one result of the seal. -/
def stageTerminals (terminal : EventKind) (sealed : BackendOperationResult) :
    List PackagePath → Engine Unit
  | [] => return ()
  | path :: rest => do
    let h ← history
    let effect ← findEffect h.effects .stageIncomingPayload (some path)
    publishEvent .preparing effect terminal sealed.evidence (some (.payloadSeal sealed))
    stageTerminals terminal sealed rest

/-- Fill and seal one payload stage.  The stage is abandoned when sealing does
not complete, which claims nothing about the target. -/
def sealStage (payloads : IncomingPayloadPlan) : Engine BackendOperationResult := do
  mechanism (.beginPayloadStage payloads.selection)
  let stage ← mechanism .sealPayloadStage
  refuseIf ((stage.result.outcome == .completed) ≠ stage.sealed)
    (.logicError "payload stage seal state contradicts outcome")
  return stage.result

def stageIncomingPayloads (app : JournaledApplication) : Engine (Option BackendOperationResult) :=
  match app.payloads with
  | none => return none
  | some payloads =>
    if payloads.selection.length = 0 then
      return none
    else do
      let paths := (app.stepsOf .stageRegularPayload).map EffectStep.path
      stageIntents paths
      refuseIf (paths.length ≠ payloads.selection.length)
        (.logicError "payload journal effect closure mismatch")
      let sealed ← sealStage payloads
      let terminal ← terminalEvent sealed.outcome
      stageTerminals terminal sealed paths
      return some sealed

/-! ## Synchronization -/

def synchronizePreparationDomain (domain : DurabilityDomain) (kind : EffectKind) :
    Engine DurabilityFact :=
  synchronizeDomain .preparing kind domain "backend synchronized another durability domain"
    "backend synchronization returned not-attempted status"

def preparationDurability (journal incoming recovery : DurabilityStatus) : DurabilityProfile :=
  ⟨journal, incoming, recovery, .notAttempted, .notAttempted, .notAttempted⟩

/-! ## Failure -/

/-- Seal a failure before mutation. -/
def failPreparation (app : JournaledApplication) (request : ApplicationRequest)
    (state : LeaseBoundStateProjection) (incoming recovery : DurabilityStatus)
    (evidence : Evidence) : Engine ApplicationReceipt := do
  let h ← history
  let receipt ← ApplicationReceipt.failed request app.attempt state .failedBeforeTargetMutation
    .unchanged (preparationDurability .confirmed incoming recovery) [] (some h.header) evidence
  publishState .abandoned (some receipt)
  return receipt

/-! ## The prepared application -/

structure PreparedApplication where
  journaled : JournaledApplication
  captures : List OldObjectCaptureResult
  durability : DurabilityProfile
  evidence : Evidence
deriving DecidableEq

/-- What preparation must have made durable: confirmed exactly where there was
something to make durable. -/
def preparedDurability (app : JournaledApplication) (captures : List OldObjectCaptureResult) :
    DurabilityProfile :=
  preparationDurability .confirmed
    (if app.hasPayloads then .confirmed else .notAttempted)
    (if captures.isEmpty then .notAttempted else .confirmed)

/-- States in which preparation is behind the journal and no receipt exists. -/
def preparedStates : List JournalState :=
  [.prepared, .mutating, .effectsVisible, .resultObserved, .recoveryPending, .recovering]

namespace PreparedApplication

/-- The checks of the constructor, against the current journal state. -/
def make (state : JournalState) (prepared : PreparedApplication) :
    Except Exn PreparedApplication := do
  refuseIf (state ∉ preparedStates)
    (.invalidArgument "prepared application journal precedes or exceeds replay authority")
  refuseIf (prepared.captures.length ≠ prepared.journaled.captures.length)
    (.invalidArgument "prepared application capture closure mismatch")
  refuseIf (prepared.captures.any fun c => c.outcome != .completed)
    (.invalidArgument "prepared application contains an incomplete old-object capture")
  refuseIf (prepared.durability ≠ preparedDurability prepared.journaled prepared.captures)
    (.invalidArgument "prepared application has an invalid durability boundary")
  return prepared

end PreparedApplication

def finishPreparation (app : JournaledApplication) (captures : List OldObjectCaptureResult)
    (incoming recovery : DurabilityStatus) (evidence : Evidence) :
    Engine PreparedApplication := do
  publishState .prepared
  PreparedApplication.make .prepared
    ⟨app, captures, preparationDurability .confirmed incoming recovery, evidence⟩

/-- Synchronize a staged domain, if anything was staged in it. -/
def synchronizeStaged (staged : DurabilityStatus) (domain : DurabilityDomain)
    (kind : EffectKind) : Engine DurabilityStatus :=
  if staged = .notAttempted then return .notAttempted
  else DurabilityFact.status <$> synchronizePreparationDomain domain kind

/-- Whether a staged domain is durable enough to go on. -/
def stagedDurable (status : DurabilityStatus) : Bool :=
  status == .notAttempted || status == .confirmed

/-- Durability of staging after the seal of a payload stage, if there was one. -/
def stagingDurability : Option BackendOperationResult → DurabilityStatus
  | none => .notAttempted
  | some sealed => if sealed.outcome = .completed then .visible else .indeterminate

/-- The preparation phase: a prepared application or a sealed failure. -/
def prepareApplication (app : JournaledApplication) (request : ApplicationRequest)
    (state : LeaseBoundStateProjection) : Engine (ApplicationReceipt ⊕ PreparedApplication) := do
  let h ← history
  validateBinding app request state h [.preparing]
    "application preparation inputs differ from durable admission"
  let captures ← captureOldObjects app request.control app.captures
    ⟨[], .notAttempted, true, app.observations.evidence⟩
  if !captures.completed then
    return .inl (← failPreparation app request state .notAttempted captures.durability
      captures.evidence)
  else
  let sealed ← stageIncomingPayloads app
  let staged := stagingDurability sealed
  let evidence := captures.evidence ∪ (sealed.map BackendOperationResult.evidence).getD ∅
  if staged = .indeterminate then
    return .inl (← failPreparation app request state staged captures.durability evidence)
  else
  let incoming ← synchronizeStaged staged .incomingStaging .synchronizeIncomingStaging
  if !stagedDurable incoming then
    return .inl (← failPreparation app request state incoming captures.durability evidence)
  else
  let recovery ← synchronizeStaged captures.durability .recoveryStaging
    .synchronizeRecoveryStaging
  if !stagedDurable recovery then
    return .inl (← failPreparation app request state incoming recovery evidence)
  else
    return .inr (← finishPreparation app captures.captures incoming recovery evidence)

end PkgApply
