import PkgApply.Engine.Preparation

/-!
# Rejected objects

Publishing every rejected object of the plan before the active namespace is
touched.
-/

namespace PkgApply

open Engine

/-- One rejected publication and its result. -/
structure RejectedEffectResult where
  request : BackendRejectedEffectRequest
  result : RejectedObjectPublicationResult
deriving DecidableEq

/-- The status a rejected publication leaves at its path. -/
def rejectedEffectStatus : BackendOperationOutcome → Except Exn EffectStatus
  | .completed => .ok .completed
  | .failed => .ok .failed
  | .indeterminate => .ok .indeterminate
  | .conditionalRetained =>
    .error (.logicError "rejected-object publication returned a conditional outcome")

/-! ## Commands -/

/-- The command of one rejected step, bound to its plan decision. -/
def rejectedEffectRequest (plan : OperationPlan) (step : EffectStep) :
    Except Exn BackendRejectedEffectRequest := do
  let some d := plan.decision step.path
    | throw (.logicError "rejected-object schedule path lacks a plan decision")
  let some object := d.rejectedObject
    | throw (.logicError "rejected-object schedule lacks structured plan provenance")
  let request := BackendRejectedEffectRequest.fromPlan object
  refuseIf (request.path ≠ d.path ∨ request.outcome ≠ d.rejected)
    (.logicError "rejected-object structured intent differs from path decision")
  refuseIf (request.incomingEntry ≠ d.incomingEntry ∨ step.incomingEntry ≠ d.incomingEntry)
    (.logicError "rejected-object schedule provenance binding mismatch")
  return request

/-- A rejected object is published only from what preparation secured. -/
def validateRejectedSource (prepared : PreparedApplication)
    (request : BackendRejectedEffectRequest) : Except Exn Unit :=
  match request.source with
  | .incoming entry =>
    match prepared.journaled.payloads with
    | none => .error (.logicError "incoming rejected object lacks prepared image authority")
    | some payloads =>
      refuseIf (!(payloads.requirements.find? fun r => r.path == request.path).any fun r =>
          r.requiredForRejected && r.imageEntry == entry)
        (.logicError "incoming rejected object differs from prepared payload authority")
  | .oldInstalled => do
    refuseIf (!(prepared.journaled.captures.find? fun c => c.path == request.path).any fun c =>
        c.forRejectedObject)
      (.logicError "old rejected object lacks rejected capture authority")
    refuseIf (!(prepared.captures.find? fun c => c.captured.path == request.path).any fun c =>
        c.outcome == .completed)
      (.logicError "old rejected object lacks completed capture evidence")

/-! ## Path consequences -/

def rejectedPathConsequence (d : PathDecision) (before : PathObservation)
    (result : RejectedObjectPublicationResult) : Except Exn PathConsequence := do
  let status ← rejectedEffectStatus result.outcome
  PathConsequence.make ⟨d.path, d.role, d.active, d.rejected, d.incomingEntry, d.ownership,
    .notAttempted, status, before, before, result.record, .ineligible⟩

def rejectedPathConsequencesOf (plan : OperationPlan) (observations : BackendObservationBatch) :
    List RejectedEffectResult → Except Exn (List PathConsequence)
  | [] => return []
  | effect :: rest => do
    let some d := plan.decision effect.request.path
      | throw (.logicError "rejected-object schedule path lacks a plan decision")
    let some before := observations.find effect.request.path
      | throw (.logicError "rejected-object result lacks admitted path observation")
    let c ← rejectedPathConsequence d before effect.result
    let cs ← rejectedPathConsequencesOf plan observations rest
    return c :: cs

/-- Records the publications returned. -/
def rejectedRecords (effects : List RejectedEffectResult) : List RejectedObjectRecordIdentity :=
  effects.filterMap fun e => e.result.record

def rejectedPathConsequences (prepared : PreparedApplication) (plan : OperationPlan)
    (effects : List RejectedEffectResult) : Except Exn (List PathConsequence) := do
  let paths ← rejectedPathConsequencesOf plan prepared.journaled.observations effects
  refuseIf (¬(rejectedRecords effects).Nodup)
    (.logicError "backend reused one rejected record for multiple path effects")
  return paths

/-! ## Failure -/

def requiresDomainSynchronization (control : ExecutionControl) : Bool :=
  control.durability == .allApplicationDomains

/-- The journal state a rejected failure ends in. -/
def rejectedFailureState (outcome : AttemptOutcome) (effects : List RejectedEffectResult) :
    JournalState :=
  if outcome = .indeterminate then .indeterminate
  else if outcome = .effectsVisibleDurabilityUnconfirmed ∨
      effects.any (fun e => e.result.outcome == .completed) then .effectsVisible
  else .abandoned

/-- Seal a failure of the rejected phase. -/
def failRejectedPublication (prepared : PreparedApplication) (request : ApplicationRequest)
    (state : LeaseBoundStateProjection) (effects : List RejectedEffectResult)
    (outcome : AttemptOutcome) (recovery : RecoveryState) (rejected : DurabilityStatus)
    (evidence : Evidence) : Engine ApplicationReceipt := do
  let paths ← rejectedPathConsequences prepared request.plan effects
  let h ← history
  let receipt ← ApplicationReceipt.failed request prepared.journaled.attempt state outcome
    recovery { prepared.durability with rejectedObjectStore := rejected } paths (some h.header)
    evidence
  publishState (rejectedFailureState outcome effects) (some receipt)
  return receipt

/-- Seal the failure of one publication. -/
def failRejectedEffect (prepared : PreparedApplication) (request : ApplicationRequest)
    (state : LeaseBoundStateProjection) (effects : List RejectedEffectResult)
    (outcome : BackendOperationOutcome) (rejected : DurabilityStatus) (evidence : Evidence) :
    Engine ApplicationReceipt :=
  if outcome = .indeterminate then
    failRejectedPublication prepared request state effects .indeterminate
      .requiresAuthoritativeObservation .indeterminate evidence
  else
    failRejectedPublication prepared request state effects .failedBeforeTargetMutation
      .unchanged rejected evidence

/-- Seal the failure of the rejected-store synchronization. -/
def failRejectedSynchronization (prepared : PreparedApplication) (request : ApplicationRequest)
    (state : LeaseBoundStateProjection) (effects : List RejectedEffectResult)
    (status : DurabilityStatus) (evidence : Evidence) : Engine ApplicationReceipt :=
  if status = .indeterminate then
    failRejectedPublication prepared request state effects .indeterminate
      .requiresAuthoritativeObservation status evidence
  else
    failRejectedPublication prepared request state effects .effectsVisibleDurabilityUnconfirmed
      .recoveryAssetsRetained status evidence

/-! ## The published application -/

structure RejectedPublishedApplication where
  prepared : PreparedApplication
  effects : List RejectedEffectResult
  durability : DurabilityProfile
  evidence : Evidence
deriving DecidableEq

/-- States in which rejected publication is behind the journal. -/
def rejectedPublishedStates : List JournalState :=
  [.mutating, .effectsVisible, .resultObserved, .recoveryPending, .recovering]

/-- Rejected-store durability a published application may have. -/
def rejectedDurabilityAdmissible (effects : List RejectedEffectResult)
    (status : DurabilityStatus) : Bool :=
  if effects.isEmpty then status == .notAttempted
  else status == .visible || status == .confirmed

namespace RejectedPublishedApplication

/-- The checks of the constructor, against the current journal state. -/
def make (state : JournalState) (r : RejectedPublishedApplication) :
    Except Exn RejectedPublishedApplication := do
  let expected := r.prepared.journaled.stepsOf .publishRejectedObject
  refuseIf (state ∉ rejectedPublishedStates)
    (.invalidArgument "rejected-published journal lacks replay mutation authority")
  refuseIf (r.effects.length ≠ expected.length)
    (.invalidArgument "rejected-published application effect closure mismatch")
  refuseIf (r.effects.map (fun e => (e.request.path, e.request.incomingEntry)) ≠
      expected.map fun s => (s.path, s.incomingEntry))
    (.invalidArgument "rejected-published application effect order or source mismatch")
  refuseIf (r.effects.any fun e => e.result.outcome != .completed || e.result.record.isNone)
    (.invalidArgument "rejected-published application contains an incomplete effect")
  refuseIf (¬(rejectedRecords r.effects).Nodup)
    (.invalidArgument "rejected-published application reused a rejected record")
  refuseIf (!rejectedDurabilityAdmissible r.effects r.durability.rejectedObjectStore ∨
      r.durability.journal ≠ r.prepared.durability.journal ∨
      r.durability.incomingStaging ≠ r.prepared.durability.incomingStaging ∨
      r.durability.recoveryStaging ≠ r.prepared.durability.recoveryStaging ∨
      r.durability.activeNamespace ≠ .notAttempted ∨
      r.durability.completedEvidence ≠ .notAttempted)
    (.invalidArgument "rejected-published application has an invalid durability boundary")
  return r

end RejectedPublishedApplication

/-! ## The phase -/

/-- Publish one rejected object between its intent and its terminal event. -/
def executeRejectedEffect (prepared : PreparedApplication) (plan : OperationPlan)
    (step : EffectStep) : Engine RejectedEffectResult := do
  let command ← rejectedEffectRequest plan step
  validateRejectedSource prepared command
  let h ← history
  let effect ← findEffect h.effects .publishRejectedObject (some step.path)
  publishEvent .mutating effect .intent
  let result ← mechanism (.executeRejected command)
  let terminal ← terminalEvent result.outcome
  publishEvent .mutating effect terminal result.evidence
    (some (.rejectedEffect step.path result))
  return ⟨command, result⟩

/-- Evidence of a list of rejected publications. -/
def rejectedEvidence (effects : List RejectedEffectResult) : Evidence :=
  effects.foldr (fun e evidence => e.result.evidence ∪ evidence) ∅

/-- Durability the completed publications leave before synchronization. -/
def rejectedVisibility (effects : List RejectedEffectResult) : DurabilityStatus :=
  if effects.any (fun e => e.result.outcome == .completed) then .visible else .notAttempted

/-- Publications in schedule order.  The first that does not complete ends the
phase with a sealed failure. -/
def executeRejected (prepared : PreparedApplication) (request : ApplicationRequest)
    (state : LeaseBoundStateProjection) :
    List EffectStep → List RejectedEffectResult →
      Engine (ApplicationReceipt ⊕ List RejectedEffectResult)
  | [], effects => return .inr effects
  | step :: rest, effects => do
    let effect ← executeRejectedEffect prepared request.plan step
    let effects := effects ++ [effect]
    if effect.result.outcome = .completed then
      executeRejected prepared request state rest effects
    else
      return .inl (← failRejectedEffect prepared request state effects effect.result.outcome
        (rejectedVisibility effects) (prepared.evidence ∪ rejectedEvidence effects))

/-- The rejected store is synchronized only when something was published and
the control asks for every domain. -/
def synchronizeRejectedStore (control : ExecutionControl)
    (effects : List RejectedEffectResult) : Engine DurabilityStatus :=
  if !effects.isEmpty && requiresDomainSynchronization control then
    DurabilityFact.status <$> synchronizeDomain .mutating .synchronizeRejectedStore
      .rejectedObjectStore "backend synchronized another rejected-object durability domain"
      "backend reported an unattempted rejected-store synchronization"
  else
    return rejectedVisibility effects

/-- Whether rejected durability lets the application go on. -/
def rejectedDurable (control : ExecutionControl) (effects : List RejectedEffectResult)
    (status : DurabilityStatus) : Bool :=
  !(!effects.isEmpty && requiresDomainSynchronization control) || status == .confirmed

/-- The rejected phase: a published application or a sealed failure. -/
def publishRejected (prepared : PreparedApplication) (request : ApplicationRequest)
    (state : LeaseBoundStateProjection) :
    Engine (ApplicationReceipt ⊕ RejectedPublishedApplication) := do
  let h ← history
  validateBinding prepared.journaled request state h [.prepared]
    "rejected-object publication inputs differ from preparation"
  publishState .mutating
  match ← executeRejected prepared request state
      (prepared.journaled.stepsOf .publishRejectedObject) [] with
  | .inl receipt => return .inl receipt
  | .inr effects =>
    let status ← synchronizeRejectedStore request.control effects
    let evidence := prepared.evidence ∪ rejectedEvidence effects
    if rejectedDurable request.control effects status then do
      let h ← history
      let published ← RejectedPublishedApplication.make h.state
        ⟨prepared, effects, { prepared.durability with rejectedObjectStore := status }, evidence⟩
      return .inr published
    else
      return .inl (← failRejectedSynchronization prepared request state effects status evidence)

end PkgApply
