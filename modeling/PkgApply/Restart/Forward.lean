import PkgApply.Engine.Recovery
import PkgApply.Restart.View

/-!
# Forward restart

Preparation, rejected publication and active mutation continued from what a
journal retains.  An effect with a terminal event is taken from the view; one
with only an intent is indeterminate wherever repeating it could change the
target; only an untouched effect is executed.
-/

namespace PkgApply

open Engine

/-! ## Progress -/

/-- What the journal says about one effect. -/
def restartProgress (h : JournalHistory) (effect : JournalEffect) : EffectProgress :=
  eventsProgress h.events effect

/-- Journal an intent unless it is retained. -/
def restartPublishIntent (state : JournalState) (effect : JournalEffect) : Engine Unit := do
  let h ← history
  if (restartProgress h effect).intended then return ()
  else publishEvent state effect .intent

/-- Journal a terminal event unless one is retained. -/
def restartPublishTerminal (state : JournalState) (effect : JournalEffect) (terminal : EventKind)
    (evidence : Evidence := ∅) (replayFact : Option ReplayFact := none) : Engine Unit := do
  let h ← history
  if (restartProgress h effect).terminal.isSome then return ()
  else publishEvent state effect terminal evidence replayFact

def unattemptedSynchronization : Exn :=
  .logicError "backend synchronization returned not-attempted status"

/-- Synchronize one domain under an effect that has no terminal event. -/
def restartSynchronize (state : JournalState) (effect : JournalEffect)
    (domain : DurabilityDomain) (mismatch : String) : Engine DurabilityStatus := do
  restartPublishIntent state effect
  let fact ← mechanism (.synchronize effect.kind domain)
  refuseIf (fact.domain ≠ domain) (.logicError mismatch)
  let terminal ← synchronizationEvent unattemptedSynchronization fact.status
  restartPublishTerminal state effect terminal ∅ (some (.synchronization fact))
  return fact.status

/-! ## Preparation -/

def restartCaptureTerminal (control : ExecutionControl) (request : OldObjectCaptureRequest)
    (captured : OldObjectCaptureResult) : Except Exn EventKind :=
  if captured.outcome = .conditionalRetained then
    .error (.logicError "restart capture has a conditional outcome")
  else
    terminalEvent (captureSemanticOutcome control request captured)

/-- The status retained for one domain, if any. -/
def restartDomainStatus (view : RestartView) (domain : DurabilityDomain)
    (fallback : DurabilityStatus) : DurabilityStatus :=
  ((view.findSynchronization domain).map DurabilityFact.status).getD fallback

/-- The durability a failure leaves in a staging domain. -/
def unstagedDurability (indeterminate : Bool) : DurabilityStatus :=
  if indeterminate then .indeterminate else .unconfirmed

/-- The completed captures a prepared journal must retain. -/
def retainedCaptures (view : RestartView) :
    List OldObjectCaptureRequest → Except Exn (List OldObjectCaptureResult)
  | [] => return []
  | request :: rest => do
    let some captured := view.findCapture request.path
      | throw (.logicError "resumable prepared journal lacks a completed capture")
    refuseIf (captured.outcome ≠ .completed)
      (.logicError "resumable prepared journal lacks a completed capture")
    let captures ← retainedCaptures view rest
    return captured :: captures

/-- A journal past preparation retains everything preparation established. -/
def resumePrepared (app : JournaledApplication) (view : RestartView) :
    Engine PreparedApplication := do
  let h ← history
  let captures ← retainedCaptures view app.captures
  refuseIf (app.hasPayloads ∧ !(view.incomingPayload.any fun r => r.outcome == .completed))
    (.logicError "resumable prepared journal lacks completed incoming staging")
  PreparedApplication.make h.state
    ⟨app, captures,
      preparationDurability .confirmed (if app.hasPayloads then .confirmed else .notAttempted)
        (if app.captures.isEmpty then .notAttempted else .confirmed),
      view.backendEvidence⟩

/-- Captures so far, or the durability of the one that failed. -/
structure ResumedCaptures where
  captures : List OldObjectCaptureResult
  evidence : Evidence
  failure : Option DurabilityStatus
deriving DecidableEq

/-- One capture, and how it failed if it did. -/
def resumeCapture (view : RestartView) (control : ExecutionControl)
    (request : OldObjectCaptureRequest) :
    Engine (OldObjectCaptureResult × Option DurabilityStatus) := do
  let h ← history
  let effect ← findEffect h.effects .captureOldObject (some request.path)
  match (restartProgress h effect).terminal with
  | some terminal =>
    match view.findCapture request.path with
    | none => Engine.throw (.logicError "terminal restart capture lacks restart-view fact")
    | some captured =>
      return (captured,
        if terminal = .completed then none
        else some (unstagedDurability (terminal == .indeterminate)))
  | none => do
    restartPublishIntent .preparing effect
    let captured ← mechanism (.captureOld request)
    let terminal ← restartCaptureTerminal control request captured
    restartPublishTerminal .preparing effect terminal captured.evidence (some (.capture captured))
    return (captured,
      if terminal = .completed then none
      else some (unstagedDurability (captured.outcome == .indeterminate)))

def resumeCaptures (view : RestartView) (control : ExecutionControl) :
    List OldObjectCaptureRequest → ResumedCaptures → Engine ResumedCaptures
  | [], acc => return acc
  | request :: rest, acc => do
    let (captured, failure) ← resumeCapture view control request
    let evidence := acc.evidence ∪ captured.evidence
    match failure with
    | some status => return ⟨acc.captures, evidence, some status⟩
    | none => resumeCaptures view control rest ⟨acc.captures ++ [captured], evidence, none⟩

/-- Every staging effect of the journal. -/
def payloadEffects (h : JournalHistory) : List JournalEffect :=
  h.effects.filter fun e => e.kind == .stageIncomingPayload

def restartIntents (state : JournalState) : List JournalEffect → Engine Unit
  | [] => return ()
  | effect :: rest => do
    restartPublishIntent state effect
    restartIntents state rest

def restartStageTerminals (sealed : BackendOperationResult) : List JournalEffect → Engine Unit
  | [] => return ()
  | effect :: rest => do
    let terminal ← terminalEvent sealed.outcome
    restartPublishTerminal .preparing effect terminal sealed.evidence (some (.payloadSeal sealed))
    restartStageTerminals sealed rest

/-- Fill and seal a new payload stage. -/
def restageIncomingPayloads (payloads : IncomingPayloadPlan) (effects : List JournalEffect) :
    Engine BackendOperationResult := do
  restartIntents .preparing effects
  mechanism (.beginPayloadStage payloads.selection)
  let stage ← mechanism .sealPayloadStage
  restartStageTerminals stage.result effects
  return stage.result

/-- The durability and evidence staging leaves: visible when it completed. -/
def resumeStaging (app : JournaledApplication) (view : RestartView) :
    Engine (DurabilityStatus × Evidence) := do
  let h ← history
  match app.payloads with
  | none => return (.notAttempted, ∅)
  | some payloads =>
    if payloads.selection.length = 0 then
      return (.notAttempted, ∅)
    else
    let effects := payloadEffects h
    let terminals := effects.map fun e => (restartProgress h e).terminal
    if terminals.any fun t => t.any (· != .completed) then
      return (unstagedDurability (view.incomingPayload.any fun r => r.outcome == .indeterminate), ∅)
    else if terminals.all (· == some .completed) then
      match view.incomingPayload with
      | some sealed =>
        if sealed.outcome = .completed then return (.visible, sealed.evidence)
        else Engine.throw (.logicError "completed restart payload lacks restart-view fact")
      | none => Engine.throw (.logicError "completed restart payload lacks restart-view fact")
    else do
      let sealed ← restageIncomingPayloads payloads effects
      return (if sealed.outcome = .completed then .visible
        else unstagedDurability (sealed.outcome == .indeterminate), sealed.evidence)

/-- A retained terminal event as a durability status. -/
def retainedSynchronization (terminal : EventKind) : DurabilityStatus :=
  if terminal = .completed then .confirmed else unstagedDurability (terminal == .indeterminate)

/-- Synchronize a staged domain unless its terminal event is retained. -/
def resumeSynchronization (staged : DurabilityStatus) (domain : DurabilityDomain)
    (kind : EffectKind) : Engine DurabilityStatus :=
  if staged = .notAttempted then return .notAttempted
  else do
    let h ← history
    let effect ← findEffect h.effects kind none
    match (restartProgress h effect).terminal with
    | some terminal => return retainedSynchronization terminal
    | none =>
      restartSynchronize .preparing effect domain
        "restart synchronized another durability domain"

/-- Preconditions observed again by a restarted process. -/
def observePreconditions (plan : OperationPlan) : Engine PreconditionCheck := do
  let observations ← mechanism
    (.observe .preconditions (plan.preconditions.map PathPrecondition.path))
  PreconditionCheck.make plan.preconditions observations

/-- Preparation continued in state preparing, under preconditions that still
hold. -/
def resumePreparing (app : JournaledApplication) (view : RestartView)
    (request : ApplicationRequest) (state : LeaseBoundStateProjection) (evidence : Evidence) :
    Engine (ApplicationReceipt ⊕ PreparedApplication) := do
  let captures ← resumeCaptures view request.control app.captures ⟨[], evidence, none⟩
  match captures.failure with
  | some status =>
    return .inl (← failPreparation app request state .notAttempted status captures.evidence)
  | none =>
  let recovery : DurabilityStatus := if app.captures.isEmpty then .notAttempted else .visible
  let (staged, sealed) ← resumeStaging app view
  let evidence := captures.evidence ∪ sealed
  if staged ≠ .notAttempted ∧ staged ≠ .visible then
    return .inl (← failPreparation app request state staged recovery evidence)
  else
  let incoming ← resumeSynchronization staged .incomingStaging .synchronizeIncomingStaging
  if !stagedDurable incoming then
    return .inl (← failPreparation app request state incoming recovery evidence)
  else
  let recovery ← resumeSynchronization recovery .recoveryStaging .synchronizeRecoveryStaging
  if !stagedDurable recovery then
    return .inl (← failPreparation app request state incoming recovery evidence)
  else
    return .inr (← finishPreparation app captures.captures incoming recovery evidence)

/-- The preparation phase of a restart. -/
def resumePreparation (app : JournaledApplication) (view : RestartView)
    (request : ApplicationRequest) (state : LeaseBoundStateProjection) :
    Engine (ApplicationReceipt ⊕ PreparedApplication) := do
  let h ← history
  if h.state ≠ .preparing then
    return .inr (← resumePrepared app view)
  else
  let current ← observePreconditions request.plan
  let evidence := view.backendEvidence ∪ current.observations.evidence
  if !current.satisfied then
    return .inl (← failPreparation app request state
      (restartDomainStatus view .incomingStaging .notAttempted)
      (restartDomainStatus view .recoveryStaging .notAttempted) evidence)
  else
    resumePreparing app view request state evidence

/-! ## Rejected publication -/

/-- One rejected publication: retained, indeterminate, or executed now. -/
def resumeRejectedEffect (prepared : PreparedApplication) (view : RestartView)
    (plan : OperationPlan) (step : EffectStep) : Engine RejectedEffectResult := do
  let command ← rejectedEffectRequest plan step
  validateRejectedSource prepared command
  let h ← history
  let effect ← findEffect h.effects .publishRejectedObject (some step.path)
  match restartProgress h effect with
  | ⟨_, some _⟩ =>
    match view.findRejectedEffect step.path with
    | none => Engine.throw (.logicError "terminal rejected effect lacks restart-view result")
    | some result => return ⟨command, result⟩
  | ⟨true, none⟩ => return ⟨command, ⟨.indeterminate, none, ∅, by decide, by decide⟩⟩
  | ⟨false, none⟩ => do
    restartPublishIntent .mutating effect
    let result ← mechanism (.executeRejected command)
    let terminal ← terminalEvent result.outcome
    restartPublishTerminal .mutating effect terminal result.evidence
      (some (.rejectedEffect step.path result))
    return ⟨command, result⟩

def resumeRejected (prepared : PreparedApplication) (view : RestartView)
    (request : ApplicationRequest) (state : LeaseBoundStateProjection) :
    List EffectStep → List RejectedEffectResult →
      Engine (ApplicationReceipt ⊕ List RejectedEffectResult)
  | [], effects => return .inr effects
  | step :: rest, effects => do
    let effect ← resumeRejectedEffect prepared view request.plan step
    let effects := effects ++ [effect]
    if effect.result.outcome = .completed then
      resumeRejected prepared view request state rest effects
    else
      return .inl (← failRejectedEffect prepared request state effects effect.result.outcome
        (rejectedVisibility effects) (view.backendEvidence ∪ rejectedEvidence effects))

def resumeRejectedStore (view : RestartView) (control : ExecutionControl)
    (effects : List RejectedEffectResult) : Engine DurabilityStatus :=
  if !effects.isEmpty && requiresDomainSynchronization control then do
    let h ← history
    let effect ← findEffect h.effects .synchronizeRejectedStore none
    if (restartProgress h effect).terminal.isSome then
      return view.durability.rejectedObjectStore
    else
      restartSynchronize .mutating effect .rejectedObjectStore
        "restart synchronized another rejected-store domain"
  else
    return rejectedVisibility effects

/-- The rejected phase of a restart. -/
def resumeRejectedPublication (prepared : PreparedApplication) (view : RestartView)
    (request : ApplicationRequest) (state : LeaseBoundStateProjection) :
    Engine (ApplicationReceipt ⊕ RejectedPublishedApplication) := do
  let h ← history
  if h.state = .prepared then publishState .mutating
  match ← resumeRejected prepared view request state
      (prepared.journaled.stepsOf .publishRejectedObject) [] with
  | .inl receipt => return .inl receipt
  | .inr effects =>
    let status ← resumeRejectedStore view request.control effects
    let evidence := view.backendEvidence ∪ rejectedEvidence effects
    if rejectedDurable request.control effects status then do
      let h ← history
      let published ← RejectedPublishedApplication.make h.state
        ⟨prepared, effects, { prepared.durability with rejectedObjectStore := status }, evidence⟩
      return .inr published
    else
      return .inl (← failRejectedSynchronization prepared request state effects status evidence)

/-- The rejected phase of a restart, once its state is recorded. -/
def resumeRejectedMutating (prepared : PreparedApplication) (view : RestartView)
    (request : ApplicationRequest) (state : LeaseBoundStateProjection) :
    Engine (ApplicationReceipt ⊕ RejectedPublishedApplication) := do
  match ← resumeRejected prepared view request state
      (prepared.journaled.stepsOf .publishRejectedObject) [] with
  | .inl receipt => return .inl receipt
  | .inr effects =>
    let status ← resumeRejectedStore view request.control effects
    let evidence := view.backendEvidence ∪ rejectedEvidence effects
    if rejectedDurable request.control effects status then do
      let h ← history
      let published ← RejectedPublishedApplication.make h.state
        ⟨prepared, effects, { prepared.durability with rejectedObjectStore := status }, evidence⟩
      return .inr published
    else
      return .inl (← failRejectedSynchronization prepared request state effects status evidence)

/-! ## Active mutation -/

/-- One active effect: retained, indeterminate, or executed now. -/
def resumeActiveEffect (prepared : PreparedApplication) (view : RestartView)
    (plan : OperationPlan) (step : EffectStep) : Engine ActiveEffectResult := do
  let command ← activeEffectRequest plan step
  validateActiveSource prepared command
  let h ← history
  let effect ← findEffect h.effects .publishActiveObject (some step.path)
  match restartProgress h effect with
  | ⟨_, some _⟩ =>
    match view.findActiveEffect step.path with
    | none => Engine.throw (.logicError "terminal active effect lacks restart-view result")
    | some result => ActiveEffectResult.make command result
  | ⟨true, none⟩ => ActiveEffectResult.make command ⟨.indeterminate, ∅⟩
  | ⟨false, none⟩ => do
    restartPublishIntent .mutating effect
    let result ← mechanism (.executeActive command)
    let terminal ← activeTerminalEvent result.outcome
    restartPublishTerminal .mutating effect terminal result.evidence
      (some (.activeEffect step.path result))
    ActiveEffectResult.make command result

def resumeActiveEffects (rejected : RejectedPublishedApplication) (view : RestartView)
    (plan : OperationPlan) :
    List EffectStep → List ActiveEffectResult →
      Engine (ActiveInterruptedApplication ⊕ List ActiveEffectResult)
  | [], effects => return .inr effects
  | step :: rest, effects => do
    let effect ← resumeActiveEffect rejected.prepared view plan step
    let effects := effects ++ [effect]
    if effect.semanticallyComplete then
      resumeActiveEffects rejected view plan rest effects
    else
      return .inl (← interruptActiveEffect rejected effects effect.result.outcome
        (view.backendEvidence ∪ activeEvidence effects))

/-- The status of the active namespace, retained or established now. -/
def resumeActiveNamespace (view : RestartView) : Engine DurabilityStatus := do
  let h ← history
  let effect ← findEffect h.effects .synchronizeActiveNamespace none
  if (restartProgress h effect).terminal.isSome then
    return view.durability.activeNamespace
  else
    restartSynchronize .mutating effect .activeNamespace
      "restart synchronized another active domain"

/-- Journal that every active effect is visible, unless the result is
observed already. -/
def resumeVisible : Engine Unit := do
  let h ← history
  if h.state = .resultObserved then return ()
  else publishState .effectsVisible

def resumeComplete (rejected : RejectedPublishedApplication) (effects : List ActiveEffectResult)
    (active : DurabilityStatus) (evidence : Evidence) : Engine ActiveMutatedApplication := do
  resumeVisible
  let h ← history
  ActiveMutatedApplication.make h.state
    ⟨rejected, effects, { rejected.durability with activeNamespace := active }, evidence⟩

/-- The active phase of a restart.  Unlike the uninterrupted phase it reports
an unconfirmed synchronization with the status it was given. -/
def resumeActiveExecution (rejected : RejectedPublishedApplication) (view : RestartView)
    (request : ApplicationRequest) : Engine ActiveExecution := do
  match ← resumeActiveEffects rejected view request.plan
      (rejected.prepared.journaled.stepsOf .publishActiveObject) [] with
  | .inl interrupted => return .inl interrupted
  | .inr effects =>
    let evidence := view.backendEvidence ∪ activeEvidence effects
    if activeSynchronizationRequired request.control effects then do
      let status ← resumeActiveNamespace view
      if status = .confirmed then
        return .inr (← resumeComplete rejected effects .confirmed evidence)
      else
        return .inl (← interruptActiveExecution rejected effects
          (if status = .indeterminate then .durabilityIndeterminate else .durabilityUnconfirmed)
          status evidence)
    else
      return .inr (← resumeComplete rejected effects (activeVisibility effects) evidence)

end PkgApply
