import PkgApply.Engine.Rejected

/-!
# Active mutation

Executing every active effect of the schedule in order, and what an
interruption of that order leaves.
-/

namespace PkgApply

open Engine

/-- One active effect and its result. -/
structure ActiveEffectResult where
  request : BackendActiveEffectRequest
  result : BackendOperationResult
deriving DecidableEq

namespace ActiveEffectResult

/-- Only directory cleanup may be retained conditionally. -/
def make (request : BackendActiveEffectRequest) (result : BackendOperationResult) :
    Except Exn ActiveEffectResult := do
  refuseIf (result.outcome = .conditionalRetained ∧ request.outcome ≠ .removeDirectoryIfEmpty)
    (.invalidArgument "conditional active retention requires directory cleanup")
  return ⟨request, result⟩

/-- Whether the effect is known to have changed the target. -/
def changedTarget (e : ActiveEffectResult) : Bool :=
  e.result.outcome == .completed && activeMechanismRequired e.request.outcome

/-- Whether the effect ended as the plan allows. -/
def semanticallyComplete (e : ActiveEffectResult) : Bool :=
  e.result.outcome == .completed || e.result.outcome == .conditionalRetained

end ActiveEffectResult

/-! ## Commands -/

/-- The command of one active step, bound to its plan decision. -/
def activeEffectRequest (plan : OperationPlan) (step : EffectStep) :
    Except Exn BackendActiveEffectRequest := do
  let some d := plan.decision step.path
    | throw (.logicError "active schedule path lacks a plan decision")
  match d.active with
  | .activateIncoming =>
    refuseIf (d.incomingEntry.isNone ∨ step.incomingEntry ≠ d.incomingEntry)
      (.logicError "incoming active schedule binding mismatch")
    BackendActiveEffectRequest.make d.path d.active d.incomingEntry
  | .removeObserved | .removeDirectoryIfEmpty =>
    refuseIf (step.incomingEntry.isSome)
      (.logicError "destructive active effect gained incoming authority")
    BackendActiveEffectRequest.make d.path d.active none
  | .retainObserved | .remainAbsent =>
    throw (.logicError "active schedule cites a no-op plan path")

/-- An incoming object is activated only from what preparation secured. -/
def validateActiveSource (prepared : PreparedApplication)
    (request : BackendActiveEffectRequest) : Except Exn Unit :=
  if request.outcome ≠ .activateIncoming then
    refuseIf request.incomingEntry.isSome
      (.logicError "non-incoming active effect retained incoming authority")
  else
    match request.incomingEntry, prepared.journaled.payloads with
    | some entry, some payloads =>
      refuseIf (!(payloads.requirements.find? fun r => r.path == request.path).any fun r =>
          r.requiredForActive && r.imageEntry == entry)
        (.logicError "incoming active object differs from prepared payload authority")
    | _, _ => .error (.logicError "incoming active object lacks prepared payload authority")

/-- The terminal event of an active outcome; conditional retention completes. -/
def activeTerminalEvent : BackendOperationOutcome → Except Exn EventKind
  | .conditionalRetained => .ok .completed
  | outcome => terminalEvent outcome

/-! ## Results of the phase -/

/-- Results follow the schedule, completely or up to some point. -/
def validateActiveEffectPrefix (rejected : RejectedPublishedApplication)
    (effects : List ActiveEffectResult) (requireComplete : Bool) : Except Exn Unit := do
  let expected := rejected.prepared.journaled.stepsOf .publishActiveObject
  refuseIf ((requireComplete ∧ effects.length ≠ expected.length) ∨
      expected.length < effects.length)
    (.invalidArgument "active application effect closure mismatch")
  refuseIf (effects.map (fun e => (e.request.path, e.request.incomingEntry)) ≠
      (expected.take effects.length).map fun s => (s.path, s.incomingEntry))
    (.invalidArgument "active application effect order or source mismatch")

/-- Active mutation changes no earlier durability domain. -/
def validateActiveDurabilityBase (rejected : RejectedPublishedApplication)
    (durability : DurabilityProfile) : Except Exn Unit := do
  refuseIf ({ durability with activeNamespace := rejected.durability.activeNamespace } ≠
      rejected.durability)
    (.invalidArgument "active application changed an earlier durability domain")
  refuseIf (durability.completedEvidence ≠ .notAttempted)
    (.invalidArgument "active application invented completed-evidence durability")

structure ActiveMutatedApplication where
  rejected : RejectedPublishedApplication
  effects : List ActiveEffectResult
  durability : DurabilityProfile
  evidence : Evidence
deriving DecidableEq

/-- Active durability a completely mutated application may have. -/
def activeDurabilityAdmissible (effects : List ActiveEffectResult)
    (status : DurabilityStatus) : Bool :=
  if effects.any ActiveEffectResult.changedTarget then status == .visible || status == .confirmed
  else status == .notAttempted

namespace ActiveMutatedApplication

def make (state : JournalState) (a : ActiveMutatedApplication) :
    Except Exn ActiveMutatedApplication := do
  refuseIf (state ≠ .effectsVisible ∧ state ≠ .resultObserved)
    (.invalidArgument "active-mutated application journal is not forward completable")
  validateActiveEffectPrefix a.rejected a.effects true
  refuseIf (!a.effects.all ActiveEffectResult.semanticallyComplete)
    (.invalidArgument "active-mutated application contains an incomplete effect")
  validateActiveDurabilityBase a.rejected a.durability
  refuseIf (!activeDurabilityAdmissible a.effects a.durability.activeNamespace)
    (.invalidArgument "active-mutated application has an invalid durability boundary")
  return a

end ActiveMutatedApplication

/-- Why active execution or its observation did not reach completion. -/
inductive ActiveInterruption where
  | effectFailed
  | effectIndeterminate
  | durabilityUnconfirmed
  | durabilityIndeterminate
  | resultObservationMismatch
  | resultObservationIndeterminate
deriving DecidableEq, Repr

namespace ActiveInterruption

/-- Interruptions that leave the target's state unestablished. -/
def indeterminate : ActiveInterruption → Bool
  | effectIndeterminate | durabilityIndeterminate | resultObservationIndeterminate => true
  | _ => false

/-- Interruptions after every active effect. -/
def afterEffects : ActiveInterruption → Bool
  | effectFailed | effectIndeterminate => false
  | _ => true

/-- Active durability each interruption may come with. -/
def admitsDurability : ActiveInterruption → DurabilityStatus → Bool
  | effectFailed, s => s == .notAttempted || s == .visible
  | effectIndeterminate, s | durabilityIndeterminate, s => s == .indeterminate
  | durabilityUnconfirmed, s => s == .unconfirmed
  | resultObservationMismatch, s | resultObservationIndeterminate, s =>
    s == .notAttempted || s == .visible || s == .confirmed

/-- The message that refuses another durability. -/
def durabilityMessage : ActiveInterruption → String
  | effectFailed => "failed active effect has an invalid durability state"
  | effectIndeterminate | durabilityIndeterminate =>
    "indeterminate active execution lacks indeterminate durability"
  | durabilityUnconfirmed => "active durability failure lacks unconfirmed durability"
  | resultObservationMismatch | resultObservationIndeterminate =>
    "result observation interruption has invalid target durability"

end ActiveInterruption

structure ActiveInterruptedApplication where
  rejected : RejectedPublishedApplication
  effects : List ActiveEffectResult
  interruption : ActiveInterruption
  durability : DurabilityProfile
  evidence : Evidence
deriving DecidableEq

/-- How the last attempted effect must have ended. -/
def validateInterruptedEffects (interruption : ActiveInterruption)
    (effects : List ActiveEffectResult) : Except Exn Unit :=
  if interruption.afterEffects then
    refuseIf (!effects.all ActiveEffectResult.semanticallyComplete)
      (.invalidArgument "active durability interruption contains an incomplete effect")
  else
    match effects.getLast? with
    | none => .error (.invalidArgument "active effect interruption contains no attempted effect")
    | some last =>
      refuseIf (last.result.outcome ≠
          (if interruption = .effectFailed then .failed else .indeterminate))
        (.invalidArgument "active effect interruption contradicts its terminal outcome")

namespace ActiveInterruptedApplication

def make (state : JournalState) (a : ActiveInterruptedApplication) :
    Except Exn ActiveInterruptedApplication := do
  refuseIf (state ≠ .recovering ∧
      ((a.interruption.indeterminate ∧ state ≠ .indeterminate) ∨
        (!a.interruption.indeterminate ∧ state ≠ .recoveryPending)))
    (.invalidArgument "interrupted active application has the wrong journal state")
  validateActiveEffectPrefix a.rejected a.effects a.interruption.afterEffects
  validateInterruptedEffects a.interruption a.effects
  validateActiveDurabilityBase a.rejected a.durability
  refuseIf (!a.interruption.admitsDurability a.durability.activeNamespace)
    (.invalidArgument a.interruption.durabilityMessage)
  return a

end ActiveInterruptedApplication

/-! ## The phase -/

/-- Evidence of a list of active effects. -/
def activeEvidence (effects : List ActiveEffectResult) : Evidence :=
  effects.foldr (fun e evidence => e.result.evidence ∪ evidence) ∅

/-- Durability the effects leave before synchronization. -/
def activeVisibility (effects : List ActiveEffectResult) : DurabilityStatus :=
  if effects.any ActiveEffectResult.changedTarget then .visible else .notAttempted

/-- The two ways active execution ends without a receipt. -/
abbrev ActiveExecution := ActiveInterruptedApplication ⊕ ActiveMutatedApplication

/-- Journal an interruption of active execution. -/
def interruptActiveExecution (rejected : RejectedPublishedApplication)
    (effects : List ActiveEffectResult) (interruption : ActiveInterruption)
    (active : DurabilityStatus) (evidence : Evidence) : Engine ActiveInterruptedApplication := do
  let indeterminate := interruption == .effectIndeterminate ||
    interruption == .durabilityIndeterminate
  publishState (if indeterminate then .indeterminate else .recoveryPending)
  let h ← history
  ActiveInterruptedApplication.make h.state
    ⟨rejected, effects, interruption, { rejected.durability with activeNamespace := active },
      evidence⟩

/-- Execute one active effect between its intent and its terminal event. -/
def executeActiveEffect (prepared : PreparedApplication) (plan : OperationPlan)
    (step : EffectStep) : Engine ActiveEffectResult := do
  let command ← activeEffectRequest plan step
  validateActiveSource prepared command
  let h ← history
  let effect ← findEffect h.effects .publishActiveObject (some step.path)
  publishEvent .mutating effect .intent
  let result ← mechanism (.executeActive command)
  let applied ← ActiveEffectResult.make command result
  let terminal ← activeTerminalEvent result.outcome
  publishEvent .mutating effect terminal result.evidence (some (.activeEffect step.path result))
  return applied

/-- Journal the interruption of one effect that did not complete. -/
def interruptActiveEffect (rejected : RejectedPublishedApplication)
    (effects : List ActiveEffectResult) (outcome : BackendOperationOutcome)
    (evidence : Evidence) : Engine ActiveInterruptedApplication :=
  if outcome = .indeterminate then
    interruptActiveExecution rejected effects .effectIndeterminate .indeterminate evidence
  else
    interruptActiveExecution rejected effects .effectFailed (activeVisibility effects) evidence

/-- Effects in schedule order.  The first that does not complete interrupts. -/
def executeActiveEffects (rejected : RejectedPublishedApplication) (plan : OperationPlan) :
    List EffectStep → List ActiveEffectResult →
      Engine (ActiveInterruptedApplication ⊕ List ActiveEffectResult)
  | [], effects => return .inr effects
  | step :: rest, effects => do
    let effect ← executeActiveEffect rejected.prepared plan step
    let effects := effects ++ [effect]
    if effect.semanticallyComplete then
      executeActiveEffects rejected plan rest effects
    else
      return .inl (← interruptActiveEffect rejected effects effect.result.outcome
        (rejected.evidence ∪ activeEvidence effects))

/-- Whether the active namespace must be synchronized. -/
def activeSynchronizationRequired (control : ExecutionControl)
    (effects : List ActiveEffectResult) : Bool :=
  activeVisibility effects == .visible && requiresDomainSynchronization control

def synchronizeActiveNamespace : Engine DurabilityFact :=
  synchronizeDomain .mutating .synchronizeActiveNamespace .activeNamespace
    "backend synchronized another active-namespace durability domain"
    "backend reported an unattempted active-namespace synchronization"

/-- Journal the interruption of an unconfirmed synchronization. -/
def interruptActiveSynchronization (rejected : RejectedPublishedApplication)
    (effects : List ActiveEffectResult) (status : DurabilityStatus) (evidence : Evidence) :
    Engine ActiveInterruptedApplication :=
  if status = .indeterminate then
    interruptActiveExecution rejected effects .durabilityIndeterminate .indeterminate evidence
  else
    interruptActiveExecution rejected effects .durabilityUnconfirmed .unconfirmed evidence

/-- Journal that every active effect is visible. -/
def completeActiveExecution (rejected : RejectedPublishedApplication)
    (effects : List ActiveEffectResult) (active : DurabilityStatus) (evidence : Evidence) :
    Engine ActiveMutatedApplication := do
  publishState .effectsVisible
  let h ← history
  ActiveMutatedApplication.make h.state
    ⟨rejected, effects, { rejected.durability with activeNamespace := active }, evidence⟩

/-- The active phase. -/
def executeActive (rejected : RejectedPublishedApplication) (request : ApplicationRequest)
    (state : LeaseBoundStateProjection) : Engine ActiveExecution := do
  let h ← history
  validateBinding rejected.prepared.journaled request state h [.mutating]
    "active execution inputs differ from rejected publication"
  match ← executeActiveEffects rejected request.plan
      (rejected.prepared.journaled.stepsOf .publishActiveObject) [] with
  | .inl interrupted => return .inl interrupted
  | .inr effects =>
    let evidence := rejected.evidence ∪ activeEvidence effects
    if activeSynchronizationRequired request.control effects then do
      let fact ← synchronizeActiveNamespace
      if fact.status = .confirmed then
        return .inr (← completeActiveExecution rejected effects .confirmed evidence)
      else
        return .inl (← interruptActiveSynchronization rejected effects fact.status evidence)
    else
      return .inr (← completeActiveExecution rejected effects (activeVisibility effects) evidence)

end PkgApply
