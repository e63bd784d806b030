import PkgApply.Restart.Forward

/-!
# Recovery restart

Reconstructing why active execution was interrupted from what a journal
retains, and continuing the recovery it led to.
-/

namespace PkgApply

open Engine

/-! ## Reconstruction -/

/-- The active effects a journal retains, up to the first that interrupts. -/
def restartActiveEffects (h : JournalHistory) (view : RestartView) (plan : OperationPlan) :
    List EffectStep → List ActiveEffectResult →
      Except Exn (List ActiveEffectResult × Option ActiveInterruption)
  | [], effects => return (effects, none)
  | step :: rest, effects => do
    let effect ← findEffect h.effects .publishActiveObject (some step.path)
    match restartProgress h effect with
    | ⟨false, _⟩ => return (effects, none)
    | ⟨true, none⟩ =>
      let command ← activeEffectRequest plan step
      let applied ← ActiveEffectResult.make command ⟨.indeterminate, ∅⟩
      return (effects ++ [applied], some .effectIndeterminate)
    | ⟨true, some _⟩ =>
      let command ← activeEffectRequest plan step
      match view.findActiveEffect step.path with
      | none => throw (.logicError "terminal restart active effect lacks restart")
      | some result =>
        let applied ← ActiveEffectResult.make command result
        let effects := effects ++ [applied]
        match result.outcome with
        | .failed => return (effects, some .effectFailed)
        | .indeterminate => return (effects, some .effectIndeterminate)
        | .completed | .conditionalRetained => restartActiveEffects h view plan rest effects

/-- The one effect of a kind without a path, if the journal declares one. -/
def findOptionalEffect (effects : List JournalEffect) (kind : EffectKind) :
    Option JournalEffect :=
  match matchingEffects effects kind none with
  | [effect] => some effect
  | _ => none

/-- An active synchronization left without a completed terminal event. -/
def synchronizationInterruption (h : JournalHistory) : Option ActiveInterruption :=
  (findOptionalEffect h.effects .synchronizeActiveNamespace).bind fun effect =>
    match restartProgress h effect with
    | ⟨false, _⟩ => none
    | ⟨true, some .completed⟩ => none
    | ⟨true, none⟩ | ⟨true, some .indeterminate⟩ => some .durabilityIndeterminate
    | ⟨true, some _⟩ => some .durabilityUnconfirmed

/-- What one observation effect says about the result. -/
def observationInterruption (p : EffectProgress) : Option ActiveInterruption :=
  match p with
  | ⟨_, some .failed⟩ => some .resultObservationMismatch
  | ⟨_, some .indeterminate⟩ | ⟨true, none⟩ => some .resultObservationIndeterminate
  | _ => none

/-- The first observation effect that interrupts, in declaration order. -/
def observationInterruptionOf (h : JournalHistory) : Option ActiveInterruption :=
  (h.effects.filter fun e => e.kind == .observeResult).findSome? fun e =>
    observationInterruption (restartProgress h e)

/-- The active durability a reconstructed interruption is given. -/
def restartActiveDurability (view : RestartView) : ActiveInterruption → DurabilityStatus
  | .effectFailed | .resultObservationMismatch => view.durability.activeNamespace
  | .durabilityUnconfirmed => .unconfirmed
  | .effectIndeterminate | .durabilityIndeterminate | .resultObservationIndeterminate =>
    .indeterminate

/-- Journal an interruption's state, unless recovery has begun. -/
def restartInterruptedState (interruption : ActiveInterruption) : Engine Unit := do
  let h ← history
  if h.state = .recovering then return ()
  else publishState interruption.journalState

/-- The interruption a journal records. -/
def restartInterruption (rejected : RejectedPublishedApplication) (view : RestartView)
    (request : ApplicationRequest) : Engine ActiveInterruptedApplication := do
  let h ← history
  let (effects, found) ← restartActiveEffects h view request.plan
    (rejected.prepared.journaled.stepsOf .publishActiveObject) []
  match (found <|> synchronizationInterruption h) <|> observationInterruptionOf h with
  | none => Engine.throw (.logicError "recovery restart lacks an interrupted effect")
  | some interruption => do
    restartInterruptedState interruption
    let h ← history
    ActiveInterruptedApplication.make h.state
      ⟨rejected, effects, interruption,
        { rejected.durability with
          activeNamespace := restartActiveDurability view interruption },
        view.backendEvidence⟩

/-! ## Continuation -/

/-- One recovery: retained, indeterminate, or executed now. -/
def resumeRecoverPath (prepared : PreparedApplication) (view : RestartView)
    (path : PackagePath) : Engine RecoveryEffectResult := do
  let exact_ ← exactRecoveryPossible prepared path
  let h ← history
  let effect ← findEffect h.effects .recoverActiveObject (some path)
  match restartProgress h effect with
  | ⟨_, some _⟩ =>
    match view.findRecoveryEffect path with
    | none => Engine.throw (.logicError "terminal recovery lacks restart-view result")
    | some result => return ⟨path, result, exact_⟩
  | ⟨true, none⟩ => return ⟨path, ⟨.indeterminate, ∅⟩, exact_⟩
  | ⟨false, none⟩ => do
    restartPublishIntent .recovering effect
    let result ← mechanism (.recover path)
    let terminal ← terminalEvent result.outcome
    restartPublishTerminal .recovering effect terminal result.evidence
      (some (.recoveryEffect path result))
    return ⟨path, result, exact_⟩

def resumeRecoverCandidates (prepared : PreparedApplication) (view : RestartView) :
    List ActiveEffectResult → List RecoveryEffectResult → Engine (List RecoveryEffectResult)
  | [], recoveries => return recoveries
  | candidate :: rest, recoveries => do
    let recovery ← resumeRecoverPath prepared view candidate.request.path
    let recoveries := recoveries ++ [recovery]
    if recovery.result.outcome = .completed then
      resumeRecoverCandidates prepared view rest recoveries
    else return recoveries

/-- The status of the recovered namespace, retained or established now. -/
def resumeRecoveredNamespace (view : RestartView) : Engine DurabilityStatus := do
  let h ← history
  let effect ← findEffect h.effects .synchronizeRecoveredNamespace none
  match restartProgress h effect with
  | ⟨_, some _⟩ => return view.durability.activeNamespace
  | ⟨true, none⟩ => return .indeterminate
  | ⟨false, none⟩ =>
    restartSynchronize .recovering effect .activeNamespace
      "restart synchronized another recovery domain"

/-- The status of the recovered namespace, where it must be synchronized. -/
def resumeRecoveredStatus (view : RestartView) (control : ExecutionControl) (recovered : Bool) :
    Engine (Option DurabilityStatus) :=
  if recovered && requiresRecoveredNamespaceSynchronization control then
    some <$> resumeRecoveredNamespace view
  else
    return none

/-- Any attempted recovery leaves the active namespace visible. -/
def resumedDurability (durability : DurabilityProfile)
    (recoveries : List RecoveryEffectResult) : DurabilityProfile :=
  if recoveries.isEmpty then durability else { durability with activeNamespace := .visible }

/-- The verdict of a resumed recovery, which counts its synchronization. -/
def resumedVerdict (interruption : ActiveInterruption) (recoveries : List RecoveryEffectResult)
    (synchronized : Option DurabilityStatus) : RecoveryVerdict :=
  let recovered := allRecovered recoveries && synchronized.all (· == .confirmed)
  let exactly := allExact recoveries
  let uncertain := interruption.indeterminate ||
    (recoveries.any fun r => r.result.outcome == .indeterminate) ||
    synchronized == some .indeterminate
  if recovered && exactly then .fullyRecovered
  else if uncertain || (recovered && !exactly) then .indeterminate
  else .partialEffects

/-- Enter recovery, unless the journal has. -/
def resumeRecovering : Engine Unit := do
  let h ← history
  if h.state = .recovering then return ()
  else publishState .recovering

/-- Recover what is left to undo. -/
def resumeChanged (interrupted : ActiveInterruptedApplication) (view : RestartView)
    (request : ApplicationRequest) (state : LeaseBoundStateProjection) :
    Engine ApplicationReceipt := do
  resumeRecovering
  let recoveries ← resumeRecoverCandidates interrupted.rejected.prepared view
    (recoveryCandidates interrupted.effects) []
  let synchronized ← resumeRecoveredStatus view request.control (allRecovered recoveries)
  let durability := resumedDurability interrupted.durability recoveries
  sealRecoveryReceipt interrupted request state
    (resumedVerdict interrupted.interruption recoveries synchronized)
    { durability with activeNamespace := synchronized.getD durability.activeNamespace }
    recoveries (view.backendEvidence ∪ recoveryEvidence recoveries)

/-- The recovery phase of a restart. -/
def resumeRecovery (interrupted : ActiveInterruptedApplication) (view : RestartView)
    (request : ApplicationRequest) (state : LeaseBoundStateProjection) :
    Engine ApplicationReceipt := do
  let h ← history
  validateBinding interrupted.rejected.prepared.journaled request state h
    [interrupted.interruption.journalState, .recovering]
    "recovery inputs differ from interrupted active execution"
  if !recoverySelected request.control || (recoveryCandidates interrupted.effects).isEmpty then
    recoverInterrupted interrupted request state
  else
    resumeChanged interrupted view request state

end PkgApply
