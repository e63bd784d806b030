import PkgApply.Restart.Backward

/-!
# Completion restart

Observing the result again, reconciling it with what the journal retains, and
sealing the receipt.
-/

namespace PkgApply

open Engine

/-! ## Observation -/

/-- Journal one verdict, unless the journal retains another for its path. -/
def restartVerdict (effect : JournalEffect) (terminal : EventKind) (evidence : Evidence) :
    Engine Bool := do
  let h ← history
  if (restartProgress h effect).terminal.any (· != terminal) then
    return true
  else do
    restartPublishIntent .effectsVisible effect
    restartPublishTerminal .effectsVisible effect terminal evidence
    return false

/-- A verdict that contradicts the journal counts as both failures. -/
def ObservedResult.contradict (r : ObservedResult) (contradicted : Bool) : ObservedResult :=
  { r with
    mismatch := r.mismatch || contradicted
    indeterminate := r.indeterminate || contradicted }

/-- Match every path again. -/
def resumeObservations (active : ActiveMutatedApplication) (image : Option PackageImage)
    (observations : BackendObservationBatch) :
    List PathDecision → ObservedResult → Engine ObservedResult
  | [], r => return r
  | d :: rest, r => do
    let (before, after) ← observedAt active.rejected.prepared.journaled observations d.path
    let found ← matchResultObservation active.effects d before after image
    let h ← history
    let effect ← findEffect h.effects .observeResult (some d.path)
    let contradicted ← restartVerdict effect (matchEvent found) observations.evidence
    let r ← (r.contradict contradicted).add active d before after found
    resumeObservations active image observations rest r

/-! ## Receipt -/

/-- Seal a receipt, unless the journal retains this very seal. -/
def restartSealTerminalReceipt (state : JournalState) (receipt : ApplicationReceipt)
    (evidence : Option CompletedEvidence := none) : Engine Unit := do
  let h ← history
  let effect ← findEffect h.effects .sealReceipt none
  let terminal := (restartProgress h effect).terminal
  refuseIf (terminal.any (· != .completed))
    (.logicError "restart receipt seal has a non-completed terminal event")
  refuseIf (h.receipt.any (· != receipt)) (.logicError "restart journal contains another receipt")
  refuseIf (h.completedEvidence.isSome ∧ h.completedEvidence ≠ evidence)
    (.logicError "restart journal contains another completed-evidence identity")
  refuseIf (h.receipt.isSome ∧ terminal.isNone)
    (.logicError "restart journal receipt lacks a completed seal")
  restartPublishIntent h.state effect
  if terminal.isNone then
    publishEvent state effect .completed ∅ none (some receipt) evidence
  else do
    refuseIf h.receipt.isNone (.logicError "completed restart seal lacks receipt authority")
    if h.state = state then return ()
    else publishState state (some receipt) evidence

/-- Seal a completion that failed after its effects are visible. -/
def restartCompletionFailure (active : ActiveMutatedApplication) (request : ApplicationRequest)
    (state : LeaseBoundStateProjection) (uncertain : Bool) (paths : List PathConsequence)
    (evidence : Evidence) : Engine ApplicationReceipt := do
  let h ← history
  let failure := completionFailure uncertain
  let receipt ← completionFailureReceipt active request state h.header failure paths evidence
  restartSealTerminalReceipt failure.state receipt
  return receipt

/-- Seal a completed application. -/
def restartCompleted (active : ActiveMutatedApplication) (completed : CompletedEvidence)
    (evidence : Evidence) : Engine ApplicationReceipt := do
  let receipt ← ApplicationReceipt.completed completed
    (completedRecovery active.rejected.prepared.captures) evidence
  restartSealTerminalReceipt .applicationCompleted receipt (some completed)
  return receipt

/-! ## Completed evidence -/

/-- The evidence to seal, and whether it must be published anew. -/
structure ResumedEvidence where
  completed : CompletedEvidence
  refresh : Bool
deriving DecidableEq

/-- Retained evidence is reused under its own projection and refreshed under
another; either way it must agree with the observations. -/
def resumeEvidence (request : ApplicationRequest) (attempt : ApplicationAttempt)
    (state : LeaseBoundStateProjection) (header : JournalHeader) (paths : List PathConsequence)
    (completed : CompletedEvidence) : Option CompletedEvidence → Except Exn ResumedEvidence
  | none => return ⟨completed, false⟩
  | some retained => do
    refuseIf (retained.kind ≠ request.plan.kind ∨ retained.request ≠ request.identity ∨
        retained.plan ≠ request.plan.identity ∨ retained.attempt ≠ attempt ∨
        retained.target ≠ request.target ∨ retained.control ≠ request.control.identity ∨
        retained.journal ≠ header)
      (.logicError "restart view completed evidence has another authority")
    let expected ← CompletedEvidence.make request retained.attempt retained.stateProjection
      retained.journal paths retained.durability retained.backendEvidence
    refuseIf (expected ≠ retained)
      (.logicError "restart view completed evidence contradicts observations")
    if retained.stateProjection = state then return ⟨retained, false⟩
    else return ⟨completed, true⟩

/-- A retained publication must have completed with the evidence at hand. -/
def validateRetainedPublication (view : RestartView) (e : ResumedEvidence) :
    Option EventKind → Except Exn Unit
  | none => return ()
  | some terminal =>
    refuseIf (terminal ≠ .completed ∨ view.completedEvidence.isNone ∨
        (!e.refresh ∧ view.completedEvidence ≠ some e.completed))
      (.logicError "restart completed-evidence restart view contradicts journal")

def validateRestartedPublication (completed : CompletedEvidence)
    (publication : CompletedEvidencePublicationResult) : Except Exn Unit :=
  refuseIf (publication.outcome = .completed ∧ publication.record ≠ some completed)
    (.logicError "restart backend published another completed-evidence record")

/-- Publish completed evidence under an effect without a terminal event. -/
def restartPublication (effect : JournalEffect) (completed : CompletedEvidence) :
    Engine CompletedEvidencePublicationResult := do
  restartPublishIntent .resultObserved effect
  let publication ← mechanism (.publishCompletedEvidence completed)
  validateRestartedPublication completed publication
  let terminal ← terminalEvent publication.outcome
  restartPublishTerminal .resultObserved effect terminal publication.evidence
    (if publication.outcome = .completed then some (.completedEvidence completed) else none)
  return publication

/-- Publish refreshed evidence; its effect has its terminal event already. -/
def refreshPublication (completed : CompletedEvidence) :
    Engine CompletedEvidencePublicationResult := do
  let publication ← mechanism (.publishCompletedEvidence completed)
  validateRestartedPublication completed publication
  return publication

/-- The publication of this process, if there is anything to publish. -/
def resumePublication (view : RestartView) (e : ResumedEvidence) :
    Engine (Option CompletedEvidencePublicationResult) := do
  let h ← history
  let effect ← findEffect h.effects .publishCompletedEvidence none
  let terminal := (restartProgress h effect).terminal
  validateRetainedPublication view e terminal
  if terminal.isNone then
    some <$> restartPublication effect e.completed
  else if e.refresh then
    some <$> refreshPublication e.completed
  else
    return none

/-- Synchronize refreshed evidence; its effect has its terminal event already. -/
def refreshSynchronization (effect : JournalEffect) : Engine DurabilityStatus := do
  let fact ← mechanism (.synchronize effect.kind .completedEvidence)
  refuseIf (fact.domain ≠ .completedEvidence)
    (.logicError "restart synchronized another completed-evidence domain")
  return fact.status

/-- Durability of the evidence, retained or established now. -/
def resumeEvidenceDurability (view : RestartView) (refresh : Bool) : Engine DurabilityStatus := do
  let h ← history
  let effect ← findEffect h.effects .synchronizeCompletedEvidence none
  if (restartProgress h effect).terminal.isNone then
    restartSynchronize .resultObserved effect .completedEvidence
      "restart synchronized another completed-evidence domain"
  else if refresh then
    refreshSynchronization effect
  else
    return view.durability.completedEvidence

/-! ## The phase -/

/-- Enter result observed, unless the journal has. -/
def resumeResultObserved : Engine Unit := do
  let h ← history
  if h.state = .resultObserved then return ()
  else publishState .resultObserved

/-- Publish and synchronize completed evidence as far as is left, then seal. -/
def resumeConclusion (active : ActiveMutatedApplication) (view : RestartView)
    (request : ApplicationRequest) (state : LeaseBoundStateProjection)
    (paths : List PathConsequence) (evidence : Evidence) : Engine ApplicationReceipt := do
  resumeResultObserved
  let h ← history
  let completed ← makeCompletedEvidence active request state h.header paths evidence
  let e ← resumeEvidence request active.rejected.prepared.journaled.attempt state h.header paths
    completed view.completedEvidence
  let publication ← resumePublication view e
  let evidence := evidence ∪
    (publication.map CompletedEvidencePublicationResult.evidence).getD ∅
  if publication.all fun p => p.outcome == .completed then
    let status ← resumeEvidenceDurability view e.refresh
    if status = .confirmed then
      restartCompleted active e.completed evidence
    else
      restartCompletionFailure active request state (status == .indeterminate) paths evidence
  else
    restartCompletionFailure active request state
      (publication.any fun p => p.outcome == .indeterminate) paths evidence

/-- The completion phase of a restart. -/
def resumeCompletion (active : ActiveMutatedApplication) (view : RestartView)
    (request : ApplicationRequest) (state : LeaseBoundStateProjection) :
    Engine (ApplicationReceipt ⊕ ActiveInterruptedApplication) := do
  let h ← history
  let app := active.rejected.prepared.journaled
  validateBinding app request state h [.effectsVisible, .resultObserved]
    "application completion inputs differ from active execution"
  validateCompletionImage app request.image
  let observations ← mechanism (.observe .result (resultPaths request.plan))
  let evidence := view.backendEvidence ∪ observations.evidence
  let observed ← resumeObservations active request.image observations request.plan.paths .empty
  if observed.allMatched then
    return .inl (← resumeConclusion active view request state observed.paths evidence)
  else
    return .inr (← interruptObservation active observed.indeterminate evidence)

end PkgApply
