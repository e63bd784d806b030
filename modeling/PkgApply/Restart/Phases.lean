import PkgApply.Engine.Phases
import PkgApply.Engine.Runs

/-!
# The phases of a run

Restarts keep to the phases as well, so no receipt-free journal of a run is
abandoned, and the only one a restart refuses is that of an interruption that
has been journaled as indeterminate.
-/

namespace PkgApply

open Library

section Rules

variable {scope : Scope}

/-- An intent of a restart is journaled in the home state of its effect. -/
theorem within_restartPublishIntent {state : JournalState} {effect : JournalEffect}
    (h : effect.kind.home = some state) (hs : scope.homes state) :
    (restartPublishIntent state effect).Orderly (within scope) := by
  refine Process.orderly_read_bind fun v _ => ?_
  split
  · exact Process.orderly_pure _
  · exact within_event h hs _ _ _

theorem within_restartPublishTerminal {state : JournalState} {effect : JournalEffect}
    (h : effect.kind.home = some state) (hs : scope.homes state) (terminal : EventKind)
    (evidence : Evidence) (fact : Option ReplayFact) :
    (restartPublishTerminal state effect terminal evidence fact).Orderly (within scope) := by
  refine Process.orderly_read_bind fun v _ => ?_
  split
  · exact Process.orderly_pure _
  · exact within_event h hs _ _ _

/-- A synchronization stays in one state from its intent to its terminal event. -/
theorem within_restartSynchronize {state : JournalState} {effect : JournalEffect}
    (h : effect.kind.home = some state) (hs : scope.homes state) (domain : DurabilityDomain)
    (mismatch : String) :
    (restartSynchronize state effect domain mismatch).Orderly (within scope) := by
  refine (within_restartPublishIntent h hs).bind fun _ => ?_
  refine (within_mechanism _).bind fun fact => ?_
  refine Process.orderly_ofExcept_bind fun _ _ => ?_
  refine Process.orderly_ofExcept_bind fun terminal _ => ?_
  exact (within_restartPublishTerminal h hs _ _ _).bind fun _ => Process.orderly_pure _

/-- An interruption is not journaled as abandoned. -/
theorem ActiveInterruption.journalState_ne_abandoned (interruption : ActiveInterruption) :
    interruption.journalState ≠ .abandoned := by
  unfold ActiveInterruption.journalState
  split <;> decide

end Rules

/-! ## Preparation -/

section Preparation

variable {scope : Scope} {app : JournaledApplication} {view : RestartView}
  {request : ApplicationRequest} {state : LeaseBoundStateProjection}

theorem within_resumePrepared : (resumePrepared app view).Orderly (within scope) := by
  refine Process.orderly_read_bind fun v _ => ?_
  refine Process.orderly_ofExcept_bind fun captures _ => ?_
  refine Process.orderly_ofExcept_bind fun _ _ => ?_
  exact Process.orderly_ofExcept _

/-- A capture whose terminal event is retained journals nothing. -/
theorem within_resumeCapture (hp : scope.homes .preparing) (control : ExecutionControl)
    (capture : OldObjectCaptureRequest) :
    (resumeCapture view control capture).Orderly (within scope) := by
  refine Process.orderly_read_bind fun v _ => ?_
  refine Process.orderly_ofExcept_bind fun effect heffect => ?_
  have hhome : effect.kind.home = some .preparing := home_of_findEffect heffect rfl
  split
  · split
    · exact Process.orderly_throw _
    · exact Process.orderly_pure _
  · refine (within_restartPublishIntent hhome hp).bind fun _ => ?_
    refine (within_mechanism _).bind fun captured => ?_
    refine Process.orderly_ofExcept_bind fun terminal _ => ?_
    exact (within_restartPublishTerminal hhome hp _ _ _).bind fun _ => Process.orderly_pure _

/-- Captures go on up to the first that fails. -/
theorem within_resumeCaptures (hp : scope.homes .preparing) (control : ExecutionControl)
    (requests : List OldObjectCaptureRequest) (acc : ResumedCaptures) :
    (resumeCaptures view control requests acc).Orderly (within scope) := by
  induction requests generalizing acc with
  | nil => exact Process.orderly_pure _
  | cons capture rest ih =>
    refine (within_resumeCapture hp control capture).bind fun result => ?_
    obtain ⟨captured, failure⟩ := result
    cases failure with
    | some status => exact Process.orderly_pure _
    | none => exact ih _

theorem within_restartIntents (hp : scope.homes .preparing) {effects : List JournalEffect}
    (heffects : ∀ e ∈ effects, e.kind = .stageIncomingPayload) :
    (restartIntents .preparing effects).Orderly (within scope) := by
  induction effects with
  | nil => exact Process.orderly_pure _
  | cons effect rest ih =>
    have hhome : effect.kind.home = some .preparing := by
      rw [heffects effect List.mem_cons_self]
      rfl
    exact (within_restartPublishIntent hhome hp).bind fun _ =>
      ih fun e he => heffects e (List.mem_cons_of_mem _ he)

/-- One seal ends every staged payload. -/
theorem within_restartStageTerminals (hp : scope.homes .preparing) {sealed : BackendOperationResult}
    {effects : List JournalEffect} (heffects : ∀ e ∈ effects, e.kind = .stageIncomingPayload) :
    (restartStageTerminals sealed effects).Orderly (within scope) := by
  induction effects with
  | nil => exact Process.orderly_pure _
  | cons effect rest ih =>
    have hhome : effect.kind.home = some .preparing := by
      rw [heffects effect List.mem_cons_self]
      rfl
    refine Process.orderly_ofExcept_bind fun terminal _ => ?_
    exact (within_restartPublishTerminal hhome hp _ _ _).bind fun _ =>
      ih fun e he => heffects e (List.mem_cons_of_mem _ he)

/-- A stage is filled between the intents of its payloads and their terminal
events. -/
theorem within_restageIncomingPayloads (hp : scope.homes .preparing)
    {payloads : IncomingPayloadPlan} {effects : List JournalEffect}
    (heffects : ∀ e ∈ effects, e.kind = .stageIncomingPayload) :
    (restageIncomingPayloads payloads effects).Orderly (within scope) := by
  refine (within_restartIntents hp heffects).bind fun _ => ?_
  refine (within_mechanism _).bind fun _ => ?_
  refine (within_mechanism _).bind fun stage => ?_
  exact (within_restartStageTerminals hp heffects).bind fun _ => Process.orderly_pure _

theorem within_resumeStaging (hp : scope.homes .preparing) :
    (resumeStaging app view).Orderly (within scope) := by
  refine Process.orderly_read_bind fun v _ => ?_
  split
  · exact Process.orderly_pure _
  · split
    · exact Process.orderly_pure _
    dsimp only
    split
    · exact Process.orderly_pure _
    · split
      · split
        · split
          · exact Process.orderly_pure _
          · exact Process.orderly_throw _
        · exact Process.orderly_throw _
      · exact (within_restageIncomingPayloads hp mem_payloadEffects).bind fun _ =>
          Process.orderly_pure _

theorem within_resumeSynchronization {staged : DurabilityStatus} {domain : DurabilityDomain}
    {kind : EffectKind} (h : kind.home = some .preparing) (hp : scope.homes .preparing) :
    (resumeSynchronization staged domain kind).Orderly (within scope) := by
  unfold resumeSynchronization
  split
  · exact Process.orderly_pure _
  · refine Process.orderly_read_bind fun v _ => ?_
    refine Process.orderly_ofExcept_bind fun effect heffect => ?_
    split
    · exact Process.orderly_pure _
    · exact within_restartSynchronize (home_of_findEffect heffect h) hp _ _

/-- Preparation in state preparing: each step that fails seals a receipt. -/
theorem within_resumePreparing (hp : scope.homes .preparing) (hs : scope.Sparing)
    {evidence : Evidence} :
    (resumePreparing app view request state evidence).Orderly (within scope) := by
  refine (within_resumeCaptures hp _ _ _).bind fun captures => ?_
  split
  · exact (within_failPreparation hs).bind fun _ => Process.orderly_pure _
  dsimp only
  refine (within_resumeStaging hp).bind fun result => ?_
  obtain ⟨staged, sealed⟩ := result
  dsimp only
  split
  · exact (within_failPreparation hs).bind fun _ => Process.orderly_pure _
  refine (within_resumeSynchronization rfl hp).bind fun incoming => ?_
  split
  · exact (within_failPreparation hs).bind fun _ => Process.orderly_pure _
  refine (within_resumeSynchronization rfl hp).bind fun recovery => ?_
  split
  · exact (within_failPreparation hs).bind fun _ => Process.orderly_pure _
  · exact within_finishPreparation.bind fun _ => Process.orderly_pure _

theorem within_observePreconditions (plan : OperationPlan) :
    (observePreconditions plan).Orderly (within scope) :=
  (within_mechanism _).bind fun _ => Process.orderly_ofExcept _

/-- Past state preparing, the preparation of a restart journals nothing. -/
theorem within_resumePreparation (hp : scope.homes .preparing) (hs : scope.Sparing) :
    (resumePreparation app view request state).Orderly (within scope) := by
  refine Process.orderly_read_bind fun v _ => ?_
  split
  · exact within_resumePrepared.bind fun _ => Process.orderly_pure _
  refine (within_observePreconditions _).bind fun current => ?_
  dsimp only
  split
  · exact (within_failPreparation hs).bind fun _ => Process.orderly_pure _
  · exact within_resumePreparing hp hs

end Preparation

/-! ## Rejected publication -/

section Rejected

variable {scope : Scope} {prepared : PreparedApplication} {view : RestartView}
  {request : ApplicationRequest} {state : LeaseBoundStateProjection}

/-- Only an untouched rejected effect is executed. -/
theorem within_resumeRejectedEffect (hm : scope.homes .mutating) {plan : OperationPlan}
    {step : EffectStep} :
    (resumeRejectedEffect prepared view plan step).Orderly (within scope) := by
  refine Process.orderly_ofExcept_bind fun command _ => ?_
  refine Process.orderly_ofExcept_bind fun _ _ => ?_
  refine Process.orderly_read_bind fun v _ => ?_
  refine Process.orderly_ofExcept_bind fun effect heffect => ?_
  have hhome : effect.kind.home = some .mutating := home_of_findEffect heffect rfl
  split
  · split
    · exact Process.orderly_throw _
    · exact Process.orderly_pure _
  · exact Process.orderly_pure _
  · refine (within_restartPublishIntent hhome hm).bind fun _ => ?_
    refine (within_mechanism _).bind fun result => ?_
    refine Process.orderly_ofExcept_bind fun terminal _ => ?_
    exact (within_restartPublishTerminal hhome hm _ _ _).bind fun _ => Process.orderly_pure _

/-- Rejected publication goes on up to the first effect that fails. -/
theorem within_resumeRejected (hm : scope.homes .mutating) (hs : scope.Sparing)
    (steps : List EffectStep) (effects : List RejectedEffectResult) :
    (resumeRejected prepared view request state steps effects).Orderly (within scope) := by
  induction steps generalizing effects with
  | nil => exact Process.orderly_pure _
  | cons step rest ih =>
    refine (within_resumeRejectedEffect hm).bind fun effect => ?_
    dsimp only
    split
    · exact ih _
    · exact (within_failRejectedEffect hs).bind fun _ => Process.orderly_pure _

theorem within_resumeRejectedStore (hm : scope.homes .mutating) {control : ExecutionControl}
    {effects : List RejectedEffectResult} :
    (resumeRejectedStore view control effects).Orderly (within scope) := by
  unfold resumeRejectedStore
  split
  · refine Process.orderly_read_bind fun v _ => ?_
    refine Process.orderly_ofExcept_bind fun effect heffect => ?_
    split
    · exact Process.orderly_pure _
    · exact within_restartSynchronize (home_of_findEffect heffect rfl) hm _ _
  · exact Process.orderly_pure _

/-- A prepared journal enters mutation before anything is published. -/
theorem within_resumeRejectedPublication (hm : scope.homes .mutating) (hs : scope.Sparing) :
    (resumeRejectedPublication prepared view request state).Orderly (within scope) := by
  refine Process.orderly_read_bind fun v _ => ?_
  have hrest : Process.Orderly (within scope)
      (resumeRejectedMutating prepared view request state) := by
    refine (within_resumeRejected hm hs _ _).bind fun result => ?_
    cases result with
    | inl receipt => exact Process.orderly_pure _
    | inr effects =>
      refine (within_resumeRejectedStore hm).bind fun status => ?_
      dsimp only
      split
      · refine Process.orderly_read_bind fun v _ => ?_
        exact Process.orderly_ofExcept_bind fun _ _ => Process.orderly_pure _
      · exact (within_failRejectedSynchronization hs).bind fun _ => Process.orderly_pure _
  dsimp only
  split
  · exact (within_state (by decide)).bind fun _ => hrest
  · exact hrest

end Rejected

/-! ## Active mutation -/

section Active

variable {scope : Scope} {prepared : PreparedApplication} {view : RestartView}
  {rejected : RejectedPublishedApplication} {request : ApplicationRequest}

/-- Only an untouched active effect is executed. -/
theorem within_resumeActiveEffect (hm : scope.homes .mutating) {plan : OperationPlan}
    {step : EffectStep} :
    (resumeActiveEffect prepared view plan step).Orderly (within scope) := by
  refine Process.orderly_ofExcept_bind fun command _ => ?_
  refine Process.orderly_ofExcept_bind fun _ _ => ?_
  refine Process.orderly_read_bind fun v _ => ?_
  refine Process.orderly_ofExcept_bind fun effect heffect => ?_
  have hhome : effect.kind.home = some .mutating := home_of_findEffect heffect rfl
  split
  · split
    · exact Process.orderly_throw _
    · exact Process.orderly_ofExcept _
  · exact Process.orderly_ofExcept _
  · refine (within_restartPublishIntent hhome hm).bind fun _ => ?_
    refine (within_mechanism _).bind fun result => ?_
    refine Process.orderly_ofExcept_bind fun terminal _ => ?_
    exact (within_restartPublishTerminal hhome hm _ _ _).bind fun _ => Process.orderly_ofExcept _

/-- Active effects go on in schedule order up to the first that interrupts. -/
theorem within_resumeActiveEffects (hm : scope.homes .mutating) {plan : OperationPlan}
    (steps : List EffectStep) (effects : List ActiveEffectResult) :
    (resumeActiveEffects rejected view plan steps effects).Orderly (within scope) := by
  induction steps generalizing effects with
  | nil => exact Process.orderly_pure _
  | cons step rest ih =>
    refine (within_resumeActiveEffect hm).bind fun effect => ?_
    dsimp only
    split
    · exact ih _
    · exact within_interruptActiveEffect.bind fun _ => Process.orderly_pure _

theorem within_resumeActiveNamespace (hm : scope.homes .mutating) :
    (resumeActiveNamespace view).Orderly (within scope) := by
  refine Process.orderly_read_bind fun v _ => ?_
  refine Process.orderly_ofExcept_bind fun effect heffect => ?_
  split
  · exact Process.orderly_pure _
  · exact within_restartSynchronize (home_of_findEffect heffect rfl) hm _ _

/-- The state is journaled unless the journal is in it, or past it. -/
theorem within_resumeVisible : resumeVisible.Orderly (within scope) := by
  refine Process.orderly_read_bind fun v _ => ?_
  split
  · exact Process.orderly_pure _
  · exact within_state (by decide)

theorem within_resumeComplete {effects : List ActiveEffectResult} {active : DurabilityStatus}
    {evidence : Evidence} :
    (resumeComplete rejected effects active evidence).Orderly (within scope) := by
  refine within_resumeVisible.bind fun _ => ?_
  exact Process.orderly_read_bind fun _ _ => Process.orderly_ofExcept _

theorem within_resumeActiveExecution (hm : scope.homes .mutating) :
    (resumeActiveExecution rejected view request).Orderly (within scope) := by
  refine (within_resumeActiveEffects hm _ _).bind fun result => ?_
  cases result with
  | inl interrupted => exact Process.orderly_pure _
  | inr effects =>
    dsimp only
    split
    · refine (within_resumeActiveNamespace hm).bind fun status => ?_
      split
      · exact within_resumeComplete.bind fun _ => Process.orderly_pure _
      · exact within_interruptActiveExecution.bind fun _ => Process.orderly_pure _
    · exact within_resumeComplete.bind fun _ => Process.orderly_pure _

end Active

/-! ## Recovery -/

section Recovery

variable {scope : Scope} {prepared : PreparedApplication} {view : RestartView}
  {rejected : RejectedPublishedApplication} {interrupted : ActiveInterruptedApplication}
  {request : ApplicationRequest} {state : LeaseBoundStateProjection}

/-- An interruption journals its state, which never abandons the attempt. -/
theorem within_restartInterruptedState (interruption : ActiveInterruption) :
    (restartInterruptedState interruption).Orderly (within scope) := by
  refine Process.orderly_read_bind fun v _ => ?_
  split
  · exact Process.orderly_pure _
  · exact within_state interruption.journalState_ne_abandoned

theorem within_restartInterruption :
    (restartInterruption rejected view request).Orderly (within scope) := by
  refine Process.orderly_read_bind fun v _ => ?_
  refine Process.orderly_ofExcept_bind fun found _ => ?_
  obtain ⟨effects, found⟩ := found
  dsimp only
  split
  · exact Process.orderly_throw _
  · refine (within_restartInterruptedState _).bind fun _ => ?_
    exact Process.orderly_read_bind fun _ _ => Process.orderly_ofExcept _

theorem within_resumeRecoverPath (hr : scope.homes .recovering) (path : PackagePath) :
    (resumeRecoverPath prepared view path).Orderly (within scope) := by
  refine Process.orderly_ofExcept_bind fun exact_ _ => ?_
  refine Process.orderly_read_bind fun v _ => ?_
  refine Process.orderly_ofExcept_bind fun effect heffect => ?_
  have hhome : effect.kind.home = some .recovering := home_of_findEffect heffect rfl
  split
  · split
    · exact Process.orderly_throw _
    · exact Process.orderly_pure _
  · exact Process.orderly_pure _
  · refine (within_restartPublishIntent hhome hr).bind fun _ => ?_
    refine (within_mechanism _).bind fun result => ?_
    refine Process.orderly_ofExcept_bind fun terminal _ => ?_
    exact (within_restartPublishTerminal hhome hr _ _ _).bind fun _ => Process.orderly_pure _

/-- Recovery goes on up to the first candidate that is not recovered. -/
theorem within_resumeRecoverCandidates (hr : scope.homes .recovering)
    (candidates : List ActiveEffectResult) (recoveries : List RecoveryEffectResult) :
    (resumeRecoverCandidates prepared view candidates recoveries).Orderly (within scope) := by
  induction candidates generalizing recoveries with
  | nil => exact Process.orderly_pure _
  | cons candidate rest ih =>
    refine (within_resumeRecoverPath hr _).bind fun recovery => ?_
    dsimp only
    split
    · exact ih _
    · exact Process.orderly_pure _

theorem within_resumeRecoveredNamespace (hr : scope.homes .recovering) :
    (resumeRecoveredNamespace view).Orderly (within scope) := by
  refine Process.orderly_read_bind fun v _ => ?_
  refine Process.orderly_ofExcept_bind fun effect heffect => ?_
  split
  · exact Process.orderly_pure _
  · exact Process.orderly_pure _
  · exact within_restartSynchronize (home_of_findEffect heffect rfl) hr _ _

theorem within_resumeRecoveredStatus (hr : scope.homes .recovering) {control : ExecutionControl}
    {recovered : Bool} :
    (resumeRecoveredStatus view control recovered).Orderly (within scope) := by
  unfold resumeRecoveredStatus
  split
  · exact (within_resumeRecoveredNamespace hr).map _
  · exact Process.orderly_pure _

theorem within_resumeRecovering : resumeRecovering.Orderly (within scope) := by
  refine Process.orderly_read_bind fun v _ => ?_
  split
  · exact Process.orderly_pure _
  · exact within_state (by decide)

/-- A restart undoes what is left; with nothing left it ends as a live process. -/
theorem within_resumeRecovery (hr : scope.homes .recovering) (hs : scope.Failing) :
    (resumeRecovery interrupted view request state).Orderly (within scope) := by
  refine Process.orderly_read_bind fun v _ => ?_
  refine Process.orderly_ofExcept_bind fun _ _ => ?_
  split
  · exact within_recoverInterrupted hr hs
  · refine within_resumeRecovering.bind fun _ => ?_
    refine (within_resumeRecoverCandidates hr _ _).bind fun recoveries => ?_
    exact (within_resumeRecoveredStatus hr).bind fun _ => within_sealRecoveryReceipt hs

end Recovery

/-! ## Completion -/

section Completion

variable {scope : Scope} {active : ActiveMutatedApplication} {view : RestartView}
  {request : ApplicationRequest} {state : LeaseBoundStateProjection} {paths : List PathConsequence}
  {evidence : Evidence}

theorem within_restartVerdict {effect : JournalEffect}
    (h : effect.kind.home = some .effectsVisible) (hv : scope.homes .effectsVisible)
    (terminal : EventKind) (evidence : Evidence) :
    (restartVerdict effect terminal evidence).Orderly (within scope) := by
  refine Process.orderly_read_bind fun v _ => ?_
  split
  · exact Process.orderly_pure _
  · refine (within_restartPublishIntent h hv).bind fun _ => ?_
    exact (within_restartPublishTerminal h hv _ _ _).bind fun _ => Process.orderly_pure _

/-- Every path is matched again, in the order of the plan. -/
theorem within_resumeObservations (hv : scope.homes .effectsVisible) {image : Option PackageImage}
    {observations : BackendObservationBatch} (decisions : List PathDecision)
    (r : ObservedResult) :
    (resumeObservations active image observations decisions r).Orderly (within scope) := by
  induction decisions generalizing r with
  | nil => exact Process.orderly_pure _
  | cons d rest ih =>
    refine Process.orderly_ofExcept_bind fun observed _ => ?_
    obtain ⟨before, after⟩ := observed
    refine Process.orderly_ofExcept_bind fun found _ => ?_
    refine Process.orderly_read_bind fun v _ => ?_
    refine Process.orderly_ofExcept_bind fun effect heffect => ?_
    refine (within_restartVerdict (home_of_findEffect heffect rfl) hv _ _).bind
      fun contradicted => ?_
    exact Process.orderly_ofExcept_bind fun r' _ => ih r'

/-- A seal that the journal retains is kept, and only its state may change. -/
theorem within_restartSealTerminalReceipt {state : JournalState} {receipt : ApplicationReceipt}
    {completed : Option CompletedEvidence} (hr : scope.sealed receipt)
    (h : receipt.outcome = .completed → state = .applicationCompleted) :
    (restartSealTerminalReceipt state receipt completed).Orderly (within scope) := by
  intro last v _
  refine Process.obeys_read_bind (Process.obeys_ofExcept_bind fun effect heffect => ?_)
  have hkind := (findEffect_spec heffect).2.1
  dsimp only
  refine Process.obeys_ofExcept_bind fun _ _ => ?_
  refine Process.obeys_ofExcept_bind fun _ _ => ?_
  refine Process.obeys_ofExcept_bind fun _ _ => ?_
  refine Process.obeys_ofExcept_bind fun _ _ => ?_
  refine Process.Obeys.bind trivial (Process.obeys_read_bind ?_) fun _ => ?_
  · split
    · exact Process.obeys_pure _
    · exact obeys_within_sealIntent hkind
  · split
    · exact within_seal hkind hr h
    · refine Process.orderly_ofExcept_bind fun _ _ => ?_
      split
      · exact Process.orderly_pure _
      · exact within_receipt hr h

theorem within_restartCompletionFailure
    (hs : ∀ r : ApplicationReceipt, r.Concluding → r.outcome ≠ .completed → scope.sealed r)
    {uncertain : Bool} :
    (restartCompletionFailure active request state uncertain paths evidence).Orderly (within scope)
      := by
  refine Process.orderly_read_bind fun v _ => ?_
  refine Process.orderly_ofExcept_bind fun receipt hreceipt => ?_
  have hfailed := completionFailureReceipt_outcome hreceipt
  refine (within_restartSealTerminalReceipt
    (hs _ (completionFailureReceipt_concluding hreceipt) hfailed) fun hcompleted => ?_).bind
      fun _ => Process.orderly_pure _
  exact absurd hcompleted hfailed

theorem within_restartCompleted (hc : scope.Concluding) {completed : CompletedEvidence} :
    (restartCompleted active completed evidence).Orderly (within scope) := by
  refine Process.orderly_ofExcept_bind fun receipt hreceipt => ?_
  exact (within_restartSealTerminalReceipt (hc _ (completed_concluding hreceipt))
    fun _ => rfl).bind fun _ => Process.orderly_pure _

theorem within_restartPublication {effect : JournalEffect}
    (h : effect.kind.home = some .resultObserved) (ho : scope.homes .resultObserved)
    {completed : CompletedEvidence} :
    (restartPublication effect completed).Orderly (within scope) := by
  refine (within_restartPublishIntent h ho).bind fun _ => ?_
  refine (within_mechanism _).bind fun publication => ?_
  refine Process.orderly_ofExcept_bind fun _ _ => ?_
  refine Process.orderly_ofExcept_bind fun terminal _ => ?_
  exact (within_restartPublishTerminal h ho _ _ _).bind fun _ => Process.orderly_pure _

theorem within_resumePublication (ho : scope.homes .resultObserved) {e : ResumedEvidence} :
    (resumePublication view e).Orderly (within scope) := by
  refine Process.orderly_read_bind fun v _ => ?_
  refine Process.orderly_ofExcept_bind fun effect heffect => ?_
  dsimp only
  refine Process.orderly_ofExcept_bind fun _ _ => ?_
  split
  · exact (within_restartPublication (home_of_findEffect heffect rfl) ho).map _
  · split
    · refine Process.Orderly.map _ ((within_mechanism _).bind fun _ => ?_)
      exact Process.orderly_ofExcept_bind fun _ _ => Process.orderly_pure _
    · exact Process.orderly_pure _

theorem within_resumeEvidenceDurability (ho : scope.homes .resultObserved) {refresh : Bool} :
    (resumeEvidenceDurability view refresh).Orderly (within scope) := by
  refine Process.orderly_read_bind fun v _ => ?_
  refine Process.orderly_ofExcept_bind fun effect heffect => ?_
  split
  · exact within_restartSynchronize (home_of_findEffect heffect rfl) ho _ _
  · split
    · refine (within_mechanism _).bind fun _ => ?_
      exact Process.orderly_ofExcept_bind fun _ _ => Process.orderly_pure _
    · exact Process.orderly_pure _

theorem within_resumeResultObserved : resumeResultObserved.Orderly (within scope) := by
  refine Process.orderly_read_bind fun v _ => ?_
  split
  · exact Process.orderly_pure _
  · exact within_state (by decide)

/-- Completed evidence is published and synchronized in state result observed. -/
theorem within_resumeConclusion (ho : scope.homes .resultObserved) (hc : scope.Concluding) :
    (resumeConclusion active view request state paths evidence).Orderly (within scope) := by
  refine within_resumeResultObserved.bind fun _ => ?_
  refine Process.orderly_read_bind fun v _ => ?_
  refine Process.orderly_ofExcept_bind fun completed _ => ?_
  refine Process.orderly_ofExcept_bind fun e _ => ?_
  refine (within_resumePublication ho).bind fun publication => ?_
  dsimp only
  split
  · refine (within_resumeEvidenceDurability ho).bind fun status => ?_
    split
    · exact within_restartCompleted hc
    · exact within_restartCompletionFailure fun r hr _ => hc r hr
  · exact within_restartCompletionFailure fun r hr _ => hc r hr

theorem within_resumeCompletion (hv : scope.homes .effectsVisible)
    (ho : scope.homes .resultObserved) (hc : scope.Concluding) :
    (resumeCompletion active view request state).Orderly (within scope) := by
  refine Process.orderly_read_bind fun v _ => ?_
  refine Process.orderly_ofExcept_bind fun _ _ => ?_
  refine Process.orderly_ofExcept_bind fun _ _ => ?_
  refine (within_mechanism _).bind fun observations => ?_
  refine (within_resumeObservations hv _ _).bind fun observed => ?_
  split
  · exact (within_resumeConclusion ho hc).bind fun _ => Process.orderly_pure _
  · exact within_interruptObservation.bind fun _ => Process.orderly_pure _

end Completion

/-! ## Whole processes -/

section Processes

variable {app : JournaledApplication} {rejected : RejectedPublishedApplication}
  {view : RestartView} {request : ApplicationRequest} {state : LeaseBoundStateProjection}

theorem within_finishActive : (finishActive rejected request state).Orderly (within .all) := by
  refine (within_executeActive trivial).bind fun result => ?_
  cases result with
  | inl interrupted => exact within_recoverInterrupted trivial fun _ _ => trivial
  | inr active =>
    refine (within_completeApplication trivial trivial fun _ _ => trivial).bind fun result => ?_
    cases result with
    | inl receipt => exact Process.orderly_pure _
    | inr interrupted => exact within_recoverInterrupted trivial fun _ _ => trivial

/-- No process of an application leaves the phases. -/
theorem within_runApplication : (runApplication app request state).Orderly (within .all) := by
  refine Process.orderly_read_bind fun v _ => ?_
  refine Process.orderly_ofExcept_bind fun app' _ => ?_
  refine (within_prepareApplication trivial fun _ _ => trivial).bind fun result => ?_
  cases result with
  | inl receipt => exact Process.orderly_pure _
  | inr prepared =>
    refine (within_publishRejected trivial fun _ _ => trivial).bind fun result => ?_
    cases result with
    | inl receipt => exact Process.orderly_pure _
    | inr rejected => exact within_finishActive

/-- An application keeps to the phases. -/
theorem phased_runApplication : (runApplication app request state).Orderly phases :=
  phased_of_within within_runApplication

theorem within_finishForward :
    (finishForward rejected view request state).Orderly (within .all) := by
  refine (within_resumeActiveExecution trivial).bind fun result => ?_
  cases result with
  | inl interrupted => exact within_resumeRecovery trivial fun _ _ => trivial
  | inr active =>
    refine (within_resumeCompletion trivial trivial fun _ _ => trivial).bind fun result => ?_
    cases result with
    | inl receipt => exact Process.orderly_pure _
    | inr interrupted => exact within_resumeRecovery trivial fun _ _ => trivial

theorem within_finishPublished {disposition : RestartDisposition} :
    (finishPublished disposition rejected view request state).Orderly (within .all) := by
  unfold finishPublished
  split
  · exact within_restartInterruption.bind fun _ => within_resumeRecovery trivial fun _ _ => trivial
  · exact within_finishForward

/-- Nor does one of a restart, with whatever session it comes. -/
theorem within_runRestart (session : RestartSession) :
    (runRestart request session).Orderly (within .all) := by
  refine Process.orderly_read_bind fun v _ => ?_
  refine Process.orderly_ofExcept_bind fun reopened _ => ?_
  obtain ⟨app, view⟩ := reopened
  refine Process.orderly_read_bind fun v _ => ?_
  refine Process.orderly_ofExcept_bind fun disposition _ => ?_
  refine (within_resumePreparation trivial fun _ _ => trivial).bind fun result => ?_
  cases result with
  | inl receipt => exact Process.orderly_pure _
  | inr prepared =>
    refine (within_resumeRejectedPublication trivial fun _ _ => trivial).bind fun result => ?_
    cases result with
    | inl receipt => exact Process.orderly_pure _
    | inr rejected => exact within_finishPublished

/-- A restart keeps to the phases. -/
theorem phased_runRestart (session : RestartSession) :
    (runRestart request session).Orderly phases := phased_of_within (within_runRestart session)

end Processes

end PkgApply
