import PkgApply.Engine.Discipline
import PkgApply.Restart.Replay

/-!
# The discipline of a restart

Every process of a restarted engine obeys the discipline of the attempt: what
the journal does not retain is executed after its own intent, and retained
with what it returned.
-/

namespace PkgApply

open Library

section Rules

variable {A : AdmittedApplication} {last : Option EngineCall} {h : JournalHistory} {α : Type}

/-- Intents are free; a retained one is not repeated. -/
theorem orderly_restartPublishIntent (state : JournalState) (effect : JournalEffect) :
    (restartPublishIntent state effect).Orderly A.discipline := by
  refine Process.orderly_read_bind fun h _ => ?_
  split
  · exact Process.orderly_pure _
  · exact orderly_intent _ _

/-- An untouched effect takes its intent. -/
theorem obeys_restartPublishIntent_bind {state : JournalState} {effect : JournalEffect}
    {f : Unit → Engine α} (hfresh : restartProgress h effect = ⟨false, none⟩)
    (hf : ∀ v, A.Declares v → (f ()).Obeys A.discipline
      (some ⟨.journal ⟨state, some ⟨effect, .intent, ∅⟩, none, none, none⟩, ()⟩) v) :
    (restartPublishIntent state effect >>= f).Obeys A.discipline last h := by
  have heq : (restartPublishIntent state effect >>= f).Obeys A.discipline last h ↔
      (publishEvent state effect .intent >>= f).Obeys A.discipline last h := by
    have hbind : restartPublishIntent state effect >>= f = Process.read >>= fun v =>
        (if (restartProgress v effect).intended then pure () else publishEvent state effect .intent)
          >>= f := bind_assoc _ _ _
    rw [hbind]
    change ((if (restartProgress h effect).intended then pure ()
      else publishEvent state effect .intent) >>= f).Obeys A.discipline last h ↔ _
    rw [hfresh]
    rfl
  exact heq.mpr (obeys_intent_bind hf)

/-- A terminal event the journal does not retain is journaled. -/
theorem obeys_restartPublishTerminal_bind {state : JournalState} {effect : JournalEffect}
    {terminal : EventKind} {evidence : Evidence} {fact : Option ReplayFact} {f : Unit → Engine α}
    (hv : A.Declares h) (hterminal : terminal ≠ .intent)
    (hretains : Retains A last ⟨effect, terminal, evidence⟩ fact)
    (hf : (f ()).Orderly A.discipline) :
    (restartPublishTerminal state effect terminal evidence fact >>= f).Obeys A.discipline last
      h := by
  refine Process.Obeys.bind hv (Process.obeys_read_bind ?_) fun _ => hf
  split
  · exact Process.obeys_pure _
  · exact Process.obeys_perform (allows_terminal hterminal hretains)

/-- A synchronization right after its intent, or under a retained one. -/
theorem orderly_restartSynchronize {effect : JournalEffect} {domain : DurabilityDomain}
    (hdomain : synchronizationDomain effect.kind = .ok domain) (state : JournalState)
    (mismatch : String) :
    (restartSynchronize state effect domain mismatch).Orderly A.discipline := by
  refine (orderly_restartPublishIntent _ _).bind fun _ last v hv => ?_
  refine Process.obeys_perform_bind (announced_of_none rfl) fun fact v' hv' => ?_
  refine Process.obeys_ofExcept_bind fun _ hsame => ?_
  refine Process.obeys_ofExcept_bind fun terminal hterminal => ?_
  exact obeys_restartPublishTerminal_bind hv' (synchronizationEvent_ne_intent hterminal)
    (retains_synchronization rfl hdomain (not_not.mp (refuseIf_eq_ok.mp hsame)) hterminal)
    (Process.orderly_pure _)

end Rules

/-! ## Preparation -/

section Preparation

variable {A : AdmittedApplication} {app : JournaledApplication} {view : RestartView}

/-- A prepared journal is only read. -/
theorem orderly_resumePrepared : (resumePrepared app view).Orderly A.discipline := by
  refine Process.orderly_read_bind fun h _ => ?_
  refine Process.orderly_ofExcept_bind fun captures _ => ?_
  refine Process.orderly_ofExcept_bind fun _ _ => ?_
  exact Process.orderly_ofExcept _

/-- A restart ends a capture as preparation does, where it ends it at all. -/
theorem restartCaptureTerminal_eq_ok {control : ExecutionControl}
    {request : OldObjectCaptureRequest} {captured : OldObjectCaptureResult} {terminal : EventKind}
    (h : restartCaptureTerminal control request captured = .ok terminal) :
    terminalEvent (captureSemanticOutcome control request captured) = .ok terminal := by
  unfold restartCaptureTerminal at h
  split at h
  · cases h
  · exact h

/-- A capture is retained with what the mechanism returned for its request. -/
theorem orderly_resumeCapture {request : OldObjectCaptureRequest} (hr : request ∈ A.captures) :
    (resumeCapture view A.control request).Orderly A.discipline := by
  refine Process.orderly_read_bind fun h _ => ?_
  refine Process.orderly_ofExcept_bind fun effect heffect => ?_
  obtain ⟨-, hkind, hpath⟩ := findEffect_spec heffect
  split
  · split
    · exact Process.orderly_throw _
    · exact Process.orderly_pure _
  · refine (orderly_restartPublishIntent _ _).bind fun _ last v hv => ?_
    refine Process.obeys_perform_bind (announced_of_none rfl) fun captured v' hv' => ?_
    refine Process.obeys_ofExcept_bind fun terminal hterminal => ?_
    have hevent := restartCaptureTerminal_eq_ok hterminal
    refine obeys_restartPublishTerminal_bind hv' (terminalEvent_ne_intent hevent) ?_
      (Process.orderly_pure _)
    unfold Retains
    rw [hkind]
    exact ⟨request, hr, captured, rfl, hpath, rfl, hevent, rfl⟩

/-- Captures of the attempt, one after another. -/
theorem orderly_resumeCaptures {requests : List OldObjectCaptureRequest}
    (hr : ∀ r ∈ requests, r ∈ A.captures) (acc : ResumedCaptures) :
    (resumeCaptures view A.control requests acc).Orderly A.discipline := by
  induction requests generalizing acc with
  | nil => exact Process.orderly_pure _
  | cons request rest ih =>
    refine (orderly_resumeCapture (hr request List.mem_cons_self)).bind fun result => ?_
    obtain ⟨captured, failure⟩ := result
    cases failure with
    | some status => exact Process.orderly_pure _
    | none => exact ih (fun r hmem => hr r (List.mem_cons_of_mem _ hmem)) _

theorem orderly_restartIntents (state : JournalState) (effects : List JournalEffect) :
    (restartIntents state effects).Orderly A.discipline := by
  induction effects with
  | nil => exact Process.orderly_pure _
  | cons effect rest ih => exact (orderly_restartPublishIntent _ _).bind fun _ => ih

/-- Terminal events of staging follow the new seal, or one another. -/
theorem obeys_restartStageTerminals {sealed : BackendOperationResult}
    {effects : List JournalEffect} (heffects : ∀ e ∈ effects, e.kind = .stageIncomingPayload)
    {last : Option EngineCall} {v : JournalHistory} (hv : A.Declares v)
    (hlast : (∃ stage : PayloadStageResult, last = some ⟨.mechanism .sealPayloadStage, stage⟩ ∧
      stage.result = sealed) ∨ StagedBefore last (some (.payloadSeal sealed))) :
    (restartStageTerminals sealed effects).Obeys A.discipline last v := by
  induction effects generalizing last v with
  | nil => exact Process.obeys_pure _
  | cons effect rest ih =>
    have hkind := heffects effect List.mem_cons_self
    have hrest := fun e he => heffects e (List.mem_cons_of_mem _ he)
    refine Process.obeys_ofExcept_bind fun terminal hterminal => ?_
    have hne := terminalEvent_ne_intent hterminal
    have hbind : restartPublishTerminal .preparing effect terminal sealed.evidence
          (some (.payloadSeal sealed)) >>= (fun _ => restartStageTerminals sealed rest) =
        Process.read >>= fun v => (if (restartProgress v effect).terminal.isSome then pure ()
          else publishEvent .preparing effect terminal sealed.evidence
            (some (.payloadSeal sealed))) >>= fun _ => restartStageTerminals sealed rest :=
      bind_assoc _ _ _
    rw [hbind]
    refine Process.obeys_read_bind ?_
    split
    · exact ih hrest hv hlast
    · refine Process.obeys_perform_bind (allows_terminal hne ?_) fun _ v' hv' => ?_
      · unfold Retains
        rw [hkind]
        exact ⟨sealed, hlast, rfl, hterminal, rfl⟩
      · exact ih hrest hv' (.inr ⟨_, _, rfl, rfl, hne, hkind, rfl⟩)

/-- A new stage is sealed right before its terminal events. -/
theorem orderly_restageIncomingPayloads {payloads : IncomingPayloadPlan}
    {effects : List JournalEffect} (heffects : ∀ e ∈ effects, e.kind = .stageIncomingPayload) :
    (restageIncomingPayloads payloads effects).Orderly A.discipline := by
  refine (orderly_restartIntents _ _).bind fun _ => ?_
  refine (orderly_mechanism rfl).bind fun _ last v hv => ?_
  refine Process.obeys_perform_bind (announced_of_none rfl) fun stage v' hv' => ?_
  refine Process.Obeys.bind hv' ?_ fun _ => Process.orderly_pure _
  exact obeys_restartStageTerminals heffects hv' (.inl ⟨stage, rfl, rfl⟩)

/-- The payload effects of a journal are its staging effects. -/
theorem mem_payloadEffects {h : JournalHistory} :
    ∀ e ∈ payloadEffects h, e.kind = .stageIncomingPayload := by
  intro e he
  unfold payloadEffects at he
  rw [List.mem_filter, beq_iff_eq] at he
  exact he.2

theorem orderly_resumeStaging : (resumeStaging app view).Orderly A.discipline := by
  refine Process.orderly_read_bind fun h _ => ?_
  split
  · exact Process.orderly_pure _
  · split
    · exact Process.orderly_pure _
    dsimp only
    split
    · exact Process.orderly_pure _
    · split
      · split
        · split
          · exact Process.orderly_pure _
          · exact Process.orderly_throw _
        · exact Process.orderly_throw _
      · exact (orderly_restageIncomingPayloads mem_payloadEffects).bind fun _ =>
          Process.orderly_pure _

/-- A staged domain is synchronized under the effect of that domain. -/
theorem orderly_resumeSynchronization {staged : DurabilityStatus} {domain : DurabilityDomain}
    {kind : EffectKind} (hdomain : synchronizationDomain kind = .ok domain) :
    (resumeSynchronization staged domain kind).Orderly A.discipline := by
  unfold resumeSynchronization
  split
  · exact Process.orderly_pure _
  · refine Process.orderly_read_bind fun h _ => ?_
    refine Process.orderly_ofExcept_bind fun effect heffect => ?_
    obtain ⟨-, hkind, -⟩ := findEffect_spec heffect
    split
    · exact Process.orderly_pure _
    · exact orderly_restartSynchronize (hkind ▸ hdomain) _ _

theorem orderly_observePreconditions (plan : OperationPlan) :
    (observePreconditions plan).Orderly A.discipline :=
  (orderly_mechanism rfl).bind fun _ => Process.orderly_ofExcept _

/-- The steps of preparation, each of which may seal a failure. -/
theorem orderly_resumePreparing (happ : app.captures = A.captures)
    {state : LeaseBoundStateProjection} {evidence : Evidence} :
    (resumePreparing app view A.request state evidence).Orderly A.discipline := by
  refine (orderly_resumeCaptures (fun r hr => happ ▸ hr) _).bind fun captures => ?_
  split
  · exact orderly_failPreparation.bind fun _ => Process.orderly_pure _
  dsimp only
  refine orderly_resumeStaging.bind fun result => ?_
  obtain ⟨staged, sealed⟩ := result
  dsimp only
  split
  · exact orderly_failPreparation.bind fun _ => Process.orderly_pure _
  refine (orderly_resumeSynchronization rfl).bind fun incoming => ?_
  split
  · exact orderly_failPreparation.bind fun _ => Process.orderly_pure _
  refine (orderly_resumeSynchronization rfl).bind fun recovery => ?_
  split
  · exact orderly_failPreparation.bind fun _ => Process.orderly_pure _
  · exact orderly_finishPreparation.bind fun _ => Process.orderly_pure _

theorem orderly_resumePreparation (happ : app.captures = A.captures)
    {state : LeaseBoundStateProjection} :
    (resumePreparation app view A.request state).Orderly A.discipline := by
  refine Process.orderly_read_bind fun h _ => ?_
  split
  · exact orderly_resumePrepared.bind fun _ => Process.orderly_pure _
  refine (orderly_observePreconditions _).bind fun current => ?_
  dsimp only
  split
  · exact orderly_failPreparation.bind fun _ => Process.orderly_pure _
  · exact orderly_resumePreparing happ

end Preparation

/-! ## Rejected publication -/

section Rejected

variable {A : AdmittedApplication} {prepared : PreparedApplication} {view : RestartView}
  {request : ApplicationRequest} {state : LeaseBoundStateProjection}

/-- An untouched rejected effect is executed right after its own intent. -/
theorem orderly_resumeRejectedEffect {plan : OperationPlan} {step : EffectStep} :
    (resumeRejectedEffect prepared view plan step).Orderly A.discipline := by
  refine Process.orderly_ofExcept_bind fun command hcommand => ?_
  refine Process.orderly_ofExcept_bind fun _ _ last v hv => ?_
  refine Process.obeys_read_bind ?_
  refine Process.obeys_ofExcept_bind fun effect heffect => ?_
  obtain ⟨-, hkind, hpath⟩ := findEffect_spec heffect
  have hcommandPath := rejectedEffectRequest_path hcommand
  rw [← hcommandPath] at hpath
  split
  · split
    · exact Process.obeys_throw _
    · exact Process.obeys_pure _
  · exact Process.obeys_pure _
  · rename_i hprogress
    refine obeys_restartPublishIntent_bind hprogress fun v₁ hv₁ => ?_
    refine Process.obeys_perform_bind (announced_after_intent rfl hkind hpath)
      fun result v₂ hv₂ => ?_
    refine Process.obeys_ofExcept_bind fun terminal hterminal => ?_
    refine obeys_restartPublishTerminal_bind hv₂ (terminalEvent_ne_intent hterminal) ?_
      (Process.orderly_pure _)
    unfold Retains
    rw [hkind]
    exact ⟨command, result, rfl, hpath, rfl, hterminal, by rw [hcommandPath]⟩

theorem orderly_resumeRejected (steps : List EffectStep) (effects : List RejectedEffectResult) :
    (resumeRejected prepared view request state steps effects).Orderly A.discipline := by
  induction steps generalizing effects with
  | nil => exact Process.orderly_pure _
  | cons step rest ih =>
    refine orderly_resumeRejectedEffect.bind fun effect => ?_
    dsimp only
    split
    · exact ih _
    · exact orderly_failRejectedEffect.bind fun _ => Process.orderly_pure _

theorem orderly_resumeRejectedStore {control : ExecutionControl}
    {effects : List RejectedEffectResult} :
    (resumeRejectedStore view control effects).Orderly A.discipline := by
  unfold resumeRejectedStore
  split
  · refine Process.orderly_read_bind fun h _ => ?_
    refine Process.orderly_ofExcept_bind fun effect heffect => ?_
    obtain ⟨-, hkind, -⟩ := findEffect_spec heffect
    split
    · exact Process.orderly_pure _
    · exact orderly_restartSynchronize (by rw [hkind]; rfl) _ _
  · exact Process.orderly_pure _

/-- The state comes first, then the effects, then the store. -/
theorem orderly_resumeRejectedPublication :
    (resumeRejectedPublication prepared view request state).Orderly A.discipline := by
  have hrest : Process.Orderly A.discipline
      (resumeRejectedMutating prepared view request state) := by
    refine (orderly_resumeRejected _ _).bind fun result => ?_
    cases result with
    | inl receipt => exact Process.orderly_pure _
    | inr effects =>
      refine orderly_resumeRejectedStore.bind fun status => ?_
      dsimp only
      split
      · refine Process.orderly_read_bind fun h _ => ?_
        exact Process.orderly_ofExcept_bind fun _ _ => Process.orderly_pure _
      · exact orderly_failRejectedSynchronization.bind fun _ => Process.orderly_pure _
  refine Process.orderly_read_bind fun h _ => ?_
  dsimp only
  split
  · exact (orderly_publishState _ _ _).bind fun _ => hrest
  · exact hrest

end Rejected

/-! ## Active mutation -/

section Active

variable {A : AdmittedApplication} {prepared : PreparedApplication} {view : RestartView}
  {rejected : RejectedPublishedApplication} {request : ApplicationRequest}

/-- An untouched active effect is executed right after its own intent. -/
theorem orderly_resumeActiveEffect {plan : OperationPlan} {step : EffectStep} :
    (resumeActiveEffect prepared view plan step).Orderly A.discipline := by
  refine Process.orderly_ofExcept_bind fun command hcommand => ?_
  refine Process.orderly_ofExcept_bind fun _ _ last v hv => ?_
  refine Process.obeys_read_bind ?_
  refine Process.obeys_ofExcept_bind fun effect heffect => ?_
  obtain ⟨-, hkind, hpath⟩ := findEffect_spec heffect
  have hcommandPath := activeEffectRequest_path hcommand
  rw [← hcommandPath] at hpath
  split
  · split
    · exact Process.obeys_throw _
    · exact (Process.orderly_ofExcept _).obeys hv
  · exact (Process.orderly_ofExcept _).obeys hv
  · rename_i hprogress
    refine obeys_restartPublishIntent_bind hprogress fun v₁ hv₁ => ?_
    refine Process.obeys_perform_bind (announced_after_intent rfl hkind hpath)
      fun result v₂ hv₂ => ?_
    refine Process.obeys_ofExcept_bind fun terminal hterminal => ?_
    refine obeys_restartPublishTerminal_bind hv₂ (activeTerminalEvent_ne_intent hterminal) ?_
      (Process.orderly_ofExcept _)
    unfold Retains
    rw [hkind]
    exact ⟨command, result, rfl, hpath, rfl, hterminal, by rw [hcommandPath]⟩

theorem orderly_resumeActiveEffects {plan : OperationPlan} (steps : List EffectStep)
    (effects : List ActiveEffectResult) :
    (resumeActiveEffects rejected view plan steps effects).Orderly A.discipline := by
  induction steps generalizing effects with
  | nil => exact Process.orderly_pure _
  | cons step rest ih =>
    refine orderly_resumeActiveEffect.bind fun effect => ?_
    dsimp only
    split
    · exact ih _
    · exact orderly_interruptActiveEffect.bind fun _ => Process.orderly_pure _

theorem orderly_resumeActiveNamespace : (resumeActiveNamespace view).Orderly A.discipline := by
  refine Process.orderly_read_bind fun h _ => ?_
  refine Process.orderly_ofExcept_bind fun effect heffect => ?_
  obtain ⟨-, hkind, -⟩ := findEffect_spec heffect
  split
  · exact Process.orderly_pure _
  · exact orderly_restartSynchronize (by rw [hkind]; rfl) _ _

theorem orderly_resumeVisible : resumeVisible.Orderly A.discipline := by
  refine Process.orderly_read_bind fun h _ => ?_
  split
  · exact Process.orderly_pure _
  · exact orderly_publishState _ _ _

theorem orderly_resumeComplete {effects : List ActiveEffectResult} {active : DurabilityStatus}
    {evidence : Evidence} :
    (resumeComplete rejected effects active evidence).Orderly A.discipline := by
  refine orderly_resumeVisible.bind fun _ => ?_
  exact Process.orderly_read_bind fun _ _ => Process.orderly_ofExcept _

theorem orderly_resumeActiveExecution :
    (resumeActiveExecution rejected view request).Orderly A.discipline := by
  refine (orderly_resumeActiveEffects _ _).bind fun result => ?_
  cases result with
  | inl interrupted => exact Process.orderly_pure _
  | inr effects =>
    dsimp only
    split
    · refine orderly_resumeActiveNamespace.bind fun status => ?_
      split
      · exact orderly_resumeComplete.bind fun _ => Process.orderly_pure _
      · exact orderly_interruptActiveExecution.bind fun _ => Process.orderly_pure _
    · exact orderly_resumeComplete.bind fun _ => Process.orderly_pure _

end Active

/-! ## Recovery -/

section Recovery

variable {A : AdmittedApplication} {prepared : PreparedApplication} {view : RestartView}
  {rejected : RejectedPublishedApplication} {interrupted : ActiveInterruptedApplication}
  {request : ApplicationRequest} {state : LeaseBoundStateProjection}

theorem orderly_restartInterruptedState (interruption : ActiveInterruption) :
    (restartInterruptedState interruption).Orderly A.discipline := by
  refine Process.orderly_read_bind fun h _ => ?_
  split
  · exact Process.orderly_pure _
  · exact orderly_publishState _ _ _

/-- An interruption is rebuilt from the journal, and its state journaled. -/
theorem orderly_restartInterruption :
    (restartInterruption rejected view request).Orderly A.discipline := by
  refine Process.orderly_read_bind fun h _ => ?_
  refine Process.orderly_ofExcept_bind fun found _ => ?_
  obtain ⟨effects, found⟩ := found
  dsimp only
  split
  · exact Process.orderly_throw _
  · refine (orderly_restartInterruptedState _).bind fun _ => ?_
    exact Process.orderly_read_bind fun _ _ => Process.orderly_ofExcept _

/-- An untouched recovery is executed right after its own intent. -/
theorem orderly_resumeRecoverPath (path : PackagePath) :
    (resumeRecoverPath prepared view path).Orderly A.discipline := by
  refine Process.orderly_ofExcept_bind fun exact_ _ last v hv => ?_
  refine Process.obeys_read_bind ?_
  refine Process.obeys_ofExcept_bind fun effect heffect => ?_
  obtain ⟨-, hkind, hpath⟩ := findEffect_spec heffect
  split
  · split
    · exact Process.obeys_throw _
    · exact Process.obeys_pure _
  · exact Process.obeys_pure _
  · rename_i hprogress
    refine obeys_restartPublishIntent_bind hprogress fun v₁ hv₁ => ?_
    refine Process.obeys_perform_bind (announced_after_intent rfl hkind hpath)
      fun result v₂ hv₂ => ?_
    refine Process.obeys_ofExcept_bind fun terminal hterminal => ?_
    exact obeys_restartPublishTerminal_bind hv₂ (terminalEvent_ne_intent hterminal)
      (retains_recovery hkind hpath hterminal) (Process.orderly_pure _)

theorem orderly_resumeRecoverCandidates (candidates : List ActiveEffectResult)
    (recoveries : List RecoveryEffectResult) :
    (resumeRecoverCandidates prepared view candidates recoveries).Orderly A.discipline := by
  induction candidates generalizing recoveries with
  | nil => exact Process.orderly_pure _
  | cons candidate rest ih =>
    refine (orderly_resumeRecoverPath _).bind fun recovery => ?_
    dsimp only
    split
    · exact ih _
    · exact Process.orderly_pure _

theorem orderly_resumeRecoveredNamespace :
    (resumeRecoveredNamespace view).Orderly A.discipline := by
  refine Process.orderly_read_bind fun h _ => ?_
  refine Process.orderly_ofExcept_bind fun effect heffect => ?_
  obtain ⟨-, hkind, -⟩ := findEffect_spec heffect
  split
  · exact Process.orderly_pure _
  · exact Process.orderly_pure _
  · exact orderly_restartSynchronize (by rw [hkind]; rfl) _ _

theorem orderly_resumeRecoveredStatus {control : ExecutionControl} {recovered : Bool} :
    (resumeRecoveredStatus view control recovered).Orderly A.discipline := by
  unfold resumeRecoveredStatus
  split
  · exact orderly_resumeRecoveredNamespace.map _
  · exact Process.orderly_pure _

theorem orderly_resumeRecovering : resumeRecovering.Orderly A.discipline := by
  refine Process.orderly_read_bind fun h _ => ?_
  split
  · exact Process.orderly_pure _
  · exact orderly_publishState _ _ _

/-- Recovery enters its state, undoes, synchronizes and seals. -/
theorem orderly_resumeChanged :
    (resumeChanged interrupted view request state).Orderly A.discipline := by
  refine orderly_resumeRecovering.bind fun _ => ?_
  refine (orderly_resumeRecoverCandidates _ _).bind fun recoveries => ?_
  exact orderly_resumeRecoveredStatus.bind fun _ => orderly_sealRecoveryReceipt

theorem orderly_resumeRecovery :
    (resumeRecovery interrupted view request state).Orderly A.discipline := by
  refine Process.orderly_read_bind fun h _ => ?_
  refine Process.orderly_ofExcept_bind fun _ _ => ?_
  split
  · exact orderly_recoverInterrupted
  · exact orderly_resumeChanged

end Recovery

/-! ## Completion -/

section Completion

variable {A : AdmittedApplication} {active : ActiveMutatedApplication} {view : RestartView}
  {state : LeaseBoundStateProjection} {paths : List PathConsequence} {evidence : Evidence}

theorem orderly_restartVerdict {effect : JournalEffect} (hkind : effect.kind = .observeResult)
    {terminal : EventKind} (hterminal : terminal ≠ .intent) (evidence : Evidence) :
    (restartVerdict effect terminal evidence).Orderly A.discipline := by
  refine Process.orderly_read_bind fun h _ => ?_
  split
  · exact Process.orderly_pure _
  · refine (orderly_restartPublishIntent _ _).bind fun _ last v hv => ?_
    refine obeys_restartPublishTerminal_bind hv hterminal ?_ (Process.orderly_pure _)
    unfold Retains
    rw [hkind]

theorem orderly_resumeObservations {image : Option PackageImage}
    {observations : BackendObservationBatch} (decisions : List PathDecision)
    (r : ObservedResult) :
    (resumeObservations active image observations decisions r).Orderly A.discipline := by
  induction decisions generalizing r with
  | nil => exact Process.orderly_pure _
  | cons d rest ih =>
    refine Process.orderly_ofExcept_bind fun observed _ => ?_
    obtain ⟨before, after⟩ := observed
    refine Process.orderly_ofExcept_bind fun found _ => ?_
    refine Process.orderly_read_bind fun h _ => ?_
    refine Process.orderly_ofExcept_bind fun effect heffect => ?_
    obtain ⟨-, hkind, -⟩ := findEffect_spec heffect
    refine (orderly_restartVerdict hkind (matchEvent_ne_intent found) _).bind fun contradicted => ?_
    exact Process.orderly_ofExcept_bind fun r' _ => ih r'

/-- A seal follows its intent; a retained one is only followed by a state. -/
theorem orderly_restartSealTerminalReceipt (state : JournalState) (receipt : ApplicationReceipt)
    (completed : Option CompletedEvidence) :
    (restartSealTerminalReceipt state receipt completed).Orderly A.discipline := by
  refine Process.orderly_read_bind fun h _ => ?_
  refine Process.orderly_ofExcept_bind fun effect heffect => ?_
  obtain ⟨-, hkind, -⟩ := findEffect_spec heffect
  dsimp only
  refine Process.orderly_ofExcept_bind fun _ _ => ?_
  refine Process.orderly_ofExcept_bind fun _ _ => ?_
  refine Process.orderly_ofExcept_bind fun _ _ => ?_
  refine Process.orderly_ofExcept_bind fun _ _ => ?_
  refine (orderly_restartPublishIntent _ _).bind fun _ => ?_
  split
  · exact orderly_seal hkind _ _ _
  · refine Process.orderly_ofExcept_bind fun _ _ => ?_
    split
    · exact Process.orderly_pure _
    · exact orderly_publishState _ _ _

theorem orderly_restartCompletionFailure {request : ApplicationRequest} {uncertain : Bool} :
    (restartCompletionFailure active request state uncertain paths evidence).Orderly
      A.discipline := by
  refine Process.orderly_read_bind fun h _ => ?_
  refine Process.orderly_ofExcept_bind fun receipt _ => ?_
  exact (orderly_restartSealTerminalReceipt _ _ _).bind fun _ => Process.orderly_pure _

theorem orderly_restartCompleted {completed : CompletedEvidence} :
    (restartCompleted active completed evidence).Orderly A.discipline := by
  refine Process.orderly_ofExcept_bind fun receipt _ => ?_
  exact (orderly_restartSealTerminalReceipt _ _ _).bind fun _ => Process.orderly_pure _

/-- Retained evidence that is reused belongs to the attempt as new evidence does. -/
theorem resumeEvidence_belongsTo {attempt : ApplicationAttempt} {header : JournalHeader}
    {completed : CompletedEvidence} {retained : Option CompletedEvidence} {e : ResumedEvidence}
    (hok : resumeEvidence A.request attempt state header paths completed retained = .ok e)
    (hattempt : attempt = A.attempt) (hheader : header = A.header)
    (hcompleted : completed.BelongsTo A) : e.completed.BelongsTo A := by
  cases retained with
  | none =>
    simp only [resumeEvidence, pure, Except.pure, Except.ok.injEq] at hok
    rw [← hok]
    exact hcompleted
  | some retained =>
    simp only [resumeEvidence, bind_eq_ok_iff, refuseIf_eq_ok] at hok
    obtain ⟨_, hauthority, expected, hexpected, _, hsame, hreuse⟩ := hok
    have hmade : retained.MadeFor A.request := by
      rw [← not_not.mp hsame]
      exact ⟨_, _, _, _, _, _, hexpected⟩
    push Not at hauthority
    obtain ⟨-, hrequest, hplan, hattempt', htarget, hcontrol, hjournal⟩ := hauthority
    split at hreuse
    · cases hreuse
      exact ⟨hrequest, hplan, hattempt'.trans hattempt, htarget, hcontrol, hjournal.trans hheader,
        hmade⟩
    · cases hreuse
      exact hcompleted

/-- Completed evidence is retained as the mechanism published it. -/
theorem orderly_restartPublication {effect : JournalEffect}
    (hkind : effect.kind = .publishCompletedEvidence) {completed : CompletedEvidence}
    (hbelongs : completed.BelongsTo A) :
    (restartPublication effect completed).Orderly A.discipline := by
  refine (orderly_restartPublishIntent _ _).bind fun _ last v hv => ?_
  refine Process.obeys_perform_bind (announced_of_none rfl) fun publication v' hv' => ?_
  refine Process.obeys_ofExcept_bind fun _ _ => ?_
  refine Process.obeys_ofExcept_bind fun terminal hterminal => ?_
  exact obeys_restartPublishTerminal_bind hv' (terminalEvent_ne_intent hterminal)
    (retains_publication hkind hbelongs hterminal) (Process.orderly_pure _)

theorem orderly_refreshPublication {completed : CompletedEvidence} :
    (refreshPublication completed).Orderly A.discipline :=
  (orderly_mechanism rfl).bind fun _ =>
    Process.orderly_ofExcept_bind fun _ _ => Process.orderly_pure _

theorem orderly_resumePublication {e : ResumedEvidence} (hbelongs : e.completed.BelongsTo A) :
    (resumePublication view e).Orderly A.discipline := by
  refine Process.orderly_read_bind fun h _ => ?_
  refine Process.orderly_ofExcept_bind fun effect heffect => ?_
  obtain ⟨-, hkind, -⟩ := findEffect_spec heffect
  dsimp only
  refine Process.orderly_ofExcept_bind fun _ _ => ?_
  split
  · exact (orderly_restartPublication hkind hbelongs).map _
  · split
    · exact orderly_refreshPublication.map _
    · exact Process.orderly_pure _

theorem orderly_resumeEvidenceDurability {refresh : Bool} :
    (resumeEvidenceDurability view refresh).Orderly A.discipline := by
  refine Process.orderly_read_bind fun h _ => ?_
  refine Process.orderly_ofExcept_bind fun effect heffect => ?_
  obtain ⟨-, hkind, -⟩ := findEffect_spec heffect
  split
  · exact orderly_restartSynchronize (by rw [hkind]; rfl) _ _
  · split
    · exact (orderly_mechanism rfl).bind fun _ =>
        Process.orderly_ofExcept_bind fun _ _ => Process.orderly_pure _
    · exact Process.orderly_pure _

theorem orderly_resumeResultObserved : resumeResultObserved.Orderly A.discipline := by
  refine Process.orderly_read_bind fun h _ => ?_
  split
  · exact Process.orderly_pure _
  · exact orderly_publishState _ _ _

/-- Evidence belongs to the attempt before it is published. -/
theorem orderly_resumeConclusion
    (hattempt : active.rejected.prepared.journaled.attempt = A.attempt) :
    (resumeConclusion active view A.request state paths evidence).Orderly A.discipline := by
  refine orderly_resumeResultObserved.bind fun _ => ?_
  refine Process.orderly_read_bind fun h hd => ?_
  refine Process.orderly_ofExcept_bind fun completed hcompleted => ?_
  have hbelongs := CompletedEvidence.belongsTo_of_make hcompleted hattempt hd.header
  refine Process.orderly_ofExcept_bind fun e he => ?_
  have hresumed := resumeEvidence_belongsTo he hattempt hd.header hbelongs
  refine (orderly_resumePublication hresumed).bind fun publication => ?_
  dsimp only
  split
  · refine orderly_resumeEvidenceDurability.bind fun status => ?_
    split
    · exact orderly_restartCompleted
    · exact orderly_restartCompletionFailure
  · exact orderly_restartCompletionFailure

theorem orderly_resumeCompletion :
    (resumeCompletion active view A.request state).Orderly A.discipline := by
  refine Process.orderly_read_bind fun h hd => ?_
  refine Process.orderly_ofExcept_bind fun _ hbinding => ?_
  have hattempt := validateBinding_attempt hd hbinding
  refine Process.orderly_ofExcept_bind fun _ _ => ?_
  refine (orderly_mechanism rfl).bind fun observations => ?_
  refine (orderly_resumeObservations _ _).bind fun observed => ?_
  split
  · exact (orderly_resumeConclusion hattempt).bind fun _ => Process.orderly_pure _
  · exact orderly_interruptObservation.bind fun _ => Process.orderly_pure _

end Completion

/-! ## Whole processes -/

section Processes

variable {A : AdmittedApplication} {app : JournaledApplication}
  {rejected : RejectedPublishedApplication} {view : RestartView}
  {state : LeaseBoundStateProjection}

theorem orderly_finishActive : (finishActive rejected A.request state).Orderly A.discipline := by
  refine orderly_executeActive.bind fun result => ?_
  cases result with
  | inl interrupted => exact orderly_recoverInterrupted
  | inr active =>
    refine orderly_completeApplication.bind fun result => ?_
    cases result with
    | inl receipt => exact Process.orderly_pure _
    | inr interrupted => exact orderly_recoverInterrupted

/-- The constructor of an application only checks it. -/
theorem journaledApplication_make_eq_ok {h : JournalHistory} {app' : JournaledApplication}
    (hok : JournaledApplication.make app h = .ok app') : app' = app := by
  unfold JournaledApplication.make at hok
  simp only [bind_eq_ok_iff, refuseIf_eq_ok, pure, Except.pure, Except.ok.injEq] at hok
  obtain ⟨_, -, _, -, _, -, rfl⟩ := hok
  rfl

/-- An application obeys the discipline. -/
theorem orderly_runApplication (happ : app.captures = A.captures) :
    (runApplication app A.request state).Orderly A.discipline := by
  refine Process.orderly_read_bind fun h _ => ?_
  refine Process.orderly_ofExcept_bind fun app' hok => ?_
  rw [journaledApplication_make_eq_ok hok]
  refine (orderly_prepareApplication happ state).bind fun result => ?_
  cases result with
  | inl receipt => exact Process.orderly_pure _
  | inr prepared =>
    refine orderly_publishRejected.bind fun result => ?_
    cases result with
    | inl receipt => exact Process.orderly_pure _
    | inr rejected => exact orderly_finishActive

theorem orderly_finishForward :
    (finishForward rejected view A.request state).Orderly A.discipline := by
  refine orderly_resumeActiveExecution.bind fun result => ?_
  cases result with
  | inl interrupted => exact orderly_resumeRecovery
  | inr active =>
    refine orderly_resumeCompletion.bind fun result => ?_
    cases result with
    | inl receipt => exact Process.orderly_pure _
    | inr interrupted => exact orderly_resumeRecovery

theorem orderly_finishPublished {disposition : RestartDisposition} :
    (finishPublished disposition rejected view A.request state).Orderly A.discipline := by
  unfold finishPublished
  split
  · exact orderly_restartInterruption.bind fun _ => orderly_resumeRecovery
  · exact orderly_finishForward

/-- The phases of a restart, once its journal is reopened. -/
theorem orderly_finishReplay (happ : app.captures = A.captures) :
    (finishReplay app view A.request state).Orderly A.discipline := by
  refine Process.orderly_read_bind fun h _ => ?_
  refine Process.orderly_ofExcept_bind fun disposition _ => ?_
  refine (orderly_resumePreparation happ).bind fun result => ?_
  cases result with
  | inl receipt => exact Process.orderly_pure _
  | inr prepared =>
    refine orderly_resumeRejectedPublication.bind fun result => ?_
    cases result with
    | inl receipt => exact Process.orderly_pure _
    | inr rejected => exact orderly_finishPublished

/-- A restart rebuilds the captures of the request. -/
theorem reopenApplication_captures {session : RestartSession} {h : JournalHistory}
    (hok : reopenApplication A.request session h = .ok (app, view)) :
    app.captures = A.captures := by
  unfold reopenApplication rebuildRestartApplication at hok
  simp only [bind_eq_ok_iff, pure, Except.pure, Except.ok.injEq, Prod.mk.injEq] at hok
  obtain ⟨_, -, _, -, _, -, _, -, app', ⟨_, -, inputs, hinputs, _, hmake, _, -, rfl⟩, rfl, -⟩ := hok
  rw [A.prepared] at hinputs
  cases hinputs
  rw [journaledApplication_make_eq_ok hmake]

/-- A restart obeys the discipline. -/
theorem orderly_runRestart (session : RestartSession) :
    (runRestart A.request session).Orderly A.discipline := by
  refine Process.orderly_read_bind fun h _ => ?_
  refine Process.orderly_ofExcept_bind fun reopened hok => ?_
  obtain ⟨app, view⟩ := reopened
  exact orderly_finishReplay (reopenApplication_captures hok)

end Processes

end PkgApply
