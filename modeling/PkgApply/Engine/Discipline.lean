import PkgApply.Engine.Graph
import PkgApply.Engine.Recovery
import PkgApply.Library.Discipline
import PkgApply.Restart.View

/-!
# The discipline of the engine

Write-ahead: a call that changes the target or the rejected store comes right
after the journaled intent of its effect.  Retention: a terminal event comes
right after the call that ended its effect and retains what that call
returned.  Every process of the engine obeys both.
-/

namespace PkgApply

open Library

/-- The effect whose intent must precede a mechanism call. -/
def MechanismRequest.effect : MechanismRequest → Option (EffectKind × PackagePath)
  | executeRejected request => some (.publishRejectedObject, request.path)
  | executeActive request => some (.publishActiveObject, request.path)
  | recover path => some (.recoverActiveObject, path)
  | _ => none

/-- A transition that journals the intent of the effect of one kind at one path. -/
def Transition.Intends (t : Transition) (kind : EffectKind) (path : PackagePath) : Prop :=
  ∃ e, t.event = some e ∧ e.kind = .intent ∧ e.effect.kind = kind ∧ e.effect.path = some path

/-- The last call journaled the intent of the effect a request belongs to. -/
def Announced (last : Option EngineCall) (request : MechanismRequest) : Prop :=
  ∀ kind path, request.effect = some (kind, path) →
    ∃ t, last = some ⟨.journal t, ()⟩ ∧ t.Intends kind path

/-- The last call journaled a staging effect with this fact. -/
def StagedBefore (last : Option EngineCall) (fact : Option ReplayFact) : Prop :=
  ∃ t e, last = some ⟨.journal t, ()⟩ ∧ t.event = some e ∧ e.kind ≠ .intent ∧
    e.effect.kind = .stageIncomingPayload ∧ t.replayFact = fact

/-- Completed evidence of an attempt. -/
structure CompletedEvidence.BelongsTo (evidence : CompletedEvidence) (A : AdmittedApplication) :
    Prop where
  request : evidence.request = A.request.identity
  plan : evidence.plan = A.plan.identity
  attempt : evidence.attempt = A.attempt
  target : evidence.target = A.request.target
  control : evidence.control = A.control.identity
  journal : evidence.journal = A.header
  made : evidence.MadeFor A.request

/-- A terminal event retains what the last call returned. -/
def Retains (A : AdmittedApplication) (last : Option EngineCall) (e : TransitionEvent)
    (fact : Option ReplayFact) : Prop :=
  match e.effect.kind with
  | .captureOldObject =>
    ∃ request ∈ A.captures, ∃ result : OldObjectCaptureResult,
      last = some ⟨.mechanism (.captureOld request), result⟩ ∧
        e.effect.path = some request.path ∧ e.evidence = result.evidence ∧
        terminalEvent (captureSemanticOutcome A.control request result) = .ok e.kind ∧
        fact = some (.capture result)
  | .stageIncomingPayload =>
    ∃ result : BackendOperationResult,
      ((∃ stage : PayloadStageResult, last = some ⟨.mechanism .sealPayloadStage, stage⟩ ∧
          stage.result = result) ∨ StagedBefore last fact) ∧
        e.evidence = result.evidence ∧ terminalEvent result.outcome = .ok e.kind ∧
        fact = some (.payloadSeal result)
  | .publishRejectedObject =>
    ∃ command, ∃ result : RejectedObjectPublicationResult,
      last = some ⟨.mechanism (.executeRejected command), result⟩ ∧
        e.effect.path = some command.path ∧ e.evidence = result.evidence ∧
        terminalEvent result.outcome = .ok e.kind ∧
        fact = some (.rejectedEffect command.path result)
  | .publishActiveObject =>
    ∃ command, ∃ result : BackendOperationResult,
      last = some ⟨.mechanism (.executeActive command), result⟩ ∧
        e.effect.path = some command.path ∧ e.evidence = result.evidence ∧
        activeTerminalEvent result.outcome = .ok e.kind ∧
        fact = some (.activeEffect command.path result)
  | .recoverActiveObject =>
    ∃ path, ∃ result : BackendOperationResult,
      last = some ⟨.mechanism (.recover path), result⟩ ∧ e.effect.path = some path ∧
        e.evidence = result.evidence ∧ terminalEvent result.outcome = .ok e.kind ∧
        fact = some (.recoveryEffect path result)
  | .publishCompletedEvidence =>
    ∃ evidence : CompletedEvidence, ∃ publication : CompletedEvidencePublicationResult,
      last = some ⟨.mechanism (.publishCompletedEvidence evidence), publication⟩ ∧
        evidence.BelongsTo A ∧ e.evidence = publication.evidence ∧
        terminalEvent publication.outcome = .ok e.kind ∧
        fact = if publication.outcome = .completed then some (.completedEvidence evidence) else none
  | .observeResult | .sealReceipt => fact = none
  | .synchronizeIncomingStaging | .synchronizeRecoveryStaging | .synchronizeActiveNamespace
  | .synchronizeRejectedStore | .synchronizeCompletedEvidence | .synchronizeRecoveredNamespace =>
    ∃ result : DurabilityFact, ∃ unattempted,
      last = some ⟨.mechanism (.synchronize e.effect.kind result.domain), result⟩ ∧
        synchronizationDomain e.effect.kind = .ok result.domain ∧ e.evidence = ∅ ∧
        synchronizationEvent unattempted result.status = .ok e.kind ∧
        fact = some (.synchronization result)

/-- What the engine may do next. -/
def AdmittedApplication.allows (A : AdmittedApplication) (last : Option EngineCall) :
    EngineOp → Prop
  | .mechanism request => Announced last request
  | .journal t =>
    match t.event with
    | none => t.replayFact = none
    | some e => if e.kind = .intent then t.replayFact = none else Retains A last e t.replayFact

/-- The discipline of one attempt. -/
def AdmittedApplication.discipline (A : AdmittedApplication) :
    Discipline engineSignature JournalHistory where
  view := A.Declares
  call := fun last _ op => A.allows last op

/-! ## Rules for engine operations -/

section Rules

variable {A : AdmittedApplication} {last : Option EngineCall} {h : JournalHistory} {α : Type}

theorem matchingEffects_spec {effects : List JournalEffect} {kind : EffectKind}
    {path : Option PackagePath} {e : JournalEffect} (he : e ∈ matchingEffects effects kind path) :
    e.kind = kind ∧ e.path = path := by
  unfold matchingEffects at he
  rw [List.mem_filter, Bool.and_eq_true, beq_iff_eq, beq_iff_eq] at he
  exact he.2

/-- An effect that is found has the kind and path it was looked for under. -/
theorem findEffect_spec {effects : List JournalEffect} {kind : EffectKind}
    {path : Option PackagePath} {e : JournalEffect} (h : findEffect effects kind path = .ok e) :
    e ∈ effects ∧ e.kind = kind ∧ e.path = path := by
  unfold findEffect at h
  split at h
  · rename_i effect heq
    cases h
    have hmem : e ∈ matchingEffects effects kind path := by
      rw [heq]
      exact List.mem_singleton_self e
    exact ⟨List.mem_of_mem_filter hmem, matchingEffects_spec hmem⟩
  · cases h
  · cases h

/-- A terminal event is allowed if it retains what the last call returned. -/
theorem allows_terminal {state : JournalState} {effect : JournalEffect} {kind : EventKind}
    {evidence : Evidence} {fact : Option ReplayFact} {receipt : Option ApplicationReceipt}
    {completed : Option CompletedEvidence} (hkind : kind ≠ .intent)
    (h : Retains A last ⟨effect, kind, evidence⟩ fact) :
    A.allows last (.journal ⟨state, some ⟨effect, kind, evidence⟩, fact, receipt, completed⟩) := by
  simp only [AdmittedApplication.allows, if_neg hkind]
  exact h

/-- A call without an effect of its own needs no intent. -/
theorem announced_of_none {request : MechanismRequest} (hr : request.effect = none) :
    Announced last request := by
  intro kind path heq
  rw [hr] at heq
  cases heq

theorem announced_after_intent {request : MechanismRequest} {state : JournalState}
    {effect : JournalEffect} {kind : EffectKind} {path : PackagePath}
    (hr : request.effect = some (kind, path)) (hkind : effect.kind = kind)
    (hpath : effect.path = some path) :
    Announced (some ⟨.journal ⟨state, some ⟨effect, .intent, ∅⟩, none, none, none⟩, ()⟩)
      request := by
  intro kind' path' heq
  rw [hr] at heq
  cases heq
  exact ⟨_, rfl, _, rfl, rfl, hkind, hpath⟩

theorem orderly_publishState (state : JournalState) (receipt : Option ApplicationReceipt)
    (evidence : Option CompletedEvidence) :
    (publishState state receipt evidence).Orderly A.discipline :=
  fun _ _ _ => Process.obeys_perform rfl

theorem orderly_mechanism {request : MechanismRequest} (hr : request.effect = none) :
    (Engine.mechanism request).Orderly A.discipline :=
  fun _ _ _ => Process.obeys_perform (announced_of_none hr)

theorem orderly_intent (state : JournalState) (effect : JournalEffect) :
    (publishEvent state effect .intent).Orderly A.discipline :=
  fun _ _ _ => Process.obeys_perform rfl

/-- After an intent, the last call is that intent. -/
theorem obeys_intent_bind {state : JournalState} {effect : JournalEffect} {f : Unit → Engine α}
    (hf : ∀ v, A.Declares v → (f ()).Obeys A.discipline
      (some ⟨.journal ⟨state, some ⟨effect, .intent, ∅⟩, none, none, none⟩, ()⟩) v) :
    (publishEvent state effect .intent >>= f).Obeys A.discipline last h :=
  ⟨rfl, fun _ v hv => hf v hv⟩

theorem terminalEvent_ne_intent {outcome : BackendOperationOutcome} {kind : EventKind}
    (h : terminalEvent outcome = .ok kind) : kind ≠ .intent := by
  cases outcome <;> simp [terminalEvent] at h <;> simp [← h]

theorem activeTerminalEvent_ne_intent {outcome : BackendOperationOutcome} {kind : EventKind}
    (h : activeTerminalEvent outcome = .ok kind) : kind ≠ .intent := by
  cases outcome <;> simp [activeTerminalEvent, terminalEvent] at h <;> simp [← h]

theorem synchronizationEvent_ne_intent {e : Exn} {status : DurabilityStatus} {kind : EventKind}
    (h : synchronizationEvent e status = .ok kind) : kind ≠ .intent := by
  cases status <;> simp [synchronizationEvent] at h <;> simp [← h]

/-- A synchronization is retained under the domain of its effect. -/
theorem retains_synchronization {effect : JournalEffect} {kind : EffectKind}
    {domain : DurabilityDomain} {fact : DurabilityFact} {unattempted : Exn} {terminal : EventKind}
    (hkind : effect.kind = kind) (hdomain : synchronizationDomain kind = .ok domain)
    (hsame : fact.domain = domain)
    (hterminal : synchronizationEvent unattempted fact.status = .ok terminal) :
    Retains A (some ⟨.mechanism (.synchronize kind domain), fact⟩) ⟨effect, terminal, ∅⟩
      (some (.synchronization fact)) := by
  subst hkind
  subst hsame
  unfold Retains
  split
  case h_9 | h_10 | h_11 | h_12 | h_13 | h_14 =>
    exact ⟨fact, unattempted, rfl, hdomain, rfl, hterminal, rfl⟩
  all_goals
    rename_i hkind
    rw [hkind] at hdomain
    cases hdomain

end Rules

/-! ## Preparation -/

section Preparation

variable {A : AdmittedApplication} {app : JournaledApplication}

theorem orderly_captureOldObject {request : OldObjectCaptureRequest} (hr : request ∈ A.captures) :
    (captureOldObject app A.control request).Orderly A.discipline := by
  refine Process.orderly_read_bind fun h _ => ?_
  refine Process.orderly_ofExcept_bind fun effect heffect => ?_
  obtain ⟨-, hkind, hpath⟩ := findEffect_spec heffect
  refine (orderly_intent _ _).bind fun _ last h hd => ?_
  refine Process.obeys_perform_bind (announced_of_none rfl) fun captured h' hd' => ?_
  refine Process.obeys_ofExcept_bind fun _ _ => ?_
  refine Process.obeys_ofExcept_bind fun terminal hterminal => ?_
  refine Process.obeys_perform_bind (allows_terminal (terminalEvent_ne_intent hterminal) ?_)
    fun _ _ _ => Process.obeys_pure _
  unfold Retains
  rw [hkind]
  exact ⟨request, hr, captured, rfl, hpath, rfl, hterminal, rfl⟩

theorem orderly_captureOldObjects {requests : List OldObjectCaptureRequest}
    (hr : ∀ r ∈ requests, r ∈ A.captures) (acc : CapturePreparation) :
    (captureOldObjects app A.control requests acc).Orderly A.discipline := by
  induction requests generalizing acc with
  | nil => exact Process.orderly_pure _
  | cons request rest ih =>
    refine (orderly_captureOldObject (hr request List.mem_cons_self)).bind fun captured => ?_
    dsimp only
    split
    · exact ih (fun r hmem => hr r (List.mem_cons_of_mem _ hmem)) _
    · exact Process.orderly_pure _

theorem orderly_stageIntents (paths : List PackagePath) :
    (stageIntents paths).Orderly A.discipline := by
  induction paths with
  | nil => exact Process.orderly_pure _
  | cons path rest ih =>
    refine Process.orderly_read_bind fun h _ => ?_
    refine Process.orderly_ofExcept_bind fun effect _ => ?_
    exact (orderly_intent _ _).bind fun _ => ih

/-- Terminal events of staging follow the seal, or one another. -/
theorem obeys_stageTerminals {sealed : BackendOperationResult} {terminal : EventKind}
    (hterminal : terminalEvent sealed.outcome = .ok terminal) (paths : List PackagePath)
    {last : Option EngineCall} {v : JournalHistory} (hv : A.Declares v)
    (hlast : (∃ stage : PayloadStageResult, last = some ⟨.mechanism .sealPayloadStage, stage⟩ ∧
      stage.result = sealed) ∨ StagedBefore last (some (.payloadSeal sealed))) :
    (stageTerminals terminal sealed paths).Obeys A.discipline last v := by
  induction paths generalizing last v with
  | nil => exact Process.obeys_pure _
  | cons path rest ih =>
    refine Process.obeys_read_bind ?_
    refine Process.obeys_ofExcept_bind fun effect heffect => ?_
    obtain ⟨-, hkind, -⟩ := findEffect_spec heffect
    have hne := terminalEvent_ne_intent hterminal
    refine Process.obeys_perform_bind (allows_terminal hne ?_) fun _ v' hv' => ?_
    · unfold Retains
      rw [hkind]
      exact ⟨sealed, hlast, rfl, hterminal, rfl⟩
    · exact ih hv' (.inr ⟨_, _, rfl, rfl, hne, hkind, rfl⟩)

theorem obeys_sealStage_bind {payloads : IncomingPayloadPlan} {α : Type}
    {f : BackendOperationResult → Engine α} {last : Option EngineCall} {v : JournalHistory}
    (hf : ∀ (stage : PayloadStageResult) v', A.Declares v' →
      (f stage.result).Obeys A.discipline (some ⟨.mechanism .sealPayloadStage, stage⟩) v') :
    (sealStage payloads >>= f).Obeys A.discipline last v := by
  refine ⟨announced_of_none rfl, fun _ v₁ _ =>
    ⟨announced_of_none rfl, fun (stage : PayloadStageResult) v₂ hv₂ => ?_⟩⟩
  let guard := refuseIf ((stage.result.outcome == .completed) ≠ stage.sealed)
    (.logicError "payload stage seal state contradicts outcome")
  change (((Process.ofExcept guard).bind fun _ => Process.pure stage.result).bind f).Obeys _ _ _
  cases guard with
  | ok _ => exact hf stage v₂ hv₂
  | error e => exact trivial

theorem orderly_stageIncomingPayloads (app : JournaledApplication) :
    (stageIncomingPayloads app).Orderly A.discipline := by
  unfold stageIncomingPayloads
  split
  · exact Process.orderly_pure _
  · split
    · exact Process.orderly_pure _
    · refine (orderly_stageIntents _).bind fun _ => ?_
      refine Process.orderly_ofExcept_bind fun _ _ => ?_
      intro last v hv
      refine obeys_sealStage_bind fun stage v₂ hv₂ => ?_
      refine Process.obeys_ofExcept_bind fun terminal hterminal => ?_
      refine Process.Obeys.bind hv₂ ?_ fun _ => Process.orderly_pure _
      exact obeys_stageTerminals hterminal _ hv₂ (.inl ⟨stage, rfl, rfl⟩)

theorem orderly_synchronizeDomain {kind : EffectKind} {domain : DurabilityDomain}
    (hdomain : synchronizationDomain kind = .ok domain) (state : JournalState)
    (mismatch unattempted : String) :
    (synchronizeDomain state kind domain mismatch unattempted).Orderly A.discipline := by
  refine Process.orderly_read_bind fun h _ => ?_
  refine Process.orderly_ofExcept_bind fun effect heffect => ?_
  obtain ⟨-, hkind, -⟩ := findEffect_spec heffect
  refine (orderly_intent _ _).bind fun _ last v hv => ?_
  refine Process.obeys_perform_bind (announced_of_none rfl) fun fact v' hv' => ?_
  refine Process.obeys_ofExcept_bind fun _ hsame => ?_
  refine Process.obeys_ofExcept_bind fun terminal hterminal => ?_
  refine Process.obeys_perform_bind
    (allows_terminal (synchronizationEvent_ne_intent hterminal) ?_)
    fun _ _ _ => Process.obeys_pure _
  exact retains_synchronization hkind hdomain (not_not.mp (refuseIf_eq_ok.mp hsame)) hterminal

theorem orderly_failPreparation {request : ApplicationRequest}
    {state : LeaseBoundStateProjection} {incoming recovery : DurabilityStatus}
    {evidence : Evidence} :
    (failPreparation app request state incoming recovery evidence).Orderly A.discipline := by
  refine Process.orderly_read_bind fun h _ => ?_
  refine Process.orderly_ofExcept_bind fun receipt _ => ?_
  exact (orderly_publishState _ _ _).bind fun _ => Process.orderly_pure _

theorem orderly_finishPreparation {captures : List OldObjectCaptureResult}
    {incoming recovery : DurabilityStatus} {evidence : Evidence} :
    (finishPreparation app captures incoming recovery evidence).Orderly A.discipline :=
  (orderly_publishState _ _ _).bind fun _ => Process.orderly_ofExcept _

theorem orderly_synchronizeStaged {staged : DurabilityStatus} {domain : DurabilityDomain}
    {kind : EffectKind} (hdomain : synchronizationDomain kind = .ok domain) :
    (synchronizeStaged staged domain kind).Orderly A.discipline := by
  unfold synchronizeStaged
  split
  · exact Process.orderly_pure _
  · exact (orderly_synchronizeDomain hdomain _ _ _).map _

theorem orderly_prepareApplication (happ : app.captures = A.captures)
    (state : LeaseBoundStateProjection) :
    (prepareApplication app A.request state).Orderly A.discipline := by
  refine Process.orderly_read_bind fun h _ => ?_
  refine Process.orderly_ofExcept_bind fun _ _ => ?_
  refine (orderly_captureOldObjects (fun r hr => happ ▸ hr) _).bind fun captures => ?_
  split
  · exact orderly_failPreparation.bind fun _ => Process.orderly_pure _
  refine (orderly_stageIncomingPayloads app).bind fun sealed => ?_
  dsimp only
  split
  · exact orderly_failPreparation.bind fun _ => Process.orderly_pure _
  refine (orderly_synchronizeStaged rfl).bind fun incoming => ?_
  split
  · exact orderly_failPreparation.bind fun _ => Process.orderly_pure _
  refine (orderly_synchronizeStaged rfl).bind fun recovery => ?_
  split
  · exact orderly_failPreparation.bind fun _ => Process.orderly_pure _
  · exact orderly_finishPreparation.bind fun _ => Process.orderly_pure _

end Preparation

/-! ## Rejected publication -/

section Rejected

variable {A : AdmittedApplication} {prepared : PreparedApplication} {plan : OperationPlan}
  {step : EffectStep}

/-- A rejected command is about the path of its step. -/
theorem rejectedEffectRequest_path {command : BackendRejectedEffectRequest}
    (h : rejectedEffectRequest plan step = .ok command) : command.path = step.path := by
  unfold rejectedEffectRequest at h
  cases hd : plan.decision step.path with
  | none => simp [hd, throw, throwThe, MonadExceptOf.throw] at h
  | some d =>
    cases hobject : d.rejectedObject with
    | none => simp [hd, hobject, throw, throwThe, MonadExceptOf.throw] at h
    | some object =>
      simp only [hd, hobject, refuseIf_bind_eq_ok, pure, Except.pure, Except.ok.injEq] at h
      obtain ⟨hsame, -, rfl⟩ := h
      rw [not_or, not_not] at hsame
      exact hsame.1.trans (OperationPlan.decision_path hd)

theorem orderly_executeRejectedEffect :
    (executeRejectedEffect prepared plan step).Orderly A.discipline := by
  refine Process.orderly_ofExcept_bind fun command hcommand => ?_
  refine Process.orderly_ofExcept_bind fun _ _ => ?_
  refine Process.orderly_read_bind fun h _ last v hv => ?_
  refine Process.obeys_ofExcept_bind fun effect heffect => ?_
  obtain ⟨-, hkind, hpath⟩ := findEffect_spec heffect
  have hcommandPath := rejectedEffectRequest_path hcommand
  rw [← hcommandPath] at hpath ⊢
  refine obeys_intent_bind fun v₁ hv₁ => ?_
  refine Process.obeys_perform_bind (announced_after_intent rfl hkind hpath) fun result v₂ hv₂ => ?_
  refine Process.obeys_ofExcept_bind fun terminal hterminal => ?_
  refine Process.obeys_perform_bind (allows_terminal (terminalEvent_ne_intent hterminal) ?_)
    fun _ _ _ => Process.obeys_pure _
  unfold Retains
  rw [hkind]
  exact ⟨command, result, rfl, hpath, rfl, hterminal, rfl⟩

variable {request : ApplicationRequest} {state : LeaseBoundStateProjection}
  {effects : List RejectedEffectResult} {evidence : Evidence} {status : DurabilityStatus}

theorem orderly_failRejectedPublication {outcome : AttemptOutcome} {recovery : RecoveryState} :
    (failRejectedPublication prepared request state effects outcome recovery status
      evidence).Orderly A.discipline := by
  refine Process.orderly_ofExcept_bind fun paths _ => ?_
  refine Process.orderly_read_bind fun h _ => ?_
  refine Process.orderly_ofExcept_bind fun receipt _ => ?_
  exact (orderly_publishState _ _ _).bind fun _ => Process.orderly_pure _

theorem orderly_failRejectedEffect {outcome : BackendOperationOutcome} :
    (failRejectedEffect prepared request state effects outcome status evidence).Orderly
      A.discipline := by
  unfold failRejectedEffect
  split <;> exact orderly_failRejectedPublication

theorem orderly_failRejectedSynchronization :
    (failRejectedSynchronization prepared request state effects status evidence).Orderly
      A.discipline := by
  unfold failRejectedSynchronization
  split <;> exact orderly_failRejectedPublication

theorem orderly_executeRejected (steps : List EffectStep) :
    (executeRejected prepared request state steps effects).Orderly A.discipline := by
  induction steps generalizing effects with
  | nil => exact Process.orderly_pure _
  | cons step rest ih =>
    refine orderly_executeRejectedEffect.bind fun effect => ?_
    dsimp only
    split
    · exact ih
    · exact orderly_failRejectedEffect.bind fun _ => Process.orderly_pure _

theorem orderly_synchronizeRejectedStore {control : ExecutionControl} :
    (synchronizeRejectedStore control effects).Orderly A.discipline := by
  unfold synchronizeRejectedStore
  split
  · exact (orderly_synchronizeDomain rfl _ _ _).map _
  · exact Process.orderly_pure _

theorem orderly_publishRejected :
    (publishRejected prepared request state).Orderly A.discipline := by
  refine Process.orderly_read_bind fun h _ => ?_
  refine Process.orderly_ofExcept_bind fun _ _ => ?_
  refine (orderly_publishState _ _ _).bind fun _ => ?_
  refine (orderly_executeRejected _).bind fun result => ?_
  cases result with
  | inl receipt => exact Process.orderly_pure _
  | inr effects =>
    refine orderly_synchronizeRejectedStore.bind fun status => ?_
    dsimp only
    split
    · refine Process.orderly_read_bind fun h _ => ?_
      exact Process.orderly_ofExcept_bind fun _ _ => Process.orderly_pure _
    · exact orderly_failRejectedSynchronization.bind fun _ => Process.orderly_pure _

end Rejected

/-! ## Active mutation -/

section Active

variable {A : AdmittedApplication} {prepared : PreparedApplication} {plan : OperationPlan}
  {step : EffectStep}

/-- An active command is about the path of its step. -/
theorem activeEffectRequest_path {command : BackendActiveEffectRequest}
    (h : activeEffectRequest plan step = .ok command) : command.path = step.path := by
  unfold activeEffectRequest at h
  cases hd : plan.decision step.path with
  | none => simp [hd, throw, throwThe, MonadExceptOf.throw] at h
  | some d =>
    have hmake : ∀ {outcome entry}, BackendActiveEffectRequest.make d.path outcome entry =
        .ok command → command.path = step.path := by
      intro outcome entry hok
      unfold BackendActiveEffectRequest.make at hok
      split at hok
      · cases hok
      · cases hok
        exact OperationPlan.decision_path hd
    simp only [hd] at h
    split at h
    · exact hmake (refuseIf_bind_eq_ok.mp h).2
    · exact hmake (refuseIf_bind_eq_ok.mp h).2
    · exact hmake (refuseIf_bind_eq_ok.mp h).2
    · cases h
    · cases h

theorem orderly_executeActiveEffect :
    (executeActiveEffect prepared plan step).Orderly A.discipline := by
  refine Process.orderly_ofExcept_bind fun command hcommand => ?_
  refine Process.orderly_ofExcept_bind fun _ _ => ?_
  refine Process.orderly_read_bind fun h _ last v hv => ?_
  refine Process.obeys_ofExcept_bind fun effect heffect => ?_
  obtain ⟨-, hkind, hpath⟩ := findEffect_spec heffect
  have hcommandPath := activeEffectRequest_path hcommand
  rw [← hcommandPath] at hpath ⊢
  refine obeys_intent_bind fun v₁ hv₁ => ?_
  refine Process.obeys_perform_bind (announced_after_intent rfl hkind hpath) fun result v₂ hv₂ => ?_
  refine Process.obeys_ofExcept_bind fun applied _ => ?_
  refine Process.obeys_ofExcept_bind fun terminal hterminal => ?_
  refine Process.obeys_perform_bind (allows_terminal (activeTerminalEvent_ne_intent hterminal) ?_)
    fun _ _ _ => Process.obeys_pure _
  unfold Retains
  rw [hkind]
  exact ⟨command, result, rfl, hpath, rfl, hterminal, rfl⟩

variable {rejected : RejectedPublishedApplication} {request : ApplicationRequest}
  {state : LeaseBoundStateProjection} {effects : List ActiveEffectResult} {evidence : Evidence}
  {status : DurabilityStatus}

theorem orderly_interruptActiveExecution {interruption : ActiveInterruption} :
    (interruptActiveExecution rejected effects interruption status evidence).Orderly
      A.discipline := by
  refine (orderly_publishState _ _ _).bind fun _ => ?_
  exact Process.orderly_read_bind fun _ _ => Process.orderly_ofExcept _

theorem orderly_interruptActiveEffect {outcome : BackendOperationOutcome} :
    (interruptActiveEffect rejected effects outcome evidence).Orderly A.discipline := by
  unfold interruptActiveEffect
  split <;> exact orderly_interruptActiveExecution

theorem orderly_executeActiveEffects (steps : List EffectStep) :
    (executeActiveEffects rejected plan steps effects).Orderly A.discipline := by
  induction steps generalizing effects with
  | nil => exact Process.orderly_pure _
  | cons step rest ih =>
    refine orderly_executeActiveEffect.bind fun effect => ?_
    dsimp only
    split
    · exact ih
    · exact orderly_interruptActiveEffect.bind fun _ => Process.orderly_pure _

theorem orderly_interruptActiveSynchronization :
    (interruptActiveSynchronization rejected effects status evidence).Orderly A.discipline := by
  unfold interruptActiveSynchronization
  split <;> exact orderly_interruptActiveExecution

theorem orderly_completeActiveExecution :
    (completeActiveExecution rejected effects status evidence).Orderly A.discipline := by
  refine (orderly_publishState _ _ _).bind fun _ => ?_
  exact Process.orderly_read_bind fun _ _ => Process.orderly_ofExcept _

theorem orderly_executeActive :
    (executeActive rejected request state).Orderly A.discipline := by
  refine Process.orderly_read_bind fun h _ => ?_
  refine Process.orderly_ofExcept_bind fun _ _ => ?_
  refine (orderly_executeActiveEffects _).bind fun result => ?_
  cases result with
  | inl interrupted => exact Process.orderly_pure _
  | inr effects =>
    dsimp only
    split
    · refine (orderly_synchronizeDomain rfl _ _ _).bind fun fact => ?_
      split
      · exact orderly_completeActiveExecution.bind fun _ => Process.orderly_pure _
      · exact orderly_interruptActiveSynchronization.bind fun _ => Process.orderly_pure _
    · exact orderly_completeActiveExecution.bind fun _ => Process.orderly_pure _

end Active

/-! ## Completion -/

section Completion

variable {A : AdmittedApplication} {active : ActiveMutatedApplication}
  {request : ApplicationRequest} {state : LeaseBoundStateProjection}
  {paths : List PathConsequence} {evidence : Evidence}

/-- The seal of a receipt retains nothing. -/
theorem orderly_seal {effect : JournalEffect} (hkind : effect.kind = .sealReceipt)
    (state : JournalState) (receipt : Option ApplicationReceipt)
    (completed : Option CompletedEvidence) :
    (publishEvent state effect .completed ∅ none receipt completed).Orderly A.discipline := by
  intro last v hv
  have hretains : Retains A last ⟨effect, .completed, ∅⟩ none := by
    unfold Retains
    rw [hkind]
  exact Process.obeys_perform (allows_terminal (by decide) hretains)

theorem orderly_sealTerminalReceipt (state : JournalState) (receipt : ApplicationReceipt)
    (completed : Option CompletedEvidence) :
    (sealTerminalReceipt state receipt completed).Orderly A.discipline := by
  refine Process.orderly_read_bind fun h _ => ?_
  refine Process.orderly_ofExcept_bind fun effect heffect => ?_
  obtain ⟨-, hkind, -⟩ := findEffect_spec heffect
  exact (orderly_intent _ _).bind fun _ => orderly_seal hkind _ _ _

theorem orderly_sealCompletionFailure {uncertain : Bool} :
    (sealCompletionFailure active request state uncertain paths evidence).Orderly
      A.discipline := by
  refine Process.orderly_read_bind fun h _ => ?_
  refine Process.orderly_ofExcept_bind fun receipt _ => ?_
  exact (orderly_sealTerminalReceipt _ _ _).bind fun _ => Process.orderly_pure _

theorem orderly_sealCompleted {completed : CompletedEvidence} :
    (sealCompleted active completed evidence).Orderly A.discipline := by
  refine Process.orderly_ofExcept_bind fun receipt _ => ?_
  exact (orderly_sealTerminalReceipt _ _ _).bind fun _ => Process.orderly_pure _

theorem orderly_observeIntents (decisions : List PathDecision) :
    (observeIntents decisions).Orderly A.discipline := by
  induction decisions with
  | nil => exact Process.orderly_pure _
  | cons d rest ih =>
    refine Process.orderly_read_bind fun h _ => ?_
    refine Process.orderly_ofExcept_bind fun effect _ => ?_
    exact (orderly_intent _ _).bind fun _ => ih

theorem matchEvent_ne_intent (found : ResultObservationMatch) : matchEvent found ≠ .intent := by
  cases found <;> decide

/-- The verdict of an observation retains nothing. -/
theorem orderly_verdict {effect : JournalEffect} (hkind : effect.kind = .observeResult)
    {terminal : EventKind} (hterminal : terminal ≠ .intent) (state : JournalState)
    (evidence : Evidence) :
    (publishEvent state effect terminal evidence).Orderly A.discipline := by
  refine fun last v hv => Process.obeys_perform (allows_terminal hterminal ?_)
  unfold Retains
  rw [hkind]

theorem orderly_observeTerminals {image : Option PackageImage}
    {observations : BackendObservationBatch} (decisions : List PathDecision)
    (r : ObservedResult) :
    (observeTerminals active image observations decisions r).Orderly A.discipline := by
  induction decisions generalizing r with
  | nil => exact Process.orderly_pure _
  | cons d rest ih =>
    refine Process.orderly_ofExcept_bind fun observed _ => ?_
    obtain ⟨before, after⟩ := observed
    refine Process.orderly_ofExcept_bind fun found _ => ?_
    refine Process.orderly_read_bind fun h _ => ?_
    refine Process.orderly_ofExcept_bind fun effect heffect => ?_
    obtain ⟨-, hkind, -⟩ := findEffect_spec heffect
    refine (orderly_verdict hkind (matchEvent_ne_intent found) _ _).bind fun _ => ?_
    exact Process.orderly_ofExcept_bind fun r' _ => ih r'

theorem orderly_interruptObservation {indeterminate : Bool} :
    (interruptObservation active indeterminate evidence).Orderly A.discipline := by
  refine (orderly_publishState _ _ _).bind fun _ => ?_
  exact Process.orderly_read_bind fun _ _ => Process.orderly_ofExcept _

/-- A publication is retained with the evidence it was asked to publish. -/
theorem retains_publication {effect : JournalEffect} (hkind : effect.kind = .publishCompletedEvidence)
    {completed : CompletedEvidence} (hbelongs : completed.BelongsTo A)
    {publication : CompletedEvidencePublicationResult} {terminal : EventKind}
    (hterminal : terminalEvent publication.outcome = .ok terminal) :
    Retains A (some ⟨.mechanism (.publishCompletedEvidence completed), publication⟩)
      ⟨effect, terminal, publication.evidence⟩
      (if publication.outcome = .completed then some (.completedEvidence completed) else none) := by
  unfold Retains
  rw [hkind]
  exact ⟨completed, publication, rfl, hbelongs, rfl, hterminal, rfl⟩

theorem orderly_publishCompletedEvidence {completed : CompletedEvidence}
    (hbelongs : completed.BelongsTo A) :
    (publishCompletedEvidence completed).Orderly A.discipline := by
  refine Process.orderly_read_bind fun h _ => ?_
  refine Process.orderly_ofExcept_bind fun effect heffect => ?_
  obtain ⟨-, hkind, -⟩ := findEffect_spec heffect
  refine (orderly_intent _ _).bind fun _ last v hv => ?_
  refine Process.obeys_perform_bind (announced_of_none rfl) fun publication v' hv' => ?_
  refine Process.obeys_ofExcept_bind fun _ _ => ?_
  refine Process.obeys_ofExcept_bind fun terminal hterminal => ?_
  exact Process.obeys_perform_bind (allows_terminal (terminalEvent_ne_intent hterminal)
    (retains_publication hkind hbelongs hterminal)) fun _ _ _ => Process.obeys_pure _

/-- The phase's inputs name the attempt of the journal. -/
theorem validateBinding_attempt {app : JournaledApplication} {h : JournalHistory}
    {expected : List JournalState} {message : String} (hd : A.Declares h)
    (hok : validateBinding app request state h expected message = .ok ()) :
    app.attempt = A.attempt := by
  unfold validateBinding at hok
  rw [refuseIf_eq_ok] at hok
  push Not at hok
  obtain ⟨-, -, -, -, -, -, hattempt⟩ := hok
  rw [← hattempt, hd.header]
  rfl

/-- Completed evidence made of the request belongs to the attempt. -/
theorem CompletedEvidence.belongsTo_of_make {attempt : ApplicationAttempt}
    {projection : LeaseBoundStateProjection} {journal : JournalHeader}
    {durability : DurabilityProfile} {completed : CompletedEvidence}
    (hok : CompletedEvidence.make A.request attempt projection journal paths durability evidence =
      .ok completed) (hattempt : attempt = A.attempt) (hjournal : journal = A.header) :
    completed.BelongsTo A := by
  have hmade : completed.MadeFor A.request := ⟨_, _, _, _, _, _, hok⟩
  unfold CompletedEvidence.make at hok
  simp only [bind_eq_ok_iff, refuseIf_eq_ok, pure, Except.pure, Except.ok.injEq] at hok
  obtain ⟨_, -, _, -, _, -, _, -, rfl⟩ := hok
  exact ⟨rfl, rfl, hattempt, rfl, rfl, hjournal, hmade⟩

theorem orderly_concludeCompletion
    (hattempt : active.rejected.prepared.journaled.attempt = A.attempt) :
    (concludeCompletion active A.request state paths evidence).Orderly A.discipline := by
  refine (orderly_publishState _ _ _).bind fun _ => ?_
  refine Process.orderly_read_bind fun h hd => ?_
  refine Process.orderly_ofExcept_bind fun completed hcompleted => ?_
  have hbelongs := CompletedEvidence.belongsTo_of_make hcompleted hattempt hd.header
  refine (orderly_publishCompletedEvidence hbelongs).bind fun publication => ?_
  dsimp only
  split
  · refine (orderly_synchronizeDomain rfl _ _ _).bind fun fact => ?_
    split
    · exact orderly_sealCompleted
    · exact orderly_sealCompletionFailure
  · exact orderly_sealCompletionFailure

theorem orderly_completeApplication :
    (completeApplication active A.request state).Orderly A.discipline := by
  refine Process.orderly_read_bind fun h hd => ?_
  refine Process.orderly_ofExcept_bind fun _ hbinding => ?_
  have hattempt := validateBinding_attempt hd hbinding
  refine Process.orderly_ofExcept_bind fun _ _ => ?_
  refine (orderly_observeIntents _).bind fun _ => ?_
  refine (orderly_mechanism rfl).bind fun observations => ?_
  refine (orderly_observeTerminals _ _).bind fun observed => ?_
  split
  · exact (orderly_concludeCompletion hattempt).bind fun _ => Process.orderly_pure _
  · exact orderly_interruptObservation.bind fun _ => Process.orderly_pure _

end Completion

/-! ## Recovery -/

section Recovery

variable {A : AdmittedApplication} {interrupted : ActiveInterruptedApplication}
  {prepared : PreparedApplication} {request : ApplicationRequest}
  {state : LeaseBoundStateProjection} {recoveries : List RecoveryEffectResult}
  {evidence : Evidence}

theorem orderly_sealRecoveryReceipt {verdict : RecoveryVerdict} {durability : DurabilityProfile} :
    (sealRecoveryReceipt interrupted request state verdict durability recoveries
      evidence).Orderly A.discipline := by
  refine Process.orderly_ofExcept_bind fun paths _ => ?_
  refine Process.orderly_read_bind fun h _ => ?_
  refine Process.orderly_ofExcept_bind fun receipt _ => ?_
  refine Process.orderly_ofExcept_bind fun terminal _ => ?_
  exact (orderly_publishState _ _ _).bind fun _ => Process.orderly_pure _

/-- A recovery is retained under the path it was asked for. -/
theorem retains_recovery {effect : JournalEffect} {path : PackagePath}
    (hkind : effect.kind = .recoverActiveObject) (hpath : effect.path = some path)
    {result : BackendOperationResult} {terminal : EventKind}
    (hterminal : terminalEvent result.outcome = .ok terminal) :
    Retains A (some ⟨.mechanism (.recover path), result⟩) ⟨effect, terminal, result.evidence⟩
      (some (.recoveryEffect path result)) := by
  unfold Retains
  rw [hkind]
  exact ⟨path, result, rfl, hpath, rfl, hterminal, rfl⟩

theorem orderly_recoverPath (path : PackagePath) :
    (recoverPath prepared path).Orderly A.discipline := by
  refine Process.orderly_ofExcept_bind fun exact_ _ => ?_
  refine Process.orderly_read_bind fun h _ last v hv => ?_
  refine Process.obeys_ofExcept_bind fun effect heffect => ?_
  obtain ⟨-, hkind, hpath⟩ := findEffect_spec heffect
  refine obeys_intent_bind fun v₁ hv₁ => ?_
  refine Process.obeys_perform_bind (announced_after_intent rfl hkind hpath) fun result v₂ hv₂ => ?_
  refine Process.obeys_ofExcept_bind fun terminal hterminal => ?_
  exact Process.obeys_perform_bind (allows_terminal (terminalEvent_ne_intent hterminal)
    (retains_recovery hkind hpath hterminal)) fun _ _ _ => Process.obeys_pure _

theorem orderly_recoverCandidates (candidates : List ActiveEffectResult) :
    (recoverCandidates prepared candidates recoveries).Orderly A.discipline := by
  induction candidates generalizing recoveries with
  | nil => exact Process.orderly_pure _
  | cons candidate rest ih =>
    refine (orderly_recoverPath _).bind fun recovery => ?_
    dsimp only
    split
    · exact ih
    · exact Process.orderly_pure _

theorem orderly_finishRecoveredDurability {control : ExecutionControl} {recovered : Bool}
    {durability : DurabilityProfile} :
    (finishRecoveredDurability control recovered durability).Orderly A.discipline := by
  unfold finishRecoveredDurability
  split
  · exact (orderly_synchronizeDomain rfl _ _ _).bind fun _ => Process.orderly_pure _
  · exact Process.orderly_pure _

theorem orderly_recoverChanged :
    (recoverChanged interrupted request state).Orderly A.discipline := by
  refine (orderly_publishState _ _ _).bind fun _ => ?_
  refine (orderly_recoverCandidates _).bind fun recoveries => ?_
  exact orderly_finishRecoveredDurability.bind fun _ => orderly_sealRecoveryReceipt

theorem orderly_recoverInterrupted :
    (recoverInterrupted interrupted request state).Orderly A.discipline := by
  refine Process.orderly_read_bind fun h _ => ?_
  refine Process.orderly_ofExcept_bind fun _ _ => ?_
  split
  · exact orderly_sealRecoveryReceipt
  · split
    · exact orderly_sealRecoveryReceipt
    · exact orderly_recoverChanged

end Recovery

end PkgApply
