import PkgApply.Engine.Discipline

/-!
# The phases of the engine

Every effect is journaled in the state of its own phase, the state abandoned is
entered with a receipt only, and a completed receipt is sealed in the state of
a completed application.  Every process of the engine keeps to these phases.
-/

namespace PkgApply

open Library

/-- The state in which the events of an effect are journaled; the seal is
journaled wherever the engine ends. -/
def EffectKind.home : EffectKind → Option JournalState
  | .captureOldObject | .stageIncomingPayload
  | .synchronizeIncomingStaging | .synchronizeRecoveryStaging => some .preparing
  | .publishRejectedObject | .synchronizeRejectedStore
  | .publishActiveObject | .synchronizeActiveNamespace => some .mutating
  | .observeResult => some .effectsVisible
  | .publishCompletedEvidence | .synchronizeCompletedEvidence => some .resultObserved
  | .recoverActiveObject | .synchronizeRecoveredNamespace => some .recovering
  | .sealReceipt => none

/-- A transition keeps to the phases, from the history it extends. -/
structure Transition.InPhase (t : Transition) (v : JournalHistory) : Prop where
  home : ∀ e, t.event = some e → ∀ state, e.effect.kind.home = some state → t.state = state
  abandoned : t.receipt = none → t.state = .abandoned → v.state = .abandoned
  completed : ∀ r, t.receipt = some r → r.outcome = .completed → t.state = .applicationCompleted

/-- An operation keeps to the phases: only transitions in phase are journaled. -/
def EngineOp.InPhase (v : JournalHistory) : EngineOp → Prop
  | .journal t => t.InPhase v
  | .mechanism _ => True

def phases : Discipline engineSignature JournalHistory where
  view := fun _ => True
  call := fun _ v op => EngineOp.InPhase v op

/-- What a part of the engine may journal: effects of some phases, and some
receipts. -/
structure Scope where
  homes : JournalState → Prop
  sealed : ApplicationReceipt → Prop

/-- The whole engine. -/
def Scope.all : Scope := ⟨fun _ => True, fun _ => True⟩

/-- A scope that includes the receipts of failures. -/
def Scope.Failing (scope : Scope) : Prop := ∀ r, r.outcome ≠ .completed → scope.sealed r

/-- A failure that comes before mutation: nothing is restored or partly
applied, and every path is reported as it was found. -/
structure ApplicationReceipt.Spared (r : ApplicationReceipt) : Prop where
  outcome : r.outcome = .failedBeforeTargetMutation ∨
    r.outcome = .effectsVisibleDurabilityUnconfirmed ∨ r.outcome = .indeterminate
  paths : ∀ c ∈ r.paths, c.after = c.before

/-- A completion ends completed, without durable evidence, or in doubt. -/
def ApplicationReceipt.Concluding (r : ApplicationReceipt) : Prop :=
  r.outcome = .completed ∨ r.outcome = .effectsVisibleDurabilityUnconfirmed ∨
    r.outcome = .indeterminate

/-- A scope that includes the receipts of failures before mutation. -/
def Scope.Sparing (scope : Scope) : Prop := ∀ r : ApplicationReceipt, r.Spared → scope.sealed r

/-- A scope that includes the receipts of a completion. -/
def Scope.Concluding (scope : Scope) : Prop :=
  ∀ r : ApplicationReceipt, r.Concluding → scope.sealed r

theorem Scope.Failing.sparing {scope : Scope} (h : scope.Failing) : scope.Sparing := by
  intro r hr
  apply h
  intro hcompleted
  rcases hr.outcome with houtcome | houtcome | houtcome <;> rw [hcompleted] at houtcome <;>
    cases houtcome

/-- A transition in phase that stays within a scope. -/
structure Transition.Within (t : Transition) (scope : Scope) (v : JournalHistory) : Prop where
  inPhase : t.InPhase v
  home : ∀ e, t.event = some e → ∀ state, e.effect.kind.home = some state → scope.homes state
  sealed : ∀ r, t.receipt = some r → scope.sealed r

def EngineOp.Within (scope : Scope) (v : JournalHistory) : EngineOp → Prop
  | .journal t => t.Within scope v
  | .mechanism _ => True

/-- The phases of a part of the engine. -/
def within (scope : Scope) : Discipline engineSignature JournalHistory where
  view := fun _ => True
  call := fun _ v op => op.Within scope v

/-! ## Rules for engine operations -/

section Rules

variable {scope : Scope}

/-- What stays within a scope is in phase. -/
theorem phased_of_within {α : Type} {p : Engine α} (h : p.Orderly (within scope)) :
    p.Orderly phases := by
  refine h.mono (fun _ _ => trivial) fun _ v op hop => ?_
  cases op with
  | journal t => exact hop.inPhase
  | mechanism request => trivial

theorem EffectKind.home_ne_abandoned {kind : EffectKind} {state : JournalState}
    (h : kind.home = some state) : state ≠ .abandoned := by
  rintro rfl
  cases kind <;> cases h

theorem within_mechanism (request : MechanismRequest) :
    (Engine.mechanism request).Orderly (within scope) := fun _ _ _ => Process.obeys_perform trivial

theorem obeys_within_journal {t : Transition} {last : Option EngineCall} {v : JournalHistory}
    (h : t.Within scope v) : (Engine.journal t).Obeys (within scope) last v :=
  Process.obeys_perform h

/-- A transition without an event or a receipt. -/
theorem Transition.Within.state {state : JournalState} {v : JournalHistory}
    (h : state ≠ .abandoned) :
    (⟨state, none, none, none, none⟩ : Transition).Within scope v where
  inPhase :=
    { home := fun _ he => (Option.some_ne_none _ he.symm).elim
      abandoned := fun _ habandoned => absurd habandoned h
      completed := fun _ hr => (Option.some_ne_none _ hr.symm).elim }
  home _ he := (Option.some_ne_none _ he.symm).elim
  sealed _ hr := (Option.some_ne_none _ hr.symm).elim

theorem within_state {state : JournalState} (h : state ≠ .abandoned) :
    (publishState state).Orderly (within scope) := fun _ _ _ => obeys_within_journal (.state h)

theorem within_receipt {state : JournalState} {receipt : ApplicationReceipt}
    {evidence : Option CompletedEvidence} (hr : scope.sealed receipt)
    (h : receipt.outcome = .completed → state = .applicationCompleted) :
    (publishState state (some receipt) evidence).Orderly (within scope) := by
  refine fun _ v _ => obeys_within_journal ⟨⟨?_, ?_, ?_⟩, ?_, ?_⟩
  · exact fun _ he => (Option.some_ne_none _ he.symm).elim
  · exact fun hnone => (Option.some_ne_none _ hnone).elim
  · exact fun _ hr => Option.some.inj hr ▸ h
  · exact fun _ he => (Option.some_ne_none _ he.symm).elim
  · exact fun _ hsome => Option.some.inj hsome ▸ hr

theorem within_event {state : JournalState} {effect : JournalEffect}
    (h : effect.kind.home = some state) (hs : scope.homes state) (kind : EventKind)
    (evidence : Evidence) (fact : Option ReplayFact) :
    (publishEvent state effect kind evidence fact).Orderly (within scope) := by
  have hsame : ∀ e : TransitionEvent, some ⟨effect, kind, evidence⟩ = some e →
      ∀ state', e.effect.kind.home = some state' → state = state' := by
    intro e he state' hstate
    rw [← Option.some.inj he] at hstate
    exact Option.some.inj (h.symm.trans hstate)
  refine fun _ v _ => obeys_within_journal ⟨⟨hsame, ?_, ?_⟩, ?_, ?_⟩
  · exact fun _ habandoned => absurd habandoned (EffectKind.home_ne_abandoned h)
  · exact fun _ hr => (Option.some_ne_none _ hr.symm).elim
  · exact fun e he state' hstate => hsame e he state' hstate ▸ hs
  · exact fun _ hr => (Option.some_ne_none _ hr.symm).elim

/-- An event of the seal has no home. -/
private theorem home_of_seal {effect : JournalEffect} (h : effect.kind = .sealReceipt)
    {kind : EventKind} {evidence : Evidence} {e : TransitionEvent}
    (he : some ⟨effect, kind, evidence⟩ = some e) {state : JournalState} :
    ¬e.effect.kind.home = some state := by
  rw [← Option.some.inj he, h]
  exact Option.some_ne_none _ ∘ Eq.symm

/-- The intent of the seal stays in the state it finds. -/
theorem obeys_within_sealIntent {effect : JournalEffect} (h : effect.kind = .sealReceipt)
    {last : Option EngineCall} {v : JournalHistory} :
    (publishEvent v.state effect .intent).Obeys (within scope) last v := by
  refine obeys_within_journal ⟨⟨?_, fun _ habandoned => habandoned, ?_⟩, ?_, ?_⟩
  · exact fun e he state hstate => (home_of_seal h he hstate).elim
  · exact fun _ hr => (Option.some_ne_none _ hr.symm).elim
  · exact fun e he state hstate => (home_of_seal h he hstate).elim
  · exact fun _ hr => (Option.some_ne_none _ hr.symm).elim

theorem within_seal {state : JournalState} {effect : JournalEffect} {receipt : ApplicationReceipt}
    {evidence : Option CompletedEvidence} (hkind : effect.kind = .sealReceipt)
    (hr : scope.sealed receipt) (h : receipt.outcome = .completed → state = .applicationCompleted) :
    (publishEvent state effect .completed ∅ none (some receipt) evidence).Orderly
      (within scope) := by
  refine fun _ v _ =>
    obeys_within_journal ⟨⟨?_, ?_, fun _ hr => Option.some.inj hr ▸ h⟩, ?_, ?_⟩
  · exact fun e he state hstate => (home_of_seal hkind he hstate).elim
  · exact fun hnone => (Option.some_ne_none _ hnone).elim
  · exact fun e he state hstate => (home_of_seal hkind he hstate).elim
  · exact fun _ hsome => Option.some.inj hsome ▸ hr

/-- An effect that is found is at home where its kind is. -/
theorem home_of_findEffect {effects : List JournalEffect} {kind : EffectKind}
    {path : Option PackagePath} {effect : JournalEffect} {state : JournalState}
    (h : findEffect effects kind path = .ok effect) (hhome : kind.home = some state) :
    effect.kind.home = some state := by
  rw [(findEffect_spec h).2.1]
  exact hhome

/-- A failed receipt does not report a completed application. -/
theorem failed_outcome {request : ApplicationRequest} {attempt : ApplicationAttempt}
    {state : LeaseBoundStateProjection} {outcome : AttemptOutcome} {recovery : RecoveryState}
    {durability : DurabilityProfile} {paths : List PathConsequence}
    {journal : Option JournalHeader} {evidence : Evidence} {r : ApplicationReceipt}
    (h : ApplicationReceipt.failed request attempt state outcome recovery durability paths journal
      evidence = .ok r) : r.outcome ≠ .completed := by
  unfold ApplicationReceipt.failed at h
  simp only [bind_eq_ok_iff, pure, Except.pure, Except.ok.injEq] at h
  obtain ⟨_, -, _, -, _, houtcome, _, -, rfl⟩ := h
  unfold validateFailedOutcome at houtcome
  rw [refuseIf_bind_eq_ok] at houtcome
  exact houtcome.1

/-- A failed receipt reports its outcome and the paths it is given. -/
theorem failed_reports {request : ApplicationRequest} {attempt : ApplicationAttempt}
    {state : LeaseBoundStateProjection} {outcome : AttemptOutcome} {recovery : RecoveryState}
    {durability : DurabilityProfile} {paths : List PathConsequence}
    {journal : Option JournalHeader} {evidence : Evidence} {r : ApplicationReceipt}
    (h : ApplicationReceipt.failed request attempt state outcome recovery durability paths journal
      evidence = .ok r) : r.outcome = outcome ∧ ∀ c, c ∈ r.paths ↔ c ∈ paths := by
  unfold ApplicationReceipt.failed at h
  simp only [bind_eq_ok_iff, pure, Except.pure, Except.ok.injEq] at h
  obtain ⟨ordered, hordered, _, -, _, -, _, -, rfl⟩ := h
  unfold normalizePaths at hordered
  split at hordered
  · cases hordered
    exact ⟨rfl, fun c => List.mem_insertionSort _⟩
  · cases hordered

theorem failed_spared {request : ApplicationRequest} {attempt : ApplicationAttempt}
    {state : LeaseBoundStateProjection} {outcome : AttemptOutcome} {recovery : RecoveryState}
    {durability : DurabilityProfile} {paths : List PathConsequence}
    {journal : Option JournalHeader} {evidence : Evidence} {r : ApplicationReceipt}
    (h : ApplicationReceipt.failed request attempt state outcome recovery durability paths journal
      evidence = .ok r)
    (houtcome : outcome = .failedBeforeTargetMutation ∨
      outcome = .effectsVisibleDurabilityUnconfirmed ∨ outcome = .indeterminate)
    (hpaths : ∀ c ∈ paths, c.after = c.before) : r.Spared := by
  obtain ⟨hsame, hmem⟩ := failed_reports h
  exact ⟨hsame ▸ houtcome, fun c hc => hpaths c ((hmem c).mp hc)⟩

theorem within_synchronizeDomain {state : JournalState} {kind : EffectKind}
    (h : kind.home = some state) (hs : scope.homes state) (domain : DurabilityDomain)
    (mismatch unattempted : String) :
    (synchronizeDomain state kind domain mismatch unattempted).Orderly (within scope) := by
  refine Process.orderly_read_bind fun v _ => ?_
  refine Process.orderly_ofExcept_bind fun effect heffect => ?_
  have hhome := home_of_findEffect heffect h
  refine (within_event hhome hs _ _ _).bind fun _ => ?_
  refine (within_mechanism _).bind fun fact => ?_
  refine Process.orderly_ofExcept_bind fun _ _ => ?_
  refine Process.orderly_ofExcept_bind fun terminal _ => ?_
  exact (within_event hhome hs _ _ _).bind fun _ => Process.orderly_pure _

end Rules

/-! ## Preparation -/

section Preparation

variable {scope : Scope} {app : JournaledApplication} {request : ApplicationRequest}
  {state : LeaseBoundStateProjection}

theorem within_captureOldObject (hp : scope.homes .preparing) (control : ExecutionControl)
    (capture : OldObjectCaptureRequest) :
    (captureOldObject app control capture).Orderly (within scope) := by
  refine Process.orderly_read_bind fun v _ => ?_
  refine Process.orderly_ofExcept_bind fun effect heffect => ?_
  have hhome : effect.kind.home = some .preparing := home_of_findEffect heffect rfl
  refine (within_event hhome hp _ _ _).bind fun _ => ?_
  refine (within_mechanism _).bind fun captured => ?_
  refine Process.orderly_ofExcept_bind fun _ _ => ?_
  refine Process.orderly_ofExcept_bind fun terminal _ => ?_
  exact (within_event hhome hp _ _ _).bind fun _ => Process.orderly_pure _

theorem within_captureOldObjects (hp : scope.homes .preparing) (control : ExecutionControl)
    (requests : List OldObjectCaptureRequest) (acc : CapturePreparation) :
    (captureOldObjects app control requests acc).Orderly (within scope) := by
  induction requests generalizing acc with
  | nil => exact Process.orderly_pure _
  | cons capture rest ih =>
    refine (within_captureOldObject hp control capture).bind fun captured => ?_
    dsimp only
    split
    · exact ih _
    · exact Process.orderly_pure _

theorem within_stageIntents (hp : scope.homes .preparing) (paths : List PackagePath) :
    (stageIntents paths).Orderly (within scope) := by
  induction paths with
  | nil => exact Process.orderly_pure _
  | cons path rest ih =>
    refine Process.orderly_read_bind fun v _ => ?_
    refine Process.orderly_ofExcept_bind fun effect heffect => ?_
    exact (within_event (home_of_findEffect heffect rfl) hp _ _ _).bind fun _ => ih

theorem within_stageTerminals (hp : scope.homes .preparing) (terminal : EventKind)
    (sealed : BackendOperationResult) (paths : List PackagePath) :
    (stageTerminals terminal sealed paths).Orderly (within scope) := by
  induction paths with
  | nil => exact Process.orderly_pure _
  | cons path rest ih =>
    refine Process.orderly_read_bind fun v _ => ?_
    refine Process.orderly_ofExcept_bind fun effect heffect => ?_
    exact (within_event (home_of_findEffect heffect rfl) hp _ _ _).bind fun _ => ih

theorem within_sealStage (payloads : IncomingPayloadPlan) :
    (sealStage payloads).Orderly (within scope) := by
  refine (within_mechanism _).bind fun _ => ?_
  refine (within_mechanism _).bind fun stage => ?_
  exact Process.orderly_ofExcept_bind fun _ _ => Process.orderly_pure _

theorem within_stageIncomingPayloads (hp : scope.homes .preparing) (app : JournaledApplication) :
    (stageIncomingPayloads app).Orderly (within scope) := by
  unfold stageIncomingPayloads
  split
  · exact Process.orderly_pure _
  · split
    · exact Process.orderly_pure _
    · refine (within_stageIntents hp _).bind fun _ => ?_
      refine Process.orderly_ofExcept_bind fun _ _ => ?_
      refine (within_sealStage _).bind fun sealed => ?_
      refine Process.orderly_ofExcept_bind fun terminal _ => ?_
      exact (within_stageTerminals hp _ _ _).bind fun _ => Process.orderly_pure _

theorem within_failPreparation (hs : scope.Sparing) {incoming recovery : DurabilityStatus}
    {evidence : Evidence} :
    (failPreparation app request state incoming recovery evidence).Orderly (within scope) := by
  refine Process.orderly_read_bind fun v _ => ?_
  refine Process.orderly_ofExcept_bind fun receipt hreceipt => ?_
  have hspared := failed_spared hreceipt (.inl rfl) fun _ hc => absurd hc List.not_mem_nil
  exact (within_receipt (hs _ hspared) fun hcompleted =>
    absurd hcompleted (failed_outcome hreceipt)).bind fun _ => Process.orderly_pure _

theorem within_finishPreparation {captures : List OldObjectCaptureResult}
    {incoming recovery : DurabilityStatus} {evidence : Evidence} :
    (finishPreparation app captures incoming recovery evidence).Orderly (within scope) :=
  (within_state (by decide)).bind fun _ => Process.orderly_ofExcept _

theorem within_synchronizeStaged {staged : DurabilityStatus} {domain : DurabilityDomain}
    {kind : EffectKind} (h : kind.home = some .preparing) (hp : scope.homes .preparing) :
    (synchronizeStaged staged domain kind).Orderly (within scope) := by
  unfold synchronizeStaged
  split
  · exact Process.orderly_pure _
  · exact (within_synchronizeDomain h hp _ _ _).map _

theorem within_prepareApplication (hp : scope.homes .preparing) (hs : scope.Sparing) :
    (prepareApplication app request state).Orderly (within scope) := by
  refine Process.orderly_read_bind fun v _ => ?_
  refine Process.orderly_ofExcept_bind fun _ _ => ?_
  refine (within_captureOldObjects hp _ _ _).bind fun captures => ?_
  split
  · exact (within_failPreparation hs).bind fun _ => Process.orderly_pure _
  refine (within_stageIncomingPayloads hp app).bind fun sealed => ?_
  dsimp only
  split
  · exact (within_failPreparation hs).bind fun _ => Process.orderly_pure _
  refine (within_synchronizeStaged rfl hp).bind fun incoming => ?_
  split
  · exact (within_failPreparation hs).bind fun _ => Process.orderly_pure _
  refine (within_synchronizeStaged rfl hp).bind fun recovery => ?_
  split
  · exact (within_failPreparation hs).bind fun _ => Process.orderly_pure _
  · exact within_finishPreparation.bind fun _ => Process.orderly_pure _

end Preparation

/-! ## Rejected publication -/

section Rejected

variable {scope : Scope} {prepared : PreparedApplication} {request : ApplicationRequest}
  {state : LeaseBoundStateProjection} {effects : List RejectedEffectResult} {evidence : Evidence}
  {status : DurabilityStatus}

theorem within_executeRejectedEffect (hm : scope.homes .mutating) {plan : OperationPlan}
    {step : EffectStep} :
    (executeRejectedEffect prepared plan step).Orderly (within scope) := by
  refine Process.orderly_ofExcept_bind fun command _ => ?_
  refine Process.orderly_ofExcept_bind fun _ _ => ?_
  refine Process.orderly_read_bind fun v _ => ?_
  refine Process.orderly_ofExcept_bind fun effect heffect => ?_
  have hhome : effect.kind.home = some .mutating := home_of_findEffect heffect rfl
  refine (within_event hhome hm _ _ _).bind fun _ => ?_
  refine (within_mechanism _).bind fun result => ?_
  refine Process.orderly_ofExcept_bind fun terminal _ => ?_
  exact (within_event hhome hm _ _ _).bind fun _ => Process.orderly_pure _

/-- A rejected publication leaves its path in the active namespace alone. -/
theorem rejectedPathConsequencesOf_unchanged {plan : OperationPlan}
    {observations : BackendObservationBatch} {paths : List PathConsequence}
    (h : rejectedPathConsequencesOf plan observations effects = .ok paths) :
    ∀ c ∈ paths, c.after = c.before := by
  induction effects generalizing paths with
  | nil =>
    cases h
    intro c hc
    cases hc
  | cons effect rest ih =>
    rw [rejectedPathConsequencesOf] at h
    split at h
    · split at h
      · obtain ⟨c, hconsequence, h⟩ := bind_eq_ok_iff.mp h
        obtain ⟨cs, hrest, h⟩ := bind_eq_ok_iff.mp h
        cases h
        intro x hx
        rcases List.mem_cons.mp hx with rfl | hx
        · unfold rejectedPathConsequence at hconsequence
          obtain ⟨status, -, hmake⟩ := bind_eq_ok_iff.mp hconsequence
          unfold PathConsequence.make at hmake
          simp only [refuseIf_bind_eq_ok, pure, Except.pure, Except.ok.injEq] at hmake
          obtain ⟨-, -, -, -, -, -, -, -, rfl⟩ := hmake
          rfl
        · exact ih hrest x hx
      · cases h
    · cases h

theorem within_failRejectedPublication (hs : scope.Sparing) {outcome : AttemptOutcome}
    {recovery : RecoveryState} (houtcome : outcome = .failedBeforeTargetMutation ∨
      outcome = .effectsVisibleDurabilityUnconfirmed ∨ outcome = .indeterminate) :
    (failRejectedPublication prepared request state effects outcome recovery status evidence).Orderly
      (within scope) := by
  refine Process.orderly_ofExcept_bind fun paths hpaths => ?_
  refine Process.orderly_read_bind fun v _ => ?_
  refine Process.orderly_ofExcept_bind fun receipt hreceipt => ?_
  have hunchanged : ∀ c ∈ paths, c.after = c.before := by
    unfold rejectedPathConsequences at hpaths
    obtain ⟨found, hfound, hpaths⟩ := bind_eq_ok_iff.mp hpaths
    rw [refuseIf_bind_eq_ok] at hpaths
    cases hpaths.2
    exact rejectedPathConsequencesOf_unchanged hfound
  have hspared := failed_spared hreceipt houtcome hunchanged
  exact (within_receipt (hs _ hspared) fun hcompleted =>
    absurd hcompleted (failed_outcome hreceipt)).bind fun _ => Process.orderly_pure _

theorem within_failRejectedEffect (hs : scope.Sparing) {outcome : BackendOperationOutcome} :
    (failRejectedEffect prepared request state effects outcome status evidence).Orderly
      (within scope) := by
  unfold failRejectedEffect
  split
  · exact within_failRejectedPublication hs (.inr (.inr rfl))
  · exact within_failRejectedPublication hs (.inl rfl)

theorem within_failRejectedSynchronization (hs : scope.Sparing) :
    (failRejectedSynchronization prepared request state effects status evidence).Orderly
      (within scope) := by
  unfold failRejectedSynchronization
  split
  · exact within_failRejectedPublication hs (.inr (.inr rfl))
  · exact within_failRejectedPublication hs (.inr (.inl rfl))

theorem within_executeRejected (hm : scope.homes .mutating) (hs : scope.Sparing)
    (steps : List EffectStep) :
    (executeRejected prepared request state steps effects).Orderly (within scope) := by
  induction steps generalizing effects with
  | nil => exact Process.orderly_pure _
  | cons step rest ih =>
    refine (within_executeRejectedEffect hm).bind fun effect => ?_
    dsimp only
    split
    · exact ih
    · exact (within_failRejectedEffect hs).bind fun _ => Process.orderly_pure _

theorem within_synchronizeRejectedStore (hm : scope.homes .mutating) {control : ExecutionControl} :
    (synchronizeRejectedStore control effects).Orderly (within scope) := by
  unfold synchronizeRejectedStore
  split
  · exact (within_synchronizeDomain rfl hm _ _ _).map _
  · exact Process.orderly_pure _

theorem within_publishRejected (hm : scope.homes .mutating) (hs : scope.Sparing) :
    (publishRejected prepared request state).Orderly (within scope) := by
  refine Process.orderly_read_bind fun v _ => ?_
  refine Process.orderly_ofExcept_bind fun _ _ => ?_
  refine (within_state (by decide)).bind fun _ => ?_
  refine (within_executeRejected hm hs _).bind fun result => ?_
  cases result with
  | inl receipt => exact Process.orderly_pure _
  | inr effects =>
    refine (within_synchronizeRejectedStore hm).bind fun status => ?_
    dsimp only
    split
    · refine Process.orderly_read_bind fun v _ => ?_
      exact Process.orderly_ofExcept_bind fun _ _ => Process.orderly_pure _
    · exact (within_failRejectedSynchronization hs).bind fun _ => Process.orderly_pure _

end Rejected

/-! ## Active mutation -/

section Active

variable {scope : Scope} {prepared : PreparedApplication} {rejected : RejectedPublishedApplication}
  {request : ApplicationRequest} {state : LeaseBoundStateProjection}
  {effects : List ActiveEffectResult} {evidence : Evidence} {status : DurabilityStatus}

theorem within_executeActiveEffect (hm : scope.homes .mutating) {plan : OperationPlan}
    {step : EffectStep} :
    (executeActiveEffect prepared plan step).Orderly (within scope) := by
  refine Process.orderly_ofExcept_bind fun command _ => ?_
  refine Process.orderly_ofExcept_bind fun _ _ => ?_
  refine Process.orderly_read_bind fun v _ => ?_
  refine Process.orderly_ofExcept_bind fun effect heffect => ?_
  have hhome : effect.kind.home = some .mutating := home_of_findEffect heffect rfl
  refine (within_event hhome hm _ _ _).bind fun _ => ?_
  refine (within_mechanism _).bind fun result => ?_
  refine Process.orderly_ofExcept_bind fun applied _ => ?_
  refine Process.orderly_ofExcept_bind fun terminal _ => ?_
  exact (within_event hhome hm _ _ _).bind fun _ => Process.orderly_pure _

/-- An interruption is journaled as indeterminate or as pending recovery. -/
theorem within_interruptedState (indeterminate : Bool) :
    (publishState (if indeterminate then .indeterminate else .recoveryPending)).Orderly
      (within scope) :=
  within_state (by cases indeterminate <;> decide)

theorem within_interruptActiveExecution {interruption : ActiveInterruption} :
    (interruptActiveExecution rejected effects interruption status evidence).Orderly (within scope)
      := by
  refine (within_interruptedState _).bind fun _ => ?_
  exact Process.orderly_read_bind fun _ _ => Process.orderly_ofExcept _

theorem within_interruptActiveEffect {outcome : BackendOperationOutcome} :
    (interruptActiveEffect rejected effects outcome evidence).Orderly (within scope) := by
  unfold interruptActiveEffect
  split <;> exact within_interruptActiveExecution

theorem within_executeActiveEffects (hm : scope.homes .mutating) {plan : OperationPlan}
    (steps : List EffectStep) :
    (executeActiveEffects rejected plan steps effects).Orderly (within scope) := by
  induction steps generalizing effects with
  | nil => exact Process.orderly_pure _
  | cons step rest ih =>
    refine (within_executeActiveEffect hm).bind fun effect => ?_
    dsimp only
    split
    · exact ih
    · exact within_interruptActiveEffect.bind fun _ => Process.orderly_pure _

theorem within_interruptActiveSynchronization :
    (interruptActiveSynchronization rejected effects status evidence).Orderly (within scope) := by
  unfold interruptActiveSynchronization
  split <;> exact within_interruptActiveExecution

theorem within_completeActiveExecution :
    (completeActiveExecution rejected effects status evidence).Orderly (within scope) := by
  refine (within_state (by decide)).bind fun _ => ?_
  exact Process.orderly_read_bind fun _ _ => Process.orderly_ofExcept _

theorem within_executeActive (hm : scope.homes .mutating) :
    (executeActive rejected request state).Orderly (within scope) := by
  refine Process.orderly_read_bind fun v _ => ?_
  refine Process.orderly_ofExcept_bind fun _ _ => ?_
  refine (within_executeActiveEffects hm _).bind fun result => ?_
  cases result with
  | inl interrupted => exact Process.orderly_pure _
  | inr effects =>
    dsimp only
    split
    · refine (within_synchronizeDomain rfl hm _ _ _).bind fun fact => ?_
      split
      · exact within_completeActiveExecution.bind fun _ => Process.orderly_pure _
      · exact within_interruptActiveSynchronization.bind fun _ => Process.orderly_pure _
    · exact within_completeActiveExecution.bind fun _ => Process.orderly_pure _

end Active

/-! ## Completion -/

section Completion

variable {scope : Scope} {active : ActiveMutatedApplication} {request : ApplicationRequest}
  {state : LeaseBoundStateProjection} {paths : List PathConsequence} {evidence : Evidence}

theorem within_sealTerminalReceipt {state : JournalState} {receipt : ApplicationReceipt}
    {completed : Option CompletedEvidence} (hr : scope.sealed receipt)
    (h : receipt.outcome = .completed → state = .applicationCompleted) :
    (sealTerminalReceipt state receipt completed).Orderly (within scope) := by
  intro last v _
  refine Process.obeys_read_bind (Process.obeys_ofExcept_bind fun effect heffect => ?_)
  have hkind := (findEffect_spec heffect).2.1
  exact (obeys_within_sealIntent hkind).bind trivial fun _ => within_seal hkind hr h

theorem completionFailureReceipt_outcome {header : JournalHeader} {failure : CompletionFailure}
    {r : ApplicationReceipt}
    (h : completionFailureReceipt active request state header failure paths evidence = .ok r) :
    r.outcome ≠ .completed := by
  obtain ⟨_, -, hfailed⟩ := bind_eq_ok_iff.mp h
  exact failed_outcome hfailed

theorem completionFailureReceipt_concluding {header : JournalHeader} {uncertain : Bool}
    {r : ApplicationReceipt} (h : completionFailureReceipt active request state header
      (completionFailure uncertain) paths evidence = .ok r) : r.Concluding := by
  obtain ⟨_, -, hfailed⟩ := bind_eq_ok_iff.mp h
  have houtcome := (failed_reports hfailed).1
  unfold completionFailure at houtcome
  split at houtcome
  · exact .inr (.inr houtcome)
  · exact .inr (.inl houtcome)

theorem completed_concluding {completed : CompletedEvidence} {recovery : RecoveryState}
    {r : ApplicationReceipt} (h : ApplicationReceipt.completed completed recovery evidence = .ok r) :
    r.Concluding := by
  unfold ApplicationReceipt.completed at h
  rw [refuseIf_bind_eq_ok] at h
  cases h.2
  exact .inl rfl

theorem within_sealCompletionFailure
    (hs : ∀ r : ApplicationReceipt, r.Concluding → r.outcome ≠ .completed → scope.sealed r)
    {uncertain : Bool} :
    (sealCompletionFailure active request state uncertain paths evidence).Orderly (within scope) :=
      by
  refine Process.orderly_read_bind fun v _ => ?_
  refine Process.orderly_ofExcept_bind fun receipt hreceipt => ?_
  have hfailed := completionFailureReceipt_outcome hreceipt
  refine (within_sealTerminalReceipt (hs _ (completionFailureReceipt_concluding hreceipt) hfailed)
    fun hcompleted => ?_).bind fun _ => Process.orderly_pure _
  exact absurd hcompleted hfailed

theorem within_sealCompleted (hc : scope.Concluding) {completed : CompletedEvidence} :
    (sealCompleted active completed evidence).Orderly (within scope) := by
  refine Process.orderly_ofExcept_bind fun receipt hreceipt => ?_
  exact (within_sealTerminalReceipt (hc _ (completed_concluding hreceipt)) fun _ => rfl).bind
    fun _ => Process.orderly_pure _

theorem within_observeIntents (hv : scope.homes .effectsVisible) (decisions : List PathDecision) :
    (observeIntents decisions).Orderly (within scope) := by
  induction decisions with
  | nil => exact Process.orderly_pure _
  | cons d rest ih =>
    refine Process.orderly_read_bind fun v _ => ?_
    refine Process.orderly_ofExcept_bind fun effect heffect => ?_
    exact (within_event (home_of_findEffect heffect rfl) hv _ _ _).bind fun _ => ih

theorem within_observeTerminals (hv : scope.homes .effectsVisible) {image : Option PackageImage}
    {observations : BackendObservationBatch} (decisions : List PathDecision)
    (r : ObservedResult) :
    (observeTerminals active image observations decisions r).Orderly (within scope) := by
  induction decisions generalizing r with
  | nil => exact Process.orderly_pure _
  | cons d rest ih =>
    refine Process.orderly_ofExcept_bind fun observed _ => ?_
    obtain ⟨before, after⟩ := observed
    refine Process.orderly_ofExcept_bind fun found _ => ?_
    refine Process.orderly_read_bind fun v _ => ?_
    refine Process.orderly_ofExcept_bind fun effect heffect => ?_
    refine (within_event (home_of_findEffect heffect rfl) hv _ _ _).bind fun _ => ?_
    exact Process.orderly_ofExcept_bind fun r' _ => ih r'

theorem within_interruptObservation {indeterminate : Bool} :
    (interruptObservation active indeterminate evidence).Orderly (within scope) := by
  refine (within_interruptedState _).bind fun _ => ?_
  exact Process.orderly_read_bind fun _ _ => Process.orderly_ofExcept _

theorem within_publishCompletedEvidence (ho : scope.homes .resultObserved)
    {completed : CompletedEvidence} :
    (publishCompletedEvidence completed).Orderly (within scope) := by
  refine Process.orderly_read_bind fun v _ => ?_
  refine Process.orderly_ofExcept_bind fun effect heffect => ?_
  have hhome : effect.kind.home = some .resultObserved := home_of_findEffect heffect rfl
  refine (within_event hhome ho _ _ _).bind fun _ => ?_
  refine (within_mechanism _).bind fun publication => ?_
  refine Process.orderly_ofExcept_bind fun _ _ => ?_
  refine Process.orderly_ofExcept_bind fun terminal _ => ?_
  exact (within_event hhome ho _ _ _).bind fun _ => Process.orderly_pure _

theorem within_concludeCompletion (ho : scope.homes .resultObserved) (hc : scope.Concluding) :
    (concludeCompletion active request state paths evidence).Orderly (within scope) := by
  refine (within_state (by decide)).bind fun _ => ?_
  refine Process.orderly_read_bind fun v _ => ?_
  refine Process.orderly_ofExcept_bind fun completed _ => ?_
  refine (within_publishCompletedEvidence ho).bind fun publication => ?_
  dsimp only
  split
  · refine (within_synchronizeDomain rfl ho _ _ _).bind fun fact => ?_
    split
    · exact within_sealCompleted hc
    · exact within_sealCompletionFailure fun r hr _ => hc r hr
  · exact within_sealCompletionFailure fun r hr _ => hc r hr

theorem within_completeApplication (hv : scope.homes .effectsVisible)
    (ho : scope.homes .resultObserved) (hc : scope.Concluding) :
    (completeApplication active request state).Orderly (within scope) := by
  refine Process.orderly_read_bind fun v _ => ?_
  refine Process.orderly_ofExcept_bind fun _ _ => ?_
  refine Process.orderly_ofExcept_bind fun _ _ => ?_
  refine (within_observeIntents hv _).bind fun _ => ?_
  refine (within_mechanism _).bind fun observations => ?_
  refine (within_observeTerminals hv _ _).bind fun observed => ?_
  split
  · exact (within_concludeCompletion ho hc).bind fun _ => Process.orderly_pure _
  · exact within_interruptObservation.bind fun _ => Process.orderly_pure _

end Completion

/-! ## Recovery -/

section Recovery

variable {scope : Scope} {interrupted : ActiveInterruptedApplication}
  {prepared : PreparedApplication} {request : ApplicationRequest}
  {state : LeaseBoundStateProjection} {recoveries : List RecoveryEffectResult} {evidence : Evidence}

theorem within_sealRecoveryReceipt (hs : scope.Failing) {verdict : RecoveryVerdict}
    {durability : DurabilityProfile} :
    (sealRecoveryReceipt interrupted request state verdict durability recoveries evidence).Orderly
      (within scope) := by
  refine Process.orderly_ofExcept_bind fun paths _ => ?_
  refine Process.orderly_read_bind fun v _ => ?_
  refine Process.orderly_ofExcept_bind fun receipt hreceipt => ?_
  refine Process.orderly_ofExcept_bind fun terminal _ => ?_
  exact (within_receipt (hs _ (failed_outcome hreceipt)) fun hcompleted =>
    absurd hcompleted (failed_outcome hreceipt)).bind fun _ => Process.orderly_pure _

theorem within_recoverPath (hr : scope.homes .recovering) (path : PackagePath) :
    (recoverPath prepared path).Orderly (within scope) := by
  refine Process.orderly_ofExcept_bind fun exact_ _ => ?_
  refine Process.orderly_read_bind fun v _ => ?_
  refine Process.orderly_ofExcept_bind fun effect heffect => ?_
  have hhome : effect.kind.home = some .recovering := home_of_findEffect heffect rfl
  refine (within_event hhome hr _ _ _).bind fun _ => ?_
  refine (within_mechanism _).bind fun result => ?_
  refine Process.orderly_ofExcept_bind fun terminal _ => ?_
  exact (within_event hhome hr _ _ _).bind fun _ => Process.orderly_pure _

theorem within_recoverCandidates (hr : scope.homes .recovering)
    (candidates : List ActiveEffectResult) :
    (recoverCandidates prepared candidates recoveries).Orderly (within scope) := by
  induction candidates generalizing recoveries with
  | nil => exact Process.orderly_pure _
  | cons candidate rest ih =>
    refine (within_recoverPath hr _).bind fun recovery => ?_
    dsimp only
    split
    · exact ih
    · exact Process.orderly_pure _

theorem within_finishRecoveredDurability (hr : scope.homes .recovering) {control : ExecutionControl}
    {recovered : Bool} {durability : DurabilityProfile} :
    (finishRecoveredDurability control recovered durability).Orderly (within scope) := by
  unfold finishRecoveredDurability
  split
  · exact (within_synchronizeDomain rfl hr _ _ _).bind fun _ => Process.orderly_pure _
  · exact Process.orderly_pure _

theorem within_recoverChanged (hr : scope.homes .recovering) (hs : scope.Failing) :
    (recoverChanged interrupted request state).Orderly (within scope) := by
  refine (within_state (by decide)).bind fun _ => ?_
  refine (within_recoverCandidates hr _).bind fun recoveries => ?_
  exact (within_finishRecoveredDurability hr).bind fun _ => within_sealRecoveryReceipt hs

theorem within_recoverInterrupted (hr : scope.homes .recovering) (hs : scope.Failing) :
    (recoverInterrupted interrupted request state).Orderly (within scope) := by
  refine Process.orderly_read_bind fun v _ => ?_
  refine Process.orderly_ofExcept_bind fun _ _ => ?_
  split
  · exact within_sealRecoveryReceipt hs
  · split
    · exact within_sealRecoveryReceipt hs
    · exact within_recoverChanged hr hs

end Recovery

end PkgApply
