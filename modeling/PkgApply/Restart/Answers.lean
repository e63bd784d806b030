import PkgApply.Engine.Readiness
import PkgApply.Restart.Rules

/-!
# Preparation by its answers

What each operation of a restarted preparation returns, told by the answer it
rests on: the one its journal retains, or else the one the mechanisms give.
-/

namespace PkgApply

open Library

section Resumed

variable {A : AdmittedApplication} {m : Mechanisms} {l : Ledger} {s : EngineState}
  {app : JournaledApplication} {view : RestartView}

/-! ## Captures -/

/-- The capture a restart rests on. -/
def Ledger.captureAnswer (l : Ledger) (m : Mechanisms) (r : OldObjectCaptureRequest) :
    OldObjectCaptureResult := (l.capture r.path).getD (m (.captureOld r))

theorem Ledger.captureAnswer_of_some {r : OldObjectCaptureRequest}
    {captured : OldObjectCaptureResult} (h : l.capture r.path = some captured) :
    l.captureAnswer m r = captured := by
  unfold captureAnswer
  rw [h]
  rfl

theorem Ledger.captureAnswer_of_none {r : OldObjectCaptureRequest}
    (h : l.capture r.path = none) : l.captureAnswer m r = m (.captureOld r) := by
  unfold captureAnswer
  rw [h]
  rfl

/-- How a restart counts a capture that does not complete. -/
def captureFailure (control : ExecutionControl) (r : OldObjectCaptureRequest)
    (captured : OldObjectCaptureResult) : Option DurabilityStatus :=
  if captureSemanticOutcome control r captured = .completed then none
  else some (unstagedDurability (captured.outcome == .indeterminate))

theorem captureSemanticOutcome_indeterminate_iff {control : ExecutionControl}
    {r : OldObjectCaptureRequest} {captured : OldObjectCaptureResult} :
    captureSemanticOutcome control r captured = .indeterminate ↔
      captured.outcome = .indeterminate := by
  unfold captureSemanticOutcome
  split
  · rename_i hinexact
    simp [hinexact.1]
  · rfl

theorem captureSemanticOutcome_conditional_iff {control : ExecutionControl}
    {r : OldObjectCaptureRequest} {captured : OldObjectCaptureResult} :
    captureSemanticOutcome control r captured = .conditionalRetained ↔
      captured.outcome = .conditionalRetained := by
  unfold captureSemanticOutcome
  split
  · rename_i hinexact
    simp [hinexact.1]
  · rfl

theorem terminalEvent_indeterminate_iff {outcome : BackendOperationOutcome} {terminal : EventKind}
    (h : terminalEvent outcome = .ok terminal) :
    terminal = .indeterminate ↔ outcome = .indeterminate := by
  cases outcome <;> cases h <;> simp

/-- A terminal event of a capture tells how a restart counts it. -/
theorem captureFailure_of_terminal {control : ExecutionControl} {r : OldObjectCaptureRequest}
    {captured : OldObjectCaptureResult} {terminal : EventKind}
    (h : terminalEvent (captureSemanticOutcome control r captured) = .ok terminal) :
    (if terminal = .completed then none
      else some (unstagedDurability (terminal == .indeterminate))) =
        captureFailure control r captured := by
  unfold captureFailure
  simp only [terminalEvent_completed_iff h]
  refine if_congr Iff.rfl rfl (congrArg (fun b => some (unstagedDurability b)) ?_)
  rw [Bool.eq_iff_iff, beq_iff_eq, beq_iff_eq, terminalEvent_indeterminate_iff h,
    captureSemanticOutcome_indeterminate_iff]

/-- The retained capture of a request fits it. -/
theorem Ledger.Fits.capture {r : OldObjectCaptureRequest}
    (hfits : l.Fits A {(.captureOldObject, some r.path)}) (hr : r ∈ A.captures) {ended : Ended}
    (hended : (l.slot .captureOldObject (some r.path)).ended = some ended) :
    ∃ captured, l.capture r.path = some captured ∧ captured.captured.path = r.path ∧
      terminalEvent (captureSemanticOutcome A.control r captured) = .ok ended.kind := by
  obtain ⟨⟨r', hr', captured, hpath, hplace, -, hok, hfact⟩, -⟩ := hfits _ _ _ rfl hended
  have hsame : r' = r :=
    List.inj_on_of_nodup_map A.captures_nodup hr' hr (Option.some.inj hpath).symm
  subst hsame
  refine ⟨captured, ?_, hplace, hok⟩
  unfold Ledger.capture Slot.fact
  rw [hended, Option.bind_some, hfact]
  rfl

theorem hasKey_capture {r : OldObjectCaptureRequest} (hr : r ∈ A.captures) :
    A.HasKey .captureOldObject (some r.path) := by
  have hstep : (⟨.captureOldObject, r.path, none⟩ : EffectStep) ∈ A.steps .captureOldObject := by
    rw [AdmittedApplication.steps_capture]
    exact List.mem_map_of_mem hr
  exact AdmittedApplication.hasKey_step hstep

theorem restartCaptureTerminal_eq (control : ExecutionControl) (r : OldObjectCaptureRequest)
    {captured : OldObjectCaptureResult} (h : captured.outcome ≠ .conditionalRetained) :
    ∃ terminal, restartCaptureTerminal control r captured = .ok terminal ∧
      terminalEvent (captureSemanticOutcome control r captured) = .ok terminal := by
  unfold restartCaptureTerminal
  rw [if_neg h]
  have h : captureSemanticOutcome control r captured ≠ .conditionalRetained := fun hx =>
    h (captureSemanticOutcome_conditional_iff.mp hx)
  cases hout : captureSemanticOutcome control r captured with
  | conditionalRetained => exact absurd hout h
  | completed => exact ⟨_, rfl, rfl⟩
  | failed => exact ⟨_, rfl, rfl⟩
  | indeterminate => exact ⟨_, rfl, rfl⟩

/-- A restarted capture returns the answer it rests on. -/
theorem ensures_resumeCapture {r : OldObjectCaptureRequest} (h : At A l s)
    (hstate : l.state = .preparing) (hfits : l.Fits A {(.captureOldObject, some r.path)})
    (hr : r ∈ A.captures) (hview : view.findCapture r.path = l.capture r.path) :
    (resumeCapture view A.control r).Ensures (engineMachine m) s
      (fun result s' => result = (l.captureAnswer m r,
          captureFailure A.control r (l.captureAnswer m r)) ∧
        Moved A l {(.captureOldObject, some r.path)} s')
      (fun _ _ => (l.captureAnswer m r).outcome = .conditionalRetained) (fun _ => True) := by
  refine ensures_history (ensures_find h (hasKey_capture hr) fun e he hkind hpath => ?_)
  rw [h.progress he, hkind, hpath]
  cases hended : (l.slot .captureOldObject (some r.path)).ended with
  | some ended =>
    obtain ⟨captured, hcaptured, -, hok⟩ := hfits.capture hr hended
    rw [Ledger.captureAnswer_of_some hcaptured, hview, hcaptured]
    simp only [Slot.progress, hended, Option.map_some]
    refine Process.ensures_pure.mpr ⟨?_, h.moved _⟩
    rw [captureFailure_of_terminal hok]
  | none =>
    have hnone : l.capture r.path = none := by
      unfold Ledger.capture Slot.fact
      rw [hended]
      rfl
    rw [Ledger.captureAnswer_of_none hnone]
    simp only [Slot.progress, hended, Option.map_none]
    rw [← hstate]
    refine ensures_restartPublishIntent h he (by rw [hstate]; rfl) trivial fun s₁ h₁ =>
      ⟨trivial, ?_⟩
    refine ensures_mechanism h₁ trivial fun s₂ h₂ => ⟨trivial, ?_⟩
    by_cases hconditional : (m (.captureOld r)).outcome = .conditionalRetained
    · refine ensures_error (e := .logicError "restart capture has a conditional outcome") ?_
        hconditional
      unfold restartCaptureTerminal
      rw [if_pos hconditional]
    obtain ⟨terminal, hterminal, hok⟩ :=
      restartCaptureTerminal_eq A.control r hconditional
    refine ensures_ok hterminal ?_
    rw [← Ledger.intendOnce_state l e.kind e.path]
    refine ensures_restartPublishTerminal h₂ (h.effects h₂ ▸ he) (by simp)
      (terminalEvent_ne_intent hok) (by rw [Ledger.intendOnce_state, hstate]; rfl) trivial
      fun s₃ h₃ => ⟨trivial, Process.ensures_pure.mpr ⟨?_, _, h₃, by simp, ?_⟩⟩
    · unfold captureFailure
      simp only [terminalEvent_completed_iff hok]
    · rw [hkind, hpath]
      exact ((Ledger.SameBut.refl _ l).intendOnce (Set.mem_singleton _)).finishOnce
        (Set.mem_singleton _) _

/-! ## Staging -/

/-- The effects of one kind. -/
def effectsOf (kind : EffectKind) : Set (EffectKind × Option PackagePath) := {x | x.1 = kind}

/-- A retained staging terminal is not completed. -/
def Ledger.StageFailed (l : Ledger) : Prop :=
  ∃ path ended, (l.slot .stageIncomingPayload path).ended = some ended ∧ ended.kind ≠ .completed

/-- Every staging effect is retained as completed. -/
def Ledger.StageCompleted (A : AdmittedApplication) (l : Ledger) : Prop :=
  ∀ path, A.HasKey .stageIncomingPayload path →
    ∃ ended, (l.slot .stageIncomingPayload path).ended = some ended ∧ ended.kind = .completed

/-- Staging is decided by what the journal retains: it failed, or all of it
completed. -/
def Ledger.StageDecided (A : AdmittedApplication) (l : Ledger) : Prop :=
  l.StageFailed ∨ l.StageCompleted A

/-- The ledger retains a seal. -/
def Ledger.RetainsSeal (l : Ledger) (sealed : BackendOperationResult) : Prop :=
  ∃ path, (l.slot .stageIncomingPayload path).fact = some (.payloadSeal sealed)

/-- The seal a restart rests on. -/
def Ledger.SealAnswer (A : AdmittedApplication) (l : Ledger) (m : Mechanisms)
    (sealed : BackendOperationResult) : Prop :=
  (l.StageDecided A ∧ l.RetainsSeal sealed) ∨
    (¬l.StageDecided A ∧ (m .sealPayloadStage).result = sealed)

/-- How a restart counts a seal. -/
def restagedDurability (sealed : BackendOperationResult) : DurabilityStatus :=
  if sealed.outcome = .completed then .visible
  else unstagedDurability (sealed.outcome == .indeterminate)

/-- A retained staging terminal fits the seal it carries. -/
theorem Ledger.Fits.stage (hfits : l.Fits A (effectsOf .stageIncomingPayload))
    {path : Option PackagePath} {ended : Ended}
    (hended : (l.slot .stageIncomingPayload path).ended = some ended) :
    ∃ sealed, (l.slot .stageIncomingPayload path).fact = some (.payloadSeal sealed) ∧
      terminalEvent sealed.outcome = .ok ended.kind := by
  obtain ⟨⟨sealed, -, hok, hfact⟩, -⟩ := hfits _ _ _ rfl hended
  refine ⟨sealed, ?_, hok⟩
  unfold Slot.fact
  rw [hended, Option.bind_some, hfact]

/-- The staging effects of the journal, read off the ledger. -/
theorem At.payloadEffects (h : At A l s) {e : JournalEffect}
    (he : e ∈ PkgApply.payloadEffects s.history) :
    e ∈ s.history.effects ∧ e.kind = .stageIncomingPayload ∧
      (restartProgress s.history e).terminal =
        (l.slot .stageIncomingPayload e.path).ended.map Ended.kind := by
  obtain ⟨hmem, hkind⟩ := List.mem_filter.mp he
  rw [beq_iff_eq] at hkind
  refine ⟨hmem, hkind, ?_⟩
  rw [h.progress hmem, hkind]
  rfl

theorem At.mem_payloadEffects (h : At A l s) {path : Option PackagePath}
    (hkey : A.HasKey .stageIncomingPayload path) :
    ∃ e ∈ PkgApply.payloadEffects s.history, e.path = path := by
  obtain ⟨e, he, -, -, hkind, hpath⟩ := hkey.find h.declares
  exact ⟨e, List.mem_filter.mpr ⟨he, by rw [hkind]; rfl⟩, hpath⟩

/-- Intents are journaled for every effect. -/
theorem ensures_restartIntents (effects : List JournalEffect) (h : At A l s)
    (hstate : l.state = .preparing)
    (heffects : ∀ e ∈ effects, e ∈ s.history.effects ∧ e.kind = .stageIncomingPayload) :
    (restartIntents .preparing effects).Ensures (engineMachine m) s
      (fun _ s' => ∃ l', At A l' s' ∧ l'.state = .preparing ∧
        Ledger.SameBut (effectsOf .stageIncomingPayload) l l' ∧
        (∀ kind path, (l.slot kind path).intended = true → (l'.slot kind path).intended = true) ∧
        ∀ e ∈ effects, (l'.slot e.kind e.path).intended = true)
      (fun _ _ => False) (fun _ => True) := by
  induction effects generalizing l s with
  | nil =>
    exact Process.ensures_pure.mpr ⟨l, h, hstate, .refl _ _, fun _ _ hi => hi,
      fun e he => absurd he List.not_mem_nil⟩
  | cons e rest ih =>
    obtain ⟨he, hkind⟩ := heffects e List.mem_cons_self
    unfold restartIntents
    rw [← hstate]
    refine ensures_restartPublishIntent h he (by rw [hstate]; rfl) trivial fun s₁ h₁ =>
      ⟨trivial, ?_⟩
    rw [hstate]
    refine (ih h₁ (by simpa using hstate) fun x hx => ?_).mono (fun _ s' hs' => ?_)
      (fun _ _ hx => hx) (fun _ hx => hx)
    · rw [h.effects h₁]
      exact heffects x (List.mem_cons_of_mem _ hx)
    · obtain ⟨l', h', hstate', hsame, hkept, hintended⟩ := hs'
      refine ⟨l', h', hstate', ?_, fun k p hi => hkept k p (l.intendOnce_intended_of hi), ?_⟩
      · exact ((Ledger.SameBut.refl _ l).intendOnce hkind).trans hsame
      · intro x hx
        rcases List.mem_cons.mp hx with rfl | hx
        · exact hkept _ _ (l.intendOnce_intended _ _)
        · exact hintended x hx

/-- A seal is retained under every intended effect. -/
theorem ensures_restartStageTerminals {sealed : BackendOperationResult}
    (effects : List JournalEffect) (h : At A l s) (hstate : l.state = .preparing)
    (heffects : ∀ e ∈ effects, e ∈ s.history.effects ∧ e.kind = .stageIncomingPayload)
    (hintended : ∀ e ∈ effects, (l.slot e.kind e.path).intended = true) :
    (restartStageTerminals sealed effects).Ensures (engineMachine m) s
      (fun _ s' => Moved A l (effectsOf .stageIncomingPayload) s')
      (fun _ _ => sealed.outcome = .conditionalRetained) (fun _ => True) := by
  induction effects generalizing l s with
  | nil => exact Process.ensures_pure.mpr (h.moved _)
  | cons e rest ih =>
    obtain ⟨he, hkind⟩ := heffects e List.mem_cons_self
    unfold restartStageTerminals
    cases hok : terminalEvent sealed.outcome with
    | error x =>
      refine Process.ensures_throw.mpr ?_
      cases hout : sealed.outcome <;> rw [hout] at hok <;> first | rfl | cases hok
    | ok terminal =>
      refine ensures_ok rfl ?_
      rw [← hstate]
      refine ensures_restartPublishTerminal h he (hintended e List.mem_cons_self)
        (terminalEvent_ne_intent hok) (by rw [hstate]; rfl) trivial fun s₁ h₁ => ⟨trivial, ?_⟩
      refine (ih h₁ (by simpa using hstate) (fun x hx => ?_) (fun x hx => ?_)).mono
        (fun _ s' hs' => ?_) (fun _ _ hx => hx) (fun _ hx => hx)
      · rw [h.effects h₁]
        exact heffects x (List.mem_cons_of_mem _ hx)
      · exact l.finishOnce_intended_of _ (hintended x (List.mem_cons_of_mem _ hx))
      · obtain ⟨l', h', hstate', hsame⟩ := hs'
        exact ⟨l', h', hstate'.trans (by simp),
          ((Ledger.SameBut.refl _ l).finishOnce hkind _).trans hsame⟩

/-- A restarted staging fills and seals a stage of its own. -/
theorem ensures_restageIncomingPayloads {payloads : IncomingPayloadPlan} (h : At A l s)
    (hstate : l.state = .preparing) :
    (restageIncomingPayloads payloads (payloadEffects s.history)).Ensures (engineMachine m) s
      (fun sealed s' => sealed = (m .sealPayloadStage).result ∧
        Moved A l (effectsOf .stageIncomingPayload) s')
      (fun _ _ => (m .sealPayloadStage).result.outcome = .conditionalRetained)
      (fun _ => True) := by
  have heffects : ∀ e ∈ payloadEffects s.history,
      e ∈ s.history.effects ∧ e.kind = .stageIncomingPayload :=
    fun e he => ⟨(h.payloadEffects he).1, (h.payloadEffects he).2.1⟩
  refine Process.Ensures.bind ((ensures_restartIntents _ h hstate heffects).mono
    (fun _ _ hx => hx) (fun _ _ hx => hx.elim) (fun _ hx => hx)) fun _ s₁ hs₁ => ?_
  obtain ⟨l₁, h₁, hstate₁, hsame, -, hintended⟩ := hs₁
  refine ensures_mechanism h₁ trivial fun s₂ h₂ => ⟨trivial, ?_⟩
  refine ensures_mechanism h₂ trivial fun s₃ h₃ => ⟨trivial, ?_⟩
  refine Process.Ensures.bind (ensures_restartStageTerminals _ h₃ hstate₁ (fun e he => ?_)
    hintended) fun _ s₄ hs₄ => ?_
  · rw [h.effects h₃]
    exact heffects e he
  · obtain ⟨l₄, h₄, hstate₄, hsame₄⟩ := hs₄
    refine Process.ensures_pure.mpr ⟨rfl, l₄, h₄, ?_, hsame.trans hsame₄⟩
    rw [hstate₄, hstate₁, hstate]

theorem At.stageFailed_iff (h : At A l s) (hfits : l.Fits A (effectsOf .stageIncomingPayload)) :
    (((PkgApply.payloadEffects s.history).map fun e => (restartProgress s.history e).terminal).any
      fun t => t.any (· != .completed)) = true ↔ l.StageFailed := by
  rw [List.any_map, List.any_eq_true]
  constructor
  · rintro ⟨e, he, hterminal⟩
    rw [Function.comp_apply, (h.payloadEffects he).2.2] at hterminal
    cases hended : (l.slot .stageIncomingPayload e.path).ended with
    | none => simp [hended] at hterminal
    | some ended => exact ⟨_, ended, hended, by simpa [hended] using hterminal⟩
  · rintro ⟨path, ended, hended, hkind⟩
    obtain ⟨e, he, rfl⟩ := h.mem_payloadEffects (hfits _ _ _ rfl hended).2
    refine ⟨e, he, ?_⟩
    rw [Function.comp_apply, (h.payloadEffects he).2.2, hended]
    simpa using hkind

theorem At.stageCompleted_iff (h : At A l s) :
    (((PkgApply.payloadEffects s.history).map fun e => (restartProgress s.history e).terminal).all
      (· == some .completed)) = true ↔ l.StageCompleted A := by
  rw [List.all_map, List.all_eq_true]
  constructor
  · intro hall path hkey
    obtain ⟨e, he, rfl⟩ := h.mem_payloadEffects hkey
    have hterminal := hall e he
    rw [Function.comp_apply, (h.payloadEffects he).2.2, beq_iff_eq] at hterminal
    exact Option.map_eq_some_iff.mp hterminal
  · intro hcompleted e he
    obtain ⟨hmem, hkind, hprogress⟩ := h.payloadEffects he
    obtain ⟨ended, hended, hdone⟩ := hcompleted e.path
      (hkind ▸ AdmittedApplication.hasKey_of_mem h.declares hmem)
    rw [Function.comp_apply, hprogress, hended, Option.map_some, hdone]
    rfl

/-- A restarted staging is counted by the seal it rests on. -/
theorem ensures_resumeStaging {sealed : BackendOperationResult} (h : At A l s)
    (hstate : l.state = .preparing) (hfits : l.Fits A (effectsOf .stageIncomingPayload))
    (happ : app.Holds A) (hpayloads : A.hasPayloads = true)
    (hview : ∀ result, view.incomingPayload = some result ↔ l.RetainsSeal result)
    (hsealed : l.SealAnswer A m sealed) :
    (resumeStaging app view).Ensures (engineMachine m) s
      (fun result s' => result.1 = restagedDurability sealed ∧
        Moved A l (effectsOf .stageIncomingPayload) s')
      (fun _ _ => sealed.outcome = .conditionalRetained) (fun _ => True) := by
  refine ensures_history ?_
  rw [happ.payloads]
  unfold AdmittedApplication.hasPayloads at hpayloads
  cases hpayload : A.payloads with
  | none => simp [hpayload] at hpayloads
  | some payloads =>
    have hlength : payloads.selection.length ≠ 0 := by simpa [hpayload] using hpayloads
    dsimp only
    rw [if_neg hlength]
    by_cases hfailed : l.StageFailed
    · rw [if_pos ((h.stageFailed_iff hfits).mpr hfailed)]
      refine Process.ensures_pure.mpr ⟨?_, h.moved _⟩
      obtain ⟨path, ended, hended, hkind⟩ := id hfailed
      obtain ⟨retained, hfact, hok⟩ := hfits.stage hended
      have hretained := (hview retained).mpr ⟨_, hfact⟩
      have hsame : retained = sealed := by
        rcases hsealed with ⟨-, hseal⟩ | ⟨hundecided, -⟩
        · exact Option.some.inj (hretained.symm.trans ((hview sealed).mpr hseal))
        · exact absurd (.inl hfailed) hundecided
      have hincomplete : retained.outcome ≠ .completed :=
        fun hcompleted => hkind ((terminalEvent_completed_iff hok).mpr hcompleted)
      rw [hretained, ← hsame]
      exact (if_neg hincomplete).symm
    rw [if_neg fun hany => hfailed ((h.stageFailed_iff hfits).mp hany)]
    by_cases hall : l.StageCompleted A
    · rw [if_pos (h.stageCompleted_iff.mpr hall)]
      rcases hsealed with ⟨-, hseal⟩ | ⟨hundecided, -⟩
      · obtain ⟨path, hfact⟩ := id hseal
        obtain ⟨ended, hended, -⟩ := Option.bind_eq_some_iff.mp hfact
        obtain ⟨ended', hended', hkind⟩ := hall path (hfits _ _ _ rfl hended).2
        cases hended.symm.trans hended'
        obtain ⟨retained, hfact', hok⟩ := hfits.stage hended
        cases hfact.symm.trans hfact'
        have hdone := (terminalEvent_completed_iff hok).mp hkind
        simp only [(hview sealed).mpr hseal, if_pos hdone]
        exact Process.ensures_pure.mpr ⟨(if_pos hdone).symm, h.moved _⟩
      · exact absurd (.inr hall) hundecided
    · rw [if_neg fun hcompleted => hall (h.stageCompleted_iff.mp hcompleted)]
      have hanswer : (m .sealPayloadStage).result = sealed := by
        rcases hsealed with ⟨hdecided, -⟩ | ⟨-, hanswer⟩
        · exact absurd hdecided (not_or.mpr ⟨hfailed, hall⟩)
        · exact hanswer
      rw [← hanswer]
      refine Process.Ensures.bind (ensures_restageIncomingPayloads h hstate) fun _ s₁ hs₁ => ?_
      obtain ⟨rfl, hmoved⟩ := hs₁
      exact Process.ensures_pure.mpr ⟨rfl, hmoved⟩

/-! ## Synchronization -/

/-- The synchronization a restart rests on. -/
def Ledger.synchronizationAnswer (l : Ledger) (m : Mechanisms) (kind : EffectKind)
    (domain : DurabilityDomain) : DurabilityFact :=
  (l.synchronization kind).getD (m (.synchronize kind domain))

/-- How a restart counts a retained synchronization. -/
def DurabilityStatus.replayed : DurabilityStatus → DurabilityStatus
  | .confirmed => .confirmed
  | .indeterminate => .indeterminate
  | _ => .unconfirmed

theorem retainedSynchronization_eq {e : Exn} {status : DurabilityStatus} {terminal : EventKind}
    (h : synchronizationEvent e status = .ok terminal) :
    retainedSynchronization terminal = status.replayed := by
  cases status <;> cases h <;> rfl

/-- A retained synchronization is of the domain of its effect. -/
theorem Ledger.Fits.synchronization {kind : EffectKind} (hfits : l.Fits A {(kind, none)})
    {domain : DurabilityDomain} (hdomain : synchronizationDomain kind = .ok domain)
    {ended : Ended} (hended : (l.slot kind none).ended = some ended) :
    ∃ fact, l.synchronization kind = some fact ∧ fact.domain = domain ∧
      ∃ unattempted, synchronizationEvent unattempted fact.status = .ok ended.kind := by
  have hfit := (hfits _ _ _ rfl hended).1
  have hfact : ∃ fact : DurabilityFact, ∃ unattempted,
      synchronizationDomain kind = .ok fact.domain ∧ ended.evidence = ∅ ∧
        synchronizationEvent unattempted fact.status = .ok ended.kind ∧
        ended.fact = some (.synchronization fact) := by
    unfold Ended.Fits at hfit
    cases kind <;> first | exact hfit | cases hdomain
  obtain ⟨fact, unattempted, hfactDomain, -, hok, hfact⟩ := hfact
  refine ⟨fact, ?_, ?_, unattempted, hok⟩
  · unfold Ledger.synchronization Slot.fact
    rw [hended, Option.bind_some, hfact]
    rfl
  · rw [hdomain] at hfactDomain
    exact (Except.ok.inj hfactDomain).symm

theorem synchronizationEvent_eq {e : Exn} {status : DurabilityStatus}
    (h : status ≠ .notAttempted) : ∃ terminal, synchronizationEvent e status = .ok terminal := by
  cases status with
  | notAttempted => exact absurd rfl h
  | visible | confirmed | unconfirmed | indeterminate => exact ⟨_, rfl⟩

/-- A restarted synchronization returns the status it rests on, as it counts
what is retained. -/
theorem ensures_resumeSynchronization {staged : DurabilityStatus} {kind : EffectKind}
    {domain : DurabilityDomain} (h : At A l s) (hstate : l.state = .preparing)
    (hfits : l.Fits A {(kind, none)}) (hkey : A.HasKey kind none)
    (hdomain : synchronizationDomain kind = .ok domain) (hstaged : staged ≠ .notAttempted) :
    (resumeSynchronization staged domain kind).Ensures (engineMachine m) s
      (fun status s' => status = (if (l.synchronization kind).isSome then
          (l.synchronizationAnswer m kind domain).status.replayed
          else (l.synchronizationAnswer m kind domain).status) ∧
        (l.synchronizationAnswer m kind domain).domain = domain ∧
        Moved A l {(kind, none)} s')
      (fun _ _ => (l.synchronizationAnswer m kind domain).domain ≠ domain ∨
        (l.synchronizationAnswer m kind domain).status = .notAttempted) (fun _ => True) := by
  unfold resumeSynchronization
  rw [if_neg hstaged]
  refine ensures_history (ensures_find h hkey fun e he hkind hpath => ?_)
  rw [h.progress he, hkind, hpath]
  unfold Ledger.synchronizationAnswer
  cases hended : (l.slot kind none).ended with
  | some ended =>
    obtain ⟨fact, hfact, hplace, unattempted, hok⟩ := hfits.synchronization hdomain hended
    rw [hfact]
    simp only [Slot.progress, hended, Option.map_some]
    exact Process.ensures_pure.mpr ⟨retainedSynchronization_eq hok, hplace, h.moved _⟩
  | none =>
    have hnone : l.synchronization kind = none := by
      unfold Ledger.synchronization Slot.fact
      rw [hended]
      rfl
    rw [hnone]
    simp only [Slot.progress, hended, Option.map_none]
    rw [← hstate]
    refine ensures_restartPublishIntent h he (by rw [hstate]; rfl) trivial fun s₁ h₁ =>
      ⟨trivial, ?_⟩
    rw [hkind]
    refine ensures_mechanism h₁ trivial fun s₂ h₂ => ⟨trivial, ?_⟩
    refine ensures_check Or.inl fun hmismatch => ?_
    by_cases hattempted : (m (.synchronize kind domain)).status = .notAttempted
    · refine ensures_error (e := unattemptedSynchronization) ?_ (.inr hattempted)
      rw [hattempted]
      rfl
    obtain ⟨terminal, hok⟩ :=
      synchronizationEvent_eq (e := unattemptedSynchronization) hattempted
    refine ensures_ok hok ?_
    rw [← Ledger.intendOnce_state l e.kind e.path]
    refine ensures_restartPublishTerminal h₂ (h.effects h₂ ▸ he) (by simp)
      (synchronizationEvent_ne_intent hok) (by rw [Ledger.intendOnce_state, hstate]; rfl) trivial
      fun s₃ h₃ => ⟨trivial, Process.ensures_pure.mpr ⟨rfl, not_not.mp hmismatch, _, h₃, by simp, ?_⟩⟩
    rw [hkind, hpath]
    exact ((Ledger.SameBut.refl _ l).intendOnce (Set.mem_singleton _)).finishOnce
      (Set.mem_singleton _) _

end Resumed

end PkgApply
