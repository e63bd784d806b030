import PkgApply.Engine.Runs

/-!
# What a journal retains

The terminal events of a history and the facts they carry.  In the history of
a run every such fact is what a mechanism returned, and it fits the effect it
was retained for.
-/

namespace PkgApply

open Library

/-! ## Retained facts -/

/-- A terminal event of one effect carries a fact. -/
def JournalHistory.Retains (h : JournalHistory) (kind : EffectKind) (path : Option PackagePath)
    (fact : ReplayFact) : Prop :=
  ∃ step ∈ h.steps, ∃ e, step.event = some e ∧ e.kind ≠ .intent ∧ e.effect.kind = kind ∧
    e.effect.path = path ∧ step.replayFact = some fact

/-- A step ends the effect of one kind at one path. -/
def EndedBy (step : JournalStep) (kind : EffectKind) (path : Option PackagePath)
    (ended : Ended) : Prop :=
  ∃ e, step.event = some e ∧ e.kind ≠ .intent ∧ e.effect.kind = kind ∧ e.effect.path = path ∧
    ended = ⟨e.kind, e.evidence, step.replayFact⟩

/-- The fact the slot of an effect carries. -/
def Slot.fact (s : Slot) : Option ReplayFact := s.ended.bind Ended.fact

@[simp] theorem Slot.fact_untouched : untouched.fact = none := rfl
@[simp] theorem Slot.fact_unresolved : unresolved.fact = none := rfl
@[simp] theorem Slot.fact_ended (intended : Bool) (ended : Ended) :
    (⟨intended, some ended⟩ : Slot).fact = ended.fact := rfl

namespace JournalHistory

variable {h : JournalHistory} {step : JournalStep} {kind : EffectKind}
  {path : Option PackagePath}

/-- A terminal event finds the slot of its effect unresolved and ends it. -/
theorem slot_after_terminal (hr : Appended h) (hk : h.Keyed) (ha : h.Admits step)
    {e : JournalEvent} (he : step.event = some e) (hterminal : e.kind ≠ .intent) :
    h.slot e.effect.kind e.effect.path = .unresolved ∧
      (h.after step).slot e.effect.kind e.effect.path =
        ⟨true, some ⟨e.kind, e.evidence, step.replayFact⟩⟩ := by
  have hadmits := ha.event e he
  have hopen := hadmits.open_ hterminal
  rw [hr.progressOf_eq hk hadmits.declared, Slot.progress_eq_unresolved_iff] at hopen
  refine ⟨hopen, ?_⟩
  rw [slot_after, hopen]
  unfold noteSlot
  rw [he]
  simp only [and_self, if_true]
  exact Slot.note_terminal hterminal _ _

/-- A step that does not end an effect leaves how its slot is ended. -/
theorem slot_after_ended_of_not (hnot : ∀ ended, ¬EndedBy step kind path ended) :
    ((h.after step).slot kind path).ended = (h.slot kind path).ended := by
  rw [slot_after]
  unfold noteSlot
  cases he : step.event with
  | none => rfl
  | some e =>
    dsimp only
    split
    · rename_i hkey
      have hintent : e.kind = .intent := by
        by_contra hterminal
        exact hnot _ ⟨e, he, hterminal, hkey.1, hkey.2, rfl⟩
      rw [hintent]
      rfl
    · rfl

/-- A slot is ended exactly by a terminal event of its effect. -/
theorem Appended.slot_ended_iff (hr : Appended h) (hk : h.Keyed) {ended : Ended} :
    (h.slot kind path).ended = some ended ↔ ∃ step ∈ h.steps, EndedBy step kind path ended := by
  induction hr with
  | initial d =>
    rw [slot_initial]
    constructor
    · rintro ⟨⟩
    · rintro ⟨step, hstep, -⟩
      cases hstep
  | @append h h' step hr happend ih =>
    obtain ⟨ha, rfl⟩ := append_eq_ok_iff.mp happend
    have ih := ih hk
    rw [after_steps]
    by_cases hends : ∃ ended, EndedBy step kind path ended
    · obtain ⟨ended', e, he, hterminal, rfl, rfl, rfl⟩ := hends
      obtain ⟨hopen, hafter⟩ := slot_after_terminal hr hk ha he hterminal
      rw [hafter]
      rw [hopen] at ih
      constructor
      · rintro ⟨⟩
        exact ⟨step, by simp, e, he, hterminal, rfl, rfl, rfl⟩
      · rintro ⟨step', hmem, hended⟩
        rcases List.mem_append.mp hmem with hmem | hmem
        · cases ih.mpr ⟨step', hmem, hended⟩
        · obtain ⟨e', he', -, -, -, rfl⟩ := hended
          cases List.mem_singleton.mp hmem
          cases he.symm.trans he'
          rfl
    · rw [slot_after_ended_of_not (not_exists.mp hends), ih]
      constructor
      · rintro ⟨step', hmem, hended⟩
        exact ⟨step', List.mem_append_left _ hmem, hended⟩
      · rintro ⟨step', hmem, hended⟩
        rcases List.mem_append.mp hmem with hmem | hmem
        · exact ⟨step', hmem, hended⟩
        · rw [List.mem_singleton.mp hmem] at hended
          exact absurd ⟨_, hended⟩ hends

/-- The slot of an effect carries exactly what a terminal event of it retains. -/
theorem Appended.slot_fact_iff (hr : Appended h) (hk : h.Keyed) {fact : ReplayFact} :
    (h.slot kind path).fact = some fact ↔ h.Retains kind path fact := by
  unfold Slot.fact
  rw [Option.bind_eq_some_iff]
  constructor
  · rintro ⟨ended, hended, hfact⟩
    obtain ⟨step, hstep, e, he, hterminal, hkind, hpath, rfl⟩ := (hr.slot_ended_iff hk).mp hended
    exact ⟨step, hstep, e, he, hterminal, hkind, hpath, hfact⟩
  · rintro ⟨step, hstep, e, he, hterminal, hkind, hpath, hfact⟩
    exact ⟨_, (hr.slot_ended_iff hk).mpr ⟨step, hstep, e, he, hterminal, hkind, hpath, rfl⟩, hfact⟩

end JournalHistory

/-! ## Facts that fit -/

/-- How an effect may have ended: its terminal event fits the fact it retains,
and the fact belongs to the effect. -/
def Ended.Fits (A : AdmittedApplication) (kind : EffectKind) (path : Option PackagePath)
    (ended : Ended) : Prop :=
  match kind with
  | .captureOldObject =>
    ∃ request ∈ A.captures, ∃ result : OldObjectCaptureResult,
      path = some request.path ∧ result.captured.path = request.path ∧
        ended.evidence = result.evidence ∧
        terminalEvent (captureSemanticOutcome A.control request result) = .ok ended.kind ∧
        ended.fact = some (.capture result)
  | .stageIncomingPayload =>
    ∃ result : BackendOperationResult, ended.evidence = result.evidence ∧
      terminalEvent result.outcome = .ok ended.kind ∧ ended.fact = some (.payloadSeal result)
  | .publishRejectedObject =>
    ∃ p, ∃ result : RejectedObjectPublicationResult, path = some p ∧
      ended.evidence = result.evidence ∧ terminalEvent result.outcome = .ok ended.kind ∧
      ended.fact = some (.rejectedEffect p result)
  | .publishActiveObject =>
    ∃ p, ∃ result : BackendOperationResult, path = some p ∧ ended.evidence = result.evidence ∧
      activeTerminalEvent result.outcome = .ok ended.kind ∧
      ended.fact = some (.activeEffect p result)
  | .recoverActiveObject =>
    ∃ p, ∃ result : BackendOperationResult, path = some p ∧ ended.evidence = result.evidence ∧
      terminalEvent result.outcome = .ok ended.kind ∧ ended.fact = some (.recoveryEffect p result)
  | .publishCompletedEvidence =>
    if ended.kind = .completed then
      ∃ evidence : CompletedEvidence, evidence.BelongsTo A ∧
        ended.fact = some (.completedEvidence evidence)
    else ended.fact = none
  | .observeResult | .sealReceipt => ended.fact = none
  | .synchronizeIncomingStaging | .synchronizeRecoveryStaging | .synchronizeActiveNamespace
  | .synchronizeRejectedStore | .synchronizeCompletedEvidence | .synchronizeRecoveredNamespace =>
    ∃ result : DurabilityFact, ∃ unattempted, synchronizationDomain kind = .ok result.domain ∧
      ended.evidence = ∅ ∧ synchronizationEvent unattempted result.status = .ok ended.kind ∧
      ended.fact = some (.synchronization result)

/-- Every terminal event of a history fits its effect. -/
def JournalHistory.Fitting (A : AdmittedApplication) (h : JournalHistory) : Prop :=
  ∀ step ∈ h.steps, ∀ kind path ended, EndedBy step kind path ended → ended.Fits A kind path

/-- The results of a process a view may rely on: a capture reports the path it
was asked for. -/
def CapturesInPlace (A : AdmittedApplication) (m : Mechanisms) : Prop :=
  ∀ request ∈ A.captures, (m (.captureOld request)).captured.path = request.path

/-- Every entry of a log was answered by some mechanisms of a kind. -/
def Answered (R : Mechanisms → Prop) (log : List EngineCall) : Prop :=
  ∀ request response, ⟨.mechanism request, response⟩ ∈ log → ∃ m, R m ∧ m request = response

/-- What the mechanisms returned for the effect of one kind at one path. -/
def Returned (log : List EngineCall) (kind : EffectKind) (path : Option PackagePath) :
    ReplayFact → Prop
  | .payloadSeal result => ∃ stage : PayloadStageResult,
      (⟨.mechanism .sealPayloadStage, stage⟩ : EngineCall) ∈ log ∧ stage.result = result
  | .capture result => ∃ request, path = some request.path ∧
      (⟨.mechanism (.captureOld request), result⟩ : EngineCall) ∈ log
  | .rejectedEffect p result => ∃ command, path = some p ∧ command.path = p ∧
      (⟨.mechanism (.executeRejected command), result⟩ : EngineCall) ∈ log
  | .activeEffect p result => ∃ command, path = some p ∧ command.path = p ∧
      (⟨.mechanism (.executeActive command), result⟩ : EngineCall) ∈ log
  | .recoveryEffect p result => path = some p ∧
      (⟨.mechanism (.recover p), result⟩ : EngineCall) ∈ log
  | .synchronization result =>
      (⟨.mechanism (.synchronize kind result.domain), result⟩ : EngineCall) ∈ log
  | .completedEvidence evidence => ∃ publication : CompletedEvidencePublicationResult,
      (⟨.mechanism (.publishCompletedEvidence evidence), publication⟩ : EngineCall) ∈ log

section Logged

variable {A : AdmittedApplication} {last : Option EngineCall} {s : EngineState}

/-- The transitions of a logged history are entries of its log. -/
theorem Logged.step_mem (h : Logged A last s) {step : JournalStep}
    (hstep : step ∈ s.history.steps) :
    ∃ pre rest, s.log = pre ++ ⟨.journal step.transition, ()⟩ :: rest := by
  have hmem : step.transition ∈ journaled s.log := by
    rw [← h.agrees]
    exact List.mem_map_of_mem hstep
  obtain ⟨⟨op, response⟩, hcall, hop⟩ := List.mem_filterMap.mp hmem
  cases op with
  | mechanism request => cases hop
  | journal t =>
    cases hop
    obtain ⟨pre, rest, hlog⟩ := List.append_of_mem hcall
    exact ⟨pre, rest, hlog⟩

/-- A terminal event of a log retains what the call before it returned. -/
private theorem logged_retains (h : Logged A last s) {pre rest : List EngineCall}
    {t : Transition} {e : TransitionEvent} (hlog : s.log = pre ++ ⟨.journal t, ()⟩ :: rest)
    (he : t.event = some e) (hterminal : e.kind ≠ .intent) :
    ∃ last' : Option EngineCall, (∀ c, last' = some c → pre.getLast? = some c) ∧
      PkgApply.Retains A last' e t.replayFact := by
  obtain ⟨last', hlast, hallows⟩ := h.disciplined _ _ _ hlog
  simp only [AdmittedApplication.allows, he, if_neg hterminal] at hallows
  exact ⟨last', hlast, hallows⟩

/-- A terminal event of a logged history retains what an entry of its log returned. -/
theorem Logged.retains (h : Logged A last s) {step : JournalStep} {e : JournalEvent}
    (hstep : step ∈ s.history.steps) (he : step.event = some e) (hterminal : e.kind ≠ .intent) :
    ∃ last' : Option EngineCall, (∀ c, last' = some c → c ∈ s.log) ∧
      PkgApply.Retains A last' ⟨e.effect, e.kind, e.evidence⟩ step.replayFact := by
  obtain ⟨pre, rest, hlog⟩ := h.step_mem hstep
  obtain ⟨last', hlast, hretains⟩ :=
    logged_retains (e := ⟨e.effect, e.kind, e.evidence⟩) h hlog
      (by simp [JournalStep.transition, he]) hterminal
  refine ⟨last', fun c hc => ?_, hretains⟩
  rw [hlog]
  exact List.mem_append_left _ (List.mem_of_getLast? (hlast c hc))

/-- What the terminal events of a log retain, a mechanism returned. -/
private theorem logged_returned (h : Logged A last s) (pre : List EngineCall) :
    ∀ t e rest, s.log = pre ++ ⟨.journal t, ()⟩ :: rest → t.event = some e → e.kind ≠ .intent →
      ∀ fact, t.replayFact = some fact → Returned s.log e.effect.kind e.effect.path fact := by
  induction hn : pre.length using Nat.strong_induction_on generalizing pre with
  | _ n ih =>
    intro t e rest hlog he hterminal fact hf
    obtain ⟨last', hlast, hretains⟩ := logged_retains h hlog he hterminal
    have hmem : ∀ c, last' = some c → c ∈ s.log := by
      intro c hc
      rw [hlog]
      exact List.mem_append_left _ (List.mem_of_getLast? (hlast c hc))
    unfold PkgApply.Retains at hretains
    split at hretains
    · obtain ⟨request, -, result, rfl, hpath, -, -, hfact⟩ := hretains
      rw [hfact] at hf
      cases hf
      exact ⟨request, hpath, hmem _ rfl⟩
    · obtain ⟨result, hreturned, -, -, hfact⟩ := hretains
      rcases hreturned with ⟨stage, rfl, hstage⟩ | ⟨t', e', rfl, he', hterminal', hkind', hsame⟩
      · rw [hfact] at hf
        cases hf
        exact ⟨stage, hmem _ rfl, hstage⟩
      · -- the staging terminal before it retains the same seal
        obtain ⟨pre', rfl⟩ := List.getLast?_eq_some_iff.mp (hlast _ rfl)
        have hlog' : s.log = pre' ++ ⟨.journal t', ()⟩ :: (⟨.journal t, ()⟩ :: rest) := by
          rw [hlog]
          simp
        have hlt : pre'.length < n := by
          rw [← hn]
          simp
        have hprevious := ih _ hlt pre' rfl t' e' _ hlog' he' hterminal' fact (hsame.trans hf)
        rw [hfact] at hf
        cases hf
        exact hprevious
    · obtain ⟨command, result, rfl, hpath, -, -, hfact⟩ := hretains
      rw [hfact] at hf
      cases hf
      exact ⟨command, hpath, rfl, hmem _ rfl⟩
    · obtain ⟨command, result, rfl, hpath, -, -, hfact⟩ := hretains
      rw [hfact] at hf
      cases hf
      exact ⟨command, hpath, rfl, hmem _ rfl⟩
    · obtain ⟨p, result, rfl, hpath, -, -, hfact⟩ := hretains
      rw [hfact] at hf
      cases hf
      exact ⟨hpath, hmem _ rfl⟩
    · obtain ⟨evidence, publication, rfl, -, -, -, hfact⟩ := hretains
      rw [hfact] at hf
      split at hf
      · cases hf
        exact ⟨publication, hmem _ rfl⟩
      · cases hf
    · rw [hretains] at hf
      cases hf
    · rw [hretains] at hf
      cases hf
    all_goals
      obtain ⟨result, unattempted, rfl, -, -, -, hfact⟩ := hretains
      rw [hfact] at hf
      cases hf
      exact hmem _ rfl

/-- What a logged history retains, a mechanism returned. -/
theorem Logged.returned (h : Logged A last s) {kind : EffectKind} {path : Option PackagePath}
    {fact : ReplayFact} (hretains : s.history.Retains kind path fact) :
    Returned s.log kind path fact := by
  obtain ⟨step, hstep, e, he, hterminal, rfl, rfl, hfact⟩ := hretains
  obtain ⟨pre, rest, hlog⟩ := h.step_mem hstep
  exact logged_returned h pre step.transition ⟨e.effect, e.kind, e.evidence⟩ rest hlog
    (by simp [JournalStep.transition, he]) hterminal fact hfact

/-! ## Captures in place -/

/-- Every retained capture is of the path of its effect. -/
def JournalHistory.InPlace (h : JournalHistory) : Prop :=
  ∀ path captured, h.Retains .captureOldObject path (.capture captured) →
    path = some captured.captured.path

/-- Captures reported in place are retained in place. -/
theorem Logged.inPlace (h : Logged A last s) (hanswered : Answered (CapturesInPlace A) s.log) :
    s.history.InPlace := by
  rintro path captured ⟨step, hstep, e, he, hterminal, hkind, rfl, hfact⟩
  obtain ⟨last', hmem, hretains⟩ := h.retains hstep he hterminal
  simp only [PkgApply.Retains, hkind] at hretains
  obtain ⟨request, hrequest, result, rfl, hpath, -, -, hfact'⟩ := hretains
  cases hfact.symm.trans hfact'
  obtain ⟨m, hm, hanswer⟩ := hanswered _ _ (hmem _ rfl)
  rw [hpath, ← hanswer, hm request hrequest]

/-- The terminal events of a logged history fit where its captures are in place. -/
theorem Logged.fitting (h : Logged A last s) (hplace : s.history.InPlace) :
    s.history.Fitting A := by
  rintro step hstep kind path ended ⟨e, he, hterminal, rfl, rfl, rfl⟩
  obtain ⟨last', -, hretains⟩ := h.retains hstep he hterminal
  unfold Ended.Fits
  cases hkind : e.effect.kind <;> simp only [PkgApply.Retains, hkind] at hretains ⊢
  case captureOldObject =>
    obtain ⟨request, hrequest, result, -, hpath, hevidence, hok, hfact⟩ := hretains
    refine ⟨request, hrequest, result, hpath, ?_, hevidence, hok, hfact⟩
    have := hplace e.effect.path result ⟨step, hstep, e, he, hterminal, hkind, rfl, hfact⟩
    exact Option.some.inj (this.symm.trans hpath)
  case stageIncomingPayload =>
    obtain ⟨result, -, hevidence, hok, hfact⟩ := hretains
    exact ⟨result, hevidence, hok, hfact⟩
  case publishRejectedObject =>
    obtain ⟨command, result, -, hpath, hevidence, hok, hfact⟩ := hretains
    exact ⟨command.path, result, hpath, hevidence, hok, hfact⟩
  case publishActiveObject =>
    obtain ⟨command, result, -, hpath, hevidence, hok, hfact⟩ := hretains
    exact ⟨command.path, result, hpath, hevidence, hok, hfact⟩
  case recoverActiveObject =>
    obtain ⟨p, result, -, hpath, hevidence, hok, hfact⟩ := hretains
    exact ⟨p, result, hpath, hevidence, hok, hfact⟩
  case publishCompletedEvidence =>
    obtain ⟨evidence, publication, -, hbelongs, -, hok, hfact⟩ := hretains
    have hcompleted : e.kind = .completed ↔ publication.outcome = .completed := by
      cases houtcome : publication.outcome <;>
        simp [houtcome, terminalEvent, eq_comm] at hok ⊢ <;> simp [← hok]
    simp only [hcompleted]
    split
    · exact ⟨evidence, hbelongs, by rw [hfact, if_pos ‹_›]⟩
    · rw [hfact, if_neg ‹_›]
  case observeResult => exact hretains
  case sealReceipt => exact hretains
  all_goals
    obtain ⟨result, unattempted, -, hdomain, hevidence, hok, hfact⟩ := hretains
    exact ⟨result, unattempted, hdomain, hevidence, hok, hfact⟩

end Logged

/-! ## Answered logs -/

/-- A process under mechanisms of a kind leaves an answered log answered. -/
theorem Answered.ensures {R : Mechanisms → Prop} {m : Mechanisms} (hm : R m) {α : Type}
    (p : Engine α) {s : EngineState} (h : Answered R s.log) :
    p.Ensures (engineMachine m) s (fun _ s' => Answered R s'.log) (fun _ s' => Answered R s'.log)
      (fun s' => Answered R s'.log) := by
  refine Process.ensures_invariant (I := fun s : EngineState => Answered R s.log)
    (fun op s s' r h hop => ?_) p h
  cases op with
  | mechanism request =>
    simp only [engineMachine, Except.ok.injEq] at hop
    obtain ⟨rfl, rfl⟩ := hop
    intro request' response hcall
    rcases List.mem_append.mp hcall with hcall | hcall
    · exact h request' response hcall
    · cases List.mem_singleton.mp hcall
      exact ⟨m, hm, rfl⟩
  | journal t =>
    simp only [engineMachine] at hop
    split at hop
    · cases hop
      intro request' response hcall
      rcases List.mem_append.mp hcall with hcall | hcall
      · exact h request' response hcall
      · cases List.mem_singleton.mp hcall
    · cases hop

/-- Every answer in the log of a run comes from mechanisms of its kind. -/
theorem AdmittedApplication.Left.answered {A : AdmittedApplication} {R : Mechanisms → Prop}
    {s : EngineState} (hs : A.Left R s) : Answered R s.log := by
  refine Left.induct (I := fun s : EngineState => Answered R s.log) (fun _ _ hcall => ?_)
    (fun m hm => Answered.ensures hm _ ?_) (fun m session s hm h => Answered.ensures hm _ h) hs
  · cases hcall
  · exact fun _ _ hcall => by cases hcall

end PkgApply
