import PkgApply.Engine.World
import PkgApply.Restart.Readiness
import PkgApply.Restart.Resumability
import PkgApply.Restart.Retained

/-!
# Capture before destruction

Whatever an active or rejected effect may destroy was captured before, and
whatever it consumes was staged before, with the staged content durable: when
the backend is called the store has accepted the terminal events that say so.
-/

namespace PkgApply

open Library

/-- A journal call adds its transition to what a log journaled. -/
theorem journaled_concat {log : List EngineCall} {c : EngineCall} {t : Transition}
    (hc : c.1.transition? = some t) : journaled (log ++ [c]) = journaled log ++ [t] := by
  obtain ⟨op, response⟩ := c
  cases op with
  | mechanism request => cases hc
  | journal t' =>
    cases hc
    unfold journaled
    rw [List.filterMap_append]
    rfl

namespace AdmittedApplication

variable {A : AdmittedApplication} {R : Mechanisms → Prop} {s : EngineState}

theorem preparing_start (A : AdmittedApplication) : Preparing A ∅ A.start :=
  ⟨.initial _, rfl, rfl, fun _ hx => absurd hx (Set.notMem_empty _)⟩

/-- The journal of a run leaves preparation ready or abandoned. -/
theorem Left.gated (hs : A.Left R s) : Gated A s := by
  refine Left.induct (I := Gated A) (.inl (preparing_start A)) (fun m _ => ?_)
    (fun m session s _ h => ?_) hs
  · exact gates_runApplication ⟨rfl, rfl, rfl⟩ (preparing_start A)
  · exact gates_runRestart h

/-- The latest step of a run holds its state, and its event is at home there. -/
theorem Left.latest (hs : A.Left R s) {step : JournalStep}
    (hstep : s.history.steps.getLast? = some step) :
    step.state = s.history.state ∧
      ∀ e, step.event = some e → ∀ state, e.effect.kind.home = some state → step.state = state := by
  refine (Left.phased (I := fun h => ∀ step, h.steps.getLast? = some step →
    step.state = h.state ∧ ∀ e, step.event = some e → ∀ state, e.effect.kind.home = some state →
      step.state = state) ?_ ?_ hs).2.2 step hstep
  · intro step hstep
    cases hstep
  · intro h h' t _ _ _ hphase _ hfollows step hstep
    obtain ⟨last, hsteps, hrecord⟩ := hfollows.steps
    rw [hsteps, List.getLast?_concat, Option.some.injEq] at hstep
    subst hstep
    have hstate : last.state = t.state := congrArg StepRecord.state hrecord
    refine ⟨hstate.trans hfollows.state_eq.symm, fun e he state hhome => ?_⟩
    have hevent : last.event = t.event.map h.nextEvent := congrArg StepRecord.event hrecord
    rw [hevent] at he
    obtain ⟨x, hx, rfl⟩ := Option.map_eq_some_iff.mp he
    exact hstate.trans (hphase.home x hx state hhome)

/-- Where an effect of the mutating phase is executed, the journal is ready. -/
theorem Left.ready_before (hs : A.Left R s) {pre rest : List EngineCall} {call : EngineCall}
    (hlog : s.log = pre ++ call :: rest) {kind : EffectKind} {path : PackagePath}
    (hcall : executesCall kind path call = true) (hhome : kind.home = some .mutating) :
    ∃ s₀, A.Left R s₀ ∧ s₀.log = pre ∧ A.Ready s₀.history := by
  obtain ⟨s₀, m, s₁, hs₀, -, -, hpre, -⟩ := hs.before hlog
  refine ⟨s₀, hs₀, hpre, ?_⟩
  obtain ⟨pre', c, rfl, hintends⟩ := hs.logged.disciplined.intent_before hlog hcall
  rw [intendsCall, Option.any_eq_true] at hintends
  obtain ⟨t, ht, hintends⟩ := hintends
  obtain ⟨e, he, -, hkind, -⟩ := Transition.intends_iff.mp hintends
  -- the intent is the latest step of the journal
  have hagrees := hs₀.logged.agrees
  have hlast : (s₀.history.steps.map JournalStep.transition).getLast? = some t := by
    rw [hagrees, hpre, journaled_concat ht, List.getLast?_concat]
  rw [List.getLast?_map] at hlast
  obtain ⟨step, hstep, rfl⟩ := Option.map_eq_some_iff.mp hlast
  obtain ⟨hstate, hevent⟩ := hs₀.latest hstep
  have hmutating : s₀.history.state = .mutating := by
    obtain ⟨x, hx, rfl⟩ := Option.map_eq_some_iff.mp he
    rw [← hstate]
    exact hevent x hx .mutating (hkind ▸ hhome)
  rcases hs₀.gated with hpreparing | hopened
  · rw [hpreparing.state_eq] at hmutating
    cases hmutating
  · rcases hopened.ready with habandoned | ⟨-, hready⟩
    · rw [habandoned] at hmutating
      cases hmutating
    · exact hready

end AdmittedApplication

/-! ## What the store has accepted -/

/-- The store accepted the completed terminal event of an effect. -/
def AcceptsCompletion (trace : List OutsideCall) (kind : EffectKind)
    (path : Option PackagePath) : Prop :=
  ∃ step ended, Accepted trace step ∧ EndedBy step kind path ended ∧ ended.kind = .completed

/-- The store accepted the completed terminal event of a synchronization that
retains the confirmation of a domain. -/
def AcceptsConfirmation (trace : List OutsideCall) (kind : EffectKind)
    (domain : DurabilityDomain) : Prop :=
  ∃ step ended, Accepted trace step ∧ EndedBy step kind none ended ∧ ended.kind = .completed ∧
    ended.fact = some (.synchronization ⟨domain, .confirmed⟩)

section Accepts

variable {A : AdmittedApplication} {s : EngineState} {kind : EffectKind}
  {path : Option PackagePath} {pre : List OutsideCall}

/-- How a step ends an effect is part of its transition. -/
theorem EndedBy.of_transition {step step' : JournalStep} {ended : Ended}
    (hsame : step'.transition = step.transition) (h : EndedBy step kind path ended) :
    EndedBy step' kind path ended := by
  obtain ⟨e, he, hterminal, rfl, rfl, rfl⟩ := h
  have hevent := congrArg Transition.event hsame
  have hfact : step'.replayFact = step.replayFact := congrArg Transition.replayFact hsame
  simp only [JournalStep.transition, he, Option.map_some] at hevent
  obtain ⟨x, hx, hxe⟩ := Option.map_eq_some_iff.mp hevent
  simp only [TransitionEvent.mk.injEq] at hxe
  obtain ⟨heffect, hkind, hevidence⟩ := hxe
  exact ⟨x, hx, hkind ▸ hterminal, by rw [heffect], by rw [heffect],
    by rw [hkind, hevidence, hfact]⟩

/-- A synchronization retains the status its terminal event stands for. -/
theorem Retains.synchronized {last : Option EngineCall} {e : TransitionEvent}
    {fact : Option ReplayFact} {domain : DurabilityDomain} (h : Retains A last e fact)
    (hdomain : synchronizationDomain e.effect.kind = .ok domain) :
    ∃ result : DurabilityFact, result.domain = domain ∧
      synchronizationEvent unattemptedSynchronization result.status = .ok e.kind ∧
        fact = some (.synchronization result) := by
  unfold Retains at h
  split at h
  case h_9 | h_10 | h_11 | h_12 | h_13 | h_14 =>
    obtain ⟨result, unattempted, -, hresult, -, hok, hfact⟩ := h
    rw [hdomain] at hresult
    refine ⟨result, (Except.ok.inj hresult).symm, ?_, hfact⟩
    cases hstatus : result.status <;> rw [hstatus] at hok
    case notAttempted => cases hok
    all_goals exact hok
  all_goals
    rename_i hkind
    rw [hkind] at hdomain
    cases hdomain

/-- A completed effect of a journal whose transitions are accepted has an
accepted step that completes it. -/
theorem JournalHistory.Done.accepted {last : Option EngineCall} (h : Logged A last s)
    (haccepted : ∀ t ∈ journaled s.log, ∃ step : JournalStep, step.transition = t ∧
      Accepted pre step) (hdone : s.history.Done kind path) :
    ∃ step ∈ s.history.steps, ∃ step' ended, step'.transition = step.transition ∧
      Accepted pre step' ∧ EndedBy step' kind path ended ∧ ended.kind = .completed := by
  obtain ⟨ended, hended, hkind⟩ := Option.map_eq_some_iff.mp hdone
  obtain ⟨step, hstep, hends⟩ := (h.appended.slot_ended_iff h.declares.keyed).mp hended
  have hmem : step.transition ∈ journaled s.log := by
    rw [← h.agrees]
    exact List.mem_map_of_mem hstep
  obtain ⟨step', hsame, hstep'⟩ := haccepted _ hmem
  exact ⟨step, hstep, step', ended, hsame, hstep', hends.of_transition hsame, hkind⟩

theorem JournalHistory.Done.acceptsCompletion {last : Option EngineCall} (h : Logged A last s)
    (haccepted : ∀ t ∈ journaled s.log, ∃ step : JournalStep, step.transition = t ∧
      Accepted pre step) (hdone : s.history.Done kind path) : AcceptsCompletion pre kind path := by
  obtain ⟨-, -, step, ended, -, hstep, hends, hkind⟩ := hdone.accepted h haccepted
  exact ⟨step, ended, hstep, hends, hkind⟩

/-- A completed synchronization was confirmed by the backend. -/
theorem JournalHistory.Done.acceptsConfirmation {last : Option EngineCall}
    {domain : DurabilityDomain} (h : Logged A last s)
    (haccepted : ∀ t ∈ journaled s.log, ∃ step : JournalStep, step.transition = t ∧
      Accepted pre step) (hdomain : synchronizationDomain kind = .ok domain)
    (hdone : s.history.Done kind none) : AcceptsConfirmation pre kind domain := by
  obtain ⟨step, hstep, step', ended, hsame, haccepted', hends, hkind⟩ := hdone.accepted h haccepted
  refine ⟨step', ended, haccepted', hends, hkind, ?_⟩
  obtain ⟨e, he, hterminal, hekind, hepath, rfl⟩ := hends
  obtain ⟨before, rest, hlog⟩ := h.step_mem hstep
  obtain ⟨last', -, hallows⟩ := h.disciplined _ _ _ hlog
  have hevent : step'.transition.event = some ⟨e.effect, e.kind, e.evidence⟩ := by
    simp [JournalStep.transition, he]
  rw [← hsame] at hallows
  simp only [AdmittedApplication.allows, hevent, if_neg hterminal] at hallows
  obtain ⟨result, hresult, hok, hfact⟩ := hallows.synchronized (hekind ▸ hdomain)
  have hconfirmed := (synchronizationEvent_completed_iff hok).1.mp hkind
  obtain ⟨resultDomain, status⟩ := result
  dsimp only at hresult hconfirmed
  rw [← hresult, ← hconfirmed]
  exact hfact

end Accepts

/-! ## Capture before destruction -/

namespace AdmittedApplication

/-- A call that may destroy an object: an active effect on a path admitted as
present, with recovery selected, or the publication of an old object. -/
def MayDestroy (A : AdmittedApplication) (request : MechanismRequest) (path : PackagePath) : Prop :=
  ∃ d ∈ A.plan.paths, d.path = path ∧
    ((∃ command, request = .executeActive command ∧ command.path = path ∧
        d.active ∈ [PlannedActiveOutcome.activateIncoming, .removeObserved,
          .removeDirectoryIfEmpty] ∧
        A.control.recovery ≠ .none ∧ ∃ object, A.observations.find path = some (.present object)) ∨
      ∃ command, request = .executeRejected command ∧ command.path = path ∧
        d.rejected = .stageOld)

/-- A call that consumes the content of an incoming regular file. -/
def Consumes (A : AdmittedApplication) (request : MechanismRequest) : Prop :=
  ∃ payloads, A.payloads = some payloads ∧ ∃ r ∈ payloads.requirements,
    r.regularPayloadEntry.isSome = true ∧
      ((∃ command, request = .executeActive command ∧ command.path = r.path ∧
          r.requiredForActive = true) ∨
        ∃ command, request = .executeRejected command ∧ command.path = r.path ∧
          r.requiredForRejected = true)

variable {A : AdmittedApplication} {request : MechanismRequest} {path : PackagePath}

/-- What may be destroyed is captured. -/
theorem MayDestroy.capture (h : A.MayDestroy request path) : ∃ r ∈ A.captures, r.path = path := by
  obtain ⟨d, hd, rfl, hcall⟩ := h
  rcases hcall with ⟨command, -, -, hactive, hrecovery, object, hobject⟩ | ⟨command, -, -, hstage⟩
  · obtain ⟨before, o, hbefore, ho, -, hpresent⟩ := admitted_observation hd
    have hselected : recoverySelected A.control = true := by
      unfold recoverySelected
      cases hcontrol : A.control.recovery with
      | none => exact absurd hcontrol hrecovery
      | bestEffort | exactPriorState => rfl
    have hpresent : before.isPresent = true := by
      rcases hpresent with ⟨hpresent, -⟩ | ⟨-, rfl⟩
      · exact hpresent
      · rw [hobject] at ho
        cases ho
    have hrequired : activeMechanismRequired d.active = true := by
      simp only [List.mem_cons, List.not_mem_nil, or_false] at hactive
      rcases hactive with h | h | h <;> rw [h] <;> rfl
    obtain ⟨r, hr, hpath, -⟩ :=
      capture_of_destructive A.captures_ok hd hselected hbefore hpresent hrequired
    exact ⟨r, hr, hpath⟩
  · obtain ⟨r, hr, hpath, -⟩ := capture_of_stageOld A.captures_ok hd hstage
    exact ⟨r, hr, hpath⟩

theorem MayDestroy.effect (h : A.MayDestroy request path) : ∃ kind : EffectKind,
    request.effect = some (kind, path) ∧ kind.home = some .mutating := by
  obtain ⟨d, -, -, hcall⟩ := h
  rcases hcall with ⟨command, rfl, rfl, -⟩ | ⟨command, rfl, rfl, -⟩
  · exact ⟨.publishActiveObject, rfl, rfl⟩
  · exact ⟨.publishRejectedObject, rfl, rfl⟩

/-- Content that is consumed is part of the payload closure. -/
theorem Consumes.hasPayloads (h : A.Consumes request) : A.hasPayloads = true := by
  obtain ⟨payloads, hpayloads, r, hr, hentry, -⟩ := h
  cases himage : A.request.image with
  | none =>
    rw [payloads_of_no_image himage] at hpayloads
    cases hpayloads
  | some image =>
    obtain ⟨payloads', hpayloads', hprepare⟩ := payloads_of_image himage
    rw [hpayloads] at hpayloads'
    cases hpayloads'
    obtain ⟨id, hid⟩ := Option.isSome_iff_exists.mp hentry
    have hmem : id ∈ payloads.selection := selection_of_requirement hprepare hr hid
    unfold AdmittedApplication.hasPayloads
    rw [hpayloads, Option.any_some, bne_iff_ne]
    exact Nat.ne_of_gt (List.length_pos_of_mem hmem)

theorem Consumes.effect (h : A.Consumes request) : ∃ (kind : EffectKind) (path : PackagePath),
    request.effect = some (kind, path) ∧ kind.home = some .mutating := by
  obtain ⟨payloads, -, r, -, -, hcall⟩ := h
  rcases hcall with ⟨command, rfl, -⟩ | ⟨command, rfl, -⟩
  · exact ⟨.publishActiveObject, command.path, rfl, rfl⟩
  · exact ⟨.publishRejectedObject, command.path, rfl, rfl⟩

end AdmittedApplication

/-- Against a store: when the backend is called for an effect that may destroy
an object, the store has accepted the completed capture of its path and the
confirmation of recovery staging; when it is called for one that consumes
incoming content, the store has accepted every completed staging of the payload
closure and the confirmation of incoming staging. -/
theorem Run.capture_before_destruction {A : AdmittedApplication} {w : World} (hw : Run A w)
    {pre rest : List OutsideCall} {request : MechanismRequest} {response : request.Response}
    (htrace : w.trace = pre ++ ⟨.mechanism request, response⟩ :: rest) :
    (∀ path, A.MayDestroy request path →
      AcceptsCompletion pre .captureOldObject (some path) ∧
        AcceptsConfirmation pre .synchronizeRecoveryStaging .recoveryStaging) ∧
    (A.Consumes request →
      (∀ path, A.HasKey .stageIncomingPayload (some path) →
        AcceptsCompletion pre .stageIncomingPayload (some path)) ∧
        AcceptsConfirmation pre .synchronizeIncomingStaging .incomingStaging) := by
  have hready : ∀ kind path, request.effect = some (kind, path) → kind.home = some .mutating →
      ∃ s₀, Logged A none s₀ ∧ A.Ready s₀.history ∧
        ∀ t ∈ journaled s₀.log, ∃ step : JournalStep, step.transition = t ∧ Accepted pre step := by
    intro kind path heffect hhome
    rcases hw.refines with ⟨-, hcalls⟩ | ⟨s, hleft, pending, j, -, -, htraced, -, -⟩
    · have hcall : (⟨.mechanism request, response⟩ : OutsideCall) ∈ w.trace := by simp [htrace]
      cases hcalls _ hcall
    · obtain ⟨pre', rest', hlog, haccepted⟩ := htraced.accounted _ _ _ _ htrace
      obtain ⟨s₀, hs₀, rfl, hready⟩ := hleft.ready_before hlog
        (show executesCall kind path _ = true by simp [executesCall, heffect]) hhome
      exact ⟨s₀, hs₀.logged, hready, haccepted⟩
  constructor
  · intro path hdestroy
    obtain ⟨kind, heffect, hhome⟩ := hdestroy.effect
    obtain ⟨s₀, hlogged, hready, haccepted⟩ := hready kind path heffect hhome
    obtain ⟨r, hr, rfl⟩ := hdestroy.capture
    have hstep : ⟨.captureOldObject, r.path, none⟩ ∈ A.steps .captureOldObject := by
      rw [AdmittedApplication.steps_capture]
      exact List.mem_map_of_mem hr
    have hrecovery : A.HasKey .synchronizeRecoveryStaging none :=
      (AdmittedApplication.hasKey_domain _).mpr (by simpa using List.ne_nil_of_mem hr)
    exact ⟨(hready _ _ rfl (AdmittedApplication.hasKey_step hstep)).acceptsCompletion hlogged
      haccepted, (hready _ _ rfl hrecovery).acceptsConfirmation hlogged haccepted rfl⟩
  · intro hconsumes
    obtain ⟨kind, path, heffect, hhome⟩ := hconsumes.effect
    obtain ⟨s₀, hlogged, hready, haccepted⟩ := hready kind path heffect hhome
    have hincoming : A.HasKey .synchronizeIncomingStaging none :=
      (AdmittedApplication.hasKey_domain _).mpr hconsumes.hasPayloads
    exact ⟨fun path hkey => (hready _ _ rfl hkey).acceptsCompletion hlogged haccepted,
      (hready _ _ rfl hincoming).acceptsConfirmation hlogged haccepted rfl⟩

section Removal

private def removal : AdmittedApplication := .removal .exactPriorState .allApplicationDomains

private def removalWorld : World :=
  ((applyProcess removal).eval
    (worldMachine ⟨AdmittedApplication.removalMechanisms .completed .completed .confirmed,
      fun _ _ => none⟩) ⟨fun _ => none, []⟩).2

/-- The backend was asked to remove the directory. -/
private def removes (c : OutsideCall) : Bool :=
  match c.1 with
  | .mechanism (.executeActive command) => command.path == AdmittedApplication.removalPath
  | _ => false

private theorem removes_eq {c : OutsideCall} (h : removes c = true) :
    ∃ command, ∃ response : (MechanismRequest.executeActive command).Response,
      c = ⟨.mechanism (.executeActive command), response⟩ ∧
        command.path = AdmittedApplication.removalPath := by
  obtain ⟨op, response⟩ := c
  cases op with
  | store op => cases h
  | mechanism request =>
    cases request with
    | executeActive command => exact ⟨command, response, rfl, by simpa [removes] using h⟩
    | _ => cases h

private theorem removalWorld_run : Run removal removalWorld := .applied rfl (.inr rfl)

private theorem removal_mayDestroy {command : BackendActiveEffectRequest}
    (hpath : command.path = AdmittedApplication.removalPath) :
    removal.MayDestroy (.executeActive command) AdmittedApplication.removalPath :=
  ⟨AdmittedApplication.removalDecision, List.mem_singleton_self _, rfl,
    .inl ⟨command, rfl, hpath, by decide, by decide, AdmittedApplication.removalObject, rfl⟩⟩

theorem capture_before_destruction_removed : ∃ pre command response rest,
    removalWorld.trace = pre ++ ⟨.mechanism (.executeActive command), response⟩ :: rest ∧
      AcceptsCompletion pre .captureOldObject (some AdmittedApplication.removalPath) ∧
      AcceptsConfirmation pre .synchronizeRecoveryStaging .recoveryStaging := by
  have hany : removalWorld.trace.any removes = true := by decide +kernel
  obtain ⟨c, hc, hremoves⟩ := List.any_eq_true.mp hany
  obtain ⟨pre, rest, htrace⟩ := List.append_of_mem hc
  obtain ⟨command, response, rfl, hpath⟩ := removes_eq hremoves
  refine ⟨pre, command, response, rest, htrace, ?_⟩
  exact (removalWorld_run.capture_before_destruction htrace).1 _ (removal_mayDestroy hpath)

end Removal

end PkgApply
