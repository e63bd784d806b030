import PkgApply.Engine.Advance
import PkgApply.Restart.Conclusion
import PkgApply.Restart.Readiness

/-!
# A restart advances in order

A restarted process takes from its view what the journal holds, leaves alone
what the journal leaves unresolved, and journals only what is due.
-/

namespace PkgApply

open Library Engine

/-! ## What a view remembers -/

/-- What a view recalls of published and recovered effects, its journal holds. -/
structure Remembers (view : RestartView) (h : JournalHistory) : Prop where
  rejected : ∀ path result, view.findRejectedEffect path = some result →
    ∃ terminal evidence, terminalEvent result.outcome = .ok terminal ∧
      (h.slot .publishRejectedObject (some path)).ended =
        some ⟨terminal, evidence, some (.rejectedEffect path result)⟩
  active : ∀ path result, view.findActiveEffect path = some result →
    ∃ terminal evidence, activeTerminalEvent result.outcome = .ok terminal ∧
      (h.slot .publishActiveObject (some path)).ended =
        some ⟨terminal, evidence, some (.activeEffect path result)⟩
  recovery : ∀ path result, view.findRecoveryEffect path = some result →
    ∃ terminal evidence, terminalEvent result.outcome = .ok terminal ∧
      (h.slot .recoverActiveObject (some path)).ended =
        some ⟨terminal, evidence, some (.recoveryEffect path result)⟩

section Remembers

variable {A : AdmittedApplication} {view : RestartView} {h h' : JournalHistory} {s : EngineState}

theorem Remembers.later (hr : Remembers view h) (hl : h.Later h') : Remembers view h' := by
  have hkept : ∀ {kind path ended}, (h.slot kind path).ended = some ended →
      (h'.slot kind path).ended = some ended := by
    intro kind path ended hended
    rw [hl kind path (by rw [hended]; rfl)]
    exact hended
  refine ⟨fun path result hv => ?_, fun path result hv => ?_, fun path result hv => ?_⟩
  · obtain ⟨terminal, evidence, hterminal, hended⟩ := hr.rejected path result hv
    exact ⟨terminal, evidence, hterminal, hkept hended⟩
  · obtain ⟨terminal, evidence, hterminal, hended⟩ := hr.active path result hv
    exact ⟨terminal, evidence, hterminal, hkept hended⟩
  · obtain ⟨terminal, evidence, hterminal, hended⟩ := hr.recovery path result hv
    exact ⟨terminal, evidence, hterminal, hkept hended⟩

/-- A view of a logged history remembers it. -/
theorem Logged.remembers {last : Option EngineCall} (hs : Logged A last s)
    (hok : buildView s.history A.request = .ok view) : Remembers view s.history := by
  obtain ⟨hfits, -, hrecalls⟩ := hs.view hok
  have hfit : ∀ {kind path ended}, (s.history.slot kind path).ended = some ended →
      ended.Fits A kind path := fun hended => (hfits.slot hs.appended hs.declares hended).1
  refine ⟨fun path result hv => ?_, fun path result hv => ?_, fun path result hv => ?_⟩
  · rw [hrecalls.rejected path] at hv
    obtain ⟨fact, hfact, hvalue⟩ := Option.bind_eq_some_iff.mp hv
    obtain ⟨⟨terminal, evidence, retained⟩, hended, rfl⟩ := Option.bind_eq_some_iff.mp hfact
    obtain ⟨p, found, hpath, -, hterminal, hretained⟩ := hfit hended
    cases hpath
    cases hretained
    cases hvalue
    exact ⟨terminal, evidence, hterminal, hended⟩
  · rw [hrecalls.active path] at hv
    obtain ⟨fact, hfact, hvalue⟩ := Option.bind_eq_some_iff.mp hv
    obtain ⟨⟨terminal, evidence, retained⟩, hended, rfl⟩ := Option.bind_eq_some_iff.mp hfact
    obtain ⟨p, found, hpath, -, hterminal, hretained⟩ := hfit hended
    cases hpath
    cases hretained
    cases hvalue
    exact ⟨terminal, evidence, hterminal, hended⟩
  · rw [hrecalls.recovery path] at hv
    obtain ⟨fact, hfact, hvalue⟩ := Option.bind_eq_some_iff.mp hv
    obtain ⟨⟨terminal, evidence, retained⟩, hended, rfl⟩ := Option.bind_eq_some_iff.mp hfact
    obtain ⟨p, found, hpath, -, hterminal, hretained⟩ := hfit hended
    cases hpath
    cases hretained
    cases hvalue
    exact ⟨terminal, evidence, hterminal, hended⟩

end Remembers

/-! ## Rules -/

section Rules

variable {A : AdmittedApplication} {m : Mechanisms} {s s' : EngineState} {α : Type}
  {Q : α → EngineState → Prop} {effect : JournalEffect} {state : JournalState}

/-- Progress replayed where a process stands is read off the slot. -/
theorem Standing.progress (h : Standing A s) (he : effect ∈ s.history.effects) :
    restartProgress s.history effect = (s.history.slot effect.kind effect.path).progress := by
  unfold restartProgress
  exact h.appended.restartProgress_eq h.keyed he

theorem Standing.slot_cases (h : Standing A s) (he : effect ∈ s.history.effects) :
    s.history.slot effect.kind effect.path = .untouched ∨
      s.history.slot effect.kind effect.path = .unresolved ∨
        ∃ ended, s.history.slot effect.kind effect.path = ⟨true, some ended⟩ :=
  h.appended.slot_cases h.keyed he

/-- Every journal of the attempt declares the same effects. -/
theorem Onward.mem_effects (h : Onward A s s') (hs : Standing A s)
    (he : effect ∈ s.history.effects) : effect ∈ s'.history.effects := by
  rwa [h.standing.declares.effects, ← hs.declares.effects]

/-- An effect without a terminal event is left unresolved, whether or not it
was intended before. -/
theorem Standing.intendOnce {f : Unit → Engine α} (h : Standing A s)
    (he : effect ∈ s.history.effects) (hhome : effect.kind.home = some state)
    (hstate : state ≠ .effectsVisible)
    (hopen : (s.history.slot effect.kind effect.path).ended = none)
    (hmay : (state = .mutating → A.Ready s.history) →
      A.MayIntend s.history effect.kind effect.path)
    (hf : ∀ s', s'.history.slot effect.kind effect.path = .unresolved → Onward A s s' →
      A.Advances m (f ()) s' Q) : A.Advances m (restartPublishIntent state effect >>= f) s Q := by
  rw [restartPublishIntent, bind_assoc]
  refine advances_history ?_
  rw [h.progress he]
  rcases h.slot_cases he with hslot | hslot | ⟨ended, hslot⟩
  · rw [if_neg (by simp [hslot, EffectProgress.untouched])]
    exact h.intend hhome hstate hmay hf
  · rw [if_pos (by simp [hslot])]
    exact hf s hslot ⟨h, .refl _⟩
  · rw [hslot] at hopen
    cases hopen

/-- The terminal event of an unresolved effect is journaled. -/
theorem Standing.finishOnce {terminal : EventKind} {evidence : Evidence} {fact : Option ReplayFact}
    {f : Unit → Engine α} (h : Standing A s) (he : effect ∈ s.history.effects)
    (hhome : effect.kind.home = some state) (hstate : state ≠ .effectsVisible)
    (hterminal : terminal ≠ .intent)
    (hopen : s.history.slot effect.kind effect.path = .unresolved)
    (hf : ∀ s', s'.history.slot effect.kind effect.path = ⟨true, some ⟨terminal, evidence, fact⟩⟩ →
      Onward A s s' → A.Advances m (f ()) s' Q) :
    A.Advances m (restartPublishTerminal state effect terminal evidence fact >>= f) s Q := by
  rw [restartPublishTerminal, bind_assoc]
  refine advances_history ?_
  rw [h.progress he, if_neg (by simp [hopen])]
  exact h.finish hhome hstate hterminal hf

/-- A state is entered unless the journal is in one that stands for it. -/
theorem Standing.enterUnless {present : JournalState} {f : Unit → Engine α} (h : Standing A s)
    (hstate : state ≠ .abandoned) (hcalm : state = .effectsVisible → s.history.Calm)
    (hf : ∀ s', (∀ kind path, s'.history.slot kind path = s.history.slot kind path) →
      Onward A s s' → A.Advances m (f ()) s' Q) :
    A.Advances m ((Engine.history >>= fun v =>
      if v.state = present then (pure () : Engine Unit) else publishState state) >>= f) s Q := by
  rw [bind_assoc]
  refine advances_history ?_
  split
  · exact hf s (fun _ _ => rfl) ⟨h, .refl _⟩
  · exact h.enter hstate hcalm fun s' _ hslots hs' => hf s' hslots hs'

/-- A synchronization without a terminal event ends. -/
theorem advances_restartSynchronize {domain : DurabilityDomain} {mismatch : String}
    (h : Standing A s) (he : effect ∈ s.history.effects) (hhome : effect.kind.home = some state)
    (hstate : state ≠ .effectsVisible)
    (hopen : (s.history.slot effect.kind effect.path).ended = none)
    (hmay : A.MayIntend s.history effect.kind effect.path) :
    A.Advances m (restartSynchronize state effect domain mismatch) s fun _ s' =>
      ∃ terminal, s'.history.EndedWith effect.kind effect.path terminal := by
  refine h.intendOnce he hhome hstate hopen (fun _ => hmay) fun s₁ hslot₁ h₁ => ?_
  refine h₁.standing.mechanism fun s₂ hs₂ h₂ => ?_
  have he₂ : effect ∈ s₂.history.effects := by
    rw [hs₂]
    exact h₁.mem_effects h he
  refine h₂.ofExcept fun _ _ => h₂.ofExcept fun terminal hterminal => ?_
  refine h₂.finishOnce he₂ hhome hstate (synchronizationEvent_ne_intent hterminal)
    (hs₂ ▸ hslot₁) fun s₃ hslot₃ h₃ => ?_
  refine advances_pure h₃.standing ⟨terminal, ?_⟩
  rw [JournalHistory.EndedWith, hslot₃]
  rfl

end Rules

/-! ## Rejected publication -/

section Rejected

variable {A : AdmittedApplication} {m : Mechanisms} {s : EngineState}
  {prepared : PreparedApplication} {view : RestartView} {state : LeaseBoundStateProjection}
  {effects : List RejectedEffectResult}

/-- A publication that is or was completed is done. -/
theorem advances_resumeRejectedEffect {plan : OperationPlan} {step : EffectStep}
    (h : Standing A s) (hview : Remembers view s.history) :
    A.Advances m (resumeRejectedEffect prepared view plan step) s fun effect s' =>
      effect.result.outcome = .completed →
        s'.history.Done .publishRejectedObject (some step.path) := by
  refine h.ofExcept fun command _ => h.ofExcept fun _ _ => ?_
  refine advances_history (h.ofExcept fun effect heffect => ?_)
  obtain ⟨hmem, hkind, hpath⟩ := findEffect_spec heffect
  have hhome : effect.kind.home = some .mutating := home_of_findEffect heffect rfl
  have hprogress := h.progress hmem
  split
  · split
    · exact advances_throw h
    · rename_i result hresult
      refine advances_pure h fun hcompleted => ?_
      obtain ⟨terminal, evidence, hterminal, hended⟩ := hview.rejected _ _ hresult
      rw [JournalHistory.Done, JournalHistory.EndedWith, hended]
      exact congrArg some ((terminalEvent_completed_iff hterminal).mpr hcompleted)
  · exact advances_pure h (by rintro ⟨⟩)
  · rename_i hfresh
    have hopen : s.history.slot effect.kind effect.path = .untouched :=
      Slot.progress_eq_untouched_iff.mp (hprogress.symm.trans hfresh)
    refine h.intendOnce hmem hhome JournalState.noConfusion (by rw [hopen]; rfl)
      (fun hready => ?_) fun s₁ hslot₁ h₁ => ?_
    · rw [hkind]
      exact hready rfl
    refine h₁.standing.mechanism fun s₂ hs₂ h₂ => h₂.ofExcept fun terminal hterminal => ?_
    have hmem₂ : effect ∈ s₂.history.effects := by
      rw [hs₂]
      exact h₁.mem_effects h hmem
    refine h₂.finishOnce hmem₂ hhome JournalState.noConfusion (terminalEvent_ne_intent hterminal)
      (hs₂ ▸ hslot₁) fun s₃ hslot₃ h₃ => ?_
    refine advances_pure h₃.standing fun hcompleted => ?_
    rw [← hkind, ← hpath, JournalHistory.Done, JournalHistory.EndedWith, hslot₃]
    exact congrArg some ((terminalEvent_completed_iff hterminal).mpr hcompleted)

theorem advances_resumeRejected {request : ApplicationRequest} (steps : List EffectStep)
    (h : Standing A s) (hview : Remembers view s.history) :
    A.Advances m (resumeRejected prepared view request state steps effects) s fun result s' =>
      ∀ effects', result = .inr effects' →
        PublishedSteps s'.history steps effects.length effects'.length := by
  induction steps generalizing effects s with
  | nil =>
    refine advances_pure h fun effects' hresult => ?_
    cases hresult
    exact ⟨fun _ hx => absurd hx List.not_mem_nil, rfl⟩
  | cons step rest ih =>
    refine h.bind (advances_resumeRejectedEffect h hview) fun effect s₁ hdone h₁ => ?_
    dsimp only
    split
    · rename_i hcompleted
      refine Advances.mono (h₁.standing.onward (ih h₁.standing (hview.later h₁.later)))
        fun result s₂ hrest => ?_
      intro effects' hresult
      have hpublished := hrest.1 effects' hresult
      rw [List.length_append, List.length_singleton] at hpublished
      exact hpublished.cons (hdone hcompleted) hrest.2.later
    · exact h₁.standing.bind (advances_failRejectedEffect h₁.standing) fun _ s₂ _ h₂ =>
        advances_pure h₂.standing fun _ hx => nomatch hx

theorem advances_resumeRejectedStore {control : ExecutionControl} (h : Standing A s) :
    A.Advances m (resumeRejectedStore view control effects) s fun _ s' =>
      effects ≠ [] → requiresDomainSynchronization control = true →
        ∃ terminal, s'.history.EndedWith .synchronizeRejectedStore none terminal := by
  unfold resumeRejectedStore
  split
  · refine advances_history (h.ofExcept fun effect heffect => ?_)
    obtain ⟨hmem, hkind, hpath⟩ := findEffect_spec heffect
    rw [h.progress hmem]
    rw [← hkind, ← hpath]
    split
    · rename_i hended
      refine advances_pure h fun _ _ => ?_
      exact Option.isSome_iff_exists.mp hended
    · rename_i hopen
      refine Advances.mono (advances_restartSynchronize h hmem (home_of_findEffect heffect rfl)
        JournalState.noConfusion ?_ ?_) fun _ _ hended _ _ => hended
      · simpa [Slot.progress] using hopen
      · rw [hkind]
        exact trivial
  · rename_i hskipped
    refine advances_pure h fun hne hcontrol => ?_
    rw [hcontrol, Bool.and_true, Bool.not_eq_true', List.isEmpty_eq_false_iff] at hskipped
    exact absurd hne hskipped

/-- The rejected phase of a restart settles rejected publication, or ends in a
receipt. -/
theorem advances_resumeRejectedPublication (happ : prepared.journaled.Holds A)
    (h : Standing A s) (hview : Remembers view s.history) :
    A.Advances m (resumeRejectedPublication prepared view A.request state) s fun result s' =>
      ∀ published, result = .inr published →
        A.RejectedSettled s'.history ∧ published.prepared = prepared := by
  have hrest : ∀ s, Standing A s → Remembers view s.history →
      A.Advances m (resumeRejectedMutating prepared view A.request state) s fun result s' =>
        ∀ published, result = .inr published →
        A.RejectedSettled s'.history ∧ published.prepared = prepared := by
    intro s h hview
    refine h.bind (advances_resumeRejected _ h hview) fun result s₁ hresult h₁ => ?_
    cases result with
    | inl receipt => exact advances_pure h₁.standing (by rintro _ ⟨⟩)
    | inr effects =>
      refine h₁.standing.bind (advances_resumeRejectedStore h₁.standing)
        fun status s₂ hsynchronized h₂ => ?_
      have hpublished := hresult effects rfl
      rw [happ.stepsOf] at hpublished
      have hsettled : A.RejectedSettled s₂.history := by
        refine PublishedSteps.settled ⟨fun step hstep => h₂.later.done (hpublished.1 step hstep),
          hpublished.2⟩ fun hne => hsynchronized ?_
        rintro rfl
        exact hne rfl
      dsimp only
      split
      · refine advances_history (h₂.standing.ofExcept fun published hok => ?_)
        refine advances_pure h₂.standing fun published' hx => ⟨hsettled, ?_⟩
        cases hx
        rw [rejectedPublished_make_eq_ok hok]
      · exact h₂.standing.bind (advances_failRejectedSynchronization h₂.standing)
          fun _ s₃ _ h₃ => advances_pure h₃.standing (by rintro _ ⟨⟩)
  refine advances_history ?_
  dsimp only
  split
  · exact h.enter JournalState.noConfusion JournalState.noConfusion fun s₁ _ _ h₁ =>
      hrest s₁ h₁.standing (hview.later h₁.later)
  · exact hrest s h hview

end Rejected

/-! ## Active mutation -/

section Active

variable {A : AdmittedApplication} {m : Mechanisms} {s : EngineState}
  {prepared : PreparedApplication} {rejected : RejectedPublishedApplication} {view : RestartView}
  {request : ApplicationRequest} {effects : List ActiveEffectResult} {evidence : Evidence}
  {plan : OperationPlan} {step : EffectStep}

/-- What a view recalls of an active effect tells what the journal holds of it. -/
theorem Remembers.tells (hview : Remembers view s.history) (h : Standing A s)
    {effect : JournalEffect} (he : effect ∈ s.history.effects)
    (hkind : effect.kind = .publishActiveObject) (hpath : effect.path = some step.path)
    {command : BackendActiveEffectRequest} {result : BackendOperationResult}
    (hok : activeEffectRequest plan step = .ok command)
    (hresult : view.findActiveEffect step.path = some result) :
    (ActiveEffectResult.mk command result).Tells s.history := by
  obtain ⟨terminal, evidence, hterminal, hended⟩ := hview.active _ _ hresult
  have hcases := h.slot_cases he
  rw [hkind, hpath] at hcases
  rcases hcases with hslot | hslot | ⟨ended, hslot⟩
  · rw [hslot] at hended
    cases hended
  · rw [hslot] at hended
    cases hended
  · rw [hslot] at hended
    cases hended
    exact tells_of_ended hok hterminal hslot

theorem advances_resumeActiveEffect (h : Standing A s) (hview : Remembers view s.history)
    (hsettled : A.RejectedSettled s.history)
    (hturn : Turn (fun q => s.history.Done .publishActiveObject (some q)) A.activePaths step.path) :
    A.Advances m (resumeActiveEffect prepared view plan step) s fun e s' =>
      e.request.path = step.path ∧ e.Tells s'.history := by
  refine h.ofExcept fun command hcommand => h.ofExcept fun _ _ => ?_
  refine advances_history (h.ofExcept fun effect heffect => ?_)
  obtain ⟨hmem, hkind, hpath⟩ := findEffect_spec heffect
  have hhome : effect.kind.home = some .mutating := home_of_findEffect heffect rfl
  have hprogress := h.progress hmem
  have hsame := activeEffectRequest_path hcommand
  split
  · split
    · exact advances_throw h
    · rename_i result hresult
      refine h.value fun e he => ?_
      rw [activeEffectResult_make_eq_ok he]
      exact ⟨hsame, hview.tells h hmem hkind hpath hcommand hresult⟩
  · rename_i hunresolved
    refine h.value fun e he => ?_
    rw [activeEffectResult_make_eq_ok he]
    have hslot := Slot.progress_eq_unresolved_iff.mp (hprogress.symm.trans hunresolved)
    rw [hkind, hpath] at hslot
    exact ⟨hsame, tells_of_unresolved hcommand hslot⟩
  · rename_i hfresh
    have hopen : s.history.slot effect.kind effect.path = .untouched :=
      Slot.progress_eq_untouched_iff.mp (hprogress.symm.trans hfresh)
    refine h.intendOnce hmem hhome JournalState.noConfusion (by rw [hopen]; rfl)
      (fun hready => ?_) fun s₁ hslot₁ h₁ => ?_
    · rw [hkind]
      exact ⟨hready rfl, hsettled, step.path, hpath, hturn⟩
    refine h₁.standing.mechanism fun s₂ hs₂ h₂ => h₂.ofExcept fun terminal hterminal => ?_
    have hmem₂ : effect ∈ s₂.history.effects := by
      rw [hs₂]
      exact h₁.mem_effects h hmem
    refine h₂.finishOnce hmem₂ hhome JournalState.noConfusion
      (activeTerminalEvent_ne_intent hterminal) (hs₂ ▸ hslot₁) fun s₃ hslot₃ h₃ => ?_
    rw [hkind, hpath] at hslot₃
    refine h₃.standing.value fun e he => ?_
    rw [activeEffectResult_make_eq_ok he]
    exact ⟨hsame, tells_of_ended hcommand hterminal hslot₃⟩

/-- Effects are resumed in turn, up to the first that is not completed. -/
theorem advances_resumeActiveEffects (steps : List EffectStep) (h : Standing A s)
    (hview : Remembers view s.history) (hsettled : A.RejectedSettled s.history)
    (hcompleted : Completed A s.history effects (steps.map EffectStep.path)) :
    A.Advances m (resumeActiveEffects rejected view plan steps effects) s fun result s' =>
      match result with
      | .inl interrupted => A.Reports s'.history interrupted.effects
      | .inr effects' => Completed A s'.history effects' [] := by
  induction steps generalizing effects s with
  | nil => exact advances_pure h hcompleted
  | cons step rest ih =>
    rw [List.map_cons] at hcompleted
    refine h.bind (advances_resumeActiveEffect h hview hsettled hcompleted.turn)
      fun e s₁ he h₁ => ?_
    obtain ⟨hpath, htells⟩ := he
    dsimp only
    split
    · rename_i hcomplete
      exact ih h₁.standing (hview.later h₁.later) (hsettled.later h₁.later)
        (hcompleted.extend h₁.later hpath htells hcomplete)
    · rename_i hincomplete
      have hreports := (hcompleted.next h₁.later hpath htells).reports_of_stopped
        h₁.standing.built.ordered hincomplete
      exact h₁.standing.bind (advances_interruptActiveEffect h₁.standing hreports)
        fun _ s₂ hreports h₂ => advances_pure h₂.standing hreports

theorem advances_resumeActiveNamespace (h : Standing A s) (hmutated : A.Mutated s.history) :
    A.Advances m (resumeActiveNamespace view) s fun _ _ => True := by
  refine advances_history (h.ofExcept fun effect heffect => ?_)
  obtain ⟨hmem, hkind, -⟩ := findEffect_spec heffect
  rw [h.progress hmem]
  split
  · exact advances_pure h trivial
  · rename_i hopen
    refine Advances.mono (advances_restartSynchronize h hmem (home_of_findEffect heffect rfl)
      JournalState.noConfusion ?_ ?_) fun _ _ _ => trivial
    · simpa [Slot.progress] using hopen
    · rw [hkind]
      exact hmutated

theorem advances_resumeComplete {status : DurabilityStatus} (h : Standing A s)
    (hcalm : s.history.Calm) (hcompleted : Completed A s.history effects []) :
    A.Advances m (resumeComplete rejected effects status evidence) s fun active s' =>
      Executed A s' (.inr active) := by
  refine h.enterUnless JournalState.noConfusion (fun _ => hcalm) fun s₁ hslots h₁ => ?_
  refine advances_history (h₁.standing.value fun active hok => ?_)
  rw [activeMutated_make_eq_ok hok]
  refine ⟨fun path hpath => h₁.later.done (hcompleted.mutated path hpath), ?_⟩
  exact reports_congr hcompleted.reports (AdmittedApplication.undone_congr fun path => hslots _ path)

theorem advances_resumeActiveExecution (happ : rejected.prepared.journaled.Holds A)
    (h : Standing A s) (hview : Remembers view s.history) (hcalm : s.history.Calm)
    (hsettled : A.RejectedSettled s.history) :
    A.Advances m (resumeActiveExecution rejected view request) s fun execution s' =>
      Executed A s' execution := by
  unfold resumeActiveExecution
  rw [happ.stepsOf]
  refine h.bind (Advances.kept .mutation
    (advances_resumeActiveEffects _ h hview hsettled (.start A s.history)) h.built
      (within_resumeActiveEffects rfl _ _)) fun result s₁ hs₁ h₁ => ?_
  obtain ⟨hresult, hkept₁⟩ := hs₁
  have hcalm₁ := hkept₁.mutation_calm hcalm
  cases result with
  | inl interrupted => exact advances_pure h₁.standing hresult
  | inr effects =>
    dsimp only at hresult ⊢
    split
    · refine h₁.standing.bind (Advances.kept .mutation (advances_resumeActiveNamespace
        h₁.standing hresult.mutated) h₁.standing.built (within_resumeActiveNamespace rfl))
          fun status s₂ hs₂ h₂ => ?_
      have hcompleted := hresult.later h₂.later
      split
      · exact h₂.standing.bind (advances_resumeComplete h₂.standing
          (hs₂.2.mutation_calm hcalm₁) hcompleted) fun _ s₃ hs₃ h₃ => advances_pure h₃.standing hs₃
      · exact h₂.standing.bind (advances_interruptActiveExecution h₂.standing hcompleted.reports)
          fun _ s₃ hs₃ h₃ => advances_pure h₃.standing hs₃
    · exact h₁.standing.bind (advances_resumeComplete h₁.standing hcalm₁ hresult)
        fun _ s₂ hs₂ h₂ => advances_pure h₂.standing hs₂

end Active

/-! ## Interruption -/

section Interruption

variable {A : AdmittedApplication} {m : Mechanisms} {s : EngineState}
  {rejected : RejectedPublishedApplication} {view : RestartView} {request : ApplicationRequest}
  {effects effects' : List ActiveEffectResult} {plan : OperationPlan}

/-- Results up to an untouched effect report the journal. -/
theorem Completed.reports_of_untouched {h : JournalHistory} {path : PackagePath}
    {rest : List PackagePath} (hc : Completed A h effects (path :: rest)) (ho : A.Ordered h)
    (huntouched : h.slot .publishActiveObject (some path) = .untouched) : A.Reports h effects := by
  have hactive := ho.active
  rw [hc.paths] at hactive
  have hopen : ¬h.Done .publishActiveObject (some path) := by
    intro hdone
    rw [JournalHistory.Done, JournalHistory.EndedWith, huntouched] at hdone
    cases hdone
  refine hc.toAccounts.reports fun p hp => ?_
  rcases List.mem_cons.mp hp with rfl | hp
  · rw [huntouched]
    rfl
  · unfold Slot.disturbed
    rw [Bool.eq_false_iff.mpr (hactive.not_begun hopen hp), Bool.false_and]

/-- The active effects reconstructed from a journal report it. -/
theorem restartActiveEffects_reports (steps : List EffectStep) (h : Standing A s)
    (hview : Remembers view s.history)
    (hcompleted : Completed A s.history effects (steps.map EffectStep.path))
    {found : Option ActiveInterruption}
    (hok : restartActiveEffects s.history view plan steps effects = .ok (effects', found)) :
    A.Reports s.history effects' := by
  induction steps generalizing effects with
  | nil =>
    cases hok
    exact hcompleted.reports
  | cons step rest ih =>
    rw [List.map_cons] at hcompleted
    rw [restartActiveEffects] at hok
    obtain ⟨effect, heffect, hok⟩ := bind_eq_ok_iff.mp hok
    obtain ⟨hmem, hkind, hpath⟩ := findEffect_spec heffect
    have hprogress := h.progress hmem
    rw [hkind, hpath] at hprogress
    split at hok
    · rename_i terminal hfresh
      cases hok
      have hslots := h.slot_cases hmem
      rw [hkind, hpath] at hslots
      rw [hfresh] at hprogress
      rcases hslots with hslot | hslot | ⟨ended, hslot⟩
      · exact hcompleted.reports_of_untouched h.built.ordered hslot
      · rw [hslot] at hprogress
        cases hprogress
      · rw [hslot] at hprogress
        cases hprogress
    · rename_i hunresolved
      obtain ⟨command, hcommand, hok⟩ := bind_eq_ok_iff.mp hok
      obtain ⟨e, he, hok⟩ := bind_eq_ok_iff.mp hok
      cases hok
      rw [activeEffectResult_make_eq_ok he]
      have hslot := Slot.progress_eq_unresolved_iff.mp (hprogress.symm.trans hunresolved)
      refine Accounts.reports_of_stopped (hcompleted.next (.refl _)
        (activeEffectRequest_path hcommand) (tells_of_unresolved hcommand hslot))
          h.built.ordered ?_
      simp [ActiveEffectResult.semanticallyComplete]
    · obtain ⟨command, hcommand, hok⟩ := bind_eq_ok_iff.mp hok
      split at hok
      · cases hok
      · rename_i result hresult
        obtain ⟨e, he, hok⟩ := bind_eq_ok_iff.mp hok
        have hsame := activeEffectResult_make_eq_ok he
        have htells : e.Tells s.history := by
          rw [hsame]
          exact hview.tells h hmem hkind hpath hcommand hresult
        have hat : e.request.path = step.path := by
          rw [hsame]
          exact activeEffectRequest_path hcommand
        have houtcome : e.result.outcome = result.outcome := by rw [hsame]
        have hstopped : ¬e.semanticallyComplete = true → A.Reports s.history (effects ++ [e]) :=
          (hcompleted.next (.refl _) hat htells).reports_of_stopped h.built.ordered
        split at hok
        · rename_i hfailed
          cases hok
          exact hstopped (by simp [ActiveEffectResult.semanticallyComplete, houtcome, hfailed])
        · rename_i hindeterminate
          cases hok
          exact hstopped (by simp [ActiveEffectResult.semanticallyComplete, houtcome,
            hindeterminate])
        · rename_i hfinished
          refine ih (hcompleted.extend (.refl _) hat htells ?_) hok
          simp [ActiveEffectResult.semanticallyComplete, houtcome, hfinished]
        · rename_i hfinished
          refine ih (hcompleted.extend (.refl _) hat htells ?_) hok
          simp [ActiveEffectResult.semanticallyComplete, houtcome, hfinished]

theorem ActiveInterruption.journalState_ne_visible (interruption : ActiveInterruption) :
    interruption.journalState ≠ .effectsVisible := by
  unfold journalState
  split <;> exact JournalState.noConfusion

/-- The interruption a journal records reports it. -/
theorem advances_restartInterruption (happ : rejected.prepared.journaled.Holds A)
    (h : Standing A s) (hview : Remembers view s.history) :
    A.Advances m (restartInterruption rejected view request) s fun interrupted s' =>
      A.Reports s'.history interrupted.effects := by
  refine advances_history (h.ofExcept fun reconstructed hok => ?_)
  obtain ⟨effects, found⟩ := reconstructed
  rw [happ.stepsOf] at hok
  have hreports := restartActiveEffects_reports _ h hview (.start A s.history) hok
  dsimp only
  split
  · exact advances_throw h
  · rename_i interruption _
    refine h.enterUnless interruption.journalState_ne_abandoned
      (fun hx => absurd hx interruption.journalState_ne_visible) fun s₁ hslots h₁ => ?_
    refine advances_history (h₁.standing.value fun interrupted hok => ?_)
    rw [activeInterrupted_make_eq_ok hok]
    exact reports_congr hreports (AdmittedApplication.undone_congr fun path => hslots _ path)

end Interruption

/-! ## Recovery -/

section Recovery

variable {A : AdmittedApplication} {m : Mechanisms} {s : EngineState}
  {prepared : PreparedApplication} {interrupted : ActiveInterruptedApplication}
  {view : RestartView} {request : ApplicationRequest} {state : LeaseBoundStateProjection}
  {recoveries : List RecoveryEffectResult} {path : PackagePath}

/-- A recovery that is or was completed is done. -/
theorem advances_resumeRecoverPath (h : Standing A s) (hview : Remembers view s.history)
    (hturn : Turn (fun q => s.history.Done .recoverActiveObject (some q)) (A.undone s.history)
      path) :
    A.Advances m (resumeRecoverPath prepared view path) s fun recovery s' =>
      recovery.result.outcome = .completed →
        s'.history.Done .recoverActiveObject (some path) := by
  refine h.ofExcept fun exact_ _ => advances_history (h.ofExcept fun effect heffect => ?_)
  obtain ⟨hmem, hkind, hpath⟩ := findEffect_spec heffect
  have hhome : effect.kind.home = some .recovering := home_of_findEffect heffect rfl
  have hprogress := h.progress hmem
  split
  · split
    · exact advances_throw h
    · rename_i result hresult
      refine advances_pure h fun hcompleted => ?_
      obtain ⟨terminal, evidence, hterminal, hended⟩ := hview.recovery _ _ hresult
      rw [JournalHistory.Done, JournalHistory.EndedWith, hended]
      exact congrArg some ((terminalEvent_completed_iff hterminal).mpr hcompleted)
  · exact advances_pure h (by rintro ⟨⟩)
  · rename_i hfresh
    have hopen : s.history.slot effect.kind effect.path = .untouched :=
      Slot.progress_eq_untouched_iff.mp (hprogress.symm.trans hfresh)
    refine h.intendOnce hmem hhome JournalState.noConfusion (by rw [hopen]; rfl)
      (fun _ => ?_) fun s₁ hslot₁ h₁ => ?_
    · rw [hkind]
      exact ⟨path, hpath, hturn⟩
    refine h₁.standing.mechanism fun s₂ hs₂ h₂ => h₂.ofExcept fun terminal hterminal => ?_
    have hmem₂ : effect ∈ s₂.history.effects := by
      rw [hs₂]
      exact h₁.mem_effects h hmem
    refine h₂.finishOnce hmem₂ hhome JournalState.noConfusion (terminalEvent_ne_intent hterminal)
      (hs₂ ▸ hslot₁) fun s₃ hslot₃ h₃ => ?_
    refine advances_pure h₃.standing fun hcompleted => ?_
    rw [← hkind, ← hpath, JournalHistory.Done, JournalHistory.EndedWith, hslot₃]
    exact congrArg some ((terminalEvent_completed_iff hterminal).mpr hcompleted)

/-- Candidates are resumed in turn, up to the first that is not recovered. -/
theorem advances_resumeRecoverCandidates (candidates : List ActiveEffectResult)
    (h : Standing A s) (hview : Remembers view s.history)
    (hr : Recovering A s.history candidates) :
    A.Advances m (resumeRecoverCandidates prepared view candidates recoveries) s
      fun _ _ => True := by
  induction candidates generalizing recoveries s with
  | nil => exact advances_pure h trivial
  | cons candidate rest ih =>
    refine h.bind (Advances.kept .recovery (advances_resumeRecoverPath h hview hr.turn)
      h.built (within_resumeRecoverPath rfl _)) fun recovery s₁ hs₁ h₁ => ?_
    dsimp only
    split
    · rename_i hcompleted
      exact ih h₁.standing (hview.later h₁.later)
        (hr.next hs₁.2.recovery_undone h₁.later (hs₁.1 hcompleted))
    · exact advances_pure h₁.standing trivial

theorem advances_resumeRecoveredNamespace (h : Standing A s) :
    A.Advances m (resumeRecoveredNamespace view) s fun _ _ => True := by
  refine advances_history (h.ofExcept fun effect heffect => ?_)
  obtain ⟨hmem, hkind, -⟩ := findEffect_spec heffect
  have hprogress := h.progress hmem
  split
  · exact advances_pure h trivial
  · exact advances_pure h trivial
  · rename_i hfresh
    have hopen : s.history.slot effect.kind effect.path = .untouched :=
      Slot.progress_eq_untouched_iff.mp (hprogress.symm.trans hfresh)
    refine Advances.mono (advances_restartSynchronize h hmem (home_of_findEffect heffect rfl)
      JournalState.noConfusion (by rw [hopen]; rfl) ?_) fun _ _ _ => trivial
    rw [hkind]
    exact trivial

theorem advances_resumeRecoveredStatus {control : ExecutionControl} {recovered : Bool}
    (h : Standing A s) :
    A.Advances m (resumeRecoveredStatus view control recovered) s fun _ _ => True := by
  unfold resumeRecoveredStatus
  split
  · exact h.bind (advances_resumeRecoveredNamespace h) fun _ s₁ _ h₁ =>
      advances_pure h₁.standing trivial
  · exact advances_pure h trivial

/-- A restart undoes, in turn, what the journal holds. -/
theorem advances_resumeRecovery (h : Standing A s) (hview : Remembers view s.history)
    (hr : A.Reports s.history interrupted.effects) :
    A.Advances m (resumeRecovery interrupted view request state) s fun _ _ => True := by
  refine advances_history (h.ofExcept fun _ _ => ?_)
  split
  · exact advances_recoverInterrupted h hr
  · refine h.enterUnless JournalState.noConfusion JournalState.noConfusion fun s₁ hslots h₁ => ?_
    have hr₁ : A.Reports s₁.history interrupted.effects :=
      reports_congr hr (AdmittedApplication.undone_congr fun path => hslots _ path)
    refine h₁.standing.bind (advances_resumeRecoverCandidates _ h₁.standing
      (hview.later h₁.later) hr₁.recovering) fun _ s₂ _ h₂ => ?_
    refine h₂.standing.bind (advances_resumeRecoveredStatus h₂.standing) fun _ s₃ _ h₃ => ?_
    exact advances_sealRecoveryReceipt h₃.standing

end Recovery

/-! ## Preparation and completion -/

section Phases

variable {A : AdmittedApplication} {m : Mechanisms} {s : EngineState}
  {app : JournaledApplication} {active : ActiveMutatedApplication} {view : RestartView}
  {request : ApplicationRequest} {state : LeaseBoundStateProjection} {evidence : Evidence}

theorem yields_resumeCompletion :
    (resumeCompletion active view request state).Yields (KeepsEffects active) := by
  refine Process.Yields.after fun h => Process.Yields.after fun _ => Process.Yields.after fun _ => ?_
  refine Process.Yields.after fun observations => Process.Yields.after fun observed => ?_
  split
  · exact Process.Yields.after fun receipt => Process.yields_pure fun _ hx => nomatch hx
  · refine Process.Yields.bind yields_interruptObservation fun interrupted hkeeps => ?_
    refine Process.yields_pure fun interrupted' hx => ?_
    cases hx
    exact hkeeps

theorem yields_resumePreparing :
    (resumePreparing app view request state evidence).Yields (PreparesOnly app) := by
  refine Process.Yields.after fun captures => ?_
  split
  · exact yields_receipt
  refine Process.Yields.after fun staged => ?_
  obtain ⟨staged, sealed⟩ := staged
  dsimp only
  split
  · exact yields_receipt
  refine Process.Yields.after fun incoming => ?_
  split
  · exact yields_receipt
  refine Process.Yields.after fun recovery => ?_
  split
  · exact yields_receipt
  · exact yields_prepared yields_finishPreparation

theorem yields_resumePrepared :
    (resumePrepared app view).Yields fun prepared => prepared.journaled = app := by
  refine Process.Yields.after fun h => Process.Yields.after fun _ => Process.Yields.after fun _ => ?_
  refine Process.yields_ofExcept fun prepared hok => ?_
  rw [prepared_make_eq_ok hok]

theorem yields_resumePreparation :
    (resumePreparation app view request state).Yields (PreparesOnly app) := by
  refine Process.Yields.after fun h => ?_
  split
  · exact yields_prepared yields_resumePrepared
  refine Process.Yields.after fun current => ?_
  dsimp only
  split
  · exact yields_receipt
  · exact yields_resumePreparing

/-- A journal past preparation is left where it stands. -/
theorem advances_resumePrepared (h : Standing A s) (hstate : s.history.state ≠ .preparing) :
    A.Advances m (resumePreparation app view request state) s fun _ s' =>
      s'.history = s.history := by
  refine advances_history ?_
  rw [if_pos hstate]
  refine h.bind (Q := fun _ s' => s'.history = s.history) ?_
    fun _ s₁ hs₁ h₁ => advances_pure h₁.standing hs₁
  refine advances_history (h.ofExcept fun _ _ => h.ofExcept fun _ _ => ?_)
  exact h.value fun _ _ => rfl

/-- Preparation is resumed, or behind the journal; either way the process
stands, recovering nothing that was not being recovered. -/
theorem advances_resumePreparation (happ : app.Holds A) (hb : A.Built s.history)
    (hgated : Gated A s) :
    A.Advances m (resumePreparation app view request state) s fun result s' =>
      (Standing A s' ∧ (s.history.Calm → s'.history.Calm)) ∧ PreparesOnly app result ∧
        s.history.Later s'.history := by
  rcases hgated with h | h
  · have hcalm := hb.ordered.forward (.inl h.state_eq)
    refine Advances.mono (Advances.later (advances_preparation (within_resumePreparation rfl
      fun _ _ => trivial) (gates_resumePreparation happ h) yields_resumePreparation hb hcalm) hb)
        fun result s' hx => ?_
    obtain ⟨⟨hunmutated, hprepares⟩, hlater⟩ := hx
    exact ⟨⟨hunmutated.toStanding, fun _ => hunmutated.calm⟩, hprepares, hlater⟩
  · have hstands : Standing A s := ⟨hb, h⟩
    have hstate : s.history.state ≠ .preparing := by
      rcases h.ready with habandoned | ⟨hstate, -⟩
      · rw [habandoned]
        exact JournalState.noConfusion
      · exact hstate
    refine Advances.mono (Advances.yields (hstands.onward (advances_resumePrepared hstands hstate))
      yields_resumePreparation) fun result s' hx => ?_
    obtain ⟨⟨hsame, honward⟩, hprepares⟩ := hx
    exact ⟨⟨honward.standing, fun hcalm => hsame ▸ hcalm⟩, hprepares, honward.later⟩

end Phases

/-! ## Whole processes -/

section Restart

variable {A : AdmittedApplication} {m : Mechanisms} {s : EngineState}
  {app : JournaledApplication} {rejected : RejectedPublishedApplication} {view : RestartView}
  {request : ApplicationRequest} {state : LeaseBoundStateProjection}

theorem advances_finishForward (happ : rejected.prepared.journaled.Holds A) (h : Standing A s)
    (hview : Remembers view s.history) (hcalm : s.history.Calm)
    (hsettled : A.RejectedSettled s.history) :
    A.Advances m (finishForward rejected view request state) s fun _ _ => True := by
  refine h.bind (Advances.kept .mutation (advances_resumeActiveExecution happ h hview
    hcalm hsettled) h.built (within_resumeActiveExecution rfl)) fun execution s₁ hs₁ h₁ => ?_
  obtain ⟨hexecuted, hkept⟩ := hs₁
  cases execution with
  | inl interrupted =>
    exact advances_resumeRecovery h₁.standing (hview.later h₁.later) hexecuted
  | inr active =>
    refine h₁.standing.bind (advances_completion (within_resumeCompletion (.inl rfl) (.inr rfl)
      fun _ _ => trivial) yields_resumeCompletion h₁.standing (hkept.mutation_calm hcalm) hexecuted)
        fun result s₂ hreports h₂ => ?_
    cases result with
    | inl receipt => exact advances_pure h₂.standing trivial
    | inr interrupted =>
      exact advances_resumeRecovery h₂.standing ((hview.later h₁.later).later h₂.later)
        (hreports interrupted rfl)

/-- A journal that is not to be recovered is calm. -/
theorem calm_of_disposition (hb : A.Built s.history)
    (hreceipt : s.history.receipt = none) {disposition : RestartDisposition}
    (hok : replayDisposition s.history = .ok disposition)
    (hforward : disposition ≠ .resumeRecovery) : s.history.Calm := by
  have hstate : ¬(s.history.state = .recoveryPending ∨ s.history.state = .recovering ∨
      s.history.state = .indeterminate) := by
    intro hstate
    rw [replayDisposition, if_pos hstate] at hok
    cases hok
    exact hforward rfl
  rcases hb.ordered.underway with hcalm | hsome | hrest
  · exact hcalm
  · rw [hreceipt] at hsome
    cases hsome
  · exact absurd hrest hstate

theorem advances_finishReplay (happ : app.Holds A) (hb : A.Built s.history) (hgated : Gated A s)
    (hview : Remembers view s.history) (hreceipt : s.history.receipt = none) :
    A.Advances m (finishReplay app view A.request state) s fun _ _ => True := by
  refine advances_history ?_
  cases hdisposition : replayDisposition s.history with
  | error e => exact Process.ensures_throw.mpr hb
  | ok disposition =>
    refine ensures_ok rfl (Process.Ensures.bind (advances_resumePreparation happ hb hgated)
      fun result s₁ hs₁ => ?_)
    obtain ⟨-, ⟨h₁, hcalm⟩, hprepares, hlater⟩ := hs₁
    cases result with
    | inl receipt => exact advances_pure h₁ trivial
    | inr prepared =>
      have hprepared : prepared.journaled.Holds A := hprepares prepared rfl ▸ happ
      have hview₁ := hview.later hlater
      refine h₁.bind (Advances.kept .mutation
        (advances_resumeRejectedPublication hprepared h₁ hview₁) h₁.built
          (within_resumeRejectedPublication rfl fun _ _ => trivial)) fun result s₂ hs₂ h₂ => ?_
      obtain ⟨hpublished, hkept⟩ := hs₂
      cases result with
      | inl receipt => exact advances_pure h₂.standing trivial
      | inr published =>
        obtain ⟨hsettled, hsame⟩ := hpublished published rfl
        have happ₂ : published.prepared.journaled.Holds A := hsame ▸ hprepared
        have hview₂ := hview₁.later h₂.later
        dsimp only [finishPublished]
        split
        · refine h₂.standing.bind (advances_restartInterruption happ₂ h₂.standing hview₂)
            fun interrupted s₃ hreports h₃ => ?_
          exact advances_resumeRecovery h₃.standing (hview₂.later h₃.later) hreports
        · rename_i hforward
          exact advances_finishForward happ₂ h₂.standing hview₂ (hkept.mutation_calm
            (hcalm (calm_of_disposition hb hreceipt hdisposition hforward))) hsettled

/-- A restart advances from the journal it loads. -/
theorem advances_runRestart {session : RestartSession} {last : Option EngineCall}
    (hb : A.Built s.history) (hs : Logged A last s) (hgated : Gated A s) :
    A.Advances m (runRestart A.request session) s fun _ _ => True := by
  cases hreceipt : s.history.receipt with
  | some receipt =>
    refine (runRestart_refuses hb.appended.sound.snapshot_eq
      (assessRestart_of_receipt hreceipt)).mono ?_ ?_ ?_
    · exact fun _ _ hx => hx.elim
    · rintro _ _ rfl
      exact hb
    · exact fun _ hx => hx.elim
  | none =>
    refine advances_history ?_
    cases hok : reopenApplication A.request session s.history with
    | error e => exact Process.ensures_throw.mpr hb
    | ok reopened =>
      obtain ⟨app, view⟩ := reopened
      exact ensures_ok rfl (advances_finishReplay (reopenApplication_holds hok) hb hgated
        (hs.remembers (buildView_of_reopen hok)) hreceipt)

end Restart

end PkgApply
