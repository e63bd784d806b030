import PkgApply.Engine.Readiness
import PkgApply.Restart.Discipline

/-!
# Readiness across restarts

A resumed preparation leaves the journal ready or abandoned as a live one
does, whatever an earlier process has completed of it.
-/

namespace PkgApply

open Library

section Resumed

variable {A : AdmittedApplication} {m : Mechanisms} {s : EngineState}
  {done : Set (EffectKind × Option PackagePath)} {app : JournaledApplication}
  {view : RestartView} {request : ApplicationRequest} {state : LeaseBoundStateProjection}

/-- The retained progress of an effect tells how it ended. -/
theorem Preparing.terminal_iff (h : Preparing A done s) {effect : JournalEffect}
    (he : effect ∈ s.history.effects) {terminal : EventKind} :
    (restartProgress s.history effect).terminal = some terminal ↔
      s.history.EndedWith effect.kind effect.path terminal := by
  unfold restartProgress
  rw [h.appended.restartProgress_eq h.declares.keyed he]
  exact Iff.rfl

theorem Preparing.unfailed (h : Preparing A done s) {effect : JournalEffect}
    (he : effect ∈ s.history.effects)
    (hterminal : (restartProgress s.history effect).terminal = none ∨
      (restartProgress s.history effect).terminal = some .completed) :
    s.history.Unfailed effect.kind effect.path := by
  intro terminal hended
  rw [← h.terminal_iff he] at hended
  rcases hterminal with hnone | hcompleted
  · rw [hnone] at hended
    cases hended
  · rw [hcompleted] at hended
    exact (Option.some.inj hended).symm

/-- An intent fails no effect. -/
theorem gates_restartPublishIntent {effect : JournalEffect} (h : Preparing A done s) :
    A.Gates m (restartPublishIntent .preparing effect) s (fun _ s' => Preparing A done s' ∧
      ∀ kind path, s.history.Unfailed kind path → s'.history.Unfailed kind path) := by
  refine gates_history ?_
  split
  · exact gates_pure ⟨h, fun _ _ hunfailed => hunfailed⟩
  · rw [← bind_pure (publishEvent JournalState.preparing effect EventKind.intent)]
    refine h.event fun s' hp hf h' => gates_pure ⟨h'.mono Set.subset_union_left, ?_⟩
    exact fun kind path hunfailed => hf.unfailed rfl (.inl rfl) hunfailed

/-- A completed terminal event completes an effect that did not fail. -/
theorem gates_restartPublishTerminal {effect : JournalEffect} {terminal : EventKind}
    {evidence : Evidence} {fact : Option ReplayFact} (h : Preparing A done s)
    (he : effect ∈ s.history.effects)
    (hunfailed : terminal = .completed → s.history.Unfailed effect.kind effect.path) :
    A.Gates m (restartPublishTerminal .preparing effect terminal evidence fact) s (fun _ s' =>
      Preparing A (orDone done (terminal = .completed) {(effect.kind, effect.path)}) s' ∧
        (terminal = .completed → ∀ kind path, s.history.Unfailed kind path →
          s'.history.Unfailed kind path)) := by
  refine gates_history ?_
  split
  · rename_i hsome
    obtain ⟨retained, hretained⟩ := Option.isSome_iff_exists.mp hsome
    have hended := (h.terminal_iff he).mp hretained
    refine gates_pure ⟨⟨h.appended, h.declares, h.state_eq, ?_⟩, fun _ _ _ hx => hx⟩
    rintro x (hx | ⟨hcompleted, rfl⟩)
    · exact h.done x hx
    · cases hunfailed hcompleted retained hended
      exact hended
  · rw [← bind_pure (publishEvent JournalState.preparing effect terminal evidence fact)]
    refine h.event fun s' hp hf h' => gates_pure ⟨h', fun hcompleted kind path hx => ?_⟩
    exact hf.unfailed rfl (.inr hcompleted) hx

/-! ## Captures -/

theorem gates_resumeCapture {control : ExecutionControl} {capture : OldObjectCaptureRequest}
    (h : Preparing A done s) :
    A.Gates m (resumeCapture view control capture) s (fun result s' =>
      Preparing A (orDone done (result.2 = none) (effectsAt .captureOldObject [capture.path]))
        s') := by
  refine gates_history (h.ofExcept fun effect heffect => ?_)
  obtain ⟨he, hkind, hpath⟩ := findEffect_spec heffect
  have hat : ∀ x ∈ effectsAt .captureOldObject [capture.path], x = (effect.kind, effect.path) := by
    rintro x ⟨path, hmem, rfl⟩
    rw [List.mem_singleton.mp hmem, hkind, hpath]
  split
  · rename_i terminal hterminal
    cases hfound : view.findCapture capture.path with
    | none => exact Process.ensures_throw.mpr h.gated
    | some captured =>
      refine gates_pure ⟨h.appended, h.declares, h.state_eq, ?_⟩
      rintro x (hx | ⟨hnone, hmem⟩)
      · exact h.done x hx
      · have hcompleted : terminal = .completed := by
          by_contra hne
          simp [hne] at hnone
        rw [hat x hmem]
        exact (h.terminal_iff he).mp (hcompleted ▸ hterminal)
  · rename_i hterminal
    refine Gates.bind (gates_restartPublishIntent h) fun _ s₁ hs₁ => ?_
    obtain ⟨h₁, hkept⟩ := hs₁
    refine h₁.mechanism fun s₂ hs₂ h₂ => h₂.ofExcept fun terminal _ => ?_
    have hunfailed : s₂.history.Unfailed effect.kind effect.path := by
      rw [hs₂]
      exact hkept _ _ (h.unfailed he (.inl hterminal))
    have he₂ : effect ∈ s₂.history.effects := by
      rw [h₂.declares.effects, ← h.declares.effects]
      exact he
    refine Gates.bind (gates_restartPublishTerminal h₂ he₂ fun _ => hunfailed) fun _ s₃ hs₃ => ?_
    refine gates_pure (hs₃.1.mono ?_)
    rintro x (hx | ⟨hnone, hmem⟩)
    · exact .inl hx
    · refine .inr ⟨?_, hat x hmem⟩
      by_contra hne
      simp [hne] at hnone

theorem gates_resumeCaptures {control : ExecutionControl}
    {requests : List OldObjectCaptureRequest} {acc : ResumedCaptures} (h : Preparing A done s) :
    A.Gates m (resumeCaptures view control requests acc) s (fun acc' s' =>
      Preparing A (orDone done (acc'.failure = none)
        (effectsAt .captureOldObject (requests.map OldObjectCaptureRequest.path))) s') := by
  induction requests generalizing acc done s with
  | nil =>
    refine gates_pure (h.mono ?_)
    rintro x (hx | ⟨-, path, hmem, -⟩)
    · exact hx
    · exact absurd hmem List.not_mem_nil
  | cons capture rest ih =>
    refine Gates.bind (gates_resumeCapture h) fun result s₁ h₁ => ?_
    obtain ⟨captured, failure⟩ := result
    cases failure with
    | some status =>
      refine gates_pure (h₁.mono ?_)
      rintro x (hx | ⟨hnone, -⟩)
      · exact .inl hx
      · cases hnone
    | none =>
      refine Gates.mono (ih h₁) fun acc' s' hs' => hs'.mono ?_
      rintro x (hx | ⟨hnone, path, hmem, rfl⟩)
      · exact .inl (.inl hx)
      · rw [List.map_cons, List.mem_cons] at hmem
        rcases hmem with rfl | hmem
        · exact .inl (.inr ⟨rfl, _, List.mem_singleton_self _, rfl⟩)
        · exact .inr ⟨hnone, path, hmem, rfl⟩

/-! ## Staging -/

theorem gates_restartIntents (effects : List JournalEffect) (h : Preparing A done s) :
    A.Gates m (restartIntents .preparing effects) s (fun _ s' => Preparing A done s' ∧
      ∀ kind path, s.history.Unfailed kind path → s'.history.Unfailed kind path) := by
  induction effects generalizing s with
  | nil => exact gates_pure ⟨h, fun _ _ hunfailed => hunfailed⟩
  | cons effect rest ih =>
    refine Gates.bind (gates_restartPublishIntent h) fun _ s₁ hs₁ => ?_
    refine Gates.mono (ih hs₁.1) fun _ s₂ hs₂ => ⟨hs₂.1, fun kind path hunfailed => ?_⟩
    exact hs₂.2 kind path (hs₁.2 kind path hunfailed)

/-- A completed seal completes staging effects none of which failed. -/
theorem gates_restartStageTerminals {sealed : BackendOperationResult}
    (effects : List JournalEffect) (h : Preparing A done s)
    (heffects : ∀ e ∈ effects, e ∈ s.history.effects)
    (hunfailed : sealed.outcome = .completed →
      ∀ e ∈ effects, s.history.Unfailed e.kind e.path) :
    A.Gates m (restartStageTerminals sealed effects) s (fun _ s' =>
      Preparing A (orDone done (sealed.outcome = .completed)
        {x | ∃ e ∈ effects, x = (e.kind, e.path)}) s') := by
  induction effects generalizing done s with
  | nil =>
    refine gates_pure (h.mono ?_)
    rintro x (hx | ⟨-, e, hmem, -⟩)
    · exact hx
    · exact absurd hmem List.not_mem_nil
  | cons effect rest ih =>
    refine h.ofExcept fun terminal hterminal => ?_
    have hiff := terminalEvent_completed_iff hterminal
    have he := heffects effect List.mem_cons_self
    refine Gates.bind (gates_restartPublishTerminal h he fun hcompleted =>
      hunfailed (hiff.mp hcompleted) effect List.mem_cons_self) fun _ s₁ hs₁ => ?_
    obtain ⟨h₁, hkept⟩ := hs₁
    refine Gates.mono (ih h₁ (fun e hmem => ?_) fun hcompleted e hmem => ?_) fun _ s' hs' =>
      hs'.mono ?_
    · rw [h₁.declares.effects, ← h.declares.effects]
      exact heffects e (List.mem_cons_of_mem _ hmem)
    · exact hkept (hiff.mpr hcompleted) _ _
        (hunfailed hcompleted e (List.mem_cons_of_mem _ hmem))
    · rintro x (hx | ⟨hcompleted, e, hmem, rfl⟩)
      · exact .inl (.inl hx)
      · rcases List.mem_cons.mp hmem with rfl | hmem
        · exact .inl (.inr ⟨hiff.mpr hcompleted, rfl⟩)
        · exact .inr ⟨hcompleted, e, hmem, rfl⟩

theorem gates_restageIncomingPayloads {payloads : IncomingPayloadPlan}
    {effects : List JournalEffect} (h : Preparing A done s)
    (heffects : ∀ e ∈ effects, e ∈ s.history.effects)
    (hunfailed : ∀ e ∈ effects, s.history.Unfailed e.kind e.path) :
    A.Gates m (restageIncomingPayloads payloads effects) s (fun sealed s' =>
      Preparing A (orDone done (sealed.outcome = .completed)
        {x | ∃ e ∈ effects, x = (e.kind, e.path)}) s') := by
  refine Gates.bind (gates_restartIntents effects h) fun _ s₁ hs₁ => ?_
  obtain ⟨h₁, hkept⟩ := hs₁
  refine h₁.mechanism fun s₂ hs₂ h₂ => h₂.mechanism fun s₃ hs₃ h₃ => ?_
  refine Gates.bind (gates_restartStageTerminals effects h₃ (fun e hmem => ?_)
    fun _ e hmem => ?_) fun _ s₄ h₄ => gates_pure h₄
  · rw [h₃.declares.effects, ← h.declares.effects]
    exact heffects e hmem
  · rw [hs₃, hs₂]
    exact hkept _ _ (hunfailed e hmem)

/-- The staging effects of the journal are those of the schedule. -/
theorem Preparing.payloadEffects (h : Preparing A done s) :
    effectsAt .stageIncomingPayload ((A.steps .stageRegularPayload).map EffectStep.path) ⊆
      {x | ∃ e ∈ payloadEffects s.history, x = (e.kind, e.path)} := by
  rintro x ⟨path, hpath, rfl⟩
  obtain ⟨step, hstep, rfl⟩ := List.mem_map.mp hpath
  obtain ⟨e, he, -, -, hkind, hpath⟩ := (AdmittedApplication.hasKey_step hstep).find h.declares
  refine ⟨e, List.mem_filter.mpr ⟨he, ?_⟩, by rw [hkind, hpath]; rfl⟩
  rw [hkind]
  rfl

/-- Staging that is visible completed every staging effect. -/
theorem gates_resumeStaging (happ : app.Holds A) (h : Preparing A done s) :
    A.Gates m (resumeStaging app view) s (fun result s' =>
      Preparing A (orDone done (result.1 = .visible) (effectsAt .stageIncomingPayload
        ((A.steps .stageRegularPayload).map EffectStep.path))) s' ∧
      (A.hasPayloads = true → result.1 ≠ .notAttempted)) := by
  have hstaged := h.payloadEffects
  have hmem : ∀ e ∈ payloadEffects s.history, e ∈ s.history.effects :=
    fun e he => List.mem_of_mem_filter he
  refine gates_history ?_
  have hnone : app.hasPayloads = false → A.Gates m
      (pure (DurabilityStatus.notAttempted, (∅ : Evidence)) : Engine _) s (fun result s' =>
        Preparing A (orDone done (result.1 = .visible) (effectsAt .stageIncomingPayload
          ((A.steps .stageRegularPayload).map EffectStep.path))) s' ∧
        (A.hasPayloads = true → result.1 ≠ .notAttempted)) := by
    intro hempty
    refine gates_pure ⟨h.mono ?_, fun hsome => ?_⟩
    · rintro x (hx | ⟨hvisible, -⟩)
      · exact hx
      · cases hvisible
    · rw [← happ.hasPayloads, hempty] at hsome
      cases hsome
  split
  · rename_i hpayloads
    exact hnone (by simp [JournaledApplication.hasPayloads, hpayloads])
  · rename_i payloads hpayloads
    split
    · rename_i hlength
      exact hnone (by simp [JournaledApplication.hasPayloads, hpayloads, hlength])
    dsimp only
    split
    · refine gates_pure ⟨h.mono ?_, fun _ => ?_⟩
      · rintro x (hx | ⟨hvisible, -⟩)
        · exact hx
        · unfold unstagedDurability at hvisible
          split at hvisible <;> cases hvisible
      · unfold unstagedDurability
        dsimp only
        split <;> exact DurabilityStatus.noConfusion
    rename_i hfailed
    split
    · rename_i hall
      split
      · split
        · refine gates_pure ⟨⟨h.appended, h.declares, h.state_eq, ?_⟩, fun _ =>
            DurabilityStatus.noConfusion⟩
          rintro x (hx | ⟨-, hx⟩)
          · exact h.done x hx
          · obtain ⟨e, he, rfl⟩ := hstaged hx
            rw [List.all_map, List.all_eq_true] at hall
            exact (h.terminal_iff (hmem e he)).mp (by simpa using hall e he)
        · exact Process.ensures_throw.mpr h.gated
      · exact Process.ensures_throw.mpr h.gated
    · refine Gates.bind (gates_restageIncomingPayloads h hmem fun e he => ?_) fun sealed s₁ h₁ => ?_
      · refine h.unfailed (hmem e he) ?_
        rw [List.any_map, List.any_eq_true] at hfailed
        cases hterminal : (restartProgress s.history e).terminal with
        | none => exact .inl rfl
        | some terminal =>
          refine .inr (congrArg some ?_)
          by_contra hne
          exact hfailed ⟨e, he, by simp [hterminal, hne]⟩
      · refine gates_pure ⟨h₁.mono ?_, fun _ => ?_⟩
        · rintro x (hx | ⟨hvisible, hx⟩)
          · exact .inl hx
          · refine .inr ⟨?_, hstaged hx⟩
            by_contra hne
            simp only [hne, if_false, unstagedDurability] at hvisible
            split at hvisible <;> cases hvisible
        · unfold unstagedDurability
          dsimp only
          split
          · exact DurabilityStatus.noConfusion
          · split <;> exact DurabilityStatus.noConfusion

/-! ## Synchronization -/

theorem gates_restartSynchronize {effect : JournalEffect} {domain : DurabilityDomain}
    {mismatch : String} (h : Preparing A done s) (he : effect ∈ s.history.effects)
    (hterminal : (restartProgress s.history effect).terminal = none) :
    A.Gates m (restartSynchronize .preparing effect domain mismatch) s (fun status s' =>
      Preparing A (orDone done (status = .confirmed) {(effect.kind, effect.path)}) s' ∧
        status ≠ .notAttempted) := by
  refine Gates.bind (gates_restartPublishIntent h) fun _ s₁ hs₁ => ?_
  obtain ⟨h₁, hkept⟩ := hs₁
  refine h₁.mechanism fun s₂ hs₂ h₂ => h₂.ofExcept fun _ _ => h₂.ofExcept fun terminal hok => ?_
  obtain ⟨hiff, hattempted⟩ := synchronizationEvent_completed_iff hok
  have he₂ : effect ∈ s₂.history.effects := by
    rw [h₂.declares.effects, ← h.declares.effects]
    exact he
  refine Gates.bind (gates_restartPublishTerminal h₂ he₂ fun _ => ?_) fun _ s₃ hs₃ => ?_
  · rw [hs₂]
    exact hkept _ _ (h.unfailed he (.inl hterminal))
  · refine gates_pure ⟨hs₃.1.mono ?_, hattempted⟩
    rintro x (hx | ⟨hconfirmed, hx⟩)
    · exact .inl hx
    · exact .inr ⟨hiff.mpr hconfirmed, hx⟩

theorem gates_resumeSynchronization {staged : DurabilityStatus} {domain : DurabilityDomain}
    {kind : EffectKind} (h : Preparing A done s) :
    A.Gates m (resumeSynchronization staged domain kind) s (fun status s' =>
      Preparing A (orDone done (staged ≠ .notAttempted ∧ stagedDurable status = true)
        {(kind, none)}) s') := by
  unfold resumeSynchronization
  split
  · rename_i hstaged
    refine gates_pure (h.mono ?_)
    rintro x (hx | ⟨⟨hne, -⟩, -⟩)
    · exact hx
    · exact absurd hstaged hne
  · refine gates_history (h.ofExcept fun effect heffect => ?_)
    obtain ⟨he, hkind, hpath⟩ := findEffect_spec heffect
    split
    · rename_i terminal hterminal
      refine gates_pure ⟨h.appended, h.declares, h.state_eq, ?_⟩
      rintro x (hx | ⟨⟨-, hdurable⟩, rfl⟩)
      · exact h.done x hx
      · have hcompleted : terminal = .completed := by
          by_contra hne
          simp only [retainedSynchronization, hne, if_false, unstagedDurability] at hdurable
          split at hdurable <;> cases hdurable
        rw [h.terminal_iff he, hcompleted, hkind, hpath] at hterminal
        exact hterminal
    · rename_i hterminal
      refine Gates.mono (gates_restartSynchronize h he hterminal) fun status s' hs' =>
        hs'.1.mono ?_
      rintro x (hx | ⟨⟨-, hdurable⟩, rfl⟩)
      · exact .inl hx
      · refine .inr ⟨?_, by rw [hkind, hpath]; rfl⟩
        simpa [stagedDurable, hs'.2] using hdurable

/-! ## Whole preparations -/

/-- A resumed preparation leaves the journal ready or abandoned. -/
theorem gates_resumePreparing {evidence : Evidence} (happ : app.Holds A) (h : Preparing A ∅ s) :
    A.Gates m (resumePreparing app view request state evidence) s (fun _ s' => Opened A s') := by
  refine Gates.bind (gates_resumeCaptures h) fun captures s₁ h₁ => ?_
  split
  · exact Gates.bind (gates_failPreparation h₁) fun _ _ hs' => gates_pure hs'
  rename_i hcaptured
  refine Gates.bind (gates_resumeStaging happ h₁) fun result s₂ hs₂ => ?_
  obtain ⟨staged, sealed⟩ := result
  obtain ⟨h₂, hattempted⟩ := hs₂
  dsimp only at h₂ hattempted ⊢
  split
  · exact Gates.bind (gates_failPreparation h₂) fun _ _ hs' => gates_pure hs'
  rename_i hstaged
  refine Gates.bind (gates_resumeSynchronization h₂) fun incoming s₃ h₃ => ?_
  split
  · exact Gates.bind (gates_failPreparation h₃) fun _ _ hs' => gates_pure hs'
  rename_i hincoming
  refine Gates.bind (gates_resumeSynchronization h₃) fun recovery s₄ h₄ => ?_
  split
  · exact Gates.bind (gates_failPreparation h₄) fun _ _ hs' => gates_pure hs'
  rename_i hrecovery
  simp only [Bool.not_eq_true', Bool.not_eq_false] at hincoming hrecovery
  refine Gates.bind (gates_finishPreparation h₄ (h₄.ready ?_ ?_ ?_ ?_)) fun _ _ hs' =>
    gates_pure hs'
  · rw [← happ.captures]
    exact fun x hx => .inl (.inl (.inl (.inr ⟨hcaptured, hx⟩)))
  · rintro x hx
    have hvisible : staged = .visible := by
      obtain ⟨path, hpath, -⟩ := id hx
      obtain ⟨step, hstep, -⟩ := List.mem_map.mp hpath
      have hne := hattempted (A.hasPayloads_of_step hstep)
      by_contra hother
      exact hstaged ⟨hne, hother⟩
    exact .inl (.inl (.inr ⟨hvisible, hx⟩))
  · exact fun hpayloads => .inl (.inr ⟨⟨hattempted hpayloads, hincoming⟩, rfl⟩)
  · intro hne
    refine .inr ⟨⟨?_, hrecovery⟩, rfl⟩
    rw [happ.captures, if_neg (by simpa using hne)]
    exact DurabilityStatus.noConfusion

theorem gates_resumePreparation (happ : app.Holds A) (h : Preparing A ∅ s) :
    A.Gates m (resumePreparation app view request state) s (fun _ s' => Opened A s') := by
  refine gates_history ?_
  rw [if_neg (not_not.mpr h.state_eq)]
  refine Gates.bind (Q := fun _ s' => Preparing A ∅ s') ?_ fun current s₁ h₁ => ?_
  · exact h.mechanism fun s₁ _ h₁ => Process.ensures_ofExcept.mpr
      ⟨fun _ _ => h₁, fun _ _ => h₁.gated⟩
  dsimp only
  split
  · exact Gates.bind (gates_failPreparation h₁) fun _ _ hs' => gates_pure hs'
  · exact gates_resumePreparing happ h₁

/-! ## Whole processes -/

/-- An application leaves preparation ready or abandoned. -/
theorem gates_runApplication (happ : app.Holds A) (h : Preparing A ∅ s) :
    A.Gates m (runApplication app A.request state) s (fun _ s' => Gated A s') := by
  refine gates_history (h.ofExcept fun app' hok => ?_)
  rw [journaledApplication_make_eq_ok hok]
  refine Gates.bind (gates_prepareApplication happ h) fun result s₁ h₁ => ?_
  exact Gates.mono (h₁.gates _) fun _ _ hs' => .inr hs'

/-- A restart rebuilds the inputs of the attempt. -/
theorem reopenApplication_holds {session : RestartSession} {h : JournalHistory}
    (hok : reopenApplication A.request session h = .ok (app, view)) : app.Holds A := by
  unfold reopenApplication rebuildRestartApplication at hok
  simp only [bind_eq_ok_iff, pure, Except.pure, Except.ok.injEq, Prod.mk.injEq] at hok
  obtain ⟨_, -, _, -, _, -, _, -, app', ⟨_, -, inputs, hinputs, _, hmake, _, -, rfl⟩, rfl, -⟩ := hok
  rw [A.prepared] at hinputs
  cases hinputs
  rw [journaledApplication_make_eq_ok hmake]
  exact ⟨rfl, rfl, rfl⟩

/-- A restart of a gated journal leaves it gated. -/
theorem gates_runRestart {session : RestartSession} (h : Gated A s) :
    A.Gates m (runRestart A.request session) s (fun _ s' => Gated A s') := by
  rcases h with h | h
  · refine gates_history (h.ofExcept fun reopened hok => ?_)
    obtain ⟨app, view⟩ := reopened
    refine gates_history (h.ofExcept fun disposition _ => ?_)
    refine Gates.bind (gates_resumePreparation (reopenApplication_holds hok) h) fun _ s₁ h₁ => ?_
    exact Gates.mono (h₁.gates _) fun _ _ hs' => .inr hs'
  · exact Gates.mono (h.gates _) fun _ _ hs' => .inr hs'

end Resumed

end PkgApply
