import PkgApply.Engine.Discipline
import PkgApply.Engine.Rules

/-!
# Readiness

Preparation completes every capture, every staging and every synchronization
of what it staged before the journal leaves the state preparing; afterwards a
completed effect stays completed.
-/

namespace PkgApply

open Library

/-- Effects that preparation completes before anything is mutated. -/
def EffectKind.preparatory : EffectKind → Bool
  | .captureOldObject | .stageIncomingPayload
  | .synchronizeIncomingStaging | .synchronizeRecoveryStaging => true
  | _ => false

/-! ## Completed effects -/

namespace JournalHistory

variable {h h' : JournalHistory} {t : Transition} {kind : EffectKind} {path : Option PackagePath}

/-- An effect ended, with this kind of event. -/
def EndedWith (h : JournalHistory) (kind : EffectKind) (path : Option PackagePath)
    (terminal : EventKind) : Prop := (h.slot kind path).ended.map Ended.kind = some terminal

/-- An effect has a completed terminal event. -/
def Done (h : JournalHistory) (kind : EffectKind) (path : Option PackagePath) : Prop :=
  h.EndedWith kind path .completed

theorem Follows.slot_eq (hf : h.Follows t h') :
    h'.slot kind path = (h.ledger.step t).slot kind path :=
  congrFun (congrFun (congrArg Ledger.slot hf.ledger) kind) path

theorem Follows.state_eq (hf : h.Follows t h') : h'.state = t.state :=
  congrArg Ledger.state hf.ledger

/-- An ended effect keeps its slot. -/
theorem Follows.slot_of_ended (hp : h.Permits t) (hf : h.Follows t h')
    (hended : (h.slot kind path).ended.isSome = true) : h'.slot kind path = h.slot kind path := by
  rw [hf.slot_eq]
  refine Ledger.step_slot_of_ne fun e he hkey => ?_
  obtain ⟨rfl, rfl⟩ := hkey
  by_cases hintent : e.kind = .intent
  · rw [hp.fresh e he hintent] at hended
    cases hended
  · rw [hp.unresolved e he hintent] at hended
    cases hended

theorem Follows.endedWith {terminal : EventKind} (hp : h.Permits t) (hf : h.Follows t h')
    (hended : h.EndedWith kind path terminal) : h'.EndedWith kind path terminal := by
  have hsome : (h.slot kind path).ended.isSome = true := by
    obtain ⟨ended, heq, -⟩ := Option.map_eq_some_iff.mp hended
    rw [heq]
    rfl
  rw [EndedWith, hf.slot_of_ended hp hsome]
  exact hended

theorem Follows.done (hp : h.Permits t) (hf : h.Follows t h') (hdone : h.Done kind path) :
    h'.Done kind path := hf.endedWith hp hdone

/-- A terminal event ends its effect. -/
theorem Follows.endedWith_event {e : TransitionEvent} (hp : h.Permits t) (hf : h.Follows t h')
    (he : t.event = some e) (hkind : e.kind ≠ .intent) :
    h'.EndedWith e.effect.kind e.effect.path e.kind := by
  have hslot : h.ledger.slot e.effect.kind e.effect.path = .unresolved := hp.unresolved e he hkind
  rw [EndedWith, hf.slot_eq, Ledger.step_slot_self he, hslot, Slot.note_terminal hkind]
  rfl

/-- An effect that ended, ended after a completed event only. -/
def Unfailed (h : JournalHistory) (kind : EffectKind) (path : Option PackagePath) : Prop :=
  ∀ terminal, h.EndedWith kind path terminal → terminal = .completed

/-- Intents and completed events fail no effect. -/
theorem Follows.unfailed {e : TransitionEvent} (hf : h.Follows t h') (he : t.event = some e)
    (hkind : e.kind = .intent ∨ e.kind = .completed) (hunfailed : h.Unfailed kind path) :
    h'.Unfailed kind path := by
  intro terminal hended
  rw [EndedWith, hf.slot_eq] at hended
  by_cases hkey : e.effect.kind = kind ∧ e.effect.path = path
  · obtain ⟨rfl, rfl⟩ := hkey
    rw [Ledger.step_slot_self he] at hended
    rcases hkind with hkind | hkind
    · rw [hkind] at hended
      exact hunfailed terminal hended
    · rw [hkind] at hended
      exact (Option.some.inj hended).symm
  · rw [Ledger.step_slot_of_ne fun x hx hx' => hkey (by cases he.symm.trans hx; exact hx')] at hended
    exact hunfailed terminal hended

end JournalHistory

/-- Every effect of preparation is completed. -/
def AdmittedApplication.Ready (A : AdmittedApplication) (h : JournalHistory) : Prop :=
  ∀ kind path, kind.preparatory = true → A.HasKey kind path → h.Done kind path

/-! ## In and after preparation -/

/-- The journal is in preparation, with these effects completed. -/
structure Preparing (A : AdmittedApplication) (done : Set (EffectKind × Option PackagePath))
    (s : EngineState) : Prop where
  appended : JournalHistory.Appended s.history
  declares : A.Declares s.history
  state_eq : s.history.state = .preparing
  done : ∀ x ∈ done, s.history.Done x.1 x.2

/-- The journal has left preparation: ready, or abandoned. -/
structure Opened (A : AdmittedApplication) (s : EngineState) : Prop where
  appended : JournalHistory.Appended s.history
  declares : A.Declares s.history
  ready : s.history.state = .abandoned ∨ (s.history.state ≠ .preparing ∧ A.Ready s.history)

/-- A journal leaves preparation ready or abandoned. -/
def Gated (A : AdmittedApplication) (s : EngineState) : Prop :=
  Preparing A ∅ s ∨ Opened A s

section Gated

variable {A : AdmittedApplication} {m : Mechanisms} {s s' : EngineState}
  {done done' : Set (EffectKind × Option PackagePath)} {α β : Type}

theorem Preparing.mono (h : Preparing A done s) (hsub : done' ⊆ done) : Preparing A done' s :=
  ⟨h.appended, h.declares, h.state_eq, fun x hx => h.done x (hsub hx)⟩

theorem Preparing.gated (h : Preparing A done s) : Gated A s :=
  .inl (h.mono (Set.empty_subset _))

theorem Preparing.log (h : Preparing A done s) (hs : s'.history = s.history) :
    Preparing A done s' := by
  obtain ⟨happended, hdeclares, hstate, hdone⟩ := h
  exact ⟨hs ▸ happended, hs ▸ hdeclares, hs ▸ hstate, hs ▸ hdone⟩

/-- No journal returns to preparation, and none leaves abandonment. -/
theorem Opened.follows {t : Transition} (h : Opened A s) (hp : s.history.Permits t)
    (hf : s.history.Follows t s'.history) : Opened A s' := by
  refine ⟨hf.appended, hf.declaration.trans h.declares, ?_⟩
  rw [hf.state_eq]
  have hedge := hp.edge
  rcases h.ready with habandoned | ⟨hstate, hready⟩
  · rw [habandoned] at hedge
    revert hedge
    cases t.state <;> simp [stateMayFollow]
  · refine .inr ⟨?_, fun kind path hkind hkey => hf.done hp (hready kind path hkind hkey)⟩
    intro hback
    rw [hback] at hedge
    revert hedge hstate
    cases s.history.state <;> simp [stateMayFollow]

/-- Whatever is called, an opened journal stays opened. -/
theorem Opened.perform {op : EngineOp} {r : engineSignature.Response op} (h : Opened A s)
    (hop : (engineMachine m).perform op s = .ok (r, s')) : Opened A s' := by
  cases op with
  | mechanism request =>
    cases hop
    exact ⟨h.appended, h.declares, h.ready⟩
  | journal t =>
    simp only [engineMachine] at hop
    split at hop
    · rename_i h' htransition
      cases hop
      obtain ⟨hp, hf⟩ :=
        JournalHistory.permits_of_transition h.appended h.declares.keyed htransition
      exact h.follows hp hf
    · cases hop

/-- Wherever it is cut or throws, a process leaves a gated journal. -/
def AdmittedApplication.Gates (A : AdmittedApplication) (m : Mechanisms) (p : Engine α)
    (s : EngineState) (Q : α → EngineState → Prop) : Prop :=
  p.Ensures (engineMachine m) s Q (fun _ s' => Gated A s') (Gated A)

variable {Q : α → EngineState → Prop} {R : β → EngineState → Prop}

theorem gates_pure {a : α} (h : Q a s) : A.Gates m (pure a : Engine α) s Q :=
  Process.ensures_pure.mpr h

theorem Gates.bind {p : Engine α} {f : α → Engine β} (hp : A.Gates m p s Q)
    (hf : ∀ a s', Q a s' → A.Gates m (f a) s' R) : A.Gates m (p >>= f) s R :=
  Process.Ensures.bind hp hf

theorem Gates.mono {Q' : α → EngineState → Prop} {p : Engine α} (hp : A.Gates m p s Q)
    (hQ : ∀ a s', Q a s' → Q' a s') : A.Gates m p s Q' :=
  Process.Ensures.mono hp hQ (fun _ _ h => h) (fun _ h => h)

theorem gates_history {f : JournalHistory → Engine α} (hf : A.Gates m (f s.history) s Q) :
    A.Gates m (Engine.history >>= f) s Q := ensures_history hf

/-- A computation ends preparation only by throwing. -/
theorem Preparing.ofExcept {x : Except Exn β} {f : β → Engine α} (h : Preparing A done s)
    (hf : ∀ b, x = .ok b → A.Gates m (f b) s Q) : A.Gates m ((liftM x : Engine β) >>= f) s Q := by
  cases hx : x with
  | ok b => exact hf b hx
  | error e => exact Process.ensures_throw.mpr h.gated

theorem Preparing.mechanism {request : MechanismRequest} {f : request.Response → Engine α}
    (h : Preparing A done s) (hf : ∀ s', s'.history = s.history → Preparing A done s' →
      A.Gates m (f (m request)) s' Q) : A.Gates m (Engine.mechanism request >>= f) s Q := by
  have hcalled : Preparing A done ⟨s.history, s.log ++ [⟨.mechanism request, m request⟩]⟩ :=
    h.log rfl
  exact (Process.ensures_call_ok (M := engineMachine m) rfl).mpr
    ⟨h.gated, hcalled.gated, hf _ rfl hcalled⟩

private theorem gates_journal {t : Transition} {f : Unit → Engine α} (h : Preparing A done s)
    (hf : ∀ s', s.history.Permits t → s.history.Follows t s'.history →
      Gated A s' ∧ A.Gates m (f ()) s' Q) : A.Gates m (Engine.journal t >>= f) s Q := by
  cases htransition : s.history.transition t with
  | error e =>
    have hop : (engineMachine m).perform (.journal t) s = .error e := by
      simp only [engineMachine, htransition]
    exact (Process.ensures_call_error hop).mpr ⟨h.gated, h.gated⟩
  | ok h' =>
    have hop : (engineMachine m).perform (.journal t) s =
        .ok ((), ⟨h', s.log ++ [⟨.journal t, ()⟩]⟩) := by
      simp only [engineMachine, htransition]
    obtain ⟨hp, hfollows⟩ :=
      JournalHistory.permits_of_transition h.appended h.declares.keyed htransition
    obtain ⟨hgated, hnext⟩ := hf ⟨h', s.log ++ [⟨.journal t, ()⟩]⟩ hp hfollows
    exact (Process.ensures_call_ok hop).mpr ⟨h.gated, hgated, hnext⟩

/-- An event of preparation completes at most its own effect. -/
theorem Preparing.event {effect : JournalEffect} {kind : EventKind} {evidence : Evidence}
    {fact : Option ReplayFact} {f : Unit → Engine α} (h : Preparing A done s)
    (hf : ∀ s', s.history.Permits ⟨.preparing, some ⟨effect, kind, evidence⟩, fact, none, none⟩ →
      s.history.Follows ⟨.preparing, some ⟨effect, kind, evidence⟩, fact, none, none⟩ s'.history →
      Preparing A (done ∪ {x | kind = .completed ∧ x = (effect.kind, effect.path)}) s' →
        A.Gates m (f ()) s' Q) :
    A.Gates m (publishEvent .preparing effect kind evidence fact >>= f) s Q := by
  refine gates_journal h fun s' hp hfollows => ?_
  have hs' : Preparing A (done ∪ {x | kind = .completed ∧ x = (effect.kind, effect.path)}) s' := by
    refine ⟨hfollows.appended, hfollows.declaration.trans h.declares, hfollows.state_eq, ?_⟩
    rintro x (hx | ⟨rfl, rfl⟩)
    · exact hfollows.done hp (h.done x hx)
    · exact hfollows.endedWith_event hp rfl EventKind.noConfusion
  exact ⟨hs'.gated, hf s' hp hfollows hs'⟩

/-- A ready journal leaves preparation. -/
theorem Preparing.enter {f : Unit → Engine α} (h : Preparing A done s) (hready : A.Ready s.history)
    (hf : ∀ s', Opened A s' → A.Gates m (f ()) s' Q) :
    A.Gates m (publishState .prepared >>= f) s Q := by
  refine gates_journal h fun s' hp hfollows => ?_
  have hs' : Opened A s' := by
    refine ⟨hfollows.appended, hfollows.declaration.trans h.declares, .inr ⟨?_, ?_⟩⟩
    · rw [hfollows.state_eq]
      exact JournalState.noConfusion
    · exact fun kind path hkind hkey => hfollows.done hp (hready kind path hkind hkey)
  exact ⟨.inr hs', hf s' hs'⟩

/-- A failed preparation is abandoned. -/
theorem Preparing.abandon {receipt : ApplicationReceipt} {f : Unit → Engine α}
    (h : Preparing A done s) (hf : ∀ s', Opened A s' → A.Gates m (f ()) s' Q) :
    A.Gates m (publishState .abandoned (some receipt) >>= f) s Q := by
  refine gates_journal h fun s' hp hfollows => ?_
  have hs' : Opened A s' :=
    ⟨hfollows.appended, hfollows.declaration.trans h.declares, .inl hfollows.state_eq⟩
  exact ⟨.inr hs', hf s' hs'⟩

/-- An opened journal is left opened by every process. -/
theorem Opened.gates (h : Opened A s) (p : Engine α) :
    A.Gates m p s (fun _ s' => Opened A s') :=
  (Process.ensures_invariant (I := Opened A) (fun _ _ _ _ h hop => h.perform hop) p h).mono
    (fun _ _ h => h) (fun _ _ h => .inr h) (fun _ h => .inr h)

end Gated

/-! ## Live preparation -/

section Live

variable {A : AdmittedApplication} {m : Mechanisms} {s : EngineState}
  {done : Set (EffectKind × Option PackagePath)} {app : JournaledApplication}
  {request : ApplicationRequest} {state : LeaseBoundStateProjection} {α : Type}

/-- What is done when more effects are done under a condition. -/
def orDone (done : Set (EffectKind × Option PackagePath)) (p : Prop)
    (more : Set (EffectKind × Option PackagePath)) : Set (EffectKind × Option PackagePath) :=
  done ∪ {x | p ∧ x ∈ more}

/-- The effects of one kind at some paths. -/
def effectsAt (kind : EffectKind) (paths : List PackagePath) :
    Set (EffectKind × Option PackagePath) := {x | ∃ path ∈ paths, x = (kind, some path)}

theorem terminalEvent_completed_iff {outcome : BackendOperationOutcome} {terminal : EventKind}
    (h : terminalEvent outcome = .ok terminal) :
    terminal = .completed ↔ outcome = .completed := by
  cases outcome <;> cases h <;> simp

theorem synchronizationEvent_completed_iff {e : Exn} {status : DurabilityStatus}
    {terminal : EventKind} (h : synchronizationEvent e status = .ok terminal) :
    (terminal = .completed ↔ status = .confirmed) ∧ status ≠ .notAttempted := by
  cases status <;> cases h <;> simp

theorem gates_captureOldObject {control : ExecutionControl} {capture : OldObjectCaptureRequest}
    (h : Preparing A done s) :
    A.Gates m (captureOldObject app control capture) s (fun captured s' =>
      Preparing A (orDone done (captureSemanticOutcome control capture captured = .completed)
        (effectsAt .captureOldObject [capture.path])) s') := by
  refine gates_history (h.ofExcept fun effect heffect => ?_)
  obtain ⟨-, hkind, hpath⟩ := findEffect_spec heffect
  refine h.event fun s₁ _ _ h₁ => ?_
  refine h₁.mechanism fun s₂ _ h₂ => ?_
  refine h₂.ofExcept fun _ _ => h₂.ofExcept fun terminal hterminal => ?_
  refine h₂.event fun s₃ _ _ h₃ => gates_pure (h₃.mono ?_)
  rintro x (hx | ⟨hcompleted, path, hmem, rfl⟩)
  · exact .inl (.inl hx)
  · rw [List.mem_singleton.mp hmem]
    exact .inr ⟨(terminalEvent_completed_iff hterminal).mpr hcompleted, by rw [hkind, hpath]⟩

/-- Completed captures are captures of every request, and staged if there are any. -/
theorem gates_captureOldObjects {control : ExecutionControl}
    {requests : List OldObjectCaptureRequest} {acc : CapturePreparation} (h : Preparing A done s) :
    A.Gates m (captureOldObjects app control requests acc) s (fun acc' s' =>
      Preparing A (orDone done (acc'.completed = true)
        (effectsAt .captureOldObject (requests.map OldObjectCaptureRequest.path))) s' ∧
      (requests ≠ [] → acc'.durability ≠ .notAttempted) ∧ (requests = [] → acc' = acc)) := by
  induction requests generalizing acc done s with
  | nil =>
    refine gates_pure ⟨h.mono ?_, fun hne => absurd rfl hne, fun _ => rfl⟩
    rintro x (hx | ⟨-, path, hmem, -⟩)
    · exact hx
    · exact absurd hmem List.not_mem_nil
  | cons capture rest ih =>
    refine Gates.bind (gates_captureOldObject h) fun captured s₁ h₁ => ?_
    have hdurability : (if captured.outcome = .completed then DurabilityStatus.visible
        else .indeterminate) ≠ .notAttempted := by
      split <;> exact DurabilityStatus.noConfusion
    dsimp only
    split
    · rename_i hcompleted
      rw [beq_iff_eq] at hcompleted
      refine Gates.mono (ih h₁) fun acc' s' hrest => ?_
      obtain ⟨hs', hne, hnil⟩ := hrest
      refine ⟨hs'.mono ?_, fun _ => ?_, fun hcons => absurd hcons (List.cons_ne_nil _ _)⟩
      · rintro x (hx | ⟨hdone, path, hmem, rfl⟩)
        · exact .inl (.inl hx)
        · rw [List.map_cons, List.mem_cons] at hmem
          rcases hmem with rfl | hmem
          · exact .inl (.inr ⟨hcompleted, _, List.mem_singleton_self _, rfl⟩)
          · exact .inr ⟨hdone, path, hmem, rfl⟩
      · by_cases hrest : rest = []
        · rw [hnil hrest]
          exact hdurability
        · exact hne hrest
    · rename_i hincomplete
      refine gates_pure ⟨h₁.mono ?_, fun _ => hdurability, fun hcons =>
        absurd hcons (List.cons_ne_nil _ _)⟩
      rintro x (hx | ⟨hdone, -⟩)
      · exact .inl hx
      · exact absurd hdone hincomplete

theorem gates_stageIntents (paths : List PackagePath) (h : Preparing A done s) :
    A.Gates m (stageIntents paths) s (fun _ s' => Preparing A done s') := by
  induction paths generalizing s with
  | nil => exact gates_pure h
  | cons path rest ih =>
    refine gates_history (h.ofExcept fun effect heffect => ?_)
    exact h.event fun s₁ _ _ h₁ => ih (h₁.mono Set.subset_union_left)

theorem gates_stageTerminals {terminal : EventKind} {sealed : BackendOperationResult}
    (paths : List PackagePath) (h : Preparing A done s) :
    A.Gates m (stageTerminals terminal sealed paths) s (fun _ s' =>
      Preparing A (orDone done (terminal = .completed) (effectsAt .stageIncomingPayload paths))
        s') := by
  induction paths generalizing done s with
  | nil =>
    refine gates_pure (h.mono ?_)
    rintro x (hx | ⟨-, path, hmem, -⟩)
    · exact hx
    · exact absurd hmem List.not_mem_nil
  | cons path rest ih =>
    refine gates_history (h.ofExcept fun effect heffect => ?_)
    obtain ⟨-, hkind, hpath⟩ := findEffect_spec heffect
    refine h.event fun s₁ _ _ h₁ => Gates.mono (ih h₁) fun _ s' hs' => hs'.mono ?_
    rintro x (hx | ⟨hcompleted, path', hmem, rfl⟩)
    · exact .inl (.inl hx)
    · rcases List.mem_cons.mp hmem with rfl | hmem
      · exact .inl (.inr ⟨hcompleted, by rw [hkind, hpath]⟩)
      · exact .inr ⟨hcompleted, path', hmem, rfl⟩

theorem gates_sealStage {payloads : IncomingPayloadPlan} (h : Preparing A done s) :
    A.Gates m (sealStage payloads) s (fun _ s' => Preparing A done s') := by
  refine h.mechanism fun s₁ _ h₁ => h₁.mechanism fun s₂ _ h₂ => ?_
  exact h₂.ofExcept fun _ _ => gates_pure h₂

theorem stagingDurability_visible {sealed : Option BackendOperationResult}
    (hattempted : stagingDurability sealed ≠ .notAttempted)
    (hsealed : ¬stagingDurability sealed = .indeterminate) : stagingDurability sealed = .visible := by
  cases sealed with
  | none => exact absurd rfl hattempted
  | some sealed =>
    unfold stagingDurability at hsealed ⊢
    dsimp only at hsealed ⊢
    split
    · rfl
    · rename_i hincomplete
      exact absurd (if_neg hincomplete) hsealed

/-- A completed seal completes every staging effect. -/
theorem gates_stageIncomingPayloads (h : Preparing A done s) :
    A.Gates m (stageIncomingPayloads app) s (fun sealed s' =>
      Preparing A (orDone done (stagingDurability sealed = .visible)
        (effectsAt .stageIncomingPayload
          ((app.stepsOf .stageRegularPayload).map EffectStep.path))) s' ∧
      (app.hasPayloads = true → stagingDurability sealed ≠ .notAttempted)) := by
  have hnone : app.hasPayloads = false → A.Gates m (pure none : Engine _) s (fun sealed s' =>
      Preparing A (orDone done (stagingDurability sealed = .visible)
        (effectsAt .stageIncomingPayload
          ((app.stepsOf .stageRegularPayload).map EffectStep.path))) s' ∧
      (app.hasPayloads = true → stagingDurability sealed ≠ .notAttempted)) := by
    intro hempty
    refine gates_pure ⟨h.mono ?_, fun hsome => absurd (hempty.symm.trans hsome) (by decide)⟩
    rintro x (hx | ⟨hvisible, -⟩)
    · exact hx
    · cases hvisible
  unfold stageIncomingPayloads
  split
  · rename_i hpayloads
    exact hnone (by simp [JournaledApplication.hasPayloads, hpayloads])
  · rename_i payloads hpayloads
    split
    · rename_i hlength
      exact hnone (by simp [JournaledApplication.hasPayloads, hpayloads, hlength])
    · refine Gates.bind (gates_stageIntents _ h) fun _ s₁ h₁ => h₁.ofExcept fun _ _ => ?_
      refine Gates.bind (gates_sealStage h₁) fun sealed s₂ h₂ => ?_
      refine h₂.ofExcept fun terminal hterminal => ?_
      refine Gates.bind (gates_stageTerminals _ h₂) fun _ s₃ h₃ => gates_pure ⟨h₃.mono ?_, ?_⟩
      · rintro x (hx | ⟨hvisible, hmem⟩)
        · exact .inl hx
        · refine .inr ⟨(terminalEvent_completed_iff hterminal).mpr ?_, hmem⟩
          by_contra hincomplete
          simp [stagingDurability, hincomplete] at hvisible
      · intro _
        unfold stagingDurability
        dsimp only
        split <;> exact DurabilityStatus.noConfusion

theorem gates_synchronizeDomain {kind : EffectKind} {domain : DurabilityDomain}
    {mismatch unattempted : String} (h : Preparing A done s) :
    A.Gates m (synchronizeDomain .preparing kind domain mismatch unattempted) s (fun fact s' =>
      Preparing A (orDone done (fact.status = .confirmed) {(kind, none)}) s' ∧
        fact.status ≠ .notAttempted) := by
  refine gates_history (h.ofExcept fun effect heffect => ?_)
  obtain ⟨-, hkind, hpath⟩ := findEffect_spec heffect
  refine h.event fun s₁ _ _ h₁ => ?_
  refine h₁.mechanism fun s₂ _ h₂ => ?_
  refine h₂.ofExcept fun _ _ => h₂.ofExcept fun terminal hterminal => ?_
  obtain ⟨hiff, hattempted⟩ := synchronizationEvent_completed_iff hterminal
  refine h₂.event fun s₃ _ _ h₃ => gates_pure ⟨h₃.mono ?_, hattempted⟩
  rintro x (hx | ⟨hconfirmed, rfl⟩)
  · exact .inl (.inl hx)
  · exact .inr ⟨hiff.mpr hconfirmed, by rw [hkind, hpath]⟩

/-- What is staged and durable was confirmed. -/
theorem gates_synchronizeStaged {staged : DurabilityStatus} {domain : DurabilityDomain}
    {kind : EffectKind} (h : Preparing A done s) :
    A.Gates m (synchronizeStaged staged domain kind) s (fun status s' =>
      Preparing A (orDone done (staged ≠ .notAttempted ∧ stagedDurable status = true)
        {(kind, none)}) s') := by
  unfold synchronizeStaged
  split
  · rename_i hstaged
    refine gates_pure (h.mono ?_)
    rintro x (hx | ⟨⟨hne, -⟩, -⟩)
    · exact hx
    · exact absurd hstaged hne
  · refine Gates.bind (gates_synchronizeDomain h) fun fact s₁ hs₁ => gates_pure (hs₁.1.mono ?_)
    rintro x (hx | ⟨⟨-, hdurable⟩, hmem⟩)
    · exact .inl hx
    · refine .inr ⟨?_, hmem⟩
      simpa [stagedDurable, hs₁.2] using hdurable

theorem gates_failPreparation {incoming recovery : DurabilityStatus} {evidence : Evidence}
    (h : Preparing A done s) :
    A.Gates m (failPreparation app request state incoming recovery evidence) s
      (fun _ s' => Opened A s') := by
  refine gates_history (h.ofExcept fun receipt _ => ?_)
  exact h.abandon fun s' hs' => gates_pure hs'

theorem gates_finishPreparation {captures : List OldObjectCaptureResult}
    {incoming recovery : DurabilityStatus} {evidence : Evidence} (h : Preparing A done s)
    (hready : A.Ready s.history) :
    A.Gates m (finishPreparation app captures incoming recovery evidence) s
      (fun _ s' => Opened A s') :=
  h.enter hready fun _ hs' => hs'.gates _

/-- A process holds the inputs of the attempt. -/
structure JournaledApplication.Holds (app : JournaledApplication) (A : AdmittedApplication) :
    Prop where
  captures : app.captures = A.captures
  payloads : app.payloads = A.payloads
  schedule : app.schedule = A.schedule

theorem JournaledApplication.Holds.stepsOf {kind : EffectStepKind} (happ : app.Holds A) :
    app.stepsOf kind = A.steps kind := by
  unfold JournaledApplication.stepsOf AdmittedApplication.steps stepsOfKind
  rw [happ.schedule]

theorem JournaledApplication.Holds.hasPayloads (happ : app.Holds A) :
    app.hasPayloads = A.hasPayloads := by
  unfold JournaledApplication.hasPayloads AdmittedApplication.hasPayloads
  rw [happ.payloads]

/-- Staging steps need a payload closure. -/
theorem AdmittedApplication.hasPayloads_of_step {step : EffectStep}
    (hstep : step ∈ A.steps .stageRegularPayload) : A.hasPayloads = true := by
  have hlength := A.steps_stage_length
  have hpos := List.length_pos_of_mem hstep
  unfold AdmittedApplication.hasPayloads
  cases hpayloads : A.payloads with
  | none =>
    rw [hpayloads] at hlength
    simp only [Option.map_none, Option.getD_none] at hlength
    omega
  | some payloads =>
    rw [hpayloads] at hlength
    simp only [Option.map_some, Option.getD_some] at hlength
    simp only [Option.any_some, bne_iff_ne]
    omega

/-- What preparation completes makes a journal ready. -/
theorem Preparing.ready (h : Preparing A done s)
    (hcaptures : effectsAt .captureOldObject (A.captures.map OldObjectCaptureRequest.path) ⊆ done)
    (hstaged : effectsAt .stageIncomingPayload
      ((A.steps .stageRegularPayload).map EffectStep.path) ⊆ done)
    (hincoming : A.hasPayloads = true → (.synchronizeIncomingStaging, none) ∈ done)
    (hrecovery : A.captures ≠ [] → (.synchronizeRecoveryStaging, none) ∈ done) :
    A.Ready s.history := by
  rintro kind (_ | path) hkind hkey
  · have hdomain := (AdmittedApplication.hasKey_domain kind).mp hkey
    cases kind with
    | synchronizeIncomingStaging => exact h.done _ (hincoming hdomain)
    | synchronizeRecoveryStaging =>
      exact h.done _ (hrecovery fun hnil => by simp [hnil] at hdomain)
    | captureOldObject | stageIncomingPayload => exact hdomain.elim
    | _ => cases hkind
  · rcases AdmittedApplication.hasKey_some hkey with ⟨stepKind, step, hstep, rfl, rfl⟩ | ⟨rfl, -⟩
    · cases stepKind with
      | captureOldObject =>
        rw [AdmittedApplication.steps_capture] at hstep
        obtain ⟨capture, hcapture, rfl⟩ := List.mem_map.mp hstep
        exact h.done _ (hcaptures ⟨_, List.mem_map_of_mem hcapture, rfl⟩)
      | stageRegularPayload => exact h.done _ (hstaged ⟨_, List.mem_map_of_mem hstep, rfl⟩)
      | publishRejectedObject | publishActiveObject | observeResult => cases hkind
    · cases hkind

/-- Preparation leaves the journal ready or abandoned. -/
theorem gates_prepareApplication (happ : app.Holds A) (h : Preparing A ∅ s) :
    A.Gates m (prepareApplication app request state) s (fun _ s' => Opened A s') := by
  refine gates_history (h.ofExcept fun _ _ => ?_)
  refine Gates.bind (gates_captureOldObjects h) fun captures s₁ hs₁ => ?_
  obtain ⟨h₁, hcaptured, -⟩ := hs₁
  split
  · exact Gates.bind (gates_failPreparation h₁) fun _ _ hs' => gates_pure hs'
  rename_i hcompleted
  refine Gates.bind (gates_stageIncomingPayloads h₁) fun sealed s₂ hs₂ => ?_
  obtain ⟨h₂, hstaged⟩ := hs₂
  dsimp only
  split
  · exact Gates.bind (gates_failPreparation h₂) fun _ _ hs' => gates_pure hs'
  rename_i hsealed
  refine Gates.bind (gates_synchronizeStaged h₂) fun incoming s₃ h₃ => ?_
  split
  · exact Gates.bind (gates_failPreparation h₃) fun _ _ hs' => gates_pure hs'
  rename_i hincoming
  refine Gates.bind (gates_synchronizeStaged h₃) fun recovery s₄ h₄ => ?_
  split
  · exact Gates.bind (gates_failPreparation h₄) fun _ _ hs' => gates_pure hs'
  rename_i hrecovery
  simp only [Bool.not_eq_true', Bool.not_eq_false] at hcompleted hincoming hrecovery
  refine Gates.bind (gates_finishPreparation h₄ (h₄.ready ?_ ?_ ?_ ?_)) fun _ _ hs' =>
    gates_pure hs'
  · rw [← happ.captures]
    exact fun x hx => .inl (.inl (.inl (.inr ⟨hcompleted, hx⟩)))
  · rintro x ⟨path, hpath, rfl⟩
    obtain ⟨step, hstep, rfl⟩ := List.mem_map.mp hpath
    have hattempted := hstaged (happ.hasPayloads.trans (A.hasPayloads_of_step hstep))
    refine .inl (.inl (.inr ⟨?_, _, happ.stepsOf ▸ hpath, rfl⟩))
    exact stagingDurability_visible hattempted hsealed
  · intro hpayloads
    exact .inl (.inr ⟨⟨hstaged (happ.hasPayloads.trans hpayloads), hincoming⟩, rfl⟩)
  · intro hne
    exact .inr ⟨⟨hcaptured (happ.captures ▸ hne), hrecovery⟩, rfl⟩

end Live

end PkgApply
