import PkgApply.Engine.Order
import PkgApply.Restart.Scopes

/-!
# Advancing in order

Every process of an application journals what is due and nothing else: it
intends an effect only when what must come before is completed, and undoes
exactly what its active effects changed, or may have.
-/

namespace PkgApply

open Library

/-! ## Rules -/

/-- A process stands past preparation, on a journal built in order. -/
structure Standing (A : AdmittedApplication) (s : EngineState) : Prop where
  built : A.Built s.history
  opened : Opened A s

/-- Where a process stands that stood at `s`. -/
structure Onward (A : AdmittedApplication) (s s' : EngineState) : Prop where
  standing : Standing A s'
  later : s.history.Later s'.history

/-- Wherever it is cut or ends, a process leaves a journal built in order. -/
def AdmittedApplication.Advances {α : Type} (A : AdmittedApplication) (m : Mechanisms)
    (p : Engine α) (s : EngineState) (Q : α → EngineState → Prop) : Prop :=
  p.Ensures (engineMachine m) s (fun a s' => A.Built s'.history ∧ Q a s')
    (fun _ s' => A.Built s'.history) (fun s' => A.Built s'.history)

section Rules

variable {A : AdmittedApplication} {m : Mechanisms} {s s' : EngineState} {scope : Scope}
  {α β : Type} {Q : α → EngineState → Prop} {R : β → EngineState → Prop} {P : α → Prop}

theorem Standing.appended (h : Standing A s) : JournalHistory.Appended s.history := h.built.appended

theorem Standing.declares (h : Standing A s) : A.Declares s.history := h.built.declares

theorem Standing.keyed (h : Standing A s) : s.history.Keyed := h.declares.keyed

/-- A journal that leaves the states before mutation is ready. -/
theorem Standing.ready (h : Standing A s) {t : Transition} (hp : s.history.Permits t)
    (hstate : t.state = .mutating) : A.Ready s.history := by
  have hedge := hp.edge
  rw [hstate] at hedge
  rcases h.opened.ready with habandoned | ⟨-, hready⟩
  · rw [habandoned] at hedge
    cases hedge
  · exact hready

/-- Whatever is called, what has ended is left alone. -/
theorem ensures_later (happended : JournalHistory.Appended s.history)
    (hdeclares : A.Declares s.history) (p : Engine α) :
    p.Ensures (engineMachine m) s (fun _ s' => s.history.Later s'.history) (fun _ _ => True)
      (fun _ => True) := by
  refine (Process.ensures_invariant (I := fun s' => JournalHistory.Appended s'.history ∧
    A.Declares s'.history ∧ s.history.Later s'.history) ?_ p ⟨happended, hdeclares, .refl _⟩).mono
      (fun _ _ h => h.2.2) (fun _ _ _ => trivial) (fun _ _ => trivial)
  rintro op s₁ s₂ r ⟨happended₁, hdeclares₁, hlater₁⟩ hop
  cases op with
  | mechanism request =>
    cases hop
    exact ⟨happended₁, hdeclares₁, hlater₁⟩
  | journal t =>
    simp only [engineMachine] at hop
    split at hop
    · rename_i h' htransition
      cases hop
      obtain ⟨hp, hf⟩ :=
        JournalHistory.permits_of_transition happended₁ hdeclares₁.keyed htransition
      exact ⟨hf.appended, hf.declaration.trans hdeclares₁, hlater₁.trans (hf.later hp)⟩
    · cases hop

theorem advances_pure {a : α} (h : Standing A s) (hQ : Q a s) :
    A.Advances m (pure a : Engine α) s Q := Process.ensures_pure.mpr ⟨h.built, hQ⟩

theorem advances_throw {e : Exn} (h : Standing A s) :
    A.Advances m (Process.throw e : Engine α) s Q := Process.ensures_throw.mpr h.built

theorem Advances.mono {Q' : α → EngineState → Prop} {p : Engine α} (hp : A.Advances m p s Q)
    (hQ : ∀ a s', Q a s' → Q' a s') : A.Advances m p s Q' :=
  Process.Ensures.mono hp (fun a s' h => ⟨h.1, hQ a s' h.2⟩) (fun _ _ h => h) (fun _ h => h)

/-- A process leaves alone what has ended. -/
theorem Advances.later {p : Engine α} (hp : A.Advances m p s Q) (h : A.Built s.history) :
    A.Advances m p s fun a s' => Q a s' ∧ s.history.Later s'.history :=
  (Process.Ensures.and hp (ensures_later h.appended h.declares p)).mono
    (fun _ _ hx => ⟨hx.1.1, hx.1.2, hx.2⟩) (fun _ _ hx => hx.1) (fun _ hx => hx.1)

/-- A process that stands ends onward. -/
theorem Standing.onward {p : Engine α} (h : Standing A s) (hp : A.Advances m p s Q) :
    A.Advances m p s fun a s' => Q a s' ∧ Onward A s s' := by
  refine (Process.Ensures.and (Advances.later hp h.built) (h.opened.gates p)).mono ?_
    (fun _ _ hx => hx.1) (fun _ hx => hx.1)
  rintro a s' ⟨⟨hbuilt, hQ, hlater⟩, hopened⟩
  exact ⟨hbuilt, hQ, ⟨hbuilt, hopened⟩, hlater⟩

/-- Sequencing: the second process starts onward of the first. -/
theorem Standing.bind {p : Engine α} {f : α → Engine β} (h : Standing A s)
    (hp : A.Advances m p s Q)
    (hf : ∀ a s', Q a s' → Onward A s s' → A.Advances m (f a) s' R) :
    A.Advances m (p >>= f) s R :=
  Process.Ensures.bind (h.onward hp) fun a s' hx => hf a s' hx.2.1 hx.2.2

/-- A process within a scope keeps what is outside of it. -/
theorem Advances.kept (scope : Scope) {p : Engine α} (hp : A.Advances m p s Q) (h : A.Built s.history)
    (hwithin : p.Orderly (within scope)) :
    A.Advances m p s (fun a s' => Q a s' ∧ Kept scope s s') :=
  (Process.Ensures.and hp (ensures_kept hwithin h.appended h.declares)).mono
    (fun _ _ hx => ⟨hx.1.1, hx.1.2, hx.2.2.2⟩) (fun _ _ hx => hx.1) (fun _ hx => hx.1)

/-- What a process yields is known where it returns. -/
theorem Advances.yields {p : Engine α} (hp : A.Advances m p s Q) (hyields : p.Yields P) :
    A.Advances m p s (fun a s' => Q a s' ∧ P a) :=
  (Process.Ensures.and hp hyields.ensures).mono (fun _ _ hx => ⟨hx.1.1, hx.1.2, hx.2⟩)
    (fun _ _ hx => hx.1) (fun _ hx => hx.1)

theorem advances_history {f : JournalHistory → Engine α}
    (hf : A.Advances m (f s.history) s Q) : A.Advances m (Engine.history >>= f) s Q :=
  ensures_history hf

theorem Standing.ofExcept {x : Except Exn β} {f : β → Engine α} (h : Standing A s)
    (hf : ∀ b, x = .ok b → A.Advances m (f b) s Q) :
    A.Advances m ((liftM x : Engine β) >>= f) s Q := by
  cases hx : x with
  | ok b => exact hf b hx
  | error e => exact Process.ensures_throw.mpr h.built

/-- A computation that ends a process. -/
theorem Standing.value {x : Except Exn α} (h : Standing A s) (hQ : ∀ a, x = .ok a → Q a s) :
    A.Advances m (liftM x : Engine α) s Q :=
  Process.ensures_ofExcept.mpr ⟨fun a ha => ⟨h.built, hQ a ha⟩, fun _ _ => h.built⟩

theorem Standing.mechanism {request : MechanismRequest} {f : request.Response → Engine α}
    (h : Standing A s) (hf : ∀ s', s'.history = s.history → Standing A s' →
      A.Advances m (f (m request)) s' Q) : A.Advances m (Engine.mechanism request >>= f) s Q := by
  have hcalled : Standing A ⟨s.history, s.log ++ [⟨.mechanism request, m request⟩]⟩ :=
    ⟨h.built, h.opened.appended, h.opened.declares, h.opened.ready⟩
  exact (Process.ensures_call_ok (M := engineMachine m) rfl).mpr
    ⟨h.built, hcalled.built, hf _ rfl hcalled⟩

/-- A transition that is due leads on. -/
theorem Standing.journal {t : Transition} {f : Unit → Engine α} (h : Standing A s)
    (hdue : s.history.Permits t → A.Due s.history t)
    (hf : ∀ s', s.history.Permits t → s.history.Follows t s'.history → Onward A s s' →
      A.Advances m (f ()) s' Q) : A.Advances m (Engine.journal t >>= f) s Q := by
  cases htransition : s.history.transition t with
  | error e =>
    have hop : (engineMachine m).perform (.journal t) s = .error e := by
      simp only [engineMachine, htransition]
    exact (Process.ensures_call_error hop).mpr ⟨h.built, h.built⟩
  | ok h' =>
    have hop : (engineMachine m).perform (.journal t) s =
        .ok ((), ⟨h', s.log ++ [⟨.journal t, ()⟩]⟩) := by
      simp only [engineMachine, htransition]
    obtain ⟨hp, hfollows⟩ := JournalHistory.permits_of_transition h.appended h.keyed htransition
    have hs' : Onward A s ⟨h', s.log ++ [⟨.journal t, ()⟩]⟩ :=
      ⟨⟨h.built.extend (hdue hp) hp hfollows, h.opened.follows hp hfollows⟩, hfollows.later hp⟩
    exact (Process.ensures_call_ok hop).mpr
      ⟨h.built, hs'.standing.built, hf _ hp hfollows hs'⟩

/-- A state is entered; visible effects while nothing is being recovered. -/
theorem Standing.enter {state : JournalState} {f : Unit → Engine α} (h : Standing A s)
    (hstate : state ≠ .abandoned) (hcalm : state = .effectsVisible → s.history.Calm)
    (hf : ∀ s', s'.history.state = state →
      (∀ kind path, s'.history.slot kind path = s.history.slot kind path) → Onward A s s' →
        A.Advances m (f ()) s' Q) : A.Advances m (publishState state >>= f) s Q := by
  have hnone : ∀ e : TransitionEvent, none = some e → False := fun _ he =>
    Option.some_ne_none _ he.symm
  refine h.journal (fun _ => ⟨⟨?_, fun _ hx => absurd hx hstate, ?_⟩, ?_, fun hx _ => hcalm hx⟩)
    fun s' _ hfollows hs' => hf s' hfollows.state_eq ?_ hs'
  · exact fun e he => (hnone e he).elim
  · exact fun _ hr => (Option.some_ne_none _ hr.symm).elim
  · exact fun e he => (hnone e he).elim
  · exact fun kind path => hfollows.slot_of_kind fun e he => (hnone e he).elim

/-- A failure may be sealed anywhere. -/
theorem Standing.fail {state : JournalState} {r : ApplicationReceipt} {f : Unit → Engine α}
    (h : Standing A s) (hr : r.outcome ≠ .completed)
    (hf : ∀ s', Onward A s s' → A.Advances m (f ()) s' Q) :
    A.Advances m (publishState state (some r) >>= f) s Q := by
  refine h.journal (fun _ => ⟨⟨?_, ?_, ?_⟩, ?_, ?_⟩) fun s' _ _ hs' => hf s' hs'
  · exact fun e he => (Option.some_ne_none _ he.symm).elim
  · exact fun hnone => (Option.some_ne_none _ hnone).elim
  · exact fun _ hsome hcompleted => absurd (Option.some.inj hsome ▸ hcompleted) hr
  · exact fun e he => (Option.some_ne_none _ he.symm).elim
  · exact fun _ hnone => (Option.some_ne_none _ hnone).elim

/-- An event of an effect outside of observation, at home in its state. -/
private theorem due_event {state : JournalState} {effect : JournalEffect} {event : EventKind}
    {evidence : Evidence} {fact : Option ReplayFact} (hhome : effect.kind.home = some state)
    (hstate : state ≠ .effectsVisible)
    (hmay : event = .intent → A.MayIntend s.history effect.kind effect.path) :
    A.Due s.history ⟨state, some ⟨effect, event, evidence⟩, fact, none, none⟩ := by
  have hsame : ∀ e : TransitionEvent, some ⟨effect, event, evidence⟩ = some e →
      ⟨effect, event, evidence⟩ = e := fun _ he => Option.some.inj he
  refine ⟨⟨?_, fun _ hx => absurd hx (EffectKind.home_ne_abandoned hhome), ?_⟩, ?_,
    fun hx => absurd hx hstate⟩
  · intro e he state' hstate'
    rw [← hsame e he] at hstate'
    exact Option.some.inj (hhome.symm.trans hstate')
  · exact fun _ hr => (Option.some_ne_none _ hr.symm).elim
  · intro e he hintent
    rw [← hsame e he] at hintent ⊢
    exact hmay hintent

/-- An effect that may be intended is left unresolved. -/
theorem Standing.intend {state : JournalState} {effect : JournalEffect} {f : Unit → Engine α}
    (h : Standing A s) (hhome : effect.kind.home = some state) (hstate : state ≠ .effectsVisible)
    (hmay : (state = .mutating → A.Ready s.history) →
      A.MayIntend s.history effect.kind effect.path)
    (hf : ∀ s', s'.history.slot effect.kind effect.path = .unresolved → Onward A s s' →
      A.Advances m (f ()) s' Q) : A.Advances m (publishEvent state effect .intent >>= f) s Q := by
  refine h.journal (fun hp => due_event hhome hstate fun _ => hmay (h.ready hp)) ?_
  intro s' hp hfollows hs'
  refine hf s' ?_ hs'
  have hfresh : s.history.ledger.slot effect.kind effect.path = .untouched := hp.fresh _ rfl rfl
  have hself := Ledger.step_slot_self (l := s.history.ledger)
    (t := ⟨state, some ⟨effect, .intent, ∅⟩, none, none, none⟩) rfl
  rw [hfollows.slot_eq, hself, hfresh]
  rfl

/-- A terminal event ends its effect. -/
theorem Standing.finish {state : JournalState} {effect : JournalEffect} {terminal : EventKind}
    {evidence : Evidence} {fact : Option ReplayFact} {f : Unit → Engine α} (h : Standing A s)
    (hhome : effect.kind.home = some state) (hstate : state ≠ .effectsVisible)
    (hterminal : terminal ≠ .intent)
    (hf : ∀ s', s'.history.slot effect.kind effect.path = ⟨true, some ⟨terminal, evidence, fact⟩⟩ →
      Onward A s s' → A.Advances m (f ()) s' Q) :
    A.Advances m (publishEvent state effect terminal evidence fact >>= f) s Q := by
  refine h.journal (fun _ => due_event hhome hstate fun hintent => absurd hintent hterminal) ?_
  intro s' hp hfollows hs'
  refine hf s' ?_ hs'
  have hopen : s.history.ledger.slot effect.kind effect.path = .unresolved :=
    hp.unresolved _ rfl hterminal
  have hself := Ledger.step_slot_self (l := s.history.ledger)
    (t := ⟨state, some ⟨effect, terminal, evidence⟩, fact, none, none⟩) rfl
  rw [hfollows.slot_eq, hself, hopen]
  exact Slot.note_terminal hterminal _ _

/-- A state is left for one that only names what interrupted. -/
theorem Standing.leave {indeterminate : Bool} {f : Unit → Engine α} (h : Standing A s)
    (hf : ∀ s', (∀ kind path, s'.history.slot kind path = s.history.slot kind path) →
      Onward A s s' → A.Advances m (f ()) s' Q) :
    A.Advances m (publishState (if indeterminate then .indeterminate else .recoveryPending) >>= f)
      s Q := by
  refine h.enter ?_ ?_ fun s' _ hslots hs' => hf s' hslots hs'
  · cases indeterminate <;> exact JournalState.noConfusion
  · intro hvisible
    cases indeterminate <;> cases hvisible

end Rules

/-! ## Parts that touch neither mutation nor recovery -/

section Kept

variable {A : AdmittedApplication} {m : Mechanisms} {s s' : EngineState} {scope : Scope} {α : Type}

theorem Kept.calm (h : Kept scope s s') (hrecovering : ¬scope.homes .recovering)
    (hcalm : s.history.Calm) : s'.history.Calm := by
  intro path
  unfold JournalHistory.Touched
  rw [h.slots .recoverActiveObject path _ rfl hrecovering]
  exact hcalm path

theorem Kept.mutated (h : Kept scope s s') (hmutating : ¬scope.homes .mutating)
    (hmutated : A.Mutated s.history) : A.Mutated s'.history := by
  intro path hpath
  unfold JournalHistory.Done JournalHistory.EndedWith
  rw [h.slots .publishActiveObject (some path) _ rfl hmutating]
  exact hmutated path hpath

theorem Kept.undone (h : Kept scope s s') (hmutating : ¬scope.homes .mutating) :
    A.undone s'.history = A.undone s.history :=
  AdmittedApplication.undone_congr fun path => h.slots .publishActiveObject path _ rfl hmutating

/-- What neither mutates nor recovers is due while nothing is being recovered. -/
theorem Transition.Within.due {t : Transition} {h : JournalHistory} (ht : t.Within scope h)
    (hmutating : ¬scope.homes .mutating) (hrecovering : ¬scope.homes .recovering)
    (hcalm : h.Calm) (hmutated : scope.homes .resultObserved → A.Mutated h) : A.Due h t := by
  refine ⟨ht.inPhase, fun e he _ => ?_, fun _ _ => hcalm⟩
  have hhome := ht.home e he
  cases hkind : e.effect.kind <;> rw [hkind] at hhome
  case publishRejectedObject => exact absurd (hhome _ rfl) hmutating
  case publishActiveObject => exact absurd (hhome _ rfl) hmutating
  case synchronizeActiveNamespace => exact absurd (hhome _ rfl) hmutating
  case publishCompletedEvidence => exact ⟨hmutated (hhome _ rfl), hcalm⟩
  case synchronizeCompletedEvidence => exact ⟨hmutated (hhome _ rfl), hcalm⟩
  case recoverActiveObject => exact absurd (hhome _ rfl) hrecovering
  all_goals exact trivial

/-- A process that neither mutates nor recovers advances. -/
theorem advances_within {p : Engine α} (hwithin : p.Orderly (within scope))
    (hmutating : ¬scope.homes .mutating) (hrecovering : ¬scope.homes .recovering)
    (hb : A.Built s.history) (hcalm : s.history.Calm)
    (hmutated : scope.homes .resultObserved → A.Mutated s.history) :
    A.Advances m p s fun _ s' => Kept scope s s' := by
  refine (Process.Obeys.ensures (D := within scope)
    (I := fun _ s' => A.Built s'.history ∧ Kept scope s s') ?_ ⟨hb, .refl _ _⟩ trivial
      (hwithin none _ trivial)).mono (fun _ _ ⟨_, hx⟩ => hx) (fun _ _ ⟨_, hx⟩ => hx.1)
        (fun _ ⟨_, hx⟩ => hx.1)
  rintro last s₁ op r s₂ ⟨hb₁, hkept₁⟩ - hop hperform
  obtain ⟨-, -, hkept₂⟩ := Kept.perform hb₁.appended hb₁.declares hop hperform
  refine ⟨⟨?_, hkept₁.trans hkept₂⟩, trivial⟩
  cases op with
  | mechanism request =>
    cases hperform
    exact hb₁
  | journal t =>
    simp only [engineMachine] at hperform
    split at hperform
    · rename_i h' htransition
      cases hperform
      obtain ⟨hp, hf⟩ :=
        JournalHistory.permits_of_transition hb₁.appended hb₁.declares.keyed htransition
      refine hb₁.extend (hop.due hmutating hrecovering (hkept₁.calm hrecovering hcalm) ?_) hp hf
      exact fun hresult => hkept₁.mutated hmutating (hmutated hresult)
    · cases hperform

end Kept

/-! ## Rejected publication -/

section Rejected

variable {A : AdmittedApplication} {m : Mechanisms} {s : EngineState}
  {prepared : PreparedApplication} {state : LeaseBoundStateProjection}
  {effects : List RejectedEffectResult} {status : DurabilityStatus} {evidence : Evidence}

/-- A synchronization that is attempted ends. -/
theorem advances_synchronizeDomain {js : JournalState} {kind : EffectKind}
    {domain : DurabilityDomain} {mismatch unattempted : String} (h : Standing A s)
    (hhome : kind.home = some js) (hstate : js ≠ .effectsVisible)
    (hmay : A.MayIntend s.history kind none) :
    A.Advances m (synchronizeDomain js kind domain mismatch unattempted) s fun _ s' =>
      ∃ terminal, s'.history.EndedWith kind none terminal := by
  refine advances_history (h.ofExcept fun effect heffect => ?_)
  obtain ⟨-, hkind, hpath⟩ := findEffect_spec heffect
  have hat : effect.kind.home = some js := home_of_findEffect heffect hhome
  refine h.intend hat hstate (fun _ => ?_) fun s₁ _ h₁ => ?_
  · rwa [hkind, hpath]
  refine h₁.standing.mechanism fun s₂ _ h₂ => ?_
  refine h₂.ofExcept fun _ _ => h₂.ofExcept fun terminal hterminal => ?_
  refine h₂.finish hat hstate (synchronizationEvent_ne_intent hterminal) fun s₃ hslot h₃ => ?_
  refine advances_pure h₃.standing ⟨terminal, ?_⟩
  rw [← hkind, ← hpath, JournalHistory.EndedWith, hslot]
  rfl

/-- A publication that completes is done. -/
theorem advances_executeRejectedEffect {plan : OperationPlan} {step : EffectStep}
    (h : Standing A s) :
    A.Advances m (executeRejectedEffect prepared plan step) s fun effect s' =>
      effect.result.outcome = .completed →
        s'.history.Done .publishRejectedObject (some step.path) := by
  refine h.ofExcept fun command _ => h.ofExcept fun _ _ => ?_
  refine advances_history (h.ofExcept fun effect heffect => ?_)
  obtain ⟨-, hkind, hpath⟩ := findEffect_spec heffect
  have hhome : effect.kind.home = some .mutating := home_of_findEffect heffect rfl
  refine h.intend hhome JournalState.noConfusion (fun hready => ?_) fun s₁ _ h₁ => ?_
  · rw [hkind]
    exact hready rfl
  refine h₁.standing.mechanism fun s₂ _ h₂ => h₂.ofExcept fun terminal hterminal => ?_
  refine h₂.finish hhome JournalState.noConfusion (terminalEvent_ne_intent hterminal)
    fun s₃ hslot h₃ => ?_
  refine advances_pure h₃.standing fun hcompleted => ?_
  rw [← hkind, ← hpath, JournalHistory.Done, JournalHistory.EndedWith, hslot]
  exact congrArg some ((terminalEvent_completed_iff hterminal).mpr hcompleted)

theorem advances_failRejectedPublication {request : ApplicationRequest} {outcome : AttemptOutcome}
    {recovery : RecoveryState} (h : Standing A s) :
    A.Advances m (failRejectedPublication prepared request state effects outcome recovery status
      evidence) s fun _ _ => True := by
  refine h.ofExcept fun paths _ => advances_history (h.ofExcept fun receipt hreceipt => ?_)
  exact h.fail (failed_outcome hreceipt) fun s' hs' => advances_pure hs'.standing trivial

theorem advances_failRejectedEffect {request : ApplicationRequest}
    {outcome : BackendOperationOutcome} (h : Standing A s) :
    A.Advances m (failRejectedEffect prepared request state effects outcome status evidence) s
      fun _ _ => True := by
  unfold failRejectedEffect
  split <;> exact advances_failRejectedPublication h

theorem advances_failRejectedSynchronization {request : ApplicationRequest} (h : Standing A s) :
    A.Advances m (failRejectedSynchronization prepared request state effects status evidence) s
      fun _ _ => True := by
  unfold failRejectedSynchronization
  split <;> exact advances_failRejectedPublication h

/-- Every publication of some steps is done, each with its result. -/
def PublishedSteps (h : JournalHistory) (steps : List EffectStep) (before after : Nat) : Prop :=
  (∀ step ∈ steps, h.Done .publishRejectedObject (some step.path)) ∧ after = before + steps.length

theorem PublishedSteps.cons {h h' : JournalHistory} {step : EffectStep} {rest : List EffectStep}
    {before after : Nat} (hstep : h.Done .publishRejectedObject (some step.path))
    (hl : h.Later h') (hrest : PublishedSteps h' rest (before + 1) after) :
    PublishedSteps h' (step :: rest) before after := by
  refine ⟨?_, ?_⟩
  · intro x hx
    rcases List.mem_cons.mp hx with rfl | hx
    · exact hl.done hstep
    · exact hrest.1 x hx
  · rw [hrest.2, List.length_cons]
    omega

theorem advances_executeRejected {request : ApplicationRequest} (steps : List EffectStep)
    (h : Standing A s) :
    A.Advances m (executeRejected prepared request state steps effects) s fun result s' =>
      ∀ effects', result = .inr effects' →
        PublishedSteps s'.history steps effects.length effects'.length := by
  induction steps generalizing effects s with
  | nil =>
    refine advances_pure h fun effects' hresult => ?_
    cases hresult
    exact ⟨fun _ hx => absurd hx List.not_mem_nil, rfl⟩
  | cons step rest ih =>
    refine h.bind (advances_executeRejectedEffect h) fun effect s₁ hdone h₁ => ?_
    dsimp only
    split
    · rename_i hcompleted
      refine Advances.mono (h₁.standing.onward (ih h₁.standing)) fun result s₂ hrest => ?_
      intro effects' hresult
      have hpublished := hrest.1 effects' hresult
      rw [List.length_append, List.length_singleton] at hpublished
      exact hpublished.cons (hdone hcompleted) hrest.2.later
    · exact h₁.standing.bind (advances_failRejectedEffect h₁.standing) fun _ s₂ _ h₂ =>
        advances_pure h₂.standing fun _ hx => nomatch hx

/-- Where rejected publication is attempted, so is its synchronization. -/
theorem advances_synchronizeRejectedStore {control : ExecutionControl} (h : Standing A s) :
    A.Advances m (synchronizeRejectedStore control effects) s fun _ s' =>
      effects ≠ [] → requiresDomainSynchronization control = true →
        ∃ terminal, s'.history.EndedWith .synchronizeRejectedStore none terminal := by
  unfold synchronizeRejectedStore
  split
  · refine h.bind (advances_synchronizeDomain h rfl JournalState.noConfusion trivial)
      fun _ s₁ hended h₁ => ?_
    exact advances_pure h₁.standing fun _ _ => hended
  · rename_i hskipped
    refine advances_pure h fun hne hcontrol => ?_
    rw [hcontrol, Bool.and_true, Bool.not_eq_true', List.isEmpty_eq_false_iff] at hskipped
    exact absurd hne hskipped

/-- What is published and synchronized is settled. -/
theorem PublishedSteps.settled {h : JournalHistory} {after : Nat}
    (hpublished : PublishedSteps h (A.steps .publishRejectedObject) 0 after)
    (hsynchronized : after ≠ 0 → A.allDomains = true →
      ∃ terminal, h.EndedWith .synchronizeRejectedStore none terminal) : A.RejectedSettled h := by
  obtain ⟨hdone, hlength⟩ := hpublished
  refine ⟨?_, fun hkey => ?_⟩
  · intro path hpath
    obtain ⟨step, hstep, rfl⟩ := List.mem_map.mp hpath
    exact hdone step hstep
  · obtain ⟨hrejected, hdomains⟩ := (A.hasKey_domain .synchronizeRejectedStore).mp hkey
    have hne := List.length_pos_iff.mpr ((A.hasRejectedEffect_iff).mp hrejected)
    exact hsynchronized (by omega) hdomains

theorem rejectedPublished_make_eq_ok {js : JournalState} {r r' : RejectedPublishedApplication}
    (hok : RejectedPublishedApplication.make js r = .ok r') : r' = r := by
  unfold RejectedPublishedApplication.make at hok
  simp only [refuseIf_bind_eq_ok, pure, Except.pure, Except.ok.injEq] at hok
  exact hok.2.2.2.2.2.2.symm

/-- The rejected phase settles rejected publication, or ends in a receipt. -/
theorem advances_publishRejected (happ : prepared.journaled.Holds A) (h : Standing A s) :
    A.Advances m (publishRejected prepared A.request state) s fun result s' =>
      ∀ published, result = .inr published →
        A.RejectedSettled s'.history ∧ published.prepared = prepared := by
  refine advances_history (h.ofExcept fun _ _ => ?_)
  refine h.enter JournalState.noConfusion JournalState.noConfusion fun s₁ _ _ h₁ => ?_
  refine h₁.standing.bind (advances_executeRejected _ h₁.standing) fun result s₂ hresult h₂ => ?_
  cases result with
  | inl receipt => exact advances_pure h₂.standing fun _ hx => nomatch hx
  | inr effects =>
    refine h₂.standing.bind (advances_synchronizeRejectedStore h₂.standing)
      fun status s₃ hsynchronized h₃ => ?_
    have hpublished := hresult effects rfl
    rw [happ.stepsOf] at hpublished
    have hsettled : A.RejectedSettled s₃.history := by
      refine PublishedSteps.settled ⟨fun step hstep => h₃.later.done (hpublished.1 step hstep),
        hpublished.2⟩ fun hne => hsynchronized ?_
      rintro rfl
      exact hne rfl
    dsimp only
    split
    · refine advances_history (h₃.standing.ofExcept fun published hok => ?_)
      refine advances_pure h₃.standing fun published' hx => ⟨hsettled, ?_⟩
      cases hx
      rw [rejectedPublished_make_eq_ok hok]
    · exact h₃.standing.bind (advances_failRejectedSynchronization h₃.standing)
        fun _ s₄ _ h₄ => advances_pure h₄.standing fun _ hx => nomatch hx

end Rejected

/-! ## Results of active effects -/

/-- A result tells what the journal holds of its effect. -/
structure ActiveEffectResult.Tells (e : ActiveEffectResult) (h : JournalHistory) : Prop where
  disturbed : (h.slot .publishActiveObject (some e.request.path)).disturbed = e.recoverable
  done : h.Done .publishActiveObject (some e.request.path) ↔ e.semanticallyComplete = true

/-- Results account for the active effects in schedule order, up to the rest. -/
structure Accounts (A : AdmittedApplication) (h : JournalHistory)
    (effects : List ActiveEffectResult) (rest : List PackagePath) : Prop where
  paths : A.activePaths = effects.map (fun e => e.request.path) ++ rest
  told : ∀ e ∈ effects, e.Tells h

/-- Results that account for completed effects only. -/
structure Completed (A : AdmittedApplication) (h : JournalHistory)
    (effects : List ActiveEffectResult) (rest : List PackagePath) : Prop extends
    Accounts A h effects rest where
  complete : ∀ e ∈ effects, e.semanticallyComplete = true

/-- Recovery from some results undoes what the journal holds. -/
def AdmittedApplication.Reports (A : AdmittedApplication) (h : JournalHistory)
    (effects : List ActiveEffectResult) : Prop :=
  A.undone h = (recoveryCandidates effects).map fun e => e.request.path

section Results

variable {A : AdmittedApplication} {h h' : JournalHistory} {plan : OperationPlan}
  {step : EffectStep} {command : BackendActiveEffectRequest} {result : BackendOperationResult}
  {effects : List ActiveEffectResult} {e : ActiveEffectResult} {path : PackagePath}
  {rest : List PackagePath}

/-- Active commands are for effects that change the target. -/
theorem activeEffectRequest_required (hok : activeEffectRequest plan step = .ok command) :
    activeMechanismRequired command.outcome = true := by
  unfold activeEffectRequest at hok
  cases hd : plan.decision step.path with
  | none => simp [hd, throw, throwThe, MonadExceptOf.throw] at hok
  | some d =>
    have hmake : ∀ {outcome entry}, activeMechanismRequired outcome = true →
        BackendActiveEffectRequest.make d.path outcome entry = .ok command →
          activeMechanismRequired command.outcome = true := by
      intro outcome entry hrequired hmade
      unfold BackendActiveEffectRequest.make at hmade
      split at hmade
      · cases hmade
      · cases hmade
        exact hrequired
    simp only [hd] at hok
    split at hok
    · rename_i hactive
      exact hmake (by rw [hactive]; rfl) (refuseIf_bind_eq_ok.mp hok).2
    · rename_i hactive
      exact hmake (by rw [hactive]; rfl) (refuseIf_bind_eq_ok.mp hok).2
    · rename_i hactive
      exact hmake (by rw [hactive]; rfl) (refuseIf_bind_eq_ok.mp hok).2
    · cases hok
    · cases hok

/-- An effect that ended tells by the result it retains. -/
theorem tells_of_ended {terminal : EventKind} {evidence : Evidence}
    (hok : activeEffectRequest plan step = .ok command)
    (hterminal : activeTerminalEvent result.outcome = .ok terminal)
    (hslot : h.slot .publishActiveObject (some step.path) =
      ⟨true, some ⟨terminal, evidence, some (.activeEffect path result)⟩⟩) :
    (ActiveEffectResult.mk command result).Tells h := by
  have hpath := activeEffectRequest_path hok
  have hrequired := activeEffectRequest_required hok
  constructor
  · simp only [hpath, hslot, Slot.disturbed, ActiveEffectResult.recoverable,
      ActiveEffectResult.changedTarget, hrequired, Bool.and_true, Bool.true_and]
  · simp only [hpath, JournalHistory.Done, JournalHistory.EndedWith, hslot, Option.map_some,
      Option.some.injEq, ActiveEffectResult.semanticallyComplete]
    cases houtcome : result.outcome <;> rw [houtcome] at hterminal <;> cases hterminal <;> simp

/-- An effect left without a terminal event tells that it is indeterminate. -/
theorem tells_of_unresolved {evidence : Evidence}
    (hok : activeEffectRequest plan step = .ok command)
    (hslot : h.slot .publishActiveObject (some step.path) = .unresolved) :
    (ActiveEffectResult.mk command ⟨.indeterminate, evidence⟩).Tells h := by
  have hpath := activeEffectRequest_path hok
  constructor
  · rw [hpath, hslot]
    simp [ActiveEffectResult.recoverable]
  · simp [hpath, JournalHistory.Done, JournalHistory.EndedWith, hslot,
      ActiveEffectResult.semanticallyComplete]

theorem activeEffectResult_make_eq_ok {result : BackendOperationResult}
    (hok : ActiveEffectResult.make command result = .ok e) : e = ⟨command, result⟩ := by
  unfold ActiveEffectResult.make at hok
  simp only [refuseIf_bind_eq_ok, pure, Except.pure, Except.ok.injEq] at hok
  exact hok.2.symm

theorem ActiveEffectResult.Tells.congr (ht : e.Tells h)
    (hslot : h'.slot .publishActiveObject (some e.request.path) =
      h.slot .publishActiveObject (some e.request.path)) : e.Tells h' := by
  constructor
  · rw [hslot]
    exact ht.disturbed
  · unfold JournalHistory.Done JournalHistory.EndedWith
    rw [hslot]
    exact ht.done

/-- Results that account for every touched effect report them. -/
theorem Accounts.reports (ha : Accounts A h effects rest)
    (hrest : ∀ p ∈ rest, (h.slot .publishActiveObject (some p)).disturbed = false) :
    A.Reports h effects := by
  have htold : effects.filter (fun e =>
      (h.slot .publishActiveObject (some e.request.path)).disturbed) =
        effects.filter ActiveEffectResult.recoverable :=
    List.filter_congr fun e he => (ha.told e he).disturbed
  have hnil : rest.filter (fun p => (h.slot .publishActiveObject (some p)).disturbed) = [] := by
    rw [List.filter_eq_nil_iff]
    intro p hp
    rw [hrest p hp]
    exact Bool.false_ne_true
  unfold AdmittedApplication.Reports AdmittedApplication.undone recoveryCandidates
  rw [ha.paths, List.filter_append, hnil, List.append_nil, List.filter_map, ← List.map_reverse,
    List.filter_reverse]
  exact congrArg (fun l => l.reverse.map fun e : ActiveEffectResult => e.request.path) htold

/-- Behind a result that is not complete nothing has been touched. -/
theorem Accounts.reports_of_stopped (ha : Accounts A h (effects ++ [e]) rest) (ho : A.Ordered h)
    (hincomplete : ¬e.semanticallyComplete = true) : A.Reports h (effects ++ [e]) := by
  refine ha.reports fun p hp => ?_
  have hactive := ho.active
  rw [ha.paths, List.map_append, List.append_assoc, List.map_singleton, List.singleton_append]
    at hactive
  have hnot := hactive.not_begun (fun hdone => hincomplete ((ha.told e (by simp)).done.mp hdone)) hp
  unfold Slot.disturbed
  rw [Bool.eq_false_iff.mpr hnot, Bool.false_and]

namespace Completed

/-- Before anything is executed. -/
theorem start (A : AdmittedApplication) (h : JournalHistory) : Completed A h [] A.activePaths :=
  ⟨⟨rfl, fun _ he => absurd he List.not_mem_nil⟩, fun _ he => absurd he List.not_mem_nil⟩

/-- What is completed is left alone. -/
theorem later (hc : Completed A h effects rest) (hl : h.Later h') :
    Completed A h' effects rest := by
  refine ⟨⟨hc.paths, fun e he => (hc.told e he).congr (hl _ _ ?_)⟩, hc.complete⟩
  obtain ⟨ended, hended, -⟩ :=
    Option.map_eq_some_iff.mp ((hc.told e he).done.mpr (hc.complete e he))
  rw [hended]
  rfl

variable (hc : Completed A h effects (path :: rest))
include hc

/-- The next effect is the one whose turn it is. -/
theorem turn : Turn (fun q => h.Done .publishActiveObject (some q)) A.activePaths path := by
  refine ⟨_, rest, hc.paths, fun q hq => ?_⟩
  obtain ⟨e, he, rfl⟩ := List.mem_map.mp hq
  exact (hc.told e he).done.mpr (hc.complete e he)

/-- The result of the next effect is accounted for. -/
theorem next (hl : h.Later h') (hpath : e.request.path = path) (ht : e.Tells h') :
    Accounts A h' (effects ++ [e]) rest := by
  refine ⟨?_, fun x hx => ?_⟩
  · rw [hc.paths, List.map_append, List.append_assoc, List.map_singleton, hpath,
      List.singleton_append]
  · rcases List.mem_append.mp hx with hx | hx
    · exact (hc.later hl).told x hx
    · rw [List.mem_singleton.mp hx]
      exact ht

theorem extend (hl : h.Later h') (hpath : e.request.path = path) (ht : e.Tells h')
    (hcomplete : e.semanticallyComplete = true) : Completed A h' (effects ++ [e]) rest := by
  refine ⟨hc.next hl hpath ht, fun x hx => ?_⟩
  rcases List.mem_append.mp hx with hx | hx
  · exact hc.complete x hx
  · rwa [List.mem_singleton.mp hx]

end Completed

theorem Completed.mutated (hc : Completed A h effects []) : A.Mutated h := by
  intro path hpath
  rw [hc.paths, List.append_nil] at hpath
  obtain ⟨e, he, rfl⟩ := List.mem_map.mp hpath
  exact (hc.told e he).done.mpr (hc.complete e he)

theorem Completed.reports (hc : Completed A h effects []) : A.Reports h effects :=
  hc.toAccounts.reports fun _ hp => absurd hp List.not_mem_nil

theorem reports_congr (hr : A.Reports h effects) (hundone : A.undone h' = A.undone h) :
    A.Reports h' effects := hundone.trans hr

end Results

/-! ## Active mutation -/

section Active

variable {A : AdmittedApplication} {m : Mechanisms} {s s' : EngineState}
  {prepared : PreparedApplication} {rejected : RejectedPublishedApplication}
  {request : ApplicationRequest} {state : LeaseBoundStateProjection}
  {effects : List ActiveEffectResult} {status : DurabilityStatus} {evidence : Evidence}

/-- What an active phase that ends tells of its journal. -/
def Executed (A : AdmittedApplication) (s : EngineState) : ActiveExecution → Prop
  | .inl interrupted => A.Reports s.history interrupted.effects
  | .inr active => A.Mutated s.history ∧ A.Reports s.history active.effects

theorem advances_executeActiveEffect {plan : OperationPlan} {step : EffectStep}
    (h : Standing A s) (hsettled : A.RejectedSettled s.history)
    (hturn : Turn (fun q => s.history.Done .publishActiveObject (some q)) A.activePaths step.path) :
    A.Advances m (executeActiveEffect prepared plan step) s fun e s' =>
      e.request.path = step.path ∧ e.Tells s'.history := by
  refine h.ofExcept fun command hcommand => h.ofExcept fun _ _ => ?_
  refine advances_history (h.ofExcept fun effect heffect => ?_)
  obtain ⟨-, hkind, hpath⟩ := findEffect_spec heffect
  have hhome : effect.kind.home = some .mutating := home_of_findEffect heffect rfl
  refine h.intend hhome JournalState.noConfusion (fun hready => ?_) fun s₁ _ h₁ => ?_
  · rw [hkind]
    exact ⟨hready rfl, hsettled, step.path, hpath, hturn⟩
  refine h₁.standing.mechanism fun s₂ _ h₂ => h₂.ofExcept fun e he => ?_
  refine h₂.ofExcept fun terminal hterminal => ?_
  refine h₂.finish hhome JournalState.noConfusion (activeTerminalEvent_ne_intent hterminal)
    fun s₃ hslot h₃ => ?_
  rw [hkind, hpath] at hslot
  rw [activeEffectResult_make_eq_ok he]
  exact advances_pure h₃.standing
    ⟨activeEffectRequest_path hcommand, tells_of_ended hcommand hterminal hslot⟩

theorem activeInterrupted_make_eq_ok {js : JournalState} {i i' : ActiveInterruptedApplication}
    (hok : ActiveInterruptedApplication.make js i = .ok i') : i' = i := by
  unfold ActiveInterruptedApplication.make at hok
  simp only [bind_eq_ok_iff, pure, Except.pure, Except.ok.injEq] at hok
  obtain ⟨_, -, _, -, _, -, _, -, _, -, rfl⟩ := hok
  rfl

theorem activeMutated_make_eq_ok {js : JournalState} {a a' : ActiveMutatedApplication}
    (hok : ActiveMutatedApplication.make js a = .ok a') : a' = a := by
  unfold ActiveMutatedApplication.make at hok
  simp only [bind_eq_ok_iff, pure, Except.pure, Except.ok.injEq] at hok
  obtain ⟨_, -, _, -, _, -, _, -, _, -, rfl⟩ := hok
  rfl

/-- An interruption is journaled with the results it was given. -/
theorem advances_interruptActiveExecution {interruption : ActiveInterruption} (h : Standing A s)
    (hreports : A.Reports s.history effects) :
    A.Advances m (interruptActiveExecution rejected effects interruption status evidence) s
      fun interrupted s' => A.Reports s'.history interrupted.effects := by
  refine h.leave fun s₁ hslots h₁ => advances_history (h₁.standing.value fun interrupted hok => ?_)
  rw [activeInterrupted_make_eq_ok hok]
  exact reports_congr hreports (AdmittedApplication.undone_congr fun path => hslots _ path)

theorem advances_interruptActiveEffect {outcome : BackendOperationOutcome} (h : Standing A s)
    (hreports : A.Reports s.history effects) :
    A.Advances m (interruptActiveEffect rejected effects outcome evidence) s
      fun interrupted s' => A.Reports s'.history interrupted.effects := by
  unfold interruptActiveEffect
  split <;> exact advances_interruptActiveExecution h hreports

theorem advances_interruptActiveSynchronization (h : Standing A s)
    (hreports : A.Reports s.history effects) :
    A.Advances m (interruptActiveSynchronization rejected effects status evidence) s
      fun interrupted s' => A.Reports s'.history interrupted.effects := by
  unfold interruptActiveSynchronization
  split <;> exact advances_interruptActiveExecution h hreports

/-- Effects are executed in turn, up to the first that does not complete. -/
theorem advances_executeActiveEffects {plan : OperationPlan} (steps : List EffectStep)
    (h : Standing A s) (hsettled : A.RejectedSettled s.history)
    (hcompleted : Completed A s.history effects (steps.map EffectStep.path)) :
    A.Advances m (executeActiveEffects rejected plan steps effects) s fun result s' =>
      match result with
      | .inl interrupted => A.Reports s'.history interrupted.effects
      | .inr effects' => Completed A s'.history effects' [] := by
  induction steps generalizing effects s with
  | nil => exact advances_pure h hcompleted
  | cons step rest ih =>
    rw [List.map_cons] at hcompleted
    refine h.bind (advances_executeActiveEffect h hsettled hcompleted.turn) fun e s₁ he h₁ => ?_
    obtain ⟨hpath, htells⟩ := he
    dsimp only
    split
    · rename_i hcomplete
      exact ih h₁.standing (hsettled.later h₁.later)
        (hcompleted.extend h₁.later hpath htells hcomplete)
    · rename_i hincomplete
      have hreports := (hcompleted.next h₁.later hpath htells).reports_of_stopped
        h₁.standing.built.ordered hincomplete
      exact h₁.standing.bind (advances_interruptActiveEffect h₁.standing hreports)
        fun _ s₂ hreports h₂ => advances_pure h₂.standing hreports

/-- A complete active execution becomes visible while nothing is being recovered. -/
theorem advances_completeActiveExecution (h : Standing A s) (hcalm : s.history.Calm)
    (hcompleted : Completed A s.history effects []) :
    A.Advances m (completeActiveExecution rejected effects status evidence) s fun active s' =>
      Executed A s' (.inr active) := by
  refine h.enter JournalState.noConfusion (fun _ => hcalm) fun s₁ _ hslots h₁ => ?_
  refine advances_history (h₁.standing.value fun active hok => ?_)
  rw [activeMutated_make_eq_ok hok]
  refine ⟨fun path hpath => h₁.later.done (hcompleted.mutated path hpath), ?_⟩
  exact reports_congr hcompleted.reports (AdmittedApplication.undone_congr fun path => hslots _ path)

/-- Active mutation touches nothing of recovery. -/
def Scope.mutation : Scope := ⟨fun js => js = .mutating, fun _ => True⟩

theorem Kept.mutation_calm (h : Kept .mutation s s') (hcalm : s.history.Calm) : s'.history.Calm :=
  h.calm JournalState.noConfusion hcalm

theorem advances_executeActive (happ : rejected.prepared.journaled.Holds A) (h : Standing A s)
    (hcalm : s.history.Calm) (hsettled : A.RejectedSettled s.history) :
    A.Advances m (executeActive rejected request state) s fun execution s' =>
      Executed A s' execution := by
  refine advances_history (h.ofExcept fun _ _ => ?_)
  rw [happ.stepsOf]
  refine h.bind (Advances.kept .mutation
    (advances_executeActiveEffects _ h hsettled (.start A s.history)) h.built
      (within_executeActiveEffects rfl _)) fun result s₁ hs₁ h₁ => ?_
  obtain ⟨hresult, hkept₁⟩ := hs₁
  have hcalm₁ := hkept₁.mutation_calm hcalm
  cases result with
  | inl interrupted => exact advances_pure h₁.standing hresult
  | inr effects =>
    dsimp only at hresult ⊢
    split
    · refine h₁.standing.bind (Advances.kept .mutation (advances_synchronizeDomain
        h₁.standing rfl JournalState.noConfusion hresult.mutated) h₁.standing.built
          (within_synchronizeDomain rfl rfl _ _ _)) fun fact s₂ hs₂ h₂ => ?_
      have hcompleted := hresult.later h₂.later
      split
      · exact h₂.standing.bind (advances_completeActiveExecution h₂.standing
          (hs₂.2.mutation_calm hcalm₁) hcompleted) fun _ s₃ hs₃ h₃ => advances_pure h₃.standing hs₃
      · exact h₂.standing.bind (advances_interruptActiveSynchronization h₂.standing
          hcompleted.reports) fun _ s₃ hs₃ h₃ => advances_pure h₃.standing hs₃
    · exact h₁.standing.bind (advances_completeActiveExecution h₁.standing hcalm₁ hresult)
        fun _ s₂ hs₂ h₂ => advances_pure h₂.standing hs₂

end Active

/-! ## Completion -/

section Completion

variable {A : AdmittedApplication} {m : Mechanisms} {s : EngineState}
  {active : ActiveMutatedApplication} {request : ApplicationRequest}
  {state : LeaseBoundStateProjection} {evidence : Evidence}

/-- Completion touches neither mutation nor recovery. -/
def Scope.completion : Scope :=
  ⟨fun js => js = .effectsVisible ∨ js = .resultObserved, fun _ => True⟩

/-- An observation that interrupts keeps the active results. -/
def KeepsEffects (active : ActiveMutatedApplication)
    (result : ApplicationReceipt ⊕ ActiveInterruptedApplication) : Prop :=
  ∀ interrupted, result = .inr interrupted → interrupted.effects = active.effects

theorem yields_interruptObservation {indeterminate : Bool} :
    (interruptObservation active indeterminate evidence).Yields
      fun interrupted => interrupted.effects = active.effects := by
  refine Process.Yields.after fun _ => Process.Yields.after fun h => ?_
  refine Process.yields_ofExcept fun interrupted hok => ?_
  rw [activeInterrupted_make_eq_ok hok]

theorem yields_completeApplication :
    (completeApplication active request state).Yields (KeepsEffects active) := by
  refine Process.Yields.after fun h => Process.Yields.after fun _ => Process.Yields.after fun _ => ?_
  refine Process.Yields.after fun _ => Process.Yields.after fun observations => ?_
  refine Process.Yields.after fun observed => ?_
  split
  · exact Process.Yields.after fun receipt => Process.yields_pure fun _ hx => nomatch hx
  · refine Process.Yields.bind yields_interruptObservation fun interrupted hkeeps => ?_
    refine Process.yields_pure fun interrupted' hx => ?_
    cases hx
    exact hkeeps

/-- A part of the completion keeps what the active results report. -/
theorem advances_completion {p : Engine (ApplicationReceipt ⊕ ActiveInterruptedApplication)}
    (hwithin : p.Orderly (within .completion)) (hkeeps : p.Yields (KeepsEffects active))
    (h : Standing A s) (hcalm : s.history.Calm) (hexecuted : Executed A s (.inr active)) :
    A.Advances m p s fun result s' => ∀ interrupted, result = .inr interrupted →
      A.Reports s'.history interrupted.effects := by
  have hmutating : ¬Scope.completion.homes .mutating := by
    rintro (hx | hx) <;> cases hx
  have hrecovering : ¬Scope.completion.homes .recovering := by
    rintro (hx | hx) <;> cases hx
  refine Advances.mono (Advances.yields (advances_within hwithin hmutating hrecovering h.built hcalm
    fun _ => hexecuted.1) hkeeps) fun result s' hx interrupted hresult => ?_
  rw [hx.2 interrupted hresult]
  exact reports_congr hexecuted.2 (hx.1.undone hmutating)

end Completion

/-! ## Recovery -/

section Recovery

variable {A : AdmittedApplication} {m : Mechanisms} {s s' : EngineState}
  {prepared : PreparedApplication} {interrupted : ActiveInterruptedApplication}
  {request : ApplicationRequest} {state : LeaseBoundStateProjection}
  {recoveries : List RecoveryEffectResult} {durability : DurabilityProfile} {evidence : Evidence}

/-- Recovery touches no active effect. -/
def Scope.recovery : Scope := ⟨fun js => js = .recovering, fun r => r.outcome ≠ .completed⟩

theorem Kept.recovery_undone (h : Kept .recovery s s') :
    A.undone s'.history = A.undone s.history := h.undone JournalState.noConfusion

theorem advances_sealRecoveryReceipt {verdict : RecoveryVerdict} (h : Standing A s) :
    A.Advances m (sealRecoveryReceipt interrupted request state verdict durability recoveries
      evidence) s fun _ _ => True := by
  refine h.ofExcept fun paths _ => advances_history (h.ofExcept fun receipt hreceipt => ?_)
  refine h.ofExcept fun terminal _ => ?_
  exact h.fail (failed_outcome hreceipt) fun s' hs' => advances_pure hs'.standing trivial

theorem advances_recoverPath {path : PackagePath} (h : Standing A s)
    (hturn : Turn (fun q => s.history.Done .recoverActiveObject (some q)) (A.undone s.history)
      path) :
    A.Advances m (recoverPath prepared path) s fun recovery s' =>
      recovery.result.outcome = .completed →
        s'.history.Done .recoverActiveObject (some path) := by
  refine h.ofExcept fun exact_ _ => advances_history (h.ofExcept fun effect heffect => ?_)
  obtain ⟨-, hkind, hpath⟩ := findEffect_spec heffect
  have hhome : effect.kind.home = some .recovering := home_of_findEffect heffect rfl
  refine h.intend hhome JournalState.noConfusion (fun _ => ?_) fun s₁ _ h₁ => ?_
  · rw [hkind]
    exact ⟨path, hpath, hturn⟩
  refine h₁.standing.mechanism fun s₂ _ h₂ => h₂.ofExcept fun terminal hterminal => ?_
  refine h₂.finish hhome JournalState.noConfusion (terminalEvent_ne_intent hterminal)
    fun s₃ hslot h₃ => ?_
  refine advances_pure h₃.standing fun hcompleted => ?_
  rw [← hkind, ← hpath, JournalHistory.Done, JournalHistory.EndedWith, hslot]
  exact congrArg some ((terminalEvent_completed_iff hterminal).mpr hcompleted)

/-- The candidates are what is left to undo, everything ahead of them recovered. -/
def Recovering (A : AdmittedApplication) (h : JournalHistory)
    (candidates : List ActiveEffectResult) : Prop :=
  ∃ before, A.undone h = before ++ candidates.map (fun e => e.request.path) ∧
    ∀ path ∈ before, h.Done .recoverActiveObject (some path)

theorem AdmittedApplication.Reports.recovering {h : JournalHistory}
    {effects : List ActiveEffectResult} (hr : A.Reports h effects) :
    Recovering A h (recoveryCandidates effects) :=
  ⟨[], hr, fun _ hx => absurd hx List.not_mem_nil⟩

namespace Recovering

variable {h h' : JournalHistory} {candidate : ActiveEffectResult} {rest : List ActiveEffectResult}

theorem turn (hr : Recovering A h (candidate :: rest)) :
    Turn (fun q => h.Done .recoverActiveObject (some q)) (A.undone h) candidate.request.path := by
  obtain ⟨before, hundone, hbefore⟩ := hr
  rw [List.map_cons] at hundone
  exact ⟨before, _, hundone, hbefore⟩

/-- A recovered candidate is behind. -/
theorem next (hr : Recovering A h (candidate :: rest)) (hundone : A.undone h' = A.undone h)
    (hl : h.Later h') (hdone : h'.Done .recoverActiveObject (some candidate.request.path)) :
    Recovering A h' rest := by
  obtain ⟨before, hpaths, hbefore⟩ := hr
  refine ⟨before ++ [candidate.request.path], ?_, fun path hpath => ?_⟩
  · rw [hundone, hpaths, List.map_cons, List.append_assoc, List.singleton_append]
  · rcases List.mem_append.mp hpath with hpath | hpath
    · exact hl.done (hbefore path hpath)
    · rwa [List.mem_singleton.mp hpath]

end Recovering

/-- Candidates are recovered in turn, up to the first that is not. -/
theorem advances_recoverCandidates (candidates : List ActiveEffectResult) (h : Standing A s)
    (hr : Recovering A s.history candidates) :
    A.Advances m (recoverCandidates prepared candidates recoveries) s fun _ _ => True := by
  induction candidates generalizing recoveries s with
  | nil => exact advances_pure h trivial
  | cons candidate rest ih =>
    refine h.bind (Advances.kept .recovery (advances_recoverPath h hr.turn) h.built
      (within_recoverPath rfl _)) fun recovery s₁ hs₁ h₁ => ?_
    dsimp only
    split
    · rename_i hcompleted
      exact ih h₁.standing (hr.next hs₁.2.recovery_undone h₁.later (hs₁.1 hcompleted))
    · exact advances_pure h₁.standing trivial

theorem advances_finishRecoveredDurability {control : ExecutionControl} {recovered : Bool}
    (h : Standing A s) :
    A.Advances m (finishRecoveredDurability control recovered durability) s fun _ _ => True := by
  unfold finishRecoveredDurability
  split
  · exact h.bind (advances_synchronizeDomain h rfl JournalState.noConfusion trivial)
      fun _ s₁ _ h₁ => advances_pure h₁.standing trivial
  · exact advances_pure h trivial

theorem advances_recoverChanged (h : Standing A s)
    (hr : A.Reports s.history interrupted.effects) :
    A.Advances m (recoverChanged interrupted request state) s fun _ _ => True := by
  refine h.enter JournalState.noConfusion JournalState.noConfusion fun s₁ _ hslots h₁ => ?_
  have hr₁ : A.Reports s₁.history interrupted.effects :=
    reports_congr hr (AdmittedApplication.undone_congr fun path => hslots _ path)
  refine h₁.standing.bind (advances_recoverCandidates _ h₁.standing hr₁.recovering)
    fun _ s₂ _ h₂ => ?_
  refine h₂.standing.bind (advances_finishRecoveredDurability h₂.standing) fun _ s₃ _ h₃ => ?_
  exact advances_sealRecoveryReceipt h₃.standing

/-- Recovery undoes, in turn, what the journal holds. -/
theorem advances_recoverInterrupted (h : Standing A s)
    (hr : A.Reports s.history interrupted.effects) :
    A.Advances m (recoverInterrupted interrupted request state) s fun _ _ => True := by
  refine advances_history (h.ofExcept fun _ _ => ?_)
  split
  · exact advances_sealRecoveryReceipt h
  · split
    · exact advances_sealRecoveryReceipt h
    · exact advances_recoverChanged h hr

end Recovery

/-! ## Preparation and whole processes -/

section Application

variable {A : AdmittedApplication} {m : Mechanisms} {s s' : EngineState}
  {app : JournaledApplication} {rejected : RejectedPublishedApplication}
  {request : ApplicationRequest} {state : LeaseBoundStateProjection} {evidence : Evidence}

/-- Preparation touches neither mutation nor recovery. -/
def Scope.preparation : Scope := ⟨fun js => js = .preparing, fun _ => True⟩

/-- Where a process stands before anything is published. -/
structure Unmutated (A : AdmittedApplication) (s : EngineState) : Prop extends
    Standing A s where
  calm : s.history.Calm

/-- A part of preparation that keeps the gate advances. -/
theorem advances_preparation {α : Type} {p : Engine α} {P : α → Prop}
    (hwithin : p.Orderly (within .preparation)) (hgates : A.Gates m p s fun _ s' => Opened A s')
    (hyields : p.Yields P) (hb : A.Built s.history) (hcalm : s.history.Calm) :
    A.Advances m p s fun a s' => Unmutated A s' ∧ P a := by
  have hadvances := Advances.yields (advances_within (A := A) (m := m) hwithin
    JournalState.noConfusion JournalState.noConfusion hb hcalm fun hx => nomatch hx) hyields
  refine (Process.Ensures.and hadvances hgates).mono ?_ (fun _ _ hx => hx.1) (fun _ hx => hx.1)
  rintro a s' ⟨⟨hbuilt, hkept, hP⟩, hopened⟩
  exact ⟨hbuilt, ⟨⟨hbuilt, hopened⟩, hkept.calm JournalState.noConfusion hcalm⟩, hP⟩

theorem prepared_make_eq_ok {js : JournalState} {prepared prepared' : PreparedApplication}
    (hok : PreparedApplication.make js prepared = .ok prepared') : prepared' = prepared := by
  unfold PreparedApplication.make at hok
  simp only [refuseIf_bind_eq_ok, pure, Except.pure, Except.ok.injEq] at hok
  exact hok.2.2.2.2.symm

/-- A phase that prepares an application, prepares this one. -/
def PreparesOnly (app : JournaledApplication)
    (result : ApplicationReceipt ⊕ PreparedApplication) : Prop :=
  ∀ prepared, result = .inr prepared → prepared.journaled = app

/-- A failure prepares nothing. -/
theorem yields_receipt {p : Engine ApplicationReceipt} :
    (p >>= fun r => (pure (.inl r) : Engine (ApplicationReceipt ⊕ PreparedApplication))).Yields
      (PreparesOnly app) :=
  Process.Yields.after fun _ => Process.yields_pure fun _ hx => nomatch hx

theorem yields_finishPreparation {captures : List OldObjectCaptureResult}
    {incoming recovery : DurabilityStatus} :
    (finishPreparation app captures incoming recovery evidence).Yields
      fun prepared => prepared.journaled = app := by
  refine Process.Yields.after fun _ => Process.yields_ofExcept fun prepared hok => ?_
  rw [prepared_make_eq_ok hok]

theorem yields_prepared {p : Engine PreparedApplication}
    (hp : p.Yields fun prepared => prepared.journaled = app) :
    (p >>= fun r => (pure (.inr r) : Engine (ApplicationReceipt ⊕ PreparedApplication))).Yields
      (PreparesOnly app) := by
  refine hp.bind fun prepared happ => Process.yields_pure fun prepared' hx => ?_
  cases hx
  exact happ

theorem yields_prepareApplication :
    (prepareApplication app request state).Yields (PreparesOnly app) := by
  refine Process.Yields.after fun h => Process.Yields.after fun _ => ?_
  refine Process.Yields.after fun captures => ?_
  split
  · exact yields_receipt
  refine Process.Yields.after fun sealed => ?_
  dsimp only
  split
  · exact yields_receipt
  refine Process.Yields.after fun incoming => ?_
  split
  · exact yields_receipt
  refine Process.Yields.after fun recovery => ?_
  split
  · exact yields_receipt
  · exact yields_prepared yields_finishPreparation

/-- Active execution and what follows it. -/
theorem advances_finishActive (happ : rejected.prepared.journaled.Holds A) (h : Standing A s)
    (hcalm : s.history.Calm) (hsettled : A.RejectedSettled s.history) :
    A.Advances m (finishActive rejected request state) s fun _ _ => True := by
  refine h.bind (Advances.kept .mutation (advances_executeActive happ h hcalm hsettled)
    h.built (within_executeActive rfl)) fun execution s₁ hs₁ h₁ => ?_
  obtain ⟨hexecuted, hkept⟩ := hs₁
  cases execution with
  | inl interrupted => exact advances_recoverInterrupted h₁.standing hexecuted
  | inr active =>
    refine h₁.standing.bind (advances_completion (within_completeApplication (.inl rfl) (.inr rfl)
      fun _ _ => trivial) yields_completeApplication h₁.standing (hkept.mutation_calm hcalm) hexecuted)
        fun result s₂ hreports h₂ => ?_
    cases result with
    | inl receipt => exact advances_pure h₂.standing trivial
    | inr interrupted => exact advances_recoverInterrupted h₂.standing (hreports interrupted rfl)

/-- An application advances from its initial journal. -/
theorem advances_runApplication (happ : app.Holds A) (hb : A.Built s.history)
    (h : Preparing A ∅ s) (hcalm : s.history.Calm) :
    A.Advances m (runApplication app A.request state) s fun _ _ => True := by
  refine advances_history ?_
  cases hmake : JournaledApplication.make app s.history with
  | error e => exact Process.ensures_throw.mpr hb
  | ok app' =>
    rw [journaledApplication_make_eq_ok hmake]
    refine ensures_ok rfl (Process.Ensures.bind (advances_preparation (within_prepareApplication rfl
      fun _ _ => trivial) (gates_prepareApplication happ h) yields_prepareApplication hb hcalm)
        fun result s₁ hs₁ => ?_)
    obtain ⟨-, h₁, hprepares⟩ := hs₁
    cases result with
    | inl receipt => exact advances_pure h₁.toStanding trivial
    | inr prepared =>
      have hprepared : prepared.journaled.Holds A := hprepares prepared rfl ▸ happ
      refine h₁.toStanding.bind (Advances.kept .mutation
        (advances_publishRejected hprepared h₁.toStanding) h₁.built
          (within_publishRejected rfl fun _ _ => trivial)) fun result s₂ hs₂ h₂ => ?_
      obtain ⟨hpublished, hkept⟩ := hs₂
      cases result with
      | inl receipt => exact advances_pure h₂.standing trivial
      | inr published =>
        obtain ⟨hsettled, hsame⟩ := hpublished published rfl
        refine advances_finishActive (hsame ▸ hprepared) h₂.standing ?_ hsettled
        exact hkept.calm JournalState.noConfusion h₁.calm

end Application

end PkgApply
