import PkgApply.Journal.Terminality

/-!
# Incremental and batch validation

A history is validated twice: step by step against cached progress and a
counter, and as one record against its whole event list.  Both accept the same
histories and agree on what they have established.
-/

namespace PkgApply

/-- Success effects a progress table shows completed. -/
def completedSuccessCount (effects : List JournalEffect) (progress : List EffectProgress) : Nat :=
  (effects.zip progress).countP fun (effect, p) =>
    successEffectRequired effect.kind && p.terminal == some .completed

namespace JournalHistory

variable {h h' : JournalHistory} {step : JournalStep}

/-! ## What both validations establish -/

/-- The incremental tables of a history are those the batch validation
computes from its event list. -/
structure Agrees (h : JournalHistory) : Prop where
  snapshot : ∃ r, h.snapshot = .ok r
  progress : validateEvents h.effects h.events = .ok h.progress
  count : h.completedSuccessEffects = completedSuccessCount h.effects h.progress
  completed : h.completedSuccessEffects = h.requiredSuccessEffects ↔
    successEffectsCompleted h.effects h.progress = true

theorem Sound.agrees (hs : h.Sound) : h.Agrees := by
  refine ⟨⟨_, hs.snapshot_eq⟩, hs.replayed, ?_, hs.successEffectsCompleted_iff.symm⟩
  rw [hs.completed_count, completedSuccessCount, zip_progress hs.progress_length, List.countP_map]
  rfl

/-! ## What the batch validation leaves to the incremental one -/

/-- What a step must satisfy besides the record it leads to: it chains to the
head along an allowed edge, keeps retained authority, and places its replay
fact and a new receipt where they belong. -/
structure Continues (h : JournalHistory) (step : JournalStep) : Prop where
  declaration : step.declaration = h.declaration
  sequence : step.sequence = h.steps.length
  predecessor : step.predecessor = h.steps.getLast?.map JournalStep.identity
  edge : stateMayFollow h.state step.state = true
  receipt : h.receipt.isSome → step.receipt = h.receipt
  evidence : h.completedEvidence.isSome → step.completedEvidence = h.completedEvidence
  fact : step.replayFact.isSome → isTerminal step.event = true
  sealing : h.receipt = none → step.receipt.isSome →
    (∀ e, step.event = some e → e.kind = .completed ∧ e.effect.kind = .sealReceipt) ∧
      (step.event = none → successfulState step.state = false)

/-- The record a step would lead to. -/
def recordAfter (h : JournalHistory) (step : JournalStep) : Except Exn JournalRecord :=
  JournalRecord.make h.header step.state h.effects (h.events ++ step.event.toList) step.receipt
    step.completedEvidence

/-- What the record constructor demands of a history's effects. -/
theorem make_eq_ok {state : JournalState} {events : List JournalEvent}
    {receipt : Option ApplicationReceipt} {evidence : Option CompletedEvidence}
    {r : JournalRecord} (hok : JournalRecord.make h.header state h.effects events receipt evidence =
      .ok r) :
    ∃ progress, validateEvents h.effects events = .ok progress ∧
      (successfulState state = true → receipt.isSome ∧ evidence.isSome ∧
        successEffectsCompleted h.effects progress = true) ∧
      (successfulState state = false → evidence = none) ∧
      (state = .recovered → receipt.isSome) := by
  have hsort : h.effects.insertionSort (fun a b => a.ordinal ≤ b.ordinal) = h.effects :=
    insertionSort_effects h.declaration
  unfold JournalRecord.make JournalRecord.validateResolution at hok
  simp only [hsort, bind_eq_ok_iff, refuseIf_eq_ok] at hok
  obtain ⟨_, -, progress, hprogress, _,
    ⟨_, -, _, hauthority, _, hfinished, _, hevidence, _, hrecovered, -⟩, -⟩ := hok
  refine ⟨progress, hprogress, fun hstate => ?_, fun hstate => ?_, fun hstate => ?_⟩
  · rw [hstate] at hauthority hfinished
    simp only [true_and, not_or, Bool.not_eq_true, Option.isNone_eq_false_iff,
      Bool.not_eq_false'] at hauthority hfinished
    exact ⟨hauthority.1, hauthority.2, by simpa using hfinished⟩
  · simpa [hstate] using hevidence
  · simpa [hstate, Option.isSome_iff_ne_none] using hrecovered

/-- An event the batch replay accepts at the end is one the progress admits. -/
theorem admitsEvent_of_validateEventsFrom {x : JournalEvent} {progress : List EffectProgress}
    (hok : validateEventsFrom h.effects [x] h.events.length h.progress = .ok progress) :
    h.AdmitsEvent x := by
  unfold validateEventsFrom at hok
  split at hok
  · cases hok
  rename_i hsequence
  split at hok
  · cases hok
  rename_i ordinal hidx
  have hmem : x.effect ∈ h.effects := by
    by_contra hnot
    rw [List.idxOf?_eq_none_iff.mpr hnot] at hidx
    cases hidx
  have hprogress := progressOf_of_idxOf hidx
  refine ⟨not_not.mp hsequence, hmem, fun hkind => ?_, fun hkind => ?_⟩
  · rw [if_pos hkind] at hok
    split at hok
    · cases hok
    · rename_i hfresh
      rw [hprogress]
      cases hg : h.progress.getD ordinal .untouched
      simp_all [EffectProgress.untouched]
  · rw [if_neg hkind] at hok
    split at hok
    · cases hok
    · rename_i hopen
      split at hok
      · cases hok
      · rename_i honce
        rw [hprogress]
        cases hg : h.progress.getD ordinal .untouched
        simp_all

/-- One more event is replayed after the events of a sound history. -/
theorem Sound.validateEvents_concat (hs : h.Sound) (x : JournalEvent) :
    validateEvents h.effects (h.events ++ [x]) =
      validateEventsFrom h.effects [x] h.events.length h.progress := by
  have hreplay := validateEventsFrom_append h.effects h.events x 0 _ _ hs.replayed
  rwa [Nat.zero_add] at hreplay

/-- Appending is continuing the history towards a record that is accepted. -/
theorem Sound.append_iff (hs : h.Sound) :
    (∃ h', h.append step = .ok h') ↔ h.Continues step ∧ ∃ r, h.recordAfter step = .ok r := by
  constructor
  · rintro ⟨h', happend⟩
    obtain ⟨ha, rfl⟩ := append_eq_ok_iff.mp happend
    refine ⟨⟨ha.declaration.trans hs.cursor_declaration, ha.sequence.trans hs.step_count,
      ha.predecessor.trans hs.latest, ha.edge, ha.receipt, ha.evidence, ha.fact,
      ha.resolution.sealing⟩, _, (hs.after ha).snapshot_eq⟩
  · rintro ⟨hc, r, hok⟩
    obtain ⟨progress, hprogress, hsuccessful, hunsuccessful, hrecovered⟩ := make_eq_ok hok
    have hevent : ∀ x, step.event = some x → h.AdmitsEvent x := by
      intro x hx
      rw [hx, Option.toList_some, hs.validateEvents_concat] at hprogress
      exact admitsEvent_of_validateEventsFrom hprogress
    have hreplayed : progress = (h.after step).progress :=
      Except.ok.inj (hprogress.symm.trans (hs.replayed_after hevent))
    refine ⟨h.after step, append_eq_ok_iff.mpr ⟨⟨hc.declaration.trans hs.cursor_declaration.symm,
      hc.sequence.trans hs.step_count.symm, hc.predecessor.trans hs.latest.symm, hc.edge,
      hc.receipt, hc.evidence, hevent, hc.fact, hc.sealing, fun hstate => ?_, hunsuccessful,
      hrecovered⟩, rfl⟩⟩
    obtain ⟨hreceipt, hevidence, hcompleted⟩ := hsuccessful hstate
    rw [hreplayed] at hcompleted
    refine ⟨hreceipt, hevidence, ?_⟩
    rw [hs.countCompleted_eq step hevent, hs.required_count]
    exact (JournalHistory.successEffectsCompleted_iff (hs.progress_length_after step)
      (hs.intended_after hevent)).mp hcompleted

/-! ## Every prefix of a history -/

/-- A prefix of accepted steps is accepted. -/
theorem replay_take {steps : List JournalStep} (hreplay : h.replay steps = .ok h') (n : Nat) :
    ∃ h₁, h.replay (steps.take n) = .ok h₁ := by
  induction steps generalizing h n with
  | nil => exact ⟨h, by rw [List.take_nil]; rfl⟩
  | cons step rest ih =>
    cases n with
    | zero => exact ⟨h, rfl⟩
    | succ n =>
      rw [replay] at hreplay
      obtain ⟨h₁, hstep, hrest⟩ := bind_eq_ok_iff.mp hreplay
      obtain ⟨h₂, hfirst⟩ := ih hrest n
      exact ⟨h₂, by rw [List.take_succ_cons, replay, hstep]; exact hfirst⟩

theorem Appended.replay {steps : List JournalStep} (hr : Appended h)
    (hreplay : h.replay steps = .ok h') : Appended h' := by
  induction steps generalizing h with
  | nil =>
    cases hreplay
    exact hr
  | cons step rest ih =>
    rw [JournalHistory.replay] at hreplay
    obtain ⟨h₁, hstep, hrest⟩ := bind_eq_ok_iff.mp hreplay
    exact ih (hr.append hstep) hrest

/-- Incremental and batch validation agree.  Every prefix of an accepted step
list is accepted, as the history of these steps and their events; on it both
establish the same, and there a step is accepted exactly when it continues the
history and its whole record is. -/
theorem validation_agrees (d : JournalDeclaration) (steps : List JournalStep)
    (hreplay : replay (.initial d) steps = .ok h) (n : Nat) :
    ∃ h', replay (.initial d) (steps.take n) = .ok h' ∧ h'.declaration = d ∧
      h'.steps = steps.take n ∧ h'.events = (steps.take n).filterMap (·.event) ∧ h'.Agrees ∧
      ∀ step, (∃ h'', h'.append step = .ok h'') ↔
        h'.Continues step ∧ ∃ r, h'.recordAfter step = .ok r := by
  obtain ⟨h', hfirst⟩ := replay_take hreplay n
  have hs := ((Appended.initial d).replay hfirst).sound
  obtain ⟨hdeclaration, hsteps⟩ := replay_steps hfirst
  have hevents := hs.events_eq
  rw [hsteps] at hevents
  exact ⟨h', hfirst, hdeclaration, hsteps, hevents, hs.agrees, fun step => hs.append_iff⟩

/-- The journal of an attempt that is sealed without having done anything. -/
theorem validation_agrees_idle :
    ∃ h', replay (.initial idleDeclaration) ([idleSealing, idleSealed].take 1) = .ok h' ∧
      h'.declaration = idleDeclaration ∧ h'.steps = [idleSealing] ∧
      h'.events = [idleSealing].filterMap (·.event) ∧ h'.Agrees ∧
      ∀ step, (∃ h'', h'.append step = .ok h'') ↔
        h'.Continues step ∧ ∃ r, h'.recordAfter step = .ok r := by
  have hreplay : replay (.initial idleDeclaration) [idleSealing, idleSealed] =
      .ok (((initial idleDeclaration).after idleSealing).after idleSealed) := by decide +kernel
  exact validation_agrees idleDeclaration _ hreplay 1

end JournalHistory

end PkgApply
