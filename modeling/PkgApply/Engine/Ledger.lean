import PkgApply.Engine.Mechanisms
import PkgApply.Journal.Soundness

/-!
# The ledger of a journal

What a history amounts to for the effect of one kind at one path: nothing, an
intent, or an intent and a terminal event with the fact it retains.  A
transition the journal permits changes exactly the slot of its event.
-/

namespace PkgApply

/-! ## Slots -/

/-- The terminal event of one effect. -/
structure Ended where
  kind : EventKind
  evidence : Evidence
  fact : Option ReplayFact
deriving DecidableEq

/-- What the journal says about one effect. -/
structure Slot where
  intended : Bool
  ended : Option Ended
deriving DecidableEq

namespace Slot

def untouched : Slot := ⟨false, none⟩

/-- Intended and not ended. -/
def unresolved : Slot := ⟨true, none⟩

def progress (s : Slot) : EffectProgress := ⟨s.intended, s.ended.map Ended.kind⟩

/-- The slot after one more event of its effect. -/
def note (s : Slot) (kind : EventKind) (evidence : Evidence) (fact : Option ReplayFact) : Slot :=
  match kind with
  | .intent => { s with intended := true }
  | kind => { s with ended := some ⟨kind, evidence, fact⟩ }

@[simp] theorem progress_untouched : untouched.progress = .untouched := rfl
@[simp] theorem progress_unresolved : unresolved.progress = ⟨true, none⟩ := rfl
@[simp] theorem untouched_intended : untouched.intended = false := rfl
@[simp] theorem untouched_ended : untouched.ended = none := rfl
@[simp] theorem unresolved_intended : unresolved.intended = true := rfl
@[simp] theorem unresolved_ended : unresolved.ended = none := rfl

@[simp] theorem note_intent (evidence : Evidence) (fact : Option ReplayFact) :
    untouched.note .intent evidence fact = unresolved := rfl

/-- A terminal event ends an unresolved slot. -/
theorem note_terminal {kind : EventKind} (hk : kind ≠ .intent) (evidence : Evidence)
    (fact : Option ReplayFact) :
    unresolved.note kind evidence fact = ⟨true, some ⟨kind, evidence, fact⟩⟩ := by
  cases kind with
  | intent => exact absurd rfl hk
  | completed => rfl
  | failed => rfl
  | indeterminate => rfl

theorem progress_note (s : Slot) (kind : EventKind) (evidence : Evidence)
    (fact : Option ReplayFact) :
    (s.note kind evidence fact).progress = s.progress.record kind := by
  cases kind <;> rfl

theorem progress_eq_untouched_iff {s : Slot} : s.progress = .untouched ↔ s = .untouched := by
  obtain ⟨intended, ended⟩ := s
  simp [progress, untouched, EffectProgress.untouched]

theorem progress_eq_unresolved_iff {s : Slot} : s.progress = ⟨true, none⟩ ↔ s = .unresolved := by
  obtain ⟨intended, ended⟩ := s
  simp [progress, unresolved]

end Slot

/-! ## Ledgers -/

/-- State and slots of a journal, and the durability its facts amount to. -/
structure Ledger where
  state : JournalState
  slot : EffectKind → Option PackagePath → Slot
  durability : DurabilityProfile

/-- The status a staged result leaves in its staging domain. -/
def stagedDurability (outcome : BackendOperationOutcome) : DurabilityStatus :=
  if outcome = .completed then .visible else .indeterminate

/-- The durability a retained fact leaves. -/
def ReplayFact.settle (p : DurabilityProfile) : ReplayFact → DurabilityProfile
  | .payloadSeal result => p.set .incomingStaging (stagedDurability result.outcome)
  | .capture result => p.set .recoveryStaging (stagedDurability result.outcome)
  | .rejectedEffect _ result =>
    p.set .rejectedObjectStore (outcomeDurability p.rejectedObjectStore result.outcome)
  | .activeEffect _ result | .recoveryEffect _ result =>
    p.set .activeNamespace (outcomeDurability p.activeNamespace result.outcome)
  | .synchronization fact => p.set fact.domain fact.status
  | .completedEvidence _ => p.set .completedEvidence .visible

/-- The durability after a terminal event that may retain a fact. -/
def settle (p : DurabilityProfile) (fact : Option ReplayFact) : DurabilityProfile :=
  fact.elim p (ReplayFact.settle p)

@[simp] theorem settle_none (p : DurabilityProfile) : settle p none = p := rfl
@[simp] theorem settle_some (p : DurabilityProfile) (fact : ReplayFact) :
    settle p (some fact) = fact.settle p := rfl

/-- The durability of a journal that retains nothing. -/
def DurabilityProfile.journaled : DurabilityProfile :=
  ⟨.confirmed, .notAttempted, .notAttempted, .notAttempted, .notAttempted, .notAttempted⟩

namespace Ledger

/-- The ledger after one transition. -/
def step (l : Ledger) (t : Transition) : Ledger where
  state := t.state
  slot := fun kind path =>
    match t.event with
    | none => l.slot kind path
    | some e =>
      if e.effect.kind = kind ∧ e.effect.path = path then
        (l.slot kind path).note e.kind e.evidence t.replayFact
      else l.slot kind path
  durability := settle l.durability t.replayFact

@[simp] theorem step_state (l : Ledger) (t : Transition) : (l.step t).state = t.state := rfl

/-- A transition without an event changes no slot. -/
@[simp] theorem step_slot_state (l : Ledger) (state : JournalState) (fact : Option ReplayFact)
    (receipt : Option ApplicationReceipt) (evidence : Option CompletedEvidence)
    (kind : EffectKind) (path : Option PackagePath) :
    (l.step ⟨state, none, fact, receipt, evidence⟩).slot kind path = l.slot kind path := rfl

/-- A transition changes no slot of another effect. -/
theorem step_slot_of_ne {l : Ledger} {t : Transition} {kind : EffectKind}
    {path : Option PackagePath}
    (h : ∀ e, t.event = some e → ¬(e.effect.kind = kind ∧ e.effect.path = path)) :
    (l.step t).slot kind path = l.slot kind path := by
  unfold step
  cases hev : t.event with
  | none => rfl
  | some e => simp only [if_neg (h e hev)]

theorem step_slot_self {l : Ledger} {t : Transition} {e : TransitionEvent} (h : t.event = some e) :
    (l.step t).slot e.effect.kind e.effect.path =
      (l.slot e.effect.kind e.effect.path).note e.kind e.evidence t.replayFact := by
  simp [step, h]

end Ledger

namespace JournalHistory

/-- The slot of one effect after one step. -/
def noteSlot (kind : EffectKind) (path : Option PackagePath) (s : Slot) (step : JournalStep) :
    Slot :=
  match step.event with
  | none => s
  | some e =>
    if e.effect.kind = kind ∧ e.effect.path = path then
      s.note e.kind e.evidence step.replayFact
    else s

/-- The slot of the effect of one kind at one path. -/
def slot (h : JournalHistory) (kind : EffectKind) (path : Option PackagePath) : Slot :=
  h.steps.foldl (noteSlot kind path) .untouched

/-- The durability the retained facts amount to. -/
def durability (h : JournalHistory) : DurabilityProfile :=
  h.steps.foldl (fun p step => settle p step.replayFact) .journaled

/-- What a history amounts to. -/
def ledger (h : JournalHistory) : Ledger := ⟨h.state, h.slot, h.durability⟩

@[simp] theorem ledger_state (h : JournalHistory) : h.ledger.state = h.state := rfl
@[simp] theorem ledger_slot (h : JournalHistory) : h.ledger.slot = h.slot := rfl
@[simp] theorem ledger_durability (h : JournalHistory) : h.ledger.durability = h.durability := rfl

/-- Kind and path name an effect. -/
def Keyed (h : JournalHistory) : Prop := (h.effects.map fun e => (e.kind, e.path)).Nodup

variable {h h' : JournalHistory} {step : JournalStep}

theorem slot_after (kind : EffectKind) (path : Option PackagePath) :
    (h.after step).slot kind path = noteSlot kind path (h.slot kind path) step := by
  simp [slot, List.foldl_append]

theorem durability_after : (h.after step).durability = settle h.durability step.replayFact := by
  simp [durability, List.foldl_append]

theorem slot_initial (d : JournalDeclaration) (kind : EffectKind) (path : Option PackagePath) :
    (JournalHistory.initial d).slot kind path = .untouched := rfl

theorem Keyed.effect_eq (hk : h.Keyed) {e x : JournalEffect} (he : e ∈ h.effects)
    (hx : x ∈ h.effects) (hkind : x.kind = e.kind) (hpath : x.path = e.path) : x = e :=
  List.inj_on_of_nodup_map hk hx he (by rw [hkind, hpath])

private theorem progressOf_slot_after (hs : h.Sound) (hk : h.Keyed) (step : JournalStep)
    (hprevious : ∀ e ∈ h.effects, h.progressOf e = (h.slot e.kind e.path).progress)
    (hev : ∀ x, step.event = some x → h.AdmitsEvent x) {e : JournalEffect} (he : e ∈ h.effects) :
    (h.after step).progressOf e = ((h.after step).slot e.kind e.path).progress := by
  rw [hs.progressOf_after hev he, slot_after]
  unfold noteSlot
  cases hx : step.event with
  | none => exact hprevious e he
  | some x =>
    dsimp only
    by_cases hxe : x.effect = e
    · subst hxe
      rw [if_pos rfl, if_pos ⟨rfl, rfl⟩, Slot.progress_note, hprevious _ he]
    · have hkey : ¬(x.effect.kind = e.kind ∧ x.effect.path = e.path) :=
        fun hkey => hxe (hk.effect_eq he (hev x hx).declared hkey.1 hkey.2)
      rw [if_neg hxe, if_neg hkey, hprevious e he]

/-- Incremental progress is the progress of the slot. -/
theorem Appended.progressOf_eq (hr : Appended h) (hk : h.Keyed) {e : JournalEffect}
    (he : e ∈ h.effects) : h.progressOf e = (h.slot e.kind e.path).progress := by
  induction hr generalizing e with
  | initial d =>
    have hs := Sound.initial d
    rw [hs.progress_eq e he, slot_initial]
    rfl
  | append hr happend ih =>
    obtain ⟨ha, rfl⟩ := append_eq_ok_iff.mp happend
    exact progressOf_slot_after hr.sound hk _ (fun e he => ih hk he) ha.event he

/-- Progress replayed from the events is the progress of the slot. -/
theorem Appended.restartProgress_eq (hr : Appended h) (hk : h.Keyed) {e : JournalEffect}
    (he : e ∈ h.effects) : eventsProgress h.events e = (h.slot e.kind e.path).progress := by
  rw [← hr.sound.progress_eq e he, hr.progressOf_eq hk he]

/-- Every slot is untouched, unresolved, or ended after its intent. -/
theorem Appended.slot_cases (hr : Appended h) (hk : h.Keyed) {e : JournalEffect}
    (he : e ∈ h.effects) :
    h.slot e.kind e.path = .untouched ∨ h.slot e.kind e.path = .unresolved ∨
      ∃ ended, h.slot e.kind e.path = ⟨true, some ended⟩ := by
  have hintended := hr.sound.intended e he
  rw [hr.progressOf_eq hk he] at hintended
  cases hslot : h.slot e.kind e.path with
  | mk intended ended =>
    rw [hslot] at hintended
    cases ended with
    | none =>
      cases intended with
      | false => exact .inl rfl
      | true => exact .inr (.inl rfl)
    | some ended =>
      cases intended with
      | false => exact absurd (hintended rfl) Bool.false_ne_true
      | true => exact .inr (.inr ⟨ended, rfl⟩)

/-! ## Transitions -/

/-- What the journal demands of a transition. -/
structure Permits (h : JournalHistory) (t : Transition) : Prop where
  edge : stateMayFollow h.state t.state = true
  receipt : h.receipt.isSome → t.receipt = h.receipt
  evidence : h.completedEvidence.isSome → t.completedEvidence = h.completedEvidence
  authority : t.completedEvidence.isSome → t.receipt.isSome
  declared : ∀ e, t.event = some e → e.effect ∈ h.effects
  fresh : ∀ e, t.event = some e → e.kind = .intent →
    h.slot e.effect.kind e.effect.path = .untouched
  unresolved : ∀ e, t.event = some e → e.kind ≠ .intent →
    h.slot e.effect.kind e.effect.path = .unresolved
  fact : t.replayFact.isSome → ∃ e, t.event = some e ∧ e.kind ≠ .intent
  sealing : h.receipt = none → t.receipt.isSome →
    (∀ e, t.event = some e → e.kind = .completed ∧ e.effect.kind = .sealReceipt) ∧
      (t.event = none → successfulState t.state = false)
  successful : successfulState t.state = true →
    t.receipt.isSome ∧ t.completedEvidence.isSome ∧
      ∀ e ∈ h.effects, successEffectRequired e.kind = true →
        ((h.ledger.step t).slot e.kind e.path).ended.map Ended.kind = some .completed
  unsuccessful : successfulState t.state = false → t.completedEvidence = none
  recovered : t.state = .recovered → t.receipt.isSome

/-- How a history follows another by a transition. -/
structure Follows (h : JournalHistory) (t : Transition) (h' : JournalHistory) : Prop where
  appended : Appended h'
  declaration : h'.declaration = h.declaration
  ledger : h'.ledger = h.ledger.step t
  receipt : h'.receipt = t.receipt
  completedEvidence : h'.completedEvidence = t.completedEvidence
  steps : ∃ step, h'.steps = h.steps ++ [step] ∧ step.toStepRecord = h.nextRecord t

private theorem nextRecord_event (t : Transition) :
    (h.nextRecord t).event = t.event.map h.nextEvent := rfl

private theorem admits_iff_permits (hr : Appended h) (hk : h.Keyed) {t : Transition}
    (hstep : step.toStepRecord = h.nextRecord t)
    (hpred : step.predecessor = h.cursor.latestStep) :
    h.Admits step ↔ h.Permits t := by
  obtain ⟨record, predecessor, hseq, hauth⟩ := step
  dsimp only at hstep hpred
  subst hstep
  subst hpred
  have hs := hr.sound
  have hprogress := fun e he => hr.progressOf_eq hk (e := e) he
  have hledger : ∀ k p, (h.after ⟨h.nextRecord t, h.cursor.latestStep, hseq, hauth⟩).slot k p =
      (h.ledger.step t).slot k p := by
    intro k p
    rw [slot_after]
    simp only [noteSlot, Ledger.step, ledger_slot, nextRecord_event]
    cases t.event <;> rfl
  -- the completed success effects once the step is counted
  have hcounted : (∀ x, (h.nextRecord t).event = some x → h.AdmitsEvent x) →
      (h.countCompleted (h.nextRecord t).event = h.requiredSuccessEffects ↔
        ∀ e ∈ h.effects, successEffectRequired e.kind = true →
          ((h.ledger.step t).slot e.kind e.path).ended.map Ended.kind = some .completed) := by
    intro hev
    have hafter := fun e he => progressOf_slot_after hs hk
      ⟨h.nextRecord t, h.cursor.latestStep, hseq, hauth⟩ hprogress hev (e := e) he
    have hcount := hs.countCompleted_eq ⟨h.nextRecord t, h.cursor.latestStep, hseq, hauth⟩ hev
    dsimp only at hcount
    rw [hcount, hs.required_count]
    refine (completedEffects_eq_iff _).trans (forall₂_congr fun e he => ?_)
    rw [hafter e he, hledger]
    rfl
  constructor
  · intro ha
    have hafter := hs.after ha
    refine ⟨ha.edge, ha.receipt, ha.evidence, hauth, ?_, ?_, ?_, ?_, ?_, ?_,
      ha.resolution.unsuccessful, ha.resolution.recovered⟩
    · intro e he
      exact (ha.event (h.nextEvent e) (by simp [nextRecord_event, he])).declared
    · intro e he hkind
      have hx := ha.event (h.nextEvent e) (by simp [nextRecord_event, he])
      have := hx.fresh hkind
      rw [hprogress _ hx.declared] at this
      exact Slot.progress_eq_untouched_iff.mp this
    · intro e he hkind
      have hx := ha.event (h.nextEvent e) (by simp [nextRecord_event, he])
      have := hx.open_ hkind
      rw [hprogress _ hx.declared] at this
      exact Slot.progress_eq_unresolved_iff.mp this
    · intro hfact
      have := ha.fact hfact
      rw [nextRecord_event] at this
      cases he : t.event with
      | none => simp [he, isTerminal] at this
      | some e => exact ⟨e, rfl, by simpa [he, isTerminal, nextEvent] using this⟩
    · intro hnone hsome
      obtain ⟨hevent, hstate⟩ := ha.resolution.sealing hnone hsome
      refine ⟨fun e he => ?_, fun he => hstate (by simp [nextRecord_event, he])⟩
      exact hevent (h.nextEvent e) (by simp [nextRecord_event, he])
    · intro hstate
      obtain ⟨hreceipt, hevidence, hcount⟩ := ha.resolution.successful hstate
      exact ⟨hreceipt, hevidence, (hcounted ha.event).mp hcount⟩
  · intro hp
    have hevent : ∀ x, (h.nextRecord t).event = some x → h.AdmitsEvent x := by
      intro x hx
      rw [nextRecord_event, Option.map_eq_some_iff] at hx
      obtain ⟨e, he, rfl⟩ := hx
      have hmem := hp.declared e he
      refine ⟨rfl, hmem, fun hkind => ?_, fun hkind => ?_⟩
      · exact (hprogress _ hmem).trans
          (Slot.progress_eq_untouched_iff.mpr (hp.fresh e he hkind))
      · exact (hprogress _ hmem).trans
          (Slot.progress_eq_unresolved_iff.mpr (hp.unresolved e he hkind))
    refine ⟨hs.cursor_declaration.symm, rfl, rfl, hp.edge, hp.receipt, hp.evidence, hevent, ?_,
      ⟨?_, ?_, hp.unsuccessful, hp.recovered⟩⟩
    · intro hfact
      obtain ⟨e, he, hkind⟩ := hp.fact hfact
      simpa [nextRecord_event, he, isTerminal, nextEvent] using hkind
    · intro hnone hsome
      obtain ⟨hseal, hstate⟩ := hp.sealing hnone hsome
      refine ⟨fun x hx => ?_, fun hx => ?_⟩
      · rw [nextRecord_event, Option.map_eq_some_iff] at hx
        obtain ⟨e, he, rfl⟩ := hx
        exact hseal e he
      · exact hstate (by simpa [nextRecord_event] using hx)
    · intro hstate
      obtain ⟨hreceipt, hevidence, hall⟩ := hp.successful hstate
      exact ⟨hreceipt, hevidence, (hcounted hevent).mpr hall⟩

/-- A permitted transition is journaled. -/
theorem transition_ok (hr : Appended h) (hk : h.Keyed) {t : Transition} (hp : h.Permits t) :
    ∃ h', h.transition t = .ok h' ∧ h.Follows t h' := by
  have hs := hr.sound
  have hseq : (h.nextRecord t).sequence = 0 ↔ h.cursor.latestStep = none := by
    change h.cursor.stepCount = 0 ↔ _
    rw [hs.step_count, hs.latest, Option.map_eq_none_iff, List.getLast?_eq_none_iff,
      List.length_eq_zero_iff]
  let step : JournalStep := ⟨h.nextRecord t, h.cursor.latestStep, hseq, hp.authority⟩
  have hadmits : h.Admits step := (admits_iff_permits hr hk rfl rfl).mpr hp
  have happend : h.append step = .ok (h.after step) := append_eq_ok_iff.mpr ⟨hadmits, rfl⟩
  refine ⟨h.after step, ?_, hr.append happend, rfl, ?_, rfl, rfl, step, rfl, rfl⟩
  · have hnext : h.nextStep t = .ok step := by
      unfold nextStep JournalStep.make
      rw [dif_pos hseq]
      exact dif_pos hp.authority
    simp only [transition, hnext, bind, Except.bind, happend]
  · have hslot : (h.after step).slot = (h.ledger.step t).slot := by
      funext kind path
      rw [slot_after]
      simp only [noteSlot, Ledger.step, ledger_slot]
      change (match (h.nextRecord t).event with | none => _ | some e => _) = _
      rw [nextRecord_event]
      cases t.event <;> rfl
    have hdurability : (h.after step).durability = (h.ledger.step t).durability :=
      durability_after
    simp only [ledger, hslot, hdurability]
    rfl

/-- The step of a transition holds its record, after the latest step. -/
theorem nextStep_eq_ok {t : Transition} (hstep : h.nextStep t = .ok step) :
    step.toStepRecord = h.nextRecord t ∧ step.predecessor = h.cursor.latestStep := by
  unfold nextStep JournalStep.make at hstep
  split at hstep
  · split at hstep
    · cases hstep
      exact ⟨rfl, rfl⟩
    · cases hstep
  · cases hstep

/-- A journaled transition was permitted. -/
theorem permits_of_transition (hr : Appended h) (hk : h.Keyed) {t : Transition}
    (ht : h.transition t = .ok h') : h.Permits t ∧ h.Follows t h' := by
  have hbind := ht
  unfold transition at hbind
  obtain ⟨step, hstep, happend⟩ := bind_eq_ok_iff.mp hbind
  obtain ⟨hadmits, rfl⟩ := append_eq_ok_iff.mp happend
  have hmake := nextStep_eq_ok hstep
  have hp := (admits_iff_permits hr hk hmake.1 hmake.2).mp hadmits
  obtain ⟨h'', hok, hfollows⟩ := transition_ok hr hk hp
  rw [ht] at hok
  cases hok
  exact ⟨hp, hfollows⟩

end JournalHistory

end PkgApply
