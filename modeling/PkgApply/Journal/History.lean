import PkgApply.Journal.Transport

/-!
# Append-only journal history

The in-memory history of one journal: the admitted steps, and what they amount
to for every effect, kept incrementally.  `append` validates one step against
the head; nothing else extends a history.
-/

namespace PkgApply

structure JournalHistory where
  declaration : JournalDeclaration
  cursor : JournalCursor
  progress : List EffectProgress
  events : List JournalEvent
  steps : List JournalStep
  completedSuccessEffects : Nat
  requiredSuccessEffects : Nat
deriving DecidableEq

namespace JournalHistory

def initial (declaration : JournalDeclaration) : JournalHistory where
  declaration := declaration
  cursor := .initial declaration
  progress := List.replicate declaration.effects.length .untouched
  events := []
  steps := []
  completedSuccessEffects := 0
  requiredSuccessEffects := declaration.effects.countP fun e => successEffectRequired e.kind

section Accessors

variable (h : JournalHistory)

def header : JournalHeader := h.declaration.header
def effects : List JournalEffect := h.declaration.effects
def state : JournalState := h.cursor.state
def receipt : Option ApplicationReceipt := h.cursor.receipt
def completedEvidence : Option CompletedEvidence := h.cursor.completedEvidence

/-- What the events of one effect amount to. -/
def progressOf (effect : JournalEffect) : EffectProgress :=
  match h.effects.idxOf? effect with
  | some ordinal => h.progress.getD ordinal .untouched
  | none => .untouched

end Accessors

/-! ## Validation of one step -/

/-- The once-only rule of an effect's intent and terminal event. -/
def validateEvent (h : JournalHistory) (event : JournalEvent) : Except Exn Nat := do
  refuseIf (event.sequence ≠ h.events.length)
    (.invalidArgument "application journal step event sequence is not consecutive")
  let some ordinal := h.effects.idxOf? event.effect
    | throw (.invalidArgument "application journal step event cites an unknown effect")
  let progress := h.progress.getD ordinal .untouched
  refuseIf (event.kind = .intent ∧ (progress.intended ∨ progress.terminal.isSome))
    (.invalidArgument "application journal step repeats or delays an effect intent")
  refuseIf (event.kind ≠ .intent ∧ !progress.intended)
    (.invalidArgument "application journal step terminal event precedes intent")
  refuseIf (event.kind ≠ .intent ∧ progress.terminal.isSome)
    (.invalidArgument "application journal step repeats an effect terminal event")
  return ordinal

/-- Ordinal of the effect a step's event cites, if the step has an event. -/
def validateStepEvent (h : JournalHistory) : Option JournalEvent → Except Exn (Option Nat)
  | some event => some <$> h.validateEvent event
  | none => return none

/-- What a cursor must satisfy given the completed success effects. -/
def validateResolution (h : JournalHistory) (candidate : JournalCursor) (completed : Nat) :
    Except Exn Unit := do
  refuseIf (candidate.completedEvidence.isSome ∧ candidate.receipt.isNone)
    (.invalidArgument "application journal completed evidence lacks its receipt")
  refuseIf (successfulState candidate.state ∧
      (candidate.receipt.isNone ∨ candidate.completedEvidence.isNone))
    (.invalidArgument "completed application journal state lacks terminal authority")
  refuseIf (successfulState candidate.state ∧ completed ≠ h.requiredSuccessEffects)
    (.invalidArgument "completed application journal state has unfinished effects")
  refuseIf (!successfulState candidate.state ∧ candidate.completedEvidence.isSome)
    (.invalidArgument "non-completed application journal state retains completed evidence")
  refuseIf (candidate.state = .recovered ∧ candidate.receipt.isNone)
    (.invalidArgument "recovered application journal state lacks a failure receipt")

structure StepValidation where
  candidate : JournalCursor
  ordinal : Option Nat
  completedSuccessEffects : Nat

/-- Completed success effects once an event is counted. -/
def countCompleted (h : JournalHistory) : Option JournalEvent → Nat
  | some event =>
    if event.kind = .completed ∧ successEffectRequired event.effect.kind then
      h.completedSuccessEffects + 1
    else
      h.completedSuccessEffects
  | none => h.completedSuccessEffects

/-- Where a receipt may first appear. -/
def validateReceiptEvent (h : JournalHistory) (candidate : JournalCursor)
    (event : Option JournalEvent) : Except Exn Unit := do
  let introducesReceipt := h.receipt.isNone && candidate.receipt.isSome
  match event with
  | some event =>
    refuseIf (introducesReceipt ∧ (event.kind ≠ .completed ∨ event.effect.kind ≠ .sealReceipt))
      (.invalidArgument "application journal receipt event is not receipt sealing")
  | none =>
    refuseIf (introducesReceipt ∧ successfulState candidate.state)
      (.invalidArgument "successful application journal receipt lacks receipt sealing")

/-- Whether an event is a terminal one. -/
def isTerminal (event : Option JournalEvent) : Bool :=
  event.any fun e => e.kind != .intent

def validateStep (h : JournalHistory) (step : JournalStep) : Except Exn StepValidation := do
  let candidate ← h.cursor.advance step
  let ordinal ← h.validateStepEvent step.event
  let completed := h.countCompleted step.event
  refuseIf (!isTerminal step.event ∧ step.replayFact.isSome)
    (.invalidArgument "application journal replay fact is not a terminal effect result")
  h.validateReceiptEvent candidate step.event
  h.validateResolution candidate completed
  return ⟨candidate, ordinal, completed⟩

/-- The cursor a valid step leads to. -/
def validate (h : JournalHistory) (step : JournalStep) : Except Exn JournalCursor := do
  return (← h.validateStep step).candidate

/-! ## Append -/

/-- The history after a validated step. -/
def extend (h : JournalHistory) (step : JournalStep) (v : StepValidation) : JournalHistory :=
  { h with
    cursor := v.candidate
    progress :=
      match v.ordinal, step.event with
      | some ordinal, some event =>
        h.progress.set ordinal
          ((h.progress.getD ordinal .untouched).record event.kind)
      | _, _ => h.progress
    events := h.events ++ step.event.toList
    steps := h.steps ++ [step]
    completedSuccessEffects := v.completedSuccessEffects }

def append (h : JournalHistory) (step : JournalStep) : Except Exn JournalHistory := do
  let v ← h.validateStep step
  return h.extend step v

/-- The history as one record. -/
def snapshot (h : JournalHistory) : Except Exn JournalRecord :=
  JournalRecord.make h.header h.state h.effects h.events h.receipt h.completedEvidence

/-! ## What `append` accepts -/

/-- Guards of one event. -/
structure AdmitsEvent (h : JournalHistory) (event : JournalEvent) : Prop where
  sequence : event.sequence = h.events.length
  declared : event.effect ∈ h.effects
  fresh : event.kind = .intent → h.progressOf event.effect = .untouched
  open_ : event.kind ≠ .intent → h.progressOf event.effect = ⟨true, none⟩

/-- Guards of the terminal authority a step names. -/
structure AdmitsResolution (h : JournalHistory) (step : JournalStep) : Prop where
  sealing : h.receipt = none → step.receipt.isSome →
    (∀ e, step.event = some e → e.kind = .completed ∧ e.effect.kind = .sealReceipt) ∧
      (step.event = none → successfulState step.state = false)
  successful : successfulState step.state = true →
    step.receipt.isSome ∧ step.completedEvidence.isSome ∧
      h.countCompleted step.event = h.requiredSuccessEffects
  unsuccessful : successfulState step.state = false → step.completedEvidence = none
  recovered : step.state = .recovered → step.receipt.isSome

/-- Everything a step must satisfy to extend a history. -/
structure Admits (h : JournalHistory) (step : JournalStep) : Prop where
  declaration : step.declaration = h.cursor.declaration
  sequence : step.sequence = h.cursor.stepCount
  predecessor : step.predecessor = h.cursor.latestStep
  edge : stateMayFollow h.state step.state = true
  receipt : h.receipt.isSome → step.receipt = h.receipt
  evidence : h.completedEvidence.isSome → step.completedEvidence = h.completedEvidence
  event : ∀ e, step.event = some e → h.AdmitsEvent e
  fact : step.replayFact.isSome → isTerminal step.event = true
  resolution : h.AdmitsResolution step

/-- The history one admitted step later. -/
def after (h : JournalHistory) (step : JournalStep) : JournalHistory where
  declaration := h.declaration
  cursor :=
    ⟨h.cursor.declaration, h.cursor.stepCount + 1, some step.identity, step.state, step.receipt,
      step.completedEvidence⟩
  progress :=
    match step.event with
    | none => h.progress
    | some event =>
      match h.effects.idxOf? event.effect with
      | none => h.progress
      | some ordinal =>
        h.progress.set ordinal
          ((h.progress.getD ordinal .untouched).record event.kind)
  events := h.events ++ step.event.toList
  steps := h.steps ++ [step]
  completedSuccessEffects := h.countCompleted step.event
  requiredSuccessEffects := h.requiredSuccessEffects

section Append

variable {h h' : JournalHistory} {step : JournalStep}

theorem validateEvent_eq_ok_iff {e : JournalEvent} {n : Nat} :
    h.validateEvent e = .ok n ↔ h.AdmitsEvent e ∧ h.effects.idxOf? e.effect = some n := by
  unfold validateEvent
  rw [refuseIf_bind_eq_ok]
  cases hidx : h.effects.idxOf? e.effect with
  | none =>
    simp only [throw, throwThe, MonadExceptOf.throw, reduceCtorEq, and_false]
  | some ordinal =>
    have hmem : e.effect ∈ h.effects := by
      by_contra hnot
      rw [List.idxOf?_eq_none_iff.mpr hnot] at hidx
      cases hidx
    have hp : h.progressOf e.effect = h.progress.getD ordinal .untouched := by
      simp only [progressOf, hidx]
    simp only [refuseIf_bind_eq_ok, pure, Except.pure, Except.ok.injEq, not_not, Option.some.injEq]
    constructor
    · rintro ⟨hseq, hintent, hopen, honce, rfl⟩
      refine ⟨⟨hseq, hmem, fun hk => ?_, fun hk => ?_⟩, rfl⟩
      · rw [hp]
        cases hg : h.progress.getD ordinal .untouched
        simp_all [EffectProgress.untouched]
      · rw [hp]
        cases hg : h.progress.getD ordinal .untouched
        simp_all
    · rintro ⟨⟨hseq, -, hfresh, hopen⟩, rfl⟩
      rw [hp] at hfresh hopen
      refine ⟨hseq, ?_, ?_, ?_, rfl⟩
      · rintro ⟨hk, hbad⟩
        rw [hfresh hk] at hbad
        simp [EffectProgress.untouched] at hbad
      · rintro ⟨hk, hbad⟩
        rw [hopen hk] at hbad
        simp at hbad
      · rintro ⟨hk, hbad⟩
        rw [hopen hk] at hbad
        simp at hbad

theorem validateResolution_eq_ok_iff {c : JournalCursor} {n : Nat} :
    h.validateResolution c n = .ok () ↔
      (c.completedEvidence.isSome → c.receipt.isSome) ∧
      (successfulState c.state = true → c.receipt.isSome ∧ c.completedEvidence.isSome ∧
        n = h.requiredSuccessEffects) ∧
      (successfulState c.state = false → c.completedEvidence = none) ∧
      (c.state = .recovered → c.receipt.isSome) := by
  unfold validateResolution
  simp only [refuseIf_bind_eq_ok, refuseIf_eq_ok]
  cases successfulState c.state <;> cases c.receipt <;> cases c.completedEvidence <;> simp

theorem validateReceiptEvent_eq_ok_iff {c : JournalCursor} {e : Option JournalEvent} :
    h.validateReceiptEvent c e = .ok () ↔
      (h.receipt = none → c.receipt.isSome →
        (∀ x, e = some x → x.kind = .completed ∧ x.effect.kind = .sealReceipt) ∧
          (e = none → successfulState c.state = false)) := by
  unfold validateReceiptEvent
  cases e <;> cases h.receipt <;> cases c.receipt <;> simp

theorem validateStepEvent_eq_ok_iff {e : Option JournalEvent} {n : Option Nat} :
    h.validateStepEvent e = .ok n ↔ (∀ x, e = some x → h.AdmitsEvent x) ∧
      n = e.bind fun x => h.effects.idxOf? x.effect := by
  cases e with
  | none => simp [validateStepEvent, pure, Except.pure, eq_comm]
  | some x =>
    have hidx : h.AdmitsEvent x → ∃ k, h.effects.idxOf? x.effect = some k := fun hadmits => by
      cases hk : h.effects.idxOf? x.effect with
      | some k => exact ⟨k, rfl⟩
      | none => exact absurd hadmits.declared (List.idxOf?_eq_none_iff.mp hk)
    simp only [validateStepEvent, Option.some.injEq, forall_eq', Option.bind_some]
    constructor
    · intro hmap
      cases hv : h.validateEvent x with
      | error _ => simp [hv] at hmap
      | ok k =>
        obtain ⟨hadmits, hk⟩ := validateEvent_eq_ok_iff.mp hv
        simp only [hv, Functor.map, Except.map, Except.ok.injEq] at hmap
        exact ⟨hadmits, by rw [← hmap, hk]⟩
    · rintro ⟨hadmits, rfl⟩
      obtain ⟨k, hk⟩ := hidx hadmits
      simp only [validateEvent_eq_ok_iff.mpr ⟨hadmits, hk⟩, Functor.map, Except.map, hk]

theorem validateStep_eq_ok_iff {v : StepValidation} :
    h.validateStep step = .ok v ↔ h.Admits step ∧
      v = ⟨⟨h.cursor.declaration, h.cursor.stepCount + 1, some step.identity, step.state,
        step.receipt, step.completedEvidence⟩,
        step.event.bind fun e => h.effects.idxOf? e.effect, h.countCompleted step.event⟩ := by
  unfold validateStep
  simp only [bind_eq_ok_iff, JournalCursor.advance_eq_ok_iff, validateStepEvent_eq_ok_iff,
    refuseIf_eq_ok, pure, Except.pure, Except.ok.injEq, exists_const]
  constructor
  · rintro ⟨c, ⟨⟨hdecl, hseq, hpred, hedge, hrec, hev⟩, rfl⟩, n, ⟨hevent, rfl⟩, hfact, u, hseal,
      u', hres, rfl⟩
    rw [validateReceiptEvent_eq_ok_iff] at hseal
    rw [validateResolution_eq_ok_iff] at hres
    refine ⟨⟨hdecl, hseq, hpred, hedge, hrec, hev, hevent, fun hsome => ?_,
      ⟨hseal, hres.2.1, hres.2.2.1, hres.2.2.2⟩⟩, rfl⟩
    by_contra hnot
    exact hfact ⟨by simpa using hnot, hsome⟩
  · rintro ⟨ha, rfl⟩
    refine ⟨_, ⟨⟨ha.declaration, ha.sequence, ha.predecessor, ha.edge, ha.receipt, ha.evidence⟩,
      rfl⟩, _, ⟨ha.event, rfl⟩, ?_, (), ?_, (), ?_, rfl⟩
    · rintro ⟨hnot, hsome⟩
      rw [ha.fact hsome] at hnot
      cases hnot
    · exact validateReceiptEvent_eq_ok_iff.mpr ha.resolution.sealing
    · exact validateResolution_eq_ok_iff.mpr ⟨step.evidence_receipt, ha.resolution.successful,
        ha.resolution.unsuccessful, ha.resolution.recovered⟩

private theorem extend_validated :
    h.extend step ⟨⟨h.cursor.declaration, h.cursor.stepCount + 1, some step.identity, step.state,
      step.receipt, step.completedEvidence⟩,
      step.event.bind fun e => h.effects.idxOf? e.effect, h.countCompleted step.event⟩ =
      h.after step := by
  unfold extend after
  cases step.event with
  | none => rfl
  | some e =>
    simp only [Option.bind_some]
    cases h.effects.idxOf? e.effect <;> rfl

/-- `append` accepts exactly the admitted steps. -/
theorem append_eq_ok_iff : h.append step = .ok h' ↔ h.Admits step ∧ h' = h.after step := by
  unfold append
  simp only [bind_eq_ok_iff, validateStep_eq_ok_iff, pure, Except.pure, Except.ok.injEq]
  constructor
  · rintro ⟨v, ⟨ha, rfl⟩, rfl⟩
    exact ⟨ha, extend_validated⟩
  · rintro ⟨ha, rfl⟩
    exact ⟨_, ⟨ha, rfl⟩, extend_validated⟩

end Append

end JournalHistory

end PkgApply
