import PkgApply.Journal.Record

/-!
# Append-only journal transport

The immutable declaration of one journal, its hash-linked steps and the
cursor that locates the latest admitted step.
-/

namespace PkgApply

/-- Once-per-attempt declaration: header, effect graph in ordinal order, and
the observations the attempt was admitted under. -/
structure JournalDeclaration where
  header : JournalHeader
  effects : List JournalEffect
  replaySeed : BackendObservationBatch
  ordinals : effects.map JournalEffect.ordinal = List.range effects.length
deriving DecidableEq

def JournalDeclaration.make (header : JournalHeader) (effects : List JournalEffect)
    (replaySeed : BackendObservationBatch) : Except Exn JournalDeclaration :=
  if h : effects.map JournalEffect.ordinal = List.range effects.length then
    .ok ⟨header, effects, replaySeed, h⟩
  else
    .error (.invalidArgument "application journal declaration effects are not consecutive")

/-! ## Steps -/

/-- The content of one step besides its predecessor. -/
structure StepRecord where
  declaration : JournalDeclaration
  sequence : Nat
  state : JournalState
  event : Option JournalEvent
  replayFact : Option ReplayFact
  receipt : Option ApplicationReceipt
  completedEvidence : Option CompletedEvidence
deriving DecidableEq

/-- A step identity binds the step's content and its predecessor's identity. -/
inductive StepIdentity where
  | first (record : StepRecord)
  | next (record : StepRecord) (predecessor : StepIdentity)
deriving DecidableEq

/-- One append-only transition. -/
structure JournalStep extends StepRecord where
  predecessor : Option StepIdentity
  predecessor_iff : sequence = 0 ↔ predecessor = none
  evidence_receipt : completedEvidence.isSome → receipt.isSome
deriving DecidableEq

namespace JournalStep

def identity (step : JournalStep) : StepIdentity :=
  match step.predecessor with
  | none => .first step.toStepRecord
  | some predecessor => .next step.toStepRecord predecessor

def make (record : StepRecord) (predecessor : Option StepIdentity) : Except Exn JournalStep :=
  if h : record.sequence = 0 ↔ predecessor = none then
    if h' : record.completedEvidence.isSome → record.receipt.isSome then
      .ok ⟨record, predecessor, h, h'⟩
    else
      .error (.invalidArgument
        "application journal step completed evidence lacks receipt authority")
  else
    .error (.invalidArgument "application journal step predecessor contradicts its sequence")

/-- Equal identities mean equal steps. -/
theorem identity_injective : Function.Injective identity := by
  rintro ⟨a, p, hp, he⟩ ⟨b, q, hq, hf⟩ h
  cases p <;> cases q <;> simp_all [identity]

@[simp] theorem identity_inj {a b : JournalStep} : a.identity = b.identity ↔ a = b :=
  identity_injective.eq_iff

end JournalStep

/-! ## Cursor -/

/-- Locator of the latest admitted step. -/
structure JournalCursor where
  declaration : JournalDeclaration
  stepCount : Nat
  latestStep : Option StepIdentity
  state : JournalState
  receipt : Option ApplicationReceipt
  completedEvidence : Option CompletedEvidence
deriving DecidableEq

namespace JournalCursor

def initial (declaration : JournalDeclaration) : JournalCursor :=
  ⟨declaration, 0, none, .preparing, none, none⟩

/-- Advance by the exact next step. -/
def advance (current : JournalCursor) (step : JournalStep) : Except Exn JournalCursor := do
  refuseIf (step.declaration ≠ current.declaration)
    (.invalidArgument "application journal step belongs to another declaration")
  refuseIf (step.sequence ≠ current.stepCount)
    (.invalidArgument "application journal step is not the exact cursor successor")
  refuseIf (step.predecessor ≠ current.latestStep)
    (.invalidArgument "application journal step predecessor differs from the cursor head")
  refuseIf (!stateMayFollow current.state step.state)
    (.invalidArgument "application journal step has an invalid state transition")
  refuseIf (current.receipt.isSome ∧ step.receipt ≠ current.receipt)
    (.invalidArgument "application journal step changes retained receipt authority")
  refuseIf (current.completedEvidence.isSome ∧ step.completedEvidence ≠ current.completedEvidence)
    (.invalidArgument "application journal step changes retained completed evidence")
  return ⟨current.declaration, current.stepCount + 1, some step.identity, step.state,
    step.receipt, step.completedEvidence⟩

/-- `advance` accepts exactly the chained successor on an allowed edge that keeps
retained authority. -/
theorem advance_eq_ok_iff {c c' : JournalCursor} {step : JournalStep} :
    c.advance step = .ok c' ↔
      (step.declaration = c.declaration ∧ step.sequence = c.stepCount ∧
        step.predecessor = c.latestStep ∧ stateMayFollow c.state step.state = true ∧
        (c.receipt.isSome → step.receipt = c.receipt) ∧
        (c.completedEvidence.isSome → step.completedEvidence = c.completedEvidence)) ∧
      c' = ⟨c.declaration, c.stepCount + 1, some step.identity, step.state, step.receipt,
          step.completedEvidence⟩ := by
  unfold JournalCursor.advance
  simp only [refuseIf_bind_eq_ok, pure, Except.pure, Except.ok.injEq, not_not, ne_eq, not_and,
    Bool.not_eq_true', Bool.not_eq_false, and_assoc, eq_comm (b := c')]

end JournalCursor

end PkgApply
