import PkgApply.Mechanism

/-!
# Journal values

Effects, events and the whole-record snapshot of one application journal,
with the batch validation a snapshot is constructed under.
-/

namespace PkgApply

/-! ## States, effects and events -/

/-- Durable execution phase of a journal. -/
inductive JournalState where
  | preparing
  | prepared
  | mutating
  | effectsVisible
  | resultObserved
  | applicationCompleted
  | externalResolutionPending
  | recovering
  | recovered
  | finalized
  | abandoned
  | indeterminate
  | recoveryPending
deriving DecidableEq, Repr

/-- The lifecycle edges.  The transport and the snapshot successor check keep
two copies of this one table. -/
def stateMayFollow (previous next : JournalState) : Bool :=
  previous == next ||
    match previous with
    | .preparing => next == .prepared || next == .abandoned
    | .prepared => next == .mutating
    | .mutating =>
      next == .effectsVisible || next == .recoveryPending || next == .indeterminate ||
        next == .abandoned
    | .effectsVisible =>
      next == .resultObserved || next == .recoveryPending || next == .indeterminate ||
        next == .abandoned
    | .resultObserved =>
      next == .applicationCompleted || next == .effectsVisible || next == .recoveryPending ||
        next == .indeterminate
    | .recoveryPending =>
      next == .recovering || next == .recovered || next == .effectsVisible ||
        next == .indeterminate || next == .abandoned
    | .indeterminate => next == .recovering || next == .effectsVisible || next == .abandoned
    | .recovering =>
      next == .recovered || next == .effectsVisible || next == .indeterminate ||
        next == .abandoned
    | .applicationCompleted | .externalResolutionPending | .recovered | .finalized
    | .abandoned => false

@[simp] theorem stateMayFollow_self (s : JournalState) : stateMayFollow s s = true := by
  simp [stateMayFollow]

inductive EffectKind where
  | captureOldObject
  | stageIncomingPayload
  | publishActiveObject
  | publishRejectedObject
  | observeResult
  | synchronizeActiveNamespace
  | synchronizeRejectedStore
  | sealReceipt
  | synchronizeIncomingStaging
  | synchronizeRecoveryStaging
  | synchronizeCompletedEvidence
  | recoverActiveObject
  | synchronizeRecoveredNamespace
  | publishCompletedEvidence
deriving DecidableEq, Repr

def requiresPath : EffectKind → Bool
  | .captureOldObject | .stageIncomingPayload | .publishActiveObject
  | .publishRejectedObject | .observeResult | .recoverActiveObject => true
  | .synchronizeActiveNamespace | .synchronizeRejectedStore | .sealReceipt
  | .synchronizeIncomingStaging | .synchronizeRecoveryStaging
  | .synchronizeCompletedEvidence | .synchronizeRecoveredNamespace
  | .publishCompletedEvidence => false

/-- Whether a completed application needs this effect completed. -/
def successEffectRequired (kind : EffectKind) : Bool :=
  kind != .recoverActiveObject && kind != .synchronizeRecoveredNamespace

/-- One node of the effect graph; path-scoped exactly when its kind is. -/
structure JournalEffect where
  ordinal : Nat
  kind : EffectKind
  path : Option PackagePath
  path_iff : path.isSome = requiresPath kind
deriving DecidableEq

/-- Write-ahead intent, or how the mechanism ended. -/
inductive EventKind where
  | intent
  | completed
  | failed
  | indeterminate
deriving DecidableEq, Repr

structure JournalEvent where
  sequence : Nat
  kind : EventKind
  effect : JournalEffect
  evidence : Evidence
deriving DecidableEq

/-! ## Batch validation -/

/-- What the events of one effect amount to. -/
structure EffectProgress where
  intended : Bool
  terminal : Option EventKind
deriving DecidableEq, Repr

def EffectProgress.untouched : EffectProgress := ⟨false, none⟩

/-- Progress of one effect after one of its events. -/
def EffectProgress.record (p : EffectProgress) : EventKind → EffectProgress
  | .intent => { p with intended := true }
  | kind => { p with terminal := some kind }

/-- Events replayed against a progress table, from event `index` on. -/
def validateEventsFrom (effects : List JournalEffect) :
    List JournalEvent → Nat → List EffectProgress → Except Exn (List EffectProgress)
  | [], _, progress => .ok progress
  | event :: rest, index, progress =>
    if event.sequence ≠ index then
      .error (.invalidArgument "journal event sequence is not consecutive")
    else
      match effects.idxOf? event.effect with
      | none => .error (.invalidArgument "journal event cites an unknown effect")
      | some ordinal =>
        let state := progress.getD ordinal .untouched
        if event.kind = .intent then
          if state.intended ∨ state.terminal.isSome then
            .error (.invalidArgument "duplicate or late journal effect intent")
          else
            validateEventsFrom effects rest (index + 1)
              (progress.set ordinal { state with intended := true })
        else if !state.intended then
          .error (.invalidArgument "journal terminal event precedes intent")
        else if state.terminal.isSome then
          .error (.invalidArgument "journal effect has multiple terminal events")
        else
          validateEventsFrom effects rest (index + 1)
            (progress.set ordinal { state with terminal := some event.kind })

def validateEvents (effects : List JournalEffect) (events : List JournalEvent) :
    Except Exn (List EffectProgress) :=
  validateEventsFrom effects events 0 (List.replicate effects.length .untouched)

def successEffectsCompleted (effects : List JournalEffect) (progress : List EffectProgress) :
    Bool :=
  (effects.zip progress).all fun (effect, p) =>
    !successEffectRequired effect.kind || (p.intended && p.terminal == some .completed)

/-- States that claim a successful application. -/
def successfulState : JournalState → Bool
  | .applicationCompleted | .externalResolutionPending | .finalized => true
  | _ => false

/-- An application journal as one value. -/
structure JournalRecord where
  header : JournalHeader
  state : JournalState
  effects : List JournalEffect
  events : List JournalEvent
  receipt : Option ApplicationReceipt
  completedEvidence : Option CompletedEvidence
deriving DecidableEq

namespace JournalRecord

def validateResolution (r : JournalRecord) (progress : List EffectProgress) :
    Except Exn Unit := do
  refuseIf (r.completedEvidence.isSome ∧ r.receipt.isNone)
    (.invalidArgument "journal completed evidence lacks its application receipt")
  refuseIf (successfulState r.state ∧ (r.receipt.isNone ∨ r.completedEvidence.isNone))
    (.invalidArgument "completed journal state lacks receipt or completed evidence")
  refuseIf (successfulState r.state ∧ !successEffectsCompleted r.effects progress)
    (.invalidArgument "completed journal state has unfinished effects")
  refuseIf (!successfulState r.state ∧ r.completedEvidence.isSome)
    (.invalidArgument "non-completed journal state contains completed evidence")
  refuseIf (r.state = .recovered ∧ r.receipt.isNone)
    (.invalidArgument "recovered journal state lacks failure receipt")
  refuseIf (r.state = .abandoned ∧ r.completedEvidence.isSome)
    (.invalidArgument "abandoned journal contains completed evidence")

def make (header : JournalHeader) (state : JournalState) (effects : List JournalEffect)
    (events : List JournalEvent) (receipt : Option ApplicationReceipt)
    (completedEvidence : Option CompletedEvidence) : Except Exn JournalRecord := do
  let effects := effects.insertionSort fun a b => a.ordinal ≤ b.ordinal
  refuseIf (effects.map JournalEffect.ordinal ≠ List.range effects.length)
    (.invalidArgument "journal effect ordinals are not consecutive")
  let progress ← validateEvents effects events
  let record : JournalRecord := ⟨header, state, effects, events, receipt, completedEvidence⟩
  record.validateResolution progress
  return record

/-! ## Snapshot succession -/

/-- Whether `next` may replace the snapshot `previous`. -/
def validateSuccessor (previous next : JournalRecord) : Except Exn Unit := do
  refuseIf (previous.header ≠ next.header)
    (.invalidArgument "journal replacement belongs to another durable attempt")
  refuseIf (previous.effects ≠ next.effects)
    (.invalidArgument "journal replacement changed the frozen effect graph")
  refuseIf (next.events.length < previous.events.length)
    (.invalidArgument "journal replacement truncated its event history")
  refuseIf (next.events.take previous.events.length ≠ previous.events)
    (.invalidArgument "journal replacement rewrote its event history")
  refuseIf (previous.receipt.isSome ∧ previous.receipt ≠ next.receipt)
    (.invalidArgument "journal replacement changed or removed its receipt identity")
  refuseIf
    (previous.completedEvidence.isSome ∧ previous.completedEvidence ≠ next.completedEvidence)
    (.invalidArgument "journal replacement changed or removed completed evidence")
  refuseIf (previous.receipt.isSome ∧ previous ≠ next)
    (.invalidArgument "terminal journal snapshot cannot be replaced")
  refuseIf (!stateMayFollow previous.state next.state)
    (.invalidArgument "journal replacement regressed or skipped its execution state")

end JournalRecord

end PkgApply
