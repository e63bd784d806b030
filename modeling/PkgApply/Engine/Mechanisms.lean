import PkgApply.Journal.History
import PkgApply.Library.Process

/-!
# Engine processes

The engine is a process that journals transitions and calls mechanisms.  Its
state is the history it extends and the log of what it has done; the log is
never read by the engine.
-/

namespace PkgApply

open Library

/-! ## Mechanism calls -/

/-- Why a path set is observed. -/
inductive ObservationPurpose where
  | preconditions
  | result
deriving DecidableEq, Repr

/-- One call of the backend transaction.  The purpose of an observation and
the effect a synchronization belongs to are not passed to the backend; they
tell apart the calls one process makes with equal arguments. -/
inductive MechanismRequest where
  | observe (purpose : ObservationPurpose) (paths : List PackagePath)
  | beginPayloadStage (selection : List EntryId)
  | sealPayloadStage
  | captureOld (request : OldObjectCaptureRequest)
  | executeRejected (request : BackendRejectedEffectRequest)
  | executeActive (request : BackendActiveEffectRequest)
  | publishCompletedEvidence (evidence : CompletedEvidence)
  | recover (path : PackagePath)
  | synchronize (effect : EffectKind) (domain : DurabilityDomain)
deriving DecidableEq

/-- What each call returns. -/
def MechanismRequest.Response : MechanismRequest → Type
  | observe _ _ => BackendObservationBatch
  | beginPayloadStage _ => Unit
  | sealPayloadStage => PayloadStageResult
  | captureOld _ => OldObjectCaptureResult
  | executeRejected _ => RejectedObjectPublicationResult
  | executeActive _ => BackendOperationResult
  | publishCompletedEvidence _ => CompletedEvidencePublicationResult
  | recover _ => BackendOperationResult
  | synchronize _ _ => DurabilityFact

/-- The answers of the mechanisms to one process. -/
abbrev Mechanisms := (request : MechanismRequest) → request.Response

/-! ## Transitions -/

/-- The event part of a transition. -/
structure TransitionEvent where
  effect : JournalEffect
  kind : EventKind
  evidence : Evidence
deriving DecidableEq

/-- What the engine asks the journal to retain next. -/
structure Transition where
  state : JournalState
  event : Option TransitionEvent
  replayFact : Option ReplayFact
  receipt : Option ApplicationReceipt
  completedEvidence : Option CompletedEvidence
deriving DecidableEq

namespace JournalHistory

/-- The next event of a history. -/
def nextEvent (h : JournalHistory) (e : TransitionEvent) : JournalEvent :=
  ⟨h.events.length, e.kind, e.effect, e.evidence⟩

/-- The content of the step a transition becomes. -/
def nextRecord (h : JournalHistory) (t : Transition) : StepRecord :=
  ⟨h.declaration, h.cursor.stepCount, t.state, t.event.map h.nextEvent, t.replayFact, t.receipt,
    t.completedEvidence⟩

/-- The step a transition becomes at the head of a history. -/
def nextStep (h : JournalHistory) (t : Transition) : Except Exn JournalStep :=
  JournalStep.make (h.nextRecord t) h.cursor.latestStep

/-- The history one transition later. -/
def transition (h : JournalHistory) (t : Transition) : Except Exn JournalHistory := do
  h.append (← h.nextStep t)

end JournalHistory

/-! ## The engine signature -/

inductive EngineOp where
  | journal (transition : Transition)
  | mechanism (request : MechanismRequest)

def engineSignature : Signature where
  Op := EngineOp
  Response
    | .journal _ => Unit
    | .mechanism request => request.Response

/-- An engine process reads the history it extends. -/
abbrev Engine (α : Type) := Process engineSignature JournalHistory Exn α

/-- One engine operation with its response. -/
abbrev EngineCall := engineSignature.Call

/-- The history an engine process extends, and what has been done so far. -/
structure EngineState where
  history : JournalHistory
  log : List EngineCall

/-- The meaning of engine operations under given mechanism answers. -/
def engineMachine (mechanisms : Mechanisms) :
    Machine engineSignature EngineState JournalHistory Exn where
  view := EngineState.history
  perform
    | .journal t, s =>
      match s.history.transition t with
      | .ok history => .ok ((), ⟨history, s.log ++ [⟨.journal t, ()⟩]⟩)
      | .error e => .error e
    | .mechanism request, s =>
      .ok (mechanisms request,
        ⟨s.history, s.log ++ [⟨.mechanism request, mechanisms request⟩]⟩)

namespace Engine

/-- The history so far. -/
def history : Engine JournalHistory := Process.read

/-- Call one mechanism. -/
def mechanism (request : MechanismRequest) : Engine request.Response :=
  Process.perform (S := engineSignature) (.mechanism request)

/-- Journal one transition. -/
def journal (transition : Transition) : Engine Unit :=
  Process.perform (S := engineSignature) (.journal transition)

def throw {α : Type} (e : Exn) : Engine α := Process.throw e

end Engine

/-- Journal a state change, possibly with terminal authority. -/
def publishState (state : JournalState) (receipt : Option ApplicationReceipt := none)
    (completedEvidence : Option CompletedEvidence := none) : Engine Unit :=
  Engine.journal ⟨state, none, none, receipt, completedEvidence⟩

/-- Journal one event of an effect. -/
def publishEvent (state : JournalState) (effect : JournalEffect) (kind : EventKind)
    (evidence : Evidence := ∅) (replayFact : Option ReplayFact := none)
    (receipt : Option ApplicationReceipt := none)
    (completedEvidence : Option CompletedEvidence := none) : Engine Unit :=
  Engine.journal ⟨state, some ⟨effect, kind, evidence⟩, replayFact, receipt, completedEvidence⟩

/-! ## Effects -/

/-- The effects of one kind at one path. -/
def matchingEffects (effects : List JournalEffect) (kind : EffectKind)
    (path : Option PackagePath) : List JournalEffect :=
  effects.filter fun e => e.kind == kind && e.path == path

/-- The one effect of a kind at a path. -/
def findEffect (effects : List JournalEffect) (kind : EffectKind) (path : Option PackagePath) :
    Except Exn JournalEffect :=
  match matchingEffects effects kind path with
  | [effect] => .ok effect
  | [] => .error (.logicError "application journal lacks required effect")
  | _ => .error (.logicError "application journal effect is not unique")

/-- The terminal event of a mechanism outcome. -/
def terminalEvent : BackendOperationOutcome → Except Exn EventKind
  | .completed => .ok .completed
  | .failed => .ok .failed
  | .indeterminate => .ok .indeterminate
  | .conditionalRetained =>
    .error (.logicError "backend returned an unsupported conditional outcome")

/-- The terminal event of a synchronization status, which must be attempted. -/
def synchronizationEvent (unattempted : Exn) : DurabilityStatus → Except Exn EventKind
  | .confirmed => .ok .completed
  | .visible | .unconfirmed => .ok .failed
  | .indeterminate => .ok .indeterminate
  | .notAttempted => .error unattempted

/-- Synchronize one domain between the intent and the terminal event of an
effect, in a given journal state. -/
def synchronizeDomain (state : JournalState) (kind : EffectKind) (domain : DurabilityDomain)
    (mismatch unattempted : String) : Engine DurabilityFact := do
  let h ← Engine.history
  let effect ← findEffect h.effects kind none
  publishEvent state effect .intent
  let fact ← Engine.mechanism (.synchronize kind domain)
  refuseIf (fact.domain ≠ domain) (.logicError mismatch)
  let terminal ← synchronizationEvent (.logicError unattempted) fact.status
  publishEvent state effect terminal ∅ (some (.synchronization fact))
  return fact

end PkgApply
