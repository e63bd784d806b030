import PkgApply.Engine.Active
import PkgApply.Engine.Journaled
import PkgApply.Restart.Decoding

/-!
# Restart view

The facts a journal retains, read back and folded over its steps.  Each terminal
event must carry the fact of its effect, consistent with the event and with what
other events retain.
-/

namespace PkgApply

/-- The facts one journal exposes to a restarted backend and engine. -/
structure RestartView where
  declaration : JournalDeclaration
  attempt : ApplicationAttempt
  admittedObservations : BackendObservationBatch
  incomingPayload : Option BackendOperationResult
  captures : List OldObjectCaptureResult
  rejectedEffects : List (PackagePath × RejectedObjectPublicationResult)
  activeEffects : List (PackagePath × BackendOperationResult)
  recoveryEffects : List (PackagePath × BackendOperationResult)
  synchronizations : DurabilityDomain → Option DurabilityFact
  durability : DurabilityProfile
  backendEvidence : Evidence
  completedEvidence : Option CompletedEvidence

/-- The value retained at one path. -/
def findPathValue {α : Type} (values : List (PackagePath × α)) (path : PackagePath) : Option α :=
  (values.find? fun v => v.1 == path).map Prod.snd

namespace RestartView

def findCapture (view : RestartView) (path : PackagePath) : Option OldObjectCaptureResult :=
  view.captures.find? fun c => c.captured.path == path

def findRejectedEffect (view : RestartView) (path : PackagePath) :
    Option RejectedObjectPublicationResult :=
  findPathValue view.rejectedEffects path

def findActiveEffect (view : RestartView) (path : PackagePath) : Option BackendOperationResult :=
  findPathValue view.activeEffects path

def findRecoveryEffect (view : RestartView) (path : PackagePath) :
    Option BackendOperationResult :=
  findPathValue view.recoveryEffects path

def findSynchronization (view : RestartView) (domain : DurabilityDomain) :
    Option DurabilityFact :=
  view.synchronizations domain

end RestartView

/-! ## The fold -/

/-- What the steps replayed so far have established. -/
structure ViewSlots where
  incomingPayload : Option BackendOperationResult
  captures : PackagePath → Option OldObjectCaptureResult
  rejected : PackagePath → Option RejectedObjectPublicationResult
  active : PackagePath → Option BackendOperationResult
  recovery : PackagePath → Option BackendOperationResult
  synchronizations : DurabilityDomain → Option DurabilityFact
  completedEvidence : Option CompletedEvidence
  backendEvidence : Evidence
  durability : DurabilityProfile

def ViewSlots.empty (admitted : Evidence) : ViewSlots :=
  ⟨none, fun _ => none, fun _ => none, fun _ => none, fun _ => none, fun _ => none, none, admitted,
    ⟨.confirmed, .notAttempted, .notAttempted, .notAttempted, .notAttempted, .notAttempted⟩⟩

/-- Retain the fact of one planned path; a second one is refused. -/
def retainPathFact {α : Type} (plan : OperationPlan) (slots : PackagePath → Option α)
    (path : PackagePath) (value : α) (duplicate : String) :
    Except Exn (PackagePath → Option α) := do
  refuseIf (plan.decision path).isNone
    (.invalidArgument "application replay fact cites an unplanned path")
  refuseIf (slots path).isSome (.invalidArgument duplicate)
  return fun p => if p = path then some value else slots p

/-- The terminal event a retained outcome belongs to. -/
def replayTerminalEvent : BackendOperationOutcome → Except Exn EventKind
  | .completed => .ok .completed
  | .failed => .ok .failed
  | .indeterminate => .ok .indeterminate
  | .conditionalRetained => .error (.invalidArgument
      "conditional retained outcome is not valid for this replay fact")

def replayActiveTerminalEvent : BackendOperationOutcome → Except Exn EventKind
  | .conditionalRetained => .ok .completed
  | outcome => replayTerminalEvent outcome

/-- The domain a synchronization effect makes durable. -/
def synchronizationDomain : EffectKind → Except Exn DurabilityDomain
  | .synchronizeIncomingStaging => .ok .incomingStaging
  | .synchronizeRecoveryStaging => .ok .recoveryStaging
  | .synchronizeActiveNamespace | .synchronizeRecoveredNamespace => .ok .activeNamespace
  | .synchronizeRejectedStore => .ok .rejectedObjectStore
  | .synchronizeCompletedEvidence => .ok .completedEvidence
  | _ => .error (.invalidArgument
      "application replay synchronization fact names a non-synchronization effect")

namespace ViewSlots

variable (v : ViewSlots) (request : ApplicationRequest) (event : JournalEvent)

def noteSeal (result : BackendOperationResult) : Except Exn ViewSlots := do
  let terminal ← replayTerminalEvent result.outcome
  refuseIf (event.kind ≠ terminal ∨ event.evidence ≠ result.evidence)
    (.invalidArgument "incoming staging replay fact contradicts its terminal event")
  refuseIf (v.incomingPayload.any fun retained => retained != result)
    (.invalidArgument "incoming staging effects retain conflicting replay facts")
  return { v with
    incomingPayload := some result
    durability := v.durability.set .incomingStaging
      (if result.outcome = .completed then .visible else .indeterminate) }

def noteCapture (captures : List OldObjectCaptureRequest) (result : OldObjectCaptureResult) :
    Except Exn ViewSlots := do
  let path := result.captured.path
  refuseIf (event.effect.path ≠ some path ∨ event.evidence ≠ result.evidence)
    (.invalidArgument "capture replay fact contradicts its journal effect")
  refuseIf (result.outcome = .conditionalRetained)
    (.invalidArgument "capture replay fact is conditional")
  refuseIf (request.plan.decision path).isNone
    (.invalidArgument "application replay fact cites an unplanned path")
  let some planned := captures.find? fun c => c.path == path
    | throw (.invalidArgument "capture replay fact cites an unplanned capture")
  let terminal ← replayTerminalEvent (captureSemanticOutcome request.control planned result)
  refuseIf (event.kind ≠ terminal)
    (.invalidArgument "capture replay fact contradicts its terminal event")
  let captures ← retainPathFact request.plan v.captures path result
    "duplicate application replay capture path"
  return { v with
    captures := captures
    durability := v.durability.set .recoveryStaging
      (if result.outcome = .completed then .visible else .indeterminate) }

def noteRejected (path : PackagePath) (result : RejectedObjectPublicationResult) :
    Except Exn ViewSlots := do
  refuseIf (event.effect.path ≠ some path)
    (.invalidArgument "rejected replay fact contradicts its terminal event")
  let terminal ← replayTerminalEvent result.outcome
  refuseIf (event.kind ≠ terminal ∨ event.evidence ≠ result.evidence)
    (.invalidArgument "rejected replay fact contradicts its terminal event")
  let rejected ← retainPathFact request.plan v.rejected path result
    "duplicate application replay rejected path"
  return { v with
    rejected := rejected
    durability := v.durability.set .rejectedObjectStore
      (outcomeDurability v.durability.rejectedObjectStore result.outcome) }

/-- Whether a retained active result changed the target. -/
def activeResultChangedTarget (d : PathDecision) (outcome : BackendOperationOutcome) : Bool :=
  outcome == .completed && activeMechanismRequired d.active

/-- The status an active result leaves in the active namespace. -/
def activeResultDurability (plan : OperationPlan) (path : PackagePath)
    (outcome : BackendOperationOutcome) (previous : DurabilityStatus) : DurabilityStatus :=
  if outcome = .indeterminate then .indeterminate
  else if (plan.decision path).any fun d => activeResultChangedTarget d outcome then .visible
  else previous

def noteActive (path : PackagePath) (result : BackendOperationResult) :
    Except Exn ViewSlots := do
  refuseIf (event.effect.path ≠ some path)
    (.invalidArgument "active replay fact contradicts its terminal event")
  let terminal ← replayActiveTerminalEvent result.outcome
  refuseIf (event.kind ≠ terminal ∨ event.evidence ≠ result.evidence)
    (.invalidArgument "active replay fact contradicts its terminal event")
  let active ← retainPathFact request.plan v.active path result
    "duplicate application replay active path"
  return { v with
    active := active
    durability := v.durability.set .activeNamespace
      (activeResultDurability request.plan path result.outcome v.durability.activeNamespace) }

def noteRecovery (path : PackagePath) (result : BackendOperationResult) :
    Except Exn ViewSlots := do
  refuseIf (event.effect.path ≠ some path)
    (.invalidArgument "recovery replay fact contradicts its terminal event")
  let terminal ← replayTerminalEvent result.outcome
  refuseIf (event.kind ≠ terminal ∨ event.evidence ≠ result.evidence)
    (.invalidArgument "recovery replay fact contradicts its terminal event")
  let recovery ← retainPathFact request.plan v.recovery path result
    "duplicate application replay recovery path"
  return { v with
    recovery := recovery
    durability := v.durability.set .activeNamespace
      (outcomeDurability v.durability.activeNamespace result.outcome) }

/-- One slot for each domain; a later synchronization replaces an earlier. -/
def noteSynchronization (fact : DurabilityFact) : Except Exn ViewSlots := do
  let domain ← synchronizationDomain event.effect.kind
  refuseIf (fact.domain ≠ domain)
    (.invalidArgument "synchronization replay fact contradicts its terminal event")
  let terminal ← synchronizationEvent
    (.invalidArgument "replay synchronization fact is not attempted") fact.status
  refuseIf (event.kind ≠ terminal ∨ event.evidence ≠ ∅)
    (.invalidArgument "synchronization replay fact contradicts its terminal event")
  return { v with
    synchronizations := fun d => if d = domain then some fact else v.synchronizations d
    durability := v.durability.set domain fact.status }

def noteEvidence (header : JournalHeader) (evidence : CompletedEvidence) :
    Except Exn ViewSlots := do
  refuseIf (event.kind ≠ .completed ∨ evidence.request ≠ request.identity ∨
      evidence.plan ≠ request.plan.identity ∨ evidence.attempt ≠ header.attempt ∨
      evidence.target ≠ request.target ∨ evidence.control ≠ request.control.identity ∨
      evidence.journal ≠ header)
    (.invalidArgument "completed-evidence replay fact belongs to another authority")
  refuseIf (v.completedEvidence.any fun retained => retained != evidence)
    (.invalidArgument "application replay has conflicting completed evidence")
  return { v with
    completedEvidence := some evidence
    durability := v.durability.set .completedEvidence .visible }

/-- Whether a terminal event may retain no fact. -/
def factOptional : Bool :=
  match event.effect.kind with
  | .observeResult | .sealReceipt => true
  | .publishCompletedEvidence => event.kind != .completed
  | _ => false

/-- Replay the fact of one terminal event. -/
def noteFact (captures : List OldObjectCaptureRequest) (header : JournalHeader)
    (fact : ReplayFact) : Except Exn ViewSlots :=
  match event.effect.kind, fact with
  | .stageIncomingPayload, .payloadSeal result => v.noteSeal event result
  | .stageIncomingPayload, _ =>
    .error (.invalidArgument "incoming staging step has another replay fact type")
  | .captureOldObject, .capture result => v.noteCapture request event captures result
  | .captureOldObject, _ => .error (.invalidArgument "capture step has another replay fact type")
  | .publishRejectedObject, .rejectedEffect path result => v.noteRejected request event path result
  | .publishRejectedObject, _ =>
    .error (.invalidArgument "rejected step has another replay fact type")
  | .publishActiveObject, .activeEffect path result => v.noteActive request event path result
  | .publishActiveObject, _ => .error (.invalidArgument "active step has another replay fact type")
  | .recoverActiveObject, .recoveryEffect path result => v.noteRecovery request event path result
  | .recoverActiveObject, _ =>
    .error (.invalidArgument "recovery step has another replay fact type")
  | .publishCompletedEvidence, .completedEvidence evidence =>
    v.noteEvidence request event header evidence
  | .publishCompletedEvidence, _ =>
    .error (.invalidArgument "completed-evidence step has another replay fact type")
  | .observeResult, _ | .sealReceipt, _ =>
    .error (.invalidArgument "non-mechanism application step carries a replay fact")
  | _, .synchronization fact => v.noteSynchronization event fact
  | _, _ => .error (.invalidArgument "synchronization step has another replay fact type")

/-- Replay one terminal event. -/
def noteTerminal (captures : List OldObjectCaptureRequest) (header : JournalHeader)
    (fact : Option ReplayFact) : Except Exn ViewSlots :=
  let v := { v with backendEvidence := v.backendEvidence ∪ event.evidence }
  match fact with
  | none =>
    if factOptional event then .ok v
    else .error (.invalidArgument "terminal application journal step lacks its replay fact")
  | some fact => do
    let fact ← decodeReplayFact request fact
    v.noteFact request event captures header fact

/-- Replay one step; intents and state changes establish nothing. -/
def noteStep (captures : List OldObjectCaptureRequest) (header : JournalHeader)
    (step : JournalStep) : Except Exn ViewSlots :=
  match step.event with
  | none => .ok v
  | some event =>
    if event.kind = .intent then .ok v
    else v.noteTerminal request event captures header step.replayFact

/-- Replay steps in order. -/
def noteSteps (captures : List OldObjectCaptureRequest) (header : JournalHeader) :
    List JournalStep → ViewSlots → Except Exn ViewSlots
  | [], v => .ok v
  | step :: rest, v => do
    let v ← v.noteStep request captures header step
    noteSteps captures header rest v

end ViewSlots

/-- The values of a slot table, in plan order. -/
def materialize {α : Type} (plan : OperationPlan) (slots : PackagePath → Option α) :
    List (PackagePath × α) :=
  plan.paths.filterMap fun d => (slots d.path).map fun value => (d.path, value)

/-- The observations an attempt was admitted under must still satisfy the plan. -/
def admittedObservations (request : ApplicationRequest) (h : JournalHistory) :
    Except Exn BackendObservationBatch := do
  let seed ← decodeReplaySeed h.declaration.replaySeed
  let check ← PreconditionCheck.make request.plan.preconditions seed
  refuseIf (!check.satisfied)
    (.invalidArgument "application journal replay seed does not contain admitted preconditions")
  return check.observations

/-- The view of one history under the request it was made for. -/
def buildView (h : JournalHistory) (request : ApplicationRequest) : Except Exn RestartView := do
  let admitted ← admittedObservations request h
  let captures ← prepareOldObjectCaptures request.plan request.control
  let v ← ViewSlots.noteSteps request captures h.header h.steps (.empty admitted.evidence)
  return {
    declaration := h.declaration
    attempt := h.header.attempt
    admittedObservations := admitted
    incomingPayload := v.incomingPayload
    captures := (materialize request.plan v.captures).map Prod.snd
    rejectedEffects := materialize request.plan v.rejected
    activeEffects := materialize request.plan v.active
    recoveryEffects := materialize request.plan v.recovery
    synchronizations := v.synchronizations
    durability := v.durability
    backendEvidence := v.backendEvidence ∪
      (v.completedEvidence.map CompletedEvidence.backendEvidence).getD ∅
    completedEvidence := v.completedEvidence }

/-- A view names the declaration and the attempt of its history. -/
theorem buildView_names {h : JournalHistory} {request : ApplicationRequest} {view : RestartView}
    (hview : buildView h request = .ok view) :
    view.declaration = h.declaration ∧ view.attempt = h.header.attempt := by
  unfold buildView at hview
  simp only [bind_eq_ok_iff] at hview
  obtain ⟨admitted, -, captures, -, v, -, heq⟩ := hview
  cases heq
  exact ⟨rfl, rfl⟩

end PkgApply
