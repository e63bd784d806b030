import PkgApply.Restart.Completion

/-!
# Whole processes

One application from its initial journal, and one restart from a loaded
journal.
-/

namespace PkgApply

open Engine

/-! ## Application -/

/-- Active execution and what follows it. -/
def finishActive (rejected : RejectedPublishedApplication) (request : ApplicationRequest)
    (state : LeaseBoundStateProjection) : Engine ApplicationReceipt := do
  match ← executeActive rejected request state with
  | .inl interrupted => recoverInterrupted interrupted request state
  | .inr active =>
    match ← completeApplication active request state with
    | .inl receipt => return receipt
    | .inr interrupted => recoverInterrupted interrupted request state

/-- An application whose initial journal is published. -/
def runApplication (app : JournaledApplication) (request : ApplicationRequest)
    (state : LeaseBoundStateProjection) : Engine ApplicationReceipt := do
  let h ← history
  let app ← JournaledApplication.make app h
  match ← prepareApplication app request state with
  | .inl receipt => return receipt
  | .inr prepared =>
    match ← publishRejected prepared request state with
    | .inl receipt => return receipt
    | .inr rejected => finishActive rejected request state

/-! ## Restart -/

/-- A restarted process: the projection its lease was read under, and the
nonce its reopened transaction reports. -/
structure RestartSession where
  state : LeaseBoundStateProjection
  nonce : AttemptNonce
deriving DecidableEq

/-- The journal is resumable and belongs to the request. -/
def validateJournalBindings (request : ApplicationRequest) (r : JournalRecord) :
    Except Exn Unit := do
  refuseIf (!(assessRestart r).resumable)
    (.invalidArgument "application journal is not automatically resumable")
  refuseIf (r.header.kind ≠ request.plan.kind)
    (.invalidArgument "application journal contains another operation kind")
  refuseIf (r.header.request ≠ request.identity)
    (.invalidArgument "application journal belongs to another request")
  refuseIf (r.header.plan ≠ request.plan.identity)
    (.invalidArgument "application journal belongs to another operation plan")
  refuseIf (r.header.target ≠ request.target)
    (.invalidArgument "application journal belongs to another target context")
  refuseIf (r.header.control ≠ request.control.identity)
    (.invalidArgument "application journal belongs to another execution control")
  refuseIf (r.header.backend ≠ request.mutationBackend)
    (.invalidArgument "application journal belongs to another backend")

/-- The reopened transaction reproduces the durable attempt. -/
def validateRestartedAttempt (request : ApplicationRequest) (h : JournalHistory)
    (session : RestartSession) : Except Exn ApplicationAttempt := do
  refuseIf (session.nonce ≠ h.header.attempt.nonce)
    (.invalidArgument "restarted transaction reports another attempt nonce")
  let attempt : ApplicationAttempt :=
    ⟨request.identity, request.target, request.mutationBackend, session.nonce⟩
  refuseIf (attempt ≠ h.header.attempt)
    (.logicError "restarted transaction did not reproduce the durable attempt")
  return attempt

/-- The journal declares exactly the effects of the request. -/
def validateRestartEffectGraph (request : ApplicationRequest) (app : JournaledApplication)
    (h : JournalHistory) : Except Exn Unit := do
  let expected := journalEffects app.schedule (effectSelection request app)
  refuseIf (expected.length ≠ h.effects.length)
    (.logicError "restart journal effect graph size changed")
  refuseIf (expected ≠ h.effects) (.logicError "restart journal effect graph changed")

/-- The preconditions the journal was declared under, which must hold. -/
def decodeAdmitted (request : ApplicationRequest) (h : JournalHistory) :
    Except Exn BackendObservationBatch := do
  let seed ← decodeReplaySeed h.declaration.replaySeed
  let check ← PreconditionCheck.make request.plan.preconditions seed
  refuseIf (!check.satisfied)
    (.logicError "journal declaration does not contain admitted preconditions")
  return check.observations

/-- The journaled application a restart rebuilds from the request. -/
def rebuildRestartApplication (request : ApplicationRequest) (attempt : ApplicationAttempt)
    (state : LeaseBoundStateProjection) (h : JournalHistory) :
    Except Exn JournaledApplication := do
  let observations ← decodeAdmitted request h
  let inputs ← prepareInputs request
  let app ← JournaledApplication.make
    ⟨attempt, observations, inputs.payloads, inputs.captures, inputs.schedule, state⟩ h
  validateRestartEffectGraph request app h
  return app

/-- How the restart of a journal goes on. -/
def replayDisposition (h : JournalHistory) : Except Exn RestartDisposition :=
  if h.state = .recoveryPending ∨ h.state = .recovering ∨ h.state = .indeterminate then
    .ok .resumeRecovery
  else do
    return assessRestart (← h.snapshot)

/-- Active execution of a restart and what follows it. -/
def finishForward (rejected : RejectedPublishedApplication) (view : RestartView)
    (request : ApplicationRequest) (state : LeaseBoundStateProjection) :
    Engine ApplicationReceipt := do
  match ← resumeActiveExecution rejected view request with
  | .inl interrupted => resumeRecovery interrupted view request state
  | .inr active =>
    match ← resumeCompletion active view request state with
    | .inl receipt => return receipt
    | .inr interrupted => resumeRecovery interrupted view request state

/-- What follows rejected publication in a restart. -/
def finishPublished (disposition : RestartDisposition) (rejected : RejectedPublishedApplication)
    (view : RestartView) (request : ApplicationRequest) (state : LeaseBoundStateProjection) :
    Engine ApplicationReceipt :=
  if disposition = .resumeRecovery then do
    let interrupted ← restartInterruption rejected view request
    resumeRecovery interrupted view request state
  else
    finishForward rejected view request state

/-- A rebuilt application brought to its receipt. -/
def finishReplay (app : JournaledApplication) (view : RestartView) (request : ApplicationRequest)
    (state : LeaseBoundStateProjection) : Engine ApplicationReceipt := do
  let h ← history
  let disposition ← replayDisposition h
  match ← resumePreparation app view request state with
  | .inl receipt => return receipt
  | .inr prepared =>
    match ← resumeRejectedPublication prepared view request state with
    | .inl receipt => return receipt
    | .inr rejected => finishPublished disposition rejected view request state

/-- The application and view a restart reopens. -/
def reopenApplication (request : ApplicationRequest) (session : RestartSession)
    (h : JournalHistory) : Except Exn (JournaledApplication × RestartView) := do
  let record ← h.snapshot
  validateJournalBindings request record
  let view ← buildView h request
  let attempt ← validateRestartedAttempt request h session
  let app ← rebuildRestartApplication request attempt session.state h
  return (app, view)

/-- A restart from the loaded journal. -/
def runRestart (request : ApplicationRequest) (session : RestartSession) :
    Engine ApplicationReceipt := do
  let h ← history
  let (app, view) ← reopenApplication request session h
  finishReplay app view request session.state

end PkgApply
