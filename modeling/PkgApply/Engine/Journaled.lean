import PkgApply.Engine.Preparation
import PkgApply.Restart.Assessment

/-!
# The journaled application

What an attempt is going to do, fixed before anything is done: captures,
payloads, schedule, and the effect graph its journal declares.
-/

namespace PkgApply

/-! ## Effect graph -/

/-- Kind and path of an effect, path-scoped exactly when the kind is. -/
structure EffectKey where
  kind : EffectKind
  path : Option PackagePath
  path_iff : path.isSome = requiresPath kind

instance : DecidableEq EffectKey
  | ⟨kind, path, _⟩, ⟨kind', path', _⟩ => decidable_of_iff (kind = kind' ∧ path = path') (by simp)

/-- The effect of a key at an ordinal. -/
def EffectKey.effect (k : EffectKey) (ordinal : Nat) : JournalEffect :=
  ⟨ordinal, k.kind, k.path, k.path_iff⟩

/-- The effect kind of a scheduled step. -/
def journalKind : EffectStepKind → EffectKind
  | .captureOldObject => .captureOldObject
  | .stageRegularPayload => .stageIncomingPayload
  | .publishRejectedObject => .publishRejectedObject
  | .publishActiveObject => .publishActiveObject
  | .observeResult => .observeResult

def EffectStep.key (step : EffectStep) : EffectKey :=
  ⟨journalKind step.kind, some step.path, by cases step.kind <;> rfl⟩

/-- Recovery effects, in reverse order of the active effects. -/
def recoverKeys (schedule : List EffectStep) : List EffectKey :=
  (stepsOfKind schedule .publishActiveObject).reverse.map fun step =>
    ⟨.recoverActiveObject, some step.path, rfl⟩

/-- Which optional effects a journal declares. -/
structure EffectSelection where
  incoming : Bool
  recovery : Bool
  active : Bool
  rejected : Bool
  allDomains : Bool
deriving DecidableEq, Repr

/-- Effects without a path, in declaration order. -/
def domainKeys (s : EffectSelection) : List EffectKey :=
  (if s.incoming then [⟨.synchronizeIncomingStaging, none, rfl⟩] else []) ++
  (if s.recovery then [⟨.synchronizeRecoveryStaging, none, rfl⟩] else []) ++
  (if s.active && s.allDomains then
    [⟨.synchronizeActiveNamespace, none, rfl⟩, ⟨.synchronizeRecoveredNamespace, none, rfl⟩]
  else []) ++
  (if s.rejected && s.allDomains then [⟨.synchronizeRejectedStore, none, rfl⟩] else []) ++
  [⟨.publishCompletedEvidence, none, rfl⟩, ⟨.synchronizeCompletedEvidence, none, rfl⟩,
    ⟨.sealReceipt, none, rfl⟩]

/-- Keys of the effects a journal declares, in ordinal order. -/
def journalKeys (schedule : List EffectStep) (s : EffectSelection) : List EffectKey :=
  schedule.map EffectStep.key ++ recoverKeys schedule ++ domainKeys s

def journalEffects (schedule : List EffectStep) (s : EffectSelection) : List JournalEffect :=
  (journalKeys schedule s).mapIdx fun ordinal key => key.effect ordinal

def hasActiveEffect (plan : OperationPlan) : Bool :=
  plan.paths.any fun d => d.active != .retainObserved && d.active != .remainAbsent

def hasRejectedEffect (plan : OperationPlan) : Bool :=
  plan.paths.any fun d => d.rejected != .none

/-! ## Inputs -/

/-- What a request determines before anything is done. -/
structure ApplicationInputs where
  payloads : Option IncomingPayloadPlan
  captures : List OldObjectCaptureRequest
  schedule : List EffectStep
deriving DecidableEq

/-- The payload closure of a request with an image. -/
def requestPayloads (request : ApplicationRequest) : Except Exn (Option IncomingPayloadPlan) :=
  match request.image with
  | none => return none
  | some image => do
    let payloads ← prepareIncomingPayloads request.plan image
    return some payloads

/-- Captures, payloads and schedule of a request. -/
def prepareInputs (request : ApplicationRequest) : Except Exn ApplicationInputs := do
  let payloads ← requestPayloads request
  let captures ← prepareOldObjectCaptures request.plan request.control
  let schedule ← prepareApplicationSchedule request.plan request.image payloads captures
  return ⟨payloads, captures, schedule⟩

/-- The optional effects of a request. -/
def effectSelection (request : ApplicationRequest) (app : JournaledApplication) :
    EffectSelection where
  incoming := app.hasPayloads
  recovery := !app.captures.isEmpty
  active := hasActiveEffect request.plan
  rejected := hasRejectedEffect request.plan
  allDomains := request.control.durability == .allApplicationDomains

/-- The header of an attempt's journal. -/
def journalHeader (request : ApplicationRequest) (attempt : ApplicationAttempt)
    (state : LeaseBoundStateProjection) : Except Exn JournalHeader :=
  JournalHeader.make ⟨request.plan.kind, request.identity, request.plan.identity, attempt,
    request.target, request.control.identity, state, state.lease, request.mutationBackend⟩

/-- The declaration of an attempt's journal. -/
def journalDeclaration (request : ApplicationRequest) (app : JournaledApplication) :
    Except Exn JournalDeclaration := do
  let header ← journalHeader request app.attempt app.stateProjection
  JournalDeclaration.make header (journalEffects app.schedule (effectSelection request app))
    app.observations

/-- A process may hold only a resumable journal of its own attempt. -/
def JournaledApplication.make (app : JournaledApplication) (h : JournalHistory) :
    Except Exn JournaledApplication := do
  let record ← h.snapshot
  refuseIf (!(assessRestart record).resumable)
    (.invalidArgument "engine journal is not resumable")
  refuseIf (h.header.attempt ≠ app.attempt)
    (.invalidArgument "engine journal names another attempt")
  return app

end PkgApply
