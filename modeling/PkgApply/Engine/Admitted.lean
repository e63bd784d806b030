import PkgApply.Closure
import PkgApply.Engine.Journaled

/-!
# Admitted applications

An attempt whose preconditions hold and whose captures, payloads and schedule
exist, with what these fix: the effects of each kind, each at its own path,
and the one declaration of its journal.
-/

namespace PkgApply

/-- An attempt of a request, admitted under observations that satisfy it. -/
structure AdmittedApplication where
  request : ApplicationRequest
  nonce : AttemptNonce
  observations : BackendObservationBatch
  inputs : ApplicationInputs
  projection : LeaseBoundStateProjection
  check : PreconditionCheck
  prepared : prepareInputs request = .ok inputs
  checked : PreconditionCheck.make request.plan.preconditions observations = .ok check
  satisfied : check.satisfied = true

namespace AdmittedApplication

section Fields

variable (A : AdmittedApplication)

abbrev plan : OperationPlan := A.request.plan
abbrev control : ExecutionControl := A.request.control
abbrev captures : List OldObjectCaptureRequest := A.inputs.captures
abbrev payloads : Option IncomingPayloadPlan := A.inputs.payloads
abbrev schedule : List EffectStep := A.inputs.schedule

def attempt : ApplicationAttempt :=
  ⟨A.request.identity, A.request.target, A.request.mutationBackend, A.nonce⟩

/-- What a process holds about the attempt under one projection. -/
def journaled (state : LeaseBoundStateProjection) : JournaledApplication :=
  ⟨A.attempt, A.observations, A.payloads, A.captures, A.schedule, state⟩

/-- Scheduled steps of one kind. -/
def steps (kind : EffectStepKind) : List EffectStep := stepsOfKind A.schedule kind

def hasPayloads : Bool := A.payloads.any fun p => p.selection.length != 0

def allDomains : Bool := A.control.durability == .allApplicationDomains

def selection : EffectSelection :=
  ⟨A.hasPayloads, !A.captures.isEmpty, hasActiveEffect A.plan, hasRejectedEffect A.plan,
    A.allDomains⟩

def keys : List EffectKey := journalKeys A.schedule A.selection

def effects : List JournalEffect := journalEffects A.schedule A.selection

def header : JournalHeader :=
  ⟨A.plan.kind, A.request.identity, A.plan.identity, A.attempt, A.request.target,
    A.control.identity, A.projection, A.projection.lease, A.request.mutationBackend⟩

end Fields

variable {A : AdmittedApplication}

/-! ## Inputs -/

private theorem inputs_eq (A : AdmittedApplication) :
    preparePayloads A.plan A.request.image = .ok A.payloads ∧
    prepareOldObjectCaptures A.plan A.control = .ok A.captures ∧
    prepareApplicationSchedule A.plan A.request.image A.payloads A.captures = .ok A.schedule := by
  have h := A.prepared
  unfold prepareInputs at h
  simp only [bind_eq_ok_iff, pure, Except.pure, Except.ok.injEq] at h
  obtain ⟨payloads, hpayloads, captures, hcaptures, schedule, hschedule, hinputs⟩ := h
  have hp : A.payloads = payloads := congrArg ApplicationInputs.payloads hinputs.symm
  have hc : A.captures = captures := congrArg ApplicationInputs.captures hinputs.symm
  have hs : A.schedule = schedule := congrArg ApplicationInputs.schedule hinputs.symm
  refine ⟨?_, by rw [hc]; exact hcaptures, by rw [hp, hc, hs]; exact hschedule⟩
  rw [hp, ← hpayloads, requestPayloads]
  cases A.request.image with
  | none => rfl
  | some image => rfl

/-- What an admitted application prepares. -/
def closure (A : AdmittedApplication) : PlanClosure where
  plan := A.plan
  control := A.control
  image := A.request.image
  image_iff := A.request.image_iff
  captures := A.captures
  payloads := A.payloads
  schedule := A.schedule
  payloads_ok := (inputs_eq A).1
  captures_ok := (inputs_eq A).2.1
  schedule_ok := (inputs_eq A).2.2

theorem payloads_of_image {image : PackageImage} (h : A.request.image = some image) :
    ∃ payloads, A.payloads = some payloads ∧
      prepareIncomingPayloads A.plan image = .ok payloads :=
  PlanClosure.payloads_of_image (P := A.closure) h

theorem payloads_of_no_image (h : A.request.image = none) : A.payloads = none :=
  PlanClosure.payloads_of_no_image (P := A.closure) h

theorem captures_ok (A : AdmittedApplication) :
    prepareOldObjectCaptures A.plan A.control = .ok A.captures := A.closure.captures_ok

theorem captures_nodup (A : AdmittedApplication) :
    (A.captures.map OldObjectCaptureRequest.path).Nodup := PkgApply.captures_nodup A.captures_ok

/-! ## Schedule -/

theorem steps_capture (A : AdmittedApplication) : A.steps .captureOldObject =
    A.captures.map fun c => ⟨.captureOldObject, c.path, none⟩ := A.closure.steps_capture

theorem steps_rejected (A : AdmittedApplication) : A.steps .publishRejectedObject =
    (A.plan.paths.filter fun d => d.rejected != .none).map fun d =>
      ⟨.publishRejectedObject, d.path, d.incomingEntry⟩ := A.closure.steps_rejected

theorem steps_stage_length (A : AdmittedApplication) :
    (A.steps .stageRegularPayload).length =
      (A.payloads.map fun p => p.selection.length).getD 0 := by
  refine A.closure.steps_stage_length.trans ?_
  change ((A.payloads.map IncomingPayloadPlan.selection).getD []).length = _
  cases A.payloads with
  | none => rfl
  | some payloads => rfl

/-- The active steps are the decisions a mechanism carries out. -/
theorem mem_steps_active (s : EffectStep) : s ∈ A.steps .publishActiveObject ↔
    ∃ d ∈ A.plan.paths, activeMechanismRequired d.active = true ∧
      s = ⟨.publishActiveObject, d.path, d.incomingEntry⟩ :=
  PlanClosure.mem_steps_active (P := A.closure) s

/-- Each kind has at most one step at a path. -/
theorem steps_nodup (A : AdmittedApplication) (kind : EffectStepKind) :
    ((A.steps kind).map EffectStep.path).Nodup := A.closure.steps_nodup kind

theorem mem_steps_kind {kind : EffectStepKind} {s : EffectStep} (h : s ∈ A.steps kind) :
    s.kind = kind := PlanClosure.mem_steps_kind (P := A.closure) h

/-! ## The removal of a directory -/

section Removal

variable (recovery : RecoveryRequirement) (durability : DurabilityRequirement)

/-- The path of the directory, `d`. -/
def removalPath : PackagePath := ⟨[0x64]⟩

def removalDecision : PathDecision where
  path := removalPath
  role := .installedOwnedPath
  active := .removeDirectoryIfEmpty
  rejected := .none
  incomingEntry := none
  ownership := ⟨[⟨1⟩], [], false⟩
  rejectedObject := none
  incoming_role := by decide
  activates_incoming := by decide
  removes_existing := fun _ => rfl
  rejects := fun h => absurd rfl h

def removalPlan : OperationPlan where
  kind := .remove
  identity := ⟨2⟩
  paths := [removalDecision]
  preconditions := [⟨removalPath, some ⟨.directory, 0o755, 0, 0, none, none, none, none, none⟩⟩]
  paths_sorted := List.pairwise_singleton _ _
  preconditions_sorted := List.pairwise_singleton _ _
  preconditions_cover := by decide
  removal_roles := fun _ => by decide

/-- The directory as a backend observes it. -/
def removalObject : CompletedObjectFact where
  path := removalPath
  kind := .directory
  mode := .known 0o755
  uid := .known 0
  gid := .known 0
  size := .notApplicable
  mtime := .unknown
  regularContent := .notApplicable
  symlinkTarget := .notApplicable
  device := .notApplicable
  hardlink := .notApplicable
  provenance := .applicationObservation
  completeness := .complete
  applicable := applicable_directory

def removalObservations : BackendObservationBatch :=
  ⟨[removalPath], [.present removalObject], {⟨3⟩}, List.pairwise_singleton _ _, rfl⟩

def removalRequest : ApplicationRequest where
  identity := ⟨4⟩
  plan := removalPlan
  control := ⟨⟨5⟩, recovery, durability, .recoverAfterTargetMutation,
    CancellationPolicy.recovers_exact recovery⟩
  target := ⟨6⟩
  mutationBackend := ⟨7⟩
  image := none
  image_iff := by decide
  entries_resolve := fun _ h => nomatch h

/-- Removing one directory if it is empty. -/
def removal : AdmittedApplication where
  request := removalRequest recovery durability
  nonce := 8
  observations := removalObservations
  inputs :=
    { payloads := none
      captures := if recovery = .none then [] else [⟨removalPath, false, true⟩]
      schedule := (if recovery = .none then [] else [⟨.captureOldObject, removalPath, none⟩]) ++
        [⟨.publishActiveObject, removalPath, none⟩, ⟨.observeResult, removalPath, none⟩] }
  projection := ⟨⟨9⟩, ⟨10⟩, ⟨11⟩, .complete, [⟨removalPath, {⟨1⟩}⟩], ⟨12⟩,
    List.pairwise_singleton _ _⟩
  check := ⟨removalObservations, []⟩
  prepared := by cases recovery <;> rfl
  checked := rfl
  satisfied := rfl

end Removal

/-- A backend that reports one outcome of the removal, one of its recovery,
and one status of every synchronization. -/
def removalMechanisms (removed recovered : BackendOperationOutcome) (status : DurabilityStatus) :
    Mechanisms
  | .observe .preconditions _ => removalObservations
  | .observe .result _ =>
    ⟨[removalPath], [.absent removalPath], ∅, List.pairwise_singleton _ _, rfl⟩
  | .beginPayloadStage _ => ()
  | .sealPayloadStage => ⟨⟨.completed, ∅⟩, true⟩
  | .captureOld _ => ⟨.completed, .present removalObject, true, ∅, by decide, by decide⟩
  | .executeRejected _ => ⟨.failed, none, ∅, by decide, by decide⟩
  | .executeActive _ => (⟨removed, ∅⟩ : BackendOperationResult)
  | .publishCompletedEvidence evidence =>
    ⟨.completed, some evidence, ∅, by decide, iff_of_true rfl rfl⟩
  | .recover _ => (⟨recovered, ∅⟩ : BackendOperationResult)
  | .synchronize _ domain => (⟨domain, status⟩ : DurabilityFact)

/-! ## The installation of two files -/

section Installation

/-- The file of an entry, `a` or `b`. -/
def installedPath (id : Fin 2) : PackagePath := ⟨[if id = 0 then 0x61 else 0x62]⟩

def installedEntry (id : Fin 2) : PackageEntry where
  id := id
  path := installedPath id
  type := .regular
  mode := 0o644
  uid := 0
  gid := 0
  mtime := ⟨0, 0⟩
  size := 1
  regularContent := some ⟨1⟩
  symlinkTarget := none
  hardlinkTarget := none
  device := none
  has_content := fun _ => rfl
  has_target := nofun
  has_anchor := nofun
  has_device := nofun

def installedImage : PackageImage where
  identity := ⟨2⟩
  entries := [installedEntry 0, installedEntry 1]
  ids_nodup := by decide
  paths_nodup := by decide
  anchors_regular := by decide

def installationDecision (id : Fin 2) : PathDecision where
  path := installedPath id
  role := .incomingEntry
  active := .activateIncoming
  rejected := .none
  incomingEntry := some id
  ownership := ⟨[], [], true⟩
  rejectedObject := none
  incoming_role := iff_of_true rfl rfl
  activates_incoming := fun _ => rfl
  removes_existing := fun h => by simp at h
  rejects := fun h => absurd rfl h

def installationPlan : OperationPlan where
  kind := .install
  identity := ⟨3⟩
  paths := [installationDecision 0, installationDecision 1]
  preconditions := [⟨installedPath 0, none⟩, ⟨installedPath 1, none⟩]
  paths_sorted := by decide
  preconditions_sorted := by decide
  preconditions_cover := by decide
  removal_roles := nofun

def installationObservations : BackendObservationBatch :=
  ⟨[installedPath 0, installedPath 1], [.absent (installedPath 0), .absent (installedPath 1)],
    {⟨4⟩}, by decide, rfl⟩

def installationRequest : ApplicationRequest where
  identity := ⟨5⟩
  plan := installationPlan
  control := ⟨⟨6⟩, .none, .visibilityOnly, .recoverAfterTargetMutation,
    CancellationPolicy.recovers_exact .none⟩
  target := ⟨7⟩
  mutationBackend := ⟨8⟩
  image := some installedImage
  image_iff := iff_of_true rfl nofun
  entries_resolve := by
    rintro _ ⟨⟩ d hd id hid
    simp only [installationPlan, List.mem_cons, List.not_mem_nil, or_false] at hd
    rcases hd with rfl | rfl <;> cases hid <;> exact ⟨_, rfl, rfl⟩

/-- Installing two files where there are none. -/
def installation : AdmittedApplication where
  request := installationRequest
  nonce := 9
  observations := installationObservations
  inputs :=
    { payloads := some ⟨⟨2⟩, [0, 1],
        [⟨installedPath 0, 0, some 0, true, false⟩, ⟨installedPath 1, 1, some 1, true, false⟩]⟩
      captures := []
      schedule :=
        [⟨.stageRegularPayload, installedPath 0, some 0⟩,
          ⟨.stageRegularPayload, installedPath 1, some 1⟩,
          ⟨.publishActiveObject, installedPath 0, some 0⟩,
          ⟨.publishActiveObject, installedPath 1, some 1⟩,
          ⟨.observeResult, installedPath 0, none⟩, ⟨.observeResult, installedPath 1, none⟩] }
  projection := ⟨⟨10⟩, ⟨11⟩, ⟨12⟩, .complete,
    [⟨installedPath 0, ∅⟩, ⟨installedPath 1, ∅⟩], ⟨13⟩, by decide⟩
  check := ⟨installationObservations, []⟩
  prepared := by rfl
  checked := by rfl
  satisfied := rfl

end Installation

/-- A backend that completes everything and seals with given evidence. -/
def installationMechanisms (evidence : Evidence) : Mechanisms
  | .observe _ _ => installationObservations
  | .beginPayloadStage _ => ()
  | .sealPayloadStage => ⟨⟨.completed, evidence⟩, true⟩
  | .captureOld request =>
    ⟨.failed, .absent request.path, false, ∅, nofun, nofun⟩
  | .executeRejected _ => ⟨.failed, none, ∅, by decide, by decide⟩
  | .executeActive _ => (⟨.completed, ∅⟩ : BackendOperationResult)
  | .publishCompletedEvidence evidence =>
    ⟨.completed, some evidence, ∅, by decide, iff_of_true rfl rfl⟩
  | .recover _ => (⟨.completed, ∅⟩ : BackendOperationResult)
  | .synchronize _ domain => (⟨domain, .confirmed⟩ : DurabilityFact)

end AdmittedApplication

end PkgApply
