import PkgApply.Admission.Binding
import PkgApply.Admission.Gate
import PkgApply.Engine.Inputs
import PkgApply.Knowledge

/-!
# Admitting a request to the engine

An admissible request is what the engine takes a request for.  A backend begins
the transaction, backend and lease are asked again, the target is observed once,
and the attempt is admitted or refused by what was seen.
-/

namespace PkgApply.Admission

open Transport

/-! ## The engine's request -/

section Request

variable {X : Externals} {request : PackageApplicationRequest} {state : LeaseBoundStateProjection}
  {lease : MutationLease} {backend : BackendReport} {source : ReplaySource request.body}

theorem RequestBody.incoming_iff (body : RequestBody) :
    body.incoming.isSome ↔ body.kind ≠ .remove := by
  cases body with
  | installation plan incoming => simp [RequestBody.incoming, RequestBody.kind]
  | upgrade plan incoming => simp [RequestBody.incoming, RequestBody.kind]
  | removal => simp [RequestBody.incoming, RequestBody.kind]

namespace Admissible

/-- Only a removal has no image. -/
theorem image_iff (h : Admissible X request state lease backend source) :
    (source.archive.map InspectedPackageImage.image).isSome ↔
      request.plan.operation.kind ≠ .remove := by
  rw [Option.isSome_map, source.given, h.kind]
  exact request.body.incoming_iff

/-- Every entry the plan cites is in the archive's image. -/
theorem entries_resolve (h : Admissible X request state lease backend source) :
    ∀ image, source.archive.map InspectedPackageImage.image = some image →
      ∀ d ∈ request.plan.operation.paths, ∀ id, d.incomingEntry = some id →
        ∃ entry, image.entry id = some entry ∧ entry.path = d.path := by
  intro image himage
  obtain ⟨archive, harchive, rfl⟩ := Option.map_eq_some_iff.mp himage
  have hgiven := source.given
  rw [harchive] at hgiven
  obtain ⟨incoming, hincoming⟩ := Option.isSome_iff_exists.mp hgiven.symm
  exact (h.archive incoming archive hincoming harchive).resolves

/-- An admissible request as the engine carries it out. -/
def engineRequest (h : Admissible X request state lease backend source) : ApplicationRequest where
  identity := request.identity X
  plan := request.plan.operation
  control := request.control.control X
  target := request.target.identity X
  mutationBackend := request.target.mutationBackend
  image := source.archive.map InspectedPackageImage.image
  image_iff := h.image_iff
  entries_resolve := h.entries_resolve

end Admissible

/-- The request that has passed the checks. -/
def checkedRequest
    (h : validateApplicationAdmission X request state lease backend source = .ok ()) :
    ApplicationRequest :=
  (validateApplicationAdmission_eq_ok.mp h).engineRequest

end Request

/-! ## Admission -/

/-- What a caller hands over with a request: lease and backend as they report
before the transaction is begun and after, the transaction, and what it
observes. -/
structure Providers where
  lease : MutationLease
  backend : BackendReport
  transaction : Option TransactionReport
  leaseAfter : MutationLease
  backendAfter : BackendReport
  observe : List PackagePath → Except Exn BackendObservationBatch

/-- What admission ends with. -/
inductive EngineAdmission where
  | refused (receipt : ApplicationReceipt)
  | admitted (attempt : ApplicationAttempt) (check : PreconditionCheck)
deriving DecidableEq

def notAttemptedDurability : DurabilityProfile :=
  ⟨.notAttempted, .notAttempted, .notAttempted, .notAttempted, .notAttempted, .notAttempted⟩

def preconditionRefusal (request : ApplicationRequest) (attempt : ApplicationAttempt)
    (state : LeaseBoundStateProjection) (check : PreconditionCheck) :
    Except Exn ApplicationReceipt :=
  ApplicationReceipt.failed request attempt state .preconditionRefused .unchanged
    notAttemptedDurability [] none check.observations.evidence

namespace EngineAdmission

/-- The two factories. -/
def refuse (receipt : ApplicationReceipt) : Except Exn EngineAdmission := do
  refuseIf (receipt.outcome ≠ .preconditionRefused)
    (.invalidArgument "engine admission refusal requires a precondition-refused receipt")
  return .refused receipt

def accept (attempt : ApplicationAttempt) (check : PreconditionCheck) :
    Except Exn EngineAdmission := do
  refuseIf (!check.satisfied)
    (.invalidArgument "admitted application contains failed preconditions")
  return .admitted attempt check

end EngineAdmission

section Admit

variable (X : Externals)

/-- The one observation of admission decides the attempt. -/
def decideAdmission (engine : ApplicationRequest) (attempt : ApplicationAttempt)
    (state : LeaseBoundStateProjection)
    (observe : List PackagePath → Except Exn BackendObservationBatch) :
    Except Exn EngineAdmission := do
  let observed ← observe (engine.plan.preconditions.map PathPrecondition.path)
  let check ← PreconditionCheck.make engine.plan.preconditions observed
  if !check.satisfied then
    let receipt ← preconditionRefusal engine attempt state check
    EngineAdmission.refuse receipt
  else
    EngineAdmission.accept attempt check

def finishAdmission (request : PackageApplicationRequest) (engine : ApplicationRequest)
    (state : LeaseBoundStateProjection) (providers : Providers) :
    Except AdmissionFailure EngineAdmission :=
  match providers.transaction with
  | none => .error (.other (.logicError "application backend returned no transaction"))
  | some transaction => do
    validateBackendTransaction X request.target providers.leaseAfter providers.backendAfter
      transaction
    validateTargetMutationLease X request.target state providers.leaseAfter
    (decideAdmission engine (request.attempt X transaction.attemptNonce) state
      providers.observe).mapError .other

/-- The three overloads. -/
def admitApplicationEngine (request : PackageApplicationRequest)
    (state : LeaseBoundStateProjection) (source : ReplaySource request.body)
    (providers : Providers) : Except AdmissionFailure EngineAdmission :=
  match h : validateApplicationAdmission X request state providers.lease providers.backend
      source with
  | .error failure => .error failure
  | .ok () => finishAdmission X request (checkedRequest h) state providers

/-- The transaction is the target's, lease and backend still are, and the target
was observed once. -/
structure Begun (request : PackageApplicationRequest) (state : LeaseBoundStateProjection)
    (providers : Providers) (transaction : TransactionReport)
    (observed : BackendObservationBatch) : Prop where
  begun : providers.transaction = some transaction
  backend : BackendBinds request.target providers.backendAfter
  transaction : TransactionBinds X request.target providers.leaseAfter transaction
  lease : LeaseBinds X request.target state providers.leaseAfter
  requested : observed.requested =
    request.plan.operation.preconditions.map PathPrecondition.path
  observed : providers.observe (request.plan.operation.preconditions.map PathPrecondition.path) =
    .ok observed

/-- Everything the plan expects was observed. -/
def Fits (plan : OperationPlan) (observed : BackendObservationBatch) : Prop :=
  ∀ p ∈ plan.preconditions, ∃ o, observed.find p.path = some o ∧ p.HoldsIn o

/-- The receipt of an attempt refused by what was observed. -/
def refusalReceipt (engine : ApplicationRequest) (attempt : ApplicationAttempt)
    (state : LeaseBoundStateProjection) (observed : BackendObservationBatch) :
    ApplicationReceipt where
  kind := engine.plan.kind
  request := engine.identity
  plan := engine.plan.identity
  attempt := attempt
  target := engine.target
  control := engine.control.identity
  stateProjection := state
  outcome := .preconditionRefused
  recovery := .unchanged
  durability := notAttemptedDurability
  paths := []
  journal := none
  completedEvidence := none
  backendEvidence := observed.evidence

end Admit

/-! ## Exactness -/

section Exact

variable {X : Externals} {engine : ApplicationRequest} {attempt : ApplicationAttempt}
  {state : LeaseBoundStateProjection} {check : PreconditionCheck} {outcome : EngineAdmission}
  {observe : List PackagePath → Except Exn BackendObservationBatch}

theorem mapError_eq_ok {α : Type} {x : Except Exn α} {a : α} :
    x.mapError AdmissionFailure.other = .ok a ↔ x = .ok a := by
  cases x with
  | error e => simp [Except.mapError]
  | ok value => simp [Except.mapError]

theorem preconditionRefusal_eq : preconditionRefusal engine attempt state check =
    .ok (refusalReceipt engine attempt state check.observations) := by
  rfl

/-- What a check decides, in terms of the observation. -/
private theorem check_cases {observed : BackendObservationBatch}
    (h : PreconditionCheck.make engine.plan.preconditions observed = .ok check) :
    (check.satisfied = true ∧ Fits engine.plan observed ∧ check = ⟨observed, []⟩) ∨
      (check.satisfied = false ∧ ¬Fits engine.plan observed) := by
  have hsatisfied := PreconditionCheck.satisfied_iff h
  cases hcase : check.satisfied with
  | false =>
    refine .inr ⟨rfl, fun hfits => ?_⟩
    rw [hsatisfied.mpr hfits] at hcase
    cases hcase
  | true =>
    refine .inl ⟨rfl, hsatisfied.mp hcase, ?_⟩
    have hobservations := (PreconditionCheck.make_eq_ok h).1
    have hnone : check.failures = [] := by simpa [PreconditionCheck.satisfied] using hcase
    cases check
    simp_all

/-- The decision is made by what was observed, and by nothing else. -/
theorem decideAdmission_eq_ok : decideAdmission engine attempt state observe = .ok outcome ↔
    ∃ observed, observe (engine.plan.preconditions.map PathPrecondition.path) = .ok observed ∧
      observed.requested = engine.plan.preconditions.map PathPrecondition.path ∧
        ((Fits engine.plan observed ∧ outcome = .admitted attempt ⟨observed, []⟩) ∨
          (¬Fits engine.plan observed ∧
            outcome = .refused (refusalReceipt engine attempt state observed))) := by
  unfold decideAdmission
  simp only [bind_eq_ok_iff]
  refine exists_congr fun observed => and_congr_right fun _ => ?_
  constructor
  · rintro ⟨check, hcheck, h⟩
    obtain ⟨hsame, hrequested, -⟩ := PreconditionCheck.make_eq_ok hcheck
    refine ⟨hrequested.symm, ?_⟩
    rcases check_cases hcheck with ⟨hsatisfied, hfits, rfl⟩ | ⟨hsatisfied, hfits⟩
    · simp [EngineAdmission.accept, hsatisfied, refuseIf, bind, Except.bind, pure, Except.pure] at h
      exact .inl ⟨hfits, h.symm⟩
    · simp [preconditionRefusal_eq, EngineAdmission.refuse, refusalReceipt, hsatisfied, refuseIf,
        bind, Except.bind, pure, Except.pure, hsame] at h
      exact .inr ⟨hfits, h.symm⟩
  · rintro ⟨hrequested, h⟩
    obtain ⟨check, hcheck⟩ := PreconditionCheck.exists_make hrequested.symm
    have hsame := (PreconditionCheck.make_eq_ok hcheck).1
    refine ⟨check, hcheck, ?_⟩
    rcases check_cases hcheck with ⟨hsatisfied, hfits, rfl⟩ | ⟨hsatisfied, hfits⟩
    · obtain ⟨-, rfl⟩ := h.resolve_right fun hrefused => hrefused.1 hfits
      simp [EngineAdmission.accept, hsatisfied, refuseIf, bind, Except.bind, pure, Except.pure]
    · obtain ⟨-, rfl⟩ := h.resolve_left fun hadmitted => hfits hadmitted.1
      simp [preconditionRefusal_eq, EngineAdmission.refuse, refusalReceipt, hsatisfied, refuseIf,
        bind, Except.bind, pure, Except.pure, hsame]

/-- Admission ends where everything belongs together, before the transaction is
begun and after. -/
private theorem admitApplicationEngine_eq_ok {request : PackageApplicationRequest}
    {source : ReplaySource request.body} {providers : Providers} :
    admitApplicationEngine X request state source providers = .ok outcome ↔
      ∃ (h : Admissible X request state providers.lease providers.backend source)
        (transaction : TransactionReport) (observed : BackendObservationBatch),
        Begun X request state providers transaction observed ∧
          ((Fits request.plan.operation observed ∧
              outcome = .admitted (request.attempt X transaction.attemptNonce) ⟨observed, []⟩) ∨
            (¬Fits request.plan.operation observed ∧
              outcome = .refused (refusalReceipt h.engineRequest
                (request.attempt X transaction.attemptNonce) state observed))) := by
  unfold admitApplicationEngine
  split
  · rename_i failure herror
    refine iff_of_false (by simp) ?_
    rintro ⟨h, -⟩
    rw [validateApplicationAdmission_eq_ok.mpr h] at herror
    cases herror
  rename_i hok
  have h := validateApplicationAdmission_eq_ok.mp hok
  unfold finishAdmission
  cases htransaction : providers.transaction with
  | none =>
    refine iff_of_false (by simp) ?_
    rintro ⟨-, transaction, observed, hbegun, -⟩
    rw [hbegun.begun] at htransaction
    cases htransaction
  | some transaction =>
    simp only [andThen_eq_ok, validateBackendTransaction_eq_ok, validateTargetMutationLease_eq_ok,
      mapError_eq_ok, decideAdmission_eq_ok]
    constructor
    · rintro ⟨⟨hbackend, htransaction'⟩, hlease, observed, hobserved, hrequested, hdecided⟩
      exact ⟨h, transaction, observed,
        ⟨htransaction, hbackend, htransaction', hlease, hrequested, hobserved⟩, hdecided⟩
    · rintro ⟨_, transaction', observed, hbegun, hdecided⟩
      have hsame : transaction = transaction' :=
        Option.some.inj (htransaction.symm.trans hbegun.begun)
      subst hsame
      exact ⟨⟨hbegun.backend, hbegun.transaction⟩, hbegun.lease, observed, hbegun.observed,
        hbegun.requested, hdecided⟩

end Exact

section Exactness

variable (X : Externals) (request : PackageApplicationRequest) (state : LeaseBoundStateProjection)
  (source : ReplaySource request.body) (providers : Providers)

/-- **Admission is exact.**  A request is admitted or refused with a receipt
exactly where request, projection, lease, backend and archive belong together,
lease and backend still do once the transaction is begun, and the transaction
observed the paths it was asked for.  It is admitted exactly where it observed
what the plan expects; the receipt of a refusal reports nothing attempted.  What
is admitted is an application the engine can run exactly where every old object
to be kept was there and the active effects depend on each other in no cycle. -/
theorem admission_exact :
    (∀ outcome, admitApplicationEngine X request state source providers = .ok outcome ↔
      ∃ (h : Admissible X request state providers.lease providers.backend source)
        (transaction : TransactionReport) (observed : BackendObservationBatch),
        Begun X request state providers transaction observed ∧
          ((Fits request.plan.operation observed ∧
              outcome = .admitted (request.attempt X transaction.attemptNonce) ⟨observed, []⟩) ∨
            (¬Fits request.plan.operation observed ∧
              outcome = .refused (refusalReceipt h.engineRequest
                (request.attempt X transaction.attemptNonce) state observed)))) ∧
    ∀ (h : Admissible X request state providers.lease providers.backend source)
      (transaction : TransactionReport) (observed : BackendObservationBatch),
      Begun X request state providers transaction observed →
        Fits request.plan.operation observed →
          ((∃ A : AdmittedApplication, A.request = h.engineRequest ∧ A.projection = state ∧
              A.attempt = request.attempt X transaction.attemptNonce ∧
                A.check = ⟨observed, []⟩) ↔
            request.plan.operation.StagesPresent ∧
              ¬Library.Ordering.Cyclic ActiveNode.MustPrecede h.engineRequest.activeNodes) := by
  refine ⟨fun outcome => admitApplicationEngine_eq_ok,
    fun h transaction observed hbegun hfits => ?_⟩
  rw [show request.plan.operation = h.engineRequest.plan from rfl,
    ← ApplicationRequest.prepareInputs_ok_iff]
  constructor
  · rintro ⟨A, hrequest, -⟩
    exact ⟨A.inputs, hrequest ▸ A.prepared⟩
  · rintro ⟨inputs, hinputs⟩
    have hpaths : h.engineRequest.plan.preconditions.map PathPrecondition.path =
        observed.requested := hbegun.requested.symm
    obtain ⟨check, hcheck⟩ := PreconditionCheck.exists_make hpaths
    rcases check_cases hcheck with ⟨-, -, rfl⟩ | ⟨-, hnot⟩
    · exact ⟨⟨h.engineRequest, transaction.attemptNonce, observed, inputs, state, ⟨observed, []⟩,
        hinputs, hcheck, rfl⟩, rfl, rfl, rfl, rfl⟩
    · exact absurd hfits hnot

end Exactness

/-! ## A removal that is admitted -/

section Removal

open AdmittedApplication

private theorem directory_owners :
    [(⟨removalPath, {⟨1⟩}⟩ : ProjectedPathOwners)].map ProjectedPathOwners.path =
      removalPlan.preconditions.map PathPrecondition.path := rfl

/-- Removing the directory `d`, which one package owns. -/
def directoryRequest : PackageApplicationRequest where
  schemaVersion := 1
  plan := ⟨1, removalPlan, ascii "target", ⟨10⟩, ⟨11⟩, [⟨removalPath, {⟨1⟩}⟩], none,
    directory_owners⟩
  body := .removal
  target := packageTarget
  control := packageControl

private theorem directory_sorted : [removalPath].Pairwise (· < ·) := List.pairwise_singleton _ _

def directoryProjection : LeaseBoundStateProjection :=
  ⟨⟨9⟩, ⟨10⟩, ⟨11⟩, .complete, [⟨removalPath, {⟨1⟩}⟩], ⟨12⟩, directory_sorted⟩

private theorem directory_given :
    (none : Option InspectedPackageImage).isSome = directoryRequest.body.incoming.isSome := rfl

def directorySource : ReplaySource directoryRequest.body := ⟨none, directory_given⟩

def directoryLease : MutationLease :=
  ⟨⟨9⟩, packageTarget.identity .reference, packageTarget.mutationExclusionDomain,
    true⟩

def directoryBackend : BackendReport :=
  ⟨packageTarget.mutationBackend, packageTarget.observationBackend,
    packageTarget.capabilities⟩

def directoryTransaction : TransactionReport :=
  ⟨packageTarget.mutationBackend, packageTarget.observationBackend,
    packageTarget.capabilities, packageTarget.identity .reference, ⟨9⟩, 8⟩

def directoryProviders : Providers :=
  ⟨directoryLease, directoryBackend, some directoryTransaction, directoryLease, directoryBackend,
    fun _ => .ok removalObservations⟩

private theorem lease_directory :
    LeaseBinds .reference directoryRequest.target directoryProjection directoryLease where
  held := rfl
  exclusionDomain := rfl
  target := rfl
  projection := rfl

private theorem backend_directory : BackendBinds directoryRequest.target directoryBackend where
  identity := rfl
  observation := rfl
  capabilities := rfl

theorem admissible_directory : Admissible .reference directoryRequest directoryProjection
    directoryProviders.lease directoryProviders.backend directorySource where
  requestSchema := rfl
  planSchema := rfl
  kind := rfl
  target := rfl
  lease := lease_directory
  backend := backend_directory
  state := ⟨rfl, rfl, rfl, rfl⟩
  archive := by
    intro incoming archive h
    cases h
  removal := fun _ => rfl

theorem begun_directory : Begun .reference directoryRequest directoryProjection
    directoryProviders directoryTransaction removalObservations where
  begun := rfl
  backend := backend_directory
  transaction := ⟨rfl, rfl, rfl, rfl, rfl⟩
  lease := lease_directory
  requested := rfl
  observed := rfl

private theorem fits_directory : Fits directoryRequest.plan.operation removalObservations := by
  have hcheck : PreconditionCheck.make directoryRequest.plan.operation.preconditions
      removalObservations = .ok ⟨removalObservations, []⟩ := rfl
  exact (PreconditionCheck.satisfied_iff hcheck).mp rfl

/-- The removal is admitted, and the engine can run it. -/
theorem admission_exact_directory :
    admitApplicationEngine .reference directoryRequest directoryProjection directorySource
      directoryProviders =
        .ok (.admitted (directoryRequest.attempt .reference 8) ⟨removalObservations, []⟩) ∧
    ∃ A : AdmittedApplication, A.attempt = directoryRequest.attempt .reference 8 := by
  have hexact := admission_exact .reference directoryRequest directoryProjection directorySource
    directoryProviders
  have hprepared := (admissible_directory.engineRequest.prepareInputs_ok_iff).mp
    ⟨⟨none, [], [⟨.publishActiveObject, removalPath, none⟩, ⟨.observeResult, removalPath, none⟩]⟩,
      rfl⟩
  have happlication := hexact.2 admissible_directory _ _ begun_directory fits_directory
  obtain ⟨A, -, -, hattempt, -⟩ := happlication.mpr hprepared
  exact ⟨(hexact.1 _).mpr ⟨admissible_directory, directoryTransaction, removalObservations,
    begun_directory, .inl ⟨fits_directory, rfl⟩⟩, A, hattempt⟩

end Removal

end PkgApply.Admission
