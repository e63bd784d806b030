import PkgApply.Admission.Request
import PkgApply.Engine.Admitted

/-!
# Admission

The checks between a request and the first observation of the target: that
request, state projection, lease, backend and archive all belong together, and
then that the transaction the backend begins does.
-/

namespace PkgApply.Admission

open Transport

/-! ## Refusals -/

inductive AdmissionErrorCode where
  | unsupportedRequestSchema
  | unsupportedPlanSchema
  | operationKindMismatch
  | targetContextMismatch
  | backendIdentityMismatch
  | observationBackendMismatch
  | capabilityProfileMismatch
  | incompleteStateProjection
  | installedSnapshotMismatch
  | ownershipInventoryMismatch
  | statePathUniverseMismatch
  | statePathOwnersMismatch
  | incomingArchivePreconditionMissing
  | unexpectedIncomingArchivePrecondition
  | archiveDigestMismatch
  | packageImageMismatch
  | inspectionReceiptMismatch
  | incomingEntryMissing
  | incomingEntryPathMismatch
  | transactionBackendMismatch
  | transactionObservationBackendMismatch
  | transactionCapabilityMismatch
  | transactionTargetMismatch
  | transactionLeaseMismatch
deriving DecidableEq, Repr

inductive LeaseErrorCode where
  | notHeld
  | targetContextMismatch
  | exclusionDomainMismatch
  | stateProjectionMismatch
deriving DecidableEq, Repr

inductive RestartErrorCode where
  | journalNotResumable
  | journalOperationKindMismatch
  | journalRequestMismatch
  | journalPlanMismatch
  | journalTargetMismatch
  | journalControlMismatch
  | journalBackendMismatch
  | transactionAttemptNonceMismatch
deriving DecidableEq, Repr

/-- How admission throws.  The paths of an admission error are sorted and
without duplicates. -/
inductive AdmissionFailure where
  | admission (code : AdmissionErrorCode) (message : String) (paths : Finset PackagePath)
  | lease (code : LeaseErrorCode) (message : String)
  | restart (code : RestartErrorCode) (message : String)
  | other (e : Exn)
deriving DecidableEq

/-- The errors with a code are invalid arguments. -/
def AdmissionFailure.exn : AdmissionFailure → Exn
  | .admission _ message _ | .lease _ message | .restart _ message => .invalidArgument message
  | .other e => e

/-- `if (p) throw failure`. -/
def failIf (p : Prop) [Decidable p] (failure : AdmissionFailure) : Except AdmissionFailure Unit :=
  if p then .error failure else .ok ()

def refuse (p : Prop) [Decidable p] (code : AdmissionErrorCode) (message : String) :
    Except AdmissionFailure Unit :=
  failIf p (.admission code message ∅)

/-- A refusal that implicates paths. -/
def refuseAt (p : Prop) [Decidable p] (code : AdmissionErrorCode) (message : String)
    (paths : Finset PackagePath) : Except AdmissionFailure Unit :=
  failIf p (.admission code message paths)

/-! ## Leases and backends -/

/-- What a backend says of itself when it is asked. -/
structure BackendReport where
  identity : MutationBackendIdentity
  observationIdentity : ObservationBackendIdentity
  capabilities : CapabilityProfileIdentity
deriving DecidableEq

/-- What a transaction a backend begins says of itself. -/
structure TransactionReport where
  backend : MutationBackendIdentity
  observationBackend : ObservationBackendIdentity
  capabilities : CapabilityProfileIdentity
  target : TargetContextIdentity
  lease : MutationLeaseInstanceIdentity
  attemptNonce : AttemptNonce
deriving DecidableEq

section Checks

variable (X : Externals)

def validateTargetMutationLeaseScope (target : TargetContext) (lease : MutationLease) :
    Except AdmissionFailure Unit := do
  failIf (lease.held = false) (.lease .notHeld "target mutation lease is not held")
  failIf (lease.target ≠ target.identity X)
    (.lease .targetContextMismatch "target mutation lease belongs to another application context")
  failIf (lease.exclusionDomain ≠ target.mutationExclusionDomain)
    (.lease .exclusionDomainMismatch "target mutation lease belongs to another exclusion domain")

def validateTargetMutationLease (target : TargetContext) (state : LeaseBoundStateProjection)
    (lease : MutationLease) : Except AdmissionFailure Unit := do
  validateTargetMutationLeaseScope X target lease
  failIf (lease.identity ≠ state.lease)
    (.lease .stateProjectionMismatch
      "state projection was not established under this lease instance")

def validateBackend (target : TargetContext) (backend : BackendReport) :
    Except AdmissionFailure Unit := do
  refuse (backend.identity ≠ target.mutationBackend) .backendIdentityMismatch
    "application backend does not match target context"
  refuse (backend.observationIdentity ≠ target.observationBackend) .observationBackendMismatch
    "observation backend does not match target context"
  refuse (backend.capabilities ≠ target.capabilities) .capabilityProfileMismatch
    "backend capabilities do not match target context"

/-! ## State projection -/

/-- Paths and owners, compared one position after the other. -/
def validatePathOwners : List ProjectedPathOwners → List ProjectedPathOwners →
    Except AdmissionFailure Unit
  | expected :: expecteds, actual :: actuals => do
    refuseAt (expected.path ≠ actual.path) .statePathUniverseMismatch
      "state projection path differs from accepted plan" {expected.path, actual.path}
    refuseAt (expected.owners ≠ actual.owners) .statePathOwnersMismatch
      "state projection owners differ from accepted plan" {expected.path}
    validatePathOwners expecteds actuals
  | _, _ => .ok ()

def validateState (plan : AcceptedPlan) (state : LeaseBoundStateProjection) :
    Except AdmissionFailure Unit := do
  refuse (state.completeness ≠ .complete) .incompleteStateProjection
    "application state projection is incomplete"
  refuse (state.snapshot ≠ plan.installedSnapshot) .installedSnapshotMismatch
    "installed snapshot does not match accepted plan"
  refuse (state.ownershipInventory ≠ plan.ownershipInventory) .ownershipInventoryMismatch
    "ownership inventory does not match accepted plan"
  refuseAt (plan.owners.length ≠ state.paths.length) .statePathUniverseMismatch
    "state projection does not cover the exact plan path universe"
    ((plan.owners ++ state.paths).map ProjectedPathOwners.path).toFinset
  validatePathOwners plan.owners state.paths

def validateCommon (request : PackageApplicationRequest) (state : LeaseBoundStateProjection)
    (lease : MutationLease) (backend : BackendReport) : Except AdmissionFailure Unit := do
  refuse (request.schemaVersion ≠ schemaVersion) .unsupportedRequestSchema
    "unsupported application request schema"
  refuse (request.plan.schemaVersion ≠ 1) .unsupportedPlanSchema
    "unsupported package operation plan schema"
  refuse (request.plan.operation.kind ≠ request.body.kind) .operationKindMismatch
    "application request contains another operation kind"
  refuse (request.plan.target ≠ request.target.target) .targetContextMismatch
    "application target no longer matches accepted plan"
  validateTargetMutationLease X request.target state lease
  validateBackend request.target backend
  validateState request.plan state

/-! ## Archive -/

/-- Every entry a decision cites is in the image, at the path of the decision. -/
def validateEntries (image : PackageImage) : List PathDecision → Except AdmissionFailure Unit
  | [] => .ok ()
  | decision :: rest => do
    match decision.incomingEntry with
    | none => pure ()
    | some id =>
      match image.entry id with
      | none =>
        refuseAt True .incomingEntryMissing "plan cites an absent incoming image entry"
          {decision.path}
      | some entry =>
        refuseAt (entry.path ≠ decision.path) .incomingEntryPathMismatch
          "plan incoming entry resolves to another logical path" {decision.path}
    validateEntries image rest

def validateIncomingArchive (plan : AcceptedPlan) (incoming : IncomingPackageAuthority)
    (archive : InspectedPackageImage) : Except AdmissionFailure Unit := do
  match plan.incomingArchive with
  | none =>
    refuse True .incomingArchivePreconditionMissing
      "incoming operation plan lacks archive preconditions"
  | some precondition =>
    refuse (archive.receipt.archiveDigest ≠ incoming.image.receipt.archiveDigest)
      .archiveDigestMismatch "replay archive differs from request-bound build authority"
    refuse (archive.image.identity ≠ incoming.image.image.identity)
      .packageImageMismatch "replay image differs from request-bound build authority"
    refuse (archive.receipt.identity ≠ incoming.image.receipt.identity)
      .inspectionReceiptMismatch "replay inspection differs from request-bound build authority"
    refuse (archive.receipt.archiveDigest ≠ precondition.archive)
      .archiveDigestMismatch "replay source archive digest differs from accepted plan"
    refuse (archive.image.identity ≠ precondition.image ∨
        archive.receipt.imageIdentity ≠ archive.image.identity ∨
        archive.receipt.entryCount ≠ archive.image.entries.length)
      .packageImageMismatch "replay source image differs from accepted plan"
    refuse (archive.receipt.identity ≠ precondition.inspectionReceipt)
      .inspectionReceiptMismatch "archive inspection receipt differs from accepted plan"
    validateEntries archive.image plan.operation.paths

/-- The archive a request is admitted with: one exactly where the request brings
a package in. -/
structure ReplaySource (body : RequestBody) where
  archive : Option InspectedPackageImage
  given : archive.isSome = body.incoming.isSome
deriving DecidableEq

/-- The three overloads. -/
def validateApplicationAdmission (request : PackageApplicationRequest)
    (state : LeaseBoundStateProjection) (lease : MutationLease) (backend : BackendReport)
    (source : ReplaySource request.body) : Except AdmissionFailure Unit := do
  validateCommon X request state lease backend
  match request.body.incoming, source.archive with
  | some incoming, some archive => validateIncomingArchive request.plan incoming archive
  | _, _ =>
    refuse request.plan.incomingArchive.isSome .unexpectedIncomingArchivePrecondition
      "removal plan contains incoming archive authority"

/-! ## Transaction -/

def validateBackendTransaction (target : TargetContext) (lease : MutationLease)
    (backend : BackendReport) (transaction : TransactionReport) : Except AdmissionFailure Unit := do
  validateBackend target backend
  refuse (transaction.backend ≠ target.mutationBackend) .transactionBackendMismatch
    "backend transaction reports another mutation backend"
  refuse (transaction.observationBackend ≠ target.observationBackend)
    .transactionObservationBackendMismatch
    "backend transaction reports another observation backend"
  refuse (transaction.capabilities ≠ target.capabilities) .transactionCapabilityMismatch
    "backend transaction reports another capability profile"
  refuse (transaction.target ≠ target.identity X) .transactionTargetMismatch
    "backend transaction belongs to another target context"
  refuse (transaction.lease ≠ lease.identity) .transactionLeaseMismatch
    "backend transaction belongs to another lease acquisition"

end Checks

/-! ## What the checks establish -/

section Established

variable {p : Prop} [Decidable p] {failure : AdmissionFailure} {code : AdmissionErrorCode}
  {message : String} {paths : Finset PackagePath}

@[simp] theorem failIf_eq_ok : failIf p failure = .ok () ↔ ¬p := by
  unfold failIf
  by_cases h : p
  · simp [h]
  · simp [h]

@[simp] theorem refuse_eq_ok : refuse p code message = .ok () ↔ ¬p := failIf_eq_ok

@[simp] theorem refuseAt_eq_ok : refuseAt p code message paths = .ok () ↔ ¬p := failIf_eq_ok

end Established

section Bindings

variable (X : Externals)

/-- The lease is held, it is of the target, and the projection was read under
this acquisition of it. -/
structure LeaseBinds (target : TargetContext) (state : LeaseBoundStateProjection)
    (lease : MutationLease) : Prop where
  held : lease.held = true
  exclusionDomain : lease.exclusionDomain = target.mutationExclusionDomain
  target : lease.target = target.identity X
  projection : lease.identity = state.lease

/-- The backend is the one the target names. -/
structure BackendBinds (target : TargetContext) (backend : BackendReport) : Prop where
  identity : backend.identity = target.mutationBackend
  observation : backend.observationIdentity = target.observationBackend
  capabilities : backend.capabilities = target.capabilities

/-- The projection is of the state the plan was made for, path by path. -/
structure StateBinds (plan : AcceptedPlan) (state : LeaseBoundStateProjection) : Prop where
  complete : state.completeness = .complete
  snapshot : state.snapshot = plan.installedSnapshot
  ownershipInventory : state.ownershipInventory = plan.ownershipInventory
  owners : state.paths = plan.owners

/-- The archive is the one the plan and the request were made for, and it has
every entry the plan cites. -/
structure ArchiveBinds (plan : AcceptedPlan) (incoming : IncomingPackageAuthority)
    (archive : InspectedPackageImage) : Prop where
  precondition : plan.incomingArchive =
    some ⟨archive.receipt.archiveDigest, archive.image.identity, archive.receipt.identity⟩
  digest : archive.receipt.archiveDigest = incoming.image.receipt.archiveDigest
  image : archive.image.identity = incoming.image.image.identity
  receipt : archive.receipt.identity = incoming.image.receipt.identity
  inspected : archive.receipt.imageIdentity = archive.image.identity
  counted : archive.receipt.entryCount = archive.image.entries.length
  resolves : ∀ d ∈ plan.operation.paths, ∀ id, d.incomingEntry = some id →
    ∃ entry, archive.image.entry id = some entry ∧ entry.path = d.path

/-- Everything a request is admitted with belongs together. -/
structure Admissible (request : PackageApplicationRequest) (state : LeaseBoundStateProjection)
    (lease : MutationLease) (backend : BackendReport) (source : ReplaySource request.body) :
    Prop where
  requestSchema : request.schemaVersion = schemaVersion
  planSchema : request.plan.schemaVersion = 1
  kind : request.plan.operation.kind = request.body.kind
  target : request.plan.target = request.target.target
  lease : LeaseBinds X request.target state lease
  backend : BackendBinds request.target backend
  state : StateBinds request.plan state
  archive : ∀ incoming archive, request.body.incoming = some incoming →
    source.archive = some archive → ArchiveBinds request.plan incoming archive
  removal : request.body.incoming = none → request.plan.incomingArchive = none

/-- The transaction was begun by the backend of the target, for it, under the
lease. -/
structure TransactionBinds (target : TargetContext) (lease : MutationLease)
    (transaction : TransactionReport) : Prop where
  backend : transaction.backend = target.mutationBackend
  observationBackend : transaction.observationBackend = target.observationBackend
  capabilities : transaction.capabilities = target.capabilities
  target : transaction.target = target.identity X
  lease : transaction.lease = lease.identity

variable {X} {request : PackageApplicationRequest} {plan : AcceptedPlan}
  {target : TargetContext} {state : LeaseBoundStateProjection} {lease : MutationLease}
  {backend : BackendReport} {transaction : TransactionReport}

theorem validateTargetMutationLease_eq_ok :
    validateTargetMutationLease X target state lease = .ok () ↔
      LeaseBinds X target state lease := by
  unfold validateTargetMutationLease validateTargetMutationLeaseScope
  simp only [andThen_eq_ok, failIf_eq_ok, Bool.not_eq_false, ne_eq, not_not]
  constructor
  · rintro ⟨⟨hheld, htarget, hdomain⟩, hprojection⟩
    exact ⟨hheld, hdomain, htarget, hprojection⟩
  · intro h
    exact ⟨⟨h.held, h.target, h.exclusionDomain⟩, h.projection⟩

theorem validateBackend_eq_ok :
    validateBackend target backend = .ok () ↔ BackendBinds target backend := by
  unfold validateBackend
  simp only [andThen_eq_ok, refuse_eq_ok, ne_eq, not_not]
  constructor
  · rintro ⟨hidentity, hobservation, hcapabilities⟩
    exact ⟨hidentity, hobservation, hcapabilities⟩
  · intro h
    exact ⟨h.identity, h.observation, h.capabilities⟩

/-- Lists of one length are compared to the end. -/
theorem validatePathOwners_eq_ok {expected actual : List ProjectedPathOwners}
    (hlength : expected.length = actual.length) :
    validatePathOwners expected actual = .ok () ↔ actual = expected := by
  induction expected generalizing actual with
  | nil =>
    cases actual with
    | nil => simp [validatePathOwners]
    | cons a actual => simp at hlength
  | cons e expected ih =>
    cases actual with
    | nil => simp at hlength
    | cons a actual =>
      obtain ⟨epath, eowners⟩ := e
      obtain ⟨apath, aowners⟩ := a
      simp only [validatePathOwners, andThen_eq_ok, refuseAt_eq_ok, ne_eq, not_not,
        ih (Nat.succ.inj hlength), List.cons.injEq, ProjectedPathOwners.mk.injEq, and_assoc]
      simp only [eq_comm]

theorem validateState_eq_ok : validateState plan state = .ok () ↔ StateBinds plan state := by
  unfold validateState
  simp only [andThen_eq_ok, refuse_eq_ok, refuseAt_eq_ok, ne_eq, not_not]
  constructor
  · rintro ⟨hcomplete, hsnapshot, hinventory, hlength, howners⟩
    exact ⟨hcomplete, hsnapshot, hinventory, (validatePathOwners_eq_ok hlength).mp howners⟩
  · intro h
    have hlength : plan.owners.length = state.paths.length := by rw [h.owners]
    exact ⟨h.complete, h.snapshot, h.ownershipInventory, hlength,
      (validatePathOwners_eq_ok hlength).mpr h.owners⟩

/-- Every decision that cites an entry finds it in the image at its own path. -/
theorem validateEntries_eq_ok {image : PackageImage} {decisions : List PathDecision} :
    validateEntries image decisions = .ok () ↔ ∀ d ∈ decisions, ∀ id,
      d.incomingEntry = some id → ∃ entry, image.entry id = some entry ∧ entry.path = d.path := by
  induction decisions with
  | nil => simp [validateEntries]
  | cons d decisions ih =>
    simp only [validateEntries, List.forall_mem_cons]
    cases hcited : d.incomingEntry with
    | none => simp [ih]
    | some id =>
      cases hentry : image.entry id with
      | none => simp [hentry, andThen_eq_ok]
      | some entry => simp [hentry, andThen_eq_ok, ih]

theorem validateIncomingArchive_eq_ok {incoming : IncomingPackageAuthority}
    {archive : InspectedPackageImage} :
    validateIncomingArchive plan incoming archive = .ok () ↔
      ArchiveBinds plan incoming archive := by
  unfold validateIncomingArchive
  cases hprecondition : plan.incomingArchive with
  | none =>
    simp only [refuse_eq_ok, not_true_eq_false, false_iff]
    intro h
    simp [h.precondition] at hprecondition
  | some precondition =>
    obtain ⟨digest, image, receipt⟩ := precondition
    simp only [andThen_eq_ok, refuse_eq_ok, ne_eq, not_or, not_not, validateEntries_eq_ok]
    constructor
    · rintro ⟨hdigest, himage, hreceipt, rfl, ⟨rfl, hinspected, hcounted⟩, rfl, hresolves⟩
      exact ⟨hprecondition, hdigest, himage, hreceipt, hinspected, hcounted, hresolves⟩
    · intro h
      have heq := hprecondition.symm.trans h.precondition
      simp only [Option.some.injEq, IncomingArchivePrecondition.mk.injEq] at heq
      obtain ⟨rfl, rfl, rfl⟩ := heq
      exact ⟨h.digest, h.image, h.receipt, rfl, ⟨rfl, h.inspected, h.counted⟩, rfl, h.resolves⟩

/-- The checks pass exactly where everything belongs together. -/
theorem validateApplicationAdmission_eq_ok {source : ReplaySource request.body} :
    validateApplicationAdmission X request state lease backend source = .ok () ↔
      Admissible X request state lease backend source := by
  unfold validateApplicationAdmission validateCommon
  simp only [andThen_eq_ok, refuse_eq_ok, ne_eq, not_not, validateTargetMutationLease_eq_ok,
    validateBackend_eq_ok, validateState_eq_ok]
  constructor
  · rintro ⟨⟨hrequest, hplan, hkind, htarget, hlease, hbackend, hstate⟩, harchive⟩
    refine ⟨hrequest, hplan, hkind, htarget, hlease, hbackend, hstate, ?_, ?_⟩
    · intro incoming archive hincoming hgiven
      simp only [hincoming, hgiven] at harchive
      exact validateIncomingArchive_eq_ok.mp harchive
    · intro hincoming
      simpa [hincoming] using harchive
  · intro h
    refine ⟨⟨h.requestSchema, h.planSchema, h.kind, h.target, h.lease, h.backend, h.state⟩, ?_⟩
    have hgiven := source.given
    cases hincoming : request.body.incoming with
    | none => simp [h.removal hincoming]
    | some incoming =>
      cases harchive : source.archive with
      | none => simp [hincoming, harchive] at hgiven
      | some archive =>
        exact validateIncomingArchive_eq_ok.mpr (h.archive incoming archive hincoming harchive)

theorem validateBackendTransaction_eq_ok :
    validateBackendTransaction X target lease backend transaction = .ok () ↔
      BackendBinds target backend ∧ TransactionBinds X target lease transaction := by
  unfold validateBackendTransaction
  simp only [andThen_eq_ok, refuse_eq_ok, ne_eq, not_not, validateBackend_eq_ok]
  refine and_congr_right fun _ => ?_
  constructor
  · rintro ⟨hbackend, hobservation, hcapabilities, htarget, hlease⟩
    exact ⟨hbackend, hobservation, hcapabilities, htarget, hlease⟩
  · intro h
    exact ⟨h.backend, h.observationBackend, h.capabilities, h.target, h.lease⟩

end Bindings

end PkgApply.Admission
