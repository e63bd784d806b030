import PkgApply.Admission.Context

/-!
# Application requests

An accepted plan with the incoming package, the target and the control it is
to be applied under.  A request is made only where the facts of the plan are
those of the package, and its identity binds all of them.
-/

namespace PkgApply.Admission

open Library Transport

/-! ## Package facts -/

/-- A package release: its identity, and what else its comparison reads. -/
structure PackageRelease where
  identity : Text
  details : Text
deriving DecidableEq

structure CandidatePackageFact where
  identity : Text
  release : PackageRelease
  controlProjection : Text
deriving DecidableEq

structure ArtifactPackageFact where
  artifact : Text
  manifest : Text
  release : PackageRelease
deriving DecidableEq

structure InspectionReceipt where
  identity : Text
  archiveDigest : Text
  imageIdentity : PackageImageIdentity
  entryCount : Nat
deriving DecidableEq

/-- An image with the receipt of its inspection, as an archive reader gives both. -/
structure InspectedPackageImage where
  image : PackageImage
  receipt : InspectionReceipt
deriving DecidableEq

/-- A built package as it is admitted for application. -/
structure IncomingPackageAuthority where
  authority : Text
  source : Text
  candidate : CandidatePackageFact
  artifact : ArtifactPackageFact
  image : InspectedPackageImage
deriving DecidableEq

namespace IncomingPackageAuthority

/-- The texts the identity of an incoming package binds. -/
def bound (incoming : IncomingPackageAuthority) : Text × Text × Text × Text × Text × Text :=
  (incoming.authority, incoming.source, incoming.candidate.identity, incoming.artifact.artifact,
    incoming.artifact.manifest, incoming.artifact.release.identity)

def record (incoming : IncomingPackageAuthority) : CanonicalRecord :=
  ((((((AuthorityDomain.incomingPackageAuthority.start.appendU16 schemaVersion).appendBytes
    incoming.authority).appendBytes incoming.source).appendBytes
    incoming.candidate.identity).appendBytes incoming.artifact.artifact).appendBytes
    incoming.artifact.manifest).appendBytes incoming.artifact.release.identity

def identity (X : Externals) (incoming : IncomingPackageAuthority) : BitVec 256 :=
  X.sha256 incoming.record.bytes

end IncomingPackageAuthority

/-! ## Accepted plans -/

structure IncomingArchivePrecondition where
  archive : Text
  image : PackageImageIdentity
  inspectionReceipt : Text
deriving DecidableEq

structure PlanInputs where
  candidateRelease : Text
  artifactRelease : Text
  candidate : Text
  candidateControl : Text
  artifact : Text
  artifactManifest : Text
  expectedArchive : Text
  observedArchive : Text
  image : PackageImageIdentity
  inspectionReceipt : Text
deriving DecidableEq

structure PackagePublication where
  release : PackageRelease
  candidate : Text
  installedControl : Text
  artifact : Text
  artifactManifest : Text
deriving DecidableEq

/-- What an installation or upgrade plan says of the package it brings in. -/
structure IncomingPlan where
  release : PackageRelease
  inputs : PlanInputs
  publication : PackagePublication
deriving DecidableEq

/-- An accepted plan with the preconditions its application is admitted under:
the owners of every path that has a precondition, and the archive of an
incoming package. -/
structure AcceptedPlan where
  schemaVersion : Nat
  operation : OperationPlan
  target : Text
  installedSnapshot : InstalledStateSnapshotIdentity
  ownershipInventory : OwnershipInventoryIdentity
  owners : List ProjectedPathOwners
  incomingArchive : Option IncomingArchivePrecondition
  owners_paths : owners.map ProjectedPathOwners.path =
    operation.preconditions.map PathPrecondition.path
deriving DecidableEq

/-! ## Requests -/

/-- What kind of request it is, with the package an incoming one brings. -/
inductive RequestBody where
  | installation (plan : IncomingPlan) (incoming : IncomingPackageAuthority)
  | upgrade (plan : IncomingPlan) (incoming : IncomingPackageAuthority)
  | removal
deriving DecidableEq

namespace RequestBody

def kind : RequestBody → OperationKind
  | installation .. => .install
  | upgrade .. => .upgrade
  | removal => .remove

def incoming : RequestBody → Option IncomingPackageAuthority
  | installation _ incoming | upgrade _ incoming => some incoming
  | removal => none

end RequestBody

structure PackageApplicationRequest where
  schemaVersion : Nat
  plan : AcceptedPlan
  body : RequestBody
  target : TargetContext
  control : ControlRecord

namespace PackageApplicationRequest

def validateTarget (plan : AcceptedPlan) (target : TargetContext) : Except Exn Unit :=
  refuseIf (plan.target ≠ target.target)
    (.invalidArgument "application target does not match accepted plan")

def requirePlanBinding (condition : Prop) [Decidable condition] (message : String) :
    Except Exn Unit :=
  refuseIf (¬condition) (.invalidArgument message)

/-- The facts of the plan are those of the incoming package. -/
def validateIncoming (plan : AcceptedPlan) (facts : IncomingPlan)
    (incoming : IncomingPackageAuthority) : Except Exn Unit := do
  let candidate := incoming.candidate
  let artifact := incoming.artifact
  let inputs := facts.inputs
  let publication := facts.publication
  let image := incoming.image
  requirePlanBinding
    (inputs.candidateRelease = candidate.release.identity ∧
      inputs.artifactRelease = candidate.release.identity ∧
      facts.release = candidate.release ∧ publication.release = candidate.release)
    "accepted plan release differs from sealed build source"
  requirePlanBinding
    (inputs.candidate = candidate.identity ∧
      inputs.candidateControl = candidate.controlProjection ∧
      publication.candidate = candidate.identity ∧
      publication.installedControl = candidate.controlProjection)
    "accepted plan candidate control differs from sealed build source"
  requirePlanBinding
    (inputs.artifact = artifact.artifact ∧ publication.artifact = artifact.artifact ∧
      inputs.artifactManifest = artifact.manifest ∧
      publication.artifactManifest = artifact.manifest ∧
      inputs.expectedArchive = image.receipt.archiveDigest ∧
      inputs.observedArchive = image.receipt.archiveDigest ∧
      inputs.image = image.image.identity ∧ inputs.inspectionReceipt = image.receipt.identity)
    "accepted plan artifact facts differ from verified build image"
  requirePlanBinding
    (plan.incomingArchive = some ⟨image.receipt.archiveDigest, image.image.identity,
      image.receipt.identity⟩)
    "accepted plan precondition differs from verified build image"

/-- The three `make` functions. -/
def make (plan : AcceptedPlan) (body : RequestBody) (target : TargetContext)
    (control : ControlRecord) : Except Exn PackageApplicationRequest := do
  validateTarget plan target
  match body with
  | .installation facts incoming | .upgrade facts incoming => validateIncoming plan facts incoming
  | .removal =>
    refuseIf plan.incomingArchive.isSome
      (.invalidArgument "removal plan carries incoming archive authority")
  return ⟨Admission.schemaVersion, plan, body, target, control⟩

/-- What a plan says of the package it brings in is what the package says. -/
structure Describes (plan : AcceptedPlan) (facts : IncomingPlan)
    (incoming : IncomingPackageAuthority) : Prop where
  candidateRelease : facts.inputs.candidateRelease = incoming.candidate.release.identity
  artifactRelease : facts.inputs.artifactRelease = incoming.candidate.release.identity
  release : facts.release = incoming.candidate.release
  candidate : facts.inputs.candidate = incoming.candidate.identity
  control : facts.inputs.candidateControl = incoming.candidate.controlProjection
  inputs : (facts.inputs.artifact, facts.inputs.artifactManifest) =
    (incoming.artifact.artifact, incoming.artifact.manifest)
  archive : facts.inputs.expectedArchive = incoming.image.receipt.archiveDigest ∧
    facts.inputs.observedArchive = incoming.image.receipt.archiveDigest
  inspection : facts.inputs.image = incoming.image.image.identity ∧
    facts.inputs.inspectionReceipt = incoming.image.receipt.identity
  publication : facts.publication = ⟨incoming.candidate.release, incoming.candidate.identity,
    incoming.candidate.controlProjection, incoming.artifact.artifact, incoming.artifact.manifest⟩
  precondition : plan.incomingArchive = some ⟨incoming.image.receipt.archiveDigest,
    incoming.image.image.identity, incoming.image.receipt.identity⟩

section Make

variable {plan : AcceptedPlan} {body : RequestBody} {target : TargetContext}
  {control : ControlRecord} {facts : IncomingPlan} {incoming : IncomingPackageAuthority}

/-- The four checks pass exactly when the plan describes the package. -/
theorem validateIncoming_eq_ok_iff :
    validateIncoming plan facts incoming = .ok () ↔ Describes plan facts incoming := by
  unfold validateIncoming requirePlanBinding
  simp only [refuseIf_bind_eq_ok, refuseIf_eq_ok, not_not]
  constructor
  · rintro ⟨⟨hcandidate, hartifact, hrelease, hpublished⟩, ⟨hidentity, hcontrol, hpidentity,
      hinstalled⟩, ⟨ha, hpa, hm, hpm, hexpected, hobserved, himage, hreceipt⟩, hprecondition⟩
    refine ⟨hcandidate, hartifact, hrelease, hidentity, hcontrol, Prod.ext ha hm,
      ⟨hexpected, hobserved⟩, ⟨himage, hreceipt⟩, ?_, hprecondition⟩
    rw [← hpublished, ← hpidentity, ← hinstalled, ← hpa, ← hpm]
  · intro h
    obtain ⟨ha, hm⟩ := Prod.mk.inj h.inputs
    rw [h.publication]
    exact ⟨⟨h.candidateRelease, h.artifactRelease, h.release, rfl⟩, ⟨h.candidate, h.control, rfl,
      rfl⟩, ⟨ha, rfl, hm, rfl, h.archive.1, h.archive.2, h.inspection.1, h.inspection.2⟩,
      h.precondition⟩

/-- A request is made exactly for the target of its plan: an incoming one of a
package the plan describes, a removal under a plan that expects no archive. -/
theorem make_eq_ok_iff {request : PackageApplicationRequest} :
    make plan body target control = .ok request ↔
      plan.target = target.target ∧
        (match body with
          | .installation facts incoming | .upgrade facts incoming => Describes plan facts incoming
          | .removal => plan.incomingArchive = none) ∧
          request = ⟨Admission.schemaVersion, plan, body, target, control⟩ := by
  unfold make validateTarget
  cases body <;>
    simp only [andThen_eq_ok, refuseIf_eq_ok, validateIncoming_eq_ok_iff, ne_eq, not_not,
      Option.isSome_iff_ne_none, pure, Except.pure, Except.ok.injEq, @eq_comm _ request]

end Make

def kindTag : OperationKind → Byte
  | .install => 1
  | .upgrade => 2
  | .remove => 3

def record (X : Externals) (request : PackageApplicationRequest) : CanonicalRecord :=
  (((((AuthorityDomain.applicationRequest.start.appendU16 Admission.schemaVersion).appendU8
    (kindTag request.body.kind)).appendBytes
    (X.planningText request.plan.operation.identity)).appendOptionalDigest
    (request.body.incoming.map (IncomingPackageAuthority.identity X))).appendDigest
    (request.target.identity X).digest).appendDigest (request.control.identity X).digest

def identity (X : Externals) (request : PackageApplicationRequest) : ApplicationRequestIdentity :=
  ⟨X.sha256 (request.record X).bytes⟩

/-- The attempt of a request under one nonce. -/
def attempt (X : Externals) (request : PackageApplicationRequest) (nonce : AttemptNonce) :
    ApplicationAttempt :=
  ⟨request.identity X, request.target.identity X, request.target.mutationBackend, nonce⟩

end PackageApplicationRequest

end PkgApply.Admission
