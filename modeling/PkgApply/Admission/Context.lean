import PkgApply.Transport.Preimages

/-!
# Execution controls, target contexts and leases

The authorities an application runs under besides its plan.  Each is a value
its constructor has checked, and its identity is the digest of one canonical
record.
-/

namespace PkgApply.Admission

open Library Transport

/-- The text of an identity that another library produces. -/
abbrev Text : Type := List Byte

def schemaVersion : Nat := 1

/-! ## Domains -/

/-- The authorities a target context refers to by their digests alone. -/
inductive ReferenceKind where
  | managedTarget
  | rootView
  | activeObjectNamespace
  | rejectedObjectStore
  | stagingNamespace
  | journalNamespace
  | lifecycleExecutor
deriving DecidableEq, Repr

structure Reference (kind : ReferenceKind) where
  digest : BitVec 256
deriving DecidableEq, Repr

inductive AuthorityDomain where
  | applicationExecutionControl
  | applicationTargetContext
  | mutationLeaseInstance
  | incomingPackageAuthority
  | applicationRequest
deriving DecidableEq, Repr

def AuthorityDomain.name : AuthorityDomain → String
  | .applicationExecutionControl => "pkgapply/application-execution-control/v1"
  | .applicationTargetContext => "pkgapply/application-target-context/v1"
  | .mutationLeaseInstance => "pkgapply/mutation-lease-instance-reference/v1"
  | .incomingPackageAuthority => "pkgapply/incoming-package-authority/v1"
  | .applicationRequest => "pkgapply/application-request/v1"

/-- A record that binds the domain and the version of the encoding. -/
def AuthorityDomain.start (domain : AuthorityDomain) : CanonicalRecord :=
  ((⟨CanonicalRecord.magic⟩ : CanonicalRecord).appendU16
    CanonicalRecord.encodingVersion).appendBytes (ascii domain.name)

/-! ## Execution control -/

def canonicalRecovery : RecoveryRequirement → Byte
  | .none => 1
  | .bestEffort => 2
  | .exactPriorState => 3

def canonicalDurability : DurabilityRequirement → Byte
  | .visibilityOnly => 1
  | .journalAndRecovery => 2
  | .allApplicationDomains => 3

def canonicalCancellation : CancellationPolicy → Byte
  | .beforeTargetMutationOnly => 1
  | .recoverAfterTargetMutation => 2

/-- An execution control with the limits it sets. -/
structure ControlRecord where
  recovery : RecoveryRequirement
  durability : DurabilityRequirement
  cancellation : CancellationPolicy
  maximumStagingBytes : Option UInt64
  maximumRecoveryBytes : Option UInt64
  staging_nonzero : maximumStagingBytes ≠ some 0
  recovery_nonzero : maximumRecoveryBytes ≠ some 0
  exact_recovers : recovery = .exactPriorState → cancellation ≠ .beforeTargetMutationOnly

namespace ControlRecord

def make (recovery : RecoveryRequirement) (durability : DurabilityRequirement)
    (cancellation : CancellationPolicy) (maximumStagingBytes maximumRecoveryBytes : Option UInt64) :
    Except Exn ControlRecord :=
  if hstaging : maximumStagingBytes ≠ some 0 then
    if hrecovery : maximumRecoveryBytes ≠ some 0 then
      if hexact : recovery = .exactPriorState → cancellation ≠ .beforeTargetMutationOnly then
        .ok ⟨recovery, durability, cancellation, maximumStagingBytes, maximumRecoveryBytes,
          hstaging, hrecovery, hexact⟩
      else
        .error (.invalidArgument
          "exact recovery requires post-mutation recovery cancellation policy")
    else .error (.invalidArgument "maximum recovery bytes must be nonzero")
  else .error (.invalidArgument "maximum staging bytes must be nonzero")

section Make

variable {recovery : RecoveryRequirement} {durability : DurabilityRequirement}
  {cancellation : CancellationPolicy} {maximumStagingBytes maximumRecoveryBytes : Option UInt64}

/-- What is made is what was asked for. -/
theorem make_eq_ok_iff {control : ControlRecord} :
    make recovery durability cancellation maximumStagingBytes maximumRecoveryBytes = .ok control ↔
      control.recovery = recovery ∧ control.durability = durability ∧
        control.cancellation = cancellation ∧ control.maximumStagingBytes = maximumStagingBytes ∧
          control.maximumRecoveryBytes = maximumRecoveryBytes := by
  unfold make
  constructor
  · intro h
    split_ifs at h
    cases h
    exact ⟨rfl, rfl, rfl, rfl, rfl⟩
  · rintro ⟨rfl, rfl, rfl, rfl, rfl⟩
    rw [dif_pos control.staging_nonzero, dif_pos control.recovery_nonzero,
      dif_pos control.exact_recovers]

/-- A limit of zero is refused, and so is exact recovery without the authority
to recover. -/
theorem exists_make_iff :
    (∃ control, make recovery durability cancellation maximumStagingBytes maximumRecoveryBytes =
      .ok control) ↔
      maximumStagingBytes ≠ some 0 ∧ maximumRecoveryBytes ≠ some 0 ∧
        (recovery = .exactPriorState → cancellation ≠ .beforeTargetMutationOnly) := by
  constructor
  · rintro ⟨control, h⟩
    obtain ⟨rfl, rfl, rfl, rfl, rfl⟩ := make_eq_ok_iff.mp h
    exact ⟨control.staging_nonzero, control.recovery_nonzero, control.exact_recovers⟩
  · rintro ⟨hstaging, hrecovery, hexact⟩
    exact ⟨⟨recovery, durability, cancellation, _, _, hstaging, hrecovery, hexact⟩,
      make_eq_ok_iff.mpr ⟨rfl, rfl, rfl, rfl, rfl⟩⟩

end Make

def appendOptionalU64 (record : CanonicalRecord) : Option UInt64 → CanonicalRecord
  | none => record.appendBool false
  | some value => (record.appendBool true).appendU64 value.toNat

def record (control : ControlRecord) : CanonicalRecord :=
  let record := (((AuthorityDomain.applicationExecutionControl.start.appendU16
    schemaVersion).appendU8 (canonicalRecovery control.recovery)).appendU8
    (canonicalDurability control.durability)).appendU8 (canonicalCancellation control.cancellation)
  appendOptionalU64 (appendOptionalU64 record control.maximumStagingBytes)
    control.maximumRecoveryBytes

def identity (X : Externals) (control : ControlRecord) : ExecutionControlIdentity :=
  ⟨X.sha256 control.record.bytes⟩

/-- What the engine reads of a control. -/
def control (X : Externals) (record : ControlRecord) : ExecutionControl :=
  ⟨record.identity X, record.recovery, record.durability, record.cancellation,
    record.exact_recovers⟩

end ControlRecord

/-! ## Target context -/

/-- The bindings of a target context. -/
structure TargetBindings where
  target : Text
  managedTarget : Reference .managedTarget
  rootView : Reference .rootView
  observationBackend : ObservationBackendIdentity
  mutationBackend : MutationBackendIdentity
  mutationExclusionDomain : MutationExclusionDomainIdentity
  activeNamespace : Reference .activeObjectNamespace
  rejectedStore : Reference .rejectedObjectStore
  stagingNamespace : Reference .stagingNamespace
  journalNamespace : Reference .journalNamespace
  capabilities : CapabilityProfileIdentity
  lifecycleExecutor : Option (Reference .lifecycleExecutor)
deriving DecidableEq

/-- The texts of the namespaces a context keeps apart. -/
def TargetBindings.namespaces (bindings : TargetBindings) : List Text :=
  [digestText bindings.activeNamespace.digest, digestText bindings.rejectedStore.digest,
    digestText bindings.stagingNamespace.digest, digestText bindings.journalNamespace.digest]

structure TargetContext extends TargetBindings where
  distinct : toTargetBindings.namespaces.Nodup
deriving DecidableEq

namespace TargetContext

def make (bindings : TargetBindings) : Except Exn TargetContext :=
  if h : bindings.namespaces.Nodup then .ok ⟨bindings, h⟩
  else .error (.invalidArgument "application target context namespaces must be distinct")

/-- The context made of bindings has these bindings. -/
theorem make_eq_ok_iff {bindings : TargetBindings} {context : TargetContext} :
    make bindings = .ok context ↔ context.toTargetBindings = bindings := by
  unfold make
  constructor
  · intro h
    split_ifs at h
    cases h
    rfl
  · rintro rfl
    rw [dif_pos context.distinct]

/-- Bindings make a context exactly when their namespaces are distinct. -/
theorem exists_make_iff {bindings : TargetBindings} :
    (∃ context, make bindings = .ok context) ↔ bindings.namespaces.Nodup := by
  constructor
  · rintro ⟨context, h⟩
    rw [← make_eq_ok_iff.mp h]
    exact context.distinct
  · intro h
    exact ⟨⟨bindings, h⟩, make_eq_ok_iff.mpr rfl⟩

def record (context : TargetContext) : CanonicalRecord :=
  (((((((((((((AuthorityDomain.applicationTargetContext.start.appendU16
    schemaVersion).appendBytes context.target).appendDigest
    context.managedTarget.digest).appendDigest context.rootView.digest).appendDigest
    context.observationBackend.digest).appendDigest context.mutationBackend.digest).appendDigest
    context.mutationExclusionDomain.digest).appendDigest
    context.activeNamespace.digest).appendDigest context.rejectedStore.digest).appendDigest
    context.stagingNamespace.digest).appendDigest context.journalNamespace.digest).appendDigest
    context.capabilities.digest)).appendOptionalDigest
    (context.lifecycleExecutor.map Reference.digest)

def identity (X : Externals) (context : TargetContext) : TargetContextIdentity :=
  ⟨X.sha256 context.record.bytes⟩

end TargetContext

/-! ## Leases -/

/-- One acquisition of a target's mutation lease. -/
structure LeaseAcquisition where
  target : TargetContextIdentity
  exclusionDomain : MutationExclusionDomainIdentity
  nonce : BitVec 256
deriving DecidableEq

namespace LeaseAcquisition

def record (acquisition : LeaseAcquisition) : CanonicalRecord :=
  let record := ((AuthorityDomain.mutationLeaseInstance.start.appendU16
    schemaVersion).appendDigest acquisition.target.digest).appendDigest
    acquisition.exclusionDomain.digest
  ⟨record.bytes ++ digestBytes acquisition.nonce⟩

def identity (X : Externals) (acquisition : LeaseAcquisition) : MutationLeaseInstanceIdentity :=
  ⟨X.sha256 acquisition.record.bytes⟩

end LeaseAcquisition

/-- What a lease says of itself when it is asked. -/
structure MutationLease where
  identity : MutationLeaseInstanceIdentity
  target : TargetContextIdentity
  exclusionDomain : MutationExclusionDomainIdentity
  held : Bool
deriving DecidableEq

end PkgApply.Admission
