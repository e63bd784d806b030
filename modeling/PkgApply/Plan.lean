import PkgApply.Observation

/-!
# Plans, images and requests

The accepted plan, the package image and the request an application runs
under.  Plans and images come from outside the library; what their owners
promise about a value is carried by the value itself.
-/

namespace PkgApply

/-! ## Execution control -/

inductive RecoveryRequirement where
  | none
  | bestEffort
  | exactPriorState
deriving DecidableEq, Repr

inductive DurabilityRequirement where
  | visibilityOnly
  | journalAndRecovery
  | allApplicationDomains
deriving DecidableEq, Repr

inductive CancellationPolicy where
  | beforeTargetMutationOnly
  | recoverAfterTargetMutation
deriving DecidableEq, Repr

/-- A control that asks for the exact prior state recovers after mutation. -/
structure ExecutionControl where
  identity : ExecutionControlIdentity
  recovery : RecoveryRequirement
  durability : DurabilityRequirement
  cancellation : CancellationPolicy
  exact_recovers : recovery = .exactPriorState → cancellation ≠ .beforeTargetMutationOnly
deriving DecidableEq, Repr

/-- The policy that goes with every recovery requirement. -/
theorem CancellationPolicy.recovers_exact (recovery : RecoveryRequirement) :
    recovery = .exactPriorState → recoverAfterTargetMutation ≠ .beforeTargetMutationOnly := by
  rintro - ⟨⟩

/-! ## Path decisions -/

inductive PathRole where
  | incomingEntry
  | obsoleteOldPath
  | structuralParent
  | installedOwnedPath
deriving DecidableEq, Repr

structure OwnershipTransition where
  beforeExistingOwners : List InstalledPackageIdentity
  afterExistingOwners : List InstalledPackageIdentity
  incomingPackageOwnsAfter : Bool
deriving DecidableEq, Repr

/-- Where a rejected object comes from. -/
inductive RejectedObjectSource where
  | incoming (entry : EntryId)
  | oldInstalled
deriving DecidableEq, Repr

/-- Structured staging intent of one rejected object. -/
structure RejectedObjectPlan where
  path : PackagePath
  source : RejectedObjectSource
deriving DecidableEq, Repr

namespace RejectedObjectPlan

/-- The rejected outcome a source stages. -/
def outcome (plan : RejectedObjectPlan) : PlannedRejectedOutcome :=
  match plan.source with
  | .incoming _ => .stageIncoming
  | .oldInstalled => .stageOld

def incomingEntry (plan : RejectedObjectPlan) : Option EntryId :=
  match plan.source with
  | .incoming entry => some entry
  | .oldInstalled => none

end RejectedObjectPlan

/-- The decision of a plan at one path.  The planner gives an incoming entry
exactly to incoming paths, activates only incoming entries, removes only paths
without one, and describes a rejected object wherever it rejects one. -/
structure PathDecision where
  path : PackagePath
  role : PathRole
  active : PlannedActiveOutcome
  rejected : PlannedRejectedOutcome
  incomingEntry : Option EntryId
  ownership : OwnershipTransition
  rejectedObject : Option RejectedObjectPlan
  incoming_role : role = .incomingEntry ↔ incomingEntry.isSome
  activates_incoming : active = .activateIncoming → incomingEntry.isSome
  removes_existing : active = .removeObserved ∨ active = .removeDirectoryIfEmpty →
    incomingEntry = none
  rejects : rejected ≠ .none →
    ∃ object, rejectedObject = some object ∧ object.path = path ∧
      object.outcome = rejected ∧ object.incomingEntry = incomingEntry
deriving DecidableEq

/-- Whether a decision needs a mechanism call on the active namespace. -/
def activeMechanismRequired : PlannedActiveOutcome → Bool
  | .activateIncoming | .removeObserved | .removeDirectoryIfEmpty => true
  | .retainObserved | .remainAbsent => false

/-- An accepted plan: decisions and preconditions strictly ordered by path,
every decision with its precondition. -/
structure OperationPlan where
  kind : OperationKind
  identity : OperationPlanIdentity
  paths : List PathDecision
  preconditions : List PathPrecondition
  paths_sorted : (paths.map PathDecision.path).Pairwise (· < ·)
  preconditions_sorted : (preconditions.map PathPrecondition.path).Pairwise (· < ·)
  preconditions_cover : ∀ d ∈ paths, d.path ∈ preconditions.map PathPrecondition.path
  removal_roles : kind = .remove → ∀ d ∈ paths, d.role = .installedOwnedPath
deriving DecidableEq

namespace OperationPlan

/-- The decision at one path. -/
def decision (plan : OperationPlan) (path : PackagePath) : Option PathDecision :=
  plan.paths.find? (·.path == path)

/-- The precondition at one path. -/
def precondition (plan : OperationPlan) (path : PackagePath) : Option PathPrecondition :=
  plan.preconditions.find? (·.path == path)

variable {plan : OperationPlan} {path : PackagePath} {d : PathDecision}

theorem paths_nodup (plan : OperationPlan) : (plan.paths.map PathDecision.path).Nodup :=
  plan.paths_sorted.imp ne_of_lt

theorem decision_path (h : plan.decision path = some d) : d.path = path := by
  have := List.find?_some h
  simpa using this

theorem decision_mem (h : plan.decision path = some d) : d ∈ plan.paths :=
  List.mem_of_find?_eq_some h

/-- A decision of the plan is the one its path looks up. -/
theorem decision_of_mem (hd : d ∈ plan.paths) : plan.decision d.path = some d := by
  cases hfind : plan.decision d.path with
  | none => simpa using List.find?_eq_none.mp hfind d hd
  | some d' =>
    have hpath := decision_path hfind
    have hmem := decision_mem hfind
    rw [List.inj_on_of_nodup_map plan.paths_nodup hmem hd hpath]

theorem precondition_path {p : PathPrecondition} (h : plan.precondition path = some p) :
    p.path = path := by
  have := List.find?_some h
  simpa using this

/-- Every decision finds its precondition. -/
theorem precondition_of_mem (hd : d ∈ plan.paths) : ∃ p, plan.precondition d.path = some p := by
  obtain ⟨p, hp, hpath⟩ := List.mem_map.mp (plan.preconditions_cover d hd)
  cases hfind : plan.precondition d.path with
  | some p' => exact ⟨p', rfl⟩
  | none => simpa [hpath] using List.find?_eq_none.mp hfind p hp

end OperationPlan

/-! ## Package images -/

inductive EntryType where
  | regular
  | directory
  | symlink
  | hardlink
  | fifo
  | characterDevice
  | blockDevice
deriving DecidableEq, Repr

def EntryType.isDevice : EntryType → Bool
  | characterDevice | blockDevice => true
  | _ => false

/-- One entry of a sealed package image, with the attributes its type needs. -/
structure PackageEntry where
  id : EntryId
  path : PackagePath
  type : EntryType
  mode : UInt32
  uid : UInt64
  gid : UInt64
  mtime : CompletedObjectTimestamp
  size : UInt64
  regularContent : Option RegularContentIdentity
  symlinkTarget : Option (List (Fin 256))
  hardlinkTarget : Option PackagePath
  device : Option CompletedDeviceNumber
  has_content : type = .regular → regularContent.isSome
  has_target : type = .symlink → symlinkTarget.isSome
  has_anchor : type = .hardlink → hardlinkTarget.isSome
  has_device : type.isDevice → device.isSome
deriving DecidableEq

/-- A sealed image: entries by identifier and by path. -/
structure PackageImage where
  identity : PackageImageIdentity
  entries : List PackageEntry
  ids_nodup : (entries.map PackageEntry.id).Nodup
  paths_nodup : (entries.map PackageEntry.path).Nodup
  anchors_regular : ∀ e ∈ entries, e.type = .hardlink →
    ∃ t ∈ entries, e.hardlinkTarget = some t.path ∧ t.type = .regular
deriving DecidableEq

namespace PackageImage

def entry (image : PackageImage) (id : EntryId) : Option PackageEntry :=
  image.entries.find? (·.id == id)

def find (image : PackageImage) (path : PackagePath) : Option PackageEntry :=
  image.entries.find? (·.path == path)

variable {image : PackageImage} {id : EntryId} {path : PackagePath} {e : PackageEntry}

theorem id_of_entry (h : image.entry id = some e) : e.id = id := by
  simpa using List.find?_some h

theorem mem_of_entry (h : image.entry id = some e) : e ∈ image.entries :=
  List.mem_of_find?_eq_some h

/-- An entry of the image is the one its identifier looks up. -/
theorem entry_of_mem (he : e ∈ image.entries) : image.entry e.id = some e := by
  cases hfind : image.entry e.id with
  | none => simpa using List.find?_eq_none.mp hfind e he
  | some e' =>
    rw [List.inj_on_of_nodup_map image.ids_nodup (mem_of_entry hfind) he (id_of_entry hfind)]

/-- An entry of the image is the one its path looks up. -/
theorem find_of_mem (he : e ∈ image.entries) : image.find e.path = some e := by
  cases hfind : image.find e.path with
  | none => simpa using List.find?_eq_none.mp hfind e he
  | some e' =>
    have hpath : e'.path = e.path := by simpa using List.find?_some hfind
    rw [List.inj_on_of_nodup_map image.paths_nodup (List.mem_of_find?_eq_some hfind) he hpath]

end PackageImage

/-! ## Requests -/

/-- One application request: the accepted plan, the control, the target, and
the incoming image of an installation or upgrade.  A request is made only for
a plan computed from that very image. -/
structure ApplicationRequest where
  identity : ApplicationRequestIdentity
  plan : OperationPlan
  control : ExecutionControl
  target : TargetContextIdentity
  mutationBackend : MutationBackendIdentity
  image : Option PackageImage
  image_iff : image.isSome ↔ plan.kind ≠ .remove
  entries_resolve : ∀ img, image = some img → ∀ d ∈ plan.paths, ∀ id,
    d.incomingEntry = some id → ∃ e, img.entry id = some e ∧ e.path = d.path
deriving DecidableEq

/-! ## Leases and attempts -/

inductive StateProjectionCompleteness where
  | complete
  | incomplete
deriving DecidableEq, Repr

structure ProjectedPathOwners where
  path : PackagePath
  owners : Finset InstalledPackageIdentity
deriving DecidableEq

/-- The installed-state projection read under one held lease. -/
structure LeaseBoundStateProjection where
  lease : MutationLeaseInstanceIdentity
  snapshot : InstalledStateSnapshotIdentity
  ownershipInventory : OwnershipInventoryIdentity
  completeness : StateProjectionCompleteness
  paths : List ProjectedPathOwners
  evidence : StateProjectionEvidenceIdentity
  sorted : (paths.map ProjectedPathOwners.path).Pairwise (· < ·)
deriving DecidableEq

/-- One physical attempt of a request. -/
structure ApplicationAttempt where
  request : ApplicationRequestIdentity
  target : TargetContextIdentity
  backend : MutationBackendIdentity
  nonce : AttemptNonce
deriving DecidableEq

end PkgApply
