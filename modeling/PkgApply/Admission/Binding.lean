import PkgApply.Admission.Request
import PkgApply.Engine.Admitted
import PkgApply.Transport.Binding

/-!
# What the identity of a journal binds

The canonical record of each authority determines the authority.  A journal
names its attempt, state projection and lease, an attempt its request and
target, a request its package, target and control; so where SHA-256 does not
collide on these records, journals of one identity run under the same of
everything.
-/

namespace PkgApply.Admission

open Library Transport CanonicalRecord

/-! ## Fields -/

section Fields

theorem injective_canonicalRecovery : Function.Injective canonicalRecovery := by
  intro a b h
  cases a <;> cases b <;> first | rfl | cases h

theorem injective_canonicalDurability : Function.Injective canonicalDurability := by
  intro a b h
  cases a <;> cases b <;> first | rfl | cases h

theorem injective_canonicalCancellation : Function.Injective canonicalCancellation := by
  intro a b h
  cases a <;> cases b <;> first | rfl | cases h

theorem injective_kindTag : Function.Injective PackageApplicationRequest.kindTag := by
  intro a b h
  cases a <;> cases b <;> first | rfl | cases h

/-- A byte of an injective code is delimited. -/
theorem delimited_code {α : Type} {code : α → Byte} (h : Function.Injective code) :
    Delimited fun a => [code a] :=
  .of_length 1 (fun _ => rfl) fun _ _ _ _ heq => h (List.singleton_injective heq)

theorem delimited_optionalU64 :
    Delimited (tagged boolField fun value : UInt64 => bigEndian 8 value.toNat) := by
  have hvalue : Delimited fun value : UInt64 => bigEndian 8 value.toNat := by
    intro a _ b _ x y h
    obtain ⟨hnat, hrest⟩ := delimitedOn_u64 _ a.toNat_lt _ b.toNat_lt _ _ h
    exact ⟨UInt64.toNat_inj.mp hnat, hrest⟩
  exact (delimited_boolField.tagged hvalue).mono fun _ _ _ _ => trivial

theorem ControlRecord.bytes_appendOptionalU64 (record : CanonicalRecord) (value : Option UInt64) :
    (appendOptionalU64 record value).bytes =
      record.bytes ++ tagged boolField (fun value : UInt64 => bigEndian 8 value.toNat) value := by
  cases value <;> simp [appendOptionalU64, tagged]

theorem Reference.digest_injective {kind : ReferenceKind} :
    Function.Injective fun reference : Reference kind => reference.digest := by
  rintro ⟨a⟩ ⟨b⟩ h
  exact congrArg Reference.mk h

end Fields

/-! ## Records -/

section Records

/-- The record of a control determines the control. -/
theorem ControlRecord.record_injective :
    Function.Injective fun control : ControlRecord => control.record.bytes := by
  intro a b h
  simp only [record, bytes_appendOptionalU64, bytes_appendU8, bytes_appendU16,
    List.append_assoc] at h
  have h := List.append_cancel_left (List.append_cancel_left h)
  obtain ⟨hrecovery, h⟩ :=
    delimited_code injective_canonicalRecovery _ trivial _ trivial _ _ h
  obtain ⟨hdurability, h⟩ :=
    delimited_code injective_canonicalDurability _ trivial _ trivial _ _ h
  obtain ⟨hcancellation, h⟩ :=
    delimited_code injective_canonicalCancellation _ trivial _ trivial _ _ h
  obtain ⟨hstaging, h⟩ := delimited_optionalU64 _ trivial _ trivial _ _ h
  have hbytes := delimited_optionalU64.injOn trivial trivial h
  cases a
  cases b
  simp_all

/-- The record of a target context determines the context. -/
theorem TargetContext.record_injOn : Set.InjOn (fun context : TargetContext => context.record.bytes)
    {context | context.target.length < 2 ^ 64} := by
  intro a ha b hb h
  simp only [record, bytes_appendOptionalDigest, bytes_appendDigest, bytes_appendBytes,
    bytes_appendU16, List.append_assoc] at h
  have h := List.append_cancel_left (List.append_cancel_left h)
  obtain ⟨htarget, h⟩ := delimitedOn_bytesField _ ha _ hb _ _ h
  obtain ⟨hmanaged, h⟩ := delimited_digestField _ trivial _ trivial _ _ h
  obtain ⟨hroot, h⟩ := delimited_digestField _ trivial _ trivial _ _ h
  obtain ⟨hobservation, h⟩ := delimited_digestField _ trivial _ trivial _ _ h
  obtain ⟨hmutation, h⟩ := delimited_digestField _ trivial _ trivial _ _ h
  obtain ⟨hexclusion, h⟩ := delimited_digestField _ trivial _ trivial _ _ h
  obtain ⟨hactive, h⟩ := delimited_digestField _ trivial _ trivial _ _ h
  obtain ⟨hrejected, h⟩ := delimited_digestField _ trivial _ trivial _ _ h
  obtain ⟨hstaging, h⟩ := delimited_digestField _ trivial _ trivial _ _ h
  obtain ⟨hjournal, h⟩ := delimited_digestField _ trivial _ trivial _ _ h
  obtain ⟨hcapabilities, h⟩ := delimited_digestField _ trivial _ trivial _ _ h
  have hlifecycle := Option.map_injective Reference.digest_injective
    (delimited_optionalDigest.injOn trivial trivial h)
  obtain ⟨⟨_, ⟨_⟩, ⟨_⟩, ⟨_⟩, ⟨_⟩, ⟨_⟩, ⟨_⟩, ⟨_⟩, ⟨_⟩, ⟨_⟩, ⟨_⟩, _⟩, _⟩ := a
  obtain ⟨⟨_, ⟨_⟩, ⟨_⟩, ⟨_⟩, ⟨_⟩, ⟨_⟩, ⟨_⟩, ⟨_⟩, ⟨_⟩, ⟨_⟩, ⟨_⟩, _⟩, _⟩ := b
  simp_all

/-- The texts a package's identity is derived from have a `size_t` size. -/
structure IncomingPackageAuthority.Sized (incoming : IncomingPackageAuthority) : Prop where
  authority : incoming.authority.length < 2 ^ 64
  source : incoming.source.length < 2 ^ 64
  candidate : incoming.candidate.identity.length < 2 ^ 64
  artifact : incoming.artifact.artifact.length < 2 ^ 64
  manifest : incoming.artifact.manifest.length < 2 ^ 64
  release : incoming.artifact.release.identity.length < 2 ^ 64

/-- The record of an incoming package determines the texts it binds. -/
theorem IncomingPackageAuthority.bound_eq {a b : IncomingPackageAuthority} (ha : a.Sized)
    (hb : b.Sized) (h : a.record.bytes = b.record.bytes) : a.bound = b.bound := by
  simp only [record, bytes_appendBytes, bytes_appendU16, List.append_assoc] at h
  have h := List.append_cancel_left (List.append_cancel_left h)
  obtain ⟨hauthority, h⟩ := delimitedOn_bytesField _ ha.authority _ hb.authority _ _ h
  obtain ⟨hsource, h⟩ := delimitedOn_bytesField _ ha.source _ hb.source _ _ h
  obtain ⟨hcandidate, h⟩ := delimitedOn_bytesField _ ha.candidate _ hb.candidate _ _ h
  obtain ⟨hartifact, h⟩ := delimitedOn_bytesField _ ha.artifact _ hb.artifact _ _ h
  obtain ⟨hmanifest, h⟩ := delimitedOn_bytesField _ ha.manifest _ hb.manifest _ _ h
  have hrelease := delimitedOn_bytesField.injOn ha.release hb.release h
  simp only [bound, hauthority, hsource, hcandidate, hartifact, hmanifest, hrelease]

/-- The record of an attempt determines the attempt. -/
theorem attemptRecord_injective :
    Function.Injective fun attempt : ApplicationAttempt => (attemptRecord attempt).bytes := by
  intro a b h
  simp only [attemptRecord, bytes_appendDigest, bytes_appendU16, List.append_assoc] at h
  have h := List.append_cancel_left (List.append_cancel_left h)
  obtain ⟨hrequest, h⟩ := delimited_digestField _ trivial _ trivial _ _ h
  obtain ⟨htarget, h⟩ := delimited_digestField _ trivial _ trivial _ _ h
  obtain ⟨hbackend, h⟩ := delimited_digestField _ trivial _ trivial _ _ h
  have hnonce := digestBytes_injective h
  obtain ⟨⟨_⟩, ⟨_⟩, ⟨_⟩, _⟩ := a
  obtain ⟨⟨_⟩, ⟨_⟩, ⟨_⟩, _⟩ := b
  simp_all

/-- The record of a lease acquisition determines the acquisition. -/
theorem LeaseAcquisition.record_injective :
    Function.Injective fun acquisition : LeaseAcquisition => acquisition.record.bytes := by
  intro a b h
  simp only [record, bytes_appendDigest, bytes_appendU16, List.append_assoc] at h
  have h := List.append_cancel_left (List.append_cancel_left h)
  obtain ⟨htarget, h⟩ := delimited_digestField _ trivial _ trivial _ _ h
  obtain ⟨hdomain, h⟩ := delimited_digestField _ trivial _ trivial _ _ h
  have hnonce := digestBytes_injective h
  obtain ⟨⟨_⟩, ⟨_⟩, _⟩ := a
  obtain ⟨⟨_⟩, ⟨_⟩, _⟩ := b
  simp_all

end Records

/-! ## State projections and headers -/

section Projections

variable (X : Externals)

/-- A path and its owners as a projection's record has them. -/
def ownersField (projected : ProjectedPathOwners) : List Byte :=
  bytesField projected.path.bytes ++
    counted (bigEndian 8) (fun owner => bytesField (X.planningText owner))
      (ascending projected.owners)

variable {X}

theorem length_planningText_lt {kind : IdentityKind} (identity : Identity kind) :
    (X.planningText identity).length < 2 ^ 64 :=
  (X.length_planningText identity).trans_lt (by decide)

theorem delimited_planningText {kind : IdentityKind} :
    Delimited fun identity : Identity kind => bytesField (X.planningText identity) :=
  delimitedOn_bytesField.comp (fun identity _ => length_planningText_lt identity)
    (planningText_injective X kind).injOn

theorem bytes_appendProjectedPath (record : CanonicalRecord) (projected : ProjectedPathOwners) :
    (appendProjectedPath X record projected).bytes = record.bytes ++ ownersField X projected := by
  unfold appendProjectedPath ownersField
  rw [bytes_foldl fun record owner => bytes_appendBytes record (X.planningText owner)]
  simp [counted]

/-- The sizes of a projection's parts are `size_t` values. -/
structure ProjectionSized (projection : LeaseBoundStateProjection) : Prop extends
    ProjectionFits projection where
  path : ∀ projected ∈ projection.paths, projected.path.bytes.length < 2 ^ 64

theorem delimitedOn_ownersField : DelimitedOn (ownersField X)
    {projected | projected.path.bytes.length < 2 ^ 64 ∧ projected.owners.card < 2 ^ 64} := by
  rintro a ⟨hpath, howners⟩ b ⟨hpath', howners'⟩ x y h
  simp only [ownersField, List.append_assoc] at h
  obtain ⟨hbytes, h⟩ := delimitedOn_bytesField _ hpath _ hpath' _ _ h
  obtain ⟨hsorted, h⟩ := (delimitedOn_u64.counted delimited_planningText)
    _ ⟨by simpa using howners, fun _ _ => trivial⟩
    _ ⟨by simpa using howners', fun _ _ => trivial⟩ _ _ h
  have howners := ascending_injective hsorted
  have hpaths := PackagePath.bytes_injective hbytes
  cases a
  cases b
  simp_all

theorem bytes_projectionRecord (projection : LeaseBoundStateProjection) :
    (projectionRecord X projection).bytes =
      (start .leaseBoundStateProjection).bytes ++ (bigEndian 2 Transport.schemaVersion ++
        (digestField projection.lease.digest ++ (bytesField (X.planningText projection.snapshot) ++
          (bytesField (X.planningText projection.ownershipInventory) ++
            ([canonicalCompleteness projection.completeness] ++
              (counted (bigEndian 8) (ownersField X) projection.paths ++
                digestField projection.evidence.digest)))))) := by
  unfold projectionRecord
  simp only []
  rw [bytes_appendDigest, bytes_foldl bytes_appendProjectedPath]
  simp [counted]

/-- The record of a state projection determines the projection. -/
theorem projectionRecord_injOn :
    Set.InjOn (fun projection => (projectionRecord X projection).bytes)
      {projection | ProjectionSized projection} := by
  intro a ha b hb h
  simp only [bytes_projectionRecord] at h
  have h := List.append_cancel_left (List.append_cancel_left h)
  obtain ⟨hlease, h⟩ := delimited_digestField _ trivial _ trivial _ _ h
  obtain ⟨hsnapshot, h⟩ := delimited_planningText _ trivial _ trivial _ _ h
  obtain ⟨hinventory, h⟩ := delimited_planningText _ trivial _ trivial _ _ h
  obtain ⟨hcompleteness, h⟩ := delimited_code completenesses.injective _ trivial _ trivial _ _ h
  obtain ⟨hpaths, h⟩ := (delimitedOn_u64.counted delimitedOn_ownersField)
    _ ⟨ha.paths, fun p hp => ⟨ha.path p hp, ha.owners p hp⟩⟩
    _ ⟨hb.paths, fun p hp => ⟨hb.path p hp, hb.owners p hp⟩⟩ _ _ h
  have hevidence := delimited_digestField.injOn trivial trivial h
  obtain ⟨⟨_⟩, _, _, _, _, ⟨_⟩, _⟩ := a
  obtain ⟨⟨_⟩, _, _, _, _, ⟨_⟩, _⟩ := b
  simp_all

/-- The record of a header determines its fields, the attempt and the state
projection by their identities. -/
theorem headerRecord_inj {a b : JournalHeader}
    (h : (headerRecord X a).bytes = (headerRecord X b).bytes) :
    a.request = b.request ∧ identifyAttempt X a.attempt = identifyAttempt X b.attempt ∧
      identifyProjection X a.stateProjection = identifyProjection X b.stateProjection ∧
      a.lease = b.lease := by
  simp only [headerRecord, bytes_appendDigest, bytes_appendBytes, bytes_appendU8, bytes_appendU16,
    List.append_assoc] at h
  have h := List.append_cancel_left (List.append_cancel_left h)
  obtain ⟨-, h⟩ := delimited_code operationKinds.injective _ trivial _ trivial _ _ h
  obtain ⟨hrequest, h⟩ := delimited_digestField _ trivial _ trivial _ _ h
  obtain ⟨-, h⟩ := delimited_planningText _ trivial _ trivial _ _ h
  obtain ⟨hattempt, h⟩ := delimited_digestField _ trivial _ trivial _ _ h
  obtain ⟨-, h⟩ := delimited_digestField _ trivial _ trivial _ _ h
  obtain ⟨-, h⟩ := delimited_digestField _ trivial _ trivial _ _ h
  obtain ⟨hprojection, h⟩ := delimited_digestField _ trivial _ trivial _ _ h
  obtain ⟨hlease, h⟩ := delimited_digestField _ trivial _ trivial _ _ h
  exact ⟨congrArg Identity.mk hrequest, congrArg TypedDigest.mk hattempt,
    congrArg TypedDigest.mk hprojection, congrArg Identity.mk hlease⟩

end Projections

/-! ## Requests and attempts -/

namespace PackageApplicationRequest

variable (X : Externals)

/-- Everything a request's identity binds. -/
structure Bound where
  kind : OperationKind
  plan : OperationPlanIdentity
  incoming : Option (Text × Text × Text × Text × Text × Text)
  target : TargetContext
  control : ControlRecord

def bound (request : PackageApplicationRequest) : Bound :=
  ⟨request.body.kind, request.plan.operation.identity,
    request.body.incoming.map IncomingPackageAuthority.bound, request.target, request.control⟩

/-- The texts a request's identity is derived from have a `size_t` size. -/
structure Sized (request : PackageApplicationRequest) : Prop where
  target : request.target.target.length < 2 ^ 64
  incoming : ∀ incoming, request.body.incoming = some incoming → incoming.Sized

/-- The records the identity of an attempt depends on. -/
def preimages (request : PackageApplicationRequest) (nonce : AttemptNonce) : List (List Byte) :=
  (attemptRecord (request.attempt X nonce)).bytes :: (request.record X).bytes ::
    request.target.record.bytes :: request.control.record.bytes ::
      request.body.incoming.toList.map fun incoming => incoming.record.bytes

variable {X} {a b : PackageApplicationRequest} {nonce nonce' : AttemptNonce}

/-- The record of a request determines its kind and plan, and the identities of
its package, target and control. -/
theorem record_inj (h : (a.record X).bytes = (b.record X).bytes) :
    a.body.kind = b.body.kind ∧ a.plan.operation.identity = b.plan.operation.identity ∧
      a.body.incoming.map (IncomingPackageAuthority.identity X) =
        b.body.incoming.map (IncomingPackageAuthority.identity X) ∧
      a.target.identity X = b.target.identity X ∧ a.control.identity X = b.control.identity X := by
  have hplan (request : PackageApplicationRequest) :
      (X.planningText request.plan.operation.identity).length < 2 ^ 64 :=
    (X.length_planningText _).trans_lt (by decide)
  simp only [record, bytes_appendOptionalDigest, bytes_appendDigest, bytes_appendBytes,
    bytes_appendU8, bytes_appendU16, List.append_assoc] at h
  have h := List.append_cancel_left (List.append_cancel_left h)
  obtain ⟨hkind, h⟩ := delimited_code injective_kindTag _ trivial _ trivial _ _ h
  obtain ⟨htext, h⟩ := delimitedOn_bytesField _ (hplan a) _ (hplan b) _ _ h
  obtain ⟨hincoming, h⟩ := delimited_optionalDigest _ trivial _ trivial _ _ h
  obtain ⟨htarget, h⟩ := delimited_digestField _ trivial _ trivial _ _ h
  have hcontrol := delimited_digestField.injOn trivial trivial h
  exact ⟨hkind, planningText_injective X _ htext, hincoming, congrArg Identity.mk htarget,
    congrArg Identity.mk hcontrol⟩

/-- Packages of one identity bind the same texts. -/
private theorem incoming_eq (ha : a.Sized) (hb : b.Sized)
    (hfree : X.CollisionFree (a.preimages X nonce) (b.preimages X nonce'))
    (h : a.body.incoming.map (IncomingPackageAuthority.identity X) =
      b.body.incoming.map (IncomingPackageAuthority.identity X)) :
    a.body.incoming.map IncomingPackageAuthority.bound =
      b.body.incoming.map IncomingPackageAuthority.bound := by
  cases hincoming : a.body.incoming with
  | none =>
    rw [hincoming] at h
    rw [Option.map_eq_none_iff.mp h.symm]
  | some package =>
    rw [hincoming] at h
    obtain ⟨package', hincoming', hidentity⟩ := Option.map_eq_some_iff.mp h.symm
    have hmem : package.record.bytes ∈ a.preimages X nonce := by simp [preimages, hincoming]
    have hmem' : package'.record.bytes ∈ b.preimages X nonce' := by simp [preimages, hincoming']
    have hbytes := hfree _ hmem _ hmem' hidentity.symm
    rw [hincoming', Option.map_some, Option.map_some,
      IncomingPackageAuthority.bound_eq (ha.incoming _ hincoming) (hb.incoming _ hincoming') hbytes]

/-- Attempts of one identity have one nonce and were made for requests of one
kind, plan, incoming package, target context and execution control. -/
theorem bound_eq (ha : a.Sized) (hb : b.Sized)
    (hfree : X.CollisionFree (a.preimages X nonce) (b.preimages X nonce'))
    (h : identifyAttempt X (a.attempt X nonce) = identifyAttempt X (b.attempt X nonce')) :
    nonce = nonce' ∧ a.bound = b.bound := by
  have hattempt : a.attempt X nonce = b.attempt X nonce' :=
    attemptRecord_injective (hfree _ (by simp [preimages]) _ (by simp [preimages])
      (congrArg TypedDigest.digest h))
  have hrequest : a.identity X = b.identity X := congrArg ApplicationAttempt.request hattempt
  obtain ⟨hkind, hplan, hincoming, htarget, hcontrol⟩ :=
    record_inj (hfree _ (by simp [preimages]) _ (by simp [preimages])
      (congrArg Identity.digest hrequest))
  have hcontext : a.target = b.target :=
    TargetContext.record_injOn ha.target hb.target (hfree _ (by simp [preimages]) _
      (by simp [preimages]) (congrArg Identity.digest htarget))
  have hexecution : a.control = b.control :=
    ControlRecord.record_injective (hfree _ (by simp [preimages]) _ (by simp [preimages])
      (congrArg Identity.digest hcontrol))
  refine ⟨congrArg ApplicationAttempt.nonce hattempt, ?_⟩
  simp only [bound, hkind, hplan, incoming_eq ha hb hfree hincoming, hcontext, hexecution]

end PackageApplicationRequest

/-! ## Journals -/

/-- The authorities an application is journaled under. -/
structure JournalAuthority where
  request : PackageApplicationRequest
  nonce : AttemptNonce
  acquisition : LeaseAcquisition
  projection : LeaseBoundStateProjection

namespace JournalAuthority

variable (X : Externals)

/-- The header of the journal. -/
def header (authority : JournalAuthority) : JournalHeader where
  kind := authority.request.plan.operation.kind
  request := authority.request.identity X
  plan := authority.request.plan.operation.identity
  attempt := authority.request.attempt X authority.nonce
  target := authority.request.target.identity X
  control := authority.request.control.identity X
  stateProjection := authority.projection
  lease := authority.acquisition.identity X
  backend := authority.request.target.mutationBackend

structure Sized (authority : JournalAuthority) : Prop where
  request : authority.request.Sized
  projection : ProjectionSized authority.projection

/-- The records the identity of the journal depends on. -/
def preimages (authority : JournalAuthority) : List (List Byte) :=
  (headerRecord X (authority.header X)).bytes :: (projectionRecord X authority.projection).bytes ::
    authority.acquisition.record.bytes :: authority.request.preimages X authority.nonce

/-- **Journals are bound.**  Where SHA-256 does not collide on their records,
journal declarations of one identity have the same effects and replay seed, and
were made under one attempt nonce, one lease acquisition and one state
projection, for requests of one kind, plan, incoming package, target context
and execution control. -/
theorem declaration_bound (X : Externals) {a b : JournalAuthority} {d d' : Declaration}
    (hd : d.Constructed X) (hd' : d'.Constructed X) (hheader : d.header = a.header X)
    (hheader' : d'.header = b.header X) (ha : a.Sized) (hb : b.Sized)
    (hfree : X.CollisionFree (d.preimages X ++ a.preimages X) (d'.preimages X ++ b.preimages X))
    (h : d.identity X = d'.identity X) :
    d.effects = d'.effects ∧ d.replaySeed = d'.replaySeed ∧ a.nonce = b.nonce ∧
      a.acquisition = b.acquisition ∧ a.projection = b.projection ∧
        a.request.bound = b.request.bound := by
  have hdeclarations : X.CollisionFree (d.preimages X) (d'.preimages X) :=
    fun x hx y hy => hfree x (List.mem_append_left _ hx) y (List.mem_append_left _ hy)
  have hauthorities : X.CollisionFree (a.preimages X) (b.preimages X) :=
    fun x hx y hy => hfree x (List.mem_append_right _ hx) y (List.mem_append_right _ hy)
  obtain ⟨hidentity, heffects, hseed⟩ := Declaration.eq_of_identity hd hd' hdeclarations h
  rw [hheader, hheader'] at hidentity
  have hrecord := hauthorities _ (by simp [preimages]) _ (by simp [preimages])
    (congrArg TypedDigest.digest hidentity)
  obtain ⟨-, hattempt, hprojection, hlease⟩ := headerRecord_inj hrecord
  have hacquisition : a.acquisition = b.acquisition :=
    LeaseAcquisition.record_injective (hauthorities _ (by simp [preimages]) _ (by simp [preimages])
      (congrArg Identity.digest hlease))
  have hstate : a.projection = b.projection :=
    projectionRecord_injOn ha.projection hb.projection
      (hauthorities _ (by simp [preimages]) _ (by simp [preimages])
        (congrArg TypedDigest.digest hprojection))
  have hrequests : X.CollisionFree (a.request.preimages X a.nonce)
      (b.request.preimages X b.nonce) :=
    fun x hx y hy => hauthorities x (by simp [preimages, hx]) y (by simp [preimages, hy])
  obtain ⟨hnonce, hbound⟩ :=
    PackageApplicationRequest.bound_eq ha.request hb.request hrequests hattempt
  exact ⟨heffects, hseed, hnonce, hacquisition, hstate, hbound⟩

theorem digests (authority : JournalAuthority) : (authority.preimages X).map X.sha256 =
    (identifyHeader X (authority.header X)).digest ::
      (identifyProjection X authority.projection).digest ::
      (authority.acquisition.identity X).digest ::
      (identifyAttempt X (authority.request.attempt X authority.nonce)).digest ::
      (authority.request.identity X).digest :: (authority.request.target.identity X).digest ::
      (authority.request.control.identity X).digest ::
      authority.request.body.incoming.toList.map (IncomingPackageAuthority.identity X) := by
  simp only [preimages, PackageApplicationRequest.preimages, List.map_cons, List.map_map]
  rfl

end JournalAuthority

/-! ## The journal of an installation -/

section Package

open AdmittedApplication

def packageRelease : PackageRelease := ⟨ascii "release", ascii "1.0"⟩

/-- The package of two files, under one projection of its control. -/
def packageAuthority (projection : Text) : IncomingPackageAuthority :=
  ⟨ascii "authority", ascii "source", ⟨ascii "candidate", packageRelease, projection⟩,
    ⟨ascii "artifact", ascii "manifest", packageRelease⟩,
    ⟨installedImage, ⟨ascii "receipt", ascii "archive", ⟨2⟩, 2⟩⟩⟩

/-- What the plan says of the package. -/
def packageFacts (projection : Text) : IncomingPlan :=
  ⟨packageRelease,
    ⟨ascii "release", ascii "release", ascii "candidate", projection, ascii "artifact",
      ascii "manifest", ascii "archive", ascii "archive", ⟨2⟩, ascii "receipt"⟩,
    ⟨packageRelease, ascii "candidate", projection, ascii "artifact", ascii "manifest"⟩⟩

def packageOwners : List ProjectedPathOwners := installation.projection.paths

private theorem packageOwners_paths : packageOwners.map ProjectedPathOwners.path =
    installationPlan.preconditions.map PathPrecondition.path := rfl

private theorem packageOwners_sorted :
    (packageOwners.map ProjectedPathOwners.path).Pairwise (· < ·) := by
  decide

def packagePlan : AcceptedPlan :=
  ⟨1, installationPlan, ascii "target", ⟨3⟩, ⟨4⟩, packageOwners,
    some ⟨ascii "archive", ⟨2⟩, ascii "receipt"⟩, packageOwners_paths⟩

def packageBindings : TargetBindings :=
  ⟨ascii "target", ⟨20⟩, ⟨21⟩, ⟨22⟩, ⟨23⟩, ⟨24⟩, ⟨25⟩, ⟨26⟩, ⟨27⟩, ⟨28⟩, ⟨29⟩, none⟩

private theorem packageBindings_distinct : packageBindings.namespaces.Nodup := by
  decide +kernel

def packageTarget : TargetContext := ⟨packageBindings, packageBindings_distinct⟩

private theorem packageLimit : (none : Option UInt64) ≠ some 0 := by
  decide

def packageControl : ControlRecord :=
  ⟨.none, .visibilityOnly, .recoverAfterTargetMutation, none, none, packageLimit, packageLimit,
    CancellationPolicy.recovers_exact .none⟩

def packageRequest (projection : Text) : PackageApplicationRequest where
  schemaVersion := 1
  plan := packagePlan
  body := .installation (packageFacts projection) (packageAuthority projection)
  target := packageTarget
  control := packageControl

def packageAcquisition : LeaseAcquisition :=
  ⟨⟨0xf13e7f265ac8e178273388501ced369e3c2b3fff51065fa8119ef4887d6aa431⟩, ⟨24⟩, 40⟩

def packageProjection : LeaseBoundStateProjection :=
  ⟨⟨0x5365db279a6368526af399fde06781d094c42bb5a7fbcddc583dba501f57c2ad⟩, ⟨3⟩, ⟨4⟩, .complete,
    packageOwners, ⟨10⟩, packageOwners_sorted⟩

def packageJournal (projection : Text) : JournalAuthority :=
  ⟨packageRequest projection, 8, packageAcquisition, packageProjection⟩

/-- The declaration of the journal, with the effects of the installation. -/
def packageDeclaration (projection : Text) : Declaration :=
  ⟨(packageJournal projection).header .reference, installation.effects, [0x00, 0x7f, 0x80, 0xff]⟩

variable (projection : Text)

/-- The request is one its constructor makes. -/
theorem make_packageRequest :
    PackageApplicationRequest.make packagePlan
      (.installation (packageFacts projection) (packageAuthority projection)) packageTarget
      packageControl = .ok (packageRequest projection) := by
  rw [PackageApplicationRequest.make_eq_ok_iff]
  exact ⟨rfl, ⟨rfl, rfl, rfl, rfl, rfl, rfl, ⟨rfl, rfl⟩, ⟨rfl, rfl⟩, rfl, rfl⟩, rfl⟩

/-- The identities of the authorities, each by those before it. -/
theorem identities_package :
    packageTarget.identity .reference =
      ⟨0xf13e7f265ac8e178273388501ced369e3c2b3fff51065fa8119ef4887d6aa431⟩ ∧
    packageControl.identity .reference =
      ⟨0x874f69d14fb104c0fba85c9a096d518530493d795da9a0d4afad5f63b9279b7d⟩ ∧
    (packageAuthority projection).identity .reference =
      0xf9a2ba827e12c397ee844055d7e27af0f03a84f4d9fcc3d9f455f859c700411a ∧
    (packageRequest projection).identity .reference =
      ⟨0xc0600b2b1c8dea276a38b5275c98ce8e9a9deefbff70405863d32a2f5ed38b83⟩ ∧
    identifyAttempt .reference ((packageRequest projection).attempt .reference 8) =
      ⟨0xd76d7345ddd698e4a762363157f5e09e35acb0ac2871271ab9bfb4aff98cd10e⟩ := by
  have htarget : packageTarget.identity .reference =
      ⟨0xf13e7f265ac8e178273388501ced369e3c2b3fff51065fa8119ef4887d6aa431⟩ := by
    decide +kernel
  have hcontrol : packageControl.identity .reference =
      ⟨0x874f69d14fb104c0fba85c9a096d518530493d795da9a0d4afad5f63b9279b7d⟩ := by
    decide +kernel
  -- the projection of the control is not bound
  have hincoming : (packageAuthority projection).identity .reference =
      0xf9a2ba827e12c397ee844055d7e27af0f03a84f4d9fcc3d9f455f859c700411a := by
    change (packageAuthority []).identity .reference = _
    decide +kernel
  have hrequest : (packageRequest projection).identity .reference =
      ⟨0xc0600b2b1c8dea276a38b5275c98ce8e9a9deefbff70405863d32a2f5ed38b83⟩ := by
    rw [PackageApplicationRequest.identity, PackageApplicationRequest.record]
    simp only [packageRequest, RequestBody.kind, RequestBody.incoming, Option.map_some, htarget,
      hcontrol, hincoming]
    decide +kernel
  refine ⟨htarget, hcontrol, hincoming, hrequest, ?_⟩
  rw [PackageApplicationRequest.attempt, hrequest]
  simp only [packageRequest, htarget]
  decide +kernel

/-- The identities of the effects of the installation. -/
private def packageEffectIdentities : List (TypedDigest .applicationJournalEffect) :=
  [⟨0x647e512db0b9b8f0141f1f26dd0e56b71a1ef5f1d19117316dfac40381a1f6d1⟩,
    ⟨0xe243387f2f3305b30c3d89694c0ff054627c63b920a136437c4d439ea65df836⟩,
    ⟨0xe3a983465c752e93833d54036272e36da0720024d06d600827f72f101ab97c05⟩,
    ⟨0x8df6203ea66b49dcf8a9a29f5c3f5c379a22f8d93590be036e6415e8aaf71b61⟩,
    ⟨0xfc000da1e0dc9a1dd8eaf57662355c06069ba737de866d974e68399bee4eec09⟩,
    ⟨0xf02b0889d23dcab94a899a7e5d6d19824f4a9bea49c2f4e1ab6e014fe1b9fdd3⟩,
    ⟨0x196e4a0b3fd7494a63f3391a5d83f92037662cc8a10c9763a8087817bddfd16d⟩,
    ⟨0xed3c8ec7f99c5340bfce0e46977ece4691478bf5f4868457c5f177f13a216a34⟩,
    ⟨0xfb3f399c9754c6f16f95d924a8c160c82902322e4be3d27a0739d1d4bb214325⟩,
    ⟨0xc35e01b8d9f5b1a7c4a4cc53dd4d211962b763ea656b4a34d9de8812079a383a⟩,
    ⟨0x6406e83f9e40f7b3b9f2dca3332e37802769e7a36f5641cfa527038808c3a9a8⟩,
    ⟨0x004d1a7c2b9a0ada57c116c2b02fcafdc726a83ed1f266ad5abcbcc2dc60ff22⟩]

private theorem identities_packageJournal :
    packageAcquisition.identity .reference =
      ⟨0x5365db279a6368526af399fde06781d094c42bb5a7fbcddc583dba501f57c2ad⟩ ∧
    identifyProjection .reference packageProjection =
      ⟨0x788af14cbbd9de8e5d0200ff048ab27ea0563b6b4a590fb410863b5f6a708619⟩ ∧
    identifyHeader .reference ((packageJournal projection).header .reference) =
      ⟨0x0c0ab148557d65108bdc51cdd052cd2144b2d665c99cb21756bd8a44871ba6ff⟩ ∧
    installation.effects.map (identifyEffect .reference) = packageEffectIdentities ∧
    (packageDeclaration projection).identity .reference =
      ⟨0x0ff2a1bb2e135a6526ed7673739c879c311309dad07caf327df98b8cd731237f⟩ := by
  obtain ⟨htarget, hcontrol, -, hrequest, hattempt⟩ := identities_package projection
  have hacquisition : packageAcquisition.identity .reference =
      ⟨0x5365db279a6368526af399fde06781d094c42bb5a7fbcddc583dba501f57c2ad⟩ := by
    decide +kernel
  have hprojection : identifyProjection .reference packageProjection =
      ⟨0x788af14cbbd9de8e5d0200ff048ab27ea0563b6b4a590fb410863b5f6a708619⟩ := by
    decide +kernel
  have hheader : identifyHeader .reference ((packageJournal projection).header .reference) =
      ⟨0x0c0ab148557d65108bdc51cdd052cd2144b2d665c99cb21756bd8a44871ba6ff⟩ := by
    rw [identifyHeader, headerRecord]
    simp only [JournalAuthority.header, packageJournal, hattempt, hprojection, hrequest,
      hacquisition]
    simp only [packageRequest, htarget, hcontrol]
    decide +kernel
  have heffects : installation.effects.map (identifyEffect .reference) =
      packageEffectIdentities := by
    decide +kernel
  refine ⟨hacquisition, hprojection, hheader, heffects, ?_⟩
  have hdigests : (packageDeclaration projection).effects.map
      (fun effect => (identifyEffect .reference effect).digest) =
        packageEffectIdentities.map TypedDigest.digest :=
    (List.map_map ..).symm.trans (congrArg (List.map TypedDigest.digest) heffects)
  rw [Declaration.identity, Declaration.record, hdigests]
  simp only [packageDeclaration, hheader]
  decide +kernel

private theorem isPath_installed (id : Fin 2) : Externals.reference.IsPath (installedPath id) := by
  have hid : id = 0 ∨ id = 1 := by omega
  rcases hid with rfl | rfl
  · exact ⟨⟨_, rfl⟩, by decide⟩
  · exact ⟨⟨_, rfl⟩, by decide⟩

private theorem constructed_packageDeclaration :
    (packageDeclaration projection).Constructed .reference where
  header := by
    obtain ⟨htarget, hcontrol, -, hrequest, -⟩ := identities_package projection
    obtain ⟨hacquisition, -⟩ := identities_packageJournal projection
    simp only [packageDeclaration, JournalAuthority.header, packageJournal, hrequest, hacquisition,
      PackageApplicationRequest.attempt]
    simp only [packageRequest, htarget, hcontrol]
    decide +kernel
  paths := by
    intro projected hprojected
    have hpaths : ∀ p ∈ packageOwners, ∃ id, p.path = installedPath id := by decide
    obtain ⟨id, hid⟩ := hpaths projected hprojected
    rw [hid]
    exact isPath_installed id
  effects := by
    intro effect heffect
    have hordinals : ∀ e ∈ installation.effects, e.ordinal < 2 ^ 64 := by decide
    have hpaths : ∀ e ∈ installation.effects, ∀ path ∈ e.path, ∃ id, path = installedPath id := by
      decide
    refine ⟨hordinals effect heffect, fun path hpath => ?_⟩
    obtain ⟨id, rfl⟩ := hpaths effect heffect path hpath
    exact isPath_installed id
  effects_size := (by decide : installation.effects.length < 2 ^ 64)
  seed_size := (by decide : 4 < 2 ^ 64)
  made := by
    have hvalid : validateEffectGraph .reference installation.effects = .ok () := by
      apply validateEffectGraph_of_nodup
      · decide
      · rw [(identities_packageJournal projection).2.2.2.1]
        decide
    rw [Declaration.make, packageDeclaration, hvalid]
    rfl

theorem sized_packageRequest : (packageRequest projection).Sized where
  target := (by decide : packageBindings.target.length < 2 ^ 64)
  incoming := by
    intro incoming h
    cases h
    exact ⟨(by decide : (ascii "authority").length < 2 ^ 64),
      (by decide : (ascii "source").length < 2 ^ 64),
      (by decide : (ascii "candidate").length < 2 ^ 64),
      (by decide : (ascii "artifact").length < 2 ^ 64),
      (by decide : (ascii "manifest").length < 2 ^ 64),
      (by decide : (ascii "release").length < 2 ^ 64)⟩

private theorem sized_packageJournal : (packageJournal projection).Sized where
  request := sized_packageRequest projection
  projection :=
    { paths := (by decide : packageOwners.length < 2 ^ 64)
      owners := (by decide : ∀ p ∈ packageOwners, p.owners.card < 2 ^ 64)
      path := (by decide : ∀ p ∈ packageOwners, p.path.bytes.length < 2 ^ 64) }

/-- The records of the journal do not depend on the projection of the control. -/
private theorem preimages_package :
    (packageDeclaration projection).preimages .reference ++
        (packageJournal projection).preimages .reference =
      (packageDeclaration []).preimages .reference ++
        (packageJournal []).preimages .reference := rfl

/-- The digests of the records of the journal are distinct. -/
private theorem collisionFree_package (projection' : Text) : Externals.reference.CollisionFree
    ((packageDeclaration projection).preimages .reference ++
      (packageJournal projection).preimages .reference)
    ((packageDeclaration projection').preimages .reference ++
      (packageJournal projection').preimages .reference) := by
  rw [preimages_package projection, preimages_package projection']
  apply Externals.collisionFree_self
  obtain ⟨htarget, hcontrol, hincoming, hrequest, hattempt⟩ := identities_package []
  obtain ⟨hacquisition, hprojection, hheader, heffects, hidentity⟩ := identities_packageJournal []
  have hdeclaration : ((packageDeclaration []).preimages .reference).map
      Externals.reference.sha256 = ((packageDeclaration []).identity .reference).digest ::
        (installation.effects.map (identifyEffect .reference)).map TypedDigest.digest := by
    rw [List.map_map]
    simp only [Declaration.preimages, List.map_cons, List.map_map]
    rfl
  rw [List.map_append, hdeclaration, JournalAuthority.digests, hidentity, hheader, heffects]
  simp only [packageJournal, hprojection, hacquisition, hattempt, hrequest]
  simp only [packageRequest, RequestBody.incoming, Option.toList_some, List.map_cons, List.map_nil,
    htarget, hcontrol, hincoming]
  decide

/-- Accepted requests that differ in the projection of the control, which no
identity binds, are journaled under one identity, and are bound alike. -/
theorem declaration_bound_package :
    PackageApplicationRequest.make packagePlan
        (.installation (packageFacts (ascii "other")) (packageAuthority (ascii "other")))
        packageTarget packageControl = .ok (packageRequest (ascii "other")) ∧
      packageRequest (ascii "control") ≠ packageRequest (ascii "other") ∧
      (packageDeclaration (ascii "control")).effects.length = 12 ∧
      (packageDeclaration (ascii "control")).identity .reference =
        (packageDeclaration (ascii "other")).identity .reference ∧
      (packageRequest (ascii "control")).bound = (packageRequest (ascii "other")).bound := by
  have hidentity : (packageDeclaration (ascii "control")).identity .reference =
      (packageDeclaration (ascii "other")).identity .reference := by
    rw [(identities_packageJournal (ascii "control")).2.2.2.2,
      (identities_packageJournal (ascii "other")).2.2.2.2]
  have hbound := JournalAuthority.declaration_bound .reference
    (constructed_packageDeclaration (ascii "control"))
    (constructed_packageDeclaration (ascii "other")) rfl rfl (sized_packageJournal _)
    (sized_packageJournal _) (collisionFree_package _ _) hidentity
  refine ⟨make_packageRequest _, fun h => ?_, by decide, hidentity, hbound.2.2.2.2.2⟩
  have hprojection := congrArg (fun request : PackageApplicationRequest =>
    request.body.incoming.map fun incoming => incoming.candidate.controlProjection) h
  exact absurd hprojection (by decide)

end Package

end PkgApply.Admission
