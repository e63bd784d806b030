import PkgApply.Transport.EvidenceFormat

/-!
# Canonical records as formats

What the identities of completed evidence, receipts and snapshots are digests
of.  Each canonical record is the spelling of a format, so it determines every
field it is built from.
-/

namespace PkgApply.Transport

open Library CanonicalRecord

/-! ## Fields -/

/-- A digest in a record, with the byte of its algorithm. -/
def digestPreimage : Format Byte (BitVec 256) where
  spell := digestField
  valid := Set.univ
  delimited := delimited_digestField

private theorem identity_mk_digest (kind : IdentityKind) (identity : Identity kind) :
    Identity.mk identity.digest = identity := rfl

private theorem identity_digest_mk (kind : IdentityKind) (digest : BitVec 256) :
    (⟨digest⟩ : Identity kind).digest = digest := rfl

def identityPreimage (kind : IdentityKind) : Format Byte (Identity kind) :=
  digestPreimage.via ⟨Identity.digest, Identity.mk, identity_mk_digest kind,
    identity_digest_mk kind⟩

private theorem typed_mk_digest (domain : DigestDomain) (identity : TypedDigest domain) :
    TypedDigest.mk identity.digest = identity := rfl

private theorem typed_digest_mk (domain : DigestDomain) (digest : BitVec 256) :
    (⟨digest⟩ : TypedDigest domain).digest = digest := rfl

def typedPreimage (domain : DigestDomain) : Format Byte (TypedDigest domain) :=
  digestPreimage.via ⟨TypedDigest.digest, TypedDigest.mk, typed_mk_digest domain,
    typed_digest_mk domain⟩

section Planning

variable (X : Externals)

/-- A planning identity is known by its text, which is parsed back. -/
theorem planningText_injective (kind : IdentityKind) :
    Function.Injective fun identity : Identity kind => X.planningText identity := by
  intro a b h
  have hparse := X.parsePlanning_text a
  simp only at h
  rw [h, X.parsePlanning_text b] at hparse
  exact (Except.ok.inj hparse).symm

/-- A planning identity as its text. -/
def planningPreimage (kind : IdentityKind) : Format Byte (Identity kind) :=
  Format.text.along (fun identity => X.planningText identity) Set.univ
    (planningText_injective X kind).injOn

end Planning

def pathPreimage : Format Byte PackagePath :=
  Format.text.along PackagePath.bytes Set.univ PackagePath.bytes_injective.injOn

/-! ## Observations -/

/-- The seconds of an `int64_t`. -/
def storedTimes : Set CompletedObjectTimestamp :=
  {time | -2 ^ 63 ≤ time.seconds ∧ time.seconds < 2 ^ 63}

def timestampFields (time : CompletedObjectTimestamp) : Nat × UInt32 :=
  ((time.seconds % 2 ^ 64).toNat, time.nanoseconds)

theorem timestampFields_injOn : Set.InjOn timestampFields storedTimes := by
  rintro ⟨seconds, nanoseconds⟩ ⟨hlower, hupper⟩ ⟨seconds', nanoseconds'⟩ ⟨hlower', hupper'⟩ h
  simp only [timestampFields, Prod.mk.injEq] at h
  dsimp only at hlower hupper hlower' hupper'
  obtain ⟨hseconds, rfl⟩ := h
  have hsame : seconds = seconds' := by omega
  rw [hsame]

def timestampPreimage : Format Byte CompletedObjectTimestamp :=
  ((Format.number 8).seq .uint32).along timestampFields storedTimes timestampFields_injOn

/-- An object as its fields, in the order of the record. -/
def objectTuple (object : CompletedObjectFact) :=
  (object.path, object.kind, object.mode, object.uid, object.gid, object.size, object.mtime,
    object.regularContent, object.symlinkTarget, object.device, object.hardlink,
    object.provenance, object.completeness)

theorem objectTuple_injective : Function.Injective objectTuple := by
  intro a b h
  cases a
  cases b
  simpa [objectTuple] using h

def objectPreimage : Format Byte CompletedObjectFact :=
  (pathPreimage.seq ((Format.coded objectKinds).seq ((factFormat .uint32).seq
    ((factFormat .uint64).seq ((factFormat .uint64).seq ((factFormat .uint64).seq
      ((factFormat timestampPreimage).seq ((factFormat (identityPreimage .regularContent)).seq
        ((factFormat .text).seq ((factFormat deviceFormat).seq ((factFormat pathPreimage).seq
          ((Format.coded provenances).seq (Format.coded objectCompletenesses))))))))))))).along
    objectTuple Set.univ objectTuple_injective.injOn

def observationTuple (o : PathObservation) := (o.path, observedFact o)

theorem observationTuple_injective : Function.Injective observationTuple := by
  intro a b h
  cases a <;> cases b <;> simp_all [observationTuple, observedFact, PathObservation.path]

def observationPreimage : Format Byte PathObservation :=
  (pathPreimage.seq (factFormat objectPreimage)).along observationTuple Set.univ
    observationTuple_injective.injOn

section Observations

theorem bytes_appendIdentity {kind : IdentityKind} (record : CanonicalRecord)
    (identity : Identity kind) : (record.appendDigest identity.digest).bytes =
      record.bytes ++ (identityPreimage kind).spell identity :=
  bytes_appendDigest record identity.digest

variable (record : CanonicalRecord)

/-- A fact in a record is its state and, where it is known, its value. -/
theorem bytes_appendFact {α : Type} {encode : CanonicalRecord → α → CanonicalRecord}
    {F : Format Byte α} (h : ∀ record a, (encode record a).bytes = record.bytes ++ F.spell a)
    (record : CanonicalRecord) (fact : QualifiedFact α) :
    (EvidenceRecord.appendFact encode record fact).bytes =
      record.bytes ++ (factFormat F).spell fact := by
  cases fact with
  | known a => simp [EvidenceRecord.appendFact, h, factFormat, factStates, QualifiedFact.state]
  | unknown => simp [EvidenceRecord.appendFact, factFormat, factStates, QualifiedFact.state]
  | notApplicable => simp [EvidenceRecord.appendFact, factFormat, factStates, QualifiedFact.state]

theorem bytes_appendTimestamp (time : CompletedObjectTimestamp) :
    (EvidenceRecord.appendTimestamp record time).bytes =
      record.bytes ++ timestampPreimage.spell time :=
  List.append_assoc _ _ _

theorem bytes_appendPathBytes (path : PackagePath) :
    (record.appendBytes path.bytes).bytes = record.bytes ++ pathPreimage.spell path :=
  bytes_appendBytes record path.bytes

theorem bytes_appendDevice (device : CompletedDeviceNumber) :
    ((record.appendU64 device.major.toNat).appendU64 device.minor.toNat).bytes =
      record.bytes ++ deviceFormat.spell device :=
  List.append_assoc _ _ _

theorem bytes_appendUint32 (n : UInt32) :
    (record.appendU32 n.toNat).bytes = record.bytes ++ Format.uint32.spell n := rfl

theorem bytes_appendUint64 (n : UInt64) :
    (record.appendU64 n.toNat).bytes = record.bytes ++ Format.uint64.spell n := rfl

theorem bytes_appendText (text : List Byte) :
    (record.appendBytes text).bytes = record.bytes ++ Format.text.spell text :=
  bytes_appendBytes record text

theorem bytes_appendObject (object : CompletedObjectFact) :
    (EvidenceRecord.appendObject record object).bytes =
      record.bytes ++ objectPreimage.spell object := by
  unfold EvidenceRecord.appendObject
  simp only []
  rw [bytes_appendU8, bytes_appendU8, bytes_appendFact bytes_appendPathBytes,
    bytes_appendFact bytes_appendDevice, bytes_appendFact bytes_appendText,
    bytes_appendFact bytes_appendIdentity, bytes_appendFact bytes_appendTimestamp,
    bytes_appendFact bytes_appendUint64, bytes_appendFact bytes_appendUint64,
    bytes_appendFact bytes_appendUint64, bytes_appendFact bytes_appendUint32, bytes_appendU8,
    bytes_appendPathBytes]
  simp only [List.append_assoc]
  rfl

theorem bytes_appendObservation (o : PathObservation) :
    (EvidenceRecord.appendObservation record o).bytes =
      record.bytes ++ observationPreimage.spell o := by
  cases o with
  | present object =>
    refine (bytes_appendObject _ object).trans ?_
    rw [bytes_appendU8, bytes_appendPathBytes]
    simp only [List.append_assoc]
    rfl
  | absent path =>
    refine (congrArg (· ++ [_]) (bytes_appendPathBytes record path)).trans ?_
    rw [List.append_assoc]
    rfl
  | unknown path =>
    refine (congrArg (· ++ [_]) (bytes_appendPathBytes record path)).trans ?_
    rw [List.append_assoc]
    rfl

end Observations

/-! ## Consequences -/

/-- Elements are appended one after another. -/
theorem bytes_foldl {α : Type} {f : CanonicalRecord → α → CanonicalRecord} {spell : α → List Byte}
    (h : ∀ record a, (f record a).bytes = record.bytes ++ spell a) (l : List α)
    (record : CanonicalRecord) : (l.foldl f record).bytes = record.bytes ++ l.flatMap spell := by
  induction l generalizing record with
  | nil => simp
  | cons a rest ih => rw [List.foldl_cons, ih, h, List.flatMap_cons, List.append_assoc]

section Consequences

variable (X : Externals)

def consequenceTuple (c : PathConsequence) :=
  (c.path, c.role, c.requestedActive, c.requestedRejected, c.incomingEntry,
    c.ownership.beforeExistingOwners, c.ownership.afterExistingOwners,
    c.ownership.incomingPackageOwnsAfter, c.activeStatus, c.rejectedStatus, c.before, c.after,
    c.rejectedObject, c.publication)

theorem consequenceTuple_injective : Function.Injective consequenceTuple := by
  rintro ⟨_, _, _, _, _, ⟨_, _, _⟩, _, _, _, _, _, _⟩ ⟨_, _, _, _, _, ⟨_, _, _⟩, _, _, _, _, _, _⟩ h
  simp_all [consequenceTuple]

def consequencePreimage : Format Byte PathConsequence :=
  (pathPreimage.seq ((Format.coded pathRoles).seq ((Format.coded activeOutcomes).seq
    ((Format.coded rejectedOutcomes).seq ((optionalFormat (.number 8)).seq
      ((listFormat (planningPreimage X .installedPackage)).seq
        ((listFormat (planningPreimage X .installedPackage)).seq (Format.flag.seq
          ((Format.coded effectStatuses).seq ((Format.coded effectStatuses).seq
            (observationPreimage.seq (observationPreimage.seq
              ((optionalFormat (identityPreimage .rejectedObjectRecord)).seq
                (Format.coded publicationStatuses)))))))))))))).along consequenceTuple Set.univ
    consequenceTuple_injective.injOn

variable {X}

theorem bytes_appendOwners (record : CanonicalRecord) (owners : List InstalledPackageIdentity) :
    (EvidenceRecord.appendOwners X record owners).bytes =
      record.bytes ++ (listFormat (planningPreimage X .installedPackage)).spell owners := by
  refine (bytes_foldl (fun record owner => bytes_appendText record (X.planningText owner)) owners
    _).trans ?_
  rw [bytes_appendU64, List.append_assoc]
  rfl

theorem bytes_appendEntry (record : CanonicalRecord) (entry : Option EntryId) :
    (EvidenceRecord.appendEntry record entry).bytes =
      record.bytes ++ (optionalFormat (.number 8)).spell entry := by
  cases entry with
  | none => rfl
  | some id => exact List.append_assoc _ _ _

theorem bytes_appendOptionalIdentity {kind : IdentityKind} (record : CanonicalRecord)
    (identity : Option (Identity kind)) :
    (record.appendOptionalDigest (identity.map Identity.digest)).bytes =
      record.bytes ++ (optionalFormat (identityPreimage kind)).spell identity := by
  rw [bytes_appendOptionalDigest]
  cases identity <;> rfl

theorem bytes_appendConsequence (record : CanonicalRecord) (c : PathConsequence) :
    (EvidenceRecord.appendPath X record c).bytes =
      record.bytes ++ (consequencePreimage X).spell c := by
  unfold EvidenceRecord.appendPath
  simp only []
  rw [bytes_appendU8, bytes_appendOptionalIdentity, bytes_appendObservation,
    bytes_appendObservation, bytes_appendU8, bytes_appendU8, bytes_appendBool, bytes_appendOwners,
    bytes_appendOwners, bytes_appendEntry, bytes_appendU8, bytes_appendU8, bytes_appendU8,
    bytes_appendPathBytes]
  simp only [List.append_assoc]
  rfl

theorem bytes_appendPaths (record : CanonicalRecord) (paths : List PathConsequence) :
    (EvidenceRecord.appendPaths X record paths).bytes =
      record.bytes ++ (listFormat (consequencePreimage X)).spell paths := by
  refine (bytes_foldl bytes_appendConsequence paths _).trans ?_
  rw [bytes_appendU64, List.append_assoc]
  rfl

end Consequences

/-! ## Durability and backend evidence -/

theorem durabilityFacts_injective : Function.Injective durabilityFacts := by
  rintro ⟨_, _, _, _, _, _⟩ ⟨_, _, _, _, _, _⟩ h
  simp_all [durabilityFacts, durabilityDomains, DurabilityProfile.status]

/-- The six facts one after the other. -/
def durabilityPreimage : Format Byte DurabilityProfile where
  spell profile := (durabilityFacts profile).flatMap durabilityFactFormat.spell
  valid := Set.univ
  delimited := by
    intro a _ b _ x y h
    obtain ⟨hfacts, hrest⟩ := durabilityFactFormat.delimited.flatMap (fun _ _ => ⟨trivial, trivial⟩)
      (fun _ _ => ⟨trivial, trivial⟩) (by simp [durabilityFacts]) h
    exact ⟨durabilityFacts_injective hfacts, hrest⟩

theorem bytes_appendDurability (record : CanonicalRecord) (profile : DurabilityProfile) :
    (EvidenceRecord.appendDurability record profile).bytes =
      record.bytes ++ durabilityPreimage.spell profile :=
  bytes_foldl (fun _ _ => List.append_assoc _ _ _) (durabilityFacts profile) record

def backendEvidencePreimage : Format Byte Evidence :=
  (listFormat (identityPreimage .backendEvidence)).along ascending Set.univ
    ascending_injective.injOn

theorem bytes_appendBackendEvidence (record : CanonicalRecord) (evidence : Evidence) :
    (EvidenceRecord.appendBackendEvidence record evidence).bytes =
      record.bytes ++ backendEvidencePreimage.spell evidence := by
  unfold EvidenceRecord.appendBackendEvidence
  rw [bytes_appendDigests, bytes_appendU64, List.append_assoc, List.flatMap_map,
    ← length_ascending evidence]
  rfl

/-! ## Records -/

theorem bytes_appendTyped {domain : DigestDomain} (record : CanonicalRecord)
    (identity : TypedDigest domain) : (record.appendDigest identity.digest).bytes =
      record.bytes ++ (typedPreimage domain).spell identity :=
  bytes_appendDigest record identity.digest

theorem bytes_appendOptionalTyped {domain : DigestDomain} (record : CanonicalRecord)
    (identity : Option (TypedDigest domain)) :
    (record.appendOptionalDigest (identity.map TypedDigest.digest)).bytes =
      record.bytes ++ (optionalFormat (typedPreimage domain)).spell identity := by
  rw [bytes_appendOptionalDigest]
  cases identity <;> rfl

/-- The domain and the schema, and the fields. -/
def recordPreimage {σ : Type} (domain : DigestDomain) (F : Format Byte σ) : Format Byte σ :=
  (F.after (bigEndian 2 schemaVersion)).after (start domain).bytes

section Records

variable (X : Externals)

def evidenceTuple (e : EvidenceRecord) :=
  (e.kind, e.request, e.plan, e.attempt, e.target, e.control, e.stateProjection, e.journal,
    e.paths, e.durability, e.backendEvidence)

theorem evidenceTuple_injective : Function.Injective evidenceTuple := by
  intro a b h
  cases a
  cases b
  simpa [evidenceTuple] using h

/-- The record of completed evidence. -/
def evidencePreimage : Format Byte EvidenceRecord :=
  (recordPreimage .completedApplicationEvidence ((Format.coded operationKinds).seq
    ((identityPreimage .applicationRequest).seq ((planningPreimage X .operationPlan).seq
      ((typedPreimage .applicationAttempt).seq ((identityPreimage .targetContext).seq
        ((identityPreimage .executionControl).seq
          ((typedPreimage .leaseBoundStateProjection).seq ((typedPreimage .applicationJournal).seq
            ((listFormat (consequencePreimage X)).seq
              (durabilityPreimage.seq backendEvidencePreimage))))))))))).along evidenceTuple
    Set.univ evidenceTuple_injective.injOn

/-- What the record of a receipt holds: of completed evidence, its identity. -/
def receiptTuple (r : ReceiptRecord) :=
  (r.kind, r.request, r.plan, r.attempt, r.target, r.control, r.stateProjection, r.outcome,
    r.recovery, r.durability, r.paths, r.journal,
    r.completedEvidence.map (EvidenceRecord.identity X), r.backendEvidence)

/-- The record of a receipt. -/
def receiptPreimage :=
  recordPreimage .applicationReceipt ((Format.coded operationKinds).seq
    ((identityPreimage .applicationRequest).seq ((planningPreimage X .operationPlan).seq
      ((typedPreimage .applicationAttempt).seq ((identityPreimage .targetContext).seq
        ((identityPreimage .executionControl).seq
          ((typedPreimage .leaseBoundStateProjection).seq ((Format.coded attemptOutcomes).seq
            ((Format.coded recoveryStates).seq (durabilityPreimage.seq
              ((listFormat (consequencePreimage X)).seq
                ((optionalFormat (typedPreimage .applicationJournal)).seq
                  ((optionalFormat (typedPreimage .completedApplicationEvidence)).seq
                    backendEvidencePreimage)))))))))))))

variable {X}

/-- Evidence is identified by the bytes of this format. -/
theorem bytes_evidenceRecord (e : EvidenceRecord) :
    (e.record X).bytes = (evidencePreimage X).spell e := by
  unfold EvidenceRecord.record
  simp only []
  rw [bytes_appendBackendEvidence, bytes_appendDurability, bytes_appendPaths, bytes_appendTyped,
    bytes_appendTyped, bytes_appendIdentity, bytes_appendIdentity, bytes_appendTyped,
    bytes_appendText, bytes_appendIdentity, bytes_appendU8, bytes_appendU16]
  simp only [List.append_assoc]
  rfl

/-- So is a receipt. -/
theorem bytes_receiptRecord (r : ReceiptRecord) :
    (r.record X).bytes = (receiptPreimage X).spell (receiptTuple X r) := by
  unfold ReceiptRecord.record
  simp only []
  have hevidence : r.completedEvidence.map (fun evidence => (evidence.identity X).digest) =
      (r.completedEvidence.map (EvidenceRecord.identity X)).map TypedDigest.digest := by
    rw [Option.map_map]
    rfl
  rw [hevidence, bytes_appendBackendEvidence, bytes_appendOptionalTyped,
    bytes_appendOptionalTyped, bytes_appendPaths, bytes_appendDurability, bytes_appendU8,
    bytes_appendU8, bytes_appendTyped, bytes_appendIdentity, bytes_appendIdentity,
    bytes_appendTyped, bytes_appendText, bytes_appendIdentity, bytes_appendU8, bytes_appendU16]
  simp only [List.append_assoc]
  rfl

end Records

end PkgApply.Transport
