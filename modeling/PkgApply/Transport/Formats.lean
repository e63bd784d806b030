import PkgApply.Library.Stream
import PkgApply.Transport.Codec

/-!
# Formats of the journal encodings

How headers, effects and events are spelled, the same in the transport codec and
in the whole-record codec.  A spelled value keeps what a decoder normalises: the
texts of paths and planning identities, and the order of its lists.  It is
canonical when it is the spelling an encoder writes for the value it denotes.
-/

namespace PkgApply.Transport

open Library

/-! ## Digests and enumerations -/

/-- A digest as its text. -/
def digestFormat : Format Byte (BitVec 256) where
  spell digest := Format.text.spell (digestText digest)
  valid := Set.univ
  delimited := Format.text.delimited.comp
    (fun digest _ => by
      change (digestText digest).length < 256 ^ 8
      rw [length_digestText]
      decide)
    digestText_injective.injOn

def identityFormat (kind : IdentityKind) : Format Byte (Identity kind) :=
  digestFormat.via ⟨Identity.digest, Identity.mk, fun _ => rfl, fun _ => rfl⟩

def typedFormat (domain : DigestDomain) : Format Byte (TypedDigest domain) :=
  digestFormat.via ⟨TypedDigest.digest, TypedDigest.mk, fun _ => rfl, fun _ => rfl⟩

/-- The 32 bytes of a nonce. -/
def nonceFormat : Format Byte AttemptNonce where
  spell := digestBytes
  valid := Set.univ
  delimited := .of_length 32 length_digestBytes CanonicalRecord.digestBytes_injective.injOn

theorem spell_nonce (nonce : AttemptNonce) : nonceFormat.spell nonce = digestBytes nonce := rfl

/-- A nonce is read byte by byte. -/
theorem parses_nonceBytes {ε : Type} {limit : Nat} (S : Stream ε) :
    Parses limit (do return BitVec.ofNat 256 (ofBigEndian (← decodeEach S.readU8 32)))
      nonceFormat Eq := by
  intro input _ nonce rest
  simp only [decode_bind_eq_ok, Stream.decodeEach_u8_eq_ok, Stream.pure_eq_ok, spell_nonce]
  constructor
  · rintro ⟨bytes, _, ⟨rfl, hlength⟩, rfl, rfl⟩
    exact ⟨_, trivial, by rw [digestBytes_ofBigEndian hlength], rfl⟩
  · rintro ⟨nonce', -, hinput, heq⟩
    refine ⟨digestBytes nonce', rest, ⟨hinput, length_digestBytes nonce'⟩, rfl, ?_⟩
    rw [ofBigEndian_digestBytes, heq]

def operationKinds : Codes OperationKind where
  all := [.install, .upgrade, .remove]
  code := canonicalKind
  complete a := by cases a <;> decide
  injective a b := by cases a <;> cases b <;> decide

def completenesses : Codes StateProjectionCompleteness where
  all := [.complete, .incomplete]
  code := canonicalCompleteness
  complete a := by cases a <;> decide
  injective a b := by cases a <;> cases b <;> decide

def journalStates : Codes JournalState where
  all := [.preparing, .prepared, .mutating, .effectsVisible, .resultObserved,
    .applicationCompleted, .externalResolutionPending, .recovering, .recovered, .finalized,
    .abandoned, .indeterminate, .recoveryPending]
  code := canonicalState
  complete a := by cases a <;> decide
  injective := canonicalState_injective

def effectKinds : Codes EffectKind where
  all := [.captureOldObject, .stageIncomingPayload, .publishActiveObject, .publishRejectedObject,
    .observeResult, .synchronizeActiveNamespace, .synchronizeRejectedStore, .sealReceipt,
    .synchronizeIncomingStaging, .synchronizeRecoveryStaging, .synchronizeCompletedEvidence,
    .recoverActiveObject, .synchronizeRecoveredNamespace, .publishCompletedEvidence]
  code := canonicalEffect
  complete a := by cases a <;> decide
  injective := canonicalEffect_injective

def eventKinds : Codes EventKind where
  all := [.intent, .completed, .failed, .indeterminate]
  code := canonicalEvent
  complete a := by cases a <;> decide
  injective := canonicalEvent_injective

/-! ## Texts of the linked libraries -/

namespace Externals

variable (X : Externals)

/-- A text the path parser gives back. -/
def OwnPath (text : List Byte) : Prop :=
  X.parsePath text = .ok ⟨text⟩

/-- A text some planning identity has. -/
def OwnPlanning (kind : IdentityKind) (text : List Byte) : Prop :=
  ∃ identity : Identity kind, text = X.planningText identity

/-- A planning identity a decoder reads from a text. -/
def ReadsPlanning {kind : IdentityKind} (text : List Byte) (identity : Identity kind) : Prop :=
  X.parsePlanning kind text = .ok identity ∧ text.length ≤ maximumDigestTextSize

variable {X} {text : List Byte}

theorem ownPath_iff {path : PackagePath} (h : X.parsePath text = .ok path) :
    X.OwnPath text ↔ text = path.bytes := by
  constructor
  · intro hown
    rw [OwnPath, h, Except.ok.injEq] at hown
    rw [hown]
  · intro htext
    rw [OwnPath, h, htext]

theorem ownPlanning_iff {kind : IdentityKind} {identity : Identity kind}
    (h : X.ReadsPlanning text identity) :
    X.OwnPlanning kind text ↔ text = X.planningText identity := by
  constructor
  · rintro ⟨identity', rfl⟩
    have hparse := h.1
    rw [X.parsePlanning_text, Except.ok.injEq] at hparse
    rw [hparse]
  · intro htext
    exact ⟨identity, htext⟩

theorem readsPlanning_text {kind : IdentityKind} {identity identity' : Identity kind} :
    X.ReadsPlanning (X.planningText identity) identity' ↔ identity = identity' := by
  rw [ReadsPlanning, X.parsePlanning_text, Except.ok.injEq]
  exact and_iff_left (X.length_planningText identity)

end Externals

/-! ## Lists -/

/-- Values spelled canonically one by one, when that is a property of each. -/
theorem forall_canonical_iff {σ α : Type} {denotes : σ → α → Prop} {canonical : σ → Prop}
    {spelled : α → σ} {ss : List σ} {l : List α} (h : List.Forall₂ denotes ss l)
    (hcanonical : ∀ s a, denotes s a → (canonical s ↔ s = spelled a)) :
    (∀ s ∈ ss, canonical s) ↔ ss = l.map spelled := by
  induction h with
  | nil => simp
  | cons hs _ ih => rw [List.forall_mem_cons, List.map_cons, List.cons.injEq, ih, hcanonical _ _ hs]

theorem forall_right {σ α : Type} {denotes : σ → α → Prop} {p : α → Prop} {ss : List σ}
    {l : List α} (h : List.Forall₂ denotes ss l) (hp : ∀ s a, denotes s a → p a) :
    ∀ a ∈ l, p a := by
  induction h with
  | nil => simp
  | cons hs _ ih => exact List.forall_mem_cons.mpr ⟨hp _ _ hs, ih⟩

theorem optionRel_eq_iff {α : Type} {o o' : Option α} : Option.Rel Eq o o' ↔ o = o' := by
  constructor
  · rintro (h | _)
    · rw [h]
    · rfl
  · rintro rfl
    cases o with
    | none => exact .none
    | some a => exact .some rfl

theorem forall_left {σ α : Type} {denotes : σ → α → Prop} {p : σ → Prop} {ss : List σ}
    {l : List α} (h : List.Forall₂ denotes ss l) (hp : ∀ s a, denotes s a → p s) :
    ∀ s ∈ ss, p s := by
  induction h with
  | nil => simp
  | cons hs _ ih => exact List.forall_mem_cons.mpr ⟨hp _ _ hs, ih⟩

/-- Values that are each denoted by their spelling are so as a list. -/
theorem forall₂_spelled {σ α : Type} {denotes : σ → α → Prop} {spelled : α → σ} {l : List α}
    (h : ∀ a ∈ l, denotes (spelled a) a) : List.Forall₂ denotes (l.map spelled) l :=
  List.forall₂_map_left_iff.mpr (List.forall₂_same.mpr h)

/-- Counts are spelled in eight bytes. -/
def listFormat {σ : Type} (F : Format Byte σ) : Format Byte (List σ) :=
  F.list (.number 8)

def optionalFormat {σ : Type} (F : Format Byte σ) : Format Byte (Option σ) :=
  F.optional .flag Format.valid_flag

/-! ## State projections -/

structure SpelledOwners where
  path : List Byte
  owners : List (List Byte)

structure SpelledProjection where
  identity : TypedDigest .leaseBoundStateProjection
  lease : MutationLeaseInstanceIdentity
  snapshot : List Byte
  ownershipInventory : List Byte
  completeness : StateProjectionCompleteness
  paths : List SpelledOwners
  evidence : StateProjectionEvidenceIdentity

def ownersFormat : Format Byte SpelledOwners :=
  (Format.text.seq (listFormat .text)).via
    ⟨fun s => (s.path, s.owners), fun p => ⟨p.1, p.2⟩, fun _ => rfl, fun _ => rfl⟩

def projectionFormat : Format Byte SpelledProjection :=
  ((typedFormat .leaseBoundStateProjection).seq
    (((identityFormat .leaseInstance).seq (Format.text.seq (Format.text.seq
      ((Format.coded completenesses).seq ((listFormat ownersFormat).seq
        (identityFormat .projectionEvidence)))))).after (bigEndian 2 schemaVersion))).via
    ⟨fun s => (s.identity, s.lease, s.snapshot, s.ownershipInventory, s.completeness, s.paths,
        s.evidence),
      fun p => ⟨p.1, p.2.1, p.2.2.1, p.2.2.2.1, p.2.2.2.2.1, p.2.2.2.2.2.1, p.2.2.2.2.2.2⟩,
      fun _ => rfl, fun _ => rfl⟩

section Projection

variable (X : Externals)

namespace SpelledOwners

/-- What a decoder makes of a spelled path and its owners. -/
def Denotes (s : SpelledOwners) (projected : ProjectedPathOwners) : Prop :=
  ∃ path, X.parsePath s.path = .ok path ∧
    ∃ owners : List InstalledPackageIdentity,
      (s.owners.length ≤ maximumProjectionOwnerCount ∧
        List.Forall₂ X.ReadsPlanning s.owners owners) ∧
      makeProjectedPathOwners path owners = .ok projected

/-- The path's own text, and the owners' own texts in ascending order. -/
def Canonical (s : SpelledOwners) : Prop :=
  X.OwnPath s.path ∧ ∃ owners : List InstalledPackageIdentity,
    owners.Pairwise (· < ·) ∧ s.owners = owners.map X.planningText

end SpelledOwners

def spellOwners (projected : ProjectedPathOwners) : SpelledOwners :=
  ⟨projected.path.bytes, (ascending projected.owners).map X.planningText⟩

variable {X}

theorem makeProjectedPathOwners_eq_ok {path : PackagePath} {owners : List InstalledPackageIdentity}
    {projected : ProjectedPathOwners} :
    makeProjectedPathOwners path owners = .ok projected ↔
      owners.Nodup ∧ projected = ⟨path, owners.toFinset⟩ := by
  simp only [makeProjectedPathOwners, refuseIf_bind_eq_ok, not_not, pure, Except.pure,
    Except.ok.injEq, eq_comm (b := projected)]

theorem makeProjectedPathOwners_ascending (projected : ProjectedPathOwners) :
    makeProjectedPathOwners projected.path (ascending projected.owners) = .ok projected := by
  rw [makeProjectedPathOwners_eq_ok, toFinset_ascending]
  exact ⟨nodup_ascending _, rfl⟩

theorem forall₂_readsPlanning {kind : IdentityKind} {l l' : List (Identity kind)} :
    List.Forall₂ X.ReadsPlanning (l.map X.planningText) l' ↔ l = l' := by
  rw [List.forall₂_map_left_iff]
  simp only [Externals.readsPlanning_text]
  rw [List.forall₂_eq_eq_eq]

namespace SpelledOwners

variable {s : SpelledOwners} {projected : ProjectedPathOwners}

theorem Denotes.path (h : s.Denotes X projected) : X.parsePath s.path = .ok projected.path := by
  obtain ⟨path, hpath, owners, -, hmade⟩ := h
  obtain ⟨-, rfl⟩ := makeProjectedPathOwners_eq_ok.mp hmade
  exact hpath

theorem Denotes.count (h : s.Denotes X projected) :
    projected.owners.card ≤ maximumProjectionOwnerCount := by
  obtain ⟨path, -, owners, ⟨howners, hspelled⟩, hmade⟩ := h
  obtain ⟨-, rfl⟩ := makeProjectedPathOwners_eq_ok.mp hmade
  rw [hspelled.length_eq] at howners
  exact (List.toFinset_card_le owners).trans howners

theorem canonical_iff (h : s.Denotes X projected) :
    s.Canonical X ↔ s = spellOwners X projected := by
  obtain ⟨path, hpath, owners, ⟨-, howners⟩, hmade⟩ := h
  obtain ⟨hnodup, rfl⟩ := makeProjectedPathOwners_eq_ok.mp hmade
  obtain ⟨text, texts⟩ := s
  rw [Canonical, Externals.ownPath_iff hpath, spellOwners, SpelledOwners.mk.injEq]
  apply and_congr_right
  intro _
  constructor
  · rintro ⟨owners', hsorted, rfl⟩
    obtain rfl := forall₂_readsPlanning.mp howners
    rw [← pairwise_lt_iff.mp hsorted]
  · rintro rfl
    have hsorted := forall₂_readsPlanning.mp howners
    exact ⟨_, pairwise_lt_iff.mpr (by rw [toFinset_ascending]), rfl⟩

/-- The spelling of parsed owners is canonical. -/
theorem canonical_spell (h : X.parsePath projected.path.bytes = .ok projected.path) :
    (spellOwners X projected).Canonical X :=
  ⟨h, ascending projected.owners, pairwise_lt_iff.mpr (by rw [toFinset_ascending]), rfl⟩

/-- Parsed owners are denoted by their spelling when there are not too many. -/
theorem denotes_spell (h : X.parsePath projected.path.bytes = .ok projected.path) :
    (spellOwners X projected).Denotes X projected ↔
      projected.owners.card ≤ maximumProjectionOwnerCount := by
  constructor
  · rintro ⟨_, -, _, ⟨hcount, -⟩, -⟩
    simpa [spellOwners] using hcount
  · intro hcount
    refine ⟨projected.path, h, ascending projected.owners, ⟨?_, ?_⟩,
      makeProjectedPathOwners_ascending projected⟩
    · simpa [spellOwners] using hcount
    · exact forall₂_readsPlanning.mpr rfl

end SpelledOwners

namespace SpelledProjection

variable (X)

def Denotes (s : SpelledProjection) (projection : LeaseBoundStateProjection) : Prop :=
  ∃ snapshot : InstalledStateSnapshotIdentity, X.ReadsPlanning s.snapshot snapshot ∧
    ∃ inventory : OwnershipInventoryIdentity, X.ReadsPlanning s.ownershipInventory inventory ∧
    ∃ paths, (s.paths.length ≤ maximumProjectionPathCount ∧
        List.Forall₂ (SpelledOwners.Denotes X) s.paths paths) ∧
      makeStateProjection s.lease snapshot inventory s.completeness paths s.evidence =
        .ok projection ∧
      identifyProjection X projection = s.identity

/-- Own texts throughout, and the paths in ascending order. -/
structure Canonical (s : SpelledProjection) : Prop where
  snapshot : X.OwnPlanning .installedSnapshot s.snapshot
  ownershipInventory : X.OwnPlanning .ownershipInventory s.ownershipInventory
  owners : ∀ projected ∈ s.paths, projected.Canonical X
  paths : (s.paths.map fun projected => (⟨projected.path⟩ : PackagePath)).Pairwise (· < ·)

end SpelledProjection

def spellProjection (X : Externals) (projection : LeaseBoundStateProjection) :
    SpelledProjection :=
  ⟨identifyProjection X projection, projection.lease, X.planningText projection.snapshot,
    X.planningText projection.ownershipInventory, projection.completeness,
    projection.paths.map (spellOwners X), projection.evidence⟩

theorem makeStateProjection_eq_ok {lease : MutationLeaseInstanceIdentity}
    {snapshot : InstalledStateSnapshotIdentity} {inventory : OwnershipInventoryIdentity}
    {completeness : StateProjectionCompleteness} {paths : List ProjectedPathOwners}
    {evidence : StateProjectionEvidenceIdentity} {projection : LeaseBoundStateProjection} :
    makeStateProjection lease snapshot inventory completeness paths evidence = .ok projection ↔
      ∃ hsorted : ((paths.insertionSort fun a b => a.path ≤ b.path).map
          ProjectedPathOwners.path).Pairwise (· < ·),
        projection = ⟨lease, snapshot, inventory, completeness,
          paths.insertionSort fun a b => a.path ≤ b.path, evidence, hsorted⟩ := by
  unfold makeStateProjection
  by_cases hsorted : ((paths.insertionSort fun a b => a.path ≤ b.path).map
      ProjectedPathOwners.path).Pairwise (· < ·)
  · simp only [hsorted, dite_true, Except.ok.injEq, exists_true_left]
    exact eq_comm
  · simp only [hsorted, dite_false, IsEmpty.exists_iff, reduceCtorEq]

theorem SpelledProjection.canonical_iff {s : SpelledProjection}
    {projection : LeaseBoundStateProjection} (h : s.Denotes X projection) :
    s.Canonical X ↔ s = spellProjection X projection := by
  obtain ⟨snapshot, hsnapshot, inventory, hinventory, paths, ⟨-, hpaths⟩, hmade, hidentity⟩ := h
  obtain ⟨hsorted, rfl⟩ := makeStateProjection_eq_ok.mp hmade
  have hparsed : ∀ projected ∈ paths, X.parsePath projected.path.bytes = .ok projected.path :=
    forall_right hpaths fun _ _ hs => X.parsePath_bytes hs.path
  constructor
  · intro hcanonical
    have howners := (forall_canonical_iff hpaths fun _ _ hs =>
      SpelledOwners.canonical_iff hs).mp hcanonical.owners
    have hascending : paths.Pairwise fun a b => a.path ≤ b.path := by
      have hpaths := hcanonical.paths
      rw [howners, List.map_map] at hpaths
      exact (List.pairwise_map.mp hpaths).imp le_of_lt
    obtain ⟨identity, lease, snapshotText, inventoryText, completeness, texts, evidence⟩ := s
    obtain rfl := (Externals.ownPlanning_iff hsnapshot).mp hcanonical.snapshot
    obtain rfl := (Externals.ownPlanning_iff hinventory).mp hcanonical.ownershipInventory
    simp only at hidentity howners
    simp only [spellProjection, hascending.insertionSort_eq, howners, ← hidentity]
  · intro hs
    rw [hs]
    constructor
    · exact ⟨snapshot, rfl⟩
    · exact ⟨inventory, rfl⟩
    · intro owners howners
      obtain ⟨projected, hprojected, rfl⟩ := List.mem_map.mp howners
      apply SpelledOwners.canonical_spell
      exact hparsed projected ((List.perm_insertionSort _ _).mem_iff.mp hprojected)
    · rw [spellProjection, List.map_map]
      exact hsorted

theorem makeStateProjection_eq (projection : LeaseBoundStateProjection) :
    makeStateProjection projection.lease projection.snapshot projection.ownershipInventory
      projection.completeness projection.paths projection.evidence = .ok projection := by
  have hsorted : projection.paths.insertionSort (fun a b => a.path ≤ b.path) =
      projection.paths :=
    ((List.pairwise_map.mp projection.sorted).imp fun h => le_of_lt h).insertionSort_eq
  rw [makeStateProjection_eq_ok]
  simp only [hsorted]
  exact ⟨projection.sorted, trivial⟩

/-- A parsed projection is denoted by its spelling when its lists keep within
the limits. -/
theorem SpelledProjection.denotes_spell {projection : LeaseBoundStateProjection}
    (h : ∀ projected ∈ projection.paths, X.parsePath projected.path.bytes = .ok projected.path) :
    (spellProjection X projection).Denotes X projection ↔
      projection.paths.length ≤ maximumProjectionPathCount ∧
        ∀ projected ∈ projection.paths, projected.owners.card ≤ maximumProjectionOwnerCount := by
  constructor
  · rintro ⟨_, -, _, -, paths, ⟨hcount, hpaths⟩, -, -⟩
    rw [spellProjection, List.length_map] at hcount
    refine ⟨hcount, fun projected hprojected => ?_⟩
    have howners := forall_left (p := fun s => s.owners.length ≤ maximumProjectionOwnerCount)
      hpaths (fun _ _ hs => hs.choose_spec.2.choose_spec.1.1) _
      (List.mem_map_of_mem hprojected)
    simpa [spellOwners] using howners
  · rintro ⟨hcount, howners⟩
    refine ⟨projection.snapshot, Externals.readsPlanning_text.mpr rfl,
      projection.ownershipInventory, Externals.readsPlanning_text.mpr rfl, projection.paths,
      ⟨?_, ?_⟩, makeStateProjection_eq projection, rfl⟩
    · rwa [spellProjection, List.length_map]
    · apply forall₂_spelled
      intro projected hprojected
      exact (SpelledOwners.denotes_spell (h projected hprojected)).mpr (howners projected hprojected)

/-- What a spelling denotes keeps within the limits. -/
theorem SpelledProjection.Denotes.counts {s : SpelledProjection}
    {projection : LeaseBoundStateProjection} (h : s.Denotes X projection) :
    projection.paths.length ≤ maximumProjectionPathCount ∧
      ∀ projected ∈ projection.paths, projected.owners.card ≤ maximumProjectionOwnerCount := by
  obtain ⟨_, -, _, -, paths, ⟨hcount, hpaths⟩, hmade, -⟩ := h
  obtain ⟨hsorted, rfl⟩ := makeStateProjection_eq_ok.mp hmade
  have howners := forall_right hpaths fun _ _ hs => SpelledOwners.Denotes.count hs
  constructor
  · rw [List.length_insertionSort, ← hpaths.length_eq]
    exact hcount
  · intro projected hprojected
    exact howners projected ((List.perm_insertionSort _ _).mem_iff.mp hprojected)

/-! ## Headers -/

structure SpelledHeader where
  kind : OperationKind
  request : ApplicationRequestIdentity
  plan : List Byte
  nonce : AttemptNonce
  target : TargetContextIdentity
  control : ExecutionControlIdentity
  stateProjection : SpelledProjection
  lease : MutationLeaseInstanceIdentity
  backend : MutationBackendIdentity

def headerFormat : Format Byte SpelledHeader :=
  (((Format.coded operationKinds).seq ((identityFormat .applicationRequest).seq (Format.text.seq
    ((nonceFormat.seq ((identityFormat .targetContext).seq
      ((identityFormat .executionControl).seq (projectionFormat.seq
        ((identityFormat .leaseInstance).seq (identityFormat .mutationBackend)))))).after
      (bigEndian 2 schemaVersion))))).after (bigEndian 2 schemaVersion)).via
    ⟨fun s => (s.kind, s.request, s.plan, s.nonce, s.target, s.control, s.stateProjection, s.lease,
        s.backend),
      fun p => ⟨p.1, p.2.1, p.2.2.1, p.2.2.2.1, p.2.2.2.2.1, p.2.2.2.2.2.1, p.2.2.2.2.2.2.1,
        p.2.2.2.2.2.2.2.1, p.2.2.2.2.2.2.2.2⟩,
      fun _ => rfl, fun _ => rfl⟩

namespace SpelledHeader

variable (X)

def Denotes (s : SpelledHeader) (header : JournalHeader) : Prop :=
  ∃ plan : OperationPlanIdentity, X.ReadsPlanning s.plan plan ∧
    ∃ projection, s.stateProjection.Denotes X projection ∧
      JournalHeader.make ⟨s.kind, s.request, plan, ⟨s.request, s.target, s.backend, s.nonce⟩,
        s.target, s.control, projection, s.lease, s.backend⟩ = .ok header

def Canonical (s : SpelledHeader) : Prop :=
  X.OwnPlanning .operationPlan s.plan ∧ s.stateProjection.Canonical X

end SpelledHeader

def spellHeader (X : Externals) (header : JournalHeader) : SpelledHeader :=
  ⟨header.kind, header.request, X.planningText header.plan, header.attempt.nonce, header.target,
    header.control, spellProjection X header.stateProjection, header.lease, header.backend⟩

theorem headerMake_eq_ok {header header' : JournalHeader} (h : header.make = .ok header') :
    header' = header := by
  simp only [JournalHeader.make, refuseIf_bind_eq_ok, pure, Except.pure, Except.ok.injEq] at h
  exact h.2.2.2.2.symm

theorem SpelledHeader.canonical_iff {s : SpelledHeader} {header : JournalHeader}
    (h : s.Denotes X header) : s.Canonical X ↔ s = spellHeader X header := by
  obtain ⟨plan, hplan, projection, hprojection, hmade⟩ := h
  obtain rfl := headerMake_eq_ok hmade
  obtain ⟨kind, request, text, nonce, target, control, spelled, lease, backend⟩ := s
  rw [Canonical, Externals.ownPlanning_iff hplan, SpelledProjection.canonical_iff hprojection,
    spellHeader]
  simp only [SpelledHeader.mk.injEq, true_and, and_true]

/-- A made header is denoted by its spelling when its projection is. -/
theorem SpelledHeader.denotes_spell {header : JournalHeader} (hmade : header.make = .ok header) :
    (spellHeader X header).Denotes X header ↔
      (spellProjection X header.stateProjection).Denotes X header.stateProjection := by
  have hattempt : (⟨header.request, header.target, header.backend, header.attempt.nonce⟩ :
      ApplicationAttempt) = header.attempt := by
    simp only [JournalHeader.make, refuseIf_bind_eq_ok, not_not, ne_eq] at hmade
    obtain ⟨hrequest, htarget, hbackend, -⟩ := hmade
    rw [← hrequest, ← htarget, ← hbackend]
  constructor
  · rintro ⟨plan, -, projection, hprojection, hmade⟩
    have hsame : header.stateProjection = projection :=
      congrArg JournalHeader.stateProjection (headerMake_eq_ok hmade)
    rw [← hsame] at hprojection
    exact hprojection
  · intro hprojection
    refine ⟨header.plan, Externals.readsPlanning_text.mpr rfl, header.stateProjection,
      hprojection, ?_⟩
    simp only [spellHeader, hattempt]
    exact hmade

theorem SpelledHeader.Denotes.counts {s : SpelledHeader} {header : JournalHeader}
    (h : s.Denotes X header) :
    header.stateProjection.paths.length ≤ maximumProjectionPathCount ∧
      ∀ projected ∈ header.stateProjection.paths,
        projected.owners.card ≤ maximumProjectionOwnerCount := by
  obtain ⟨_, -, projection, hprojection, hmade⟩ := h
  obtain rfl := headerMake_eq_ok hmade
  exact hprojection.counts

/-! ## Effects -/

structure SpelledEffect where
  ordinal : Nat
  kind : EffectKind
  path : Option (List Byte)

def effectFormat : Format Byte SpelledEffect :=
  ((Format.number 8).seq ((Format.coded effectKinds).seq (optionalFormat .text))).via
    ⟨fun s => (s.ordinal, s.kind, s.path), fun p => ⟨p.1, p.2.1, p.2.2⟩, fun _ => rfl,
      fun _ => rfl⟩

namespace SpelledEffect

variable (X)

def Denotes (s : SpelledEffect) (effect : JournalEffect) : Prop :=
  ∃ path, Option.Rel (fun text path => X.parsePath text = .ok path) s.path path ∧
    makeEffect s.ordinal s.kind path = .ok effect

def Canonical (s : SpelledEffect) : Prop :=
  ∀ text, s.path = some text → X.OwnPath text

end SpelledEffect

def spellEffect (effect : JournalEffect) : SpelledEffect :=
  ⟨effect.ordinal, effect.kind, effect.path.map PackagePath.bytes⟩

theorem makeEffect_eq_ok {ordinal : Nat} {kind : EffectKind} {path : Option PackagePath}
    {effect : JournalEffect} : makeEffect ordinal kind path = .ok effect ↔
      effect.ordinal = ordinal ∧ effect.kind = kind ∧ effect.path = path := by
  unfold makeEffect
  by_cases hpath : path.isSome = requiresPath kind
  · rw [dif_pos hpath, Except.ok.injEq]
    constructor
    · rintro rfl
      exact ⟨rfl, rfl, rfl⟩
    · rintro ⟨rfl, rfl, rfl⟩
      rfl
  · rw [dif_neg hpath]
    constructor
    · intro h
      cases h
    · rintro ⟨-, rfl, rfl⟩
      exact absurd effect.path_iff hpath

theorem SpelledEffect.canonical_iff {s : SpelledEffect} {effect : JournalEffect}
    (h : s.Denotes X effect) : s.Canonical X ↔ s = spellEffect effect := by
  obtain ⟨path, hpath, hmade⟩ := h
  obtain ⟨hordinal, hkind, heffect⟩ := makeEffect_eq_ok.mp hmade
  obtain ⟨ordinal, kind, text⟩ := s
  rw [Canonical, spellEffect, hordinal, hkind, heffect]
  cases hpath with
  | none => simp
  | @some text path hparse => simpa using Externals.ownPath_iff hparse

theorem SpelledEffect.Denotes.path {s : SpelledEffect} {effect : JournalEffect}
    (h : s.Denotes X effect) : ∀ path, effect.path = some path →
      X.parsePath path.bytes = .ok path := by
  intro path hpath
  obtain ⟨path', hparse, hmade⟩ := h
  obtain ⟨-, -, heffect⟩ := makeEffect_eq_ok.mp hmade
  rw [heffect] at hpath
  rw [hpath] at hparse
  generalize s.path = text at hparse
  cases hparse with
  | some hparse => exact X.parsePath_bytes hparse

/-- The spelling of an effect with a parsed path is canonical. -/
theorem SpelledEffect.canonical_spell {effect : JournalEffect}
    (h : ∀ path, effect.path = some path → X.parsePath path.bytes = .ok path) :
    (spellEffect effect).Canonical X := by
  intro text htext
  obtain ⟨path, hpath, rfl⟩ := Option.map_eq_some_iff.mp htext
  exact h path hpath

/-- An effect with a parsed path is denoted by its spelling. -/
theorem SpelledEffect.denotes_spell {effect : JournalEffect}
    (h : ∀ path, effect.path = some path → X.parsePath path.bytes = .ok path) :
    (spellEffect effect).Denotes X effect := by
  refine ⟨effect.path, ?_, makeEffect_eq_ok.mpr ⟨rfl, rfl, rfl⟩⟩
  rw [spellEffect]
  generalize effect.path = path at h
  cases path with
  | none => exact .none
  | some path => exact .some (h path rfl)

/-! ## Events -/

structure SpelledEvent where
  sequence : UInt64
  kind : EventKind
  effect : TypedDigest .applicationJournalEffect
  backendEvidence : List BackendEvidenceIdentity

def eventFormat : Format Byte SpelledEvent :=
  (Format.uint64.seq ((Format.coded eventKinds).seq ((typedFormat .applicationJournalEffect).seq
    (listFormat (identityFormat .backendEvidence))))).via
    ⟨fun s => (s.sequence, s.kind, s.effect, s.backendEvidence),
      fun p => ⟨p.1, p.2.1, p.2.2.1, p.2.2.2⟩, fun _ => rfl, fun _ => rfl⟩

namespace SpelledEvent

def Denotes (s : SpelledEvent) (event : Event) : Prop :=
  s.backendEvidence.length ≤ maximumEvidenceCount ∧
    Event.make s.sequence s.kind s.effect s.backendEvidence = .ok event

def Canonical (s : SpelledEvent) : Prop :=
  s.backendEvidence.Pairwise (· < ·)

end SpelledEvent

def spellEvent (event : Event) : SpelledEvent :=
  ⟨event.sequence, event.kind, event.effect, ascending event.backendEvidence⟩

theorem eventMake_eq_ok {sequence : UInt64} {kind : EventKind}
    {effect : TypedDigest .applicationJournalEffect} {evidence : List BackendEvidenceIdentity}
    {event : Event} : Event.make sequence kind effect evidence = .ok event ↔
      evidence.Nodup ∧ event = ⟨sequence, kind, effect, evidence.toFinset⟩ := by
  simp only [Event.make, refuseIf_bind_eq_ok, not_not, pure, Except.pure, Except.ok.injEq,
    eq_comm (b := event)]

theorem SpelledEvent.canonical_iff {s : SpelledEvent} {event : Event} (h : s.Denotes event) :
    s.Canonical ↔ s = spellEvent event := by
  obtain ⟨-, rfl⟩ := eventMake_eq_ok.mp h.2
  obtain ⟨sequence, kind, effect, evidence⟩ := s
  rw [Canonical, pairwise_lt_iff, spellEvent]
  simp only [SpelledEvent.mk.injEq, true_and]

theorem SpelledEvent.Denotes.count {s : SpelledEvent} {event : Event} (h : s.Denotes event) :
    event.backendEvidence.card ≤ maximumEvidenceCount := by
  obtain ⟨hcount, hmade⟩ := h
  obtain ⟨-, rfl⟩ := eventMake_eq_ok.mp hmade
  exact (List.toFinset_card_le _).trans hcount

/-- An event is denoted by its spelling when it has not too much evidence. -/
theorem SpelledEvent.denotes_spell {event : Event} :
    (spellEvent event).Denotes event ↔ event.backendEvidence.card ≤ maximumEvidenceCount := by
  rw [Denotes, eventMake_eq_ok]
  simp only [spellEvent, length_ascending, toFinset_ascending, nodup_ascending, and_self, and_true]

/-! ## Values the source can hold -/

/-- Every text that is spelled in fewer than `2 ^ 64` bytes is valid. -/
theorem validBelow_text (text : List Byte) : Format.text.ValidBelow (2 ^ 64) text := by
  intro hsize
  simp only [Format.text, List.length_append, length_bigEndian] at hsize
  change text.length < 2 ^ 64
  omega

theorem validBelow_list {σ : Type} {F : Format Byte σ} {l : List σ}
    (hsize : l.length < 2 ^ 64) (h : ∀ s ∈ l, F.ValidBelow (2 ^ 64) s) :
    (listFormat F).ValidBelow (2 ^ 64) l :=
  .list hsize h

theorem validBelow_identities {kind : IdentityKind} {l : List (Identity kind)}
    (hsize : l.length < 2 ^ 64) : (listFormat (identityFormat kind)).ValidBelow (2 ^ 64) l :=
  .of_mem ⟨hsize, fun _ _ => trivial⟩

theorem validBelow_owners {projected : ProjectedPathOwners}
    (hsize : projected.owners.card < 2 ^ 64) :
    ownersFormat.ValidBelow (2 ^ 64) (spellOwners X projected) := by
  apply Format.ValidBelow.via
  apply (validBelow_text _).seq
  apply validBelow_list
  · simpa [spellOwners] using hsize
  · exact fun text _ => validBelow_text text

/-- The lists of a projection have a `size_t` size. -/
structure ProjectionFits (projection : LeaseBoundStateProjection) : Prop where
  paths : projection.paths.length < 2 ^ 64
  owners : ∀ projected ∈ projection.paths, projected.owners.card < 2 ^ 64

theorem validBelow_projection {projection : LeaseBoundStateProjection}
    (h : ProjectionFits projection) :
    projectionFormat.ValidBelow (2 ^ 64) (spellProjection X projection) := by
  apply Format.ValidBelow.via
  refine .seq (.of_mem trivial) ?_
  apply Format.ValidBelow.after
  refine .seq (.of_mem trivial) ?_
  apply (validBelow_text _).seq
  apply (validBelow_text _).seq
  refine .seq (.of_mem trivial) ?_
  apply Format.ValidBelow.seq
  · apply validBelow_list
    · simpa [spellProjection] using h.paths
    · intro spelled hspelled
      obtain ⟨projected, hprojected, rfl⟩ := List.mem_map.mp hspelled
      exact validBelow_owners (h.owners projected hprojected)
  · exact .of_mem trivial

theorem validBelow_header {header : JournalHeader} (h : ProjectionFits header.stateProjection) :
    headerFormat.ValidBelow (2 ^ 64) (spellHeader X header) := by
  apply Format.ValidBelow.via
  apply Format.ValidBelow.after
  refine .seq (.of_mem trivial) ?_
  refine .seq (.of_mem trivial) ?_
  apply (validBelow_text _).seq
  apply Format.ValidBelow.after
  refine .seq (.of_mem trivial) ?_
  refine .seq (.of_mem trivial) ?_
  refine .seq (.of_mem trivial) ?_
  apply (validBelow_projection h).seq
  refine .seq (.of_mem trivial) ?_
  exact .of_mem trivial

theorem validBelow_effect {effect : JournalEffect} (h : effect.ordinal < 2 ^ 64) :
    effectFormat.ValidBelow (2 ^ 64) (spellEffect effect) := by
  apply Format.ValidBelow.via
  refine .seq (.of_mem h) ?_
  refine .seq (.of_mem trivial) ?_
  apply Format.ValidBelow.optional
  exact fun text _ => validBelow_text text

theorem validBelow_event {event : Event} (h : event.backendEvidence.card < 2 ^ 64) :
    eventFormat.ValidBelow (2 ^ 64) (spellEvent event) := by
  apply Format.ValidBelow.via
  refine .seq (.of_mem trivial) ?_
  refine .seq (.of_mem trivial) ?_
  refine .seq (.of_mem trivial) ?_
  apply validBelow_identities
  simpa [spellEvent] using h

theorem projectionFits_of_counts {projection : LeaseBoundStateProjection}
    (h : projection.paths.length ≤ maximumProjectionPathCount ∧
      ∀ projected ∈ projection.paths, projected.owners.card ≤ maximumProjectionOwnerCount) :
    ProjectionFits projection where
  paths := lt_of_le_of_lt h.1 (by decide)
  owners := fun projected hprojected => lt_of_le_of_lt (h.2 projected hprojected) (by decide)

/-- A parsed path reads back as itself. -/
theorem Externals.IsPath.reads {path : PackagePath} (h : X.IsPath path) :
    X.parsePath path.bytes = .ok path := by
  obtain ⟨text, htext⟩ := h.parsed
  exact X.parsePath_bytes htext

end Projection

/-- One identity more than a decoder reads in a list. -/
def manyEvidence : Evidence :=
  (Finset.range 1000001).image fun i => ⟨BitVec.ofNat 256 i⟩

theorem card_manyEvidence : manyEvidence.card = 1000001 := by
  rw [manyEvidence, Finset.card_image_of_injOn, Finset.card_range]
  intro a ha b hb heq
  have hnat := congrArg (BitVec.toNat ∘ Identity.digest) heq
  simp only [Finset.coe_range, Set.mem_Iio, Function.comp_apply, BitVec.toNat_ofNat] at ha hb hnat
  omega

end PkgApply.Transport
