import PkgApply.Transport.Envelope
import PkgApply.Transport.ConsequenceCodec
import PkgApply.Transport.EvidenceFormat
import PkgApply.Engine.Admitted

/-!
# Completed-evidence codec

The encoder writes every list whatever its length and in the order of the value.
The decoder is given the request: it refuses a list beyond the count limit, a
header or a path that differs from the request, and an identity the rebuilt
evidence does not have, but not an order the constructors normalise.
-/

namespace PkgApply.Transport

open Library

namespace EvidenceCodec

open RecordCodec

def evidenceMagic : List Byte := ascii "ZLAPEVD" ++ [0]

def refusal (code : RefusalCode) (message : String) : Failure :=
  RecordCodec.completedEvidence.refusal code message

/-! ## Encoder -/

section Encoder

variable (X : Externals)

def appendBody (evidence : EvidenceRecord) : Writing := do
  Stream.appendU16 schemaVersion
  completedEvidence.appendTyped (evidence.identity X)
  Stream.appendU8 (canonicalKind evidence.kind)
  completedEvidence.appendIdentity evidence.request
  completedEvidence.appendPlanning X evidence.plan
  completedEvidence.appendTyped evidence.attempt
  completedEvidence.appendIdentity evidence.target
  completedEvidence.appendIdentity evidence.control
  completedEvidence.appendTyped evidence.stateProjection
  completedEvidence.appendTyped evidence.journal
  appendList (completedEvidence.appendConsequence X) evidence.paths
  appendDurability evidence.durability
  completedEvidence.appendBackendEvidence evidence.backendEvidence

def encodeCompletedApplicationEvidence (evidence : EvidenceRecord) : Except Failure (List Byte) :=
  completedEvidence.encodeEnveloped X evidenceMagic (appendBody X evidence)

end Encoder

/-! ## Decoder -/

section Decoder

variable (X : Externals) (maximumEntryId : UInt64) (request : ApplicationRequest)

def readPath (decision : PathDecision) : Reading PathConsequence := do
  let path ← completedEvidence.readPath X
  completedEvidence.readPathAfterName X maximumEntryId path decision

/-- A path for each decision of the plan, in its order. -/
def readPaths : Reading (List PathConsequence) := do
  let count ← completedEvidence.stream.readCount maximumItemCount
    (refusal .limitExceeded "completed-evidence paths exceeds its count limit")
  refuseWhen (count ≠ request.plan.paths.length) (refusal .requestMismatch
    "completed-evidence path universe differs from the immutable plan")
  decodeAlong (readPath X maximumEntryId) request.plan.paths

def readBody : Reading EvidenceRecord := do
  completedEvidence.stream.expectU16 schemaVersion
    (refusal .unsupportedVersion "completed application evidence schema version is unsupported")
  let expected ← completedEvidence.readTyped .completedApplicationEvidence
  let kind ← completedEvidence.stream.readCode operationKinds
    (refusal .invalidValue "completed-evidence encoding has an invalid operation kind")
  let requestIdentity ← completedEvidence.readIdentity .applicationRequest
  let plan ← completedEvidence.readPlanningText X .operationPlan
  let attempt ← completedEvidence.readTyped .applicationAttempt
  let target ← completedEvidence.readIdentity .targetContext
  let control ← completedEvidence.readIdentity .executionControl
  let state ← completedEvidence.readTyped .leaseBoundStateProjection
  let journal ← completedEvidence.readTyped .applicationJournal
  refuseWhen (kind ≠ request.plan.kind ∨ requestIdentity ≠ request.identity ∨
      plan ≠ request.plan.identity ∨ target ≠ request.target ∨
      control ≠ request.control.identity)
    (refusal .requestMismatch "completed evidence differs from the immutable request")
  let paths ← readPaths X maximumEntryId request
  let durability ← completedEvidence.readDurability
  let backendEvidence ← completedEvidence.readBackendEvidence
  completedEvidence.translate "completed evidence is invalid: " do
    let evidence ← build
      (EvidenceRecord.make request attempt state journal paths durability backendEvidence)
    refuseWhen (evidence.identity X ≠ expected) (refusal .identityMismatch
      "completed-evidence identity does not match its content")
    return evidence

def decodeCompletedApplicationEvidence (data : List Byte) : Except Failure EvidenceRecord :=
  completedEvidence.decode (completedEvidence.translate "completed-evidence encoding is invalid: "
    (completedEvidence.readEnveloped X evidenceMagic (readBody X maximumEntryId request))) data

end Decoder

variable {X : Externals} {maximumEntryId : UInt64} {request : ApplicationRequest}

/-! ## What is read -/

theorem parses_path (decision : PathDecision) :
    Parses completedEvidence.maximum (readPath X maximumEntryId decision) consequenceFormat
      fun s c => s.Denotes X maximumEntryId c ∧ c.matchesDecision decision = true := by
  have hpath : Parses completedEvidence.maximum (do
      let path ← completedEvidence.readPath X
      let decision ← pure decision
      completedEvidence.readPathAfterName X maximumEntryId path decision) consequenceFormat _ :=
    parses_consequence (K := fun _ d => d = decision) fun _ _ _ _ => Stream.pure_eq_ok
  apply hpath.iff
  intro s _ c
  rw [exists_eq_left]

theorem parses_paths : Parses completedEvidence.maximum (readPaths X maximumEntryId request)
    (listFormat consequenceFormat) fun ss l => ss.length ≤ maximumItemCount ∧
      List.Forall₂ (SpelledConsequence.Denotes X maximumEntryId) ss l ∧
        AlongPlan request.plan l :=
  .listAlong (completedEvidence.stream.parses_count maximumItemCount _) parses_path

theorem parses_body : Parses completedEvidence.maximum (readBody X maximumEntryId request)
    evidenceFormat (SpelledEvidence.Denotes X maximumEntryId request) := by
  apply Parses.as
  · apply Parses.after fun _ _ => Stream.expectU16_eq_ok _ (by decide)
    apply (parses_typed _).field
    intro expected
    apply (Stream.parses_code _ _ _).field
    intro kind
    apply (parses_identity _).field
    intro requestIdentity
    apply (parses_planningText _).bind
    intro plan
    apply (parses_typed _).field
    intro attempt
    apply (parses_identity _).field
    intro target
    apply (parses_identity _).field
    intro control
    apply (parses_typed _).field
    intro state
    apply (parses_typed _).field
    intro journal
    apply Parses.guard
    apply parses_paths.bind
    intro paths
    apply parses_durability.bind
    intro durability
    apply parses_backendEvidence.then (K := fun backendEvidence evidence =>
      EvidenceRecord.make request attempt state journal paths durability backendEvidence =
        .ok evidence ∧ evidence.identity X = expected)
    intro backendEvidence input evidence rest
    simp only [translate_eq_ok, decode_bind_eq_ok, build_eq_ok, refuseWhen_eq_ok,
      Stream.pure_eq_ok, not_not]
    constructor
    · rintro ⟨made, _, ⟨rfl, hmade⟩, _, _, ⟨rfl, hidentity⟩, rfl, rfl⟩
      exact ⟨rfl, hmade, hidentity⟩
    · rintro ⟨rfl, hmade, hidentity⟩
      exact ⟨evidence, rest, ⟨rfl, hmade⟩, (), rest, ⟨rfl, hidentity⟩, rfl, rfl⟩
  · intro s _ evidence
    simp only [not_or, not_not]
    constructor
    · rintro ⟨_, hplan, ⟨hkind, hrequest, rfl, htarget, hcontrol⟩, paths,
        ⟨hcount, hpaths, halong⟩, durability, hdurability, _, ⟨rfl, hevidence⟩, hmade, hidentity⟩
      obtain ⟨hnormal, -, -, -, -, he⟩ := evidenceMake_eq_ok.mp hmade
      have hsame : evidence.paths = paths := by
        rw [halong.normalized, Except.ok.injEq] at hnormal
        exact hnormal.symm
      have hprofile : evidence.durability = durability := by rw [he]
      subst hsame hprofile
      exact ⟨hkind, hrequest, hplan, htarget, hcontrol, hcount, hpaths, halong, hdurability,
        hevidence, hmade, hidentity⟩
    · intro h
      exact ⟨_, h.plan, ⟨h.kind, h.requested, rfl, h.target, h.control⟩, evidence.paths,
        ⟨h.paths_count, h.paths, h.along⟩, evidence.durability, h.durability, _,
        ⟨rfl, h.evidence_count⟩, h.made, h.identity⟩

/-- The decoder accepts exactly the spellings of the request's evidence whose
lists keep within the limit. -/
theorem decodes_evidence : Decodes completedEvidence.maximum
    (decodeCompletedApplicationEvidence X maximumEntryId request)
    (envelopeFormat X evidenceMagic evidenceFormat)
    (SpelledEvidence.Denotes X maximumEntryId request) := by
  intro data evidence
  rw [decodeCompletedApplicationEvidence, RecordCodec.decode_eq_ok]
  apply and_congr_right
  intro hsize
  simp only [translate_eq_ok, readEnveloped_eq_ok parses_body hsize]
  exact exists_eq_left

/-! ## What is written -/

theorem writes_body (evidence : EvidenceRecord) :
    Writes completedEvidence.maximum (appendBody X evidence)
      (evidenceFormat.spell (spellEvidence X evidence)) := by
  apply (Stream.writes_u16 _).bind
  apply (writes_typed _ _).bind
  apply (Stream.writes_coded operationKinds _).bind
  apply (writes_identity _ _).bind
  apply (writes_planning _ _).bind
  apply (writes_typed _ _).bind
  apply (writes_identity _ _).bind
  apply (writes_identity _ _).bind
  apply (writes_typed _ _).bind
  apply (writes_typed _ _).bind
  apply (writes_list fun path _ => writes_consequence _ _ path).bind
  apply (writes_durability _).bind
  exact writes_backendEvidence _ _

theorem encodes_evidence : Encodes completedEvidence.maximum
    (encodeCompletedApplicationEvidence X) (envelopeFormat X evidenceMagic evidenceFormat)
    (spellEvidence X) fun _ => True := by
  intro evidence data
  rw [true_and]
  exact encodeEnveloped_eq_ok (writes_body evidence)

theorem validBelow_evidenceEncoding {e : EvidenceRecord}
    (h : EvidenceConstructed X maximumEntryId request e) :
    (envelopeFormat X evidenceMagic evidenceFormat).ValidBelow (completedEvidence.maximum + 1)
      (spellEvidence X e) :=
  .mono (validBelow_envelope (validBelow_evidence h)) completedEvidence.maximum_lt

/-! ## Round trip -/

/-- What the encoder gave reads back as the evidence exactly when no list is
longer than the decoder allows. -/
theorem decode_encodeEvidence_iff {e : EvidenceRecord}
    (h : EvidenceConstructed X maximumEntryId request e) {data : List Byte}
    (hdata : encodeCompletedApplicationEvidence X e = .ok data) :
    decodeCompletedApplicationEvidence X maximumEntryId request data = .ok e ↔
      EvidenceWithin e := by
  rw [← SpelledEvidence.denotes_spell h]
  exact encodes_evidence.decode_iff decodes_evidence (validBelow_evidenceEncoding h) hdata

/-! ## Canonical bytes -/

/-- Bytes that spell evidence canonically. -/
def CanonicallySpelled (X : Externals) (data : List Byte) : Prop :=
  ∃ s ∈ (envelopeFormat X evidenceMagic evidenceFormat).valid,
    data = (envelopeFormat X evidenceMagic evidenceFormat).spell s ∧ s.Canonical X

theorem respells_evidence : Respells completedEvidence.maximum
    (encodeCompletedApplicationEvidence X) (envelopeFormat X evidenceMagic evidenceFormat)
    (SpelledEvidence.Denotes X maximumEntryId request) (SpelledEvidence.Canonical X)
    (spellEvidence X) where
  encodes := by
    intro s e _ _ data
    rw [encodes_evidence, true_and]
  valid := by
    intro s e _ hdenotes
    exact validBelow_evidenceEncoding hdenotes.constructed
  canonical := fun _ _ => SpelledEvidence.canonical_iff

/-- Accepted bytes are what the decoded evidence is encoded as exactly when they
spell it canonically. -/
theorem encode_decodeCompletedApplicationEvidence_iff {data : List Byte} {e : EvidenceRecord}
    (h : decodeCompletedApplicationEvidence X maximumEntryId request data = .ok e) :
    encodeCompletedApplicationEvidence X e = .ok data ↔ CanonicallySpelled X data :=
  decodes_evidence.encode_iff respells_evidence h

/-! ## Evidence of a removal -/

section Removal

open AdmittedApplication

/-- The removal of one empty directory. -/
def removedPath : PathConsequence where
  path := removalPath
  role := .installedOwnedPath
  requestedActive := .removeDirectoryIfEmpty
  requestedRejected := .none
  incomingEntry := none
  ownership := ⟨[⟨1⟩], [], false⟩
  activeStatus := .completed
  rejectedStatus := .notAttempted
  before := .present removalObject
  after := .absent removalPath
  rejectedObject := none
  publication := .eligible

def removedRequest : ApplicationRequest :=
  removalRequest .none .visibilityOnly

/-- Its completed evidence, with this backend evidence. -/
def removedEvidence (evidence : Evidence) : EvidenceRecord where
  kind := .remove
  request := ⟨4⟩
  plan := ⟨2⟩
  attempt := ⟨20⟩
  target := ⟨6⟩
  control := ⟨5⟩
  stateProjection := ⟨21⟩
  journal := ⟨22⟩
  paths := [removedPath]
  durability := ⟨.confirmed, .confirmed, .confirmed, .confirmed, .confirmed, .confirmed⟩
  backendEvidence := evidence

theorem constructed_removalObservation :
    ObservationConstructed .reference (.present removalObject) where
  path := rfl
  object := by
    intro object hobject
    obtain rfl := PathObservation.present.inj hobject
    exact ⟨rfl, nofun, nofun⟩

theorem constructed_absent {path : PackagePath} (h : X.parsePath path.bytes = .ok path) :
    ObservationConstructed X (.absent path) where
  path := h
  object := by
    intro object hobject
    cases hobject

theorem constructed_removedPath (maximumEntryId : UInt64) :
    ConsequenceConstructed .reference maximumEntryId removedPath where
  path := rfl
  entry := nofun
  beforeOwners_size := (by decide : 1 < 2 ^ 64)
  afterOwners_size := (by decide : 0 < 2 ^ 64)
  before := constructed_removalObservation
  after := constructed_absent rfl
  made := by decide +kernel

theorem constructed_removedEvidence (maximumEntryId : UInt64) (evidence : Evidence)
    (h : evidence.card < 2 ^ 64) :
    EvidenceConstructed .reference maximumEntryId removedRequest (removedEvidence evidence) where
  paths := by
    intro path hpath
    obtain rfl := List.mem_singleton.mp hpath
    exact constructed_removedPath maximumEntryId
  paths_size := (by decide : 1 < 2 ^ 64)
  evidence_size := h
  made := by
    refine ⟨[removedPath], ascending evidence, ?_⟩
    rw [evidenceMake_eq_ok, toFinset_ascending]
    exact ⟨normalizePaths_of_pairwise (List.pairwise_singleton _ _), by rfl, by rfl,
      nodup_ascending _, by rfl, rfl⟩

/-- The spelling of that evidence with its backend evidence in this order. -/
def spellRemoved (l : List BackendEvidenceIdentity) : SpelledEvidence :=
  { spellEvidence .reference (removedEvidence l.toFinset) with backendEvidence := l }

theorem spellRemoved_ascending (evidence : Evidence) :
    spellRemoved (ascending evidence) = spellEvidence .reference (removedEvidence evidence) := by
  rw [spellRemoved, toFinset_ascending]
  rfl

theorem canonical_spellRemoved (l : List BackendEvidenceIdentity) :
    (spellRemoved l).Canonical .reference ↔ l.Pairwise (· < ·) := by
  constructor
  · intro h
    exact h.backendEvidence
  · intro hl
    constructor
    · exact ⟨_, rfl⟩
    · intro path hpath
      obtain rfl := List.mem_singleton.mp hpath
      have hdenotes := (SpelledConsequence.denotes_spell (constructed_removedPath 0)).mpr
        (by decide : 1 ≤ maximumItemCount ∧ 0 ≤ maximumItemCount)
      exact (SpelledConsequence.canonical_iff hdenotes).mpr rfl
    · rfl
    · exact hl

theorem denotes_spellRemoved (maximumEntryId : UInt64) {l : List BackendEvidenceIdentity}
    (hl : l.Nodup) (hcount : l.length ≤ maximumItemCount) :
    (spellRemoved l).Denotes .reference maximumEntryId removedRequest
      (removedEvidence l.toFinset) := by
  have hcard : l.toFinset.card = l.length := List.toFinset_card_of_nodup hl
  have hconstructed := constructed_removedEvidence maximumEntryId l.toFinset
    (by rw [hcard, maximumItemCount] at *; omega)
  have hdenotes := (SpelledEvidence.denotes_spell hconstructed).mpr
    ⟨(by decide : 1 ≤ maximumItemCount), by
      intro path hpath
      obtain rfl := List.mem_singleton.mp hpath
      exact (by decide : 1 ≤ maximumItemCount ∧ 0 ≤ maximumItemCount), hcard.trans_le hcount⟩
  have hmade := evidenceMake_eq_ok.mp hdenotes.made
  exact
    { hdenotes with
      evidence_count := hcount
      made := by
        rw [evidenceMake_eq_ok]
        exact ⟨hmade.1, hmade.2.1, hmade.2.2.1, hl, hmade.2.2.2.2.1, rfl⟩ }

/-- Every identity of the list takes 82 bytes, whatever it is. -/
theorem length_spellRemoved (l : List BackendEvidenceIdentity) :
    ((envelopeFormat .reference evidenceMagic evidenceFormat).spell (spellRemoved l)).length ≤
      2000 + 82 * l.length := by
  have hmagic : evidenceMagic.length = 8 := by decide +kernel
  have hpath : (consequenceFormat.spell (spellConsequence .reference removedPath)).length ≤ 500 := by
    decide +kernel
  simp [envelopeFormat, envelope, evidenceFormat, spellRemoved, spellEvidence, removedEvidence,
    Format.via, Format.seq, Format.after, typedFormat, digestFormat, Format.text, Format.number,
    Format.coded, identityFormat, listFormat, Format.list, counted, Externals.reference,
    durabilityFactFormat, durabilityFacts, durabilityDomains, hmagic, Function.comp_def] at hpath ⊢
  omega

theorem valid_spellRemoved {l : List BackendEvidenceIdentity}
    (hcount : l.length ≤ maximumItemCount) :
    spellRemoved l ∈ (envelopeFormat .reference evidenceMagic evidenceFormat).valid := by
  have hlength := length_spellRemoved l
  have hbelow : evidenceFormat.ValidBelow (2 ^ 64) (spellRemoved l) := by
    apply SpelledEvidence.validBelow
    · exact (by decide : 1 < 2 ^ 64)
    · intro path hpath
      obtain rfl := List.mem_singleton.mp hpath
      exact validBelow_consequence (constructed_removedPath 0)
    · exact (by decide : 6 < 2 ^ 64)
    · exact lt_of_le_of_lt hcount (by decide)
  rw [maximumItemCount] at hcount
  exact validBelow_envelope hbelow (by omega)

theorem decode_spellRemoved (maximumEntryId : UInt64) {l : List BackendEvidenceIdentity}
    (hl : l.Nodup) (hcount : l.length ≤ maximumItemCount) :
    decodeCompletedApplicationEvidence .reference maximumEntryId removedRequest
      ((envelopeFormat .reference evidenceMagic evidenceFormat).spell (spellRemoved l)) =
        .ok (removedEvidence l.toFinset) := by
  have hlength := length_spellRemoved l
  have hvalid := valid_spellRemoved hcount
  have hdenotes := denotes_spellRemoved maximumEntryId hl hcount
  have hmaximum : completedEvidence.maximum = 268435456 := by decide
  rw [maximumItemCount] at hcount
  rw [decodes_evidence]
  exact ⟨by omega, _, hvalid, rfl, hdenotes⟩

/-- Backend evidence in ascending order is encoded as it was read. -/
theorem encode_decodeCompletedApplicationEvidence_removed :
    encodeCompletedApplicationEvidence .reference (removedEvidence {⟨30⟩, ⟨31⟩}) =
      .ok ((envelopeFormat .reference evidenceMagic evidenceFormat).spell
        (spellRemoved [⟨30⟩, ⟨31⟩])) := by
  have hdecode := decode_spellRemoved 0 (l := [⟨30⟩, ⟨31⟩]) (by decide) (by decide)
  have hcanonical := (canonical_spellRemoved [⟨30⟩, ⟨31⟩]).mpr (by decide)
  apply (encode_decodeCompletedApplicationEvidence_iff hdecode).mpr
  exact ⟨_, valid_spellRemoved (by decide), rfl, hcanonical⟩

/-- Backend evidence in descending order is accepted too. -/
theorem decodeCompletedApplicationEvidence_permuted :
    ∃ data e, decodeCompletedApplicationEvidence .reference 0 removedRequest data = .ok e ∧
      encodeCompletedApplicationEvidence .reference e ≠ .ok data := by
  have hdecode := decode_spellRemoved 0 (l := [⟨31⟩, ⟨30⟩]) (by decide) (by decide)
  refine ⟨_, _, hdecode, ?_⟩
  intro hencode
  have hspells := (decodes_evidence.encode_iff respells_evidence hdecode).mp hencode
  have hcanonical := (Format.spellsAs_iff (valid_spellRemoved (by decide))).mp hspells
  have hascending := (canonical_spellRemoved _).mp hcanonical
  exact absurd hascending (by decide)

end Removal

end EvidenceCodec

end PkgApply.Transport
