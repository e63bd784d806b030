import PkgApply.Mechanism
import PkgApply.Transport.EvidenceFormat

/-!
# Formats of replay facts

What a declaration retains about the first observation and what the terminal
event of an effect retains about its result, and how both are spelled.  A tag
says which fact follows.
-/

namespace PkgApply

open Transport

/-! ## Constructors -/

/-- The constructors of mechanism results refuse repeated evidence. -/
def normalizeEvidence (evidence : List BackendEvidenceIdentity) : Except Exn Evidence :=
  normalizeBackendEvidence "duplicate backend evidence identity" evidence

def BackendOperationResult.make (outcome : BackendOperationOutcome)
    (evidence : List BackendEvidenceIdentity) : Except Exn BackendOperationResult := do
  let evidence ← normalizeEvidence evidence
  return ⟨outcome, evidence⟩

def RejectedObjectPublicationResult.make (outcome : BackendOperationOutcome)
    (record : Option RejectedObjectRecordIdentity) (evidence : List BackendEvidenceIdentity) :
    Except Exn RejectedObjectPublicationResult :=
  if houtcome : outcome ≠ .conditionalRetained then
    if hrecord : outcome = .completed ↔ record.isSome then do
      let evidence ← normalizeEvidence evidence
      return ⟨outcome, record, evidence, houtcome, hrecord⟩
    else
      .error (.invalidArgument "rejected-object publication record applicability mismatch")
  else
    .error (.invalidArgument "invalid rejected-object publication outcome")

def OldObjectCaptureResult.make (outcome : BackendOperationOutcome) (captured : PathObservation)
    (exactRecoveryPossible : Bool) (evidence : List BackendEvidenceIdentity) :
    Except Exn OldObjectCaptureResult :=
  if hpresent : outcome = .completed → captured.state = .known then
    if hexact : exactRecoveryPossible = true → outcome = .completed then do
      let evidence ← normalizeEvidence evidence
      return ⟨outcome, captured, exactRecoveryPossible, evidence, hpresent, hexact⟩
    else
      .error (.invalidArgument "failed old-object capture claims exact recoverability")
  else
    .error (.invalidArgument "completed old-object capture lacks a present object")

/-- Paths and observations are sorted, and one must be there for each other. -/
def BackendObservationBatch.make (requested : List PackagePath)
    (observations : List PathObservation) (evidence : List BackendEvidenceIdentity) :
    Except Exn BackendObservationBatch :=
  let requested := requested.insertionSort (· ≤ ·)
  let observations := observations.insertionSort fun a b => a.path ≤ b.path
  if hsorted : requested.Pairwise (· < ·) then
    if observations.length ≠ requested.length then
      .error (.invalidArgument "backend observation closure is incomplete")
    else if hexact : observations.map PathObservation.path = requested then do
      let evidence ← normalizeEvidence evidence
      return ⟨requested, observations, evidence, hsorted, hexact⟩
    else
      .error (.invalidArgument "backend observation closure path mismatch")
  else
    .error (.invalidArgument "duplicate backend observation request path")

namespace Transport

open Library

/-! ## Facts as records -/

/-- A replay fact as the byte level has it: completed evidence is a record. -/
inductive ReplayFactRecord where
  | payloadSeal (result : BackendOperationResult)
  | capture (result : OldObjectCaptureResult)
  | rejectedEffect (path : PackagePath) (result : RejectedObjectPublicationResult)
  | activeEffect (path : PackagePath) (result : BackendOperationResult)
  | recoveryEffect (path : PackagePath) (result : BackendOperationResult)
  | synchronization (result : DurabilityFact)
  | completedEvidence (evidence : EvidenceRecord)
deriving DecidableEq

inductive ReplayTag where
  | seed
  | incomingPayload
  | capture
  | rejected
  | active
  | recovery
  | synchronization
  | completedEvidence
deriving DecidableEq, Repr

def replayTags : Codes ReplayTag where
  all := [.seed, .incomingPayload, .capture, .rejected, .active, .recovery, .synchronization,
    .completedEvidence]
  code
    | .seed => 1
    | .incomingPayload => 2
    | .capture => 3
    | .rejected => 4
    | .active => 5
    | .recovery => 6
    | .synchronization => 7
    | .completedEvidence => 8
  complete a := by cases a <;> decide
  injective a b := by cases a <;> cases b <;> decide

def operationOutcomes : Codes BackendOperationOutcome where
  all := [.completed, .conditionalRetained, .failed, .indeterminate]
  code
    | .completed => 1
    | .conditionalRetained => 2
    | .failed => 3
    | .indeterminate => 4
  complete a := by cases a <;> decide
  injective a b := by cases a <;> cases b <;> decide

/-! ## Formats -/

def replayMagic : List Byte := ascii "ZLAPFAC" ++ [0]

structure SpelledResult where
  outcome : BackendOperationOutcome
  evidence : List BackendEvidenceIdentity

structure SpelledCapture where
  outcome : BackendOperationOutcome
  captured : SpelledObservation
  exactRecoveryPossible : Bool
  evidence : List BackendEvidenceIdentity

structure SpelledPublication where
  outcome : BackendOperationOutcome
  record : Option RejectedObjectRecordIdentity
  evidence : List BackendEvidenceIdentity

structure SpelledBatch where
  requested : List (List Byte)
  observations : List SpelledObservation
  evidence : List BackendEvidenceIdentity

/-- What the plan does not fix of a path.  The statuses are raw bytes, which a
decoder checks together at the end. -/
structure SpelledDynamicPath where
  path : List Byte
  active : Byte
  rejected : Byte
  before : SpelledObservation
  after : SpelledObservation
  rejectedObject : Option RejectedObjectRecordIdentity
  publication : Byte

structure SpelledDynamicEvidence where
  identity : TypedDigest .completedApplicationEvidence
  attempt : TypedDigest .applicationAttempt
  stateProjection : TypedDigest .leaseBoundStateProjection
  journal : TypedDigest .applicationJournal
  paths : List SpelledDynamicPath
  durability : List DurabilityFact
  evidence : List BackendEvidenceIdentity

def identitiesFormat : Format Byte (List BackendEvidenceIdentity) :=
  listFormat (identityFormat .backendEvidence)

def resultFormat : Format Byte SpelledResult :=
  ((Format.coded operationOutcomes).seq identitiesFormat).via
    ⟨fun s => (s.outcome, s.evidence), fun p => ⟨p.1, p.2⟩, fun _ => rfl, fun _ => rfl⟩

def captureFormat : Format Byte SpelledCapture :=
  ((Format.coded operationOutcomes).seq (observationFormat.seq
    (Format.flag.seq identitiesFormat))).via
    ⟨fun s => (s.outcome, s.captured, s.exactRecoveryPossible, s.evidence),
      fun p => ⟨p.1, p.2.1, p.2.2.1, p.2.2.2⟩, fun _ => rfl, fun _ => rfl⟩

def publicationFormat : Format Byte SpelledPublication :=
  ((Format.coded operationOutcomes).seq
    ((optionalFormat (identityFormat .rejectedObjectRecord)).seq identitiesFormat)).via
    ⟨fun s => (s.outcome, s.record, s.evidence), fun p => ⟨p.1, p.2.1, p.2.2⟩, fun _ => rfl,
      fun _ => rfl⟩

def batchFormat : Format Byte SpelledBatch :=
  ((listFormat .text).seq ((listFormat observationFormat).seq identitiesFormat)).via
    ⟨fun s => (s.requested, s.observations, s.evidence), fun p => ⟨p.1, p.2.1, p.2.2⟩,
      fun _ => rfl, fun _ => rfl⟩

def dynamicPathFormat : Format Byte SpelledDynamicPath :=
  (Format.text.seq (Format.byte.seq (Format.byte.seq (observationFormat.seq
    (observationFormat.seq ((optionalFormat (identityFormat .rejectedObjectRecord)).seq
      .byte)))))).via
    ⟨fun s => (s.path, s.active, s.rejected, s.before, s.after, s.rejectedObject, s.publication),
      fun p => ⟨p.1, p.2.1, p.2.2.1, p.2.2.2.1, p.2.2.2.2.1, p.2.2.2.2.2.1, p.2.2.2.2.2.2⟩,
      fun _ => rfl, fun _ => rfl⟩

def dynamicEvidenceFormat : Format Byte SpelledDynamicEvidence :=
  ((typedFormat .completedApplicationEvidence).seq ((typedFormat .applicationAttempt).seq
    ((typedFormat .leaseBoundStateProjection).seq ((typedFormat .applicationJournal).seq
      ((listFormat dynamicPathFormat).seq ((listFormat durabilityFactFormat).seq
        identitiesFormat)))))).via
    ⟨fun s => (s.identity, s.attempt, s.stateProjection, s.journal, s.paths, s.durability,
        s.evidence),
      fun p => ⟨p.1, p.2.1, p.2.2.1, p.2.2.2.1, p.2.2.2.2.1, p.2.2.2.2.2.1, p.2.2.2.2.2.2⟩,
      fun _ => rfl, fun _ => rfl⟩

/-- What follows a tag. -/
def SpelledBody : ReplayTag → Type
  | .seed => SpelledBatch
  | .incomingPayload => SpelledResult
  | .capture => SpelledCapture
  | .rejected => List Byte × SpelledPublication
  | .active | .recovery => List Byte × SpelledResult
  | .synchronization => DurabilityFact
  | .completedEvidence => SpelledDynamicEvidence

def bodyFormat : (tag : ReplayTag) → Format Byte (SpelledBody tag)
  | .seed => batchFormat
  | .incomingPayload => resultFormat
  | .capture => captureFormat
  | .rejected => Format.text.seq publicationFormat
  | .active | .recovery => Format.text.seq resultFormat
  | .synchronization => durabilityFactFormat
  | .completedEvidence => dynamicEvidenceFormat

/-- The magic, the version and the tag. -/
def tagFormat : Format Byte ReplayTag :=
  ((Format.coded replayTags).after (bigEndian 2 encodingVersion)).after replayMagic

def replayFormat : Format Byte (Σ tag, SpelledBody tag) :=
  tagFormat.sigma bodyFormat

/-! ## What a spelling denotes -/

section Denotes

variable (X : Externals)

def SpelledResult.Denotes (s : SpelledResult) (result : BackendOperationResult) : Prop :=
  s.evidence.length ≤ maximumItemCount ∧
    BackendOperationResult.make s.outcome s.evidence = .ok result

def SpelledCapture.Denotes (s : SpelledCapture) (result : OldObjectCaptureResult) : Prop :=
  ∃ captured, s.captured.Denotes X captured ∧ s.evidence.length ≤ maximumItemCount ∧
    OldObjectCaptureResult.make s.outcome captured s.exactRecoveryPossible s.evidence =
      .ok result

def SpelledPublication.Denotes (s : SpelledPublication)
    (result : RejectedObjectPublicationResult) : Prop :=
  s.evidence.length ≤ maximumItemCount ∧
    RejectedObjectPublicationResult.make s.outcome s.record s.evidence = .ok result

def SpelledBatch.Denotes (s : SpelledBatch) (batch : BackendObservationBatch) : Prop :=
  ∃ requested, (s.requested.length ≤ maximumItemCount ∧
      List.Forall₂ (fun text path => X.parsePath text = .ok path) s.requested requested) ∧
    ∃ observations, (s.observations.length ≤ maximumItemCount ∧
        List.Forall₂ (SpelledObservation.Denotes X) s.observations observations) ∧
      s.evidence.length ≤ maximumItemCount ∧
        BackendObservationBatch.make requested observations s.evidence = .ok batch

structure SpelledDynamicPath.Denotes (s : SpelledDynamicPath) (c : PathConsequence) : Prop where
  path : X.parsePath s.path = .ok c.path
  active : effectStatuses.decode s.active = some c.activeStatus
  rejected : effectStatuses.decode s.rejected = some c.rejectedStatus
  before : s.before.Denotes X c.before
  after : s.after.Denotes X c.after
  rejectedObject : s.rejectedObject = c.rejectedObject
  publication : publicationStatuses.decode s.publication = some c.publication
  made : c.make = .ok c

/-- Paths along the plan of the request, and a constructor that accepts the
parts and reproduces the identity. -/
structure SpelledDynamicEvidence.Denotes (request : ApplicationRequest)
    (s : SpelledDynamicEvidence) (e : EvidenceRecord) : Prop where
  paths_count : s.paths.length ≤ maximumItemCount
  paths : List.Forall₂ (SpelledDynamicPath.Denotes X) s.paths e.paths
  along : AlongPlan request.plan e.paths
  durability : makeDurabilityProfile s.durability = .ok e.durability
  evidence_count : s.evidence.length ≤ maximumItemCount
  made : EvidenceRecord.make request s.attempt s.stateProjection s.journal e.paths e.durability
    s.evidence = .ok e
  identity : e.identity X = s.identity

/-- The transition fact a tagged body denotes; a seed is none. -/
def SpelledBody.DenotesFact (request : ApplicationRequest) :
    (tag : ReplayTag) → SpelledBody tag → ReplayFactRecord → Prop
  | .seed, _, _ => False
  | .incomingPayload, s, fact => ∃ result, s.Denotes result ∧ fact = .payloadSeal result
  | .capture, s, fact => ∃ result, s.Denotes X result ∧ fact = .capture result
  | .rejected, s, fact => ∃ path, X.parsePath s.1 = .ok path ∧
      ∃ result, s.2.Denotes result ∧ fact = .rejectedEffect path result
  | .active, s, fact => ∃ path, X.parsePath s.1 = .ok path ∧
      ∃ result, s.2.Denotes result ∧ fact = .activeEffect path result
  | .recovery, s, fact => ∃ path, X.parsePath s.1 = .ok path ∧
      ∃ result, s.2.Denotes result ∧ fact = .recoveryEffect path result
  | .synchronization, s, fact => fact = .synchronization s
  | .completedEvidence, s, fact => ∃ evidence, s.Denotes X request evidence ∧
      fact = .completedEvidence evidence

/-- The first observation a tagged body denotes. -/
def SpelledBody.DenotesSeed : (tag : ReplayTag) → SpelledBody tag → BackendObservationBatch → Prop
  | .seed, s, batch => SpelledBatch.Denotes X s batch
  | _, _, _ => False

end Denotes

/-! ## How a value is spelled -/

def spellResult (result : BackendOperationResult) : SpelledResult :=
  ⟨result.outcome, ascending result.evidence⟩

def spellCapture (result : OldObjectCaptureResult) : SpelledCapture :=
  ⟨result.outcome, spellObservation result.captured, result.exactRecoveryPossible,
    ascending result.evidence⟩

def spellPublication (result : RejectedObjectPublicationResult) : SpelledPublication :=
  ⟨result.outcome, result.record, ascending result.evidence⟩

def spellBatch (batch : BackendObservationBatch) : SpelledBatch :=
  ⟨batch.requested.map PackagePath.bytes, batch.observations.map spellObservation,
    ascending batch.evidence⟩

def spellDynamicPath (c : PathConsequence) : SpelledDynamicPath :=
  ⟨c.path.bytes, effectStatuses.code c.activeStatus, effectStatuses.code c.rejectedStatus,
    spellObservation c.before, spellObservation c.after, c.rejectedObject,
    publicationStatuses.code c.publication⟩

def spellDynamicEvidence (X : Externals) (e : EvidenceRecord) : SpelledDynamicEvidence :=
  ⟨e.identity X, e.attempt, e.stateProjection, e.journal, e.paths.map spellDynamicPath,
    durabilityFacts e.durability, ascending e.backendEvidence⟩

def spellSeed (batch : BackendObservationBatch) : Σ tag, SpelledBody tag :=
  ⟨.seed, spellBatch batch⟩

def spellFact (X : Externals) : ReplayFactRecord → Σ tag, SpelledBody tag
  | .payloadSeal result => ⟨.incomingPayload, spellResult result⟩
  | .capture result => ⟨.capture, spellCapture result⟩
  | .rejectedEffect path result => ⟨.rejected, (path.bytes, spellPublication result)⟩
  | .activeEffect path result => ⟨.active, (path.bytes, spellResult result)⟩
  | .recoveryEffect path result => ⟨.recovery, (path.bytes, spellResult result)⟩
  | .synchronization result => ⟨.synchronization, result⟩
  | .completedEvidence evidence => ⟨.completedEvidence, spellDynamicEvidence X evidence⟩

/-! ## Values the source can hold -/

section Constructed

variable (X : Externals) (maximumEntryId : UInt64) (request : ApplicationRequest)

/-- A first observation the source can construct. -/
structure SeedConstructed (batch : BackendObservationBatch) : Prop where
  requested : ∀ path ∈ batch.requested, X.parsePath path.bytes = .ok path
  observations : ∀ o ∈ batch.observations, ObservationConstructed X o
  size : batch.requested.length < 2 ^ 64
  evidence_size : batch.evidence.card < 2 ^ 64

/-- A transition fact the source can construct for a request. -/
def FactConstructed : ReplayFactRecord → Prop
  | .payloadSeal result => result.evidence.card < 2 ^ 64
  | .capture result => ObservationConstructed X result.captured ∧ result.evidence.card < 2 ^ 64
  | .rejectedEffect path result => X.parsePath path.bytes = .ok path ∧
      result.evidence.card < 2 ^ 64
  | .activeEffect path result | .recoveryEffect path result =>
    X.parsePath path.bytes = .ok path ∧ result.evidence.card < 2 ^ 64
  | .synchronization _ => True
  | .completedEvidence evidence => EvidenceConstructed X maximumEntryId request evidence

/-- No list of the seed is longer than a decoder reads. -/
def SeedWithin (batch : BackendObservationBatch) : Prop :=
  batch.requested.length ≤ maximumItemCount ∧ batch.evidence.card ≤ maximumItemCount

/-- No list of the fact is longer than a decoder reads. -/
def FactWithin : ReplayFactRecord → Prop
  | .payloadSeal result => result.evidence.card ≤ maximumItemCount
  | .capture result => result.evidence.card ≤ maximumItemCount
  | .rejectedEffect _ result => result.evidence.card ≤ maximumItemCount
  | .activeEffect _ result | .recoveryEffect _ result =>
    result.evidence.card ≤ maximumItemCount
  | .synchronization _ => True
  | .completedEvidence evidence => evidence.paths.length ≤ maximumItemCount ∧
      evidence.backendEvidence.card ≤ maximumItemCount

variable {X maximumEntryId request}

/-! ### Made again -/

theorem resultMake_again (result : BackendOperationResult) :
    BackendOperationResult.make result.outcome (ascending result.evidence) = .ok result := by
  rw [BackendOperationResult.make, normalizeEvidence, normalizeBackendEvidence_ascending]
  rfl

theorem captureMake_again (result : OldObjectCaptureResult) :
    OldObjectCaptureResult.make result.outcome result.captured result.exactRecoveryPossible
      (ascending result.evidence) = .ok result := by
  rw [OldObjectCaptureResult.make, dif_pos result.completed_present, dif_pos result.exact_completed,
    normalizeEvidence, normalizeBackendEvidence_ascending]
  rfl

theorem publicationMake_again (result : RejectedObjectPublicationResult) :
    RejectedObjectPublicationResult.make result.outcome result.record (ascending result.evidence) =
      .ok result := by
  rw [RejectedObjectPublicationResult.make, dif_pos result.unconditional,
    dif_pos result.record_iff, normalizeEvidence, normalizeBackendEvidence_ascending]
  rfl

theorem batchMake_again (batch : BackendObservationBatch) :
    BackendObservationBatch.make batch.requested batch.observations (ascending batch.evidence) =
      .ok batch := by
  have hrequested : batch.requested.insertionSort (· ≤ ·) = batch.requested :=
    (batch.sorted.imp le_of_lt).insertionSort_eq
  have hobservations : batch.observations.insertionSort (fun a b => a.path ≤ b.path) =
      batch.observations := by
    have hsorted := batch.sorted
    rw [← batch.exact] at hsorted
    exact ((List.pairwise_map.mp hsorted).imp le_of_lt).insertionSort_eq
  have hlength : batch.observations.length = batch.requested.length := by
    rw [← batch.exact, List.length_map]
  simp only [BackendObservationBatch.make, hrequested, hobservations, batch.sorted, batch.exact,
    hlength, ne_eq, not_true_eq_false, if_false, dite_true, normalizeEvidence,
    normalizeBackendEvidence_ascending]
  rfl

/-! ### Spellings denote what they spell -/

theorem SpelledResult.denotes_spell {result : BackendOperationResult} :
    (spellResult result).Denotes result ↔ result.evidence.card ≤ maximumItemCount := by
  rw [SpelledResult.Denotes, spellResult, length_ascending]
  exact and_iff_left (resultMake_again result)

theorem SpelledCapture.denotes_spell {result : OldObjectCaptureResult}
    (h : ObservationConstructed X result.captured) :
    (spellCapture result).Denotes X result ↔ result.evidence.card ≤ maximumItemCount := by
  constructor
  · rintro ⟨_, -, hcount, -⟩
    simpa [spellCapture] using hcount
  · intro hcount
    refine ⟨result.captured, SpelledObservation.denotes_spell h, ?_, captureMake_again result⟩
    simpa [spellCapture] using hcount

theorem SpelledPublication.denotes_spell {result : RejectedObjectPublicationResult} :
    (spellPublication result).Denotes result ↔ result.evidence.card ≤ maximumItemCount := by
  rw [SpelledPublication.Denotes, spellPublication, length_ascending]
  exact and_iff_left (publicationMake_again result)

theorem SpelledBatch.denotes_spell {batch : BackendObservationBatch} (h : SeedConstructed X batch) :
    (spellBatch batch).Denotes X batch ↔ SeedWithin batch := by
  have hlength : batch.observations.length = batch.requested.length := by
    rw [← batch.exact, List.length_map]
  constructor
  · rintro ⟨_, ⟨hrequested, -⟩, _, -, hevidence, -⟩
    simp only [spellBatch, List.length_map, length_ascending] at hrequested hevidence
    exact ⟨hrequested, hevidence⟩
  · rintro ⟨hrequested, hevidence⟩
    refine ⟨batch.requested, ⟨?_, forall₂_spelled h.requested⟩, batch.observations, ⟨?_, ?_⟩, ?_,
      batchMake_again batch⟩
    · simpa [spellBatch] using hrequested
    · simpa [spellBatch, hlength] using hrequested
    · apply forall₂_spelled
      intro o ho
      exact SpelledObservation.denotes_spell (h.observations o ho)
    · simpa [spellBatch] using hevidence

theorem SpelledDynamicPath.denotes_spell {c : PathConsequence}
    (h : ConsequenceConstructed X maximumEntryId c) : (spellDynamicPath c).Denotes X c where
  path := h.path
  active := effectStatuses.decode_eq_some.mpr rfl
  rejected := effectStatuses.decode_eq_some.mpr rfl
  before := SpelledObservation.denotes_spell h.before
  after := SpelledObservation.denotes_spell h.after
  rejectedObject := rfl
  publication := publicationStatuses.decode_eq_some.mpr rfl
  made := h.made

theorem SpelledDynamicEvidence.denotes_spell {e : EvidenceRecord}
    (h : EvidenceConstructed X maximumEntryId request e) :
    (spellDynamicEvidence X e).Denotes X request e ↔
      e.paths.length ≤ maximumItemCount ∧ e.backendEvidence.card ≤ maximumItemCount := by
  obtain ⟨paths, evidence, hmade⟩ := h.made
  obtain ⟨hnormal, hplan, -, -, -, -⟩ := evidenceMake_eq_ok.mp hmade
  constructor
  · intro hdenotes
    constructor
    · simpa [spellDynamicEvidence] using hdenotes.paths_count
    · simpa [spellDynamicEvidence] using hdenotes.evidence_count
  · rintro ⟨hpaths, hevidence⟩
    constructor
    · simpa [spellDynamicEvidence] using hpaths
    · apply forall₂_spelled
      intro path hpath
      exact SpelledDynamicPath.denotes_spell (h.paths path hpath)
    · exact alongPlan_of_validate hnormal hplan
    · exact makeDurabilityProfile_eq_ok.mpr (List.Perm.refl _)
    · simpa [spellDynamicEvidence] using hevidence
    · exact evidenceMake_again hmade
    · rfl

/-- A constructed fact is denoted by its spelling when its lists keep within the
limit. -/
theorem denotes_spellFact {fact : ReplayFactRecord}
    (h : FactConstructed X maximumEntryId request fact) :
    SpelledBody.DenotesFact X request (spellFact X fact).1 (spellFact X fact).2 fact ↔
      FactWithin fact := by
  cases fact with
  | payloadSeal result =>
    simp only [spellFact, SpelledBody.DenotesFact, ReplayFactRecord.payloadSeal.injEq,
      exists_eq_right', FactWithin]
    exact SpelledResult.denotes_spell
  | capture result =>
    simp only [spellFact, SpelledBody.DenotesFact, ReplayFactRecord.capture.injEq,
      exists_eq_right', FactWithin]
    exact SpelledCapture.denotes_spell h.1
  | rejectedEffect path result =>
    simp only [spellFact, SpelledBody.DenotesFact, ReplayFactRecord.rejectedEffect.injEq,
      FactWithin, ← SpelledPublication.denotes_spell]
    constructor
    · rintro ⟨_, -, _, hdenotes, rfl, rfl⟩
      exact hdenotes
    · intro hdenotes
      exact ⟨path, h.1, result, hdenotes, rfl, rfl⟩
  | activeEffect path result =>
    simp only [spellFact, SpelledBody.DenotesFact, ReplayFactRecord.activeEffect.injEq,
      FactWithin, ← SpelledResult.denotes_spell]
    constructor
    · rintro ⟨_, -, _, hdenotes, rfl, rfl⟩
      exact hdenotes
    · intro hdenotes
      exact ⟨path, h.1, result, hdenotes, rfl, rfl⟩
  | recoveryEffect path result =>
    simp only [spellFact, SpelledBody.DenotesFact, ReplayFactRecord.recoveryEffect.injEq,
      FactWithin, ← SpelledResult.denotes_spell]
    constructor
    · rintro ⟨_, -, _, hdenotes, rfl, rfl⟩
      exact hdenotes
    · intro hdenotes
      exact ⟨path, h.1, result, hdenotes, rfl, rfl⟩
  | synchronization result => simp [spellFact, SpelledBody.DenotesFact, FactWithin]
  | completedEvidence evidence =>
    simp only [spellFact, SpelledBody.DenotesFact, ReplayFactRecord.completedEvidence.injEq,
      exists_eq_right', FactWithin]
    exact SpelledDynamicEvidence.denotes_spell h

/-! ### Spellings are valid -/

theorem validBelow_ascending {evidence : Evidence} (h : evidence.card < 2 ^ 64) :
    identitiesFormat.ValidBelow (2 ^ 64) (ascending evidence) := by
  apply validBelow_identities
  rwa [length_ascending]

theorem validBelow_result {result : BackendOperationResult} (h : result.evidence.card < 2 ^ 64) :
    resultFormat.ValidBelow (2 ^ 64) (spellResult result) := by
  apply Format.ValidBelow.via
  refine .seq (.of_mem trivial) ?_
  exact validBelow_ascending h

theorem validBelow_dynamicEvidence {e : EvidenceRecord}
    (h : EvidenceConstructed X maximumEntryId request e) :
    dynamicEvidenceFormat.ValidBelow (2 ^ 64) (spellDynamicEvidence X e) := by
  have hsize : (e.paths.map spellDynamicPath).length < 2 ^ 64 := by
    rw [List.length_map]
    exact h.paths_size
  apply Format.ValidBelow.via
  refine .seq (.of_mem trivial) ?_
  refine .seq (.of_mem trivial) ?_
  refine .seq (.of_mem trivial) ?_
  refine .seq (.of_mem trivial) ?_
  apply Format.ValidBelow.seq
  · apply validBelow_list hsize
    intro spelled hspelled
    obtain ⟨c, hc, rfl⟩ := List.mem_map.mp hspelled
    apply Format.ValidBelow.via
    apply (validBelow_text _).seq
    refine .seq (.of_mem trivial) ?_
    refine .seq (.of_mem trivial) ?_
    apply (validBelow_observation (h.paths c hc).before).seq
    apply (validBelow_observation (h.paths c hc).after).seq
    exact .of_mem ⟨fun _ _ => trivial, trivial⟩
  · refine .seq (.of_mem ⟨(by decide : 6 < 2 ^ 64), fun _ _ => ⟨trivial, trivial⟩⟩) ?_
    exact validBelow_ascending h.evidence_size

theorem validBelow_seed {batch : BackendObservationBatch} (h : SeedConstructed X batch) :
    replayFormat.ValidBelow (2 ^ 64) (spellSeed batch) := by
  have hrequested : (batch.requested.map PackagePath.bytes).length < 2 ^ 64 := by
    rw [List.length_map]
    exact h.size
  have hobservations : (batch.observations.map spellObservation).length < 2 ^ 64 := by
    have hlength := congrArg List.length batch.exact
    rw [List.length_map] at hlength ⊢
    rw [hlength]
    exact h.size
  refine .sigma (.of_mem trivial) ?_
  apply Format.ValidBelow.via
  apply (validBelow_list hrequested fun text _ => validBelow_text text).seq
  apply Format.ValidBelow.seq
  · apply validBelow_list hobservations
    intro spelled hspelled
    obtain ⟨o, ho, rfl⟩ := List.mem_map.mp hspelled
    exact validBelow_observation (h.observations o ho)
  · exact validBelow_ascending h.evidence_size

theorem validBelow_replayFact {fact : ReplayFactRecord}
    (h : FactConstructed X maximumEntryId request fact) :
    replayFormat.ValidBelow (2 ^ 64) (spellFact X fact) := by
  cases fact with
  | payloadSeal result => exact .sigma (.of_mem trivial) (validBelow_result h)
  | capture result =>
    refine .sigma (.of_mem trivial) ?_
    apply Format.ValidBelow.via
    refine .seq (.of_mem trivial) ?_
    apply (validBelow_observation h.1).seq
    exact .seq (.of_mem trivial) (validBelow_ascending h.2)
  | rejectedEffect path result =>
    refine .sigma (.of_mem trivial) ((validBelow_text _).seq ?_)
    apply Format.ValidBelow.via
    refine .seq (.of_mem trivial) ?_
    exact .seq (.of_mem fun _ _ => trivial) (validBelow_ascending h.2)
  | activeEffect path result =>
    exact .sigma (.of_mem trivial) ((validBelow_text _).seq (validBelow_result h.2))
  | recoveryEffect path result =>
    exact .sigma (.of_mem trivial) ((validBelow_text _).seq (validBelow_result h.2))
  | synchronization result => exact .sigma (.of_mem trivial) (.of_mem ⟨trivial, trivial⟩)
  | completedEvidence evidence =>
    exact .sigma (.of_mem trivial) (validBelow_dynamicEvidence h)

end Constructed

end Transport

end PkgApply
