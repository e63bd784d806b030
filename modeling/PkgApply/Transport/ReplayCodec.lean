import PkgApply.Transport.ObjectCodec
import PkgApply.Transport.ReplayFormat
import PkgApply.Engine.Admitted

/-!
# Replay-fact codec

The encoder writes every list whatever its length; the decoder refuses a list
beyond the count limit and rebuilds the fact through its constructors.  A
decoder of transition facts is given the request, which completed evidence is
read against.
-/

namespace PkgApply.Transport

open Library

namespace ReplayCodec

open RecordCodec

def refusal (code : RefusalCode) (message : String) : Failure :=
  RecordCodec.replayFact.refusal code message

/-! ## Encoder -/

section Encoder

variable (X : Externals)

def appendHeader (tag : ReplayTag) : Writing := do
  encodeEach Stream.appendU8 replayMagic
  Stream.appendU16 encodingVersion
  Stream.appendU8 (replayTags.code tag)

def appendOperationResult (result : BackendOperationResult) : Writing := do
  Stream.appendU8 (operationOutcomes.code result.outcome)
  replayFact.appendBackendEvidence result.evidence

def appendObservationBatch (batch : BackendObservationBatch) : Writing := do
  appendList replayFact.appendPath batch.requested
  appendList replayFact.appendObservation batch.observations
  replayFact.appendBackendEvidence batch.evidence

def appendPathDynamic (path : PathConsequence) : Writing := do
  replayFact.appendPath path.path
  Stream.appendU8 (effectStatuses.code path.activeStatus)
  Stream.appendU8 (effectStatuses.code path.rejectedStatus)
  replayFact.appendObservation path.before
  replayFact.appendObservation path.after
  appendOptional replayFact.appendIdentity path.rejectedObject
  Stream.appendU8 (publicationStatuses.code path.publication)

def appendCompletedEvidence (evidence : EvidenceRecord) : Writing := do
  replayFact.appendTyped (evidence.identity X)
  replayFact.appendTyped evidence.attempt
  replayFact.appendTyped evidence.stateProjection
  replayFact.appendTyped evidence.journal
  appendList appendPathDynamic evidence.paths
  appendDurability evidence.durability
  replayFact.appendBackendEvidence evidence.backendEvidence

def encodeReplaySeed (observations : BackendObservationBatch) : Except Failure (List Byte) :=
  replayFact.stream.finish do
    appendHeader .seed
    appendObservationBatch observations

def appendFact : ReplayFactRecord → Writing
  | .payloadSeal result => do
    appendHeader .incomingPayload
    appendOperationResult result
  | .capture result => do
    appendHeader .capture
    Stream.appendU8 (operationOutcomes.code result.outcome)
    replayFact.appendObservation result.captured
    Stream.appendFlag result.exactRecoveryPossible
    replayFact.appendBackendEvidence result.evidence
  | .rejectedEffect path result => do
    appendHeader .rejected
    replayFact.appendPath path
    Stream.appendU8 (operationOutcomes.code result.outcome)
    appendOptional replayFact.appendIdentity result.record
    replayFact.appendBackendEvidence result.evidence
  | .activeEffect path result => do
    appendHeader .active
    replayFact.appendPath path
    appendOperationResult result
  | .recoveryEffect path result => do
    appendHeader .recovery
    replayFact.appendPath path
    appendOperationResult result
  | .synchronization result => do
    appendHeader .synchronization
    appendDurabilityFact result
  | .completedEvidence evidence => do
    appendHeader .completedEvidence
    appendCompletedEvidence X evidence

def encodeReplayFact (fact : ReplayFactRecord) : Except Failure (List Byte) :=
  replayFact.stream.finish (appendFact X fact)

end Encoder

/-! ## Decoder -/

section Decoder

variable (X : Externals) (request : ApplicationRequest)

/-- The magic, byte by byte. -/
def expectBytes : List Byte → Reading Unit
  | [] => pure ()
  | byte :: rest => do
    let found ← replayFact.stream.readU8
    refuseWhen (found ≠ byte)
      (refusal .invalidMagic "application replay fact encoding has invalid magic")
    expectBytes rest

def readHeader : Reading ReplayTag := do
  expectBytes replayMagic
  replayFact.stream.expectU16 encodingVersion
    (refusal .unsupportedVersion "application replay fact encoding version is unsupported")
  replayFact.stream.readCode replayTags
    (refusal .invalidValue "application replay fact encoding contains an invalid tag")

def readOutcome : Reading BackendOperationOutcome :=
  replayFact.stream.readCode operationOutcomes
    (refusal .invalidValue "application replay fact contains an invalid backend outcome")

def readOperationResult : Reading BackendOperationResult := do
  let outcome ← readOutcome
  let evidence ← replayFact.readBackendEvidence
  build (BackendOperationResult.make outcome evidence)

def readCaptureResult : Reading OldObjectCaptureResult := do
  let outcome ← readOutcome
  let captured ← replayFact.readObservation X
  let exact ← replayFact.stream.readBool
  let evidence ← replayFact.readBackendEvidence
  build (OldObjectCaptureResult.make outcome captured exact evidence)

def readPublicationResult : Reading RejectedObjectPublicationResult := do
  let outcome ← readOutcome
  let record ← replayFact.readOptional (replayFact.readIdentity .rejectedObjectRecord)
  let evidence ← replayFact.readBackendEvidence
  build (RejectedObjectPublicationResult.make outcome record evidence)

def readObservationBatch : Reading BackendObservationBatch := do
  let requested ← replayFact.readList maximumItemCount "observation request paths"
    (replayFact.readPath X)
  let observations ← replayFact.readList maximumItemCount "observations"
    (replayFact.readObservation X)
  let evidence ← replayFact.readBackendEvidence
  build (BackendObservationBatch.make requested observations evidence)

/-- The statuses that three bytes stand for, if all of them do. -/
def decodeStatuses (active rejected publication : Byte) :
    Option (EffectStatus × EffectStatus × OwnershipPublicationStatus) := do
  let active ← effectStatuses.decode active
  let rejected ← effectStatuses.decode rejected
  let publication ← publicationStatuses.decode publication
  return (active, rejected, publication)

/-- The statuses are checked once everything of the path is read. -/
def readPathDynamic (decision : PathDecision) : Reading PathConsequence := do
  let path ← replayFact.readPath X
  refuseWhen (path ≠ decision.path) (refusal .requestMismatch
    "completed evidence path order differs from the immutable plan")
  let active ← replayFact.stream.readU8
  let rejected ← replayFact.stream.readU8
  let before ← replayFact.readObservation X
  let after ← replayFact.readObservation X
  let rejectedObject ← replayFact.readOptional (replayFact.readIdentity .rejectedObjectRecord)
  let publication ← replayFact.stream.readU8
  match decodeStatuses active rejected publication with
  | some (active, rejected, publication) =>
    build (PathConsequence.make ⟨path, decision.role, decision.active, decision.rejected,
      decision.incomingEntry, decision.ownership, active, rejected, before, after,
      rejectedObject, publication⟩)
  | none =>
    throw (refusal .invalidValue "completed evidence path contains invalid status values")

/-- A path for each decision of the plan, in its order. -/
def readPaths : Reading (List PathConsequence) := do
  let count ← replayFact.stream.readCount maximumItemCount
    (refusal .limitExceeded "completed evidence paths exceeds its count limit")
  refuseWhen (count ≠ request.plan.paths.length) (refusal .requestMismatch
    "completed evidence path universe differs from the immutable plan")
  decodeAlong (readPathDynamic X) request.plan.paths

def readCompletedEvidence : Reading EvidenceRecord := do
  let expected ← replayFact.readTyped .completedApplicationEvidence
  let attempt ← replayFact.readTyped .applicationAttempt
  let state ← replayFact.readTyped .leaseBoundStateProjection
  let journal ← replayFact.readTyped .applicationJournal
  let paths ← readPaths X request
  let durability ← replayFact.readDurability
  let evidence ← replayFact.readBackendEvidence
  let result ← build
    (EvidenceRecord.make request attempt state journal paths durability evidence)
  refuseWhen (result.identity X ≠ expected) (refusal .identityMismatch
    "completed evidence identity does not match replay fact content")
  return result

def readFact : ReplayTag → Reading ReplayFactRecord
  | .seed =>
    throw (refusal .invalidValue "application replay seed was used as a transition fact")
  | .incomingPayload => do
    let result ← readOperationResult
    return .payloadSeal result
  | .capture => do
    let result ← readCaptureResult X
    return .capture result
  | .rejected => do
    let path ← replayFact.readPath X
    let result ← readPublicationResult
    return .rejectedEffect path result
  | .active => do
    let path ← replayFact.readPath X
    let result ← readOperationResult
    return .activeEffect path result
  | .recovery => do
    let path ← replayFact.readPath X
    let result ← readOperationResult
    return .recoveryEffect path result
  | .synchronization => do
    let result ← replayFact.readDurabilityFact
    return .synchronization result
  | .completedEvidence => do
    let evidence ← readCompletedEvidence X request
    return .completedEvidence evidence

def readSeed : ReplayTag → Reading BackendObservationBatch
  | .seed => readObservationBatch X
  | _ => throw (refusal .invalidValue "application replay seed has a transition-fact tag")

/-- A tag, what it calls for, and nothing more. -/
def readTagged {α : Type} (body : ReplayTag → Reading α) : Reading α := do
  let value ← readHeader >>= body
  replayFact.stream.requireEnd
  return value

def decodeReplaySeed (data : List Byte) : Except Failure BackendObservationBatch :=
  replayFact.decode (readTagged (readSeed X)) data

def decodeReplayFact (data : List Byte) : Except Failure ReplayFactRecord :=
  replayFact.decode (readTagged (readFact X request)) data

end Decoder

variable {X : Externals} {maximumEntryId : UInt64} {request : ApplicationRequest}

/-! ## What is read -/

section Parses

theorem expectBytes_eq_ok {bytes input rest : List Byte} :
    expectBytes bytes input = .ok ((), rest) ↔ input = bytes ++ rest := by
  induction bytes generalizing input with
  | nil =>
    rw [expectBytes, Stream.pure_eq_ok, List.nil_append, and_iff_left rfl]
    exact eq_comm
  | cons byte bytes ih =>
    have hread {found : Byte} {middle : List Byte} :
        replayFact.stream.readU8 input = .ok (found, middle) ↔ input = found :: middle := by
      rw [replayFact.stream.parses_u8 input le_rfl]
      constructor
      · rintro ⟨_, -, rfl, rfl⟩
        rfl
      · rintro rfl
        exact ⟨found, trivial, rfl, rfl⟩
    simp only [expectBytes, decode_bind_eq_ok, hread, refuseWhen_eq_ok, ih, not_not]
    constructor
    · rintro ⟨_, _, rfl, _, _, ⟨rfl, rfl⟩, rfl⟩
      rfl
    · rintro rfl
      exact ⟨byte, _, rfl, (), _, ⟨rfl, rfl⟩, rfl⟩

theorem parses_header : Parses replayFact.maximum readHeader tagFormat Eq := by
  apply Parses.after fun _ _ => expectBytes_eq_ok
  apply Parses.after fun _ _ => Stream.expectU16_eq_ok _ (by decide)
  exact Stream.parses_code _ _ _

theorem parses_operationResult :
    Parses replayFact.maximum readOperationResult resultFormat SpelledResult.Denotes := by
  apply Parses.as
  · apply (Stream.parses_code _ _ _).field
    intro outcome
    apply parses_backendEvidence.then
    intro evidence input result rest
    exact build_eq_ok
  · intro s _ result
    constructor
    · rintro ⟨_, ⟨rfl, hcount⟩, hmade⟩
      exact ⟨hcount, hmade⟩
    · rintro ⟨hcount, hmade⟩
      exact ⟨_, ⟨rfl, hcount⟩, hmade⟩

theorem parses_observationBatch : Parses replayFact.maximum (readObservationBatch X) batchFormat
    (SpelledBatch.Denotes X) := by
  apply Parses.as
  · apply (parses_list parses_path).bind
    intro requested
    apply (parses_list parses_observation).bind
    intro observations
    apply parses_backendEvidence.then
    intro evidence input batch rest
    exact build_eq_ok
  · intro s _ batch
    constructor
    · rintro ⟨requested, hrequested, observations, hobservations, _, ⟨rfl, hcount⟩, hmade⟩
      exact ⟨requested, hrequested, observations, hobservations, hcount, hmade⟩
    · rintro ⟨requested, hrequested, observations, hobservations, hcount, hmade⟩
      exact ⟨requested, hrequested, observations, hobservations, _, ⟨rfl, hcount⟩, hmade⟩

theorem decodeStatuses_eq_some {a r p : Byte} {active rejected : EffectStatus}
    {publication : OwnershipPublicationStatus} :
    decodeStatuses a r p = some (active, rejected, publication) ↔
      effectStatuses.decode a = some active ∧ effectStatuses.decode r = some rejected ∧
        publicationStatuses.decode p = some publication := by
  simp [decodeStatuses, Option.bind_eq_some_iff]

theorem parses_pathDynamic (decision : PathDecision) :
    Parses replayFact.maximum (readPathDynamic X decision) dynamicPathFormat fun s c =>
      s.Denotes X c ∧ c.matchesDecision decision = true := by
  apply Parses.as
  · apply parses_path.bind
    intro path
    apply Parses.guard
    apply (replayFact.stream.parses_u8).field
    intro active
    apply (replayFact.stream.parses_u8).field
    intro rejected
    apply parses_observation.bind
    intro before
    apply parses_observation.bind
    intro after
    apply (parses_optional (parses_identity _)).bind
    intro rejectedObject
    apply (replayFact.stream.parses_u8).then (K := fun publication c =>
      decodeStatuses active rejected publication =
          some (c.activeStatus, c.rejectedStatus, c.publication) ∧
        PathConsequence.make ⟨path, decision.role, decision.active, decision.rejected,
          decision.incomingEntry, decision.ownership, c.activeStatus, c.rejectedStatus, before,
          after, rejectedObject, c.publication⟩ = .ok c)
    intro publication input c rest
    cases hstatuses : decodeStatuses active rejected publication with
    | none =>
      constructor
      · intro h
        cases h
      · rintro ⟨-, hnone, -⟩
        cases hnone
    | some statuses =>
      obtain ⟨activeStatus, rejectedStatus, publicationStatus⟩ := statuses
      simp only [build_eq_ok, Option.some.injEq, Prod.mk.injEq]
      constructor
      · rintro ⟨rfl, hmade⟩
        obtain rfl := consequenceMake_eq_ok hmade
        exact ⟨rfl, ⟨rfl, rfl, rfl⟩, hmade⟩
      · rintro ⟨rfl, ⟨rfl, rfl, rfl⟩, hmade⟩
        exact ⟨rfl, hmade⟩
  · intro s _ c
    simp only [exists_eq_left', not_not, matchesDecision_iff, decodeStatuses_eq_some]
    constructor
    · rintro ⟨path, hpath, rfl, before, hbefore, after, hafter, rejectedObject, hobject,
        ⟨hactive, hrejected, hpublication⟩, hmade⟩
      have hsame := consequenceMake_eq_ok hmade
      have hname : c.path = decision.path := congrArg PathConsequence.path hsame
      have hdenotes : s.Denotes X c :=
        { path := by
            rw [hname]
            exact hpath
          active := hactive
          rejected := hrejected
          before := by
            rw [congrArg PathConsequence.before hsame]
            exact hbefore
          after := by
            rw [congrArg PathConsequence.after hsame]
            exact hafter
          rejectedObject := by
            rw [congrArg PathConsequence.rejectedObject hsame]
            exact optionRel_eq_iff.mp hobject
          publication := hpublication
          made := (congrArg PathConsequence.make hsame).trans hmade }
      exact ⟨hdenotes, hname, congrArg PathConsequence.role hsame,
        congrArg PathConsequence.requestedActive hsame,
        congrArg PathConsequence.requestedRejected hsame,
        congrArg PathConsequence.incomingEntry hsame, congrArg PathConsequence.ownership hsame⟩
    · rintro ⟨h, hname, hrole, hactive, hrejected, hentry, hownership⟩
      refine ⟨c.path, h.path, hname, c.before, h.before, c.after, h.after, c.rejectedObject,
        optionRel_eq_iff.mpr h.rejectedObject, ⟨h.active, h.rejected, h.publication⟩, ?_⟩
      rw [← hrole, ← hactive, ← hrejected, ← hentry, ← hownership]
      exact h.made

theorem parses_paths : Parses replayFact.maximum (readPaths X request)
    (listFormat dynamicPathFormat) fun ss l => ss.length ≤ maximumItemCount ∧
      List.Forall₂ (SpelledDynamicPath.Denotes X) ss l ∧ AlongPlan request.plan l :=
  .listAlong (replayFact.stream.parses_count maximumItemCount _) parses_pathDynamic

theorem parses_completedEvidence : Parses replayFact.maximum (readCompletedEvidence X request)
    dynamicEvidenceFormat (SpelledDynamicEvidence.Denotes X request) := by
  apply Parses.as
  · apply (parses_typed _).field
    intro expected
    apply (parses_typed _).field
    intro attempt
    apply (parses_typed _).field
    intro state
    apply (parses_typed _).field
    intro journal
    apply parses_paths.bind
    intro paths
    apply parses_durability.bind
    intro durability
    apply parses_backendEvidence.then (K := fun evidence result =>
      EvidenceRecord.make request attempt state journal paths durability evidence = .ok result ∧
        result.identity X = expected)
    intro evidence input result rest
    simp only [decode_bind_eq_ok, build_eq_ok, refuseWhen_eq_ok, Stream.pure_eq_ok, not_not]
    constructor
    · rintro ⟨made, _, ⟨rfl, hmade⟩, _, _, ⟨rfl, hidentity⟩, rfl, rfl⟩
      exact ⟨rfl, hmade, hidentity⟩
    · rintro ⟨rfl, hmade, hidentity⟩
      exact ⟨result, rest, ⟨rfl, hmade⟩, (), rest, ⟨rfl, hidentity⟩, rfl, rfl⟩
  · intro s _ evidence
    constructor
    · rintro ⟨paths, ⟨hcount, hpaths, halong⟩, durability, hdurability, _, ⟨rfl, hevidence⟩,
        hmade, hidentity⟩
      obtain ⟨hnormal, -, -, -, -, he⟩ := evidenceMake_eq_ok.mp hmade
      have hsame : evidence.paths = paths := by
        rw [halong.normalized, Except.ok.injEq] at hnormal
        exact hnormal.symm
      have hprofile : evidence.durability = durability := by rw [he]
      subst hsame hprofile
      exact ⟨hcount, hpaths, halong, hdurability, hevidence, hmade, hidentity⟩
    · intro h
      exact ⟨evidence.paths, ⟨h.paths_count, h.paths, h.along⟩, evidence.durability, h.durability,
        _, ⟨rfl, h.evidence_count⟩, h.made, h.identity⟩

/-- A reader that refuses parses nothing. -/
theorem parses_throw {α σ : Type} {F : Format Byte σ} {failure : Failure} :
    Parses replayFact.maximum (throw failure : Reading α) F fun _ _ => False := by
  intro input _ a rest
  constructor
  · intro h
    cases h
  · rintro ⟨_, _, _, h⟩
    exact h.elim

theorem parses_seed (tag : ReplayTag) : Parses replayFact.maximum (readSeed X tag)
    (bodyFormat tag) (SpelledBody.DenotesSeed X tag) := by
  cases tag with
  | seed => exact parses_observationBatch
  | incomingPayload => exact parses_throw
  | capture => exact parses_throw
  | rejected => exact parses_throw
  | active => exact parses_throw
  | recovery => exact parses_throw
  | synchronization => exact parses_throw
  | completedEvidence => exact parses_throw

theorem parses_captureResult : Parses replayFact.maximum (readCaptureResult X) captureFormat
    (SpelledCapture.Denotes X) := by
  apply Parses.as
  · apply (Stream.parses_code _ _ _).field
    intro outcome
    apply parses_observation.bind
    intro captured
    apply (Stream.parses_bool _).field
    intro exact
    apply parses_backendEvidence.then
    intro evidence input result rest
    exact build_eq_ok
  · intro s _ result
    constructor
    · rintro ⟨captured, hcaptured, _, ⟨rfl, hcount⟩, hmade⟩
      exact ⟨captured, hcaptured, hcount, hmade⟩
    · rintro ⟨captured, hcaptured, hcount, hmade⟩
      exact ⟨captured, hcaptured, _, ⟨rfl, hcount⟩, hmade⟩

theorem parses_publicationResult : Parses replayFact.maximum readPublicationResult
    publicationFormat SpelledPublication.Denotes := by
  apply Parses.as
  · apply (Stream.parses_code _ _ _).field
    intro outcome
    apply (parses_optional (parses_identity _)).bind
    intro record
    apply parses_backendEvidence.then
    intro evidence input result rest
    exact build_eq_ok
  · intro s _ result
    simp only [optionRel_eq_iff, exists_eq_left']
    constructor
    · rintro ⟨_, ⟨rfl, hcount⟩, hmade⟩
      exact ⟨hcount, hmade⟩
    · rintro ⟨hcount, hmade⟩
      exact ⟨_, ⟨rfl, hcount⟩, hmade⟩

theorem parses_fact (tag : ReplayTag) : Parses replayFact.maximum (readFact X request tag)
    (bodyFormat tag) (SpelledBody.DenotesFact X request tag) := by
  cases tag with
  | seed => exact parses_throw
  | incomingPayload => exact parses_operationResult.then fun _ _ _ _ => Stream.pure_eq_ok
  | capture => exact parses_captureResult.then fun _ _ _ _ => Stream.pure_eq_ok
  | rejected =>
    exact parses_path.bind fun path =>
      parses_publicationResult.then fun _ _ _ _ => Stream.pure_eq_ok
  | active =>
    exact parses_path.bind fun path =>
      parses_operationResult.then fun _ _ _ _ => Stream.pure_eq_ok
  | recovery =>
    exact parses_path.bind fun path =>
      parses_operationResult.then fun _ _ _ _ => Stream.pure_eq_ok
  | synchronization =>
    apply (parses_durabilityFact.then fun _ _ _ _ => Stream.pure_eq_ok).iff
    intro s _ fact
    exact exists_eq_left'
  | completedEvidence => exact parses_completedEvidence.then fun _ _ _ _ => Stream.pure_eq_ok

/-- A tag and what it calls for, to the end of the data. -/
theorem decodes_tagged {α : Type} {body : ReplayTag → Reading α}
    {V : (tag : ReplayTag) → SpelledBody tag → α → Prop}
    (h : ∀ tag, Parses replayFact.maximum (body tag) (bodyFormat tag) (V tag)) :
    Decodes replayFact.maximum (replayFact.decode (readTagged body)) replayFormat
      fun s a => V s.1 s.2 a := by
  have htagged : Parses replayFact.maximum (readHeader >>= body) replayFormat
      fun s a => V s.1 s.2 a :=
    parses_header.sigma h
  intro data a
  rw [RecordCodec.decode_eq_ok]
  apply and_congr_right
  intro hsize
  have hread : (∃ rest, readTagged body data = .ok (a, rest)) ↔
      (readHeader >>= body) data = .ok (a, []) := by
    constructor
    · rintro ⟨rest, h⟩
      obtain ⟨_, middle, hvalue, h⟩ := decode_bind_eq_ok.mp h
      obtain ⟨⟨⟩, _, hend, h⟩ := decode_bind_eq_ok.mp h
      obtain ⟨rfl, rfl⟩ := (Stream.requireEnd_eq_ok _).mp hend
      obtain ⟨-, rfl⟩ := Stream.pure_eq_ok.mp h
      exact hvalue
    · intro hvalue
      have hend := (Stream.requireEnd_eq_ok replayFact.stream (u := ())).mpr
        ⟨rfl, rfl⟩
      exact ⟨[], decode_bind_eq_ok.mpr ⟨a, [], hvalue,
        decode_bind_eq_ok.mpr ⟨(), [], hend, Stream.pure_eq_ok.mpr ⟨rfl, rfl⟩⟩⟩⟩
  rw [hread, htagged data hsize]
  simp only [List.append_nil]

theorem decodes_seed : Decodes replayFact.maximum (decodeReplaySeed X) replayFormat
    fun s batch => SpelledBody.DenotesSeed X s.1 s.2 batch :=
  decodes_tagged parses_seed

theorem decodes_fact : Decodes replayFact.maximum (decodeReplayFact X request) replayFormat
    fun s fact => SpelledBody.DenotesFact X request s.1 s.2 fact :=
  decodes_tagged parses_fact

end Parses

end ReplayCodec

end PkgApply.Transport
