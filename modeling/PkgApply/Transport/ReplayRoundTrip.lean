import PkgApply.Transport.EvidenceCodec
import PkgApply.Transport.ReplayCodec

/-!
# Round trip of replay facts

What the encoder writes reads back as what was encoded exactly when every list
keeps within the count limit, which only the decoder enforces.
-/

namespace PkgApply.Transport

open Library

namespace ReplayCodec

open RecordCodec

variable {X : Externals} {maximumEntryId : UInt64} {request : ApplicationRequest}

/-! ## What is written -/

section Writes

theorem writes_header (tag : ReplayTag) :
    Writes replayFact.maximum (appendHeader tag) (tagFormat.spell tag) := by
  have hmagic : Writes replayFact.maximum (encodeEach Stream.appendU8 replayMagic : Writing) _ :=
    writes_each fun byte _ => Stream.writes_u8 byte
  rw [List.flatMap_singleton'] at hmagic
  apply hmagic.bind
  apply (Stream.writes_u16 _).bind
  exact Stream.writes_coded replayTags tag

theorem writes_result (result : BackendOperationResult) :
    Writes replayFact.maximum (appendOperationResult result)
      (resultFormat.spell (spellResult result)) := by
  apply (Stream.writes_coded operationOutcomes _).bind
  exact writes_backendEvidence _ _

theorem writes_batch (batch : BackendObservationBatch) :
    Writes replayFact.maximum (appendObservationBatch batch)
      (batchFormat.spell (spellBatch batch)) := by
  apply (writes_list fun path _ => writes_path replayFact path).bind
  apply (writes_list fun o _ => writes_observation replayFact o).bind
  exact writes_backendEvidence _ _

theorem writes_pathDynamic (path : PathConsequence) :
    Writes replayFact.maximum (appendPathDynamic path)
      (dynamicPathFormat.spell (spellDynamicPath path)) := by
  apply (writes_path _ _).bind
  apply (Stream.writes_coded effectStatuses _).bind
  apply (Stream.writes_coded effectStatuses _).bind
  apply (writes_observation _ _).bind
  apply (writes_observation _ _).bind
  apply (writes_optional_id (writes_identity replayFact)).bind
  exact Stream.writes_coded publicationStatuses _

theorem writes_completedEvidence (evidence : EvidenceRecord) :
    Writes replayFact.maximum (appendCompletedEvidence X evidence)
      (dynamicEvidenceFormat.spell (spellDynamicEvidence X evidence)) := by
  apply (writes_typed _ _).bind
  apply (writes_typed _ _).bind
  apply (writes_typed _ _).bind
  apply (writes_typed _ _).bind
  apply (writes_list fun path _ => writes_pathDynamic path).bind
  apply (writes_durability _).bind
  exact writes_backendEvidence _ _

theorem writes_fact (fact : ReplayFactRecord) :
    Writes replayFact.maximum (appendFact X fact) (replayFormat.spell (spellFact X fact)) := by
  cases fact with
  | payloadSeal result => exact (writes_header _).bind (writes_result result)
  | capture result =>
    apply (writes_header _).bind
    apply (Stream.writes_coded operationOutcomes _).bind
    apply (writes_observation _ _).bind
    apply (Stream.writes_flag _).bind
    exact writes_backendEvidence _ _
  | rejectedEffect path result =>
    apply (writes_header _).bind
    apply (writes_path _ _).bind
    apply (Stream.writes_coded operationOutcomes _).bind
    apply (writes_optional_id (writes_identity replayFact)).bind
    exact writes_backendEvidence _ _
  | activeEffect path result =>
    apply (writes_header _).bind
    exact (writes_path _ _).bind (writes_result result)
  | recoveryEffect path result =>
    apply (writes_header _).bind
    exact (writes_path _ _).bind (writes_result result)
  | synchronization result => exact (writes_header _).bind (writes_durabilityFact result)
  | completedEvidence evidence => exact (writes_header _).bind (writes_completedEvidence evidence)

theorem encodes_seed : Encodes replayFact.maximum encodeReplaySeed replayFormat spellSeed
    fun _ => True := by
  intro batch data
  rw [true_and]
  exact replayFact.stream.finish_eq_ok ((writes_header _).bind (writes_batch batch))

theorem encodes_fact : Encodes replayFact.maximum (encodeReplayFact X) replayFormat (spellFact X)
    fun _ => True := by
  intro fact data
  rw [true_and]
  exact replayFact.stream.finish_eq_ok (writes_fact fact)

end Writes

/-! ## Round trip -/

section RoundTrip

theorem decode_encodeSeed_iff {batch : BackendObservationBatch} (h : SeedConstructed X batch)
    {data : List Byte} (hdata : encodeReplaySeed batch = .ok data) :
    decodeReplaySeed X data = .ok batch ↔ SeedWithin batch := by
  rw [← SpelledBatch.denotes_spell h]
  exact encodes_seed.decode_iff decodes_seed (.mono (validBelow_seed h) replayFact.maximum_lt) hdata

theorem decode_encodeFact_iff {fact : ReplayFactRecord}
    (h : FactConstructed X maximumEntryId request fact) {data : List Byte}
    (hdata : encodeReplayFact X fact = .ok data) :
    decodeReplayFact X request data = .ok fact ↔ FactWithin fact := by
  rw [← denotes_spellFact h]
  exact encodes_fact.decode_iff decodes_fact (.mono (validBelow_replayFact h)
    replayFact.maximum_lt) hdata

variable (X maximumEntryId request) in
/-- What the encoders give reads back as what was encoded exactly when its lists
keep within the count limit. -/
theorem decode_encodeReplay_iff :
    (∀ batch data, SeedConstructed X batch → encodeReplaySeed batch = .ok data →
      (decodeReplaySeed X data = .ok batch ↔ SeedWithin batch)) ∧
    ∀ fact data, FactConstructed X maximumEntryId request fact →
      encodeReplayFact X fact = .ok data →
        (decodeReplayFact X request data = .ok fact ↔ FactWithin fact) := by
  constructor
  · intro batch data h hdata
    exact decode_encodeSeed_iff h hdata
  · intro fact data h hdata
    exact decode_encodeFact_iff h hdata

end RoundTrip

/-! ## Facts of a removal -/

section Removal

open AdmittedApplication

/-- The first observation of the removal with this evidence. -/
def removalSeed (evidence : Evidence) : BackendObservationBatch :=
  { removalObservations with evidence := evidence }

def sealFact (evidence : Evidence) : ReplayFactRecord :=
  .payloadSeal ⟨.completed, evidence⟩

theorem constructed_removalSeed (evidence : Evidence) (h : evidence.card < 2 ^ 64) :
    SeedConstructed .reference (removalSeed evidence) where
  requested := by
    intro path hpath
    obtain rfl := List.mem_singleton.mp hpath
    rfl
  observations := by
    intro o ho
    obtain rfl := List.mem_singleton.mp ho
    exact EvidenceCodec.constructed_removalObservation
  size := (by decide : 1 < 2 ^ 64)
  evidence_size := h

theorem encode_removalSeed (evidence : Evidence) (h : evidence.card ≤ 3000000) :
    encodeReplaySeed (removalSeed evidence) =
      .ok (replayFormat.spell (spellSeed (removalSeed evidence))) := by
  have hmagic : replayMagic.length = 8 := by decide +kernel
  have hmaximum : replayFact.maximum = 268435456 := by decide
  have hpath : removalPath.bytes.length ≤ 100 := by decide +kernel
  have hobserved : (observationFormat.spell (spellObservation (.present removalObject))).length ≤
      500 := by
    decide +kernel
  have hlength : (replayFormat.spell (spellSeed (removalSeed evidence))).length ≤
      1000 + 82 * evidence.card := by
    simp [replayFormat, tagFormat, bodyFormat, batchFormat, identitiesFormat, spellSeed,
      spellBatch, removalSeed, removalObservations, Format.sigma, Format.via, Format.seq,
      Format.after, Format.text, Format.number, Format.coded, identityFormat, digestFormat,
      listFormat, Format.list, counted, hmagic, Function.comp_def] at hobserved ⊢
    omega
  rw [encodes_seed]
  exact ⟨trivial, rfl, by omega⟩

theorem encode_sealFact (evidence : Evidence) (h : evidence.card ≤ 3000000) :
    encodeReplayFact .reference (sealFact evidence) =
      .ok (replayFormat.spell (spellFact .reference (sealFact evidence))) := by
  have hmagic : replayMagic.length = 8 := by decide +kernel
  have hmaximum : replayFact.maximum = 268435456 := by decide
  have hlength : (replayFormat.spell (spellFact .reference (sealFact evidence))).length ≤
      1000 + 82 * evidence.card := by
    simp [replayFormat, tagFormat, bodyFormat, resultFormat, identitiesFormat, spellFact,
      spellResult, sealFact, Format.sigma, Format.via, Format.seq, Format.after, Format.text,
      Format.number, Format.coded, identityFormat, digestFormat, listFormat, Format.list, counted,
      hmagic, Function.comp_def]
    omega
  rw [encodes_fact]
  exact ⟨trivial, rfl, by omega⟩

theorem encode_completedFact :
    encodeReplayFact .reference (.completedEvidence (EvidenceCodec.removedEvidence {⟨30⟩})) =
      .ok (replayFormat.spell
        (spellFact .reference (.completedEvidence (EvidenceCodec.removedEvidence {⟨30⟩})))) := by
  rw [encodes_fact]
  exact ⟨trivial, rfl, by decide +kernel⟩

/-- The first observation, the sealed payload and the completed evidence of the
removal read back. -/
theorem decode_encodeReplay_removal :
    decodeReplaySeed .reference (replayFormat.spell (spellSeed (removalSeed {⟨3⟩}))) =
        .ok (removalSeed {⟨3⟩}) ∧
      decodeReplayFact .reference EvidenceCodec.removedRequest
        (replayFormat.spell (spellFact .reference (sealFact {⟨3⟩}))) = .ok (sealFact {⟨3⟩}) ∧
      decodeReplayFact .reference EvidenceCodec.removedRequest
        (replayFormat.spell
          (spellFact .reference (.completedEvidence (EvidenceCodec.removedEvidence {⟨30⟩})))) =
        .ok (.completedEvidence (EvidenceCodec.removedEvidence {⟨30⟩})) := by
  obtain ⟨hseed, hfact⟩ := decode_encodeReplay_iff .reference 0 EvidenceCodec.removedRequest
  constructor
  · apply (hseed _ _ (constructed_removalSeed _ (by decide)) (encode_removalSeed _ (by decide))).mpr
    exact ⟨(by decide : 1 ≤ maximumItemCount), (by decide : 1 ≤ maximumItemCount)⟩
  constructor
  · apply (hfact _ _ _ (encode_sealFact _ (by decide))).mpr
    · exact (by decide : 1 ≤ maximumItemCount)
    · exact (by decide : 1 < 2 ^ 64)
  · apply (hfact _ _ _ encode_completedFact).mpr
    · exact ⟨(by decide : 1 ≤ maximumItemCount), (by decide : 1 ≤ maximumItemCount)⟩
    · exact EvidenceCodec.constructed_removedEvidence 0 _ (by decide)

/-- The encoders write more evidence than the decoders read. -/
theorem decode_encodeReplay_refused :
    (∃ batch data, SeedConstructed .reference batch ∧ encodeReplaySeed batch = .ok data ∧
      decodeReplaySeed .reference data ≠ .ok batch) ∧
    ∃ fact data, FactConstructed .reference 0 EvidenceCodec.removedRequest fact ∧
      encodeReplayFact .reference fact = .ok data ∧
        decodeReplayFact .reference EvidenceCodec.removedRequest data ≠ .ok fact := by
  have hcard := card_manyEvidence
  have htoo : ¬manyEvidence.card ≤ maximumItemCount := by
    rw [hcard]
    decide
  constructor
  · have hseed := constructed_removalSeed manyEvidence (by omega)
    have hdata := encode_removalSeed manyEvidence (by omega)
    refine ⟨_, _, hseed, hdata, ?_⟩
    rw [Ne, decode_encodeSeed_iff hseed hdata]
    intro hwithin
    exact htoo hwithin.2
  · have hfact : FactConstructed .reference 0 EvidenceCodec.removedRequest
        (sealFact manyEvidence) := by
      change manyEvidence.card < 2 ^ 64
      omega
    have hdata := encode_sealFact manyEvidence (by omega)
    refine ⟨_, _, hfact, hdata, ?_⟩
    rw [Ne, decode_encodeFact_iff hfact hdata]
    exact htoo

end Removal

end ReplayCodec

end PkgApply.Transport
