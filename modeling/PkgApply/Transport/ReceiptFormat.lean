import PkgApply.Transport.EvidenceCodec

/-!
# Formats of receipts

A receipt spells its completed evidence as a nested encoding, or else what a
failed attempt leaves.  The paths of a failed attempt are read in any order, each
against the plan's decision at it.
-/

namespace PkgApply.Transport

open Library EvidenceCodec

/-! ## Constructors -/

section Constructors

variable {request : ApplicationRequest} {r : ReceiptRecord} {e : EvidenceRecord}
  {attempt : TypedDigest .applicationAttempt}
  {stateProjection : TypedDigest .leaseBoundStateProjection} {outcome : AttemptOutcome}
  {recovery : RecoveryState} {durability : DurabilityProfile} {paths : List PathConsequence}
  {journal : Option (TypedDigest .applicationJournal)} {evidence : List BackendEvidenceIdentity}

theorem receiptCompleted_eq_ok : ReceiptRecord.completed e recovery evidence = .ok r ↔
    (recovery = .recoveryAssetsRetained ∨ recovery = .unchanged) ∧ evidence.Nodup ∧
      r = ⟨e.kind, e.request, e.plan, e.attempt, e.target, e.control, e.stateProjection,
        .completed, recovery, e.durability, e.paths, some e.journal, some e,
        evidence.toFinset⟩ := by
  simp only [ReceiptRecord.completed, bind_eq_ok_iff, refuseIf_eq_ok,
    normalizeBackendEvidence_eq_ok, pure, Except.pure, Except.ok.injEq, not_and_or, not_not]
  constructor
  · rintro ⟨_, hrecovery, _, ⟨hnodup, rfl⟩, rfl⟩
    exact ⟨hrecovery, hnodup, rfl⟩
  · rintro ⟨hrecovery, hnodup, hr⟩
    exact ⟨(), hrecovery, _, ⟨hnodup, rfl⟩, hr.symm⟩

theorem receiptFailed_eq_ok :
    ReceiptRecord.failed request attempt stateProjection outcome recovery durability paths journal
      evidence = .ok r ↔
    normalizePaths paths = .ok r.paths ∧ validatePlanPaths request.plan r.paths false = .ok () ∧
      ReceiptRecord.validateFailedOutcome outcome recovery journal durability = .ok () ∧
      validateFailedPaths outcome r.paths = .ok () ∧ evidence.Nodup ∧
      r = ⟨request.plan.kind, request.identity, request.plan.identity, attempt, request.target,
        request.control.identity, stateProjection, outcome, recovery, durability, r.paths, journal,
        none, evidence.toFinset⟩ := by
  simp only [ReceiptRecord.failed, bind_eq_ok_iff, normalizeBackendEvidence_eq_ok, pure,
    Except.pure, Except.ok.injEq]
  constructor
  · rintro ⟨_, hpaths, _, hplan, _, houtcome, _, hfailed, _, ⟨hnodup, rfl⟩, rfl⟩
    exact ⟨hpaths, hplan, houtcome, hfailed, hnodup, rfl⟩
  · rintro ⟨hpaths, hplan, houtcome, hfailed, hnodup, hr⟩
    exact ⟨r.paths, hpaths, (), hplan, (), houtcome, (), hfailed, _, ⟨hnodup, rfl⟩, hr.symm⟩

/-- Made again from its own parts, a failed receipt is the same. -/
theorem receiptFailed_again
    (h : ReceiptRecord.failed request attempt stateProjection outcome recovery durability paths
      journal evidence = .ok r) :
    ReceiptRecord.failed request r.attempt r.stateProjection r.outcome r.recovery r.durability
      r.paths r.journal (ascending r.backendEvidence) = .ok r := by
  obtain ⟨hpaths, hplan, houtcome, hfailed, -, hr⟩ := receiptFailed_eq_ok.mp h
  rw [receiptFailed_eq_ok, toFinset_ascending]
  refine ⟨normalizePaths_of_pairwise (pairwise_of_normalizePaths hpaths), hplan, ?_, ?_,
    nodup_ascending _, ?_⟩
  · rw [hr]
    exact houtcome
  · rw [hr]
    exact hfailed
  · rw [hr]

/-- A failed receipt cannot report completion. -/
theorem ne_completed_of_failed
    (h : ReceiptRecord.failed request attempt stateProjection outcome recovery durability paths
      journal evidence = .ok r) : outcome ≠ .completed := by
  obtain ⟨-, -, houtcome, -⟩ := receiptFailed_eq_ok.mp h
  rintro rfl
  simp [ReceiptRecord.validateFailedOutcome, refuseIf, bind, Except.bind] at houtcome

end Constructors

/-! ## Receipts -/

/-- What a receipt without completed evidence spells. -/
structure SpelledFailure where
  attempt : TypedDigest .applicationAttempt
  stateProjection : TypedDigest .leaseBoundStateProjection
  journal : Option (TypedDigest .applicationJournal)
  durability : List DurabilityFact
  paths : List SpelledConsequence

structure SpelledReceipt where
  identity : TypedDigest .applicationReceipt
  kind : OperationKind
  request : ApplicationRequestIdentity
  outcome : AttemptOutcome
  recovery : RecoveryState
  backendEvidence : List BackendEvidenceIdentity
  content : List Byte ⊕ SpelledFailure

def failureFormat : Format Byte SpelledFailure :=
  ((typedFormat .applicationAttempt).seq ((typedFormat .leaseBoundStateProjection).seq
    ((optionalFormat (typedFormat .applicationJournal)).seq
      ((listFormat durabilityFactFormat).seq (listFormat consequenceFormat))))).via
    ⟨fun s => (s.attempt, s.stateProjection, s.journal, s.durability, s.paths),
      fun p => ⟨p.1, p.2.1, p.2.2.1, p.2.2.2.1, p.2.2.2.2⟩, fun _ => rfl, fun _ => rfl⟩

def receiptFormat : Format Byte SpelledReceipt :=
  (((typedFormat .applicationReceipt).seq ((Format.coded operationKinds).seq
    ((identityFormat .applicationRequest).seq ((Format.coded attemptOutcomes).seq
      ((Format.coded recoveryStates).seq ((listFormat (identityFormat .backendEvidence)).seq
        (Format.text.either failureFormat .flag Format.valid_flag))))))).after (bigEndian 2 schemaVersion)).via
    ⟨fun s => (s.identity, s.kind, s.request, s.outcome, s.recovery, s.backendEvidence, s.content),
      fun p => ⟨p.1, p.2.1, p.2.2.1, p.2.2.2.1, p.2.2.2.2.1, p.2.2.2.2.2.1, p.2.2.2.2.2.2⟩,
      fun _ => rfl, fun _ => rfl⟩

section Receipt

variable (X : Externals) (maximumEntryId : UInt64) (request : ApplicationRequest)

/-- A consequence at a path of the plan that repeats the decision there. -/
def DenotesPlanned (s : SpelledConsequence) (c : PathConsequence) : Prop :=
  s.Denotes X maximumEntryId c ∧
    ∃ d, request.plan.decision c.path = some d ∧ c.matchesDecision d = true

/-- What a decoder makes of the parts of a failed receipt under what precedes
them. -/
def SpelledFailure.Denotes (s : SpelledFailure) (outcome : AttemptOutcome)
    (recovery : RecoveryState) (evidence : List BackendEvidenceIdentity) (r : ReceiptRecord) :
    Prop :=
  ∃ durability, makeDurabilityProfile s.durability = .ok durability ∧
    ∃ paths, (s.paths.length ≤ maximumItemCount ∧
        List.Forall₂ (DenotesPlanned X maximumEntryId request) s.paths paths) ∧
      ReceiptRecord.failed request s.attempt s.stateProjection outcome recovery durability paths
        s.journal evidence = .ok r

/-- What a decoder makes of nested completed evidence. -/
def NestedDenotes (nested : List Byte) (recovery : RecoveryState)
    (evidence : List BackendEvidenceIdentity) (r : ReceiptRecord) : Prop :=
  nested.length ≤ RecordCodec.completedEvidence.maximum ∧
    ∃ e, decodeCompletedApplicationEvidence X maximumEntryId request nested = .ok e ∧
      ReceiptRecord.completed e recovery evidence = .ok r

structure SpelledReceipt.Denotes (s : SpelledReceipt) (r : ReceiptRecord) : Prop where
  kind : s.kind = request.plan.kind
  requested : s.request = request.identity
  evidence_count : s.backendEvidence.length ≤ maximumItemCount
  made : match s.content with
    | .inl nested => s.outcome = .completed ∧
        NestedDenotes X maximumEntryId request nested s.recovery s.backendEvidence r
    | .inr failure => s.outcome ≠ .completed ∧
        failure.Denotes X maximumEntryId request s.outcome s.recovery s.backendEvidence r
  identity : r.identity X = s.identity

/-- The encoding of completed evidence, whatever its size. -/
def spellNested (e : EvidenceRecord) : List Byte :=
  (envelopeFormat X evidenceMagic evidenceFormat).spell (spellEvidence X e)

def spellReceipt (r : ReceiptRecord) : SpelledReceipt :=
  ⟨r.identity X, r.kind, r.request, r.outcome, r.recovery, ascending r.backendEvidence,
    match r.completedEvidence with
    | some e => .inl (spellNested X e)
    | none => .inr ⟨r.attempt, r.stateProjection, r.journal, durabilityFacts r.durability,
        r.paths.map (spellConsequence X)⟩⟩

/-- A receipt of a failed attempt the source can construct for a request. -/
structure FailedConstructed (r : ReceiptRecord) : Prop where
  paths : ∀ path ∈ r.paths, ConsequenceConstructed X maximumEntryId path
  paths_size : r.paths.length < 2 ^ 64
  made : ∃ paths evidence, ReceiptRecord.failed request r.attempt r.stateProjection r.outcome
    r.recovery r.durability paths r.journal evidence = .ok r

/-- A receipt the source can construct for a request. -/
structure ReceiptConstructed (r : ReceiptRecord) : Prop where
  evidence_size : r.backendEvidence.card < 2 ^ 64
  made : FailedConstructed X maximumEntryId request r ∨
    ∃ e evidence, EvidenceConstructed X maximumEntryId request e ∧
      ReceiptRecord.completed e r.recovery evidence = .ok r

/-- No list of the receipt is longer than the decoders read. -/
structure ReceiptWithin (r : ReceiptRecord) : Prop where
  backendEvidence : r.backendEvidence.card ≤ maximumItemCount
  content : match r.completedEvidence with
    | some e => EvidenceWithin e
    | none => r.paths.length ≤ maximumItemCount ∧ ∀ path ∈ r.paths, OwnersWithin path

variable {X maximumEntryId request} {r : ReceiptRecord} {e : EvidenceRecord}

/-- The parts of a failed receipt are denoted by their spelling when there are
not too many paths and owners. -/
theorem SpelledFailure.denotes_spell (h : FailedConstructed X maximumEntryId request r) :
    SpelledFailure.Denotes X maximumEntryId request
      ⟨r.attempt, r.stateProjection, r.journal, durabilityFacts r.durability,
        r.paths.map (spellConsequence X)⟩ r.outcome r.recovery (ascending r.backendEvidence) r ↔
      r.paths.length ≤ maximumItemCount ∧ ∀ path ∈ r.paths, OwnersWithin path := by
  obtain ⟨paths, evidence, hmade⟩ := h.made
  obtain ⟨hnormal, hplan, -, -, -, -⟩ := receiptFailed_eq_ok.mp hmade
  have hagain := receiptFailed_again hmade
  constructor
  · rintro ⟨_, -, paths', ⟨hcount, hpaths⟩, hfailed⟩
    rw [List.length_map] at hcount
    refine ⟨hcount, ?_⟩
    intro path hpath
    have howners := forall_left (p := fun s => s.beforeOwners.length ≤ maximumItemCount ∧
      s.afterOwners.length ≤ maximumItemCount) hpaths
      (fun _ _ hs => ⟨hs.1.beforeOwners.1, hs.1.afterOwners.1⟩) _ (List.mem_map_of_mem hpath)
    simpa [spellConsequence, OwnersWithin] using howners
  · rintro ⟨hcount, howners⟩
    refine ⟨r.durability, makeDurabilityProfile_eq_ok.mpr (List.Perm.refl _), r.paths, ⟨?_, ?_⟩,
      hagain⟩
    · rwa [List.length_map]
    · apply forall₂_spelled
      intro path hpath
      have hmatches := (validatePlanPaths_eq_ok.mp hplan).2 path hpath
      exact ⟨(SpelledConsequence.denotes_spell (h.paths path hpath)).mpr (howners path hpath),
        hmatches⟩

/-- Nested evidence is denoted by its spelling when its lists keep within the
limit. -/
theorem nestedDenotes_spell {evidence : List BackendEvidenceIdentity}
    (h : EvidenceConstructed X maximumEntryId request e)
    (hencode : encodeCompletedApplicationEvidence X e = .ok (spellNested X e))
    (hr : ReceiptRecord.completed e r.recovery evidence = .ok r) :
    NestedDenotes X maximumEntryId request (spellNested X e) r.recovery
      (ascending r.backendEvidence) r ↔ EvidenceWithin e := by
  obtain ⟨hrecovery, -, hr⟩ := receiptCompleted_eq_ok.mp hr
  have hsome : r.completedEvidence = some e := by rw [hr]
  have hnested := decode_encodeEvidence_iff h hencode
  constructor
  · rintro ⟨-, e', hdecode, hcompleted⟩
    obtain ⟨-, -, hr'⟩ := receiptCompleted_eq_ok.mp hcompleted
    have hsome' : r.completedEvidence = some e' := by rw [hr']
    rw [hsome, Option.some.injEq] at hsome'
    rw [← hsome'] at hdecode
    exact hnested.mp hdecode
  · intro hwithin
    have hdecode := hnested.mpr hwithin
    refine ⟨((decodes_evidence _ _).mp hdecode).1, e, hdecode, ?_⟩
    rw [receiptCompleted_eq_ok, toFinset_ascending]
    refine ⟨hrecovery, nodup_ascending _, ?_⟩
    rw [hr]

/-- A constructed receipt whose evidence is encoded is denoted by its spelling
when its lists keep within the limit. -/
theorem SpelledReceipt.denotes_spell (h : ReceiptConstructed X maximumEntryId request r)
    (hencode : ∀ e, r.completedEvidence = some e →
      encodeCompletedApplicationEvidence X e = .ok (spellNested X e)) :
    (spellReceipt X r).Denotes X maximumEntryId request r ↔ ReceiptWithin r := by
  rcases h.made with hfailed | ⟨e, evidence, he, hcompleted⟩
  · have hparts := SpelledFailure.denotes_spell hfailed
    obtain ⟨paths, evidence, hmade⟩ := hfailed.made
    obtain ⟨-, -, -, -, -, hr⟩ := receiptFailed_eq_ok.mp hmade
    have hnone : r.completedEvidence = none := by rw [hr]
    constructor
    · intro hdenotes
      have hmade := hdenotes.made
      have hcount := hdenotes.evidence_count
      simp only [spellReceipt, hnone] at hmade hcount
      constructor
      · rwa [length_ascending] at hcount
      · rw [hnone]
        exact hparts.mp hmade.2
    · intro hwithin
      have hcontent := hwithin.content
      rw [hnone] at hcontent
      constructor
      · rw [spellReceipt, hr]
      · rw [spellReceipt, hr]
      · rw [spellReceipt, length_ascending]
        exact hwithin.backendEvidence
      · simp only [spellReceipt, hnone]
        exact ⟨ne_completed_of_failed hmade, hparts.mpr hcontent⟩
      · rfl
  · obtain ⟨-, -, hr⟩ := receiptCompleted_eq_ok.mp hcompleted
    have hsome : r.completedEvidence = some e := by rw [hr]
    have hnested := nestedDenotes_spell he (hencode e hsome) hcompleted
    constructor
    · intro hdenotes
      have hmade := hdenotes.made
      have hcount := hdenotes.evidence_count
      simp only [spellReceipt, hsome] at hmade hcount
      constructor
      · rwa [length_ascending] at hcount
      · rw [hsome]
        exact hnested.mp hmade.2
    · intro hwithin
      have hcontent := hwithin.content
      rw [hsome] at hcontent
      obtain ⟨paths, evidence, hmade⟩ := he.made
      obtain ⟨-, -, -, -, -, he⟩ := evidenceMake_eq_ok.mp hmade
      constructor
      · rw [spellReceipt, hr, he]
      · rw [spellReceipt, hr, he]
      · rw [spellReceipt, length_ascending]
        exact hwithin.backendEvidence
      · simp only [spellReceipt, hsome]
        exact ⟨by rw [hr], hnested.mpr hcontent⟩
      · rfl

theorem validBelow_receipt (h : ReceiptConstructed X maximumEntryId request r) :
    receiptFormat.ValidBelow (2 ^ 64) (spellReceipt X r) := by
  apply Format.ValidBelow.via
  apply Format.ValidBelow.after
  refine .seq (.of_mem trivial) ?_
  refine .seq (.of_mem trivial) ?_
  refine .seq (.of_mem trivial) ?_
  refine .seq (.of_mem trivial) ?_
  refine .seq (.of_mem trivial) ?_
  apply Format.ValidBelow.seq
  · apply validBelow_identities
    simpa [spellReceipt] using h.evidence_size
  rcases h.made with hfailed | ⟨e, evidence, -, hcompleted⟩
  · obtain ⟨paths, evidence, hmade⟩ := hfailed.made
    obtain ⟨-, -, -, -, -, hr⟩ := receiptFailed_eq_ok.mp hmade
    have hnone : r.completedEvidence = none := by rw [hr]
    simp only [spellReceipt, hnone]
    apply Format.ValidBelow.right
    apply Format.ValidBelow.via
    refine .seq (.of_mem trivial) ?_
    refine .seq (.of_mem trivial) ?_
    refine .seq (.of_mem fun _ _ => trivial) ?_
    apply Format.ValidBelow.seq
    · exact .of_mem ⟨(by decide : 6 < 256 ^ 8), fun _ _ => ⟨trivial, trivial⟩⟩
    · apply validBelow_list
      · simpa using hfailed.paths_size
      · intro spelled hspelled
        obtain ⟨path, hpath, rfl⟩ := List.mem_map.mp hspelled
        exact validBelow_consequence (hfailed.paths path hpath)
  · obtain ⟨-, -, hr⟩ := receiptCompleted_eq_ok.mp hcompleted
    have hsome : r.completedEvidence = some e := by rw [hr]
    simp only [spellReceipt, hsome]
    exact Format.ValidBelow.left (validBelow_text _)

end Receipt

end PkgApply.Transport
