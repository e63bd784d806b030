import PkgApply.Transport.ReceiptFormat

/-!
# Receipt codec

A receipt nests the encoding of its completed evidence, or spells what a failed
attempt leaves.  The decoder encodes what it read and compares the bytes, so
nothing a constructor normalises gets past it.
-/

namespace PkgApply.Transport

open Library

namespace ReceiptCodec

open RecordCodec EvidenceCodec

def receiptMagic : List Byte := ascii "ZLAPRCPT"

def refusal (code : RefusalCode) (message : String) : Failure :=
  RecordCodec.receipt.refusal code message

/-! ## Encoder -/

section Encoder

variable (X : Externals)

def appendBlob (value : List Byte) : Writing := do
  Stream.appendU64 value.length
  receipt.stream.appendBytes value

/-- The nested evidence, or what a failed attempt leaves. -/
def appendContent (r : ReceiptRecord) : Writing :=
  match r.completedEvidence with
  | some evidence =>
    match encodeCompletedApplicationEvidence X evidence with
    | .ok nested => appendBlob nested
    | .error failure => throw failure
  | none => do
    receipt.appendTyped r.attempt
    receipt.appendTyped r.stateProjection
    appendOptional receipt.appendTyped r.journal
    appendDurability r.durability
    appendList (receipt.appendConsequence X) r.paths

def appendBody (r : ReceiptRecord) : Writing := do
  Stream.appendU16 schemaVersion
  receipt.appendTyped (r.identity X)
  Stream.appendU8 (canonicalKind r.kind)
  receipt.appendIdentity r.request
  Stream.appendU8 (attemptOutcomes.code r.outcome)
  Stream.appendU8 (recoveryStates.code r.recovery)
  receipt.appendBackendEvidence r.backendEvidence
  Stream.appendFlag r.completedEvidence.isSome
  appendContent X r

def encodeApplicationReceipt (r : ReceiptRecord) : Except Failure (List Byte) :=
  receipt.encodeEnveloped X receiptMagic (appendBody X r)

end Encoder

/-! ## Decoder -/

section Decoder

variable (X : Externals) (maximumEntryId : UInt64) (request : ApplicationRequest)

def readBlob (maximum : Nat) : Reading (List Byte) := do
  let length ← receipt.stream.readU64
  refuseWhen (length > maximum)
    (refusal .limitExceeded "application-receipt nested record exceeds its size limit")
  let remaining ← get
  refuseWhen (length > remaining.length)
    (refusal .truncated "application-receipt nested record is truncated")
  receipt.stream.take length

/-- What the evidence codec refuses is an error of the receipt. -/
def nestedFailure : Failure → Failure
  | .refusal .completedEvidence _ message => refusal .completedEvidenceInvalid
      ("application receipt contains invalid completed evidence: " ++ message)
  | failure => failure

def decodeNested (nested : List Byte) : Reading EvidenceRecord :=
  match decodeCompletedApplicationEvidence X maximumEntryId request nested with
  | .ok evidence => return evidence
  | .error failure => throw (nestedFailure failure)

def readCompleted (outcome : AttemptOutcome) (recovery : RecoveryState)
    (backendEvidence : List BackendEvidenceIdentity) : Reading ReceiptRecord := do
  refuseWhen (outcome ≠ .completed)
    (refusal .invalidValue "non-completed receipt contains completed evidence")
  let nested ← readBlob completedEvidence.maximum
  let completed ← decodeNested X maximumEntryId request nested
  build (ReceiptRecord.completed completed recovery backendEvidence)

/-- The first decision whose path is not below, when it has the path. -/
def findDecision (path : PackagePath) : Reading PathDecision :=
  let found := (request.plan.paths.dropWhile fun d => d.path < path).head?
  match found.filter fun d => d.path = path with
  | some decision => return decision
  | none => throw (refusal .requestMismatch
      "application-receipt path is absent from the immutable plan")

def readFailedPath : Reading PathConsequence := do
  let path ← receipt.readPath X
  let decision ← findDecision request path
  receipt.readPathAfterName X maximumEntryId path decision

def readFailed (outcome : AttemptOutcome) (recovery : RecoveryState)
    (backendEvidence : List BackendEvidenceIdentity) : Reading ReceiptRecord := do
  refuseWhen (outcome = .completed)
    (refusal .invalidValue "completed receipt lacks completed evidence")
  let attempt ← receipt.readTyped .applicationAttempt
  let state ← receipt.readTyped .leaseBoundStateProjection
  let journal ← receipt.readOptional (receipt.readTyped .applicationJournal)
  let durability ← receipt.readDurability
  let paths ← receipt.readList maximumItemCount "application-receipt paths"
    (readFailedPath X maximumEntryId request)
  build (ReceiptRecord.failed request attempt state outcome recovery durability paths journal
    backendEvidence)

def readBody : Reading ReceiptRecord := do
  receipt.stream.expectU16 schemaVersion
    (refusal .unsupportedVersion "application receipt schema version is unsupported")
  let expected ← receipt.readTyped .applicationReceipt
  let kind ← receipt.stream.readCode operationKinds
    (refusal .invalidValue "application-receipt encoding has an invalid operation kind")
  let requestIdentity ← receipt.readIdentity .applicationRequest
  let outcome ← receipt.stream.readCode attemptOutcomes
    (refusal .invalidValue "application-receipt encoding has an invalid outcome")
  let recovery ← receipt.stream.readCode recoveryStates
    (refusal .invalidValue "application-receipt encoding has an invalid recovery state")
  let backendEvidence ← receipt.readBackendEvidence
  let hasCompleted ← receipt.stream.readBool
  refuseWhen (kind ≠ request.plan.kind ∨ requestIdentity ≠ request.identity)
    (refusal .requestMismatch "application receipt differs from the immutable request")
  receipt.translate "application receipt is invalid: " do
    let result ← match hasCompleted with
      | true => readCompleted X maximumEntryId request outcome recovery backendEvidence
      | false => readFailed X maximumEntryId request outcome recovery backendEvidence
    refuseWhen (result.identity X ≠ expected) (refusal .identityMismatch
      "application-receipt identity does not match its content")
    return result

/-- The receipt is encoded again, and the bytes must be those it was read from. -/
def requireCanonical (data : List Byte) (r : ReceiptRecord) : Reading Unit :=
  match encodeApplicationReceipt X r with
  | .ok canonical => refuseWhen (canonical ≠ data)
      (refusal .noncanonicalEncoding "application-receipt encoding is not canonical")
  | .error failure => throw failure

def decodeApplicationReceipt (data : List Byte) : Except Failure ReceiptRecord :=
  receipt.decode (receipt.translate "application-receipt encoding is invalid: " do
    let result ← receipt.readEnveloped X receiptMagic (readBody X maximumEntryId request)
    requireCanonical X data result
    return result) data

end Decoder

variable {X : Externals} {maximumEntryId : UInt64} {request : ApplicationRequest}

/-! ## What is read -/

/-- In ascending order the first element that is not below is the only one that
can be equal. -/
theorem head?_dropWhile_eq_find? (path : PackagePath) : ∀ {l : List PathDecision},
    (l.map PathDecision.path).Pairwise (· < ·) →
      ((l.dropWhile fun d => d.path < path).head?.filter fun d => d.path = path) =
        l.find? fun d => d.path == path
  | [], _ => rfl
  | d :: rest, h => by
    rw [List.map_cons, List.pairwise_cons] at h
    rcases lt_trichotomy d.path path with hlt | heq | hgt
    · simp only [List.dropWhile_cons, List.find?_cons, hlt, decide_true, if_true,
        beq_eq_false_iff_ne.mpr hlt.ne]
      exact head?_dropWhile_eq_find? path h.2
    · simp [heq]
    · have hnone : rest.find? (fun d => d.path == path) = none := by
        rw [List.find?_eq_none]
        intro d' hd'
        have habove := h.1 _ (List.mem_map_of_mem hd')
        simpa using (hgt.trans habove).ne'
      simp [hgt.not_gt, hgt.ne', hnone]

theorem findDecision_eq_ok {path : PackagePath} {input rest : List Byte} {d : PathDecision} :
    findDecision request path input = .ok (d, rest) ↔
      rest = input ∧ request.plan.decision path = some d := by
  have hfind := head?_dropWhile_eq_find? path request.plan.paths_sorted
  rw [findDecision, hfind, OperationPlan.decision]
  cases request.plan.paths.find? fun d => d.path == path with
  | none =>
    constructor
    · intro h
      cases h
    · rintro ⟨-, h⟩
      cases h
  | some d' =>
    rw [Stream.pure_eq_ok, Option.some.injEq]
    exact and_congr_right fun _ => eq_comm

theorem parses_blob (maximum : Nat) : Parses receipt.maximum (readBlob maximum) .text
    fun text nested => text = nested ∧ text.length ≤ maximum := by
  intro input hsize nested rest
  simp only [readBlob, decode_bind_eq_ok, refuseWhen_eq_ok, get_eq_ok, Stream.take_eq_ok, not_lt]
  constructor
  · rintro ⟨length, _, hlength, ⟨⟩, _, ⟨rfl, hle⟩, _, _, ⟨rfl, rfl⟩, ⟨⟩, _, ⟨rfl, -⟩, rfl, rfl⟩
    obtain ⟨_, hvalid, rfl, rfl⟩ := (receipt.stream.parses_u64 input hsize _ _).mp hlength
    exact ⟨nested, hvalid, (List.append_assoc ..).symm, rfl, hle⟩
  · rintro ⟨text, hvalid, rfl, rfl, hle⟩
    rw [Format.text, List.append_assoc] at hsize ⊢
    have hremaining : text.length ≤ (text ++ rest).length := by
      rw [List.length_append]
      omega
    exact ⟨text.length, _, (receipt.stream.parses_u64.read hvalid hsize).mpr rfl, (), _,
      ⟨rfl, hle⟩, _, _, ⟨rfl, rfl⟩, (), _, ⟨rfl, hremaining⟩, rfl, rfl⟩

theorem decodeNested_eq_ok {nested input rest : List Byte} {e : EvidenceRecord} :
    decodeNested X maximumEntryId request nested input = .ok (e, rest) ↔
      rest = input ∧ decodeCompletedApplicationEvidence X maximumEntryId request nested = .ok e := by
  unfold decodeNested
  cases decodeCompletedApplicationEvidence X maximumEntryId request nested with
  | ok e' =>
    rw [Stream.pure_eq_ok, Except.ok.injEq]
    exact and_congr_right fun _ => eq_comm
  | error failure =>
    constructor
    · intro h
      cases h
    · rintro ⟨-, h⟩
      cases h

section Parts

variable {outcome : AttemptOutcome} {recovery : RecoveryState}
  {evidence : List BackendEvidenceIdentity}

theorem parses_completed : Parses receipt.maximum
    (readCompleted X maximumEntryId request outcome recovery evidence) .text
    fun nested r => outcome = .completed ∧
      NestedDenotes X maximumEntryId request nested recovery evidence r := by
  apply Parses.iff
  · apply Parses.guard
    apply (parses_blob _).then (K := fun nested r =>
      ∃ e, decodeCompletedApplicationEvidence X maximumEntryId request nested = .ok e ∧
        ReceiptRecord.completed e recovery evidence = .ok r)
    intro nested input r rest
    simp only [decode_bind_eq_ok, decodeNested_eq_ok, build_eq_ok]
    constructor
    · rintro ⟨e, _, ⟨rfl, hdecode⟩, rfl, hcompleted⟩
      exact ⟨rfl, e, hdecode, hcompleted⟩
    · rintro ⟨rfl, e, hdecode, hcompleted⟩
      exact ⟨e, rest, ⟨rfl, hdecode⟩, rfl, hcompleted⟩
  · intro nested _ r
    rw [not_not]
    apply and_congr_right
    intro _
    constructor
    · rintro ⟨_, ⟨rfl, hsize⟩, h⟩
      exact ⟨hsize, h⟩
    · rintro ⟨hsize, h⟩
      exact ⟨nested, ⟨rfl, hsize⟩, h⟩

theorem parses_failedPath : Parses receipt.maximum (readFailedPath X maximumEntryId request)
    consequenceFormat (DenotesPlanned X maximumEntryId request) := by
  have hpath : Parses receipt.maximum (readFailedPath X maximumEntryId request) consequenceFormat _ :=
    parses_consequence (K := fun path d => request.plan.decision path = some d)
      fun _ _ _ _ => findDecision_eq_ok
  exact hpath

theorem parses_failed : Parses receipt.maximum
    (readFailed X maximumEntryId request outcome recovery evidence) failureFormat
    fun s r => outcome ≠ .completed ∧
      s.Denotes X maximumEntryId request outcome recovery evidence r := by
  apply Parses.guard (W := fun s r =>
    SpelledFailure.Denotes X maximumEntryId request s outcome recovery evidence r)
  apply Parses.as
  · apply (parses_typed _).field
    intro attempt
    apply (parses_typed _).field
    intro state
    apply (parses_optional (parses_typed _)).bind
    intro journal
    apply parses_durability.bind
    intro durability
    apply (parses_list parses_failedPath).then
    intro paths input r rest
    exact build_eq_ok
  · intro s _ r
    simp only [optionRel_eq_iff, exists_eq_left']
    constructor
    · rintro ⟨durability, hdurability, paths, hpaths, hfailed⟩
      exact ⟨durability, hdurability, paths, hpaths, hfailed⟩
    · rintro ⟨durability, hdurability, paths, hpaths, hfailed⟩
      exact ⟨durability, hdurability, paths, hpaths, hfailed⟩

end Parts

/-- What is checked of a made receipt. -/
theorem parses_identified {σ : Type} {F : Format Byte σ} {V : σ → ReceiptRecord → Prop}
    {read : Reading ReceiptRecord} {expected : TypedDigest .applicationReceipt}
    (h : Parses receipt.maximum read F V) :
    Parses receipt.maximum (receipt.translate "application receipt is invalid: " do
      let result ← read
      refuseWhen (result.identity X ≠ expected) (refusal .identityMismatch
        "application-receipt identity does not match its content")
      return result) F fun s r => V s r ∧ r.identity X = expected := by
  apply parses_translate
  apply Parses.iff
  · apply h.then (K := fun r r' => r = r' ∧ r.identity X = expected)
    intro r input r' rest
    simp only [decode_bind_eq_ok, refuseWhen_eq_ok, Stream.pure_eq_ok, not_not]
    constructor
    · rintro ⟨_, _, ⟨rfl, hidentity⟩, rfl, rfl⟩
      exact ⟨rfl, rfl, hidentity⟩
    · rintro ⟨rfl, rfl, hidentity⟩
      exact ⟨(), rest, ⟨rfl, hidentity⟩, rfl, rfl⟩
  · intro s _ r
    constructor
    · rintro ⟨_, hV, rfl, hidentity⟩
      exact ⟨hV, hidentity⟩
    · rintro ⟨hV, hidentity⟩
      exact ⟨r, hV, rfl, hidentity⟩

theorem parses_body : Parses receipt.maximum (readBody X maximumEntryId request) receiptFormat
    (SpelledReceipt.Denotes X maximumEntryId request) := by
  apply Parses.as
  · apply Parses.after fun _ _ => Stream.expectU16_eq_ok _ (by decide)
    apply (parses_typed _).field
    intro expected
    apply (Stream.parses_code _ _ _).field
    intro kind
    apply (parses_identity _).field
    intro requestIdentity
    apply (Stream.parses_code _ _ _).field
    intro outcome
    apply (Stream.parses_code _ _ _).field
    intro recovery
    apply parses_backendEvidence.bind
    intro backendEvidence
    apply Parses.either rfl receipt.stream.parses_bool
    · exact Parses.guard (parses_identified parses_completed)
    · exact Parses.guard (parses_identified parses_failed)
  · intro s _ r
    obtain ⟨identity, kind, requestIdentity, outcome, recovery, evidence, content⟩ := s
    cases content with
    | inl nested =>
      simp only [not_or, not_not]
      constructor
      · rintro ⟨_, ⟨rfl, hcount⟩, ⟨hkind, hrequest⟩, hmade, hidentity⟩
        exact ⟨hkind, hrequest, hcount, hmade, hidentity⟩
      · intro h
        exact ⟨_, ⟨rfl, h.evidence_count⟩, ⟨h.kind, h.requested⟩, h.made, h.identity⟩
    | inr failure =>
      simp only [not_or, not_not]
      constructor
      · rintro ⟨_, ⟨rfl, hcount⟩, ⟨hkind, hrequest⟩, hmade, hidentity⟩
        exact ⟨hkind, hrequest, hcount, hmade, hidentity⟩
      · intro h
        exact ⟨_, ⟨rfl, h.evidence_count⟩, ⟨h.kind, h.requested⟩, h.made, h.identity⟩

theorem requireCanonical_eq_ok {data input rest : List Byte} {r : ReceiptRecord} {u : Unit} :
    requireCanonical X data r input = .ok (u, rest) ↔
      rest = input ∧ encodeApplicationReceipt X r = .ok data := by
  unfold requireCanonical
  cases encodeApplicationReceipt X r with
  | ok canonical => rw [refuseWhen_eq_ok, not_not, Except.ok.injEq]
  | error failure =>
    constructor
    · intro h
      cases h
    · rintro ⟨-, h⟩
      cases h

/-- The decoder accepts exactly the spellings of the request's receipts that
their receipt is encoded as. -/
theorem decodes_receipt : Decodes receipt.maximum
    (decodeApplicationReceipt X maximumEntryId request) (envelopeFormat X receiptMagic receiptFormat)
    fun s r => s.Denotes X maximumEntryId request r ∧
      encodeApplicationReceipt X r = .ok ((envelopeFormat X receiptMagic receiptFormat).spell s) := by
  intro data r
  rw [decodeApplicationReceipt, RecordCodec.decode_eq_ok]
  apply and_congr_right
  intro hsize
  simp only [translate_eq_ok, decode_bind_eq_ok, readEnveloped_eq_ok parses_body hsize,
    requireCanonical_eq_ok, Stream.pure_eq_ok]
  constructor
  · rintro ⟨_, _, _, ⟨rfl, s, hs, hdata, hdenotes⟩, ⟨⟩, _, ⟨rfl, hencode⟩, rfl, rfl⟩
    exact ⟨s, hs, hdata, hdenotes, hdata ▸ hencode⟩
  · rintro ⟨s, hs, hdata, hdenotes, hencode⟩
    exact ⟨[], r, [], ⟨rfl, s, hs, hdata, hdenotes⟩, (), [], ⟨rfl, hdata ▸ hencode⟩, rfl, rfl⟩

/-! ## What is written -/

/-- The completed evidence, if any, fits its own encoding. -/
def EvidenceEncoded (X : Externals) (r : ReceiptRecord) : Prop :=
  ∀ e, r.completedEvidence = some e →
    encodeCompletedApplicationEvidence X e = .ok (spellNested X e)

theorem writes_content {r : ReceiptRecord} (h : EvidenceEncoded X r) :
    Writes receipt.maximum (do Stream.appendFlag r.completedEvidence.isSome; appendContent X r)
      ((Format.text.either failureFormat .flag Format.valid_flag).spell (spellReceipt X r).content) := by
  cases hcontent : r.completedEvidence with
  | some e =>
    simp only [appendContent, spellReceipt, hcontent, h e hcontent]
    exact (Stream.writes_flag true).bind (receipt.stream.writes_string (spellNested X e))
  | none =>
    simp only [appendContent, spellReceipt, hcontent]
    apply (Stream.writes_flag false).bind
    apply (writes_typed _ _).bind
    apply (writes_typed _ _).bind
    apply (writes_optional_id (writes_typed receipt)).bind
    apply (writes_durability _).bind
    exact writes_list fun path _ => writes_consequence _ _ path

theorem writes_body {r : ReceiptRecord} (h : EvidenceEncoded X r) :
    Writes receipt.maximum (appendBody X r) (receiptFormat.spell (spellReceipt X r)) := by
  apply (Stream.writes_u16 _).bind
  apply (writes_typed _ _).bind
  apply (Stream.writes_coded operationKinds _).bind
  apply (writes_identity _ _).bind
  apply (Stream.writes_coded attemptOutcomes _).bind
  apply (Stream.writes_coded recoveryStates _).bind
  apply (writes_backendEvidence _ _).bind
  exact writes_content h

/-- A receipt is only encoded with its completed evidence. -/
theorem evidenceEncoded_of_encode {r : ReceiptRecord} {data : List Byte}
    (h : encodeApplicationReceipt X r = .ok data) : EvidenceEncoded X r := by
  intro e he
  obtain ⟨bytes, hfinish, -⟩ := bind_eq_ok_iff.mp h
  obtain ⟨⟨⟨⟩, out⟩, hbody, -⟩ := bind_eq_ok_iff.mp hfinish
  simp only [appendBody, encode_bind_eq_ok, appendContent, he] at hbody
  obtain ⟨_, -, _, -, _, -, _, -, _, -, _, -, _, -, _, -, hcontent⟩ := hbody
  cases hnested : encodeCompletedApplicationEvidence X e with
  | error failure =>
    rw [hnested] at hcontent
    cases hcontent
  | ok nested =>
    obtain ⟨-, rfl, -⟩ := (encodes_evidence e nested).mp hnested
    rfl

/-- The encoder writes the canonical spelling of every receipt whose completed
evidence is encoded, when it fits the size limit. -/
theorem encodes_receipt : Encodes receipt.maximum (encodeApplicationReceipt X)
    (envelopeFormat X receiptMagic receiptFormat) (spellReceipt X) (EvidenceEncoded X) := by
  intro r data
  constructor
  · intro h
    have hencoded := evidenceEncoded_of_encode h
    exact ⟨hencoded, (encodeEnveloped_eq_ok (writes_body hencoded)).mp h⟩
  · rintro ⟨hencoded, h⟩
    exact (encodeEnveloped_eq_ok (writes_body hencoded)).mpr h

/-! ## Round trips -/

theorem decode_encodeReceipt_iff {r : ReceiptRecord}
    (h : ReceiptConstructed X maximumEntryId request r) {data : List Byte}
    (hdata : encodeApplicationReceipt X r = .ok data) :
    decodeApplicationReceipt X maximumEntryId request data = .ok r ↔ ReceiptWithin r := by
  have hvalid : (envelopeFormat X receiptMagic receiptFormat).ValidBelow (receipt.maximum + 1)
      (spellReceipt X r) :=
    .mono (validBelow_envelope (validBelow_receipt h)) receipt.maximum_lt
  have hspelled := ((encodes_receipt r data).mp hdata).2.1
  rw [encodes_receipt.decode_iff decodes_receipt hvalid hdata,
    ← SpelledReceipt.denotes_spell h (evidenceEncoded_of_encode hdata)]
  exact and_iff_left (hspelled ▸ hdata)

/-- What the encoders give for completed evidence and for a receipt of a request
reads back under the request exactly when no list is longer than the decoders
allow. -/
theorem decode_encode_iff (X : Externals) (maximumEntryId : UInt64)
    (request : ApplicationRequest) :
    (∀ e data, EvidenceConstructed X maximumEntryId request e →
      encodeCompletedApplicationEvidence X e = .ok data →
        (decodeCompletedApplicationEvidence X maximumEntryId request data = .ok e ↔
          EvidenceWithin e)) ∧
    (∀ r data, ReceiptConstructed X maximumEntryId request r →
      encodeApplicationReceipt X r = .ok data →
        (decodeApplicationReceipt X maximumEntryId request data = .ok r ↔ ReceiptWithin r)) := by
  constructor
  · intro e data he hdata
    exact decode_encodeEvidence_iff he hdata
  · intro r data hr hdata
    exact decode_encodeReceipt_iff hr hdata

/-- Accepted bytes are what the receipt is encoded as. -/
theorem encode_of_decode {data : List Byte} {r : ReceiptRecord}
    (h : decodeApplicationReceipt X maximumEntryId request data = .ok r) :
    encodeApplicationReceipt X r = .ok data := by
  obtain ⟨-, s, -, rfl, -, hencode⟩ := (decodes_receipt data r).mp h
  exact hencode

/-- Accepted bytes are what the receipt is encoded as, so no other bytes are
accepted as the same receipt, for any request. -/
theorem encode_decodeApplicationReceipt {data : List Byte} {r : ReceiptRecord}
    (h : decodeApplicationReceipt X maximumEntryId request data = .ok r) :
    encodeApplicationReceipt X r = .ok data ∧
      ∀ request' data', decodeApplicationReceipt X maximumEntryId request' data' = .ok r →
        data' = data := by
  have hencode := encode_of_decode h
  refine ⟨hencode, ?_⟩
  intro request' data' h'
  have hencode' := encode_of_decode h'
  rw [hencode, Except.ok.injEq] at hencode'
  exact hencode'.symm

/-! ## Receipts of a removal -/

section Removal

/-- The receipt of the completed removal, with this backend evidence. -/
def removedReceipt (evidence : Evidence) : ReceiptRecord where
  kind := .remove
  request := ⟨4⟩
  plan := ⟨2⟩
  attempt := ⟨20⟩
  target := ⟨6⟩
  control := ⟨5⟩
  stateProjection := ⟨21⟩
  outcome := .completed
  recovery := .unchanged
  durability := ⟨.confirmed, .confirmed, .confirmed, .confirmed, .confirmed, .confirmed⟩
  paths := [removedPath]
  journal := some ⟨22⟩
  completedEvidence := some (removedEvidence {⟨30⟩})
  backendEvidence := evidence

theorem constructed_removedReceipt (evidence : Evidence) (h : evidence.card < 2 ^ 64) :
    ReceiptConstructed .reference 0 removedRequest (removedReceipt evidence) where
  evidence_size := h
  made := by
    have he := constructed_removedEvidence 0 {⟨30⟩} (by decide)
    refine .inr ⟨removedEvidence {⟨30⟩}, ascending evidence, he, ?_⟩
    rw [receiptCompleted_eq_ok, toFinset_ascending]
    exact ⟨.inr rfl, nodup_ascending _, rfl⟩

theorem encode_removedEvidence (evidence : Evidence) (h : evidence.card ≤ 3000000) :
    encodeCompletedApplicationEvidence .reference (removedEvidence evidence) =
      .ok (spellNested .reference (removedEvidence evidence)) := by
  have hlength := length_spellRemoved (ascending evidence)
  rw [spellRemoved_ascending, length_ascending] at hlength
  have hmaximum : completedEvidence.maximum = 268435456 := by decide
  rw [encodes_evidence]
  exact ⟨trivial, rfl, by omega⟩

theorem length_spellReceipt (evidence : Evidence) :
    ((envelopeFormat .reference receiptMagic receiptFormat).spell
      (spellReceipt .reference (removedReceipt evidence))).length ≤ 3000 + 82 * evidence.card := by
  have hmagic : receiptMagic.length = 8 := by decide +kernel
  have hnested := length_spellRemoved (ascending {⟨30⟩})
  rw [spellRemoved_ascending, length_ascending] at hnested
  simp [envelopeFormat, envelope, receiptFormat, spellReceipt, removedReceipt, spellNested,
    Format.via, Format.seq, Format.after, Format.either, typedFormat, digestFormat, Format.text,
    Format.coded, identityFormat, listFormat, Format.list, Format.number, Format.flag, counted,
    hmagic, Function.comp_def] at hnested ⊢
  omega

theorem encode_removedReceipt (evidence : Evidence) (h : evidence.card ≤ 3000000) :
    encodeApplicationReceipt .reference (removedReceipt evidence) =
      .ok ((envelopeFormat .reference receiptMagic receiptFormat).spell
        (spellReceipt .reference (removedReceipt evidence))) := by
  have hlength := length_spellReceipt evidence
  have hmaximum : receipt.maximum = 536870912 := by decide
  rw [encodes_receipt]
  refine ⟨?_, rfl, by omega⟩
  intro e he
  obtain rfl := Option.some.inj he
  exact encode_removedEvidence _ (by decide)

theorem within_removedEvidence {evidence : Evidence} :
    EvidenceWithin (removedEvidence evidence) ↔ evidence.card ≤ maximumItemCount := by
  constructor
  · intro h
    exact h.backendEvidence
  · intro hcard
    constructor
    · exact (by decide : 1 ≤ maximumItemCount)
    · intro path hpath
      obtain rfl := List.mem_singleton.mp hpath
      exact (by decide : 1 ≤ maximumItemCount ∧ 0 ≤ maximumItemCount)
    · exact hcard

theorem within_removedReceipt {evidence : Evidence} :
    ReceiptWithin (removedReceipt evidence) ↔ evidence.card ≤ maximumItemCount := by
  constructor
  · intro h
    exact h.backendEvidence
  · intro hcard
    constructor
    · exact hcard
    · exact within_removedEvidence.mpr (by decide)

/-- The evidence and the receipt of the removal read back. -/
theorem decode_encode_removed :
    decodeCompletedApplicationEvidence .reference 0 removedRequest
        (spellNested .reference (removedEvidence {⟨30⟩})) = .ok (removedEvidence {⟨30⟩}) ∧
      decodeApplicationReceipt .reference 0 removedRequest
        ((envelopeFormat .reference receiptMagic receiptFormat).spell
          (spellReceipt .reference (removedReceipt {⟨31⟩}))) = .ok (removedReceipt {⟨31⟩}) := by
  obtain ⟨hevidence, hreceipt⟩ := decode_encode_iff .reference 0 removedRequest
  constructor
  · apply (hevidence _ _ (constructed_removedEvidence 0 _ (by decide))
      (encode_removedEvidence _ (by decide))).mpr
    exact within_removedEvidence.mpr (by decide)
  · apply (hreceipt _ _ (constructed_removedReceipt _ (by decide))
      (encode_removedReceipt _ (by decide))).mpr
    exact within_removedReceipt.mpr (by decide)

/-- The encoders write more evidence than the decoders read. -/
theorem decode_encode_refused :
    (∃ e data, EvidenceConstructed .reference 0 removedRequest e ∧
      encodeCompletedApplicationEvidence .reference e = .ok data ∧
        decodeCompletedApplicationEvidence .reference 0 removedRequest data ≠ .ok e) ∧
    (∃ r data, ReceiptConstructed .reference 0 removedRequest r ∧
      encodeApplicationReceipt .reference r = .ok data ∧
        decodeApplicationReceipt .reference 0 removedRequest data ≠ .ok r) := by
  have hcard := card_manyEvidence
  have htoo : ¬manyEvidence.card ≤ maximumItemCount := by
    rw [hcard]
    decide
  constructor
  · have he := constructed_removedEvidence 0 manyEvidence (by omega)
    have hdata := encode_removedEvidence manyEvidence (by omega)
    refine ⟨_, _, he, hdata, ?_⟩
    rw [Ne, decode_encodeEvidence_iff he hdata, within_removedEvidence]
    exact htoo
  · have hr := constructed_removedReceipt manyEvidence (by omega)
    have hdata := encode_removedReceipt manyEvidence (by omega)
    refine ⟨_, _, hr, hdata, ?_⟩
    rw [Ne, decode_encodeReceipt_iff hr hdata, within_removedReceipt]
    exact htoo

/-- The receipt of the removal is encoded as the bytes it was read from. -/
theorem encode_decodeApplicationReceipt_removed :
    encodeApplicationReceipt .reference (removedReceipt {⟨31⟩}) =
      .ok ((envelopeFormat .reference receiptMagic receiptFormat).spell
        (spellReceipt .reference (removedReceipt {⟨31⟩}))) := by
  have hr := constructed_removedReceipt {⟨31⟩} (by decide)
  have hdata := encode_removedReceipt {⟨31⟩} (by decide)
  have hdecode := (decode_encodeReceipt_iff hr hdata).mpr (within_removedReceipt.mpr (by decide))
  exact (encode_decodeApplicationReceipt hdecode).1

end Removal

end ReceiptCodec

end PkgApply.Transport
