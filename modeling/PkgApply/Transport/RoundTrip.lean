import PkgApply.Transport.Limits
import PkgApply.Transport.Formats

/-!
# The transport codec reads what it writes

Every writer of the codec agrees with its reader, so a value whose encoder
returns bytes is what the decoder makes of those bytes.
-/

namespace PkgApply.Transport

open Library

variable {X : Externals}

/-! ## Bytes -/

/-- Bytes are taken back off the front. -/
theorem take_append (bytes rest : List Byte) :
    take bytes.length (bytes ++ rest) = .ok (bytes, rest) := by
  have hrequire : require bytes.length (bytes ++ rest) = .ok ((), bytes ++ rest) := by
    simp only [require, bind, StateT.bind, get, getThe, MonadStateOf.get, StateT.get, pure,
      Except.pure, Except.bind, List.length_append, gt_iff_lt]
    rw [if_neg (by omega)]
    rfl
  rw [take, decode_bind hrequire]
  change Except.ok ((bytes ++ rest).take bytes.length, (bytes ++ rest).drop bytes.length) = _
  rw [List.take_left, List.drop_left]

/-- A checked write is read back by its length. -/
theorem agree_write (bytes : List Byte) :
    Agree (do requireSpace bytes.length; modify (· ++ bytes) : Writer) (take bytes.length) bytes := by
  intro out out' h
  obtain ⟨rfl, -⟩ := (write_eq_ok _).mp h
  exact ⟨bytes, rfl, take_append bytes⟩

theorem agree_u8 (value : Byte) : Agree (appendU8 value) readU8 value := by
  intro out out' h
  obtain ⟨rfl, -⟩ := (write_eq_ok [value]).mp h
  exact ⟨[value], rfl, fun rest => rfl⟩

/-- Bytes that are written fit the encoding. -/
theorem appendBytes_eq_ok {bytes out out' : List Byte}
    (h : appendBytes bytes out = .ok ((), out')) :
    out' = out ++ bytes ∧ bytes.length ≤ maximumTransportEncodingSize := by
  unfold appendBytes at h
  by_cases hempty : bytes.length = 0
  · rw [if_pos hempty] at h
    obtain rfl := List.length_eq_zero_iff.mp hempty
    cases h
    exact ⟨(List.append_nil _).symm, Nat.zero_le _⟩
  · rw [if_neg hempty] at h
    obtain ⟨hout, hsize⟩ := (write_eq_ok _).mp h
    exact ⟨hout, by omega⟩

theorem agree_bytes (bytes : List Byte) : Agree (appendBytes bytes) (take bytes.length) bytes := by
  intro out out' h
  exact ⟨bytes, (appendBytes_eq_ok h).1, take_append bytes⟩

/-! ## Numbers -/

theorem agree_bigEndian (width n : Nat) :
    Agree (encodeEach appendU8 (bigEndian width n)) (decodeEach readU8 width)
      (bigEndian width n) := by
  have h := agree_each id fun value (_ : value ∈ bigEndian width n) => agree_u8 value
  rwa [length_bigEndian, List.map_id] at h

/-- Numbers are read back while they fit their width. -/
theorem agree_u16 {n : Nat} (h : n < 2 ^ 16) : Agree (appendU16 n) readU16 n := by
  apply (agree_bigEndian 2 n).then
  intro rest
  rw [ofBigEndian_bigEndian_of_lt h]
  rfl

theorem agree_u64 {n : Nat} (h : n < 2 ^ 64) : Agree (appendU64 n) readU64 n := by
  apply (agree_bigEndian 8 n).then
  intro rest
  rw [ofBigEndian_bigEndian_of_lt h]
  rfl

theorem agree_flag (value : Bool) : Agree (appendFlag value) readBool value := by
  cases value
  · exact (agree_u8 0).then fun _ => rfl
  · exact (agree_u8 1).then fun _ => rfl

theorem agree_version (version : Nat) (h : version < 2 ^ 16) (message : String) :
    Agree (appendU16 version) (expectVersion version message) () := by
  apply (agree_u16 h).then
  intro rest
  simp only [ne_eq, not_true_eq_false, ite_false]
  rfl

theorem agree_magic (magic : List Byte) :
    Agree (appendBytes magic) (expectMagic magic) () := by
  apply (agree_bytes magic).then
  intro rest
  simp only [ne_eq, not_true_eq_false, ite_false]
  rfl

/-! ## Sized fields -/

theorem lt_of_le_maximum {n : Nat} (h : n ≤ maximumTransportEncodingSize) : n < 2 ^ 64 :=
  lt_of_le_of_lt h (by decide)

/-- A text is read back under any limit the encoding does not exceed. -/
theorem agree_string {value : List Byte} {maximum : Nat}
    (h : value.length ≤ maximumTransportEncodingSize → value.length ≤ maximum) :
    Agree (appendString value) (readString maximum) value := by
  apply Agree.of_encoded (p := value.length ≤ maximumTransportEncodingSize)
  · intro out out' hw
    obtain ⟨middle, -, hbytes⟩ := encode_bind_eq_ok.mp hw
    exact (appendBytes_eq_ok hbytes).2
  · intro hsize
    apply (agree_u64 (lt_of_le_maximum hsize)).bind
    rw [if_neg (by have := h hsize; omega)]
    exact agree_bytes value

theorem agree_blob (value : List Byte) : Agree (appendBlob value) readBlob value := by
  apply Agree.of_encoded (p := value.length ≤ maximumTransportEncodingSize)
  · intro out out' hw
    obtain ⟨middle, -, hbytes⟩ := encode_bind_eq_ok.mp hw
    have := ((write_eq_ok _).mp hbytes).2
    omega
  · intro hsize
    apply (agree_u64 (lt_of_le_maximum hsize)).bind
    rw [if_neg (show ¬value.length > maximumReplaySize by unfold maximumReplaySize; omega)]
    exact agree_write value

/-- A count is read back under the limit it was written under. -/
theorem agree_count {count maximum : Nat} (hmaximum : maximum < 2 ^ 64) (description : String) :
    Agree (appendCount count maximum description) (readCount maximum description) count := by
  unfold appendCount
  by_cases h : count > maximum
  · rw [if_pos h]
    exact .of_refused fun out out' hw => by cases hw
  · rw [if_neg h]
    apply (agree_u64 (by omega : count < 2 ^ 64)).then
    intro rest
    rw [if_neg h]
    rfl

/-! ## Identities and paths -/

/-- A digest is read back from its text. -/
theorem agree_digestText (digest : BitVec 256) :
    Agree (appendDigestText digest) readDigestText digest := by
  have hsize : (digestText digest).length ≤ maximumDigestTextSize := by
    rw [length_digestText]
    decide
  apply (agree_string fun _ => hsize).then
  intro rest
  rw [parseDigest_text]
  rfl

theorem agree_typed {domain : DigestDomain} (identity : TypedDigest domain) :
    Agree (appendTyped identity) (readTyped domain) identity :=
  (agree_digestText identity.digest).then fun _ => rfl

theorem agree_identity {kind : IdentityKind} (identity : Identity kind) :
    Agree (appendIdentity identity) (readIdentity kind) identity :=
  (agree_digestText identity.digest).then fun _ => rfl

theorem agree_planning {kind : IdentityKind} (identity : Identity kind) :
    Agree (appendPlanning X identity) (readPlanning X kind) identity := by
  apply (agree_string fun _ => X.length_planningText identity).then
  intro rest
  rw [X.parsePlanning_text]
  rfl

/-- A path is read back where its parser accepts it. -/
theorem agree_path {path : PackagePath} (h : X.IsPath path) :
    Agree (appendPath path) (readPath X) path := by
  apply (agree_string fun hsize => hsize).then
  intro rest
  obtain ⟨text, htext⟩ := h.parsed
  rw [X.parsePath_bytes htext]
  rfl

theorem readEach_append (bytes rest : List Byte) :
    decodeEach readU8 bytes.length (bytes ++ rest) = .ok (bytes, rest) := by
  induction bytes with
  | nil => rfl
  | cons byte bytes ih =>
    change decodeEach readU8 (bytes.length + 1) (byte :: (bytes ++ rest)) = _
    have hbyte : readU8 (byte :: (bytes ++ rest)) = .ok (byte, bytes ++ rest) := rfl
    rw [decodeEach, decode_bind hbyte, decode_bind ih]
    rfl

theorem agree_nonce (nonce : AttemptNonce) :
    Agree (appendBytes (digestBytes nonce)) readNonce nonce := by
  intro out out' h
  refine ⟨_, (appendBytes_eq_ok h).1, fun rest => ?_⟩
  have hread := readEach_append (digestBytes nonce) rest
  rw [length_digestBytes] at hread
  rw [readNonce, decode_bind hread, ofBigEndian_digestBytes]
  rfl

theorem agree_optionalTyped {domain : DigestDomain} (identity : Option (TypedDigest domain)) :
    Agree (encodeOptional appendFlag appendTyped identity)
      (decodeOptional readBool (readTyped domain)) identity := by
  have h := agree_optional id agree_flag fun a (_ : identity = some a) => agree_typed a
  rwa [Option.map_id] at h

/-! ## Enumerations -/

/-- Each enumerator has a byte of its own. -/
theorem agree_operationKind (kind : OperationKind) :
    Agree (appendU8 (canonicalKind kind)) readOperationKind kind := by
  cases kind <;> exact (agree_u8 _).then fun _ => rfl

theorem agree_completeness (completeness : StateProjectionCompleteness) :
    Agree (appendU8 (canonicalCompleteness completeness)) readProjectionCompleteness
      completeness := by
  cases completeness <;> exact (agree_u8 _).then fun _ => rfl

theorem agree_effectKind (kind : EffectKind) :
    Agree (appendU8 (canonicalEffect kind)) readEffectKind kind := by
  cases kind <;> exact (agree_u8 _).then fun _ => rfl

theorem agree_state (state : JournalState) :
    Agree (appendU8 (canonicalState state)) readState state := by
  cases state <;> exact (agree_u8 _).then fun _ => rfl

theorem agree_eventKind (kind : EventKind) :
    Agree (appendU8 (canonicalEvent kind)) readEventKind kind := by
  cases kind <;> exact (agree_u8 _).then fun _ => rfl

/-! ## Headers -/

/-- A set is read back as its ascending list. -/
theorem agree_ascending {α : Type} [LinearOrder α] {append : α → Writer} {read : Reader α}
    (h : ∀ a, Agree (append a) read a) (s : Finset α) :
    Agree (encodeEach append (ascending s)) (decodeEach read s.card) (ascending s) := by
  have heach := agree_each id fun a (_ : a ∈ ascending s) => h a
  rwa [length_ascending, List.map_id] at heach

theorem agree_projectedPathOwners {path : ProjectedPathOwners} (h : X.IsPath path.path) :
    Agree (appendProjectedPathOwners X path) (readProjectedPathOwners X) path := by
  apply (agree_path h).bind
  apply (agree_count (by decide) ownerCountText).bind
  apply (agree_ascending agree_planning path.owners).then
  intro rest
  rw [makeProjectedPathOwners_ascending]
  rfl

/-- A projection passes the check of its own identity. -/
theorem agree_stateProjection {projection : LeaseBoundStateProjection}
    (h : ∀ path ∈ projection.paths, X.IsPath path.path) :
    Agree (appendStateProjection X projection) (readStateProjection X) projection := by
  have hpaths := agree_each id fun path hpath => agree_projectedPathOwners (h path hpath)
  rw [List.map_id] at hpaths
  apply (agree_typed _).bind
  apply (agree_version schemaVersion (by decide) _).bind
  apply (agree_identity _).bind
  apply (agree_planning _).bind
  apply (agree_planning _).bind
  apply (agree_completeness _).bind
  apply (agree_count (by decide) pathCountText).bind
  apply hpaths.bind
  apply (agree_identity _).then
  intro rest
  rw [makeStateProjection_eq]
  simp only [construct, pure_bind, ne_eq, not_true_eq_false, ite_false]
  rfl

/-- A header its constructor makes is made again from its fields. -/
theorem agree_header {header : JournalHeader} (hmake : header.make = .ok header)
    (h : ∀ path ∈ header.stateProjection.paths, X.IsPath path.path) :
    Agree (appendHeader X header) (readHeader X) header := by
  have hattempt : (⟨header.request, header.target, header.backend, header.attempt.nonce⟩ :
      ApplicationAttempt) = header.attempt := by
    simp only [JournalHeader.make, refuseIf_bind_eq_ok, not_not, ne_eq] at hmake
    obtain ⟨hrequest, htarget, hbackend, -⟩ := hmake
    rw [← hrequest, ← htarget, ← hbackend]
  apply (agree_version schemaVersion (by decide) _).bind
  apply (agree_operationKind _).bind
  apply (agree_identity _).bind
  apply (agree_planning _).bind
  apply (agree_version schemaVersion (by decide) _).bind
  apply (agree_nonce _).bind
  apply (agree_identity _).bind
  apply (agree_identity _).bind
  apply (agree_stateProjection h).bind
  apply (agree_identity _).bind
  apply (agree_identity _).then
  intro rest
  rw [hattempt, hmake]
  rfl

/-! ## Declarations -/

theorem agree_effect {effect : JournalEffect} (h : EffectFits X effect) :
    Agree (appendEffect effect) (readEffect X) effect := by
  have hpath := agree_optional id agree_flag fun path hpath => agree_path (h.path path hpath)
  rw [Option.map_id] at hpath
  apply (agree_u64 h.ordinal).bind
  apply (agree_effectKind _).bind
  apply hpath.then
  intro rest
  simp only [id_eq, makeEffect, effect.path_iff, dite_true]
  rfl

/-- A constructed declaration is read back with its identity. -/
theorem agree_declaration {declaration : Declaration} (h : declaration.Constructed X) :
    Agree (appendDeclaration X declaration) (readDeclaration X)
      (declaration.identity X, .ok declaration) := by
  have heffects := agree_each id fun effect heffect => agree_effect (h.effects effect heffect)
  rw [List.map_id] at heffects
  apply (agree_magic declarationMagic).bind
  apply (agree_version encodingVersion (by decide) _).bind
  apply (agree_version schemaVersion (by decide) _).bind
  apply (agree_typed _).bind
  apply (agree_header h.header h.paths).bind
  apply (agree_count (by decide) effectCountText).bind
  apply heffects.bind
  apply (agree_blob _).then
  intro rest
  rw [h.made]
  rfl

/-! ## Steps -/

theorem agree_event (event : Event) : Agree (appendEvent event) readEvent event := by
  have hmake : Event.make (.ofNat event.sequence.toNat) event.kind event.effect
      (ascending event.backendEvidence) = .ok event := by
    simp [Event.make, nodup_ascending, refuseIf, bind, Except.bind, pure, Except.pure]
  apply (agree_u64 event.sequence.toNat_lt).bind
  apply (agree_eventKind _).bind
  apply (agree_typed _).bind
  apply (agree_count (by decide) evidenceCountText).bind
  apply (agree_ascending agree_identity event.backendEvidence).then
  intro rest
  rw [hmake]
  rfl

/-- Every step is constructed, so every step is read back. -/
theorem agree_step (step : Step) :
    Agree (appendStep X step) readStep (step.identity X, .ok step) := by
  have hevent := agree_optional id agree_flag
    fun event (_ : step.event = some event) => agree_event event
  rw [Option.map_id] at hevent
  have hmake : Step.make step.declaration (.ofNat step.sequence.toNat) step.predecessor step.state
      step.event step.replayFact step.receipt step.completedEvidence = .ok step := by
    simp only [Step.make, UInt64.ofNat_toNat, step.predecessor_iff, dite_true]
    rw [dif_pos step.evidence_receipt]
  apply (agree_magic stepMagic).bind
  apply (agree_version encodingVersion (by decide) _).bind
  apply (agree_version schemaVersion (by decide) _).bind
  apply (agree_typed _).bind
  apply (agree_typed _).bind
  apply (agree_u64 step.sequence.toNat_lt).bind
  apply (agree_optionalTyped _).bind
  apply (agree_state _).bind
  apply hevent.bind
  apply (agree_blob _).bind
  apply (agree_optionalTyped _).bind
  apply (agree_optionalTyped _).then
  intro rest
  rw [id_eq, hmake]
  rfl

/-! ## Cursors -/

/-- A cursor is read back before its checks. -/
theorem agree_cursor (cursor : Cursor) :
    Agree (appendCursor X cursor) readCursor (cursor.identity X, cursor) := by
  apply (agree_magic cursorMagic).bind
  apply (agree_version encodingVersion (by decide) _).bind
  apply (agree_version schemaVersion (by decide) _).bind
  apply (agree_typed _).bind
  apply (agree_typed _).bind
  apply (agree_u64 cursor.stepCount.toNat_lt).bind
  apply (agree_optionalTyped _).bind
  apply (agree_state _).bind
  apply (agree_optionalTyped _).bind
  apply (agree_optionalTyped _).then
  intro rest
  rw [UInt64.ofNat_toNat]
  rfl

/-- A cursor counts the steps it advanced over, as long as the count fits. -/
theorem Reaches.stepCount {declaration : Declaration} {steps : List Step} {cursor : Cursor}
    (h : Reaches X declaration steps cursor) : cursor.stepCount = .ofNat steps.length := by
  induction h with
  | initial h =>
    obtain rfl := Cursor.initial_eq_ok_iff.mp h
    rfl
  | advance hsteps h ih =>
    obtain ⟨-, rfl⟩ := Cursor.advance_eq_ok_iff.mp h
    rw [List.length_append, List.length_singleton, UInt64.ofNat_add, ← ih]
    rfl

/-- A reached cursor passes the checks of its decoder. -/
theorem Reaches.restore {declaration : Declaration} {steps : List Step} {cursor : Cursor}
    (h : Reaches X declaration steps cursor) (hsteps : steps.length < 2 ^ 64) :
    (cursor.stepCount = 0 ↔ cursor.latestStep = none) ∧ cursor.restore = .ok cursor := by
  have hcount := h.stepCount
  cases h with
  | initial h =>
    obtain rfl := Cursor.initial_eq_ok_iff.mp h
    exact ⟨by simp, rfl⟩
  | @advance before current _ step hbefore h =>
    obtain ⟨-, rfl⟩ := Cursor.advance_eq_ok_iff.mp h
    have hne : current.stepCount + 1 ≠ 0 := by
      intro hzero
      have htoNat := congrArg UInt64.toNat (hcount.symm.trans hzero)
      rw [UInt64.toNat_ofNat_of_lt' hsteps, List.length_append, List.length_singleton] at htoNat
      cases htoNat
    have hevidence : ¬(step.completedEvidence.isSome ∧ step.receipt.isNone) := by
      rintro ⟨hcompleted, hnone⟩
      have hreceipt := step.evidence_receipt hcompleted
      cases hstep : step.receipt <;> simp_all
    refine ⟨by simp [hne], ?_⟩
    unfold Cursor.restore
    rw [refuseIf_bind_of_not (by simp [hne]), refuseIf_bind_of_not (by simp [hne]),
      refuseIf_bind_of_not hevidence]
    rfl

/-! ## Round trips -/

/-- What an encoder returns is what it wrote, within the limit. -/
theorem finish_eq_ok {output : Writer} {bytes : List Byte} (h : finish output = .ok bytes) :
    output [] = .ok ((), bytes) ∧ bytes.length ≤ maximumTransportEncodingSize := by
  unfold finish at h
  cases hw : output [] with
  | error e => simp [hw, bind, Except.bind] at h
  | ok p =>
    by_cases hsize : p.2.length > maximumTransportEncodingSize
    · simp [hw, hsize, bind, Except.bind] at h
    · simp only [hw, hsize, bind, Except.bind, pure, Except.pure, ite_false,
        Except.ok.injEq] at h
      subst h
      exact ⟨rfl, by omega⟩

/-- A decoder that reads a whole encoding and ends in a value. -/
theorem decode_eq_ok {α γ : Type} {output : Writer} {input : Reader α} {a : α}
    {k : α → Reader γ} {c : γ} {bytes : List Byte} (hagree : Agree output input a)
    (hk : k a [] = .ok (c, [])) (h : finish output = .ok bytes) :
    decode (input >>= k) bytes = .ok c := by
  obtain ⟨hw, hsize⟩ := finish_eq_ok h
  have hread : (input >>= k) bytes = .ok (c, []) := (decode_bind (hagree.run hw)).trans hk
  unfold decode
  rw [if_neg (by omega), hread]
  rfl

theorem decodeDeclaration_encode {declaration : Declaration} {bytes : List Byte}
    (hdeclaration : declaration.Constructed X) (h : encodeDeclaration X declaration = .ok bytes) :
    decodeDeclaration X bytes = .ok declaration := by
  apply decode_eq_ok (agree_declaration hdeclaration) _ h
  simp only [construct, pure_bind, ne_eq, not_true_eq_false, ite_false]
  rfl

theorem decodeStep_encode {step : Step} {bytes : List Byte} (h : encodeStep X step = .ok bytes) :
    decodeStep X bytes = .ok step := by
  apply decode_eq_ok (agree_step step) _ h
  simp only [construct, pure_bind, ne_eq, not_true_eq_false, ite_false]
  rfl

theorem decodeCursor_encode {declaration : Declaration} {steps : List Step} {cursor : Cursor}
    {bytes : List Byte} (hreaches : Reaches X declaration steps cursor)
    (hsteps : steps.length < 2 ^ 64) (h : encodeCursor X cursor = .ok bytes) :
    decodeCursor X bytes = .ok cursor := by
  obtain ⟨hcount, hrestore⟩ := hreaches.restore hsteps
  apply decode_eq_ok (agree_cursor cursor) _ h
  simp only [hcount, hrestore, construct, pure_bind, ne_eq, not_true_eq_false, ite_false]
  rfl

/-- **The codec round trip.**  Whenever the encoder returns bytes for a
declaration the source can construct, for a step, or for a cursor reached from
the initial one by fewer than `2 ^ 64 - 1` advances, the decoder accepts those
bytes and returns that value, with its identity. -/
theorem codec_round_trip (X : Externals) :
    (∀ (declaration : Declaration) (bytes : List Byte), declaration.Constructed X →
      encodeDeclaration X declaration = .ok bytes →
        ∃ decoded, decodeDeclaration X bytes = .ok decoded ∧ decoded = declaration ∧
          decoded.identity X = declaration.identity X) ∧
    (∀ (step : Step) (bytes : List Byte), encodeStep X step = .ok bytes →
      ∃ decoded, decodeStep X bytes = .ok decoded ∧ decoded = step ∧
        decoded.identity X = step.identity X) ∧
    ∀ (declaration : Declaration) (steps : List Step) (cursor : Cursor) (bytes : List Byte),
      Reaches X declaration steps cursor → steps.length < 2 ^ 64 - 1 →
        encodeCursor X cursor = .ok bytes →
          ∃ decoded, decodeCursor X bytes = .ok decoded ∧ decoded = cursor ∧
            decoded.identity X = cursor.identity X := by
  refine ⟨?_, ?_, ?_⟩
  · intro declaration bytes hdeclaration h
    exact ⟨declaration, decodeDeclaration_encode hdeclaration h, rfl, rfl⟩
  · intro step bytes h
    exact ⟨step, decodeStep_encode h, rfl, rfl⟩
  · intro declaration steps cursor bytes hreaches hsteps h
    exact ⟨cursor, decodeCursor_encode hreaches (by omega) h, rfl, rfl⟩

/-! ## The journal of one published object -/

section Published

open TransportCodec

/-- The object is published, with what the backend evidenced and a fact. -/
def toolPublished : Step where
  declaration := toolIdentity
  sequence := 2
  predecessor := some ⟨0x5817ef2166f33662cb715cf843c19d4c50a8ef0be0c37f0bb957c93fe3c2a922⟩
  state := .mutating
  event := some ⟨1, .completed,
    ⟨0x1e1a549c38805eff0cac6b13aae44814560780bff354342f7d0fd48ea038e228⟩,
    {⟨countingDigest 11⟩, ⟨countingDigest 12⟩}⟩
  replayFact := [0xff, 0x00, 0x80]
  receipt := none
  completedEvidence := none
  predecessor_iff := by decide
  evidence_receipt := unevidenced

/-- The cursor once the object is published. -/
def toolPublishedCursor : Cursor :=
  ⟨toolIdentity, 3, some ⟨0x33d9e92a4696260f8d6217631af4c84270bbce2dc189552a73e10267075ecc0d⟩,
    .mutating, none, none⟩

private theorem reaches_toolPublished : Reaches .reference toolDeclaration
    [toolPrepared, toolIntent ∅, toolPublished] toolPublishedCursor := by
  have hidentities : (toolIntent ∅).identity .reference =
        ⟨0x5817ef2166f33662cb715cf843c19d4c50a8ef0be0c37f0bb957c93fe3c2a922⟩ ∧
      toolPublished.identity .reference =
        ⟨0x33d9e92a4696260f8d6217631af4c84270bbce2dc189552a73e10267075ecc0d⟩ := by
    constructor <;> decide +kernel
  have hintended : Cursor.advance .reference toolCursor (toolIntent ∅) = .ok
      ⟨toolIdentity, 2, some ⟨0x5817ef2166f33662cb715cf843c19d4c50a8ef0be0c37f0bb957c93fe3c2a922⟩,
        .mutating, none, none⟩ := by
    rw [Cursor.advance_eq_ok_iff, hidentities.1]
    exact ⟨by decide, rfl⟩
  have hpublished : Cursor.advance .reference
      ⟨toolIdentity, 2, some ⟨0x5817ef2166f33662cb715cf843c19d4c50a8ef0be0c37f0bb957c93fe3c2a922⟩,
        .mutating, none, none⟩ toolPublished = .ok toolPublishedCursor := by
    rw [Cursor.advance_eq_ok_iff, hidentities.2]
    exact ⟨by decide, rfl⟩
  exact .advance (.advance reaches_toolCursor hintended) hpublished

/-- The journal of one published object is read back. -/
theorem codec_round_trip_tool :
    (∃ bytes, encodeDeclaration .reference toolDeclaration = .ok bytes ∧
      decodeDeclaration .reference bytes = .ok toolDeclaration) ∧
    (∃ bytes, encodeStep .reference toolPublished = .ok bytes ∧
      decodeStep .reference bytes = .ok toolPublished) ∧
    ∃ bytes, encodeCursor .reference toolPublishedCursor = .ok bytes ∧
      decodeCursor .reference bytes = .ok toolPublishedCursor := by
  refine ⟨?_, ?_, ?_⟩
  · have hcounts : toolDeclaration.WithinCounts := by constructor <;> decide +kernel
    obtain ⟨bytes, h, -⟩ := encodeDeclaration_ok (X := .reference) hcounts (by decide +kernel)
    obtain ⟨_, hdecoded, rfl, -⟩ :=
      (codec_round_trip .reference).1 toolDeclaration bytes constructed_toolDeclaration h
    exact ⟨bytes, h, hdecoded⟩
  · have hcounts : ∀ event, toolPublished.event = some event →
        event.backendEvidence.card ≤ maximumEvidenceCount := by
      intro event hevent
      cases hevent
      decide
    obtain ⟨bytes, h, -⟩ := encodeStep_ok (X := .reference) hcounts (by decide +kernel)
    obtain ⟨_, hdecoded, rfl, -⟩ := (codec_round_trip .reference).2.1 toolPublished bytes h
    exact ⟨bytes, h, hdecoded⟩
  · obtain ⟨bytes, h, -⟩ := encodeCursor_ok (X := .reference) toolPublishedCursor
    obtain ⟨_, hdecoded, rfl, -⟩ := (codec_round_trip .reference).2.2 toolDeclaration
      [toolPrepared, toolIntent ∅, toolPublished] toolPublishedCursor bytes reaches_toolPublished
      (by decide) h
    exact ⟨bytes, h, hdecoded⟩

end Published

end PkgApply.Transport
