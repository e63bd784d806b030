import PkgApply.Transport.RoundTrip
import PkgApply.Library.Stream

/-!
# What the transport codec reads and writes

The transport codec checks every write, but it accepts the same bytes as the
record codecs: each of its readers parses the format the other codec shares, and
each of its writers writes that format, within its count limits.
-/

namespace PkgApply.Transport

open Library

/-- The limit and the errors of the transport codec.  It has no signed numbers,
so it never raises their errors. -/
def transportStream {ε : Type} (raise : CodecError → ε) : Stream ε where
  maximum := maximumTransportEncodingSize
  maximum_lt := by decide
  skipsEmpty := true
  exceeded := raise sizeLimitError
  truncated := raise ⟨.truncated, "application journal transport encoding is truncated"⟩
  invalidFlag := raise ⟨.invalidValue,
    "application journal transport encoding contains an invalid boolean"⟩
  invalidSign := raise ⟨.invalidValue,
    "application journal transport encoding contains an invalid boolean"⟩
  integerRange := raise sizeLimitError
  textLimit := raise ⟨.limitExceeded,
    "application journal transport string exceeds its size limit"⟩
  trailing := raise ⟨.trailingData,
    "application journal transport encoding contains trailing data"⟩

namespace TransportCodec

/-! ## Readers -/

section Readers

/-- The errors of the reader. -/
def source : Stream DecodeFailure := transportStream .codec

/-- A guard in the middle of a reader. -/
theorem guard_eq {α : Type} {p : Prop} [Decidable p] {e : DecodeFailure} {k : Unit → Reader α} :
    (if p then throw e >>= k else k ()) = refuseWhen p e >>= k := by
  unfold refuseWhen
  split <;> rfl

/-- The readers of the transport codec are those of its stream. -/
theorem readBool_eq : readBool = source.readBool := by
  unfold readBool Stream.readBool Stream.readFlag
  simp only [← guard_eq]
  rfl

theorem readString_eq (bound : Nat) : readString bound = source.readString bound := by
  unfold readString Stream.readString
  simp only [← guard_eq]
  rfl

/-- A blob is a string with an error of its own. -/
theorem readBlob_eq : readBlob =
    { source with
      textLimit := .codec ⟨.limitExceeded,
        "application journal replay payload exceeds its size limit"⟩ }.readString
      maximumReplaySize := by
  unfold readBlob Stream.readString
  simp only [← guard_eq]
  rfl

theorem readCount_eq (bound : Nat) (description : String) :
    readCount bound description =
      source.readCount bound (.codec (countLimitError description)) := by
  unfold readCount Stream.readCount
  simp only [← guard_eq]
  rfl

variable {limit : Nat} {α σ : Type} {r : Reader α} {F : Format Byte σ} {V : σ → α → Prop}

/-- Magic bytes and versions are read exactly where they stand. -/
theorem expectMagic_eq_ok {magic input rest : List Byte} :
    expectMagic magic input = .ok ((), rest) ↔ input = magic ++ rest :=
  source.expect_eq_ok

theorem expectVersion_eq_ok {version : Nat} (h : version < 2 ^ 16) {message : String}
    {input rest : List Byte} :
    expectVersion version message input = .ok ((), rest) ↔
      input = bigEndian 2 version ++ rest :=
  source.expectU16_eq_ok h

theorem requireEnd_eq_ok {input rest : List Byte} {u : Unit} :
    requireEnd input = .ok (u, rest) ↔ input = [] ∧ rest = [] :=
  source.requireEnd_eq_ok

/-- A constructor reads nothing. -/
theorem construct_eq_ok {x : Except Exn α} {a : α} {input rest : List Byte} :
    construct x input = .ok (a, rest) ↔ rest = input ∧ x = .ok a := by
  cases x with
  | error e =>
    constructor
    · intro h
      cases h
    · rintro ⟨-, h⟩
      cases h
  | ok b =>
    rw [construct, Stream.pure_eq_ok, Except.ok.injEq, eq_comm (a := a)]

/-- Numbers, flags and replay payloads. -/
theorem parses_uint64 : Parses limit readU64 .uint64 fun n m => m = n.toNat :=
  source.parses_uint64

theorem parses_u64 : Parses limit readU64 (.number 8) Eq :=
  source.parses_u64

theorem parses_bool : Parses limit readBool .flag Eq := by
  rw [readBool_eq]
  exact source.parses_bool

theorem parses_blob : Parses maximumTransportEncodingSize readBlob .text Eq := by
  rw [readBlob_eq]
  exact Stream.parses_string _ (le_refl maximumReplaySize)

/-- A text within its limit, and what a parser makes of it. -/
theorem parses_parsed {bound : Nat} {parse : List Byte → Except Exn α} :
    Parses limit (do
      let text ← readString bound
      construct (parse text)) .text fun text a => parse text = .ok a ∧ text.length ≤ bound := by
  rw [readString_eq]
  have hstring : Parses limit (source.readString bound) .text _ :=
    source.parses_string_within bound
  have htext := hstring.then fun text _ (a : α) _ => construct_eq_ok (x := parse text)
  apply htext.iff
  intro text _ a
  constructor
  · rintro ⟨_, ⟨rfl, hsize⟩, hparse⟩
    exact ⟨hparse, hsize⟩
  · rintro ⟨hparse, hsize⟩
    exact ⟨text, ⟨rfl, hsize⟩, hparse⟩

/-- A digest is read back from its one text. -/
theorem parses_digestText : Parses limit readDigestText digestFormat Eq := by
  have htext : Parses limit readDigestText .text fun text digest =>
      parseDigest text = .ok digest ∧ text.length ≤ maximumDigestTextSize :=
    parses_parsed
  intro input hsize digest rest
  rw [htext input hsize]
  constructor
  · rintro ⟨text, -, rfl, hparse, -⟩
    obtain rfl := parseDigest_eq_ok.mp hparse
    exact ⟨digest, trivial, rfl, rfl⟩
  · rintro ⟨digest, -, rfl, rfl⟩
    refine ⟨digestText digest, ?_, rfl, parseDigest_text digest, ?_⟩
    · change (digestText digest).length < 256 ^ 8
      rw [length_digestText]
      decide
    · rw [length_digestText]
      decide

theorem parses_typed (domain : DigestDomain) :
    Parses limit (readTyped domain) (typedFormat domain) Eq := by
  apply Parses.as
  · exact parses_digestText.then fun _ _ _ _ => Stream.pure_eq_ok
  · rintro ⟨digest⟩ _ ⟨digest'⟩
    simp [eq_comm]

theorem parses_identity (kind : IdentityKind) :
    Parses limit (readIdentity kind) (identityFormat kind) Eq := by
  apply Parses.as
  · exact parses_digestText.then fun _ _ _ _ => Stream.pure_eq_ok
  · rintro ⟨digest⟩ _ ⟨digest'⟩
    simp [eq_comm]

/-- An identity of the planner is what its parser makes of a text. -/
theorem parses_planning {X : Externals} (kind : IdentityKind) :
    Parses limit (readPlanning X kind) .text X.ReadsPlanning :=
  parses_parsed

/-- A text within the limit of the encoding is within that of a path. -/
theorem parses_path {X : Externals} : Parses maximumTransportEncodingSize (readPath X) .text
    fun text path => X.parsePath text = .ok path := by
  intro input hsize path rest
  rw [readPath, parses_parsed input hsize]
  constructor
  · rintro ⟨text, hvalid, rfl, hparse, -⟩
    exact ⟨text, hvalid, rfl, hparse⟩
  · rintro ⟨text, hvalid, rfl, hparse⟩
    refine ⟨text, hvalid, rfl, hparse, ?_⟩
    simp only [Format.text, List.length_append] at hsize
    rw [maximumPathTextSize]
    omega

/-- A number of elements within its limit, the elements, and the rest. -/
theorem parses_counted {γ τ : Type} {bound : Nat} {description : String}
    {k : List α → Reader γ} {G : Format Byte τ} {W : List α → τ → γ → Prop}
    (h : Parses limit r F V) (hk : ∀ l, Parses limit (k l) G (W l)) :
    Parses limit (do
      let count ← readCount bound description
      let l ← decodeEach r count
      k l) ((listFormat F).seq G) fun p c =>
        ∃ l, (p.1.length ≤ bound ∧ List.Forall₂ V p.1 l) ∧ W l p.2 c := by
  rw [readCount_eq, ← bind_assoc]
  exact (Parses.list (source.parses_count bound _) h).bind hk

/-- A number of elements within its limit, the elements, and what is made of
them. -/
theorem parses_countedThen {γ : Type} {bound : Nat} {description : String} {k : List α → Reader γ}
    {K : List α → γ → Prop} (h : Parses limit r F V)
    (hk : ∀ l input c rest, k l input = .ok (c, rest) ↔ rest = input ∧ K l c) :
    Parses limit (do
      let count ← readCount bound description
      let l ← decodeEach r count
      k l) (listFormat F) fun ss c => ∃ l, (ss.length ≤ bound ∧ List.Forall₂ V ss l) ∧ K l c := by
  rw [readCount_eq, ← bind_assoc]
  exact (Parses.list (source.parses_count bound _) h).then hk

theorem parses_optional (h : Parses limit r F V) :
    Parses limit (decodeOptional readBool r) (optionalFormat F) (Option.Rel V) :=
  .optional rfl parses_bool h

/-- A byte that is matched against the enumerators' own. -/
theorem parses_enumeration (c : Codes α) {invalid : DecodeFailure} {f : Byte → Reader α}
    (hsome : ∀ a, f (c.code a) = pure a)
    (hnone : ∀ b : Byte, (∀ a ∈ c.all, b.val ≠ (c.code a).val) → f b = throw invalid) :
    Parses limit (readU8 >>= f) (.coded c) Eq := by
  have hread : readU8 >>= f = source.readCode c invalid := by
    apply congrArg (readU8 >>= ·)
    funext b
    cases hb : c.decode b with
    | some a =>
      obtain rfl := c.decode_eq_some.mp hb
      exact hsome a
    | none =>
      apply hnone
      intro a ha heq
      rw [c.decode_eq_some.mpr (Fin.ext heq)] at hb
      cases hb
  rw [hread]
  exact source.parses_code c invalid

/-- The enumerations, each by the bytes of its enumerators. -/
theorem parses_operationKind : Parses limit readOperationKind (.coded operationKinds) Eq := by
  apply parses_enumeration
  · intro kind
    cases kind <;> rfl
  · intro b hb
    simp [operationKinds, canonicalKind] at hb
    split <;> first | omega | rfl

theorem parses_completeness :
    Parses limit readProjectionCompleteness (.coded completenesses) Eq := by
  apply parses_enumeration
  · intro completeness
    cases completeness <;> rfl
  · intro b hb
    simp [completenesses, canonicalCompleteness] at hb
    split <;> first | omega | rfl

theorem parses_effectKind : Parses limit readEffectKind (.coded effectKinds) Eq := by
  apply parses_enumeration
  · intro kind
    cases kind <;> rfl
  · intro b hb
    simp [effectKinds, canonicalEffect] at hb
    split <;> first | omega | rfl

theorem parses_state : Parses limit readState (.coded journalStates) Eq := by
  apply parses_enumeration
  · intro state
    cases state <;> rfl
  · intro b hb
    simp [journalStates, canonicalState] at hb
    split <;> first | omega | rfl

theorem parses_eventKind : Parses limit readEventKind (.coded eventKinds) Eq := by
  apply parses_enumeration
  · intro kind
    cases kind <;> rfl
  · intro b hb
    simp [eventKinds, canonicalEvent] at hb
    split <;> first | omega | rfl

theorem parses_nonce : Parses limit readNonce nonceFormat Eq :=
  parses_nonceBytes source

end Readers

/-! ## Headers, effects and events -/

section Parses

variable {X : Externals}

/-- A path and its owners, which the constructor orders. -/
theorem parses_owners : Parses maximumTransportEncodingSize (readProjectedPathOwners X)
    ownersFormat (SpelledOwners.Denotes X) := by
  apply Parses.as
  · apply parses_path.bind
    intro path
    apply parses_countedThen (parses_planning _)
    intro owners input projected rest
    exact construct_eq_ok
  · intro s _ projected
    exact Iff.rfl

/-- A projection is read where its identity is that of its fields. -/
theorem parses_projection : Parses maximumTransportEncodingSize (readStateProjection X)
    projectionFormat (SpelledProjection.Denotes X) := by
  apply Parses.as
  · apply (parses_typed _).field
    intro expected
    apply Parses.after fun _ _ => expectVersion_eq_ok (by decide)
    apply (parses_identity _).field
    intro lease
    apply (parses_planning _).bind
    intro snapshot
    apply (parses_planning _).bind
    intro inventory
    apply parses_completeness.field
    intro completeness
    apply parses_counted parses_owners
    intro paths
    apply (parses_identity _).then (K := fun evidence projection =>
      makeStateProjection lease snapshot inventory completeness paths evidence = .ok projection ∧
        identifyProjection X projection = expected)
    intro evidence input projection rest
    simp only [decode_bind_eq_ok, construct_eq_ok]
    constructor
    · rintro ⟨made, _, ⟨rfl, hmade⟩, hrest⟩
      by_cases hidentity : identifyProjection X made ≠ expected
      · rw [if_pos hidentity] at hrest
        cases hrest
      · rw [if_neg hidentity] at hrest
        obtain ⟨rfl, rfl⟩ := Stream.pure_eq_ok.mp hrest
        exact ⟨rfl, hmade, not_not.mp hidentity⟩
    · rintro ⟨rfl, hmade, hidentity⟩
      refine ⟨projection, rest, ⟨rfl, hmade⟩, ?_⟩
      rw [if_neg (not_not.mpr hidentity)]
      rfl
  · intro s _ projection
    simp only [exists_eq_left']
    exact Iff.rfl

/-- Every field of a header, in the order of the encoding. -/
theorem parses_header : Parses maximumTransportEncodingSize (readHeader X) headerFormat
    (SpelledHeader.Denotes X) := by
  apply Parses.as
  · apply Parses.after fun _ _ => expectVersion_eq_ok (by decide)
    apply parses_operationKind.field
    intro kind
    apply (parses_identity _).field
    intro request
    apply (parses_planning _).bind
    intro plan
    apply Parses.after fun _ _ => expectVersion_eq_ok (by decide)
    apply parses_nonce.field
    intro nonce
    apply (parses_identity _).field
    intro target
    apply (parses_identity _).field
    intro control
    apply parses_projection.bind
    intro projection
    apply (parses_identity _).field
    intro lease
    apply (parses_identity _).then
    intro backend input header rest
    exact construct_eq_ok
  · intro s _ header
    simp only [exists_eq_left']
    exact Iff.rfl

/-- An effect has a path exactly where its kind requires one. -/
theorem parses_effect : Parses maximumTransportEncodingSize (readEffect X) effectFormat
    (SpelledEffect.Denotes X) := by
  apply Parses.as
  · apply parses_u64.field
    intro ordinal
    apply parses_effectKind.field
    intro kind
    apply (parses_optional parses_path).then
    intro path input effect rest
    exact construct_eq_ok
  · intro s _ effect
    exact Iff.rfl

/-- An event and the evidence its constructor accepts. -/
theorem parses_event :
    Parses maximumTransportEncodingSize readEvent eventFormat SpelledEvent.Denotes := by
  apply Parses.as
  · apply parses_uint64.bind
    intro sequence
    apply parses_eventKind.field
    intro kind
    apply (parses_typed _).field
    intro effect
    apply parses_countedThen (parses_identity _)
    intro evidence input event rest
    exact construct_eq_ok
  · intro s _ event
    simp only [List.forall₂_eq_eq_eq]
    constructor
    · rintro ⟨_, rfl, evidence, ⟨hcount, rfl⟩, hmade⟩
      rw [UInt64.ofNat_toNat] at hmade
      exact ⟨hcount, hmade⟩
    · rintro ⟨hcount, hmade⟩
      refine ⟨_, rfl, _, ⟨hcount, rfl⟩, ?_⟩
      rwa [UInt64.ofNat_toNat]

end Parses

/-! ## Writers -/

section Writes

variable {X : Externals} {α σ : Type} {F : Format Byte σ} {append : α → Writer} {spelled : α → σ}

/-- A checked write appends its bytes where they fit. -/
theorem writes_space (bytes : List Byte) : Writes maximumTransportEncodingSize
    (do requireSpace bytes.length; modify (· ++ bytes)) bytes where
  exact := by
    intro out out' h
    exact ((write_eq_ok bytes).mp h).1
  fits := by
    intro out hsize
    exact (write_eq_ok bytes).mpr ⟨rfl, hsize⟩

theorem writes_u8 (value : Byte) :
    Writes maximumTransportEncodingSize (appendU8 value) [value] :=
  writes_space [value]

/-- Nothing is written, and nothing checked, for no bytes. -/
theorem writes_bytes (bytes : List Byte) :
    Writes maximumTransportEncodingSize (appendBytes bytes) bytes := by
  unfold appendBytes
  by_cases hempty : bytes.length = 0
  · rw [if_pos hempty, List.length_eq_zero_iff.mp hempty]
    exact .nothing
  · rw [if_neg hempty]
    exact writes_space bytes

theorem writes_bigEndian (width value : Nat) : Writes maximumTransportEncodingSize
    (encodeEach appendU8 (bigEndian width value)) ((Format.number width).spell value) := by
  have h := writes_each fun byte (_ : byte ∈ bigEndian width value) => writes_u8 byte
  exact h.of_eq (List.flatMap_singleton' _)

theorem writes_u16 (value : Nat) : Writes maximumTransportEncodingSize (appendU16 value)
    ((Format.number 2).spell value) :=
  writes_bigEndian 2 value

theorem writes_u64 (value : Nat) : Writes maximumTransportEncodingSize (appendU64 value)
    ((Format.number 8).spell value) :=
  writes_bigEndian 8 value

theorem writes_string (value : List Byte) : Writes maximumTransportEncodingSize
    (appendString value) (Format.text.spell value) :=
  (writes_u64 _).bind (writes_bytes value)

theorem writes_blob (value : List Byte) : Writes maximumTransportEncodingSize
    (appendBlob value) (Format.text.spell value) :=
  (writes_u64 _).bind (writes_space value)

theorem writes_typed {domain : DigestDomain} (identity : TypedDigest domain) :
    Writes maximumTransportEncodingSize (appendTyped identity)
      ((typedFormat domain).spell identity) :=
  writes_string _

theorem writes_identity {kind : IdentityKind} (identity : Identity kind) :
    Writes maximumTransportEncodingSize (appendIdentity identity)
      ((identityFormat kind).spell identity) :=
  writes_string _

theorem writes_planning {kind : IdentityKind} (identity : Identity kind) :
    Writes maximumTransportEncodingSize (appendPlanning X identity)
      (Format.text.spell (X.planningText identity)) :=
  writes_string _

theorem writes_path (path : PackagePath) : Writes maximumTransportEncodingSize (appendPath path)
    (Format.text.spell path.bytes) :=
  writes_string _

/-- A count within its limit. -/
theorem writes_count {count bound : Nat} {l : List σ} (h : count ≤ bound)
    (hlength : l.length = count) (description : String) :
    Writes maximumTransportEncodingSize (appendCount count bound description)
      ((Format.number 8).spell l.length) := by
  unfold appendCount
  rw [if_neg (by omega), hlength]
  exact writes_u64 count

/-- Elements are written one after another. -/
theorem writes_elements {l : List α}
    (h : ∀ a ∈ l, Writes maximumTransportEncodingSize (append a) (F.spell (spelled a))) :
    Writes maximumTransportEncodingSize (encodeEach append l)
      ((l.map spelled).flatMap F.spell) := by
  rw [List.flatMap_map]
  exact writes_each h

theorem writes_optional {o : Option α} (h : ∀ a, o = some a →
      Writes maximumTransportEncodingSize (append a) (F.spell (spelled a))) :
    Writes maximumTransportEncodingSize (encodeOptional appendFlag append o)
      ((optionalFormat F).spell (o.map spelled)) := by
  have hflag (present : Bool) : Writes maximumTransportEncodingSize (appendFlag present)
      (Format.flag.spell present) :=
    writes_u8 _
  have hoptional := Library.writes_optional hflag h
  apply hoptional.of_eq
  cases o <;> rfl

theorem writes_optionalTyped {domain : DigestDomain} (o : Option (TypedDigest domain)) :
    Writes maximumTransportEncodingSize (encodeOptional appendFlag appendTyped o)
      ((optionalFormat (typedFormat domain)).spell o) := by
  have h := writes_optional fun identity (_ : o = some identity) => writes_typed identity
  rwa [Option.map_id'] at h

theorem writes_owners {projected : ProjectedPathOwners}
    (h : projected.owners.card ≤ maximumProjectionOwnerCount) :
    Writes maximumTransportEncodingSize (appendProjectedPathOwners X projected)
      (ownersFormat.spell (spellOwners X projected)) := by
  apply (writes_path _).bind
  apply (writes_count h (by simp [spellOwners]) _).bind
  exact writes_elements fun owner _ => writes_planning owner

/-- A projection is written where its paths and owners keep within the limits. -/
theorem writes_projection {projection : LeaseBoundStateProjection}
    (hpaths : projection.paths.length ≤ maximumProjectionPathCount)
    (howners : ∀ projected ∈ projection.paths,
      projected.owners.card ≤ maximumProjectionOwnerCount) :
    Writes maximumTransportEncodingSize (appendStateProjection X projection)
      (projectionFormat.spell (spellProjection X projection)) := by
  apply (writes_typed _).bind
  apply (writes_u16 _).bind
  apply (writes_identity _).bind
  apply (writes_planning _).bind
  apply (writes_planning _).bind
  apply (writes_u8 _).bind
  apply (writes_count hpaths (by simp [spellProjection]) _).pair
  · exact writes_elements fun projected hprojected => writes_owners (howners projected hprojected)
  · exact writes_identity _

/-- A header is as writable as its projection. -/
theorem writes_header {header : JournalHeader}
    (hpaths : header.stateProjection.paths.length ≤ maximumProjectionPathCount)
    (howners : ∀ projected ∈ header.stateProjection.paths,
      projected.owners.card ≤ maximumProjectionOwnerCount) :
    Writes maximumTransportEncodingSize (appendHeader X header)
      (headerFormat.spell (spellHeader X header)) := by
  apply (writes_u16 _).bind
  apply (writes_u8 _).bind
  apply (writes_identity _).bind
  apply (writes_planning _).bind
  apply (writes_u16 _).bind
  apply (writes_bytes _).bind
  apply (writes_identity _).bind
  apply (writes_identity _).bind
  apply (writes_projection hpaths howners).bind
  apply (writes_identity _).bind
  exact writes_identity _

theorem writes_effect (effect : JournalEffect) : Writes maximumTransportEncodingSize
    (appendEffect effect) (effectFormat.spell (spellEffect effect)) := by
  apply (writes_u64 _).bind
  apply (writes_u8 _).bind
  exact writes_optional fun path _ => writes_path path

/-- An event is written where its evidence keeps within the limit. -/
theorem writes_event {event : Event} (h : event.backendEvidence.card ≤ maximumEvidenceCount) :
    Writes maximumTransportEncodingSize (appendEvent event)
      (eventFormat.spell (spellEvent event)) := by
  apply (writes_u64 _).bind
  apply (writes_u8 _).bind
  apply (writes_typed _).bind
  apply (writes_count h (length_ascending _) _).bind
  exact writes_each fun identity _ => writes_identity identity

end Writes

end TransportCodec

end PkgApply.Transport
