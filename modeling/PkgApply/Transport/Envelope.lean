import PkgApply.Transport.Records

/-!
# Envelopes

Completed evidence and receipts put a body behind a magic, a version, the
body's size and its SHA-256.  A decoder compares all four with what it finds
before it reads the body, so an envelope leaves a body its one spelling.
-/

namespace PkgApply.Transport

open Library

variable {α σ : Type}

def envelope (X : Externals) (magic body : List Byte) : List Byte :=
  magic ++ (bigEndian 2 encodingVersion ++ (bigEndian 8 body.length ++
    (digestBytes (X.sha256 body) ++ body)))

def envelopeFormat (X : Externals) (magic : List Byte) (F : Format Byte σ) : Format Byte σ where
  spell s := envelope X magic (F.spell s)
  valid := {s | s ∈ F.valid ∧ (F.spell s).length < 256 ^ 8}
  delimited := by
    intro s hs s' hs' x y h
    simp only [envelope, List.append_assoc, List.append_cancel_left_eq] at h
    obtain ⟨-, h⟩ := delimitedOn_bigEndian 8 _ hs.2 _ hs'.2 _ _ h
    have hlength : (digestBytes (X.sha256 (F.spell s))).length =
        (digestBytes (X.sha256 (F.spell s'))).length := by
      rw [length_digestBytes, length_digestBytes]
    exact F.delimited s hs.1 s' hs'.1 _ _ (List.append_inj h hlength).2

theorem validBelow_envelope {X : Externals} {magic : List Byte} {F : Format Byte σ} {s : σ}
    (h : F.ValidBelow (2 ^ 64) s) : (envelopeFormat X magic F).ValidBelow (2 ^ 64) s := by
  intro hsize
  have hbody : (F.spell s).length < 2 ^ 64 := by
    simp only [envelopeFormat, envelope, List.length_append] at hsize
    omega
  exact ⟨h hbody, hbody⟩

namespace RecordCodec

variable (codec : RecordCodec) (X : Externals) (magic : List Byte)

/-! ## Encoder and decoder -/

/-- The body is finished first, so its size and its digest are known. -/
def encodeEnveloped (body : Writing) : Except Failure (List Byte) := do
  let bytes ← codec.stream.finish body
  codec.stream.finish do
    codec.stream.appendBytes magic
    Stream.appendU16 encodingVersion
    Stream.appendU64 bytes.length
    codec.stream.appendBytes (digestBytes (X.sha256 bytes))
    codec.stream.appendBytes bytes

/-- Everything in front of the body. -/
def readEnvelope : Reading Unit := do
  codec.stream.expect magic
    (codec.refusal .invalidMagic (codec.subject ++ " encoding has invalid magic"))
  codec.stream.expectU16 encodingVersion
    (codec.refusal .unsupportedVersion (codec.subject ++ " encoding version is unsupported"))
  let declared ← codec.stream.readU64
  refuseWhen (declared > codec.maximum)
    (codec.refusal .limitExceeded (codec.subject ++ " body exceeds the size limit"))
  let checksum ← decodeEach codec.stream.readU8 32
  let remaining ← get
  refuseWhen (declared > remaining.length)
    (codec.refusal .truncated (codec.subject ++ " body is truncated"))
  refuseWhen (declared < remaining.length) codec.stream.trailing
  refuseWhen (digestBytes (X.sha256 remaining) ≠ checksum)
    (codec.refusal .checksumMismatch (codec.subject ++ " checksum does not match its content"))

def readEnveloped (body : Reading α) : Reading α := do
  codec.readEnvelope X magic
  let result ← body
  codec.stream.requireEnd
  return result

variable {codec X magic} {F : Format Byte σ} {V : σ → α → Prop}

/-! ## What is read -/

theorem get_eq_ok {input l rest : List Byte} :
    (get : Coder Byte Failure (List Byte)) input = .ok (l, rest) ↔ l = input ∧ rest = input := by
  change Except.ok (input, input) = Except.ok (l, rest) ↔ _
  rw [Except.ok.injEq, Prod.mk.injEq, eq_comm, eq_comm (a := input) (b := rest)]

/-- What an envelope leaves is the whole body it was made for. -/
theorem readEnvelope_eq_ok {input body : List Byte} (hsize : input.length ≤ codec.maximum) :
    codec.readEnvelope X magic input = .ok ((), body) ↔ input = envelope X magic body := by
  have hmaximum : codec.maximum < 256 ^ 8 := codec.maximum_lt
  constructor
  · intro h
    obtain ⟨⟨⟩, afterMagic, hmagic, hread⟩ := decode_bind_eq_ok.mp h
    obtain ⟨⟨⟩, afterVersion, hversion, hread⟩ := decode_bind_eq_ok.mp hread
    obtain ⟨declared, afterSize, hdeclared, hread⟩ := decode_bind_eq_ok.mp hread
    obtain ⟨_, -, rfl, rfl⟩ := (codec.stream.parses_u64 _ le_rfl _ _).mp hdeclared
    rw [(Stream.expect_eq_ok _).mp hmagic, (Stream.expectU16_eq_ok _ (by decide)).mp hversion]
    simp only [decode_bind_eq_ok, refuseWhen_eq_ok, Stream.decodeEach_u8_eq_ok, get_eq_ok,
      not_not, not_lt] at hread
    obtain ⟨_, _, ⟨rfl, -⟩, _, _, ⟨rfl, -⟩, _, _, ⟨rfl, rfl⟩, _, _, ⟨rfl, hle⟩, _, _, ⟨rfl, hge⟩,
      rfl, rfl⟩ := hread
    obtain rfl := le_antisymm hle hge
    rfl
  · rintro rfl
    simp only [envelope, List.length_append] at hsize
    have hbody : body.length ≤ codec.maximum := by omega
    have hdeclared := (codec.stream.parses_u64 _ le_rfl body.length
      (digestBytes (X.sha256 body) ++ body)).mpr
      ⟨body.length, lt_of_le_of_lt hbody hmaximum, rfl, rfl⟩
    apply decode_bind_eq_ok.mpr
    refine ⟨(), _, (Stream.expect_eq_ok _).mpr rfl, ?_⟩
    apply decode_bind_eq_ok.mpr
    refine ⟨(), _, (Stream.expectU16_eq_ok _ (by decide)).mpr rfl, ?_⟩
    apply decode_bind_eq_ok.mpr
    refine ⟨body.length, _, hdeclared, ?_⟩
    simp only [decode_bind_eq_ok, refuseWhen_eq_ok, Stream.decodeEach_u8_eq_ok, get_eq_ok,
      not_not, not_lt]
    exact ⟨(), _, ⟨rfl, hbody⟩, digestBytes (X.sha256 body), body, ⟨rfl, length_digestBytes _⟩,
      body, body, ⟨rfl, rfl⟩, (), body, ⟨rfl, le_rfl⟩, (), body, ⟨rfl, le_rfl⟩, rfl, rfl⟩

theorem readEnveloped_eq_ok {body : Reading α} (h : Parses codec.maximum body F V)
    {input rest : List Byte} (hsize : input.length ≤ codec.maximum) {a : α} :
    codec.readEnveloped X magic body input = .ok (a, rest) ↔
      rest = [] ∧ ∃ s ∈ (envelopeFormat X magic F).valid,
        input = (envelopeFormat X magic F).spell s ∧ V s a := by
  have hmaximum : codec.maximum < 256 ^ 8 := codec.maximum_lt
  have hfits (data : List Byte) (hinput : input = envelope X magic data) :
      data.length ≤ codec.maximum := by
    rw [hinput] at hsize
    simp only [envelope, List.length_append] at hsize
    omega
  simp only [readEnveloped, decode_bind_eq_ok, readEnvelope_eq_ok hsize, Stream.requireEnd_eq_ok,
    Stream.pure_eq_ok]
  constructor
  · rintro ⟨⟨⟩, data, hinput, _, _, hbody, ⟨⟩, _, ⟨rfl, rfl⟩, rfl, rfl⟩
    obtain ⟨s, hs, hdata, hV⟩ := (h data (hfits data hinput) a []).mp hbody
    rw [List.append_nil] at hdata
    subst hdata
    exact ⟨rfl, s, ⟨hs, lt_of_le_of_lt (hfits _ hinput) hmaximum⟩, hinput, hV⟩
  · rintro ⟨rfl, s, ⟨hs, -⟩, hinput, hV⟩
    have hbody := (h _ (hfits _ hinput) a []).mpr ⟨s, hs, (List.append_nil _).symm, hV⟩
    exact ⟨(), F.spell s, hinput, a, [], hbody, (), [], ⟨rfl, rfl⟩, rfl, rfl⟩

/-! ## What is written -/

theorem encodeEnveloped_eq_ok {body : Writing} {s data : List Byte}
    (h : Writes codec.maximum body s) :
    codec.encodeEnveloped X magic body = .ok data ↔
      data = envelope X magic s ∧ (envelope X magic s).length ≤ codec.maximum := by
  have hwrites (bytes : List Byte) := (writes_payload codec magic).bind
    ((Stream.writes_u16 encodingVersion).bind ((Stream.writes_u64 bytes.length).bind
      ((writes_payload codec (digestBytes (X.sha256 bytes))).bind (writes_payload codec bytes))))
  rw [encodeEnveloped, bind_eq_ok_iff]
  constructor
  · rintro ⟨bytes, hbytes, hdata⟩
    obtain ⟨rfl, -⟩ := (Stream.finish_eq_ok _ h).mp hbytes
    exact (Stream.finish_eq_ok _ (hwrites bytes)).mp hdata
  · rintro ⟨rfl, hsize⟩
    refine ⟨s, (Stream.finish_eq_ok _ h).mpr ⟨rfl, ?_⟩,
      (Stream.finish_eq_ok _ (hwrites s)).mpr ⟨rfl, hsize⟩⟩
    simp only [envelope, List.length_append] at hsize
    rw [stream_maximum]
    omega

end RecordCodec

end PkgApply.Transport
