import PkgApply.Library.Encoding
import PkgApply.Vocabulary

/-!
# Digests and canonical records

The typed digests of journal transport, their text, and the canonical record
every derived identity is the SHA-256 of.  A field of a record is delimited, so
a record determines the fields it was built from.
-/

namespace PkgApply.Transport

open Library

/-- Text of the source as bytes. -/
def ascii (text : String) : List Byte :=
  text.toList.map fun c => Fin.ofNat 256 c.toNat

/-! ## Typed digests -/

/-- What the library derives an identity for. -/
inductive DigestDomain where
  | leaseBoundStateProjection
  | applicationAttempt
  | applicationJournal
  | applicationJournalEffect
  | applicationJournalDeclaration
  | applicationJournalStep
  | applicationJournalCursor
  | applicationJournalRecord
  | applicationReceipt
  | completedApplicationEvidence
deriving DecidableEq, Repr

def DigestDomain.name : DigestDomain → String
  | .leaseBoundStateProjection => "pkgapply/lease-bound-state-projection/v1"
  | .applicationAttempt => "pkgapply/application-attempt/v1"
  | .applicationJournal => "pkgapply/application-journal/v1"
  | .applicationJournalEffect => "pkgapply/application-journal-effect/v1"
  | .applicationJournalDeclaration => "pkgapply/application-journal-declaration/v1"
  | .applicationJournalStep => "pkgapply/application-journal-step/v1"
  | .applicationJournalCursor => "pkgapply/application-journal-cursor/v1"
  | .applicationJournalRecord => "pkgapply/application-journal-record/v1"
  | .applicationReceipt => "pkgapply/application-receipt/v1"
  | .completedApplicationEvidence => "pkgapply/completed-application-evidence/v1"

/-- An identity derived in one domain. -/
structure TypedDigest (domain : DigestDomain) where
  digest : BitVec 256
deriving DecidableEq, Repr

/-- The 32 bytes of a digest. -/
def digestBytes (digest : BitVec 256) : List Byte :=
  bigEndian 32 digest.toNat

@[simp] theorem length_digestBytes (digest : BitVec 256) : (digestBytes digest).length = 32 :=
  length_bigEndian

theorem ofBigEndian_digestBytes (digest : BitVec 256) :
    BitVec.ofNat 256 (ofBigEndian (digestBytes digest)) = digest := by
  unfold digestBytes
  rw [ofBigEndian_bigEndian_of_lt digest.isLt, BitVec.ofNat_toNat, BitVec.setWidth_eq]

theorem digestBytes_ofBigEndian {bytes : List Byte} (h : bytes.length = 32) :
    digestBytes (BitVec.ofNat 256 (ofBigEndian bytes)) = bytes := by
  have hlt : ofBigEndian bytes < 2 ^ 256 := by
    have hlt := ofBigEndian_lt bytes
    rw [h] at hlt
    exact hlt
  rw [digestBytes, BitVec.toNat_ofNat, Nat.mod_eq_of_lt hlt, ← h, bigEndian_ofBigEndian]

/-- Identities compare by their digests. -/
instance {kind : IdentityKind} : LinearOrder (Identity kind) :=
  LinearOrder.lift' (fun identity => identity.digest.toNat) <| by
    rintro ⟨a⟩ ⟨b⟩ h
    exact congrArg Identity.mk (BitVec.toNat_inj.mp h)

/-! ## Digest text -/

/-- The byte `:`. -/
def colon : Byte := 0x3a

def digestPrefix : List Byte := ascii "v1:sha256:"

def hexadecimalDigit (value : Nat) : Byte :=
  (ascii "0123456789abcdef").getD value 0

def hexadecimalPair (byte : Byte) : List Byte :=
  [hexadecimalDigit (byte.val / 16), hexadecimalDigit (byte.val % 16)]

/-- Algorithm-qualified text of a digest. -/
def digestText (digest : BitVec 256) : List Byte :=
  digestPrefix ++ (digestBytes digest).flatMap hexadecimalPair

def hexadecimalValue (value : Byte) : Except Exn Nat :=
  if 0x30 ≤ value ∧ value ≤ 0x39 then
    .ok (value.val - 0x30)
  else if 0x61 ≤ value ∧ value ≤ 0x66 then
    .ok (value.val - 0x61 + 10)
  else
    .error (.invalidArgument "application identity requires lowercase hexadecimal")

def parseHexadecimal : List Byte → Except Exn (List Byte)
  | high :: low :: rest => do
    let high ← hexadecimalValue high
    let low ← hexadecimalValue low
    let bytes ← parseHexadecimal rest
    return Fin.ofNat 256 (high * 16 + low) :: bytes
  | _ => return []

def parseDigest (value : List Byte) : Except Exn (BitVec 256) := do
  let some first := value.idxOf? colon
    | throw (.invalidArgument "application identity has no version separator")
  refuseIf (value.take first ≠ ascii "v1")
    (.invalidArgument "unsupported application identity version")
  let qualified := value.drop (first + 1)
  let some second := qualified.idxOf? colon
    | throw (.invalidArgument "application identity has no algorithm separator")
  refuseIf (qualified.take second ≠ ascii "sha256")
    (.invalidArgument "unsupported application identity algorithm")
  refuseIf (value.length ≠ digestPrefix.length + 64)
    (.invalidArgument "application SHA-256 identity has invalid length")
  let bytes ← parseHexadecimal (value.drop digestPrefix.length)
  return BitVec.ofNat 256 (ofBigEndian bytes)

theorem digestPrefix_eq :
    digestPrefix = [0x76, 0x31, 0x3a, 0x73, 0x68, 0x61, 0x32, 0x35, 0x36, 0x3a] := by
  decide +kernel

theorem hexadecimalValue_digit : ∀ value < 16,
    hexadecimalValue (hexadecimalDigit value) = .ok value := by
  decide +kernel

@[simp] theorem length_flatMap_hexadecimalPair (bytes : List Byte) :
    (bytes.flatMap hexadecimalPair).length = 2 * bytes.length := by
  simp [List.length_flatMap, hexadecimalPair, mul_comm]

theorem parseHexadecimal_flatMap (bytes : List Byte) :
    parseHexadecimal (bytes.flatMap hexadecimalPair) = .ok bytes := by
  induction bytes with
  | nil => rfl
  | cons byte rest ih =>
    have hhigh := hexadecimalValue_digit (byte.val / 16) (by omega)
    have hlow := hexadecimalValue_digit (byte.val % 16) (by omega)
    have hbyte : Fin.ofNat 256 (byte.val / 16 * 16 + byte.val % 16) = byte := by
      rw [Nat.div_add_mod']
      exact Fin.ofNat_val_eq_self byte
    simp only [List.flatMap_cons, hexadecimalPair, List.cons_append, List.nil_append,
      parseHexadecimal, hhigh, hlow, hbyte, bind, Except.bind, pure, Except.pure] at ih ⊢
    rw [ih]

@[simp] theorem length_digestText (digest : BitVec 256) : (digestText digest).length = 74 := by
  rw [digestText, List.length_append, length_flatMap_hexadecimalPair, length_digestBytes,
    digestPrefix_eq]
  rfl

/-- The text of a digest reads back as that digest. -/
theorem parseDigest_text (digest : BitVec 256) : parseDigest (digestText digest) = .ok digest := by
  have hlength : (digestText digest).length = digestPrefix.length + 64 := by
    rw [length_digestText, digestPrefix_eq]
    rfl
  have hfirst : (digestText digest).idxOf? colon = some 2 := by
    simp [digestText, digestPrefix_eq, colon, List.idxOf?_cons]
  have hversion : (digestText digest).take 2 = ascii "v1" := by
    rw [digestText, digestPrefix_eq, show ascii "v1" = [0x76, 0x31] by decide +kernel]
    rfl
  have hsecond : ((digestText digest).drop (2 + 1)).idxOf? colon = some 6 := by
    simp [digestText, digestPrefix_eq, colon, List.idxOf?_cons]
  have halgorithm : ((digestText digest).drop (2 + 1)).take 6 = ascii "sha256" := by
    rw [digestText, digestPrefix_eq,
      show ascii "sha256" = [0x73, 0x68, 0x61, 0x32, 0x35, 0x36] by decide +kernel]
    rfl
  have hhex : (digestText digest).drop digestPrefix.length =
      (digestBytes digest).flatMap hexadecimalPair := List.drop_left
  simp only [parseDigest, hfirst, hversion, hsecond, halgorithm, hlength, hhex,
    parseHexadecimal_flatMap, ne_eq, not_true_eq_false, bind, Except.bind, pure, Except.pure,
    ofBigEndian_digestBytes]
  rfl

/-- A list around the first place of one of its elements. -/
theorem eq_of_idxOf? {α : Type} [DecidableEq α] {l : List α} {a : α} {i : Nat}
    (h : l.idxOf? a = some i) : l = l.take i ++ a :: l.drop (i + 1) := by
  induction l generalizing i with
  | nil => simp at h
  | cons b l ih =>
    rw [List.idxOf?_cons] at h
    by_cases hb : b = a
    · simp only [hb, beq_self_eq_true, if_true, Option.some.injEq] at h
      simp [← h, hb]
    · simp only [beq_iff_eq, hb, if_false, Option.map_eq_some_iff] at h
      obtain ⟨j, hj, rfl⟩ := h
      simpa using ih hj

theorem hexadecimalDigit_value {b : Byte} {value : Nat} (h : hexadecimalValue b = .ok value) :
    hexadecimalDigit value = b ∧ value < 16 := by
  have hcheck : ∀ b : Byte, (hexadecimalValue b).toOption.all fun value =>
      hexadecimalDigit value == b && value < 16 := by
    decide +kernel
  simpa [h, Except.toOption] using hcheck b

/-- Only the pairs of some bytes read as those bytes. -/
theorem flatMap_parseHexadecimal : ∀ {l bytes : List Byte}, parseHexadecimal l = .ok bytes →
    l.length = 2 * (l.length / 2) → l = bytes.flatMap hexadecimalPair
  | [], bytes, h, _ => by cases h; rfl
  | [_], _, _, heven => by simp at heven
  | high :: low :: rest, bytes, h, heven => by
    simp only [parseHexadecimal, bind_eq_ok_iff] at h
    obtain ⟨x, hx, y, hy, more, hmore, hbytes⟩ := h
    cases hbytes
    obtain ⟨rfl, hxlt⟩ := hexadecimalDigit_value hx
    obtain ⟨rfl, hylt⟩ := hexadecimalDigit_value hy
    have hrest := flatMap_parseHexadecimal hmore (by simp only [List.length_cons] at heven; omega)
    have hval : (Fin.ofNat 256 (x * 16 + y) : Byte).val = x * 16 + y := by
      simp only [Fin.ofNat_eq_cast, Fin.val_natCast]
      omega
    have hdiv : (x * 16 + y) / 16 = x := by omega
    have hmod : (x * 16 + y) % 16 = y := by omega
    rw [List.flatMap_cons, ← hrest, hexadecimalPair, hval, hdiv, hmod]
    rfl

/-- No other text reads as a digest. -/
theorem text_of_parseDigest {text : List Byte} {digest : BitVec 256}
    (h : parseDigest text = .ok digest) : text = digestText digest := by
  unfold parseDigest at h
  cases hfirst : text.idxOf? colon with
  | none =>
    rw [hfirst] at h
    cases h
  | some first =>
    simp only [hfirst, refuseIf_bind_eq_ok, not_not] at h
    obtain ⟨hversion, h⟩ := h
    cases hsecond : (text.drop (first + 1)).idxOf? colon with
    | none =>
      rw [hsecond] at h
      cases h
    | some second =>
      simp only [hsecond, bind_eq_ok_iff, refuseIf_eq_ok, not_not] at h
      obtain ⟨_, halgorithm, _, hlength, bytes, hbytes, hdigest⟩ := h
      have houter := eq_of_idxOf? hfirst
      have hinner := eq_of_idxOf? hsecond
      rw [hversion, hinner, halgorithm] at houter
      have hinitial : text = digestPrefix ++ (text.drop (first + 1)).drop (second + 1) := by
        conv_lhs => rw [houter]
        rw [digestPrefix_eq, show ascii "v1" = [0x76, 0x31] by decide +kernel,
          show ascii "sha256" = [0x73, 0x68, 0x61, 0x32, 0x35, 0x36] by decide +kernel]
        rfl
      generalize (text.drop (first + 1)).drop (second + 1) = rest at hinitial
      subst hinitial
      rw [List.drop_left] at hbytes
      rw [List.length_append] at hlength
      have hrest : rest.length = 64 := by omega
      have hpairs := flatMap_parseHexadecimal hbytes (by omega)
      have hcount : bytes.length = 32 := by
        rw [hpairs, length_flatMap_hexadecimalPair] at hrest
        omega
      cases hdigest
      rw [digestText, digestBytes_ofBigEndian hcount, hpairs]

theorem parseDigest_eq_ok {text : List Byte} {digest : BitVec 256} :
    parseDigest text = .ok digest ↔ text = digestText digest := by
  constructor
  · exact text_of_parseDigest
  · rintro rfl
    exact parseDigest_text digest

theorem digestText_injective : Function.Injective digestText := by
  intro a b h
  have hparse := parseDigest_text a
  rw [h, parseDigest_text b] at hparse
  exact (Except.ok.inj hparse).symm

/-! ## Canonical records -/

/-- The bytes an identity is the digest of. -/
structure CanonicalRecord where
  bytes : List Byte
deriving DecidableEq

namespace CanonicalRecord

def magic : List Byte := ascii "ZLAPPLY" ++ [0]

def encodingVersion : Nat := 1

section Append

variable (record : CanonicalRecord)

def appendU8 (value : Byte) : CanonicalRecord :=
  ⟨record.bytes ++ [value]⟩

def appendU16 (value : Nat) : CanonicalRecord :=
  ⟨record.bytes ++ bigEndian 2 value⟩

def appendU64 (value : Nat) : CanonicalRecord :=
  ⟨record.bytes ++ bigEndian 8 value⟩

def appendBool (value : Bool) : CanonicalRecord :=
  record.appendU8 (if value then 1 else 0)

def appendBytes (value : List Byte) : CanonicalRecord :=
  ⟨(record.appendU64 value.length).bytes ++ value⟩

/-- Algorithm tag of SHA-256 and the digest. -/
def appendDigest (digest : BitVec 256) : CanonicalRecord :=
  ⟨(record.appendU8 1).bytes ++ digestBytes digest⟩

/-- Presence and, when present, the digest. -/
def appendOptionalDigest : Option (BitVec 256) → CanonicalRecord
  | none => record.appendBool false
  | some digest => (record.appendBool true).appendDigest digest

def appendDigests (digests : List (BitVec 256)) : CanonicalRecord :=
  digests.foldl appendDigest record

end Append

/-- A record that binds the domain and the version of the encoding. -/
def start (domain : DigestDomain) : CanonicalRecord :=
  ((⟨magic⟩ : CanonicalRecord).appendU16 encodingVersion).appendBytes (ascii domain.name)

/-! ## What a field determines -/

def boolField (value : Bool) : List Byte :=
  [if value then 1 else 0]

def digestField (digest : BitVec 256) : List Byte :=
  1 :: digestBytes digest

def bytesField (value : List Byte) : List Byte :=
  bigEndian 8 value.length ++ value

section Fields

variable (record : CanonicalRecord)

@[simp] theorem bytes_appendU8 (value : Byte) :
    (record.appendU8 value).bytes = record.bytes ++ [value] := rfl

@[simp] theorem bytes_appendU16 (value : Nat) :
    (record.appendU16 value).bytes = record.bytes ++ bigEndian 2 value := rfl

@[simp] theorem bytes_appendU64 (value : Nat) :
    (record.appendU64 value).bytes = record.bytes ++ bigEndian 8 value := rfl

@[simp] theorem bytes_appendBool (value : Bool) :
    (record.appendBool value).bytes = record.bytes ++ boolField value := rfl

@[simp] theorem bytes_appendBytes (value : List Byte) :
    (record.appendBytes value).bytes = record.bytes ++ bytesField value := by
  simp [appendBytes, bytesField]

@[simp] theorem bytes_appendDigest (digest : BitVec 256) :
    (record.appendDigest digest).bytes = record.bytes ++ digestField digest := by
  simp [appendDigest, digestField]

@[simp] theorem bytes_appendOptionalDigest (digest : Option (BitVec 256)) :
    (record.appendOptionalDigest digest).bytes =
      record.bytes ++ tagged boolField digestField digest := by
  cases digest <;> simp [appendOptionalDigest, tagged]

@[simp] theorem bytes_appendDigests (digests : List (BitVec 256)) :
    (record.appendDigests digests).bytes = record.bytes ++ digests.flatMap digestField := by
  induction digests generalizing record with
  | nil => simp [appendDigests]
  | cons digest rest ih =>
    have h := ih (record.appendDigest digest)
    rw [appendDigests, List.foldl_cons]
    rw [appendDigests] at h
    rw [h, bytes_appendDigest, List.flatMap_cons, List.append_assoc]

end Fields

theorem delimitedOn_u64 : DelimitedOn (bigEndian 8) {n | n < 2 ^ 64} :=
  (delimitedOn_bigEndian 8).mono fun n (h : n < 2 ^ 64) => (h : n < 256 ^ 8)

theorem delimited_byte : Delimited fun byte : Byte => [byte] :=
  .of_length 1 (fun _ => rfl) fun _ _ _ _ h => List.singleton_injective h

theorem delimited_boolField : Delimited boolField :=
  .of_length 1 (fun _ => rfl) fun a _ b _ h => by
    cases a <;> cases b <;> first | rfl | exact absurd (List.singleton_injective h) (by decide)

theorem digestBytes_injective : Function.Injective digestBytes := by
  intro a b h
  rw [← ofBigEndian_digestBytes a, h, ofBigEndian_digestBytes]

theorem delimited_digestField : Delimited digestField :=
  .of_length 33 (fun digest => by simp [digestField]) fun _ _ _ _ h =>
    digestBytes_injective (List.cons.inj h).2

theorem delimitedOn_bytesField : DelimitedOn bytesField {value | value.length < 2 ^ 64} := by
  intro a ha b hb x y h
  simp only [bytesField, List.append_assoc] at h
  obtain ⟨hlength, hbytes⟩ := delimitedOn_u64 _ ha _ hb _ _ h
  exact List.append_inj hbytes hlength

theorem delimited_optionalDigest : Delimited (tagged boolField digestField) :=
  (delimited_boolField.tagged delimited_digestField).mono fun _ _ _ _ => trivial

end CanonicalRecord

/-! ## SHA-256 -/

namespace Sha256

/-- The eight working words. -/
structure Words where
  a : Nat
  b : Nat
  c : Nat
  d : Nat
  e : Nat
  f : Nat
  g : Nat
  h : Nat

def rotateRight (n x : Nat) : Nat :=
  x >>> n ||| x <<< (32 - n) % 2 ^ 32

def roundConstants : List Nat :=
  [0x428a2f98, 0x71374491, 0xb5c0fbcf, 0xe9b5dba5, 0x3956c25b, 0x59f111f1, 0x923f82a4, 0xab1c5ed5,
    0xd807aa98, 0x12835b01, 0x243185be, 0x550c7dc3, 0x72be5d74, 0x80deb1fe, 0x9bdc06a7, 0xc19bf174,
    0xe49b69c1, 0xefbe4786, 0x0fc19dc6, 0x240ca1cc, 0x2de92c6f, 0x4a7484aa, 0x5cb0a9dc, 0x76f988da,
    0x983e5152, 0xa831c66d, 0xb00327c8, 0xbf597fc7, 0xc6e00bf3, 0xd5a79147, 0x06ca6351, 0x14292967,
    0x27b70a85, 0x2e1b2138, 0x4d2c6dfc, 0x53380d13, 0x650a7354, 0x766a0abb, 0x81c2c92e, 0x92722c85,
    0xa2bfe8a1, 0xa81a664b, 0xc24b8b70, 0xc76c51a3, 0xd192e819, 0xd6990624, 0xf40e3585, 0x106aa070,
    0x19a4c116, 0x1e376c08, 0x2748774c, 0x34b0bcb5, 0x391c0cb3, 0x4ed8aa4a, 0x5b9cca4f, 0x682e6ff3,
    0x748f82ee, 0x78a5636f, 0x84c87814, 0x8cc70208, 0x90befffa, 0xa4506ceb, 0xbef9a3f7, 0xc67178f2]

def initial : Words :=
  ⟨0x6a09e667, 0xbb67ae85, 0x3c6ef372, 0xa54ff53a, 0x510e527f, 0x9b05688c, 0x1f83d9ab, 0x5be0cd19⟩

def round (s : Words) (constant word : Nat) : Words :=
  let choose := (s.e &&& s.f) ^^^ ((0xffffffff ^^^ s.e) &&& s.g)
  let majority := (s.a &&& s.b) ^^^ (s.a &&& s.c) ^^^ (s.b &&& s.c)
  let high := rotateRight 6 s.e ^^^ rotateRight 11 s.e ^^^ rotateRight 25 s.e
  let low := rotateRight 2 s.a ^^^ rotateRight 13 s.a ^^^ rotateRight 22 s.a
  let t := s.h + high + choose + constant + word
  ⟨(t + low + majority) % 2 ^ 32, s.a, s.b, s.c, (s.d + t) % 2 ^ 32, s.e, s.f, s.g⟩

/-- The schedule word sixteen places after the first of `words`. -/
def nextWord (words : List Nat) : Nat :=
  let x := words.getD 1 0
  let y := words.getD 14 0
  let small := rotateRight 7 x ^^^ rotateRight 18 x ^^^ x >>> 3
  let large := rotateRight 17 y ^^^ rotateRight 19 y ^^^ y >>> 10
  (large + words.getD 9 0 + small + words.getD 0 0) % 2 ^ 32

/-- One round for each constant; `words` are the next sixteen schedule words. -/
def rounds : List Nat → List Nat → Words → Words
  | constant :: constants, word :: words, s =>
    rounds constants (words ++ [nextWord (word :: words)]) (round s constant word)
  | _, _, s => s

def bigEndianWords : Nat → List Byte → List Nat
  | n + 1, bytes => ofBigEndian (bytes.take 4) :: bigEndianWords n (bytes.drop 4)
  | 0, _ => []

def compress (s : Words) (block : List Byte) : Words :=
  let t := rounds roundConstants (bigEndianWords 16 block) s
  ⟨(s.a + t.a) % 2 ^ 32, (s.b + t.b) % 2 ^ 32, (s.c + t.c) % 2 ^ 32, (s.d + t.d) % 2 ^ 32,
    (s.e + t.e) % 2 ^ 32, (s.f + t.f) % 2 ^ 32, (s.g + t.g) % 2 ^ 32, (s.h + t.h) % 2 ^ 32⟩

def blocks : Nat → List Byte → Words → Words
  | 0, _, s => s
  | n + 1, bytes, s => blocks n (bytes.drop 64) (compress s (bytes.take 64))

def pad (bytes : List Byte) : List Byte :=
  bytes ++ [0x80] ++ List.replicate ((119 - bytes.length % 64) % 64) 0 ++
    bigEndian 8 (8 * bytes.length)

/-- What libcrypto computes for `EVP_sha256`. -/
def hash (bytes : List Byte) : BitVec 256 :=
  let padded := pad bytes
  let s := blocks (padded.length / 64) padded initial
  BitVec.ofNat 256 ([s.a, s.b, s.c, s.d, s.e, s.f, s.g, s.h].foldl (fun n w => n * 2 ^ 32 + w) 0)

end Sha256

/-! ## Linked libraries -/

def maximumDigestTextSize : Nat := 128

/-- What the library links against: SHA-256, and the texts of planning
identities and package paths.  An identity's text reads back as the identity
and is no longer than a decoder accepts; a parsed path reads back as itself. -/
structure Externals where
  sha256 : List Byte → BitVec 256
  planningText {kind : IdentityKind} : Identity kind → List Byte
  parsePlanning (kind : IdentityKind) : List Byte → Except Exn (Identity kind)
  parsePath : List Byte → Except Exn PackagePath
  parsePlanning_text : ∀ {kind} (identity : Identity kind),
    parsePlanning kind (planningText identity) = .ok identity
  length_planningText : ∀ {kind} (identity : Identity kind),
    (planningText identity).length ≤ maximumDigestTextSize
  parsePath_bytes : ∀ {text path}, parsePath text = .ok path → parsePath path.bytes = .ok path

namespace Externals

/-- SHA-256 itself, with planning identities in the text form of this library. -/
def reference : Externals where
  sha256 := Sha256.hash
  planningText identity := digestText identity.digest
  parsePlanning _ value := Identity.mk <$> parseDigest value
  parsePath text := .ok ⟨text⟩
  parsePlanning_text identity := by rw [parseDigest_text]; rfl
  length_planningText identity := by rw [length_digestText]; decide
  parsePath_bytes h := by rw [← Except.ok.inj h]

/-- No byte string of the one list collides with a different one of the other. -/
def CollisionFree (X : Externals) (l l' : List (List Byte)) : Prop :=
  ∀ x ∈ l, ∀ y ∈ l', X.sha256 x = X.sha256 y → x = y

/-- Byte strings with distinct digests do not collide with each other. -/
theorem collisionFree_self {X : Externals} {l : List (List Byte)} (h : (l.map X.sha256).Nodup) :
    X.CollisionFree l l :=
  fun _ hx _ hy heq => List.inj_on_of_nodup_map h hx hy heq

end Externals

end PkgApply.Transport
