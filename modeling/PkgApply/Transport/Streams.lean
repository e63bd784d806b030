import PkgApply.Library.Stream
import PkgApply.Vocabulary

/-!
# The writers and readers of the record codecs

Journal records, replay facts, completed evidence and receipts each have a
writer and a reader of their own.  They differ in their size limit, in the texts
of their errors, and in whether an empty payload is compared with the limit.
-/

namespace PkgApply.Transport

open Library

/-! ## Refusals -/

/-- What the codecs refuse an encoding for; each uses the codes it needs. -/
inductive RefusalCode where
  | invalidMagic
  | unsupportedVersion
  | truncated
  | invalidValue
  | limitExceeded
  | trailingData
  | checksumMismatch
  | identityMismatch
  | requestMismatch
  | completedEvidenceInvalid
  | noncanonicalEncoding
deriving DecidableEq, Repr

inductive RecordCodec where
  | journal
  | replayFact
  | completedEvidence
  | receipt
deriving DecidableEq, Repr

/-- What leaves an encoder or a decoder: a refusal of its own type, or an
exception of a constructor or a parser. -/
inductive Failure where
  | refusal (codec : RecordCodec) (code : RefusalCode) (message : String)
  | exception (e : Exn)
deriving DecidableEq, Repr

def maximumApplicationJournalEncodingSize : Nat := 256 * 1024 * 1024
def maximumReplayFactEncodingSize : Nat := 256 * 1024 * 1024
def maximumCompletedApplicationEvidenceEncodingSize : Nat := 256 * 1024 * 1024
def maximumApplicationReceiptEncodingSize : Nat := 512 * 1024 * 1024

namespace RecordCodec

/-- How the messages of a codec start. -/
def subject : RecordCodec → String
  | journal => "application journal"
  | replayFact => "application replay fact"
  | completedEvidence => "completed-evidence"
  | receipt => "application-receipt"

/-- How a codec says that something is wrong with a value. -/
def contains : RecordCodec → String
  | journal => "application journal encoding contains"
  | replayFact => "application replay fact contains"
  | completedEvidence => "completed-evidence encoding has"
  | receipt => "application-receipt encoding has"

def maximum : RecordCodec → Nat
  | journal => maximumApplicationJournalEncodingSize
  | replayFact => maximumReplayFactEncodingSize
  | completedEvidence => maximumCompletedApplicationEvidenceEncodingSize
  | receipt => maximumApplicationReceiptEncodingSize

section

variable (codec : RecordCodec)

theorem maximum_lt : codec.maximum < 2 ^ 64 := by
  cases codec <;> decide

def stream : Stream Failure where
  maximum := codec.maximum
  maximum_lt := codec.maximum_lt
  -- The journal's `append_bytes` returns before it looks at the size.
  skipsEmpty := codec == journal
  exceeded := .refusal codec .limitExceeded (codec.subject ++ " encoding exceeds the size limit")
  truncated := .refusal codec .truncated (codec.subject ++ " encoding is truncated")
  invalidFlag := .refusal codec .invalidValue (codec.contains ++ " an invalid boolean")
  invalidSign := .refusal codec .invalidValue (codec.contains ++ " an invalid integer sign")
  integerRange := .refusal codec .invalidValue (codec.subject ++ " integer is out of range")
  textLimit := .refusal codec .limitExceeded (codec.subject ++ " string exceeds its size limit")
  trailing := .refusal codec .trailingData (codec.subject ++ " encoding contains trailing data")

@[simp] theorem stream_maximum : codec.stream.maximum = codec.maximum := rfl

end

end RecordCodec

/-! ## Sequences of appends -/

/-- One call of a writer's interface. -/
inductive Append where
  | u8 (value : Byte)
  | u16 (value : Nat)
  | u32 (value : Nat)
  | u64 (value : Nat)
  | i64 (value : Int)
  | bytes (data : List Byte)
  | string (value : List Byte)
deriving DecidableEq

namespace Append

/-- What the call writes. -/
def run (codec : RecordCodec) : Append → Coder Byte Failure Unit
  | u8 value => Stream.appendU8 value
  | u16 value => Stream.appendU16 value
  | u32 value => Stream.appendU32 value
  | u64 value => Stream.appendU64 value
  | i64 value => Stream.appendI64 value
  | bytes data => codec.stream.appendBytes data
  | string value => codec.stream.appendString value

/-- How many bytes the call adds when it does not refuse. -/
def size : Append → Nat
  | u8 _ => 1
  | u16 _ => 2
  | u32 _ => 4
  | u64 _ => 8
  | i64 _ => 9
  | bytes data => data.length
  | string value => 8 + value.length

/-- What the call writes unchecked before its payload, and the payload that is
compared with the unsigned difference. -/
def payload (codec : RecordCodec) : Append → Option (List Byte × List Byte)
  | bytes data => if codec.stream.skipsEmpty ∧ data = [] then none else some ([], data)
  | string value =>
    if codec.stream.skipsEmpty ∧ value = [] then none
    else some (bigEndian 8 value.length, value)
  | _ => none

end Append

/-- The buffers a run compares a payload on, each with the payload. -/
def comparisons (codec : RecordCodec) : List Append → List Byte → List (List Byte × List Byte)
  | [], _ => []
  | call :: rest, written =>
    ((call.payload codec).map fun p => (written ++ p.1, p.2)).toList ++
      match call.run codec written with
      | .ok (_, written) => comparisons codec rest written
      | .error _ => []

/-- No difference a run from the empty buffer evaluates wraps around, and a
buffer that has reached the limit accepts no further payload. -/
def NeverWraps (codec : RecordCodec) (calls : List Append) : Prop :=
  ∀ p ∈ comparisons codec calls [],
    (codec.stream.space p.1.length : Int) = codec.maximum - p.1.length ∧
    (codec.maximum ≤ p.1.length → p.2 ≠ [] →
      codec.stream.appendBytes p.2 p.1 = .error codec.stream.exceeded)

/-- Every payload starts within the limit, up to the first that ends beyond it.
`size` is what the calls before have written. -/
def StaysWithin (codec : RecordCodec) : List Append → Nat → Prop
  | [], _ => True
  | call :: rest, size =>
    match call.payload codec with
    | none => StaysWithin codec rest (size + call.size)
    | some (header, _) =>
      size + header.length ≤ codec.maximum ∧
        (size + call.size ≤ codec.maximum → StaysWithin codec rest (size + call.size))

section Appends

variable {codec : RecordCodec} {call : Append} {written : List Byte}

/-- A call without a payload to compare writes its bytes whatever the size. -/
theorem Append.run_of_no_payload (h : call.payload codec = none) :
    ∃ out, call.run codec written = .ok ((), out) ∧ out.length = written.length + call.size := by
  have hfixed {w : Coder Byte Failure Unit} {s : List Byte}
      (hw : Writes (written.length + s.length) w s) (hsize : s.length = call.size) :
      ∃ out, w written = .ok ((), out) ∧ out.length = written.length + call.size :=
    ⟨written ++ s, hw.fits written le_rfl, by rw [List.length_append, hsize]⟩
  cases call with
  | u8 value => exact hfixed (Stream.writes_u8 value) rfl
  | u16 value => exact hfixed (Stream.writes_u16 value) rfl
  | u32 value => exact hfixed (Stream.writes_u32 value) rfl
  | u64 value => exact hfixed (Stream.writes_u64 value) rfl
  | i64 value => exact hfixed (Stream.writes_i64 value) rfl
  | bytes data =>
    have hskip : codec.stream.skipsEmpty = true ∧ data = [] := by
      by_contra hskip
      simp [payload, hskip] at h
    refine ⟨written ++ data, ?_, by rw [List.length_append]; rfl⟩
    rw [run, Stream.appendBytes_eq, if_neg fun hspace => hspace.1 hskip]
  | string value =>
    have hskip : codec.stream.skipsEmpty = true ∧ value = [] := by
      by_contra hskip
      simp [payload, hskip] at h
    refine ⟨written ++ bigEndian 8 value.length ++ value, ?_, ?_⟩
    · rw [run, Stream.appendString_eq, Stream.appendBytes_eq, if_neg fun hspace => hspace.1 hskip]
    · simp [size]

/-- A payload compared within the limit is written exactly when it fits. -/
theorem appendBytes_within {data : List Byte} (hdata : ¬(codec.stream.skipsEmpty ∧ data = []))
    (hstart : written.length ≤ codec.maximum) :
    codec.stream.appendBytes data written =
      if written.length + data.length ≤ codec.maximum then .ok ((), written ++ data)
      else .error codec.stream.exceeded := by
  have hspace := codec.stream.space_of_le hstart
  rw [RecordCodec.stream_maximum] at hspace
  by_cases hend : written.length + data.length ≤ codec.maximum
  · rw [if_pos hend]
    exact codec.stream.appendBytes_of_le (by omega)
  · rw [if_neg hend, Stream.appendBytes_eq, if_pos ⟨hdata, by omega⟩]

/-- A payload that starts within the limit is written exactly when it ends
within it. -/
theorem Append.run_of_payload {header data : List Byte}
    (h : call.payload codec = some (header, data))
    (hstart : written.length + header.length ≤ codec.maximum) :
    (written.length + call.size ≤ codec.maximum →
      ∃ out, call.run codec written = .ok ((), out) ∧ out.length = written.length + call.size) ∧
    (¬written.length + call.size ≤ codec.maximum →
      ∃ e, call.run codec written = .error e) := by
  cases call with
  | bytes payload =>
    have hdata : ¬(codec.stream.skipsEmpty ∧ payload = []) := by
      intro hskip
      simp [Append.payload, hskip] at h
    have hpayload : written.length ≤ codec.maximum := by omega
    have hrun := appendBytes_within hdata hpayload
    constructor
    · intro hend
      refine ⟨_, hrun.trans (if_pos hend), ?_⟩
      rw [List.length_append, size]
    · intro hend
      exact ⟨_, hrun.trans (if_neg hend)⟩
  | string value =>
    have hdata : ¬(codec.stream.skipsEmpty ∧ value = []) := by
      intro hskip
      simp [payload, hskip] at h
    have hstring : header = bigEndian 8 value.length := by
      simp only [payload, if_neg hdata, Option.some.injEq, Prod.mk.injEq] at h
      exact h.1.symm
    have hpayload : (written ++ bigEndian 8 value.length).length ≤ codec.maximum := by
      rwa [List.length_append, ← hstring]
    have hbytes := appendBytes_within hdata hpayload
    have hrun : (string value).run codec written =
        codec.stream.appendBytes value (written ++ bigEndian 8 value.length) :=
      codec.stream.appendString_eq value written
    have hsize : (written ++ bigEndian 8 value.length).length + value.length =
        written.length + (string value).size := by
      simp [size, add_assoc]
    rw [hsize] at hbytes
    rw [hrun]
    constructor
    · intro hend
      refine ⟨_, hbytes.trans (if_pos hend), ?_⟩
      rw [List.length_append, hsize]
    · intro hend
      exact ⟨_, hbytes.trans (if_neg hend)⟩
  | u8 value => cases h
  | u16 value => cases h
  | u32 value => cases h
  | u64 value => cases h
  | i64 value => cases h

/-- Every comparison of a run is made within the limit exactly when its
payloads stay within it. -/
theorem comparisons_within (calls : List Append) (written : List Byte) :
    (∀ p ∈ comparisons codec calls written, p.1.length ≤ codec.maximum) ↔
      StaysWithin codec calls written.length := by
  induction calls generalizing written with
  | nil => simp [comparisons, StaysWithin]
  | cons call rest ih =>
    rw [comparisons, StaysWithin]
    cases hpayload : call.payload codec with
    | none =>
      obtain ⟨out, hrun, hlength⟩ : ∃ out, call.run codec written = .ok ((), out) ∧
          out.length = written.length + call.size :=
        Append.run_of_no_payload hpayload
      simp only [hrun, Option.map_none, Option.toList_none, List.nil_append]
      rw [ih out, hlength]
    | some p =>
      obtain ⟨header, data⟩ := p
      simp only [Option.map_some, Option.toList_some, List.singleton_append, List.forall_mem_cons,
        List.length_append]
      apply and_congr_right
      intro hstart
      obtain ⟨hfits, hrefused⟩ := Append.run_of_payload hpayload hstart
      by_cases hend : written.length + call.size ≤ codec.maximum
      · obtain ⟨out, hrun, hlength⟩ := hfits hend
        simp only [hrun, hend, true_imp_iff]
        rw [ih out, hlength]
      · obtain ⟨e, hrun⟩ := hrefused hend
        simp [hrun, hend]

/-- The difference is the integer one exactly within the limit, where a buffer
at the limit has no room. -/
theorem neverWraps_iff_within (calls : List Append) :
    NeverWraps codec calls ↔ ∀ p ∈ comparisons codec calls [], p.1.length ≤ codec.maximum := by
  constructor
  · intro h p hp
    have hspace := (h p hp).1
    omega
  · intro h p hp
    have hwithin := h p hp
    have hspace := codec.stream.space_of_le hwithin
    rw [RecordCodec.stream_maximum] at hspace
    constructor
    · rw [hspace]
      omega
    · intro hfull hdata
      have hlength := List.length_pos_iff.mpr hdata
      rw [appendBytes_within (fun hskip => hdata hskip.2) hwithin, if_neg (by omega)]

/-- A run never wraps around exactly when each payload it comes to starts
within the limit. -/
theorem neverWraps_iff (codec : RecordCodec) (calls : List Append) :
    NeverWraps codec calls ↔ StaysWithin codec calls 0 :=
  (neverWraps_iff_within calls).trans (comparisons_within calls [])

/-- A payload up to the limit, one unchecked byte, and one more payload. -/
def overrun (codec : RecordCodec) : List Append :=
  [.bytes (List.replicate codec.maximum 0), .u8 0, .bytes [0]]

theorem overrun_wraps :
    ¬NeverWraps .journal (overrun .journal) ∧ ¬NeverWraps .replayFact (overrun .replayFact) ∧
      ¬NeverWraps .completedEvidence (overrun .completedEvidence) := by
  have hwraps (codec : RecordCodec) (hmaximum : 0 < codec.maximum) :
      ¬NeverWraps codec (overrun codec) := by
    rw [neverWraps_iff_within, comparisons_within]
    have hdata : List.replicate codec.maximum (0 : Byte) ≠ [] := by
      simp [hmaximum.ne']
    simp [overrun, StaysWithin, Append.payload, Append.size, hdata]
  exact ⟨hwraps _ (by decide), hwraps _ (by decide), hwraps _ (by decide)⟩

end Appends

end PkgApply.Transport
