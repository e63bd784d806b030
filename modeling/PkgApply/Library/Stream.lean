import PkgApply.Library.Format
import Mathlib.Algebra.Group.Int.Defs
import Mathlib.Tactic.DeriveFintype

/-!
# Byte streams with a size limit

A stream has a size limit and the errors its writer and its reader raise.  The
fixed-width writes are unchecked; a payload is compared with the unsigned
difference between the limit and what has been written.  Every reader parses
the format its writer writes.
-/

namespace PkgApply.Library

/-! ## Basic formats -/

theorem delimited_singleton : Delimited fun byte : Byte => [byte] :=
  .of_length 1 (fun _ => rfl) fun _ _ _ _ h => List.singleton_injective h

namespace Format

def byte : Format Byte Byte where
  spell value := [value]
  valid := Set.univ
  delimited := delimited_singleton

def number (width : Nat) : Format Byte Nat where
  spell := bigEndian width
  valid := {n | n < 256 ^ width}
  delimited := delimitedOn_bigEndian width

/-- A boolean as one byte. -/
def flag : Format Byte Bool where
  spell value := [if value then 1 else 0]
  valid := Set.univ
  delimited := .of_length 1 (fun _ => rfl) fun a _ b _ h => by
    cases a <;> cases b <;> first | rfl | exact absurd (List.singleton_injective h) (by decide)

theorem valid_flag : flag.valid = Set.univ := rfl

def uint32 : Format Byte UInt32 where
  spell n := bigEndian 4 n.toNat
  valid := Set.univ
  delimited := (delimitedOn_bigEndian 4).comp (fun n _ => n.toNat_lt) fun _ _ _ _ h =>
    UInt32.toNat.inj h

def uint64 : Format Byte UInt64 where
  spell n := bigEndian 8 n.toNat
  valid := Set.univ
  delimited := (delimitedOn_bigEndian 8).comp (fun n _ => n.toNat_lt) fun _ _ _ _ h =>
    UInt64.toNat.inj h

/-- Bytes after their number. -/
def text : Format Byte (List Byte) where
  spell bytes := bigEndian 8 bytes.length ++ bytes
  valid := {bytes | bytes.length < 256 ^ 8}
  delimited := by
    intro a ha b hb x y h
    simp only [List.append_assoc] at h
    obtain ⟨hlength, hbytes⟩ := delimitedOn_bigEndian 8 _ ha _ hb _ _ h
    exact List.append_inj hbytes hlength

end Format

/-- A sign and a magnitude.  Zero has two spellings. -/
structure Signed where
  negative : Bool
  magnitude : Nat
deriving DecidableEq

namespace Signed

def value (s : Signed) : Int :=
  if s.negative then -s.magnitude else s.magnitude

/-- The spelling a writer chooses. -/
def ofInt (n : Int) : Signed :=
  ⟨n < 0, if n < 0 then (-(n + 1)).toNat + 1 else n.toNat⟩

def Canonical (s : Signed) : Prop :=
  s.magnitude = 0 → s.negative = false

@[simp] theorem value_ofInt (n : Int) : (ofInt n).value = n := by
  by_cases hn : n < 0
  · simp only [value, ofInt, hn, decide_true, if_true]
    omega
  · simp only [value, ofInt, hn, decide_false, Bool.false_eq_true, if_false]
    omega

/-- The magnitude of an `int64_t` fits a `uint64_t`. -/
theorem magnitude_ofInt_lt {n : Int} (hlower : -2 ^ 63 ≤ n) (hupper : n < 2 ^ 63) :
    (ofInt n).magnitude < 2 ^ 64 := by
  simp only [ofInt]
  split_ifs <;> omega

/-- Only a negative zero is not the spelling of its value. -/
theorem eq_ofInt_iff (s : Signed) : s = ofInt s.value ↔ s.Canonical := by
  obtain ⟨negative, magnitude⟩ := s
  cases negative with
  | false => simp [value, ofInt, Canonical]
  | true =>
    by_cases hzero : magnitude = 0
    · simp [value, ofInt, Canonical, hzero]
    · have hneg : -(magnitude : Int) < 0 := by omega
      simp only [value, ofInt, Canonical, hneg, hzero, if_true, decide_true, Signed.mk.injEq,
        true_and, false_implies, iff_true]
      omega

end Signed

def Format.signed : Format Byte Signed :=
  (Format.flag.seq (Format.number 8)).via
    ⟨fun s => (s.negative, s.magnitude), fun p => ⟨p.1, p.2⟩, fun _ => rfl, fun _ => rfl⟩

/-- The byte of each enumerator. -/
structure Codes (α : Type) where
  all : List α
  code : α → Byte
  complete : ∀ a, a ∈ all
  injective : Function.Injective code

namespace Codes

variable {α : Type} (c : Codes α)

/-- The enumerator with this byte. -/
def decode (b : Byte) : Option α :=
  c.all.find? fun a => c.code a == b

theorem decode_eq_some {b : Byte} {a : α} : c.decode b = some a ↔ b = c.code a := by
  constructor
  · intro h
    have hcode : c.code a = b := by simpa using List.find?_some h
    exact hcode.symm
  · rintro rfl
    cases hfind : c.decode (c.code a) with
    | none => simpa using List.find?_eq_none.mp hfind a (c.complete a)
    | some a' =>
      have hcode : c.code a' = c.code a := by simpa using List.find?_some hfind
      rw [c.injective hcode]

end Codes

def Format.coded {α : Type} (c : Codes α) : Format Byte α where
  spell a := [c.code a]
  valid := Set.univ
  delimited := .of_length 1 (fun _ => rfl) fun _ _ _ _ h =>
    c.injective (List.singleton_injective h)

/-! ## Streams -/

/-- A size limit, and the errors of a writer and a reader. -/
structure Stream (ε : Type) where
  maximum : Nat
  maximum_lt : maximum < 2 ^ 64
  /-- Whether an empty payload is written without a look at the size. -/
  skipsEmpty : Bool
  exceeded : ε
  truncated : ε
  invalidFlag : ε
  invalidSign : ε
  integerRange : ε
  textLimit : ε
  trailing : ε

namespace Stream

variable {ε : Type} (S : Stream ε)

section Writer

/-- The unsigned difference a payload is compared with. -/
def space (size : Nat) : Nat :=
  (BitVec.ofNat 64 S.maximum - BitVec.ofNat 64 size).toNat

def appendU8 (value : Byte) : Coder Byte ε Unit :=
  modify (· ++ [value])

def appendU16 (value : Nat) : Coder Byte ε Unit :=
  encodeEach appendU8 (bigEndian 2 value)

def appendU32 (value : Nat) : Coder Byte ε Unit :=
  encodeEach appendU8 (bigEndian 4 value)

def appendU64 (value : Nat) : Coder Byte ε Unit :=
  encodeEach appendU8 (bigEndian 8 value)

def appendFlag (value : Bool) : Coder Byte ε Unit :=
  appendU8 (if value then 1 else 0)

def appendI64 (value : Int) : Coder Byte ε Unit := do
  appendFlag (Signed.ofInt value).negative
  appendU64 (Signed.ofInt value).magnitude

def appendBytes (data : List Byte) : Coder Byte ε Unit := do
  let bytes ← get
  refuseWhen (¬(S.skipsEmpty ∧ data = []) ∧ data.length > S.space bytes.length) S.exceeded
  set (bytes ++ data)

def appendString (value : List Byte) : Coder Byte ε Unit := do
  appendU64 value.length
  S.appendBytes value

/-- Run a writer on nothing. -/
def finish (output : Coder Byte ε Unit) : Except ε (List Byte) := do
  let (_, bytes) ← output []
  if bytes.length > S.maximum then
    throw S.exceeded
  return bytes

/-- Within the limit the unsigned difference is what is left. -/
theorem space_of_le {size : Nat} (h : size ≤ S.maximum) : S.space size = S.maximum - size := by
  have hmaximum := S.maximum_lt
  simp only [space, BitVec.toNat_sub, BitVec.toNat_ofNat]
  omega

end Writer

section Reader

def require (count : Nat) : Coder Byte ε Unit := do
  if count > (← get).length then
    throw S.truncated

/-- The next `count` bytes. -/
def take (count : Nat) : Coder Byte ε (List Byte) := do
  S.require count
  let input ← get
  set (input.drop count)
  return input.take count

def readU8 : Coder Byte ε Byte := do
  S.require 1
  match ← get with
  | byte :: rest => do
    set rest
    return byte
  | [] => throw S.truncated

def readU16 : Coder Byte ε Nat := do
  return ofBigEndian (← decodeEach S.readU8 2)

def readU32 : Coder Byte ε Nat := do
  return ofBigEndian (← decodeEach S.readU8 4)

def readU64 : Coder Byte ε Nat := do
  return ofBigEndian (← decodeEach S.readU8 8)

/-- A byte that is zero or one. -/
def readFlag (invalid : ε) : Coder Byte ε Bool := do
  let value ← S.readU8
  refuseWhen (value > 1) invalid
  return value == 1

def readBool : Coder Byte ε Bool :=
  S.readFlag S.invalidFlag

/-- A sign and a magnitude as an `int64_t`. -/
def toI64 (sign : Bool) (magnitude : Nat) : Coder Byte ε Int :=
  let maximum := 2 ^ 63 - 1
  if sign then do
    refuseWhen (magnitude > maximum + 1) S.integerRange
    return -magnitude
  else do
    refuseWhen (magnitude > maximum) S.integerRange
    return magnitude

def readI64 : Coder Byte ε Int := do
  let sign ← S.readFlag S.invalidSign
  let magnitude ← S.readU64
  S.toI64 sign magnitude

def readString (maximumSize : Nat) : Coder Byte ε (List Byte) := do
  let length ← S.readU64
  refuseWhen (length > maximumSize) S.textLimit
  S.take length

/-- Bytes that must come next. -/
def expect (bytes : List Byte) (mismatch : ε) : Coder Byte ε Unit := do
  let found ← S.take bytes.length
  refuseWhen (found ≠ bytes) mismatch

/-- A version that must come next. -/
def expectU16 (value : Nat) (mismatch : ε) : Coder Byte ε Unit := do
  let found ← S.readU16
  refuseWhen (found ≠ value) mismatch

def readCount (bound : Nat) (exceeded : ε) : Coder Byte ε Nat := do
  let count ← S.readU64
  refuseWhen (count > bound) exceeded
  return count

def readCode {α : Type} (c : Codes α) (invalid : ε) : Coder Byte ε α := do
  match c.decode (← S.readU8) with
  | some a => return a
  | none => throw invalid

/-- Two enumerators whose bytes are checked together. -/
def readCodes {α β : Type} (c : Codes α) (d : Codes β) (invalid : ε) : Coder Byte ε (α × β) := do
  let first ← S.readU8
  let second ← S.readU8
  match c.decode first, d.decode second with
  | some a, some b => return (a, b)
  | _, _ => throw invalid

def requireEnd : Coder Byte ε Unit := do
  if (← get) ≠ [] then
    throw S.trailing

end Reader

/-! ## What the writer writes -/

section Writes

variable {limit : Nat}

theorem writes_u8 (value : Byte) : Writes limit (appendU8 value : Coder Byte ε Unit) [value] where
  exact := by
    intro out out' h
    cases h
    rfl
  fits := fun _ _ => rfl

theorem writes_bigEndian (width value : Nat) :
    Writes limit (encodeEach appendU8 (bigEndian width value) : Coder Byte ε Unit)
      ((Format.number width).spell value) := by
  have h : Writes limit (encodeEach appendU8 (bigEndian width value) : Coder Byte ε Unit) _ :=
    writes_each fun byte _ => writes_u8 byte
  exact h.of_eq (List.flatMap_singleton' _)

theorem writes_u16 (value : Nat) :
    Writes limit (appendU16 value : Coder Byte ε Unit) ((Format.number 2).spell value) :=
  writes_bigEndian 2 value

theorem writes_u32 (value : Nat) :
    Writes limit (appendU32 value : Coder Byte ε Unit) ((Format.number 4).spell value) :=
  writes_bigEndian 4 value

theorem writes_u64 (value : Nat) :
    Writes limit (appendU64 value : Coder Byte ε Unit) ((Format.number 8).spell value) :=
  writes_bigEndian 8 value

theorem writes_flag (value : Bool) :
    Writes limit (appendFlag value : Coder Byte ε Unit) (Format.flag.spell value) :=
  writes_u8 _

theorem writes_i64 (value : Int) :
    Writes limit (appendI64 value : Coder Byte ε Unit)
      (Format.signed.spell (Signed.ofInt value)) :=
  (writes_flag _).bind (writes_u64 _)

theorem writes_coded {α : Type} (c : Codes α) (a : α) :
    Writes limit (appendU8 (c.code a) : Coder Byte ε Unit) ((Format.coded c).spell a) :=
  writes_u8 _

theorem appendBytes_eq (data out : List Byte) :
    S.appendBytes data out =
      if ¬(S.skipsEmpty ∧ data = []) ∧ data.length > S.space out.length then .error S.exceeded
      else .ok ((), out ++ data) := by
  have hget : S.appendBytes data out = (do
      refuseWhen (¬(S.skipsEmpty ∧ data = []) ∧ data.length > S.space out.length) S.exceeded
      set (out ++ data) : Coder Byte ε Unit) out := rfl
  rw [hget]
  by_cases hspace : ¬(S.skipsEmpty ∧ data = []) ∧ data.length > S.space out.length
  · rw [if_pos hspace, refuseWhen, if_pos hspace]
    rfl
  · rw [if_neg hspace, refuseWhen, if_neg hspace]
    rfl

/-- A payload is written when it is no longer than the difference. -/
theorem appendBytes_of_le {data out : List Byte} (h : data.length ≤ S.space out.length) :
    S.appendBytes data out = .ok ((), out ++ data) := by
  rw [appendBytes_eq, if_neg fun hspace => absurd h (Nat.not_le.mpr hspace.2)]

/-- The number of bytes is written unchecked before they are compared. -/
theorem appendString_eq (value out : List Byte) :
    S.appendString value out = S.appendBytes value (out ++ bigEndian 8 value.length) := by
  have hwrites : Writes (out.length + 8) (appendU64 value.length : Coder Byte ε Unit) _ :=
    writes_u64 value.length
  have hheader := hwrites.fits out (by simp [Format.number])
  rw [appendString, decode_bind hheader]
  rfl

theorem writes_bytes (data : List Byte) : Writes S.maximum (S.appendBytes data) data where
  exact := by
    intro out out' h
    rw [appendBytes_eq] at h
    by_cases hspace : ¬(S.skipsEmpty ∧ data = []) ∧ data.length > S.space out.length
    · rw [if_pos hspace] at h
      cases h
    · rw [if_neg hspace] at h
      cases h
      rfl
  fits := by
    intro out hsize
    apply S.appendBytes_of_le
    rw [S.space_of_le (by omega)]
    omega

theorem writes_string (value : List Byte) :
    Writes S.maximum (S.appendString value) (Format.text.spell value) :=
  (writes_u64 _).bind (S.writes_bytes value)

/-- What a writer gives is its spelling, exactly when that fits the limit. -/
theorem finish_eq_ok {w : Coder Byte ε Unit} {s bytes : List Byte} (h : Writes S.maximum w s) :
    S.finish w = .ok bytes ↔ bytes = s ∧ s.length ≤ S.maximum := by
  have hfinish {out : List Byte} (hout : w [] = .ok ((), out)) :
      S.finish w = if out.length > S.maximum then .error S.exceeded else .ok out := by
    simp only [finish, hout, bind, Except.bind]
    by_cases hsize : out.length > S.maximum
    · rw [if_pos hsize, if_pos hsize]
      rfl
    · rw [if_neg hsize, if_neg hsize]
      rfl
  constructor
  · intro hbytes
    cases hout : w [] with
    | error e =>
      simp only [finish, hout, bind, Except.bind] at hbytes
      cases hbytes
    | ok p =>
      obtain ⟨⟨⟩, out⟩ := p
      have hs : out = s := h.exact _ _ hout
      rw [hfinish hout, hs] at hbytes
      by_cases hsize : s.length > S.maximum
      · rw [if_pos hsize] at hbytes
        cases hbytes
      · rw [if_neg hsize] at hbytes
        cases hbytes
        exact ⟨rfl, Nat.not_lt.mp hsize⟩
  · rintro ⟨heq, hsize⟩
    have hout := h.fits [] (by simpa using hsize)
    rw [hfinish hout, List.nil_append, if_neg (Nat.not_lt.mpr hsize), heq]

end Writes

/-! ## What the reader parses -/

section Parses

variable {limit : Nat}

theorem take_eq_ok {count : Nat} {input l rest : List Byte} :
    S.take count input = .ok (l, rest) ↔ input = l ++ rest ∧ l.length = count := by
  have htake : S.take count input = if count > input.length then .error S.truncated
      else .ok (input.take count, input.drop count) := by
    simp only [take, require, bind, StateT.bind, get, getThe, MonadStateOf.get, StateT.get,
      pure, Except.pure, Except.bind]
    by_cases hsize : count > input.length
    · rw [if_pos hsize, if_pos hsize]
      rfl
    · rw [if_neg hsize, if_neg hsize]
      rfl
  rw [htake]
  by_cases hsize : count > input.length
  · rw [if_pos hsize]
    constructor
    · intro h
      cases h
    · rintro ⟨rfl, hlength⟩
      rw [List.length_append] at hsize
      omega
  · rw [if_neg hsize, Except.ok.injEq, Prod.mk.injEq]
    constructor
    · rintro ⟨rfl, rfl⟩
      exact ⟨(List.take_append_drop ..).symm, by rw [List.length_take]; omega⟩
    · rintro ⟨rfl, rfl⟩
      exact ⟨List.take_left, List.drop_left⟩

theorem pure_eq_ok {α : Type} {a b : α} {input rest : List Byte} :
    (pure a : Coder Byte ε α) input = .ok (b, rest) ↔ rest = input ∧ b = a := by
  constructor
  · intro h
    cases h
    exact ⟨rfl, rfl⟩
  · rintro ⟨rfl, rfl⟩
    rfl

theorem parses_u8 : Parses limit S.readU8 .byte Eq := by
  intro input _ a rest
  cases input with
  | nil =>
    constructor
    · intro h
      cases h
    · rintro ⟨s, -, heq, -⟩
      cases heq
  | cons b input =>
    constructor
    · intro h
      cases h
      exact ⟨a, trivial, rfl, rfl⟩
    · rintro ⟨s, -, heq, rfl⟩
      cases heq
      rfl

/-- Bytes one by one, when their number is known. -/
theorem decodeEach_u8_eq_ok {count : Nat} {input l rest : List Byte} :
    decodeEach S.readU8 count input = .ok (l, rest) ↔ input = l ++ rest ∧ l.length = count := by
  rw [S.parses_u8.each count input le_rfl]
  constructor
  · rintro ⟨ss, hlength, -, rfl, hss⟩
    obtain rfl := List.forall₂_eq_eq_eq ▸ hss
    exact ⟨by simp [Format.byte], hlength⟩
  · rintro ⟨rfl, hlength⟩
    exact ⟨l, hlength, fun _ _ => trivial, by simp [Format.byte], List.forall₂_refl _⟩

theorem parses_bigEndian (width : Nat) :
    Parses limit (do return ofBigEndian (← decodeEach S.readU8 width)) (.number width) Eq := by
  intro input _ n rest
  simp only [decode_bind_eq_ok, decodeEach_u8_eq_ok, pure_eq_ok]
  constructor
  · rintro ⟨bytes, _, ⟨rfl, rfl⟩, rfl, rfl⟩
    refine ⟨ofBigEndian bytes, ofBigEndian_lt bytes, ?_, rfl⟩
    simp only [Format.number, bigEndian_ofBigEndian]
  · rintro ⟨n, hn, rfl, rfl⟩
    exact ⟨bigEndian width n, rest, ⟨rfl, length_bigEndian⟩, rfl,
      (ofBigEndian_bigEndian_of_lt hn).symm⟩

theorem parses_u16 : Parses limit S.readU16 (.number 2) Eq :=
  S.parses_bigEndian 2

theorem parses_u32 : Parses limit S.readU32 (.number 4) Eq :=
  S.parses_bigEndian 4

theorem parses_u64 : Parses limit S.readU64 (.number 8) Eq :=
  S.parses_bigEndian 8

theorem parses_uint32 : Parses limit S.readU32 .uint32 fun n m => m = n.toNat := by
  intro input hsize n rest
  rw [S.parses_u32 input hsize]
  constructor
  · rintro ⟨n, hn, rfl, rfl⟩
    have htoNat : (UInt32.ofNat n).toNat = n := UInt32.toNat_ofNat_of_lt' hn
    refine ⟨.ofNat n, trivial, ?_, htoNat.symm⟩
    simp only [Format.number, Format.uint32, htoNat]
  · rintro ⟨n, -, rfl, rfl⟩
    exact ⟨n.toNat, n.toNat_lt, rfl, rfl⟩

theorem parses_uint64 : Parses limit S.readU64 .uint64 fun n m => m = n.toNat := by
  intro input hsize n rest
  rw [S.parses_u64 input hsize]
  constructor
  · rintro ⟨n, hn, rfl, rfl⟩
    have htoNat : (UInt64.ofNat n).toNat = n := UInt64.toNat_ofNat_of_lt' hn
    refine ⟨.ofNat n, trivial, ?_, htoNat.symm⟩
    simp only [Format.number, Format.uint64, htoNat]
  · rintro ⟨n, -, rfl, rfl⟩
    exact ⟨n.toNat, n.toNat_lt, rfl, rfl⟩

theorem eq_zero_or_one : ∀ b : Byte, ¬b > 1 → b = 0 ∨ b = 1 := by
  decide +kernel

theorem parses_flag (invalid : ε) : Parses limit (S.readFlag invalid) .flag Eq := by
  intro input hsize a rest
  simp only [readFlag, decode_bind_eq_ok, refuseWhen_eq_ok, pure_eq_ok]
  constructor
  · rintro ⟨b, middle, hb, ⟨⟩, _, ⟨rfl, hle⟩, rfl, rfl⟩
    obtain ⟨b, -, rfl, rfl⟩ := (S.parses_u8 input hsize _ rest).mp hb
    refine ⟨b == 1, trivial, ?_, rfl⟩
    rcases eq_zero_or_one b hle with rfl | rfl <;> rfl
  · rintro ⟨a, -, rfl, rfl⟩
    have hread := (S.parses_u8.read (s := if a then 1 else 0) trivial hsize).mpr rfl
    refine ⟨if a then 1 else 0, rest, hread, (), rest, ⟨rfl, ?_⟩, rfl, ?_⟩
    · cases a <;> decide
    · cases a <;> decide

theorem parses_bool : Parses limit S.readBool .flag Eq :=
  S.parses_flag _

/-- Bytes after their number are read when the limit of the input keeps them
within the limit of the reader. -/
theorem parses_string {bound : Nat} (hbound : limit ≤ bound) :
    Parses limit (S.readString bound) .text Eq := by
  intro input hsize bytes rest
  simp only [readString, decode_bind_eq_ok, refuseWhen_eq_ok, take_eq_ok]
  constructor
  · rintro ⟨length, middle, hlength, ⟨⟩, _, ⟨rfl, hle⟩, rfl, rfl⟩
    obtain ⟨_, hvalid, rfl, rfl⟩ := (S.parses_u64 input hsize _ _).mp hlength
    exact ⟨bytes, hvalid, (List.append_assoc ..).symm, rfl⟩
  · rintro ⟨bytes, hvalid, rfl, rfl⟩
    have hle : ¬bytes.length > bound := by
      simp only [Format.text, List.length_append, length_bigEndian] at hsize
      omega
    rw [Format.text, List.append_assoc] at hsize ⊢
    exact ⟨bytes.length, _, (S.parses_u64.read hvalid hsize).mpr rfl, (), _, ⟨rfl, hle⟩, rfl, rfl⟩

/-- Bytes after their number, no more than the reader allows. -/
theorem parses_string_within (bound : Nat) :
    Parses limit (S.readString bound) .text fun t bytes => t = bytes ∧ bytes.length ≤ bound := by
  intro input hsize bytes rest
  simp only [readString, decode_bind_eq_ok, refuseWhen_eq_ok, take_eq_ok]
  constructor
  · rintro ⟨length, middle, hlength, ⟨⟩, _, ⟨rfl, hle⟩, rfl, rfl⟩
    obtain ⟨_, hvalid, rfl, rfl⟩ := (S.parses_u64 input hsize _ _).mp hlength
    exact ⟨bytes, hvalid, (List.append_assoc ..).symm, rfl, Nat.not_lt.mp hle⟩
  · rintro ⟨bytes, hvalid, rfl, rfl, hle⟩
    rw [Format.text, List.append_assoc] at hsize ⊢
    exact ⟨bytes.length, _, (S.parses_u64.read hvalid hsize).mpr rfl, (), _,
      ⟨rfl, Nat.not_lt.mpr hle⟩, rfl, rfl⟩

theorem toI64_eq_ok {sign : Bool} {magnitude : Nat} {input rest : List Byte} {n : Int} :
    S.toI64 sign magnitude input = .ok (n, rest) ↔
      rest = input ∧ n = (⟨sign, magnitude⟩ : Signed).value ∧ -2 ^ 63 ≤ n ∧ n < 2 ^ 63 := by
  cases sign with
  | true =>
    simp only [toI64, if_true, decode_bind_eq_ok, refuseWhen_eq_ok, pure_eq_ok, Signed.value]
    constructor
    · rintro ⟨_, _, ⟨rfl, hle⟩, rfl, rfl⟩
      refine ⟨rfl, rfl, ?_, ?_⟩ <;> omega
    · rintro ⟨rfl, rfl, hlower, hupper⟩
      exact ⟨(), rest, ⟨rfl, by omega⟩, rfl, rfl⟩
  | false =>
    simp only [toI64, Bool.false_eq_true, if_false, decode_bind_eq_ok, refuseWhen_eq_ok,
      pure_eq_ok, Signed.value]
    constructor
    · rintro ⟨_, _, ⟨rfl, hle⟩, rfl, rfl⟩
      refine ⟨rfl, rfl, ?_, ?_⟩ <;> omega
    · rintro ⟨rfl, rfl, hlower, hupper⟩
      exact ⟨(), rest, ⟨rfl, by omega⟩, rfl, rfl⟩

/-- A signed number is read wherever it fits an `int64_t`. -/
theorem parses_i64 :
    Parses limit S.readI64 .signed fun s n => n = s.value ∧ -2 ^ 63 ≤ n ∧ n < 2 ^ 63 := by
  apply Parses.as
  · apply (S.parses_flag S.invalidSign).field
    intro sign
    exact S.parses_u64.then fun magnitude _ _ _ => S.toI64_eq_ok
  · intro s _ n
    exact exists_eq_left'

theorem expect_eq_ok {bytes input rest : List Byte} {mismatch : ε} :
    S.expect bytes mismatch input = .ok ((), rest) ↔ input = bytes ++ rest := by
  simp only [expect, decode_bind_eq_ok, refuseWhen_eq_ok, take_eq_ok]
  constructor
  · rintro ⟨found, _, ⟨rfl, -⟩, rfl, hfound⟩
    rw [not_not.mp hfound]
  · rintro rfl
    exact ⟨bytes, rest, ⟨rfl, rfl⟩, rfl, not_not.mpr rfl⟩

theorem readU16_eq_ok {n : Nat} {input rest : List Byte} :
    S.readU16 input = .ok (n, rest) ↔ n < 2 ^ 16 ∧ input = bigEndian 2 n ++ rest := by
  rw [S.parses_u16 input le_rfl]
  constructor
  · rintro ⟨n, hn, rfl, rfl⟩
    exact ⟨hn, rfl⟩
  · rintro ⟨hn, rfl⟩
    exact ⟨n, hn, rfl, rfl⟩

theorem expectU16_eq_ok {value : Nat} (hvalue : value < 2 ^ 16) {input rest : List Byte}
    {mismatch : ε} :
    S.expectU16 value mismatch input = .ok ((), rest) ↔ input = bigEndian 2 value ++ rest := by
  simp only [expectU16, decode_bind_eq_ok, refuseWhen_eq_ok, readU16_eq_ok]
  constructor
  · rintro ⟨found, _, ⟨-, rfl⟩, rfl, hfound⟩
    rw [not_not.mp hfound]
  · rintro rfl
    exact ⟨value, rest, ⟨hvalue, rfl⟩, rfl, not_not.mpr rfl⟩

theorem parses_count (bound : Nat) (exceeded : ε) :
    Parses limit (S.readCount bound exceeded) (.number 8) fun n m => n = m ∧ n ≤ bound := by
  intro input hsize n rest
  simp only [readCount, decode_bind_eq_ok, refuseWhen_eq_ok, pure_eq_ok]
  constructor
  · rintro ⟨count, _, hcount, ⟨⟩, _, ⟨rfl, hle⟩, rfl, rfl⟩
    obtain ⟨_, hvalid, rfl, rfl⟩ := (S.parses_u64 input hsize _ _).mp hcount
    exact ⟨_, hvalid, rfl, rfl, Nat.not_lt.mp hle⟩
  · rintro ⟨_, hvalid, rfl, rfl, hle⟩
    exact ⟨_, rest, (S.parses_u64.read hvalid hsize).mpr rfl, (), rest,
      ⟨rfl, Nat.not_lt.mpr hle⟩, rfl, rfl⟩

theorem parses_code {α : Type} (c : Codes α) (invalid : ε) :
    Parses limit (S.readCode c invalid) (.coded c) Eq := by
  intro input hsize a rest
  rw [readCode, decode_bind_eq_ok]
  constructor
  · rintro ⟨b, middle, hb, ha⟩
    obtain ⟨b, -, rfl, rfl⟩ := (S.parses_u8 input hsize _ middle).mp hb
    cases hcode : c.decode b with
    | none =>
      rw [hcode] at ha
      cases ha
    | some a' =>
      rw [hcode] at ha
      cases ha
      obtain rfl := c.decode_eq_some.mp hcode
      exact ⟨a, trivial, rfl, rfl⟩
  · rintro ⟨a, -, rfl, rfl⟩
    refine ⟨c.code a, rest, (S.parses_u8.read (s := c.code a) trivial hsize).mpr rfl, ?_⟩
    rw [c.decode_eq_some.mpr rfl]
    rfl

theorem parses_codes {α β : Type} (c : Codes α) (d : Codes β) (invalid : ε) :
    Parses limit (S.readCodes c d invalid) ((Format.coded c).seq (.coded d)) Eq := by
  intro input hsize p rest
  simp only [readCodes, decode_bind_eq_ok]
  constructor
  · rintro ⟨first, middle, hfirst, second, last, hsecond, hp⟩
    obtain ⟨first, -, rfl, rfl⟩ := (S.parses_u8 input hsize _ middle).mp hfirst
    obtain ⟨second, -, rfl, rfl⟩ :=
      (S.parses_u8 middle (length_le_of_append hsize) _ last).mp hsecond
    cases ha : c.decode first with
    | none =>
      rw [ha] at hp
      cases hp
    | some a =>
      cases hb : d.decode second with
      | none =>
        rw [ha, hb] at hp
        cases hp
      | some b =>
        rw [ha, hb] at hp
        cases hp
        obtain rfl := c.decode_eq_some.mp ha
        obtain rfl := d.decode_eq_some.mp hb
        exact ⟨(a, b), ⟨trivial, trivial⟩, rfl, rfl⟩
  · rintro ⟨⟨a, b⟩, -, rfl, rfl⟩
    refine ⟨c.code a, d.code b :: rest, rfl, d.code b, rest, rfl, ?_⟩
    rw [c.decode_eq_some.mpr rfl, d.decode_eq_some.mpr rfl]
    rfl

theorem requireEnd_eq_ok {input rest : List Byte} {u : Unit} :
    S.requireEnd input = .ok (u, rest) ↔ input = [] ∧ rest = [] := by
  cases input with
  | nil =>
    constructor
    · intro h
      cases h
      exact ⟨rfl, rfl⟩
    · rintro ⟨-, rfl⟩
      rfl
  | cons b input =>
    constructor
    · intro h
      cases h
    · rintro ⟨h, -⟩
      cases h

end Parses

end Stream

end PkgApply.Library
