import PkgApply.Transport.Streams
import PkgApply.Transport.Formats

/-!
# Fields of the record codecs

Identities, texts and lists as the journal, replay-fact, completed-evidence and
receipt codecs write and read them, and how each codec reports what a parser or
a constructor throws.
-/

namespace PkgApply.Transport

open Library

/-- The text of the exception. -/
def Failure.what : Failure → String
  | .refusal _ _ message => message
  | .exception (.invalidArgument message) => message
  | .exception (.logicError message) => message

namespace RecordCodec

/-- Reading with the errors of the record codecs. -/
abbrev Reading (α : Type) := Coder Byte Failure α

abbrev Writing := Coder Byte Failure Unit

variable (codec : RecordCodec)

section Reading

variable {α : Type}

def refusal (code : RefusalCode) (message : String) : Failure :=
  .refusal codec code message

/-- A parser or a constructor inside a decoder. -/
def build : Except Exn α → Reading α
  | .ok a => return a
  | .error e => throw (.exception e)

/-- Every invalid argument, a refusal of any codec included, becomes an invalid
value of this one. -/
def catchInvalid (preamble : String) (r : Reading α) : Reading α := fun input =>
  match r input with
  | .ok out => .ok out
  | .error (.exception (.logicError message)) => .error (.exception (.logicError message))
  | .error failure => .error (codec.refusal .invalidValue (preamble ++ failure.what))

/-- The codec's own refusals pass; every other invalid argument becomes an
invalid value. -/
def translate (preamble : String) (r : Reading α) : Reading α := fun input =>
  match r input with
  | .ok out => .ok out
  | .error (.exception (.logicError message)) => .error (.exception (.logicError message))
  | .error (.refusal origin code message) =>
    if origin = codec then .error (.refusal origin code message)
    else .error (codec.refusal .invalidValue (preamble ++ message))
  | .error (.exception (.invalidArgument message)) =>
    .error (codec.refusal .invalidValue (preamble ++ message))

/-- Run a decoder on a whole encoding. -/
def decode (r : Reading α) (data : List Byte) : Except Failure α :=
  if data.length > codec.maximum then .error codec.stream.exceeded
  else do
    let (a, _) ← r data
    return a

def readDigest : Reading (BitVec 256) := do
  let text ← codec.stream.readString maximumDigestTextSize
  build (parseDigest text)

/-- Evidence and receipts report whatever is wrong with an identity as such. -/
def identified (r : Reading α) : Reading α :=
  match codec with
  | journal | replayFact => r
  | completedEvidence | receipt =>
    codec.catchInvalid (codec.subject ++ " identity is invalid: ") r

def readIdentity (kind : IdentityKind) : Reading (Identity kind) :=
  codec.identified do return ⟨← codec.readDigest⟩

def readTyped (domain : DigestDomain) : Reading (TypedDigest domain) :=
  codec.identified do return ⟨← codec.readDigest⟩

/-- A planning identity that is parsed outside `read_identity`. -/
def readPlanningText (X : Externals) (kind : IdentityKind) : Reading (Identity kind) := do
  let text ← codec.stream.readString maximumDigestTextSize
  build (X.parsePlanning kind text)

def readPlanning (X : Externals) (kind : IdentityKind) : Reading (Identity kind) :=
  codec.identified (codec.readPlanningText X kind)

def readPath (X : Externals) : Reading PackagePath := do
  let text ← codec.stream.readString codec.maximum
  build (X.parsePath text)

/-- A number of elements within the count limit of their description, and the
elements. -/
def readList (bound : Nat) (description : String) (r : Reading α) : Reading (List α) := do
  let count ← codec.stream.readCount bound
    (codec.refusal .limitExceeded (description ++ " exceeds its count limit"))
  decodeEach r count

def readOptional (r : Reading α) : Reading (Option α) :=
  decodeOptional codec.stream.readBool r

end Reading

section Writing

variable {α : Type}

def appendIdentity {kind : IdentityKind} (identity : Identity kind) : Writing :=
  codec.stream.appendString (digestText identity.digest)

def appendTyped {domain : DigestDomain} (identity : TypedDigest domain) : Writing :=
  codec.stream.appendString (digestText identity.digest)

def appendPlanning (X : Externals) {kind : IdentityKind} (identity : Identity kind) : Writing :=
  codec.stream.appendString (X.planningText identity)

def appendPath (path : PackagePath) : Writing :=
  codec.stream.appendString path.bytes

/-- The number of elements, which no encoder compares with a limit, and the
elements. -/
def appendList (write : α → Writing) (l : List α) : Writing := do
  Stream.appendU64 l.length
  encodeEach write l

def appendOptional (write : α → Writing) (o : Option α) : Writing :=
  encodeOptional Stream.appendFlag write o

end Writing

/-! ## What is read -/

section Parses

variable {codec} {α σ : Type} {r : Reading α} {X : Externals}

@[simp] theorem build_eq_ok {x : Except Exn α} {a : α} {input rest : List Byte} :
    build x input = .ok (a, rest) ↔ rest = input ∧ x = .ok a := by
  cases x with
  | error e =>
    constructor
    · intro h
      cases h
    · rintro ⟨-, h⟩
      cases h
  | ok b =>
    rw [build, Stream.pure_eq_ok, Except.ok.injEq, eq_comm (a := a)]

theorem catchInvalid_eq_ok {preamble : String} {input : List Byte} {out : α × List Byte} :
    codec.catchInvalid preamble r input = .ok out ↔ r input = .ok out := by
  unfold catchInvalid
  split
  · rename_i h
    rw [h]
  · rename_i h
    rw [h]
  · rename_i h
    rw [h]
    simp

theorem translate_eq_ok {preamble : String} {input : List Byte} {out : α × List Byte} :
    codec.translate preamble r input = .ok out ↔ r input = .ok out := by
  unfold translate
  split
  · rename_i h
    rw [h]
  · rename_i h
    rw [h]
  · rename_i h
    rw [h]
    split <;> simp
  · rename_i h
    rw [h]
    simp

theorem identified_eq_ok {input : List Byte} {out : α × List Byte} :
    codec.identified r input = .ok out ↔ r input = .ok out := by
  cases codec with
  | journal => exact Iff.rfl
  | replayFact => exact Iff.rfl
  | completedEvidence => exact catchInvalid_eq_ok
  | receipt => exact catchInvalid_eq_ok

/-- A decoder accepts data within the limit that it reads, whatever is left. -/
theorem decode_eq_ok {data : List Byte} {a : α} :
    codec.decode r data = .ok a ↔
      data.length ≤ codec.maximum ∧ ∃ rest, r data = .ok (a, rest) := by
  unfold decode
  by_cases hsize : data.length > codec.maximum
  · rw [if_pos hsize]
    constructor
    · intro h
      cases h
    · rintro ⟨hle, -⟩
      omega
  · rw [if_neg hsize]
    cases hr : r data with
    | error e =>
      constructor
      · intro h
        cases h
      · rintro ⟨-, rest, h⟩
        cases h
    | ok p =>
      obtain ⟨b, rest⟩ := p
      constructor
      · intro h
        cases h
        exact ⟨Nat.not_lt.mp hsize, rest, rfl⟩
      · rintro ⟨-, rest', h⟩
        cases h
        rfl

variable {limit : Nat} {F : Format Byte σ} {V : σ → α → Prop}

theorem parses_identified (h : Parses limit r F V) : Parses limit (codec.identified r) F V := by
  intro input hsize a rest
  rw [identified_eq_ok]
  exact h input hsize a rest

theorem parses_translate {preamble : String} (h : Parses limit r F V) :
    Parses limit (codec.translate preamble r) F V := by
  intro input hsize a rest
  rw [translate_eq_ok]
  exact h input hsize a rest

theorem parses_digest : Parses limit codec.readDigest digestFormat Eq := by
  have hstring : Parses limit (codec.stream.readString maximumDigestTextSize) .text _ :=
    codec.stream.parses_string_within maximumDigestTextSize
  have htext := hstring.then fun text _ (digest : BitVec 256) _ =>
    build_eq_ok (x := parseDigest text)
  intro input hsize digest rest
  rw [readDigest, htext input hsize]
  constructor
  · rintro ⟨text, -, rfl, _, ⟨rfl, -⟩, hparse⟩
    obtain rfl := parseDigest_eq_ok.mp hparse
    exact ⟨digest, trivial, rfl, rfl⟩
  · rintro ⟨digest, -, rfl, rfl⟩
    refine ⟨digestText digest, ?_, rfl, _, ⟨rfl, ?_⟩, parseDigest_text digest⟩
    · change (digestText digest).length < 256 ^ 8
      rw [length_digestText]
      decide
    · rw [length_digestText]
      decide

theorem parses_identity (kind : IdentityKind) :
    Parses limit (codec.readIdentity kind) (identityFormat kind) Eq := by
  apply parses_identified
  apply Parses.as
  · exact parses_digest.then fun _ _ _ _ => Stream.pure_eq_ok
  · rintro ⟨digest⟩ _ ⟨digest'⟩
    simp [eq_comm]

theorem parses_typed (domain : DigestDomain) :
    Parses limit (codec.readTyped domain) (typedFormat domain) Eq := by
  apply parses_identified
  apply Parses.as
  · exact parses_digest.then fun _ _ _ _ => Stream.pure_eq_ok
  · rintro ⟨digest⟩ _ ⟨digest'⟩
    simp [eq_comm]

theorem parses_planningText (kind : IdentityKind) :
    Parses limit (codec.readPlanningText X kind) .text X.ReadsPlanning := by
  have hstring : Parses limit (codec.stream.readString maximumDigestTextSize) .text _ :=
    codec.stream.parses_string_within maximumDigestTextSize
  have htext := hstring.then fun text _ (identity : Identity kind) _ =>
    build_eq_ok (x := X.parsePlanning kind text)
  apply htext.iff
  intro text _ identity
  constructor
  · rintro ⟨_, ⟨rfl, hsize⟩, hparse⟩
    exact ⟨hparse, hsize⟩
  · rintro ⟨hparse, hsize⟩
    exact ⟨text, ⟨rfl, hsize⟩, hparse⟩

theorem parses_planning (kind : IdentityKind) :
    Parses limit (codec.readPlanning X kind) .text X.ReadsPlanning :=
  parses_identified (parses_planningText kind)

theorem parses_path : Parses codec.maximum (codec.readPath X) .text
    fun text path => X.parsePath text = .ok path := by
  have htext := (codec.stream.parses_string (le_refl codec.maximum)).then
    fun text _ (path : PackagePath) _ => build_eq_ok (x := X.parsePath text)
  apply htext.iff
  intro text _ path
  exact exists_eq_left'

theorem parses_list {bound : Nat} {description : String} (h : Parses limit r F V) :
    Parses limit (codec.readList bound description r) (listFormat F) fun ss l =>
      ss.length ≤ bound ∧ List.Forall₂ V ss l :=
  .list (codec.stream.parses_count bound _) h

theorem parses_optional (h : Parses limit r F V) :
    Parses limit (codec.readOptional r) (optionalFormat F) (Option.Rel V) :=
  .optional rfl codec.stream.parses_bool h

end Parses

/-! ## What is written -/

section Writes

variable {α σ : Type} {X : Externals}

theorem writes_payload (data : List Byte) :
    Writes codec.maximum (codec.stream.appendBytes data) data :=
  codec.stream.writes_bytes data

theorem writes_identity {kind : IdentityKind} (identity : Identity kind) :
    Writes codec.maximum (codec.appendIdentity identity) ((identityFormat kind).spell identity) :=
  codec.stream.writes_string _

theorem writes_typed {domain : DigestDomain} (identity : TypedDigest domain) :
    Writes codec.maximum (codec.appendTyped identity) ((typedFormat domain).spell identity) :=
  codec.stream.writes_string _

theorem writes_planning {kind : IdentityKind} (identity : Identity kind) :
    Writes codec.maximum (codec.appendPlanning X identity)
      (Format.text.spell (X.planningText identity)) :=
  codec.stream.writes_string _

theorem writes_path (path : PackagePath) :
    Writes codec.maximum (codec.appendPath path) (Format.text.spell path.bytes) :=
  codec.stream.writes_string _

/-- A list is written as the spellings of its elements. -/
theorem writes_list {limit : Nat} {F : Format Byte σ} {write : α → Writing} {spelled : α → σ}
    {l : List α} (h : ∀ a ∈ l, Writes limit (write a) (F.spell (spelled a))) :
    Writes limit (appendList write l) ((listFormat F).spell (l.map spelled)) := by
  have hlist := (Stream.writes_u64 l.length).bind (writes_each h)
  apply hlist.of_eq
  simp [listFormat, Format.list, counted, List.flatMap_map]

theorem writes_optional {limit : Nat} {F : Format Byte σ} {write : α → Writing} {spelled : α → σ}
    {o : Option α} (h : ∀ a, o = some a → Writes limit (write a) (F.spell (spelled a))) :
    Writes limit (appendOptional write o) ((optionalFormat F).spell (o.map spelled)) := by
  have hoptional := Library.writes_optional (fun present => Stream.writes_flag present) h
  apply hoptional.of_eq
  cases o <;> rfl

/-- Elements that are their own spelling. -/
theorem writes_list_id {limit : Nat} {F : Format Byte σ} {write : σ → Writing} {l : List σ}
    (h : ∀ a, Writes limit (write a) (F.spell a)) :
    Writes limit (appendList write l) ((listFormat F).spell l) := by
  have hlist := writes_list fun a (_ : a ∈ l) => h a
  rwa [List.map_id'] at hlist

theorem writes_optional_id {limit : Nat} {F : Format Byte σ} {write : σ → Writing}
    {o : Option σ} (h : ∀ a, Writes limit (write a) (F.spell a)) :
    Writes limit (appendOptional write o) ((optionalFormat F).spell o) := by
  have hoptional := writes_optional fun a (_ : o = some a) => h a
  rwa [Option.map_id'] at hoptional

end Writes

end RecordCodec

end PkgApply.Transport
