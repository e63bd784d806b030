import PkgApply.Transport.Records
import PkgApply.Transport.Objects

/-!
# Observations, durability and evidence in the record codecs

The replay-fact, completed-evidence and receipt codecs write these alike and
read them alike.  They differ in the texts of their errors, and replay facts
name the field of a bad object qualification.
-/

namespace PkgApply.Transport

open Library

namespace RecordCodec

variable (codec : RecordCodec) (X : Externals)

/-! ## Readers -/

section Reader

variable {α : Type}

def readUInt32 : Reading UInt32 := do
  return .ofNat (← codec.stream.readU32)

def readUInt64 : Reading UInt64 := do
  return .ofNat (← codec.stream.readU64)

/-- The state of a fact, and what each state stands for. -/
def readState (description : String) (known : Reading α) (unknown notApplicable : α) :
    Reading α := do
  match ← codec.stream.readCode factStates
    (codec.refusal .invalidValue (codec.contains ++ description)) with
  | .known => known
  | .unknown => return unknown
  | .notApplicable => return notApplicable

/-- A fact, known or not. -/
def readFact (r : Reading α) : Reading (QualifiedFact α) :=
  codec.readState " an invalid fact state" (do return .known (← r)) .unknown .notApplicable

def readTimestamp : Reading CompletedObjectTimestamp := do
  let seconds ← codec.stream.readI64
  let nanoseconds ← codec.readUInt32
  return ⟨seconds, nanoseconds⟩

def readDevice : Reading CompletedDeviceNumber := do
  let major ← codec.readUInt64
  let minor ← codec.readUInt64
  return ⟨major, minor⟩

def readQualification : Reading (ObjectFactProvenance × ObjectFactCompleteness) :=
  match codec with
  | replayFact => do
    let provenance ← replayFact.stream.readCode provenances (replayFact.refusal .invalidValue
      "application replay fact contains invalid object provenance")
    let completeness ← replayFact.stream.readCode objectCompletenesses
      (replayFact.refusal .invalidValue
        "application replay fact contains invalid object completeness")
    return (provenance, completeness)
  | codec =>
    codec.stream.readCodes provenances objectCompletenesses
      (codec.refusal .invalidValue (codec.contains ++ " invalid object qualification"))

/-- The fields of an object, and its constructor. -/
def readObject : Reading CompletedObjectFact := do
  let path ← codec.readPath X
  let kind ← codec.stream.readCode objectKinds
    (codec.refusal .invalidValue (codec.contains ++ " an invalid object kind"))
  let mode ← codec.readFact codec.readUInt32
  let uid ← codec.readFact codec.readUInt64
  let gid ← codec.readFact codec.readUInt64
  let size ← codec.readFact codec.readUInt64
  let mtime ← codec.readFact codec.readTimestamp
  let regularContent ← codec.readFact (codec.readIdentity .regularContent)
  let symlinkTarget ← codec.readFact (codec.stream.readString codec.maximum)
  let device ← codec.readFact codec.readDevice
  let hardlink ← codec.readFact (codec.readPath X)
  let qualification ← codec.readQualification
  build (makeObject ⟨path, kind, mode, uid, gid, size, mtime, regularContent, symlinkTarget,
    device, hardlink, qualification.1, qualification.2⟩)

/-- A path, and the object observed there. -/
def readObservation : Reading PathObservation := do
  let path ← codec.readPath X
  let present := do
    let object ← codec.readObject X
    refuseWhen (object.path ≠ path) (codec.refusal .invalidValue
      (codec.subject ++ " observation path disagrees with object"))
    return .present object
  codec.readState " an invalid observation state" present (.unknown path) (.absent path)

def readDurabilityFact : Reading DurabilityFact := do
  let (domain, status) ← codec.stream.readCodes durabilityDomains durabilityStatuses
    (codec.refusal .invalidValue (codec.contains ++ " invalid durability truth"))
  return ⟨domain, status⟩

/-- How a list of the codec is described where it is too long. -/
def described (description : String) : String :=
  match codec with
  | journal | replayFact => description
  | completedEvidence | receipt => codec.subject ++ " " ++ description

/-- Evidence and receipts report what a constructor refuses as their own. -/
def checked (preamble : String) (r : Reading α) : Reading α :=
  match codec with
  | journal | replayFact => r
  | completedEvidence | receipt => codec.catchInvalid (codec.subject ++ preamble) r

def readDurability : Reading DurabilityProfile := do
  let facts ← codec.readList maximumItemCount (codec.described "durability facts")
    codec.readDurabilityFact
  codec.checked " durability is invalid: " (build (makeDurabilityProfile facts))

def readBackendEvidence : Reading (List BackendEvidenceIdentity) :=
  codec.readList maximumItemCount
    (match codec with
      | journal | replayFact => "backend evidence"
      | completedEvidence | receipt => "completed backend evidence")
    (codec.readIdentity .backendEvidence)

end Reader

/-! ## Writers -/

section Writer

variable {α : Type}

/-- The state of a fact and, where it is known, its value. -/
def appendFact (write : α → Writing) (fact : QualifiedFact α) : Writing := do
  Stream.appendU8 (factStates.code fact.state)
  match fact with
  | .known value => write value
  | _ => pure ()

def appendTimestamp (time : CompletedObjectTimestamp) : Writing := do
  Stream.appendI64 time.seconds
  Stream.appendU32 time.nanoseconds.toNat

def appendDevice (device : CompletedDeviceNumber) : Writing := do
  Stream.appendU64 device.major.toNat
  Stream.appendU64 device.minor.toNat

def appendObject (object : CompletedObjectFact) : Writing := do
  codec.appendPath object.path
  Stream.appendU8 (objectKinds.code object.kind)
  appendFact (fun value => Stream.appendU32 value.toNat) object.mode
  appendFact (fun value => Stream.appendU64 value.toNat) object.uid
  appendFact (fun value => Stream.appendU64 value.toNat) object.gid
  appendFact (fun value => Stream.appendU64 value.toNat) object.size
  appendFact appendTimestamp object.mtime
  appendFact codec.appendIdentity object.regularContent
  appendFact codec.stream.appendString object.symlinkTarget
  appendFact appendDevice object.device
  appendFact codec.appendPath object.hardlink
  Stream.appendU8 (provenances.code object.provenance)
  Stream.appendU8 (objectCompletenesses.code object.completeness)

def appendObservation (o : PathObservation) : Writing := do
  codec.appendPath o.path
  appendFact codec.appendObject (observedFact o)

def appendDurabilityFact (fact : DurabilityFact) : Writing := do
  Stream.appendU8 (durabilityDomains.code fact.domain)
  Stream.appendU8 (durabilityStatuses.code fact.status)

def appendDurability (profile : DurabilityProfile) : Writing :=
  appendList appendDurabilityFact (durabilityFacts profile)

def appendBackendEvidence (evidence : Evidence) : Writing :=
  appendList codec.appendIdentity (ascending evidence)

end Writer

/-! ## What is read -/

section Parses

variable {codec X} {α σ : Type} {limit : Nat} {r : Reading α} {F : Format Byte σ}
  {V : σ → α → Prop}

theorem parses_UInt32 : Parses limit codec.readUInt32 .uint32 Eq := by
  apply ((codec.stream.parses_uint32).then fun _ _ _ _ => Stream.pure_eq_ok).iff
  intro n _ m
  constructor
  · rintro ⟨_, rfl, rfl⟩
    exact UInt32.ofNat_toNat.symm
  · rintro rfl
    exact ⟨_, rfl, UInt32.ofNat_toNat.symm⟩

theorem parses_UInt64 : Parses limit codec.readUInt64 .uint64 Eq := by
  apply ((codec.stream.parses_uint64).then fun _ _ _ _ => Stream.pure_eq_ok).iff
  intro n _ m
  constructor
  · rintro ⟨_, rfl, rfl⟩
    exact UInt64.ofNat_toNat.symm
  · rintro rfl
    exact ⟨_, rfl, UInt64.ofNat_toNat.symm⟩

/-- What a state and the known value behind it denote. -/
theorem parses_state {description : String} {unknown notApplicable : α} (h : Parses limit r F V) :
    Parses limit (codec.readState description r unknown notApplicable) (factFormat F)
      fun f a => match f with
        | .known s => V s a
        | .unknown => a = unknown
        | .notApplicable => a = notApplicable := by
  intro input hsize a rest
  rw [readState, decode_bind_eq_ok]
  constructor
  · rintro ⟨state, middle, hstate, ha⟩
    obtain ⟨state, -, rfl, rfl⟩ := (codec.stream.parses_code _ _ input hsize _ middle).mp hstate
    cases state with
    | known =>
      obtain ⟨s, hs, rfl, hV⟩ := (h middle (length_le_of_append hsize) a rest).mp ha
      exact ⟨.known s, fun _ hknown => (by cases hknown; exact hs), rfl, hV⟩
    | unknown =>
      obtain ⟨rfl, rfl⟩ := Stream.pure_eq_ok.mp ha
      exact ⟨.unknown, fun _ hknown => (by cases hknown), rfl, rfl⟩
    | notApplicable =>
      obtain ⟨rfl, rfl⟩ := Stream.pure_eq_ok.mp ha
      exact ⟨.notApplicable, fun _ hknown => (by cases hknown), rfl, rfl⟩
  · rintro ⟨f, hf, rfl, hV⟩
    have hcode (state : FactState) (more : List Byte)
        (hmore : ([factStates.code state] ++ more).length ≤ limit) :=
      (codec.stream.parses_code factStates (codec.refusal .invalidValue
        (codec.contains ++ description))).read (s := state) trivial hmore |>.mpr rfl
    cases f with
    | known s =>
      have hvalue := (h.read (hf s rfl) (length_le_of_append (x := [1]) hsize)).mpr hV
      exact ⟨.known, F.spell s ++ rest, hcode .known _ hsize, hvalue⟩
    | unknown => exact ⟨.unknown, rest, hcode .unknown _ hsize, Stream.pure_eq_ok.mpr ⟨rfl, hV⟩⟩
    | notApplicable =>
      exact ⟨.notApplicable, rest, hcode .notApplicable _ hsize, Stream.pure_eq_ok.mpr ⟨rfl, hV⟩⟩

/-- A fact is read back where its value is. -/
theorem parses_fact (h : Parses limit r F V) :
    Parses limit (codec.readFact r) (factFormat F) (QualifiedFact.Rel V) := by
  apply (parses_state (h.then fun _ _ _ _ => Stream.pure_eq_ok)).iff
  intro f _ g
  cases f with
  | known s =>
    constructor
    · rintro ⟨a, ha, rfl⟩
      exact .known ha
    · rintro (ha | _ | _)
      exact ⟨_, ha, rfl⟩
  | unknown =>
    constructor
    · rintro rfl
      exact .unknown
    · rintro (_ | _ | _)
      rfl
  | notApplicable =>
    constructor
    · rintro rfl
      exact .notApplicable
    · rintro (_ | _ | _)
      rfl

theorem parses_fact_eq {r : Reading σ} (h : Parses limit r F Eq) :
    Parses limit (codec.readFact r) (factFormat F) Eq :=
  (parses_fact h).iff fun _ _ _ => QualifiedFact.rel_eq_iff

theorem parses_timestamp :
    Parses limit codec.readTimestamp timestampFormat SpelledTimestamp.Denotes := by
  apply Parses.as
  · apply codec.stream.parses_i64.bind
    intro seconds
    exact parses_UInt32.then fun _ _ _ _ => Stream.pure_eq_ok
  · rintro s _ ⟨seconds, nanoseconds⟩
    simp only [exists_eq_left', SpelledTimestamp.Denotes, CompletedObjectTimestamp.mk.injEq]
    constructor
    · rintro ⟨_, ⟨hvalue, hlower, hupper⟩, rfl, rfl⟩
      exact ⟨hvalue, hlower, hupper, rfl⟩
    · rintro ⟨hvalue, hlower, hupper, rfl⟩
      exact ⟨seconds, ⟨hvalue, hlower, hupper⟩, rfl, rfl⟩

theorem parses_device : Parses limit codec.readDevice deviceFormat Eq := by
  apply Parses.as
  · apply parses_UInt64.field
    intro major
    exact parses_UInt64.then fun _ _ _ _ => Stream.pure_eq_ok
  · intro s _ device
    simp only [exists_eq_left']
    exact eq_comm

theorem parses_qualification : Parses limit codec.readQualification
    ((Format.coded provenances).seq (.coded objectCompletenesses)) Eq := by
  have hboth (codec : RecordCodec) : Parses limit
      (codec.stream.readCodes provenances objectCompletenesses (codec.refusal .invalidValue
        (codec.contains ++ " invalid object qualification")))
      ((Format.coded provenances).seq (.coded objectCompletenesses)) Eq :=
    codec.stream.parses_codes _ _ _
  cases codec with
  | journal => exact hboth journal
  | completedEvidence => exact hboth completedEvidence
  | receipt => exact hboth receipt
  | replayFact =>
    apply ((Stream.parses_code _ _ _).field fun provenance =>
      (Stream.parses_code _ _ _).then fun _ _ _ _ => Stream.pure_eq_ok).iff
    rintro ⟨provenance, completeness⟩ _ qualification
    simp [eq_comm]

/-- An object is read where its constructor accepts its fields. -/
theorem parses_object :
    Parses codec.maximum (codec.readObject X) objectFormat (SpelledObject.Denotes X) := by
  apply Parses.as
  · apply parses_path.bind
    intro path
    apply (Stream.parses_code _ _ _).field
    intro kind
    apply (parses_fact_eq parses_UInt32).field
    intro mode
    apply (parses_fact_eq parses_UInt64).field
    intro uid
    apply (parses_fact_eq parses_UInt64).field
    intro gid
    apply (parses_fact_eq parses_UInt64).field
    intro size
    apply (parses_fact parses_timestamp).bind
    intro mtime
    apply (parses_fact_eq (parses_identity _)).field
    intro regularContent
    apply (parses_fact_eq (codec.stream.parses_string le_rfl)).field
    intro symlinkTarget
    apply (parses_fact_eq parses_device).field
    intro device
    apply (parses_fact parses_path).bind
    intro hardlink
    apply parses_qualification.then
    intro qualification input object rest
    exact build_eq_ok
  · intro s _ object
    simp only [exists_eq_left', makeObject_eq_ok]
    constructor
    · rintro ⟨path, hpath, mtime, hmtime, hardlink, hhardlink, hobject⟩
      injection hobject with h1 h2 h3 h4 h5 h6 h7 h8 h9 h10 h11 h12 h13
      subst h1 h7 h11
      exact ⟨hpath, h2.symm, h3.symm, h4.symm, h5.symm, h6.symm, hmtime, h8.symm, h9.symm,
        h10.symm, hhardlink, h12.symm, h13.symm⟩
    · intro h
      refine ⟨object.path, h.path, object.mtime, h.mtime, object.hardlink, h.hardlink, ?_⟩
      rw [objectFields, ← h.kind, ← h.mode, ← h.uid, ← h.gid, ← h.size, ← h.regularContent,
        ← h.symlinkTarget, ← h.device, ← h.provenance, ← h.completeness]
      rfl

/-- An observation is read where its object is at its path. -/
theorem parses_observation :
    Parses codec.maximum (codec.readObservation X) observationFormat
      (SpelledObservation.Denotes X) := by
  apply Parses.as
  · apply parses_path.bind
    intro path
    apply parses_state
    apply parses_object.then (K := fun object o => object.path = path ∧ o = .present object)
    intro object input o rest
    simp only [decode_bind_eq_ok, refuseWhen_eq_ok, Stream.pure_eq_ok, not_not]
    constructor
    · rintro ⟨_, _, ⟨rfl, hpath⟩, rfl, rfl⟩
      exact ⟨rfl, hpath, rfl⟩
    · rintro ⟨rfl, hpath, rfl⟩
      exact ⟨(), rest, ⟨rfl, hpath⟩, rfl, rfl⟩
  · rintro ⟨text, fact⟩ _ o
    constructor
    · rintro ⟨path, hpath, hfact⟩
      cases fact with
      | known object =>
        obtain ⟨object, hobject, rfl, rfl⟩ := hfact
        exact ⟨hpath, .known hobject⟩
      | unknown =>
        obtain rfl := hfact
        exact ⟨hpath, .unknown⟩
      | notApplicable =>
        obtain rfl := hfact
        exact ⟨hpath, .notApplicable⟩
    · rintro ⟨hpath, hfact⟩
      refine ⟨o.path, hpath, ?_⟩
      cases o with
      | present object =>
        rcases hfact with hobject | _ | _
        exact ⟨object, hobject, rfl, rfl⟩
      | absent path =>
        rcases hfact with _ | _ | _
        rfl
      | unknown path =>
        rcases hfact with _ | _ | _
        rfl

theorem parses_durabilityFact :
    Parses limit codec.readDurabilityFact durabilityFactFormat Eq := by
  apply Parses.as
  · exact (codec.stream.parses_codes _ _ _).then fun _ _ _ _ => Stream.pure_eq_ok
  · intro s _ fact
    simp only [exists_eq_left']
    exact eq_comm

/-- What is reported as another error is accepted alike. -/
theorem checked_eq_ok {preamble : String} {input : List Byte} {out : α × List Byte} :
    codec.checked preamble r input = .ok out ↔ r input = .ok out := by
  cases codec with
  | journal => exact Iff.rfl
  | replayFact => exact Iff.rfl
  | completedEvidence => exact catchInvalid_eq_ok
  | receipt => exact catchInvalid_eq_ok

theorem parses_durability : Parses limit codec.readDurability (listFormat durabilityFactFormat)
    fun facts profile => makeDurabilityProfile facts = .ok profile := by
  apply ((parses_list parses_durabilityFact).then fun facts input profile rest =>
    checked_eq_ok.trans build_eq_ok).iff
  intro facts _ profile
  simp only [List.forall₂_eq_eq_eq]
  constructor
  · rintro ⟨_, ⟨-, rfl⟩, hprofile⟩
    exact hprofile
  · intro hprofile
    have hlength := (makeDurabilityProfile_eq_ok.mp hprofile).length_eq
    refine ⟨facts, ⟨?_, rfl⟩, hprofile⟩
    rw [hlength]
    exact (by decide : 6 ≤ maximumItemCount)

theorem parses_backendEvidence :
    Parses limit codec.readBackendEvidence (listFormat (identityFormat .backendEvidence))
      fun l l' => l = l' ∧ l.length ≤ maximumItemCount := by
  apply (parses_list (parses_identity _)).iff
  intro l _ l'
  rw [List.forall₂_eq_eq_eq]
  exact and_comm

end Parses

/-! ## What is written -/

section Writes

variable {α σ : Type} {limit : Nat} {F : Format Byte σ} {write : α → Writing} {spelled : α → σ}

theorem writes_fact (h : ∀ a, Writes limit (write a) (F.spell (spelled a)))
    (fact : QualifiedFact α) :
    Writes limit (appendFact write fact) ((factFormat F).spell (fact.map spelled)) := by
  cases fact with
  | known a => exact (Stream.writes_u8 _).bind (h a)
  | unknown => exact (Stream.writes_u8 _).bind .nothing
  | notApplicable => exact (Stream.writes_u8 _).bind .nothing

theorem map_id_fact (fact : QualifiedFact α) : fact.map id = fact := by
  cases fact <;> rfl

theorem writes_fact_id {write : σ → Writing} (h : ∀ a, Writes limit (write a) (F.spell a))
    (fact : QualifiedFact σ) :
    Writes limit (appendFact write fact) ((factFormat F).spell fact) := by
  have hspelled : ∀ a, Writes limit (write a) (F.spell (id a)) := h
  have hfact := writes_fact hspelled fact
  rwa [map_id_fact] at hfact

theorem writes_timestamp (time : CompletedObjectTimestamp) :
    Writes limit (appendTimestamp time) (timestampFormat.spell (spellTimestamp time)) :=
  (Stream.writes_i64 _).bind (Stream.writes_u32 _)

theorem writes_device (device : CompletedDeviceNumber) :
    Writes limit (appendDevice device) (deviceFormat.spell device) :=
  (Stream.writes_u64 _).bind (Stream.writes_u64 _)

/-- An object is written field by field. -/
theorem writes_object (object : CompletedObjectFact) :
    Writes codec.maximum (codec.appendObject object) (objectFormat.spell (spellObject object)) := by
  have hu64 (fact : QualifiedFact UInt64) : Writes codec.maximum
      (appendFact (fun value => Stream.appendU64 value.toNat) fact)
      ((factFormat .uint64).spell fact) :=
    writes_fact_id (fun value => Stream.writes_u64 value.toNat) fact
  apply (writes_path _ _).bind
  apply (Stream.writes_coded objectKinds _).bind
  apply (writes_fact_id (F := .uint32) (fun value => Stream.writes_u32 value.toNat) _).bind
  apply (hu64 _).bind
  apply (hu64 _).bind
  apply (hu64 _).bind
  apply (writes_fact writes_timestamp _).bind
  apply (writes_fact_id (F := identityFormat _) (writes_identity codec) _).bind
  apply (writes_fact_id codec.stream.writes_string _).bind
  apply (writes_fact_id writes_device _).bind
  apply (writes_fact (writes_path codec) _).bind
  apply (Stream.writes_coded provenances _).bind
  exact Stream.writes_coded objectCompletenesses _

theorem writes_observation (o : PathObservation) :
    Writes codec.maximum (codec.appendObservation o)
      (observationFormat.spell (spellObservation o)) :=
  (writes_path codec _).bind (writes_fact (writes_object codec) _)

theorem writes_durabilityFact (fact : DurabilityFact) :
    Writes limit (appendDurabilityFact fact) (durabilityFactFormat.spell fact) :=
  (Stream.writes_coded durabilityDomains _).bind (Stream.writes_coded durabilityStatuses _)

theorem writes_durability (profile : DurabilityProfile) :
    Writes limit (appendDurability profile)
      ((listFormat durabilityFactFormat).spell (durabilityFacts profile)) :=
  writes_list_id writes_durabilityFact

theorem writes_backendEvidence (evidence : Evidence) :
    Writes codec.maximum (codec.appendBackendEvidence evidence)
      ((listFormat (identityFormat .backendEvidence)).spell (ascending evidence)) :=
  writes_list_id (writes_identity codec)

end Writes

end RecordCodec

end PkgApply.Transport
