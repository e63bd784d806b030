import PkgApply.Observation
import PkgApply.Receipt
import PkgApply.Transport.Formats

/-!
# Formats of observations and durability

How object facts, path observations, durability profiles and backend evidence
are spelled, the same in the replay-fact, completed-evidence and receipt codecs.
A spelled value keeps the texts of paths, the sign of a zero and the order of
its lists.
-/

namespace PkgApply

/-! ## Qualified facts -/

namespace QualifiedFact

variable {α σ : Type}

/-- The state of a fact. -/
def state : QualifiedFact α → FactState
  | .known _ => .known
  | .unknown => .unknown
  | .notApplicable => .notApplicable

def map (f : α → σ) : QualifiedFact α → QualifiedFact σ
  | .known a => .known (f a)
  | .unknown => .unknown
  | .notApplicable => .notApplicable

theorem map_eq_known {f : α → σ} {g : QualifiedFact α} {b : σ} :
    g.map f = .known b ↔ ∃ a, g = .known a ∧ f a = b := by
  cases g with
  | known a => simp [map]
  | unknown => simp [map]
  | notApplicable => simp [map]

/-- Facts of one state, related where they are known. -/
inductive Rel (V : σ → α → Prop) : QualifiedFact σ → QualifiedFact α → Prop
  | known {s : σ} {a : α} (h : V s a) : Rel V (.known s) (.known a)
  | unknown : Rel V .unknown .unknown
  | notApplicable : Rel V .notApplicable .notApplicable

theorem rel_eq_iff {f g : QualifiedFact α} : Rel Eq f g ↔ f = g := by
  constructor
  · rintro (h | _ | _)
    · rw [h]
    · rfl
    · rfl
  · rintro rfl
    cases f with
    | known a => exact .known rfl
    | unknown => exact .unknown
    | notApplicable => exact .notApplicable

/-- A fact is related to its own spelling when its value is. -/
theorem rel_spelled {V : σ → α → Prop} {spelled : α → σ} {f : QualifiedFact α}
    (h : ∀ a, f = .known a → V (spelled a) a) : Rel V (map spelled f) f := by
  cases f with
  | known a => exact .known (h a rfl)
  | unknown => exact .unknown
  | notApplicable => exact .notApplicable

/-- A value spelled canonically where it is known. -/
theorem canonical_iff {V : σ → α → Prop} {canonical : σ → Prop} {spelled : α → σ}
    {f : QualifiedFact σ} {g : QualifiedFact α} (h : Rel V f g)
    (hcanonical : ∀ s a, V s a → (canonical s ↔ s = spelled a)) :
    (∀ s, f = .known s → canonical s) ↔ f = map spelled g := by
  cases h with
  | @known s a hs => simpa [map] using hcanonical s a hs
  | unknown => simp [map]
  | notApplicable => simp [map]

end QualifiedFact

namespace Transport

open Library

/-- No codec but that of the journal reads a longer list. -/
def maximumItemCount : Nat := 1000000

/-! ## Enumerations -/

def factStates : Codes FactState where
  all := [.known, .unknown, .notApplicable]
  code
    | .known => 1
    | .unknown => 2
    | .notApplicable => 3
  complete a := by cases a <;> decide
  injective a b := by cases a <;> cases b <;> decide

def objectKinds : Codes CompletedObjectKind where
  all := [.regular, .directory, .symlink, .fifo, .characterDevice, .blockDevice, .socket, .other]
  code
    | .regular => 1
    | .directory => 2
    | .symlink => 3
    | .fifo => 4
    | .characterDevice => 5
    | .blockDevice => 6
    | .socket => 7
    | .other => 8
  complete a := by cases a <;> decide
  injective a b := by cases a <;> cases b <;> decide

def provenances : Codes ObjectFactProvenance where
  all := [.incomingImage, .planningObservation, .applicationObservation, .recoveryCapture,
    .rejectedCapture]
  code
    | .incomingImage => 1
    | .planningObservation => 2
    | .applicationObservation => 3
    | .recoveryCapture => 4
    | .rejectedCapture => 5
  complete a := by cases a <;> decide
  injective a b := by cases a <;> cases b <;> decide

def objectCompletenesses : Codes ObjectFactCompleteness where
  all := [.complete, .partialFacts]
  code
    | .complete => 1
    | .partialFacts => 2
  complete a := by cases a <;> decide
  injective a b := by cases a <;> cases b <;> decide

def durabilityDomains : Codes DurabilityDomain where
  all := [.journal, .incomingStaging, .recoveryStaging, .activeNamespace, .rejectedObjectStore,
    .completedEvidence]
  code
    | .journal => 1
    | .incomingStaging => 2
    | .recoveryStaging => 3
    | .activeNamespace => 4
    | .rejectedObjectStore => 5
    | .completedEvidence => 6
  complete a := by cases a <;> decide
  injective a b := by cases a <;> cases b <;> decide

def durabilityStatuses : Codes DurabilityStatus where
  all := [.notAttempted, .visible, .confirmed, .unconfirmed, .indeterminate]
  code
    | .notAttempted => 1
    | .visible => 2
    | .confirmed => 3
    | .unconfirmed => 4
    | .indeterminate => 5
  complete a := by cases a <;> decide
  injective a b := by cases a <;> cases b <;> decide

/-! ## Fact formats -/

/-- A state and, where it is known, a value. -/
def factFormat {σ : Type} (F : Format Byte σ) : Format Byte (QualifiedFact σ) where
  spell
    | .known s => [1] ++ F.spell s
    | .unknown => [2]
    | .notApplicable => [3]
  valid := {f | ∀ s, f = .known s → s ∈ F.valid}
  delimited := by
    intro f hf g hg x y heq
    cases f with
    | known s =>
      cases g with
      | known t =>
        simp only [List.cons_append, List.nil_append, List.cons.injEq, true_and] at heq
        obtain ⟨rfl, hrest⟩ := F.delimited s (hf s rfl) t (hg t rfl) x y heq
        exact ⟨rfl, hrest⟩
      | unknown => simp at heq
      | notApplicable => simp at heq
    | unknown =>
      cases g with
      | known t => simp at heq
      | unknown => simpa using heq
      | notApplicable => simp at heq
    | notApplicable =>
      cases g with
      | known t => simp at heq
      | unknown => simp at heq
      | notApplicable => simpa using heq

theorem validBelow_fact {σ : Type} {F : Format Byte σ} {f : QualifiedFact σ} {n : Nat}
    (h : ∀ s, f = .known s → F.ValidBelow n s) : (factFormat F).ValidBelow n f := by
  intro hsize s hs
  rw [hs] at hsize
  change ([1] ++ F.spell s).length < n at hsize
  rw [List.length_append] at hsize
  exact h s hs (by omega)

/-! ## Objects -/

/-- What an object fact is constructed from. -/
structure ObjectFields where
  path : PackagePath
  kind : CompletedObjectKind
  mode : QualifiedFact UInt32
  uid : QualifiedFact UInt64
  gid : QualifiedFact UInt64
  size : QualifiedFact UInt64
  mtime : QualifiedFact CompletedObjectTimestamp
  regularContent : QualifiedFact RegularContentIdentity
  symlinkTarget : QualifiedFact (List Byte)
  device : QualifiedFact CompletedDeviceNumber
  hardlink : QualifiedFact PackagePath
  provenance : ObjectFactProvenance
  completeness : ObjectFactCompleteness

def objectFields (object : CompletedObjectFact) : ObjectFields :=
  ⟨object.path, object.kind, object.mode, object.uid, object.gid, object.size, object.mtime,
    object.regularContent, object.symlinkTarget, object.device, object.hardlink,
    object.provenance, object.completeness⟩

def nanosecondsInRange : QualifiedFact CompletedObjectTimestamp → Bool
  | .known time => time.nanoseconds < 1000000000
  | _ => true

/-- The checks of the constructor, in its order. -/
def makeObject (f : ObjectFields) : Except Exn CompletedObjectFact :=
  if hmtime : nanosecondsInRange f.mtime = true then
    if hregular : f.size.isApplicable = (f.kind == .regular) ∧
        f.regularContent.isApplicable = (f.kind == .regular) ∧
        f.hardlink.isApplicable = (f.kind == .regular) then
      if hsymlink : f.symlinkTarget.isApplicable = (f.kind == .symlink) then
        if hdevice : f.device.isApplicable = f.kind.isDevice then
          .ok ⟨f.path, f.kind, f.mode, f.uid, f.gid, f.size, f.mtime, f.regularContent,
            f.symlinkTarget, f.device, f.hardlink, f.provenance, f.completeness,
            { nanoseconds := fun time htime => by simpa [nanosecondsInRange, htime] using hmtime
              size := hregular.1
              regularContent := hregular.2.1
              hardlink := hregular.2.2
              symlinkTarget := hsymlink
              device := hdevice }⟩
        else .error (.invalidArgument "device number has invalid applicability")
      else .error (.invalidArgument "symlink target has invalid applicability")
    else
      .error (.invalidArgument
        "regular size, content, and hard-link facts have invalid applicability")
  else .error (.invalidArgument "completed object nanoseconds are out of range")

theorem makeObject_eq_ok {f : ObjectFields} {object : CompletedObjectFact} :
    makeObject f = .ok object ↔ objectFields object = f := by
  constructor
  · intro h
    unfold makeObject at h
    split_ifs at h
    cases h
    rfl
  · rintro rfl
    generalize hf : objectFields object = f
    have hmtime : nanosecondsInRange f.mtime = true := by
      rw [← hf]
      cases htime : object.mtime with
      | known time =>
        simpa [objectFields, htime, nanosecondsInRange] using
          object.applicable.nanoseconds time htime
      | unknown => simp [objectFields, htime, nanosecondsInRange]
      | notApplicable => simp [objectFields, htime, nanosecondsInRange]
    have hregular : f.size.isApplicable = (f.kind == .regular) ∧
        f.regularContent.isApplicable = (f.kind == .regular) ∧
        f.hardlink.isApplicable = (f.kind == .regular) := by
      rw [← hf]
      exact ⟨object.applicable.size, object.applicable.regularContent, object.applicable.hardlink⟩
    have hsymlink : f.symlinkTarget.isApplicable = (f.kind == .symlink) := by
      rw [← hf]
      exact object.applicable.symlinkTarget
    have hdevice : f.device.isApplicable = f.kind.isDevice := by
      rw [← hf]
      exact object.applicable.device
    rw [makeObject, dif_pos hmtime, dif_pos hregular, dif_pos hsymlink, dif_pos hdevice]
    subst hf
    rfl

structure SpelledTimestamp where
  seconds : Signed
  nanoseconds : UInt32

structure SpelledObject where
  path : List Byte
  kind : CompletedObjectKind
  mode : QualifiedFact UInt32
  uid : QualifiedFact UInt64
  gid : QualifiedFact UInt64
  size : QualifiedFact UInt64
  mtime : QualifiedFact SpelledTimestamp
  regularContent : QualifiedFact RegularContentIdentity
  symlinkTarget : QualifiedFact (List Byte)
  device : QualifiedFact CompletedDeviceNumber
  hardlink : QualifiedFact (List Byte)
  provenance : ObjectFactProvenance
  completeness : ObjectFactCompleteness

def timestampFormat : Format Byte SpelledTimestamp :=
  (Format.signed.seq .uint32).via
    ⟨fun s => (s.seconds, s.nanoseconds), fun p => ⟨p.1, p.2⟩, fun _ => rfl, fun _ => rfl⟩

def deviceFormat : Format Byte CompletedDeviceNumber :=
  (Format.uint64.seq .uint64).via
    ⟨fun s => (s.major, s.minor), fun p => ⟨p.1, p.2⟩, fun _ => rfl, fun _ => rfl⟩

def objectFormat : Format Byte SpelledObject :=
  (Format.text.seq ((Format.coded objectKinds).seq ((factFormat .uint32).seq
    ((factFormat .uint64).seq ((factFormat .uint64).seq ((factFormat .uint64).seq
      ((factFormat timestampFormat).seq ((factFormat (identityFormat .regularContent)).seq
        ((factFormat .text).seq ((factFormat deviceFormat).seq ((factFormat .text).seq
          ((Format.coded provenances).seq (Format.coded objectCompletenesses))))))))))))).via
    ⟨fun s => (s.path, s.kind, s.mode, s.uid, s.gid, s.size, s.mtime, s.regularContent,
        s.symlinkTarget, s.device, s.hardlink, s.provenance, s.completeness),
      fun p => ⟨p.1, p.2.1, p.2.2.1, p.2.2.2.1, p.2.2.2.2.1, p.2.2.2.2.2.1, p.2.2.2.2.2.2.1,
        p.2.2.2.2.2.2.2.1, p.2.2.2.2.2.2.2.2.1, p.2.2.2.2.2.2.2.2.2.1,
        p.2.2.2.2.2.2.2.2.2.2.1, p.2.2.2.2.2.2.2.2.2.2.2.1, p.2.2.2.2.2.2.2.2.2.2.2.2⟩,
      fun _ => rfl, fun _ => rfl⟩

def SpelledTimestamp.Denotes (s : SpelledTimestamp) (time : CompletedObjectTimestamp) : Prop :=
  time.seconds = s.seconds.value ∧ -2 ^ 63 ≤ time.seconds ∧ time.seconds < 2 ^ 63 ∧
    time.nanoseconds = s.nanoseconds

def spellTimestamp (time : CompletedObjectTimestamp) : SpelledTimestamp :=
  ⟨.ofInt time.seconds, time.nanoseconds⟩

theorem SpelledTimestamp.canonical_iff {s : SpelledTimestamp} {time : CompletedObjectTimestamp}
    (h : s.Denotes time) : s.seconds.Canonical ↔ s = spellTimestamp time := by
  obtain ⟨hseconds, -, -, hnanoseconds⟩ := h
  obtain ⟨seconds, nanoseconds⟩ := s
  rw [spellTimestamp, hseconds, hnanoseconds, SpelledTimestamp.mk.injEq, ← Signed.eq_ofInt_iff,
    and_iff_left rfl]

section Object

variable (X : Externals)

namespace SpelledObject

structure Denotes (s : SpelledObject) (object : CompletedObjectFact) : Prop where
  path : X.parsePath s.path = .ok object.path
  kind : s.kind = object.kind
  mode : s.mode = object.mode
  uid : s.uid = object.uid
  gid : s.gid = object.gid
  size : s.size = object.size
  mtime : QualifiedFact.Rel SpelledTimestamp.Denotes s.mtime object.mtime
  regularContent : s.regularContent = object.regularContent
  symlinkTarget : s.symlinkTarget = object.symlinkTarget
  device : s.device = object.device
  hardlink : QualifiedFact.Rel (fun text path => X.parsePath text = .ok path) s.hardlink
    object.hardlink
  provenance : s.provenance = object.provenance
  completeness : s.completeness = object.completeness

/-- Own texts of the paths, and no negative zero. -/
structure Canonical (s : SpelledObject) : Prop where
  path : X.OwnPath s.path
  mtime : ∀ time, s.mtime = .known time → time.seconds.Canonical
  hardlink : ∀ text, s.hardlink = .known text → X.OwnPath text

end SpelledObject

def spellObject (object : CompletedObjectFact) : SpelledObject :=
  ⟨object.path.bytes, object.kind, object.mode, object.uid, object.gid, object.size,
    object.mtime.map spellTimestamp, object.regularContent, object.symlinkTarget, object.device,
    object.hardlink.map PackagePath.bytes, object.provenance, object.completeness⟩

/-- An object the source can construct: parsed paths, and seconds of an
`int64_t`. -/
structure ObjectConstructed (object : CompletedObjectFact) : Prop where
  path : X.parsePath object.path.bytes = .ok object.path
  seconds : ∀ time, object.mtime = .known time →
    -2 ^ 63 ≤ time.seconds ∧ time.seconds < 2 ^ 63
  hardlink : ∀ anchor, object.hardlink = .known anchor → X.parsePath anchor.bytes = .ok anchor

variable {X} {s : SpelledObject} {object : CompletedObjectFact}

theorem SpelledObject.canonical_iff (h : s.Denotes X object) :
    s.Canonical X ↔ s = spellObject object := by
  have hmtime := QualifiedFact.canonical_iff h.mtime fun _ _ hs => SpelledTimestamp.canonical_iff hs
  have hhardlink : (∀ text, s.hardlink = .known text → X.OwnPath text) ↔
      s.hardlink = object.hardlink.map PackagePath.bytes :=
    QualifiedFact.canonical_iff h.hardlink fun _ _ hs => Externals.ownPath_iff hs
  constructor
  · intro hcanonical
    have hpath := (Externals.ownPath_iff h.path).mp hcanonical.path
    obtain ⟨path, kind, mode, uid, gid, size, mtime, regularContent, symlinkTarget, device,
      hardlink, provenance, completeness⟩ := s
    simp only [spellObject, SpelledObject.mk.injEq]
    exact ⟨hpath, h.kind, h.mode, h.uid, h.gid, h.size, hmtime.mp hcanonical.mtime,
      h.regularContent, h.symlinkTarget, h.device, hhardlink.mp hcanonical.hardlink,
      h.provenance, h.completeness⟩
  · intro hs
    constructor
    · exact (Externals.ownPath_iff h.path).mpr (congrArg SpelledObject.path hs)
    · exact hmtime.mpr (congrArg SpelledObject.mtime hs)
    · exact hhardlink.mpr (congrArg SpelledObject.hardlink hs)

theorem SpelledObject.denotes_spell (h : ObjectConstructed X object) :
    (spellObject object).Denotes X object where
  path := h.path
  kind := rfl
  mode := rfl
  uid := rfl
  gid := rfl
  size := rfl
  mtime := by
    apply QualifiedFact.rel_spelled
    intro time htime
    exact ⟨(Signed.value_ofInt _).symm, (h.seconds time htime).1, (h.seconds time htime).2, rfl⟩
  regularContent := rfl
  symlinkTarget := rfl
  device := rfl
  hardlink := QualifiedFact.rel_spelled h.hardlink
  provenance := rfl
  completeness := rfl

theorem SpelledObject.Denotes.constructed (h : s.Denotes X object) :
    ObjectConstructed X object where
  path := X.parsePath_bytes h.path
  seconds := by
    intro time htime
    have hmtime := h.mtime
    rw [htime] at hmtime
    generalize s.mtime = spelled at hmtime
    cases hmtime with
    | known hs => exact ⟨hs.2.1, hs.2.2.1⟩
  hardlink := by
    intro anchor hanchor
    have hhardlink := h.hardlink
    rw [hanchor] at hhardlink
    generalize s.hardlink = spelled at hhardlink
    cases hhardlink with
    | known hs => exact X.parsePath_bytes hs

theorem validBelow_object (h : ObjectConstructed X object) :
    objectFormat.ValidBelow (2 ^ 64) (spellObject object) := by
  have htotal {σ : Type} {F : Format Byte σ} {f : QualifiedFact σ} (hF : ∀ s, s ∈ F.valid) :
      (factFormat F).ValidBelow (2 ^ 64) f := .of_mem fun s _ => hF s
  have htext (f : QualifiedFact (List Byte)) : (factFormat .text).ValidBelow (2 ^ 64) f :=
    validBelow_fact fun text _ => validBelow_text text
  apply Format.ValidBelow.via
  apply (validBelow_text _).seq
  refine .seq (.of_mem trivial) ?_
  refine .seq (htotal fun _ => trivial) ?_
  refine .seq (htotal fun _ => trivial) ?_
  refine .seq (htotal fun _ => trivial) ?_
  refine .seq (htotal fun _ => trivial) ?_
  apply Format.ValidBelow.seq
  · apply validBelow_fact
    intro spelled hspelled
    obtain ⟨time, htime, rfl⟩ := QualifiedFact.map_eq_known.mp hspelled
    obtain ⟨hlower, hupper⟩ := h.seconds time htime
    exact .of_mem ⟨⟨trivial, Signed.magnitude_ofInt_lt hlower hupper⟩, trivial⟩
  refine .seq (htotal fun _ => trivial) ?_
  apply (htext _).seq
  refine .seq (htotal fun _ => ⟨trivial, trivial⟩) ?_
  apply (htext _).seq
  exact .of_mem ⟨trivial, trivial⟩

/-! ## Observations -/

structure SpelledObservation where
  path : List Byte
  fact : QualifiedFact SpelledObject

def observationFormat : Format Byte SpelledObservation :=
  (Format.text.seq (factFormat objectFormat)).via
    ⟨fun s => (s.path, s.fact), fun p => ⟨p.1, p.2⟩, fun _ => rfl, fun _ => rfl⟩

/-- The object of an observation, as a fact. -/
def observedFact : PathObservation → QualifiedFact CompletedObjectFact
  | .present object => .known object
  | .unknown _ => .unknown
  | .absent _ => .notApplicable

namespace SpelledObservation

variable (X)

structure Denotes (s : SpelledObservation) (o : PathObservation) : Prop where
  path : X.parsePath s.path = .ok o.path
  fact : QualifiedFact.Rel (SpelledObject.Denotes X) s.fact (observedFact o)

structure Canonical (s : SpelledObservation) : Prop where
  path : X.OwnPath s.path
  object : ∀ object, s.fact = .known object → object.Canonical X

end SpelledObservation

def spellObservation (o : PathObservation) : SpelledObservation :=
  ⟨o.path.bytes, (observedFact o).map spellObject⟩

variable (X) in
/-- An observation the source can construct. -/
structure ObservationConstructed (o : PathObservation) : Prop where
  path : X.parsePath o.path.bytes = .ok o.path
  object : ∀ object, o = .present object → ObjectConstructed X object

variable {o : PathObservation}

theorem observedFact_eq_known {object : CompletedObjectFact} :
    observedFact o = .known object ↔ o = .present object := by
  cases o with
  | present object' => simp [observedFact]
  | absent path => simp [observedFact]
  | unknown path => simp [observedFact]

theorem SpelledObservation.canonical_iff {s : SpelledObservation} (h : s.Denotes X o) :
    s.Canonical X ↔ s = spellObservation o := by
  have hfact := QualifiedFact.canonical_iff h.fact fun _ _ hs => SpelledObject.canonical_iff hs
  constructor
  · intro hcanonical
    have hpath := (Externals.ownPath_iff h.path).mp hcanonical.path
    obtain ⟨path, fact⟩ := s
    simp only [spellObservation, SpelledObservation.mk.injEq]
    exact ⟨hpath, hfact.mp hcanonical.object⟩
  · intro hs
    constructor
    · exact (Externals.ownPath_iff h.path).mpr (congrArg SpelledObservation.path hs)
    · exact hfact.mpr (congrArg SpelledObservation.fact hs)

theorem SpelledObservation.denotes_spell (h : ObservationConstructed X o) :
    (spellObservation o).Denotes X o where
  path := h.path
  fact := by
    apply QualifiedFact.rel_spelled
    intro object hobject
    exact SpelledObject.denotes_spell (h.object object (observedFact_eq_known.mp hobject))

theorem SpelledObservation.Denotes.constructed {s : SpelledObservation} (h : s.Denotes X o) :
    ObservationConstructed X o where
  path := X.parsePath_bytes h.path
  object := by
    intro object hobject
    have hfact := h.fact
    rw [hobject] at hfact
    generalize s.fact = spelled at hfact
    cases hfact with
    | known hs => exact hs.constructed

theorem validBelow_observation (h : ObservationConstructed X o) :
    observationFormat.ValidBelow (2 ^ 64) (spellObservation o) := by
  apply Format.ValidBelow.via
  apply (validBelow_text _).seq
  apply validBelow_fact
  intro spelled hspelled
  obtain ⟨object, hobject, rfl⟩ := QualifiedFact.map_eq_known.mp hspelled
  exact validBelow_object (h.object object (observedFact_eq_known.mp hobject))

end Object

/-! ## Durability -/

def durabilityFactFormat : Format Byte DurabilityFact :=
  ((Format.coded durabilityDomains).seq (.coded durabilityStatuses)).via
    ⟨fun s => (s.domain, s.status), fun p => ⟨p.1, p.2⟩, fun _ => rfl, fun _ => rfl⟩

/-- The six facts of a profile, in the order of their domains. -/
def durabilityFacts (profile : DurabilityProfile) : List DurabilityFact :=
  durabilityDomains.all.map fun domain => ⟨domain, profile.status domain⟩

/-- Facts compare by their domains. -/
def domainLe (a b : DurabilityFact) : Prop :=
  durabilityDomains.code a.domain ≤ durabilityDomains.code b.domain

instance : DecidableRel domainLe :=
  fun _ _ => inferInstanceAs (Decidable (_ ≤ _))

instance : Std.Total domainLe :=
  ⟨fun _ _ => le_total _ _⟩

instance : IsTrans DurabilityFact domainLe :=
  ⟨fun _ _ _ => le_trans⟩

/-- The constructor sorts the facts and demands one for each domain. -/
def makeDurabilityProfile (facts : List DurabilityFact) : Except Exn DurabilityProfile :=
  match facts.insertionSort domainLe with
  | [journal, incoming, recovery, active, rejected, completed] => do
    let domains := [journal.domain, incoming.domain, recovery.domain, active.domain,
      rejected.domain, completed.domain]
    refuseIf (¬domains.Nodup) (.invalidArgument "duplicate application durability domain")
    refuseIf (domains ≠ durabilityDomains.all)
      (.invalidArgument "missing application durability domain")
    return ⟨journal.status, incoming.status, recovery.status, active.status, rejected.status,
      completed.status⟩
  | _ => .error (.invalidArgument "application durability profile requires six domains")

section Durability

variable {facts : List DurabilityFact} {profile : DurabilityProfile}

theorem mem_durabilityFacts {fact : DurabilityFact} :
    fact ∈ durabilityFacts profile ↔ fact = ⟨fact.domain, profile.status fact.domain⟩ := by
  obtain ⟨domain, status⟩ := fact
  simp only [durabilityFacts, List.mem_map, DurabilityFact.mk.injEq, true_and]
  constructor
  · rintro ⟨domain', -, rfl, rfl⟩
    rfl
  · rintro rfl
    exact ⟨domain, durabilityDomains.complete domain, rfl, rfl⟩

theorem insertionSort_durabilityFacts (h : facts.Perm (durabilityFacts profile)) :
    facts.insertionSort domainLe = durabilityFacts profile := by
  have hperm := (List.perm_insertionSort domainLe facts).trans h
  have hsorted : (facts.insertionSort domainLe).Pairwise domainLe :=
    List.pairwise_insertionSort _ facts
  apply List.Perm.eq_of_pairwise _ hsorted _ hperm
  · intro a b ha hb hle hge
    have hdomain : a.domain = b.domain := durabilityDomains.injective (le_antisymm hle hge)
    rw [mem_durabilityFacts.mp (hperm.mem_iff.mp ha), mem_durabilityFacts.mp hb, hdomain]
  · apply List.pairwise_map.mpr
    exact (by decide : durabilityDomains.all.Pairwise fun a b =>
      durabilityDomains.code a ≤ durabilityDomains.code b)

/-- A profile is made from its facts in any order. -/
theorem makeDurabilityProfile_eq_ok :
    makeDurabilityProfile facts = .ok profile ↔ facts.Perm (durabilityFacts profile) := by
  constructor
  · intro h
    have hperm := (List.perm_insertionSort domainLe facts).symm
    unfold makeDurabilityProfile at h
    split at h
    · rename_i journal incoming recovery active rejected completed heq
      simp only [refuseIf_bind_eq_ok, not_not, ne_eq, pure, Except.pure, Except.ok.injEq] at h
      obtain ⟨-, hdomains, rfl⟩ := h
      rw [heq] at hperm
      have hfacts : [journal, incoming, recovery, active, rejected, completed] =
          durabilityFacts ⟨journal.status, incoming.status, recovery.status, active.status,
            rejected.status, completed.status⟩ := by
        obtain ⟨_, _⟩ := journal
        obtain ⟨_, _⟩ := incoming
        obtain ⟨_, _⟩ := recovery
        obtain ⟨_, _⟩ := active
        obtain ⟨_, _⟩ := rejected
        obtain ⟨_, _⟩ := completed
        simp only [durabilityDomains, List.cons.injEq, and_true] at hdomains
        obtain ⟨rfl, rfl, rfl, rfl, rfl, rfl⟩ := hdomains
        rfl
      rwa [hfacts] at hperm
    · cases h
  · intro h
    rw [makeDurabilityProfile, insertionSort_durabilityFacts h]
    rfl

/-- Facts are in order exactly when they are those of the profile they make. -/
theorem durability_canonical_iff (h : makeDurabilityProfile facts = .ok profile) :
    facts.map DurabilityFact.domain = durabilityDomains.all ↔ facts = durabilityFacts profile := by
  have hmem : ∀ fact ∈ facts, fact = ⟨fact.domain, profile.status fact.domain⟩ := by
    intro fact hfact
    exact mem_durabilityFacts.mp ((makeDurabilityProfile_eq_ok.mp h).mem_iff.mp hfact)
  constructor
  · intro hdomains
    rw [durabilityFacts, ← hdomains, List.map_map]
    exact (List.map_id _).symm.trans (List.map_congr_left hmem)
  · intro hfacts
    rw [hfacts, durabilityFacts, List.map_map]
    exact List.map_id _

end Durability

end Transport

end PkgApply
