import PkgApply.Transport.JournalCodec

/-!
# The journal record codec reads what it writes within its count limits

The decoder accepts the spellings of a record whose lists keep within the count
limits; the encoder writes the canonical spelling whatever the counts.
-/

namespace PkgApply.Transport

open Library RecordCodec

namespace JournalCodec

variable {X : Externals}

/-! ## What is read -/

theorem parses_owners :
    Parses journal.maximum (readProjectedPathOwners X) ownersFormat (SpelledOwners.Denotes X) := by
  apply Parses.as
  · apply parses_path.bind
    intro path
    apply (parses_list (parses_planning _)).then
    intro owners input projected rest
    exact build_eq_ok
  · intro s _ projected
    exact Iff.rfl

theorem parses_projection :
    Parses journal.maximum (readStateProjection X) projectionFormat
      (SpelledProjection.Denotes X) := by
  apply Parses.as
  · apply (parses_typed _).field
    intro expected
    apply Parses.after fun _ _ => Stream.expectU16_eq_ok _ (by decide)
    apply (parses_identity _).field
    intro lease
    apply (parses_planning _).bind
    intro snapshot
    apply (parses_planning _).bind
    intro inventory
    apply (Stream.parses_code _ _ _).field
    intro completeness
    apply (parses_list parses_owners).bind
    intro paths
    apply (parses_identity _).then (K := fun evidence projection =>
      makeStateProjection lease snapshot inventory completeness paths evidence = .ok projection ∧
        identifyProjection X projection = expected)
    intro evidence input projection rest
    simp only [decode_bind_eq_ok, build_eq_ok, refuseWhen_eq_ok, Stream.pure_eq_ok, not_not]
    constructor
    · rintro ⟨made, _, ⟨rfl, hmade⟩, _, _, ⟨rfl, hidentity⟩, rfl, rfl⟩
      exact ⟨rfl, hmade, hidentity⟩
    · rintro ⟨rfl, hmade, hidentity⟩
      exact ⟨projection, rest, ⟨rfl, hmade⟩, (), rest, ⟨rfl, hidentity⟩, rfl, rfl⟩
  · intro s _ projection
    simp only [exists_eq_left']
    exact Iff.rfl

theorem parses_nonce : Parses journal.maximum readNonce nonceFormat Eq :=
  parses_nonceBytes journal.stream

theorem parses_header :
    Parses journal.maximum (readHeader X) headerFormat (SpelledHeader.Denotes X) := by
  apply Parses.as
  · apply Parses.after fun _ _ => Stream.expectU16_eq_ok _ (by decide)
    apply (Stream.parses_code _ _ _).field
    intro kind
    apply (parses_identity _).field
    intro request
    apply (parses_planning _).bind
    intro plan
    apply Parses.after fun _ _ => Stream.expectU16_eq_ok _ (by decide)
    apply parses_nonce.field
    intro nonce
    apply (parses_identity _).field
    intro target
    apply (parses_identity _).field
    intro control
    apply parses_projection.bind
    intro projection
    apply (parses_identity _).field
    intro lease
    apply (parses_identity _).then
    intro backend input header rest
    exact build_eq_ok
  · intro s _ header
    simp only [exists_eq_left']
    exact Iff.rfl

theorem parses_effect :
    Parses journal.maximum (readEffect X) effectFormat (SpelledEffect.Denotes X) := by
  apply Parses.as
  · apply (Stream.parses_u64 _).field
    intro ordinal
    apply (Stream.parses_code _ _ _).field
    intro kind
    apply (parses_optional parses_path).then
    intro path input effect rest
    exact build_eq_ok
  · intro s _ effect
    exact Iff.rfl

theorem parses_event :
    Parses journal.maximum readEvent eventFormat SpelledEvent.Denotes := by
  apply Parses.as
  · apply (Stream.parses_uint64 _).bind
    intro sequence
    apply (Stream.parses_code _ _ _).field
    intro kind
    apply (parses_typed _).field
    intro effect
    apply (parses_list (parses_identity _)).then
    intro evidence input event rest
    exact build_eq_ok
  · intro s _ event
    simp only [List.forall₂_eq_eq_eq]
    constructor
    · rintro ⟨_, rfl, evidence, ⟨hcount, rfl⟩, hmade⟩
      rw [UInt64.ofNat_toNat] at hmade
      exact ⟨hcount, hmade⟩
    · rintro ⟨hcount, hmade⟩
      refine ⟨_, rfl, _, ⟨hcount, rfl⟩, ?_⟩
      rwa [UInt64.ofNat_toNat]

/-! ## Spelled records -/

structure SpelledSnapshot where
  identity : TypedDigest .applicationJournalRecord
  header : SpelledHeader
  state : JournalState
  effects : List SpelledEffect
  events : List SpelledEvent
  receipt : Option (TypedDigest .applicationReceipt)
  completedEvidence : Option (TypedDigest .completedApplicationEvidence)

def snapshotFormat : Format Byte SpelledSnapshot :=
  ((((typedFormat .applicationJournalRecord).seq ((headerFormat.seq
    ((Format.coded journalStates).seq ((listFormat effectFormat).seq ((listFormat eventFormat).seq
      ((optionalFormat (typedFormat .applicationReceipt)).seq
        (optionalFormat (typedFormat .completedApplicationEvidence))))))).after
    (bigEndian 2 schemaVersion))).after (bigEndian 2 encodingVersion)).after journalMagic).via
    ⟨fun s => (s.identity, s.header, s.state, s.effects, s.events, s.receipt, s.completedEvidence),
      fun p => ⟨p.1, p.2.1, p.2.2.1, p.2.2.2.1, p.2.2.2.2.1, p.2.2.2.2.2.1, p.2.2.2.2.2.2⟩,
      fun _ => rfl, fun _ => rfl⟩

namespace SpelledSnapshot

variable (X)

/-- The fields a decoder reads, and what the constructor makes of them. -/
def Reads (s : SpelledSnapshot) (made : Except Exn Snapshot) : Prop :=
  ∃ header, s.header.Denotes X header ∧
    ∃ effects, (s.effects.length ≤ maximumEffectCount ∧
        List.Forall₂ (SpelledEffect.Denotes X) s.effects effects) ∧
    ∃ events, (s.events.length ≤ maximumEventCount ∧
        List.Forall₂ SpelledEvent.Denotes s.events events) ∧
      made = Snapshot.make X header s.state effects events s.receipt s.completedEvidence

def Denotes (s : SpelledSnapshot) (snapshot : Snapshot) : Prop :=
  s.Reads X (.ok snapshot) ∧ snapshot.identity X = s.identity

/-- Own texts throughout, and every list in the order the constructors give it. -/
structure Canonical (s : SpelledSnapshot) : Prop where
  header : s.header.Canonical X
  effects : ∀ effect ∈ s.effects, effect.Canonical X
  ordinals : s.effects.map SpelledEffect.ordinal = List.range s.effects.length
  events : ∀ event ∈ s.events, event.Canonical

end SpelledSnapshot

def spellSnapshot (X : Externals) (snapshot : Snapshot) : SpelledSnapshot :=
  ⟨snapshot.identity X, spellHeader X snapshot.header, snapshot.state,
    snapshot.effects.map spellEffect, snapshot.events.map spellEvent, snapshot.receipt,
    snapshot.completedEvidence⟩

theorem parses_record :
    Parses journal.maximum (readRecord X) snapshotFormat fun s p =>
      p.1 = s.identity ∧ s.Reads X p.2 := by
  apply Parses.as
  · apply Parses.after fun _ _ => Stream.expect_eq_ok _
    apply Parses.after fun _ _ => Stream.expectU16_eq_ok _ (by decide)
    apply (parses_typed _).field
    intro expected
    apply Parses.after fun _ _ => Stream.expectU16_eq_ok _ (by decide)
    apply parses_header.bind
    intro header
    apply (Stream.parses_code _ _ _).field
    intro state
    apply (parses_list parses_effect).bind
    intro effects
    apply (parses_list parses_event).bind
    intro events
    apply (parses_optional (parses_typed _)).bind
    intro receipt
    apply (parses_optional (parses_typed _)).then
    intro completedEvidence input made rest
    exact Stream.pure_eq_ok
  · rintro s _ ⟨expected, made⟩
    simp only [optionRel_eq_iff, exists_eq_left', Prod.mk.injEq]
    constructor
    · rintro ⟨header, hheader, effects, heffects, events, hevents, rfl, rfl⟩
      exact ⟨rfl, header, hheader, effects, heffects, events, hevents, rfl⟩
    · rintro ⟨rfl, header, hheader, effects, heffects, events, hevents, rfl⟩
      exact ⟨header, hheader, effects, heffects, events, hevents, rfl, rfl⟩

/-- The decoder accepts exactly the spellings of records within the limits. -/
theorem decodes_journal : Decodes journal.maximum (decodeApplicationJournal X) snapshotFormat
    (SpelledSnapshot.Denotes X) := by
  intro data snapshot
  rw [decodeApplicationJournal, RecordCodec.decode_eq_ok]
  apply and_congr_right
  intro hsize
  simp only [translate_eq_ok, readWholeRecord, decode_bind_eq_ok, Stream.requireEnd_eq_ok,
    build_eq_ok, refuseWhen_eq_ok, Stream.pure_eq_ok, not_not]
  constructor
  · rintro ⟨_, ⟨expected, made⟩, _, hrecord, ⟨⟩, _, ⟨rfl, rfl⟩, made', _, ⟨rfl, rfl⟩, _, _,
      ⟨rfl, hidentity⟩, rfl, rfl⟩
    obtain ⟨s, hs, hdata, hexpected, hreads⟩ := (parses_record data hsize _ _).mp hrecord
    rw [List.append_nil] at hdata
    exact ⟨s, hs, hdata, hreads, hidentity.trans hexpected⟩
  · rintro ⟨s, hs, rfl, hreads, hidentity⟩
    have hrecord := (parses_record (snapshotFormat.spell s) hsize (s.identity, .ok snapshot) []).mpr
      ⟨s, hs, (List.append_nil _).symm, rfl, hreads⟩
    exact ⟨[], _, [], hrecord, (), [], ⟨rfl, rfl⟩, snapshot, [], ⟨rfl, rfl⟩, (), [],
      ⟨rfl, hidentity⟩, rfl, rfl⟩

theorem SpelledSnapshot.canonical_iff {s : SpelledSnapshot} {snapshot : Snapshot}
    (h : s.Denotes X snapshot) : s.Canonical X ↔ s = spellSnapshot X snapshot := by
  obtain ⟨⟨header, hheader, effects, ⟨-, heffects⟩, events, ⟨-, hevents⟩, hmade⟩, hidentity⟩ := h
  obtain ⟨hsnapshot, hordinals⟩ := Snapshot.make_eq_ok hmade.symm
  constructor
  · intro hcanonical
    have hspelled := (forall_canonical_iff heffects fun _ _ hs =>
      SpelledEffect.canonical_iff hs).mp hcanonical.effects
    have hascending : effects.Pairwise fun a b => a.ordinal ≤ b.ordinal := by
      have hrange := hcanonical.ordinals
      rw [hspelled, List.map_map, List.length_map] at hrange
      have hsorted : (effects.map JournalEffect.ordinal).Pairwise (· ≤ ·) := by
        rw [show effects.map JournalEffect.ordinal = List.range effects.length from hrange]
        exact List.pairwise_le_range
      exact List.pairwise_map.mp hsorted
    have hevents := (forall_canonical_iff hevents fun _ _ hs =>
      SpelledEvent.canonical_iff hs).mp hcanonical.events
    have hheader := (SpelledHeader.canonical_iff hheader).mp hcanonical.header
    rw [hascending.insertionSort_eq] at hsnapshot
    obtain ⟨identity, spelledHeader, state, spelledEffects, spelledEvents, receipt, evidence⟩ := s
    simp only at hspelled hevents hheader hidentity hsnapshot
    simp only [spellSnapshot, ← hidentity, hsnapshot, hheader, hspelled, hevents]
  · intro hs
    have hparsed : ∀ effect ∈ snapshot.effects, (spellEffect effect).Canonical X := by
      rw [hsnapshot]
      intro effect heffect
      have hmem := (List.perm_insertionSort _ _).mem_iff.mp heffect
      apply SpelledEffect.canonical_spell
      exact forall_right heffects (fun _ _ hs => hs.path) effect hmem
    constructor
    · apply (SpelledHeader.canonical_iff hheader).mpr
      rw [hs, hsnapshot]
      rfl
    · rw [hs]
      intro spelled hspelled
      obtain ⟨effect, heffect, rfl⟩ := List.mem_map.mp hspelled
      exact hparsed effect heffect
    · rw [hs, spellSnapshot, List.map_map, List.length_map]
      exact hordinals
    · apply (forall_canonical_iff hevents fun _ _ hs => SpelledEvent.canonical_iff hs).mpr
      rw [hs, hsnapshot]
      rfl

/-! ## What is written -/

theorem writes_owners (projected : ProjectedPathOwners) :
    Writes journal.maximum (appendProjectedPathOwners X projected)
      (ownersFormat.spell (spellOwners X projected)) :=
  (writes_path _ _).bind (writes_list fun _ _ => writes_planning _ _)

theorem writes_projection (projection : LeaseBoundStateProjection) :
    Writes journal.maximum (appendStateProjection X projection)
      (projectionFormat.spell (spellProjection X projection)) := by
  apply (writes_typed _ _).bind
  apply (Stream.writes_u16 _).bind
  apply (writes_identity _ _).bind
  apply (writes_planning _ _).bind
  apply (writes_planning _ _).bind
  apply (Stream.writes_coded completenesses _).bind
  apply (writes_list fun projected _ => writes_owners projected).bind
  exact writes_identity _ _

theorem writes_header (header : JournalHeader) :
    Writes journal.maximum (appendHeader X header) (headerFormat.spell (spellHeader X header)) := by
  apply (Stream.writes_u16 _).bind
  apply (Stream.writes_coded operationKinds _).bind
  apply (writes_identity _ _).bind
  apply (writes_planning _ _).bind
  apply (Stream.writes_u16 _).bind
  apply (writes_payload _ _).bind
  apply (writes_identity _ _).bind
  apply (writes_identity _ _).bind
  apply (writes_projection _).bind
  apply (writes_identity _ _).bind
  exact writes_identity _ _

theorem writes_effect (effect : JournalEffect) :
    Writes journal.maximum (appendEffect effect) (effectFormat.spell (spellEffect effect)) := by
  apply (Stream.writes_u64 _).bind
  apply (Stream.writes_coded effectKinds _).bind
  exact writes_optional fun path _ => writes_path _ path

theorem writes_event (event : Event) :
    Writes journal.maximum (appendEvent event) (eventFormat.spell (spellEvent event)) := by
  apply (Stream.writes_u64 _).bind
  apply (Stream.writes_coded eventKinds _).bind
  apply (writes_typed _ _).bind
  exact writes_list_id (writes_identity journal)

theorem writes_record (snapshot : Snapshot) :
    Writes journal.maximum (appendRecord X snapshot)
      (snapshotFormat.spell (spellSnapshot X snapshot)) := by
  apply (writes_payload _ _).bind
  apply (Stream.writes_u16 _).bind
  apply (writes_typed _ _).bind
  apply (Stream.writes_u16 _).bind
  apply (writes_header _).bind
  apply (Stream.writes_coded journalStates _).bind
  apply (writes_list fun effect _ => writes_effect effect).bind
  apply (writes_list fun event _ => writes_event event).bind
  apply (writes_optional_id (writes_typed journal)).bind
  exact writes_optional_id (writes_typed journal)

/-- The encoder writes the canonical spelling of every record that fits the size
limit. -/
theorem encodes_journal : Encodes journal.maximum (encodeApplicationJournal X) snapshotFormat
    (spellSnapshot X) fun _ => True := by
  intro snapshot data
  rw [true_and]
  exact Stream.finish_eq_ok _ (writes_record snapshot)

/-! ## Round trip -/

/-- The numbers and the sizes of a record fit 64 bits. -/
structure SnapshotFits (snapshot : Snapshot) : Prop where
  projection : ProjectionFits snapshot.header.stateProjection
  ordinals : ∀ effect ∈ snapshot.effects, effect.ordinal < 2 ^ 64
  effects : snapshot.effects.length < 2 ^ 64
  events : snapshot.events.length < 2 ^ 64
  evidence : ∀ event ∈ snapshot.events, event.backendEvidence.card < 2 ^ 64

theorem fits_of_constructed {snapshot : Snapshot} (h : snapshot.Constructed X) :
    SnapshotFits snapshot :=
  ⟨⟨h.paths_size, h.owners_size⟩, fun effect heffect => (h.effects effect heffect).ordinal,
    h.effects_size, h.events_size, h.evidence_size⟩

theorem validBelow_snapshot {snapshot : Snapshot} (h : SnapshotFits snapshot) :
    snapshotFormat.ValidBelow (journal.maximum + 1) (spellSnapshot X snapshot) := by
  refine .mono ?_ journal.maximum_lt
  apply Format.ValidBelow.via
  apply Format.ValidBelow.after
  apply Format.ValidBelow.after
  refine .seq (.of_mem trivial) ?_
  apply Format.ValidBelow.after
  apply (validBelow_header h.projection).seq
  refine .seq (.of_mem trivial) ?_
  apply Format.ValidBelow.seq
  · apply validBelow_list
    · simpa [spellSnapshot] using h.effects
    · intro spelled hspelled
      obtain ⟨effect, heffect, rfl⟩ := List.mem_map.mp hspelled
      exact validBelow_effect (h.ordinals effect heffect)
  apply Format.ValidBelow.seq
  · apply validBelow_list
    · simpa [spellSnapshot] using h.events
    · intro spelled hspelled
      obtain ⟨event, hevent, rfl⟩ := List.mem_map.mp hspelled
      exact validBelow_event (h.evidence event hevent)
  · exact .of_mem ⟨fun _ _ => trivial, fun _ _ => trivial⟩

/-- No list of the record is longer than the decoder allows. -/
structure WithinCounts (snapshot : Snapshot) : Prop where
  effects : snapshot.effects.length ≤ maximumEffectCount
  events : snapshot.events.length ≤ maximumEventCount
  evidence : ∀ event ∈ snapshot.events, event.backendEvidence.card ≤ maximumEvidenceCount
  paths : snapshot.header.stateProjection.paths.length ≤ maximumProjectionPathCount
  owners : ∀ projected ∈ snapshot.header.stateProjection.paths,
    projected.owners.card ≤ maximumProjectionOwnerCount

/-- A constructed record is denoted by its spelling when its lists keep within
the limits. -/
theorem denotes_spellSnapshot {snapshot : Snapshot} (h : snapshot.Constructed X) :
    (spellSnapshot X snapshot).Denotes X snapshot ↔ WithinCounts snapshot := by
  have hheader : (spellHeader X snapshot.header).Denotes X snapshot.header ↔
      snapshot.header.stateProjection.paths.length ≤ maximumProjectionPathCount ∧
        ∀ projected ∈ snapshot.header.stateProjection.paths,
          projected.owners.card ≤ maximumProjectionOwnerCount :=
    (SpelledHeader.denotes_spell h.header).trans
      (SpelledProjection.denotes_spell fun projected hprojected =>
        (h.paths projected hprojected).reads)
  constructor
  · rintro ⟨⟨header, hdenotes, effects, ⟨heffects, -⟩, events, ⟨hevents, hspelled⟩, hmade⟩, -⟩
    obtain ⟨hsnapshot, -⟩ := Snapshot.make_eq_ok hmade.symm
    have hsame : snapshot.header = header := congrArg Snapshot.header hsnapshot
    rw [← hsame] at hdenotes
    obtain ⟨hpaths, howners⟩ := hheader.mp hdenotes
    simp only [spellSnapshot, List.length_map] at heffects hevents
    refine ⟨heffects, hevents, ?_, hpaths, howners⟩
    intro event hevent
    have hcount := forall_left (p := fun s => s.backendEvidence.length ≤ maximumEvidenceCount)
      hspelled (fun _ _ hs => hs.1) _ (List.mem_map_of_mem hevent)
    simpa [spellEvent] using hcount
  · intro hcounts
    obtain ⟨effects, hmade⟩ := h.made
    have hagain := Snapshot.make_again hmade
    refine ⟨⟨snapshot.header, hheader.mpr ⟨hcounts.paths, hcounts.owners⟩, snapshot.effects,
      ⟨?_, ?_⟩, snapshot.events, ⟨?_, ?_⟩, hagain.symm⟩, rfl⟩
    · simpa [spellSnapshot] using hcounts.effects
    · apply forall₂_spelled
      intro effect heffect
      apply SpelledEffect.denotes_spell
      intro path hpath
      exact ((h.effects effect heffect).path path hpath).reads
    · simpa [spellSnapshot] using hcounts.events
    · apply forall₂_spelled
      intro event hevent
      exact SpelledEvent.denotes_spell.mpr (hcounts.evidence event hevent)

/-- What the encoder gave reads back as the record exactly when no list is
longer than the decoder allows. -/
theorem decodeApplicationJournal_encode_iff {snapshot : Snapshot} (h : snapshot.Constructed X)
    {data : List Byte} (hdata : encodeApplicationJournal X snapshot = .ok data) :
    decodeApplicationJournal X data = .ok snapshot ↔ WithinCounts snapshot := by
  rw [← denotes_spellSnapshot h]
  exact encodes_journal.decode_iff decodes_journal
    (validBelow_snapshot (fits_of_constructed h)) hdata

/-! ## A record of one intent -/

/-- The intent of the first effect, with this backend evidence. -/
def toolSnapshot (evidence : Evidence) : Snapshot where
  header := toolHeader
  state := .mutating
  effects := toolDeclaration.effects
  events := [⟨0, .intent,
    ⟨0x1e1a549c38805eff0cac6b13aae44814560780bff354342f7d0fd48ea038e228⟩, evidence⟩]
  receipt := none
  completedEvidence := none

theorem constructed_toolSnapshot (evidence : Evidence) (h : evidence.card < 2 ^ 64) :
    (toolSnapshot evidence).Constructed .reference where
  header := constructed_toolDeclaration.header
  paths := constructed_toolDeclaration.paths
  paths_size := (by decide : toolHeader.stateProjection.paths.length < 2 ^ 64)
  owners_size := (by decide +kernel : ∀ projected ∈ toolHeader.stateProjection.paths,
    projected.owners.card < 2 ^ 64)
  effects := constructed_toolDeclaration.effects
  effects_size := constructed_toolDeclaration.effects_size
  events_size := (by decide : 1 < 2 ^ 64)
  evidence_size := by
    intro event hevent
    obtain rfl := List.mem_singleton.mp hevent
    exact h
  made := by
    refine ⟨toolDeclaration.effects, ?_⟩
    have hsorted : toolDeclaration.effects.insertionSort (fun a b => a.ordinal ≤ b.ordinal) =
        toolDeclaration.effects := by decide +kernel
    have hordinals : toolDeclaration.effects.map JournalEffect.ordinal =
        List.range toolDeclaration.effects.length := by decide +kernel
    have hevents : Snapshot.validateEvents .reference toolDeclaration.effects
        (toolSnapshot evidence).events = .ok [⟨true, none⟩, .untouched] := by
      rw [Snapshot.validateEvents, identifyEffect_tool]
      rfl
    simp only [Snapshot.make, toolSnapshot, hsorted] at hevents ⊢
    rw [hevents, hordinals]
    rfl

/-- Every digest of the list takes 82 bytes, whatever it is. -/
theorem length_spell_toolSnapshot (evidence : Evidence) :
    (snapshotFormat.spell (spellSnapshot .reference (toolSnapshot evidence))).length ≤
      2000 + 82 * evidence.card := by
  have hmagic : journalMagic.length = 8 := by decide +kernel
  have hpath : toolPath.bytes.length = 12 := by decide +kernel
  simp [snapshotFormat, spellSnapshot, toolSnapshot, Format.via, Format.seq, Format.after,
    typedFormat, digestFormat, Format.text, Format.number, Format.coded, headerFormat, spellHeader,
    projectionFormat, spellProjection, identityFormat, nonceFormat, listFormat, Format.list,
    optionalFormat, Format.optional, counted, tagged, Externals.reference, eventFormat, spellEvent,
    effectFormat, spellEffect, Format.flag, Format.uint64, ownersFormat, spellOwners, toolHeader,
    toolDeclaration, hmagic, hpath, Function.comp_def]
  omega

theorem encode_toolSnapshot (evidence : Evidence) (h : evidence.card ≤ 3000000) :
    encodeApplicationJournal .reference (toolSnapshot evidence) =
      .ok (snapshotFormat.spell (spellSnapshot .reference (toolSnapshot evidence))) := by
  rw [encodes_journal]
  have hlength := length_spell_toolSnapshot evidence
  have hmaximum : journal.maximum = 268435456 := by decide
  exact ⟨trivial, rfl, by omega⟩

theorem withinCounts_toolSnapshot (evidence : Evidence) (h : evidence.card ≤ maximumEvidenceCount) :
    WithinCounts (toolSnapshot evidence) where
  effects := (by decide : toolDeclaration.effects.length ≤ maximumEffectCount)
  events := (by decide : 1 ≤ maximumEventCount)
  evidence := by
    intro event hevent
    obtain rfl := List.mem_singleton.mp hevent
    exact h
  paths := (by decide : toolHeader.stateProjection.paths.length ≤ maximumProjectionPathCount)
  owners := (by decide +kernel : ∀ projected ∈ toolHeader.stateProjection.paths,
    projected.owners.card ≤ maximumProjectionOwnerCount)

/-- A record with one item of evidence reads back. -/
theorem decodeApplicationJournal_encode_tool :
    decodeApplicationJournal .reference (snapshotFormat.spell (spellSnapshot .reference
      (toolSnapshot {⟨countingDigest 40⟩}))) = .ok (toolSnapshot {⟨countingDigest 40⟩}) := by
  have hdata := encode_toolSnapshot {⟨countingDigest 40⟩} (by simp)
  apply (decodeApplicationJournal_encode_iff (constructed_toolSnapshot _ (by simp)) hdata).mpr
  exact withinCounts_toolSnapshot _ (by simp [maximumEvidenceCount])

/-- The encoder writes an event with more evidence than the decoder reads. -/
theorem decodeApplicationJournal_encode_refused :
    ∃ snapshot : Snapshot, snapshot.Constructed .reference ∧
      ∃ data, encodeApplicationJournal .reference snapshot = .ok data ∧
        decodeApplicationJournal .reference data ≠ .ok snapshot := by
  have hdata := encode_toolSnapshot manyEvidence (by simp [card_manyEvidence])
  have hconstructed := constructed_toolSnapshot manyEvidence
    (by simp [card_manyEvidence])
  refine ⟨_, hconstructed, _, hdata, ?_⟩
  intro hdecode
  have hdenotes := (encodes_journal.decode_iff decodes_journal
    (validBelow_snapshot (fits_of_constructed hconstructed)) hdata).mp hdecode
  have hcount := ((denotes_spellSnapshot hconstructed).mp hdenotes).evidence _ List.mem_cons_self
  rw [card_manyEvidence] at hcount
  exact absurd hcount (by decide)

end JournalCodec

end PkgApply.Transport
