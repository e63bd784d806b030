import PkgApply.Transport.TransportFormats
import PkgApply.Transport.JournalRoundTrip

/-!
# Canonical journal bytes

The decoders rebuild declarations, steps, cursors and records through their
constructors, which sort what they are given, and compare the identity of the
result.  So they accept a value spelled in another order, or with another text
of a path or of a planning identity, and re-encoding gives the canonical bytes
instead.
-/

namespace PkgApply.Transport

open Library

namespace TransportCodec

/-! ## Whole encodings -/

section Whole

variable {α σ I : Type} {F : Format Byte σ}

theorem translateInvalid_eq_ok {x : Except DecodeFailure α} {a : α} :
    translateInvalid x = .ok a ↔ x = .ok a := by
  unfold translateInvalid
  split
  · simp
  · exact Iff.rfl

theorem decode_iff {r : Reader α} {data : List Byte} {a : α} :
    decode r data = .ok a ↔
      data.length ≤ maximumTransportEncodingSize ∧ ∃ rest, r data = .ok (a, rest) := by
  unfold decode
  rw [translateInvalid_eq_ok]
  by_cases hsize : data.length > maximumTransportEncodingSize
  · rw [if_pos hsize]
    constructor
    · intro h
      cases h
    · rintro ⟨hle, -⟩
      omega
  · rw [if_neg hsize]
    cases hr : r data with
    | error e =>
      constructor
      · intro h
        cases h
      · rintro ⟨-, rest, h⟩
        cases h
    | ok p =>
      obtain ⟨b, rest⟩ := p
      constructor
      · intro h
        cases h
        exact ⟨Nat.not_lt.mp hsize, rest, rfl⟩
      · rintro ⟨-, rest', h⟩
        cases h
        rfl

/-- A decoder that reads the identity a value carries and the value, and
compares. -/
theorem decodes_identified [DecidableEq I] {r : Reader (I × Except Exn α)}
    {reads : σ → I × Except Exn α → Prop} {identity : α → I} {message : String}
    (h : Parses maximumTransportEncodingSize r F reads) :
    Decodes maximumTransportEncodingSize (decode do
      let (expected, made) ← r
      requireEnd
      let a ← construct made
      if identity a ≠ expected then
        refuse .identityMismatch message
      return a) F fun s a => reads s (identity a, .ok a) := by
  intro data a
  rw [decode_iff]
  apply and_congr_right
  intro hsize
  simp only [decode_bind_eq_ok, requireEnd_eq_ok, construct_eq_ok]
  constructor
  · rintro ⟨_, ⟨expected, made⟩, _, hread, ⟨⟩, _, ⟨rfl, rfl⟩, a', _, ⟨rfl, rfl⟩, hrest⟩
    by_cases hidentity : identity a' ≠ expected
    · rw [if_pos hidentity] at hrest
      cases hrest
    · rw [if_neg hidentity] at hrest
      obtain ⟨-, rfl⟩ := Stream.pure_eq_ok.mp hrest
      obtain ⟨s, hs, hdata, hreads⟩ := (h data hsize _ _).mp hread
      rw [List.append_nil] at hdata
      rw [← not_not.mp hidentity] at hreads
      exact ⟨s, hs, hdata, hreads⟩
  · rintro ⟨s, hs, rfl, hreads⟩
    have hread := (h (F.spell s) hsize (identity a, .ok a) []).mpr
      ⟨s, hs, (List.append_nil _).symm, hreads⟩
    refine ⟨[], _, [], hread, (), [], ⟨rfl, rfl⟩, a, [], ⟨rfl, rfl⟩, ?_⟩
    rw [if_neg (not_not.mpr rfl)]
    rfl

/-- What a writer gives is its spelling, exactly when that fits the limit. -/
theorem finish_iff {output : Writer} {s bytes : List Byte}
    (h : Writes maximumTransportEncodingSize output s) :
    finish output = .ok bytes ↔ bytes = s ∧ s.length ≤ maximumTransportEncodingSize :=
  (transportStream id).finish_eq_ok h

/-- The magic, the two versions and the fields. -/
def preambled (magic : List Byte) (F : Format Byte σ) : Format Byte σ :=
  ((F.after (bigEndian 2 schemaVersion)).after (bigEndian 2 encodingVersion)).after magic

theorem parses_preambled {magic : List Byte} {encoding schema : String} {k : Reader α}
    {V : σ → α → Prop} (h : Parses maximumTransportEncodingSize k F V) :
    Parses maximumTransportEncodingSize (do
      expectMagic magic
      expectVersion encodingVersion encoding
      expectVersion schemaVersion schema
      k) (preambled magic F) V := by
  apply Parses.after fun _ _ => expectMagic_eq_ok
  apply Parses.after fun _ _ => expectVersion_eq_ok (by decide)
  apply Parses.after fun _ _ => expectVersion_eq_ok (by decide)
  exact h

theorem writes_preambled {magic : List Byte} {output : Writer} {s : σ}
    (h : Writes maximumTransportEncodingSize output (F.spell s)) :
    Writes maximumTransportEncodingSize (do
      appendBytes magic
      appendU16 encodingVersion
      appendU16 schemaVersion
      output) ((preambled magic F).spell s) := by
  apply (writes_bytes magic).bind
  apply (writes_u16 _).bind
  exact (writes_u16 _).bind h

theorem validBelow_preambled {magic : List Byte} {s : σ} (h : F.ValidBelow (2 ^ 64) s) :
    (preambled magic F).ValidBelow (maximumTransportEncodingSize + 1) s := by
  have hbelow : maximumTransportEncodingSize + 1 ≤ 2 ^ 64 := by decide
  refine .mono ?_ hbelow
  apply Format.ValidBelow.after
  apply Format.ValidBelow.after
  exact h.after

end Whole

variable {X : Externals}

/-- Valid spellings of effects have ordinals of 64 bits. -/
theorem ordinals_lt {ss : List SpelledEffect} {effects : List JournalEffect}
    (h : List.Forall₂ (SpelledEffect.Denotes X) ss effects)
    (hvalid : ∀ s ∈ ss, s ∈ effectFormat.valid) : ∀ effect ∈ effects, effect.ordinal < 2 ^ 64 := by
  induction h with
  | nil => simp
  | cons hs _ ih =>
    obtain ⟨hhead, htail⟩ := List.forall_mem_cons.mp hvalid
    obtain ⟨_, -, hmade⟩ := hs
    rw [List.forall_mem_cons]
    constructor
    · rw [(makeEffect_eq_ok.mp hmade).1]
      exact hhead.1
    · exact ih htail

/-! ## Declarations -/

structure SpelledDeclaration where
  identity : TypedDigest .applicationJournalDeclaration
  header : SpelledHeader
  effects : List SpelledEffect
  replaySeed : List Byte

def declarationFormat : Format Byte SpelledDeclaration :=
  preambled declarationMagic
    (((typedFormat .applicationJournalDeclaration).seq (headerFormat.seq
      ((listFormat effectFormat).seq .text))).via
      ⟨fun s => (s.identity, s.header, s.effects, s.replaySeed),
        fun p => ⟨p.1, p.2.1, p.2.2.1, p.2.2.2⟩, fun _ => rfl, fun _ => rfl⟩)

def spellDeclaration (X : Externals) (declaration : Declaration) : SpelledDeclaration :=
  ⟨declaration.identity X, spellHeader X declaration.header,
    declaration.effects.map spellEffect, declaration.replaySeed⟩

namespace SpelledDeclaration

variable (X)

/-- The fields a decoder reads, and what the constructor makes of them. -/
def Reads (s : SpelledDeclaration) (made : Except Exn Declaration) : Prop :=
  ∃ header, s.header.Denotes X header ∧
    ∃ effects, (s.effects.length ≤ maximumEffectCount ∧
        List.Forall₂ (SpelledEffect.Denotes X) s.effects effects) ∧
      made = Declaration.make X header effects s.replaySeed

/-- Own texts throughout, and the projection in its order. -/
structure Canonical (s : SpelledDeclaration) : Prop where
  header : s.header.Canonical X
  effects : ∀ effect ∈ s.effects, effect.Canonical X

end SpelledDeclaration

theorem parses_declaration : Parses maximumTransportEncodingSize (readDeclaration X)
    declarationFormat fun s p => p.1 = s.identity ∧ s.Reads X p.2 := by
  apply parses_preambled
  apply Parses.as
  · apply (parses_typed _).field
    intro expected
    apply parses_header.bind
    intro header
    apply parses_counted parses_effect
    intro effects
    apply parses_blob.then
    intro replaySeed input made rest
    exact Stream.pure_eq_ok
  · rintro s _ ⟨expected, made⟩
    simp only [exists_eq_left', Prod.mk.injEq]
    constructor
    · rintro ⟨header, hheader, effects, heffects, rfl, rfl⟩
      exact ⟨rfl, header, hheader, effects, heffects, rfl⟩
    · rintro ⟨rfl, header, hheader, effects, heffects, rfl⟩
      exact ⟨header, hheader, effects, heffects, rfl, rfl⟩

theorem decodes_declaration : Decodes maximumTransportEncodingSize (decodeDeclaration X)
    declarationFormat fun s declaration =>
      declaration.identity X = s.identity ∧ s.Reads X (.ok declaration) :=
  decodes_identified parses_declaration

theorem declarationMake_eq_ok {header : JournalHeader} {effects : List JournalEffect}
    {replaySeed : List Byte} {declaration : Declaration}
    (h : Declaration.make X header effects replaySeed = .ok declaration) :
    declaration = ⟨header, effects, replaySeed⟩ := by
  simp only [Declaration.make, bind_eq_ok_iff, pure, Except.pure, Except.ok.injEq] at h
  obtain ⟨_, -, rfl⟩ := h
  rfl

theorem writes_declaration {declaration : Declaration} (h : declaration.WithinCounts) :
    Writes maximumTransportEncodingSize (appendDeclaration X declaration)
      (declarationFormat.spell (spellDeclaration X declaration)) := by
  apply writes_preambled
  apply (writes_typed _).bind
  apply (writes_header h.paths h.owners).bind
  apply (writes_count h.effects (by simp [spellDeclaration]) _).pair
  · exact writes_elements fun effect _ => writes_effect effect
  · exact writes_blob _

theorem respells_declaration : Respells maximumTransportEncodingSize (encodeDeclaration X)
    declarationFormat (fun s declaration =>
      declaration.identity X = s.identity ∧ s.Reads X (.ok declaration))
    (SpelledDeclaration.Canonical X) (spellDeclaration X) where
  encodes := by
    rintro s declaration _ ⟨-, header, hheader, effects, ⟨hcount, heffects⟩, hmade⟩ data
    obtain rfl := declarationMake_eq_ok hmade.symm
    obtain ⟨hpaths, howners⟩ := hheader.counts
    exact finish_iff (writes_declaration ⟨heffects.length_eq ▸ hcount, hpaths, howners⟩)
  valid := by
    rintro s declaration hs ⟨-, header, hheader, effects, ⟨hcount, heffects⟩, hmade⟩
    obtain rfl := declarationMake_eq_ok hmade.symm
    have hsize : (effects.map spellEffect).length < 2 ^ 64 := by
      rw [List.length_map, ← heffects.length_eq]
      exact lt_of_le_of_lt hcount (by decide)
    apply validBelow_preambled
    apply Format.ValidBelow.via
    refine .seq (.of_mem trivial) ?_
    apply (validBelow_header (projectionFits_of_counts hheader.counts)).seq
    apply Format.ValidBelow.seq
    · apply validBelow_list hsize
      intro spelled hspelled
      obtain ⟨effect, heffect, rfl⟩ := List.mem_map.mp hspelled
      exact validBelow_effect (ordinals_lt heffects hs.2.2.1.2 effect heffect)
    · exact validBelow_text _
  canonical := by
    rintro s declaration ⟨hidentity, header, hheader, effects, ⟨-, heffects⟩, hmade⟩
    obtain rfl := declarationMake_eq_ok hmade.symm
    have hspelled := forall_canonical_iff heffects fun _ _ hs => SpelledEffect.canonical_iff hs
    obtain ⟨identity, spelledHeader, spelledEffects, replaySeed⟩ := s
    simp only at hidentity
    rw [spellDeclaration, hidentity, SpelledDeclaration.mk.injEq,
      ← SpelledHeader.canonical_iff hheader, ← hspelled]
    constructor
    · rintro ⟨hheader, heffects⟩
      exact ⟨rfl, hheader, heffects, rfl⟩
    · rintro ⟨-, hheader, heffects, -⟩
      exact ⟨hheader, heffects⟩

/-! ## Steps -/

structure SpelledStep where
  identity : TypedDigest .applicationJournalStep
  declaration : TypedDigest .applicationJournalDeclaration
  sequence : UInt64
  predecessor : Option (TypedDigest .applicationJournalStep)
  state : JournalState
  event : Option SpelledEvent
  replayFact : List Byte
  receipt : Option (TypedDigest .applicationReceipt)
  completedEvidence : Option (TypedDigest .completedApplicationEvidence)

def stepFormat : Format Byte SpelledStep :=
  preambled stepMagic
    (((typedFormat .applicationJournalStep).seq ((typedFormat .applicationJournalDeclaration).seq
      (Format.uint64.seq ((optionalFormat (typedFormat .applicationJournalStep)).seq
        ((Format.coded journalStates).seq ((optionalFormat eventFormat).seq (Format.text.seq
          ((optionalFormat (typedFormat .applicationReceipt)).seq
            (optionalFormat (typedFormat .completedApplicationEvidence)))))))))).via
      ⟨fun s => (s.identity, s.declaration, s.sequence, s.predecessor, s.state, s.event,
          s.replayFact, s.receipt, s.completedEvidence),
        fun p => ⟨p.1, p.2.1, p.2.2.1, p.2.2.2.1, p.2.2.2.2.1, p.2.2.2.2.2.1, p.2.2.2.2.2.2.1,
          p.2.2.2.2.2.2.2.1, p.2.2.2.2.2.2.2.2⟩,
        fun _ => rfl, fun _ => rfl⟩)

def spellStep (X : Externals) (step : Step) : SpelledStep :=
  ⟨step.identity X, step.declaration, step.sequence, step.predecessor, step.state,
    step.event.map spellEvent, step.replayFact, step.receipt, step.completedEvidence⟩

namespace SpelledStep

def Reads (s : SpelledStep) (made : Except Exn Step) : Prop :=
  ∃ event, Option.Rel SpelledEvent.Denotes s.event event ∧
    made = Step.make s.declaration s.sequence s.predecessor s.state event s.replayFact s.receipt
      s.completedEvidence

/-- The backend evidence of the event in ascending order. -/
def Canonical (s : SpelledStep) : Prop :=
  ∀ event, s.event = some event → event.Canonical

end SpelledStep

theorem stepMake_eq_ok {declaration : TypedDigest .applicationJournalDeclaration}
    {sequence : UInt64} {predecessor : Option (TypedDigest .applicationJournalStep)}
    {state : JournalState} {event : Option Event} {replayFact : List Byte}
    {receipt : Option (TypedDigest .applicationReceipt)}
    {completedEvidence : Option (TypedDigest .completedApplicationEvidence)} {step : Step} :
    Step.make declaration sequence predecessor state event replayFact receipt completedEvidence =
      .ok step ↔
        step.declaration = declaration ∧ step.sequence = sequence ∧
          step.predecessor = predecessor ∧ step.state = state ∧ step.event = event ∧
            step.replayFact = replayFact ∧ step.receipt = receipt ∧
              step.completedEvidence = completedEvidence := by
  unfold Step.make
  by_cases hpredecessor : sequence = 0 ↔ predecessor = none
  · rw [dif_pos hpredecessor]
    by_cases hevidence : completedEvidence.isSome → receipt.isSome
    · rw [dif_pos hevidence, Except.ok.injEq]
      constructor
      · rintro rfl
        exact ⟨rfl, rfl, rfl, rfl, rfl, rfl, rfl, rfl⟩
      · rintro ⟨rfl, rfl, rfl, rfl, rfl, rfl, rfl, rfl⟩
        rfl
    · rw [dif_neg hevidence]
      constructor
      · intro h
        cases h
      · rintro ⟨-, -, -, -, -, -, rfl, rfl⟩
        exact absurd step.evidence_receipt hevidence
  · rw [dif_neg hpredecessor]
    constructor
    · intro h
      cases h
    · rintro ⟨-, rfl, rfl, -⟩
      exact absurd step.predecessor_iff hpredecessor

theorem parses_step : Parses maximumTransportEncodingSize readStep stepFormat fun s p =>
    p.1 = s.identity ∧ s.Reads p.2 := by
  apply parses_preambled
  apply Parses.as
  · apply (parses_typed _).field
    intro expected
    apply (parses_typed _).field
    intro declaration
    apply parses_uint64.bind
    intro sequence
    apply (parses_optional (parses_typed _)).bind
    intro predecessor
    apply parses_state.field
    intro state
    apply (parses_optional parses_event).bind
    intro event
    apply parses_blob.field
    intro replayFact
    apply (parses_optional (parses_typed _)).bind
    intro receipt
    apply (parses_optional (parses_typed _)).then
    intro completedEvidence input made rest
    exact Stream.pure_eq_ok
  · rintro s _ ⟨expected, made⟩
    simp only [optionRel_eq_iff, exists_eq_left', Prod.mk.injEq]
    constructor
    · rintro ⟨_, rfl, event, hevent, rfl, rfl⟩
      rw [UInt64.ofNat_toNat]
      exact ⟨rfl, event, hevent, rfl⟩
    · rintro ⟨rfl, event, hevent, rfl⟩
      refine ⟨_, rfl, event, hevent, rfl, ?_⟩
      rw [UInt64.ofNat_toNat]
      rfl

theorem decodes_step : Decodes maximumTransportEncodingSize (decodeStep X) stepFormat
    fun s step => step.identity X = s.identity ∧ s.Reads (.ok step) :=
  decodes_identified parses_step

theorem writes_step {step : Step} (h : ∀ event, step.event = some event →
      event.backendEvidence.card ≤ maximumEvidenceCount) :
    Writes maximumTransportEncodingSize (appendStep X step)
      (stepFormat.spell (spellStep X step)) := by
  apply writes_preambled
  apply (writes_typed _).bind
  apply (writes_typed _).bind
  apply (writes_u64 _).bind
  apply (writes_optionalTyped _).bind
  apply (writes_u8 _).bind
  apply (writes_optional fun event hevent => writes_event (h event hevent)).bind
  apply (writes_blob _).bind
  apply (writes_optionalTyped _).bind
  exact writes_optionalTyped _

/-- The event of a step that was read is spelled within the count limit. -/
theorem SpelledStep.Reads.event {s : SpelledStep} {step : Step} (h : s.Reads (.ok step)) :
    Option.Rel SpelledEvent.Denotes s.event step.event ∧
      ∀ event, step.event = some event → event.backendEvidence.card ≤ maximumEvidenceCount := by
  obtain ⟨event, hevent, hmade⟩ := h
  rw [(stepMake_eq_ok.mp hmade.symm).2.2.2.2.1]
  refine ⟨hevent, ?_⟩
  rintro event' rfl
  generalize s.event = spelled at hevent
  cases hevent with
  | some hdenotes => exact hdenotes.count

theorem respells_step : Respells maximumTransportEncodingSize (encodeStep X) stepFormat
    (fun s step => step.identity X = s.identity ∧ s.Reads (.ok step)) SpelledStep.Canonical
    (spellStep X) where
  encodes := by
    rintro s step _ ⟨-, hreads⟩ data
    exact finish_iff (writes_step hreads.event.2)
  valid := by
    rintro s step - ⟨-, hreads⟩
    apply validBelow_preambled
    apply Format.ValidBelow.via
    refine .seq (.of_mem trivial) ?_
    refine .seq (.of_mem trivial) ?_
    refine .seq (.of_mem trivial) ?_
    refine .seq (.of_mem fun _ _ => trivial) ?_
    refine .seq (.of_mem trivial) ?_
    apply Format.ValidBelow.seq
    · apply Format.ValidBelow.optional
      intro spelled hspelled
      obtain ⟨event, hevent, rfl⟩ := Option.map_eq_some_iff.mp hspelled
      exact validBelow_event (lt_of_le_of_lt (hreads.event.2 event hevent) (by decide))
    · apply (validBelow_text _).seq
      exact .of_mem ⟨fun _ _ => trivial, fun _ _ => trivial⟩
  canonical := by
    rintro s step ⟨hidentity, hreads⟩
    have hevent := hreads.event.1
    obtain ⟨_, -, hmade⟩ := hreads
    obtain ⟨hdeclaration, hsequence, hpredecessor, hstate, -, hfact, hreceipt, hcompleted⟩ :=
      stepMake_eq_ok.mp hmade.symm
    obtain ⟨identity, declaration, sequence, predecessor, state, spelled, replayFact, receipt,
      completedEvidence⟩ := s
    simp only at hidentity hevent hdeclaration hsequence hpredecessor
    simp only at hstate hfact hreceipt hcompleted
    rw [SpelledStep.Canonical, spellStep, SpelledStep.mk.injEq, hidentity, hdeclaration, hsequence,
      hpredecessor, hstate, hfact, hreceipt, hcompleted]
    generalize step.event = event at hevent
    cases hevent with
    | none => simp
    | @some spelled event hdenotes => simpa using SpelledEvent.canonical_iff hdenotes

/-! ## Cursors -/

/-- The identity a cursor carries and its fields, which nothing normalises. -/
def cursorFormat : Format Byte (TypedDigest .applicationJournalCursor × Cursor) :=
  preambled cursorMagic
    (((typedFormat .applicationJournalCursor).seq
      ((typedFormat .applicationJournalDeclaration).seq
        (Format.uint64.seq ((optionalFormat (typedFormat .applicationJournalStep)).seq
          ((Format.coded journalStates).seq
            ((optionalFormat (typedFormat .applicationReceipt)).seq
              (optionalFormat (typedFormat .completedApplicationEvidence)))))))).via
      ⟨fun s => (s.1, s.2.declaration, s.2.stepCount, s.2.latestStep, s.2.state, s.2.receipt,
          s.2.completedEvidence),
        fun p => (p.1, ⟨p.2.1, p.2.2.1, p.2.2.2.1, p.2.2.2.2.1, p.2.2.2.2.2.1, p.2.2.2.2.2.2⟩),
        fun _ => rfl, fun _ => rfl⟩)

theorem parses_cursor : Parses maximumTransportEncodingSize readCursor cursorFormat Eq := by
  apply parses_preambled
  apply Parses.as
  · apply (parses_typed _).field
    intro expected
    apply (parses_typed _).field
    intro declaration
    apply parses_uint64.bind
    intro stepCount
    apply (parses_optional (parses_typed _)).bind
    intro latestStep
    apply parses_state.field
    intro state
    apply (parses_optional (parses_typed _)).bind
    intro receipt
    apply (parses_optional (parses_typed _)).then
    intro completedEvidence input cursor rest
    exact Stream.pure_eq_ok
  · rintro ⟨identity, cursor⟩ _ ⟨expected, cursor'⟩
    simp only [optionRel_eq_iff, exists_eq_left', exists_eq_left, UInt64.ofNat_toNat]
    exact eq_comm

theorem writes_cursor (cursor : Cursor) : Writes maximumTransportEncodingSize
    (appendCursor X cursor) (cursorFormat.spell (cursor.identity X, cursor)) := by
  apply writes_preambled
  apply (writes_typed _).bind
  apply (writes_typed _).bind
  apply (writes_u64 _).bind
  apply (writes_optionalTyped _).bind
  apply (writes_u8 _).bind
  apply (writes_optionalTyped _).bind
  exact writes_optionalTyped _

theorem restore_eq_ok {cursor restored : Cursor} (h : cursor.restore = .ok restored) :
    restored = cursor := by
  simp only [Cursor.restore, refuseIf_bind_eq_ok, pure, Except.pure, Except.ok.injEq] at h
  exact h.2.2.2.symm

/-- An accepted cursor is spelled with its own identity. -/
theorem spelled_of_decodeCursor {data : List Byte} {cursor : Cursor}
    (h : decodeCursor X data = .ok cursor) :
    data.length ≤ maximumTransportEncodingSize ∧
      data = cursorFormat.spell (cursor.identity X, cursor) := by
  rw [decodeCursor, decode_iff] at h
  obtain ⟨hsize, rest, h⟩ := h
  refine ⟨hsize, ?_⟩
  simp only [decode_bind_eq_ok, requireEnd_eq_ok] at h
  obtain ⟨⟨expected, read⟩, _, hread, ⟨⟩, _, ⟨rfl, rfl⟩, h⟩ := h
  obtain ⟨s, -, hdata, rfl⟩ := (parses_cursor data hsize _ _).mp hread
  rw [List.append_nil] at hdata
  simp only at h
  by_cases hhead : (read.stepCount = 0) ≠ (read.latestStep = none)
  · rw [if_pos hhead] at h
    cases h
  rw [if_neg hhead, decode_bind_eq_ok] at h
  obtain ⟨restored, _, hconstruct, h⟩ := h
  obtain ⟨rfl, hrestored⟩ := construct_eq_ok.mp hconstruct
  obtain rfl := restore_eq_ok hrestored
  by_cases hidentity : Cursor.identity X restored ≠ expected
  · rw [if_pos hidentity] at h
    cases h
  rw [if_neg hidentity] at h
  obtain ⟨-, rfl⟩ := Stream.pure_eq_ok.mp h
  rw [not_not.mp hidentity, hdata]

/-- Every accepted cursor is encoded as the bytes it was read from. -/
theorem encodeCursor_decode {data : List Byte} {cursor : Cursor}
    (h : decodeCursor X data = .ok cursor) : encodeCursor X cursor = .ok data := by
  obtain ⟨hsize, hdata⟩ := spelled_of_decodeCursor h
  rw [hdata] at hsize ⊢
  exact (finish_iff (writes_cursor cursor)).mpr ⟨rfl, hsize⟩

/-! ## Records -/

open JournalCodec in
theorem respells_record : Respells RecordCodec.journal.maximum (encodeApplicationJournal X)
    snapshotFormat (SpelledSnapshot.Denotes X) (SpelledSnapshot.Canonical X)
    (spellSnapshot X) where
  encodes := by
    intro s snapshot _ _ data
    rw [encodes_journal, true_and]
  valid := by
    rintro s snapshot hs ⟨⟨header, hheader, effects, ⟨heffects, hspelled⟩, events,
      ⟨hevents, hspelledEvents⟩, hmade⟩, -⟩
    obtain ⟨rfl, -⟩ := Snapshot.make_eq_ok hmade.symm
    have hordinals := ordinals_lt hspelled hs.2.2.2.1.2
    have hevidence := forall_right hspelledEvents fun _ _ hdenotes => hdenotes.count
    apply validBelow_snapshot
    constructor
    · exact projectionFits_of_counts hheader.counts
    · intro effect heffect
      exact hordinals effect ((List.perm_insertionSort _ _).mem_iff.mp heffect)
    · rw [List.length_insertionSort, ← hspelled.length_eq]
      exact lt_of_le_of_lt heffects (by decide)
    · rw [← hspelledEvents.length_eq]
      exact lt_of_le_of_lt hevents (by decide)
    · intro event hevent
      exact lt_of_le_of_lt (hevidence event hevent) (by decide)
  canonical := fun _ _ => SpelledSnapshot.canonical_iff

/-! ## A step of one intent -/

/-- The spelling of the intent with its backend evidence in this order. -/
def spellIntent (l : List BackendEvidenceIdentity) : SpelledStep :=
  { spellStep .reference (toolIntent l.toFinset) with
    event := some ⟨0, .intent,
      ⟨0x1e1a549c38805eff0cac6b13aae44814560780bff354342f7d0fd48ea038e228⟩, l⟩ }

theorem valid_spellIntent {l : List BackendEvidenceIdentity} (h : l.length ≤ maximumEvidenceCount) :
    spellIntent l ∈ stepFormat.valid := by
  have hcount : l.length < 2 ^ 64 := lt_of_le_of_lt h (by decide)
  refine ⟨trivial, trivial, trivial, fun _ _ => trivial, trivial, ?_, ?_, fun _ _ => trivial,
    fun _ _ => trivial⟩
  · rintro event ⟨⟩
    exact ⟨trivial, trivial, trivial, hcount, fun _ _ => trivial⟩
  · exact (by decide : 0 < 256 ^ 8)

theorem decode_spellIntent {l : List BackendEvidenceIdentity} (hl : l.Nodup)
    (h : l.length ≤ 1000) :
    decodeStep .reference (stepFormat.spell (spellIntent l)) = .ok (toolIntent l.toFinset) := by
  have hmagic : stepMagic.length = 8 := by decide +kernel
  have hsize : (stepFormat.spell (spellIntent l)).length ≤ 1000 + 82 * l.length := by
    simp [stepFormat, preambled, spellIntent, spellStep, toolIntent, Format.via, Format.seq,
      Format.after, typedFormat, digestFormat, Format.text, Format.number, Format.coded,
      identityFormat, listFormat, Format.list, counted, optionalFormat, Format.optional, tagged,
      eventFormat, Format.flag, Format.uint64, hmagic, Function.comp_def]
    omega
  have hmaximum : maximumTransportEncodingSize = 268435456 := by decide
  have hcount : l.length ≤ maximumEvidenceCount := by
    rw [maximumEvidenceCount]
    omega
  rw [decodes_step]
  refine ⟨by omega, _, valid_spellIntent hcount, rfl, rfl, ?_⟩
  refine ⟨some ⟨0, .intent, _, l.toFinset⟩, .some ⟨hcount, eventMake_eq_ok.mpr ⟨hl, rfl⟩⟩, ?_⟩
  rfl

/-! ## Canonical bytes -/

open JournalCodec in
/-- **Canonical bytes.**  What an accepted declaration, step or record is
encoded as is the bytes it was read from exactly when these spell it
canonically; a cursor always is. -/
theorem journal_bytes_canonical (X : Externals) :
    (∀ data declaration, decodeDeclaration X data = .ok declaration →
      (encodeDeclaration X declaration = .ok data ↔
        declarationFormat.SpellsAs (SpelledDeclaration.Canonical X) data)) ∧
    (∀ data step, decodeStep X data = .ok step →
      (encodeStep X step = .ok data ↔ stepFormat.SpellsAs SpelledStep.Canonical data)) ∧
    (∀ data cursor, decodeCursor X data = .ok cursor → encodeCursor X cursor = .ok data) ∧
    ∀ data snapshot, decodeApplicationJournal X data = .ok snapshot →
      (encodeApplicationJournal X snapshot = .ok data ↔
        snapshotFormat.SpellsAs (SpelledSnapshot.Canonical X) data) := by
  refine ⟨?_, ?_, ?_, ?_⟩
  · intro data declaration h
    exact decodes_declaration.encode_iff respells_declaration h
  · intro data step h
    exact decodes_step.encode_iff respells_step h
  · intro data cursor h
    exact encodeCursor_decode h
  · intro data snapshot h
    exact decodes_journal.encode_iff respells_record h

open JournalCodec in
/-- The encodings of the journal of one published object are canonical. -/
theorem journal_bytes_canonical_tool :
    (∃ data, decodeDeclaration .reference data = .ok toolDeclaration ∧
      declarationFormat.SpellsAs (SpelledDeclaration.Canonical .reference) data) ∧
    encodeStep .reference (toolIntent {⟨30⟩, ⟨31⟩}) =
      .ok (stepFormat.spell (spellIntent [⟨30⟩, ⟨31⟩])) ∧
    (∃ data, decodeCursor .reference data = .ok toolCursor ∧
      encodeCursor .reference toolCursor = .ok data) ∧
    snapshotFormat.SpellsAs (SpelledSnapshot.Canonical .reference)
      (snapshotFormat.spell (spellSnapshot .reference (toolSnapshot {⟨30⟩}))) := by
  obtain ⟨hdeclaration, hstep, hcursor, hrecord⟩ := journal_bytes_canonical .reference
  refine ⟨?_, ?_, ?_, ?_⟩
  · have hcounts : toolDeclaration.WithinCounts := by constructor <;> decide +kernel
    obtain ⟨data, hdata, -⟩ := encodeDeclaration_ok (X := .reference) hcounts (by decide +kernel)
    have hdecode := decodeDeclaration_encode constructed_toolDeclaration hdata
    exact ⟨data, hdecode, (hdeclaration _ _ hdecode).mp hdata⟩
  · have hdecode := decode_spellIntent (l := [⟨30⟩, ⟨31⟩]) (by decide) (by decide)
    apply (hstep _ _ hdecode).mpr
    apply (Format.spellsAs_iff (valid_spellIntent (by decide))).mpr
    rintro event ⟨⟩
    exact (by decide : [(⟨30⟩ : BackendEvidenceIdentity), ⟨31⟩].Pairwise (· < ·))
  · obtain ⟨data, hdata, -⟩ := encodeCursor_ok (X := .reference) toolCursor
    have hdecode := decodeCursor_encode reaches_toolCursor (by decide) hdata
    exact ⟨data, hdecode, hcursor _ _ hdecode⟩
  · have hdata := encode_toolSnapshot {⟨30⟩} (by simp)
    have hconstructed := constructed_toolSnapshot {⟨30⟩} (by simp)
    have hwithin := withinCounts_toolSnapshot {⟨30⟩} (by simp [maximumEvidenceCount])
    have hdecode := (encodes_journal.decode_iff decodes_journal
      (validBelow_snapshot (fits_of_constructed hconstructed)) hdata).mpr
        ((denotes_spellSnapshot hconstructed).mpr hwithin)
    exact (hrecord _ _ hdecode).mp hdata

/-- A step with its backend evidence in descending order is accepted too. -/
theorem decodeStep_permuted :
    ∃ data step, decodeStep .reference data = .ok step ∧
      encodeStep .reference step ≠ .ok data := by
  have hdecode := decode_spellIntent (l := [⟨31⟩, ⟨30⟩]) (by decide) (by decide)
  refine ⟨_, _, hdecode, ?_⟩
  intro hencode
  have hspells := (decodes_step.encode_iff respells_step hdecode).mp hencode
  have hcanonical := (Format.spellsAs_iff (valid_spellIntent (by decide))).mp hspells
  exact absurd (hcanonical _ rfl) (by decide :
    ¬[(⟨31⟩ : BackendEvidenceIdentity), ⟨30⟩].Pairwise (· < ·))

end TransportCodec

end PkgApply.Transport
