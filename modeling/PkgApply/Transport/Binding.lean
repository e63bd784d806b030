import PkgApply.Transport.Value

/-!
# What an identity binds

The records of effects, declarations, steps and cursors are injective in
everything they bind.  Where SHA-256 does not collide on the records of two
histories, equal cursor identities therefore lead back along the predecessor
links to equal steps.
-/

namespace PkgApply.Transport

open Library CanonicalRecord

variable {X : Externals}

/-! ## Delimited fields -/

theorem typedDigest_injective {domain : DigestDomain} :
    Function.Injective fun identity : TypedDigest domain => identity.digest :=
  fun _ _ h => congrArg TypedDigest.mk h

theorem delimited_typedDigest {domain : DigestDomain} :
    Delimited fun identity : TypedDigest domain => digestField identity.digest :=
  delimited_digestField.comp (fun _ _ => trivial) typedDigest_injective.injOn

theorem delimited_optionalTypedDigest {domain : DigestDomain} :
    Delimited fun identity : Option (TypedDigest domain) =>
      tagged boolField digestField (identity.map TypedDigest.digest) :=
  delimited_optionalDigest.comp (fun _ _ => trivial)
    (Option.map_injective typedDigest_injective).injOn

theorem delimited_state : Delimited fun state => [canonicalState state] :=
  delimited_byte.comp (fun _ _ => trivial) canonicalState_injective.injOn

theorem delimited_uint64 : Delimited fun n : UInt64 => bigEndian 8 n.toNat :=
  delimitedOn_u64.comp (fun n _ => n.toNat_lt) fun _ _ _ _ h => UInt64.toNat_inj.mp h

/-! ## Effects -/

theorem bytes_effectRecord (effect : JournalEffect) : (effectRecord effect).bytes =
    (start .applicationJournalEffect).bytes ++ (bigEndian 2 schemaVersion ++
      (bigEndian 8 effect.ordinal ++ ([canonicalEffect effect.kind] ++
        tagged boolField (fun path => bytesField path.bytes) effect.path))) := by
  cases h : effect.path <;> simp [effectRecord, h, tagged]

theorem delimitedOn_path : DelimitedOn (fun path : PackagePath => bytesField path.bytes)
    {path | X.IsPath path} :=
  delimitedOn_bytesField.comp (fun _ h => h.size) PackagePath.bytes_injective.injOn

/-- The record of an effect determines the effect. -/
theorem effectRecord_injOn :
    Set.InjOn (fun effect => (effectRecord effect).bytes) {effect | EffectFits X effect} := by
  intro a ha b hb h
  simp only [bytes_effectRecord] at h
  have h := List.append_cancel_left (List.append_cancel_left h)
  obtain ⟨hordinal, h⟩ := delimitedOn_u64 _ ha.ordinal _ hb.ordinal _ _ h
  obtain ⟨hkind, h⟩ := delimited_byte _ trivial _ trivial _ _ h
  have hpath := (delimited_boolField.tagged delimitedOn_path).injOn ha.path hb.path h
  cases a
  cases b
  simp_all [canonicalEffect_injective.eq_iff]

/-! ## Declarations -/

theorem Declaration.bytes_record (declaration : Declaration) : (declaration.record X).bytes =
    (start .applicationJournalDeclaration).bytes ++ (bigEndian 2 schemaVersion ++
      (digestField (identifyHeader X declaration.header).digest ++
        (counted (bigEndian 8) digestField
          (declaration.effects.map fun effect => (identifyEffect X effect).digest) ++
          (bigEndian 8 declaration.replaySeed.length ++ bytesField declaration.replaySeed)))) := by
  simp [Declaration.record, counted]

/-- The record of a declaration determines the identities of its header and
its effects, and the replay seed. -/
theorem Declaration.record_injOn {a b : Declaration} (ha : a.Constructed X)
    (hb : b.Constructed X) (h : (a.record X).bytes = (b.record X).bytes) :
    identifyHeader X a.header = identifyHeader X b.header ∧
      a.effects.map (identifyEffect X) = b.effects.map (identifyEffect X) ∧
      a.replaySeed = b.replaySeed := by
  simp only [bytes_record] at h
  have h := List.append_cancel_left (List.append_cancel_left h)
  obtain ⟨hheader, h⟩ := delimited_typedDigest _ trivial _ trivial _ _ h
  obtain ⟨heffects, h⟩ := (delimitedOn_u64.counted delimited_digestField)
    _ ⟨by simpa using ha.effects_size, fun _ _ => trivial⟩
    _ ⟨by simpa using hb.effects_size, fun _ _ => trivial⟩ _ _ h
  obtain ⟨-, h⟩ := delimitedOn_u64 _ ha.seed_size _ hb.seed_size _ _ h
  have hseed := delimitedOn_bytesField.injOn ha.seed_size hb.seed_size h
  have heffects : a.effects.map (identifyEffect X) = b.effects.map (identifyEffect X) := by
    apply List.map_injective_iff.mpr typedDigest_injective
    rw [List.map_map, List.map_map]
    exact heffects
  exact ⟨hheader, heffects, hseed⟩

/-! ## Steps and cursors -/

def eventField (event : Event) : List Byte :=
  bigEndian 8 event.sequence.toNat ++ ([canonicalEvent event.kind] ++
    (digestField event.effect.digest ++
      counted (bigEndian 8) digestField ((ascending event.backendEvidence).map Identity.digest)))

theorem bytes_appendOptionalEvent (record : CanonicalRecord) (event : Option Event) :
    (Step.appendOptionalEvent record event).bytes =
      record.bytes ++ tagged boolField eventField event := by
  cases event <;> simp [Step.appendOptionalEvent, Step.appendEvent, tagged, eventField, counted]

theorem delimitedOn_eventField :
    DelimitedOn eventField {event | event.backendEvidence.card < 2 ^ 64} := by
  intro a ha b hb x y h
  simp only [eventField, List.append_assoc] at h
  obtain ⟨hsequence, h⟩ := delimited_uint64 _ trivial _ trivial _ _ h
  obtain ⟨hkind, h⟩ := delimited_byte _ trivial _ trivial _ _ h
  obtain ⟨heffect, h⟩ := delimited_typedDigest _ trivial _ trivial _ _ h
  obtain ⟨hevidence, h⟩ := (delimitedOn_u64.counted delimited_digestField)
    _ ⟨by simpa using ha, fun _ _ => trivial⟩ _ ⟨by simpa using hb, fun _ _ => trivial⟩ _ _ h
  have hevidence := ascending_injective (List.map_injective_iff.mpr
    (fun _ _ h => congrArg Identity.mk h) hevidence)
  cases a
  cases b
  simp_all [canonicalEvent_injective.eq_iff]

theorem Step.bytes_record (step : Step) : step.record.bytes =
    (start .applicationJournalStep).bytes ++ (bigEndian 2 schemaVersion ++
      (digestField step.declaration.digest ++ (bigEndian 8 step.sequence.toNat ++
        (tagged boolField digestField (step.predecessor.map TypedDigest.digest) ++
          ([canonicalState step.state] ++ (tagged boolField eventField step.event ++
            (bigEndian 8 step.replayFact.length ++ (bytesField step.replayFact ++
              (tagged boolField digestField (step.receipt.map TypedDigest.digest) ++
                tagged boolField digestField
                  (step.completedEvidence.map TypedDigest.digest)))))))))) := by
  simp [Step.record, bytes_appendOptionalEvent]

/-- The record of a step determines the step. -/
theorem Step.record_injOn : Set.InjOn (fun step : Step => step.record.bytes) {step | step.Fits} := by
  intro a ha b hb h
  simp only [bytes_record] at h
  have h := List.append_cancel_left (List.append_cancel_left h)
  obtain ⟨hdeclaration, h⟩ := delimited_typedDigest _ trivial _ trivial _ _ h
  obtain ⟨hsequence, h⟩ := delimited_uint64 _ trivial _ trivial _ _ h
  obtain ⟨hpredecessor, h⟩ := delimited_optionalTypedDigest _ trivial _ trivial _ _ h
  obtain ⟨hstate, h⟩ := delimited_state _ trivial _ trivial _ _ h
  obtain ⟨hevent, h⟩ := (delimited_boolField.tagged delimitedOn_eventField)
    _ ha.evidence _ hb.evidence _ _ h
  obtain ⟨-, h⟩ := delimitedOn_u64 _ ha.replayFact _ hb.replayFact _ _ h
  obtain ⟨hfact, h⟩ := delimitedOn_bytesField _ ha.replayFact _ hb.replayFact _ _ h
  obtain ⟨hreceipt, h⟩ := delimited_optionalTypedDigest _ trivial _ trivial _ _ h
  have hcompleted := delimited_optionalTypedDigest.injOn trivial trivial h
  cases a
  cases b
  simp_all

theorem Cursor.bytes_record (cursor : Cursor) : cursor.record.bytes =
    (start .applicationJournalCursor).bytes ++ (bigEndian 2 schemaVersion ++
      (digestField cursor.declaration.digest ++ (bigEndian 8 cursor.stepCount.toNat ++
        (tagged boolField digestField (cursor.latestStep.map TypedDigest.digest) ++
          ([canonicalState cursor.state] ++
            (tagged boolField digestField (cursor.receipt.map TypedDigest.digest) ++
              tagged boolField digestField
                (cursor.completedEvidence.map TypedDigest.digest))))))) := by
  simp [Cursor.record]

/-- The record of a cursor determines the cursor. -/
theorem Cursor.record_injective :
    Function.Injective fun cursor : Cursor => cursor.record.bytes := by
  intro a b h
  simp only [bytes_record] at h
  have h := List.append_cancel_left (List.append_cancel_left h)
  obtain ⟨hdeclaration, h⟩ := delimited_typedDigest _ trivial _ trivial _ _ h
  obtain ⟨hcount, h⟩ := delimited_uint64 _ trivial _ trivial _ _ h
  obtain ⟨hlatest, h⟩ := delimited_optionalTypedDigest _ trivial _ trivial _ _ h
  obtain ⟨hstate, h⟩ := delimited_state _ trivial _ trivial _ _ h
  obtain ⟨hreceipt, h⟩ := delimited_optionalTypedDigest _ trivial _ trivial _ _ h
  have hcompleted := delimited_optionalTypedDigest.injOn trivial trivial h
  cases a
  cases b
  simp_all

/-! ## Declarations and histories with equal identities -/

/-- Equal identities of effects mean equal effects. -/
theorem effects_eq_of_identities {l l' : List JournalEffect}
    (hl : ∀ effect ∈ l, EffectFits X effect) (hl' : ∀ effect ∈ l', EffectFits X effect)
    (hfree : X.CollisionFree (l.map fun effect => (effectRecord effect).bytes)
      (l'.map fun effect => (effectRecord effect).bytes))
    (h : l.map (identifyEffect X) = l'.map (identifyEffect X)) : l = l' := by
  induction l generalizing l' with
  | nil => exact (List.map_eq_nil_iff.mp h.symm).symm
  | cons effect rest ih =>
    cases l' with
    | nil => cases h
    | cons effect' rest' =>
      obtain ⟨hidentity, hrest⟩ := List.cons.inj h
      have hbytes := hfree _ List.mem_cons_self _ List.mem_cons_self
        (congrArg TypedDigest.digest hidentity)
      have heffect := effectRecord_injOn (hl _ List.mem_cons_self) (hl' _ List.mem_cons_self) hbytes
      have hmore := ih (fun e he => hl e (List.mem_cons_of_mem _ he))
        (fun e he => hl' e (List.mem_cons_of_mem _ he))
        (fun x hx y hy => hfree x (List.mem_cons_of_mem _ hx) y (List.mem_cons_of_mem _ hy)) hrest
      rw [heffect, hmore]

theorem Declaration.eq_of_identity {a b : Declaration} (ha : a.Constructed X)
    (hb : b.Constructed X) (hfree : X.CollisionFree (a.preimages X) (b.preimages X))
    (h : a.identity X = b.identity X) :
    identifyHeader X a.header = identifyHeader X b.header ∧ a.effects = b.effects ∧
      a.replaySeed = b.replaySeed := by
  have hbytes := hfree _ List.mem_cons_self _ List.mem_cons_self (congrArg TypedDigest.digest h)
  obtain ⟨hheader, heffects, hseed⟩ := record_injOn ha hb hbytes
  refine ⟨hheader, effects_eq_of_identities ha.effects hb.effects ?_ heffects, hseed⟩
  exact fun x hx y hy => hfree x (List.mem_cons_of_mem _ hx) y (List.mem_cons_of_mem _ hy)

/-- The step a cursor locates is the last one, and it names the step before. -/
theorem Reaches.latest {declaration : Declaration} {steps : List Step} {cursor : Cursor}
    (h : Reaches X declaration steps cursor) :
    (steps = [] ∧ cursor.latestStep = none) ∨
      ∃ before step current, steps = before ++ [step] ∧ Reaches X declaration before current ∧
        step.predecessor = current.latestStep ∧ cursor.latestStep = some (step.identity X) := by
  cases h with
  | initial h =>
    obtain rfl := Cursor.initial_eq_ok_iff.mp h
    exact .inl ⟨rfl, rfl⟩
  | advance hsteps h =>
    obtain ⟨⟨-, -, hpredecessor, -⟩, rfl⟩ := Cursor.advance_eq_ok_iff.mp h
    exact .inr ⟨_, _, _, rfl, hsteps, hpredecessor, rfl⟩

/-- Histories whose cursors locate one step have the same steps: the step fixes
its predecessor, and so on back to the first. -/
theorem Reaches.steps_eq {d d' : Declaration} {steps steps' : List Step} {c c' : Cursor}
    (h : Reaches X d steps c) (h' : Reaches X d' steps' c')
    (hfits : ∀ step ∈ steps, step.Fits) (hfits' : ∀ step ∈ steps', step.Fits)
    (hfree : X.CollisionFree (steps.map fun step => step.record.bytes)
      (steps'.map fun step => step.record.bytes))
    (hlatest : c.latestStep = c'.latestStep) : steps = steps' := by
  induction h generalizing steps' c' with
  | initial h =>
    obtain rfl := Cursor.initial_eq_ok_iff.mp h
    obtain ⟨rfl, -⟩ | ⟨_, _, _, -, -, -, hsome⟩ := h'.latest
    · rfl
    · rw [hsome] at hlatest
      cases hlatest
  | @advance before current next step hsteps h ih =>
    obtain ⟨⟨-, -, hpredecessor, -⟩, rfl⟩ := Cursor.advance_eq_ok_iff.mp h
    obtain ⟨-, hnone⟩ | ⟨before', step', current', rfl, hsteps', hpredecessor', hsome⟩ := h'.latest
    · rw [hnone] at hlatest
      cases hlatest
    · rw [hsome] at hlatest
      have hidentity := congrArg TypedDigest.digest (Option.some.inj hlatest)
      have hbytes := hfree _ (List.mem_map_of_mem (by simp)) _ (List.mem_map_of_mem (by simp))
        hidentity
      obtain rfl := Step.record_injOn (hfits step (by simp)) (hfits' step' (by simp)) hbytes
      have hbefore := ih hsteps' (fun s hs => hfits s (by simp [hs]))
        (fun s hs => hfits' s (by simp [hs]))
        (fun x hx y hy => hfree x (by simp_all) y (by simp_all))
        (hpredecessor.symm.trans hpredecessor')
      rw [hbefore]

/-- Equal cursor identities mean equal steps. -/
theorem History.steps_eq {h h' : History X}
    (hfree : X.CollisionFree (h.preimages X) (h'.preimages X))
    (hcursor : h.cursor.identity X = h'.cursor.identity X) : h.steps = h'.steps := by
  have hbytes := hfree _ (by simp [History.preimages]) _ (by simp [History.preimages])
    (congrArg TypedDigest.digest hcursor)
  have hcursor := Cursor.record_injective hbytes
  refine h.reaches.steps_eq h'.reaches h.fits h'.fits ?_ (by rw [hcursor])
  exact fun x hx y hy => hfree x (by simp_all [History.preimages]) y (by simp_all [History.preimages])

/-- Every record is injective in what its identity binds. -/
structure RecordsBind (X : Externals) : Prop where
  effect : Set.InjOn (fun effect => (effectRecord effect).bytes) {effect | EffectFits X effect}
  declaration : ∀ a b : Declaration, a.Constructed X → b.Constructed X →
    (a.record X).bytes = (b.record X).bytes →
      identifyHeader X a.header = identifyHeader X b.header ∧
        a.effects.map (identifyEffect X) = b.effects.map (identifyEffect X) ∧
        a.replaySeed = b.replaySeed
  step : Set.InjOn (fun step : Step => step.record.bytes) {step | step.Fits}
  cursor : Function.Injective fun cursor : Cursor => cursor.record.bytes

/-- **Tamper evidence.**  The records bind what they are built from.  Where
SHA-256 is injective on the records of the two sides, declarations of one
identity have one header identity, one effect list and one replay seed, and
histories of one declaration identity and one cursor identity have the same
steps, field by field.  SHA-256 is assumed injective on those records only: no
function into 32 bytes is injective on every byte string. -/
theorem tamper_evidence (X : Externals) :
    RecordsBind X ∧
      (∀ a b : Declaration, a.Constructed X → b.Constructed X →
        X.CollisionFree (a.preimages X) (b.preimages X) → a.identity X = b.identity X →
          identifyHeader X a.header = identifyHeader X b.header ∧ a.effects = b.effects ∧
            a.replaySeed = b.replaySeed) ∧
      ∀ h h' : History X, X.CollisionFree (h.preimages X) (h'.preimages X) →
        h.declaration.identity X = h'.declaration.identity X →
          h.cursor.identity X = h'.cursor.identity X → h.steps = h'.steps := by
  refine ⟨⟨effectRecord_injOn, ?_, Step.record_injOn, Cursor.record_injective⟩, ?_, ?_⟩
  · intro a b ha hb h
    exact Declaration.record_injOn ha hb h
  · intro a b ha hb hfree h
    exact Declaration.eq_of_identity ha hb hfree h
  · intro h h' hfree _ hcursor
    exact History.steps_eq hfree hcursor

def toolHistory : History .reference where
  declaration := toolDeclaration
  steps := [toolPrepared]
  cursor := toolCursor
  constructed := constructed_toolDeclaration
  fits := by
    intro step hstep
    obtain rfl := List.mem_singleton.mp hstep
    exact ⟨fun _ hevent => (by cases hevent), by decide⟩
  reaches := reaches_toolCursor

theorem History.digests (h : History X) : (h.preimages X).map X.sha256 =
    (h.declaration.identity X).digest ::
      h.declaration.effects.map (TypedDigest.digest ∘ identifyEffect X) ++
        h.steps.map (fun step => (step.identity X).digest) ++ [(h.cursor.identity X).digest] := by
  simp only [History.preimages, Declaration.preimages, List.map_append, List.map_cons,
    List.map_map, List.map_nil]
  rfl

theorem collisionFree_tool : Externals.reference.CollisionFree
    (toolHistory.preimages .reference) (toolHistory.preimages .reference) := by
  apply Externals.collisionFree_self
  have hdeclaration := congrArg TypedDigest.digest identity_toolDeclaration
  have heffects := congrArg (List.map TypedDigest.digest) identifyEffect_tool
  have hstep := congrArg TypedDigest.digest identity_toolPrepared
  have hcursor := congrArg TypedDigest.digest identity_toolCursor
  rw [List.map_map] at heffects
  rw [History.digests]
  simp only [toolHistory, List.map_cons, List.map_nil, hdeclaration, heffects, hstep, hcursor]
  decide

/-- The evidence is not empty: SHA-256 itself does not collide on the records of
a journal, whose cursor identity then determines its steps. -/
theorem tamper_evidence_tool : toolDeclaration.effects = toolHistory.declaration.effects ∧
    toolHistory.steps = [toolPrepared] :=
  have hdeclarations := (tamper_evidence .reference).2.1 toolDeclaration toolHistory.declaration
    constructed_toolDeclaration toolHistory.constructed
    (fun x hx y hy => collisionFree_tool x (by simp_all [History.preimages, toolHistory]) y
      (by simp_all [History.preimages, toolHistory])) rfl
  ⟨hdeclarations.2.1,
    (tamper_evidence .reference).2.2 toolHistory toolHistory collisionFree_tool rfl rfl⟩

end PkgApply.Transport
