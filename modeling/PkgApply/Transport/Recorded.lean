import PkgApply.Journal.Record
import PkgApply.Transport.ReplayRoundTrip
import PkgApply.Transport.ReceiptFormat
import PkgApply.Transport.Snapshot

/-!
# Values of the engine as records

The engine keeps whole attempts, projections and headers in its evidence,
receipts, facts and journal records; the byte level keeps their identities.
Each constructor of the engine corresponds to the constructor of the record.
-/

namespace PkgApply

open Transport Library

variable {X : Externals}

/-! ## Records of values -/

section Recorded

variable (X : Externals)

def CompletedEvidence.recorded (evidence : CompletedEvidence) : EvidenceRecord where
  kind := evidence.kind
  request := evidence.request
  plan := evidence.plan
  attempt := identifyAttempt X evidence.attempt
  target := evidence.target
  control := evidence.control
  stateProjection := identifyProjection X evidence.stateProjection
  journal := identifyHeader X evidence.journal
  paths := evidence.paths
  durability := evidence.durability
  backendEvidence := evidence.backendEvidence

def ApplicationReceipt.recorded (receipt : ApplicationReceipt) : ReceiptRecord where
  kind := receipt.kind
  request := receipt.request
  plan := receipt.plan
  attempt := identifyAttempt X receipt.attempt
  target := receipt.target
  control := receipt.control
  stateProjection := identifyProjection X receipt.stateProjection
  outcome := receipt.outcome
  recovery := receipt.recovery
  durability := receipt.durability
  paths := receipt.paths
  journal := receipt.journal.map (identifyHeader X)
  completedEvidence := receipt.completedEvidence.map (CompletedEvidence.recorded X)
  backendEvidence := receipt.backendEvidence

def ReplayFact.recorded : ReplayFact → ReplayFactRecord
  | .payloadSeal result => .payloadSeal result
  | .capture result => .capture result
  | .rejectedEffect path result => .rejectedEffect path result
  | .activeEffect path result => .activeEffect path result
  | .recoveryEffect path result => .recoveryEffect path result
  | .synchronization result => .synchronization result
  | .completedEvidence evidence => .completedEvidence (evidence.recorded X)

def JournalEvent.recorded (event : JournalEvent) : Event where
  sequence := .ofNat event.sequence
  kind := event.kind
  effect := identifyEffect X event.effect
  backendEvidence := event.evidence

def JournalRecord.recorded (r : JournalRecord) : Snapshot where
  header := r.header
  state := r.state
  effects := r.effects
  events := r.events.map (JournalEvent.recorded X)
  receipt := r.receipt.map fun receipt => (receipt.recorded X).identity X
  completedEvidence := r.completedEvidence.map fun evidence => (evidence.recorded X).identity X

end Recorded

/-! ## Completed evidence -/

section Evidence

variable {request : ApplicationRequest} {attempt : ApplicationAttempt}
  {stateProjection : LeaseBoundStateProjection} {journal : JournalHeader}
  {paths : List PathConsequence} {durability : DurabilityProfile} {evidence : Evidence}
  {e : CompletedEvidence}

/-- The record of the evidence a constructor makes is made from the identities. -/
theorem CompletedEvidence.make_recorded
    (h : CompletedEvidence.make request attempt stateProjection journal paths durability
      evidence = .ok e) :
    EvidenceRecord.make request (identifyAttempt X attempt)
      (identifyProjection X stateProjection) (identifyHeader X journal) paths durability
      (ascending evidence) = .ok (e.recorded X) := by
  simp only [CompletedEvidence.make, bind_eq_ok_iff, refuseIf_eq_ok, Bool.not_eq_true',
    Bool.not_eq_false, pure, Except.pure, Except.ok.injEq] at h
  obtain ⟨paths', hpaths, _, hplan, _, hdurability, _, hcompleted, rfl⟩ := h
  rw [evidenceMake_eq_ok, toFinset_ascending]
  exact ⟨hpaths, hplan, hdurability, nodup_ascending _, hcompleted, rfl⟩

/-- Evidence the engine makes is evidence the codecs are about. -/
theorem CompletedEvidence.constructed_recorded {maximumEntryId : UInt64}
    (h : CompletedEvidence.make request attempt stateProjection journal paths durability
      evidence = .ok e)
    (hpaths : ∀ path ∈ e.paths, ConsequenceConstructed X maximumEntryId path)
    (hsize : e.paths.length < 2 ^ 64) (hevidence : e.backendEvidence.card < 2 ^ 64) :
    EvidenceConstructed X maximumEntryId request (e.recorded X) where
  paths := hpaths
  paths_size := hsize
  evidence_size := hevidence
  made := by
    have hmade := CompletedEvidence.make_recorded (X := X) h
    exact ⟨_, _, evidenceMake_again hmade⟩

end Evidence

/-! ## Receipts -/

section Receipts

variable {request : ApplicationRequest} {attempt : ApplicationAttempt}
  {stateProjection : LeaseBoundStateProjection} {journal : Option JournalHeader}
  {outcome : AttemptOutcome} {recovery : RecoveryState} {paths : List PathConsequence}
  {durability : DurabilityProfile} {evidence : Evidence} {e : CompletedEvidence}
  {receipt : ApplicationReceipt}

theorem ApplicationReceipt.completed_recorded
    (h : ApplicationReceipt.completed e recovery evidence = .ok receipt) :
    ReceiptRecord.completed (e.recorded X) recovery (ascending evidence) =
      .ok (receipt.recorded X) := by
  simp only [ApplicationReceipt.completed, bind_eq_ok_iff, refuseIf_eq_ok, not_and_or, not_not,
    pure, Except.pure, Except.ok.injEq] at h
  obtain ⟨_, hrecovery, rfl⟩ := h
  rw [receiptCompleted_eq_ok, toFinset_ascending]
  exact ⟨hrecovery, nodup_ascending _, rfl⟩

/-- Whether there is a journal is all that its validation asks. -/
theorem validateFailedOutcome_recorded :
    ReceiptRecord.validateFailedOutcome outcome recovery (journal.map (identifyHeader X))
      durability = validateFailedOutcome outcome recovery journal durability := by
  simp only [ReceiptRecord.validateFailedOutcome, validateFailedOutcome, Option.isSome_map,
    Option.isNone_map]

theorem ApplicationReceipt.failed_recorded
    (h : ApplicationReceipt.failed request attempt stateProjection outcome recovery durability
      paths journal evidence = .ok receipt) :
    ReceiptRecord.failed request (identifyAttempt X attempt)
      (identifyProjection X stateProjection) outcome recovery durability paths
      (journal.map (identifyHeader X)) (ascending evidence) = .ok (receipt.recorded X) := by
  simp only [ApplicationReceipt.failed, bind_eq_ok_iff, pure, Except.pure, Except.ok.injEq] at h
  obtain ⟨paths', hpaths, _, hplan, _, houtcome, _, hfailed, rfl⟩ := h
  rw [receiptFailed_eq_ok, toFinset_ascending, validateFailedOutcome_recorded]
  exact ⟨hpaths, hplan, houtcome, hfailed, nodup_ascending _, rfl⟩

end Receipts

/-! ## Journal records -/

section Records

variable {effects : List JournalEffect} {events : List JournalEvent}

/-- Effects of distinct identities are found where they stand. -/
theorem idxOf?_identities (hinjective : Set.InjOn (identifyEffect X) {a | a ∈ effects})
    {effect : JournalEffect} {ordinal : Nat} (h : effects.idxOf? effect = some ordinal) :
    (effects.map (identifyEffect X)).idxOf? (identifyEffect X effect) = some ordinal := by
  obtain ⟨hlt, hfound, hbefore⟩ := List.idxOf?_eq_some_iff.mp h
  have hmem : effect ∈ effects := hfound ▸ List.getElem_mem hlt
  rw [List.idxOf?_eq_some_iff]
  refine ⟨by simpa using hlt, by simp [hfound], ?_⟩
  intro i hi heq
  rw [List.getElem_map] at heq
  exact hbefore i hi (hinjective (List.getElem_mem _) hmem heq)

/-- A history the engine replays is replayed over the identities of its effects,
with the same progress. -/
theorem validateEventsFrom_recorded
    (hinjective : Set.InjOn (identifyEffect X) {a | a ∈ effects}) {index : Nat}
    {progress progress' : List EffectProgress} (hsize : index + events.length ≤ 2 ^ 64)
    (h : validateEventsFrom effects events index progress = .ok progress') :
    Snapshot.validateEventsFrom (effects.map (identifyEffect X))
      (events.map (JournalEvent.recorded X)) index progress = .ok progress' := by
  induction events generalizing index progress with
  | nil => exact h
  | cons event rest ih =>
    rw [List.length_cons] at hsize
    have hlt : index < UInt64.size := by
      rw [UInt64.size]
      omega
    have hindex : (UInt64.ofNat index).toNat = index := UInt64.toNat_ofNat_of_lt' hlt
    have hrest {progress : List EffectProgress}
        (h : validateEventsFrom effects rest (index + 1) progress = .ok progress') :=
      ih (by omega) h
    rw [validateEventsFrom] at h
    rw [List.map_cons, Snapshot.validateEventsFrom]
    by_cases hsequence : event.sequence = index
    · cases hfound : effects.idxOf? event.effect with
      | none =>
        rw [if_neg (not_not.mpr hsequence), hfound] at h
        cases h
      | some ordinal =>
        have hidentity := idxOf?_identities hinjective hfound
        simp only [hsequence, ne_eq, not_true_eq_false, if_false, hfound] at h
        simp only [JournalEvent.recorded, hsequence, hindex, ne_eq, not_true_eq_false, if_false,
          hidentity]
        by_cases hintent : event.kind = .intent
        · rw [if_pos hintent] at h ⊢
          split at h
          · cases h
          · rename_i hfresh
            rw [if_neg hfresh]
            exact hrest h
        · rw [if_neg hintent] at h ⊢
          split at h
          · cases h
          · rename_i hintended
            rw [if_neg hintended]
            split at h
            · cases h
            · rename_i hopen
              rw [if_neg hopen]
              exact hrest h
    · rw [if_pos hsequence] at h
      cases h

/-- Which results a record names is all that their validation asks. -/
theorem validateResolution_recorded {r : JournalRecord} {progress : List EffectProgress} :
    (r.recorded X).validateResolution progress = r.validateResolution progress := by
  obtain ⟨header, state, effects, events, receipt, completedEvidence⟩ := r
  cases receipt <;> cases completedEvidence <;> rfl

/-- The snapshot of the record a constructor makes is made from the identities,
where those of the effects are distinct. -/
theorem JournalRecord.make_recorded {header : JournalHeader} {state : JournalState}
    {receipt : Option ApplicationReceipt} {completedEvidence : Option CompletedEvidence}
    {r : JournalRecord} (hinjective : Set.InjOn (identifyEffect X) {a | a ∈ effects})
    (hsize : events.length ≤ 2 ^ 64)
    (h : JournalRecord.make header state effects events receipt completedEvidence = .ok r) :
    Snapshot.make X header state effects (events.map (JournalEvent.recorded X))
      (r.recorded X).receipt (r.recorded X).completedEvidence = .ok (r.recorded X) := by
  simp only [JournalRecord.make, bind_eq_ok_iff, refuseIf_eq_ok, not_not, pure, Except.pure,
    Except.ok.injEq] at h
  obtain ⟨_, hordinals, progress, hevents, _, hresolution, rfl⟩ := h
  have hsorted : ∀ a ∈ effects.insertionSort fun a b => a.ordinal ≤ b.ordinal, a ∈ effects :=
    fun a ha => (List.perm_insertionSort _ _).mem_iff.mp ha
  have hinjective := hinjective.mono hsorted
  have hnodup : (effects.insertionSort fun a b => a.ordinal ≤ b.ordinal).Nodup := by
    apply List.Nodup.of_map JournalEffect.ordinal
    rw [hordinals]
    exact List.nodup_range
  have hidentities := hnodup.map_on fun a ha b hb heq => hinjective ha hb heq
  have hreplayed := validateEventsFrom_recorded hinjective (by omega) hevents
  simp only [Snapshot.make, Snapshot.validateEvents, bind_eq_ok_iff, refuseIf_eq_ok, not_not,
    pure, Except.pure, Except.ok.injEq]
  refine ⟨(), hordinals, progress, ⟨(), hidentities, hreplayed⟩, (), ?_, rfl⟩
  exact validateResolution_recorded.trans hresolution

end Records

end PkgApply
