import PkgApply.Journal.Store

/-!
# Receipt terminality

When a history that retains a receipt accepts nothing new, and when its
snapshots succeed one another.
-/

namespace PkgApply

namespace JournalHistory

variable {h h' : JournalHistory} {step : JournalStep}

/-! ## Snapshots -/

/-- The record a history is a snapshot of. -/
def record (h : JournalHistory) : JournalRecord :=
  ⟨h.header, h.state, h.effects, h.events, h.receipt, h.completedEvidence⟩

theorem insertionSort_effects (d : JournalDeclaration) :
    d.effects.insertionSort (fun a b => a.ordinal ≤ b.ordinal) = d.effects := by
  refine List.Pairwise.insertionSort_eq ?_
  have hsorted : (d.effects.map JournalEffect.ordinal).Pairwise (· ≤ ·) := by
    rw [d.ordinals]
    exact List.pairwise_lt_range.imp Nat.le_of_lt
  exact List.pairwise_map.mp hsorted

/-- The progress table holds the progress of each effect at its place. -/
theorem zip_progress (hlength : h.progress.length = h.effects.length) :
    h.effects.zip h.progress = h.effects.map fun e => (e, h.progressOf e) := by
  refine List.ext_getElem (by simp [hlength]) fun i hi hi' => ?_
  have hlt : i < h.effects.length := by simpa using hi'
  have hidx : h.effects.idxOf? h.effects[i] = some i := by
    rw [List.idxOf?_eq_some_iff]
    refine ⟨hlt, by simp, fun j hj heq => ?_⟩
    have := (List.Nodup.getElem_inj_iff h.effects_nodup).mp heq
    omega
  rw [List.getElem_zip, List.getElem_map, progressOf_of_idxOf hidx, List.getD_eq_getElem?_getD,
    List.getElem?_eq_getElem (by rw [hlength]; exact hlt)]
  rfl

/-- The batch validation finds every success effect completed where counting finds it. -/
theorem successEffectsCompleted_iff (hlength : h.progress.length = h.effects.length)
    (hintended : ∀ e ∈ h.effects, (h.progressOf e).terminal.isSome →
      (h.progressOf e).intended = true) :
    successEffectsCompleted h.effects h.progress = true ↔
      h.completedEffects = h.effects.countP fun e => successEffectRequired e.kind := by
  unfold successEffectsCompleted
  rw [completedEffects_eq_iff, zip_progress hlength, List.all_map, List.all_eq_true]
  refine forall₂_congr fun e he => ?_
  have hintended := hintended e he
  cases hrequired : successEffectRequired e.kind <;>
    cases hterminal : (h.progressOf e).terminal <;> simp_all

/-- The counters of a sound history count what the batch validation checks. -/
theorem Sound.successEffectsCompleted_iff (hs : h.Sound) :
    successEffectsCompleted h.effects h.progress = true ↔
      h.completedSuccessEffects = h.requiredSuccessEffects := by
  rw [hs.completed_count, hs.required_count]
  exact JournalHistory.successEffectsCompleted_iff hs.progress_length hs.intended

private theorem isSome_isNone {α : Type} {o : Option α} (hsome : o.isSome = true)
    (hnone : o.isNone = true) : False := by
  cases o with
  | none => cases hsome
  | some _ => cases hnone

/-- Every sound history has a snapshot. -/
theorem Sound.snapshot_eq (hs : h.Sound) : h.snapshot = .ok h.record := by
  have hsort : h.effects.insertionSort (fun a b => a.ordinal ≤ b.ordinal) = h.effects :=
    insertionSort_effects h.declaration
  have hresolution : h.record.validateResolution h.progress = .ok () := by
    unfold JournalRecord.validateResolution
    simp only [refuseIf_bind_eq_ok, refuseIf_eq_ok]
    refine ⟨?_, ?_, ?_, ?_, ?_, ?_⟩
    · rintro ⟨hevidence, hnone⟩
      exact isSome_isNone (hs.evidence_receipt hevidence) hnone
    · rintro ⟨hstate, hnone | hnone⟩
      · exact isSome_isNone (hs.successful hstate).1 hnone
      · exact isSome_isNone (hs.successful hstate).2.1 hnone
    · rintro ⟨hstate, hunfinished⟩
      rw [show PkgApply.successEffectsCompleted h.record.effects h.progress = true from
        hs.successEffectsCompleted_iff.mpr (hs.successful hstate).2.2] at hunfinished
      cases hunfinished
    · rintro ⟨hstate, hevidence⟩
      exact isSome_isNone hevidence
        (Option.isNone_iff_eq_none.mpr (hs.unsuccessful (Bool.not_eq_true' _ ▸ hstate)))
    · rintro ⟨hstate, hnone⟩
      exact isSome_isNone (hs.recovered hstate) hnone
    · rintro ⟨hstate, hevidence⟩
      exact isSome_isNone hevidence
        (Option.isNone_iff_eq_none.mpr (hs.unsuccessful (by
          rw [show h.state = .abandoned from hstate]
          rfl)))
  have hordinals : h.effects.map JournalEffect.ordinal = List.range h.effects.length :=
    h.declaration.ordinals
  unfold snapshot JournalRecord.make
  simp only [hsort]
  rw [refuseIf_bind_of_not (not_not.mpr hordinals)]
  simp only [hs.replayed, bind, Except.bind]
  have hrecord : (⟨h.header, h.state, h.effects, h.events, h.receipt, h.completedEvidence⟩ :
    JournalRecord) = h.record := rfl
  simp only [hrecord, hresolution, pure, Except.pure]

/-! ## Succession -/

/-- The snapshot of `b` may replace the snapshot of `a`. -/
def Succeeds (a b : JournalHistory) : Prop :=
  ∃ r r', a.snapshot = .ok r ∧ b.snapshot = .ok r' ∧ r.validateSuccessor r' = .ok ()

/-- Once a receipt is retained, a step carries no event and keeps the state. -/
def KeepsReceipt (h : JournalHistory) (step : JournalStep) : Prop :=
  h.receipt.isSome → step.event = none ∧ step.state = h.state

/-- A step that keeps a retained receipt changes nothing the snapshot shows. -/
theorem Sound.record_after (hs : h.Sound) (ha : h.Admits step) (hreceipt : h.receipt.isSome)
    (hkeeps : h.KeepsReceipt step) : (h.after step).record = h.record := by
  obtain ⟨hevent, hstate⟩ := hkeeps hreceipt
  have hevidence : step.completedEvidence = h.completedEvidence := by
    cases hsome : h.completedEvidence with
    | some evidence => exact hsome ▸ ha.evidence (by rw [hsome]; rfl)
    | none =>
      refine ha.resolution.unsuccessful ?_
      rw [hstate]
      by_contra hsuccessful
      have := (hs.successful (by simpa using hsuccessful)).2.1
      rw [hsome] at this
      cases this
  simp only [record, after_header, after_state, after_effects, after_events, after_receipt,
    after_completedEvidence, hevent, hstate, hevidence, ha.receipt hreceipt, Option.toList_none,
    List.append_nil]

/-- An admitted step succeeds its history exactly when it keeps the receipt. -/
theorem Sound.succeeds_after_iff (hs : h.Sound) (ha : h.Admits step) :
    h.Succeeds (h.after step) ↔
      (h.receipt.isSome → (h.after step).record = h.record) := by
  have hsnapshot := hs.snapshot_eq
  have hsnapshot' := (hs.after ha).snapshot_eq
  have hvalidate : h.record.validateSuccessor (h.after step).record = .ok () ↔
      (h.receipt.isSome → (h.after step).record = h.record) := by
    unfold JournalRecord.validateSuccessor
    simp only [refuseIf_bind_eq_ok, refuseIf_eq_ok]
    constructor
    · rintro ⟨-, -, -, -, -, -, hsame, -⟩ hreceipt
      by_contra hne
      exact hsame ⟨hreceipt, Ne.symm hne⟩
    · intro hsame
      refine ⟨not_not.mpr rfl, not_not.mpr rfl, ?_, ?_, ?_, ?_, ?_, ?_⟩
      · simp [record]
      · simp [record]
      · rintro ⟨hsome, hne⟩
        exact hne (ha.receipt hsome).symm
      · rintro ⟨hsome, hne⟩
        exact hne (ha.evidence hsome).symm
      · rintro ⟨hsome, hne⟩
        exact hne (hsame hsome).symm
      · have hedge : stateMayFollow h.record.state (h.after step).record.state = true := ha.edge
        simp [hedge]
  constructor
  · rintro ⟨r, r', hr, hr', hok⟩
    rw [hsnapshot] at hr
    rw [hsnapshot'] at hr'
    cases hr
    cases hr'
    exact hvalidate.mp hok
  · exact fun hsame => ⟨_, _, hsnapshot, hsnapshot', hvalidate.mpr hsame⟩

/-! ## Settled histories -/

/-- States without an edge to another state. -/
def finalState : JournalState → Bool
  | .applicationCompleted | .externalResolutionPending | .recovered | .finalized
  | .abandoned => true
  | _ => false

/-- A retained receipt leaves no effect without its terminal event and no edge
to another state. -/
def Settled (h : JournalHistory) : Prop :=
  h.receipt.isSome →
    (∀ e ∈ h.effects, (h.progressOf e).terminal.isSome) ∧ finalState h.state = true

instance (h : JournalHistory) : Decidable h.Settled :=
  inferInstanceAs (Decidable (_ → _))

theorem eq_of_finalState {s s' : JournalState} (hs : finalState s = true)
    (hedge : stateMayFollow s s' = true) : s' = s := by
  revert hs hedge
  cases s <;> cases s' <;> decide

/-- Every other state has an edge to an unsuccessful state. -/
theorem exists_edge_of_not_finalState {s : JournalState} (hs : finalState s = false) :
    ∃ s', s' ≠ s ∧ stateMayFollow s s' = true ∧ successfulState s' = false ∧ s' ≠ .recovered := by
  cases s with
  | preparing => exact ⟨.prepared, by decide, by decide, by decide, by decide⟩
  | prepared => exact ⟨.mutating, by decide, by decide, by decide, by decide⟩
  | mutating => exact ⟨.effectsVisible, by decide, by decide, by decide, by decide⟩
  | effectsVisible => exact ⟨.resultObserved, by decide, by decide, by decide, by decide⟩
  | resultObserved => exact ⟨.effectsVisible, by decide, by decide, by decide, by decide⟩
  | recoveryPending => exact ⟨.recovering, by decide, by decide, by decide, by decide⟩
  | recovering => exact ⟨.effectsVisible, by decide, by decide, by decide, by decide⟩
  | indeterminate => exact ⟨.recovering, by decide, by decide, by decide, by decide⟩
  | applicationCompleted => cases hs
  | externalResolutionPending => cases hs
  | recovered => cases hs
  | finalized => cases hs
  | abandoned => cases hs

/-- A settled history keeps its receipt. -/
theorem Settled.keepsReceipt (hsettled : h.Settled) (ha : h.Admits step) :
    h.KeepsReceipt step := by
  intro hreceipt
  obtain ⟨hterminal, hfinal⟩ := hsettled hreceipt
  refine ⟨?_, eq_of_finalState hfinal ha.edge⟩
  cases hevent : step.event with
  | none => rfl
  | some e =>
    have hadmits := ha.event e hevent
    have hended := hterminal e.effect hadmits.declared
    by_cases hk : e.kind = .intent
    · rw [hadmits.fresh hk] at hended
      cases hended
    · rw [hadmits.open_ hk] at hended
      cases hended

/-- The step at the head of a history that keeps its authority. -/
private def retainingStep (h : JournalHistory) (hs : h.Sound) (state : JournalState)
    (event : Option JournalEvent) : JournalStep where
  declaration := h.cursor.declaration
  sequence := h.cursor.stepCount
  state := state
  event := event
  replayFact := none
  receipt := h.receipt
  completedEvidence := h.completedEvidence
  predecessor := h.cursor.latestStep
  predecessor_iff := by
    rw [hs.step_count, hs.latest, Option.map_eq_none_iff, List.getLast?_eq_none_iff,
      List.length_eq_zero_iff]
  evidence_receipt := hs.evidence_receipt

/-- A further event of an effect without its terminal event is admitted. -/
private theorem admits_retaining_event (hs : h.Sound) (hreceipt : h.receipt.isSome)
    {e : JournalEffect} (he : e ∈ h.effects) (hopen : (h.progressOf e).terminal = none) :
    ∃ step event, h.Admits step ∧ step.event = some event := by
  -- an effect not yet intended takes its intent, an intended one a failed terminal event
  let kind : EventKind := if (h.progressOf e).intended then .failed else .intent
  let event : JournalEvent := ⟨h.events.length, kind, e, ∅⟩
  have hkind : kind ≠ .completed := by
    simp only [kind]
    split <;> decide
  have hcount : h.countCompleted (some event) = h.completedSuccessEffects := by
    simp [countCompleted, event, hkind]
  refine ⟨h.retainingStep hs h.state (some event), event,
    ⟨rfl, rfl, rfl, stateMayFollow_self _, fun _ => rfl, fun _ => rfl, ?_, fun hfact => ?_, ?_⟩, rfl⟩
  · rintro x ⟨⟩
    refine ⟨rfl, he, fun hintent => ?_, fun hterminal => ?_⟩
    · change h.progressOf e = .untouched
      cases hp : h.progressOf e with
      | mk intended terminal =>
        rw [hp] at hopen
        have hnot : intended = false := by
          by_contra hintended
          simp [event, kind, hp, hintended] at hintent
        rw [show terminal = none from hopen, hnot]
        rfl
    · change h.progressOf e = ⟨true, none⟩
      cases hp : h.progressOf e with
      | mk intended terminal =>
        rw [hp] at hopen
        have hintended : intended = true := by
          by_contra hnot
          simp [event, kind, hp, hnot] at hterminal
        rw [show terminal = none from hopen, hintended]
  · cases hfact
  · refine ⟨fun hnone _ => ?_, fun hstate => ?_, hs.unsuccessful, hs.recovered⟩
    · rw [hnone] at hreceipt
      cases hreceipt
    · obtain ⟨hreceipt, hevidence, hrequired⟩ := hs.successful hstate
      exact ⟨hreceipt, hevidence, hcount.trans hrequired⟩

/-- A step along an edge to another unsuccessful state is admitted. -/
private theorem admits_retaining_state (hs : h.Sound) (hreceipt : h.receipt.isSome)
    (hstate : finalState h.state = false) : ∃ step, h.Admits step ∧ step.state ≠ h.state := by
  obtain ⟨next, hne, hedge, hunsuccessful, hrecovered⟩ := exists_edge_of_not_finalState hstate
  have hevidence : h.completedEvidence = none := by
    refine hs.unsuccessful ?_
    cases hs' : h.state <;> simp_all [finalState, successfulState]
  refine ⟨h.retainingStep hs next none,
    ⟨rfl, rfl, rfl, hedge, fun _ => rfl, fun _ => rfl, fun e he => ?_, fun hfact => ?_,
      ⟨fun hnone _ => ?_, fun hsuccessful => ?_, fun _ => hevidence, fun heq => ?_⟩⟩, hne⟩
  · cases he
  · cases hfact
  · rw [hnone] at hreceipt
    cases hreceipt
  · rw [show successfulState next = true from hsuccessful] at hunsuccessful
    cases hunsuccessful
  · exact absurd heq hrecovered

/-- A history accepts only steps that keep its receipt exactly when it is settled. -/
theorem Sound.settled_iff (hs : h.Sound) :
    h.Settled ↔ ∀ step, h.Admits step → h.KeepsReceipt step := by
  constructor
  · exact fun hsettled step ha => hsettled.keepsReceipt ha
  · intro hkeeps hreceipt
    constructor
    · intro e he
      by_contra hopen
      obtain ⟨step, event, ha, hevent⟩ :=
        admits_retaining_event hs hreceipt he (by simpa using hopen)
      rw [(hkeeps step ha hreceipt).1] at hevent
      cases hevent
    · by_contra hfinal
      obtain ⟨step, ha, hne⟩ := admits_retaining_state hs hreceipt (by simpa using hfinal)
      exact hne (hkeeps step ha hreceipt).2

/-! ## Receipt terminality -/

/-- `b` is `a` one accepted step later, and nothing but the retained receipt
speaks against it. -/
def Terminal (a b : JournalHistory) : Prop :=
  ∃ step, a.append step = .ok b ∧ a.KeepsReceipt step ∧ a.Succeeds b

/-- Every accepted step keeps a retained receipt and is succeeded by its
history exactly where a retained receipt left the history settled; and a run
of appends that starts from a reachable history and is settled before every
step is a chain of successors. -/
theorem receipt_terminality (hr : Reachable h) :
    ((∀ step h', h.append step = .ok h' → h.KeepsReceipt step ∧ h.Succeeds h') ↔ h.Settled) ∧
    ∀ run : List JournalHistory,
      List.IsChain (fun a b => a.Settled ∧ ∃ step, a.append step = .ok b) (h :: run) →
        List.IsChain Terminal (h :: run) := by
  have hstep : ∀ {a b : JournalHistory}, Appended a → a.Settled →
      ∀ step, a.append step = .ok b → a.KeepsReceipt step ∧ a.Succeeds b := by
    intro a b hra hsettled step happend
    obtain ⟨ha, rfl⟩ := append_eq_ok_iff.mp happend
    have hkeeps := hsettled.keepsReceipt ha
    exact ⟨hkeeps, (hra.sound.succeeds_after_iff ha).mpr fun hreceipt =>
      hra.sound.record_after ha hreceipt hkeeps⟩
  refine ⟨⟨fun hall => ?_, fun hsettled step h' happend => hstep hr.appended hsettled step happend⟩,
    fun run hrun => ?_⟩
  · refine hr.appended.sound.settled_iff.mpr fun step ha => ?_
    exact (hall step _ (append_eq_ok_iff.mpr ⟨ha, rfl⟩)).1
  · have hra := hr.appended
    clear hr
    induction run generalizing h with
    | nil => exact List.IsChain.singleton _
    | cons b rest ih =>
      rw [List.isChain_cons_cons] at hrun ⊢
      obtain ⟨⟨hsettled, step, happend⟩, hrest⟩ := hrun
      exact ⟨⟨step, happend, hstep hra hsettled step happend⟩, ih hrest (hra.append happend)⟩

/-! ## A history that goes on after its receipt -/

theorem pathless : (none : Option PackagePath).isSome = requiresPath .sealReceipt := rfl

/-- The journal of a removal that has nothing to do. -/
def idleDeclaration : JournalDeclaration where
  header :=
    { kind := .remove
      request := ⟨1⟩
      plan := ⟨2⟩
      attempt := ⟨⟨1⟩, ⟨3⟩, ⟨4⟩, 5⟩
      target := ⟨3⟩
      control := ⟨6⟩
      stateProjection := ⟨⟨7⟩, ⟨8⟩, ⟨9⟩, .complete, [], ⟨10⟩, .nil⟩
      lease := ⟨7⟩
      backend := ⟨4⟩ }
  effects :=
    [⟨0, .publishCompletedEvidence, none, pathless⟩,
      ⟨1, .synchronizeCompletedEvidence, none, pathless⟩,
      ⟨2, .sealReceipt, none, pathless⟩]
  replaySeed := ⟨[], [], ∅, .nil, rfl⟩
  ordinals := rfl

/-- The receipt of an attempt that failed before it changed anything. -/
def idleReceipt : ApplicationReceipt where
  kind := .remove
  request := ⟨1⟩
  plan := ⟨2⟩
  attempt := ⟨⟨1⟩, ⟨3⟩, ⟨4⟩, 5⟩
  target := ⟨3⟩
  control := ⟨6⟩
  stateProjection := ⟨⟨7⟩, ⟨8⟩, ⟨9⟩, .complete, [], ⟨10⟩, .nil⟩
  outcome := .failedBeforeTargetMutation
  recovery := .unchanged
  durability :=
    ⟨.confirmed, .notAttempted, .notAttempted, .notAttempted, .notAttempted, .notAttempted⟩
  paths := []
  journal := some idleDeclaration.header
  completedEvidence := none
  backendEvidence := ∅

/-- The intent to seal, then the receipt in an abandoned journal, then the
intent of an effect nothing has touched. -/
def idleSealing : JournalStep :=
  ⟨⟨idleDeclaration, 0, .preparing, some ⟨0, .intent, ⟨2, .sealReceipt, none, pathless⟩, ∅⟩, none,
    none, none⟩, none, by decide, by decide⟩

def idleSealed : JournalStep :=
  ⟨⟨idleDeclaration, 1, .abandoned, some ⟨1, .completed, ⟨2, .sealReceipt, none, pathless⟩, ∅⟩, none,
    some idleReceipt, none⟩, some idleSealing.identity, by decide, by decide⟩

def idleLate : JournalStep :=
  ⟨⟨idleDeclaration, 2, .abandoned,
    some ⟨2, .intent, ⟨0, .publishCompletedEvidence, none, pathless⟩, ∅⟩, none, some idleReceipt,
    none⟩,
    some idleSealed.identity, by decide, by decide⟩

/-- A journal accepts an event after its receipt, and its snapshots stop
succeeding one another. -/
theorem not_receipt_terminality : ¬∀ h : JournalHistory, Reachable h →
    ∀ step h', h.append step = .ok h' → h.KeepsReceipt step ∧ h.Succeeds h' := by
  intro hall
  have hsealing : (initial idleDeclaration).append idleSealing =
      .ok ((initial idleDeclaration).after idleSealing) := by decide +kernel
  have hsealed : ((initial idleDeclaration).after idleSealing).append idleSealed =
      .ok (((initial idleDeclaration).after idleSealing).after idleSealed) := by decide +kernel
  have hlate : (((initial idleDeclaration).after idleSealing).after idleSealed).append idleLate =
      .ok ((((initial idleDeclaration).after idleSealing).after idleSealed).after idleLate) := by
    decide +kernel
  have hr := ((Reachable.initial idleDeclaration).append hsealing).append hsealed
  have hkeeps := (hall _ hr _ _ hlate).1 rfl
  cases hkeeps.1

/-! ## A history that keeps its receipt -/

/-- A state, at most one event, and the receipt retained from then on. -/
private abbrev IdleNext :=
  JournalState × Option (EventKind × JournalEffect) × Option ApplicationReceipt

private def idleNext (h : JournalHistory) (next : IdleNext) : Except Exn JournalHistory := do
  let event := next.2.1.map fun e => (⟨h.events.length, e.1, e.2, ∅⟩ : JournalEvent)
  let step ← JournalStep.make
    ⟨h.declaration, h.cursor.stepCount, next.1, event, none, next.2.2, none⟩ h.cursor.latestStep
  h.append step

/-- The histories after each step, as long as a history that retains a receipt is settled. -/
private def idleRun : JournalHistory → List IdleNext → Option (List JournalHistory)
  | _, [] => some []
  | h, next :: rest => do
    let h' ← (idleNext h next).toOption
    if h.Settled then (idleRun h' rest).map (h' :: ·) else none

private theorem chain_idleRun {h : JournalHistory} {run : List JournalHistory}
    {nexts : List IdleNext} (hrun : idleRun h nexts = some run) :
    List.IsChain (fun a b => a.Settled ∧ ∃ step, a.append step = .ok b) (h :: run) := by
  induction nexts generalizing h run with
  | nil =>
    cases hrun
    exact List.IsChain.singleton _
  | cons next rest ih =>
    rw [idleRun] at hrun
    obtain ⟨h', hnext, hrun⟩ := Option.bind_eq_some_iff.mp hrun
    have hok : idleNext h next = .ok h' := by
      cases hn : idleNext h next with
      | error e =>
        rw [hn] at hnext
        cases hnext
      | ok h'' =>
        rw [hn] at hnext
        exact congrArg Except.ok (Option.some.inj hnext)
    obtain ⟨step, -, happend⟩ := bind_eq_ok_iff.mp hok
    split at hrun
    · rename_i hsettled
      obtain ⟨run', hrun', rfl⟩ := Option.map_eq_some_iff.mp hrun
      exact List.isChain_cons_cons.mpr ⟨⟨hsettled, step, happend⟩, ih hrun'⟩
    · cases hrun

private theorem reachable_idleRun {h h' : JournalHistory} {run : List JournalHistory}
    (hr : Reachable h)
    (hrun : List.IsChain (fun a b => a.Settled ∧ ∃ step, a.append step = .ok b) (h :: run))
    (hmem : h' ∈ run) : Reachable h' := by
  induction run generalizing h with
  | nil => cases hmem
  | cons b rest ih =>
    obtain ⟨⟨-, step, happend⟩, hrest⟩ := List.isChain_cons_cons.mp hrun
    have hb := hr.append happend
    rcases List.mem_cons.mp hmem with rfl | hmem
    · exact hb
    · exact ih hb hrest hmem

private def idlePublish : JournalEffect := ⟨0, .publishCompletedEvidence, none, pathless⟩

private def idleSynchronize : JournalEffect := ⟨1, .synchronizeCompletedEvidence, none, pathless⟩

private def idleSeal : JournalEffect := ⟨2, .sealReceipt, none, pathless⟩

/-- The evidence fails to be published and synchronized, a receipt is sealed,
and a last step keeps it. -/
private def idleNexts : List IdleNext :=
  [(.preparing, some (.intent, idlePublish), none), (.preparing, some (.failed, idlePublish), none),
    (.preparing, some (.intent, idleSynchronize), none),
    (.preparing, some (.failed, idleSynchronize), none),
    (.preparing, some (.intent, idleSeal), none),
    (.abandoned, some (.completed, idleSeal), some idleReceipt),
    (.abandoned, none, some idleReceipt)]

private theorem idleRun_retains : (idleRun (initial idleDeclaration) idleNexts).map
    (fun run => run.map fun h => (h.receipt.isSome, decide h.Settled)) =
      some [(false, true), (false, true), (false, true), (false, true), (false, true), (true, true),
        (true, true)] := by
  decide +kernel

/-- A run that seals a receipt after every effect has ended is a chain of
successors, and the history that retains the receipt accepts only steps that
keep it. -/
theorem receipt_terminality_sealed : ∃ run h,
    List.IsChain Terminal (initial idleDeclaration :: run) ∧
      h ∈ run ∧ h.receipt.isSome ∧ h.Settled ∧
        ∀ step h', h.append step = .ok h' → h.KeepsReceipt step ∧ h.Succeeds h' := by
  obtain ⟨run, hrun, hretains⟩ := Option.map_eq_some_iff.mp idleRun_retains
  have hchain := chain_idleRun hrun
  have hlast : (true, true) ∈ run.map fun h => (h.receipt.isSome, decide h.Settled) := by
    rw [hretains]
    decide
  obtain ⟨h, hmem, hh⟩ := List.mem_map.mp hlast
  obtain ⟨hreceipt, hsettled⟩ := Prod.mk.inj hh
  have hsettled := of_decide_eq_true hsettled
  have hr : Reachable (initial idleDeclaration) := .initial idleDeclaration
  exact ⟨run, h, (receipt_terminality hr).2 run hchain, hmem, hreceipt, hsettled,
    (receipt_terminality (reachable_idleRun hr hchain hmem)).1.mpr hsettled⟩

end JournalHistory

end PkgApply
