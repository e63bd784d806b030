import PkgApply.Restart.Fresh
import PkgApply.Restart.Readiness
import PkgApply.Restart.Resumability

/-!
# What preparation accepts

An uninterrupted preparation accepts a capture only of the admitted object at
the requested path, and a seal only of a stage that says it is sealed.  A
restarted one checks neither: it accepts the same answers exactly where the
answers are faithful by themselves.
-/

namespace PkgApply

open Library

/-! ## Faithful answers -/

/-- A capture is of the requested path, and of the object admitted there. -/
def AdmittedApplication.Admits (A : AdmittedApplication) (r : OldObjectCaptureRequest)
    (captured : OldObjectCaptureResult) : Prop :=
  captured.captured.path = r.path ∧ A.observations.find r.path = some captured.captured

/-- Completed captures are of what was admitted, and a completed seal is of a
sealed stage. -/
structure FaithfulAnswers (A : AdmittedApplication) (m : Mechanisms) : Prop where
  captures : ∀ r ∈ A.captures,
    captureSemanticOutcome A.control r (m (.captureOld r)) = .completed →
      A.Admits r (m (.captureOld r))
  staging : A.hasPayloads = true → (m .sealPayloadStage).result.outcome = .completed →
    (m .sealPayloadStage).sealed = true

theorem validateCaptured_completed_iff {A : AdmittedApplication} {r : OldObjectCaptureRequest}
    {captured : OldObjectCaptureResult} (h : captured.outcome = .completed) :
    validateCaptured A.observations r captured = .ok () ↔ A.Admits r captured := by
  constructor
  · intro hvalid
    obtain ⟨observed, hfind, hpath, hsame⟩ := validateCaptured_eq_ok hvalid
    exact ⟨hpath, hfind.trans (congrArg some (hsame h).symm)⟩
  · rintro ⟨hpath, hfind⟩
    unfold validateCaptured
    rw [hfind]
    dsimp only
    rw [refuseIf_bind_eq_ok, refuseIf_eq_ok]
    exact ⟨not_not.mpr hpath, fun hne => hne.2 rfl⟩

/-! ## Accepting alike -/

/-- An uninterrupted preparation has not come to one effect yet: what its
journal retains was checked, and the effect is untouched. -/
def AdmittedApplication.Awaits (A : AdmittedApplication) (m : Mechanisms) (kind : EffectKind)
    (path : Option PackagePath) (s : EngineState) : Prop :=
  ∃ l, At A l s ∧ l.state = .preparing ∧ l.Checked A m ∧ l.slot kind path = .untouched

/-- An uninterrupted preparation has not come to staging yet. -/
def AdmittedApplication.AwaitsStaging (A : AdmittedApplication) (m : Mechanisms)
    (s : EngineState) : Prop :=
  ∃ l, At A l s ∧ l.state = .preparing ∧ l.Checked A m ∧
    ∀ path, l.slot .stageIncomingPayload path = .untouched

/-- The answers a restart rests on: what the journal retains, as it was
returned, or else what the mechanisms of the restart return. -/
structure Mirrors (A : AdmittedApplication) (s : EngineState) (m m' : Mechanisms) : Prop where
  captures : ∀ r ∈ A.captures, m' (.captureOld r) = s.history.ledger.captureAnswer m r
  staging : A.hasPayloads = true →
    (s.history.ledger.StageDecided A → s.history.ledger.RetainsSeal (m' .sealPayloadStage).result ∧
      ⟨.mechanism .sealPayloadStage, m' .sealPayloadStage⟩ ∈ s.log) ∧
    (¬s.history.ledger.StageDecided A → m' .sealPayloadStage = m .sealPayloadStage)
  synchronizations : ∀ kind domain, synchronizationDomain kind = .ok domain →
    m' (.synchronize kind domain) = s.history.ledger.synchronizationAnswer m kind domain

/-- The synchronizations of preparation, each with its domain. -/
def StagingDomain (kind : EffectKind) (domain : DurabilityDomain) : Prop :=
  (kind = .synchronizeIncomingStaging ∧ domain = .incomingStaging) ∨
    (kind = .synchronizeRecoveryStaging ∧ domain = .recoveryStaging)

/-- Restarted under `m` from `s`, each operation of preparation accepts its
answer exactly where the uninterrupted operation would accept the same answer. -/
structure AcceptsAlike (A : AdmittedApplication) (view : RestartView) (s : EngineState)
    (m m' : Mechanisms) : Prop where
  captures : ∀ r ∈ A.captures, ∀ s₀, A.Awaits m' .captureOldObject (some r.path) s₀ →
    ((∃ result s', (resumeCapture view A.control r).eval (engineMachine m) s =
        (.ok result, s') ∧ result.2 = none) ↔
      ∃ captured s', (captureOldObject (A.journaled A.projection) A.control r).eval
        (engineMachine m') s₀ = (.ok captured, s') ∧
          captureSemanticOutcome A.control r captured = .completed)
  staging : ∀ s₀, A.AwaitsStaging m' s₀ → ∀ projection,
    ((∃ result s', (resumeStaging (A.journaled projection) view).eval (engineMachine m) s =
        (.ok result, s') ∧ result.1 = .visible) ↔
      ∃ sealed s', (stageIncomingPayloads (A.journaled A.projection)).eval (engineMachine m') s₀ =
        (.ok sealed, s') ∧ stagingDurability sealed = .visible)
  synchronizations : ∀ kind domain, StagingDomain kind domain → A.HasKey kind none →
    ∀ s₀, A.Awaits m' kind none s₀ → ∀ staged, staged ≠ .notAttempted →
      ((∃ status s', (resumeSynchronization staged domain kind).eval (engineMachine m) s =
          (.ok status, s') ∧ status = .confirmed) ↔
        ∃ status s', (synchronizeStaged staged domain kind).eval (engineMachine m') s₀ =
          (.ok status, s') ∧ status = .confirmed)

section Alike

variable {A : AdmittedApplication} {m m' : Mechanisms} {l l₀ : Ledger} {s s₀ : EngineState}
  {view : RestartView}

/-- A restarted capture accepts every completed answer. -/
theorem resumeCapture_accepts_iff {r : OldObjectCaptureRequest} (h : At A l s)
    (hstate : l.state = .preparing) (hfits : l.Fits A {(.captureOldObject, some r.path)})
    (hr : r ∈ A.captures) (hview : view.findCapture r.path = l.capture r.path) :
    (∃ result s', (resumeCapture view A.control r).eval (engineMachine m) s = (.ok result, s') ∧
      result.2 = none) ↔
        captureSemanticOutcome A.control r (l.captureAnswer m r) = .completed := by
  refine ((ensures_resumeCapture h hstate hfits hr hview).mono ?_ ?_ fun _ hx => hx).returns_iff
  · rintro result s' ⟨rfl, -⟩
    unfold captureFailure
    split
    · rename_i hcompleted
      exact iff_of_true rfl hcompleted
    · rename_i hincomplete
      exact iff_of_false (Option.some_ne_none _) hincomplete
  · intro e s' hconditional hcompleted
    rw [captureSemanticOutcome_conditional_iff.mpr hconditional] at hcompleted
    cases hcompleted

/-- An uninterrupted capture accepts the completed answers it admits. -/
theorem captureOldObject_accepts_iff {r : OldObjectCaptureRequest} (hr : r ∈ A.captures)
    (h : A.Awaits m .captureOldObject (some r.path) s) :
    (∃ captured s', (captureOldObject (A.journaled A.projection) A.control r).eval
      (engineMachine m) s = (.ok captured, s') ∧
        captureSemanticOutcome A.control r captured = .completed) ↔
      captureSemanticOutcome A.control r (m (.captureOld r)) = .completed ∧
        A.Admits r (m (.captureOld r)) := by
  obtain ⟨l, hat, hstate, hchecked, hslot⟩ := h
  refine ((ensures_captureOldObject hat hstate hchecked rfl hr hslot).mono ?_ ?_
    fun _ hx => hx).returns_iff
  · rintro captured s' ⟨rfl, hvalid, -⟩
    refine ⟨fun hcompleted => ⟨hcompleted, ?_⟩, fun hx => hx.1⟩
    exact (validateCaptured_completed_iff (outcome_of_captureSemanticOutcome hcompleted)).mp hvalid
  · rintro e s' ⟨hinvalid | hconditional, -⟩ ⟨hcompleted, hadmits⟩
    · exact hinvalid ((validateCaptured_completed_iff
        (outcome_of_captureSemanticOutcome hcompleted)).mpr hadmits)
    · rw [captureSemanticOutcome_conditional_iff.mpr hconditional] at hcompleted
      cases hcompleted

/-- A restarted staging accepts every completed seal. -/
theorem resumeStaging_accepts_iff {app : JournaledApplication} {sealed : BackendOperationResult}
    (h : At A l s) (hstate : l.state = .preparing)
    (hfits : l.Fits A (effectsOf .stageIncomingPayload)) (happ : app.Holds A)
    (hpayloads : A.hasPayloads = true)
    (hview : ∀ result, view.incomingPayload = some result ↔ l.RetainsSeal result)
    (hsealed : l.SealAnswer A m sealed) :
    (∃ result s', (resumeStaging app view).eval (engineMachine m) s = (.ok result, s') ∧
      result.1 = .visible) ↔ sealed.outcome = .completed := by
  refine ((ensures_resumeStaging h hstate hfits happ hpayloads hview hsealed).mono ?_ ?_
    fun _ hx => hx).returns_iff
  · rintro result s' ⟨hresult, -⟩
    rw [hresult]
    unfold restagedDurability unstagedDurability
    split
    · rename_i hcompleted
      exact iff_of_true rfl hcompleted
    · rename_i hincomplete
      refine iff_of_false ?_ hincomplete
      split <;> exact DurabilityStatus.noConfusion
  · intro e s' hconditional hcompleted
    rw [hconditional] at hcompleted
    cases hcompleted

/-- An uninterrupted staging accepts the completed seals of sealed stages. -/
theorem stageIncomingPayloads_accepts_iff (hpayloads : A.hasPayloads = true)
    (h : A.AwaitsStaging m s) :
    (∃ sealed s', (stageIncomingPayloads (A.journaled A.projection)).eval (engineMachine m) s =
      (.ok sealed, s') ∧ stagingDurability sealed = .visible) ↔
        (m .sealPayloadStage).result.outcome = .completed ∧ (m .sealPayloadStage).sealed = true := by
  obtain ⟨l, hat, hstate, hchecked, hslots⟩ := h
  refine ((ensures_stageIncomingPayloads hat hstate hchecked ⟨rfl, rfl, rfl⟩ hpayloads
    hslots).mono ?_ ?_ fun _ hx => hx).returns_iff
  · rintro sealed s' ⟨rfl, hflag, -⟩
    rw [← hflag, beq_iff_eq, and_self]
    unfold stagingDurability
    dsimp only
    split
    · rename_i hcompleted
      exact iff_of_true rfl hcompleted
    · rename_i hincomplete
      exact iff_of_false DurabilityStatus.noConfusion hincomplete
  · rintro e s' ⟨hflag | hconditional, -⟩ ⟨hcompleted, hsealed⟩
    · rw [hcompleted, hsealed] at hflag
      exact hflag rfl
    · rw [hconditional] at hcompleted
      cases hcompleted

theorem resumeStaging_eq {app : JournaledApplication} (happ : app.Holds A)
    (hpayloads : ¬A.hasPayloads = true) :
    resumeStaging app view = (Engine.history >>= fun _ => pure (.notAttempted, ∅)) := by
  rw [← happ.hasPayloads] at hpayloads
  unfold JournaledApplication.hasPayloads at hpayloads
  unfold resumeStaging
  cases hpayload : app.payloads with
  | none => rfl
  | some payloads =>
    have hlength : payloads.selection.length = 0 := by simpa [hpayload] using hpayloads
    simp only [if_pos hlength]

/-- Nothing is staged without payloads. -/
theorem resumeStaging_of_not_hasPayloads {app : JournaledApplication} (happ : app.Holds A)
    (hpayloads : ¬A.hasPayloads = true) :
    ¬∃ result s', (resumeStaging app view).eval (engineMachine m) s = (.ok result, s') ∧
      result.1 = .visible := by
  rw [resumeStaging_eq happ hpayloads]
  rintro ⟨result, s', hrun, hvisible⟩
  cases hrun
  cases hvisible

theorem stageIncomingPayloads_of_not_hasPayloads {app : JournaledApplication}
    (happ : app.Holds A) (hpayloads : ¬A.hasPayloads = true) :
    ¬∃ sealed s', (stageIncomingPayloads app).eval (engineMachine m) s = (.ok sealed, s') ∧
      stagingDurability sealed = .visible := by
  rw [stageIncomingPayloads_eq_none happ hpayloads]
  rintro ⟨sealed, s', hrun, hvisible⟩
  cases hrun
  cases hvisible

/-- A restarted synchronization accepts a confirmation of the domain. -/
theorem resumeSynchronization_accepts_iff {staged : DurabilityStatus} {kind : EffectKind}
    {domain : DurabilityDomain} (h : At A l s) (hstate : l.state = .preparing)
    (hfits : l.Fits A {(kind, none)}) (hkey : A.HasKey kind none)
    (hdomain : synchronizationDomain kind = .ok domain) (hstaged : staged ≠ .notAttempted) :
    (∃ status s', (resumeSynchronization staged domain kind).eval (engineMachine m) s =
      (.ok status, s') ∧ status = .confirmed) ↔
        (l.synchronizationAnswer m kind domain).domain = domain ∧
          (l.synchronizationAnswer m kind domain).status = .confirmed := by
  refine ((ensures_resumeSynchronization h hstate hfits hkey hdomain hstaged).mono ?_ ?_
    fun _ hx => hx).returns_iff
  · rintro status s' ⟨rfl, hplace, -⟩
    rw [and_iff_right hplace]
    split
    · cases (l.synchronizationAnswer m kind domain).status <;> simp [DurabilityStatus.replayed]
    · exact Iff.rfl
  · rintro e s' (hmismatch | hunattempted) ⟨hplace, hconfirmed⟩
    · exact hmismatch hplace
    · rw [hunattempted] at hconfirmed
      cases hconfirmed

/-- An uninterrupted synchronization accepts a confirmation of the domain. -/
theorem synchronizeStaged_accepts_iff {staged : DurabilityStatus} {kind : EffectKind}
    {domain : DurabilityDomain} (hkey : A.HasKey kind none)
    (hdomain : synchronizationDomain kind = .ok domain) (hstaged : staged ≠ .notAttempted)
    (h : A.Awaits m kind none s) :
    (∃ status s', (synchronizeStaged staged domain kind).eval (engineMachine m) s =
      (.ok status, s') ∧ status = .confirmed) ↔
        (m (.synchronize kind domain)).domain = domain ∧
          (m (.synchronize kind domain)).status = .confirmed := by
  obtain ⟨l, hat, hstate, hchecked, hslot⟩ := h
  refine ((ensures_synchronizeStaged hat hstate hchecked hkey hdomain hstaged hslot).mono ?_ ?_
    fun _ hx => hx).returns_iff
  · rintro status s' ⟨rfl, hplace, -⟩
    rw [and_iff_right hplace]
  · rintro e s' ⟨hmismatch | hunattempted, -⟩ ⟨hplace, hconfirmed⟩
    · exact hmismatch hplace
    · rw [hunattempted] at hconfirmed
      cases hconfirmed

/-- The initial journal awaits every effect. -/
theorem AdmittedApplication.start_awaits (A : AdmittedApplication) (m : Mechanisms)
    (kind : EffectKind) (path : Option PackagePath) : A.Awaits m kind path A.start :=
  ⟨.initial, .initial A, rfl, .initial, rfl⟩

/-- The seal of a view is the one its journal retains. -/
theorem RestartView.Recalls.retainsSeal_iff (hview : view.Recalls s.history)
    (h : At A s.history.ledger s) {result : BackendOperationResult} :
    view.incomingPayload = some result ↔ s.history.ledger.RetainsSeal result := by
  rw [hview.sealing]
  refine exists_congr fun path => ?_
  rw [← h.appended.slot_fact_iff h.declares.keyed]
  rfl

/-- A preparation in a journal accepts alike exactly where its answers are
faithful. -/
theorem At.acceptsAlike_iff (h : At A s.history.ledger s) (hstate : s.history.state = .preparing)
    (hfits : ∀ keys, s.history.ledger.Fits A keys) (hview : view.Recalls s.history)
    (hm : Mirrors A s m m') : AcceptsAlike A view s m m' ↔ FaithfulAnswers A m' := by
  have hseal : ∀ result, view.incomingPayload = some result ↔
      s.history.ledger.RetainsSeal result := fun _ => hview.retainsSeal_iff h
  have hcapture : ∀ r ∈ A.captures, (∃ result s', (resumeCapture view A.control r).eval
      (engineMachine m) s = (.ok result, s') ∧ result.2 = none) ↔
        captureSemanticOutcome A.control r (m' (.captureOld r)) = .completed := by
    intro r hr
    rw [hm.captures r hr]
    exact resumeCapture_accepts_iff h hstate (hfits _) hr (hview.captures r.path)
  have hstage : A.hasPayloads = true → ∀ projection,
      ((∃ result s', (resumeStaging (A.journaled projection) view).eval (engineMachine m) s =
        (.ok result, s') ∧ result.1 = .visible) ↔
          (m' .sealPayloadStage).result.outcome = .completed) := by
    intro hpayloads projection
    obtain ⟨hretained, hnew⟩ := hm.staging hpayloads
    refine resumeStaging_accepts_iff h hstate (hfits _) ⟨rfl, rfl, rfl⟩ hpayloads hseal ?_
    by_cases hdecided : s.history.ledger.StageDecided A
    · exact .inl ⟨hdecided, (hretained hdecided).1⟩
    · exact .inr ⟨hdecided, by rw [hnew hdecided]⟩
  constructor
  · intro halike
    constructor
    · intro r hr hcompleted
      exact ((captureOldObject_accepts_iff hr (A.start_awaits _ _ _)).mp
        ((halike.captures r hr _ (A.start_awaits _ _ _)).mp ((hcapture r hr).mpr hcompleted))).2
    · intro hpayloads hcompleted
      have hawaits : A.AwaitsStaging m' A.start :=
        ⟨.initial, .initial A, rfl, .initial, fun _ => rfl⟩
      exact ((stageIncomingPayloads_accepts_iff hpayloads hawaits).mp
        ((halike.staging _ hawaits A.projection).mp
          ((hstage hpayloads A.projection).mpr hcompleted))).2
  · intro hfaithful
    refine ⟨fun r hr s₀ hs₀ => ?_, fun s₀ hs₀ projection => ?_,
      fun kind domain hkind hkey s₀ hs₀ staged hstaged => ?_⟩
    · rw [hcapture r hr, captureOldObject_accepts_iff hr hs₀]
      exact ⟨fun hcompleted => ⟨hcompleted, hfaithful.captures r hr hcompleted⟩, fun hx => hx.1⟩
    · by_cases hpayloads : A.hasPayloads = true
      · rw [hstage hpayloads, stageIncomingPayloads_accepts_iff hpayloads hs₀]
        exact ⟨fun hcompleted => ⟨hcompleted, hfaithful.staging hpayloads hcompleted⟩,
          fun hx => hx.1⟩
      · exact iff_of_false (resumeStaging_of_not_hasPayloads ⟨rfl, rfl, rfl⟩ hpayloads)
          (stageIncomingPayloads_of_not_hasPayloads ⟨rfl, rfl, rfl⟩ hpayloads)
    · have hdomain : synchronizationDomain kind = .ok domain := by
        rcases hkind with ⟨rfl, rfl⟩ | ⟨rfl, rfl⟩ <;> rfl
      rw [resumeSynchronization_accepts_iff h hstate (hfits _) hkey hdomain hstaged,
        synchronizeStaged_accepts_iff hkey hdomain hstaged hs₀, hm.synchronizations kind domain hdomain]

end Alike

/-! ## What runs retain -/

/-- What a journal accepted is faithful: its completed captures are of what was
admitted, and its completed seals of stages that said they were sealed. -/
structure EngineState.Vouches (s : EngineState) (A : AdmittedApplication) : Prop where
  captures : ∀ r ∈ A.captures, s.history.Done .captureOldObject (some r.path) →
    ∃ captured, s.history.ledger.capture r.path = some captured ∧ A.Admits r captured
  staging : ∀ path, s.history.Done .stageIncomingPayload path →
    ∃ stage : PayloadStageResult, ⟨.mechanism .sealPayloadStage, stage⟩ ∈ s.log ∧
      (s.history.slot .stageIncomingPayload path).fact = some (.payloadSeal stage.result) ∧
        stage.sealed = true

section Runs

variable {A : AdmittedApplication} {R : Mechanisms → Prop} {m : Mechanisms} {s s' : EngineState}

/-- A journal past preparation, whose preparation is complete and checked. -/
structure PastPreparation (A : AdmittedApplication) (m : Mechanisms) (s : EngineState) : Prop where
  opened : Opened A s
  ready : A.Ready s.history
  vetted : Vetted A m s

/-- Nothing is prepared again. -/
theorem PastPreparation.perform {op : EngineOp} {r : engineSignature.Response op}
    (h : PastPreparation A m s)
    (hop : (engineMachine m).perform op s = .ok (r, s')) : PastPreparation A m s' := by
  have hopened := h.opened.perform hop
  cases op with
  | mechanism request =>
    cases hop
    exact ⟨hopened, h.ready, ⟨h.vetted.checked, h.vetted.unsealed⟩⟩
  | journal t =>
    simp only [engineMachine] at hop
    split at hop
    · rename_i h' htransition
      cases hop
      obtain ⟨hp, hf⟩ := JournalHistory.permits_of_transition h.opened.appended
        h.opened.declares.keyed htransition
      have hslot : ∀ kind path, kind.preparatory = true → A.HasKey kind path →
          h'.slot kind path = s.history.slot kind path := by
        intro kind path hkind hkey
        obtain ⟨ended, hended, -⟩ := Option.map_eq_some_iff.mp (h.ready kind path hkind hkey)
        exact hf.slot_of_ended hp (by rw [hended]; rfl)
      have hpast : h'.state ≠ .preparing := by
        rcases hopened.ready with habandoned | ⟨hpast, -⟩
        · rw [show h'.state = .abandoned from habandoned]
          exact JournalState.noConfusion
        · exact hpast
      refine ⟨hopened, fun kind path hkind hkey => hf.done hp (h.ready kind path hkind hkey),
        ⟨fun r hr captured hcaptured => h.vetted.checked.captures r hr captured ?_,
          fun sealed hsealed => h.vetted.checked.sealing sealed ?_⟩, fun hback => absurd hback hpast⟩
      · unfold Ledger.capture at hcaptured ⊢
        rw [JournalHistory.ledger_slot, hslot _ _ rfl (hasKey_capture hr)] at hcaptured
        exact hcaptured
      · obtain ⟨path, hfact⟩ := hsealed
        obtain ⟨step, hstep, e, he, -, hkind, rfl, -⟩ :=
          (hopened.appended.slot_fact_iff hopened.declares.keyed).mp hfact
        have hkey := AdmittedApplication.hasKey_of_mem hopened.declares
          (hopened.appended.declared step hstep e he)
        rw [hkind] at hkey
        rw [JournalHistory.ledger_slot, hslot _ _ rfl hkey] at hfact
        exact ⟨_, hfact⟩
    · cases hop

/-- An application that is not restarted leaves only what it checked. -/
theorem vetted_apply : A.apply.Ensures (engineMachine m) A.start (fun _ s' => Vetted A m s')
    (fun _ s' => Vetted A m s') (Vetted A m) := by
  have hstart : Vetted A m A.start := (At.initial A).checked .initial
  have hprepares : Prepares A m (prepareApplication (A.journaled A.projection) A.request
      A.projection) A.start := prepares_prepareApplication
  refine ensures_history ?_
  cases hmake : JournaledApplication.make (A.journaled A.projection) A.start.history with
  | error e => exact ensures_error rfl hstart
  | ok app =>
    refine ensures_ok rfl ?_
    rw [journaledApplication_make_eq_ok hmake]
    have hgates : A.Gates m (prepareApplication (A.journaled A.projection) A.request A.projection)
        A.start (fun _ s' => Opened A s') :=
      gates_prepareApplication ⟨rfl, rfl, rfl⟩
        ⟨.initial _, rfl, rfl, fun x hx => absurd hx (Set.notMem_empty x)⟩
    refine Process.Ensures.bind ((hprepares.and hgates).mono (fun _ _ hx => hx)
      (fun _ _ hx => hx.1) (fun _ hx => hx.1)) fun result s₁ hs₁ => ?_
    obtain ⟨⟨hprepared, hvetted⟩, hopened⟩ := hs₁
    cases result with
    | inl receipt => exact Process.ensures_pure.mpr hvetted
    | inr prepared =>
      have hready : A.Ready s₁.history := by
        rcases hopened.ready with habandoned | ⟨-, hready⟩
        · rw [show s₁.history.state = .prepared from hprepared] at habandoned
          cases habandoned
        · exact hready
      have hsettled : PastPreparation A m s₁ := ⟨hopened, hready, hvetted⟩
      exact (Process.ensures_invariant (fun _ _ _ _ h hop => h.perform hop) _ hsettled).mono
        (fun _ _ h => h.vetted) (fun _ _ h => h.vetted) (fun _ h => h.vetted)

/-- A logged journal without a receipt stands at its ledger. -/
theorem Logged.at_ledger {last : Option EngineCall} (h : Logged A last s)
    (hreceipt : s.history.receipt = none) : At A s.history.ledger s := by
  refine ⟨h.appended, h.declares, hreceipt, ?_, rfl⟩
  by_contra hevidence
  have hsealed := h.appended.sound.evidence_receipt (Option.isSome_iff_ne_none.mpr hevidence)
  rw [hreceipt] at hsealed
  cases hsealed

/-- A decided stage has an ended effect. -/
theorem Ledger.StageDecided.exists_ended {l : Ledger} (h : l.StageDecided A)
    (hpayloads : A.hasPayloads = true) :
    ∃ path ended, (l.slot .stageIncomingPayload path).ended = some ended := by
  rcases h with ⟨path, ended, hended, -⟩ | hcompleted
  · exact ⟨path, ended, hended⟩
  · obtain ⟨step, hstep⟩ := exists_stage_step hpayloads
    obtain ⟨ended, hended, -⟩ := hcompleted _ (hasKey_stage_iff.mpr ⟨step, hstep, rfl⟩)
    exact ⟨_, ended, hended⟩

/-- An ended capture is retained as it was returned. -/
theorem Logged.ended_capture {last : Option EngineCall} (h : Logged A last s)
    {r : OldObjectCaptureRequest} (hr : r ∈ A.captures) {ended : Ended}
    (hended : (s.history.slot .captureOldObject (some r.path)).ended = some ended) :
    ∃ captured : OldObjectCaptureResult, s.history.ledger.capture r.path = some captured ∧
      terminalEvent (captureSemanticOutcome A.control r captured) = .ok ended.kind ∧
      ⟨.mechanism (.captureOld r), captured⟩ ∈ s.log := by
  obtain ⟨step, hstep, e, he, hterminal, hkind, hpath, rfl⟩ :=
    (h.appended.slot_ended_iff h.declares.keyed).mp hended
  obtain ⟨last', hmem, hretains⟩ := h.retains hstep he hterminal
  simp only [PkgApply.Retains, hkind] at hretains
  obtain ⟨r', hr', captured, rfl, hpath', -, hok, hfact⟩ := hretains
  have hsame : r' = r := List.inj_on_of_nodup_map A.captures_nodup hr' hr
    (Option.some.inj (hpath'.symm.trans hpath))
  subst hsame
  refine ⟨captured, ?_, hok, hmem _ rfl⟩
  unfold Ledger.capture Slot.fact
  rw [JournalHistory.ledger_slot, hended, Option.bind_some, hfact]
  rfl

/-- A completed capture is retained as it was returned. -/
theorem Logged.done_capture {last : Option EngineCall} (h : Logged A last s)
    {r : OldObjectCaptureRequest} (hr : r ∈ A.captures)
    (hdone : s.history.Done .captureOldObject (some r.path)) :
    ∃ captured : OldObjectCaptureResult, s.history.ledger.capture r.path = some captured ∧
      captureSemanticOutcome A.control r captured = .completed ∧
      ⟨.mechanism (.captureOld r), captured⟩ ∈ s.log := by
  obtain ⟨ended, hended, hcompleted⟩ := Option.map_eq_some_iff.mp hdone
  obtain ⟨captured, hcapture, hok, hcall⟩ := h.ended_capture hr hended
  exact ⟨captured, hcapture, (terminalEvent_completed_iff hok).mp hcompleted, hcall⟩

/-- An ended staging effect retains a seal as it was returned. -/
theorem Logged.ended_staging {last : Option EngineCall} (h : Logged A last s)
    {path : Option PackagePath} {ended : Ended}
    (hended : (s.history.slot .stageIncomingPayload path).ended = some ended) :
    A.hasPayloads = true ∧ ∃ stage : PayloadStageResult,
      ⟨.mechanism .sealPayloadStage, stage⟩ ∈ s.log ∧
      (s.history.slot .stageIncomingPayload path).fact = some (.payloadSeal stage.result) ∧
        terminalEvent stage.result.outcome = .ok ended.kind := by
  obtain ⟨step, hstep, e, he, hterminal, hkind, hpath, rfl⟩ :=
    (h.appended.slot_ended_iff h.declares.keyed).mp hended
  obtain ⟨last', -, hretains⟩ := h.retains hstep he hterminal
  simp only [PkgApply.Retains, hkind] at hretains
  obtain ⟨sealed, -, -, hok, hfact⟩ := hretains
  have hkey := AdmittedApplication.hasKey_of_mem h.declares (h.appended.declared step hstep e he)
  rw [hkind] at hkey
  obtain ⟨stageStep, hstageStep, -⟩ := hasKey_stage_iff.mp hkey
  obtain ⟨stage, hstage, rfl⟩ : Returned s.log .stageIncomingPayload path (.payloadSeal sealed) :=
    h.returned ⟨step, hstep, e, he, hterminal, hkind, hpath, hfact⟩
  refine ⟨A.hasPayloads_of_step hstageStep, stage, hstage, ?_, hok⟩
  unfold Slot.fact
  rw [hended, Option.bind_some, hfact]

/-- A completed staging effect retains a completed seal. -/
theorem Logged.done_staging {last : Option EngineCall} (h : Logged A last s)
    {path : Option PackagePath} (hdone : s.history.Done .stageIncomingPayload path) :
    A.hasPayloads = true ∧ ∃ stage : PayloadStageResult,
      ⟨.mechanism .sealPayloadStage, stage⟩ ∈ s.log ∧
      (s.history.slot .stageIncomingPayload path).fact = some (.payloadSeal stage.result) ∧
        stage.result.outcome = .completed := by
  obtain ⟨ended, hended, hcompleted⟩ := Option.map_eq_some_iff.mp hdone
  obtain ⟨hpayloads, stage, hcall, hfact, hok⟩ := h.ended_staging hended
  exact ⟨hpayloads, stage, hcall, hfact, (terminalEvent_completed_iff hok).mp hcompleted⟩

/-- Faithful answers leave a journal that vouches for what it accepted. -/
theorem AdmittedApplication.Left.vouches (hR : ∀ m, R m → FaithfulAnswers A m)
    (hs : A.Left R s) : s.Vouches A := by
  constructor
  · intro r hr hdone
    obtain ⟨captured, hcapture, hcompleted, hcall⟩ := hs.logged.done_capture hr hdone
    obtain ⟨m, hm, rfl⟩ := hs.answered _ _ hcall
    exact ⟨_, hcapture, (hR m hm).captures r hr hcompleted⟩
  · intro path hdone
    obtain ⟨hpayloads, stage, hcall, hfact, hcompleted⟩ := hs.logged.done_staging hdone
    obtain ⟨m, hm, rfl⟩ := hs.answered _ _ hcall
    exact ⟨_, hcall, hfact, (hR m hm).staging hpayloads hcompleted⟩

/-- What is checked vouches for what it accepted, whatever the answers. -/
theorem Vetted.vouches (h : Vetted A m s) (hs : A.Left (fun m' => m' = m) s) : s.Vouches A := by
  constructor
  · intro r hr hdone
    obtain ⟨captured, hcapture, hcompleted, -⟩ := hs.logged.done_capture hr hdone
    exact ⟨captured, hcapture, (validateCaptured_completed_iff
      (outcome_of_captureSemanticOutcome hcompleted)).mp (h.checked.captures r hr captured hcapture)⟩
  · intro path hdone
    obtain ⟨-, stage, hcall, hfact, hcompleted⟩ := hs.logged.done_staging hdone
    obtain ⟨_, rfl, rfl⟩ := hs.answered _ _ hcall
    refine ⟨_, hcall, hfact, ?_⟩
    rw [← h.checked.sealing _ ⟨path, hfact⟩, hcompleted]
    rfl

/-- Whatever a run leaves, a restart rests on some answers. -/
theorem AdmittedApplication.Left.exists_mirrors (hs : A.Left R s) (m : Mechanisms) :
    ∃ m', Mirrors A s m m' := by
  classical
  have hlogged := hs.logged
  have hstage : ∃ stage : PayloadStageResult, A.hasPayloads = true →
      (s.history.ledger.StageDecided A → s.history.ledger.RetainsSeal stage.result ∧
        ⟨.mechanism .sealPayloadStage, stage⟩ ∈ s.log) ∧
      (¬s.history.ledger.StageDecided A → stage = m .sealPayloadStage) := by
    by_cases hdecided : A.hasPayloads = true ∧ s.history.ledger.StageDecided A
    · obtain ⟨path, ended, hended⟩ := hdecided.2.exists_ended hdecided.1
      obtain ⟨-, stage, hcall, hfact, -⟩ := hlogged.ended_staging hended
      exact ⟨stage, fun _ => ⟨fun _ => ⟨⟨path, hfact⟩, hcall⟩, fun hnot =>
        absurd hdecided.2 hnot⟩⟩
    · exact ⟨m .sealPayloadStage, fun hpayloads => ⟨fun hx => absurd ⟨hpayloads, hx⟩ hdecided,
        fun _ => rfl⟩⟩
  obtain ⟨stage, hstage⟩ := hstage
  refine ⟨fun request => match request with
    | .captureOld r => s.history.ledger.captureAnswer m r
    | .sealPayloadStage => stage
    | .synchronize kind domain => s.history.ledger.synchronizationAnswer m kind domain
    | request => m request, fun _ _ => rfl, hstage, fun _ _ _ => rfl⟩

/-- A restarted preparation accepts its answers as an uninterrupted one would
exactly where they are faithful.  A journal vouches for what it accepted as
long as it is not restarted, and over every run of faithful answers. -/
theorem AdmittedApplication.preparation_acceptance (A : AdmittedApplication) :
    (∀ R s view m m', A.Left R s → s.history.receipt = none → s.history.state = .preparing →
      buildView s.history A.request = .ok view → Mirrors A s m m' →
        (AcceptsAlike A view s m m' ↔ FaithfulAnswers A m')) ∧
    (∀ m s, A.apply.Leaves (engineMachine m) A.start s → s.Vouches A) ∧
    ∀ R : Mechanisms → Prop, (∀ m, R m → FaithfulAnswers A m) → ∀ s, A.Left R s → s.Vouches A := by
  refine ⟨fun R s view m m' hs hreceipt hstate hview hm => ?_, fun m s hs => ?_,
    fun R hR s hs => hs.vouches hR⟩
  · have hat := hs.logged.at_ledger hreceipt
    obtain ⟨hfits, -, hrecalls⟩ := hs.logged.view hview
    exact hat.acceptsAlike_iff hstate (hat.fits hfits) hrecalls hm
  · exact (vetted_apply.leaves hs).vouches (.applied rfl hs)

end Runs

/-! ## A stale capture -/

section Stale

private theorem exact_completed : true = true →
    BackendOperationOutcome.completed = BackendOperationOutcome.completed := fun _ => rfl

/-- A backend that captures the directory after its mode was changed. -/
private def stale : Mechanisms
  | .captureOld _ =>
    ⟨.completed, .present { AdmittedApplication.removalObject with mode := .known 0o700 }, true, ∅,
      by decide, exact_completed⟩
  | request => AdmittedApplication.removalMechanisms .completed .completed .confirmed request

private def staleAttempt : AdmittedApplication := .removal .exactPriorState .allApplicationDomains

private def restart : Engine ApplicationReceipt :=
  runRestart staleAttempt.request ⟨staleAttempt.projection, staleAttempt.nonce⟩

/-- The removal, restarted from its initial journal with a stale capture. -/
def staleRemoval : EngineState := (restart.eval (engineMachine stale) staleAttempt.start).2

private theorem not_faithful_stale : ¬FaithfulAnswers staleAttempt stale := by
  intro hfaithful
  obtain ⟨-, hfind⟩ := hfaithful.captures ⟨AdmittedApplication.removalPath, false, true⟩
    (by decide) (by decide)
  exact absurd hfind (by decide)

private theorem mirrors_start (m : Mechanisms) : Mirrors staleAttempt staleAttempt.start m m :=
  ⟨fun _ _ => rfl, fun hpayloads => (Bool.false_ne_true hpayloads).elim, fun _ _ _ => rfl⟩

private theorem exists_startView :
    ∃ view, buildView staleAttempt.start.history staleAttempt.request = .ok view := by
  have hok : (buildView staleAttempt.start.history staleAttempt.request).toBool = true := by
    decide +kernel
  cases hview : buildView staleAttempt.start.history staleAttempt.request with
  | error e =>
    rw [hview] at hok
    cases hok
  | ok view => exact ⟨view, rfl⟩

/-- A restarted preparation accepts a capture of another object than the
admitted one, and its journal goes on with it. -/
theorem not_preparation_acceptance :
    (¬∀ (A : AdmittedApplication) (s : EngineState) (view : RestartView) (m m' : Mechanisms),
      A.Left (fun _ => True) s → s.history.receipt = none → s.history.state = .preparing →
        buildView s.history A.request = .ok view → Mirrors A s m m' →
          AcceptsAlike A view s m m') ∧
      ¬∀ (A : AdmittedApplication) (s : EngineState), A.Left (fun _ => True) s → s.Vouches A := by
  constructor
  · intro hall
    obtain ⟨view, hview⟩ := exists_startView
    have halike := hall staleAttempt staleAttempt.start view stale stale .start rfl rfl hview
      (mirrors_start stale)
    have hs : staleAttempt.Left (fun _ => True) staleAttempt.start := .start
    obtain ⟨hfits, -, hrecalls⟩ := hs.logged.view hview
    have hat := hs.logged.at_ledger rfl
    exact not_faithful_stale
      ((hat.acceptsAlike_iff rfl (hat.fits hfits) hrecalls (mirrors_start stale)).mp halike)
  · intro hall
    have hvouches := hall staleAttempt staleRemoval (.resumed .start trivial (.inr rfl))
    have hdone : (staleRemoval.history.slot .captureOldObject
        (some AdmittedApplication.removalPath)).ended.map Ended.kind = some .completed := by
      decide +kernel
    obtain ⟨captured, hcapture, -, hfind⟩ := hvouches.captures
      ⟨AdmittedApplication.removalPath, false, true⟩ (by decide) hdone
    have hforeign : (staleRemoval.history.ledger.capture AdmittedApplication.removalPath).any
        (fun c => staleAttempt.observations.find AdmittedApplication.removalPath =
          some c.captured) = false := by decide +kernel
    rw [hcapture] at hforeign
    simp [hfind] at hforeign

theorem preparation_acceptance_removal : ∃ view,
    buildView staleAttempt.start.history staleAttempt.request = .ok view ∧
      (AcceptsAlike staleAttempt view staleAttempt.start stale stale ↔
        FaithfulAnswers staleAttempt stale) := by
  obtain ⟨view, hview⟩ := exists_startView
  exact ⟨view, hview, (AdmittedApplication.preparation_acceptance staleAttempt).1 (fun _ => True)
    _ _ _ _ .start rfl rfl hview (mirrors_start stale)⟩

end Stale

end PkgApply
