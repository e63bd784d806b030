import PkgApply.Restart.Acceptance

/-!
# How a restart reports a preparation that fails

A preparation that fails, restarted from any of its cuts under the same
answers, fails again.  The two receipts count the failure alike only where it
was indeterminate, or a synchronization was not retained as visible.
-/

namespace PkgApply

open Library Transport

/-! ## The failure a restart reports -/

/-- How a restart counts a synchronization: as retained, if it is. -/
def Ledger.countAgain (l : Ledger) (kind : EffectKind) (status : DurabilityStatus) :
    DurabilityStatus :=
  if (l.synchronization kind).isSome then status.replayed else status

/-- The incoming and recovery statuses a restarted preparation reports. -/
def PreparationFailure.reportedAgain (A : AdmittedApplication) (l : Ledger) :
    PreparationFailure → DurabilityStatus × DurabilityStatus
  | .capture captured => (.notAttempted, unstagedDurability (captured.outcome == .indeterminate))
  | .staging sealed => (unstagedDurability (sealed.outcome == .indeterminate), A.captured)
  | .incoming status => (l.countAgain .synchronizeIncomingStaging status, A.captured)
  | .recovery status => (A.staged, l.countAgain .synchronizeRecoveryStaging status)

/-- A failure is indeterminate, or a synchronization that was not retained as
visible. -/
def PreparationFailure.Alike (l : Ledger) : PreparationFailure → Prop
  | .capture captured => captured.outcome = .indeterminate
  | .staging sealed => sealed.outcome = .indeterminate
  | .incoming status => status = .visible → l.synchronization .synchronizeIncomingStaging = none
  | .recovery status => status = .visible → l.synchronization .synchronizeRecoveryStaging = none

theorem unstagedDurability_eq_indeterminate_iff {indeterminate : Bool} :
    unstagedDurability indeterminate = .indeterminate ↔ indeterminate = true := by
  cases indeterminate <;> simp [unstagedDurability]

theorem failedCaptureDurability_eq_iff (captured : OldObjectCaptureResult) :
    unstagedDurability (captured.outcome == .indeterminate) = failedCaptureDurability captured ↔
      captured.outcome = .indeterminate := by
  unfold failedCaptureDurability unstagedDurability
  cases captured.outcome <;> decide

/-- A synchronization is counted again as it was, unless it is retained as visible. -/
theorem Ledger.countAgain_eq_iff (l : Ledger) (kind : EffectKind) {status : DurabilityStatus}
    (h : status ≠ .notAttempted) : l.countAgain kind status = status ↔
      (status = .visible → l.synchronization kind = none) := by
  unfold countAgain
  cases l.synchronization kind with
  | none => simp
  | some fact => cases status <;> simp [DurabilityStatus.replayed] at h ⊢

theorem Ledger.countAgain_confirmed (l : Ledger) (kind : EffectKind) :
    l.countAgain kind .confirmed = .confirmed := by
  unfold countAgain
  split <;> rfl

/-- A synchronization that is not durable is not durable again. -/
theorem Ledger.not_stagedDurable_countAgain (l : Ledger) (kind : EffectKind)
    {status : DurabilityStatus} (h : status ≠ .notAttempted) (hunconfirmed : status ≠ .confirmed) :
    stagedDurable (l.countAgain kind status) = false := by
  unfold countAgain
  split <;> cases status <;> simp [DurabilityStatus.replayed, stagedDurable] at h hunconfirmed ⊢

/-- Exactly the failures of that kind are reported again as they were. -/
theorem PreparationFailure.reportedAgain_eq_iff {A : AdmittedApplication} {m : Mechanisms}
    (l : Ledger) {failure : PreparationFailure} (h : failure.WellFormed A m) :
    failure.reportedAgain A l = failure.reported A ↔ failure.Alike l := by
  cases failure with
  | capture captured =>
    simp only [reportedAgain, reported, Alike, Prod.mk.injEq, true_and]
    exact failedCaptureDurability_eq_iff captured
  | staging sealed =>
    simp only [reportedAgain, reported, Alike, Prod.mk.injEq, and_true]
    rw [unstagedDurability_eq_indeterminate_iff, beq_iff_eq]
  | incoming status =>
    simp only [reportedAgain, reported, Alike, Prod.mk.injEq, and_true]
    exact l.countAgain_eq_iff _ h.2
  | recovery status =>
    simp only [reportedAgain, reported, Alike, Prod.mk.injEq, true_and]
    exact l.countAgain_eq_iff _ h.2.2

section Restarted

variable {A : AdmittedApplication} {m : Mechanisms} {l l' : Ledger} {s : EngineState}
  {app : JournaledApplication} {view : RestartView}

/-! ## Captures -/

theorem captureFailure_eq_none_iff {control : ExecutionControl} {r : OldObjectCaptureRequest}
    {captured : OldObjectCaptureResult} : captureFailure control r captured = none ↔
      captureSemanticOutcome control r captured = .completed := by
  unfold captureFailure
  split
  · rename_i hcompleted
    exact iff_of_true rfl hcompleted
  · rename_i hincomplete
    exact iff_of_false (Option.some_ne_none _) hincomplete

/-- Restarted captures go on up to the first that does not complete. -/
theorem ensures_resumeCaptures {requests : List OldObjectCaptureRequest} {acc : ResumedCaptures}
    (h : At A l s) (hstate : l.state = .preparing)
    (hfits : l.Fits A (effectsAt .captureOldObject (requests.map OldObjectCaptureRequest.path)))
    (hrequests : ∀ r ∈ requests, r ∈ A.captures)
    (hnodup : (requests.map OldObjectCaptureRequest.path).Nodup)
    (hview : ∀ r ∈ requests, view.findCapture r.path = l.capture r.path)
    (hanswers : ∀ r ∈ requests, l.captureAnswer m r = m (.captureOld r))
    (hformed : ∀ r, incompleteCapture A.control m requests = some r →
      (m (.captureOld r)).outcome ≠ .conditionalRetained)
    (hacc : acc.failure = none) :
    (resumeCaptures view A.control requests acc).Ensures (engineMachine m) s
      (fun acc' s' => acc'.failure = (incompleteCapture A.control m requests).map
          (fun r => unstagedDurability ((m (.captureOld r)).outcome == .indeterminate)) ∧
        Moved A l (effectsAt .captureOldObject (requests.map OldObjectCaptureRequest.path)) s')
      (fun _ _ => False) (fun _ => True) := by
  induction requests generalizing acc l s with
  | nil => exact Process.ensures_pure.mpr ⟨hacc, h.moved _⟩
  | cons r rest ih =>
    obtain ⟨hfirst, hrest⟩ := List.nodup_cons.mp hnodup
    have hone : ({(.captureOldObject, some r.path)} : Set (EffectKind × Option PackagePath)) ⊆
        effectsAt .captureOldObject ((r :: rest).map OldObjectCaptureRequest.path) := by
      rintro x rfl
      exact ⟨r.path, List.mem_cons_self, rfl⟩
    have hmore : effectsAt .captureOldObject (rest.map OldObjectCaptureRequest.path) ⊆
        effectsAt .captureOldObject ((r :: rest).map OldObjectCaptureRequest.path) := by
      rintro x ⟨path, hpath, rfl⟩
      exact ⟨path, List.mem_cons_of_mem _ hpath, rfl⟩
    have hanswer := hanswers r List.mem_cons_self
    refine Process.Ensures.bind ((ensures_resumeCapture h hstate
      (fun kind path ended hmem => hfits kind path ended (hone hmem))
      (hrequests r List.mem_cons_self) (hview r List.mem_cons_self)).mono (fun _ _ hx => hx)
        (fun _ _ hconditional => ?_) (fun _ hx => hx)) fun result s₁ hs₁ => ?_
    · rw [hanswer] at hconditional
      refine hformed r ?_ hconditional
      unfold incompleteCapture
      rw [List.find?_cons_of_pos]
      rw [captureSemanticOutcome_conditional_iff.mpr hconditional]
      rfl
    obtain ⟨rfl, l₁, h₁, hstate₁, hsame₁⟩ := hs₁
    rw [hanswer]
    by_cases hcompleted : captureSemanticOutcome A.control r (m (.captureOld r)) = .completed
    · rw [captureFailure_eq_none_iff.mpr hcompleted]
      have hfind : incompleteCapture A.control m (r :: rest) =
          incompleteCapture A.control m rest := by
        unfold incompleteCapture
        rw [List.find?_cons_of_neg (by simp [hcompleted])]
      rw [hfind] at hformed ⊢
      have hne : ∀ x ∈ effectsAt .captureOldObject (rest.map OldObjectCaptureRequest.path),
          x ∉ ({(.captureOldObject, some r.path)} : Set (EffectKind × Option PackagePath)) := by
        rintro x ⟨path, hpath, rfl⟩ hmem
        have hsame : path = r.path := Option.some.inj (Prod.mk.inj hmem).2
        exact hfirst (hsame ▸ hpath)
      have hcapture : ∀ x ∈ rest, l₁.capture x.path = l.capture x.path := by
        intro x hx
        unfold Ledger.capture
        rw [hsame₁ _ _ (hne _ ⟨x.path, List.mem_map_of_mem hx, rfl⟩)]
      refine (ih h₁ (hstate₁.trans hstate)
        (Ledger.Fits.sameBut (fun kind path ended hmem => hfits kind path ended (hmore hmem))
          hsame₁ hne)
        (fun x hx => hrequests x (List.mem_cons_of_mem _ hx)) hrest (fun x hx => ?_)
        (fun x hx => ?_) hformed rfl).mono (fun acc' s' hs' => ?_) (fun _ _ hx => hx)
          (fun _ hx => hx)
      · rw [hview x (List.mem_cons_of_mem _ hx), hcapture x hx]
      · rw [← hanswers x (List.mem_cons_of_mem _ hx)]
        unfold Ledger.captureAnswer
        rw [hcapture x hx]
      · obtain ⟨hfailure, l', h', hstate', hsame'⟩ := hs'
        exact ⟨hfailure, l', h', hstate'.trans hstate₁,
          (hsame₁.mono hone).trans (hsame'.mono hmore)⟩
    · have hfailure : captureFailure A.control r (m (.captureOld r)) =
          some (unstagedDurability ((m (.captureOld r)).outcome == .indeterminate)) :=
        if_neg hcompleted
      have hfind : incompleteCapture A.control m (r :: rest) = some r := by
        unfold incompleteCapture
        rw [List.find?_cons_of_pos (by simp [hcompleted])]
      rw [hfailure, hfind]
      exact Process.ensures_pure.mpr ⟨rfl, l₁, h₁, hstate₁, hsame₁.mono hone⟩

/-! ## Repeated answers -/

/-- What a ledger retains fits its effects, and is what the mechanisms answer. -/
structure Ledger.Repeats (A : AdmittedApplication) (m : Mechanisms) (l : Ledger) : Prop where
  fits : ∀ keys, l.Fits A keys
  captures : ∀ r ∈ A.captures, l.captureAnswer m r = m (.captureOld r)
  staging : A.hasPayloads = true → l.SealAnswer A m (m .sealPayloadStage).result
  synchronizations : ∀ kind domain, synchronizationDomain kind = .ok domain →
    l.synchronizationAnswer m kind domain = m (.synchronize kind domain)

/-- A synchronization is answered again as it was. -/
theorem ensures_synchronizeAgain {staged : DurabilityStatus} {kind : EffectKind}
    {domain : DurabilityDomain} (hrepeats : l.Repeats A m) (h : At A l' s)
    (hstate : l'.state = .preparing) (hslot : l'.slot kind none = l.slot kind none)
    (hkey : A.HasKey kind none) (hdomain : synchronizationDomain kind = .ok domain)
    (hstaged : staged ≠ .notAttempted) (hplace : (m (.synchronize kind domain)).domain = domain)
    (hattempted : (m (.synchronize kind domain)).status ≠ .notAttempted) :
    (resumeSynchronization staged domain kind).Ensures (engineMachine m) s
      (fun status s' => status = l.countAgain kind (m (.synchronize kind domain)).status ∧
        Moved A l' {(kind, none)} s')
      (fun _ _ => False) (fun _ => True) := by
  have hfits : l'.Fits A {(kind, none)} := by
    rintro _ _ ended ⟨⟩ hended
    rw [hslot] at hended
    exact hrepeats.fits _ _ _ _ rfl hended
  have hretained : l'.synchronization kind = l.synchronization kind := by
    unfold Ledger.synchronization
    rw [hslot]
  have hanswer : l'.synchronizationAnswer m kind domain = m (.synchronize kind domain) := by
    rw [← hrepeats.synchronizations kind domain hdomain]
    unfold Ledger.synchronizationAnswer
    rw [hretained]
  refine (ensures_resumeSynchronization h hstate hfits hkey hdomain hstaged).mono
    (fun status s' hs' => ?_) (fun _ _ hx => ?_) (fun _ hx => hx)
  · rw [hanswer, hretained] at hs'
    exact ⟨hs'.1, hs'.2.2⟩
  · rw [hanswer] at hx
    exact hx.elim (fun hmismatch => hmismatch hplace) hattempted

/-! ## Failing again -/

/-- A restart ends with the receipt of a failure. -/
def FailsAgain (A : AdmittedApplication) (m : Mechanisms) (l : Ledger)
    (failure : PreparationFailure) (p : Engine (ApplicationReceipt ⊕ PreparedApplication))
    (s : EngineState) : Prop :=
  p.Ensures (engineMachine m) s
    (fun result _ => ∃ receipt : ApplicationReceipt, result = .inl receipt ∧
      (receipt.durability.incomingStaging, receipt.durability.recoveryStaging) =
        failure.reportedAgain A l)
    (fun _ _ => False) (fun _ => True)

variable {request : ApplicationRequest} {state : LeaseBoundStateProjection}
  {incoming recovery : DurabilityStatus} {evidence : Evidence} {failure : PreparationFailure}

theorem failsAgain_fail (h : At A l' s) (hstate : l'.state = .preparing)
    (hreported : (incoming, recovery) = failure.reportedAgain A l) :
    FailsAgain A m l failure (do
      return .inl (← failPreparation app request state incoming recovery evidence)) s := by
  refine Process.Ensures.bind ((ensures_failPreparation (I := fun _ => True) h hstate
    fun _ _ _ => trivial).mono (fun _ _ hx => hx) (fun _ _ hx => hx) (fun _ hx => hx))
      fun receipt s' hs' => ?_
  refine Process.ensures_pure.mpr ⟨receipt, rfl, ?_⟩
  rw [hs'.1, ← hreported]
  rfl

/-- Recovery staging fails again. -/
theorem failsAgain_recovery {captures : List OldObjectCaptureResult}
    (hrepeats : l.Repeats A m) (h : At A l' s) (hstate : l'.state = .preparing)
    (hslot : l'.slot .synchronizeRecoveryStaging none = l.slot .synchronizeRecoveryStaging none)
    (hfailure : (if A.captures ≠ [] ∧ (recoveryAnswer m).status ≠ .confirmed then
        some (PreparationFailure.recovery (recoveryAnswer m).status) else none) = some failure)
    (hformed : failure.WellFormed A m) (hstaged : incoming = A.staged) :
    FailsAgain A m l failure (do
      let recovery ← resumeSynchronization A.captured .recoveryStaging .synchronizeRecoveryStaging
      if !stagedDurable recovery then
        return .inl (← failPreparation app request state incoming recovery evidence)
      else
        return .inr (← finishPreparation app captures incoming recovery evidence)) s := by
  split at hfailure
  · rename_i hfails
    obtain ⟨hnil, hunconfirmed⟩ := hfails
    cases hfailure
    obtain ⟨-, hplace, hattempted⟩ := hformed
    have hcaptured : A.captured ≠ .notAttempted := by
      unfold AdmittedApplication.captured
      rw [if_neg hnil]
      exact DurabilityStatus.noConfusion
    have hkey : A.HasKey .synchronizeRecoveryStaging none :=
      (AdmittedApplication.hasKey_domain _).mpr (by simpa using hnil)
    refine Process.Ensures.bind (ensures_synchronizeAgain hrepeats h hstate hslot hkey rfl
      hcaptured hplace hattempted) fun status s₁ hs₁ => ?_
    obtain ⟨rfl, l₁, h₁, hstate₁, -⟩ := hs₁
    have hundurable := l.not_stagedDurable_countAgain .synchronizeRecoveryStaging hattempted
      hunconfirmed
    rw [if_pos (by rw [show (m (.synchronize .synchronizeRecoveryStaging
      .recoveryStaging)).status = (recoveryAnswer m).status from rfl, hundurable]; rfl), hstaged]
    exact failsAgain_fail h₁ (hstate₁.trans hstate) rfl
  · cases hfailure

/-- Incoming staging, or else recovery staging, fails again. -/
theorem failsAgain_incoming {captures : List OldObjectCaptureResult} {staged : DurabilityStatus}
    (hrepeats : l.Repeats A m) (h : At A l' s) (hstate : l'.state = .preparing)
    (hincoming : l'.slot .synchronizeIncomingStaging none = l.slot .synchronizeIncomingStaging none)
    (hrecovery : l'.slot .synchronizeRecoveryStaging none = l.slot .synchronizeRecoveryStaging none)
    (hfailure : (if A.hasPayloads = true ∧ (incomingAnswer m).status ≠ .confirmed then
        some (PreparationFailure.incoming (incomingAnswer m).status)
      else if A.captures ≠ [] ∧ (recoveryAnswer m).status ≠ .confirmed then
        some (.recovery (recoveryAnswer m).status)
      else none) = some failure)
    (hformed : failure.WellFormed A m)
    (hstaged : staged = .notAttempted ↔ A.hasPayloads = false) :
    FailsAgain A m l failure (do
      let incoming ← resumeSynchronization staged .incomingStaging .synchronizeIncomingStaging
      if !stagedDurable incoming then
        return .inl (← failPreparation app request state incoming A.captured evidence)
      else
      let recovery ← resumeSynchronization A.captured .recoveryStaging .synchronizeRecoveryStaging
      if !stagedDurable recovery then
        return .inl (← failPreparation app request state incoming recovery evidence)
      else
        return .inr (← finishPreparation app captures incoming recovery evidence)) s := by
  by_cases hpayloads : A.hasPayloads = true
  · have hattempted : staged ≠ .notAttempted := by
      rw [ne_eq, hstaged, hpayloads]
      decide
    have hkey : A.HasKey .synchronizeIncomingStaging none :=
      (AdmittedApplication.hasKey_domain _).mpr hpayloads
    have hplace : (incomingAnswer m).domain = .incomingStaging ∧
        (incomingAnswer m).status ≠ .notAttempted := by
      split at hfailure
      · cases hfailure
        exact hformed
      · rename_i hconfirmed
        rw [not_and, not_not] at hconfirmed
        split at hfailure
        · cases hfailure
          refine ⟨hformed.1 hpayloads, ?_⟩
          rw [hconfirmed hpayloads]
          exact DurabilityStatus.noConfusion
        · cases hfailure
    refine Process.Ensures.bind (ensures_synchronizeAgain hrepeats h hstate hincoming hkey rfl
      hattempted hplace.1 hplace.2) fun status s₁ hs₁ => ?_
    obtain ⟨rfl, l₁, h₁, hstate₁, hsame₁⟩ := hs₁
    change FailsAgain A m l failure (if (!stagedDurable (l.countAgain .synchronizeIncomingStaging
      (incomingAnswer m).status)) = true then _ else _) s₁
    by_cases hconfirmed : (incomingAnswer m).status = .confirmed
    · rw [if_neg fun hx => hx.2 hconfirmed] at hfailure
      change FailsAgain A m l failure (if (!stagedDurable (l.countAgain .synchronizeIncomingStaging
        (m (.synchronize .synchronizeIncomingStaging .incomingStaging)).status)) = true
          then _ else _) s₁
      rw [show (m (.synchronize .synchronizeIncomingStaging .incomingStaging)).status = .confirmed
        from hconfirmed, l.countAgain_confirmed]
      refine failsAgain_recovery hrepeats h₁ (hstate₁.trans hstate) ?_ hfailure hformed
        (if_pos hpayloads).symm
      rw [hsame₁ _ _ (by simp)]
      exact hrecovery
    · rw [if_pos ⟨hpayloads, hconfirmed⟩] at hfailure
      cases hfailure
      rw [if_pos (by rw [l.not_stagedDurable_countAgain _ hplace.2 hconfirmed]; rfl)]
      exact failsAgain_fail h₁ (hstate₁.trans hstate) rfl
  · have hskipped : resumeSynchronization staged .incomingStaging .synchronizeIncomingStaging =
        pure .notAttempted := by
      unfold resumeSynchronization
      exact if_pos (hstaged.mpr (by simpa using hpayloads))
    rw [hskipped]
    rw [if_neg fun hx => hpayloads hx.1] at hfailure
    exact failsAgain_recovery hrepeats h hstate hrecovery hfailure hformed (if_neg hpayloads).symm

theorem captured_eq : (if A.captures.isEmpty then DurabilityStatus.notAttempted else .visible) =
    A.captured := by
  unfold AdmittedApplication.captured
  simp only [List.isEmpty_iff]

/-- The effects of preparation other than captures and staging stay as they were. -/
theorem Ledger.SameBut.staged {l₁ l₂ : Ledger} {paths : List PackagePath}
    (h : SameBut (effectsAt .captureOldObject paths) l l₁)
    (h' : SameBut (effectsOf .stageIncomingPayload) l₁ l₂) {kind : EffectKind}
    (hcapture : kind ≠ .captureOldObject) (hstage : kind ≠ .stageIncomingPayload)
    (path : Option PackagePath) : l₂.slot kind path = l.slot kind path := by
  rw [h' kind path hstage]
  refine h kind path ?_
  rintro ⟨p, -, hp⟩
  exact hcapture (Prod.mk.inj hp).1

/-- How a restart counts the seal of its staging, if there is anything to stage. -/
def stagedAgain (A : AdmittedApplication) (m : Mechanisms) : DurabilityStatus :=
  if A.hasPayloads = true then restagedDurability (m .sealPayloadStage).result else .notAttempted

/-- A stage is sealed again as it was. -/
theorem ensures_stageAgain (hrepeats : l.Repeats A m) (h : At A l' s)
    (hstate : l'.state = .preparing)
    (hslots : ∀ path, l'.slot .stageIncomingPayload path = l.slot .stageIncomingPayload path)
    (happ : app.Holds A)
    (hseal : ∀ result, view.incomingPayload = some result ↔ l.RetainsSeal result)
    (hformed : A.hasPayloads = true → (m .sealPayloadStage).result.outcome ≠ .conditionalRetained) :
    (resumeStaging app view).Ensures (engineMachine m) s
      (fun result s' => result.1 = stagedAgain A m ∧
        Moved A l' (effectsOf .stageIncomingPayload) s')
      (fun _ _ => False) (fun _ => True) := by
  unfold stagedAgain
  by_cases hpayloads : A.hasPayloads = true
  · have hfits : l'.Fits A (effectsOf .stageIncomingPayload) := by
      rintro kind path ended hmem hended
      rw [show kind = .stageIncomingPayload from hmem] at hended ⊢
      rw [hslots] at hended
      exact hrepeats.fits (effectsOf .stageIncomingPayload) _ _ _ rfl hended
    have hanswer : l'.SealAnswer A m (m .sealPayloadStage).result := by
      have hanswer := hrepeats.staging hpayloads
      unfold Ledger.SealAnswer Ledger.StageDecided Ledger.StageFailed Ledger.StageCompleted
        Ledger.RetainsSeal at hanswer ⊢
      simpa only [hslots] using hanswer
    have hview : ∀ result, view.incomingPayload = some result ↔ l'.RetainsSeal result := by
      intro result
      rw [hseal]
      unfold Ledger.RetainsSeal
      simp only [hslots]
    rw [if_pos hpayloads]
    exact (ensures_resumeStaging h hstate hfits happ hpayloads hview hanswer).mono
      (fun _ _ hx => hx) (fun _ _ hx => hformed hpayloads hx) (fun _ hx => hx)
  · rw [if_neg hpayloads, resumeStaging_eq happ hpayloads]
    exact ensures_history (Process.ensures_pure.mpr ⟨rfl, h.moved _⟩)

/-- A restarted preparation fails again. -/
theorem failsAgain_resumePreparing (hrepeats : l.Repeats A m) (h : At A l s)
    (hstate : l.state = .preparing) (happ : app.Holds A)
    (hcaptures : ∀ path, view.findCapture path = l.capture path)
    (hseal : ∀ result, view.incomingPayload = some result ↔ l.RetainsSeal result)
    (hfailure : preparationFailure A m = some failure) (hformed : failure.WellFormed A m) :
    FailsAgain A m l failure (resumePreparing app view A.request state evidence) s := by
  unfold resumePreparing
  rw [happ.captures]
  refine Process.Ensures.bind (ensures_resumeCaptures h hstate (hrepeats.fits _) (fun _ hr => hr)
    A.captures_nodup (fun r _ => hcaptures r.path) (fun r hr => hrepeats.captures r hr)
    (fun r hincomplete => ?_) rfl) fun captures s₁ hs₁ => ?_
  · have hcapture : preparationFailure A m = some (.capture (m (.captureOld r))) := by
      simp only [preparationFailure, hincomplete]
    cases hfailure.symm.trans hcapture
    exact hformed
  obtain ⟨hended, l₁, h₁, hstate₁, hsame₁⟩ := hs₁
  rw [hended]
  cases hincomplete : incompleteCapture A.control m A.captures with
  | some r =>
    have hcapture : preparationFailure A m = some (.capture (m (.captureOld r))) := by
      simp only [preparationFailure, hincomplete]
    cases hfailure.symm.trans hcapture
    exact failsAgain_fail h₁ (hstate₁.trans hstate) rfl
  | none =>
    rw [preparationFailure_of_captured hincomplete] at hfailure
    dsimp only [Option.map_none]
    simp only [captured_eq]
    have hslots : ∀ path, l₁.slot .stageIncomingPayload path = l.slot .stageIncomingPayload path := by
      intro path
      refine hsame₁ _ path ?_
      rintro ⟨p, -, hp⟩
      cases (Prod.mk.inj hp).1
    refine Process.Ensures.bind (ensures_stageAgain hrepeats h₁ (hstate₁.trans hstate) hslots happ
      hseal fun hpayloads hconditional => ?_) fun result s₂ hs₂ => ?_
    · rw [if_pos ⟨hpayloads, by rw [hconditional]; exact BackendOperationOutcome.noConfusion⟩]
        at hfailure
      cases hfailure
      exact hformed hconditional
    obtain ⟨hresult, l₂, h₂, hstate₂, hsame₂⟩ := hs₂
    rw [hresult]
    have hkept : ∀ kind, kind ≠ .captureOldObject → kind ≠ .stageIncomingPayload →
        l₂.slot kind none = l.slot kind none :=
      fun kind hcapture hstage => Ledger.SameBut.staged hsame₁ hsame₂ hcapture hstage none
    by_cases hfailed : A.hasPayloads = true ∧ (m .sealPayloadStage).result.outcome ≠ .completed
    · rw [if_pos hfailed] at hfailure
      cases hfailure
      have hstaged : stagedAgain A m =
          unstagedDurability ((m .sealPayloadStage).result.outcome == .indeterminate) := by
        unfold stagedAgain restagedDurability
        rw [if_pos hfailed.1, if_neg hfailed.2]
      have hincomplete : stagedAgain A m ≠ .notAttempted ∧ stagedAgain A m ≠ .visible := by
        rw [hstaged]
        unfold unstagedDurability
        split <;> exact ⟨DurabilityStatus.noConfusion, DurabilityStatus.noConfusion⟩
      rw [if_pos hincomplete, hstaged]
      exact failsAgain_fail h₂ (by rw [hstate₂, hstate₁, hstate]) rfl
    · rw [if_neg hfailed] at hfailure
      have hstaged : ¬(stagedAgain A m ≠ .notAttempted ∧ stagedAgain A m ≠ .visible) ∧
          (stagedAgain A m = .notAttempted ↔ A.hasPayloads = false) := by
        unfold stagedAgain
        by_cases hpayloads : A.hasPayloads = true
        · have hdone : (m .sealPayloadStage).result.outcome = .completed := by
            by_contra hnot
            exact hfailed ⟨hpayloads, hnot⟩
          simp [restagedDurability, hdone, hpayloads]
        · simp [hpayloads]
      rw [if_neg hstaged.1]
      exact failsAgain_incoming hrepeats h₂ (by rw [hstate₂, hstate₁, hstate])
        (hkept _ EffectKind.noConfusion EffectKind.noConfusion)
        (hkept _ EffectKind.noConfusion EffectKind.noConfusion) hfailure hformed hstaged.2

/-- A restarted preparation whose preconditions still hold fails again. -/
theorem failsAgain_resumePreparation {check : PreconditionCheck} (hrepeats : l.Repeats A m)
    (h : At A l s) (hstate : l.state = .preparing) (happ : app.Holds A)
    (hcaptures : ∀ path, view.findCapture path = l.capture path)
    (hseal : ∀ result, view.incomingPayload = some result ↔ l.RetainsSeal result)
    (hcheck : PreconditionCheck.make A.plan.preconditions
      (m (.observe .preconditions (A.plan.preconditions.map PathPrecondition.path))) = .ok check)
    (hsatisfied : check.satisfied = true)
    (hfailure : preparationFailure A m = some failure) (hformed : failure.WellFormed A m) :
    FailsAgain A m l failure (resumePreparation app view A.request state) s := by
  refine ensures_history ?_
  rw [if_neg (by rw [h.state_eq, hstate]; exact not_not.mpr rfl)]
  unfold observePreconditions
  rw [bind_assoc]
  refine ensures_mechanism h trivial fun s₁ h₁ => ⟨trivial, ?_⟩
  refine ensures_ok hcheck ?_
  rw [hsatisfied]
  exact failsAgain_resumePreparing hrepeats h₁ hstate happ hcaptures hseal hfailure hformed

end Restarted

/-! ## Cuts of a preparation -/

section Cuts

variable {A : AdmittedApplication} {m : Mechanisms} {s : EngineState}

/-- A journal answered by one backend repeats its answers. -/
theorem Logged.repeats {last : Option EngineCall} (h : Logged A last s)
    (hreceipt : s.history.receipt = none) (hfits : s.history.Fitting A)
    (hanswered : Answered (fun m' => m' = m) s.log) : s.history.ledger.Repeats A m := by
  have hanswer : ∀ (request : MechanismRequest) (response : request.Response),
      (⟨.mechanism request, response⟩ : EngineCall) ∈ s.log → m request = response := by
    intro request response hcall
    obtain ⟨_, rfl, hresponse⟩ := hanswered request response hcall
    exact hresponse
  refine ⟨(h.at_ledger hreceipt).fits hfits, fun r hr => ?_, fun hpayloads => ?_,
    fun kind domain hdomain => ?_⟩
  · cases hended : (s.history.slot .captureOldObject (some r.path)).ended with
    | none =>
      refine Ledger.captureAnswer_of_none ?_
      unfold Ledger.capture Slot.fact
      rw [JournalHistory.ledger_slot, hended]
      rfl
    | some ended =>
      obtain ⟨captured, hcapture, -, hcall⟩ := h.ended_capture hr hended
      rw [Ledger.captureAnswer_of_some hcapture, hanswer _ _ hcall]
  · by_cases hdecided : s.history.ledger.StageDecided A
    · obtain ⟨path, ended, hended⟩ := hdecided.exists_ended hpayloads
      obtain ⟨-, stage, hcall, hfact, -⟩ := h.ended_staging hended
      refine .inl ⟨hdecided, path, ?_⟩
      rw [JournalHistory.ledger_slot, hfact, hanswer _ _ hcall]
    · exact .inr ⟨hdecided, rfl⟩
  · unfold Ledger.synchronizationAnswer
    cases hretained : s.history.ledger.synchronization kind with
    | none => rfl
    | some fact =>
      obtain ⟨retained, hfact, hread⟩ := Option.bind_eq_some_iff.mp hretained
      obtain rfl : retained = .synchronization fact := by
        cases retained <;> cases hread
        rfl
      obtain ⟨ended, hended, -⟩ := Option.bind_eq_some_iff.mp hfact
      obtain ⟨fact', hretained', hplace, -⟩ :=
        ((h.at_ledger hreceipt).fits hfits _).synchronization hdomain hended
      cases hretained.symm.trans hretained'
      have hcall : Returned s.log kind none (.synchronization fact) :=
        h.returned ((h.appended.slot_fact_iff h.declares.keyed).mp hfact)
      subst hplace
      exact (hanswer _ _ hcall).symm

/-- Seals of one backend agree. -/
theorem Logged.sealsAgree {last : Option EngineCall} (h : Logged A last s)
    (hanswered : Answered (fun m' => m' = m) s.log) : s.history.SealsAgree := by
  intro path path' result result' hretains hretains'
  obtain ⟨stage, hcall, rfl⟩ := h.returned hretains
  obtain ⟨stage', hcall', rfl⟩ := h.returned hretains'
  obtain ⟨_, rfl, rfl⟩ := hanswered _ _ hcall
  obtain ⟨_, rfl, rfl⟩ := hanswered _ _ hcall'
  rfl

/-- What an uninterrupted preparation is cut at repeats its answers, and has a
view where its lists are readable. -/
theorem repeats_of_cut (hcut : s ∈ (prepareApplication (A.journaled A.projection) A.request
    A.projection).cuts (engineMachine m) A.start) (hstate : s.history.state = .preparing) :
    (At A s.history.ledger s ∧ s.history.ledger.Repeats A m) ∧
      ((∃ view, buildView s.history A.request = .ok view) ↔ s.history.Readable) ∧
      ∀ view, buildView s.history A.request = .ok view → view.Recalls s.history := by
  have hstart : Logged A none A.start := .start A
  obtain ⟨last, hlogged⟩ :=
    (hstart.ensures (orderly_prepareApplication
      (show (A.journaled A.projection).captures = A.captures from rfl) A.projection)).cut s hcut
  have hanswered : Answered (fun m' => m' = m) s.log := by
    refine (Answered.ensures (R := fun m' => m' = m) rfl _ (s := A.start) ?_).cut s hcut
    exact fun _ _ hcall => by cases hcall
  have hvetted : Vetted A m s := prepares_prepareApplication.cut s hcut
  have hfits := hlogged.fitting (hvetted.checked.inPlace hlogged.appended hlogged.declares)
  have hreceipt := hvetted.unsealed hstate
  refine ⟨⟨hlogged.at_ledger hreceipt, hlogged.repeats hreceipt hfits hanswered⟩, ?_, ?_⟩
  · rw [buildView_ok_iff hlogged.appended hlogged.declares hfits]
    exact and_iff_right (hlogged.sealsAgree hanswered)
  · intro view hview
    exact (hlogged.view hview).2.2

/-- A restart from the cut `s` seals a receipt with the statuses of staging of
`receipt`. -/
def AdmittedApplication.ReportsAlike (A : AdmittedApplication) (m : Mechanisms)
    (projection : LeaseBoundStateProjection) (s : EngineState) (receipt : ApplicationReceipt) :
    Prop :=
  ∃ view again s', buildView s.history A.request = .ok view ∧
    (resumePreparation (A.journaled projection) view A.request projection).eval
      (engineMachine m) s = (.ok (.inl again), s') ∧
    again.durability.incomingStaging = receipt.durability.incomingStaging ∧
    again.durability.recoveryStaging = receipt.durability.recoveryStaging

/-- A preparation that fails is cut anywhere and restarted under the same answers
while its preconditions hold.  Where the lists of the journal are readable the
restart fails again, and it reports the same statuses of staging exactly where
moreover the failure is counted alike. -/
theorem AdmittedApplication.preparation_failure_alike (A : AdmittedApplication) (m : Mechanisms)
    {receipt : ApplicationReceipt} {s ended : EngineState} {check : PreconditionCheck}
    {projection : LeaseBoundStateProjection}
    (hfailed : (prepareApplication (A.journaled A.projection) A.request A.projection).eval
      (engineMachine m) A.start = (.ok (.inl receipt), ended))
    (hcut : s ∈ (prepareApplication (A.journaled A.projection) A.request A.projection).cuts
      (engineMachine m) A.start)
    (hstate : s.history.state = .preparing)
    (hcheck : PreconditionCheck.make A.plan.preconditions
      (m (.observe .preconditions (A.plan.preconditions.map PathPrecondition.path))) = .ok check)
    (hsatisfied : check.satisfied = true) :
    ∃ failure, preparationFailure A m = some failure ∧
      (s.history.Readable → ∃ view again s', buildView s.history A.request = .ok view ∧
        (resumePreparation (A.journaled projection) view A.request projection).eval
          (engineMachine m) s = (.ok (.inl again), s')) ∧
      (A.ReportsAlike m projection s receipt ↔
        s.history.Readable ∧ failure.Alike s.history.ledger) := by
  obtain ⟨failure, hfailure, hformed, hreported⟩ :=
    (prepares_prepareApplication.returned _ _ hfailed).1
  obtain ⟨⟨hat, hrepeats⟩, hreadable, hrecalls⟩ := repeats_of_cut hcut hstate
  -- under any view the restart fails again, and what it reports is determined
  have hagain (view : RestartView) (hview : buildView s.history A.request = .ok view) :
      ∃ again s', (resumePreparation (A.journaled projection) view A.request projection).eval
          (engineMachine m) s = (.ok (.inl again), s') ∧
        ((again.durability.incomingStaging = receipt.durability.incomingStaging ∧
          again.durability.recoveryStaging = receipt.durability.recoveryStaging) ↔
            failure.Alike s.history.ledger) := by
    have hrecalls := hrecalls view hview
    have hfails : FailsAgain A m s.history.ledger failure
        (resumePreparation (A.journaled projection) view A.request projection) s :=
      failsAgain_resumePreparation hrepeats hat hstate ⟨rfl, rfl, rfl⟩ hrecalls.captures
        (fun _ => hrecalls.retainsSeal_iff hat) hcheck hsatisfied hfailure hformed
    obtain ⟨result, s', hrun, again, rfl, hagain⟩ := Process.Ensures.returns hfails
    refine ⟨again, s', hrun, ?_⟩
    rw [← PreparationFailure.reportedAgain_eq_iff s.history.ledger hformed, ← hagain, ← hreported,
      Prod.mk.injEq]
  refine ⟨failure, hfailure, ?_, ?_, ?_⟩
  · intro hlists
    obtain ⟨view, hview⟩ := hreadable.mpr hlists
    obtain ⟨again, s', hrun, -⟩ := hagain view hview
    exact ⟨view, again, s', hview, hrun⟩
  · rintro ⟨view, again, s', hview, hrun, hsame⟩
    obtain ⟨again', s'', hrun', halike⟩ := hagain view hview
    cases hrun.symm.trans hrun'
    exact ⟨hreadable.mp ⟨view, hview⟩, halike.mp hsame⟩
  · rintro ⟨hlists, halike⟩
    obtain ⟨view, hview⟩ := hreadable.mpr hlists
    obtain ⟨again, s', hrun, hsame⟩ := hagain view hview
    exact ⟨view, again, s', hview, hrun, hsame.mpr halike⟩

end Cuts

/-! ## A capture that fails -/

section FailedCapture

private theorem inexact_failed : false = true →
    BackendOperationOutcome.failed = BackendOperationOutcome.completed := by
  rintro ⟨⟩

/-- A backend that cannot capture the directory. -/
private def uncaptured : Mechanisms
  | .captureOld _ =>
    ⟨.failed, .present AdmittedApplication.removalObject, false, ∅, by decide, inexact_failed⟩
  | request => AdmittedApplication.removalMechanisms .completed .completed .confirmed request

private def failedAttempt : AdmittedApplication := .removal .exactPriorState .allApplicationDomains

private def failedPreparation : Engine (ApplicationReceipt ⊕ PreparedApplication) :=
  prepareApplication (failedAttempt.journaled failedAttempt.projection) failedAttempt.request
    failedAttempt.projection

private def failedCuts : List EngineState :=
  failedPreparation.cuts (engineMachine uncaptured) failedAttempt.start

private theorem failedCuts_isSome : failedCuts[5]?.isSome = true := by decide +kernel

/-- The preparation of the removal, cut after the terminal event of its capture. -/
def failedRemoval : EngineState := failedCuts[5]?.get failedCuts_isSome

private theorem failedRemoval_mem : failedRemoval ∈ failedCuts :=
  List.mem_of_getElem? (Option.some_get failedCuts_isSome).symm

private theorem failedPreparation_fails : ∃ receipt ended,
    failedPreparation.eval (engineMachine uncaptured) failedAttempt.start =
      (.ok (.inl receipt), ended) := by
  have hfails : (match (failedPreparation.eval (engineMachine uncaptured) failedAttempt.start).1 with
      | .ok (.inl _) => true
      | _ => false) = true := by decide +kernel
  cases hrun : failedPreparation.eval (engineMachine uncaptured) failedAttempt.start with
  | mk result ended =>
    rw [hrun] at hfails
    rcases result with e | receipt | prepared
    · cases hfails
    · exact ⟨receipt, ended, rfl⟩
    · cases hfails

private theorem satisfied_failedAttempt : ∃ check, PreconditionCheck.make
    failedAttempt.plan.preconditions (uncaptured (.observe .preconditions
      (failedAttempt.plan.preconditions.map PathPrecondition.path))) = .ok check ∧
        check.satisfied = true := by
  have hok : (match PreconditionCheck.make failedAttempt.plan.preconditions
      (uncaptured (.observe .preconditions
        (failedAttempt.plan.preconditions.map PathPrecondition.path))) with
      | .ok check => check.satisfied
      | .error _ => false) = true := by decide +kernel
  cases hmake : PreconditionCheck.make failedAttempt.plan.preconditions
      (uncaptured (.observe .preconditions
        (failedAttempt.plan.preconditions.map PathPrecondition.path))) with
  | error e =>
    rw [hmake] at hok
    cases hok
  | ok check =>
    rw [hmake] at hok
    exact ⟨check, rfl, hok⟩

private theorem failedRemoval_preparing : failedRemoval.history.state = .preparing := by
  decide +kernel

private theorem failedRemoval_readable : failedRemoval.history.Readable := by
  have hseed : SeedWithin failedRemoval.history.declaration.replaySeed := by
    unfold SeedWithin
    decide +kernel
  exact ⟨hseed, by unfold JournalHistory.FactsWithin; decide +kernel⟩

/-- A failed capture is reported as indeterminate by the preparation it ends,
and as unconfirmed by a restart. -/
theorem not_preparation_failure_alike : ¬∀ (A : AdmittedApplication) (m : Mechanisms)
    (receipt again : ApplicationReceipt) (s ended s' : EngineState) (check : PreconditionCheck)
    (projection : LeaseBoundStateProjection) (view : RestartView),
    (prepareApplication (A.journaled A.projection) A.request A.projection).eval
      (engineMachine m) A.start = (.ok (.inl receipt), ended) →
    s ∈ (prepareApplication (A.journaled A.projection) A.request A.projection).cuts
      (engineMachine m) A.start →
    s.history.state = .preparing →
    (∃ kind path, (s.history.slot kind path).ended.isSome = true) →
    PreconditionCheck.make A.plan.preconditions
      (m (.observe .preconditions (A.plan.preconditions.map PathPrecondition.path))) = .ok check →
    check.satisfied = true →
    buildView s.history A.request = .ok view →
    (resumePreparation (A.journaled projection) view A.request projection).eval
      (engineMachine m) s = (.ok (.inl again), s') →
        again.durability.incomingStaging = receipt.durability.incomingStaging ∧
          again.durability.recoveryStaging = receipt.durability.recoveryStaging := by
  intro hall
  obtain ⟨receipt, ended, hrun⟩ := failedPreparation_fails
  obtain ⟨check, hcheck, hsatisfied⟩ := satisfied_failedAttempt
  obtain ⟨failure, hfailure, hformed, hreported⟩ :=
    (prepares_prepareApplication.returned _ _ hrun).1
  obtain ⟨⟨hat, hrepeats⟩, hreadable, hrecalls⟩ :=
    repeats_of_cut failedRemoval_mem failedRemoval_preparing
  obtain ⟨view, hview⟩ := hreadable.mpr failedRemoval_readable
  have hrecalls := hrecalls view hview
  have hfails : FailsAgain failedAttempt uncaptured failedRemoval.history.ledger failure
      (resumePreparation (failedAttempt.journaled failedAttempt.projection) view
        failedAttempt.request failedAttempt.projection) failedRemoval :=
    failsAgain_resumePreparation hrepeats hat failedRemoval_preparing ⟨rfl, rfl, rfl⟩
      hrecalls.captures (fun _ => hrecalls.retainsSeal_iff hat) hcheck hsatisfied hfailure hformed
  obtain ⟨result, s', hagain, again, rfl, hstatuses⟩ := Process.Ensures.returns hfails
  have hended : ∃ kind path, (failedRemoval.history.slot kind path).ended.isSome = true :=
    ⟨.captureOldObject, some AdmittedApplication.removalPath, by decide +kernel⟩
  have halike := hall _ _ _ _ _ _ _ _ _ _ hrun failedRemoval_mem failedRemoval_preparing hended
    hcheck hsatisfied hview hagain
  have hcapture : preparationFailure failedAttempt uncaptured = some (.capture
      ⟨.failed, .present AdmittedApplication.removalObject, false, ∅, by decide, by decide⟩) := by
    decide +kernel
  cases hfailure.symm.trans hcapture
  rw [← Prod.mk.injEq, hstatuses, hreported, PreparationFailure.reportedAgain_eq_iff _ hformed]
    at halike
  cases halike

theorem preparation_failure_alike_removal : ∃ receipt ended failure,
    failedPreparation.eval (engineMachine uncaptured) failedAttempt.start =
        (.ok (.inl receipt), ended) ∧
      preparationFailure failedAttempt uncaptured = some failure ∧
      (failedRemoval.history.Readable → ∃ view again s',
        buildView failedRemoval.history failedAttempt.request = .ok view ∧
        (resumePreparation (failedAttempt.journaled failedAttempt.projection) view
          failedAttempt.request failedAttempt.projection).eval (engineMachine uncaptured)
            failedRemoval = (.ok (.inl again), s')) ∧
      (failedAttempt.ReportsAlike uncaptured failedAttempt.projection failedRemoval receipt ↔
        failedRemoval.history.Readable ∧ failure.Alike failedRemoval.history.ledger) := by
  obtain ⟨receipt, ended, hrun⟩ := failedPreparation_fails
  obtain ⟨check, hcheck, hsatisfied⟩ := satisfied_failedAttempt
  obtain ⟨failure, hfailure, hagain, halike⟩ :=
    AdmittedApplication.preparation_failure_alike failedAttempt uncaptured hrun
      failedRemoval_mem failedRemoval_preparing hcheck hsatisfied
  exact ⟨receipt, ended, failure, hrun, hfailure, hagain, halike⟩

end FailedCapture

end PkgApply
