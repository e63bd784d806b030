import PkgApply.Restart.Answers

/-!
# Preparation that is not resumed

The operations of an uninterrupted preparation check every answer before they
journal it, so what they leave behind is checked.
-/

namespace PkgApply

open Library

/-! ## Checked ledgers -/

/-- Every retained capture passed the check of the engine, and so did the
stage whose seal is retained. -/
structure Ledger.Checked (A : AdmittedApplication) (m : Mechanisms) (l : Ledger) : Prop where
  captures : ∀ r ∈ A.captures, ∀ captured, l.capture r.path = some captured →
    validateCaptured A.observations r captured = .ok ()
  sealing : ∀ sealed, l.RetainsSeal sealed →
    ((m .sealPayloadStage).result.outcome == .completed) = (m .sealPayloadStage).sealed

section Checked

variable {A : AdmittedApplication} {m : Mechanisms} {l l' : Ledger} {s : EngineState}

theorem Ledger.intend_fact (l : Ledger) (state : JournalState) (kind kind' : EffectKind)
    (path path' : Option PackagePath) :
    ((l.intend state kind path).slot kind' path').fact =
      if kind' = kind ∧ path' = path then none else (l.slot kind' path').fact := by
  split
  · rename_i hkey
    obtain ⟨rfl, rfl⟩ := hkey
    simp
  · rename_i hkey
    rw [intend_slot_of_ne _ _ hkey]

theorem Ledger.finish_fact (l : Ledger) (state : JournalState) (kind kind' : EffectKind)
    (path path' : Option PackagePath) (ended : Ended) :
    ((l.finish state kind path ended).slot kind' path').fact =
      if kind' = kind ∧ path' = path then ended.fact else (l.slot kind' path').fact := by
  split
  · rename_i hkey
    obtain ⟨rfl, rfl⟩ := hkey
    simp
  · rename_i hkey
    rw [finish_slot_of_ne _ _ _ hkey]

theorem Ledger.Checked.intend (h : l.Checked A m) (state : JournalState) (kind : EffectKind)
    (path : Option PackagePath) : (l.intend state kind path).Checked A m := by
  refine ⟨fun r hr captured hcaptured => ?_, fun sealed hsealed => ?_⟩
  · unfold Ledger.capture at hcaptured
    rw [Ledger.intend_fact] at hcaptured
    split at hcaptured
    · cases hcaptured
    · exact h.captures r hr captured hcaptured
  · obtain ⟨p, hfact⟩ := hsealed
    rw [Ledger.intend_fact] at hfact
    split at hfact
    · cases hfact
    · exact h.sealing sealed ⟨p, hfact⟩

/-- A terminal event keeps a ledger checked if what it retains is. -/
theorem Ledger.Checked.finish (h : l.Checked A m) (state : JournalState) {kind : EffectKind}
    {path : Option PackagePath} {ended : Ended}
    (hcapture : kind = .captureOldObject → ∀ r ∈ A.captures, path = some r.path →
      ∀ captured, ended.fact = some (.capture captured) →
        validateCaptured A.observations r captured = .ok ())
    (hseal : kind = .stageIncomingPayload →
      ((m .sealPayloadStage).result.outcome == .completed) = (m .sealPayloadStage).sealed) :
    (l.finish state kind path ended).Checked A m := by
  refine ⟨fun r hr captured hcaptured => ?_, fun sealed hsealed => ?_⟩
  · unfold Ledger.capture at hcaptured
    rw [Ledger.finish_fact] at hcaptured
    split at hcaptured
    · rename_i hkey
      obtain ⟨fact, hfact, hread⟩ := Option.bind_eq_some_iff.mp hcaptured
      refine hcapture hkey.1.symm r hr hkey.2.symm captured ?_
      rw [hfact]
      cases fact <;> cases hread
      rfl
    · exact h.captures r hr captured hcaptured
  · obtain ⟨p, hfact⟩ := hsealed
    rw [Ledger.finish_fact] at hfact
    split at hfact
    · rename_i hkey
      exact hseal hkey.1.symm
    · exact h.sealing sealed ⟨p, hfact⟩

theorem Ledger.Checked.initial : Ledger.initial.Checked A m := by
  refine ⟨fun r hr captured hcaptured => ?_, fun sealed hsealed => ?_⟩
  · cases hcaptured
  · obtain ⟨p, hfact⟩ := hsealed
    cases hfact

theorem hasKey_capture_iff {path : Option PackagePath} :
    A.HasKey .captureOldObject path ↔ ∃ r ∈ A.captures, path = some r.path := by
  constructor
  · intro hkey
    cases path with
    | none => exact ((AdmittedApplication.hasKey_domain _).mp hkey).elim
    | some p =>
      rcases AdmittedApplication.hasKey_some hkey with ⟨stepKind, step, hstep, hkind, rfl⟩ | ⟨hkind, -⟩
      · cases stepKind <;> cases hkind
        rw [AdmittedApplication.steps_capture] at hstep
        obtain ⟨r, hr, rfl⟩ := List.mem_map.mp hstep
        exact ⟨r, hr, rfl⟩
      · cases hkind
  · rintro ⟨r, hr, rfl⟩
    exact hasKey_capture hr

/-- Staging effects are declared for the steps of a payload closure. -/
theorem hasKey_stage_iff {path : Option PackagePath} :
    A.HasKey .stageIncomingPayload path ↔
      ∃ step ∈ A.steps .stageRegularPayload, path = some step.path := by
  constructor
  · intro hkey
    cases path with
    | none => exact ((AdmittedApplication.hasKey_domain _).mp hkey).elim
    | some p =>
      rcases AdmittedApplication.hasKey_some hkey with ⟨stepKind, step, hstep, hkind, rfl⟩ | ⟨hkind, -⟩
      · cases stepKind <;> cases hkind
        exact ⟨step, hstep, rfl⟩
      · cases hkind
  · rintro ⟨step, hstep, rfl⟩
    exact AdmittedApplication.hasKey_step hstep

theorem exists_stage_step (hpayloads : A.hasPayloads = true) :
    ∃ step, step ∈ A.steps .stageRegularPayload := by
  refine List.exists_mem_of_length_pos ?_
  rw [A.steps_stage_length]
  unfold AdmittedApplication.hasPayloads at hpayloads
  cases hpayload : A.payloads with
  | none => simp [hpayload] at hpayloads
  | some payloads =>
    have hlength : payloads.selection.length ≠ 0 := by simpa [hpayload] using hpayloads
    simpa using Nat.pos_of_ne_zero hlength

theorem validateCaptured_eq_ok {r : OldObjectCaptureRequest} {captured : OldObjectCaptureResult}
    (h : validateCaptured A.observations r captured = .ok ()) :
    ∃ observed, A.observations.find r.path = some observed ∧ captured.captured.path = r.path ∧
      (captured.outcome = .completed → captured.captured = observed) := by
  unfold validateCaptured at h
  cases hfind : A.observations.find r.path with
  | none =>
    rw [hfind] at h
    cases h
  | some observed =>
    rw [hfind] at h
    dsimp only at h
    rw [refuseIf_bind_eq_ok, refuseIf_eq_ok, not_not, not_and, not_not] at h
    exact ⟨observed, rfl, h⟩

/-- Checked captures are in place. -/
theorem Ledger.Checked.inPlace {h : JournalHistory} (hchecked : h.ledger.Checked A m)
    (hr : JournalHistory.Appended h) (hd : A.Declares h) : h.InPlace := by
  intro path captured hretains
  have hfact := (hr.slot_fact_iff hd.keyed).mpr hretains
  obtain ⟨step, hstep, e, he, -, hkind, rfl, -⟩ := hretains
  have hkey := AdmittedApplication.hasKey_of_mem hd (hr.declared step hstep e he)
  rw [hkind] at hkey
  obtain ⟨r, hrequest, hpath⟩ := hasKey_capture_iff.mp hkey
  rw [hpath] at hfact ⊢
  have hcaptured : h.ledger.capture r.path = some captured := by
    unfold Ledger.capture
    rw [JournalHistory.ledger_slot, hfact]
    rfl
  obtain ⟨-, -, hplace, -⟩ := validateCaptured_eq_ok (hchecked.captures r hrequest captured hcaptured)
  rw [hplace]

end Checked

/-! ## Where an uninterrupted preparation may be cut -/

/-- What the journal retains is checked, and no receipt is sealed before
preparation ends. -/
structure Vetted (A : AdmittedApplication) (m : Mechanisms) (s : EngineState) : Prop where
  checked : s.history.ledger.Checked A m
  unsealed : s.history.state = .preparing → s.history.receipt = none

/-- The engine stands in preparation where only the slots of some effects have
moved, and what they retain is checked. -/
def MovedChecked (A : AdmittedApplication) (m : Mechanisms) (l : Ledger)
    (keys : Set (EffectKind × Option PackagePath)) (s : EngineState) : Prop :=
  ∃ l', At A l' s ∧ l'.state = .preparing ∧ l'.Checked A m ∧ Ledger.SameBut keys l l'

section Fresh

variable {A : AdmittedApplication} {m : Mechanisms} {l : Ledger} {s : EngineState}
  {app : JournaledApplication}

theorem At.checked (h : At A l s) (hchecked : l.Checked A m) : Vetted A m s :=
  ⟨h.ledger.symm ▸ hchecked, fun _ => h.receipt⟩

/-- A capture is checked before its terminal event. -/
theorem ensures_captureOldObject {r : OldObjectCaptureRequest} (h : At A l s)
    (hstate : l.state = .preparing) (hchecked : l.Checked A m)
    (happ : app.observations = A.observations) (hr : r ∈ A.captures)
    (hslot : l.slot .captureOldObject (some r.path) = .untouched) :
    (captureOldObject app A.control r).Ensures (engineMachine m) s
      (fun captured s' => captured = m (.captureOld r) ∧
        validateCaptured A.observations r captured = .ok () ∧
        captured.outcome ≠ .conditionalRetained ∧
        MovedChecked A m l {(.captureOldObject, some r.path)} s')
      (fun _ s' => (validateCaptured A.observations r (m (.captureOld r)) ≠ .ok () ∨
        (m (.captureOld r)).outcome = .conditionalRetained) ∧ Vetted A m s')
      (Vetted A m) := by
  have hedge : stateMayFollow l.state .preparing = true := by rw [hstate, stateMayFollow_self]
  refine ensures_history (ensures_find h (hasKey_capture hr) fun e he hkind hpath => ?_)
  refine ensures_intent h he (by rwa [hkind, hpath]) hedge rfl (h.checked hchecked) fun s₁ h₁ =>
    ⟨h₁.checked (hchecked.intend _ _ _), ?_⟩
  have hchecked₁ := hchecked.intend .preparing e.kind e.path
  refine ensures_mechanism h₁ (h₁.checked hchecked₁) fun s₂ h₂ => ⟨h₂.checked hchecked₁, ?_⟩
  rw [happ]
  cases hvalid : validateCaptured A.observations r (m (.captureOld r)) with
  | error x =>
    exact ensures_error rfl ⟨.inl (by simp), h₂.checked hchecked₁⟩
  | ok u =>
    refine ensures_ok rfl ?_
    by_cases hconditional : (m (.captureOld r)).outcome = .conditionalRetained
    · refine ensures_error (e := .logicError "backend returned an unsupported conditional outcome")
        ?_ ⟨.inr hconditional, h₂.checked hchecked₁⟩
      rw [captureSemanticOutcome_conditional_iff.mpr hconditional]
      rfl
    obtain ⟨terminal, -, hok⟩ :=
      restartCaptureTerminal_eq A.control r hconditional
    refine ensures_ok hok ?_
    have hchecked₂ : (((l.intend .preparing e.kind e.path).finish .preparing e.kind e.path
        ⟨terminal, (m (.captureOld r)).evidence, some (.capture (m (.captureOld r)))⟩)).Checked
          A m := by
      refine hchecked₁.finish _ (fun _ r' hr' hpath' captured hcaptured => ?_) fun hseal => ?_
      · cases hcaptured
        have hsame : r' = r := List.inj_on_of_nodup_map A.captures_nodup hr' hr
          (Option.some.inj (hpath'.symm.trans hpath))
        rw [hsame]
        exact hvalid
      · rw [hkind] at hseal
        cases hseal
    refine ensures_terminal h₂ (h.effects h₂ ▸ he) (by simp) (terminalEvent_ne_intent hok) rfl rfl
      (h₂.checked hchecked₁) fun s₃ h₃ => ⟨h₃.checked hchecked₂, Process.ensures_pure.mpr
        ⟨rfl, hvalid, hconditional, _, h₃, rfl, hchecked₂, fun kind path hnot => ?_⟩⟩
    have hne : ¬(kind = e.kind ∧ path = e.path) := by
      rintro ⟨rfl, rfl⟩
      exact hnot (by rw [hkind, hpath]; rfl)
    rw [Ledger.finish_slot_of_ne _ _ _ hne, Ledger.intend_slot_of_ne _ _ hne]

/-- How an uninterrupted preparation counts the capture that ends it. -/
def failedCaptureDurability (captured : OldObjectCaptureResult) : DurabilityStatus :=
  if captured.outcome = .completed then .visible else .indeterminate

/-- The first capture that does not complete. -/
def incompleteCapture (control : ExecutionControl) (m : Mechanisms)
    (requests : List OldObjectCaptureRequest) : Option OldObjectCaptureRequest :=
  requests.find? fun r => captureSemanticOutcome control r (m (.captureOld r)) != .completed

theorem outcome_of_captureSemanticOutcome {control : ExecutionControl}
    {r : OldObjectCaptureRequest} {captured : OldObjectCaptureResult}
    (h : captureSemanticOutcome control r captured = .completed) :
    captured.outcome = .completed := by
  unfold captureSemanticOutcome at h
  split at h
  · cases h
  · exact h

/-- Captures go on up to the first that does not complete. -/
theorem ensures_captureOldObjects {requests : List OldObjectCaptureRequest}
    {acc : CapturePreparation} (h : At A l s) (hstate : l.state = .preparing)
    (hchecked : l.Checked A m) (happ : app.observations = A.observations)
    (hrequests : ∀ r ∈ requests, r ∈ A.captures)
    (hnodup : (requests.map OldObjectCaptureRequest.path).Nodup)
    (hslots : ∀ r ∈ requests, l.slot .captureOldObject (some r.path) = .untouched) :
    (captureOldObjects app A.control requests acc).Ensures (engineMachine m) s
      (fun acc' s' => MovedChecked A m l
          (effectsAt .captureOldObject (requests.map OldObjectCaptureRequest.path)) s' ∧
        match incompleteCapture A.control m requests with
        | none => (requests = [] → acc' = acc) ∧
            (requests ≠ [] → acc'.completed = true ∧ acc'.durability = .visible)
        | some r => acc'.completed = false ∧
            acc'.durability = failedCaptureDurability (m (.captureOld r)) ∧
            (m (.captureOld r)).outcome ≠ .conditionalRetained)
      (fun _ s' => Vetted A m s') (Vetted A m) := by
  induction requests generalizing acc l s with
  | nil =>
    exact Process.ensures_pure.mpr ⟨⟨l, h, hstate, hchecked, .refl _ _⟩, fun _ => rfl,
      fun hne => absurd rfl hne⟩
  | cons r rest ih =>
    obtain ⟨hfirst, hrest⟩ := List.nodup_cons.mp hnodup
    refine Process.Ensures.bind ((ensures_captureOldObject h hstate hchecked happ
      (hrequests r List.mem_cons_self) (hslots r List.mem_cons_self)).mono (fun _ _ hx => hx)
        (fun _ _ hx => hx.2) (fun _ hx => hx)) fun captured s₁ hs₁ => ?_
    obtain ⟨rfl, -, hconditional, l₁, h₁, hstate₁, hchecked₁, hsame₁⟩ := hs₁
    have hsub : ({(.captureOldObject, some r.path)} : Set (EffectKind × Option PackagePath)) ⊆
        effectsAt .captureOldObject ((r :: rest).map OldObjectCaptureRequest.path) := by
      rintro x rfl
      exact ⟨r.path, List.mem_cons_self, rfl⟩
    dsimp only
    by_cases hcompleted :
        captureSemanticOutcome A.control r (m (.captureOld r)) = .completed
    · rw [if_pos (beq_iff_eq.mpr hcompleted)]
      have hfind : incompleteCapture A.control m (r :: rest) =
          incompleteCapture A.control m rest := by
        unfold incompleteCapture
        rw [List.find?_cons_of_neg (by simp [hcompleted])]
      rw [hfind]
      refine (ih h₁ hstate₁ hchecked₁ (fun x hx => hrequests x (List.mem_cons_of_mem _ hx)) hrest
        fun x hx => ?_).mono (fun acc' s' hs' => ?_) (fun _ _ hx => hx) (fun _ hx => hx)
      · have hne : ((EffectKind.captureOldObject, some x.path) : EffectKind × Option PackagePath) ∉
            ({(.captureOldObject, some r.path)} : Set (EffectKind × Option PackagePath)) := by
          intro hmem
          have hpath : x.path = r.path := Option.some.inj (Prod.mk.inj hmem).2
          exact hfirst (hpath ▸ List.mem_map_of_mem hx)
        rw [hsame₁ _ _ hne]
        exact hslots x (List.mem_cons_of_mem _ hx)
      · obtain ⟨⟨l', h', hstate', hchecked', hsame'⟩, houtcome⟩ := hs'
        have hmono : effectsAt .captureOldObject (rest.map OldObjectCaptureRequest.path) ⊆
            effectsAt .captureOldObject ((r :: rest).map OldObjectCaptureRequest.path) := by
          rintro x ⟨path, hpath, rfl⟩
          exact ⟨path, List.mem_cons_of_mem _ hpath, rfl⟩
        refine ⟨⟨l', h', hstate', hchecked', (hsame₁.mono hsub).trans (hsame'.mono hmono)⟩, ?_⟩
        cases hincomplete : incompleteCapture A.control m rest with
        | some x =>
          rw [hincomplete] at houtcome
          exact houtcome
        | none =>
          rw [hincomplete] at houtcome
          refine ⟨fun hnil => absurd hnil (List.cons_ne_nil _ _), fun _ => ?_⟩
          by_cases hempty : rest = []
          · rw [houtcome.1 hempty]
            exact ⟨beq_iff_eq.mpr hcompleted,
              if_pos (outcome_of_captureSemanticOutcome hcompleted)⟩
          · exact houtcome.2 hempty
    · rw [if_neg fun hx => hcompleted (beq_iff_eq.mp hx)]
      have hfind : incompleteCapture A.control m (r :: rest) = some r := by
        unfold incompleteCapture
        rw [List.find?_cons_of_pos (by simp [hcompleted])]
      rw [hfind]
      exact Process.ensures_pure.mpr ⟨⟨l₁, h₁, hstate₁, hchecked₁, hsame₁.mono hsub⟩,
        beq_eq_false_iff_ne.mpr hcompleted, rfl, hconditional⟩

/-! ## Staging -/

theorem ensures_stageIntents (paths : List PackagePath) (h : At A l s)
    (hstate : l.state = .preparing) (hchecked : l.Checked A m) (hnodup : paths.Nodup)
    (hkeys : ∀ path ∈ paths, A.HasKey .stageIncomingPayload (some path))
    (hslots : ∀ path ∈ paths, l.slot .stageIncomingPayload (some path) = .untouched) :
    (stageIntents paths).Ensures (engineMachine m) s
      (fun _ s' => ∃ l', At A l' s' ∧ l'.state = .preparing ∧ l'.Checked A m ∧
        Ledger.SameBut (effectsOf .stageIncomingPayload) l l' ∧
        (∀ path ∉ paths, l'.slot .stageIncomingPayload (some path) =
          l.slot .stageIncomingPayload (some path)) ∧
        ∀ path ∈ paths, l'.slot .stageIncomingPayload (some path) = .unresolved)
      (fun _ _ => False) (Vetted A m) := by
  induction paths generalizing l s with
  | nil =>
    exact Process.ensures_pure.mpr ⟨l, h, hstate, hchecked, .refl _ _, fun _ _ => rfl,
      fun path hmem => absurd hmem List.not_mem_nil⟩
  | cons path rest ih =>
    obtain ⟨hfirst, hrest⟩ := List.nodup_cons.mp hnodup
    have hedge : stateMayFollow l.state .preparing = true := by rw [hstate, stateMayFollow_self]
    refine ensures_history (ensures_find h (hkeys path List.mem_cons_self) fun e he hkind hpath => ?_)
    have hslot := hslots path List.mem_cons_self
    refine ensures_intent h he (by rwa [hkind, hpath]) hedge rfl (h.checked hchecked) fun s₁ h₁ =>
      ⟨h₁.checked (hchecked.intend _ _ _), ?_⟩
    rw [hkind, hpath] at h₁
    have hne : ∀ p, p ≠ path →
        (l.intend .preparing .stageIncomingPayload (some path)).slot .stageIncomingPayload (some p) =
          l.slot .stageIncomingPayload (some p) :=
      fun p hp => Ledger.intend_slot_of_ne _ _ fun hkey => hp (Option.some.inj hkey.2)
    refine (ih h₁ rfl (hchecked.intend _ _ _) hrest
      (fun p hp => hkeys p (List.mem_cons_of_mem _ hp)) fun p hp => ?_).mono (fun _ s' hs' => ?_)
        (fun _ _ hx => hx) (fun _ hx => hx)
    · rw [hne p (by rintro rfl; exact hfirst hp)]
      exact hslots p (List.mem_cons_of_mem _ hp)
    · obtain ⟨l', h', hstate', hchecked', hsame, hkept, hopen⟩ := hs'
      refine ⟨l', h', hstate', hchecked', fun kind p hnot => ?_, fun p hp => ?_, fun p hp => ?_⟩
      · rw [hsame kind p hnot]
        exact Ledger.intend_slot_of_ne _ _ fun hkey => hnot hkey.1
      · rw [List.mem_cons, not_or] at hp
        rw [hkept p hp.2, hne p hp.1]
      · by_cases hmem : p ∈ rest
        · exact hopen p hmem
        · obtain rfl : p = path := (List.mem_cons.mp hp).resolve_right hmem
          rw [hkept p hmem]
          exact l.intend_slot_self _ _ _

theorem ensures_stageTerminals {terminal : EventKind} {sealed : BackendOperationResult}
    (paths : List PackagePath) (h : At A l s) (hstate : l.state = .preparing)
    (hchecked : l.Checked A m) (hnodup : paths.Nodup)
    (hkeys : ∀ path ∈ paths, A.HasKey .stageIncomingPayload (some path))
    (hslots : ∀ path ∈ paths, l.slot .stageIncomingPayload (some path) = .unresolved)
    (hterminal : terminal ≠ .intent)
    (hseal : ((m .sealPayloadStage).result.outcome == .completed) = (m .sealPayloadStage).sealed) :
    (stageTerminals terminal sealed paths).Ensures (engineMachine m) s
      (fun _ s' => MovedChecked A m l (effectsOf .stageIncomingPayload) s')
      (fun _ _ => False) (Vetted A m) := by
  induction paths generalizing l s with
  | nil => exact Process.ensures_pure.mpr ⟨l, h, hstate, hchecked, .refl _ _⟩
  | cons path rest ih =>
    obtain ⟨hfirst, hrest⟩ := List.nodup_cons.mp hnodup
    have hedge : stateMayFollow l.state .preparing = true := by rw [hstate, stateMayFollow_self]
    refine ensures_history (ensures_find h (hkeys path List.mem_cons_self) fun e he hkind hpath => ?_)
    have hslot := hslots path List.mem_cons_self
    have hchecked₁ : (l.finish .preparing e.kind e.path
        ⟨terminal, sealed.evidence, some (.payloadSeal sealed)⟩).Checked A m := by
      refine hchecked.finish _ (fun hcapture => ?_) fun _ => hseal
      rw [hkind] at hcapture
      cases hcapture
    refine ensures_terminal h he (by rwa [hkind, hpath]) hterminal hedge rfl (h.checked hchecked)
      fun s₁ h₁ => ⟨h₁.checked hchecked₁, ?_⟩
    refine (ih h₁ rfl hchecked₁ hrest (fun p hp => hkeys p (List.mem_cons_of_mem _ hp))
      fun p hp => ?_).mono (fun _ s' hs' => ?_) (fun _ _ hx => hx) (fun _ hx => hx)
    · have hne : ¬(EffectKind.stageIncomingPayload = e.kind ∧ some p = e.path) := by
        rintro ⟨-, hp'⟩
        rw [hpath] at hp'
        exact hfirst (Option.some.inj hp' ▸ hp)
      rw [Ledger.finish_slot_of_ne _ _ _ hne]
      exact hslots p (List.mem_cons_of_mem _ hp)
    · obtain ⟨l', h', hstate', hchecked', hsame⟩ := hs'
      refine ⟨l', h', hstate', hchecked', fun kind p hnot => ?_⟩
      rw [hsame kind p hnot]
      exact Ledger.finish_slot_of_ne _ _ _ fun hkey => hnot (hkey.1.trans hkind)

/-- A stage is checked before its terminal events. -/
theorem ensures_stageIncomingPayloads (h : At A l s) (hstate : l.state = .preparing)
    (hchecked : l.Checked A m) (happ : app.Holds A) (hpayloads : A.hasPayloads = true)
    (hslots : ∀ path, l.slot .stageIncomingPayload path = .untouched) :
    (stageIncomingPayloads app).Ensures (engineMachine m) s
      (fun sealed s' => sealed = some (m .sealPayloadStage).result ∧
        ((m .sealPayloadStage).result.outcome == .completed) = (m .sealPayloadStage).sealed ∧
        (m .sealPayloadStage).result.outcome ≠ .conditionalRetained ∧
        MovedChecked A m l (effectsOf .stageIncomingPayload) s')
      (fun _ s' => (((m .sealPayloadStage).result.outcome == .completed) ≠
          (m .sealPayloadStage).sealed ∨
        (m .sealPayloadStage).result.outcome = .conditionalRetained) ∧ Vetted A m s')
      (Vetted A m) := by
  have hkeys : ∀ path ∈ (A.steps .stageRegularPayload).map EffectStep.path,
      A.HasKey .stageIncomingPayload (some path) := by
    intro path hpath
    obtain ⟨step, hstep, rfl⟩ := List.mem_map.mp hpath
    exact AdmittedApplication.hasKey_step hstep
  have hnodup := A.steps_nodup .stageRegularPayload
  have hcount := A.steps_stage_length
  unfold AdmittedApplication.hasPayloads at hpayloads
  unfold stageIncomingPayloads
  rw [happ.payloads, happ.stepsOf]
  cases hpayload : A.payloads with
  | none => simp [hpayload] at hpayloads
  | some payloads =>
    have hlength : payloads.selection.length ≠ 0 := by simpa [hpayload] using hpayloads
    rw [hpayload, Option.map_some, Option.getD_some] at hcount
    dsimp only
    rw [if_neg hlength]
    refine Process.Ensures.bind ((ensures_stageIntents _ h hstate hchecked hnodup hkeys
      fun path _ => hslots (some path)).mono (fun _ _ hx => hx) (fun _ _ hx => hx.elim)
        (fun _ hx => hx)) fun _ s₁ hs₁ => ?_
    obtain ⟨l₁, h₁, hstate₁, hchecked₁, hsame₁, -, hopen₁⟩ := hs₁
    refine ensures_pass (by simpa using hcount) ?_
    refine Process.Ensures.bind (Q := fun sealed s' => sealed = (m .sealPayloadStage).result ∧
      ((m .sealPayloadStage).result.outcome == .completed) = (m .sealPayloadStage).sealed ∧
      At A l₁ s') ?_ fun sealed s₂ hs₂ => ?_
    · refine ensures_mechanism h₁ (h₁.checked hchecked₁) fun s₂ h₂ => ⟨h₂.checked hchecked₁, ?_⟩
      refine ensures_mechanism h₂ (h₂.checked hchecked₁) fun s₃ h₃ => ⟨h₃.checked hchecked₁, ?_⟩
      refine ensures_check (fun hflag => ⟨.inl hflag, h₃.checked hchecked₁⟩) fun hflag => ?_
      exact Process.ensures_pure.mpr ⟨rfl, not_not.mp hflag, h₃⟩
    obtain ⟨rfl, hflag, h₂⟩ := hs₂
    by_cases hconditional : (m .sealPayloadStage).result.outcome = .conditionalRetained
    · refine ensures_error (e := .logicError "backend returned an unsupported conditional outcome")
        ?_ ⟨.inr hconditional, h₂.checked hchecked₁⟩
      rw [hconditional]
      rfl
    have hterminal : ∃ terminal, terminalEvent (m .sealPayloadStage).result.outcome = .ok terminal := by
      cases hout : (m .sealPayloadStage).result.outcome with
      | conditionalRetained => exact absurd hout hconditional
      | completed | failed | indeterminate => exact ⟨_, rfl⟩
    obtain ⟨terminal, hok⟩ := hterminal
    refine ensures_ok hok ?_
    refine Process.Ensures.bind ((ensures_stageTerminals _ h₂ hstate₁ hchecked₁ hnodup hkeys hopen₁
      (terminalEvent_ne_intent hok) hflag).mono (fun _ _ hx => hx) (fun _ _ hx => hx.elim)
        (fun _ hx => hx)) fun _ s₃ hs₃ => ?_
    obtain ⟨l₃, h₃, hstate₃, hchecked₃, hsame₃⟩ := hs₃
    exact Process.ensures_pure.mpr
      ⟨rfl, hflag, hconditional, l₃, h₃, hstate₃, hchecked₃, hsame₁.trans hsame₃⟩

/-! ## Synchronization -/

/-- A synchronized staging domain is the one asked for. -/
theorem ensures_synchronizeStaged {staged : DurabilityStatus} {kind : EffectKind}
    {domain : DurabilityDomain} (h : At A l s) (hstate : l.state = .preparing)
    (hchecked : l.Checked A m) (hkey : A.HasKey kind none)
    (hdomain : synchronizationDomain kind = .ok domain) (hstaged : staged ≠ .notAttempted)
    (hslot : l.slot kind none = .untouched) :
    (synchronizeStaged staged domain kind).Ensures (engineMachine m) s
      (fun status s' => status = (m (.synchronize kind domain)).status ∧
        (m (.synchronize kind domain)).domain = domain ∧ status ≠ .notAttempted ∧
        MovedChecked A m l {(kind, none)} s')
      (fun _ s' => ((m (.synchronize kind domain)).domain ≠ domain ∨
        (m (.synchronize kind domain)).status = .notAttempted) ∧ Vetted A m s')
      (Vetted A m) := by
  have hedge : stateMayFollow l.state .preparing = true := by rw [hstate, stateMayFollow_self]
  unfold synchronizeStaged
  rw [if_neg hstaged, map_eq_pure_bind]
  refine Process.Ensures.bind (Q := fun fact s' => fact = m (.synchronize kind domain) ∧
    (m (.synchronize kind domain)).domain = domain ∧
      (m (.synchronize kind domain)).status ≠ .notAttempted ∧
        MovedChecked A m l {(kind, none)} s') ?_ fun fact s₁ hs₁ => ?_
  · refine ensures_history (ensures_find h hkey fun e he hkind hpath => ?_)
    refine ensures_intent h he (by rwa [hkind, hpath]) hedge rfl (h.checked hchecked) fun s₁ h₁ =>
      ⟨h₁.checked (hchecked.intend _ _ _), ?_⟩
    have hchecked₁ := hchecked.intend .preparing e.kind e.path
    refine ensures_mechanism h₁ (h₁.checked hchecked₁) fun s₂ h₂ => ⟨h₂.checked hchecked₁, ?_⟩
    refine ensures_check (fun hmismatch => ⟨.inl hmismatch, h₂.checked hchecked₁⟩)
      fun hmismatch => ?_
    by_cases hattempted : (m (.synchronize kind domain)).status = .notAttempted
    · refine ensures_error (e := .logicError "backend synchronization returned not-attempted status")
        ?_ ⟨.inr hattempted, h₂.checked hchecked₁⟩
      rw [hattempted]
      rfl
    obtain ⟨terminal, hok⟩ := synchronizationEvent_eq
      (e := .logicError "backend synchronization returned not-attempted status") hattempted
    refine ensures_ok hok ?_
    have hchecked₂ : ((l.intend .preparing e.kind e.path).finish .preparing e.kind e.path
        ⟨terminal, ∅, some (.synchronization (m (.synchronize kind domain)))⟩).Checked A m := by
      refine hchecked₁.finish _ (fun _ _ _ _ captured hcaptured => by cases hcaptured)
        fun hseal => ?_
      rw [hkind] at hseal
      rw [hseal] at hdomain
      cases hdomain
    refine ensures_terminal h₂ (h.effects h₂ ▸ he) (by simp) (synchronizationEvent_ne_intent hok)
      rfl rfl (h₂.checked hchecked₁) fun s₃ h₃ => ⟨h₃.checked hchecked₂, Process.ensures_pure.mpr
        ⟨rfl, not_not.mp hmismatch, hattempted, _, h₃, rfl, hchecked₂, fun k p hnot => ?_⟩⟩
    have hne : ¬(k = e.kind ∧ p = e.path) := by
      rintro ⟨rfl, rfl⟩
      exact hnot (by rw [hkind, hpath]; rfl)
    rw [Ledger.finish_slot_of_ne _ _ _ hne, Ledger.intend_slot_of_ne _ _ hne]
  · obtain ⟨rfl, hplace, hattempted, hmoved⟩ := hs₁
    exact Process.ensures_pure.mpr ⟨rfl, hplace, hattempted, hmoved⟩

/-! ## Failures -/

/-- What ends a preparation that does not complete. -/
inductive PreparationFailure where
  | capture (captured : OldObjectCaptureResult)
  | staging (sealed : BackendOperationResult)
  | incoming (status : DurabilityStatus)
  | recovery (status : DurabilityStatus)
deriving DecidableEq

/-- The answers to the synchronizations of the staging domains. -/
def incomingAnswer (m : Mechanisms) : DurabilityFact :=
  m (.synchronize .synchronizeIncomingStaging .incomingStaging)

def recoveryAnswer (m : Mechanisms) : DurabilityFact :=
  m (.synchronize .synchronizeRecoveryStaging .recoveryStaging)

/-- The first answer preparation cannot go on with. -/
def preparationFailure (A : AdmittedApplication) (m : Mechanisms) : Option PreparationFailure :=
  match incompleteCapture A.control m A.captures with
  | some r => some (.capture (m (.captureOld r)))
  | none =>
    if A.hasPayloads = true ∧ (m .sealPayloadStage).result.outcome ≠ .completed then
      some (.staging (m .sealPayloadStage).result)
    else if A.hasPayloads = true ∧ (incomingAnswer m).status ≠ .confirmed then
      some (.incoming (incomingAnswer m).status)
    else if A.captures ≠ [] ∧ (recoveryAnswer m).status ≠ .confirmed then
      some (.recovery (recoveryAnswer m).status)
    else none

theorem preparationFailure_of_captured {A : AdmittedApplication} {m : Mechanisms}
    (h : incompleteCapture A.control m A.captures = none) : preparationFailure A m =
      if A.hasPayloads = true ∧ (m .sealPayloadStage).result.outcome ≠ .completed then
        some (.staging (m .sealPayloadStage).result)
      else if A.hasPayloads = true ∧ (incomingAnswer m).status ≠ .confirmed then
        some (.incoming (incomingAnswer m).status)
      else if A.captures ≠ [] ∧ (recoveryAnswer m).status ≠ .confirmed then
        some (.recovery (recoveryAnswer m).status)
      else none := by
  unfold preparationFailure
  rw [h]

/-- The status captures leave before their domain is synchronized. -/
def AdmittedApplication.captured (A : AdmittedApplication) : DurabilityStatus :=
  if A.captures = [] then .notAttempted else .visible

/-- The status of incoming staging once it is durable. -/
def AdmittedApplication.staged (A : AdmittedApplication) : DurabilityStatus :=
  if A.hasPayloads = true then .confirmed else .notAttempted

/-- The incoming and recovery statuses an uninterrupted preparation reports. -/
def PreparationFailure.reported (A : AdmittedApplication) :
    PreparationFailure → DurabilityStatus × DurabilityStatus
  | .capture captured => (.notAttempted, failedCaptureDurability captured)
  | .staging _ => (.indeterminate, A.captured)
  | .incoming status => (status, A.captured)
  | .recovery status => (A.staged, status)

/-- The answers up to the one that ends preparation are well formed. -/
def PreparationFailure.WellFormed (A : AdmittedApplication) (m : Mechanisms) :
    PreparationFailure → Prop
  | .capture captured => captured.outcome ≠ .conditionalRetained
  | .staging sealed => sealed.outcome ≠ .conditionalRetained
  | .incoming status => (incomingAnswer m).domain = .incomingStaging ∧ status ≠ .notAttempted
  | .recovery status => (A.hasPayloads = true → (incomingAnswer m).domain = .incomingStaging) ∧
      (recoveryAnswer m).domain = .recoveryStaging ∧ status ≠ .notAttempted

/-- A failure of preparation has a receipt. -/
theorem failedPreparation_eq_ok (request : ApplicationRequest) (attempt : ApplicationAttempt)
    (state : LeaseBoundStateProjection) (incoming recovery : DurabilityStatus)
    (header : JournalHeader) (evidence : Evidence) :
    ∃ receipt, ApplicationReceipt.failed request attempt state .failedBeforeTargetMutation
        .unchanged (preparationDurability .confirmed incoming recovery) [] (some header) evidence =
          .ok receipt ∧
      receipt.durability = preparationDurability .confirmed incoming recovery := by
  refine ⟨⟨request.plan.kind, request.identity, request.plan.identity, attempt, request.target,
    request.control.identity, state, .failedBeforeTargetMutation, .unchanged,
    preparationDurability .confirmed incoming recovery, [], some header, none, evidence⟩, ?_, rfl⟩
  unfold ApplicationReceipt.failed normalizePaths validatePlanPaths validateFailedOutcome
  simp [refuseIf, validateFailedPaths, bind, Except.bind, pure, Except.pure]

theorem Ledger.Checked.of_slot {l' : Ledger} (h : l.Checked A m) (hslot : l'.slot = l.slot) :
    l'.Checked A m := by
  refine ⟨fun r hr captured hcaptured => h.captures r hr captured ?_, fun sealed hsealed =>
    h.sealing sealed ?_⟩
  · unfold Ledger.capture at hcaptured ⊢
    rwa [← hslot]
  · unfold Ledger.RetainsSeal at hsealed ⊢
    rwa [← hslot]

/-- A failure of preparation is sealed. -/
theorem ensures_failPreparation {request : ApplicationRequest}
    {state : LeaseBoundStateProjection} {incoming recovery : DurabilityStatus}
    {evidence : Evidence} {I : EngineState → Prop} (h : At A l s) (hstate : l.state = .preparing)
    (hI : ∀ s' : EngineState, s'.history.ledger.slot = l.slot →
      (s'.history.state = .preparing → s'.history.receipt = none) → I s') :
    (failPreparation app request state incoming recovery evidence).Ensures (engineMachine m) s
      (fun receipt s' => receipt.durability = preparationDurability .confirmed incoming recovery ∧
        I s')
      (fun _ _ => False) I := by
  refine ensures_history ?_
  obtain ⟨receipt, hok, hdurability⟩ := failedPreparation_eq_ok request app.attempt state incoming
    recovery s.history.header evidence
  refine ensures_ok hok ?_
  refine ensures_sealState h (by rw [hstate]; rfl) rfl (hI s (by rw [h.ledger]) fun _ => h.receipt)
    fun s' h' => ?_
  have hI' : I s' := by
    refine hI s' (by rw [h'.ledger]; rfl) fun hpreparing => ?_
    rw [← JournalHistory.ledger_state, h'.ledger] at hpreparing
    cases hpreparing
  exact ⟨hI', Process.ensures_pure.mpr ⟨hdurability, hI'⟩⟩

theorem ensures_finishPreparation {captures : List OldObjectCaptureResult}
    {incoming recovery : DurabilityStatus} {evidence : Evidence} (h : At A l s)
    (hstate : l.state = .preparing) (hchecked : l.Checked A m) :
    (finishPreparation app captures incoming recovery evidence).Ensures (engineMachine m) s
      (fun _ s' => s'.history.state = .prepared ∧ Vetted A m s')
      (fun _ s' => Vetted A m s') (Vetted A m) := by
  refine ensures_enter h (by rw [hstate]; rfl) rfl (h.checked hchecked) fun s' h' => ?_
  have hchecked' : (l.enter .prepared).Checked A m := hchecked.of_slot rfl
  refine ⟨h'.checked hchecked', Process.ensures_ofExcept.mpr ⟨fun _ _ => ?_, fun _ _ => ?_⟩⟩
  · exact ⟨h'.state_eq, h'.checked hchecked'⟩
  · exact h'.checked hchecked'

/-- How an uninterrupted preparation ends. -/
def Prepared (A : AdmittedApplication) (m : Mechanisms)
    (result : ApplicationReceipt ⊕ PreparedApplication) (s : EngineState) : Prop :=
  match result with
  | .inl receipt => ∃ failure, preparationFailure A m = some failure ∧ failure.WellFormed A m ∧
      (receipt.durability.incomingStaging, receipt.durability.recoveryStaging) =
        failure.reported A
  | .inr _ => s.history.state = .prepared

/-- A preparation ends so, and leaves only what it checked. -/
def Prepares (A : AdmittedApplication) (m : Mechanisms)
    (p : Engine (ApplicationReceipt ⊕ PreparedApplication)) (s : EngineState) : Prop :=
  p.Ensures (engineMachine m) s (fun result s' => Prepared A m result s' ∧ Vetted A m s')
    (fun _ s' => Vetted A m s') (Vetted A m)

variable {request : ApplicationRequest} {state : LeaseBoundStateProjection}
  {incoming recovery : DurabilityStatus} {evidence : Evidence}

theorem prepares_fail (failure : PreparationFailure) (h : At A l s)
    (hstate : l.state = .preparing) (hchecked : l.Checked A m)
    (hfailure : preparationFailure A m = some failure) (hformed : failure.WellFormed A m)
    (hreported : (incoming, recovery) = failure.reported A) :
    Prepares A m (do
      return .inl (← failPreparation app request state incoming recovery evidence)) s := by
  refine Process.Ensures.bind ((ensures_failPreparation h hstate fun s' hs' hunsealed =>
    ⟨hchecked.of_slot hs', hunsealed⟩).mono (fun _ _ hx => hx) (fun _ _ hx => hx.elim) (fun _ hx => hx))
      fun receipt s' hs' => ?_
  refine Process.ensures_pure.mpr ⟨⟨failure, hfailure, hformed, ?_⟩, hs'.2⟩
  rw [hs'.1, ← hreported]
  rfl

theorem prepares_finish {captures : List OldObjectCaptureResult} (h : At A l s)
    (hstate : l.state = .preparing) (hchecked : l.Checked A m) :
    Prepares A m (do
      return .inr (← finishPreparation app captures incoming recovery evidence)) s :=
  Process.Ensures.bind (ensures_finishPreparation h hstate hchecked) fun _ _ hs' =>
    Process.ensures_pure.mpr hs'

/-- The seal of an uninterrupted staging, if there is anything to stage. -/
def stageAnswer (A : AdmittedApplication) (m : Mechanisms) : Option BackendOperationResult :=
  if A.hasPayloads = true then some (m .sealPayloadStage).result else none

theorem stageIncomingPayloads_eq_none (happ : app.Holds A) (hpayloads : ¬A.hasPayloads = true) :
    stageIncomingPayloads app = pure none := by
  rw [← happ.hasPayloads] at hpayloads
  unfold JournaledApplication.hasPayloads at hpayloads
  unfold stageIncomingPayloads
  cases hpayload : app.payloads with
  | none => rfl
  | some payloads => exact if_pos (by simpa [hpayload] using hpayloads)

theorem ensures_stageAnswer (h : At A l s) (hstate : l.state = .preparing)
    (hchecked : l.Checked A m) (happ : app.Holds A)
    (hslots : ∀ path, l.slot .stageIncomingPayload path = .untouched) :
    (stageIncomingPayloads app).Ensures (engineMachine m) s
      (fun sealed s' => sealed = stageAnswer A m ∧
        (A.hasPayloads = true → (m .sealPayloadStage).result.outcome ≠ .conditionalRetained) ∧
        MovedChecked A m l (effectsOf .stageIncomingPayload) s')
      (fun _ s' => Vetted A m s') (Vetted A m) := by
  unfold stageAnswer
  by_cases hpayloads : A.hasPayloads = true
  · rw [if_pos hpayloads]
    exact (ensures_stageIncomingPayloads h hstate hchecked happ hpayloads hslots).mono
      (fun _ _ hx => ⟨hx.1, fun _ => hx.2.2.1, hx.2.2.2⟩) (fun _ _ hx => hx.2) (fun _ hx => hx)
  · rw [if_neg hpayloads]
    rw [stageIncomingPayloads_eq_none happ hpayloads]
    exact Process.ensures_pure.mpr ⟨rfl, fun hx => absurd hx hpayloads, l, h, hstate, hchecked,
      .refl _ _⟩

/-- Recovery staging is synchronized last. -/
theorem prepares_recovery {captures : List OldObjectCaptureResult} (h : At A l s)
    (hstate : l.state = .preparing) (hchecked : l.Checked A m)
    (hslot : l.slot .synchronizeRecoveryStaging none = .untouched)
    (hfailure : preparationFailure A m =
      if A.captures ≠ [] ∧ (recoveryAnswer m).status ≠ .confirmed then
        some (.recovery (recoveryAnswer m).status)
      else none)
    (hincoming : A.hasPayloads = true → (incomingAnswer m).domain = .incomingStaging)
    (hstaged : incoming = A.staged) :
    Prepares A m (do
      let recovery ← synchronizeStaged A.captured .recoveryStaging .synchronizeRecoveryStaging
      if !stagedDurable recovery then
        return .inl (← failPreparation app request state incoming recovery evidence)
      else
        return .inr (← finishPreparation app captures incoming recovery evidence)) s := by
  rw [hstaged]
  by_cases hnil : A.captures = []
  · have hskipped : synchronizeStaged A.captured .recoveryStaging .synchronizeRecoveryStaging =
        pure .notAttempted := by
      unfold synchronizeStaged AdmittedApplication.captured
      rw [if_pos hnil, if_pos rfl]
    rw [hskipped]
    exact prepares_finish h hstate hchecked
  · have hcaptured : A.captured ≠ .notAttempted := by
      unfold AdmittedApplication.captured
      rw [if_neg hnil]
      exact DurabilityStatus.noConfusion
    have hkey : A.HasKey .synchronizeRecoveryStaging none :=
      (AdmittedApplication.hasKey_domain _).mpr (by simpa using hnil)
    refine Process.Ensures.bind ((ensures_synchronizeStaged h hstate hchecked hkey rfl hcaptured
      hslot).mono (fun _ _ hx => hx) (fun _ _ hx => hx.2) (fun _ hx => hx)) fun status s₁ hs₁ => ?_
    obtain ⟨rfl, hplace, hattempted, l₁, h₁, hstate₁, hchecked₁, -⟩ := hs₁
    change Prepares A m (if (!stagedDurable (recoveryAnswer m).status) = true then _ else _) s₁
    split
    · rename_i hundurable
      have hunconfirmed : (recoveryAnswer m).status ≠ .confirmed := by
        intro hconfirmed
        rw [hconfirmed] at hundurable
        cases hundurable
      exact prepares_fail (.recovery (recoveryAnswer m).status) h₁ hstate₁ hchecked₁
        (hfailure.trans (if_pos ⟨hnil, hunconfirmed⟩)) ⟨hincoming, hplace, hattempted⟩ rfl
    · exact prepares_finish h₁ hstate₁ hchecked₁

/-- Incoming staging is synchronized before recovery staging. -/
theorem prepares_incoming {captures : List OldObjectCaptureResult} (h : At A l s)
    (hstate : l.state = .preparing) (hchecked : l.Checked A m)
    (hincoming : l.slot .synchronizeIncomingStaging none = .untouched)
    (hrecovery : l.slot .synchronizeRecoveryStaging none = .untouched)
    (hfailure : preparationFailure A m =
      if A.hasPayloads = true ∧ (incomingAnswer m).status ≠ .confirmed then
        some (.incoming (incomingAnswer m).status)
      else if A.captures ≠ [] ∧ (recoveryAnswer m).status ≠ .confirmed then
        some (.recovery (recoveryAnswer m).status)
      else none)
    {staged : DurabilityStatus} (hstaged : staged = .notAttempted ↔ A.hasPayloads = false) :
    Prepares A m (do
      let incoming ← synchronizeStaged staged .incomingStaging .synchronizeIncomingStaging
      if !stagedDurable incoming then
        return .inl (← failPreparation app request state incoming A.captured evidence)
      else
      let recovery ← synchronizeStaged A.captured .recoveryStaging .synchronizeRecoveryStaging
      if !stagedDurable recovery then
        return .inl (← failPreparation app request state incoming recovery evidence)
      else
        return .inr (← finishPreparation app captures incoming recovery evidence)) s := by
  by_cases hpayloads : A.hasPayloads = true
  · have hattempted : staged ≠ .notAttempted := by
      rw [ne_eq, hstaged, hpayloads]
      decide
    have hkey : A.HasKey .synchronizeIncomingStaging none :=
      (AdmittedApplication.hasKey_domain _).mpr hpayloads
    refine Process.Ensures.bind ((ensures_synchronizeStaged h hstate hchecked hkey rfl hattempted
      hincoming).mono (fun _ _ hx => hx) (fun _ _ hx => hx.2) (fun _ hx => hx))
        fun status s₁ hs₁ => ?_
    obtain ⟨rfl, hplace, hattempted, l₁, h₁, hstate₁, hchecked₁, hsame₁⟩ := hs₁
    change (incomingAnswer m).status ≠ .notAttempted at hattempted
    change Prepares A m (if (!stagedDurable (incomingAnswer m).status) = true then _ else _) s₁
    by_cases hconfirmed : (incomingAnswer m).status = .confirmed
    · change Prepares A m (if (!stagedDurable (m (.synchronize .synchronizeIncomingStaging
        .incomingStaging)).status) = true then _ else _) s₁
      rw [show (m (.synchronize .synchronizeIncomingStaging .incomingStaging)).status = .confirmed
        from hconfirmed]
      refine prepares_recovery h₁ hstate₁ hchecked₁ ?_ ?_ (fun _ => hplace) (if_pos hpayloads).symm
      · rw [hsame₁ _ _ (by simp)]
        exact hrecovery
      · rw [hfailure, if_neg fun hx => hx.2 hconfirmed]
    · rw [if_pos (by simp [stagedDurable, hconfirmed, hattempted])]
      exact prepares_fail (.incoming (incomingAnswer m).status) h₁ hstate₁ hchecked₁
        (hfailure.trans (if_pos ⟨hpayloads, hconfirmed⟩)) ⟨hplace, hattempted⟩ rfl
  · have hskipped : synchronizeStaged staged .incomingStaging .synchronizeIncomingStaging =
        pure .notAttempted := by
      unfold synchronizeStaged
      exact if_pos (hstaged.mpr (by simpa using hpayloads))
    rw [hskipped]
    exact prepares_recovery h hstate hchecked hrecovery
      (hfailure.trans (if_neg fun hx => hpayloads hx.1)) (fun hx => absurd hx hpayloads)
      (if_neg hpayloads).symm

/-- An uninterrupted preparation reports the answer that ends it, and leaves
only what it checked. -/
theorem prepares_prepareApplication :
    Prepares A m (prepareApplication (A.journaled state) A.request state) A.start := by
  have hinitial := At.initial A
  refine ensures_history ?_
  cases hbinding : validateBinding (A.journaled state) A.request state A.start.history
    [.preparing] "application preparation inputs differ from durable admission" with
  | error x => exact ensures_error rfl (hinitial.checked .initial)
  | ok u =>
    refine ensures_ok rfl ?_
    refine Process.Ensures.bind (ensures_captureOldObjects hinitial rfl .initial rfl
      (fun _ hr => hr) A.captures_nodup fun _ _ => rfl) fun captures s₁ hs₁ => ?_
    obtain ⟨⟨l₁, h₁, hstate₁, hchecked₁, hsame₁⟩, hcaptures⟩ := hs₁
    rw [show (A.journaled state).captures = A.captures from rfl] at hcaptures hsame₁
    have huntouched₁ : ∀ kind path, kind ≠ .captureOldObject →
        l₁.slot kind path = .untouched := by
      intro kind path hkind
      refine hsame₁ kind path ?_
      rintro ⟨p, -, hp⟩
      exact hkind (Prod.mk.inj hp).1
    cases hincomplete : incompleteCapture A.control m A.captures with
    | some r =>
      rw [hincomplete] at hcaptures
      obtain ⟨hcompleted, hdurability, hconditional⟩ := hcaptures
      rw [hcompleted, hdurability]
      exact prepares_fail (.capture (m (.captureOld r))) h₁ hstate₁ hchecked₁
        (by simp only [preparationFailure, hincomplete]) hconditional rfl
    | none =>
      rw [hincomplete] at hcaptures
      have hcompleted : captures.completed = true ∧ captures.durability = A.captured := by
        unfold AdmittedApplication.captured
        by_cases hnil : A.captures = []
        · rw [hcaptures.1 hnil, if_pos hnil]
          exact ⟨rfl, rfl⟩
        · rw [if_neg hnil]
          exact hcaptures.2 hnil
      have hfailure := preparationFailure_of_captured hincomplete
      rw [hcompleted.1, hcompleted.2]
      refine Process.Ensures.bind (ensures_stageAnswer h₁ hstate₁ hchecked₁ ⟨rfl, rfl, rfl⟩
        fun path => huntouched₁ _ _ EffectKind.noConfusion) fun sealed s₂ hs₂ => ?_
      obtain ⟨rfl, hconditional, l₂, h₂, hstate₂, hchecked₂, hsame₂⟩ := hs₂
      have huntouched₂ : ∀ kind path, kind ≠ .captureOldObject → kind ≠ .stageIncomingPayload →
          l₂.slot kind path = .untouched := by
        intro kind path hcapture hstage
        rw [hsame₂ kind path hstage]
        exact huntouched₁ kind path hcapture
      dsimp only
      by_cases hfailed : A.hasPayloads = true ∧ (m .sealPayloadStage).result.outcome ≠ .completed
      · have hstaged : stagingDurability (stageAnswer A m) = .indeterminate := by
          unfold stageAnswer
          rw [if_pos hfailed.1]
          exact if_neg hfailed.2
        rw [if_pos hstaged, hstaged]
        exact prepares_fail (.staging (m .sealPayloadStage).result) h₂ hstate₂ hchecked₂
          (hfailure.trans (if_pos hfailed)) (hconditional hfailed.1) rfl
      · have hstaged : stagingDurability (stageAnswer A m) ≠ .indeterminate ∧
            (stagingDurability (stageAnswer A m) = .notAttempted ↔ A.hasPayloads = false) := by
          unfold stageAnswer
          by_cases hpayloads : A.hasPayloads = true
          · have hdone : (m .sealPayloadStage).result.outcome = .completed := by
              by_contra hincomplete
              exact hfailed ⟨hpayloads, hincomplete⟩
            rw [if_pos hpayloads]
            simp [stagingDurability, hdone, hpayloads]
          · rw [if_neg hpayloads]
            simp [stagingDurability, hpayloads]
        rw [if_neg hstaged.1]
        exact prepares_incoming h₂ hstate₂ hchecked₂
          (huntouched₂ _ _ EffectKind.noConfusion EffectKind.noConfusion)
          (huntouched₂ _ _ EffectKind.noConfusion EffectKind.noConfusion)
          (hfailure.trans (if_neg hfailed)) hstaged.2

end Fresh

end PkgApply
