import PkgApply.Schedule

/-!
# The closure of a plan

Captures, payloads and schedule derived from one plan, one control and one
image.  Each is a separate pass over the plan; what follows is that they fit:
whatever a scheduled effect consumes has been captured or staged before it.
-/

namespace PkgApply

/-! ## Captures -/

section Captures

variable {plan : OperationPlan} {control : ExecutionControl}
  {captures : List OldObjectCaptureRequest}

/-- What one decision's capture is. -/
private theorem captureRequest_eq_ok {d : PathDecision} {r : Option OldObjectCaptureRequest}
    (h : captureRequest plan control d = .ok r) :
    ∃ before, plan.precondition d.path = some before ∧
      (d.rejected = .stageOld → before.isPresent = true) ∧
      r = if (d.rejected == .stageOld) ||
          (recoverySelected control && activeEffectMayDestroyOld d.active before) then
        some ⟨d.path, d.rejected == .stageOld,
          recoverySelected control && activeEffectMayDestroyOld d.active before⟩
      else none := by
  unfold captureRequest at h
  cases hbefore : plan.precondition d.path with
  | none => simp [hbefore] at h
  | some before =>
    simp only [hbefore, refuseIf_bind_eq_ok] at h
    refine ⟨before, rfl, fun hstage => ?_, ?_⟩
    · by_contra hpresent
      exact h.1 (by simp [hstage, hpresent])
    · have h2 := h.2
      split at h2
      · rename_i hneeded
        rw [if_pos hneeded]
        exact (Except.ok.inj h2).symm
      · rename_i hneeded
        rw [if_neg hneeded]
        exact (Except.ok.inj h2).symm

/-- A capture belongs to a decision whose path was present. -/
theorem capture_decision (hcaptures : prepareOldObjectCaptures plan control = .ok captures)
    {r : OldObjectCaptureRequest} (hr : r ∈ captures) :
    ∃ d ∈ plan.paths, ∃ before, d.path = r.path ∧ plan.precondition d.path = some before ∧
      before.isPresent = true ∧ r.forRejectedObject = (d.rejected == .stageOld) := by
  obtain ⟨d, hd, hok⟩ := (mem_collect hcaptures r).mp hr
  obtain ⟨before, hbefore, hstage, heq⟩ := captureRequest_eq_ok hok
  split at heq
  · rename_i hneeded
    cases heq
    refine ⟨d, hd, before, rfl, hbefore, ?_, rfl⟩
    rw [Bool.or_eq_true, Bool.and_eq_true] at hneeded
    rcases hneeded with hold | ⟨-, hdestroy⟩
    · exact hstage (by simpa using hold)
    · unfold activeEffectMayDestroyOld at hdestroy
      rw [Bool.and_eq_true] at hdestroy
      exact hdestroy.1
  · cases heq

theorem captures_nodup (hcaptures : prepareOldObjectCaptures plan control = .ok captures) :
    (captures.map OldObjectCaptureRequest.path).Nodup := by
  refine (collect_sublist _ PathDecision.path (fun d r hok => ?_) hcaptures).nodup plan.paths_nodup
  obtain ⟨before, -, -, heq⟩ := captureRequest_eq_ok hok
  split at heq
  · cases heq
    rfl
  · cases heq

/-- Staging an old object captures it first. -/
theorem capture_of_stageOld (hcaptures : prepareOldObjectCaptures plan control = .ok captures)
    {d : PathDecision} (hd : d ∈ plan.paths) (hstage : d.rejected = .stageOld) :
    ∃ r ∈ captures, r.path = d.path ∧ r.forRejectedObject = true := by
  obtain ⟨value, hok⟩ := collect_each hcaptures d hd
  obtain ⟨before, -, -, heq⟩ := captureRequest_eq_ok hok
  rw [if_pos (by simp [hstage])] at heq
  subst heq
  exact ⟨_, (mem_collect hcaptures _).mpr ⟨d, hd, hok⟩, rfl, by simp [hstage]⟩

/-- With recovery selected, destroying an object captures it first. -/
theorem capture_of_destructive (hcaptures : prepareOldObjectCaptures plan control = .ok captures)
    {d : PathDecision} {before : PathPrecondition} (hd : d ∈ plan.paths)
    (hselected : recoverySelected control = true)
    (hbefore : plan.precondition d.path = some before) (hpresent : before.isPresent = true)
    (hactive : activeMechanismRequired d.active = true) :
    ∃ r ∈ captures, r.path = d.path ∧ r.forRecovery = true := by
  obtain ⟨value, hok⟩ := collect_each hcaptures d hd
  obtain ⟨before', hbefore', -, heq⟩ := captureRequest_eq_ok hok
  rw [hbefore] at hbefore'
  cases hbefore'
  have hdestroy : (recoverySelected control && activeEffectMayDestroyOld d.active before) =
      true := by
    simp [hselected, activeEffectMayDestroyOld, hpresent, hactive]
  rw [if_pos (by simp [hdestroy])] at heq
  subst heq
  exact ⟨_, (mem_collect hcaptures _).mpr ⟨d, hd, hok⟩, rfl, hdestroy⟩

end Captures

/-! ## Payloads -/

/-- Some effect of the decision consumes its incoming entry. -/
def PathDecision.consumesIncoming (d : PathDecision) : Bool :=
  d.active == .activateIncoming || d.rejected == .stageIncoming

/-- The image entry a decision names, at the decision's own path. -/
def PathDecision.Resolves (d : PathDecision) (image : PackageImage) (entry : PackageEntry) : Prop :=
  d.incomingEntry = some entry.id ∧ image.entry entry.id = some entry ∧ entry.path = d.path

/-- The regular entry that holds another entry's bytes: itself, or the anchor
of a hard link. -/
def PackageEntry.DrawsFrom (entry source : PackageEntry) : Prop :=
  source.type = .regular ∧
    (source = entry ∨ (entry.type = .hardlink ∧ entry.hardlinkTarget = some source.path))

section Payloads

variable {plan : OperationPlan} {image : PackageImage} {payloads : IncomingPayloadPlan}
  {d : PathDecision} {entry : PackageEntry}

/-- A payload is looked up in vain for no entry of the image, and what is
found is the regular entry that holds its bytes. -/
private theorem regularPayloadEntry_spec (hentry : entry ∈ image.entries) :
    ∃ payload, regularPayloadEntry image entry = .ok payload ∧ ∀ id, payload = some id ↔
      ∃ source ∈ image.entries, source.id = id ∧ entry.DrawsFrom source := by
  unfold regularPayloadEntry
  cases htype : entry.type with
  | regular =>
    refine ⟨_, rfl, fun id => ?_⟩
    constructor
    · intro h
      exact ⟨entry, hentry, Option.some.inj h, htype, .inl rfl⟩
    · rintro ⟨source, -, rfl, -, rfl | ⟨hlink, -⟩⟩
      · rfl
      · rw [htype] at hlink
        cases hlink
  | hardlink =>
    obtain ⟨target, htarget, hanchor, hregular⟩ := image.anchors_regular entry hentry htype
    simp only [hanchor, PackageImage.find_of_mem htarget, hregular, if_true]
    refine ⟨_, rfl, fun id => ?_⟩
    constructor
    · intro h
      exact ⟨target, htarget, Option.some.inj h, hregular, .inr ⟨htype, hanchor⟩⟩
    · rintro ⟨source, hsource, rfl, hregular', rfl | ⟨-, hanchor'⟩⟩
      · rw [htype] at hregular'
        cases hregular'
      · rw [hanchor] at hanchor'
        rw [List.inj_on_of_nodup_map image.paths_nodup htarget hsource (Option.some.inj hanchor')]
  | directory | symlink | fifo | characterDevice | blockDevice =>
    refine ⟨none, rfl, fun id => ⟨nofun, ?_⟩⟩
    rintro ⟨source, -, -, hregular, rfl | ⟨hlink, -⟩⟩
    · rw [htype] at hregular
      cases hregular
    · rw [htype] at hlink
      cases hlink

/-- A decision that consumes nothing requires nothing. -/
theorem payloadRequirement_of_not (h : d.consumesIncoming = false) :
    payloadRequirement image d = .ok none := by
  unfold payloadRequirement
  rw [if_pos]
  · rfl
  · unfold PathDecision.consumesIncoming at h
    rw [Bool.or_eq_false_iff] at h
    simp [h.1, h.2]

/-- The requirement of a decision that consumes its entry. -/
theorem payloadRequirement_of_resolves (h : d.consumesIncoming = true)
    (hresolves : d.Resolves image entry) :
    ∃ payload, regularPayloadEntry image entry = .ok payload ∧ payloadRequirement image d =
      .ok (some ⟨d.path, entry.id, payload, d.active == .activateIncoming,
        d.rejected == .stageIncoming⟩) := by
  obtain ⟨hid, hentry, hpath⟩ := hresolves
  obtain ⟨payload, hpayload, -⟩ := regularPayloadEntry_spec (PackageImage.mem_of_entry hentry)
  refine ⟨payload, hpayload, ?_⟩
  unfold payloadRequirement
  rw [if_neg]
  · simp only [hid, hentry]
    rw [refuseIf_bind_of_not (by simp [hpath]), hpayload]
    rfl
  · unfold PathDecision.consumesIncoming at h
    rw [Bool.or_eq_true] at h
    rcases h with h | h
    · simp [h]
    · simp [h]

/-- A requirement means the decision's entry resolves. -/
private theorem resolves_of_payloadRequirement (h : d.consumesIncoming = true)
    {r : Option IncomingPayloadRequirement} (hok : payloadRequirement image d = .ok r) :
    ∃ entry, d.Resolves image entry := by
  unfold payloadRequirement at hok
  rw [if_neg] at hok
  · cases hid : d.incomingEntry with
    | none => simp [hid] at hok
    | some id =>
      cases hentry : image.entry id with
      | none => simp [hid, hentry] at hok
      | some entry =>
        simp only [hid, hentry, refuseIf_bind_eq_ok] at hok
        have hsame := PackageImage.id_of_entry hentry
        exact ⟨entry, by rw [hid, hsame], by rw [hsame, hentry], not_not.mp hok.1⟩
  · unfold PathDecision.consumesIncoming at h
    rw [Bool.or_eq_true] at h
    rcases h with h | h
    · simp [h]
    · simp [h]

private theorem resolves_unique {entry' : PackageEntry} (h : d.Resolves image entry)
    (h' : d.Resolves image entry') : entry' = entry := by
  have hid : entry'.id = entry.id := Option.some.inj (h'.1.symm.trans h.1)
  have hentry := h'.2.1
  rw [hid, h.2.1] at hentry
  exact (Option.some.inj hentry).symm

theorem mem_sortUnique {ids : List EntryId} {id : EntryId} : id ∈ sortUnique ids ↔ id ∈ ids := by
  rw [sortUnique, List.mem_dedup]
  exact (List.perm_insertionSort _ _).mem_iff

theorem sortUnique_nodup (ids : List EntryId) : (sortUnique ids).Nodup := List.nodup_dedup _

/-- The requirement a decision gives rise to. -/
def PathDecision.Requires (d : PathDecision) (image : PackageImage)
    (r : IncomingPayloadRequirement) : Prop :=
  ∃ entry, d.Resolves image entry ∧ r.path = d.path ∧ r.imageEntry = entry.id ∧
    (r.requiredForActive ↔ d.active = .activateIncoming) ∧
    (r.requiredForRejected ↔ d.rejected = .stageIncoming) ∧
    ∀ id, r.regularPayloadEntry = some id ↔
      ∃ source ∈ image.entries, source.id = id ∧ entry.DrawsFrom source

/-- What one decision contributes to the closure. -/
private theorem payloadRequirement_spec {r : Option IncomingPayloadRequirement}
    (hok : payloadRequirement image d = .ok r) :
    (d.consumesIncoming = false ∧ r = none) ∨
      (d.consumesIncoming = true ∧ ∃ requirement, r = some requirement ∧
        d.Requires image requirement) := by
  cases hconsumes : d.consumesIncoming with
  | false =>
    rw [payloadRequirement_of_not hconsumes] at hok
    exact .inl ⟨rfl, (Except.ok.inj hok).symm⟩
  | true =>
    obtain ⟨entry, hresolves⟩ := resolves_of_payloadRequirement hconsumes hok
    obtain ⟨payload, hpayload, hrequirement⟩ := payloadRequirement_of_resolves hconsumes hresolves
    obtain ⟨payload', hpayload', hspec⟩ :=
      regularPayloadEntry_spec (PackageImage.mem_of_entry hresolves.2.1)
    rw [hpayload] at hpayload'
    cases hpayload'
    rw [hrequirement] at hok
    exact .inr ⟨rfl, _, (Except.ok.inj hok).symm, entry, hresolves, rfl, rfl, beq_iff_eq,
      beq_iff_eq, hspec⟩

/-- The closure is its requirements and what they select. -/
theorem prepareIncomingPayloads_eq_ok
    (h : prepareIncomingPayloads plan image = .ok payloads) :
    collect (payloadRequirement image) plan.paths = .ok payloads.requirements ∧
      payloads.image = image.identity ∧ payloads.selection =
        sortUnique (payloads.requirements.filterMap (·.regularPayloadEntry)) := by
  unfold prepareIncomingPayloads at h
  obtain ⟨requirements, hcollect, h⟩ := bind_eq_ok_iff.mp h
  cases h
  exact ⟨hcollect, rfl, rfl⟩

/-- What a requirement needs is selected. -/
theorem selection_of_requirement (h : prepareIncomingPayloads plan image = .ok payloads)
    {r : IncomingPayloadRequirement} (hr : r ∈ payloads.requirements) {id : EntryId}
    (hid : r.regularPayloadEntry = some id) : id ∈ payloads.selection := by
  rw [(prepareIncomingPayloads_eq_ok h).2.2, mem_sortUnique, List.mem_filterMap]
  exact ⟨r, hr, hid⟩

/-- The requirements are those of the decisions that consume an entry. -/
theorem requirements_forall₂ (h : prepareIncomingPayloads plan image = .ok payloads) :
    List.Forall₂ (fun d r => d.Requires image r)
      (plan.paths.filter PathDecision.consumesIncoming) payloads.requirements := by
  obtain ⟨hcollect, -, -⟩ := prepareIncomingPayloads_eq_ok h
  refine (collect_forall₂ _ (fun d _ r hok => ?_) hcollect).imp fun d r hok => ?_
  · rcases payloadRequirement_spec hok with ⟨hnot, rfl⟩ | ⟨hconsumes, requirement, rfl, -⟩
    · simp [hnot]
    · simp [hconsumes]
  · rcases payloadRequirement_spec hok with ⟨-, hr⟩ | ⟨-, requirement, hr, hrequires⟩
    · cases hr
    · cases hr
      exact hrequires

theorem mem_requirements (h : prepareIncomingPayloads plan image = .ok payloads)
    {r : IncomingPayloadRequirement} (hr : r ∈ payloads.requirements) :
    ∃ d ∈ plan.paths, d.consumesIncoming ∧ d.Requires image r := by
  obtain ⟨hcollect, -, -⟩ := prepareIncomingPayloads_eq_ok h
  obtain ⟨d, hd, hok⟩ := (mem_collect hcollect r).mp hr
  rcases payloadRequirement_spec hok with ⟨-, hr⟩ | ⟨hconsumes, requirement, hr, hrequires⟩
  · cases hr
  · cases hr
    exact ⟨d, hd, hconsumes, hrequires⟩

theorem exists_requirement (h : prepareIncomingPayloads plan image = .ok payloads)
    (hd : d ∈ plan.paths) (hconsumes : d.consumesIncoming = true) :
    ∃ r ∈ payloads.requirements, d.Requires image r := by
  obtain ⟨hcollect, -, -⟩ := prepareIncomingPayloads_eq_ok h
  obtain ⟨value, hok⟩ := collect_each hcollect d hd
  rcases payloadRequirement_spec hok with ⟨hnot, -⟩ | ⟨-, requirement, rfl, hrequires⟩
  · rw [hconsumes] at hnot
    cases hnot
  · exact ⟨requirement, (mem_collect hcollect _).mpr ⟨d, hd, hok⟩, hrequires⟩

/-- The selection is the regular entries that hold the bytes consumed. -/
theorem mem_selection (h : prepareIncomingPayloads plan image = .ok payloads) (id : EntryId) :
    id ∈ payloads.selection ↔ ∃ source ∈ image.entries, source.id = id ∧
      ∃ d ∈ plan.paths, d.consumesIncoming ∧
        ∃ entry, d.Resolves image entry ∧ entry.DrawsFrom source := by
  obtain ⟨-, -, hselection⟩ := prepareIncomingPayloads_eq_ok h
  rw [hselection, mem_sortUnique, List.mem_filterMap]
  constructor
  · rintro ⟨r, hr, hid⟩
    obtain ⟨d, hd, hconsumes, entry, hresolves, -, -, -, -, hpayload⟩ := mem_requirements h hr
    obtain ⟨source, hsource, hsame, hdraws⟩ := (hpayload id).mp hid
    exact ⟨source, hsource, hsame, d, hd, hconsumes, entry, hresolves, hdraws⟩
  · rintro ⟨source, hsource, hsame, d, hd, hconsumes, entry, hresolves, hdraws⟩
    obtain ⟨r, hr, entry', hresolves', -, -, -, -, hpayload⟩ := exists_requirement h hd hconsumes
    rw [resolves_unique hresolves hresolves'] at hpayload
    exact ⟨r, hr, (hpayload id).mpr ⟨source, hsource, hsame, hdraws⟩⟩

/-- A payload closure exists exactly when every entry an effect consumes
resolves.  It then has one requirement for each such decision, and selects
exactly the regular entries that hold the bytes, each once: a hard link brings
its anchor, whatever becomes of the anchor's own path. -/
theorem prepareIncomingPayloads_exact (plan : OperationPlan) (image : PackageImage) :
    ((∃ payloads, prepareIncomingPayloads plan image = .ok payloads) ↔
      ∀ d ∈ plan.paths, d.consumesIncoming → ∃ entry, d.Resolves image entry) ∧
    ∀ payloads, prepareIncomingPayloads plan image = .ok payloads →
      List.Forall₂ (fun d r => d.Requires image r)
        (plan.paths.filter PathDecision.consumesIncoming) payloads.requirements ∧
      payloads.selection.Nodup ∧
      (∀ id, id ∈ payloads.selection ↔ ∃ source ∈ image.entries, source.id = id ∧
        ∃ d ∈ plan.paths, d.consumesIncoming ∧
          ∃ entry, d.Resolves image entry ∧ entry.DrawsFrom source) ∧
      ∀ d ∈ plan.paths, d.consumesIncoming → ∀ entry, d.Resolves image entry →
        entry.type = .hardlink → ∃ anchor ∈ image.entries,
          entry.hardlinkTarget = some anchor.path ∧ anchor.type = .regular ∧
            anchor.id ∈ payloads.selection := by
  refine ⟨⟨?_, fun hall => ?_⟩, fun payloads h => ⟨requirements_forall₂ h, ?_, mem_selection h, ?_⟩⟩
  · rintro ⟨payloads, h⟩ d hd hconsumes
    obtain ⟨hcollect, -, -⟩ := prepareIncomingPayloads_eq_ok h
    obtain ⟨value, hok⟩ := collect_each hcollect d hd
    exact resolves_of_payloadRequirement hconsumes hok
  · have hsome : ∀ d ∈ plan.paths, ∃ value, payloadRequirement image d = .ok value := by
      intro d hd
      cases hconsumes : d.consumesIncoming with
      | false => exact ⟨none, payloadRequirement_of_not hconsumes⟩
      | true =>
        obtain ⟨entry, hresolves⟩ := hall d hd hconsumes
        obtain ⟨payload, -, hrequirement⟩ := payloadRequirement_of_resolves hconsumes hresolves
        exact ⟨_, hrequirement⟩
    obtain ⟨requirements, hcollect⟩ := collect_ok hsome
    exact ⟨_, bind_eq_ok_iff.mpr ⟨requirements, hcollect, rfl⟩⟩
  · rw [(prepareIncomingPayloads_eq_ok h).2.2]
    exact sortUnique_nodup _
  · intro d hd hconsumes entry hresolves htype
    obtain ⟨anchor, hanchor, htarget, hregular⟩ :=
      image.anchors_regular entry (PackageImage.mem_of_entry hresolves.2.1) htype
    refine ⟨anchor, hanchor, htarget, hregular, (mem_selection h _).mpr ?_⟩
    exact ⟨anchor, hanchor, rfl, d, hd, hconsumes, entry, hresolves, hregular, .inr ⟨htype, htarget⟩⟩

end Payloads

/-! ## The schedule -/

/-- The payload closure of a plan, if it has an image. -/
def preparePayloads (plan : OperationPlan) : Option PackageImage →
    Except Exn (Option IncomingPayloadPlan)
  | none => return none
  | some image => do
    let payloads ← prepareIncomingPayloads plan image
    return some payloads

/-- Captures, payloads and schedule prepared from one plan, control and image.
Only a removal has no image. -/
structure PlanClosure where
  plan : OperationPlan
  control : ExecutionControl
  image : Option PackageImage
  image_iff : image.isSome ↔ plan.kind ≠ .remove
  captures : List OldObjectCaptureRequest
  payloads : Option IncomingPayloadPlan
  schedule : List EffectStep
  captures_ok : prepareOldObjectCaptures plan control = .ok captures
  payloads_ok : preparePayloads plan image = .ok payloads
  schedule_ok : prepareApplicationSchedule plan image payloads captures = .ok schedule

namespace PlanClosure

variable {P : PlanClosure}

/-- Scheduled steps of one kind. -/
def steps (P : PlanClosure) (kind : EffectStepKind) : List EffectStep :=
  stepsOfKind P.schedule kind

/-- The entries selected for staging. -/
def selection (P : PlanClosure) : List EntryId :=
  (P.payloads.map IncomingPayloadPlan.selection).getD []

theorem payloads_of_image {image : PackageImage} (h : P.image = some image) :
    ∃ payloads, P.payloads = some payloads ∧
      prepareIncomingPayloads P.plan image = .ok payloads := by
  have hok := P.payloads_ok
  rw [h] at hok
  obtain ⟨payloads, hprepare, hsome⟩ := bind_eq_ok_iff.mp hok
  exact ⟨payloads, (Except.ok.inj hsome).symm, hprepare⟩

theorem payloads_of_no_image (h : P.image = none) : P.payloads = none := by
  have hok := P.payloads_ok
  rw [h] at hok
  exact (Except.ok.inj hok).symm

/-- The step that stages an entry. -/
private theorem stagingStep_eq_ok {image : PackageImage} {id : EntryId} {s : Option EffectStep}
    (h : stagingStep image id = .ok s) : ∃ entry, image.entry id = some entry ∧
      entry.type = .regular ∧ s = some ⟨.stageRegularPayload, entry.path, some id⟩ := by
  unfold stagingStep at h
  cases hentry : image.entry id with
  | none => simp [hentry] at h
  | some entry =>
    simp only [hentry, refuseIf_bind_eq_ok] at h
    exact ⟨entry, rfl, not_not.mp h.1, (Except.ok.inj h.2).symm⟩

/-- The staging part of the schedule stages the selection, entry by entry. -/
private theorem payloadSteps_forall₂ {staged : List EffectStep}
    (h : payloadSteps P.image P.payloads = .ok staged) :
    List.Forall₂ (fun id s => ∃ image entry, P.image = some image ∧ image.entry id = some entry ∧
      s = ⟨.stageRegularPayload, entry.path, some id⟩) P.selection staged := by
  cases himage : P.image with
  | none =>
    have hnone := payloads_of_no_image himage
    rw [hnone] at h
    cases h
    rw [selection, hnone]
    exact .nil
  | some image =>
    obtain ⟨payloads, hpayloads, hprepare⟩ := payloads_of_image himage
    obtain ⟨-, hidentity, hselection⟩ := prepareIncomingPayloads_eq_ok hprepare
    simp only [hpayloads, himage, payloadSteps, hidentity, ne_eq, not_true_eq_false,
      if_false, ← hselection] at h
    have heq : P.selection = payloads.selection := by
      rw [selection, hpayloads]
      rfl
    rw [heq]
    have hsteps := collect_forall₂ (fun _ => true) (fun id _ s hs => ?_) h
    · rw [List.filter_true] at hsteps
      refine hsteps.imp fun id s hs => ?_
      obtain ⟨entry, hentry, -, hsome⟩ := stagingStep_eq_ok hs
      exact ⟨image, entry, rfl, hentry, Option.some.inj hsome⟩
    · obtain ⟨entry, -, -, rfl⟩ := stagingStep_eq_ok hs
      rfl

/-- The schedule by kinds. -/
structure Parts (P : PlanClosure) (staged active : List EffectStep) : Prop where
  schedule : P.schedule = P.captures.map (fun c => ⟨.captureOldObject, c.path, none⟩) ++ staged ++
    ((P.plan.paths.filter fun d => d.rejected != .none).map fun d =>
      ⟨.publishRejectedObject, d.path, d.incomingEntry⟩) ++ active ++
    P.plan.paths.map fun d => ⟨.observeResult, d.path, none⟩
  staged : List.Forall₂ (fun id s => ∃ image entry, P.image = some image ∧
    image.entry id = some entry ∧ s = ⟨.stageRegularPayload, entry.path, some id⟩) P.selection staged
  active : active.Perm ((P.plan.paths.filter fun d => activeMechanismRequired d.active).map
    fun d => ⟨.publishActiveObject, d.path, d.incomingEntry⟩)

/-- The active part of the schedule is the ordering of the active nodes. -/
theorem parts_ordered (P : PlanClosure) : ∃ staged nodes ordered,
    collect (activeNode P.image) P.plan.paths = .ok nodes ∧
      orderActiveNodes nodes P.image = .ok ordered ∧
        P.Parts staged (ordered.map fun node => ⟨.publishActiveObject, node.path, node.incoming⟩) := by
  have h := P.schedule_ok
  unfold prepareApplicationSchedule at h
  simp only [bind_eq_ok_iff, pure, Except.pure, Except.ok.injEq] at h
  obtain ⟨staged, hstaged, nodes, hnodes, ordered, hordered, hschedule⟩ := h
  have hperm := orderActiveNodes_perm hnodes hordered
  have hactive := collect_forall₂ (fun d => activeMechanismRequired d.active)
    (fun d _ node hok => ?_) hnodes
  · have hmap : List.Forall₂ (· = ·)
        (nodes.map fun node => (⟨.publishActiveObject, node.path, node.incoming⟩ : EffectStep))
        ((P.plan.paths.filter fun d => activeMechanismRequired d.active).map
          fun d => ⟨.publishActiveObject, d.path, d.incomingEntry⟩) := by
      rw [List.forall₂_map_left_iff, List.forall₂_map_right_iff]
      refine hactive.flip.imp fun node d hok => ?_
      obtain ⟨hpath, -, hincoming, -⟩ := activeNode_eq_some hok
      rw [hpath, hincoming]
    rw [List.forall₂_eq_eq_eq] at hmap
    exact ⟨staged, nodes, ordered, hnodes, hordered, hschedule.symm, payloadSteps_forall₂ hstaged,
      hmap ▸ hperm.map _⟩
  · cases node with
    | none => simp [activeNode_eq_none hok]
    | some node => simp [(activeNode_eq_some hok).2.2.2.1]

theorem parts (P : PlanClosure) : ∃ staged active, P.Parts staged active := by
  obtain ⟨staged, nodes, ordered, -, -, hparts⟩ := P.parts_ordered
  exact ⟨staged, _, hparts⟩

/-! ## The schedule by kinds -/

private theorem filter_uniform {l : List EffectStep} {kind : EffectStepKind}
    (h : ∀ s ∈ l, s.kind = kind) (wanted : EffectStepKind) :
    l.filter (fun s => s.kind == wanted) = if kind = wanted then l else [] := by
  split
  · rename_i hkind
    exact List.filter_eq_self.mpr fun s hs => by simp [h s hs, hkind]
  · rename_i hkind
    exact List.filter_eq_nil_iff.mpr fun s hs => by simp [h s hs, hkind]

private theorem kind_of_mem_map {α : Type} {l : List α} {kind : EffectStepKind}
    {f : α → PackagePath} {g : α → Option EntryId} :
    ∀ s ∈ l.map (fun a => (⟨kind, f a, g a⟩ : EffectStep)), s.kind = kind := by
  intro s hs
  obtain ⟨a, -, rfl⟩ := List.mem_map.mp hs
  rfl

variable {staged active : List EffectStep}

theorem Parts.mem_staged (hs : P.Parts staged active) {s : EffectStep} (h : s ∈ staged) :
    ∃ id ∈ P.selection, ∃ image entry, P.image = some image ∧ image.entry id = some entry ∧
      s = ⟨.stageRegularPayload, entry.path, some id⟩ := by
  obtain ⟨i, hi, rfl⟩ := List.mem_iff_getElem.mp h
  have hlength := hs.staged.length_eq
  exact ⟨_, List.getElem_mem (by omega), hs.staged.get (by omega) hi⟩

theorem Parts.staged_of_mem (hs : P.Parts staged active) {id : EntryId} (h : id ∈ P.selection) :
    ∃ s ∈ staged, ∃ image entry, P.image = some image ∧ image.entry id = some entry ∧
      s = ⟨.stageRegularPayload, entry.path, some id⟩ := by
  obtain ⟨i, hi, rfl⟩ := List.mem_iff_getElem.mp h
  have hlength := hs.staged.length_eq
  exact ⟨_, List.getElem_mem (by omega), hs.staged.get hi (by omega)⟩

theorem Parts.mem_active (hs : P.Parts staged active) (s : EffectStep) : s ∈ active ↔
    ∃ d ∈ P.plan.paths, activeMechanismRequired d.active = true ∧
      s = ⟨.publishActiveObject, d.path, d.incomingEntry⟩ := by
  rw [hs.active.mem_iff, List.mem_map]
  simp only [List.mem_filter, and_assoc, eq_comm]

private theorem steps_eq (hs : P.Parts staged active) (kind : EffectStepKind) :
    P.steps kind =
      (if EffectStepKind.captureOldObject = kind then
        P.captures.map (fun c => ⟨.captureOldObject, c.path, none⟩) else []) ++
      (if EffectStepKind.stageRegularPayload = kind then staged else []) ++
      (if EffectStepKind.publishRejectedObject = kind then
        ((P.plan.paths.filter fun d => d.rejected != .none).map fun d =>
          ⟨.publishRejectedObject, d.path, d.incomingEntry⟩) else []) ++
      (if EffectStepKind.publishActiveObject = kind then active else []) ++
      (if EffectStepKind.observeResult = kind then
        P.plan.paths.map fun d => ⟨.observeResult, d.path, none⟩ else []) := by
  have hstaged : ∀ s ∈ staged, s.kind = .stageRegularPayload := by
    intro s h
    obtain ⟨id, -, image, entry, -, -, rfl⟩ := hs.mem_staged h
    rfl
  have hactive : ∀ s ∈ active, s.kind = .publishActiveObject := by
    intro s h
    obtain ⟨d, -, -, rfl⟩ := (hs.mem_active s).mp h
    rfl
  unfold steps stepsOfKind
  rw [hs.schedule]
  simp only [List.filter_append, filter_uniform kind_of_mem_map, filter_uniform hstaged,
    filter_uniform hactive]

theorem steps_capture (P : PlanClosure) : P.steps .captureOldObject =
    P.captures.map fun c => ⟨.captureOldObject, c.path, none⟩ := by
  obtain ⟨staged, active, hs⟩ := P.parts
  rw [steps_eq hs]
  simp

theorem Parts.steps_stage (hs : P.Parts staged active) : P.steps .stageRegularPayload = staged := by
  rw [steps_eq hs]
  simp

theorem steps_rejected (P : PlanClosure) : P.steps .publishRejectedObject =
    (P.plan.paths.filter fun d => d.rejected != .none).map fun d =>
      ⟨.publishRejectedObject, d.path, d.incomingEntry⟩ := by
  obtain ⟨staged, active, hs⟩ := P.parts
  rw [steps_eq hs]
  simp

theorem Parts.steps_active (hs : P.Parts staged active) : P.steps .publishActiveObject = active := by
  rw [steps_eq hs]
  simp

theorem steps_observe (P : PlanClosure) : P.steps .observeResult =
    P.plan.paths.map fun d => ⟨.observeResult, d.path, none⟩ := by
  obtain ⟨staged, active, hs⟩ := P.parts
  rw [steps_eq hs]
  simp

theorem steps_stage_length (P : PlanClosure) :
    (P.steps .stageRegularPayload).length = P.selection.length := by
  obtain ⟨staged, active, hs⟩ := P.parts
  rw [hs.steps_stage]
  exact hs.staged.length_eq.symm

/-- The active steps are the decisions a mechanism carries out. -/
theorem mem_steps_active (s : EffectStep) : s ∈ P.steps .publishActiveObject ↔
    ∃ d ∈ P.plan.paths, activeMechanismRequired d.active = true ∧
      s = ⟨.publishActiveObject, d.path, d.incomingEntry⟩ := by
  obtain ⟨staged, active, hs⟩ := P.parts
  rw [hs.steps_active, hs.mem_active]

theorem mem_steps_kind {kind : EffectStepKind} {s : EffectStep} (h : s ∈ P.steps kind) :
    s.kind = kind := by
  simpa using List.of_mem_filter h

theorem selection_nodup (P : PlanClosure) : P.selection.Nodup := by
  unfold selection
  cases himage : P.image with
  | none =>
    rw [payloads_of_no_image himage]
    exact List.nodup_nil
  | some image =>
    obtain ⟨payloads, hpayloads, hprepare⟩ := payloads_of_image himage
    rw [hpayloads]
    change payloads.selection.Nodup
    rw [(prepareIncomingPayloads_eq_ok hprepare).2.2]
    exact sortUnique_nodup _

/-- A path determines the entry staged there. -/
private theorem Parts.staged_nodup (hs : P.Parts staged active) :
    (staged.map EffectStep.path).Nodup := by
  have hentries : List.Forall₂ (· = ·) (P.selection.map some)
      (staged.map EffectStep.incomingEntry) := by
    rw [List.forall₂_map_left_iff, List.forall₂_map_right_iff]
    refine hs.staged.imp fun id s h => ?_
    obtain ⟨image, entry, -, -, rfl⟩ := h
    rfl
  rw [List.forall₂_eq_eq_eq] at hentries
  have hsteps : staged.Nodup := by
    refine List.Nodup.of_map EffectStep.incomingEntry ?_
    rw [← hentries]
    exact P.selection_nodup.map (Option.some_injective _)
  refine List.Nodup.map_on (fun s h s' h' hpath => ?_) hsteps
  obtain ⟨id, -, image, entry, himage, hentry, rfl⟩ := hs.mem_staged h
  obtain ⟨id', -, image', entry', himage', hentry', rfl⟩ := hs.mem_staged h'
  rw [himage] at himage'
  cases himage'
  have hsame : entry = entry' := List.inj_on_of_nodup_map image.paths_nodup
    (PackageImage.mem_of_entry hentry) (PackageImage.mem_of_entry hentry') hpath
  subst hsame
  rw [← PackageImage.id_of_entry hentry, ← PackageImage.id_of_entry hentry']

/-- Each kind has at most one step at a path. -/
theorem steps_nodup (P : PlanClosure) (kind : EffectStepKind) :
    ((P.steps kind).map EffectStep.path).Nodup := by
  obtain ⟨staged, active, hs⟩ := P.parts
  have hplan := P.plan.paths_nodup
  cases kind with
  | captureOldObject =>
    rw [steps_capture, List.map_map]
    exact captures_nodup P.captures_ok
  | stageRegularPayload =>
    rw [hs.steps_stage]
    exact hs.staged_nodup
  | publishRejectedObject =>
    rw [steps_rejected, List.map_map]
    exact (List.filter_sublist.map _).nodup hplan
  | publishActiveObject =>
    rw [hs.steps_active, (hs.active.map EffectStep.path).nodup_iff, List.map_map]
    exact (List.filter_sublist.map _).nodup hplan
  | observeResult =>
    rw [steps_observe, List.map_map]
    exact hplan

/-- Kind and path tell the steps of a schedule apart. -/
theorem schedule_nodup (P : PlanClosure) : (P.schedule.map fun s => (s.kind, s.path)).Nodup := by
  have hkinds : ∀ l : List EffectStep,
      (∀ kind, ((stepsOfKind l kind).map EffectStep.path).Nodup) →
      (l.map fun s => (s.kind, s.path)).Nodup := by
    intro l
    induction l with
    | nil => exact fun _ => List.nodup_nil
    | cons s rest ih =>
      intro h
      rw [List.map_cons, List.nodup_cons]
      constructor
      · intro hmem
        obtain ⟨s', hs', heq⟩ := List.mem_map.mp hmem
        obtain ⟨hkind, hpath⟩ := Prod.mk.inj heq
        have hs := h s.kind
        unfold stepsOfKind at hs
        rw [List.filter_cons_of_pos (by simp), List.map_cons, List.nodup_cons] at hs
        exact hs.1 (List.mem_map.mpr ⟨s', List.mem_filter.mpr ⟨hs', by simp [hkind]⟩, hpath⟩)
      · refine ih fun kind => ?_
        refine List.Nodup.sublist ?_ (h kind)
        exact ((List.sublist_cons_self s rest).filter _).map _
  exact hkinds P.schedule P.steps_nodup

end PlanClosure

end PkgApply
