import PkgApply.Engine.Admitted
import PkgApply.Engine.Ledger
import PkgApply.Engine.Recovery
import PkgApply.Knowledge

/-!
# The effect graph of an admitted application

Kind and path name each declared effect, so the engine finds every effect it
looks for, and the journal of an application can be read as a ledger.
-/

namespace PkgApply

/-! ## Finding effects -/

/-- Among effects with distinct keys, the one looked for is found. -/
theorem findEffect_of_mem {effects : List JournalEffect}
    (hnodup : (effects.map fun e => (e.kind, e.path)).Nodup) {e : JournalEffect}
    (he : e ∈ effects) : matchingEffects effects e.kind e.path = [e] := by
  unfold matchingEffects
  induction effects with
  | nil => cases he
  | cons x rest ih =>
    rw [List.map_cons, List.nodup_cons] at hnodup
    have hnone : ∀ y ∈ rest, (y.kind == x.kind && y.path == x.path) = false := by
      intro y hy
      by_contra hmatch
      rw [Bool.not_eq_false, Bool.and_eq_true, beq_iff_eq, beq_iff_eq] at hmatch
      exact hnodup.1 (List.mem_map.mpr ⟨y, hy, by rw [hmatch.1, hmatch.2]⟩)
    rcases List.mem_cons.mp he with rfl | hrest
    · rw [List.filter_cons_of_pos (by simp), List.filter_eq_nil_iff.mpr]
      intro y hy
      simp [hnone y hy]
    · have hx : (x.kind == e.kind && x.path == e.path) = false := by
        by_contra hmatch
        rw [Bool.not_eq_false, Bool.and_eq_true, beq_iff_eq, beq_iff_eq] at hmatch
        exact hnodup.1 (List.mem_map.mpr ⟨e, hrest, by rw [hmatch.1, hmatch.2]⟩)
      rw [List.filter_cons_of_neg (by simp [hx]), ih hnodup.2 hrest]

/-! ## Keys -/

theorem journalKind_injective : Function.Injective journalKind := by
  intro a b h
  cases a <;> cases b <;> first | rfl | cases h

section Keys

variable {schedule : List EffectStep} {s : EffectSelection}

theorem journalEffects_getElem? (schedule : List EffectStep) (s : EffectSelection) (i : Nat) :
    (journalEffects schedule s)[i]? = (journalKeys schedule s)[i]?.map fun k => k.effect i := by
  unfold journalEffects
  rw [List.getElem?_mapIdx]

/-- Effects have the kinds and paths of the keys, in order. -/
theorem journalEffects_keys (schedule : List EffectStep) (s : EffectSelection) :
    ((journalEffects schedule s).map fun e => (e.kind, e.path)) =
      (journalKeys schedule s).map fun k => (k.kind, k.path) := by
  refine List.ext_getElem? fun i => ?_
  simp only [List.getElem?_map, journalEffects_getElem?, Option.map_map]
  rfl

private theorem domainKeys_nodup (s : EffectSelection) :
    ((domainKeys s).map fun k => (k.kind, k.path)).Nodup := by
  obtain ⟨incoming, recovery, active, rejected, allDomains⟩ := s
  revert incoming recovery active rejected allDomains
  decide

private theorem domainKeys_path (s : EffectSelection) : ∀ k ∈ domainKeys s, k.path = none := by
  obtain ⟨incoming, recovery, active, rejected, allDomains⟩ := s
  revert incoming recovery active rejected allDomains
  decide

/-- Steps told apart by kind and path give effects told apart by them. -/
theorem journalKeys_nodup (hschedule : (schedule.map fun x => (x.kind, x.path)).Nodup)
    (s : EffectSelection) : ((journalKeys schedule s).map fun k => (k.kind, k.path)).Nodup := by
  unfold journalKeys
  rw [List.map_append, List.map_append, List.map_map, List.nodup_append, List.nodup_append]
  refine ⟨⟨?_, ?_, ?_⟩, domainKeys_nodup s, ?_⟩
  · have hpairs := hschedule.map
      (f := fun x => (journalKind x.1, some x.2)) (fun x y hxy => by
        obtain ⟨hkind, hpath⟩ := Prod.mk.inj hxy
        exact Prod.ext (journalKind_injective hkind) (Option.some.inj hpath))
    rwa [List.map_map] at hpairs
  · have hactive : ((stepsOfKind schedule .publishActiveObject).map fun x => (x.kind, x.path)).Nodup :=
      (List.filter_sublist.map _).nodup hschedule
    unfold recoverKeys
    rw [List.map_map, List.map_reverse, List.nodup_reverse]
    refine List.Nodup.map_on (fun x hx y hy hxy => ?_) (List.Nodup.of_map _ hactive)
    have hpath : x.path = y.path := Option.some.inj (Prod.mk.inj hxy).2
    have hkinds : x.kind = y.kind := by
      have hxk : x.kind = .publishActiveObject := by simpa using List.of_mem_filter hx
      have hyk : y.kind = .publishActiveObject := by simpa using List.of_mem_filter hy
      rw [hxk, hyk]
    exact List.inj_on_of_nodup_map hactive hx hy (Prod.ext hkinds hpath)
  · rintro x hx y hy rfl
    obtain ⟨step, -, rfl⟩ := List.mem_map.mp hx
    obtain ⟨k, hk, hkey⟩ := List.mem_map.mp hy
    obtain ⟨step', -, rfl⟩ := List.mem_map.mp hk
    have hkind := (Prod.mk.inj hkey).1
    cases hs : step.kind <;> simp [EffectStep.key, journalKind, hs] at hkind
  · rintro x hx y hy rfl
    obtain ⟨k, hk, hkey⟩ := List.mem_map.mp hy
    have hpath := (Prod.mk.inj hkey).2
    rw [domainKeys_path _ k hk] at hpath
    rcases List.mem_append.mp hx with hx | hx
    · obtain ⟨step, -, rfl⟩ := List.mem_map.mp hx
      cases hpath
    · obtain ⟨k', hk', rfl⟩ := List.mem_map.mp hx
      obtain ⟨step', -, rfl⟩ := List.mem_map.mp hk'
      cases hpath

/-- A key of the journal is found among its effects. -/
theorem findEffect_of_key (hschedule : (schedule.map fun x => (x.kind, x.path)).Nodup)
    {k : EffectKey} (hk : k ∈ journalKeys schedule s) :
    ∃ e ∈ journalEffects schedule s,
      findEffect (journalEffects schedule s) k.kind k.path = .ok e ∧
        e.kind = k.kind ∧ e.path = k.path := by
  have hpair : (k.kind, k.path) ∈ (journalEffects schedule s).map fun e => (e.kind, e.path) := by
    rw [journalEffects_keys]
    exact List.mem_map.mpr ⟨k, hk, rfl⟩
  obtain ⟨e, he, heq⟩ := List.mem_map.mp hpair
  obtain ⟨hkind, hpath⟩ := Prod.mk.inj heq
  have hfind := findEffect_of_mem (by rw [journalEffects_keys]; exact journalKeys_nodup hschedule s) he
  rw [hkind, hpath] at hfind
  exact ⟨e, he, by simp only [findEffect, hfind], hkind, hpath⟩

/-- The kinds among the effects without a path. -/
private theorem mem_domainKeys (s : EffectSelection) (kind : EffectKind) :
    (∃ k ∈ domainKeys s, k.kind = kind) ↔
      match kind with
      | .synchronizeIncomingStaging => s.incoming = true
      | .synchronizeRecoveryStaging => s.recovery = true
      | .synchronizeActiveNamespace | .synchronizeRecoveredNamespace =>
        s.active = true ∧ s.allDomains = true
      | .synchronizeRejectedStore => s.rejected = true ∧ s.allDomains = true
      | .publishCompletedEvidence | .synchronizeCompletedEvidence | .sealReceipt => True
      | _ => False := by
  obtain ⟨incoming, recovery, active, rejected, allDomains⟩ := s
  cases kind <;> revert incoming recovery active rejected allDomains <;> decide

end Keys

/-! ## The closure of a plan and its journal -/

namespace PlanClosure

variable {P : PlanClosure} {request : ApplicationRequest} {app : JournaledApplication}
  {s : EffectSelection} {d : PathDecision}

/-- The engine applies a request with the captures, payloads and schedule of
the closure. -/
structure Serves (P : PlanClosure) (request : ApplicationRequest) (app : JournaledApplication) :
    Prop where
  plan : request.plan = P.plan
  control : request.control = P.control
  image : request.image = P.image
  captures : app.captures = P.captures
  payloads : app.payloads = P.payloads
  schedule : app.schedule = P.schedule

/-- A result of carrying out a scheduled step. -/
def Attempts (app : JournaledApplication) (kind : EffectStepKind) (path : PackagePath) : Prop :=
  ∃ step ∈ app.stepsOf kind, step.path = path

/-- Which effects executing the schedule looks up.  At a path: those of every
capture, selected entry and decision.  Without one: those behind the guards of
the engine, read at any results of scheduled steps it may hold by then. -/
def LooksUp (P : PlanClosure) (request : ApplicationRequest) (app : JournaledApplication)
    (kind : EffectKind) (path : Option PackagePath) : Prop :=
  match kind with
  | .captureOldObject => ∃ capture ∈ P.captures, path = some capture.path
  | .stageIncomingPayload => ∃ id ∈ P.selection, ∃ image entry, P.image = some image ∧
      image.entry id = some entry ∧ path = some entry.path
  | .publishRejectedObject => ∃ d ∈ P.plan.paths, d.rejected ≠ .none ∧ path = some d.path
  | .publishActiveObject | .recoverActiveObject =>
    ∃ d ∈ P.plan.paths, activeMechanismRequired d.active ∧ path = some d.path
  | .observeResult => ∃ d ∈ P.plan.paths, path = some d.path
  -- a payload stage was filled and sealed
  | .synchronizeIncomingStaging => path = none ∧
      ∃ payloads, app.payloads = some payloads ∧ payloads.selection.length ≠ 0
  -- at least one object was captured
  | .synchronizeRecoveryStaging => path = none ∧ ∃ capture, capture ∈ app.captures
  | .synchronizeActiveNamespace => path = none ∧ ∃ effects : List ActiveEffectResult,
      (∀ e ∈ effects, Attempts app .publishActiveObject e.request.path) ∧
      activeSynchronizationRequired request.control effects = true
  -- there was something to recover, and it was recovered
  | .synchronizeRecoveredNamespace => path = none ∧ ∃ effects : List ActiveEffectResult,
      (∀ e ∈ effects, Attempts app .publishActiveObject e.request.path) ∧
      (recoveryCandidates effects).isEmpty = false ∧ recoverySelected request.control = true ∧
      requiresRecoveredNamespaceSynchronization request.control = true
  | .synchronizeRejectedStore => path = none ∧ ∃ effects : List RejectedEffectResult,
      (∀ e ∈ effects, Attempts app .publishRejectedObject e.request.path) ∧
      (!effects.isEmpty && requiresDomainSynchronization request.control) = true
  | .publishCompletedEvidence | .synchronizeCompletedEvidence | .sealReceipt => path = none

/-- A plan has an active effect exactly when its schedule has an active step. -/
theorem hasActiveEffect_iff (P : PlanClosure) :
    hasActiveEffect P.plan = true ↔ P.steps .publishActiveObject ≠ [] := by
  unfold hasActiveEffect
  rw [List.any_eq_true, List.ne_nil_iff_exists_cons]
  constructor
  · rintro ⟨d, hd, hactive⟩
    have hrequired : activeMechanismRequired d.active = true := by
      cases h : d.active <;> simp_all [activeMechanismRequired]
    have hmem := (mem_steps_active (P := P) _).mpr ⟨d, hd, hrequired, rfl⟩
    obtain ⟨s, rest, heq⟩ := List.exists_cons_of_ne_nil (List.ne_nil_of_mem hmem)
    exact ⟨s, rest, heq⟩
  · rintro ⟨s, rest, heq⟩
    have hmem : s ∈ P.steps .publishActiveObject := by
      rw [heq]
      exact List.mem_cons_self
    obtain ⟨d, hd, hrequired, -⟩ := (mem_steps_active _).mp hmem
    refine ⟨d, hd, ?_⟩
    cases h : d.active <;> simp_all [activeMechanismRequired]

/-- A plan has a rejected effect exactly when its schedule has a rejected step. -/
theorem hasRejectedEffect_iff (P : PlanClosure) :
    hasRejectedEffect P.plan = true ↔ P.steps .publishRejectedObject ≠ [] := by
  unfold hasRejectedEffect
  rw [steps_rejected, List.any_eq_true, ne_eq, List.map_eq_nil_iff, List.filter_eq_nil_iff]
  push Not
  rfl

/-- The engine's schedule has a step wherever it has a result. -/
private theorem Serves.steps (h : P.Serves request app) {kind : EffectStepKind}
    {path : PackagePath} (hattempts : Attempts app kind path) : P.steps kind ≠ [] := by
  obtain ⟨step, hstep, -⟩ := hattempts
  unfold JournaledApplication.stepsOf at hstep
  rw [h.schedule] at hstep
  exact List.ne_nil_of_mem hstep

private theorem Serves.active (h : P.Serves request app) {effects : List ActiveEffectResult}
    (hattempts : ∀ e ∈ effects, Attempts app .publishActiveObject e.request.path)
    (hne : effects ≠ []) : hasActiveEffect request.plan = true := by
  obtain ⟨e, rest, rfl⟩ := List.exists_cons_of_ne_nil hne
  rw [h.plan, hasActiveEffect_iff]
  exact h.steps (hattempts e List.mem_cons_self)

/-- The step consumes the incoming entry of a decision. -/
def ConsumesIncoming (step : EffectStep) (d : PathDecision) : Prop :=
  (step.kind = .publishRejectedObject ∧ d.rejected = .stageIncoming) ∨
    (step.kind = .publishActiveObject ∧ d.active = .activateIncoming)

/-- The step consumes the object that was there: it stages it, or replaces or
removes what recovery would have to restore. -/
def ConsumesOld (P : PlanClosure) (step : EffectStep) (d : PathDecision) : Prop :=
  (step.kind = .publishRejectedObject ∧ d.rejected = .stageOld) ∨
    (step.kind = .publishActiveObject ∧ recoverySelected P.control ∧
      ∃ before, P.plan.precondition d.path = some before ∧
        activeEffectMayDestroyOld d.active before)

/-- A step looks up its own effect. -/
private theorem key_of_step (kind : EffectStepKind) (step : EffectStep)
    (hstep : step ∈ P.steps kind) :
    ∃ k ∈ journalKeys P.schedule s, k.kind = journalKind kind ∧ k.path = some step.path := by
  refine ⟨step.key, ?_, ?_, rfl⟩
  · unfold journalKeys
    rw [List.append_assoc, List.mem_append]
    exact .inl (List.mem_map_of_mem (List.mem_of_mem_filter hstep))
  · change journalKind step.kind = _
    rw [mem_steps_kind hstep]

private theorem key_of_domain {kind : EffectKind} (h : ∃ k ∈ domainKeys s, k.kind = kind) :
    ∃ k ∈ journalKeys P.schedule s, k.kind = kind ∧ k.path = none := by
  obtain ⟨k, hk, hkind⟩ := h
  exact ⟨k, List.mem_append_right _ hk, hkind, domainKeys_path s k hk⟩

/-- What is looked up is among the keys of the journal. -/
private theorem key_of_looksUp (hserves : P.Serves request app) {kind : EffectKind}
    {path : Option PackagePath} (h : P.LooksUp request app kind path) :
    ∃ k ∈ journalKeys P.schedule (effectSelection request app), k.kind = kind ∧
      k.path = path := by
  have hactive : ∀ d ∈ P.plan.paths, activeMechanismRequired d.active = true →
      (⟨.publishActiveObject, d.path, d.incomingEntry⟩ : EffectStep) ∈
        P.steps .publishActiveObject :=
    fun d hd hrequired => (mem_steps_active _).mpr ⟨d, hd, hrequired, rfl⟩
  cases kind with
  | captureOldObject =>
    obtain ⟨capture, hcapture, rfl⟩ := h
    refine key_of_step .captureOldObject ⟨.captureOldObject, capture.path, none⟩ ?_
    rw [steps_capture]
    exact List.mem_map_of_mem hcapture
  | stageIncomingPayload =>
    obtain ⟨id, hid, image, entry, himage, hentry, rfl⟩ := h
    obtain ⟨staged, active, hparts⟩ := P.parts
    obtain ⟨step, hstep, image', entry', himage', hentry', rfl⟩ := hparts.staged_of_mem hid
    rw [himage] at himage'
    cases himage'
    rw [hentry] at hentry'
    cases hentry'
    refine key_of_step .stageRegularPayload ⟨.stageRegularPayload, entry.path, some id⟩ ?_
    rw [hparts.steps_stage]
    exact hstep
  | publishRejectedObject =>
    obtain ⟨d, hd, hrejected, rfl⟩ := h
    refine key_of_step .publishRejectedObject ⟨.publishRejectedObject, d.path, d.incomingEntry⟩ ?_
    rw [steps_rejected]
    exact List.mem_map.mpr ⟨d, List.mem_filter.mpr ⟨hd, by simpa using hrejected⟩, rfl⟩
  | publishActiveObject =>
    obtain ⟨d, hd, hrequired, rfl⟩ := h
    exact key_of_step .publishActiveObject _ (hactive d hd hrequired)
  | recoverActiveObject =>
    obtain ⟨d, hd, hrequired, rfl⟩ := h
    refine ⟨⟨.recoverActiveObject, some d.path, rfl⟩, ?_, rfl, rfl⟩
    unfold journalKeys recoverKeys
    rw [List.mem_append, List.mem_append]
    exact .inl (.inr (List.mem_map.mpr ⟨_, List.mem_reverse.mpr (hactive d hd hrequired), rfl⟩))
  | observeResult =>
    obtain ⟨d, hd, rfl⟩ := h
    refine key_of_step .observeResult ⟨.observeResult, d.path, none⟩ ?_
    rw [steps_observe]
    exact List.mem_map_of_mem (f := fun d => (⟨.observeResult, d.path, none⟩ : EffectStep)) hd
  | synchronizeIncomingStaging =>
    obtain ⟨rfl, payloads, hpayloads, hlength⟩ := h
    refine key_of_domain ((mem_domainKeys _ _).mpr ?_)
    change app.hasPayloads = true
    unfold JournaledApplication.hasPayloads
    rw [hpayloads]
    simpa using hlength
  | synchronizeRecoveryStaging =>
    obtain ⟨rfl, capture, hcapture⟩ := h
    refine key_of_domain ((mem_domainKeys _ _).mpr ?_)
    have hne := List.ne_nil_of_mem hcapture
    simpa [effectSelection] using hne
  | synchronizeActiveNamespace =>
    obtain ⟨rfl, effects, hattempts, hrequired⟩ := h
    unfold activeSynchronizationRequired at hrequired
    rw [Bool.and_eq_true, beq_iff_eq] at hrequired
    obtain ⟨hvisible, hall⟩ := hrequired
    -- nothing is visible before something was executed
    have hne : effects ≠ [] := by
      rintro rfl
      cases hvisible
    exact key_of_domain ((mem_domainKeys _ _).mpr ⟨hserves.active hattempts hne, hall⟩)
  | synchronizeRecoveredNamespace =>
    obtain ⟨rfl, effects, hattempts, hcandidates, -, hall⟩ := h
    have hne : effects ≠ [] := by
      rintro rfl
      cases hcandidates
    exact key_of_domain ((mem_domainKeys _ _).mpr ⟨hserves.active hattempts hne, hall⟩)
  | synchronizeRejectedStore =>
    obtain ⟨rfl, effects, hattempts, hguard⟩ := h
    rw [Bool.and_eq_true, Bool.not_eq_true', List.isEmpty_eq_false_iff] at hguard
    obtain ⟨hne, hall⟩ := hguard
    obtain ⟨e, rest, rfl⟩ := List.exists_cons_of_ne_nil hne
    have hrejected : hasRejectedEffect request.plan = true := by
      rw [hserves.plan, hasRejectedEffect_iff]
      exact hserves.steps (hattempts e List.mem_cons_self)
    exact key_of_domain ((mem_domainKeys _ _).mpr ⟨hrejected, hall⟩)
  | publishCompletedEvidence | synchronizeCompletedEvidence | sealReceipt =>
    cases h
    exact key_of_domain ((mem_domainKeys _ _).mpr trivial)

/-- Captures and stagings stand before every step of another kind. -/
private theorem mem_before {pre post : List EffectStep} {step earlier : EffectStep}
    (hsplit : P.schedule = pre ++ step :: post)
    (hkind : step.kind = .publishRejectedObject ∨ step.kind = .publishActiveObject)
    (hearlier : earlier ∈ P.steps .captureOldObject ++ P.steps .stageRegularPayload) :
    earlier ∈ pre := by
  obtain ⟨staged, active, hparts⟩ := P.parts
  have hfirst : step ∉ P.steps .captureOldObject ++ P.steps .stageRegularPayload := by
    intro hmem
    rcases List.mem_append.mp hmem with hmem | hmem <;> rw [mem_steps_kind hmem] at hkind <;>
      simp at hkind
  rw [hparts.schedule, List.append_assoc, List.append_assoc, ← steps_capture, ← hparts.steps_stage]
    at hsplit
  rcases List.append_eq_append_iff.mp hsplit with ⟨between, hpre, -⟩ | ⟨between, hall, hpost⟩
  · rw [hpre]
    exact List.mem_append_left _ hearlier
  · cases between with
    | nil =>
      rw [List.append_nil] at hall
      exact hall ▸ hearlier
    | cons x between =>
      have hx : step = x := (List.cons.inj hpost).1
      refine absurd ?_ hfirst
      rw [hall, hx]
      exact List.mem_append_right _ List.mem_cons_self

/-- A scheduled rejection or activation is its decision's. -/
private theorem incomingEntry_of_step {step : EffectStep} (hstep : step ∈ P.schedule)
    (hkind : step.kind = .publishRejectedObject ∨ step.kind = .publishActiveObject)
    (hd : d ∈ P.plan.paths) (hpath : d.path = step.path) :
    step.incomingEntry = d.incomingEntry := by
  rcases hkind with hkind | hkind
  · have hmem : step ∈ P.steps .publishRejectedObject :=
      List.mem_filter.mpr ⟨hstep, by simp [hkind]⟩
    rw [steps_rejected] at hmem
    obtain ⟨d', hd', rfl⟩ := List.mem_map.mp hmem
    rw [List.inj_on_of_nodup_map P.plan.paths_nodup hd (List.mem_filter.mp hd').1 hpath]
  · have hmem : step ∈ P.steps .publishActiveObject :=
      List.mem_filter.mpr ⟨hstep, by simp [hkind]⟩
    obtain ⟨d', hd', -, rfl⟩ := (mem_steps_active _).mp hmem
    rw [List.inj_on_of_nodup_map P.plan.paths_nodup hd hd' hpath]

/-- Only a plan with an image consumes incoming entries. -/
private theorem image_of_consumes (hd : d ∈ P.plan.paths) (hconsumes : d.consumesIncoming = true) :
    ∃ image, P.image = some image := by
  refine Option.isSome_iff_exists.mp (P.image_iff.mpr fun hremove => ?_)
  have hrole := P.plan.removal_roles hremove d hd
  have hincoming : d.incomingEntry.isSome := by
    unfold PathDecision.consumesIncoming at hconsumes
    rcases Bool.or_eq_true_iff.mp hconsumes with hactive | hrejected
    · exact d.activates_incoming (beq_iff_eq.mp hactive)
    · have hstage := beq_iff_eq.mp hrejected
      obtain ⟨object, -, -, houtcome, hentry⟩ := d.rejects (by rw [hstage]; nofun)
      rw [hstage] at houtcome
      rw [← hentry]
      unfold RejectedObjectPlan.outcome at houtcome
      unfold RejectedObjectPlan.incomingEntry
      cases hsource : object.source with
      | incoming entry => rfl
      | oldInstalled => simp [hsource] at houtcome
  have hrole' := d.incoming_role.mpr hincoming
  rw [hrole] at hrole'
  cases hrole'

/-- The bytes an effect consumes are staged before it. -/
private theorem staged_before {pre post : List EffectStep} {step : EffectStep}
    (hsplit : P.schedule = pre ++ step :: post) (hd : d ∈ P.plan.paths) (hpath : d.path = step.path)
    (hconsumes : ConsumesIncoming step d) : ∃ image entry, P.image = some image ∧
      d.Resolves image entry ∧ step.incomingEntry = some entry.id ∧
      ∀ source ∈ image.entries, entry.DrawsFrom source →
        ⟨.stageRegularPayload, source.path, some source.id⟩ ∈ pre := by
  have hkind : step.kind = .publishRejectedObject ∨ step.kind = .publishActiveObject :=
    hconsumes.imp And.left And.left
  have hincoming : d.consumesIncoming = true := by
    unfold PathDecision.consumesIncoming
    rcases hconsumes with ⟨-, h⟩ | ⟨-, h⟩
    · simp [h]
    · simp [h]
  obtain ⟨image, himage⟩ := image_of_consumes hd hincoming
  obtain ⟨payloads, hpayloads, hprepare⟩ := payloads_of_image himage
  obtain ⟨r, -, entry, hresolves, -⟩ := exists_requirement hprepare hd hincoming
  have hstep : step ∈ P.schedule := hsplit ▸ List.mem_append_right _ List.mem_cons_self
  refine ⟨image, entry, himage, hresolves, ?_, fun source hsource hdraws => ?_⟩
  · rw [incomingEntry_of_step hstep hkind hd hpath, hresolves.1]
  · have hselected : source.id ∈ P.selection := by
      have hmem := (mem_selection hprepare source.id).mpr
        ⟨source, hsource, rfl, d, hd, hincoming, entry, hresolves, hdraws⟩
      rwa [selection, hpayloads]
    obtain ⟨staged, active, hparts⟩ := P.parts
    obtain ⟨s', hs', image', entry', himage', hentry', rfl⟩ := hparts.staged_of_mem hselected
    rw [himage] at himage'
    cases himage'
    rw [PackageImage.entry_of_mem hsource] at hentry'
    cases hentry'
    refine mem_before hsplit hkind (List.mem_append_right _ ?_)
    rw [hparts.steps_stage]
    exact hs'

/-- The object an effect consumes is captured before it. -/
private theorem captured_before {pre post : List EffectStep} {step : EffectStep}
    (hsplit : P.schedule = pre ++ step :: post) (hd : d ∈ P.plan.paths) (hpath : d.path = step.path)
    (hconsumes : P.ConsumesOld step d) :
    (∃ capture ∈ P.captures, capture.path = step.path) ∧
      ⟨.captureOldObject, step.path, none⟩ ∈ pre := by
  have hkind : step.kind = .publishRejectedObject ∨ step.kind = .publishActiveObject :=
    hconsumes.imp And.left And.left
  have hcaptured : ∃ capture ∈ P.captures, capture.path = step.path := by
    rcases hconsumes with ⟨-, hstage⟩ | ⟨-, hselected, before, hbefore, hdestroy⟩
    · obtain ⟨capture, hcapture, hsame, -⟩ := capture_of_stageOld P.captures_ok hd hstage
      exact ⟨capture, hcapture, hsame.trans hpath⟩
    · unfold activeEffectMayDestroyOld at hdestroy
      obtain ⟨hpresent, hactive⟩ := Bool.and_eq_true_iff.mp hdestroy
      obtain ⟨capture, hcapture, hsame, -⟩ :=
        capture_of_destructive P.captures_ok hd hselected hbefore hpresent hactive
      exact ⟨capture, hcapture, hsame.trans hpath⟩
  obtain ⟨capture, hcapture, hsame⟩ := hcaptured
  refine ⟨⟨capture, hcapture, hsame⟩, mem_before hsplit hkind (List.mem_append_left _ ?_)⟩
  rw [steps_capture, ← hsame]
  exact List.mem_map_of_mem (f := fun c : OldObjectCaptureRequest =>
    (⟨.captureOldObject, c.path, none⟩ : EffectStep)) hcapture

/-- Recovery effects are declared in reverse of the active ones. -/
private theorem recover_reverse (P : PlanClosure) (s : EffectSelection) :
    ((journalEffects P.schedule s).filter (·.kind == .recoverActiveObject)).map JournalEffect.path =
      (((journalEffects P.schedule s).filter (·.kind == .publishActiveObject)).map
        JournalEffect.path).reverse := by
  have hpairs : ∀ kind, ((journalEffects P.schedule s).filter (·.kind == kind)).map
      JournalEffect.path =
      ((journalKeys P.schedule s).filter (·.kind == kind)).map EffectKey.path := by
    intro kind
    have heq := congrArg (fun l => (l.filter fun x => x.1 == kind).map Prod.snd)
      (journalEffects_keys P.schedule s)
    simpa only [List.filter_map, List.map_map, Function.comp_def] using heq
  have hsteps : ∀ kind : EffectKind, (P.schedule.map EffectStep.key).filter (·.kind == kind) =
      (P.schedule.filter fun step => journalKind step.kind == kind).map EffectStep.key := by
    intro kind
    rw [List.filter_map]
    rfl
  have hrecover : (P.schedule.filter fun step =>
      journalKind step.kind == EffectKind.recoverActiveObject) = [] := by
    refine List.filter_eq_nil_iff.mpr fun step _ => ?_
    cases step.kind <;> simp [journalKind]
  have hactive : (P.schedule.filter fun step =>
      journalKind step.kind == EffectKind.publishActiveObject) = P.steps .publishActiveObject := by
    refine List.filter_congr fun step _ => ?_
    cases step.kind <;> rfl
  have hdomain : ∀ kind, requiresPath kind = true →
      (domainKeys s).filter (·.kind == kind) = [] := by
    intro kind hkind
    refine List.filter_eq_nil_iff.mpr fun k hk hmatch => ?_
    have hpath := k.path_iff
    rw [domainKeys_path s k hk, beq_iff_eq.mp hmatch, hkind] at hpath
    cases hpath
  have hundo : (recoverKeys P.schedule).filter (·.kind == .recoverActiveObject) =
      recoverKeys P.schedule := by
    refine List.filter_eq_self.mpr fun k hk => ?_
    obtain ⟨step, -, rfl⟩ := List.mem_map.mp hk
    rfl
  have hundo' : (recoverKeys P.schedule).filter (·.kind == .publishActiveObject) = [] := by
    refine List.filter_eq_nil_iff.mpr fun k hk => ?_
    obtain ⟨step, -, rfl⟩ := List.mem_map.mp hk
    simp
  rw [hpairs, hpairs]
  unfold journalKeys
  rw [List.filter_append, List.filter_append, List.filter_append, List.filter_append, hsteps, hsteps,
    hrecover, hactive, hdomain _ rfl, hdomain _ rfl, hundo, hundo', List.map_nil, List.nil_append,
    List.append_nil, List.append_nil, List.append_nil]
  unfold recoverKeys
  rw [List.map_map, List.map_map, ← List.map_reverse]
  rfl

/-- The four lists derived from a plan fit.  The schedule is its captures,
stagings, rejections, activations and observations, in this order and each
once; the stagings are the selection; what a rejection or an activation
consumes comes before it; and the journal the engine declares for it has one
effect for each kind and path, undoes the activations in reverse, and has
every effect that executing the schedule looks up. -/
theorem closed (P : PlanClosure) {request : ApplicationRequest} {app : JournaledApplication}
    (hserves : P.Serves request app) :
    (∃ staged active, P.Parts staged active) ∧
    (P.schedule.map fun step => (step.kind, step.path)).Nodup ∧
    (∀ pre step post, P.schedule = pre ++ step :: post →
      ∀ d ∈ P.plan.paths, d.path = step.path →
        (ConsumesIncoming step d → ∃ image entry, P.image = some image ∧
          d.Resolves image entry ∧ step.incomingEntry = some entry.id ∧
          ∀ source ∈ image.entries, entry.DrawsFrom source →
            ⟨.stageRegularPayload, source.path, some source.id⟩ ∈ pre) ∧
        (P.ConsumesOld step d → (∃ capture ∈ P.captures, capture.path = step.path) ∧
          ⟨.captureOldObject, step.path, none⟩ ∈ pre)) ∧
    ((journalEffects app.schedule (effectSelection request app)).map fun e =>
      (e.kind, e.path)).Nodup ∧
    ((journalEffects app.schedule (effectSelection request app)).filter
        (·.kind == .recoverActiveObject)).map JournalEffect.path =
      (((journalEffects app.schedule (effectSelection request app)).filter
        (·.kind == .publishActiveObject)).map JournalEffect.path).reverse ∧
    ∀ kind path, P.LooksUp request app kind path →
      ∃ e ∈ journalEffects app.schedule (effectSelection request app),
        findEffect (journalEffects app.schedule (effectSelection request app)) kind path = .ok e ∧
          e.kind = kind ∧ e.path = path := by
  rw [hserves.schedule]
  refine ⟨P.parts, P.schedule_nodup, fun pre step post hsplit d hd hpath =>
    ⟨staged_before hsplit hd hpath, captured_before hsplit hd hpath⟩, ?_, P.recover_reverse _,
    fun kind path h => ?_⟩
  · rw [journalEffects_keys]
    exact journalKeys_nodup P.schedule_nodup _
  · obtain ⟨k, hk, rfl, rfl⟩ := key_of_looksUp hserves h
    exact findEffect_of_key P.schedule_nodup hk

theorem serves (A : AdmittedApplication) (state : LeaseBoundStateProjection) :
    A.closure.Serves A.request (A.journaled state) := ⟨rfl, rfl, rfl, rfl, rfl, rfl⟩

/-- Once the removal was carried out and undone, both synchronizations of the
active namespace are found. -/
theorem closed_removal :
    ∃ A : AdmittedApplication, ∃ effects : List ActiveEffectResult,
      effects.map (fun e => e.request.path) =
        (A.steps .publishActiveObject).map EffectStep.path ∧
      activeSynchronizationRequired A.control effects = true ∧
      (recoveryCandidates effects).isEmpty = false ∧
      (∃ e, findEffect (journalEffects A.schedule
        (effectSelection A.request (A.journaled A.projection))) .synchronizeActiveNamespace none =
          .ok e) ∧
      ∃ e, findEffect (journalEffects A.schedule
        (effectSelection A.request (A.journaled A.projection))) .synchronizeRecoveredNamespace
          none = .ok e := by
  let A := AdmittedApplication.removal .exactPriorState .allApplicationDomains
  let effects : List ActiveEffectResult :=
    [⟨⟨AdmittedApplication.removalPath, .removeDirectoryIfEmpty, none⟩, ⟨.completed, ∅⟩⟩]
  have hfound := (closed A.closure (serves A A.projection)).2.2.2.2.2
  have hattempts : ∀ e ∈ effects, Attempts (A.journaled A.projection) .publishActiveObject
      e.request.path := by
    intro e he
    rw [List.mem_singleton.mp he]
    exact ⟨⟨.publishActiveObject, AdmittedApplication.removalPath, none⟩, by decide, rfl⟩
  obtain ⟨active, -, hactive, -⟩ := hfound .synchronizeActiveNamespace none
    ⟨rfl, effects, hattempts, by decide⟩
  obtain ⟨recovered, -, hrecovered, -⟩ := hfound .synchronizeRecoveredNamespace none
    ⟨rfl, effects, hattempts, by decide, by decide, by decide⟩
  exact ⟨A, effects, by decide, by decide, by decide, ⟨active, hactive⟩, recovered, hrecovered⟩

end PlanClosure

namespace AdmittedApplication

variable {A : AdmittedApplication}

theorem keys_nodup (A : AdmittedApplication) :
    (A.keys.map fun k => (k.kind, k.path)).Nodup :=
  journalKeys_nodup A.closure.schedule_nodup A.selection

/-! ## Declaration -/

theorem effects_getElem? (A : AdmittedApplication) (i : Nat) :
    A.effects[i]? = A.keys[i]?.map fun k => k.effect i :=
  journalEffects_getElem? A.schedule A.selection i

theorem effects_keys (A : AdmittedApplication) :
    (A.effects.map fun e => (e.kind, e.path)) = A.keys.map fun k => (k.kind, k.path) :=
  journalEffects_keys A.schedule A.selection

theorem effects_ordinals (A : AdmittedApplication) :
    A.effects.map JournalEffect.ordinal = List.range A.effects.length := by
  have hlength : A.effects.length = A.keys.length := by simp [effects, journalEffects, keys]
  refine List.ext_getElem? fun i => ?_
  rw [List.getElem?_map, effects_getElem?, hlength]
  by_cases hi : i < A.keys.length
  · rw [List.getElem?_range hi, List.getElem?_eq_getElem hi]
    rfl
  · rw [List.getElem?_eq_none (by omega), List.getElem?_eq_none (by simpa using hi)]
    rfl

/-- The declaration of the attempt's journal. -/
def declaration (A : AdmittedApplication) : JournalDeclaration :=
  ⟨A.header, A.effects, A.observations, A.effects_ordinals⟩

theorem effectSelection_eq (A : AdmittedApplication) (state : LeaseBoundStateProjection) :
    effectSelection A.request (A.journaled state) = A.selection := rfl

/-- The engine declares exactly this journal. -/
theorem journalDeclaration_eq (A : AdmittedApplication) :
    journalDeclaration A.request (A.journaled A.projection) = .ok A.declaration := by
  unfold journalDeclaration journalHeader JournalHeader.make
  rw [effectSelection_eq]
  simp only [journaled, attempt, ne_eq, not_true_eq_false, refuseIf_bind_of_not, not_false_eq_true]
  exact dif_pos A.effects_ordinals

/-- A history of this attempt's journal. -/
def Declares (A : AdmittedApplication) (h : JournalHistory) : Prop := h.declaration = A.declaration

variable {h : JournalHistory}

theorem Declares.effects (hd : A.Declares h) : h.effects = A.effects := by
  unfold JournalHistory.effects
  rw [hd]
  rfl

theorem Declares.header (hd : A.Declares h) : h.header = A.header := by
  unfold JournalHistory.header
  rw [hd]
  rfl

theorem Declares.keyed (hd : A.Declares h) : h.Keyed := by
  unfold JournalHistory.Keyed
  rw [hd.effects, effects_keys]
  exact A.keys_nodup

/-! ## Declared keys -/

/-- The journal declares an effect of a kind at a path. -/
def HasKey (A : AdmittedApplication) (kind : EffectKind) (path : Option PackagePath) : Prop :=
  ∃ k ∈ A.keys, k.kind = kind ∧ k.path = path

/-- A declared effect is found. -/
theorem HasKey.find {kind : EffectKind} {path : Option PackagePath} (hk : A.HasKey kind path)
    (hd : A.Declares h) :
    ∃ e ∈ h.effects, matchingEffects h.effects kind path = [e] ∧
      findEffect h.effects kind path = .ok e ∧ e.kind = kind ∧ e.path = path := by
  obtain ⟨k, hmem, rfl, rfl⟩ := hk
  have hpair : (k.kind, k.path) ∈ h.effects.map fun e => (e.kind, e.path) := by
    rw [hd.effects, effects_keys]
    exact List.mem_map.mpr ⟨k, hmem, rfl⟩
  obtain ⟨e, he, heq⟩ := List.mem_map.mp hpair
  obtain ⟨hkind, hpath⟩ := Prod.mk.inj heq
  have hfind := findEffect_of_mem hd.keyed he
  rw [hkind, hpath] at hfind
  exact ⟨e, he, hfind, by simp only [findEffect, hfind], hkind, hpath⟩

/-- Every declared effect has a declared key. -/
theorem hasKey_of_mem (hd : A.Declares h) {e : JournalEffect} (he : e ∈ h.effects) :
    A.HasKey e.kind e.path := by
  have hpair : (e.kind, e.path) ∈ A.keys.map fun k => (k.kind, k.path) := by
    rw [← effects_keys, ← hd.effects]
    exact List.mem_map.mpr ⟨e, he, rfl⟩
  obtain ⟨k, hk, heq⟩ := List.mem_map.mp hpair
  exact ⟨k, hk, (Prod.mk.inj heq).1, (Prod.mk.inj heq).2⟩

theorem hasKey_step {kind : EffectStepKind} {s : EffectStep} (hs : s ∈ A.steps kind) :
    A.HasKey (journalKind kind) (some s.path) := by
  refine ⟨s.key, ?_, ?_, rfl⟩
  · unfold keys journalKeys
    rw [List.append_assoc, List.mem_append]
    exact .inl (List.mem_map_of_mem (List.mem_of_mem_filter hs))
  · change journalKind s.kind = _
    rw [mem_steps_kind hs]

private theorem hasKey_none_iff {kind : EffectKind} :
    A.HasKey kind none ↔ ∃ k ∈ domainKeys A.selection, k.kind = kind := by
  unfold HasKey keys journalKeys
  constructor
  · rintro ⟨k, hk, hkind, hpath⟩
    rw [List.mem_append, List.mem_append] at hk
    rcases hk with (hk | hk) | hk
    · obtain ⟨s, -, rfl⟩ := List.mem_map.mp hk
      cases hpath
    · obtain ⟨s, -, rfl⟩ := List.mem_map.mp hk
      cases hpath
    · exact ⟨k, hk, hkind⟩
  · rintro ⟨k, hk, hkind⟩
    exact ⟨k, List.mem_append_right _ hk, hkind, domainKeys_path _ k hk⟩

/-- Which effects without a path a journal declares. -/
theorem hasKey_domain (kind : EffectKind) : A.HasKey kind none ↔
    match kind with
    | .synchronizeIncomingStaging => A.hasPayloads = true
    | .synchronizeRecoveryStaging => A.captures.isEmpty = false
    | .synchronizeActiveNamespace | .synchronizeRecoveredNamespace =>
      hasActiveEffect A.plan = true ∧ A.allDomains = true
    | .synchronizeRejectedStore => hasRejectedEffect A.plan = true ∧ A.allDomains = true
    | .publishCompletedEvidence | .synchronizeCompletedEvidence | .sealReceipt => True
    | _ => False := by
  rw [hasKey_none_iff, mem_domainKeys]
  cases kind <;> simp only [selection, Bool.not_eq_true']

/-- A path-scoped effect comes from a step of its kind, or undoes an active one. -/
theorem hasKey_some {kind : EffectKind} {path : PackagePath} (hk : A.HasKey kind (some path)) :
    (∃ stepKind, ∃ s ∈ A.steps stepKind, kind = journalKind stepKind ∧ s.path = path) ∨
      (kind = .recoverActiveObject ∧ ∃ s ∈ A.steps .publishActiveObject, s.path = path) := by
  obtain ⟨k, hk, rfl, hpath⟩ := hk
  unfold keys journalKeys at hk
  rw [List.mem_append, List.mem_append] at hk
  rcases hk with (hk | hk) | hk
  · obtain ⟨s, hs, rfl⟩ := List.mem_map.mp hk
    exact .inl ⟨s.kind, s, List.mem_filter.mpr ⟨hs, by simp⟩, rfl, Option.some.inj hpath⟩
  · obtain ⟨s, hs, rfl⟩ := List.mem_map.mp hk
    exact .inr ⟨rfl, s, List.mem_reverse.mp hs, Option.some.inj hpath⟩
  · rw [domainKeys_path _ k hk] at hpath
    cases hpath

theorem hasRejectedEffect_iff (A : AdmittedApplication) :
    hasRejectedEffect A.plan = true ↔ A.steps .publishRejectedObject ≠ [] :=
  A.closure.hasRejectedEffect_iff

/-! ## Admitted observations -/

theorem check_observations (A : AdmittedApplication) : A.check.observations = A.observations :=
  (PreconditionCheck.make_eq_ok A.checked).1

/-- Every planned path was admitted as present or as absent, as its
precondition has it. -/
theorem admitted_observation {d : PathDecision} (hd : d ∈ A.plan.paths) :
    ∃ before o, A.plan.precondition d.path = some before ∧ A.observations.find d.path = some o ∧
      o.path = d.path ∧
      ((before.isPresent = true ∧ ∃ object, o = .present object) ∨
        (before.isPresent = false ∧ o = .absent d.path)) := by
  obtain ⟨before, hbefore⟩ := A.plan.precondition_of_mem hd
  have hmem : before ∈ A.plan.preconditions := List.mem_of_find?_eq_some hbefore
  obtain ⟨o, hfind, hholds⟩ :=
    (PreconditionCheck.satisfied_iff A.checked).mp A.satisfied before hmem
  rw [OperationPlan.precondition_path hbefore] at hfind
  have hopath := BackendObservationBatch.path_of_find hfind
  refine ⟨before, o, hbefore, hfind, hopath, ?_⟩
  unfold PathPrecondition.isPresent
  cases o with
  | unknown path => exact hholds.elim
  | absent path =>
    have hplanned : before.observation = none := hholds
    exact .inr ⟨by rw [hplanned]; rfl, by rw [← hopath]; rfl⟩
  | present object =>
    obtain ⟨metadata, hplanned, -⟩ := hholds
    exact .inl ⟨by rw [hplanned]; rfl, object, rfl⟩

end AdmittedApplication

end PkgApply
