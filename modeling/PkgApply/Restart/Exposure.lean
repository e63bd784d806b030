import PkgApply.Restart.Retained
import Mathlib.Data.List.Find

/-!
# What a view exposes

The view of a run's history, read off the slots of the journal.  Building it
fails only where the staging effects retain different seals, or a retained list
is longer than the decoder reads.
-/

namespace PkgApply

open Library Transport

/-! ## Slots of a history -/

/-- The staging effects of a history retain one seal. -/
def JournalHistory.SealsAgree (h : JournalHistory) : Prop :=
  ∀ path path' result result', h.Retains .stageIncomingPayload path (.payloadSeal result) →
    h.Retains .stageIncomingPayload path' (.payloadSeal result') → result = result'

/-- The synchronizations a history retains for one domain are one fact. -/
def JournalHistory.SynchronizationsAgree (h : JournalHistory) : Prop :=
  ∀ kind kind' fact fact', h.Retains kind none (.synchronization fact) →
    h.Retains kind' none (.synchronization fact') → fact.domain = fact'.domain → fact = fact'

/-- No list of a retained fact is longer than the decoder reads. -/
def JournalHistory.FactsWithin (h : JournalHistory) : Prop :=
  ∀ step ∈ h.steps, ∀ fact ∈ step.replayFact, fact.Within

/-- No list a history retains is longer than the decoder reads. -/
structure JournalHistory.Readable (h : JournalHistory) : Prop where
  seed : SeedWithin h.declaration.replaySeed
  facts : h.FactsWithin

def ReplayFact.capture? : ReplayFact → Option OldObjectCaptureResult
  | .capture result => some result
  | _ => none

def ReplayFact.rejected? : ReplayFact → Option RejectedObjectPublicationResult
  | .rejectedEffect _ result => some result
  | _ => none

def ReplayFact.active? : ReplayFact → Option BackendOperationResult
  | .activeEffect _ result => some result
  | _ => none

def ReplayFact.recovery? : ReplayFact → Option BackendOperationResult
  | .recoveryEffect _ result => some result
  | _ => none

def ReplayFact.evidence? : ReplayFact → Option CompletedEvidence
  | .completedEvidence evidence => some evidence
  | _ => none

namespace Ledger

variable (l : Ledger)

/-- The retained capture of one path. -/
def capture (path : PackagePath) : Option OldObjectCaptureResult :=
  (l.slot .captureOldObject (some path)).fact.bind ReplayFact.capture?

def rejected (path : PackagePath) : Option RejectedObjectPublicationResult :=
  (l.slot .publishRejectedObject (some path)).fact.bind ReplayFact.rejected?

def active (path : PackagePath) : Option BackendOperationResult :=
  (l.slot .publishActiveObject (some path)).fact.bind ReplayFact.active?

def recovery (path : PackagePath) : Option BackendOperationResult :=
  (l.slot .recoverActiveObject (some path)).fact.bind ReplayFact.recovery?

def evidence : Option CompletedEvidence :=
  (l.slot .publishCompletedEvidence none).fact.bind ReplayFact.evidence?

end Ledger

/-- What a replay has established is what the slots of the history carry. -/
structure ViewSlots.Recalls (v : ViewSlots) (h : JournalHistory) : Prop where
  captures : v.captures = h.ledger.capture
  rejected : v.rejected = h.ledger.rejected
  active : v.active = h.ledger.active
  recovery : v.recovery = h.ledger.recovery
  evidence : v.completedEvidence = h.ledger.evidence
  sealing : ∀ result, v.incomingPayload = some result ↔
    ∃ path, h.Retains .stageIncomingPayload path (.payloadSeal result)
  synchronized : ∀ domain fact, v.synchronizations domain = some fact →
    fact.domain = domain ∧ ∃ kind, h.Retains kind none (.synchronization fact)
  synchronizations : ∀ kind fact, h.Retains kind none (.synchronization fact) →
    (v.synchronizations fact.domain).isSome
  durability : v.durability = h.durability

/-! ## One step -/

section Step

variable {A : AdmittedApplication} {h : JournalHistory} {step : JournalStep} {v : ViewSlots}

/-- What a history retains after one more step. -/
theorem JournalHistory.retains_after {kind : EffectKind} {path : Option PackagePath}
    {fact : ReplayFact} : (h.after step).Retains kind path fact ↔ h.Retains kind path fact ∨
      ∃ e, step.event = some e ∧ e.kind ≠ .intent ∧ e.effect.kind = kind ∧
        e.effect.path = path ∧ step.replayFact = some fact := by
  unfold Retains
  rw [after_steps]
  constructor
  · rintro ⟨x, hx, hends⟩
    rcases List.mem_append.mp hx with hx | hx
    · exact .inl ⟨x, hx, hends⟩
    · rw [List.mem_singleton.mp hx] at hends
      exact .inr hends
  · rintro (⟨x, hx, hends⟩ | hends)
    · exact ⟨x, List.mem_append_left _ hx, hends⟩
    · exact ⟨step, by simp, hends⟩

/-- A step without a fact changes no fact. -/
theorem JournalHistory.slot_fact_after_none (hr : Appended h) (hk : h.Keyed) (ha : h.Admits step)
    (hnone : step.replayFact = none) (kind : EffectKind) (path : Option PackagePath) :
    ((h.after step).slot kind path).fact = (h.slot kind path).fact := by
  by_cases hends : ∃ ended, EndedBy step kind path ended
  · obtain ⟨ended, e, he, hterminal, rfl, rfl, rfl⟩ := hends
    obtain ⟨hopen, hafter⟩ := slot_after_terminal hr hk ha he hterminal
    rw [hafter, hopen]
    exact hnone
  · unfold Slot.fact
    rw [slot_after_ended_of_not (not_exists.mp hends)]

/-- A step with a fact changes the fact of its effect. -/
theorem JournalHistory.slot_fact_after_some (hr : Appended h) (hk : h.Keyed) (ha : h.Admits step)
    {e : JournalEvent} (he : step.event = some e) (hterminal : e.kind ≠ .intent)
    (kind : EffectKind) (path : Option PackagePath) :
    ((h.after step).slot kind path).fact =
      if e.effect.kind = kind ∧ e.effect.path = path then step.replayFact
      else (h.slot kind path).fact := by
  split
  · rename_i hkey
    obtain ⟨rfl, rfl⟩ := hkey
    rw [(slot_after_terminal hr hk ha he hterminal).2]
    rfl
  · rename_i hkey
    unfold Slot.fact
    rw [slot_after_ended_of_not]
    rintro ended ⟨e', he', -, hkind, hpath, -⟩
    cases he.symm.trans he'
    exact hkey ⟨hkind, hpath⟩

/-- A step without a fact leaves what a replay recalls. -/
theorem ViewSlots.Recalls.after_none (hv : v.Recalls h) (hr : JournalHistory.Appended h)
    (hk : h.Keyed) (ha : h.Admits step) (hnone : step.replayFact = none) :
    v.Recalls (h.after step) := by
  have hslot := JournalHistory.slot_fact_after_none hr hk ha hnone
  have hretains : ∀ kind path fact, (h.after step).Retains kind path fact ↔
      h.Retains kind path fact := by
    intro kind path fact
    rw [JournalHistory.retains_after]
    refine ⟨fun hor => hor.resolve_right ?_, .inl⟩
    rintro ⟨e, -, -, -, -, hfact⟩
    rw [hnone] at hfact
    cases hfact
  refine ⟨?_, ?_, ?_, ?_, ?_, ?_, ?_, ?_, ?_⟩
  · rw [hv.captures]
    funext p
    simp only [Ledger.capture, JournalHistory.ledger_slot, hslot]
  · rw [hv.rejected]
    funext p
    simp only [Ledger.rejected, JournalHistory.ledger_slot, hslot]
  · rw [hv.active]
    funext p
    simp only [Ledger.active, JournalHistory.ledger_slot, hslot]
  · rw [hv.recovery]
    funext p
    simp only [Ledger.recovery, JournalHistory.ledger_slot, hslot]
  · rw [hv.evidence]
    simp only [Ledger.evidence, JournalHistory.ledger_slot, hslot]
  · simpa only [hretains] using hv.sealing
  · simpa only [hretains] using hv.synchronized
  · simpa only [hretains] using hv.synchronizations
  · rw [hv.durability, JournalHistory.durability_after, hnone]
    rfl

/-- A step a history admits, whose terminal event retains a fact. -/
structure Terminates (A : AdmittedApplication) (h : JournalHistory) (step : JournalStep)
    (e : JournalEvent) (fact : ReplayFact) : Prop where
  appended : JournalHistory.Appended h
  declares : A.Declares h
  admitted : h.Admits step
  event : step.event = some e
  terminal : e.kind ≠ .intent
  retained : step.replayFact = some fact

/-- A step that ends an effect retains its fact besides what was retained. -/
theorem Terminates.retains_after {e : JournalEvent} {fact x : ReplayFact}
    (ht : Terminates A h step e fact) {kind : EffectKind} {path : Option PackagePath} :
    (h.after step).Retains kind path x ↔
      h.Retains kind path x ∨ (e.effect.kind = kind ∧ e.effect.path = path ∧ fact = x) := by
  rw [JournalHistory.retains_after, ht.event, ht.retained]
  constructor
  · rintro (hold | ⟨e', he', -, hkind, hpath, hx⟩)
    · exact .inl hold
    · cases he'
      exact .inr ⟨hkind, hpath, Option.some.inj hx⟩
  · rintro (hold | ⟨hkind, hpath, hx⟩)
    · exact .inl hold
    · exact .inr ⟨e, rfl, ht.terminal, hkind, hpath, congrArg some hx⟩

/-- What a replay must make of a step with a fact to recall it. -/
theorem ViewSlots.Recalls.after_some (v' : ViewSlots) {e : JournalEvent} {fact : ReplayFact}
    (hv : v.Recalls h) (ht : Terminates A h step e fact)
    (hcaptures : ∀ p, v'.captures p =
      if e.effect.kind = .captureOldObject ∧ e.effect.path = some p then fact.capture?
      else v.captures p)
    (hrejected : ∀ p, v'.rejected p =
      if e.effect.kind = .publishRejectedObject ∧ e.effect.path = some p then fact.rejected?
      else v.rejected p)
    (hactive : ∀ p, v'.active p =
      if e.effect.kind = .publishActiveObject ∧ e.effect.path = some p then fact.active?
      else v.active p)
    (hrecovery : ∀ p, v'.recovery p =
      if e.effect.kind = .recoverActiveObject ∧ e.effect.path = some p then fact.recovery?
      else v.recovery p)
    (hevidence : v'.completedEvidence =
      if e.effect.kind = .publishCompletedEvidence ∧ e.effect.path = none then fact.evidence?
      else v.completedEvidence)
    (hsealing : ∀ result, v'.incomingPayload = some result ↔
      v.incomingPayload = some result ∨
        (e.effect.kind = .stageIncomingPayload ∧ fact = .payloadSeal result))
    (hsynchronized : ∀ domain x, v'.synchronizations domain = some x →
      v.synchronizations domain = some x ∨
        (x.domain = domain ∧ e.effect.path = none ∧ fact = .synchronization x))
    (hsynchronizations : ∀ x, (v.synchronizations x.domain).isSome ∨ fact = .synchronization x →
      (v'.synchronizations x.domain).isSome)
    (hdurability : v'.durability = fact.settle v.durability) : v'.Recalls (h.after step) := by
  have hslot := JournalHistory.slot_fact_after_some ht.appended ht.declares.keyed ht.admitted
    ht.event ht.terminal
  rw [ht.retained] at hslot
  refine ⟨?_, ?_, ?_, ?_, ?_, ?_, ?_, ?_, ?_⟩
  · funext p
    rw [hcaptures, hv.captures]
    simp only [Ledger.capture, JournalHistory.ledger_slot, hslot]
    split <;> rfl
  · funext p
    rw [hrejected, hv.rejected]
    simp only [Ledger.rejected, JournalHistory.ledger_slot, hslot]
    split <;> rfl
  · funext p
    rw [hactive, hv.active]
    simp only [Ledger.active, JournalHistory.ledger_slot, hslot]
    split <;> rfl
  · funext p
    rw [hrecovery, hv.recovery]
    simp only [Ledger.recovery, JournalHistory.ledger_slot, hslot]
    split <;> rfl
  · rw [hevidence, hv.evidence]
    simp only [Ledger.evidence, JournalHistory.ledger_slot, hslot]
    split <;> rfl
  · intro result
    rw [hsealing, hv.sealing]
    simp only [ht.retains_after]
    constructor
    · rintro (⟨path, hold⟩ | ⟨hkind, hx⟩)
      · exact ⟨path, .inl hold⟩
      · exact ⟨_, .inr ⟨hkind, rfl, hx⟩⟩
    · rintro ⟨path, hold | ⟨hkind, -, hx⟩⟩
      · exact .inl ⟨path, hold⟩
      · exact .inr ⟨hkind, hx⟩
  · intro domain x hx
    rcases hsynchronized domain x hx with hold | ⟨hdomain, hpath, hnew⟩
    · obtain ⟨hdomain, kind, hkind⟩ := hv.synchronized domain x hold
      exact ⟨hdomain, kind, ht.retains_after.mpr (.inl hkind)⟩
    · exact ⟨hdomain, _, ht.retains_after.mpr (.inr ⟨rfl, hpath, hnew⟩)⟩
  · intro kind x hx
    rcases ht.retains_after.mp hx with hold | ⟨-, -, hnew⟩
    · exact hsynchronizations x (.inl (hv.synchronizations kind x hold))
    · exact hsynchronizations x (.inr hnew)
  · rw [hdurability, hv.durability, JournalHistory.durability_after, ht.retained]
    rfl

theorem replayTerminalEvent_eq_ok {outcome : BackendOperationOutcome} {kind : EventKind}
    (h : terminalEvent outcome = .ok kind) : replayTerminalEvent outcome = .ok kind := by
  cases outcome <;> first | exact h | cases h

theorem replayActiveTerminalEvent_eq_ok {outcome : BackendOperationOutcome} {kind : EventKind}
    (h : activeTerminalEvent outcome = .ok kind) : replayActiveTerminalEvent outcome = .ok kind := by
  cases outcome <;> exact h

theorem retainPathFact_eq_ok {α : Type} {plan : OperationPlan} {slots : PackagePath → Option α}
    {path : PackagePath} {value : α} {message : String} (hplanned : (plan.decision path).isSome)
    (hfree : slots path = none) : retainPathFact plan slots path value message =
      .ok fun p => if p = path then some value else slots p := by
  unfold retainPathFact
  rw [refuseIf_bind_of_not (by simpa using Option.isSome_iff_ne_none.mp hplanned),
    refuseIf_bind_of_not (by simp [hfree])]
  rfl

/-- Every path-scoped effect is at a planned path, staging apart. -/
theorem AdmittedApplication.planned_of_step {kind : EffectStepKind} {s : EffectStep}
    (hkind : kind = .publishRejectedObject ∨ kind = .publishActiveObject) (hs : s ∈ A.steps kind) :
    (A.plan.decision s.path).isSome := by
  have hmem : ∃ d ∈ A.plan.paths, d.path = s.path := by
    rcases hkind with rfl | rfl
    · rw [steps_rejected] at hs
      obtain ⟨d, hd, rfl⟩ := List.mem_map.mp hs
      exact ⟨d, List.mem_of_mem_filter hd, rfl⟩
    · obtain ⟨d, hd, -, rfl⟩ := (mem_steps_active s).mp hs
      exact ⟨d, hd, rfl⟩
  obtain ⟨d, hd, hpath⟩ := hmem
  rw [← hpath, OperationPlan.decision_of_mem hd]
  rfl

private theorem planned_of_key {kind : EffectKind} {path : PackagePath}
    (hkey : A.HasKey kind (some path))
    (hkind : kind = .publishRejectedObject ∨ kind = .publishActiveObject ∨
      kind = .recoverActiveObject) : (A.plan.decision path).isSome := by
  rcases AdmittedApplication.hasKey_some hkey with ⟨stepKind, s, hs, heq, rfl⟩ | ⟨-, s, hs, rfl⟩
  · refine A.planned_of_step
      (show stepKind = .publishRejectedObject ∨ stepKind = .publishActiveObject from ?_) hs
    subst heq
    cases stepKind <;> simp_all [journalKind]
  · exact A.planned_of_step (.inr rfl) hs

private theorem find?_of_nodup {captures : List OldObjectCaptureRequest}
    (hnodup : (captures.map OldObjectCaptureRequest.path).Nodup) {r : OldObjectCaptureRequest}
    (hr : r ∈ captures) : captures.find? (fun c => c.path == r.path) = some r := by
  cases hfind : captures.find? (fun c => c.path == r.path) with
  | none => simpa using List.find?_eq_none.mp hfind r hr
  | some c =>
    have hpath : c.path = r.path := by simpa using List.find?_some hfind
    rw [List.inj_on_of_nodup_map hnodup (List.mem_of_find?_eq_some hfind) hr hpath]

/-- At an active step the view and the journal agree on what a result leaves. -/
private theorem activeResultDurability_eq {path : PackagePath}
    (hkey : A.HasKey .publishActiveObject (some path)) {outcome : BackendOperationOutcome}
    {previous : DurabilityStatus} :
    ViewSlots.activeResultDurability A.plan path outcome previous =
      outcomeDurability previous outcome := by
  have hstep : ∃ s ∈ A.steps .publishActiveObject, s.path = path := by
    rcases AdmittedApplication.hasKey_some hkey with ⟨stepKind, s, hs, heq, rfl⟩ | ⟨heq, -⟩
    · cases stepKind with
      | publishActiveObject => exact ⟨s, hs, rfl⟩
      | _ => cases heq
    · cases heq
  obtain ⟨s, hs, rfl⟩ := hstep
  obtain ⟨d, hdecision, hrequired, rfl⟩ := (AdmittedApplication.mem_steps_active s).mp hs
  unfold ViewSlots.activeResultDurability
  rw [OperationPlan.decision_of_mem hdecision]
  cases outcome <;>
    simp [ViewSlots.activeResultChangedTarget, hrequired, outcomeDurability]

private theorem effect_path_none {e : JournalEffect} (hkind : requiresPath e.kind = false) :
    e.path = none := by
  have := e.path_iff
  rw [hkind] at this
  simpa using this

private theorem synchronizationEvent_eq_ok {unattempted : Exn} (other : Exn)
    {status : DurabilityStatus} {kind : EventKind}
    (h : synchronizationEvent unattempted status = .ok kind) :
    synchronizationEvent other status = .ok kind := by
  cases status <;> first | exact h | cases h

section Terminal

variable {e : JournalEvent} {fact : ReplayFact} {path : PackagePath}

namespace Terminates

theorem hasKey (ht : Terminates A h step e fact) : A.HasKey e.effect.kind e.effect.path :=
  AdmittedApplication.hasKey_of_mem ht.declares (ht.admitted.event e ht.event).declared

/-- The effect had no fact before. -/
theorem fact_eq_none (ht : Terminates A h step e fact) {kind : EffectKind}
    {path : Option PackagePath} (hkind : e.effect.kind = kind) (hpath : e.effect.path = path) :
    (h.ledger.slot kind path).fact = none := by
  obtain ⟨hopen, -⟩ := JournalHistory.slot_after_terminal ht.appended ht.declares.keyed ht.admitted
    ht.event ht.terminal
  rw [JournalHistory.ledger_slot, ← hkind, ← hpath, hopen]
  rfl

end Terminates

theorem ViewSlots.Recalls.noteSeal {result : BackendOperationResult} (hv : v.Recalls h)
    (ht : Terminates A h step e (.payloadSeal result)) (hkind : e.effect.kind = .stageIncomingPayload)
    (hevidence : e.evidence = result.evidence) (hok : terminalEvent result.outcome = .ok e.kind)
    (hseals : (h.after step).SealsAgree) :
    ∃ v', v.noteSeal e result = .ok v' ∧ v'.Recalls (h.after step) := by
  have hsame : ∀ retained, v.incomingPayload = some retained → retained = result := by
    intro retained hretained
    obtain ⟨path, hpath⟩ := (hv.sealing retained).mp hretained
    exact hseals path e.effect.path retained result
      (JournalHistory.retains_after.mpr (.inl hpath))
      (JournalHistory.retains_after.mpr
        (.inr ⟨e, ht.event, ht.terminal, hkind, rfl, ht.retained⟩))
  have hany : v.incomingPayload.any (fun retained => retained != result) = false := by
    cases hpayload : v.incomingPayload with
    | none => rfl
    | some retained => simp [hsame retained hpayload]
  have hnote : v.noteSeal e result = .ok { v with
      incomingPayload := some result
      durability := v.durability.set .incomingStaging
        (if result.outcome = .completed then .visible else .indeterminate) } := by
    unfold ViewSlots.noteSeal
    rw [replayTerminalEvent_eq_ok hok]
    change (refuseIf _ _ >>= fun _ => refuseIf _ _ >>= fun _ => _) = _
    rw [refuseIf_bind_of_not (by simp [hevidence]), refuseIf_bind_of_not (by simp [hany])]
    rfl
  refine ⟨_, hnote, hv.after_some _ ht (by simp [hkind]) (by simp [hkind]) (by simp [hkind])
    (by simp [hkind]) (by simp [hkind]) (fun x => ?_) (fun domain x hx => .inl hx) (by simp) rfl⟩
  simp only [Option.some.injEq, hkind, true_and, ReplayFact.payloadSeal.injEq]
  exact ⟨.inr, fun hor => hor.elim (fun hold => (hsame x hold).symm) id⟩

theorem ViewSlots.Recalls.noteCapture {result : OldObjectCaptureResult} (hv : v.Recalls h)
    (ht : Terminates A h step e (.capture result)) (hkind : e.effect.kind = .captureOldObject)
    {request : OldObjectCaptureRequest} (hrequest : request ∈ A.captures)
    (hpath : e.effect.path = some request.path) (hcaptured : result.captured.path = request.path)
    (hevidence : e.evidence = result.evidence)
    (hok : terminalEvent (captureSemanticOutcome A.control request result) = .ok e.kind) :
    ∃ v', v.noteCapture A.request e A.captures result = .ok v' ∧ v'.Recalls (h.after step) := by
  obtain ⟨d, hdecision, before, hdpath, -⟩ := capture_decision A.captures_ok hrequest
  have hplanned : (A.plan.decision result.captured.path).isSome := by
    rw [hcaptured, ← hdpath, OperationPlan.decision_of_mem hdecision]
    rfl
  have hfind : A.captures.find? (fun c => c.path == result.captured.path) = some request := by
    rw [hcaptured]
    exact find?_of_nodup A.captures_nodup hrequest
  have hfree : v.captures result.captured.path = none := by
    rw [hv.captures, Ledger.capture, hcaptured, ht.fact_eq_none hkind hpath]
    rfl
  have hconditional : result.outcome ≠ .conditionalRetained := by
    intro hout
    simp [captureSemanticOutcome, hout, terminalEvent] at hok
  have hnote : v.noteCapture A.request e A.captures result = .ok { v with
      captures := fun p => if p = result.captured.path then some result else v.captures p
      durability := v.durability.set .recoveryStaging
        (if result.outcome = .completed then .visible else .indeterminate) } := by
    unfold ViewSlots.noteCapture
    rw [refuseIf_bind_of_not (by simp [hpath, hcaptured, hevidence]),
      refuseIf_bind_of_not hconditional,
      refuseIf_bind_of_not (by simpa using Option.isSome_iff_ne_none.mp hplanned), hfind]
    dsimp only
    rw [replayTerminalEvent_eq_ok hok]
    change (refuseIf _ _ >>= fun _ => retainPathFact _ _ _ _ _ >>= fun _ => _) = _
    rw [refuseIf_bind_of_not (by simp), retainPathFact_eq_ok hplanned hfree]
    rfl
  refine ⟨_, hnote, hv.after_some _ ht (fun p => ?_) (by simp [hkind]) (by simp [hkind])
    (by simp [hkind]) (by simp [hkind]) (by simp [hkind]) (fun domain x hx => .inl hx)
    (by simp) rfl⟩
  simp [hkind, hpath, hcaptured, ReplayFact.capture?, eq_comm]

theorem ViewSlots.Recalls.noteRejected {result : RejectedObjectPublicationResult}
    (hv : v.Recalls h) (ht : Terminates A h step e (.rejectedEffect path result))
    (hkind : e.effect.kind = .publishRejectedObject) (hpath : e.effect.path = some path)
    (hevidence : e.evidence = result.evidence) (hok : terminalEvent result.outcome = .ok e.kind) :
    ∃ v', v.noteRejected A.request e path result = .ok v' ∧ v'.Recalls (h.after step) := by
  have hplanned : (A.plan.decision path).isSome :=
    planned_of_key (hkind ▸ hpath ▸ ht.hasKey) (.inl rfl)
  have hfree : v.rejected path = none := by
    rw [hv.rejected, Ledger.rejected, ht.fact_eq_none hkind hpath]
    rfl
  have hnote : v.noteRejected A.request e path result = .ok { v with
      rejected := fun p => if p = path then some result else v.rejected p
      durability := v.durability.set .rejectedObjectStore
        (outcomeDurability v.durability.rejectedObjectStore result.outcome) } := by
    unfold ViewSlots.noteRejected
    rw [refuseIf_bind_of_not (by simp [hpath]), replayTerminalEvent_eq_ok hok]
    change (refuseIf _ _ >>= fun _ => retainPathFact _ _ _ _ _ >>= fun _ => _) = _
    rw [refuseIf_bind_of_not (by simp [hevidence]), retainPathFact_eq_ok hplanned hfree]
    rfl
  refine ⟨_, hnote, hv.after_some _ ht (by simp [hkind]) (fun p => ?_) (by simp [hkind])
    (by simp [hkind]) (by simp [hkind]) (by simp [hkind]) (fun domain x hx => .inl hx)
    (by simp) rfl⟩
  simp [hkind, hpath, ReplayFact.rejected?, eq_comm]

theorem ViewSlots.Recalls.noteActive {result : BackendOperationResult} (hv : v.Recalls h)
    (ht : Terminates A h step e (.activeEffect path result))
    (hkind : e.effect.kind = .publishActiveObject) (hpath : e.effect.path = some path)
    (hevidence : e.evidence = result.evidence)
    (hok : activeTerminalEvent result.outcome = .ok e.kind) :
    ∃ v', v.noteActive A.request e path result = .ok v' ∧ v'.Recalls (h.after step) := by
  have hkey : A.HasKey .publishActiveObject (some path) := hkind ▸ hpath ▸ ht.hasKey
  have hfree : v.active path = none := by
    rw [hv.active, Ledger.active, ht.fact_eq_none hkind hpath]
    rfl
  have hnote : v.noteActive A.request e path result = .ok { v with
      active := fun p => if p = path then some result else v.active p
      durability := v.durability.set .activeNamespace
        (outcomeDurability v.durability.activeNamespace result.outcome) } := by
    unfold ViewSlots.noteActive
    rw [refuseIf_bind_of_not (by simp [hpath]), replayActiveTerminalEvent_eq_ok hok]
    change (refuseIf _ _ >>= fun _ => retainPathFact _ _ _ _ _ >>= fun _ => _) = _
    rw [refuseIf_bind_of_not (by simp [hevidence]),
      retainPathFact_eq_ok (planned_of_key hkey (.inr (.inl rfl))) hfree,
      activeResultDurability_eq hkey]
    rfl
  refine ⟨_, hnote, hv.after_some _ ht (by simp [hkind]) (by simp [hkind]) (fun p => ?_)
    (by simp [hkind]) (by simp [hkind]) (by simp [hkind]) (fun domain x hx => .inl hx)
    (by simp) rfl⟩
  simp [hkind, hpath, ReplayFact.active?, eq_comm]

theorem ViewSlots.Recalls.noteRecovery {result : BackendOperationResult} (hv : v.Recalls h)
    (ht : Terminates A h step e (.recoveryEffect path result))
    (hkind : e.effect.kind = .recoverActiveObject) (hpath : e.effect.path = some path)
    (hevidence : e.evidence = result.evidence) (hok : terminalEvent result.outcome = .ok e.kind) :
    ∃ v', v.noteRecovery A.request e path result = .ok v' ∧ v'.Recalls (h.after step) := by
  have hplanned : (A.plan.decision path).isSome :=
    planned_of_key (hkind ▸ hpath ▸ ht.hasKey) (.inr (.inr rfl))
  have hfree : v.recovery path = none := by
    rw [hv.recovery, Ledger.recovery, ht.fact_eq_none hkind hpath]
    rfl
  have hnote : v.noteRecovery A.request e path result = .ok { v with
      recovery := fun p => if p = path then some result else v.recovery p
      durability := v.durability.set .activeNamespace
        (outcomeDurability v.durability.activeNamespace result.outcome) } := by
    unfold ViewSlots.noteRecovery
    rw [refuseIf_bind_of_not (by simp [hpath]), replayTerminalEvent_eq_ok hok]
    change (refuseIf _ _ >>= fun _ => retainPathFact _ _ _ _ _ >>= fun _ => _) = _
    rw [refuseIf_bind_of_not (by simp [hevidence]), retainPathFact_eq_ok hplanned hfree]
    rfl
  refine ⟨_, hnote, hv.after_some _ ht (by simp [hkind]) (by simp [hkind]) (by simp [hkind])
    (fun p => ?_) (by simp [hkind]) (by simp [hkind]) (fun domain x hx => .inl hx)
    (by simp) rfl⟩
  simp [hkind, hpath, ReplayFact.recovery?, eq_comm]

theorem ViewSlots.Recalls.noteEvidence {evidence : CompletedEvidence} (hv : v.Recalls h)
    (ht : Terminates A h step e (.completedEvidence evidence))
    (hkind : e.effect.kind = .publishCompletedEvidence) (hcompleted : e.kind = .completed)
    (hbelongs : evidence.BelongsTo A) :
    ∃ v', v.noteEvidence A.request e h.header evidence = .ok v' ∧ v'.Recalls (h.after step) := by
  have hpath := effect_path_none (e := e.effect) (by rw [hkind]; rfl)
  have hfree : v.completedEvidence = none := by
    rw [hv.evidence, Ledger.evidence, ht.fact_eq_none hkind hpath]
    rfl
  have hnote : v.noteEvidence A.request e h.header evidence = .ok { v with
      completedEvidence := some evidence
      durability := v.durability.set .completedEvidence .visible } := by
    unfold ViewSlots.noteEvidence
    rw [refuseIf_bind_of_not (by
        simp [hcompleted, hbelongs.request, hbelongs.plan, hbelongs.attempt, hbelongs.target,
          hbelongs.control, hbelongs.journal, ht.declares.header, AdmittedApplication.header]),
      refuseIf_bind_of_not (by simp [hfree])]
    rfl
  exact ⟨_, hnote, hv.after_some _ ht (by simp [hkind]) (by simp [hkind]) (by simp [hkind])
    (by simp [hkind]) (by simp [hkind, hpath, ReplayFact.evidence?]) (by simp [hkind])
    (fun domain x hx => .inl hx) (by simp) rfl⟩

theorem ViewSlots.Recalls.noteSynchronization {result : DurabilityFact} {unattempted : Exn}
    (hv : v.Recalls h) (ht : Terminates A h step e (.synchronization result))
    (hdomain : synchronizationDomain e.effect.kind = .ok result.domain)
    (hpath : e.effect.path = none) (hevidence : e.evidence = ∅)
    (hok : synchronizationEvent unattempted result.status = .ok e.kind) :
    ∃ v', v.noteSynchronization e result = .ok v' ∧ v'.Recalls (h.after step) := by
  -- no kind that has a slot of its own is a synchronization
  have hother (kind : EffectKind) (hnone : ∃ error, synchronizationDomain kind = .error error) :
      e.effect.kind ≠ kind := by
    rintro rfl
    obtain ⟨error, hnone⟩ := hnone
    cases hdomain.symm.trans hnone
  have hnote : v.noteSynchronization e result = .ok { v with
      synchronizations := fun d => if d = result.domain then some result
        else v.synchronizations d
      durability := v.durability.set result.domain result.status } := by
    unfold ViewSlots.noteSynchronization
    rw [hdomain]
    change (refuseIf _ _ >>= fun _ => synchronizationEvent _ _ >>= fun _ => _) = _
    rw [refuseIf_bind_of_not (by simp), synchronizationEvent_eq_ok _ hok]
    change (refuseIf _ _ >>= fun _ => _) = _
    rw [refuseIf_bind_of_not (by simp [hevidence])]
    rfl
  refine ⟨_, hnote, hv.after_some _ ht (by simp [hother .captureOldObject ⟨_, rfl⟩])
    (by simp [hother .publishRejectedObject ⟨_, rfl⟩])
    (by simp [hother .publishActiveObject ⟨_, rfl⟩])
    (by simp [hother .recoverActiveObject ⟨_, rfl⟩])
    (by simp [hother .publishCompletedEvidence ⟨_, rfl⟩])
    (by simp [hother .stageIncomingPayload ⟨_, rfl⟩]) (fun domain x hx => ?_) (fun x hx => ?_) rfl⟩
  · dsimp only at hx
    split at hx
    · cases hx
      exact .inr ⟨‹domain = _›.symm, hpath, rfl⟩
    · exact .inl hx
  · dsimp only
    split
    · rfl
    · rcases hx with hx | hx
      · exact hx
      · cases hx
        exact absurd rfl ‹_›

/-- A fact that fits its effect is replayed. -/
theorem ViewSlots.Recalls.noteFact (hv : v.Recalls h) (ht : Terminates A h step e fact)
    (hfits : (⟨e.kind, e.evidence, some fact⟩ : Ended).Fits A e.effect.kind e.effect.path)
    (hseals : (h.after step).SealsAgree) :
    ∃ v', v.noteFact A.request e A.captures h.header fact = .ok v' ∧ v'.Recalls (h.after step) := by
  unfold ViewSlots.noteFact
  unfold Ended.Fits at hfits
  cases hkind : e.effect.kind with
  | stageIncomingPayload =>
    rw [hkind] at hfits
    obtain ⟨result, hevidence, hok, hresult⟩ := hfits
    cases hresult
    exact hv.noteSeal ht hkind hevidence hok hseals
  | captureOldObject =>
    rw [hkind] at hfits
    obtain ⟨request, hrequest, result, hpath, hcaptured, hevidence, hok, hresult⟩ := hfits
    cases hresult
    exact hv.noteCapture ht hkind hrequest hpath hcaptured hevidence hok
  | publishRejectedObject =>
    rw [hkind] at hfits
    obtain ⟨path, result, hpath, hevidence, hok, hresult⟩ := hfits
    cases hresult
    exact hv.noteRejected ht hkind hpath hevidence hok
  | publishActiveObject =>
    rw [hkind] at hfits
    obtain ⟨path, result, hpath, hevidence, hok, hresult⟩ := hfits
    cases hresult
    exact hv.noteActive ht hkind hpath hevidence hok
  | recoverActiveObject =>
    rw [hkind] at hfits
    obtain ⟨path, result, hpath, hevidence, hok, hresult⟩ := hfits
    cases hresult
    exact hv.noteRecovery ht hkind hpath hevidence hok
  | publishCompletedEvidence =>
    rw [hkind] at hfits
    dsimp only at hfits
    split at hfits
    · rename_i hcompleted
      obtain ⟨evidence, hbelongs, hresult⟩ := hfits
      cases hresult
      exact hv.noteEvidence ht hkind hcompleted hbelongs
    · cases hfits
  | observeResult =>
    rw [hkind] at hfits
    cases hfits
  | sealReceipt =>
    rw [hkind] at hfits
    cases hfits
  | _ =>
    rw [hkind] at hfits
    obtain ⟨result, unattempted, hdomain, hevidence, hok, hresult⟩ := hfits
    cases hresult
    have hpath := effect_path_none (e := e.effect) (by rw [hkind]; rfl)
    exact hv.noteSynchronization ht (by rw [hkind]; exact hdomain) hpath hevidence hok

/-- Evidence that fits its effect was made for the request. -/
theorem Ended.Fits.madeFor {kind : EffectKind} {path : Option PackagePath} {ended : Ended}
    (hfits : ended.Fits A kind path) (hfact : ended.fact = some fact) :
    fact.MadeFor A.request := by
  cases fact with
  | completedEvidence evidence =>
    unfold Ended.Fits at hfits
    cases kind with
    | publishCompletedEvidence =>
      dsimp only at hfits
      split at hfits
      · obtain ⟨evidence', hbelongs, hretained⟩ := hfits
        cases hfact.symm.trans hretained
        exact hbelongs.made
      · cases hfact.symm.trans hfits
    | _ => simp [hfact] at hfits
  | _ => trivial

end Terminal

/-- A step of a fitting history is replayed. -/
theorem ViewSlots.Recalls.noteStep (hv : v.Recalls h) (hr : JournalHistory.Appended h)
    (hd : A.Declares h) (ha : h.Admits step) (hfits : (h.after step).Fitting A)
    (hseals : (h.after step).SealsAgree) (hwithin : (h.after step).FactsWithin) :
    ∃ v', v.noteStep A.request A.captures h.header step = .ok v' ∧ v'.Recalls (h.after step) := by
  have hk := hd.keyed
  unfold ViewSlots.noteStep
  cases he : step.event with
  | none =>
    have hnone : step.replayFact = none := by
      by_contra hsome
      have := ha.fact (Option.isSome_iff_ne_none.mpr hsome)
      simp [he, JournalHistory.isTerminal] at this
    exact ⟨v, rfl, hv.after_none hr hk ha hnone⟩
  | some e =>
    dsimp only
    by_cases hintent : e.kind = .intent
    · have hnone : step.replayFact = none := by
        by_contra hsome
        have := ha.fact (Option.isSome_iff_ne_none.mpr hsome)
        simp [he, JournalHistory.isTerminal, hintent] at this
      rw [if_pos hintent]
      exact ⟨v, rfl, hv.after_none hr hk ha hnone⟩
    · rw [if_neg hintent]
      have hfit := hfits step (by simp) e.effect.kind e.effect.path _
        ⟨e, he, hintent, rfl, rfl, rfl⟩
      have hv' : ({ v with backendEvidence := v.backendEvidence ∪ e.evidence }).Recalls h :=
        ⟨hv.captures, hv.rejected, hv.active, hv.recovery, hv.evidence, hv.sealing,
          hv.synchronized, hv.synchronizations, hv.durability⟩
      unfold ViewSlots.noteTerminal
      cases hfact : step.replayFact with
      | none =>
        rw [hfact] at hfit
        refine ⟨_, ?_, hv'.after_none hr hk ha hfact⟩
        have hoptional : ViewSlots.factOptional e = true := by
          unfold ViewSlots.factOptional
          unfold Ended.Fits at hfit
          cases hkind : e.effect.kind <;> simp_all
        dsimp only
        rw [if_pos hoptional]
      | some fact =>
        rw [hfact] at hfit
        have hread := (hfit.madeFor rfl).decode (hwithin step (by simp) fact hfact)
        obtain ⟨v₁, hnote, hv₁⟩ := hv'.noteFact ⟨hr, hd, ha, he, hintent, hfact⟩ hfit hseals
        exact ⟨v₁, bind_eq_ok_iff.mpr ⟨fact, hread, hnote⟩, hv₁⟩

end Step

/-! ## The view of a history -/

theorem ViewSlots.noteSteps_concat {request : ApplicationRequest}
    {captures : List OldObjectCaptureRequest} {header : JournalHeader} {steps : List JournalStep}
    {step : JournalStep} {v : ViewSlots} :
    ViewSlots.noteSteps request captures header (steps ++ [step]) v =
      ViewSlots.noteSteps request captures header steps v >>= fun v =>
        v.noteStep request captures header step := by
  induction steps generalizing v with
  | nil =>
    simp only [List.nil_append, noteSteps]
    exact bind_pure _
  | cons x rest ih =>
    simp only [List.cons_append, noteSteps, ih]
    exact (bind_assoc _ _ _).symm

/-- Replaying a fitting history with one seal and readable facts recalls it. -/
theorem ViewSlots.noteSteps_recalls {A : AdmittedApplication} {h : JournalHistory}
    (hr : JournalHistory.Appended h) (hd : A.Declares h) (hfits : h.Fitting A)
    (hseals : h.SealsAgree) (hwithin : h.FactsWithin) (admitted : Evidence) :
    ∃ v, ViewSlots.noteSteps A.request A.captures h.header h.steps (.empty admitted) = .ok v ∧
      v.Recalls h := by
  induction hr with
  | initial d =>
    refine ⟨_, rfl, rfl, rfl, rfl, rfl, rfl, fun result => ?_, fun _ _ hx => (nomatch hx), ?_, rfl⟩
    · constructor
      · rintro ⟨⟩
      · rintro ⟨path, step, hstep, -⟩
        cases hstep
    · rintro kind fact ⟨step, hstep, -⟩
      cases hstep
  | @append h h' step hr happend ih =>
    obtain ⟨ha, rfl⟩ := JournalHistory.append_eq_ok_iff.mp happend
    obtain ⟨v, hok, hv⟩ := ih hd
      (fun x hx => hfits x (List.mem_append_left _ hx))
      (fun path path' r r' hpath hpath' => hseals path path' r r'
        (JournalHistory.retains_after.mpr (.inl hpath))
        (JournalHistory.retains_after.mpr (.inl hpath')))
      (fun x hx => hwithin x (List.mem_append_left _ hx))
    obtain ⟨v', hok', hv'⟩ := hv.noteStep hr hd ha hfits hseals hwithin
    refine ⟨v', ?_, hv'⟩
    rw [JournalHistory.after_steps, noteSteps_concat]
    exact bind_eq_ok_iff.mpr ⟨v, hok, hok'⟩

/-- Every step of a replay is replayed. -/
theorem ViewSlots.noteSteps_step {request : ApplicationRequest}
    {captures : List OldObjectCaptureRequest} {header : JournalHeader} {steps : List JournalStep}
    {v v' : ViewSlots} (hok : ViewSlots.noteSteps request captures header steps v = .ok v')
    {step : JournalStep} (hstep : step ∈ steps) :
    ∃ v₀ v₁ : ViewSlots, v₀.noteStep request captures header step = .ok v₁ := by
  induction steps generalizing v with
  | nil => cases hstep
  | cons first rest ih =>
    obtain ⟨v₁, hfirst, hrest⟩ := bind_eq_ok_iff.mp hok
    rcases List.mem_cons.mp hstep with rfl | hstep
    · exact ⟨v, v₁, hfirst⟩
    · exact ih hrest hstep

/-- Only a terminal event retains a fact. -/
theorem JournalHistory.Appended.fact_terminal {h : JournalHistory}
    (hr : JournalHistory.Appended h) {step : JournalStep} (hstep : step ∈ h.steps)
    {fact : ReplayFact} (hfact : step.replayFact = some fact) :
    ∃ e, step.event = some e ∧ e.kind ≠ .intent := by
  induction hr with
  | initial d => cases hstep
  | @append h h' x hr happend ih =>
    obtain ⟨ha, rfl⟩ := JournalHistory.append_eq_ok_iff.mp happend
    rcases List.mem_append.mp hstep with hstep | hstep
    · exact ih hstep
    · rw [List.mem_singleton.mp hstep] at hfact ⊢
      have hterminal := ha.fact (by rw [hfact]; rfl)
      cases he : x.event with
      | none =>
        rw [he] at hterminal
        cases hterminal
      | some e => exact ⟨e, rfl, by simpa [he, JournalHistory.isTerminal] using hterminal⟩

/-- Only facts whose lists the decoder reads are replayed. -/
theorem ViewSlots.within_of_noteSteps {request : ApplicationRequest}
    {captures : List OldObjectCaptureRequest} {h : JournalHistory}
    (hr : JournalHistory.Appended h) {v v' : ViewSlots}
    (hok : ViewSlots.noteSteps request captures h.header h.steps v = .ok v') : h.FactsWithin := by
  intro step hstep fact hfact
  obtain ⟨e, he, hterminal⟩ := hr.fact_terminal hstep hfact
  obtain ⟨v₀, v₁, hnote⟩ := ViewSlots.noteSteps_step hok hstep
  unfold ViewSlots.noteStep ViewSlots.noteTerminal at hnote
  simp only [he, if_neg hterminal, Option.mem_def.mp hfact] at hnote
  obtain ⟨fact', hread, -⟩ := bind_eq_ok_iff.mp hnote
  exact (decodeReplayFact_eq_ok hread).1

/-- Only a history with one seal is replayed. -/
theorem ViewSlots.sealsAgree_of_noteSteps {A : AdmittedApplication} {h : JournalHistory}
    (hr : JournalHistory.Appended h) (hd : A.Declares h) (hfits : h.Fitting A)
    {admitted : Evidence} {v : ViewSlots}
    (hok : ViewSlots.noteSteps A.request A.captures h.header h.steps (.empty admitted) = .ok v) :
    h.SealsAgree := by
  induction hr generalizing v with
  | initial d =>
    rintro path path' result result' ⟨step, hstep, -⟩
    cases hstep
  | @append h h' step hr happend ih =>
    obtain ⟨ha, rfl⟩ := JournalHistory.append_eq_ok_iff.mp happend
    rw [JournalHistory.after_steps, noteSteps_concat] at hok
    obtain ⟨v₀, hok₀, hstep⟩ := bind_eq_ok_iff.mp hok
    have hfits₀ : h.Fitting A := fun x hx => hfits x (List.mem_append_left _ hx)
    have hseals := ih hd hfits₀ hok₀
    obtain ⟨v₁, hok₁, hv⟩ := noteSteps_recalls hr hd hfits₀ hseals (within_of_noteSteps hr hok₀)
      admitted
    cases hok₀.symm.trans hok₁
    -- a new seal is checked against the one retained
    have hnew : ∀ path result, (∃ e, step.event = some e ∧ e.kind ≠ .intent ∧
        e.effect.kind = .stageIncomingPayload ∧ e.effect.path = path ∧
        step.replayFact = some (.payloadSeal result)) →
        ∀ path' result', h.Retains .stageIncomingPayload path' (.payloadSeal result') →
          result' = result := by
      rintro path result ⟨e, he, hterminal, hkind, -, hfact⟩ path' result' hretains
      have hretained := (hv.sealing result').mpr ⟨path', hretains⟩
      unfold ViewSlots.noteStep ViewSlots.noteTerminal at hstep
      simp only [he, if_neg hterminal, hfact] at hstep
      obtain ⟨fact, hread, hstep⟩ := bind_eq_ok_iff.mp hstep
      obtain ⟨-, rfl⟩ := decodeReplayFact_eq_ok hread
      unfold ViewSlots.noteFact at hstep
      simp only [hkind] at hstep
      unfold ViewSlots.noteSeal at hstep
      obtain ⟨terminal, -, hstep⟩ := bind_eq_ok_iff.mp hstep
      rw [refuseIf_bind_eq_ok, refuseIf_bind_eq_ok] at hstep
      obtain ⟨-, hsame, -⟩ := hstep
      simpa [hretained] using hsame
    intro path path' result result' hretains hretains'
    rcases JournalHistory.retains_after.mp hretains with hold | hnow <;>
      rcases JournalHistory.retains_after.mp hretains' with hold' | hnow'
    · exact hseals path path' result result' hold hold'
    · exact hnew path' result' hnow' path result hold
    · exact (hnew path result hnow path' result' hold').symm
    · obtain ⟨-, -, -, -, -, hfact⟩ := hnow
      obtain ⟨-, -, -, -, -, hfact'⟩ := hnow'
      cases hfact.symm.trans hfact'
      rfl

/-- The values of a slot table that holds only planned paths, looked up by path. -/
theorem findPathValue_materialize {α : Type} {plan : OperationPlan}
    {slots : PackagePath → Option α}
    (hplanned : ∀ p, (slots p).isSome → (plan.decision p).isSome) (path : PackagePath) :
    findPathValue (materialize plan slots) path = slots path := by
  have hmem : ∀ v ∈ materialize plan slots, slots v.1 = some v.2 := by
    intro v hv
    obtain ⟨d, -, hd⟩ := List.mem_filterMap.mp hv
    obtain ⟨value, hvalue, rfl⟩ := Option.map_eq_some_iff.mp hd
    exact hvalue
  unfold findPathValue
  cases hfind : (materialize plan slots).find? (fun v => v.1 == path) with
  | some v =>
    have hpath : v.1 = path := by simpa using List.find?_some hfind
    rw [← hpath]
    exact (hmem v (List.mem_of_find?_eq_some hfind)).symm
  | none =>
    cases hslot : slots path with
    | none => rfl
    | some value =>
      obtain ⟨d, hd⟩ := Option.isSome_iff_exists.mp (hplanned path (by rw [hslot]; rfl))
      have hdpath := OperationPlan.decision_path hd
      have hin : (path, value) ∈ materialize plan slots := by
        refine List.mem_filterMap.mpr ⟨d, OperationPlan.decision_mem hd, ?_⟩
        rw [hdpath, hslot]
        rfl
      simpa using List.find?_eq_none.mp hfind _ hin

/-- What a view exposes is what the slots of the history carry. -/
structure RestartView.Recalls (view : RestartView) (h : JournalHistory) : Prop where
  captures : ∀ path, view.findCapture path = h.ledger.capture path
  rejected : ∀ path, view.findRejectedEffect path = h.ledger.rejected path
  active : ∀ path, view.findActiveEffect path = h.ledger.active path
  recovery : ∀ path, view.findRecoveryEffect path = h.ledger.recovery path
  evidence : view.completedEvidence = h.ledger.evidence
  sealing : ∀ result, view.incomingPayload = some result ↔
    ∃ path, h.Retains .stageIncomingPayload path (.payloadSeal result)
  synchronized : ∀ domain fact, view.findSynchronization domain = some fact →
    fact.domain = domain ∧ ∃ kind, h.Retains kind none (.synchronization fact)
  synchronizations : ∀ kind fact, h.Retains kind none (.synchronization fact) →
    (view.findSynchronization fact.domain).isSome
  durability : view.durability = h.durability

section View

variable {A : AdmittedApplication} {h : JournalHistory}

/-- Every event of a history is of a declared effect. -/
theorem JournalHistory.Appended.declared (hr : JournalHistory.Appended h) :
    ∀ step ∈ h.steps, ∀ e, step.event = some e → e.effect ∈ h.effects := by
  induction hr with
  | initial d => exact fun step hstep => absurd hstep List.not_mem_nil
  | @append h h' step hr happend ih =>
    obtain ⟨ha, rfl⟩ := JournalHistory.append_eq_ok_iff.mp happend
    intro x hx e he
    rcases List.mem_append.mp hx with hx | hx
    · exact ih x hx e he
    · rw [List.mem_singleton.mp hx] at he
      exact (ha.event e he).declared

/-- How a slot of a fitting history ended fits its effect, which is declared. -/
theorem JournalHistory.Fitting.slot (hfits : h.Fitting A) (hr : JournalHistory.Appended h)
    (hd : A.Declares h) {kind : EffectKind} {path : Option PackagePath} {ended : Ended}
    (hended : (h.slot kind path).ended = some ended) :
    ended.Fits A kind path ∧ A.HasKey kind path := by
  obtain ⟨step, hstep, hends⟩ := (hr.slot_ended_iff hd.keyed).mp hended
  refine ⟨hfits step hstep kind path ended hends, ?_⟩
  obtain ⟨e, he, -, rfl, rfl, -⟩ := hends
  exact AdmittedApplication.hasKey_of_mem hd (hr.declared step hstep e he)

private theorem planned_of_fact (hfits : h.Fitting A) (hr : JournalHistory.Appended h)
    (hd : A.Declares h) {kind : EffectKind} {path : PackagePath}
    (hkind : kind = .captureOldObject ∨ kind = .publishRejectedObject ∨
      kind = .publishActiveObject ∨ kind = .recoverActiveObject)
    (hfact : (h.slot kind (some path)).fact.isSome) : (A.plan.decision path).isSome := by
  obtain ⟨fact, hfact⟩ := Option.isSome_iff_exists.mp hfact
  obtain ⟨ended, hended, -⟩ := Option.bind_eq_some_iff.mp hfact
  obtain ⟨hfit, hkey⟩ := hfits.slot hr hd hended
  rcases hkind with rfl | hkind
  · obtain ⟨request, hrequest, result, hpath, -⟩ := hfit
    obtain ⟨d, hdecision, before, hdpath, -⟩ := capture_decision A.captures_ok hrequest
    rw [Option.some.inj hpath, ← hdpath, OperationPlan.decision_of_mem hdecision]
    rfl
  · exact planned_of_key hkey hkind

/-- The retained capture of a path is of that path. -/
theorem JournalHistory.Fitting.capture_path (hfits : h.Fitting A)
    (hr : JournalHistory.Appended h) (hd : A.Declares h) {path : PackagePath}
    {captured : OldObjectCaptureResult} (hcapture : h.ledger.capture path = some captured) :
    captured.captured.path = path := by
  obtain ⟨fact, hfact, hcaptured⟩ := Option.bind_eq_some_iff.mp hcapture
  obtain ⟨ended, hended, hendedFact⟩ := Option.bind_eq_some_iff.mp hfact
  obtain ⟨⟨request, -, result, hpath, hresult, -, -, hretained⟩, -⟩ := hfits.slot hr hd hended
  rw [hretained] at hendedFact
  cases hendedFact
  cases hcaptured
  rw [hresult, Option.some.inj hpath]

/-- The observations of an attempt are read back if its seed is. -/
theorem admittedObservations_eq_ok (hd : A.Declares h) {batch : BackendObservationBatch} :
    admittedObservations A.request h = .ok batch ↔
      SeedWithin h.declaration.replaySeed ∧ batch = A.observations := by
  have hseed : h.declaration.replaySeed = A.observations := by
    rw [show h.declaration = A.declaration from hd]
    rfl
  have hsatisfied : ¬(!A.check.satisfied) = true := by simp [A.satisfied]
  simp only [admittedObservations, hseed, bind_eq_ok_iff, decodeReplaySeed_eq_ok]
  constructor
  · rintro ⟨_, ⟨hwithin, rfl⟩, check, hcheck, _, -, hbatch⟩
    cases A.checked.symm.trans hcheck
    cases hbatch
    exact ⟨hwithin, A.check_observations⟩
  · rintro ⟨hwithin, rfl⟩
    refine ⟨A.observations, ⟨hwithin, rfl⟩, A.check, A.checked, (), refuseIf_eq_ok.mpr hsatisfied, ?_⟩
    rw [A.check_observations]
    rfl

/-- The view of slots a replay ended with. -/
private def ViewSlots.exposed (v : ViewSlots) (A : AdmittedApplication) (h : JournalHistory) :
    RestartView where
  declaration := h.declaration
  attempt := h.header.attempt
  admittedObservations := A.observations
  incomingPayload := v.incomingPayload
  captures := (materialize A.plan v.captures).map Prod.snd
  rejectedEffects := materialize A.plan v.rejected
  activeEffects := materialize A.plan v.active
  recoveryEffects := materialize A.plan v.recovery
  synchronizations := v.synchronizations
  durability := v.durability
  backendEvidence := v.backendEvidence ∪
    (v.completedEvidence.map CompletedEvidence.backendEvidence).getD ∅
  completedEvidence := v.completedEvidence

/-- What the view of a history is built from. -/
private theorem buildView_eq_ok (hd : A.Declares h) {view : RestartView} :
    buildView h A.request = .ok view ↔ SeedWithin h.declaration.replaySeed ∧
      ∃ v, ViewSlots.noteSteps A.request A.captures h.header h.steps
        (.empty A.observations.evidence) = .ok v ∧ view = v.exposed A h := by
  have hcaptures : prepareOldObjectCaptures A.request.plan A.request.control = .ok A.captures :=
    A.captures_ok
  simp only [buildView, bind_eq_ok_iff, admittedObservations_eq_ok hd, hcaptures]
  constructor
  · rintro ⟨_, ⟨hseed, rfl⟩, _, ⟨⟩, v, hnote, hview⟩
    cases hview
    exact ⟨hseed, v, hnote, rfl⟩
  · rintro ⟨hseed, v, hnote, rfl⟩
    exact ⟨_, ⟨hseed, rfl⟩, _, rfl, v, hnote, rfl⟩

/-- The view of a fitting history exists exactly where its seals agree and its
lists are readable. -/
theorem buildView_ok_iff (hr : JournalHistory.Appended h) (hd : A.Declares h)
    (hfits : h.Fitting A) :
    (∃ view, buildView h A.request = .ok view) ↔ h.SealsAgree ∧ h.Readable := by
  simp only [buildView_eq_ok hd]
  constructor
  · rintro ⟨view, hseed, v, hnote, -⟩
    exact ⟨ViewSlots.sealsAgree_of_noteSteps hr hd hfits hnote, hseed,
      ViewSlots.within_of_noteSteps hr hnote⟩
  · rintro ⟨hseals, hseed, hfacts⟩
    obtain ⟨v, hnote, -⟩ :=
      ViewSlots.noteSteps_recalls hr hd hfits hseals hfacts A.observations.evidence
    exact ⟨_, hseed, v, hnote, rfl⟩

/-- A view exposes what its history retains. -/
theorem buildView_recalls (hr : JournalHistory.Appended h) (hd : A.Declares h)
    (hfits : h.Fitting A) {view : RestartView} (hok : buildView h A.request = .ok view) :
    view.Recalls h := by
  obtain ⟨hseals, -, hfacts⟩ := (buildView_ok_iff hr hd hfits).mp ⟨view, hok⟩
  obtain ⟨v, hnote, hv⟩ :=
    ViewSlots.noteSteps_recalls hr hd hfits hseals hfacts A.observations.evidence
  obtain ⟨-, v', hnote', rfl⟩ := (buildView_eq_ok hd).mp hok
  cases hnote.symm.trans hnote'
  have hplanned : ∀ kind, (kind = .captureOldObject ∨ kind = .publishRejectedObject ∨
      kind = .publishActiveObject ∨ kind = .recoverActiveObject) → ∀ p,
      (h.slot kind (some p)).fact.isSome → (A.plan.decision p).isSome :=
    fun kind hkind p => planned_of_fact hfits hr hd hkind
  have hbind : ∀ {α : Type} {x : Option ReplayFact} {f : ReplayFact → Option α},
      (x.bind f).isSome → x.isSome := by
    intro α x f hx
    cases x with
    | none => cases hx
    | some fact => rfl
  refine ⟨fun path => ?_, fun path => ?_, fun path => ?_, fun path => ?_, hv.evidence, hv.sealing,
    hv.synchronized, hv.synchronizations, hv.durability⟩
  · have hfound : findPathValue (materialize A.plan v.captures) path = v.captures path := by
      refine findPathValue_materialize ?_ path
      rw [hv.captures]
      exact fun p hp => hplanned _ (.inl rfl) p (hbind hp)
    rw [← hv.captures, ← hfound]
    unfold RestartView.findCapture findPathValue
    change ((materialize A.plan v.captures).map Prod.snd).find? _ = _
    rw [List.find?_map]
    refine congrArg (Option.map Prod.snd) (List.find?_congr fun x hx => ?_)
    obtain ⟨d, -, hd'⟩ := List.mem_filterMap.mp hx
    obtain ⟨captured, hcaptured, rfl⟩ := Option.map_eq_some_iff.mp hd'
    rw [hv.captures] at hcaptured
    simp [hfits.capture_path hr hd hcaptured]
  · rw [← hv.rejected]
    refine findPathValue_materialize ?_ path
    rw [hv.rejected]
    exact fun p hp => hplanned _ (.inr (.inl rfl)) p (hbind hp)
  · rw [← hv.active]
    refine findPathValue_materialize ?_ path
    rw [hv.active]
    exact fun p hp => hplanned _ (.inr (.inr (.inl rfl))) p (hbind hp)
  · rw [← hv.recovery]
    refine findPathValue_materialize ?_ path
    rw [hv.recovery]
    exact fun p hp => hplanned _ (.inr (.inr (.inr rfl))) p (hbind hp)

/-- A view takes captures in place only. -/
theorem inPlace_of_buildView (hd : A.Declares h) {view : RestartView}
    (hok : buildView h A.request = .ok view) : h.InPlace := by
  obtain ⟨-, v, hnote, -⟩ := (buildView_eq_ok hd).mp hok
  rintro path captured ⟨step, hstep, e, he, hterminal, hkind, rfl, hfact⟩
  obtain ⟨v₀, v₁, hstep⟩ := ViewSlots.noteSteps_step hnote hstep
  unfold ViewSlots.noteStep ViewSlots.noteTerminal at hstep
  simp only [he, if_neg hterminal, hfact] at hstep
  obtain ⟨fact, hread, hstep⟩ := bind_eq_ok_iff.mp hstep
  obtain ⟨-, rfl⟩ := decodeReplayFact_eq_ok hread
  unfold ViewSlots.noteFact at hstep
  simp only [hkind] at hstep
  unfold ViewSlots.noteCapture at hstep
  rw [refuseIf_bind_eq_ok] at hstep
  simpa using (not_or.mp hstep.1).1

/-- A logged history that has a view fits it. -/
theorem Logged.view {last : Option EngineCall} {s : EngineState} (hs : Logged A last s)
    {view : RestartView} (hok : buildView s.history A.request = .ok view) :
    s.history.Fitting A ∧ (s.history.SealsAgree ∧ s.history.Readable) ∧
      view.Recalls s.history := by
  have hfits := hs.fitting (inPlace_of_buildView hs.declares hok)
  exact ⟨hfits, (buildView_ok_iff hs.appended hs.declares hfits).mp ⟨view, hok⟩,
    buildView_recalls hs.appended hs.declares hfits hok⟩

end View

/-! ## Exposure -/

/-- A mechanism returned a fact, and a terminal event of the journal carries it. -/
def EngineState.Keeps (s : EngineState) (kind : EffectKind) (path : Option PackagePath)
    (fact : ReplayFact) : Prop :=
  s.history.Retains kind path fact ∧ Returned s.log kind path fact

/-- A view exposes exactly what the mechanisms returned and the engine retained. -/
structure RestartView.Exposes (view : RestartView) (s : EngineState) : Prop where
  captures : ∀ path result, view.findCapture path = some result ↔
    s.Keeps .captureOldObject (some path) (.capture result)
  payload : ∀ result, view.incomingPayload = some result ↔
    ∃ path, s.Keeps .stageIncomingPayload path (.payloadSeal result)
  rejected : ∀ path result, view.findRejectedEffect path = some result ↔
    s.Keeps .publishRejectedObject (some path) (.rejectedEffect path result)
  active : ∀ path result, view.findActiveEffect path = some result ↔
    s.Keeps .publishActiveObject (some path) (.activeEffect path result)
  recovery : ∀ path result, view.findRecoveryEffect path = some result ↔
    s.Keeps .recoverActiveObject (some path) (.recoveryEffect path result)
  synchronizations : ∀ fact, view.findSynchronization fact.domain = some fact ↔
    ∃ kind, s.Keeps kind none (.synchronization fact)

section Exposure

variable {A : AdmittedApplication} {s : EngineState}

/-- Every retained fact of a run is kept. -/
private theorem keeps_iff (hs : A.Left (CapturesInPlace A) s) {kind : EffectKind}
    {path : Option PackagePath} {fact : ReplayFact} :
    s.Keeps kind path fact ↔ s.history.Retains kind path fact :=
  ⟨fun h => h.1, fun h => ⟨h, hs.logged.returned h⟩⟩

/-- A slot fact of a run read back at its own path. -/
private theorem slot_eq_some_iff (hs : A.Left (CapturesInPlace A) s) {α : Type}
    {kind : EffectKind} {path : PackagePath} {read : ReplayFact → Option α}
    {write : α → ReplayFact} {value : α} (hread : ∀ v, read (write v) = some v)
    (hwrite : ∀ ended : Ended, ended.Fits A kind (some path) → ∀ fact, ended.fact = some fact →
      ∃ v, fact = write v) :
    (s.history.slot kind (some path)).fact.bind read = some value ↔
      s.Keeps kind (some path) (write value) := by
  have hlogged := hs.logged
  rw [keeps_iff hs, ← hlogged.appended.slot_fact_iff hlogged.declares.keyed]
  constructor
  · intro h
    obtain ⟨fact, hfact, hvalue⟩ := Option.bind_eq_some_iff.mp h
    obtain ⟨ended, hended, hendedFact⟩ := Option.bind_eq_some_iff.mp hfact
    have hfit := ((hlogged.fitting (hlogged.inPlace hs.answered)).slot hlogged.appended
      hlogged.declares hended).1
    obtain ⟨v, rfl⟩ := hwrite ended hfit fact hendedFact
    rw [hread] at hvalue
    cases hvalue
    exact hfact
  · intro h
    rw [h]
    exact hread value

/-- The view of a run's history exists and exposes exactly what was returned
and retained, if and only if the staging effects retain one seal, each domain
one synchronization fact, and no retained list is longer than the decoder
reads. -/
theorem buildView_exposes_iff (hs : A.Left (CapturesInPlace A) s) :
    (∃ view, buildView s.history A.request = .ok view ∧ view.Exposes s) ↔
      s.history.SealsAgree ∧ s.history.SynchronizationsAgree ∧ s.history.Readable := by
  have hlogged := hs.logged
  have hfitting := hlogged.fitting (hlogged.inPlace hs.answered)
  constructor
  · rintro ⟨view, hok, hview⟩
    have hreadable :=
      ((buildView_ok_iff hlogged.appended hlogged.declares hfitting).mp ⟨view, hok⟩).2
    refine ⟨?_, ?_, hreadable⟩
    · intro path path' result result' h h'
      have hx := (hview.payload result).mpr ⟨path, (keeps_iff hs).mpr h⟩
      have hx' := (hview.payload result').mpr ⟨path', (keeps_iff hs).mpr h'⟩
      exact Option.some.inj (hx.symm.trans hx')
    · intro kind kind' fact fact' h h' hdomain
      have hx := (hview.synchronizations fact).mpr ⟨kind, (keeps_iff hs).mpr h⟩
      have hx' := (hview.synchronizations fact').mpr ⟨kind', (keeps_iff hs).mpr h'⟩
      rw [hdomain] at hx
      exact Option.some.inj (hx.symm.trans hx')
  · rintro ⟨hseals, hsyncs, hreadable⟩
    obtain ⟨view, hok⟩ :=
      (buildView_ok_iff hlogged.appended hlogged.declares hfitting).mpr ⟨hseals, hreadable⟩
    have hview := buildView_recalls hlogged.appended hlogged.declares hfitting hok
    refine ⟨view, hok, fun path result => ?_, fun result => ?_, fun path result => ?_,
      fun path result => ?_, fun path result => ?_, fun fact => ?_⟩
    · rw [hview.captures]
      refine slot_eq_some_iff hs (fun v => rfl) ?_
      rintro ended ⟨request, -, captured, -, -, -, -, hretained⟩ fact hfact
      exact ⟨captured, Option.some.inj (hfact.symm.trans hretained)⟩
    · simp only [hview.sealing, keeps_iff hs]
    · rw [hview.rejected]
      refine slot_eq_some_iff hs (fun v => rfl) ?_
      rintro ended ⟨p, published, hpath, -, -, hretained⟩ fact hfact
      cases hpath
      exact ⟨published, Option.some.inj (hfact.symm.trans hretained)⟩
    · rw [hview.active]
      refine slot_eq_some_iff hs (fun v => rfl) ?_
      rintro ended ⟨p, applied, hpath, -, -, hretained⟩ fact hfact
      cases hpath
      exact ⟨applied, Option.some.inj (hfact.symm.trans hretained)⟩
    · rw [hview.recovery]
      refine slot_eq_some_iff hs (fun v => rfl) ?_
      rintro ended ⟨p, recovered, hpath, -, -, hretained⟩ fact hfact
      cases hpath
      exact ⟨recovered, Option.some.inj (hfact.symm.trans hretained)⟩
    · simp only [keeps_iff hs]
      constructor
      · exact fun h => (hview.synchronized _ _ h).2
      · rintro ⟨kind, h⟩
        obtain ⟨fact', hfact'⟩ := Option.isSome_iff_exists.mp (hview.synchronizations kind fact h)
        obtain ⟨hdomain, kind', h'⟩ := hview.synchronized _ _ hfact'
        rw [hfact', hsyncs kind kind' fact fact' h h' hdomain.symm]

end Exposure

/-! ## A stage sealed twice -/

section Restaged

/-- A backend that seals the stage of two files with one piece of evidence. -/
private def sealing (digest : BitVec 256) : Mechanisms :=
  AdmittedApplication.installationMechanisms {⟨digest⟩}

private def stagingCuts : List EngineState :=
  AdmittedApplication.installation.apply.cuts (engineMachine (sealing 1))
    AdmittedApplication.installation.start

private theorem stagingCuts_isSome : stagingCuts[9]?.isSome = true := by decide +kernel

/-- The installation of two files, cut after the first staging terminal. -/
def stagedOnce : EngineState := stagingCuts[9]?.get stagingCuts_isSome

private def restagingCuts : List EngineState :=
  (runRestart AdmittedApplication.installation.request
    ⟨AdmittedApplication.installation.projection, AdmittedApplication.installation.nonce⟩).cuts
      (engineMachine (sealing 2)) stagedOnce

private theorem restagingCuts_isSome : restagingCuts[8]?.isSome = true := by decide +kernel

/-- Its restart seals the stage with other evidence, and is cut after the
second staging terminal. -/
def stagedTwice : EngineState := restagingCuts[8]?.get restagingCuts_isSome

theorem stagedTwice_left : AdmittedApplication.installation.Left
    (CapturesInPlace AdmittedApplication.installation) stagedTwice := by
  have hplace : ∀ m, CapturesInPlace AdmittedApplication.installation m :=
    fun m request hrequest => absurd hrequest List.not_mem_nil
  have hmem : ∀ (l : List EngineState) (i : Nat) (h : l[i]?.isSome = true), l[i]?.get h ∈ l :=
    fun l i h => List.mem_of_getElem? (Option.some_get h).symm
  have honce : AdmittedApplication.installation.Left
      (CapturesInPlace AdmittedApplication.installation) stagedOnce :=
    .applied (hplace (sealing 1)) (.inl (hmem stagingCuts 9 _))
  exact .resumed honce (hplace (sealing 2)) (.inl (hmem restagingCuts 8 _))

/-- Seals retained by two processes make the view refuse their journal. -/
theorem not_buildView_exposes : ¬∀ (A : AdmittedApplication) (s : EngineState),
    A.Left (CapturesInPlace A) s → s.history.receipt = none →
      ∃ view, buildView s.history A.request = .ok view ∧ view.Exposes s := by
  intro hall
  obtain ⟨view, hok, -⟩ := hall _ stagedTwice stagedTwice_left (by decide +kernel)
  have hrefused : (buildView stagedTwice.history
      AdmittedApplication.installation.request).toBool = false := by decide +kernel
  rw [hok] at hrefused
  cases hrefused

theorem buildView_exposes_iff_stagedTwice :
    (∃ view, buildView stagedTwice.history AdmittedApplication.installation.request = .ok view ∧
      view.Exposes stagedTwice) ↔
        stagedTwice.history.SealsAgree ∧ stagedTwice.history.SynchronizationsAgree ∧
          stagedTwice.history.Readable :=
  buildView_exposes_iff stagedTwice_left

end Restaged

end PkgApply
