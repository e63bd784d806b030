import PkgApply.Engine.Phases
import PkgApply.Engine.Readiness
import PkgApply.Library.Turns
import PkgApply.Restart.Exposure

/-!
# The order of a journal

The journal itself orders no two effects.  What orders them is that the engine
journals a transition only when it is due: an intent when the effects ahead of
it are completed, and visible effects only while nothing is being recovered.
Journals built of due transitions alone have one shape.
-/

namespace PkgApply

open Library

/-! ## Touched effects -/

/-- What carries a plan forward: publications, and the synchronizations of
what they published. -/
def EffectKind.forward : EffectKind → Bool
  | .publishRejectedObject | .synchronizeRejectedStore
  | .publishActiveObject | .synchronizeActiveNamespace
  | .publishCompletedEvidence | .synchronizeCompletedEvidence => true
  | _ => false

/-- An effect at a path changed it, or may have: it has no terminal event, or
one that retains a completed or an indeterminate result. -/
def Slot.disturbed (s : Slot) : Bool :=
  s.intended &&
    match s.ended with
    | none => true
    | some ended =>
      match ended.fact with
      | some (.activeEffect _ result) =>
        result.outcome == .completed || result.outcome == .indeterminate
      | _ => false

@[simp] theorem Slot.disturbed_untouched : untouched.disturbed = false := rfl
@[simp] theorem Slot.disturbed_unresolved : unresolved.disturbed = true := rfl

namespace JournalHistory

variable {h h' : JournalHistory} {t : Transition} {kind : EffectKind} {path : Option PackagePath}

/-- The journal holds an intent of an effect. -/
def Touched (h : JournalHistory) (kind : EffectKind) (path : Option PackagePath) : Prop :=
  (h.slot kind path).intended = true

/-- Nothing is being recovered. -/
def Calm (h : JournalHistory) : Prop := ∀ path, ¬h.Touched .recoverActiveObject path

/-- What has ended is left alone. -/
def Later (h h' : JournalHistory) : Prop :=
  ∀ kind path, (h.slot kind path).ended.isSome = true → h'.slot kind path = h.slot kind path

theorem Later.refl (h : JournalHistory) : h.Later h := fun _ _ _ => rfl

theorem Later.trans {h'' : JournalHistory} (hl : h.Later h') (hl' : h'.Later h'') : h.Later h'' := by
  intro kind path hended
  have hkept := hl kind path hended
  rw [hl' kind path (hkept ▸ hended), hkept]

theorem Later.endedWith {terminal : EventKind} (hl : h.Later h')
    (hended : h.EndedWith kind path terminal) : h'.EndedWith kind path terminal := by
  have hsome : (h.slot kind path).ended.isSome = true := by
    obtain ⟨ended, heq, -⟩ := Option.map_eq_some_iff.mp hended
    rw [heq]
    rfl
  rw [EndedWith, hl kind path hsome]
  exact hended

theorem Later.done (hl : h.Later h') (hdone : h.Done kind path) : h'.Done kind path :=
  hl.endedWith hdone

theorem Follows.later (hp : h.Permits t) (hf : h.Follows t h') : h.Later h' :=
  fun _ _ hended => hf.slot_of_ended hp hended

/-- A transition without an event of a kind leaves its slots. -/
theorem Follows.slot_of_kind (hf : h.Follows t h')
    (hkind : ∀ e, t.event = some e → e.effect.kind ≠ kind) :
    h'.slot kind path = h.slot kind path := by
  rw [hf.slot_eq]
  exact Ledger.step_slot_of_ne fun e he hkey => hkind e he hkey.1

/-- An effect is touched by its intent alone. -/
theorem Follows.touched_iff (hf : h.Follows t h') : h'.Touched kind path ↔
    h.Touched kind path ∨ ∃ e, t.event = some e ∧ e.kind = .intent ∧ e.effect.kind = kind ∧
      e.effect.path = path := by
  unfold Touched
  rw [hf.slot_eq]
  by_cases hself : ∃ e, t.event = some e ∧ e.effect.kind = kind ∧ e.effect.path = path
  · obtain ⟨e, he, rfl, rfl⟩ := hself
    rw [Ledger.step_slot_self he, ledger_slot]
    have hsame : ∀ x, t.event = some x → x = e := fun x hx => Option.some.inj (hx.symm.trans he)
    cases hkind : e.kind with
    | intent => exact ⟨fun _ => .inr ⟨e, he, hkind, rfl, rfl⟩, fun _ => rfl⟩
    | completed | failed | indeterminate =>
      simp only [Slot.note]
      constructor
      · exact .inl
      · rintro (htouched | ⟨x, hx, hintent, -⟩)
        · exact htouched
        · rw [hsame x hx, hkind] at hintent
          cases hintent
  · rw [Ledger.step_slot_of_ne fun e he hkey => hself ⟨e, he, hkey⟩]
    constructor
    · exact .inl
    · rintro (htouched | ⟨e, he, -, hkind, hpath⟩)
      · exact htouched
      · exact absurd ⟨e, he, hkind, hpath⟩ hself

/-- What ended was touched. -/
theorem Appended.touched_of_ended (hr : Appended h) (hk : h.Keyed) {e : JournalEffect}
    (he : e ∈ h.effects) (hended : (h.slot e.kind e.path).ended.isSome = true) :
    h.Touched e.kind e.path := by
  unfold Touched
  rcases hr.slot_cases hk he with hslot | hslot | ⟨ended, hslot⟩
  · rw [hslot] at hended
    cases hended
  · rw [hslot]
    rfl
  · rw [hslot]

end JournalHistory

/-! ## Due transitions -/

namespace AdmittedApplication

section Definitions

variable (A : AdmittedApplication) (h : JournalHistory)

/-- Paths of the active effects, in schedule order. -/
def activePaths : List PackagePath := (A.steps .publishActiveObject).map EffectStep.path

/-- Paths of the rejected publications, in schedule order. -/
def rejectedPaths : List PackagePath := (A.steps .publishRejectedObject).map EffectStep.path

/-- Rejected publication is behind the journal. -/
structure RejectedSettled : Prop where
  published : ∀ path ∈ A.rejectedPaths, h.Done .publishRejectedObject (some path)
  synchronized : A.HasKey .synchronizeRejectedStore none →
    ∃ terminal, h.EndedWith .synchronizeRejectedStore none terminal

/-- Every active effect is completed. -/
def Mutated : Prop := ∀ path ∈ A.activePaths, h.Done .publishActiveObject (some path)

/-- The paths the active effects changed, or may have, most recent first. -/
def undone : List PackagePath :=
  (A.activePaths.filter fun path => (h.slot .publishActiveObject (some path)).disturbed).reverse

/-- What must hold when an effect is intended. -/
def MayIntend (kind : EffectKind) (path : Option PackagePath) : Prop :=
  match kind with
  | .publishRejectedObject => A.Ready h
  | .publishActiveObject =>
    A.Ready h ∧ A.RejectedSettled h ∧ ∃ p, path = some p ∧
      Turn (fun q => h.Done .publishActiveObject (some q)) A.activePaths p
  | .synchronizeActiveNamespace => A.Mutated h
  | .publishCompletedEvidence | .synchronizeCompletedEvidence => A.Mutated h ∧ h.Calm
  | .recoverActiveObject => ∃ p, path = some p ∧
      Turn (fun q => h.Done .recoverActiveObject (some q)) (A.undone h) p
  | _ => True

/-- A transition the engine may journal next. -/
structure Due (t : Transition) : Prop where
  inPhase : t.InPhase h
  intent : ∀ e, t.event = some e → e.kind = .intent → A.MayIntend h e.effect.kind e.effect.path
  visible : t.state = .effectsVisible → t.receipt = none → h.Calm

end Definitions

/-- A journal built of transitions that were due. -/
inductive Built (A : AdmittedApplication) : JournalHistory → Prop
  | initial : Built A (.initial A.declaration)
  | extend {h h' : JournalHistory} {t : Transition} : Built A h → A.Due h t → h.Permits t →
    h.Follows t h' → Built A h'

variable {A : AdmittedApplication} {h h' : JournalHistory} {t : Transition} {kind : EffectKind}
  {path : Option PackagePath}

theorem activePaths_nodup (A : AdmittedApplication) : A.activePaths.Nodup :=
  A.steps_nodup .publishActiveObject

theorem undone_nodup (A : AdmittedApplication) (h : JournalHistory) : (A.undone h).Nodup :=
  List.nodup_reverse.mpr (A.activePaths_nodup.filter _)

theorem mem_undone {p : PackagePath} : p ∈ A.undone h ↔
    p ∈ A.activePaths ∧ (h.slot .publishActiveObject (some p)).disturbed = true := by
  rw [undone, List.mem_reverse, List.mem_filter]

/-- What is undone depends on the active effects alone. -/
theorem undone_congr (hslots : ∀ path, h'.slot .publishActiveObject path =
    h.slot .publishActiveObject path) : A.undone h' = A.undone h := by
  unfold undone
  simp only [hslots]

theorem RejectedSettled.later (hs : A.RejectedSettled h) (hl : h.Later h') :
    A.RejectedSettled h' where
  published path hpath := hl.done (hs.published path hpath)
  synchronized hkey := by
    obtain ⟨terminal, hended⟩ := hs.synchronized hkey
    exact ⟨terminal, hl.endedWith hended⟩

theorem mem_activePaths (hkey : A.HasKey .publishActiveObject path) :
    ∃ p ∈ A.activePaths, path = some p := by
  cases path with
  | none => exact ((hasKey_domain _).mp hkey).elim
  | some p =>
    rcases hasKey_some hkey with ⟨kind, step, hstep, hkind, rfl⟩ | ⟨hkind, -⟩
    · cases kind with
      | publishActiveObject => exact ⟨_, List.mem_map_of_mem hstep, rfl⟩
      | captureOldObject | stageRegularPayload | publishRejectedObject | observeResult =>
        cases hkind
    · cases hkind

theorem mem_rejectedPaths (hkey : A.HasKey .publishRejectedObject path) :
    ∃ p ∈ A.rejectedPaths, path = some p := by
  cases path with
  | none => exact ((hasKey_domain _).mp hkey).elim
  | some p =>
    rcases hasKey_some hkey with ⟨kind, step, hstep, hkind, rfl⟩ | ⟨hkind, -⟩
    · cases kind with
      | publishRejectedObject => exact ⟨_, List.mem_map_of_mem hstep, rfl⟩
      | captureOldObject | stageRegularPayload | publishActiveObject | observeResult =>
        cases hkind
    · cases hkind

namespace Built

theorem appended (hb : A.Built h) : JournalHistory.Appended h := by
  cases hb with
  | initial => exact .initial _
  | extend _ _ _ hf => exact hf.appended

theorem declares (hb : A.Built h) : A.Declares h := by
  induction hb with
  | initial => rfl
  | extend _ _ _ hf ih => exact hf.declaration.trans ih

end Built

/-! ## What due transitions keep -/

/-- How far the effects of a journal have come. -/
structure Ordered (A : AdmittedApplication) (h : JournalHistory) : Prop where
  declared : ∀ kind path, h.Touched kind path → A.HasKey kind path
  settled : ∀ path, h.Touched .publishActiveObject path → A.RejectedSettled h
  active : InTurn (fun p => h.Touched .publishActiveObject (some p))
    (fun p => h.Done .publishActiveObject (some p)) A.activePaths
  forward : h.state = .preparing ∨ h.state = .prepared ∨ h.state = .mutating → h.Calm
  underway : h.Calm ∨ h.receipt.isSome ∨ h.state = .recoveryPending ∨ h.state = .recovering ∨
    h.state = .indeterminate
  undone : ∀ p, h.Touched .recoverActiveObject (some p) → p ∈ A.undone h
  recovery : InTurn (fun p => h.Touched .recoverActiveObject (some p))
    (fun p => h.Done .recoverActiveObject (some p)) (A.undone h)

/-- Active effects are executed before anything is recovered. -/
theorem Ordered.calm_of_mutating (ho : A.Ordered h) (hp : h.Permits t)
    (hstate : t.state = .mutating) : h.Calm := by
  refine ho.forward ?_
  have hedge := hp.edge
  rw [hstate] at hedge
  revert hedge
  cases h.state <;> simp [stateMayFollow]

theorem Ordered.initial (A : AdmittedApplication) : A.Ordered (.initial A.declaration) := by
  have huntouched : ∀ kind path, ¬(JournalHistory.initial A.declaration).Touched kind path :=
    fun _ _ => Bool.false_ne_true
  refine ⟨?_, ?_, ?_, ?_, .inl fun path => huntouched _ path, ?_, ?_⟩
  · exact fun kind path htouched => absurd htouched (huntouched kind path)
  · exact fun path htouched => absurd htouched (huntouched _ path)
  · exact .of_not_begun fun p _ => huntouched _ _
  · exact fun _ path => huntouched _ path
  · exact fun p htouched => absurd htouched (huntouched _ _)
  · exact .of_not_begun fun p _ => huntouched _ _

section Step

/-- Recovery is begun in the state recovering only. -/
private theorem touched_recovering (hdue : A.Due h t) (hf : h.Follows t h') (hcalm : h.Calm)
    (htouched : h'.Touched .recoverActiveObject path) : h'.state = .recovering := by
  rcases hf.touched_iff.mp htouched with hold | ⟨e, he, -, hkind, -⟩
  · exact absurd hold (hcalm path)
  · rw [hf.state_eq]
    exact hdue.inPhase.home e he .recovering (by rw [hkind]; rfl)

private theorem undone_step (hf : h.Follows t h') (hactive : ¬∃ e, t.event = some e ∧
    e.effect.kind = .publishActiveObject) : A.undone h' = A.undone h :=
  undone_congr fun _ => hf.slot_of_kind fun e he hkind => hactive ⟨e, he, hkind⟩

variable (ho : A.Ordered h) (hdue : A.Due h t) (hp : h.Permits t) (hf : h.Follows t h')
include ho hdue hp hf

private theorem settled_step (htouched : h'.Touched .publishActiveObject path) :
    A.RejectedSettled h' := by
  rcases hf.touched_iff.mp htouched with hold | ⟨e, he, hintent, hkind, -⟩
  · exact (ho.settled path hold).later (hf.later hp)
  · have hmay := hdue.intent e he hintent
    rw [hkind] at hmay
    exact hmay.2.1.later (hf.later hp)

private theorem active_step : InTurn (fun p => h'.Touched .publishActiveObject (some p))
    (fun p => h'.Done .publishActiveObject (some p)) A.activePaths := by
  have hdone : ∀ p ∈ A.activePaths, h.Done .publishActiveObject (some p) →
      h'.Done .publishActiveObject (some p) := fun _ _ hdone => hf.done hp hdone
  by_cases hnew : ∃ e, t.event = some e ∧ e.kind = .intent ∧ e.effect.kind = .publishActiveObject
  · obtain ⟨e, he, hintent, hkind⟩ := hnew
    have hmay := hdue.intent e he hintent
    rw [hkind] at hmay
    obtain ⟨-, -, x, hpath, hturn⟩ := hmay
    refine ho.active.start A.activePaths_nodup hturn (fun p _ htouched => ?_) hdone
    rcases hf.touched_iff.mp htouched with hold | ⟨e', he', -, -, hpath'⟩
    · exact .inl hold
    · cases he.symm.trans he'
      exact .inr (Option.some.inj (hpath'.symm.trans hpath))
  · refine ho.active.mono (fun p _ htouched => ?_) hdone
    rcases hf.touched_iff.mp htouched with hold | ⟨e, he, hintent, hkind, -⟩
    · exact hold
    · exact absurd ⟨e, he, hintent, hkind⟩ hnew

private theorem forward_step (hstate : h'.state = .preparing ∨ h'.state = .prepared ∨
    h'.state = .mutating) : h'.Calm := by
  have hcalm : h.Calm := by
    refine ho.forward ?_
    have hedge := hp.edge
    rw [← hf.state_eq] at hedge
    revert hedge
    rcases hstate with hstate | hstate | hstate <;> rw [hstate] <;>
      cases h.state <;> simp [stateMayFollow]
  intro path htouched
  have hrecovering := touched_recovering hdue hf hcalm htouched
  rcases hstate with hstate | hstate | hstate <;> rw [hstate] at hrecovering <;> cases hrecovering

private theorem underway_step : h'.Calm ∨ h'.receipt.isSome ∨ h'.state = .recoveryPending ∨
    h'.state = .recovering ∨ h'.state = .indeterminate := by
  by_cases hcalm : h.Calm
  · by_cases hcalm' : h'.Calm
    · exact .inl hcalm'
    · obtain ⟨path, htouched⟩ := not_forall_not.mp hcalm'
      exact .inr (.inr (.inr (.inl (touched_recovering hdue hf hcalm htouched))))
  rw [hf.receipt, hf.state_eq]
  by_cases hreceipt : t.receipt.isSome
  · exact .inr (.inl hreceipt)
  have hopen : ¬h.receipt.isSome := fun hsome => hreceipt (hp.receipt hsome ▸ hsome)
  have hnone : t.receipt = none := Option.not_isSome_iff_eq_none.mp hreceipt
  have hedge := hp.edge
  have hvisible : t.state ≠ .effectsVisible := fun hstate => hcalm (hdue.visible hstate hnone)
  have hrecovered : t.state ≠ .recovered := fun hstate => hreceipt (hp.recovered hstate)
  have habandoned := hdue.inPhase.abandoned hnone
  rcases (ho.underway.resolve_left hcalm).resolve_left hopen with hstate | hstate | hstate <;>
    rw [hstate] at hedge habandoned <;>
    cases hnext : t.state <;> simp_all [stateMayFollow]

/-- An active event finds nothing being recovered, and recovers nothing. -/
private theorem calm_of_active (hactive : ∃ e, t.event = some e ∧
    e.effect.kind = .publishActiveObject) : h'.Calm := by
  obtain ⟨e, he, hkind⟩ := hactive
  have hstate : t.state = .mutating := hdue.inPhase.home e he .mutating (by rw [hkind]; rfl)
  exact forward_step ho hdue hp hf (.inr (.inr (hf.state_eq.trans hstate)))

private theorem mem_undone_step {p : PackagePath}
    (htouched : h'.Touched .recoverActiveObject (some p)) : p ∈ A.undone h' := by
  by_cases hactive : ∃ e, t.event = some e ∧ e.effect.kind = .publishActiveObject
  · exact absurd htouched (calm_of_active ho hdue hp hf hactive _)
  rw [undone_step hf hactive]
  rcases hf.touched_iff.mp htouched with hold | ⟨e, he, hintent, hkind, hpath⟩
  · exact ho.undone p hold
  · have hmay := hdue.intent e he hintent
    rw [hkind] at hmay
    obtain ⟨x, hx, hturn⟩ := hmay
    rw [hpath] at hx
    cases hx
    exact hturn.mem

private theorem recovery_step : InTurn (fun p => h'.Touched .recoverActiveObject (some p))
    (fun p => h'.Done .recoverActiveObject (some p)) (A.undone h') := by
  by_cases hactive : ∃ e, t.event = some e ∧ e.effect.kind = .publishActiveObject
  · exact .of_not_begun fun p _ => calm_of_active ho hdue hp hf hactive _
  rw [undone_step hf hactive]
  have hdone : ∀ p ∈ A.undone h, h.Done .recoverActiveObject (some p) →
      h'.Done .recoverActiveObject (some p) := fun _ _ hdone => hf.done hp hdone
  by_cases hnew : ∃ e, t.event = some e ∧ e.kind = .intent ∧ e.effect.kind = .recoverActiveObject
  · obtain ⟨e, he, hintent, hkind⟩ := hnew
    have hmay := hdue.intent e he hintent
    rw [hkind] at hmay
    obtain ⟨x, hpath, hturn⟩ := hmay
    refine ho.recovery.start (A.undone_nodup h) hturn (fun p _ htouched => ?_) hdone
    rcases hf.touched_iff.mp htouched with hold | ⟨e', he', -, -, hpath'⟩
    · exact .inl hold
    · cases he.symm.trans he'
      exact .inr (Option.some.inj (hpath'.symm.trans hpath))
  · refine ho.recovery.mono (fun p _ htouched => ?_) hdone
    rcases hf.touched_iff.mp htouched with hold | ⟨e, he, hintent, hkind, -⟩
    · exact hold
    · exact absurd ⟨e, he, hintent, hkind⟩ hnew

/-- A due transition keeps the order. -/
theorem Ordered.step (hd : A.Declares h) : A.Ordered h' where
  declared kind path htouched := by
    rcases hf.touched_iff.mp htouched with hold | ⟨e, he, -, rfl, rfl⟩
    · exact ho.declared kind path hold
    · exact hasKey_of_mem hd (hp.declared e he)
  settled _ htouched := settled_step ho hdue hp hf htouched
  active := active_step ho hdue hp hf
  forward hstate := forward_step ho hdue hp hf hstate
  underway := underway_step ho hdue hp hf
  undone _ htouched := mem_undone_step ho hdue hp hf htouched
  recovery := recovery_step ho hdue hp hf

end Step

/-- A journal built of due transitions is ordered. -/
theorem Built.ordered (hb : A.Built h) : A.Ordered h := by
  induction hb with
  | initial => exact .initial A
  | extend hb hdue hp hf ih => exact ih.step hdue hp hf hb.declares

end AdmittedApplication

/-! ## The shape of a journal -/

/-- A step enters an event of one effect. -/
def JournalStep.Enters (step : JournalStep) (kind : EffectKind) (path : Option PackagePath)
    (event : EventKind) : Prop :=
  ∃ e, step.event = some e ∧ e.effect.kind = kind ∧ e.effect.path = path ∧ e.kind = event

/-- Some of the steps enters an event of one effect. -/
def Entered (steps : List JournalStep) (kind : EffectKind) (path : Option PackagePath)
    (event : EventKind) : Prop := ∃ step ∈ steps, step.Enters kind path event

section Entered

variable {h : JournalHistory} {kind : EffectKind} {path : Option PackagePath}

theorem entered_append {steps : List JournalStep} {step : JournalStep} {event : EventKind} :
    Entered (steps ++ [step]) kind path event ↔
      Entered steps kind path event ∨ step.Enters kind path event := by
  simp [Entered, or_and_right, exists_or]

/-- An effect is touched exactly when its intent has been entered. -/
theorem JournalHistory.Appended.touched_iff (hr : JournalHistory.Appended h) (hk : h.Keyed) :
    h.Touched kind path ↔ Entered h.steps kind path .intent := by
  induction hr with
  | initial d =>
    refine ⟨fun htouched => absurd htouched Bool.false_ne_true, ?_⟩
    rintro ⟨step, hstep, -⟩
    cases hstep
  | @append h h' step hr happend ih =>
    obtain ⟨-, rfl⟩ := JournalHistory.append_eq_ok_iff.mp happend
    rw [JournalHistory.after_steps, entered_append, ← ih hk]
    unfold JournalHistory.Touched JournalStep.Enters
    rw [JournalHistory.slot_after]
    unfold JournalHistory.noteSlot
    cases hevent : step.event with
    | none => simp
    | some e =>
      dsimp only
      split
      · rename_i hkey
        cases hkind : e.kind <;> simp [Slot.note, hkey, hkind]
      · rename_i hkey
        have hother : ¬(e.effect.kind = kind ∧ e.effect.path = path ∧ e.kind = .intent) :=
          fun hx => hkey ⟨hx.1, hx.2.1⟩
        simp [hother]

/-- How an effect ended has been entered. -/
theorem JournalHistory.Appended.endedWith_iff (hr : JournalHistory.Appended h) (hk : h.Keyed)
    {terminal : EventKind} (hterminal : terminal ≠ .intent) :
    h.EndedWith kind path terminal ↔ Entered h.steps kind path terminal := by
  unfold JournalHistory.EndedWith
  rw [Option.map_eq_some_iff]
  constructor
  · rintro ⟨ended, hended, rfl⟩
    obtain ⟨step, hstep, e, he, -, hkind, hpath, rfl⟩ := (hr.slot_ended_iff hk).mp hended
    exact ⟨step, hstep, e, he, hkind, hpath, rfl⟩
  · rintro ⟨step, hstep, e, he, hkind, hpath, rfl⟩
    exact ⟨_, (hr.slot_ended_iff hk).mpr ⟨step, hstep, e, he, hterminal, hkind, hpath, rfl⟩, rfl⟩

end Entered

namespace AdmittedApplication

/-- The shape of the journals of one attempt. -/
structure Shaped (A : AdmittedApplication) (h : JournalHistory) : Prop where
  /-- Preparation is completed before anything is published. -/
  prepared : ∀ pre step post, h.steps = pre ++ step :: post → ∀ kind path,
    kind = .publishRejectedObject ∨ kind = .publishActiveObject → step.Enters kind path .intent →
      ∀ kind' path', kind'.preparatory = true → A.HasKey kind' path' →
        Entered pre kind' path' .completed
  /-- Rejected publication is completed before the active namespace is touched. -/
  rejected : ∀ pre step post, h.steps = pre ++ step :: post → ∀ path,
    step.Enters .publishActiveObject path .intent →
      ∀ p ∈ A.rejectedPaths, Entered pre .publishRejectedObject (some p) .completed
  /-- Active effects are taken in the order of the schedule. -/
  active : ∃ n ≤ A.activePaths.length,
    (∀ p, Entered h.steps .publishActiveObject (some p) .intent ↔ p ∈ A.activePaths.take n) ∧
      ∀ p ∈ A.activePaths.take (n - 1), Entered h.steps .publishActiveObject (some p) .completed
  /-- Nothing goes forward past an active effect that is not completed, or
  past a recovery. -/
  forward : ∀ pre step post, h.steps = pre ++ step :: post → ∀ kind path, kind.forward = true →
    step.Enters kind path .intent → ∀ p,
      (Entered pre .publishActiveObject (some p) .intent →
        Entered pre .publishActiveObject (some p) .completed) ∧
      ¬Entered pre .publishActiveObject (some p) .failed ∧
      ¬Entered pre .publishActiveObject (some p) .indeterminate ∧
      ¬Entered pre .recoverActiveObject (some p) .intent
  /-- Recovery takes what is to be undone, most recent first. -/
  recovery : ∃ n ≤ (A.undone h).length,
    (∀ p, Entered h.steps .recoverActiveObject (some p) .intent ↔ p ∈ (A.undone h).take n) ∧
      ∀ p ∈ (A.undone h).take (n - 1), Entered h.steps .recoverActiveObject (some p) .completed

variable {A : AdmittedApplication} {h : JournalHistory}

/-- Every step was due where it was journaled. -/
theorem Built.split (hb : A.Built h) {pre post : List JournalStep} {step : JournalStep}
    (hsteps : h.steps = pre ++ step :: post) : ∃ h₀ t, A.Built h₀ ∧ A.Due h₀ t ∧ h₀.Permits t ∧
      h₀.steps = pre ∧ ∀ kind path event, step.Enters kind path event →
        ∃ e, t.event = some e ∧ e.effect.kind = kind ∧ e.effect.path = path ∧ e.kind = event := by
  induction hb generalizing post with
  | initial =>
    rw [show (JournalHistory.initial A.declaration).steps = [] from rfl] at hsteps
    simp at hsteps
  | @extend h h' t hb hdue hp hf ih =>
    obtain ⟨last, hlast, hrecord⟩ := hf.steps
    rw [hlast] at hsteps
    rcases List.eq_nil_or_concat post with rfl | ⟨post', x, rfl⟩
    · obtain ⟨rfl, hstep⟩ := List.append_inj' hsteps rfl
      cases hstep
      refine ⟨h, t, hb, hdue, hp, rfl, ?_⟩
      rintro kind path event ⟨e, he, rfl, rfl, rfl⟩
      have hevent : step.event = t.event.map h.nextEvent := congrArg StepRecord.event hrecord
      rw [hevent] at he
      obtain ⟨x, hx, rfl⟩ := Option.map_eq_some_iff.mp he
      exact ⟨x, hx, rfl, rfl, rfl⟩
    · have hsplit : h.steps ++ [last] = (pre ++ step :: post') ++ [x] := by simpa using hsteps
      obtain ⟨hfirst, -⟩ := List.append_inj' hsplit rfl
      exact ih hfirst

/-- Where something is intended to go forward, every touched active effect is
completed and nothing is being recovered. -/
theorem Built.forward_due {t : Transition} (hb : A.Built h) (hdue : A.Due h t) (hp : h.Permits t)
    {e : TransitionEvent} (he : t.event = some e) (hintent : e.kind = .intent)
    (hforward : e.effect.kind.forward = true) :
    (∀ p, h.Touched .publishActiveObject (some p) → h.Done .publishActiveObject (some p)) ∧
      h.Calm := by
  have ho := hb.ordered
  have hmay := hdue.intent e he hintent
  have hfresh := hp.fresh e he hintent
  have hkey := hasKey_of_mem hb.declares (hp.declared e he)
  have hcalm : e.effect.kind.home = some .mutating → h.Calm := fun hhome =>
    ho.calm_of_mutating hp (hdue.inPhase.home e he _ hhome)
  have hended : ∀ terminal, ¬h.EndedWith e.effect.kind e.effect.path terminal := by
    intro terminal hended
    rw [JournalHistory.EndedWith, hfresh] at hended
    cases hended
  have hall : A.Mutated h → ∀ p, h.Touched .publishActiveObject (some p) →
      h.Done .publishActiveObject (some p) := by
    intro hmutated p htouched
    obtain ⟨q, hq, hpq⟩ := mem_activePaths (ho.declared _ _ htouched)
    cases hpq
    exact hmutated p hq
  cases hkind : e.effect.kind <;> rw [hkind] at hmay hkey hforward hcalm hended hfresh
  case publishRejectedObject =>
    refine ⟨fun p htouched => ?_, hcalm rfl⟩
    obtain ⟨q, hq, hpath⟩ := mem_rejectedPaths hkey
    exact absurd (hpath ▸ (ho.settled _ htouched).published q hq) (hended _)
  case synchronizeRejectedStore =>
    refine ⟨fun p htouched => ?_, hcalm rfl⟩
    have hpath : e.effect.path = none := by
      have := e.effect.path_iff
      rw [hkind] at this
      simpa [requiresPath] using this
    rw [hpath] at hkey hended
    obtain ⟨terminal, hsynchronized⟩ := (ho.settled _ htouched).synchronized hkey
    exact absurd hsynchronized (hended terminal)
  case publishActiveObject =>
    refine ⟨fun p htouched => ?_, hcalm rfl⟩
    obtain ⟨-, -, x, hpath, pre, post, hsplit, hpre⟩ := hmay
    rw [hpath] at hended hfresh
    obtain ⟨q, hq, hpq⟩ := mem_activePaths (ho.declared _ _ htouched)
    cases hpq
    rw [hsplit, List.mem_append, List.mem_cons] at hq
    rcases hq with hq | rfl | hq
    · exact hpre p hq
    · rw [JournalHistory.Touched, hfresh] at htouched
      cases htouched
    · have hactive := ho.active
      rw [hsplit] at hactive
      exact absurd htouched (hactive.not_begun (hended _) hq)
  case synchronizeActiveNamespace => exact ⟨hall hmay, hcalm rfl⟩
  case publishCompletedEvidence | synchronizeCompletedEvidence => exact ⟨hall hmay.1, hmay.2⟩
  all_goals cases hforward

section Shape

variable {kind : EffectKind} {path : Option PackagePath} {pre post : List JournalStep}
  {step : JournalStep} (hb : A.Built h)
include hb

theorem Built.touched_iff : h.Touched kind path ↔ Entered h.steps kind path .intent :=
  hb.appended.touched_iff hb.declares.keyed

theorem Built.done_iff : h.Done kind path ↔ Entered h.steps kind path .completed :=
  hb.appended.endedWith_iff hb.declares.keyed EventKind.noConfusion

theorem Built.touched_of_endedWith {terminal : EventKind} (hended : h.EndedWith kind path terminal) :
    h.Touched kind path := by
  obtain ⟨ended, hsome, -⟩ := Option.map_eq_some_iff.mp hended
  obtain ⟨step, hstep, e, he, -, rfl, rfl, -⟩ :=
    (hb.appended.slot_ended_iff hb.declares.keyed).mp hsome
  refine hb.appended.touched_of_ended hb.declares.keyed (hb.appended.declared step hstep e he) ?_
  rw [hsome]
  rfl

private theorem shaped_prepared (hsteps : h.steps = pre ++ step :: post)
    (hkind : kind = .publishRejectedObject ∨ kind = .publishActiveObject)
    (henters : step.Enters kind path .intent) {kind' : EffectKind} {path' : Option PackagePath}
    (hpreparatory : kind'.preparatory = true) (hkey : A.HasKey kind' path') :
    Entered pre kind' path' .completed := by
  obtain ⟨h₀, t, hb₀, hdue, hp, rfl, hevent⟩ := hb.split hsteps
  obtain ⟨e, he, rfl, rfl, hintent⟩ := hevent _ _ _ henters
  have hmay := hdue.intent e he hintent
  have hready : A.Ready h₀ := by
    rcases hkind with hkind | hkind <;> rw [hkind] at hmay
    · exact hmay
    · exact hmay.1
  exact hb₀.done_iff.mp (hready kind' path' hpreparatory hkey)

private theorem shaped_rejected (hsteps : h.steps = pre ++ step :: post)
    (henters : step.Enters .publishActiveObject path .intent) {p : PackagePath}
    (hmem : p ∈ A.rejectedPaths) : Entered pre .publishRejectedObject (some p) .completed := by
  obtain ⟨h₀, t, hb₀, hdue, hp, rfl, hevent⟩ := hb.split hsteps
  obtain ⟨e, he, hkind, -, hintent⟩ := hevent _ _ _ henters
  have hmay := hdue.intent e he hintent
  rw [hkind] at hmay
  exact hb₀.done_iff.mp (hmay.2.1.published p hmem)

private theorem shaped_active : ∃ n ≤ A.activePaths.length,
    (∀ p, Entered h.steps .publishActiveObject (some p) .intent ↔ p ∈ A.activePaths.take n) ∧
      ∀ p ∈ A.activePaths.take (n - 1),
        Entered h.steps .publishActiveObject (some p) .completed := by
  have ho := hb.ordered
  obtain ⟨n, hn, htake, hfinished⟩ := ho.active.exists_take fun _ _ => hb.touched_of_endedWith
  refine ⟨n, hn, fun p => ?_, fun p hmem => hb.done_iff.mp (hfinished p hmem)⟩
  rw [← hb.touched_iff]
  constructor
  · intro hp
    obtain ⟨q, hq, hpq⟩ := mem_activePaths (ho.declared _ _ hp)
    cases hpq
    exact (htake p hq).mp hp
  · exact fun hmem => (htake p (List.mem_of_mem_take hmem)).mpr hmem

private theorem shaped_forward (hsteps : h.steps = pre ++ step :: post)
    (hforward : kind.forward = true) (henters : step.Enters kind path .intent) (p : PackagePath) :
    (Entered pre .publishActiveObject (some p) .intent →
      Entered pre .publishActiveObject (some p) .completed) ∧
      ¬Entered pre .publishActiveObject (some p) .failed ∧
      ¬Entered pre .publishActiveObject (some p) .indeterminate ∧
      ¬Entered pre .recoverActiveObject (some p) .intent := by
  obtain ⟨h₀, t, hb₀, hdue, hp, rfl, hevent⟩ := hb.split hsteps
  obtain ⟨e, he, rfl, rfl, hintent⟩ := hevent _ _ _ henters
  obtain ⟨hactive, hcalm⟩ := hb₀.forward_due hdue hp he hintent hforward
  have hnot : ∀ terminal, terminal ≠ .intent → terminal ≠ .completed →
      ¬Entered h₀.steps .publishActiveObject (some p) terminal := by
    intro terminal hterminal hincomplete hentered
    have hended := (hb₀.appended.endedWith_iff hb₀.declares.keyed hterminal).mpr hentered
    have hdone := hactive p (hb₀.touched_of_endedWith hended)
    exact hincomplete (Option.some.inj (hended.symm.trans hdone))
  refine ⟨fun htouched => ?_, ?_, ?_, ?_⟩
  · exact hb₀.done_iff.mp (hactive p (hb₀.touched_iff.mpr htouched))
  · exact hnot .failed EventKind.noConfusion EventKind.noConfusion
  · exact hnot .indeterminate EventKind.noConfusion EventKind.noConfusion
  · exact fun htouched => hcalm _ (hb₀.touched_iff.mpr htouched)

private theorem shaped_recovery : ∃ n ≤ (A.undone h).length,
    (∀ p, Entered h.steps .recoverActiveObject (some p) .intent ↔ p ∈ (A.undone h).take n) ∧
      ∀ p ∈ (A.undone h).take (n - 1),
        Entered h.steps .recoverActiveObject (some p) .completed := by
  have ho := hb.ordered
  obtain ⟨n, hn, htake, hfinished⟩ := ho.recovery.exists_take fun _ _ => hb.touched_of_endedWith
  refine ⟨n, hn, fun p => ?_, fun p hmem => hb.done_iff.mp (hfinished p hmem)⟩
  rw [← hb.touched_iff]
  constructor
  · exact fun hp => (htake p (ho.undone p hp)).mp hp
  · exact fun hmem => (htake p (List.mem_of_mem_take hmem)).mpr hmem

/-- A journal built of due transitions has the shape of its attempt. -/
theorem Built.shaped : A.Shaped h where
  prepared _ _ _ hsteps _ _ hkind henters _ _ hpreparatory hkey :=
    shaped_prepared hb hsteps hkind henters hpreparatory hkey
  rejected _ _ _ hsteps _ henters _ hmem := shaped_rejected hb hsteps henters hmem
  active := shaped_active hb
  forward _ _ _ hsteps _ _ hforward henters p := shaped_forward hb hsteps hforward henters p
  recovery := shaped_recovery hb

end Shape

end AdmittedApplication

end PkgApply
