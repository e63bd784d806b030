import PkgApply.Engine.Rules
import PkgApply.Journal.Terminality
import PkgApply.Restart.Phases

/-!
# Resumability

Which receipt-free journals of a run a restart may resume.  The engine passes
through the state indeterminate on its way to recovery; a journal cut there is
refused by every restart, and every other receipt-free journal of a run is
resumable.
-/

namespace PkgApply

open Library

namespace AdmittedApplication

variable {A : AdmittedApplication} {R : Mechanisms → Prop} {s : EngineState}

/-- What transitions in phase preserve, holds of the journal of every leftover
of a run. -/
theorem Left.phased {I : JournalHistory → Prop} (hstart : I (.initial A.declaration))
    (hstep : ∀ h h' t, JournalHistory.Appended h → A.Declares h → I h → t.InPhase h →
      h.Permits t → h.Follows t h' → I h') (hs : A.Left R s) :
    JournalHistory.Appended s.history ∧ A.Declares s.history ∧ I s.history := by
  let J : EngineState → Prop := fun s =>
    JournalHistory.Appended s.history ∧ A.Declares s.history ∧ I s.history
  have hprocess : ∀ (p : Engine ApplicationReceipt) (m : Mechanisms) (s : EngineState),
      p.Orderly phases → J s →
      p.Ensures (engineMachine m) s (fun _ s' => J s') (fun _ s' => J s') J := by
    intro p m s hp hs
    refine (Process.Obeys.ensures (I := fun _ s => J s) ?_ hs trivial
      (hp none _ trivial)).mono (fun _ _ ⟨_, h⟩ => h) (fun _ _ ⟨_, h⟩ => h) (fun _ ⟨_, h⟩ => h)
    rintro last s op r s' ⟨happended, hdeclares, hI⟩ - hphase hop
    refine ⟨?_, trivial⟩
    cases op with
    | mechanism request =>
      cases hop
      exact ⟨happended, hdeclares, hI⟩
    | journal t =>
      simp only [engineMachine] at hop
      split at hop
      · rename_i h' htransition
        cases hop
        obtain ⟨hpermits, hfollows⟩ :=
          JournalHistory.permits_of_transition happended hdeclares.keyed htransition
        exact ⟨hfollows.appended, hfollows.declaration.trans hdeclares,
          hstep _ _ t happended hdeclares hI hphase hpermits hfollows⟩
      · cases hop
  refine Left.induct (I := J) ⟨.initial _, rfl, hstart⟩ (fun m _ => ?_) (fun m session s _ h => ?_)
    hs
  · exact hprocess _ m _ phased_runApplication ⟨.initial _, rfl, hstart⟩
  · exact hprocess _ m s (phased_runRestart session) h

/-- No run abandons its journal without a receipt. -/
theorem Left.not_abandoned (hs : A.Left R s) (hreceipt : s.history.receipt = none) :
    s.history.state ≠ .abandoned := by
  refine (Left.phased (I := fun h => h.receipt = none → h.state ≠ .abandoned) (fun _ => nofun)
    ?_ hs).2.2 hreceipt
  intro h h' t happended _ hI hphase hpermits hfollows hnone habandoned
  have hkept : h.receipt = none := by
    by_contra hsome
    rw [← Ne, Option.ne_none_iff_isSome] at hsome
    rw [hfollows.receipt, hpermits.receipt hsome] at hnone
    rw [hnone] at hsome
    cases hsome
  have hstate : t.state = .abandoned := by
    rw [← habandoned]
    exact (congrArg Ledger.state hfollows.ledger).symm
  exact hI hkept (hphase.abandoned (hfollows.receipt ▸ hnone) hstate)

/-- The receipt-free journals of a run are in one of eight states. -/
theorem Left.ongoing (hs : A.Left R s) (hreceipt : s.history.receipt = none) :
    PkgApply.ongoing s.history.state = true ∧ s.history.state ≠ .abandoned := by
  have hsound := hs.logged.appended.sound
  refine ⟨?_, hs.not_abandoned hreceipt⟩
  unfold PkgApply.ongoing
  rw [Bool.and_eq_true, Bool.not_eq_true', bne_iff_ne]
  constructor
  · by_contra hsuccessful
    have := (hsound.successful (by simpa using hsuccessful)).1
    rw [hreceipt] at this
    cases this
  · intro hrecovered
    have := hsound.recovered hrecovered
    rw [hreceipt] at this
    cases this

end AdmittedApplication

/-- A receipt-free record is resumable in every state the engine may go on
from, but for indeterminate. -/
theorem assessRestart_resumable_iff {r : JournalRecord} (hreceipt : r.receipt = none)
    (hongoing : ongoing r.state = true) (habandoned : r.state ≠ .abandoned) :
    (assessRestart r).resumable = true ↔ r.state ≠ .indeterminate := by
  unfold assessRestart
  rw [hreceipt]
  cases hstate : r.state with
  | mutating =>
    simp only [Option.isSome_none, Bool.false_eq_true, if_false]
    split <;> simp [RestartDisposition.resumable]
  | preparing | prepared | effectsVisible | resultObserved | recoveryPending | recovering
  | indeterminate => simp [RestartDisposition.resumable]
  | abandoned => exact absurd hstate habandoned
  | applicationCompleted | externalResolutionPending | recovered | finalized =>
    rw [hstate] at hongoing
    cases hongoing

/-- A journal with a receipt is not resumable. -/
theorem assessRestart_of_receipt {record : JournalRecord} {receipt : ApplicationReceipt}
    (hr : record.receipt = some receipt) : (assessRestart record).resumable = false := by
  unfold assessRestart
  rw [hr, Option.isSome_some, if_pos rfl]
  split <;> rfl

/-- A journal that is not resumable is not reopened. -/
theorem reopenApplication_refused (request : ApplicationRequest) (session : RestartSession)
    {h : JournalHistory} {r : JournalRecord} (hsnapshot : h.snapshot = .ok r)
    (hrefused : (assessRestart r).resumable = false) : reopenApplication request session h =
      .error (.invalidArgument "application journal is not automatically resumable") := by
  unfold reopenApplication validateJournalBindings refuseIf
  simp only [hsnapshot, hrefused, bind, Except.bind, Bool.not_false, if_true]

/-- A restart refuses a journal that is not resumable, and leaves it alone. -/
theorem runRestart_refuses {request : ApplicationRequest} {session : RestartSession}
    {m : Mechanisms} {s : EngineState} {r : JournalRecord} (hsnapshot : s.history.snapshot = .ok r)
    (hrefused : (assessRestart r).resumable = false) :
    (runRestart request session).Ensures (engineMachine m) s (fun _ _ => False)
      (fun _ s' => s' = s) (fun _ => False) := by
  unfold runRestart
  exact ensures_history (ensures_error (reopenApplication_refused _ _ hsnapshot hrefused) rfl)

/-- A receipt-free journal of a run is resumable exactly in the states other
than indeterminate, and in that one every restart refuses it. -/
theorem AdmittedApplication.Left.resumable_iff {A : AdmittedApplication} {R : Mechanisms → Prop}
    {s : EngineState} (hs : A.Left R s) (hreceipt : s.history.receipt = none) :
    ∃ r, s.history.snapshot = .ok r ∧
      ((assessRestart r).resumable = true ↔ s.history.state ≠ .indeterminate) ∧
      (s.history.state = .indeterminate → ∀ request session m,
        (runRestart request session).Ensures (engineMachine m) s (fun _ _ => False)
          (fun _ s' => s' = s) (fun _ => False)) := by
  have hsnapshot := hs.logged.appended.sound.snapshot_eq
  obtain ⟨hongoing, habandoned⟩ := hs.ongoing hreceipt
  have hiff := assessRestart_resumable_iff (r := s.history.record) hreceipt hongoing habandoned
  refine ⟨_, hsnapshot, hiff, fun hstate request session m => ?_⟩
  exact runRestart_refuses hsnapshot (Bool.eq_false_iff.mpr fun h => hiff.mp h hstate)

/-! ## A stranded removal -/

section Stranded

/-- A backend that cannot tell whether the directory is removed, and restores it. -/
private def uncertain : Mechanisms :=
  AdmittedApplication.removalMechanisms .indeterminate .completed .confirmed

private def strandedAttempt : AdmittedApplication := .removal .exactPriorState .allApplicationDomains

private def removalCuts : List EngineState :=
  strandedAttempt.apply.cuts (engineMachine uncertain) strandedAttempt.start

private theorem removalCuts_isSome : removalCuts[23]?.isSome = true := by decide +kernel

/-- The removal, cut after its interruption is journaled and before recovery. -/
def stranded : EngineState := removalCuts[23]?.get removalCuts_isSome

theorem stranded_mem_cuts :
    stranded ∈ strandedAttempt.apply.cuts (engineMachine uncertain) strandedAttempt.start :=
  List.mem_of_getElem? (Option.some_get removalCuts_isSome).symm

/-- An attempt that restores the directory by itself when it is not stopped is
not resumable where it is journaled as indeterminate. -/
theorem not_resumable : ¬∀ (A : AdmittedApplication) (m : Mechanisms) (s : EngineState)
    (receipt : ApplicationReceipt) (s' : EngineState),
    s ∈ A.apply.cuts (engineMachine m) A.start → s.history.receipt = none →
      A.apply.eval (engineMachine m) A.start = (.ok receipt, s') →
        ∃ r, s.history.snapshot = .ok r ∧ (assessRestart r).resumable = true := by
  intro hall
  have hsealed : (strandedAttempt.apply.eval (engineMachine uncertain)
      strandedAttempt.start).1.toBool = true := by
    decide +kernel
  cases hrun : strandedAttempt.apply.eval (engineMachine uncertain) strandedAttempt.start with
  | mk result s' =>
    rw [hrun] at hsealed
    cases result with
    | error e => cases hsealed
    | ok receipt =>
      obtain ⟨r, hsnapshot, hresumable⟩ := hall _ _ _ _ _ stranded_mem_cuts (by decide +kernel) hrun
      have hrefused : (stranded.history.snapshot.toOption.any fun r =>
        (assessRestart r).resumable) = false := by decide +kernel
      rw [hsnapshot] at hrefused
      exact absurd hresumable (by simpa [Except.toOption] using hrefused)

theorem resumable_iff_stranded : ∃ r, stranded.history.snapshot = .ok r ∧
    ((assessRestart r).resumable = true ↔ stranded.history.state ≠ .indeterminate) ∧
    (stranded.history.state = .indeterminate → ∀ request session m,
      (runRestart request session).Ensures (engineMachine m) stranded (fun _ _ => False)
        (fun _ s' => s' = stranded) (fun _ => False)) :=
  AdmittedApplication.Left.resumable_iff
    (.applied (R := fun _ => True) trivial (.inl stranded_mem_cuts)) (by decide +kernel)

end Stranded

end PkgApply
