import PkgApply.Restart.Replay
import PkgApply.Engine.Rules

/-!
# Sealed answers

A process of the engine answers with a receipt only when its journal retains
that receipt.  Receipts are sealed in many places, by an event of the seal or
by a change of state alone, in an application and in its restarts; every one
of them journals the receipt before it is returned.
-/

namespace PkgApply

open Library Engine

/-- The journal retains the receipt a process answers with, if it answers with
one. -/
def Seals {α : Type} (answer : α → Option ApplicationReceipt) (p : Engine α) : Prop :=
  ∀ (m : Mechanisms) (s : EngineState), p.Ensures (engineMachine m) s
    (fun a s' => ∀ r, answer a = some r → s'.history.receipt = some r) (fun _ _ => True)
    fun _ => True

/-! ## Rules -/

section Rules

variable {α β : Type} {answer : α → Option ApplicationReceipt}
  {answer' : β → Option ApplicationReceipt} {r : ApplicationReceipt}

theorem seals_pure {a : α} (h : answer a = none) : Seals answer (pure a) := by
  intro m s
  refine Process.ensures_pure.mpr fun r hr => ?_
  rw [h] at hr
  cases hr

/-- What comes before the part that answers does not matter. -/
theorem Seals.after {p : Engine β} {f : β → Engine α} (hf : ∀ b, Seals answer (f b)) :
    Seals answer (p >>= f) :=
  fun m _ => (Process.ensures_trivial p).bind fun b s' _ => hf b m s'

/-- An answer is handed on, or another one found. -/
theorem Seals.bind {p : Engine α} {f : α → Engine β} (hp : Seals answer p)
    (hf : ∀ a, (∃ r b, answer a = some r ∧ f a = pure b ∧ answer' b = some r) ∨
      Seals answer' (f a)) : Seals answer' (p >>= f) := by
  intro m s
  refine (hp m s).bind fun a s' ha => ?_
  rcases hf a with ⟨r, b, hr, hpure, hb⟩ | hseals
  · rw [hpure]
    refine Process.ensures_pure.mpr fun r' hr' => ?_
    rw [hb] at hr'
    cases hr'
    exact ha r hr
  · exact hseals m s'

/-- A receipt that has been sealed is answered. -/
theorem Seals.answered {p : Engine β} {a : α} (hp : Seals (fun _ => some r) p)
    (ha : answer a = some r) : Seals answer (p >>= fun _ => pure a) :=
  hp.bind fun _ => .inl ⟨r, a, rfl, rfl, ha⟩

/-- The receipt of a part is the answer of the whole. -/
theorem Seals.inl {p : Engine ApplicationReceipt} (hp : Seals some p) :
    Seals Sum.getLeft? (p >>= fun r => pure (.inl r : ApplicationReceipt ⊕ α)) :=
  hp.bind fun r => .inl ⟨r, .inl r, rfl, rfl, rfl⟩

/-- A journaled transition leaves its own receipt. -/
theorem receipt_of_transition {h h' : JournalHistory} {t : Transition}
    (ht : h.transition t = .ok h') : h'.receipt = t.receipt := by
  unfold JournalHistory.transition at ht
  obtain ⟨step, hstep, happend⟩ := bind_eq_ok_iff.mp ht
  obtain ⟨-, rfl⟩ := JournalHistory.append_eq_ok_iff.mp happend
  exact congrArg StepRecord.receipt (JournalHistory.nextStep_eq_ok hstep).1

theorem seals_journal {t : Transition} (ht : t.receipt = some r) :
    Seals (fun _ => some r) (Engine.journal t) := by
  intro m s
  cases hop : s.history.transition t with
  | error e =>
    have hcall : (engineMachine m).perform (.journal t) s = .error e := by
      simp only [engineMachine, hop]
    exact (Process.ensures_call_error hcall).mpr ⟨trivial, trivial⟩
  | ok h =>
    have hcall : (engineMachine m).perform (.journal t) s =
        .ok ((), ⟨h, s.log ++ [⟨.journal t, ()⟩]⟩) := by
      simp only [engineMachine, hop]
    refine (Process.ensures_call_ok hcall).mpr ⟨trivial, trivial, ?_⟩
    refine Process.ensures_pure.mpr fun r' hr' => ?_
    cases hr'
    exact (receipt_of_transition hop).trans ht

/-- The journal gives up no receipt. -/
theorem receipt_of_perform {m : Mechanisms} {op : EngineOp} {s s' : EngineState}
    {response : engineSignature.Response op} (hr : s.history.receipt = some r)
    (hop : (engineMachine m).perform op s = .ok (response, s')) : s'.history.receipt = some r := by
  cases op with
  | mechanism request =>
    cases hop
    exact hr
  | journal t =>
    simp only [engineMachine] at hop
    split at hop
    · rename_i h' ht
      cases hop
      unfold JournalHistory.transition at ht
      obtain ⟨step, -, happend⟩ := bind_eq_ok_iff.mp ht
      obtain ⟨hadmits, rfl⟩ := JournalHistory.append_eq_ok_iff.mp happend
      exact (hadmits.receipt (Option.isSome_of_eq_some hr)).trans hr
    · cases hop

end Rules

/-! ## The seal -/

section Seal

variable {state : JournalState} {receipt : ApplicationReceipt} {completed : Option CompletedEvidence}

theorem seals_sealTerminalReceipt :
    Seals (fun _ => some receipt) (sealTerminalReceipt state receipt completed) :=
  .after fun _ => .after fun _ => .after fun _ => seals_journal rfl

/-- A restart seals a receipt unless it finds this very receipt sealed. -/
theorem seals_restartSealTerminalReceipt :
    Seals (fun _ => some receipt) (restartSealTerminalReceipt state receipt completed) := by
  intro m s
  refine ensures_history ?_
  cases findEffect s.history.effects .sealReceipt none with
  | error e => exact ensures_error rfl trivial
  | ok effect =>
    refine ensures_ok rfl ?_
    refine ensures_check (fun _ => trivial) fun _ => ?_
    refine ensures_check (fun _ => trivial) fun hsame => ?_
    refine ensures_check (fun _ => trivial) fun _ => ?_
    refine ensures_check (fun _ => trivial) fun _ => ?_
    by_cases hterminal : (restartProgress s.history effect).terminal.isNone = true
    · refine (Process.ensures_trivial _).bind fun _ s' _ => ?_
      rw [if_pos hterminal]
      exact seals_journal rfl m s'
    · cases hr : s.history.receipt with
      | none =>
        refine (Process.ensures_trivial _).bind fun _ s' _ => ?_
        rw [if_neg hterminal]
        exact ensures_error (if_pos rfl) trivial
      | some r =>
        -- the receipt found is the one to seal, and the intent does not change it
        have hreceipt : s.history.receipt = some receipt := by
          rw [hr] at hsame ⊢
          simpa using hsame
        refine Process.Ensures.bind ((Process.ensures_invariant
          (fun op s s' response hs hop => receipt_of_perform hs hop)
            (restartPublishIntent s.history.state effect) hreceipt).mono (fun _ _ hx => hx)
              (fun _ _ _ => trivial) fun _ _ => trivial) fun _ s' hs' => ?_
        rw [if_neg hterminal]
        refine ensures_check (fun _ => trivial) fun _ => ?_
        split
        · refine Process.ensures_pure.mpr fun r' hr' => ?_
          cases hr'
          exact hs'
        · exact seals_journal rfl m s'

end Seal

/-! ## Failures -/

section Failures

variable {app : JournaledApplication} {prepared : PreparedApplication}
  {active : ActiveMutatedApplication} {interrupted : ActiveInterruptedApplication}
  {view : RestartView} {request : ApplicationRequest} {state : LeaseBoundStateProjection}
  {evidence : Evidence} {rejected : List RejectedEffectResult} {paths : List PathConsequence}

theorem seals_failPreparation {incoming recovery : DurabilityStatus} :
    Seals some (failPreparation app request state incoming recovery evidence) :=
  .after fun _ => .after fun _ => (seals_journal rfl).answered rfl

theorem seals_failRejectedPublication {outcome : AttemptOutcome} {recovery : RecoveryState}
    {status : DurabilityStatus} :
    Seals some (failRejectedPublication prepared request state rejected outcome recovery status
      evidence) :=
  .after fun _ => .after fun _ => .after fun _ => (seals_journal rfl).answered rfl

theorem seals_failRejectedEffect {outcome : BackendOperationOutcome} {status : DurabilityStatus} :
    Seals some (failRejectedEffect prepared request state rejected outcome status evidence) := by
  unfold failRejectedEffect
  split <;> exact seals_failRejectedPublication

theorem seals_failRejectedSynchronization {status : DurabilityStatus} :
    Seals some (failRejectedSynchronization prepared request state rejected status evidence) := by
  unfold failRejectedSynchronization
  split <;> exact seals_failRejectedPublication

theorem seals_sealRecoveryReceipt {verdict : RecoveryVerdict} {durability : DurabilityProfile}
    {recoveries : List RecoveryEffectResult} :
    Seals some (sealRecoveryReceipt interrupted request state verdict durability recoveries
      evidence) :=
  .after fun _ => .after fun _ => .after fun _ => .after fun _ => (seals_journal rfl).answered rfl

theorem seals_sealCompletionFailure {uncertain : Bool} :
    Seals some (sealCompletionFailure active request state uncertain paths evidence) :=
  .after fun _ => .after fun _ => seals_sealTerminalReceipt.answered rfl

theorem seals_restartCompletionFailure {uncertain : Bool} :
    Seals some (restartCompletionFailure active request state uncertain paths evidence) :=
  .after fun _ => .after fun _ => seals_restartSealTerminalReceipt.answered rfl

end Failures

/-! ## Phases -/

section Phases

variable {app : JournaledApplication} {prepared : PreparedApplication}
  {rejected : RejectedPublishedApplication} {active : ActiveMutatedApplication}
  {interrupted : ActiveInterruptedApplication} {view : RestartView} {request : ApplicationRequest}
  {state : LeaseBoundStateProjection} {evidence : Evidence} {paths : List PathConsequence}
  {effects : List RejectedEffectResult}

theorem seals_prepareApplication :
    Seals Sum.getLeft? (prepareApplication app request state) := by
  refine .after fun _ => .after fun _ => .after fun captures => ?_
  split
  · exact seals_failPreparation.inl
  refine .after fun _ => ?_
  dsimp only
  split
  · exact seals_failPreparation.inl
  refine .after fun _ => ?_
  split
  · exact seals_failPreparation.inl
  refine .after fun _ => ?_
  split
  · exact seals_failPreparation.inl
  · exact .after fun _ => seals_pure rfl

theorem seals_executeRejected (steps : List EffectStep) :
    Seals Sum.getLeft? (executeRejected prepared request state steps effects) := by
  induction steps generalizing effects with
  | nil => exact seals_pure rfl
  | cons step rest ih =>
    refine .after fun _ => ?_
    dsimp only
    split
    · exact ih
    · exact seals_failRejectedEffect.inl

theorem seals_publishRejected :
    Seals Sum.getLeft? (publishRejected prepared request state) := by
  refine .after fun _ => .after fun _ => .after fun _ => ?_
  refine (seals_executeRejected _).bind fun result => ?_
  cases result with
  | inl receipt => exact .inl ⟨receipt, .inl receipt, rfl, rfl, rfl⟩
  | inr effects =>
    refine .inr (.after fun _ => ?_)
    dsimp only
    split
    · exact .after fun _ => .after fun _ => seals_pure rfl
    · exact seals_failRejectedSynchronization.inl

theorem seals_concludeCompletion :
    Seals some (concludeCompletion active request state paths evidence) := by
  refine .after fun _ => .after fun _ => .after fun _ => .after fun _ => ?_
  dsimp only
  split
  · refine .after fun _ => ?_
    split
    · exact .after fun _ => seals_sealTerminalReceipt.answered rfl
    · exact seals_sealCompletionFailure
  · exact seals_sealCompletionFailure

theorem seals_completeApplication :
    Seals Sum.getLeft? (completeApplication active request state) := by
  refine .after fun _ => .after fun _ => .after fun _ => .after fun _ => .after fun _ =>
    .after fun _ => ?_
  split
  · exact seals_concludeCompletion.inl
  · exact .after fun _ => seals_pure rfl

theorem seals_recoverInterrupted :
    Seals some (recoverInterrupted interrupted request state) := by
  refine .after fun _ => .after fun _ => ?_
  split
  · exact seals_sealRecoveryReceipt
  · split
    · exact seals_sealRecoveryReceipt
    · exact .after fun _ => .after fun _ => .after fun _ => seals_sealRecoveryReceipt

/-! ### Restarts -/

theorem seals_resumePreparing :
    Seals Sum.getLeft? (resumePreparing app view request state evidence) := by
  refine .after fun captures => ?_
  split
  · exact seals_failPreparation.inl
  dsimp only
  refine .after fun _ => ?_
  split
  · exact seals_failPreparation.inl
  refine .after fun _ => ?_
  split
  · exact seals_failPreparation.inl
  refine .after fun _ => ?_
  split
  · exact seals_failPreparation.inl
  · exact .after fun _ => seals_pure rfl

theorem seals_resumePreparation :
    Seals Sum.getLeft? (resumePreparation app view request state) := by
  refine .after fun _ => ?_
  split
  · exact .after fun _ => seals_pure rfl
  refine .after fun _ => ?_
  dsimp only
  split
  · exact seals_failPreparation.inl
  · exact seals_resumePreparing

theorem seals_resumeRejected (steps : List EffectStep) :
    Seals Sum.getLeft? (resumeRejected prepared view request state steps effects) := by
  induction steps generalizing effects with
  | nil => exact seals_pure rfl
  | cons step rest ih =>
    refine .after fun _ => ?_
    dsimp only
    split
    · exact ih
    · exact seals_failRejectedEffect.inl

theorem seals_resumeRejectedPublication :
    Seals Sum.getLeft? (resumeRejectedPublication prepared view request state) := by
  have hrest : Seals Sum.getLeft? (resumeRejectedMutating prepared view request state) := by
    refine (seals_resumeRejected _).bind fun result => ?_
    cases result with
    | inl receipt => exact .inl ⟨receipt, .inl receipt, rfl, rfl, rfl⟩
    | inr effects =>
      refine .inr (.after fun _ => ?_)
      dsimp only
      split
      · exact .after fun _ => .after fun _ => seals_pure rfl
      · exact seals_failRejectedSynchronization.inl
  refine .after fun _ => ?_
  split
  · exact .after fun _ => hrest
  · exact hrest

theorem seals_resumeRecovery :
    Seals some (resumeRecovery interrupted view request state) := by
  refine .after fun _ => .after fun _ => ?_
  split
  · exact seals_recoverInterrupted
  · exact .after fun _ => .after fun _ => .after fun _ => seals_sealRecoveryReceipt

theorem seals_resumeConclusion :
    Seals some (resumeConclusion active view request state paths evidence) := by
  refine .after fun _ => .after fun _ => .after fun _ => .after fun _ => .after fun _ => ?_
  dsimp only
  split
  · refine .after fun _ => ?_
    split
    · exact .after fun _ => seals_restartSealTerminalReceipt.answered rfl
    · exact seals_restartCompletionFailure
  · exact seals_restartCompletionFailure

theorem seals_resumeCompletion :
    Seals Sum.getLeft? (resumeCompletion active view request state) := by
  refine .after fun _ => .after fun _ => .after fun _ => .after fun _ => .after fun _ => ?_
  split
  · exact seals_resumeConclusion.inl
  · exact .after fun _ => seals_pure rfl

end Phases

/-! ## Whole processes -/

section Processes

variable {app : JournaledApplication} {rejected : RejectedPublishedApplication}
  {view : RestartView} {request : ApplicationRequest} {state : LeaseBoundStateProjection}

theorem seals_finishActive : Seals some (finishActive rejected request state) := by
  refine .after fun result => ?_
  cases result with
  | inl interrupted => exact seals_recoverInterrupted
  | inr active =>
    refine seals_completeApplication.bind fun result => ?_
    cases result with
    | inl receipt => exact .inl ⟨receipt, receipt, rfl, rfl, rfl⟩
    | inr interrupted => exact .inr seals_recoverInterrupted

/-- An application answers with a receipt its journal retains. -/
theorem seals_runApplication : Seals some (runApplication app request state) := by
  refine .after fun _ => .after fun _ => ?_
  refine seals_prepareApplication.bind fun result => ?_
  cases result with
  | inl receipt => exact .inl ⟨receipt, receipt, rfl, rfl, rfl⟩
  | inr prepared =>
    refine .inr (seals_publishRejected.bind fun result => ?_)
    cases result with
    | inl receipt => exact .inl ⟨receipt, receipt, rfl, rfl, rfl⟩
    | inr rejected => exact .inr seals_finishActive

theorem seals_finishForward : Seals some (finishForward rejected view request state) := by
  refine .after fun result => ?_
  cases result with
  | inl interrupted => exact seals_resumeRecovery
  | inr active =>
    refine seals_resumeCompletion.bind fun result => ?_
    cases result with
    | inl receipt => exact .inl ⟨receipt, receipt, rfl, rfl, rfl⟩
    | inr interrupted => exact .inr seals_resumeRecovery

theorem seals_finishPublished {disposition : RestartDisposition} :
    Seals some (finishPublished disposition rejected view request state) := by
  unfold finishPublished
  split
  · exact .after fun _ => seals_resumeRecovery
  · exact seals_finishForward

/-- A restart answers with a receipt its journal retains. -/
theorem seals_runRestart (session : RestartSession) :
    Seals some (runRestart request session) := by
  refine .after fun _ => .after fun _ => .after fun _ => .after fun _ => ?_
  refine seals_resumePreparation.bind fun result => ?_
  cases result with
  | inl receipt => exact .inl ⟨receipt, receipt, rfl, rfl, rfl⟩
  | inr prepared =>
    refine .inr (seals_resumeRejectedPublication.bind fun result => ?_)
    cases result with
    | inl receipt => exact .inl ⟨receipt, receipt, rfl, rfl, rfl⟩
    | inr rejected => exact .inr seals_finishPublished

end Processes

end PkgApply
