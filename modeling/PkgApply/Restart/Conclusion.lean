import PkgApply.Restart.Exposure
import PkgApply.Restart.Reported
import PkgApply.Restart.Resumability

/-!
# Completed receipts name durable evidence

Which record a completed receipt names depends on what the processes before it
have published, and under which projection.  A restart under the projection of
the retained record seals that record, by terminals that processes under other
projections may have journaled; under another projection it publishes and
synchronizes a record of its own.
-/

namespace PkgApply

open Library Engine

/-! ## The phases of completion -/

section Phases

variable {A : AdmittedApplication} {m : Mechanisms} {s₀ s : EngineState}
  {active : ActiveMutatedApplication} {view : RestartView} {request : ApplicationRequest}
  {state : LeaseBoundStateProjection} {paths : List PathConsequence} {evidence : Evidence}

/-- Evidence is made for the projection its process runs under. -/
theorem makeCompletedEvidence_stateProjection {header : JournalHeader} {E : CompletedEvidence}
    (hE : makeCompletedEvidence active request state header paths evidence = .ok E) :
    E.stateProjection = state := by
  unfold makeCompletedEvidence CompletedEvidence.make at hE
  simp only [bind_eq_ok_iff, pure, Except.pure, Except.ok.injEq] at hE
  obtain ⟨_, -, _, -, _, -, _, -, rfl⟩ := hE
  rfl

/-- A part of the completion that fails leaves the journal concluded. -/
theorem concludes_failure {p : Engine ApplicationReceipt} (hp : p.Orderly (within .inconclusive))
    (h : Underway A s₀ s) :
    Concludes A m state s₀ p s fun _ s' => Concluded A state s₀ s' :=
  (concludes_within hp h).mono (fun _ _ h' => h'.underway.concluded) (fun _ _ hx => hx)
    fun _ hx => hx

theorem concludes_concludeCompletion (h : Underway A s₀ s) :
    Concludes A m state s₀ (concludeCompletion active request state paths evidence) s
      fun _ s' => Concluded A state s₀ s' := by
  refine (concludes_within (within_state (by decide)) h).bind fun _ s₁ h₁ => ?_
  refine concludes_history (concludes_ofExcept h₁.underway fun E hE => ?_)
  have hunder := makeCompletedEvidence_stateProjection hE
  refine (concludes_publishCompletedEvidence h₁.underway).bind fun answer s₂ ⟨h₂, hpublished⟩ => ?_
  dsimp only
  split
  · rename_i hcompleted
    refine (concludes_synchronizeCompletedEvidence h₂ (hpublished hcompleted)).bind
      fun fact s₃ ⟨h₃, hconfirmed⟩ => ?_
    split
    · rename_i hstatus
      exact concludes_sealCompleted h₃ hunder fun _ _ _ => .inl (hconfirmed hstatus)
    · exact concludes_failure (within_sealCompletionFailure fun _ _ h => h) h₃
  · exact concludes_failure (within_sealCompletionFailure fun _ _ h => h) h₂

theorem concludes_completeApplication (h : Underway A s₀ s) :
    Concludes A m state s₀ (completeApplication active request state) s fun result s' =>
      Concluded A state s₀ s' ∧ ∀ interrupted, result = .inr interrupted → Underway A s₀ s' := by
  refine concludes_history (concludes_ofExcept h fun _ _ => concludes_ofExcept h fun _ _ => ?_)
  refine (concludes_within (within_observeIntents (Scope.inconclusive_homes nofun) _) h).bind
    fun _ s₁ h₁ => ?_
  refine (concludes_mechanism h₁.underway).bind fun observations s₂ ⟨h₂, _⟩ => ?_
  refine (concludes_within (within_observeTerminals (Scope.inconclusive_homes nofun) _ _) h₂.underway).bind
    fun observed s₃ h₃ => ?_
  split
  · refine (concludes_concludeCompletion h₃.underway).bind fun _ s₄ h₄ => ?_
    exact concludes_pure ⟨h₄, fun _ hx => nomatch hx⟩
  · refine (concludes_within within_interruptObservation h₃.underway).bind fun _ s₄ h₄ => ?_
    exact concludes_pure ⟨h₄.underway.concluded, fun _ _ => h₄.underway⟩

/-! ### Completion after a restart -/

/-- Retained evidence is sealed under its own projection only. -/
theorem resumeEvidence_stateProjection {attempt : ApplicationAttempt} {header : JournalHeader}
    {E : CompletedEvidence} {retained : Option CompletedEvidence} {e : ResumedEvidence}
    (hE : E.stateProjection = state)
    (he : resumeEvidence request attempt state header paths E retained = .ok e) :
    e.completed.stateProjection = state := by
  unfold resumeEvidence at he
  split at he
  · cases he
    exact hE
  · rw [refuseIf_bind_eq_ok] at he
    obtain ⟨-, he⟩ := he
    obtain ⟨_, -, he⟩ := bind_eq_ok_iff.mp he
    rw [refuseIf_bind_eq_ok] at he
    obtain ⟨-, he⟩ := he
    split at he
    · cases he
      assumption
    · cases he
      exact hE

/-- The record a publication ended with is the evidence of the ledger. -/
theorem evidence_of_published {first : Ended} {E : CompletedEvidence}
    (hfirst : s.published = some first) (hE : first.Published E) :
    s.history.ledger.evidence = some E := by
  have hslot : (s.history.slot .publishCompletedEvidence none).ended = some first := hfirst
  simp only [Ledger.evidence, JournalHistory.ledger_slot, Slot.fact, hslot, Option.bind_some, hE.2]
  rfl

/-- Where a restart stands between its observations and its seal: what the
view recalls is what the journal it started from retains. -/
structure Resuming (A : AdmittedApplication) (view : RestartView) (s₀ s : EngineState) : Prop where
  underway : Underway A s₀ s
  synchronized : s.synchronized = s₀.synchronized
  recalls : view.completedEvidence = s₀.history.ledger.evidence
  backed : Backed s₀

theorem validateRetainedPublication_eq_ok {e : ResumedEvidence} {terminal : EventKind}
    (h : validateRetainedPublication view e (some terminal) = .ok ()) :
    terminal = .completed ∧
      (e.refresh = false → view.completedEvidence = some e.completed) := by
  have hnot := refuseIf_eq_ok.mp h
  rw [not_or, not_or, not_not] at hnot
  obtain ⟨hterminal, -, hretained⟩ := hnot
  refine ⟨hterminal, fun hrefresh => ?_⟩
  by_contra hne
  exact hretained ⟨by simp [hrefresh], hne⟩

theorem concludes_resumePublication {e : ResumedEvidence} (h : Resuming A view s₀ s)
    (hpublished : s.published = s₀.published) :
    Concludes A m state s₀ (resumePublication view e) s fun answer s' =>
      Resuming A view s₀ s' ∧
        ((answer.all fun p => p.outcome == .completed) = true → PublishedIn e.completed s') ∧
        (e.refresh = false → s₀.published.isSome → view.completedEvidence = some e.completed) := by
  have hs := h.underway
  refine concludes_history (concludes_ofExcept hs fun effect heffect => ?_)
  obtain ⟨hmem, hkind, hpath⟩ := findEffect_spec heffect
  have hterminal := hs.terminal_eq hmem
  rw [hkind, hpath] at hterminal
  change _ = s.published.map Ended.kind at hterminal
  refine concludes_ofExcept hs fun _ hvalid => ?_
  rw [hterminal] at hvalid ⊢
  cases hended : s.published with
  | none =>
    rw [if_pos (by rfl)]
    refine Concludes.bind (concludes_restartPublication hs hmem hkind hpath hended)
      fun answer s₁ ⟨h₁, hsynchronized, hanswer⟩ => concludes_pure ⟨?_, fun hall => ?_, ?_⟩
    · exact ⟨h₁, hsynchronized.trans h.synchronized, h.recalls, h.backed⟩
    · exact hanswer (by simpa using hall)
    · rw [← hpublished, hended]
      exact fun _ hx => nomatch hx
  | some first =>
    rw [hended] at hvalid
    obtain ⟨hcompleted, hretained⟩ := validateRetainedPublication_eq_ok hvalid
    rw [if_neg (by simp)]
    split
    · rename_i hrefresh
      refine Concludes.bind (concludes_refreshPublication hs ⟨first, hended, hcompleted⟩)
        fun answer s₁ ⟨h₁, hsynchronized, hanswer⟩ => concludes_pure ⟨?_, fun hall => ?_, ?_⟩
      · exact ⟨h₁, hsynchronized.trans h.synchronized, h.recalls, h.backed⟩
      · exact hanswer (by simpa using hall)
      · exact fun hx => absurd hrefresh (by simp [hx])
    · rename_i hrefresh
      have hrefresh : e.refresh = false := by simpa using hrefresh
      refine concludes_pure ⟨h, fun _ => ⟨⟨first, hended, hcompleted⟩, ?_⟩, fun hx _ => hretained hx⟩
      obtain ⟨E, hE, hreported⟩ := hs.backed.published first hended hcompleted
      have hevidence := evidence_of_published (hpublished ▸ hended) hE
      rw [← h.recalls, hretained hrefresh] at hevidence
      cases hevidence
      exact hreported

theorem concludes_resumeEvidenceDurability {e : ResumedEvidence} (h : Resuming A view s₀ s)
    (hE : PublishedIn e.completed s)
    (hretained : e.refresh = false → s₀.published.isSome →
      view.completedEvidence = some e.completed) :
    Concludes A m state s₀ (resumeEvidenceDurability view e.refresh) s fun status s' =>
      Underway A s₀ s' ∧ (status = .confirmed → Assured e.completed s₀ s') := by
  have hs := h.underway
  refine concludes_history (concludes_ofExcept hs fun effect heffect => ?_)
  obtain ⟨-, hkind, hpath⟩ := findEffect_spec heffect
  split
  · refine (concludes_restartSynchronize hs hkind hpath hE).mono (fun status s₁ h₁ => ?_)
      (fun _ _ hx => hx) fun _ hx => hx
    exact ⟨h₁.1, fun hstatus _ _ _ => .inl (h₁.2 hstatus)⟩
  · split
    · refine (concludes_refreshSynchronization hs hkind hE).mono (fun status s₁ h₁ => ?_)
        (fun _ _ hx => hx) fun _ hx => hx
      exact ⟨h₁.1, fun hstatus _ _ _ => .inl (h₁.2 hstatus)⟩
    · -- both are retained: the journal this process started from assures the record
      rename_i hrefresh
      refine concludes_pure ⟨hs, fun _ ended hended hcompleted => .inr ?_⟩
      rw [h.synchronized] at hended
      obtain ⟨hconfirmed, first, E, hfirst, hfirstE, hdurable⟩ :=
        h.backed.synchronized ended hended hcompleted
      have hevidence := evidence_of_published hfirst hfirstE
      rw [← h.recalls, hretained (by simpa using hrefresh) (by simp [hfirst])] at hevidence
      cases hevidence
      exact ⟨⟨first, hfirst, hfirstE⟩, ⟨ended, hended, hconfirmed⟩, hdurable⟩

theorem concludes_resumeConclusion (h : Underway A s₀ s) (hbacked : Backed s₀)
    (hrecalls : view.completedEvidence = s₀.history.ledger.evidence)
    (hpublished : s.published = s₀.published) (hsynchronized : s.synchronized = s₀.synchronized) :
    Concludes A m state s₀ (resumeConclusion active view request state paths evidence) s
      fun _ s' => Concluded A state s₀ s' := by
  refine (concludes_within within_resumeResultObserved h).bind fun _ s₁ h₁ => ?_
  refine concludes_history (concludes_ofExcept h₁.underway fun E hE => ?_)
  refine concludes_ofExcept h₁.underway fun e he => ?_
  have hunder := resumeEvidence_stateProjection (makeCompletedEvidence_stateProjection hE) he
  have hresuming : Resuming A view s₀ s₁ :=
    ⟨h₁.underway, h₁.synchronized.trans hsynchronized, hrecalls, hbacked⟩
  refine (concludes_resumePublication hresuming (h₁.published.trans hpublished)).bind
    fun answer s₂ ⟨h₂, hanswer, hretained⟩ => ?_
  dsimp only
  split
  · rename_i hall
    refine (concludes_resumeEvidenceDurability h₂ (hanswer hall) hretained).bind
      fun status s₃ ⟨h₃, hassured⟩ => ?_
    split
    · rename_i hstatus
      exact concludes_restartCompleted h₃ hunder (hassured hstatus)
    · exact concludes_failure (within_restartCompletionFailure fun _ _ h => h) h₃
  · exact concludes_failure (within_restartCompletionFailure fun _ _ h => h)
      h₂.underway

theorem concludes_resumeCompletion (h : Unmoved A s₀ s₀ s) (hbacked : Backed s₀)
    (hrecalls : view.completedEvidence = s₀.history.ledger.evidence) :
    Concludes A m state s₀ (resumeCompletion active view request state) s fun result s' =>
      Concluded A state s₀ s' ∧ ∀ interrupted, result = .inr interrupted → Underway A s₀ s' := by
  have hs := h.underway
  refine concludes_history (concludes_ofExcept hs fun _ _ => concludes_ofExcept hs fun _ _ => ?_)
  refine (concludes_mechanism hs).bind fun observations s₁ ⟨h₁, _⟩ => ?_
  refine (concludes_within (within_resumeObservations (Scope.inconclusive_homes nofun) _ _)
    h₁.underway).bind fun observed s₂ h₂ => ?_
  split
  · refine (concludes_resumeConclusion h₂.underway hbacked hrecalls ?_ ?_).bind
      fun _ s₃ h₃ => concludes_pure ⟨h₃, fun _ hx => nomatch hx⟩
    · rw [h₂.published, h₁.published, h.published]
    · rw [h₂.synchronized, h₁.synchronized, h.synchronized]
  · refine (concludes_within within_interruptObservation h₂.underway).bind fun _ s₃ h₃ => ?_
    exact concludes_pure ⟨h₃.underway.concluded, fun _ _ => h₃.underway⟩

end Phases

/-! ## Whole processes -/

section Processes

variable {A : AdmittedApplication} {m : Mechanisms} {s₀ s : EngineState}
  {app : JournaledApplication} {rejected : RejectedPublishedApplication} {view : RestartView}
  {request : ApplicationRequest} {state : LeaseBoundStateProjection}

theorem concludes_finishActive (h : Underway A s₀ s) :
    Concludes A m state s₀ (finishActive rejected request state) s fun _ s' =>
      Concluded A state s₀ s' := by
  refine (concludes_within (within_executeActive (Scope.inconclusive_homes nofun)) h).bind
    fun result s₁ h₁ => ?_
  cases result with
  | inl interrupted =>
    exact concludes_failure (within_recoverInterrupted (Scope.inconclusive_homes nofun)
      Scope.inconclusive_failing) h₁.underway
  | inr active =>
    refine (concludes_completeApplication h₁.underway).bind fun result s₂ ⟨h₂, hunder⟩ => ?_
    cases result with
    | inl receipt => exact concludes_pure h₂
    | inr interrupted =>
      exact concludes_failure (within_recoverInterrupted (Scope.inconclusive_homes nofun)
        Scope.inconclusive_failing) (hunder interrupted rfl)

theorem concludes_runApplication (h : Underway A s₀ s) :
    Concludes A m state s₀ (runApplication app request state) s fun _ s' =>
      Concluded A state s₀ s' := by
  refine concludes_history (concludes_ofExcept h fun app' _ => ?_)
  refine (concludes_within (within_prepareApplication (Scope.inconclusive_homes nofun)
    Scope.inconclusive_failing.sparing) h).bind fun result s₁ h₁ => ?_
  cases result with
  | inl receipt => exact concludes_pure h₁.underway.concluded
  | inr prepared =>
    refine (concludes_within (within_publishRejected (Scope.inconclusive_homes nofun)
      Scope.inconclusive_failing.sparing) h₁.underway).bind fun result s₂ h₂ => ?_
    cases result with
    | inl receipt => exact concludes_pure h₂.underway.concluded
    | inr rejected => exact concludes_finishActive h₂.underway

theorem concludes_finishForward (h : Unmoved A s₀ s₀ s) (hbacked : Backed s₀)
    (hrecalls : view.completedEvidence = s₀.history.ledger.evidence) :
    Concludes A m state s₀ (finishForward rejected view request state) s fun _ s' =>
      Concluded A state s₀ s' := by
  refine (concludes_within (within_resumeActiveExecution (Scope.inconclusive_homes nofun))
    h.underway).bind fun result s₁ h₁ => ?_
  cases result with
  | inl interrupted =>
    exact concludes_failure (within_resumeRecovery (Scope.inconclusive_homes nofun)
      Scope.inconclusive_failing) h₁.underway
  | inr active =>
    refine (concludes_resumeCompletion (h.trans h₁) hbacked hrecalls).bind
      fun result s₂ ⟨h₂, hunder⟩ => ?_
    cases result with
    | inl receipt => exact concludes_pure h₂
    | inr interrupted =>
      exact concludes_failure (within_resumeRecovery (Scope.inconclusive_homes nofun)
        Scope.inconclusive_failing) (hunder interrupted rfl)

theorem concludes_finishPublished {disposition : RestartDisposition} (h : Unmoved A s₀ s₀ s)
    (hbacked : Backed s₀) (hrecalls : view.completedEvidence = s₀.history.ledger.evidence) :
    Concludes A m state s₀ (finishPublished disposition rejected view request state) s
      fun _ s' => Concluded A state s₀ s' := by
  unfold finishPublished
  split
  · refine (concludes_within within_restartInterruption h.underway).bind
      fun interrupted s₁ h₁ => ?_
    exact concludes_failure (within_resumeRecovery (Scope.inconclusive_homes nofun)
      Scope.inconclusive_failing) h₁.underway
  · exact concludes_finishForward h hbacked hrecalls

theorem buildView_of_reopen {session : RestartSession} {h : JournalHistory}
    (hok : reopenApplication request session h = .ok (app, view)) :
    buildView h request = .ok view := by
  unfold reopenApplication at hok
  simp only [bind_eq_ok_iff, pure, Except.pure, Except.ok.injEq, Prod.mk.injEq] at hok
  obtain ⟨_, -, _, -, built, hbuilt, _, -, _, -, -, rfl⟩ := hok
  exact hbuilt

/-- A restart from a journal whose evidence is backed. -/
theorem concludes_runRestart {last : Option EngineCall} (session : RestartSession)
    (hs : Logged A last s) (hbacked : Backed s)
    (huncompleted : ∀ r, s.history.receipt = some r → r.outcome ≠ .completed) :
    Concludes A m session.state s (runRestart A.request session) s fun _ s' =>
      Concluded A session.state s s' := by
  have h := Underway.start hs hbacked huncompleted
  refine concludes_history (concludes_ofExcept h fun reopened hreopened => ?_)
  obtain ⟨app, view⟩ := reopened
  have hrecalls := (hs.view (buildView_of_reopen hreopened)).2.2.evidence
  refine concludes_history (concludes_ofExcept h fun disposition _ => ?_)
  refine (concludes_within (within_resumePreparation (Scope.inconclusive_homes nofun)
    Scope.inconclusive_failing.sparing) h).bind fun result s₁ h₁ => ?_
  cases result with
  | inl receipt => exact concludes_pure h₁.underway.concluded
  | inr prepared =>
    refine (concludes_within (within_resumeRejectedPublication (Scope.inconclusive_homes nofun)
      Scope.inconclusive_failing.sparing) h₁.underway).bind fun result s₂ h₂ => ?_
    cases result with
    | inl receipt => exact concludes_pure h₂.underway.concluded
    | inr rejected => exact concludes_finishPublished (h₁.trans h₂) hbacked hrecalls

end Processes

/-! ## Runs -/

namespace AdmittedApplication

/-- One process of a run: the projection it runs under, and its calls. -/
structure Turn where
  projection : LeaseBoundStateProjection
  calls : List EngineCall

/-- A run by its processes: `Left` with what each process did. -/
inductive Course (A : AdmittedApplication) (R : Mechanisms → Prop) :
    List Turn → EngineState → Prop
  | start : Course A R [] A.start
  | applied {m : Mechanisms} {s : EngineState} : R m →
    A.apply.Leaves (engineMachine m) A.start s → Course A R [⟨A.projection, s.log⟩] s
  | resumed {m : Mechanisms} {session : RestartSession} {turns : List Turn} {s s' : EngineState}
    {calls : List EngineCall} : Course A R turns s → R m →
    (runRestart A.request session).Leaves (engineMachine m) s s' → s'.log = s.log ++ calls →
    Course A R (turns ++ [⟨session.state, calls⟩]) s'

section Course

variable {A : AdmittedApplication} {R : Mechanisms → Prop} {turns : List Turn} {s : EngineState}

theorem Course.left (hs : A.Course R turns s) : A.Left R s := by
  induction hs with
  | start => exact .start
  | applied hm hleaves => exact .applied hm hleaves
  | resumed _ hm hleaves _ ih => exact .resumed ih hm hleaves

theorem Left.course (hs : A.Left R s) : ∃ turns, A.Course R turns s := by
  induction hs with
  | start => exact ⟨[], .start⟩
  | applied hm hleaves => exact ⟨_, .applied hm hleaves⟩
  | resumed _ hm hleaves ih =>
    obtain ⟨turns, hturns⟩ := ih
    obtain ⟨calls, hcalls, -⟩ := hleaves.made (engineMachine_logs _)
    exact ⟨_, .resumed hturns hm hleaves hcalls⟩

theorem backed_start : Backed A.start := by
  refine ⟨fun ended hended => ?_, fun ended hended => ?_⟩
  · cases show (none : Option Ended) = some ended from hended
  · cases show (none : Option Ended) = some ended from hended

/-- A completed receipt is sealed in the state of a completed application. -/
theorem Left.completed_state (hs : A.Left R s) {r : ApplicationReceipt}
    (hr : s.history.receipt = some r) (hcompleted : r.outcome = .completed) :
    s.history.state = .applicationCompleted := by
  refine (Left.phased (I := fun h => ∀ r, h.receipt = some r → r.outcome = .completed →
    h.state = .applicationCompleted) (fun _ hr => nomatch hr) ?_ hs).2.2 r hr hcompleted
  intro h h' t _ _ _ hphase _ hfollows r hr hcompleted
  rw [show h'.state = t.state from congrArg Ledger.state hfollows.ledger]
  exact hphase.completed r (hfollows.receipt ▸ hr) hcompleted

/-- A restart leaves a completed journal alone. -/
theorem Left.leaves_completed {m : Mechanisms} {session : RestartSession} {s' : EngineState}
    (hs : A.Left R s) {r : ApplicationReceipt} (hr : s.history.receipt = some r)
    (hcompleted : r.outcome = .completed)
    (hleaves : (runRestart A.request session).Leaves (engineMachine m) s s') : s' = s := by
  have hrefused : (assessRestart s.history.record).resumable = false := by
    unfold assessRestart
    rw [show s.history.record.receipt = some r from hr,
      show s.history.record.state = .applicationCompleted from hs.completed_state hr hcompleted]
    rfl
  refine Process.Ensures.leaves (I := fun s' => s' = s) ?_ hleaves
  exact (runRestart_refuses hs.logged.appended.sound.snapshot_eq hrefused).mono
    (fun _ _ hx => hx.elim) (fun _ _ hx => hx) fun _ hx => hx.elim

/-- An application concludes from its initial journal. -/
theorem concluded_apply {m : Mechanisms} (hleaves : A.apply.Leaves (engineMachine m) A.start s) :
    Concluded A A.projection A.start s :=
  Process.Ensures.leaves (concludes_runApplication
    (.start (.start A) backed_start fun _ hr => nomatch hr)) hleaves

/-- The evidence of a run is backed. -/
theorem Left.backed (hs : A.Left R s) : Backed s := by
  induction hs with
  | start => exact backed_start
  | applied _ hleaves => exact (concluded_apply hleaves).backed
  | @resumed m session s s' hs _ hleaves ih =>
    by_cases hcompleted : ∃ r, s.history.receipt = some r ∧ r.outcome = .completed
    · obtain ⟨r, hr, hr'⟩ := hcompleted
      rw [hs.leaves_completed hr hr' hleaves]
      exact ih
    · push Not at hcompleted
      exact (Process.Ensures.leaves (concludes_runRestart session hs.logged ih hcompleted)
        hleaves).backed

/-- A completed receipt names the record published under the projection of the
process that sealed it, and a synchronization was confirmed after that. -/
theorem completed_names_durable {r : ApplicationReceipt} (hs : A.Course R turns s)
    (hr : s.history.receipt = some r) (hcompleted : r.outcome = .completed) :
    ∃ before turn after s₀ s₁ E, turns = before ++ turn :: after ∧ A.Course R before s₀ ∧
      A.Course R (before ++ [turn]) s₁ ∧ s₀.history.receipt ≠ some r ∧
      s₁.history.receipt = some r ∧ s.history.completedEvidence = some E ∧
      Names turn.projection s₀ s₁ r E := by
  induction hs with
  | start => cases hr
  | @applied m s hm hleaves =>
    obtain ⟨E, hE⟩ := (concluded_apply hleaves).completed r hr hcompleted
    exact ⟨[], _, [], A.start, s, E, rfl, .start, .applied hm hleaves, nofun, hr, hE.retained, hE⟩
  | @resumed m session turns s s' calls hs hm hleaves hlog ih =>
    by_cases hbefore : ∃ r, s.history.receipt = some r ∧ r.outcome = .completed
    · -- the receipt was sealed before this process, which finds nothing to do
      obtain ⟨r', hr', hcompleted'⟩ := hbefore
      obtain rfl := hs.left.leaves_completed hr' hcompleted' hleaves
      obtain ⟨before, turn, after, s₀, s₁, E, rfl, hrest⟩ := ih hr
      exact ⟨before, turn, after ++ [⟨session.state, calls⟩], s₀, s₁, E, by simp, hrest⟩
    · push Not at hbefore
      obtain ⟨E, hE⟩ := (Process.Ensures.leaves
        (concludes_runRestart session hs.left.logged hs.left.backed hbefore) hleaves).completed r hr
          hcompleted
      exact ⟨turns, _, [], s, s', E, rfl, hs, .resumed hs hm hleaves hlog,
        fun hx => hbefore r hx hcompleted, hr, hE.retained, hE⟩

end Course

end AdmittedApplication

/-! ## A lease that comes back -/

section Lease

open AdmittedApplication

private def leased : AdmittedApplication := .removal .none .visibilityOnly

private def answers : Mechanisms := removalMechanisms .completed .completed .confirmed

/-- The projection of the attempt, read again with other evidence. -/
private def reread : LeaseBoundStateProjection := { leased.projection with evidence := ⟨13⟩ }

private def publishingCuts : List EngineState := leased.apply.cuts (engineMachine answers) leased.start

private theorem publishingCuts_isSome : (publishingCuts[26]?).isSome = true := by decide +kernel

/-- The removal, cut once its evidence is published. -/
def publishedRemoval : EngineState := publishingCuts[26]?.get publishingCuts_isSome

private def synchronizingCuts : List EngineState :=
  (runRestart leased.request ⟨reread, leased.nonce⟩).cuts (engineMachine answers) publishedRemoval

private theorem synchronizingCuts_isSome : (synchronizingCuts[9]?).isSome = true := by
  decide +kernel

/-- The removal, restarted under another projection and cut once refreshed
evidence is synchronized. -/
def synchronizedRemoval : EngineState := synchronizingCuts[9]?.get synchronizingCuts_isSome

/-- The removal, restarted once more under the projection of the attempt. -/
def sealedRemoval : EngineState :=
  ((runRestart leased.request ⟨leased.projection, leased.nonce⟩).eval (engineMachine answers)
    synchronizedRemoval).2

/-- What the three processes did. -/
def sealedTurns : List Turn :=
  [⟨leased.projection, publishedRemoval.log⟩,
    ⟨reread, synchronizedRemoval.log.drop publishedRemoval.log.length⟩,
    ⟨leased.projection, sealedRemoval.log.drop synchronizedRemoval.log.length⟩]

/-- A process of a run made the calls it added to the log. -/
private theorem course_resumed {A : AdmittedApplication} {turns : List Turn} {m : Mechanisms}
    {session : RestartSession} {s s' : EngineState} (hs : A.Course (fun _ => True) turns s)
    (hleaves : (runRestart A.request session).Leaves (engineMachine m) s s') :
    A.Course (fun _ => True) (turns ++ [⟨session.state, s'.log.drop s.log.length⟩]) s' := by
  obtain ⟨calls, hcalls, -⟩ := hleaves.made (engineMachine_logs m)
  refine .resumed hs trivial hleaves ?_
  rw [hcalls, List.drop_left]

private theorem sealedRemoval_course :
    leased.Course (fun _ => True) sealedTurns sealedRemoval := by
  have h₁ : leased.Course (fun _ => True) [⟨leased.projection, publishedRemoval.log⟩]
      publishedRemoval := by
    refine .applied (m := answers) trivial (.inl ?_)
    exact List.mem_of_getElem? (Option.some_get _).symm
  have h₂ : synchronizedRemoval ∈ synchronizingCuts :=
    List.mem_of_getElem? (Option.some_get synchronizingCuts_isSome).symm
  have h₃ : (runRestart leased.request ⟨leased.projection, leased.nonce⟩).Leaves
      (engineMachine answers) synchronizedRemoval sealedRemoval := .inr rfl
  exact course_resumed (course_resumed h₁ (.inl h₂)) h₃

private theorem sealedRemoval_receipt :
    ∃ r, sealedRemoval.history.receipt = some r ∧ r.outcome = .completed := by
  have houtcome : sealedRemoval.history.receipt.map ApplicationReceipt.outcome =
      some .completed := by decide +kernel
  exact Option.map_eq_some_iff.mp houtcome

/-- A call that synchronizes completed evidence, whatever its answer. -/
private def synchronizes (c : EngineCall) : Bool :=
  match c.1 with
  | .mechanism (.synchronize .synchronizeCompletedEvidence _) => true
  | _ => false

/-- The processes under the projection of the attempt synchronize nothing. -/
private theorem not_confirms_leased {turn : Turn} (hmem : turn ∈ sealedTurns)
    (hprojection : turn.projection = leased.projection) {c : EngineCall} (hc : c ∈ turn.calls) :
    ¬Confirms c := by
  have hnone : sealedTurns.all (fun turn => turn.projection != leased.projection ||
      turn.calls.all (fun c => !synchronizes c)) = true := by decide +kernel
  have hcalls := List.all_eq_true.mp hnone turn hmem
  rw [hprojection, bne_self_eq_false, Bool.false_or] at hcalls
  have hcall := List.all_eq_true.mp hcalls c hc
  rintro ⟨fact, -, rfl⟩
  cases hcall

/-- A receipt may be sealed with the record of one projection by the
synchronization of a process under another. -/
theorem not_completed_names_durable : ¬∀ (A : AdmittedApplication) (turns : List Turn)
    (s : EngineState) (r : ApplicationReceipt), A.Course (fun _ => True) turns s →
      s.history.receipt = some r → r.outcome = .completed →
        ∃ before turn after E, turns = before ++ turn :: after ∧
          s.history.completedEvidence = some E ∧ E.stateProjection = turn.projection ∧
          ((∃ c ∈ turn.calls, Confirms c) ∨ ∃ earlier ∈ before,
            earlier.projection = turn.projection ∧ ∃ c ∈ earlier.calls, Confirms c) := by
  intro hall
  obtain ⟨r, hr, hcompleted⟩ := sealedRemoval_receipt
  obtain ⟨before, turn, after, E, hturns, hE, hunder, hconfirmed⟩ :=
    hall leased sealedTurns sealedRemoval r sealedRemoval_course hr hcompleted
  have hprojection : sealedRemoval.history.completedEvidence.map CompletedEvidence.stateProjection =
      some leased.projection := by decide +kernel
  rw [hE, Option.map_some, Option.some.injEq, hunder] at hprojection
  have hmem : turn ∈ sealedTurns := by simp [hturns]
  rcases hconfirmed with ⟨c, hc, hconfirms⟩ | ⟨earlier, hearlier, hsame, c, hc, hconfirms⟩
  · exact not_confirms_leased hmem hprojection hc hconfirms
  · exact not_confirms_leased (by simp [hturns, hearlier]) (hsame.trans hprojection) hc hconfirms

theorem completed_names_durable_sealedRemoval : ∃ r before turn after s₀ s₁ E,
    sealedTurns = before ++ turn :: after ∧ leased.Course (fun _ => True) before s₀ ∧
      leased.Course (fun _ => True) (before ++ [turn]) s₁ ∧ s₀.history.receipt ≠ some r ∧
      s₁.history.receipt = some r ∧ sealedRemoval.history.completedEvidence = some E ∧
      Names turn.projection s₀ s₁ r E := by
  obtain ⟨r, hr, hcompleted⟩ := sealedRemoval_receipt
  exact ⟨r, completed_names_durable sealedRemoval_course hr hcompleted⟩

end Lease

end PkgApply
