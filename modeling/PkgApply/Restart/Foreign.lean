import PkgApply.Restart.Resumability

/-!
# Restarts of other requests

A journal is found by its declaration, so a process may come to it with any
request.  One the journal was not declared for is refused before anything is
called.
-/

namespace PkgApply

open Library

variable {request : ApplicationRequest} {session : RestartSession} {h : JournalHistory}
  {m : Mechanisms} {s s' : EngineState} {A : AdmittedApplication} {R : Mechanisms → Prop}

/-- The request and the nonce of a restart are those of the journal. -/
structure JournalHeader.IsFor (header : JournalHeader) (request : ApplicationRequest)
    (session : RestartSession) : Prop where
  kind : header.kind = request.plan.kind
  identity : header.request = request.identity
  plan : header.plan = request.plan.identity
  target : header.target = request.target
  control : header.control = request.control.identity
  backend : header.backend = request.mutationBackend
  nonce : header.attempt.nonce = session.nonce

/-- The bindings of a journal that is reopened. -/
theorem validateJournalBindings_eq_ok {r : JournalRecord} :
    validateJournalBindings request r = .ok () ↔ (assessRestart r).resumable = true ∧
      r.header.kind = request.plan.kind ∧ r.header.request = request.identity ∧
        r.header.plan = request.plan.identity ∧ r.header.target = request.target ∧
          r.header.control = request.control.identity ∧
            r.header.backend = request.mutationBackend := by
  unfold validateJournalBindings
  simp only [refuseIf_bind_eq_ok, refuseIf_eq_ok, ne_eq, not_not, Bool.not_eq_true',
    Bool.not_eq_false]

/-- Whatever is reopened is reopened for its own request and nonce. -/
theorem reopenApplication_isFor {reopened : JournaledApplication × RestartView}
    (hsnapshot : h.snapshot = .ok h.record)
    (hok : reopenApplication request session h = .ok reopened) : h.header.IsFor request session := by
  unfold reopenApplication at hok
  obtain ⟨record, hrecord, hok⟩ := bind_eq_ok_iff.mp hok
  rw [hsnapshot] at hrecord
  cases hrecord
  obtain ⟨⟨⟩, hbindings, hok⟩ := bind_eq_ok_iff.mp hok
  obtain ⟨view, -, hok⟩ := bind_eq_ok_iff.mp hok
  obtain ⟨attempt, hattempt, -⟩ := bind_eq_ok_iff.mp hok
  obtain ⟨-, hkind, hrequest, hplan, htarget, hcontrol, hbackend⟩ :=
    validateJournalBindings_eq_ok.mp hbindings
  unfold validateRestartedAttempt at hattempt
  obtain ⟨hnonce, -⟩ := refuseIf_bind_eq_ok.mp hattempt
  exact ⟨hkind, hrequest, hplan, htarget, hcontrol, hbackend, (not_not.mp hnonce).symm⟩

/-- A restart with another request, or of another attempt, is refused before
anything is called. -/
theorem runRestart_foreign (hsnapshot : s.history.snapshot = .ok s.history.record)
    (hforeign : ¬s.history.header.IsFor request session) :
    (runRestart request session).Ensures (engineMachine m) s (fun _ _ => False)
      (fun _ s' => s' = s) (fun _ => False) := by
  unfold runRestart
  refine ensures_history ?_
  cases hreopen : reopenApplication request session s.history with
  | error e => exact ensures_error rfl rfl
  | ok reopened => exact absurd (reopenApplication_isFor hsnapshot hreopen) hforeign

end PkgApply
