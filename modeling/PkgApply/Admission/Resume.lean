import PkgApply.Admission.Admit
import PkgApply.Restart.Foreign

/-!
# Resuming an attempt

The checks between a loaded journal and its replay: the request is admissible
again, the journal is resumable and was declared for it, and the transaction
the backend reopens is the journal's own.  Whoever comes to a journal, only its
own request gets past them.
-/

namespace PkgApply.Admission

open Library Transport

/-! ## Checks -/

section Checks

variable (X : Externals)

def validateJournalBindings (request : PackageApplicationRequest) (r : JournalRecord) :
    Except AdmissionFailure Unit := do
  failIf ((assessRestart r).resumable = false)
    (.restart .journalNotResumable "application journal is not automatically resumable")
  failIf (r.header.kind ≠ request.body.kind)
    (.restart .journalOperationKindMismatch "application journal contains another operation kind")
  failIf (r.header.request ≠ request.identity X)
    (.restart .journalRequestMismatch "application journal belongs to another request")
  failIf (r.header.plan ≠ request.plan.operation.identity)
    (.restart .journalPlanMismatch "application journal belongs to another operation plan")
  failIf (r.header.target ≠ request.target.identity X)
    (.restart .journalTargetMismatch "application journal belongs to another target context")
  failIf (r.header.control ≠ request.control.identity X)
    (.restart .journalControlMismatch "application journal belongs to another execution control")
  failIf (r.header.backend ≠ request.target.mutationBackend)
    (.restart .journalBackendMismatch "application journal belongs to another backend")

/-- The three overloads. -/
def validateApplicationRestart (request : PackageApplicationRequest)
    (state : LeaseBoundStateProjection) (lease : MutationLease) (backend : BackendReport)
    (source : ReplaySource request.body) (r : JournalRecord) : Except AdmissionFailure Unit := do
  validateApplicationAdmission X request state lease backend source
  validateJournalBindings X request r

/-- The journal is resumable, and it was declared for the request. -/
structure JournalBinds (request : PackageApplicationRequest) (r : JournalRecord) : Prop where
  resumable : (assessRestart r).resumable = true
  kind : r.header.kind = request.body.kind
  plan : r.header.plan = request.plan.operation.identity
  target : r.header.target = request.target.identity X
  control : r.header.control = request.control.identity X
  backend : r.header.backend = request.target.mutationBackend
  request : r.header.request = request.identity X

section Restartable

variable {X} {request : PackageApplicationRequest} {state : LeaseBoundStateProjection}
  {lease : MutationLease} {backend : BackendReport} {source : ReplaySource request.body}
  {r : JournalRecord}

theorem validateJournalBindings_eq_ok :
    validateJournalBindings X request r = .ok () ↔ JournalBinds X request r := by
  unfold validateJournalBindings
  simp only [andThen_eq_ok, failIf_eq_ok, Bool.not_eq_false, ne_eq, not_not]
  constructor
  · rintro ⟨hresumable, hkind, hrequest, hplan, htarget, hcontrol, hbackend⟩
    exact ⟨hresumable, hkind, hplan, htarget, hcontrol, hbackend, hrequest⟩
  · intro h
    exact ⟨h.resumable, h.kind, h.request, h.plan, h.target, h.control, h.backend⟩

/-- A restart is validated exactly where the request is admissible again and
the journal is its own. -/
theorem validateApplicationRestart_eq_ok :
    validateApplicationRestart X request state lease backend source r = .ok () ↔
      Admissible X request state lease backend source ∧ JournalBinds X request r := by
  unfold validateApplicationRestart
  rw [andThen_eq_ok, validateApplicationAdmission_eq_ok, validateJournalBindings_eq_ok]

/-- The request of a validated restart. -/
def restartedRequest
    (h : validateApplicationRestart X request state lease backend source r = .ok ()) :
    ApplicationRequest :=
  (validateApplicationRestart_eq_ok.mp h).1.engineRequest

end Restartable

def validateRestartedBackendTransaction (target : TargetContext) (lease : MutationLease)
    (backend : BackendReport) (attempt : ApplicationAttempt) (transaction : TransactionReport) :
    Except AdmissionFailure Unit := do
  validateBackendTransaction X target lease backend transaction
  failIf (transaction.attemptNonce ≠ attempt.nonce)
    (.restart .transactionAttemptNonceMismatch
      "restarted transaction reports another attempt nonce")

/-- What replay starts from, with the request as the engine carries it out. -/
structure ReopenedApplication where
  request : ApplicationRequest
  attempt : ApplicationAttempt
  assessment : RestartDisposition
  view : RestartView

/-- The checks of the constructor. -/
def ReopenedApplication.make (reopened : ReopenedApplication) (h : JournalHistory) :
    Except Exn ReopenedApplication := do
  refuseIf (!reopened.assessment.resumable)
    (.invalidArgument "reopened application journal is not resumable")
  refuseIf (reopened.attempt ≠ h.header.attempt ∨ reopened.view.attempt ≠ reopened.attempt)
    (.invalidArgument "reopened application names another attempt")
  refuseIf (reopened.view.declaration ≠ h.declaration)
    (.invalidArgument "restart view names another declaration")
  return reopened

def finishRestart (request : PackageApplicationRequest) (engine : ApplicationRequest)
    (state : LeaseBoundStateProjection) (providers : Providers) (h : JournalHistory)
    (r : JournalRecord) (view : RestartView) : Except AdmissionFailure ReopenedApplication :=
  match providers.transaction with
  | none => .error (.other (.logicError "application backend returned no reopened transaction"))
  | some transaction => do
    validateRestartedBackendTransaction X request.target providers.leaseAfter
      providers.backendAfter view.attempt transaction
    validateTargetMutationLease X request.target state providers.leaseAfter
    let attempt := request.attempt X transaction.attemptNonce
    failIf (attempt ≠ view.attempt ∨ attempt ≠ h.header.attempt)
      (.other (.logicError "restarted transaction did not reproduce the durable attempt"))
    (ReopenedApplication.make ⟨engine, attempt, assessRestart r, view⟩ h).mapError .other

/-- The three overloads, of a loaded history with its snapshot. -/
def reopenApplicationEngine (request : PackageApplicationRequest)
    (state : LeaseBoundStateProjection) (source : ReplaySource request.body)
    (providers : Providers) (h : JournalHistory) (r : JournalRecord) :
    Except AdmissionFailure ReopenedApplication :=
  match hok : validateApplicationRestart X request state providers.lease providers.backend
      source r with
  | .error failure => .error failure
  | .ok () => do
    let view ← (buildView h (restartedRequest hok)).mapError .other
    finishRestart X request (restartedRequest hok) state providers h r view

/-- The three overloads. -/
def resumeApplication (request : PackageApplicationRequest) (state : LeaseBoundStateProjection)
    (source : ReplaySource request.body) (providers : Providers) : Engine ApplicationReceipt := do
  let h ← Engine.history
  let r ← h.snapshot
  let reopened ← (reopenApplicationEngine X request state source providers h r).mapError
    AdmissionFailure.exn
  runRestart reopened.request ⟨state, reopened.attempt.nonce⟩

end Checks

/-! ## What gets past them -/

section Passed

variable {X : Externals} {request : PackageApplicationRequest} {state : LeaseBoundStateProjection}
  {source : ReplaySource request.body} {providers : Providers} {h : JournalHistory}
  {r : JournalRecord} {reopened : ReopenedApplication}

/-- The journal a resumption reopens, and how it is reopened. -/
structure Reopens (X : Externals) (request : PackageApplicationRequest)
    (state : LeaseBoundStateProjection) (source : ReplaySource request.body)
    (providers : Providers) (header : JournalHeader) (reopened : ReopenedApplication) : Prop where
  admissible : ∃ h : Admissible X request state providers.lease providers.backend source,
    reopened.request = h.engineRequest
  isFor : header.IsFor reopened.request ⟨state, reopened.attempt.nonce⟩
  attempt : reopened.attempt = request.attempt X reopened.attempt.nonce
  lease : LeaseBinds X request.target state providers.leaseAfter
  transaction : ∃ transaction, providers.transaction = some transaction ∧
    TransactionBinds X request.target providers.leaseAfter transaction ∧
      transaction.attemptNonce = header.attempt.nonce

/-- What a history is reopened as. -/
structure ReopensAs (X : Externals) (request : PackageApplicationRequest)
    (state : LeaseBoundStateProjection) (source : ReplaySource request.body)
    (providers : Providers) (h : JournalHistory) (r : JournalRecord)
    (transaction : TransactionReport) (reopened : ReopenedApplication) : Prop where
  admissible : ∃ hadmissible : Admissible X request state providers.lease providers.backend source,
    reopened.request = hadmissible.engineRequest
  journal : JournalBinds X request r
  begun : providers.transaction = some transaction
  backend : BackendBinds request.target providers.backendAfter
  binds : TransactionBinds X request.target providers.leaseAfter transaction
  lease : LeaseBinds X request.target state providers.leaseAfter
  own : request.attempt X transaction.attemptNonce = h.header.attempt
  attempt : reopened.attempt = h.header.attempt
  assessment : reopened.assessment = assessRestart r
  view : buildView h reopened.request = .ok reopened.view

/-- A history is reopened exactly where request, projection, lease, backend and
archive belong together, the journal is the request's and can be replayed, and
the transaction continues its attempt. -/
theorem reopenApplicationEngine_eq_ok :
    reopenApplicationEngine X request state source providers h r = .ok reopened ↔
      ∃ transaction, ReopensAs X request state source providers h r transaction reopened := by
  unfold reopenApplicationEngine
  constructor
  · intro hok
    split at hok
    · cases hok
    rename_i hrestart
    obtain ⟨hadmissible, hjournal⟩ := validateApplicationRestart_eq_ok.mp hrestart
    obtain ⟨view, hview, hok⟩ := bind_eq_ok_iff.mp hok
    rw [mapError_eq_ok] at hview
    obtain ⟨-, hattempt⟩ := buildView_names hview
    unfold finishRestart at hok
    cases htransaction : providers.transaction with
    | none => simp [htransaction] at hok
    | some transaction =>
      simp only [htransaction, andThen_eq_ok, validateRestartedBackendTransaction,
        validateBackendTransaction_eq_ok, validateTargetMutationLease_eq_ok, failIf_eq_ok, ne_eq,
        not_not, not_or, mapError_eq_ok] at hok
      obtain ⟨⟨⟨hbackend, hbinds⟩, -⟩, hlease, ⟨-, hown⟩, hmake⟩ := hok
      unfold ReopenedApplication.make at hmake
      simp only [refuseIf_bind_eq_ok] at hmake
      obtain rfl := Except.ok.inj hmake.2.2.2
      exact ⟨transaction, ⟨hadmissible, rfl⟩, hjournal, htransaction, hbackend, hbinds, hlease,
        hown, hown, rfl, hview⟩
  · rintro ⟨transaction, ⟨hadmissible, hrequest⟩, hjournal, hbegun, hbackend, hbinds, hlease, hown,
      hattempt, hassessment, hview⟩
    have hrestart := validateApplicationRestart_eq_ok.mpr ⟨hadmissible, hjournal⟩
    obtain ⟨hdeclaration, hnames⟩ := buildView_names hview
    split
    · rename_i herror
      rw [hrestart] at herror
      cases herror
    · rw [bind_eq_ok_iff]
      refine ⟨reopened.view, ?_, ?_⟩
      · rw [mapError_eq_ok, ← hview, hrequest]
        rfl
      · have hnonce : transaction.attemptNonce = reopened.view.attempt.nonce := by
          rw [hnames, ← hown]
          rfl
        unfold finishRestart
        simp only [hbegun, andThen_eq_ok, validateRestartedBackendTransaction,
          validateBackendTransaction_eq_ok, validateTargetMutationLease_eq_ok, failIf_eq_ok, ne_eq,
          not_not, not_or, mapError_eq_ok]
        refine ⟨⟨⟨hbackend, hbinds⟩, hnonce⟩, hlease, ⟨hown.trans hnames.symm, hown⟩, ?_⟩
        have hmade : (⟨restartedRequest hrestart, request.attempt X transaction.attemptNonce,
            assessRestart r, reopened.view⟩ : ReopenedApplication) = reopened := by
          rw [hown, ← hattempt, ← hassessment]
          change (⟨hadmissible.engineRequest, _, _, _⟩ : ReopenedApplication) = _
          rw [← hrequest]
        rw [hmade]
        unfold ReopenedApplication.make
        simp only [refuseIf_bind_eq_ok, hassessment, hattempt, hnames, hdeclaration,
          hjournal.resumable, Bool.not_true, Bool.false_eq_true, ne_eq, not_true_eq_false,
          not_false_eq_true, or_self, true_and]
        rfl

/-- A reopened journal was declared for the request that reopens it. -/
theorem ReopensAs.reopens {transaction : TransactionReport} (hheader : r.header = h.header)
    (hreopens : ReopensAs X request state source providers h r transaction reopened) :
    Reopens X request state source providers h.header reopened := by
  obtain ⟨hadmissible, hrequest⟩ := hreopens.admissible
  have hjournal := hreopens.journal
  have hown := hreopens.own
  have hnonce : transaction.attemptNonce = h.header.attempt.nonce := by
    rw [← hown]
    rfl
  refine ⟨⟨hadmissible, hrequest⟩, ?_, ?_, hreopens.lease, transaction, hreopens.begun,
    hreopens.binds, hnonce⟩
  · rw [hrequest, hreopens.attempt, ← hheader]
    exact ⟨hjournal.kind.trans hadmissible.kind.symm, hjournal.request, hjournal.plan,
      hjournal.target, hjournal.control, hjournal.backend, rfl⟩
  · rw [hreopens.attempt, ← hnonce, ← hown]

end Passed

/-! ## Whose journal it is -/

/-- Requests, each with its archive, among which the plan and the image of one
request are the only ones of their identities, and no record collides with one
of that request's. -/
structure Distinguished (X : Externals) (request₀ : PackageApplicationRequest)
    (source₀ : ReplaySource request₀.body) (nonce : AttemptNonce)
    (P : (request : PackageApplicationRequest) → ReplaySource request.body → Prop) : Prop where
  sized : ∀ request source, P request source → request.Sized
  plan : ∀ request source, P request source →
    request.plan.operation.identity = request₀.plan.operation.identity → request.plan = request₀.plan
  image : ∀ request source, P request source → ∀ archive archive₀, source.archive = some archive →
    source₀.archive = some archive₀ → archive.image.identity = archive₀.image.identity →
      archive.image = archive₀.image
  free : ∀ request source, P request source →
    X.CollisionFree (request.preimages X nonce) (request₀.preimages X nonce)

section Whose

variable {X : Externals} {request request₀ : PackageApplicationRequest}
  {state state₀ : LeaseBoundStateProjection} {lease lease₀ : MutationLease}
  {backend backend₀ : BackendReport} {source : ReplaySource request.body}
  {source₀ : ReplaySource request₀.body} {nonce : AttemptNonce}
  {P : (request : PackageApplicationRequest) → ReplaySource request.body → Prop}

/-- Admissible requests of one plan and kind bring the same image. -/
private theorem image_eq (h : Admissible X request state lease backend source)
    (h₀ : Admissible X request₀ state₀ lease₀ backend₀ source₀)
    (hkind : request.body.kind = request₀.body.kind) (hplan : request.plan = request₀.plan)
    (himage : ∀ archive archive₀, source.archive = some archive → source₀.archive = some archive₀ →
      archive.image.identity = archive₀.image.identity → archive.image = archive₀.image) :
    source.archive.map InspectedPackageImage.image =
      source₀.archive.map InspectedPackageImage.image := by
  have hgiven := source.given
  have hgiven₀ := source₀.given
  have hincoming : request.body.incoming.isSome = request₀.body.incoming.isSome := by
    rw [Bool.eq_iff_iff, RequestBody.incoming_iff, RequestBody.incoming_iff, hkind]
  cases harchive : source.archive with
  | none =>
    cases harchive₀ : source₀.archive with
    | none => rfl
    | some archive₀ =>
      rw [harchive, hincoming, ← hgiven₀, harchive₀] at hgiven
      cases hgiven
  | some archive =>
    cases harchive₀ : source₀.archive with
    | none =>
      rw [harchive, hincoming, ← hgiven₀, harchive₀] at hgiven
      cases hgiven
    | some archive₀ =>
      rw [harchive] at hgiven
      rw [harchive₀] at hgiven₀
      obtain ⟨incoming, hsome⟩ := Option.isSome_iff_exists.mp hgiven.symm
      obtain ⟨incoming₀, hsome₀⟩ := Option.isSome_iff_exists.mp hgiven₀.symm
      have hpre := (h.archive incoming archive hsome harchive).precondition
      have hpre₀ := (h₀.archive incoming₀ archive₀ hsome₀ harchive₀).precondition
      rw [hplan, hpre₀] at hpre
      simp only [Option.some.injEq, IncomingArchivePrecondition.mk.injEq] at hpre
      rw [Option.map_some, Option.map_some, himage archive archive₀ harchive harchive₀ hpre.2.1.symm]

/-- A distinguished request that a journal of the one request is reopened for is
bound to the same authorities, and is the same to the engine. -/
theorem Distinguished.same (hP : Distinguished X request₀ source₀ nonce P)
    (hsource : P request source) (h : Admissible X request state lease backend source)
    (h₀ : Admissible X request₀ state₀ lease₀ backend₀ source₀) (h₀sized : request₀.Sized)
    (hidentity : request.identity X = request₀.identity X)
    (htarget : request.target.identity X = request₀.target.identity X)
    (hbackend : request.target.mutationBackend = request₀.target.mutationBackend) :
    request.bound = request₀.bound ∧ h.engineRequest = h₀.engineRequest := by
  have hattempt : request.attempt X nonce = request₀.attempt X nonce := by
    unfold PackageApplicationRequest.attempt
    rw [hidentity, htarget, hbackend]
  have hbound := (PackageApplicationRequest.bound_eq (hP.sized request source hsource) h₀sized
    (hP.free request source hsource) (congrArg (identifyAttempt X) hattempt)).2
  refine ⟨hbound, ?_⟩
  have hkind : request.body.kind = request₀.body.kind :=
    congrArg PackageApplicationRequest.Bound.kind hbound
  have hcontrol : request.control = request₀.control :=
    congrArg PackageApplicationRequest.Bound.control hbound
  have hplan := hP.plan request source hsource (congrArg PackageApplicationRequest.Bound.plan hbound)
  have himage := image_eq h h₀ hkind hplan (hP.image request source hsource)
  unfold Admissible.engineRequest
  simp only [hidentity, htarget, hbackend, hplan, hcontrol, himage]

end Whose

/-! ## Runs -/

/-- What an application, and resumptions with any of the requests `P`, may leave
behind. -/
inductive Continued (X : Externals) (A : AdmittedApplication) (R : Mechanisms → Prop)
    (P : (request : PackageApplicationRequest) → ReplaySource request.body → Prop) :
    EngineState → Prop
  | start : Continued X A R P A.start
  | applied {m : Mechanisms} {s : EngineState} : R m →
    A.apply.Leaves (engineMachine m) A.start s → Continued X A R P s
  | resumed {m : Mechanisms} {request : PackageApplicationRequest}
    {source : ReplaySource request.body} {state : LeaseBoundStateProjection}
    {providers : Providers} {s s' : EngineState} : Continued X A R P s → R m → P request source →
    (resumeApplication X request state source providers).Leaves (engineMachine m) s s' →
    Continued X A R P s'

section Runs

variable {X : Externals} {A : AdmittedApplication} {R : Mechanisms → Prop}
  {request request₀ : PackageApplicationRequest} {state state₀ : LeaseBoundStateProjection}
  {lease₀ : MutationLease} {backend₀ : BackendReport} {source : ReplaySource request.body}
  {source₀ : ReplaySource request₀.body} {providers : Providers} {m : Mechanisms}
  {s s' : EngineState} {P : (request : PackageApplicationRequest) → ReplaySource request.body → Prop}

/-- A resumption whose history is reopened runs as the restart does. -/
theorem resumeApplication_eval {r : JournalRecord} {reopened : ReopenedApplication}
    (hsnapshot : s.history.snapshot = .ok r)
    (hreopen : reopenApplicationEngine X request state source providers s.history r =
      .ok reopened) :
    (resumeApplication X request state source providers).eval (engineMachine m) s =
      (runRestart reopened.request ⟨state, reopened.attempt.nonce⟩).eval (engineMachine m) s := by
  unfold resumeApplication
  change ((liftM s.history.snapshot : Engine JournalRecord) >>= _).eval (engineMachine m) s = _
  rw [hsnapshot]
  change ((liftM ((reopenApplicationEngine X request state source providers s.history r).mapError
    AdmissionFailure.exn) : Engine ReopenedApplication) >>= _).eval (engineMachine m) s = _
  rw [hreopen]
  rfl

/-- A resumption that is refused leaves everything as it was; one that is not
restarts the engine. -/
private theorem resumeApplication_leaves (hs : A.Left R s)
    (h : (resumeApplication X request state source providers).Leaves (engineMachine m) s s') :
    s' = s ∨ ∃ reopened, Reopens X request state source providers A.header reopened ∧
      (runRestart reopened.request ⟨state, reopened.attempt.nonce⟩).Leaves (engineMachine m) s s' := by
  have hsnapshot := hs.logged.appended.sound.snapshot_eq
  have hheader : s.history.header = A.header :=
    congrArg JournalDeclaration.header hs.logged.declares
  cases hreopen : reopenApplicationEngine X request state source providers s.history
      s.history.record with
  | error failure =>
    left
    refine Process.Ensures.leaves (I := fun s' => s' = s) ?_ h
    unfold resumeApplication
    refine ensures_history (ensures_ok hsnapshot (ensures_error (e := failure.exn) ?_ rfl))
    rw [hreopen]
    rfl
  | ok reopened =>
    right
    obtain ⟨transaction, hreopens⟩ := reopenApplicationEngine_eq_ok.mp hreopen
    refine ⟨reopened, hheader ▸ hreopens.reopens rfl, ?_⟩
    refine Process.Ensures.leaves (I := (runRestart reopened.request
      ⟨state, reopened.attempt.nonce⟩).Leaves (engineMachine m) s) ?_ h
    unfold resumeApplication
    refine ensures_history (ensures_ok hsnapshot (ensures_ok ?_ Process.ensures_leaves))
    rw [hreopen]
    rfl

/-- Whatever gets past the gate is the journal's own request. -/
private theorem Reopens.own {reopened : ReopenedApplication}
    (h₀ : Admissible X request₀ state₀ lease₀ backend₀ source₀)
    (hA : A.request = h₀.engineRequest) (h₀sized : request₀.Sized)
    (hP : Distinguished X request₀ source₀ A.nonce P) (hsource : P request source)
    (h : Reopens X request state source providers A.header reopened) :
    request.bound = request₀.bound ∧ reopened.request = A.request := by
  obtain ⟨hadmissible, hrequest⟩ := h.admissible
  have hfor := h.isFor
  rw [hrequest] at hfor
  have hidentity : request.identity X = request₀.identity X :=
    hfor.identity.symm.trans (congrArg ApplicationRequest.identity hA)
  have htarget : request.target.identity X = request₀.target.identity X :=
    hfor.target.symm.trans (congrArg ApplicationRequest.target hA)
  have hbackend : request.target.mutationBackend = request₀.target.mutationBackend :=
    hfor.backend.symm.trans (congrArg ApplicationRequest.mutationBackend hA)
  obtain ⟨hbound, hsame⟩ :=
    hP.same hsource hadmissible h₀ h₀sized hidentity htarget hbackend
  exact ⟨hbound, by rw [hrequest, hsame, hA]⟩

/-- **A journal is resumed by its own request alone.**  Let resumptions come
with any requests, leases, backends and transactions.  What they leave behind
is what applications and restarts of the one request may leave behind.  And a
resumption that changes anything came with a request of the same kind, plan,
incoming package, target context and execution control, under a held lease of
its target, and with a transaction of that lease and of the journal's nonce. -/
theorem resumed_by_own_request (h₀ : Admissible X request₀ state₀ lease₀ backend₀ source₀)
    (hA : A.request = h₀.engineRequest) (h₀sized : request₀.Sized)
    (hP : Distinguished X request₀ source₀ A.nonce P) :
    (∀ s, Continued X A R P s → A.Left R s) ∧
    ∀ s m (request : PackageApplicationRequest) source state providers s',
      Continued X A R P s → P request source →
        (resumeApplication X request state source providers).Leaves (engineMachine m) s s' →
          s' ≠ s → request.bound = request₀.bound ∧
            LeaseBinds X request.target state providers.leaseAfter ∧
              ∃ transaction, providers.transaction = some transaction ∧
                TransactionBinds X request.target providers.leaseAfter transaction ∧
                  transaction.attemptNonce = A.nonce := by
  have hleft : ∀ s, Continued X A R P s → A.Left R s := by
    intro s hs
    induction hs with
    | start => exact .start
    | applied hm hleaves => exact .applied hm hleaves
    | resumed _ hm hsource hleaves ih =>
      rcases resumeApplication_leaves ih hleaves with rfl | ⟨reopened, hreopens, hleaves⟩
      · exact ih
      · rw [(hreopens.own h₀ hA h₀sized hP hsource).2] at hleaves
        exact .resumed ih hm hleaves
  refine ⟨hleft, fun s m request source state providers s' hs hsource hleaves hne => ?_⟩
  rcases resumeApplication_leaves (hleft s hs) hleaves with rfl | ⟨reopened, hreopens, -⟩
  · exact absurd rfl hne
  · exact ⟨(hreopens.own h₀ hA h₀sized hP hsource).1, hreopens.lease, hreopens.transaction⟩

end Runs

/-! ## A removal that is resumed -/

section Directory

open AdmittedApplication

theorem identities_directory :
    directoryRequest.identity .reference =
      ⟨0xc56730d9f57e5597e53a0da97d31ddb22a7739360197479d24e715924471db47⟩ ∧
    identifyAttempt .reference (directoryRequest.attempt .reference 8) =
      ⟨0xd1607623c91741457de59ca853a4bf877872ae5e47d997ac749dc96648815745⟩ := by
  obtain ⟨htarget, hcontrol, -⟩ := identities_package []
  have hrequest : directoryRequest.identity .reference =
      ⟨0xc56730d9f57e5597e53a0da97d31ddb22a7739360197479d24e715924471db47⟩ := by
    rw [PackageApplicationRequest.identity, PackageApplicationRequest.record]
    simp only [directoryRequest, htarget, hcontrol]
    decide +kernel
  refine ⟨hrequest, ?_⟩
  rw [PackageApplicationRequest.attempt, hrequest]
  simp only [directoryRequest, htarget]
  decide +kernel

private theorem checked_directory : PreconditionCheck.make removalPlan.preconditions
    removalObservations = .ok ⟨removalObservations, []⟩ := rfl

private theorem satisfied_directory :
    (⟨removalObservations, []⟩ : PreconditionCheck).satisfied = true := rfl

/-- The application of the removal, under the identities of its authorities. -/
def directoryApplication : AdmittedApplication where
  request :=
    { removalRequest .none .visibilityOnly with
      identity := ⟨0xc56730d9f57e5597e53a0da97d31ddb22a7739360197479d24e715924471db47⟩
      control := ⟨⟨0x874f69d14fb104c0fba85c9a096d518530493d795da9a0d4afad5f63b9279b7d⟩, .none,
        .visibilityOnly, .recoverAfterTargetMutation, CancellationPolicy.recovers_exact .none⟩
      target := ⟨0xf13e7f265ac8e178273388501ced369e3c2b3fff51065fa8119ef4887d6aa431⟩
      mutationBackend := ⟨23⟩ }
  nonce := 8
  observations := removalObservations
  inputs := (removal .none .visibilityOnly).inputs
  projection := directoryProjection
  check := ⟨removalObservations, []⟩
  prepared := rfl
  checked := checked_directory
  satisfied := satisfied_directory

private theorem request_directoryApplication :
    directoryApplication.request = admissible_directory.engineRequest := by
  obtain ⟨htarget, hcontrol, -⟩ := identities_package []
  unfold Admissible.engineRequest
  simp only [identities_directory.1]
  simp only [directoryRequest, ControlRecord.control, htarget, hcontrol]
  rfl

private theorem package_given : (some (packageAuthority []).image).isSome =
    (packageRequest []).body.incoming.isSome := rfl

def packageSource : ReplaySource (packageRequest []).body :=
  ⟨some (packageAuthority []).image, package_given⟩

/-- The removal or the installation, each with what it is replayed from. -/
def DirectoryOrPackage (request : PackageApplicationRequest) (source : ReplaySource request.body) :
    Prop :=
  (⟨request, source⟩ : (request : PackageApplicationRequest) × ReplaySource request.body) =
      ⟨directoryRequest, directorySource⟩ ∨
    (⟨request, source⟩ : (request : PackageApplicationRequest) × ReplaySource request.body) =
      ⟨packageRequest [], packageSource⟩

private theorem sized_directoryRequest : directoryRequest.Sized where
  target := (sized_packageRequest []).target
  incoming := by
    intro incoming h
    cases h

/-- The records of the two requests that are not common to both have distinct
digests. -/
private theorem collisionFree_directory {request : PackageApplicationRequest}
    (h : request = directoryRequest ∨ request = packageRequest []) :
    Externals.reference.CollisionFree (request.preimages .reference 8)
      (directoryRequest.preimages .reference 8) := by
  let records := directoryRequest.preimages .reference 8 ++
    [(attemptRecord ((packageRequest []).attempt .reference 8)).bytes,
      ((packageRequest []).record .reference).bytes, (packageAuthority []).record.bytes]
  have hdigests : records.map Externals.reference.sha256 =
      [(identifyAttempt .reference (directoryRequest.attempt .reference 8)).digest,
        (directoryRequest.identity .reference).digest, (packageTarget.identity .reference).digest,
        (packageControl.identity .reference).digest,
        (identifyAttempt .reference ((packageRequest []).attempt .reference 8)).digest,
        ((packageRequest []).identity .reference).digest,
        (packageAuthority []).identity .reference] := by
    simp only [records, PackageApplicationRequest.preimages, directoryRequest, packageRequest,
      RequestBody.incoming, Option.toList_none, List.map_append, List.map_cons, List.map_nil]
    rfl
  have hfree : Externals.reference.CollisionFree records records := by
    apply Externals.collisionFree_self
    obtain ⟨htarget, hcontrol, hincoming, hrequest, hattempt⟩ := identities_package []
    obtain ⟨hdirectory, hdirectoryAttempt⟩ := identities_directory
    rw [hdigests, htarget, hcontrol, hincoming, hrequest, hattempt, hdirectory, hdirectoryAttempt]
    decide
  have hmem : ∀ x ∈ request.preimages .reference 8, x ∈ records := by
    intro x hx
    rcases h with rfl | rfl
    · exact List.mem_append_left _ hx
    · simp only [PackageApplicationRequest.preimages, packageRequest, RequestBody.incoming,
        Option.toList_some, List.map_cons, List.map_nil, List.mem_cons, List.not_mem_nil,
        or_false] at hx
      rw [List.mem_append]
      rcases hx with hx | hx | hx | hx | hx
      · exact .inr (by rw [hx]; exact List.mem_cons_self)
      · exact .inr (by rw [hx]; exact List.mem_cons_of_mem _ List.mem_cons_self)
      · left
        rw [hx]
        exact List.mem_cons_of_mem _ (List.mem_cons_of_mem _ List.mem_cons_self)
      · left
        rw [hx]
        exact List.mem_cons_of_mem _ (List.mem_cons_of_mem _ (List.mem_cons_of_mem _
          List.mem_cons_self))
      · right
        rw [hx]
        exact List.mem_cons_of_mem _ (List.mem_cons_of_mem _ List.mem_cons_self)
  exact fun x hx y hy => hfree x (hmem x hx) y (List.mem_append_left _ hy)

private theorem distinguished_directory :
    Distinguished .reference directoryRequest directorySource directoryApplication.nonce
      DirectoryOrPackage where
  sized := by
    rintro request source (h | h)
    · cases h
      exact sized_directoryRequest
    · cases h
      exact sized_packageRequest []
  plan := by
    rintro request source (h | h) hidentity
    · cases h
      rfl
    · cases h
      exact absurd hidentity (by decide)
  image := by
    intro request source _ archive archive₀ _ harchive₀
    cases harchive₀
  free := by
    rintro request source (h | h)
    · cases h
      exact collisionFree_directory (.inl rfl)
    · cases h
      exact collisionFree_directory (.inr rfl)

/-- The removal cut once the directory is gone: its journal can be resumed, and
a restart completes it. -/
private theorem directory_cut : ∃ s,
    directoryApplication.apply.Leaves
      (engineMachine (removalMechanisms .completed .completed .confirmed))
      directoryApplication.start s ∧
    s.history.state = .mutating ∧ (assessRestart s.history.record).resumable = true ∧
    (∃ view, buildView s.history directoryApplication.request = .ok view) ∧
    ((runRestart directoryApplication.request ⟨directoryProjection, 8⟩).eval
      (engineMachine (removalMechanisms .completed .completed .confirmed)) s).2.history.state =
        .applicationCompleted := by
  have hcut : ∃ s, (directoryApplication.apply.cuts
      (engineMachine (removalMechanisms .completed .completed .confirmed))
      directoryApplication.start)[9]? = some s ∧
      s.history.state = .mutating ∧ (assessRestart s.history.record).resumable = true ∧
      (buildView s.history directoryApplication.request).toOption.isSome = true ∧
      ((runRestart directoryApplication.request ⟨directoryProjection, 8⟩).eval
        (engineMachine (removalMechanisms .completed .completed .confirmed)) s).2.history.state =
          .applicationCompleted := by
    refine ⟨_, rfl, ?_⟩
    decide +kernel
  obtain ⟨s, hs, hstate, hresumable, hview, hcompleted⟩ := hcut
  refine ⟨s, .inl (List.mem_of_getElem? hs), hstate, hresumable, ?_, hcompleted⟩
  cases hbuild : buildView s.history directoryApplication.request with
  | error e =>
    rw [hbuild] at hview
    cases hview
  | ok view => exact ⟨view, rfl⟩

/-- The interrupted removal is completed by its own request; the installation,
whatever lease, backend and transaction it comes with, leaves it as it is. -/
theorem resumed_by_own_request_directory :
    ∃ s s', Continued .reference directoryApplication (fun _ => True) DirectoryOrPackage s ∧
      s.history.state = .mutating ∧
      (resumeApplication .reference directoryRequest directoryProjection directorySource
        directoryProviders).Leaves
          (engineMachine (removalMechanisms .completed .completed .confirmed)) s s' ∧
      s'.history.state = .applicationCompleted ∧ directoryApplication.Left (fun _ => True) s' ∧
      LeaseBinds .reference directoryRequest.target directoryProjection
        directoryProviders.leaseAfter ∧
      ∀ m state providers s'', (resumeApplication .reference (packageRequest []) state packageSource
        providers).Leaves (engineMachine m) s s'' → s'' = s := by
  have hresumed := resumed_by_own_request (R := fun _ => True) admissible_directory
    request_directoryApplication sized_directoryRequest distinguished_directory
  obtain ⟨s, hleaves, hstate, hresumable, ⟨view, hview⟩, hcompleted⟩ := directory_cut
  have hcontinued : Continued .reference directoryApplication (fun _ => True) DirectoryOrPackage s :=
    .applied trivial hleaves
  have hlogged := (hresumed.1 s hcontinued).logged
  have hheader : s.history.header = directoryApplication.header :=
    congrArg JournalDeclaration.header hlogged.declares
  obtain ⟨hrequest, -⟩ := identities_directory
  obtain ⟨htarget, hcontrol, -⟩ := identities_package []
  have hown : directoryRequest.attempt .reference 8 = s.history.header.attempt := by
    rw [hheader, PackageApplicationRequest.attempt, hrequest]
    simp only [directoryRequest, htarget]
    rfl
  have hbinds : JournalBinds .reference directoryRequest s.history.record := by
    have hrecord : s.history.record.header = directoryApplication.header := hheader
    refine ⟨hresumable, ?_, ?_, ?_, ?_, ?_, ?_⟩ <;> rw [hrecord]
    · rfl
    · rfl
    · exact htarget.symm
    · exact hcontrol.symm
    · rfl
    · exact hrequest.symm
  have hbegun := begun_directory
  have hreopens : ReopensAs .reference directoryRequest directoryProjection directorySource
      directoryProviders s.history s.history.record directoryTransaction
      ⟨directoryApplication.request, s.history.header.attempt, assessRestart s.history.record,
        view⟩ :=
    ⟨⟨admissible_directory, request_directoryApplication⟩, hbinds, hbegun.begun, hbegun.backend,
      hbegun.transaction, hbegun.lease, hown, rfl, rfl, hview⟩
  have heval := resumeApplication_eval
    (m := removalMechanisms .completed .completed .confirmed) hlogged.appended.sound.snapshot_eq
    (reopenApplicationEngine_eq_ok.mpr ⟨directoryTransaction, hreopens⟩)
  have hown' : (resumeApplication .reference directoryRequest directoryProjection directorySource
      directoryProviders).Leaves
        (engineMachine (removalMechanisms .completed .completed .confirmed)) s
        ((runRestart directoryApplication.request ⟨directoryProjection, 8⟩).eval
          (engineMachine (removalMechanisms .completed .completed .confirmed)) s).2 := by
    right
    rw [heval]
    simp only [← hown]
    rfl
  have hchanged : ((runRestart directoryApplication.request ⟨directoryProjection, 8⟩).eval
      (engineMachine (removalMechanisms .completed .completed .confirmed)) s).2 ≠ s := by
    intro h
    rw [h, hstate] at hcompleted
    cases hcompleted
  have hdirectory := hresumed.2 s _ directoryRequest directorySource directoryProjection
    directoryProviders _ hcontinued (.inl rfl) hown' hchanged
  refine ⟨s, _, hcontinued, hstate, hown', hcompleted,
    hresumed.1 _ (.resumed hcontinued trivial (.inl rfl) hown'), hdirectory.2.1, ?_⟩
  intro m state providers s'' hforeign
  by_contra hne
  have hbound := (hresumed.2 s m (packageRequest []) packageSource state providers s'' hcontinued
    (.inr rfl) hforeign hne).1
  have hkind := congrArg PackageApplicationRequest.Bound.kind hbound
  cases hkind

end Directory

end PkgApply.Admission
