import PkgApply.Engine.Rehydration
import PkgApply.Restart.Resumability
import PkgApply.Restart.Sealing

/-!
# One receipt per attempt

An application and any number of restarts over one journal, each returning,
throwing or stopped anywhere, retain and return at most one receipt between
them.  What is returned the store had committed before, and a restart that
finds a receipt is refused once it has loaded the journal.
-/

namespace PkgApply

open Library

/-! ## What a store has acknowledged -/

section Recorded

variable {d : JournalDeclaration} {c : Collaborators} {w w' : World} {step : JournalStep}

/-- The store holds exactly the steps of a journal that it has acknowledged. -/
def Recorded (d : JournalDeclaration) (w : World) : Prop :=
  ∀ step, (step.declaration = d ∧ Published w.trace step) ↔
    ∃ j i, w.journals d = some j ∧ j.steps i = some step

/-- Only the publication of a step acknowledges a step. -/
theorem published_append {trace : List OutsideCall} {call : OutsideCall} :
    Published (trace ++ [call]) step ↔ Published trace step ∨ call = ⟨.store (.publishStep step), step⟩
      := by
  unfold Published
  rw [List.mem_append, List.mem_singleton]
  exact or_congr_right eq_comm

/-- A call that publishes no step and leaves the stored steps alone. -/
theorem Recorded.same (h : Recorded d w) {call : OutsideCall}
    {journals : JournalDeclaration → Option StoredJournal}
    (hcall : ∀ step, call ≠ ⟨.store (.publishStep step), step⟩)
    (hjournals : ∀ step, (∃ j i, journals d = some j ∧ j.steps i = some step) ↔
      ∃ j i, w.journals d = some j ∧ j.steps i = some step) :
    Recorded d ⟨journals, w.trace ++ [call]⟩ := by
  intro step
  rw [hjournals, ← h step, published_append]
  simp [hcall step]

/-- A new journal holds no step. -/
theorem stored_update_empty {journals : JournalDeclaration → Option StoredJournal}
    {d' : JournalDeclaration} (hnone : journals d' = none) :
    (∃ j i, Function.update journals d' (some ⟨none, fun _ => none⟩) d = some j ∧
      j.steps i = some step) ↔ ∃ j i, journals d = some j ∧ j.steps i = some step := by
  by_cases hd : d = d'
  · subst hd
    simp [hnone]
  · rw [Function.update_of_ne hd]

/-- A new cursor leaves the steps alone. -/
theorem stored_update_cursor {journals : JournalDeclaration → Option StoredJournal}
    {d' : JournalDeclaration} {j : StoredJournal} (hj : journals d' = some j)
    {cursor : Option JournalCursor} :
    (∃ j' i, Function.update journals d' (some ⟨cursor, j.steps⟩) d = some j' ∧
      j'.steps i = some step) ↔ ∃ j' i, journals d = some j' ∧ j'.steps i = some step := by
  by_cases hd : d = d'
  · subst hd
    simp [hj]
  · rw [Function.update_of_ne hd]

/-- A published step is added to those of its journal. -/
theorem Recorded.published (h : Recorded d w) {new : JournalStep} {j : StoredJournal}
    (hj : w.journals new.declaration = some j)
    (hfree : (j.steps new.sequence).any (· != new) = false) :
    Recorded d ⟨Function.update w.journals new.declaration
      (some ⟨j.cursor, Function.update j.steps new.sequence (some new)⟩),
        w.trace ++ [⟨.store (.publishStep new), new⟩]⟩ := by
  intro step
  rw [published_append]
  by_cases hd : d = new.declaration
  · subst hd
    constructor
    · rintro ⟨hdeclared, hpublished | hcall⟩
      · obtain ⟨j', i, hj', hi⟩ := (h step).mp ⟨hdeclared, hpublished⟩
        obtain rfl : j = j' := Option.some.inj (hj.symm.trans hj')
        refine ⟨_, i, Function.update_self _ _ _, ?_⟩
        by_cases hi' : i = new.sequence
        · -- the store refuses a step that differs from the one it holds there
          subst hi'
          rw [hi] at hfree
          obtain rfl : step = new := by simpa using hfree
          exact Function.update_self _ _ _
        · exact (Function.update_of_ne hi' _ _).trans hi
      · cases hcall
        exact ⟨_, new.sequence, Function.update_self _ _ _, Function.update_self _ _ _⟩
    · rintro ⟨j', i, hj', hi⟩
      obtain rfl := Option.some.inj ((Function.update_self new.declaration _ _).symm.trans hj')
      by_cases hi' : i = new.sequence
      · subst hi'
        dsimp only at hi
        rw [Function.update_self] at hi
        cases hi
        exact ⟨rfl, .inr rfl⟩
      · dsimp only at hi
        rw [Function.update_of_ne hi'] at hi
        obtain ⟨hdeclared, hpublished⟩ := (h step).mpr ⟨j, i, hj, hi⟩
        exact ⟨hdeclared, .inl hpublished⟩
  · dsimp only
    rw [Function.update_of_ne hd, ← h step]
    constructor
    · rintro ⟨hdeclared, hpublished | hcall⟩
      · exact ⟨hdeclared, hpublished⟩
      · cases hcall
        exact absurd hdeclared.symm hd
    · exact fun ⟨hdeclared, hpublished⟩ => ⟨hdeclared, .inl hpublished⟩

/-- Every call keeps what is stored and what is acknowledged together. -/
theorem Recorded.perform (h : Recorded d w) {op : OutsideOp} {r : outsideSignature.Response op}
    (hop : (worldMachine c).perform op w = .ok (r, w')) : Recorded d w' := by
  cases op with
  | mechanism request =>
    cases hop
    exact h.same (fun _ => by rintro ⟨⟩) fun _ => Iff.rfl
  | store op =>
    simp only [worldMachine] at hop
    split at hop
    · cases hop
    · split at hop
      · rename_i response journals hstore
        cases hop
        cases op with
        | publishDeclaration d' =>
          cases hj : w.journals d' with
          | some j =>
            simp only [storePerform, hj, Except.ok.injEq] at hstore
            obtain ⟨rfl, rfl⟩ := hstore
            exact h.same (fun _ => by rintro ⟨⟩) fun _ => Iff.rfl
          | none =>
            simp only [storePerform, hj, Except.ok.injEq] at hstore
            obtain ⟨rfl, rfl⟩ := hstore
            exact h.same (fun _ => by rintro ⟨⟩) fun _ => stored_update_empty hj
        | publishStep new =>
          simp only [storePerform] at hstore
          split at hstore
          · cases hstore
          · rename_i j hj
            split at hstore
            · cases hstore
            · rename_i hfree
              cases hstore
              exact h.published hj (by simpa using hfree)
        | compareAndPublishCursor expected next =>
          simp only [storePerform] at hstore
          split at hstore
          · cases hstore
          · rename_i j hj
            split at hstore
            · cases hstore
              exact h.same (fun _ => by rintro ⟨⟩) fun _ => stored_update_cursor hj
            · cases hstore
        | loadDeclaration d' =>
          cases hstore
          exact h.same (fun _ => by rintro ⟨⟩) fun _ => Iff.rfl
        | loadCursor d' =>
          cases hstore
          exact h.same (fun _ => by rintro ⟨⟩) fun _ => Iff.rfl
        | loadStep d' sequence =>
          cases hstore
          exact h.same (fun _ => by rintro ⟨⟩) fun _ => Iff.rfl
      · cases hop

end Recorded

/-- Over a run, what the store holds of the journal is what it has acknowledged. -/
theorem Run.recorded {A : AdmittedApplication} {w : World} (hw : Run A w) :
    Recorded A.declaration w := by
  induction hw with
  | @applied c w journals hfresh hleaves =>
    refine Process.Ensures.leaves (Process.ensures_invariant
      (fun op s s' r hs hop => Recorded.perform hs hop) _ ?_) hleaves
    intro step
    simp [hfresh, Published]
  | resumed _ hleaves ih =>
    exact Process.Ensures.leaves (Process.ensures_invariant
      (fun op s s' r hs hop => Recorded.perform hs hop) _ ih) hleaves

/-! ## Receipts of a journal -/

namespace JournalHistory

variable {h : JournalHistory} {step : JournalStep} {r : ApplicationReceipt}

/-- A receipt of any step is the receipt of the history. -/
theorem Appended.receipt_of_mem (hr : Appended h) (hmem : step ∈ h.steps)
    (hreceipt : step.receipt = some r) : h.receipt = some r := by
  induction hr with
  | initial d => cases hmem
  | @append h h' new hr happend ih =>
    obtain ⟨hadmits, rfl⟩ := append_eq_ok_iff.mp happend
    rcases List.mem_append.mp hmem with hold | hnew
    · have hkept := ih hold
      exact (hadmits.receipt (Option.isSome_of_eq_some hkept)).trans hkept
    · rw [List.mem_singleton.mp hnew] at hreceipt
      exact hreceipt

/-- The receipt of a history is that of one of its steps. -/
theorem Appended.exists_receipt (hr : Appended h) (hreceipt : h.receipt = some r) :
    ∃ step ∈ h.steps, step.receipt = some r := by
  cases hr with
  | initial d => cases hreceipt
  | @append h h' new hr happend =>
    obtain ⟨-, rfl⟩ := append_eq_ok_iff.mp happend
    exact ⟨new, List.mem_append_right _ List.mem_cons_self, hreceipt⟩

end JournalHistory

namespace World

/-- The store has acknowledged a step of the journal that names a receipt. -/
def Retains (A : AdmittedApplication) (w : World) (r : ApplicationReceipt) : Prop :=
  ∃ step : JournalStep, step.declaration = A.declaration ∧ Published w.trace step ∧
    step.receipt = some r

/-- The receipt of the committed cursor. -/
def receipt (A : AdmittedApplication) (w : World) : Option ApplicationReceipt :=
  (w.journals A.declaration).bind fun j => j.cursor.bind JournalCursor.receipt

/-- What is acknowledged stays acknowledged. -/
theorem Retains.mono {A : AdmittedApplication} {w w' : World} {r : ApplicationReceipt}
    (h : w.Retains A r) (htrace : w.trace <+: w'.trace) : w'.Retains A r := by
  obtain ⟨step, hdeclared, hpublished, hreceipt⟩ := h
  exact ⟨step, hdeclared, htrace.subset hpublished, hreceipt⟩

end World

section Retained

variable {A : AdmittedApplication} {w : World} {r : ApplicationReceipt} {s : EngineState}

/-- The journal a world holds has every receipt the world retains. -/
theorem Holds.receipt_of_retains (hholds : Holds A s w) (hrecorded : Recorded A.declaration w)
    (hretains : w.Retains A r) : s.history.receipt = some r := by
  obtain ⟨history, log⟩ := s
  obtain ⟨step, hdeclared, hpublished, hreceipt⟩ := hretains
  obtain ⟨j, i, hj, hi⟩ := (hrecorded step).mp ⟨hdeclared, hpublished⟩
  obtain ⟨pending, j', hj', hstored, -, happended, -⟩ := hholds
  obtain rfl : j' = j := Option.some.inj (hj'.symm.trans hj)
  cases hstored with
  | declared d => cases hi
  | settled => exact happended.receipt_of_mem (List.mem_of_getElem? hi) hreceipt
  | pending => exact happended.receipt_of_mem (List.mem_of_getElem? hi) hreceipt

/-- A world that retains a receipt holds a journal of a run. -/
theorem Run.holds_of_retains (hw : Run A w) (hretains : w.Retains A r) :
    ∃ s, A.Left (fun _ => True) s ∧ Holds A s w := by
  rcases hw.refines with ⟨hnone, -⟩ | hholds
  · obtain ⟨step, hdeclared, hpublished, -⟩ := hretains
    obtain ⟨j, i, hj, -⟩ := (hw.recorded step).mp ⟨hdeclared, hpublished⟩
    rw [hnone] at hj
    cases hj
  · exact hholds

/-- One receipt at most is ever retained. -/
theorem Run.retains_unique (hw : Run A w) {r' : ApplicationReceipt} (h : w.Retains A r)
    (h' : w.Retains A r') : r = r' := by
  obtain ⟨s, -, hholds⟩ := hw.holds_of_retains h
  have hr := hholds.receipt_of_retains hw.recorded h
  have hr' := hholds.receipt_of_retains hw.recorded h'
  exact Option.some.inj (hr.symm.trans hr')

/-- A committed history with a receipt is a world that retains it. -/
theorem Between.retains {h : JournalHistory} (hw : Run A w) (hb : Between A s h w)
    (hr : s.history.receipt = some r) : w.Retains A r ∧ w.receipt A = some r := by
  obtain ⟨rfl, hjournal, -, happended, -⟩ := hb
  obtain ⟨step, hmem, hreceipt⟩ := happended.exists_receipt hr
  obtain ⟨i, hi⟩ := List.mem_iff_getElem?.mp hmem
  obtain ⟨hdeclared, hpublished⟩ := (hw.recorded step).mpr ⟨_, i, hjournal, hi⟩
  refine ⟨⟨step, hdeclared, hpublished, hreceipt⟩, ?_⟩
  unfold World.receipt
  rw [hjournal]
  exact hr

end Retained

/-! ## Attempts -/

/-- How a process ends for its caller: with a receipt, or without one when it
throws or is stopped. -/
inductive Ends (p : Outside ApplicationReceipt) (c : Collaborators) (w : World) :
    Option ApplicationReceipt → World → Prop
  | returned {r : ApplicationReceipt} {w' : World} :
    p.eval (worldMachine c) w = (.ok r, w') → Ends p c w (some r) w'
  | thrown {e : Exn} {w' : World} :
    p.eval (worldMachine c) w = (.error e, w') → Ends p c w none w'
  | stopped {w' : World} : w' ∈ p.cuts (worldMachine c) w → Ends p c w none w'

/-- One process of a run: the world before it, what it returned, if it did, and
the world after it. -/
structure Attempt where
  before : World
  returned : Option ApplicationReceipt
  after : World

/-- An application and any number of restarts over one journal. -/
inductive Attempts (A : AdmittedApplication) : List Attempt → World → Prop
  | applied {c : Collaborators} {journals : JournalDeclaration → Option StoredJournal}
    {returned : Option ApplicationReceipt} {w : World} : journals A.declaration = none →
    Ends (applyProcess A) c ⟨journals, []⟩ returned w →
    Attempts A [⟨⟨journals, []⟩, returned, w⟩] w
  | resumed {c : Collaborators} {session : RestartSession} {attempts : List Attempt}
    {returned : Option ApplicationReceipt} {w w' : World} : Attempts A attempts w →
    Ends (resumeProcess A session) c w returned w' →
    Attempts A (attempts ++ [⟨w, returned, w'⟩]) w'

section Attempts

variable {A : AdmittedApplication} {c : Collaborators} {p : Outside ApplicationReceipt}
  {attempts : List Attempt} {attempt : Attempt} {w w' : World} {r : ApplicationReceipt}
  {answer : Option ApplicationReceipt} {s : EngineState} {h : JournalHistory}

theorem Ends.leaves (hends : Ends p c w answer w') : p.Leaves (worldMachine c) w w' := by
  cases hends with
  | returned heval => exact .inr (by rw [heval])
  | thrown heval => exact .inr (by rw [heval])
  | stopped hcut => exact .inl hcut

/-- A process that is not stopped ends as it evaluates. -/
theorem ends_eval (p : Outside ApplicationReceipt) (c : Collaborators) (w : World) :
    Ends p c w (p.eval (worldMachine c) w).1.toOption (p.eval (worldMachine c) w).2 := by
  cases hrun : p.eval (worldMachine c) w with
  | mk result w' =>
    cases result with
    | ok r => exact .returned hrun
    | error e => exact .thrown hrun

theorem Attempts.run (hs : Attempts A attempts w) : Run A w := by
  induction hs with
  | applied hfresh hends => exact .applied hfresh hends.leaves
  | resumed _ hends ih => exact .resumed ih hends.leaves

theorem worldMachine_logs (c : Collaborators) : Process.Logs (worldMachine c) World.trace := by
  intro op w r w' hop
  cases op with
  | mechanism request =>
    cases hop
    rfl
  | store op =>
    simp only [worldMachine] at hop
    split at hop
    · cases hop
    · split at hop
      · cases hop
        rfl
      · cases hop

/-- The trace of a run grows with every attempt. -/
theorem Attempts.trace_prefix (hs : Attempts A attempts w) (hmem : attempt ∈ attempts) :
    attempt.after.trace <+: w.trace := by
  induction hs with
  | applied =>
    rw [List.mem_singleton.mp hmem]
  | resumed _ hends ih =>
    rcases List.mem_append.mp hmem with hold | hnew
    · obtain ⟨calls, hcalls, -⟩ := hends.leaves.made (worldMachine_logs _)
      rw [hcalls]
      exact (ih hold).trans (List.prefix_append _ _)
    · rw [List.mem_singleton.mp hnew]

/-! ### What is returned -/

/-- An engine process that seals its answers returns what the world retains. -/
theorem outside_returns {p : Engine ApplicationReceipt} (hp : Seals some p)
    (hb : Between A s h w) :
    (outside p h >>= fun x => pure x.1).Ensures (worldMachine c) w
      (fun r w' => ∃ s' h', Between A s' h' w' ∧ s'.history.receipt = some r) (fun _ _ => True)
      fun _ => True := by
  refine Process.Ensures.bind ((Process.implement_ensures (simulates A c) p hb).mono
    (fun _ _ hx => hx) (fun _ _ _ => trivial) fun _ _ => trivial) ?_
  rintro ⟨r, h'⟩ w' ⟨s', heval, hb'⟩
  exact Process.ensures_pure.mpr ⟨s', h', hb', (hp c.mechanisms s).returned r s' heval r rfl⟩

theorem applyProcess_returns (hfresh : w.journals A.declaration = none) (htrace : w.trace = []) :
    (applyProcess A).Ensures (worldMachine c) w
      (fun r w' => ∃ s' h', Between A s' h' w' ∧ s'.history.receipt = some r) (fun _ _ => True)
      fun _ => True := by
  refine Process.Ensures.bind ((publishInitialJournal_ensures hfresh htrace).mono
    (fun _ _ hx => hx) (fun _ _ _ => trivial) fun _ _ => trivial) fun h w' hb => ?_
  exact outside_returns seals_runApplication hb

theorem resumeProcess_returns (hw : Run A w) (session : RestartSession) :
    (resumeProcess A session).Ensures (worldMachine c) w
      (fun r w' => ∃ s' h', Between A s' h' w' ∧ s'.history.receipt = some r) (fun _ _ => True)
      fun _ => True := by
  rcases hw.refines with ⟨hnone, htrace⟩ | ⟨s, hleft, hholds⟩
  · refine Process.Ensures.bind (Q := fun _ _ => False) ((load_undeclared hnone htrace).mono
      (fun _ _ hx => hx) (fun _ _ _ => trivial) fun _ _ => trivial) ?_
    exact fun _ _ hx => hx.elim
  · refine Process.Ensures.bind ((load_ensures hholds).mono (fun _ _ hx => hx)
      (fun _ _ _ => trivial) fun _ _ => trivial) fun h w' hb => ?_
    exact outside_returns (seals_runRestart session) hb

/-- A returned receipt is retained, and committed. -/
theorem Attempts.returned_retains (hs : Attempts A attempts w) (hmem : attempt ∈ attempts)
    (hr : attempt.returned = some r) :
    attempt.after.Retains A r ∧ attempt.after.receipt A = some r := by
  induction hs with
  | @applied c journals returned w hfresh hends =>
    obtain rfl := List.mem_singleton.mp hmem
    have hw : Run A w := .applied hfresh hends.leaves
    obtain rfl : returned = some r := hr
    cases hends with
    | returned heval =>
      obtain ⟨s', h', hb, hreceipt⟩ := (applyProcess_returns hfresh rfl).returned _ _ heval
      exact hb.retains hw hreceipt
  | @resumed c session attempts returned w w' hs hends ih =>
    rcases List.mem_append.mp hmem with hold | hnew
    · exact ih hold
    · obtain rfl := List.mem_singleton.mp hnew
      have hw' : Run A w' := .resumed hs.run hends.leaves
      obtain rfl : returned = some r := hr
      cases hends with
      | returned heval =>
        obtain ⟨s', h', hb, hreceipt⟩ :=
          (resumeProcess_returns hs.run session).returned _ _ heval
        exact hb.retains hw' hreceipt

/-! ### What is refused -/

/-- Calls that neither reach the backend nor publish a step. -/
def OutsideOp.loads : OutsideOp → Bool
  | .store (.publishDeclaration _) | .store (.publishStep _) | .mechanism _ => false
  | .store _ => true

def loading : Discipline outsideSignature Unit where
  view := fun _ => True
  call := fun _ _ op => op.loads = true

theorem loading_storeCall {op : StoreOp} (hop : (OutsideOp.store op).loads = true) :
    (storeCalls op).Orderly loading := fun _ _ _ => Process.obeys_perform hop

theorem loading_loadSteps (d : JournalDeclaration) (remaining sequence : Nat)
    (h : JournalHistory) : (JournalHistory.loadSteps storeCalls d remaining sequence h).Orderly
      loading := by
  induction remaining generalizing sequence h with
  | zero => exact Process.orderly_pure _
  | succ remaining ih =>
    refine (loading_storeCall rfl).bind fun stored => ?_
    cases stored with
    | none => exact Process.orderly_throw _
    | some step => exact Process.orderly_ofExcept_bind fun h' _ => ih _ _

/-- Loading a journal publishes no step of it. -/
theorem loading_load (d : JournalDeclaration) :
    (JournalHistory.load storeCalls d).Orderly loading := by
  refine Process.Orderly.bind ((loading_storeCall rfl).bind fun stored => ?_) fun d' => ?_
  · cases stored with
    | none => exact Process.orderly_throw _
    | some declaration => exact Process.orderly_ofExcept_bind fun _ _ => Process.orderly_pure _
  refine Process.Orderly.bind ((loading_storeCall rfl).bind fun stored => ?_) fun cursor => ?_
  · cases stored with
    | some cursor => exact Process.orderly_pure _
    | none =>
      refine (loading_storeCall rfl).bind fun cursor => ?_
      exact Process.orderly_ofExcept_bind fun _ _ => Process.orderly_pure _
  refine Process.orderly_ofExcept_bind fun _ _ => (loading_loadSteps _ _ _ _).bind fun h => ?_
  refine Process.orderly_ofExcept_bind fun _ _ => (loading_storeCall rfl).bind fun orphan => ?_
  cases orphan with
  | none => exact Process.orderly_pure _
  | some step =>
    refine Process.orderly_ofExcept_bind fun _ _ => (loading_storeCall rfl).bind fun _ => ?_
    exact Process.orderly_ofExcept_bind fun _ _ => Process.orderly_ofExcept _

/-- What a process may do that only loads: no step is added to any journal, and
no call reaches the backend or publishes a step. -/
structure Idle (w w' : World) : Prop where
  steps : ∀ d, (w'.journals d).map StoredJournal.steps = (w.journals d).map StoredJournal.steps
  calls : ∃ calls, w'.trace = w.trace ++ calls ∧ ∀ call ∈ calls, call.1.loads = true

theorem Idle.refl (w : World) : Idle w w :=
  ⟨fun _ => rfl, [], (List.append_nil _).symm, fun _ hx => absurd hx List.not_mem_nil⟩

theorem Idle.perform (hidle : Idle w w') {op : OutsideOp} (hop : op.loads = true)
    {response : outsideSignature.Response op} {w'' : World}
    (hcall : (worldMachine c).perform op w' = .ok (response, w'')) : Idle w w'' := by
  obtain ⟨hsteps, calls, htrace, hloads⟩ := hidle
  refine ⟨fun d => ?_, calls ++ [⟨op, response⟩], ?_, ?_⟩
  · rw [← hsteps d]
    cases op with
    | mechanism request => cases hop
    | store op =>
      simp only [worldMachine] at hcall
      split at hcall
      · cases hcall
      · split at hcall
        · rename_i hstore
          cases hcall
          cases op with
          | publishDeclaration | publishStep => cases hop
          | loadDeclaration | loadCursor | loadStep =>
            cases hstore
            rfl
          | compareAndPublishCursor expected next =>
            simp only [storePerform] at hstore
            split at hstore
            · cases hstore
            · rename_i j hj
              split at hstore
              · cases hstore
                dsimp only
                by_cases hd : d = next.declaration
                · subst hd
                  rw [Function.update_self, hj]
                  rfl
                · rw [Function.update_of_ne hd]
              · cases hstore
        · cases hcall
  · rw [worldMachine_logs c op w' response w'' hcall, htrace, List.append_assoc]
  · intro call hmem
    rcases List.mem_append.mp hmem with hold | hnew
    · exact hloads call hold
    · rw [List.mem_singleton.mp hnew]
      exact hop

theorem load_idle (d : JournalDeclaration) :
    (JournalHistory.load storeCalls d).Ensures (worldMachine c) w (fun _ w' => Idle w w')
      (fun _ w' => Idle w w') (fun w' => Idle w w') := by
  refine (Process.Obeys.ensures (D := loading) (I := fun _ w' => Idle w w') ?_ (.refl w) trivial
    (loading_load d none _ trivial)).mono (fun _ _ ⟨_, hx⟩ => hx) (fun _ _ ⟨_, hx⟩ => hx)
      fun _ ⟨_, hx⟩ => hx
  exact fun _ _ _ _ _ hidle _ hop hcall => ⟨hidle.perform hop hcall, trivial⟩

/-- A restart of a journal with a receipt is refused once it is loaded. -/
theorem outside_refused (hb : Between A s h w) (hr : s.history.receipt = some r)
    (session : RestartSession) :
    (outside (runRestart A.request session) h >>= fun x => pure x.1).Ensures (worldMachine c) w
      (fun _ _ => False) (fun _ w' => w' = w) (fun _ => False) := by
  obtain ⟨rfl, -, -, happended, -⟩ := hb
  have hreopen := reopenApplication_refused A.request session
    happended.sound.snapshot_eq (assessRestart_of_receipt hr)
  have hthrow : outside (runRestart A.request session) s.history = Process.throw
      (.invalidArgument "application journal is not automatically resumable") := by
    change outside ((liftM (reopenApplication A.request session s.history) :
      Engine (JournaledApplication × RestartView)) >>= _) s.history = _
    rw [hreopen]
    rfl
  rw [hthrow]
  exact Process.ensures_throw.mpr rfl

/-- A restart of a world that retains a receipt does no more than load. -/
theorem resumeProcess_refused (hw : Run A w) (hretains : w.Retains A r)
    (session : RestartSession) :
    (resumeProcess A session).Ensures (worldMachine c) w (fun _ _ => False)
      (fun _ w' => Idle w w') (fun w' => Idle w w') := by
  obtain ⟨s, -, hholds⟩ := hw.holds_of_retains hretains
  have hr := hholds.receipt_of_retains hw.recorded hretains
  refine Process.Ensures.bind (((load_ensures hholds).and (load_idle A.declaration)).mono
    (fun _ _ hx => hx) (fun _ _ hx => hx.2) fun _ hx => hx.2) fun h w' ⟨hb, hidle⟩ => ?_
  refine (outside_refused hb hr session).mono (fun _ _ hx => hx) (fun _ w'' hx => ?_)
    fun _ hx => hx.elim
  rw [hx]
  exact hidle

/-- The attempts before a restart lead to the world it starts from. -/
theorem Attempts.resumed_at (hs : Attempts A attempts w) {earlier later : List Attempt}
    (hsplit : attempts = earlier ++ attempt :: later) (hearlier : earlier ≠ []) :
    ∃ c session, Attempts A earlier attempt.before ∧
      Ends (resumeProcess A session) c attempt.before attempt.returned attempt.after := by
  induction hs generalizing later with
  | applied =>
    cases earlier with
    | nil => exact absurd rfl hearlier
    | cons first rest =>
      have hlength := congrArg List.length hsplit
      simp at hlength
  | @resumed c session attempts returned w w' hs hends ih =>
    rcases List.eq_nil_or_concat later with rfl | ⟨later', last, rfl⟩
    · obtain ⟨rfl, hlast⟩ := List.append_inj' hsplit rfl
      cases hlast
      exact ⟨c, session, hs, hends⟩
    · rw [List.concat_eq_append, ← List.cons_append, ← List.append_assoc] at hsplit
      exact ih (List.append_inj' hsplit rfl).1

/-- Of one application and any number of restarts over a journal: what is
returned is retained and committed when it is; one receipt at most is ever
retained or returned; and a restart after that is refused, having done no more
than load the journal. -/
theorem one_receipt (hs : Attempts A attempts w) :
    (∀ attempt ∈ attempts, ∀ r, attempt.returned = some r →
      attempt.after.Retains A r ∧ attempt.after.receipt A = some r) ∧
    (∀ r r', (w.Retains A r ∨ ∃ attempt ∈ attempts, attempt.returned = some r) →
      (w.Retains A r' ∨ ∃ attempt ∈ attempts, attempt.returned = some r') → r = r') ∧
    ∀ earlier attempt later, attempts = earlier ++ attempt :: later →
      (∃ e ∈ earlier, ∃ r, e.after.Retains A r) →
        attempt.returned = none ∧ Idle attempt.before attempt.after := by
  have hretained : ∀ r, (w.Retains A r ∨ ∃ attempt ∈ attempts, attempt.returned = some r) →
      w.Retains A r := by
    rintro r (hr | ⟨attempt, hmem, hr⟩)
    · exact hr
    · exact (hs.returned_retains hmem hr).1.mono (hs.trace_prefix hmem)
  refine ⟨fun attempt hmem r hr => hs.returned_retains hmem hr, fun r r' hr hr' =>
    hs.run.retains_unique (hretained r hr) (hretained r' hr'), ?_⟩
  rintro earlier ⟨before, returned, after⟩ later hsplit ⟨e, he, r, hr⟩
  obtain ⟨c, session, hbefore, hends⟩ := hs.resumed_at hsplit (List.ne_nil_of_mem he)
  have hrefused := resumeProcess_refused (c := c) hbefore.run
    (hr.mono (hbefore.trace_prefix he)) session
  refine ⟨?_, (hrefused.mono (fun _ _ hx => hx.elim) (fun _ _ hx => hx) fun _ hx => hx).leaves
    hends.leaves⟩
  cases hends with
  | returned heval => exact (hrefused.returned _ _ heval).elim
  | thrown => rfl
  | stopped => rfl

end Attempts

/-! ## A removal asked for twice -/

section Removal

private def plainRemoval : AdmittedApplication := .removal .none .allApplicationDomains

private def collaborators : Collaborators :=
  ⟨AdmittedApplication.removalMechanisms .completed .completed .confirmed, fun _ _ => none⟩

/-- The removal against a store that refuses nothing, in an empty world. -/
private def applied : Except Exn ApplicationReceipt × World :=
  (applyProcess plainRemoval).eval (worldMachine collaborators) ⟨fun _ => none, []⟩

/-- A restart after it. -/
private def restarted : Except Exn ApplicationReceipt × World :=
  (resumeProcess plainRemoval ⟨plainRemoval.projection, plainRemoval.nonce⟩).eval
    (worldMachine collaborators) applied.2

/-- The two attempts. -/
def removalAttempts : List Attempt :=
  [⟨⟨fun _ => none, []⟩, applied.1.toOption, applied.2⟩,
    ⟨applied.2, restarted.1.toOption, restarted.2⟩]

/-- The world after both. -/
def restartedWorld : World := restarted.2

private theorem removalAttempts_attempts :
    Attempts plainRemoval removalAttempts restartedWorld := by
  have happlied : Ends (applyProcess plainRemoval) collaborators ⟨fun _ => none, []⟩
      applied.1.toOption applied.2 := ends_eval _ _ _
  have hrestarted : Ends
      (resumeProcess plainRemoval ⟨plainRemoval.projection, plainRemoval.nonce⟩) collaborators
      applied.2 restarted.1.toOption restarted.2 := ends_eval _ _ _
  exact Attempts.resumed (.applied rfl happlied) hrestarted

example : removalAttempts.map (fun a => a.returned.isSome) = [true, false] := by decide +kernel

theorem one_receipt_removal :
    (∀ attempt ∈ removalAttempts, ∀ r, attempt.returned = some r →
      attempt.after.Retains (.removal .none .allApplicationDomains) r ∧
        attempt.after.receipt (.removal .none .allApplicationDomains) = some r) ∧
    (∀ r r', (restartedWorld.Retains (.removal .none .allApplicationDomains) r ∨
        ∃ attempt ∈ removalAttempts, attempt.returned = some r) →
      (restartedWorld.Retains (.removal .none .allApplicationDomains) r' ∨
        ∃ attempt ∈ removalAttempts, attempt.returned = some r') → r = r') ∧
    ∀ earlier attempt later, removalAttempts = earlier ++ attempt :: later →
      (∃ e ∈ earlier, ∃ r, e.after.Retains (.removal .none .allApplicationDomains) r) →
        attempt.returned = none ∧ Idle attempt.before attempt.after :=
  one_receipt removalAttempts_attempts

end Removal

end PkgApply
