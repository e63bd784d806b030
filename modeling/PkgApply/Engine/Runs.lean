import PkgApply.Restart.Discipline

/-!
# Runs of an attempt

One application, stopped anywhere, followed by any number of restarts, each
stopped anywhere.  The log of a run agrees with the journal it leaves, every
entry of it obeys the discipline of the attempt, and so no effect is executed
more than once.
-/

namespace PkgApply

open Library

/-! ## Leftovers of a run -/

namespace AdmittedApplication

/-- The published initial journal. -/
def start (A : AdmittedApplication) : EngineState := ⟨.initial A.declaration, []⟩

/-- The application of an attempt. -/
def apply (A : AdmittedApplication) : Engine ApplicationReceipt :=
  runApplication (A.journaled A.projection) A.request A.projection

/-- What an application and any number of restarts may leave behind, each
process with its own answers of the mechanisms. -/
inductive Left (A : AdmittedApplication) (R : Mechanisms → Prop) : EngineState → Prop
  | start : Left A R A.start
  | applied {m : Mechanisms} {s : EngineState} : R m →
    A.apply.Leaves (engineMachine m) A.start s → Left A R s
  | resumed {m : Mechanisms} {session : RestartSession} {s s' : EngineState} : Left A R s → R m →
    (runRestart A.request session).Leaves (engineMachine m) s s' → Left A R s'

/-- What holds of the initial journal and of every leftover of a process
started where it holds, holds of every leftover of a run. -/
theorem Left.induct {A : AdmittedApplication} {R : Mechanisms → Prop} {I : EngineState → Prop}
    (hstart : I A.start)
    (happly : ∀ m, R m → A.apply.Ensures (engineMachine m) A.start (fun _ s' => I s')
      (fun _ s' => I s') I)
    (hrestart : ∀ m session s, R m → I s →
      (runRestart A.request session).Ensures (engineMachine m) s (fun _ s' => I s')
        (fun _ s' => I s') I)
    {s : EngineState} (hs : A.Left R s) : I s := by
  induction hs with
  | start => exact hstart
  | applied hm hleaves => exact (happly _ hm).leaves hleaves
  | resumed _ hm hleaves ih => exact (hrestart _ _ _ hm ih).leaves hleaves

theorem engineMachine_logs (m : Mechanisms) : Process.Logs (engineMachine m) EngineState.log := by
  intro op s r s' hop
  cases op with
  | mechanism request =>
    cases hop
    rfl
  | journal t =>
    simp only [engineMachine] at hop
    split at hop
    · cases hop
      rfl
    · cases hop

/-- Every call of a run was made at a leftover of the run. -/
theorem Left.before {A : AdmittedApplication} {R : Mechanisms → Prop} {s : EngineState}
    (hs : A.Left R s) {pre rest : List EngineCall} {call : EngineCall}
    (hlog : s.log = pre ++ call :: rest) :
    ∃ s₀ m s₁, A.Left R s₀ ∧ R m ∧ A.Left R s₁ ∧ s₀.log = pre ∧
      (engineMachine m).perform call.1 s₀ = .ok (call.2, s₁) := by
  induction hs generalizing pre call rest with
  | start => simp [AdmittedApplication.start] at hlog
  | @applied m s hm hleaves =>
    obtain ⟨calls, hcalls, hmade⟩ := hleaves.made (engineMachine_logs m)
    rw [hcalls] at hlog
    obtain ⟨s₀, hs₀, s₁, hs₁, hpre, hperform⟩ := hmade pre call rest hlog
    exact ⟨s₀, m, s₁, .applied hm (.inl hs₀), hm, .applied hm (.inl hs₁), hpre, hperform⟩
  | @resumed m session s s' hs hm hleaves ih =>
    obtain ⟨calls, hcalls, hmade⟩ := hleaves.made (engineMachine_logs m)
    rw [hcalls] at hlog
    rcases List.append_eq_append_iff.mp hlog with ⟨pre', rfl, hsplit⟩ | ⟨rest', hsplit, hrest⟩
    · obtain ⟨s₀, hs₀, s₁, hs₁, hpre, hperform⟩ := hmade pre' call rest hsplit
      exact ⟨s₀, m, s₁, .resumed hs hm (.inl hs₀), hm, .resumed hs hm (.inl hs₁), hpre, hperform⟩
    · cases rest' with
      | nil =>
        obtain ⟨s₀, hs₀, s₁, hs₁, hpre, hperform⟩ := hmade [] call rest (by simpa using hrest.symm)
        refine ⟨s₀, m, s₁, .resumed hs hm (.inl hs₀), hm, .resumed hs hm (.inl hs₁), ?_, hperform⟩
        rw [hpre, hsplit, List.append_nil, List.append_nil]
      | cons first rest' =>
        obtain ⟨rfl, -⟩ := List.cons_eq_cons.mp hrest
        exact ih hsplit

end AdmittedApplication

/-! ## The log and the journal -/

/-- The transition of an engine operation, if it is one. -/
def EngineOp.transition? : EngineOp → Option Transition
  | journal t => some t
  | mechanism _ => none

/-- The transition a step retains. -/
def JournalStep.transition (step : JournalStep) : Transition :=
  ⟨step.state, step.event.map fun e => ⟨e.effect, e.kind, e.evidence⟩, step.replayFact,
    step.receipt, step.completedEvidence⟩

/-- The transitions a log journaled. -/
def journaled (log : List EngineCall) : List Transition := log.filterMap fun c => c.1.transition?

/-- Every entry of a log is allowed after the entry before it in its process. -/
def Disciplined (A : AdmittedApplication) (log : List EngineCall) : Prop :=
  ∀ pre entry rest, log = pre ++ entry :: rest →
    ∃ last : Option EngineCall, (∀ c, last = some c → pre.getLast? = some c) ∧
      A.allows last entry.1

/-- A state whose log agrees with its journal and obeys the discipline. -/
structure Logged (A : AdmittedApplication) (last : Option EngineCall) (s : EngineState) :
    Prop where
  appended : JournalHistory.Appended s.history
  declares : A.Declares s.history
  agrees : s.history.steps.map JournalStep.transition = journaled s.log
  last_eq : ∀ c, last = some c → s.log.getLast? = some c
  disciplined : Disciplined A s.log

namespace Logged

variable {A : AdmittedApplication} {last : Option EngineCall} {s s' : EngineState}
  {m : Mechanisms}

theorem start (A : AdmittedApplication) : Logged A none A.start := by
  refine ⟨.initial _, rfl, rfl, (fun _ hc => nomatch hc), ?_⟩
  intro pre entry rest hlog
  simp [AdmittedApplication.start] at hlog

/-- A new process has made no call. -/
theorem forget (h : Logged A last s) : Logged A none s :=
  ⟨h.appended, h.declares, h.agrees, (fun _ hc => nomatch hc), h.disciplined⟩

private theorem disciplined_append {log : List EngineCall} (h : Disciplined A log)
    {call : EngineCall} (hlast : ∀ c, last = some c → log.getLast? = some c)
    (hallows : A.allows last call.1) : Disciplined A (log ++ [call]) := by
  intro pre entry rest hlog
  rcases List.eq_nil_or_concat rest with rfl | ⟨rest', x, rfl⟩
  · obtain ⟨rfl, hentry⟩ := List.append_inj' hlog rfl
    cases hentry
    exact ⟨last, hlast, hallows⟩
  · have hsplit : log ++ [call] = (pre ++ entry :: rest') ++ [x] := by simpa using hlog
    obtain ⟨rfl, -⟩ := List.append_inj' hsplit rfl
    exact h pre entry rest' rfl

/-- An allowed operation keeps a state logged. -/
theorem step {op : EngineOp} {r : engineSignature.Response op} (h : Logged A last s)
    (hallows : A.allows last op) (hop : (engineMachine m).perform op s = .ok (r, s')) :
    Logged A (some ⟨op, r⟩) s' := by
  let call : EngineCall := ⟨op, r⟩
  have hlast : ∀ (log : List EngineCall) (c : EngineCall),
      some call = some c → (log ++ [call]).getLast? = some c := by
    intro log c hc
    rw [← hc, List.getLast?_concat]
  cases op with
  | mechanism request =>
    simp only [engineMachine, Except.ok.injEq] at hop
    obtain ⟨rfl, rfl⟩ := hop
    refine ⟨h.appended, h.declares, ?_, hlast s.log,
      disciplined_append h.disciplined h.last_eq hallows⟩
    rw [h.agrees, journaled, journaled, List.filterMap_append]
    exact (List.append_nil _).symm
  | journal t =>
    simp only [engineMachine] at hop
    split at hop
    · rename_i history htransition
      simp only [Except.ok.injEq] at hop
      obtain ⟨-, rfl⟩ := hop
      obtain ⟨-, hfollows⟩ :=
        JournalHistory.permits_of_transition h.appended h.declares.keyed htransition
      obtain ⟨step, hsteps, hrecord⟩ := hfollows.steps
      refine ⟨hfollows.appended, hfollows.declaration.trans h.declares, ?_, hlast s.log,
        disciplined_append h.disciplined h.last_eq hallows⟩
      have htransition : step.transition = t := by
        unfold JournalStep.transition
        rw [hrecord]
        obtain ⟨state, event, fact, receipt, evidence⟩ := t
        cases event <;> rfl
      change history.steps.map _ = journaled (s.log ++ [call])
      rw [hsteps, List.map_append, h.agrees, journaled, journaled, List.filterMap_append,
        List.map_singleton, htransition]
      rfl
    · cases hop

/-- An orderly process leaves its state logged. -/
theorem ensures {α : Type} {p : Engine α} (hp : p.Orderly A.discipline) (h : Logged A none s) :
    p.Ensures (engineMachine m) s (fun _ s' => ∃ last, Logged A last s')
      (fun _ s' => ∃ last, Logged A last s') (fun s' => ∃ last, Logged A last s') := by
  refine Process.Obeys.ensures (D := A.discipline) ?_ h h.declares (hp none _ h.declares)
  intro last s op r s' hlogged _ hallows hop
  have hstep := hlogged.step hallows hop
  exact ⟨hstep, hstep.declares⟩

end Logged

/-- Every leftover of a run is logged. -/
theorem AdmittedApplication.Left.logged {A : AdmittedApplication} {R : Mechanisms → Prop}
    {s : EngineState} (hs : A.Left R s) : Logged A none s := by
  refine Left.induct (I := Logged A none) (.start A) (fun m _ => ?_) (fun m session s _ h => ?_) hs
  · exact (Logged.ensures (orderly_runApplication rfl) (.start A)).mono
      (fun _ _ ⟨_, h⟩ => h.forget) (fun _ _ ⟨_, h⟩ => h.forget) (fun _ ⟨_, h⟩ => h.forget)
  · exact (Logged.ensures (orderly_runRestart session) h).mono
      (fun _ _ ⟨_, h⟩ => h.forget) (fun _ _ ⟨_, h⟩ => h.forget) (fun _ ⟨_, h⟩ => h.forget)

/-! ## At most once -/

/-- A transition that journals the intent of one effect. -/
def Transition.intends (t : Transition) (kind : EffectKind) (path : PackagePath) : Bool :=
  t.event.any fun e => e.kind == .intent && e.effect.kind == kind && e.effect.path == some path

theorem Transition.intends_iff {t : Transition} {kind : EffectKind} {path : PackagePath} :
    t.intends kind path = true ↔ t.Intends kind path := by
  unfold intends Intends
  rw [Option.any_eq_true]
  simp only [Bool.and_eq_true, beq_iff_eq, and_assoc]

/-- The engine journaled the intent of one effect. -/
def intendsCall (kind : EffectKind) (path : PackagePath) (c : EngineCall) : Bool :=
  c.1.transition?.any fun t => t.intends kind path

/-- The engine executed one effect. -/
def executesCall (kind : EffectKind) (path : PackagePath) (c : EngineCall) : Bool :=
  match c.1 with
  | .mechanism request => request.effect == some (kind, path)
  | .journal _ => false

section AtMostOnce

variable {A : AdmittedApplication} {kind : EffectKind} {path : PackagePath}

/-- An execution comes right after the intent of its effect. -/
theorem Disciplined.intent_before {log : List EngineCall} (h : Disciplined A log)
    {pre rest : List EngineCall} {call : EngineCall} (hlog : log = pre ++ call :: rest)
    (hcall : executesCall kind path call = true) :
    ∃ pre' c, pre = pre' ++ [c] ∧ intendsCall kind path c = true := by
  obtain ⟨last, hlast, hallows⟩ := h pre call rest hlog
  obtain ⟨op, response⟩ := call
  cases op with
  | journal t => cases hcall
  | mechanism request =>
    obtain ⟨t, hjournal, hintends⟩ := hallows kind path (by simpa [executesCall] using hcall)
    have hgetLast := hlast _ hjournal
    obtain ⟨pre', rfl⟩ := List.getLast?_eq_some_iff.mp hgetLast
    exact ⟨pre', _, rfl, by simpa [intendsCall, EngineOp.transition?] using
      Transition.intends_iff.mpr hintends⟩

theorem intendsCall_executesCall {c : EngineCall} (h : intendsCall kind path c = true) :
    executesCall kind path c = false := by
  obtain ⟨op, response⟩ := c
  cases op with
  | journal t => rfl
  | mechanism request => cases h

/-- There are no more executions of an effect than intents of it, and fewer
where the last entry is such an intent. -/
theorem Disciplined.countP_le {log : List EngineCall} (h : Disciplined A log) :
    log.countP (executesCall kind path) ≤ log.countP (intendsCall kind path) ∧
      (∀ pre c, log = pre ++ [c] → intendsCall kind path c = true →
        log.countP (executesCall kind path) < log.countP (intendsCall kind path)) := by
  induction log using List.reverseRecOn with
  | nil => exact ⟨le_rfl, fun pre c heq => by simp at heq⟩
  | append_singleton log call ih =>
    have hfirst : Disciplined A log := by
      intro pre entry rest hlog
      exact h pre entry (rest ++ [call]) (by rw [hlog]; simp)
    obtain ⟨hle, hlt⟩ := ih hfirst
    simp only [List.countP_append, List.countP_singleton]
    constructor
    · by_cases hcall : executesCall kind path call = true
      · obtain ⟨pre', c, hpre, hc⟩ :=
          h.intent_before (show log ++ [call] = log ++ call :: [] from rfl) hcall
        have := hlt pre' c hpre hc
        simp only [hcall, if_true]
        omega
      · simp only [hcall, Bool.false_eq_true, if_false]
        omega
    · intro pre c heq hc
      obtain ⟨-, hsingle⟩ := List.append_inj' heq rfl
      cases hsingle
      simp only [intendsCall_executesCall hc, hc, Bool.false_eq_true, if_false, if_true]
      omega

/-- A journal holds at most one intent of an effect, and none before it is intended. -/
theorem JournalHistory.Appended.intents_le {h : JournalHistory} (hr : JournalHistory.Appended h)
    (hk : h.Keyed) : h.steps.countP (fun step => step.transition.intends kind path) ≤
      if (h.slot kind (some path)).intended then 1 else 0 := by
  induction hr with
  | initial d => exact Nat.zero_le _
  | @append h h' step hr happend ih =>
    obtain ⟨ha, rfl⟩ := JournalHistory.append_eq_ok_iff.mp happend
    have ih := ih hk
    rw [JournalHistory.after_steps, List.countP_append, List.countP_singleton,
      JournalHistory.slot_after]
    by_cases hintends : step.transition.intends kind path = true
    · obtain ⟨e, he, hkind, heffect, hpath⟩ := Transition.intends_iff.mp hintends
      obtain ⟨x, hx, rfl⟩ := Option.map_eq_some_iff.mp he
      have hadmits := ha.event x hx
      have huntouched : h.slot kind (some path) = .untouched := by
        have hfresh := hadmits.fresh hkind
        rw [hr.progressOf_eq hk hadmits.declared] at hfresh
        dsimp only at heffect hpath
        rw [← heffect, ← hpath]
        exact Slot.progress_eq_untouched_iff.mp hfresh
      rw [huntouched] at ih
      have hnote : JournalHistory.noteSlot kind (some path) (h.slot kind (some path)) step =
          .unresolved := by
        unfold JournalHistory.noteSlot
        simp only [hx]
        rw [if_pos ⟨heffect, hpath⟩, huntouched, show x.kind = .intent from hkind]
        rfl
      rw [hnote]
      simp only [Slot.untouched_intended, Bool.false_eq_true, if_false] at ih
      simp only [hintends, if_true, Slot.unresolved_intended]
      omega
    · have hmono : (h.slot kind (some path)).intended = true →
          (JournalHistory.noteSlot kind (some path) (h.slot kind (some path)) step).intended =
            true := by
        intro hintended
        unfold JournalHistory.noteSlot
        split
        · exact hintended
        · split
          · rename_i x _ _
            cases hxk : x.kind <;> simp [Slot.note, hintended]
          · exact hintended
      simp only [hintends, Bool.false_eq_true, if_false, Nat.add_zero]
      refine ih.trans ?_
      by_cases hintended : (h.slot kind (some path)).intended = true
      · simp [hintended, hmono hintended]
      · simp [hintended]

theorem countP_intendsCall (log : List EngineCall) :
    log.countP (intendsCall kind path) = (journaled log).countP fun t => t.intends kind path := by
  induction log with
  | nil => rfl
  | cons c rest ih =>
    rw [List.countP_cons, ih]
    unfold journaled intendsCall
    rw [List.filterMap_cons]
    cases hc : c.1.transition? with
    | none => simp
    | some t => simp [List.countP_cons]

/-- Over a whole run no effect is executed more than once. -/
theorem Logged.executes_le {last : Option EngineCall} {s : EngineState} (h : Logged A last s) :
    s.log.countP (executesCall kind path) ≤ 1 := by
  refine h.disciplined.countP_le.1.trans ?_
  rw [countP_intendsCall, ← h.agrees, List.countP_map]
  refine (h.appended.intents_le h.declares.keyed).trans ?_
  split <;> omega

end AtMostOnce

end PkgApply
