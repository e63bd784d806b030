import PkgApply.Engine.Runs
import PkgApply.Journal.Store

/-!
# Processes against a store

The engine over its two collaborators, the journal store and the backend: each
journaled transition publishes one step and then the cursor.  A store retains
what it acknowledges and may refuse any call; a process may stop before or
after any call.  What such processes leave refines the runs of the engine.
-/

namespace PkgApply

open Library

/-! ## The outside of a process -/

/-- Calls of a process on its store and its backend. -/
inductive OutsideOp where
  | store (op : StoreOp)
  | mechanism (request : MechanismRequest)

def outsideSignature : Signature where
  Op := OutsideOp
  Response
    | .store op => op.Response
    | .mechanism request => request.Response

abbrev Outside (α : Type) := Process outsideSignature Unit Exn α

abbrev OutsideCall := outsideSignature.Call

def storeCalls : StoreCalls outsideSignature :=
  fun op => Process.perform (S := outsideSignature) (.store op)

/-- The initial journal, published before anything else. -/
def publishInitialJournal (declaration : JournalDeclaration) : Outside JournalHistory := do
  let durable : JournalDeclaration ← storeCalls (.publishDeclaration declaration)
  refuseIf (durable ≠ declaration)
    (.logicError "journal store changed the application declaration")
  let h := JournalHistory.initial durable
  let cursor : JournalCursor ← storeCalls (.compareAndPublishCursor none h.cursor)
  refuseIf (cursor ≠ h.cursor)
    (.logicError "journal store changed the initial application cursor")
  return h

/-- Publish the step of a transition, then the cursor, then extend the history. -/
def appendJournalStep (h : JournalHistory) (t : Transition) : Outside JournalHistory := do
  let intended ← h.nextStep t
  let candidate ← h.validate intended
  let durable : JournalStep ← storeCalls (.publishStep intended)
  refuseIf (durable ≠ intended) (.logicError "journal store changed an application step")
  let cursor : JournalCursor ← storeCalls (.compareAndPublishCursor (some h.cursor) candidate)
  refuseIf (cursor ≠ candidate) (.logicError "journal store changed the application cursor")
  let h' ← h.append durable
  refuseIf (h'.cursor ≠ candidate) (.logicError "application history changed a durable cursor")
  return h'

/-- One engine operation against the store and the backend. -/
def performEngineOp : (op : EngineOp) → JournalHistory →
    Outside (engineSignature.Response op × JournalHistory)
  | .journal t, h => do
    let h' ← appendJournalStep h t
    return ((), h')
  | .mechanism request, h => do
    let response ← Process.perform (S := outsideSignature) (.mechanism request)
    return (response, h)

/-- An engine process against the store and the backend. -/
def outside {α : Type} (p : Engine α) (h : JournalHistory) : Outside (α × JournalHistory) :=
  Process.implement id performEngineOp p h

/-- The application of an admitted attempt. -/
def applyProcess (A : AdmittedApplication) : Outside ApplicationReceipt := do
  let h ← publishInitialJournal A.declaration
  let (receipt, _) ← outside A.apply h
  return receipt

/-- A restart of an attempt. -/
def resumeProcess (A : AdmittedApplication) (session : RestartSession) :
    Outside ApplicationReceipt := do
  let h ← JournalHistory.load storeCalls A.declaration
  let (receipt, _) ← outside (runRestart A.request session) h
  return receipt

/-! ## The world -/

/-- What a store holds of one journal. -/
structure StoredJournal where
  cursor : Option JournalCursor
  steps : Nat → Option JournalStep

/-- What a store holds once a history is committed. -/
def StoredJournal.of (h : JournalHistory) : StoredJournal := ⟨some h.cursor, fun i => h.steps[i]?⟩

/-- The store, and every call answered so far. -/
structure World where
  journals : JournalDeclaration → Option StoredJournal
  trace : List OutsideCall

/-- The collaborators of one process: the answers of the backend, and which
calls the store refuses, given what was done before. -/
structure Collaborators where
  mechanisms : Mechanisms
  refuses : StoreOp → List OutsideCall → Option Exn

/-- The answer of a store that keeps its contract, and what it holds after. -/
def storePerform (journals : JournalDeclaration → Option StoredJournal) :
    (op : StoreOp) → Except Exn (op.Response × (JournalDeclaration → Option StoredJournal))
  | .publishDeclaration d =>
    .ok (d, match journals d with
      | some _ => journals
      | none => Function.update journals d (some ⟨none, fun _ => none⟩))
  | .publishStep step =>
    match journals step.declaration with
    | none => .error (.logicError "journal step lacks declaration")
    | some j =>
      if (j.steps step.sequence).any (· != step) then
        .error (.logicError "journal step conflicts")
      else
        .ok (step, Function.update journals step.declaration
          (some ⟨j.cursor, Function.update j.steps step.sequence (some step)⟩))
  | .compareAndPublishCursor expected next =>
    match journals next.declaration with
    | none => .error (.logicError "journal cursor lacks declaration")
    | some j =>
      if j.cursor = expected then
        .ok (next, Function.update journals next.declaration (some ⟨some next, j.steps⟩))
      else
        .error (.logicError "journal cursor compare failed")
  | .loadDeclaration d => .ok ((journals d).map fun _ => d, journals)
  | .loadCursor d => .ok ((journals d).bind StoredJournal.cursor, journals)
  | .loadStep d sequence => .ok ((journals d).bind fun j => j.steps sequence, journals)

/-- The meaning of calls under given collaborators. -/
def worldMachine (c : Collaborators) : Machine outsideSignature World Unit Exn where
  view := fun _ => ()
  perform
    | .store op, w =>
      match c.refuses op w.trace with
      | some e => .error e
      | none =>
        match storePerform w.journals op with
        | .ok (response, journals) => .ok (response, ⟨journals, w.trace ++ [⟨.store op, response⟩]⟩)
        | .error e => .error e
    | .mechanism request, w =>
      .ok (c.mechanisms request,
        ⟨w.journals, w.trace ++ [⟨.mechanism request, c.mechanisms request⟩]⟩)

/-- What an application and any number of restarts may leave of the world. -/
inductive Run (A : AdmittedApplication) : World → Prop
  | applied {c : Collaborators} {w : World} {journals : JournalDeclaration → Option StoredJournal} :
    journals A.declaration = none →
    (applyProcess A).Leaves (worldMachine c) ⟨journals, []⟩ w → Run A w
  | resumed {c : Collaborators} {session : RestartSession} {w w' : World} : Run A w →
    (resumeProcess A session).Leaves (worldMachine c) w w' → Run A w'

/-! ## The trace and the log -/

/-- A mechanism call of a trace. -/
def outsideAnswer : OutsideCall → Option ((request : MechanismRequest) × request.Response)
  | ⟨.mechanism request, response⟩ => some ⟨request, response⟩
  | ⟨.store _, _⟩ => none

/-- A mechanism call of a log. -/
def engineAnswer : EngineCall → Option ((request : MechanismRequest) × request.Response)
  | ⟨.mechanism request, response⟩ => some ⟨request, response⟩
  | ⟨.journal _, _⟩ => none

/-- The store has acknowledged the publication of a step. -/
def Published (trace : List OutsideCall) (step : JournalStep) : Prop :=
  (⟨.store (.publishStep step), step⟩ : OutsideCall) ∈ trace

/-- The store has acknowledged a step, and after it a cursor that names it. -/
def Accepted (trace : List OutsideCall) (step : JournalStep) : Prop :=
  ∃ pre expected cursor post,
    trace = pre ++ ⟨.store (.compareAndPublishCursor expected cursor), cursor⟩ :: post ∧
      cursor.latestStep = some step.identity ∧ Published pre step

/-- A trace does what a log says; `pending` is a step without its cursor. -/
structure Traced (pending : Option JournalStep) (log : List EngineCall)
    (trace : List OutsideCall) : Prop where
  answers : trace.filterMap outsideAnswer = log.filterMap engineAnswer
  backed : ∀ t ∈ journaled log, ∃ step : JournalStep, step.transition = t ∧
    Published trace step ∧ (Accepted trace step ∨ pending = some step)
  accounted : ∀ pre request response rest,
    trace = pre ++ ⟨.mechanism request, response⟩ :: rest →
      ∃ pre' rest', log = pre' ++ ⟨.mechanism request, response⟩ :: rest' ∧
        ∀ t ∈ journaled pre', ∃ step : JournalStep, step.transition = t ∧ Accepted pre step

section Traced

variable {pending : Option JournalStep} {log : List EngineCall} {trace : List OutsideCall}

theorem Published.append {step : JournalStep} (h : Published trace step) (call : OutsideCall) :
    Published (trace ++ [call]) step := List.mem_append_left _ h

theorem Accepted.append {step : JournalStep} (h : Accepted trace step) (call : OutsideCall) :
    Accepted (trace ++ [call]) step := by
  obtain ⟨pre, expected, cursor, post, rfl, hlatest, hpublished⟩ := h
  exact ⟨pre, expected, cursor, post ++ [call], by simp, hlatest, hpublished⟩

/-- A list split at an element, one element later. -/
private theorem append_singleton_split {α : Type} {l pre rest : List α} {x y : α}
    (h : l ++ [x] = pre ++ y :: rest) :
    (∃ rest', rest = rest' ++ [x] ∧ l = pre ++ y :: rest') ∨ (rest = [] ∧ l = pre ∧ x = y) := by
  rcases List.eq_nil_or_concat rest with rfl | ⟨rest', z, rfl⟩
  · obtain ⟨hl, hx⟩ := List.append_inj' h rfl
    exact .inr ⟨rfl, hl, List.singleton_inj.mp hx⟩
  · have hsplit : l ++ [x] = (pre ++ y :: rest') ++ [z] := by simpa using h
    obtain ⟨hl, hx⟩ := List.append_inj' hsplit rfl
    rw [List.singleton_inj.mp hx]
    exact .inl ⟨rest', List.concat_eq_append, hl⟩

theorem Traced.nil : Traced none [] [] := by
  refine ⟨rfl, fun t ht => by simp [journaled] at ht, fun pre request response rest h => ?_⟩
  simp at h

/-- A further call of the store accounts for nothing. -/
theorem Traced.storeCall (h : Traced pending log trace) (op : StoreOp) (response : op.Response) :
    Traced pending log (trace ++ [⟨.store op, response⟩]) := by
  refine ⟨?_, fun t ht => ?_, fun pre request response' rest heq => ?_⟩
  · rw [List.filterMap_append, h.answers]
    exact List.append_nil _
  · obtain ⟨step, hstep, hpublished, haccepted⟩ := h.backed t ht
    exact ⟨step, hstep, hpublished.append _, haccepted.imp_left fun ha => ha.append _⟩
  · rcases append_singleton_split heq with ⟨rest', -, htrace⟩ | ⟨-, -, hcall⟩
    · exact h.accounted pre request response' rest' htrace
    · cases hcall

/-- Publishing the step of a transition leaves it without its cursor. -/
theorem Traced.publish (h : Traced none log trace) {step : JournalStep} {t : Transition}
    (hstep : step.transition = t) :
    Traced (some step) (log ++ [⟨.journal t, ()⟩])
      (trace ++ [⟨.store (.publishStep step), step⟩]) := by
  refine ⟨?_, fun t' ht => ?_, fun pre request response rest heq => ?_⟩
  · rw [List.filterMap_append, List.filterMap_append, h.answers]
    rfl
  · rw [journaled, List.filterMap_append, List.mem_append] at ht
    rcases ht with ht | ht
    · obtain ⟨x, hx, hpublished, haccepted⟩ := h.backed t' ht
      refine ⟨x, hx, hpublished.append _, .inl ?_⟩
      exact (haccepted.resolve_right (by rintro ⟨⟩)).append _
    · have ht' : t' = t := by simpa [EngineOp.transition?] using ht
      exact ⟨step, hstep.trans ht'.symm, List.mem_append_right _ (List.mem_singleton_self _),
        .inr rfl⟩
  · rcases append_singleton_split heq with ⟨rest', -, htrace⟩ | ⟨-, -, hcall⟩
    · obtain ⟨pre', rest'', rfl, hbacked⟩ := h.accounted pre request response rest' htrace
      exact ⟨pre', rest'' ++ [⟨.journal t, ()⟩], by simp, hbacked⟩
    · cases hcall

/-- Publishing the cursor of the pending step settles it. -/
theorem Traced.accept {step : JournalStep} (h : Traced (some step) log trace)
    (expected : Option JournalCursor) {cursor : JournalCursor}
    (hlatest : cursor.latestStep = some step.identity) :
    Traced none log (trace ++ [⟨.store (.compareAndPublishCursor expected cursor), cursor⟩]) := by
  have hcall := h.storeCall (.compareAndPublishCursor expected cursor) cursor
  refine ⟨hcall.answers, fun t ht => ?_, hcall.accounted⟩
  obtain ⟨x, hx, hpublished, haccepted⟩ := h.backed t ht
  refine ⟨x, hx, hpublished.append _, .inl ?_⟩
  rcases haccepted with haccepted | hpending
  · exact haccepted.append _
  · cases hpending
    exact ⟨trace, expected, cursor, [], rfl, hlatest, hpublished⟩

/-- A mechanism call finds every journaled transition accepted. -/
theorem Traced.mechanism (h : Traced none log trace) (request : MechanismRequest)
    (response : request.Response) :
    Traced none (log ++ [⟨.mechanism request, response⟩])
      (trace ++ [⟨.mechanism request, response⟩]) := by
  have hbacked : ∀ t ∈ journaled log, ∃ step : JournalStep, step.transition = t ∧
      Published trace step ∧ Accepted trace step := by
    intro t ht
    obtain ⟨step, hstep, hpublished, haccepted⟩ := h.backed t ht
    exact ⟨step, hstep, hpublished, haccepted.resolve_right fun hnone => nomatch hnone⟩
  refine ⟨?_, fun t ht => ?_, fun pre request' response' rest heq => ?_⟩
  · rw [List.filterMap_append, List.filterMap_append, h.answers]
    rfl
  · rw [journaled, List.filterMap_append, List.mem_append] at ht
    rcases ht with ht | ht
    · obtain ⟨step, hstep, hpublished, haccepted⟩ := hbacked t ht
      exact ⟨step, hstep, hpublished.append _, .inl (haccepted.append _)⟩
    · simp [EngineOp.transition?] at ht
  · rcases append_singleton_split heq with ⟨rest', -, htrace⟩ | ⟨-, rfl, hcall⟩
    · obtain ⟨pre', rest'', rfl, hall⟩ := h.accounted pre request' response' rest' htrace
      exact ⟨pre', rest'' ++ [⟨.mechanism request, response⟩], by simp, hall⟩
    · cases hcall
      refine ⟨log, [], rfl, fun t ht => ?_⟩
      obtain ⟨step, hstep, -, haccepted⟩ := hbacked t ht
      exact ⟨step, hstep, haccepted⟩

end Traced

/-! ## What a store holds of a history -/

/-- The store holds the steps of a history and the cursor of its last settled
step; before the initial cursor it holds nothing. -/
inductive Stored : Option JournalStep → JournalHistory → StoredJournal → Prop
  | declared (d : JournalDeclaration) : Stored none (.initial d) ⟨none, fun _ => none⟩
  | settled (h : JournalHistory) : Stored none h ⟨some h.cursor, fun i => h.steps[i]?⟩
  | pending {h₀ h : JournalHistory} {step : JournalStep} : h₀.append step = .ok h →
    JournalHistory.Appended h₀ → Stored (some step) h ⟨some h₀.cursor, fun i => h.steps[i]?⟩

/-- A world a process may leave where the engine would leave a state. -/
def Holds (A : AdmittedApplication) (s : EngineState) (w : World) : Prop :=
  ∃ pending j, w.journals A.declaration = some j ∧ Stored pending s.history j ∧
    Traced pending s.log w.trace ∧ JournalHistory.Appended s.history ∧ A.Declares s.history

/-- A world between two operations of an engine with history `h`. -/
structure Between (A : AdmittedApplication) (s : EngineState) (h : JournalHistory) (w : World) :
    Prop where
  history : s.history = h
  journal : w.journals A.declaration = some ⟨some h.cursor, fun i => h.steps[i]?⟩
  traced : Traced none s.log w.trace
  appended : JournalHistory.Appended h
  declares : A.Declares h

theorem Between.holds {A : AdmittedApplication} {s : EngineState} {h : JournalHistory} {w : World}
    (hb : Between A s h w) : Holds A s w := by
  obtain ⟨rfl, hjournal, htraced, happended, hdeclares⟩ := hb
  exact ⟨none, _, hjournal, .settled _, htraced, happended, hdeclares⟩

section Simulation

variable {A : AdmittedApplication} {c : Collaborators} {α : Type} {w : World}
  {Q : α → World → Prop} {E : Exn → World → Prop} {I : World → Prop}

/-- A store call is refused, answered, or an error of the store. -/
theorem ensures_storeCall {op : StoreOp} {f : op.Response → Outside α} (hI : I w)
    (hE : ∀ e, E e w)
    (hok : ∀ response journals, storePerform w.journals op = .ok (response, journals) →
      I ⟨journals, w.trace ++ [⟨.store op, response⟩]⟩ ∧
        (f response).Ensures (worldMachine c) ⟨journals, w.trace ++ [⟨.store op, response⟩]⟩ Q E
          I) :
    (storeCalls op >>= f).Ensures (worldMachine c) w Q E I := by
  have hcall : storeCalls op >>= f = Process.call (S := outsideSignature) (.store op) f := rfl
  rw [hcall]
  cases hrefused : c.refuses op w.trace with
  | some e =>
    have hop : (worldMachine c).perform (.store op) w = .error e := by
      simp only [worldMachine, hrefused]
    exact (Process.ensures_call_error hop).mpr ⟨hI, hE e⟩
  | none =>
    cases hperform : storePerform w.journals op with
    | error e =>
      have hop : (worldMachine c).perform (.store op) w = .error e := by
        simp only [worldMachine, hrefused, hperform]
      exact (Process.ensures_call_error hop).mpr ⟨hI, hE e⟩
    | ok answer =>
      obtain ⟨response, journals⟩ := answer
      have hop : (worldMachine c).perform (.store op) w =
          .ok (response, ⟨journals, w.trace ++ [⟨.store op, response⟩]⟩) := by
        simp only [worldMachine, hrefused, hperform]
      obtain ⟨hI', hf⟩ := hok response journals hperform
      exact (Process.ensures_call_ok hop).mpr ⟨hI, hI', hf⟩

/-- A guard that holds lets the process go on. -/
theorem ensures_guard {p : Prop} [Decidable p] {e : Exn} {f : Unit → Outside α} (hp : ¬p)
    (hf : (f ()).Ensures (worldMachine c) w Q E I) :
    ((liftM (refuseIf p e) : Outside Unit) >>= f).Ensures (worldMachine c) w Q E I := by
  have hok : refuseIf p e = .ok () := refuseIf_eq_ok.mpr hp
  rw [hok]
  exact hf

theorem ensures_value {β : Type} {x : Except Exn β} {b : β} {f : β → Outside α} (hx : x = .ok b)
    (hf : (f b).Ensures (worldMachine c) w Q E I) :
    ((liftM x : Outside β) >>= f).Ensures (worldMachine c) w Q E I := by
  rw [hx]
  exact hf

/-- A valid step leads to the cursor it is appended with. -/
theorem validate_of_append {h h' : JournalHistory} {step : JournalStep}
    (happend : h.append step = .ok h') : h.validate step = .ok h'.cursor := by
  obtain ⟨hadmits, rfl⟩ := JournalHistory.append_eq_ok_iff.mp happend
  unfold JournalHistory.validate
  rw [JournalHistory.validateStep_eq_ok_iff.mpr ⟨hadmits, rfl⟩]
  rfl

/-- A step that cannot be appended is not valid. -/
theorem validate_of_append_error {h : JournalHistory} {step : JournalStep} {e : Exn}
    (happend : h.append step = .error e) : h.validate step = .error e := by
  unfold JournalHistory.append at happend
  unfold JournalHistory.validate
  cases hv : h.validateStep step with
  | error e' => simpa [hv, bind, Except.bind] using happend
  | ok v => simp [hv, bind, Except.bind, pure, Except.pure] at happend

/-- The cursor of a valid step is that of the history it is appended to. -/
theorem append_of_validate {h : JournalHistory} {step : JournalStep} {candidate : JournalCursor}
    (hvalidate : h.validate step = .ok candidate) :
    ∃ h', h.append step = .ok h' ∧ candidate = h'.cursor := by
  cases happend : h.append step with
  | ok h' =>
    rw [validate_of_append happend] at hvalidate
    exact ⟨h', rfl, (Except.ok.inj hvalidate).symm⟩
  | error e =>
    rw [validate_of_append_error happend] at hvalidate
    cases hvalidate

/-- An appended step is the one at the next sequence number. -/
theorem steps_of_append {h h' : JournalHistory} {step : JournalStep}
    (happend : h.append step = .ok h') (hr : JournalHistory.Appended h) :
    step.sequence = h.steps.length ∧
      Function.update (fun i => h.steps[i]?) step.sequence (some step) =
        fun i => h'.steps[i]? := by
  obtain ⟨hadmits, rfl⟩ := JournalHistory.append_eq_ok_iff.mp happend
  have hsequence : step.sequence = h.steps.length :=
    hadmits.sequence.trans hr.sound.step_count
  refine ⟨hsequence, funext fun i => ?_⟩
  rw [JournalHistory.after_steps, hsequence]
  by_cases hi : i = h.steps.length
  · subst hi
    simp
  · rw [Function.update_of_ne hi]
    rcases Nat.lt_or_gt_of_ne hi with hlt | hgt
    · rw [List.getElem?_append_left hlt]
    · rw [List.getElem?_eq_none (by omega), List.getElem?_eq_none (by simp; omega)]

/-- The store after the step of an append is published. -/
def World.published (w : World) (h h' : JournalHistory) (step : JournalStep) : World :=
  ⟨Function.update w.journals h.declaration (some ⟨some h.cursor, fun i => h'.steps[i]?⟩),
    w.trace ++ [⟨.store (.publishStep step), step⟩]⟩

/-- The store after its cursor is published. -/
def World.committed (w : World) (h h' : JournalHistory) (step : JournalStep) : World :=
  ⟨Function.update (w.published h h' step).journals h.declaration (some (.of h')),
    (w.published h h' step).trace ++
      [⟨.store (.compareAndPublishCursor (some h.cursor) h'.cursor), h'.cursor⟩]⟩

/-- A world one append may leave: before it, between its calls, after it. -/
def World.Appends (w : World) (h h' : JournalHistory) (step : JournalStep) (w' : World) : Prop :=
  w' = w ∨ w' = w.published h h' step ∨ w' = w.committed h h' step

/-- A transition the journal accepts is published as one step and its cursor. -/
theorem appendJournalStep_worlds {h h' : JournalHistory} {t : Transition}
    (hjournal : w.journals h.declaration = some (.of h)) (hr : JournalHistory.Appended h)
    (ht : h.transition t = .ok h') :
    ∃ step, h.append step = .ok h' ∧ step.transition = t ∧
      (appendJournalStep h t).Ensures (worldMachine c) w
        (fun r w' => r = h' ∧ w' = w.committed h h' step)
        (fun _ w' => w.Appends h h' step w') (fun w' => w.Appends h h' step w') := by
  obtain ⟨step, hstep, happend⟩ := bind_eq_ok_iff.mp (show (h.nextStep t >>= h.append) = _ from ht)
  obtain ⟨hsequence, hstored⟩ := steps_of_append happend hr
  have hvalidate := validate_of_append happend
  have htransition : step.transition = t := by
    unfold JournalStep.transition
    rw [(JournalHistory.nextStep_eq_ok hstep).1]
    obtain ⟨state, event, fact, receipt, evidence⟩ := t
    cases event <;> rfl
  refine ⟨step, happend, htransition, ensures_value hstep (ensures_value hvalidate ?_)⟩
  have hbefore : w.Appends h h' step w := .inl rfl
  have hbetween : w.Appends h h' step (w.published h h' step) := .inr (.inl rfl)
  have hafter : w.Appends h h' step (w.committed h h' step) := .inr (.inr rfl)
  obtain ⟨hadmits, rfl⟩ := JournalHistory.append_eq_ok_iff.mp happend
  have hdeclaration : step.declaration = h.declaration :=
    hadmits.declaration.trans hr.sound.cursor_declaration
  have hcursor : (h.after step).cursor.declaration = h.declaration := hr.sound.cursor_declaration
  refine ensures_storeCall hbefore (fun _ => hbefore) fun response journals hok => ?_
  have hfree : (h.steps[step.sequence]?).any (· != step) = false := by
    rw [hsequence, List.getElem?_eq_none le_rfl]
    rfl
  simp only [storePerform, hdeclaration, hjournal, StoredJournal.of, hfree, Bool.false_eq_true,
    if_false, Except.ok.injEq, hstored] at hok
  obtain ⟨rfl, rfl⟩ := hok
  refine ⟨hbetween, ensures_guard (fun hne => hne rfl) ?_⟩
  refine ensures_storeCall hbetween (fun _ => hbetween) fun response journals hok => ?_
  simp only [storePerform, hcursor, Function.update_self, if_true, Except.ok.injEq] at hok
  obtain ⟨rfl, rfl⟩ := hok
  refine ⟨hafter, ensures_guard (fun hne => hne rfl) (ensures_value happend ?_)⟩
  exact ensures_guard (fun hne => hne rfl) (Process.ensures_pure.mpr ⟨rfl, rfl⟩)

/-- An append leaves what the engine leaves of one transition. -/
theorem appendJournalStep_ensures {s : EngineState} {h h' : JournalHistory} {t : Transition}
    (hb : Between A s h w) (ht : h.transition t = .ok h') :
    (appendJournalStep h t).Ensures (worldMachine c) w
      (fun r w' => r = h' ∧ Between A ⟨h', s.log ++ [⟨.journal t, ()⟩]⟩ h' w')
      (fun _ w' => Holds A s w' ∨ Holds A ⟨h', s.log ++ [⟨.journal t, ()⟩]⟩ w')
      (fun w' => Holds A s w' ∨ Holds A ⟨h', s.log ++ [⟨.journal t, ()⟩]⟩ w') := by
  have hjournal : w.journals h.declaration = some (.of h) := by
    rw [hb.declares]
    exact hb.journal
  obtain ⟨step, happend, htransition, hensures⟩ :=
    appendJournalStep_worlds (c := c) hjournal hb.appended ht
  obtain ⟨hadmits, rfl⟩ := JournalHistory.append_eq_ok_iff.mp happend
  have hr := hb.appended.append happend
  have hdeclares : A.Declares (h.after step) := hb.declares
  have htraced := hb.traced.publish htransition
  have hpending : Holds A ⟨h.after step, s.log ++ [⟨.journal t, ()⟩]⟩
      (w.published h (h.after step) step) := by
    refine ⟨some step, _, ?_, .pending happend hb.appended, htraced, hr, hdeclares⟩
    rw [← hb.declares]
    exact Function.update_self _ _ _
  have hbetween : Between A ⟨h.after step, s.log ++ [⟨.journal t, ()⟩]⟩ (h.after step)
      (w.committed h (h.after step) step) := by
    refine ⟨rfl, ?_, htraced.accept _ rfl, hr, hdeclares⟩
    rw [← hb.declares]
    exact Function.update_self _ _ _
  have hleft : ∀ w', w.Appends h (h.after step) step w' →
      Holds A s w' ∨ Holds A ⟨h.after step, s.log ++ [⟨.journal t, ()⟩]⟩ w' := by
    rintro w' (rfl | rfl | rfl)
    · exact .inl hb.holds
    · exact .inr hpending
    · exact .inr hbetween.holds
  refine hensures.mono ?_ (fun _ => hleft) hleft
  rintro r w' ⟨rfl, rfl⟩
  exact ⟨rfl, hbetween⟩

/-- A transition the journal refuses reaches no store. -/
theorem appendJournalStep_error {h : JournalHistory} {t : Transition} {e : Exn}
    (ht : h.transition t = .error e) : appendJournalStep h t = Process.throw e := by
  unfold appendJournalStep
  unfold JournalHistory.transition at ht
  cases hstep : h.nextStep t with
  | error e' =>
    have he : e' = e := by simpa [hstep, bind, Except.bind] using ht
    rw [he]
    rfl
  | ok step =>
    have happend : h.append step = .error e := by simpa [hstep, bind, Except.bind] using ht
    have hvalidate := validate_of_append_error happend
    change Process.bind (Process.pure step) _ = _
    simp only [Process.bind, hvalidate]
    rfl

/-- The engine over its collaborators simulates the engine. -/
theorem simulates (A : AdmittedApplication) (c : Collaborators) :
    Process.Simulates (engineMachine c.mechanisms) (worldMachine c) id performEngineOp
      (Between A) (Holds A) where
  view_eq := fun s h w hb => hb.history
  stopped := fun s h w hb => hb.holds
  op_ok := by
    intro op s h w r s' hb hop
    cases op with
    | journal t =>
      simp only [engineMachine, hb.history] at hop
      split at hop
      · rename_i h' ht
        simp only [Except.ok.injEq] at hop
        obtain ⟨rfl, rfl⟩ := hop
        refine Process.Ensures.bind (appendJournalStep_ensures hb ht) fun h'' w' hw => ?_
        obtain ⟨rfl, hbetween⟩ := hw
        exact Process.ensures_pure.mpr ⟨rfl, hbetween⟩
      · cases hop
    | mechanism request =>
      simp only [engineMachine, Except.ok.injEq] at hop
      obtain ⟨rfl, rfl⟩ := hop
      have hbetween : Between A ⟨s.history, s.log ++ [⟨.mechanism request, c.mechanisms request⟩]⟩
          h ⟨w.journals, w.trace ++ [⟨.mechanism request, c.mechanisms request⟩]⟩ :=
        ⟨hb.history, hb.journal, hb.traced.mechanism request _, hb.appended, hb.declares⟩
      refine (Process.ensures_call_ok rfl).mpr ⟨.inl hb.holds, .inr hbetween.holds, ?_⟩
      exact Process.ensures_pure.mpr ⟨rfl, hbetween⟩
  op_error := by
    intro op s h w e hb hop
    cases op with
    | mechanism request => cases hop
    | journal t =>
      simp only [engineMachine, hb.history] at hop
      split at hop
      · cases hop
      · rename_i e' ht
        cases hop
        change ((appendJournalStep h t).bind fun h' => Process.pure ((), h')).Ensures _ _ _ _ _
        rw [appendJournalStep_error ht]
        exact Process.ensures_throw.mpr ⟨rfl, hb.holds⟩

/-! ## Loading -/

/-- Loading the committed steps replays them. -/
theorem loadSteps_ensures {s : EngineState} {h₁ : JournalHistory} {j : StoredJournal}
    {pending : Option JournalStep} (hjournal : w.journals A.declaration = some j)
    (htraced : Traced pending s.log w.trace)
    (hholds : ∀ trace, Traced pending s.log trace → Holds A s ⟨w.journals, trace⟩)
    (steps : List JournalStep) (sequence : Nat) (h : JournalHistory)
    (hreplay : JournalHistory.replay h steps = .ok h₁)
    (hsteps : ∀ i, (hi : i < steps.length) → j.steps (sequence + i) = some steps[i]) :
    (JournalHistory.loadSteps storeCalls A.declaration steps.length sequence h).Ensures
      (worldMachine c) w
      (fun h' w' => h' = h₁ ∧ w'.journals = w.journals ∧ Traced pending s.log w'.trace)
      (fun _ w' => Holds A s w') (fun w' => Holds A s w') := by
  induction steps generalizing sequence h w with
  | nil =>
    cases hreplay
    exact Process.ensures_pure.mpr ⟨rfl, rfl, htraced⟩
  | cons step rest ih =>
    obtain ⟨h', happend, hrest⟩ := bind_eq_ok_iff.mp hreplay
    have hw := hholds w.trace htraced
    refine ensures_storeCall hw (fun _ => hw) fun response journals hok => ?_
    have hstep : j.steps sequence = some step := hsteps 0 (Nat.zero_lt_succ _)
    simp only [storePerform, hjournal, Option.bind_some, hstep, Except.ok.injEq] at hok
    obtain ⟨rfl, rfl⟩ := hok
    have htraced' := htraced.storeCall (.loadStep A.declaration sequence) (some step)
    refine ⟨hholds _ htraced', ensures_value happend ?_⟩
    let w' : World :=
      ⟨w.journals, w.trace ++ [⟨.store (.loadStep A.declaration sequence), some step⟩]⟩
    refine ih (w := w') hjournal htraced' hholds (sequence + 1) h' hrest fun i hi => ?_
    have := hsteps (i + 1) (Nat.succ_lt_succ hi)
    rwa [List.getElem_cons_succ, ← Nat.add_assoc, Nat.add_right_comm] at this

/-- Adopting what lies past the committed cursor settles the history. -/
theorem adoptOrphan_ensures {s : EngineState} {h h₀ : JournalHistory} {j : StoredJournal}
    {pending : Option JournalStep} (hjournal : w.journals A.declaration = some j)
    (htraced : Traced pending s.log w.trace) (hhistory : s.history = h)
    (hr : JournalHistory.Appended h) (hd : A.Declares h)
    (hstored : (pending = none ∧ h₀ = h ∨ ∃ step, pending = some step ∧ h₀.append step = .ok h) ∧
      JournalHistory.Appended h₀ ∧ j = ⟨some h₀.cursor, fun i => h.steps[i]?⟩) :
    (JournalHistory.adoptOrphan storeCalls A.declaration h₀.cursor h₀).Ensures (worldMachine c) w
      (fun h' w' => h' = h ∧ Between A s h w') (fun _ w' => Holds A s w')
      (fun w' => Holds A s w') := by
  obtain ⟨hpending, hr₀, rfl⟩ := hstored
  have hholds : ∀ trace, Traced pending s.log trace → Holds A s ⟨w.journals, trace⟩ := by
    intro trace htrace
    refine ⟨pending, _, hjournal, ?_, htrace, hhistory ▸ hr, hhistory ▸ hd⟩
    rw [hhistory]
    rcases hpending with ⟨rfl, rfl⟩ | ⟨step, rfl, happend⟩
    · exact .settled _
    · exact .pending happend hr₀
  have hw := hholds _ htraced
  refine ensures_storeCall hw (fun _ => hw) fun response journals hok => ?_
  simp only [storePerform, hjournal, Option.bind_some, Except.ok.injEq] at hok
  obtain ⟨rfl, rfl⟩ := hok
  have htraced' := htraced.storeCall (.loadStep A.declaration h₀.cursor.stepCount)
    (h.steps[h₀.cursor.stepCount]?)
  refine ⟨hholds _ htraced', ?_⟩
  rw [hr₀.sound.step_count] at htraced' ⊢
  rcases hpending with ⟨rfl, rfl⟩ | ⟨step, rfl, happend⟩
  · have hnone : h₀.steps[h₀.steps.length]? = none := List.getElem?_eq_none le_rfl
    rw [hnone] at htraced' ⊢
    exact Process.ensures_pure.mpr ⟨rfl, hhistory, hjournal, htraced', hr, hd⟩
  · obtain ⟨hadmits, rfl⟩ := JournalHistory.append_eq_ok_iff.mp happend
    have hsome : (h₀.after step).steps[h₀.steps.length]? = some step := by simp
    have hvalidate : h₀.validate step = .ok (h₀.after step).cursor := by
      unfold JournalHistory.validate
      rw [JournalHistory.validateStep_eq_ok_iff.mpr ⟨hadmits, rfl⟩]
      rfl
    have hcursor : (h₀.after step).cursor.declaration = A.declaration :=
      hr₀.sound.cursor_declaration.trans hd
    rw [hsome] at htraced' ⊢
    have hw' := hholds _ htraced'
    refine ensures_value hvalidate ?_
    refine ensures_storeCall hw' (fun _ => hw') fun response journals hok => ?_
    simp only [storePerform, hcursor, hjournal, if_true, Except.ok.injEq] at hok
    obtain ⟨rfl, rfl⟩ := hok
    have hbetween : Between A s (h₀.after step)
        ⟨Function.update w.journals A.declaration
          (some ⟨some (h₀.after step).cursor, fun i => (h₀.after step).steps[i]?⟩),
          w.trace ++ [⟨.store (.loadStep A.declaration h₀.steps.length), some step⟩] ++
            [⟨.store (.compareAndPublishCursor (some h₀.cursor) (h₀.after step).cursor),
              (h₀.after step).cursor⟩]⟩ :=
      ⟨hhistory, Function.update_self _ _ _, htraced'.accept _ rfl, hr, hd⟩
    refine ⟨hbetween.holds, ensures_guard (fun hne => hne rfl) ?_⟩
    exact Process.ensures_ofExcept.mpr ⟨fun h' hh' => by
      rw [happend] at hh'
      cases hh'
      exact ⟨rfl, hbetween⟩, fun e he => by rw [happend] at he; cases he⟩

/-- The declaration a world holds is loaded from it. -/
theorem loadDeclaration_ensures {s : EngineState} {j : StoredJournal}
    {pending : Option JournalStep} (hjournal : w.journals A.declaration = some j)
    (htraced : Traced pending s.log w.trace)
    (hholds : ∀ trace, Traced pending s.log trace → Holds A s ⟨w.journals, trace⟩) :
    (JournalHistory.loadDeclaration storeCalls A.declaration).Ensures (worldMachine c) w
      (fun d w' => d = A.declaration ∧ w'.journals = w.journals ∧ Traced pending s.log w'.trace)
      (fun _ w' => Holds A s w') (fun w' => Holds A s w') := by
  have hw := hholds _ htraced
  refine ensures_storeCall hw (fun _ => hw) fun response journals hok => ?_
  simp only [storePerform, hjournal, Option.map_some, Except.ok.injEq] at hok
  obtain ⟨rfl, rfl⟩ := hok
  have htraced' := htraced.storeCall (.loadDeclaration A.declaration) (some A.declaration)
  refine ⟨hholds _ htraced', ensures_guard (fun hne => hne rfl) ?_⟩
  exact Process.ensures_pure.mpr ⟨rfl, rfl, htraced'⟩

/-- The settled part of what a world holds of `h`: a history whose cursor the
store has, and which lacks at most the pending step. -/
structure Settled (A : AdmittedApplication) (h : JournalHistory) (log : List EngineCall)
    (pending : Option JournalStep) (h₀ : JournalHistory) (w : World) : Prop where
  journal : w.journals A.declaration = some ⟨some h₀.cursor, fun i => h.steps[i]?⟩
  traced : Traced pending log w.trace
  pending : pending = none ∧ h₀ = h ∨ ∃ step, pending = some step ∧ h₀.append step = .ok h
  settled : JournalHistory.Appended h₀
  appended : JournalHistory.Appended h
  declares : A.Declares h

theorem Settled.holds {h h₀ : JournalHistory} {log : List EngineCall}
    {pending : Option JournalStep} (hw : Settled A h log pending h₀ w) : Holds A ⟨h, log⟩ w := by
  obtain ⟨hjournal, htraced, hpending, hr₀, hr, hd⟩ := hw
  refine ⟨pending, _, hjournal, ?_, htraced, hr, hd⟩
  rcases hpending with ⟨rfl, rfl⟩ | ⟨step, rfl, happend⟩
  · exact .settled _
  · exact .pending happend hr₀

/-- A cursor is loaded, or the initial one published. -/
theorem loadCursor_ensures {h : JournalHistory} {log : List EngineCall} {j : StoredJournal}
    {pending : Option JournalStep} (hjournal : w.journals A.declaration = some j)
    (hstored : Stored pending h j) (htraced : Traced pending log w.trace)
    (hr : JournalHistory.Appended h) (hd : A.Declares h) :
    (JournalHistory.loadCursor storeCalls A.declaration A.declaration).Ensures (worldMachine c) w
      (fun cursor w' => ∃ h₀, cursor = h₀.cursor ∧ Settled A h log pending h₀ w')
      (fun _ w' => Holds A ⟨h, log⟩ w') (fun w' => Holds A ⟨h, log⟩ w') := by
  have hholds : ∀ trace, Traced pending log trace → Holds A ⟨h, log⟩ ⟨w.journals, trace⟩ :=
    fun trace htrace => ⟨pending, j, hjournal, hstored, htrace, hr, hd⟩
  have hw := hholds _ htraced
  refine ensures_storeCall hw (fun _ => hw) fun response journals hok => ?_
  simp only [storePerform, hjournal, Option.bind_some, Except.ok.injEq] at hok
  obtain ⟨rfl, rfl⟩ := hok
  have htraced' := htraced.storeCall (.loadCursor A.declaration) j.cursor
  have hw' := hholds _ htraced'
  refine ⟨hw', ?_⟩
  cases hstored with
  | settled =>
    exact Process.ensures_pure.mpr ⟨h, rfl, hjournal, htraced', .inl ⟨rfl, rfl⟩, hr, hr, hd⟩
  | @pending h₀ _ step happend hr₀ =>
    exact Process.ensures_pure.mpr
      ⟨h₀, rfl, hjournal, htraced', .inr ⟨step, rfl, happend⟩, hr₀, hr, hd⟩
  | declared d =>
    have hdeclaration : d = A.declaration := hd
    subst hdeclaration
    refine ensures_storeCall hw' (fun _ => hw') fun response journals hok => ?_
    have hcursor : (JournalCursor.initial A.declaration).declaration = A.declaration := rfl
    simp only [storePerform, hcursor, hjournal, if_true, Except.ok.injEq] at hok
    obtain ⟨rfl, rfl⟩ := hok
    have hsettled : Settled A (.initial A.declaration) log none (.initial A.declaration)
        ⟨Function.update w.journals A.declaration
          (some ⟨some (.initial A.declaration), fun _ => none⟩),
          w.trace ++ [⟨.store (.loadCursor A.declaration), none⟩] ++
            [⟨.store (.compareAndPublishCursor none (.initial A.declaration)),
              JournalCursor.initial A.declaration⟩]⟩ := by
      refine ⟨(Function.update_self _ _ _).trans ?_,
        htraced'.storeCall (.compareAndPublishCursor none _) (JournalCursor.initial _),
        .inl ⟨rfl, rfl⟩, hr, hr, hd⟩
      exact congrArg some (congrArg (StoredJournal.mk _) (funext fun i => rfl))
    refine ⟨hsettled.holds, ensures_guard (fun hne => hne rfl) ?_⟩
    exact Process.ensures_pure.mpr ⟨_, rfl, hsettled⟩

/-- What is loaded from a world is the history the world holds. -/
theorem load_ensures {s : EngineState} (hw : Holds A s w) :
    (JournalHistory.load storeCalls A.declaration).Ensures (worldMachine c) w
      (fun h' w' => Between A s h' w') (fun _ w' => Holds A s w') (fun w' => Holds A s w') := by
  obtain ⟨history, log⟩ := s
  obtain ⟨pending, j, hjournal, hstored, htraced, hr, hd⟩ := hw
  have hholds : ∀ trace, Traced pending log trace → Holds A ⟨history, log⟩ ⟨w.journals, trace⟩ :=
    fun trace htrace => ⟨pending, j, hjournal, hstored, htrace, hr, hd⟩
  refine Process.Ensures.bind (loadDeclaration_ensures (s := ⟨history, log⟩) hjournal htraced
    hholds) ?_
  rintro d ⟨journals, trace⟩ ⟨rfl, rfl, htraced₁⟩
  refine Process.Ensures.bind (loadCursor_ensures hjournal hstored htraced₁ hr hd) ?_
  rintro cursor w₂ ⟨h₀, rfl, hsettled⟩
  have hdeclaration : h₀.declaration = A.declaration := by
    rcases hsettled.pending with ⟨-, rfl⟩ | ⟨step, -, happend⟩
    · exact hd
    · obtain ⟨-, rfl⟩ := JournalHistory.append_eq_ok_iff.mp happend
      exact hd
  refine ensures_guard (not_not.mpr ?_) ?_
  · exact hsettled.settled.sound.cursor_declaration.trans hdeclaration
  rw [hsettled.settled.sound.step_count]
  refine Process.Ensures.bind (loadSteps_ensures (s := ⟨history, log⟩) hsettled.journal
    hsettled.traced (fun trace htrace => Settled.holds
      ⟨hsettled.journal, htrace, hsettled.pending, hsettled.settled, hr, hd⟩) h₀.steps 0 _
    (hdeclaration ▸ hsettled.settled.replay_eq) fun i hi => ?_) ?_
  · rw [Nat.zero_add]
    rcases hsettled.pending with ⟨-, rfl⟩ | ⟨step, -, happend⟩
    · exact List.getElem?_eq_getElem hi
    · obtain ⟨-, rfl⟩ := JournalHistory.append_eq_ok_iff.mp happend
      change (h₀.steps ++ [step])[i]? = _
      rw [List.getElem?_append_left hi, List.getElem?_eq_getElem hi]
  · rintro h' ⟨journals₃, trace₃⟩ ⟨rfl, rfl, htraced₃⟩
    refine ensures_guard (fun hne => hne rfl) ?_
    exact (adoptOrphan_ensures (w := ⟨w₂.journals, trace₃⟩) (s := ⟨history, log⟩) hsettled.journal htraced₃ rfl hr hd
      ⟨hsettled.pending, hsettled.settled, rfl⟩).mono (fun h' w' hx => hx.1 ▸ hx.2)
      (fun _ _ hx => hx) (fun _ hx => hx)

/-- Without a declaration nothing is loaded. -/
theorem load_undeclared (hnone : w.journals A.declaration = none)
    (htrace : ∀ call ∈ w.trace, outsideAnswer call = none) :
    (JournalHistory.load storeCalls A.declaration).Ensures (worldMachine c) w (fun _ _ => False)
      (fun _ w' => w'.journals = w.journals ∧ ∀ call ∈ w'.trace, outsideAnswer call = none)
      (fun w' => w'.journals = w.journals ∧ ∀ call ∈ w'.trace, outsideAnswer call = none) := by
  have hload : (JournalHistory.loadDeclaration storeCalls A.declaration).Ensures
      (worldMachine c) w (fun _ _ => False)
      (fun _ w' => w'.journals = w.journals ∧ ∀ call ∈ w'.trace, outsideAnswer call = none)
      (fun w' => w'.journals = w.journals ∧ ∀ call ∈ w'.trace, outsideAnswer call = none) := by
    refine ensures_storeCall ⟨rfl, htrace⟩ (fun _ => ⟨rfl, htrace⟩) fun response js hok => ?_
    simp only [storePerform, hnone, Option.map_none, Except.ok.injEq] at hok
    obtain ⟨rfl, rfl⟩ := hok
    have hcalls : ∀ call ∈ w.trace ++
        [(⟨.store (.loadDeclaration A.declaration), none⟩ : OutsideCall)],
          outsideAnswer call = none := by
      intro call hcall
      rcases List.mem_append.mp hcall with hcall | hcall
      · exact htrace call hcall
      · rw [List.mem_singleton.mp hcall]
        rfl
    exact ⟨⟨rfl, hcalls⟩, Process.ensures_throw.mpr ⟨rfl, hcalls⟩⟩
  refine Process.Ensures.bind (Q := fun _ _ => False) hload ?_
  exact fun _ _ hx => hx.elim

/-! ## Whole processes -/

/-- Publishing the initial journal in a store without it. -/
theorem publishInitialJournal_ensures (hfresh : w.journals A.declaration = none)
    (htrace : w.trace = []) :
    (publishInitialJournal A.declaration).Ensures (worldMachine c) w
      (fun h w' => Between A A.start h w')
      (fun _ w' => (w'.journals A.declaration = none ∧ w'.trace = []) ∨ Holds A A.start w')
      (fun w' => (w'.journals A.declaration = none ∧ w'.trace = []) ∨ Holds A A.start w') := by
  have hw : (w.journals A.declaration = none ∧ w.trace = []) ∨ Holds A A.start w :=
    .inl ⟨hfresh, htrace⟩
  refine ensures_storeCall hw (fun _ => hw) fun response journals hok => ?_
  simp only [storePerform, hfresh, Except.ok.injEq] at hok
  obtain ⟨rfl, rfl⟩ := hok
  rw [htrace]
  have htraced := Traced.nil.storeCall (.publishDeclaration A.declaration) A.declaration
  have hdeclared : Holds A A.start ⟨Function.update w.journals A.declaration
      (some ⟨none, fun _ => none⟩),
        [] ++ [⟨.store (.publishDeclaration A.declaration), A.declaration⟩]⟩ :=
    ⟨none, _, Function.update_self _ _ _, .declared _, htraced, .initial _, rfl⟩
  refine ⟨.inr hdeclared, ensures_guard (fun hne => hne rfl) ?_⟩
  refine ensures_storeCall (.inr hdeclared) (fun _ => .inr hdeclared) fun response journals hok => ?_
  have hcursor : (JournalHistory.initial A.declaration).cursor.declaration = A.declaration := rfl
  simp only [storePerform, hcursor, Function.update_self, if_true, Except.ok.injEq] at hok
  obtain ⟨rfl, rfl⟩ := hok
  have hbetween : Between A A.start (.initial A.declaration)
      ⟨Function.update (Function.update w.journals A.declaration (some ⟨none, fun _ => none⟩))
        A.declaration (some ⟨some (JournalHistory.initial A.declaration).cursor, fun _ => none⟩),
        [] ++ [⟨.store (.publishDeclaration A.declaration), A.declaration⟩] ++
          [⟨.store (.compareAndPublishCursor none (JournalHistory.initial A.declaration).cursor),
            (JournalHistory.initial A.declaration).cursor⟩]⟩ := by
    refine ⟨rfl, (Function.update_self _ _ _).trans ?_,
      htraced.storeCall (.compareAndPublishCursor none _)
        (JournalHistory.initial A.declaration).cursor, .initial _, rfl⟩
    exact congrArg some (congrArg (StoredJournal.mk _) (funext fun i => rfl))
  refine ⟨.inr hbetween.holds, ensures_guard (fun hne => hne rfl) ?_⟩
  exact Process.ensures_pure.mpr hbetween

/-- An engine process against its collaborators leaves what the engine leaves. -/
theorem outside_ensures {p : Engine ApplicationReceipt} {s : EngineState} {h : JournalHistory}
    (hb : Between A s h w) :
    (outside p h >>= fun x => pure x.1).Ensures (worldMachine c) w
      (fun _ w' => ∃ s', p.Leaves (engineMachine c.mechanisms) s s' ∧ Holds A s' w')
      (fun _ w' => ∃ s', p.Leaves (engineMachine c.mechanisms) s s' ∧ Holds A s' w')
      (fun w' => ∃ s', p.Leaves (engineMachine c.mechanisms) s s' ∧ Holds A s' w') := by
  refine Process.Ensures.bind (Q := fun _ w' => ∃ s',
    p.Leaves (engineMachine c.mechanisms) s s' ∧ Holds A s' w') ?_
    fun _ _ hx => Process.ensures_pure.mpr hx
  refine (Process.implement_ensures (simulates A c) p hb).mono ?_ ?_ ?_
  · rintro x w' ⟨s', heval, hbetween⟩
    exact ⟨s', .inr (by rw [heval]), hbetween.holds⟩
  · rintro e w' (⟨s', heval, hholds⟩ | ⟨s', hcut, hholds⟩)
    · exact ⟨s', .inr (by rw [heval]), hholds⟩
    · exact ⟨s', .inl hcut, hholds⟩
  · rintro w' ⟨s', hcut, hholds⟩
    exact ⟨s', .inl hcut, hholds⟩

end Simulation

/-- A world without a journal or any call of the backend, or one that holds a
leftover of a run of the engine. -/
def Refines (A : AdmittedApplication) (w : World) : Prop :=
  (w.journals A.declaration = none ∧ ∀ call ∈ w.trace, outsideAnswer call = none) ∨
    ∃ s, A.Left (fun _ => True) s ∧ Holds A s w

/-- What a restart leaves of a world refines a restart of the engine. -/
theorem Holds.resumed {A : AdmittedApplication} {s : EngineState} {c : Collaborators}
    {session : RestartSession} {w w' : World} (hw : Holds A s w)
    (hleaves : (resumeProcess A session).Leaves (worldMachine c) w w') :
    ∃ s', (s' = s ∨ (runRestart A.request session).Leaves (engineMachine c.mechanisms) s s') ∧
      Holds A s' w' := by
  refine Process.Ensures.leaves (I := fun w' => ∃ s', (s' = s ∨
    (runRestart A.request session).Leaves (engineMachine c.mechanisms) s s') ∧ Holds A s' w') ?_
      hleaves
  refine Process.Ensures.bind ((load_ensures hw).mono (fun _ _ hx => hx)
    (fun _ _ hx => ⟨s, .inl rfl, hx⟩) (fun _ hx => ⟨s, .inl rfl, hx⟩)) ?_
  intro h w' hb
  refine (outside_ensures hb).mono ?_ ?_ ?_
  · exact fun _ _ ⟨s', hs', hx⟩ => ⟨s', .inr hs', hx⟩
  · exact fun _ _ ⟨s', hs', hx⟩ => ⟨s', .inr hs', hx⟩
  · exact fun _ ⟨s', hs', hx⟩ => ⟨s', .inr hs', hx⟩

/-- What processes leave of the world refines the runs of the engine. -/
theorem Run.refines {A : AdmittedApplication} {w : World} (hw : Run A w) : Refines A w := by
  induction hw with
  | @applied c w journals hfresh hleaves =>
    refine Process.Ensures.leaves (I := Refines A) ?_ hleaves
    refine Process.Ensures.bind ((publishInitialJournal_ensures hfresh rfl).mono
      (fun _ _ hx => hx) ?_ ?_) ?_
    · rintro _ w' (⟨hnone, htrace⟩ | hholds)
      · exact .inl ⟨hnone, by simp [htrace]⟩
      · exact .inr ⟨_, .start, hholds⟩
    · rintro w' (⟨hnone, htrace⟩ | hholds)
      · exact .inl ⟨hnone, by simp [htrace]⟩
      · exact .inr ⟨_, .start, hholds⟩
    · intro h w' hb
      refine (outside_ensures hb).mono ?_ ?_ ?_
      · exact fun _ _ ⟨s', hleft, hholds⟩ => .inr ⟨s', .applied trivial hleft, hholds⟩
      · exact fun _ _ ⟨s', hleft, hholds⟩ => .inr ⟨s', .applied trivial hleft, hholds⟩
      · exact fun _ ⟨s', hleft, hholds⟩ => .inr ⟨s', .applied trivial hleft, hholds⟩
  | @resumed c session w w' _ hleaves ih =>
    rcases ih with ⟨hnone, htrace⟩ | ⟨s, hleft, hholds⟩
    · refine Process.Ensures.leaves (I := Refines A) ?_ hleaves
      refine Process.Ensures.bind (Q := fun _ _ => False) ((load_undeclared hnone htrace).mono
        (fun _ _ hx => hx) (fun _ w' hx => .inl ⟨hx.1 ▸ hnone, hx.2⟩)
        (fun w' hx => .inl ⟨hx.1 ▸ hnone, hx.2⟩)) ?_
      exact fun _ _ hx => hx.elim
    · obtain ⟨s', hs', hholds'⟩ := hholds.resumed hleaves
      rcases hs' with rfl | hs'
      · exact .inr ⟨s', hleft, hholds'⟩
      · exact .inr ⟨s', .resumed hleft trivial hs', hholds'⟩

/-! ## At most once -/

/-- The backend was asked for one effect. -/
def outsideExecutes (kind : EffectKind) (path : PackagePath) (c : OutsideCall) : Bool :=
  match c.1 with
  | .mechanism request => request.effect == some (kind, path)
  | .store _ => false

section AtMostOnce

variable {kind : EffectKind} {path : PackagePath}

private def answerExecutes (kind : EffectKind) (path : PackagePath)
    (c : (request : MechanismRequest) × request.Response) : Bool :=
  c.1.effect == some (kind, path)

theorem countP_outsideExecutes (trace : List OutsideCall) :
    trace.countP (outsideExecutes kind path) =
      (trace.filterMap outsideAnswer).countP (answerExecutes kind path) := by
  rw [List.countP_filterMap]
  refine List.countP_congr fun c _ => ?_
  obtain ⟨op, response⟩ := c
  cases op <;> simp [outsideAnswer, outsideExecutes, answerExecutes]

theorem countP_executesCall (log : List EngineCall) :
    log.countP (executesCall kind path) =
      (log.filterMap engineAnswer).countP (answerExecutes kind path) := by
  rw [List.countP_filterMap]
  refine List.countP_congr fun c _ => ?_
  obtain ⟨op, response⟩ := c
  cases op <;> simp [engineAnswer, executesCall, answerExecutes]

/-- Against a store, every effect is executed at most once over a whole run,
and only after the store has accepted a step with its intent. -/
theorem Run.at_most_once {A : AdmittedApplication} {w : World} (hw : Run A w) :
    (∀ kind path, w.trace.countP (outsideExecutes kind path) ≤ 1) ∧
      ∀ pre request response rest kind path,
        w.trace = pre ++ ⟨.mechanism request, response⟩ :: rest →
        request.effect = some (kind, path) →
        ∃ step, Accepted pre step ∧ step.transition.Intends kind path := by
  rcases hw.refines with ⟨-, hcalls⟩ | ⟨s, hleft, pending, j, -, -, htraced, -, -⟩
  · refine ⟨fun kind path => ?_, fun pre request response rest kind path htrace _ => ?_⟩
    · rw [countP_outsideExecutes, List.filterMap_eq_nil_iff.mpr hcalls]
      exact Nat.zero_le _
    · have hcall : (⟨.mechanism request, response⟩ : OutsideCall) ∈ w.trace := by simp [htrace]
      cases hcalls _ hcall
  · have hlogged := hleft.logged
    refine ⟨fun kind path => ?_, fun pre request response rest kind path htrace heffect => ?_⟩
    · rw [countP_outsideExecutes, htraced.answers, ← countP_executesCall]
      exact hlogged.executes_le
    · obtain ⟨pre', rest', hlog, haccepted⟩ := htraced.accounted _ _ _ _ htrace
      obtain ⟨pre'', c, rfl, hintends⟩ := hlogged.disciplined.intent_before hlog
        (show executesCall kind path _ = true by simp [executesCall, heffect])
      unfold intendsCall at hintends
      rw [Option.any_eq_true] at hintends
      obtain ⟨t, ht, hintends⟩ := hintends
      obtain ⟨step, rfl, hstep⟩ := haccepted t (List.mem_filterMap.mpr ⟨c, by simp, ht⟩)
      exact ⟨step, hstep, Transition.intends_iff.mp hintends⟩

/-- A removal against a store that refuses nothing, in an empty world. -/
def removedWorld : World :=
  ((applyProcess (.removal .none .allApplicationDomains)).eval
    (worldMachine ⟨AdmittedApplication.removalMechanisms .completed .completed .confirmed,
      fun _ _ => none⟩) ⟨fun _ => none, []⟩).2

theorem at_most_once_removed :
    (∀ kind path, removedWorld.trace.countP (outsideExecutes kind path) ≤ 1) ∧
      ∀ pre request response rest kind path,
        removedWorld.trace = pre ++ ⟨.mechanism request, response⟩ :: rest →
        request.effect = some (kind, path) →
        ∃ step, Accepted pre step ∧ step.transition.Intends kind path :=
  Run.at_most_once (.applied rfl (.inr rfl))

end AtMostOnce

end PkgApply
