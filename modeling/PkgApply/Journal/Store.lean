import PkgApply.Journal.Soundness
import PkgApply.Library.Process

/-!
# The journal store

The persistence interface of a journal and the loading of a history from it.
What a store is asked to load is taken as it answers: the loader checks the
declaration, the cursor and every step against each other.
-/

namespace PkgApply

open Library

/-- Calls of the persistence interface.  A declaration stands for its identity. -/
inductive StoreOp where
  | publishDeclaration (declaration : JournalDeclaration)
  | publishStep (step : JournalStep)
  | compareAndPublishCursor (expected : Option JournalCursor) (cursor : JournalCursor)
  | loadDeclaration (identity : JournalDeclaration)
  | loadCursor (declaration : JournalDeclaration)
  | loadStep (declaration : JournalDeclaration) (sequence : Nat)
deriving DecidableEq

/-- What each call returns. -/
def StoreOp.Response : StoreOp → Type
  | publishDeclaration _ => JournalDeclaration
  | publishStep _ => JournalStep
  | compareAndPublishCursor _ _ => JournalCursor
  | loadDeclaration _ => Option JournalDeclaration
  | loadCursor _ => Option JournalCursor
  | loadStep _ _ => Option JournalStep

/-- A store, by the process each of its calls runs. -/
abbrev StoreCalls (T : Signature) := (op : StoreOp) → Process T Unit Exn op.Response

namespace JournalHistory

section Load

variable {T : Signature} (store : StoreCalls T) (identity : JournalDeclaration)

/-- The stored declaration under an identity. -/
def loadDeclaration : Process T Unit Exn JournalDeclaration := do
  let stored ← store (.loadDeclaration identity)
  match stored with
  | none =>
    Process.throw (.invalidArgument "application journal declaration is missing or changed")
  | some declaration => do
    refuseIf (declaration ≠ identity)
      (.invalidArgument "application journal declaration is missing or changed")
    return declaration

/-- The cursor of a declaration without one is the initial cursor. -/
def loadCursor (declaration : JournalDeclaration) : Process T Unit Exn JournalCursor := do
  let stored ← store (.loadCursor identity)
  match stored with
  | some cursor => return cursor
  | none => do
    let initialCursor := JournalCursor.initial declaration
    let cursor : JournalCursor ← store (.compareAndPublishCursor none initialCursor)
    refuseIf (cursor ≠ initialCursor)
      (.logicError "journal store changed the initial application cursor")
    return cursor

/-- The next `remaining` committed steps, from one sequence number on. -/
def loadSteps : (remaining sequence : Nat) → JournalHistory → Process T Unit Exn JournalHistory
  | 0, _, h => return h
  | remaining + 1, sequence, h => do
    let stored ← store (.loadStep identity sequence)
    match stored with
    | none =>
      Process.throw
        (.invalidArgument "application journal committed sequence contains a missing step")
    | some step => do
      let h ← h.append step
      loadSteps remaining (sequence + 1) h

/-- Adopt the step published past the committed cursor, if there is one. -/
def adoptOrphan (committed : JournalCursor) (h : JournalHistory) :
    Process T Unit Exn JournalHistory := do
  let orphan ← store (.loadStep identity committed.stepCount)
  match orphan with
  | none => return h
  | some step => do
    let candidate ← h.validate step
    let adopted : JournalCursor ← store (.compareAndPublishCursor (some committed) candidate)
    refuseIf (adopted ≠ candidate)
      (.logicError "journal store changed an adopted application cursor")
    h.append step

def load : Process T Unit Exn JournalHistory := do
  let declaration ← loadDeclaration store identity
  let committed ← loadCursor store identity declaration
  refuseIf (committed.declaration ≠ identity)
    (.invalidArgument "application journal cursor belongs to another declaration")
  let h ← loadSteps store identity committed.stepCount 0 (initial declaration)
  refuseIf (h.cursor ≠ committed)
    (.invalidArgument "application journal cursor disagrees with committed step history")
  adoptOrphan store identity committed h

end Load

/-! ## Histories of a store -/

section Returns

variable {T : Signature} {σ : Type} {M : Machine T σ Unit Exn} {store : StoreCalls T}
  {identity : JournalDeclaration} {s : σ}

/-- Loading appends the committed steps one by one. -/
theorem loadSteps_appended (remaining sequence : Nat) {h : JournalHistory} (hr : Appended h) :
    (loadSteps store identity remaining sequence h).Ensures M s (fun h' _ => Appended h')
      (fun _ _ => True) (fun _ => True) := by
  induction remaining generalizing sequence h s with
  | zero => exact Process.ensures_pure.mpr hr
  | succ remaining ih =>
    refine Process.Ensures.bind (Process.ensures_trivial _) fun stored s₁ _ => ?_
    cases stored with
    | none => exact Process.ensures_throw.mpr trivial
    | some step =>
      refine Process.Ensures.bind (Process.ensures_ofExcept.mpr ⟨?_, fun _ _ => trivial⟩)
        fun h' s₂ hr' => ih (sequence + 1) hr'
      exact fun h' happend => hr.append happend

theorem adoptOrphan_appended (committed : JournalCursor) {h : JournalHistory} (hr : Appended h) :
    (adoptOrphan store identity committed h).Ensures M s (fun h' _ => Appended h')
      (fun _ _ => True) (fun _ => True) := by
  refine Process.Ensures.bind (Process.ensures_trivial _) fun orphan s₁ _ => ?_
  cases orphan with
  | none => exact Process.ensures_pure.mpr hr
  | some step =>
    refine Process.Ensures.bind (Process.ensures_trivial _) fun candidate s₂ _ => ?_
    refine Process.Ensures.bind (Process.ensures_trivial _) fun adopted s₃ _ => ?_
    refine Process.Ensures.bind (Process.ensures_trivial _) fun _ s₄ _ => ?_
    exact Process.ensures_ofExcept.mpr ⟨fun h' happend => hr.append happend, fun _ _ => trivial⟩

/-- Whatever a store answers, what is loaded was built by appending. -/
theorem load_appended : (load store identity).Ensures M s (fun h' _ => Appended h')
    (fun _ _ => True) (fun _ => True) := by
  refine Process.Ensures.bind (Process.ensures_trivial _) fun declaration s₁ _ => ?_
  refine Process.Ensures.bind (Process.ensures_trivial _) fun committed s₂ _ => ?_
  refine Process.Ensures.bind (Process.ensures_trivial _) fun _ s₃ _ => ?_
  refine Process.Ensures.bind (loadSteps_appended _ _ (.initial declaration)) fun h s₄ hr => ?_
  refine Process.Ensures.bind (Process.ensures_trivial _) fun _ s₅ _ => ?_
  exact adoptOrphan_appended committed hr

end Returns

/-! ## Replay -/

/-- Append steps one by one. -/
def replay : JournalHistory → List JournalStep → Except Exn JournalHistory
  | h, [] => .ok h
  | h, step :: rest => do replay (← h.append step) rest

theorem replay_append {h h₁ h₂ : JournalHistory} {steps : List JournalStep} {step : JournalStep}
    (hreplay : h.replay steps = .ok h₁) (happend : h₁.append step = .ok h₂) :
    h.replay (steps ++ [step]) = .ok h₂ := by
  induction steps generalizing h with
  | nil =>
    cases hreplay
    simp only [List.nil_append, replay, happend, bind, Except.bind]
  | cons x rest ih =>
    rw [List.cons_append, replay]
    rw [replay] at hreplay
    obtain ⟨h', hx, hrest⟩ := bind_eq_ok_iff.mp hreplay
    simp only [hx, bind, Except.bind]
    exact ih hrest

theorem replay_trans {h h₁ h₂ : JournalHistory} {steps rest : List JournalStep}
    (hsteps : h.replay steps = .ok h₁) (hrest : h₁.replay rest = .ok h₂) :
    h.replay (steps ++ rest) = .ok h₂ := by
  induction steps generalizing h with
  | nil =>
    cases hsteps
    exact hrest
  | cons x steps ih =>
    rw [replay] at hsteps
    obtain ⟨h', hx, hsteps⟩ := bind_eq_ok_iff.mp hsteps
    rw [List.cons_append, replay, hx]
    exact ih hsteps

/-- Replaying appends the steps to those of the same declaration. -/
theorem replay_steps {h h' : JournalHistory} {steps : List JournalStep}
    (hreplay : h.replay steps = .ok h') :
    h'.declaration = h.declaration ∧ h'.steps = h.steps ++ steps := by
  induction steps generalizing h with
  | nil =>
    cases hreplay
    exact ⟨rfl, (List.append_nil _).symm⟩
  | cons x steps ih =>
    rw [replay] at hreplay
    obtain ⟨h₁, hx, hsteps⟩ := bind_eq_ok_iff.mp hreplay
    obtain ⟨-, rfl⟩ := append_eq_ok_iff.mp hx
    obtain ⟨hdeclaration, hall⟩ := ih hsteps
    refine ⟨hdeclaration, hall.trans ?_⟩
    rw [after_steps, List.append_assoc]
    rfl

/-- A history is its declaration with its steps appended. -/
theorem Appended.replay_eq {h : JournalHistory} (hr : Appended h) :
    replay (JournalHistory.initial h.declaration) h.steps = .ok h := by
  induction hr with
  | initial d => rfl
  | append hr happend ih =>
    have hreplay := replay_append ih happend
    obtain ⟨-, rfl⟩ := append_eq_ok_iff.mp happend
    exact hreplay

/-- Histories reachable through appending and loading. -/
inductive Reachable : JournalHistory → Prop
  | initial (d : JournalDeclaration) : Reachable (.initial d)
  | append {h h' : JournalHistory} {step : JournalStep} :
    Reachable h → h.append step = .ok h' → Reachable h'
  | loaded {T : Signature} {σ : Type} (M : Machine T σ Unit Exn) (store : StoreCalls T)
    (identity : JournalDeclaration) {s s' : σ} {h : JournalHistory} :
    (load store identity).eval M s = (.ok h, s') → Reachable h

theorem Reachable.appended {h : JournalHistory} (hr : Reachable h) : Appended h := by
  induction hr with
  | initial d => exact .initial d
  | append _ happend ih => exact ih.append happend
  | loaded M store identity hload => exact load_appended.returned _ _ hload

end JournalHistory

end PkgApply
