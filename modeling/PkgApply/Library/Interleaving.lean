import Mathlib.Logic.Function.Basic
import Mathlib.Logic.Relation
import PkgApply.Library.Process

/-!
# Interleaved processes

Members run processes against one shared state.  Each call on the shared state
is atomic, may end in an exception with or without its effect, and between two
calls of one member any calls of the others may happen.  A member has a memory
of its own, which it sets by an operation of its process.

`Guarded` is the rely and guarantee condition of one process: whatever the
others do within a relation, its own calls stay within it, what it remembers
satisfies a stable predicate, and an exception finds the memory it started
with.  `Reaches.sound` carries it to every interleaving.
-/

namespace PkgApply.Library

variable {T : Signature} {σ μ ε α β : Type}

/-- Calls on the shared state, and setting the member's own memory. -/
inductive MemberOp (T : Signature) (μ : Type) where
  | shared (op : T.Op)
  | remember (m : μ)

def memberSignature (T : Signature) (μ : Type) : Signature where
  Op := MemberOp T μ
  Response
    | .shared op => T.Response op
    | .remember _ => Unit

abbrev MemberProcess (T : Signature) (μ ε α : Type) := Process (memberSignature T μ) Unit ε α

/-- What a call may answer or throw, and the state it may leave. -/
abbrev Outcomes (T : Signature) (σ ε : Type) :=
  (op : T.Op) → σ → Except ε (T.Response op) → σ → Prop

/-- A memory, and the process that runs with the memory it started with. -/
structure Member (T : Signature) (μ ε : Type) where
  memory : μ
  running : Option (μ × MemberProcess T μ ε Unit)

/-- One step of a member on the shared state. -/
inductive Member.Step (O : Outcomes T σ ε) (starts : μ → MemberProcess T μ ε Unit → Prop) :
    σ → Member T μ ε → σ → Member T μ ε → Prop
  | started {s : σ} {m : μ} {p : MemberProcess T μ ε Unit} : starts m p →
    Member.Step O starts s ⟨m, none⟩ s ⟨m, some (m, p)⟩
  | looked {s : σ} {m m₀ : μ} {k : Unit → MemberProcess T μ ε Unit} :
    Member.Step O starts s ⟨m, some (m₀, .look k)⟩ s ⟨m, some (m₀, k ())⟩
  | answered {s s' : σ} {m m₀ : μ} {op : T.Op} {k : T.Response op → MemberProcess T μ ε Unit}
    {r : T.Response op} : O op s (.ok r) s' →
    Member.Step O starts s ⟨m, some (m₀, .call (.shared op) k)⟩ s' ⟨m, some (m₀, k r)⟩
  | failed {s s' : σ} {m m₀ : μ} {op : T.Op} {k : T.Response op → MemberProcess T μ ε Unit}
    {e : ε} : O op s (.error e) s' →
    Member.Step O starts s ⟨m, some (m₀, .call (.shared op) k)⟩ s' ⟨m, some (m₀, .throw e)⟩
  | remembered {s : σ} {m m₀ m' : μ} {k : Unit → MemberProcess T μ ε Unit} :
    Member.Step O starts s ⟨m, some (m₀, .call (.remember m') k)⟩ s ⟨m', some (m₀, k ())⟩
  | returned {s : σ} {m m₀ : μ} :
    Member.Step O starts s ⟨m, some (m₀, .pure ())⟩ s ⟨m, none⟩
  | threw {s : σ} {m m₀ : μ} {e : ε} :
    Member.Step O starts s ⟨m, some (m₀, .throw e)⟩ s ⟨m, none⟩

/-- The shared state and all members. -/
structure Members (ι : Type) (T : Signature) (σ μ ε : Type) where
  shared : σ
  member : ι → Member T μ ε

/-- One member makes a step. -/
inductive Members.Step {ι : Type} [DecidableEq ι] (O : Outcomes T σ ε)
    (starts : μ → MemberProcess T μ ε Unit → Prop) :
    Members ι T σ μ ε → Members ι T σ μ ε → Prop
  | step {S : Members ι T σ μ ε} {i : ι} {s' : σ} {M' : Member T μ ε} :
    Member.Step O starts S.shared (S.member i) s' M' →
    Members.Step O starts S ⟨s', Function.update S.member i M'⟩

/-- Any number of steps, in any order of members. -/
abbrev Members.Reaches {ι : Type} [DecidableEq ι] (O : Outcomes T σ ε)
    (starts : μ → MemberProcess T μ ε Unit → Prop) :
    Members ι T σ μ ε → Members ι T σ μ ε → Prop :=
  Relation.ReflTransGen (Members.Step O starts)

/-! ## Rely and guarantee -/

/-- A relation the calls of all members stay within, and a predicate on
memories it preserves. -/
structure Reliance (σ μ : Type) where
  Valid : σ → Prop
  Later : σ → σ → Prop
  Holds : μ → σ → Prop
  refl : ∀ s, Later s s
  trans : ∀ {s₁ s₂ s₃}, Later s₁ s₂ → Later s₂ s₃ → Later s₁ s₃
  valid : ∀ {s s'}, Valid s → Later s s' → Valid s'
  stable : ∀ {m s s'}, Holds m s → Later s s' → Holds m s'

/-- The process keeps to the relation while the others do. -/
def Guarded (O : Outcomes T σ ε) (R : Reliance σ μ) (m₀ : μ) (Q : α → μ → σ → Prop) :
    MemberProcess T μ ε α → μ → σ → Prop
  | .pure a, m, s => Q a m s
  | .throw _, m, _ => m = m₀
  | .look k, m, s => Guarded O R m₀ Q (k ()) m s
  | .call (.shared op) k, m, s =>
    m = m₀ ∧ ∀ s₁, R.Later s s₁ → R.Valid s₁ → ∀ result s₂, O op s₁ result s₂ →
      R.Later s₁ s₂ ∧ ∀ r, result = .ok r → Guarded O R m₀ Q (k r) m s₂
  | .call (.remember m') k, _, s => R.Holds m' s ∧ Guarded O R m₀ Q (k ()) m' s

section Rules

variable {O : Outcomes T σ ε} {R : Reliance σ μ} {m₀ m : μ} {s s' : σ}
  {Q : α → μ → σ → Prop} {Q' : β → μ → σ → Prop}

/-- The others may go on before the process does. -/
theorem Guarded.later {p : MemberProcess T μ ε α} (hQ : ∀ a m s s', Q a m s → R.Later s s' → Q a m s')
    (h : Guarded O R m₀ Q p m s) (hs : R.Later s s') : Guarded O R m₀ Q p m s' := by
  induction p generalizing m s with
  | pure a => exact hQ a m s s' h hs
  | throw e => exact h
  | look k ih => exact ih () h hs
  | call op k ih =>
    cases op with
    | shared op => exact ⟨h.1, fun s₁ h₁ => h.2 s₁ (R.trans hs h₁)⟩
    | remember m' => exact ⟨R.stable h.1 hs, ih () h.2 hs⟩

/-- Sequencing. -/
theorem Guarded.bind {p : MemberProcess T μ ε α} {f : α → MemberProcess T μ ε β}
    (hp : Guarded O R m₀ Q p m s) (hf : ∀ a m s, Q a m s → Guarded O R m₀ Q' (f a) m s) :
    Guarded O R m₀ Q' (p >>= f) m s := by
  change Guarded O R m₀ Q' (p.bind f) m s
  induction p generalizing m s with
  | pure a => exact hf a m s hp
  | throw e => exact hp
  | look k ih => exact ih () hp
  | call op k ih =>
    cases op with
    | shared op =>
      refine ⟨hp.1, fun s₁ h₁ hv result s₂ hO => ?_⟩
      obtain ⟨hlater, hk⟩ := hp.2 s₁ h₁ hv result s₂ hO
      exact ⟨hlater, fun r hr => ih r (hk r hr)⟩
    | remember m' => exact ⟨hp.1, ih () hp.2⟩

/-- A computation without effects throws before anything is remembered. -/
theorem guarded_value {x : Except ε α} {f : α → MemberProcess T μ ε β} (hm : m = m₀)
    (hf : ∀ a, x = .ok a → Guarded O R m₀ Q' (f a) m s) :
    Guarded O R m₀ Q' ((liftM x : MemberProcess T μ ε α) >>= f) m s := by
  cases x with
  | ok a => exact hf a rfl
  | error e => exact hm

/-- A computation that cannot fail may come at any time. -/
theorem guarded_ok {x : Except ε α} {a : α} {f : α → MemberProcess T μ ε β} (hx : x = .ok a)
    (hf : Guarded O R m₀ Q' (f a) m s) :
    Guarded O R m₀ Q' ((liftM x : MemberProcess T μ ε α) >>= f) m s := by
  rw [hx]
  exact hf

end Rules

/-! ## Every interleaving -/

/-- What the run of members keeps true: the memory of each satisfies the
predicate, and its process goes on within the relation. -/
structure Sound {ι : Type} (O : Outcomes T σ ε) (R : Reliance σ μ) (S : Members ι T σ μ ε) :
    Prop where
  valid : R.Valid S.shared
  holds : ∀ i, R.Holds (S.member i).memory S.shared
  running : ∀ i m₀ p, (S.member i).running = some (m₀, p) →
    Guarded O R m₀ (fun _ _ _ => True) p (S.member i).memory S.shared

section Runs

variable {ι : Type} [DecidableEq ι] {O : Outcomes T σ ε} {R : Reliance σ μ}
  {starts : μ → MemberProcess T μ ε Unit → Prop} {S S' : Members ι T σ μ ε}

/-- What one member's step needs, and what it gives. -/
theorem Member.Step.sound {s s' : σ} {M M' : Member T μ ε} (h : Member.Step O starts s M s' M')
    (hstarts : ∀ m p s, starts m p → R.Valid s → R.Holds m s →
      Guarded O R m (fun _ _ _ => True) p m s)
    (hvalid : R.Valid s) (hholds : R.Holds M.memory s)
    (hrunning : ∀ m₀ p, M.running = some (m₀, p) →
      Guarded O R m₀ (fun _ _ _ => True) p M.memory s) :
    R.Later s s' ∧ R.Holds M'.memory s' ∧ ∀ m₀ p, M'.running = some (m₀, p) →
      Guarded O R m₀ (fun _ _ _ => True) p M'.memory s' := by
  cases h with
  | started hstart =>
    refine ⟨R.refl s, hholds, ?_⟩
    rintro _ _ ⟨⟩
    exact hstarts _ _ _ hstart hvalid hholds
  | looked =>
    have hk := hrunning _ _ rfl
    refine ⟨R.refl s, hholds, ?_⟩
    rintro _ _ ⟨⟩
    exact hk
  | answered hO =>
    obtain ⟨-, hcall⟩ := hrunning _ _ rfl
    obtain ⟨hlater, hk⟩ := hcall s (R.refl s) hvalid _ _ hO
    refine ⟨hlater, R.stable hholds hlater, ?_⟩
    rintro _ _ ⟨⟩
    exact hk _ rfl
  | failed hO =>
    obtain ⟨hm, hcall⟩ := hrunning _ _ rfl
    obtain ⟨hlater, -⟩ := hcall s (R.refl s) hvalid _ _ hO
    refine ⟨hlater, R.stable hholds hlater, ?_⟩
    rintro _ _ ⟨⟩
    exact hm
  | remembered =>
    obtain ⟨hm', hk⟩ := hrunning _ _ rfl
    refine ⟨R.refl s, hm', ?_⟩
    rintro _ _ ⟨⟩
    exact hk
  | returned => exact ⟨R.refl s, hholds, nofun⟩
  | threw => exact ⟨R.refl s, hholds, nofun⟩

/-- One step of the members. -/
theorem Members.Step.sound (h : Members.Step O starts S S')
    (hstarts : ∀ m p s, starts m p → R.Valid s → R.Holds m s →
      Guarded O R m (fun _ _ _ => True) p m s)
    (hS : Sound O R S) : R.Later S.shared S'.shared ∧ Sound O R S' := by
  cases h with
  | @step i s' M' hstep =>
    obtain ⟨hlater, hholds, hrunning⟩ :=
      hstep.sound hstarts hS.valid (hS.holds i) (hS.running i)
    refine ⟨hlater, R.valid hS.valid hlater, fun j => ?_, fun j => ?_⟩ <;>
      by_cases hj : j = i
    · subst hj
      simpa only [Function.update_self] using hholds
    · simpa only [Function.update_of_ne hj] using R.stable (hS.holds j) hlater
    · subst hj
      simpa only [Function.update_self] using hrunning
    · simp only [Function.update_of_ne hj]
      intro m₀ p hp
      exact (hS.running j m₀ p hp).later (fun _ _ _ _ _ _ => trivial) hlater

/-- Every interleaving of guarded members stays within the relation. -/
theorem Members.Reaches.sound (h : Members.Reaches O starts S S')
    (hstarts : ∀ m p s, starts m p → R.Valid s → R.Holds m s →
      Guarded O R m (fun _ _ _ => True) p m s)
    (hS : Sound O R S) : R.Later S.shared S'.shared ∧ Sound O R S' := by
  induction h with
  | refl => exact ⟨R.refl _, hS⟩
  | tail _ hstep ih =>
    obtain ⟨hlater, hsound⟩ := hstep.sound hstarts ih.2
    exact ⟨R.trans ih.1 hlater, hsound⟩

omit [DecidableEq ι] in
/-- A member that failed has the memory it started with. -/
theorem Sound.failed {S : Members ι T σ μ ε} (hS : Sound O R S) {i : ι} {m₀ : μ} {e : ε}
    (h : (S.member i).running = some (m₀, .throw e)) : (S.member i).memory = m₀ :=
  hS.running i m₀ _ h

end Runs

/-! ## Scheduled runs -/

/-- What a scheduled member does: start a process chosen by its memory, or go on. -/
inductive Move (T : Signature) (μ ε : Type) where
  | start (choose : μ → Option (MemberProcess T μ ε Unit))
  | go

/-- The exception a member's process has ended with. -/
def Member.failure (M : Member T μ ε) : Option ε :=
  match M.running with
  | some (_, .throw e) => some e
  | _ => none

section Scheduled

variable {ι : Type} [DecidableEq ι] (answer : (op : T.Op) → σ → Except ε (T.Response op × σ))

/-- One move of a member whose calls are answered, or else refused. -/
def Member.move (s : σ) : Move T μ ε → Member T μ ε → Option (σ × Member T μ ε)
  | .start choose, ⟨m, none⟩ => (choose m).map fun p => (s, ⟨m, some (m, p)⟩)
  | .go, ⟨m, some (m₀, .look k)⟩ => some (s, ⟨m, some (m₀, k ())⟩)
  | .go, ⟨m, some (m₀, .call (.shared op) k)⟩ =>
    match answer op s with
    | .ok (r, s') => some (s', ⟨m, some (m₀, k r)⟩)
    | .error e => some (s, ⟨m, some (m₀, .throw e)⟩)
  | .go, ⟨_, some (m₀, .call (.remember m') k)⟩ => some (s, ⟨m', some (m₀, k ())⟩)
  | .go, ⟨m, some (_, .pure ())⟩ => some (s, ⟨m, none⟩)
  | .go, ⟨m, some (_, .throw _)⟩ => some (s, ⟨m, none⟩)
  | _, _ => none

/-- Members move in the order of a schedule. -/
def Members.scheduled : List (ι × Move T μ ε) → Members ι T σ μ ε → Option (Members ι T σ μ ε)
  | [], S => some S
  | (i, t) :: moves, S => do
    let (s, M) ← (S.member i).move answer S.shared t
    Members.scheduled moves ⟨s, Function.update S.member i M⟩

variable {answer} {O : Outcomes T σ ε} {starts : μ → MemberProcess T μ ε Unit → Prop}

omit [DecidableEq ι] in
/-- A move is a step, if it starts only what may be started. -/
theorem Member.move_step (hok : ∀ op s r s', answer op s = .ok (r, s') → O op s (.ok r) s')
    (herror : ∀ op s e, answer op s = .error e → O op s (.error e) s) {s s' : σ} {t : Move T μ ε}
    {M M' : Member T μ ε} (hstarts : ∀ choose m p, t = .start choose → choose m = some p → starts m p)
    (h : M.move answer s t = some (s', M')) : Member.Step O starts s M s' M' := by
  unfold move at h
  split at h
  · rename_i choose m
    obtain ⟨p, hp, heq⟩ := Option.map_eq_some_iff.mp h
    cases heq
    exact .started (hstarts choose m p rfl hp)
  · cases h
    exact .looked
  · split at h
    · cases h
      exact .answered (hok _ _ _ _ ‹_›)
    · cases h
      exact .failed (herror _ _ _ ‹_›)
  · cases h
    exact .remembered
  · cases h
    exact .returned
  · cases h
    exact .threw
  · cases h

/-- Whatever a schedule comes to is reached. -/
theorem Members.scheduled_reaches
    (hok : ∀ op s r s', answer op s = .ok (r, s') → O op s (.ok r) s')
    (herror : ∀ op s e, answer op s = .error e → O op s (.error e) s)
    {moves : List (ι × Move T μ ε)} {S S' : Members ι T σ μ ε}
    (hstarts : ∀ i choose m p, (i, Move.start choose) ∈ moves → choose m = some p → starts m p)
    (h : Members.scheduled answer moves S = some S') : Members.Reaches O starts S S' := by
  induction moves generalizing S with
  | nil =>
    cases h
    exact .refl
  | cons move moves ih =>
    obtain ⟨i, t⟩ := move
    rw [Members.scheduled] at h
    obtain ⟨⟨s, M⟩, hmove, hrest⟩ := Option.bind_eq_some_iff.mp h
    have hstep : Member.Step O starts S.shared (S.member i) s M := by
      apply Member.move_step hok herror _ hmove
      rintro choose m p rfl hp
      exact hstarts i choose m p List.mem_cons_self hp
    apply Relation.ReflTransGen.head (.step hstep)
    exact ih (fun i choose m p hmem => hstarts i choose m p (List.mem_cons_of_mem _ hmem)) hrest

end Scheduled

end PkgApply.Library
