import Mathlib.Logic.Basic
import Mathlib.Tactic.TypeStar

/-!
# Interruptible processes

A process is a program that reads a view of its own state, calls operations of
a signature, returns or throws.  A machine gives every operation a meaning on
a state.  `eval` is the uninterrupted run; `cuts` are the states in which a
stopped process may be found: before and after each of its calls.

`Ensures` relates the two to postconditions and an invariant of the cuts, and
`implement` replaces the operations of one signature by processes over
another; `implement_ensures` is the simulation rule that carries results and
cuts across.
-/

namespace PkgApply.Library

/-- Operations and what each returns. -/
structure Signature where
  Op : Type
  Response : Op → Type

/-- One call with its response. -/
abbrev Signature.Call (S : Signature) := (op : S.Op) × S.Response op

/-- A program over a signature that reads views of type `ν`. -/
inductive Process (S : Signature) (ν ε α : Type) : Type where
  | pure (a : α)
  | throw (e : ε)
  | look (k : ν → Process S ν ε α)
  | call (op : S.Op) (k : S.Response op → Process S ν ε α)

/-- The meaning of the operations of a signature on a state. -/
structure Machine (S : Signature) (σ ν ε : Type) where
  view : σ → ν
  perform : (op : S.Op) → σ → Except ε (S.Response op × σ)

variable {S T : Signature} {σ τ ν ξ ε α β μ : Type}

namespace Process

/-! ## Sequencing -/

protected def bind : Process S ν ε α → (α → Process S ν ε β) → Process S ν ε β
  | pure a, f => f a
  | throw e, _ => throw e
  | look k, f => look fun v => (k v).bind f
  | call op k, f => call op fun r => (k r).bind f

instance : Monad (Process S ν ε) where
  pure := Process.pure
  bind := Process.bind

/-- Read the view of the process's own state. -/
def read : Process S ν ε ν := look pure

/-- Call one operation. -/
def perform (op : S.Op) : Process S ν ε (S.Response op) := call op pure

/-- A computation without effects. -/
def ofExcept : Except ε α → Process S ν ε α
  | .ok a => pure a
  | .error e => throw e

instance : MonadLift (Except ε) (Process S ν ε) where
  monadLift := ofExcept

theorem bind_assoc {γ : Type} (p : Process S ν ε α) (f : α → Process S ν ε β)
    (g : β → Process S ν ε γ) : (p.bind f).bind g = p.bind fun a => (f a).bind g := by
  induction p with
  | pure a => rfl
  | throw e => rfl
  | look k ih => simp only [Process.bind, ih]
  | call op k ih => simp only [Process.bind, ih]

theorem bind_pure (p : Process S ν ε α) : p.bind pure = p := by
  induction p with
  | pure a => rfl
  | throw e => rfl
  | look k ih => simp only [Process.bind, ih]
  | call op k ih => simp only [Process.bind, ih]

instance : LawfulMonad (Process S ν ε) :=
  LawfulMonad.mk' _ bind_pure (fun _ _ => rfl) bind_assoc

/-! ## Runs and cuts -/

/-- The uninterrupted run. -/
def eval (M : Machine S σ ν ε) : Process S ν ε α → σ → Except ε α × σ
  | pure a, s => (.ok a, s)
  | throw e, s => (.error e, s)
  | look k, s => eval M (k (M.view s)) s
  | call op k, s =>
    match M.perform op s with
    | .ok (r, s') => eval M (k r) s'
    | .error e => (.error e, s)

/-- The states in which a stopped process may be found. -/
def cuts (M : Machine S σ ν ε) : Process S ν ε α → σ → List σ
  | pure _, _ => []
  | throw _, _ => []
  | look k, s => cuts M (k (M.view s)) s
  | call op k, s =>
    s :: match M.perform op s with
      | .ok (r, s') => s' :: cuts M (k r) s'
      | .error _ => []

/-- Results satisfy `Q`, exceptions satisfy `E`, and cuts satisfy `I`. -/
structure Ensures (M : Machine S σ ν ε) (p : Process S ν ε α) (s : σ)
    (Q : α → σ → Prop) (E : ε → σ → Prop) (I : σ → Prop) : Prop where
  returned : ∀ a s', p.eval M s = (.ok a, s') → Q a s'
  thrown : ∀ e s', p.eval M s = (.error e, s') → E e s'
  cut : ∀ s' ∈ p.cuts M s, I s'

section Rules

variable {M : Machine S σ ν ε} {s : σ} {Q Q' : α → σ → Prop} {E E' : ε → σ → Prop}
  {I I' : σ → Prop}

/-- Weakening of all three conditions. -/
theorem Ensures.mono {p : Process S ν ε α} (h : p.Ensures M s Q E I)
    (hQ : ∀ a s', Q a s' → Q' a s') (hE : ∀ e s', E e s' → E' e s') (hI : ∀ s', I s' → I' s') :
    p.Ensures M s Q' E' I' :=
  ⟨fun a s' h' => hQ a s' (h.returned a s' h'), fun e s' h' => hE e s' (h.thrown e s' h'),
    fun s' h' => hI s' (h.cut s' h')⟩

theorem ensures_pure {a : α} : (pure a : Process S ν ε α).Ensures M s Q E I ↔ Q a s := by
  constructor
  · intro h
    exact h.returned a s rfl
  · intro h
    refine ⟨?_, ?_, fun s' hs' => absurd hs' List.not_mem_nil⟩
    · rintro _ _ ⟨⟩
      exact h
    · rintro _ _ ⟨⟩

theorem ensures_throw {e : ε} : (throw e : Process S ν ε α).Ensures M s Q E I ↔ E e s := by
  constructor
  · intro h
    exact h.thrown e s rfl
  · intro h
    refine ⟨?_, ?_, fun s' hs' => absurd hs' List.not_mem_nil⟩
    · rintro _ _ ⟨⟩
    · rintro _ _ ⟨⟩
      exact h

theorem ensures_look {k : ν → Process S ν ε α} :
    (look k).Ensures M s Q E I ↔ (k (M.view s)).Ensures M s Q E I :=
  ⟨fun h => ⟨h.returned, h.thrown, h.cut⟩, fun h => ⟨h.returned, h.thrown, h.cut⟩⟩

/-- A call that succeeds continues in the state it leads to. -/
theorem ensures_call_ok {op : S.Op} {k : S.Response op → Process S ν ε α} {r : S.Response op}
    {s₁ : σ} (hop : M.perform op s = .ok (r, s₁)) :
    (call op k).Ensures M s Q E I ↔ I s ∧ I s₁ ∧ (k r).Ensures M s₁ Q E I := by
  have heval : (call op k).eval M s = (k r).eval M s₁ := by simp only [eval, hop]
  have hcuts : (call op k).cuts M s = s :: s₁ :: (k r).cuts M s₁ := by simp only [cuts, hop]
  constructor
  · intro h
    refine ⟨h.cut s (by simp [hcuts]), h.cut s₁ (by simp [hcuts]), ?_, ?_, ?_⟩
    · intro a s' h'
      exact h.returned a s' (heval.trans h')
    · intro e s' h'
      exact h.thrown e s' (heval.trans h')
    · intro s' h'
      exact h.cut s' (by simp [hcuts, h'])
  · rintro ⟨hs, hs₁, hk⟩
    refine ⟨?_, ?_, ?_⟩
    · intro a s' h'
      exact hk.returned a s' (heval.symm.trans h')
    · intro e s' h'
      exact hk.thrown e s' (heval.symm.trans h')
    · intro s' h'
      rw [hcuts, List.mem_cons, List.mem_cons] at h'
      rcases h' with rfl | rfl | h'
      · exact hs
      · exact hs₁
      · exact hk.cut s' h'

/-- A call that fails ends the process where it stood. -/
theorem ensures_call_error {op : S.Op} {k : S.Response op → Process S ν ε α} {e : ε}
    (hop : M.perform op s = .error e) : (call op k).Ensures M s Q E I ↔ I s ∧ E e s := by
  have heval : (call op k).eval M s = (.error e, s) := by simp only [eval, hop]
  have hcuts : (call op k).cuts M s = [s] := by simp only [cuts, hop]
  constructor
  · intro h
    exact ⟨h.cut s (by simp [hcuts]), h.thrown e s heval⟩
  · rintro ⟨hs, he⟩
    refine ⟨?_, ?_, ?_⟩
    · intro a s' h'
      rw [heval] at h'
      cases h'
    · intro e' s' h'
      rw [heval] at h'
      cases h'
      exact he
    · intro s' h'
      rw [hcuts, List.mem_singleton] at h'
      rwa [h']

theorem eval_bind {M : Machine S σ ν ε} (p : Process S ν ε α) (f : α → Process S ν ε β) (s : σ) :
    (p.bind f).eval M s =
      match p.eval M s with
      | (.ok a, s') => (f a).eval M s'
      | (.error e, s') => (.error e, s') := by
  induction p generalizing s with
  | pure a => rfl
  | throw e => rfl
  | look k ih => exact ih _ s
  | call op k ih =>
    simp only [Process.bind, eval]
    cases M.perform op s with
    | error e => rfl
    | ok rs => exact ih _ _

theorem cuts_bind {M : Machine S σ ν ε} (p : Process S ν ε α) (f : α → Process S ν ε β) (s : σ) :
    (p.bind f).cuts M s = p.cuts M s ++
      match p.eval M s with
      | (.ok a, s') => (f a).cuts M s'
      | (.error _, _) => [] := by
  induction p generalizing s with
  | pure a => rfl
  | throw e => rfl
  | look k ih => exact ih _ s
  | call op k ih =>
    simp only [Process.bind, cuts, eval]
    cases M.perform op s with
    | error e => rfl
    | ok rs => simp only [ih, List.cons_append]

/-- Sequencing: the second process starts where the first returns. -/
theorem Ensures.bind {p : Process S ν ε α} {f : α → Process S ν ε β} {R : β → σ → Prop}
    (hp : p.Ensures M s Q E I) (hf : ∀ a s', Q a s' → (f a).Ensures M s' R E I) :
    (p >>= f).Ensures M s R E I := by
  change (p.bind f).Ensures M s R E I
  have heval := eval_bind (M := M) p f s
  have hcuts := cuts_bind (M := M) p f s
  cases hrun : p.eval M s with
  | mk result s₁ =>
    cases result with
    | ok a =>
      have hnext := hf a s₁ (hp.returned a s₁ hrun)
      rw [hrun] at heval hcuts
      refine ⟨?_, ?_, ?_⟩
      · intro b s' h'
        exact hnext.returned b s' (heval.symm.trans h')
      · intro e s' h'
        exact hnext.thrown e s' (heval.symm.trans h')
      · intro s' h'
        rw [hcuts, List.mem_append] at h'
        exact h'.elim (hp.cut s') (hnext.cut s')
    | error e =>
      have hE := hp.thrown e s₁ hrun
      rw [hrun] at heval hcuts
      refine ⟨?_, ?_, ?_⟩
      · intro b s' h'
        rw [heval] at h'
        cases h'
      · intro e' s' h'
        rw [heval] at h'
        cases h'
        exact hE
      · intro s' h'
        rw [hcuts, List.append_nil] at h'
        exact hp.cut s' h'

/-- What a process ensures twice it ensures together. -/
theorem Ensures.and {p : Process S ν ε α} (h : p.Ensures M s Q E I) (h' : p.Ensures M s Q' E' I') :
    p.Ensures M s (fun a s' => Q a s' ∧ Q' a s') (fun e s' => E e s' ∧ E' e s')
      (fun s' => I s' ∧ I' s') :=
  ⟨fun a s' hrun => ⟨h.returned a s' hrun, h'.returned a s' hrun⟩,
    fun e s' hrun => ⟨h.thrown e s' hrun, h'.thrown e s' hrun⟩,
    fun s' hs' => ⟨h.cut s' hs', h'.cut s' hs'⟩⟩

/-- A process that does not throw returns. -/
theorem Ensures.returns {p : Process S ν ε α} (h : p.Ensures M s Q (fun _ _ => False) I) :
    ∃ a s', p.eval M s = (.ok a, s') ∧ Q a s' := by
  cases hrun : p.eval M s with
  | mk result s' =>
    cases result with
    | ok a => exact ⟨a, s', rfl, h.returned a s' hrun⟩
    | error e => exact (h.thrown e s' hrun).elim

/-- A process that does not return throws. -/
theorem Ensures.throws {p : Process S ν ε α} (h : p.Ensures M s (fun _ _ => False) E I) :
    ∃ e s', p.eval M s = (.error e, s') ∧ E e s' := by
  cases hrun : p.eval M s with
  | mk result s' =>
    cases result with
    | ok a => exact (h.returned a s' hrun).elim
    | error e => exact ⟨e, s', rfl, h.thrown e s' hrun⟩

/-- A process returns with a result of one kind exactly under a condition, if
that condition is what its results and exceptions tell. -/
theorem Ensures.returns_iff {p : Process S ν ε α} {accept : α → Prop} {C : Prop}
    (h : p.Ensures M s (fun a _ => accept a ↔ C) (fun _ _ => ¬C) I) :
    (∃ a s', p.eval M s = (.ok a, s') ∧ accept a) ↔ C := by
  cases hrun : p.eval M s with
  | mk result s' =>
    cases result with
    | ok a =>
      have hiff := h.returned a s' hrun
      constructor
      · rintro ⟨b, _, hb, haccept⟩
        cases hb
        exact hiff.mp haccept
      · exact fun hC => ⟨a, s', rfl, hiff.mpr hC⟩
    | error e =>
      refine ⟨?_, fun hC => absurd hC (h.thrown e s' hrun)⟩
      rintro ⟨b, _, hb, -⟩
      cases hb

/-- What every successful call preserves holds wherever a process ends or is cut. -/
theorem ensures_invariant {I : σ → Prop}
    (hstep : ∀ op s s' r, I s → M.perform op s = .ok (r, s') → I s') (p : Process S ν ε α)
    (hs : I s) : p.Ensures M s (fun _ s' => I s') (fun _ s' => I s') I := by
  induction p generalizing s with
  | pure a => exact ensures_pure.mpr hs
  | throw e => exact ensures_throw.mpr hs
  | look k ih => exact ensures_look.mpr (ih _ hs)
  | call op k ih =>
    cases hop : M.perform op s with
    | error e => exact (ensures_call_error hop).mpr ⟨hs, hs⟩
    | ok rs =>
      obtain ⟨r, s'⟩ := rs
      have hs' := hstep op s s' r hs hop
      exact (ensures_call_ok hop).mpr ⟨hs, hs', ih r hs'⟩

/-- Every process ensures nothing. -/
theorem ensures_trivial (p : Process S ν ε α) :
    p.Ensures M s (fun _ _ => True) (fun _ _ => True) (fun _ => True) :=
  ⟨fun _ _ _ => trivial, fun _ _ _ => trivial, fun _ _ => trivial⟩

theorem ensures_ofExcept {x : Except ε α} :
    (ofExcept x : Process S ν ε α).Ensures M s Q E I ↔
      (∀ a, x = .ok a → Q a s) ∧ ∀ e, x = .error e → E e s := by
  cases x with
  | ok a => simp only [ofExcept, ensures_pure, Except.ok.injEq, forall_eq', reduceCtorEq,
      false_implies, implies_true, and_true]
  | error e => simp only [ofExcept, ensures_throw, Except.error.injEq, forall_eq', reduceCtorEq,
      false_implies, implies_true, true_and]

end Rules

/-! ## Results -/

/-- Whatever a process is told, what it returns satisfies `Q`. -/
def Yields (Q : α → Prop) : Process S ν ε α → Prop
  | pure a => Q a
  | throw _ => True
  | look k => ∀ v, (k v).Yields Q
  | call _ k => ∀ r, (k r).Yields Q

theorem yields_pure {Q : α → Prop} {a : α} (h : Q a) :
    (Pure.pure a : Process S ν ε α).Yields Q := h

theorem Yields.bind {P : β → Prop} {Q : α → Prop} {p : Process S ν ε β} {f : β → Process S ν ε α}
    (hp : p.Yields P) (hf : ∀ b, P b → (f b).Yields Q) : (p >>= f).Yields Q := by
  change (p.bind f).Yields Q
  induction p with
  | pure b => exact hf b hp
  | throw e => exact trivial
  | look k ih => exact fun v => ih v (hp v)
  | call op k ih => exact fun r => ih r (hp r)

theorem yields_true (p : Process S ν ε α) : p.Yields fun _ => True := by
  induction p with
  | pure a => exact trivial
  | throw e => exact trivial
  | look k ih => exact ih
  | call op k ih => exact ih

/-- What comes before the part that returns does not matter. -/
theorem Yields.after {Q : α → Prop} {p : Process S ν ε β} {f : β → Process S ν ε α}
    (hf : ∀ b, (f b).Yields Q) : (p >>= f).Yields Q := (yields_true p).bind fun b _ => hf b

theorem yields_ofExcept {Q : α → Prop} {x : Except ε α} (h : ∀ a, x = .ok a → Q a) :
    (ofExcept x : Process S ν ε α).Yields Q := by
  cases x with
  | ok a => exact h a rfl
  | error e => exact trivial

theorem Yields.ensures {Q : α → Prop} {p : Process S ν ε α} (h : p.Yields Q)
    {M : Machine S σ ν ε} {s : σ} :
    p.Ensures M s (fun a _ => Q a) (fun _ _ => True) (fun _ => True) := by
  induction p generalizing s with
  | pure a => exact ensures_pure.mpr h
  | throw e => exact ensures_throw.mpr trivial
  | look k ih => exact ensures_look.mpr (ih _ (h _))
  | call op k ih =>
    cases hop : M.perform op s with
    | error e => exact (ensures_call_error hop).mpr ⟨trivial, trivial⟩
    | ok rs => exact (ensures_call_ok hop).mpr ⟨trivial, trivial, ih _ (h _)⟩

/-! ## Leftovers -/

/-- The states a process may leave behind: where it is cut, and where it ends. -/
def Leaves (M : Machine S σ ν ε) (p : Process S ν ε α) (s s' : σ) : Prop :=
  s' ∈ p.cuts M s ∨ s' = (p.eval M s).2

/-- A process ends, throws and is cut in what it leaves behind. -/
theorem ensures_leaves {M : Machine S σ ν ε} {p : Process S ν ε α} {s : σ} :
    p.Ensures M s (fun _ s' => p.Leaves M s s') (fun _ s' => p.Leaves M s s') (p.Leaves M s) := by
  refine ⟨?_, ?_, fun s' hs' => .inl hs'⟩
  · intro a s' h
    exact .inr (by rw [h])
  · intro e s' h
    exact .inr (by rw [h])

/-- An invariant of results, exceptions and cuts holds of every leftover. -/
theorem Ensures.leaves {M : Machine S σ ν ε} {p : Process S ν ε α} {s s' : σ} {I : σ → Prop}
    (h : p.Ensures M s (fun _ s' => I s') (fun _ s' => I s') I) (hs : p.Leaves M s s') : I s' := by
  rcases hs with hcut | rfl
  · exact h.cut s' hcut
  · cases hrun : p.eval M s with
    | mk result s' =>
      cases result with
      | ok a => exact h.returned a s' hrun
      | error e => exact h.thrown e s' hrun

/-- Every call of a machine is logged. -/
def Logs (M : Machine S σ ν ε) (log : σ → List S.Call) : Prop :=
  ∀ op s r s', M.perform op s = .ok (r, s') → log s' = log s ++ [⟨op, r⟩]

/-- Each of some calls was made by a process where it may be cut. -/
def Made (M : Machine S σ ν ε) (log : σ → List S.Call) (p : Process S ν ε α) (s : σ)
    (calls : List S.Call) : Prop :=
  ∀ pre call rest, calls = pre ++ call :: rest → ∃ s₀ ∈ p.cuts M s, ∃ s₁ ∈ p.cuts M s,
    log s₀ = log s ++ pre ∧ M.perform call.1 s₀ = .ok (call.2, s₁)

section Logs

variable {M : Machine S σ ν ε} {log : σ → List S.Call} {s s₁ : σ}

theorem made_nil (p : Process S ν ε α) : Made M log p s [] :=
  fun pre call rest heq => by simp at heq

/-- A call is made before those of the rest of its process. -/
theorem Made.cons (hlogs : Logs M log) {op : S.Op} {k : S.Response op → Process S ν ε α}
    {r : S.Response op} (hop : M.perform op s = .ok (r, s₁)) {calls : List S.Call}
    (h : Made M log (k r) s₁ calls) : Made M log (call op k) s (⟨op, r⟩ :: calls) := by
  have hcuts : (call op k).cuts M s = s :: s₁ :: (k r).cuts M s₁ := by simp only [cuts, hop]
  intro pre made rest heq
  rw [hcuts]
  cases pre with
  | nil =>
    cases heq
    exact ⟨s, List.mem_cons_self, s₁, by simp, (List.append_nil _).symm, hop⟩
  | cons first pre =>
    rw [List.cons_append, List.cons_eq_cons] at heq
    obtain ⟨rfl, heq⟩ := heq
    obtain ⟨s₀, hs₀, s₂, hs₂, hlog, hperform⟩ := h pre made rest heq
    refine ⟨s₀, by simp [hs₀], s₂, by simp [hs₂], ?_, hperform⟩
    rw [hlog, hlogs op s r s₁ hop]
    simp

/-- What a process leaves has logged only calls it made. -/
theorem Leaves.made (hlogs : Logs M log) {p : Process S ν ε α} {s s' : σ}
    (h : p.Leaves M s s') : ∃ calls, log s' = log s ++ calls ∧ Made M log p s calls := by
  induction p generalizing s with
  | pure a =>
    obtain rfl : s' = s := h.elim (absurd · List.not_mem_nil) id
    exact ⟨[], (List.append_nil _).symm, made_nil _⟩
  | throw e =>
    obtain rfl : s' = s := h.elim (absurd · List.not_mem_nil) id
    exact ⟨[], (List.append_nil _).symm, made_nil _⟩
  | look k ih => exact ih _ h
  | call op k ih =>
    cases hop : M.perform op s with
    | error e =>
      simp only [Leaves, cuts, eval, hop, List.mem_singleton, or_self] at h
      exact ⟨[], by rw [h, List.append_nil], made_nil _⟩
    | ok rs =>
      obtain ⟨r, s₁⟩ := rs
      have hnext : (s' = s₁ ∨ (k r).Leaves M s₁ s') →
          ∃ calls, log s' = log s ++ calls ∧ Made M log (call op k) s calls := by
        rintro (rfl | h)
        · exact ⟨[⟨op, r⟩], hlogs op s r s' hop, (made_nil _).cons hlogs hop⟩
        · obtain ⟨calls, hlog, hmade⟩ := ih r h
          refine ⟨⟨op, r⟩ :: calls, ?_, hmade.cons hlogs hop⟩
          rw [hlog, hlogs op s r s₁ hop, List.append_assoc, List.singleton_append]
      simp only [Leaves, cuts, eval, hop, List.mem_cons, or_assoc] at h
      rcases h with rfl | h
      · exact ⟨[], (List.append_nil _).symm, made_nil _⟩
      · exact hnext h

end Logs

/-! ## Implementation of a signature -/

/-- Run a process over `S` on a memory, each operation by a process over `T`. -/
def implement (view : μ → ν) (impl : (op : S.Op) → μ → Process T ξ ε (S.Response op × μ)) :
    Process S ν ε α → μ → Process T ξ ε (α × μ)
  | pure a, m => pure (a, m)
  | throw e, _ => throw e
  | look k, m => implement view impl (k (view m)) m
  | call op k, m => (impl op m).bind fun (r, m') => implement view impl (k r) m'

/-- Simulation: `R` relates an abstract state to the memory and state that
implement it between operations, `C` to the states a stopped implementation
may leave.  An operation may be implemented by several calls, and any of them
may fail where it stands. -/
structure Simulates (A : Machine S σ ν ε) (B : Machine T τ ξ ε) (view : μ → ν)
    (impl : (op : S.Op) → μ → Process T ξ ε (S.Response op × μ))
    (R : σ → μ → τ → Prop) (C : σ → τ → Prop) : Prop where
  view_eq : ∀ s m t, R s m t → A.view s = view m
  stopped : ∀ s m t, R s m t → C s t
  op_ok : ∀ op s m t r s', R s m t → A.perform op s = .ok (r, s') →
    (impl op m).Ensures B t (fun x t' => x.1 = r ∧ R s' x.2 t') (fun _ t' => C s t' ∨ C s' t')
      (fun t' => C s t' ∨ C s' t')
  op_error : ∀ op s m t e, R s m t → A.perform op s = .error e →
    (impl op m).Ensures B t (fun _ _ => False) (fun e' t' => e' = e ∧ C s t') (fun t' => C s t')

/-- An implementation returns as the abstract process; it throws as the abstract
process or where a cut may leave it, and it is cut only where a cut may leave it. -/
theorem implement_ensures {A : Machine S σ ν ε} {B : Machine T τ ξ ε} {view : μ → ν}
    {impl : (op : S.Op) → μ → Process T ξ ε (S.Response op × μ)} {R : σ → μ → τ → Prop}
    {C : σ → τ → Prop} (h : Simulates A B view impl R C) (p : Process S ν ε α) {s : σ} {m : μ}
    {t : τ} (hR : R s m t) :
    (implement view impl p m).Ensures B t
      (fun x t' => ∃ s', p.eval A s = (.ok x.1, s') ∧ R s' x.2 t')
      (fun e t' => (∃ s', p.eval A s = (.error e, s') ∧ C s' t') ∨ ∃ s' ∈ p.cuts A s, C s' t')
      (fun t' => ∃ s' ∈ p.cuts A s, C s' t') := by
  induction p generalizing s m t with
  | pure a => exact ensures_pure.mpr ⟨s, rfl, hR⟩
  | throw e => exact ensures_throw.mpr (.inl ⟨s, rfl, h.stopped s m t hR⟩)
  | look k ih =>
    rw [implement]
    simp only [eval, cuts, h.view_eq s m t hR]
    exact ih _ hR
  | call op k ih =>
    rw [implement]
    cases hop : A.perform op s with
    | error e =>
      have himpl := h.op_error op s m t e hR hop
      refine Ensures.bind (himpl.mono (fun _ _ hx => hx) ?_ ?_) (fun _ _ hx => hx.elim)
      · rintro e' t' ⟨rfl, hC⟩
        exact .inl ⟨s, by simp only [eval, hop], hC⟩
      · intro t' hC
        exact ⟨s, by simp only [cuts, hop, List.mem_cons, true_or], hC⟩
    | ok rs =>
      obtain ⟨r, s'⟩ := rs
      have himpl := h.op_ok op s m t r s' hR hop
      have hstopped : ∀ t', C s t' ∨ C s' t' → ∃ s'' ∈ (call op k).cuts A s, C s'' t' := by
        rintro t' (hC | hC)
        · exact ⟨s, by simp only [cuts, hop, List.mem_cons, true_or], hC⟩
        · exact ⟨s', by simp only [cuts, hop, List.mem_cons, true_or, or_true], hC⟩
      refine Ensures.bind (himpl.mono (fun _ _ hx => hx) ?_ hstopped) ?_
      · exact fun e' t' hC => .inr (hstopped t' hC)
      · rintro ⟨r', m'⟩ t' ⟨hr, hR'⟩
        dsimp only at hr hR'
        subst hr
        have hcuts : ∀ t'', (∃ s'' ∈ (k r').cuts A s', C s'' t'') →
            ∃ s'' ∈ (call op k).cuts A s, C s'' t'' := by
          rintro t'' ⟨s'', hs'', hx⟩
          exact ⟨s'', by simp only [cuts, hop, List.mem_cons, hs'', or_true], hx⟩
        refine (ih r' hR').mono ?_ ?_ hcuts
        · rintro x t'' ⟨s'', hs'', hx⟩
          exact ⟨s'', by simp only [eval, hop, hs''], hx⟩
        · rintro e t'' (⟨s'', hs'', hx⟩ | hx)
          · exact .inl ⟨s'', by simp only [eval, hop, hs''], hx⟩
          · exact .inr (hcuts t'' hx)

end Process

end PkgApply.Library
