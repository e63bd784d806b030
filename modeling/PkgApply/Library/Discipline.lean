import PkgApply.Library.Process

/-!
# Disciplines

A discipline says which calls a process may make, given its last call, the
response to it and the view at the moment of the call.  Whether a process
obeys a discipline is read off the process; a machine that keeps an invariant
under disciplined calls then keeps it in every run and at every cut.
-/

namespace PkgApply.Library

variable {S : Signature} {σ ν ε α β : Type}

/-- Which calls are allowed, and what every view satisfies. -/
structure Discipline (S : Signature) (ν : Type) where
  view : ν → Prop
  call : Option S.Call → ν → S.Op → Prop

namespace Process

variable {D : Discipline S ν} {last : Option S.Call} {v : ν}

/-- Every call of the process is allowed where it is made.  Between calls the
view does not change. -/
def Obeys (D : Discipline S ν) : Option S.Call → ν → Process S ν ε α → Prop
  | _, _, pure _ => True
  | _, _, throw _ => True
  | last, v, look k => Obeys D last v (k v)
  | last, v, call op k => D.call last v op ∧ ∀ r v', D.view v' → Obeys D (some ⟨op, r⟩) v' (k r)

/-- The process obeys the discipline wherever it starts. -/
def Orderly (D : Discipline S ν) (p : Process S ν ε α) : Prop :=
  ∀ last v, D.view v → Obeys D last v p

theorem Orderly.obeys {p : Process S ν ε α} (h : p.Orderly D) (hv : D.view v) :
    p.Obeys D last v := h last v hv

/-- A process keeps to a laxer discipline. -/
theorem Obeys.mono {D' : Discipline S ν} (hview : ∀ v, D'.view v → D.view v)
    (hcall : ∀ last v op, D.call last v op → D'.call last v op) {p : Process S ν ε α}
    (h : p.Obeys D last v) : p.Obeys D' last v := by
  induction p generalizing last v with
  | pure a => exact trivial
  | throw e => exact trivial
  | look k ih => exact ih v h
  | call op k ih => exact ⟨hcall _ _ _ h.1, fun r v' hv' => ih r (h.2 r v' (hview v' hv'))⟩

theorem Orderly.mono {D' : Discipline S ν} {p : Process S ν ε α} (h : p.Orderly D)
    (hview : ∀ v, D'.view v → D.view v)
    (hcall : ∀ last v op, D.call last v op → D'.call last v op) : p.Orderly D' :=
  fun last v hv => (h last v (hview v hv)).mono hview hcall

theorem obeys_pure (a : α) : (Pure.pure a : Process S ν ε α).Obeys D last v := trivial

theorem obeys_throw (e : ε) : (throw e : Process S ν ε α).Obeys D last v := trivial

theorem orderly_pure (a : α) : (Pure.pure a : Process S ν ε α).Orderly D := fun _ _ _ => trivial

theorem orderly_throw (e : ε) : (throw e : Process S ν ε α).Orderly D := fun _ _ _ => trivial

theorem Obeys.bind {p : Process S ν ε α} {f : α → Process S ν ε β} (hv : D.view v)
    (hp : p.Obeys D last v) (hf : ∀ a, (f a).Orderly D) : (p >>= f).Obeys D last v := by
  change (p.bind f).Obeys D last v
  induction p generalizing last v with
  | pure a => exact hf a last v hv
  | throw e => exact trivial
  | look k ih => exact ih v hv hp
  | call op k ih => exact ⟨hp.1, fun r v' hv' => ih r hv' (hp.2 r v' hv')⟩

theorem Orderly.bind {p : Process S ν ε α} {f : α → Process S ν ε β} (hp : p.Orderly D)
    (hf : ∀ a, (f a).Orderly D) : (p >>= f).Orderly D :=
  fun last v hv => (hp last v hv).bind hv hf

theorem Orderly.map {p : Process S ν ε α} (f : α → β) (hp : p.Orderly D) :
    (f <$> p).Orderly D := hp.bind fun a => orderly_pure (f a)

/-- Computing changes neither the view nor the last call. -/
theorem obeys_ofExcept_bind {x : Except ε α} {f : α → Process S ν ε β}
    (h : ∀ a, x = .ok a → (f a).Obeys D last v) : (ofExcept x >>= f).Obeys D last v := by
  cases x with
  | ok a => exact h a rfl
  | error e => exact trivial

theorem orderly_ofExcept_bind {x : Except ε α} {f : α → Process S ν ε β}
    (h : ∀ a, x = .ok a → (f a).Orderly D) : (ofExcept x >>= f).Orderly D :=
  fun last v hv => obeys_ofExcept_bind fun a ha => h a ha last v hv

theorem orderly_ofExcept (x : Except ε α) : (ofExcept x : Process S ν ε α).Orderly D := by
  cases x with
  | ok a => exact orderly_pure a
  | error e => exact orderly_throw e

/-- Reading gives the view of the moment. -/
theorem obeys_read_bind {f : ν → Process S ν ε β} (h : (f v).Obeys D last v) :
    (read >>= f).Obeys D last v := h

theorem orderly_read_bind {f : ν → Process S ν ε β} (h : ∀ v, D.view v → (f v).Orderly D) :
    (read >>= f).Orderly D := fun last v hv => h v hv last v hv

theorem obeys_perform_bind {op : S.Op} {f : S.Response op → Process S ν ε β}
    (hcall : D.call last v op)
    (hf : ∀ r v', D.view v' → (f r).Obeys D (some ⟨op, r⟩) v') :
    (perform op >>= f).Obeys D last v := ⟨hcall, hf⟩

theorem obeys_perform {op : S.Op} (hcall : D.call last v op) :
    (perform op : Process S ν ε _).Obeys D last v := ⟨hcall, fun _ _ _ => trivial⟩

/-! ## Soundness -/

/-- An invariant of disciplined calls holds wherever an obedient process ends
or is cut. -/
theorem Obeys.ensures {M : Machine S σ ν ε} {I : Option S.Call → σ → Prop}
    (hstep : ∀ last s op r s', I last s → D.view (M.view s) → D.call last (M.view s) op →
      M.perform op s = .ok (r, s') → I (some ⟨op, r⟩) s' ∧ D.view (M.view s'))
    {p : Process S ν ε α} {s : σ} (hI : I last s) (hv : D.view (M.view s))
    (hp : p.Obeys D last (M.view s)) :
    p.Ensures M s (fun _ s' => ∃ last, I last s') (fun _ s' => ∃ last, I last s')
      (fun s' => ∃ last, I last s') := by
  induction p generalizing last s with
  | pure a => exact ensures_pure.mpr ⟨last, hI⟩
  | throw e => exact ensures_throw.mpr ⟨last, hI⟩
  | look k ih => exact ensures_look.mpr (ih _ hI hv hp)
  | call op k ih =>
    cases hop : M.perform op s with
    | error e => exact (ensures_call_error hop).mpr ⟨⟨last, hI⟩, last, hI⟩
    | ok rs =>
      obtain ⟨r, s'⟩ := rs
      obtain ⟨hI', hv'⟩ := hstep last s op r s' hI hv hp.1 hop
      exact (ensures_call_ok hop).mpr
        ⟨⟨last, hI⟩, ⟨_, hI'⟩, ih r hI' hv' (hp.2 r _ hv')⟩

end Process

end PkgApply.Library
