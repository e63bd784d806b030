import Mathlib.Data.List.Basic
import Mathlib.Logic.Function.Basic

/-!
# Keyed automata

Automata that read one word together, each letter going to the automaton of
its key.  Together they run through a word exactly when each of them runs
through the letters of its own key.
-/

namespace PkgApply.Library

variable {κ σ α : Type*} [DecidableEq κ] {step : σ → α → Option σ} {key : α → κ}
  {states states' : κ → σ} {word : List α}

/-- One letter, read by the automaton of its key. -/
def stepAt (step : σ → α → Option σ) (key : α → κ) (states : κ → σ) (a : α) : Option (κ → σ) :=
  (step (states (key a)) a).map fun s => Function.update states (key a) s

theorem foldlM_stepAt_cons {a : α} :
    (a :: word).foldlM (stepAt step key) states = some states' ↔
      ∃ s, step (states (key a)) a = some s ∧
        word.foldlM (stepAt step key) (Function.update states (key a) s) = some states' := by
  rw [List.foldlM_cons, Option.bind_eq_bind, Option.bind_eq_some_iff]
  constructor
  · rintro ⟨next, hnext, hrest⟩
    obtain ⟨s, hs, rfl⟩ := Option.map_eq_some_iff.mp hnext
    exact ⟨s, hs, hrest⟩
  · rintro ⟨s, hs, hrest⟩
    exact ⟨_, Option.map_eq_some_iff.mpr ⟨s, hs, rfl⟩, hrest⟩

/-- A common run is a run of each automaton through the letters of its key. -/
theorem foldlM_stepAt : word.foldlM (stepAt step key) states = some states' ↔
    ∀ k, (word.filter fun a => key a = k).foldlM step (states k) = some (states' k) := by
  induction word generalizing states with
  | nil => simp [funext_iff]
  | cons a word ih =>
    rw [foldlM_stepAt_cons]
    constructor
    · intro h k
      obtain ⟨s, hs, hrest⟩ := h
      have hk := ih.mp hrest k
      by_cases hkey : key a = k
      · subst hkey
        simpa [hs] using hk
      · simpa [hkey, Function.update_of_ne (Ne.symm hkey)] using hk
    · intro h
      have hself := h (key a)
      simp only [decide_true, List.filter_cons_of_pos, List.foldlM_cons, Option.bind_eq_bind,
        Option.bind_eq_some_iff] at hself
      obtain ⟨s, hs, hself⟩ := hself
      refine ⟨s, hs, ih.mpr ?_⟩
      intro k
      by_cases hkey : key a = k
      · subst hkey
        simpa using hself
      · simpa [hkey, Function.update_of_ne (Ne.symm hkey)] using h k

end PkgApply.Library
