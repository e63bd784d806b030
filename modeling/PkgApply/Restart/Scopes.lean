import PkgApply.Engine.Rules
import PkgApply.Restart.Phases

/-!
# What a part of the engine keeps

A process that stays within a scope keeps the slots of every other phase and
adds only receipts of its scope.
-/

namespace PkgApply

open Library

/-- What a process within a scope keeps. -/
structure Kept (scope : Scope) (s s' : EngineState) : Prop where
  slots : ∀ kind path state, kind.home = some state → ¬scope.homes state →
    s'.history.slot kind path = s.history.slot kind path
  receipt : ∀ r, s'.history.receipt = some r → s.history.receipt = some r ∨ scope.sealed r
  log : s.log <+: s'.log

namespace Kept

variable {scope : Scope} {s s' s'' : EngineState}

theorem refl (scope : Scope) (s : EngineState) : Kept scope s s :=
  ⟨fun _ _ _ _ _ => rfl, fun _ hr => .inl hr, List.prefix_rfl⟩

theorem trans (h : Kept scope s s') (h' : Kept scope s' s'') : Kept scope s s'' where
  slots kind path state hhome hout :=
    (h'.slots kind path state hhome hout).trans (h.slots kind path state hhome hout)
  receipt r hr := (h'.receipt r hr).elim (h.receipt r) .inr
  log := h.log.trans h'.log

end Kept

section Scopes

variable {A : AdmittedApplication} {m : Mechanisms} {scope : Scope} {s s' : EngineState} {α β : Type}

/-- A call within a scope keeps what is outside of it. -/
theorem Kept.perform {op : EngineOp} {r : engineSignature.Response op}
    (happended : JournalHistory.Appended s.history) (hdeclares : A.Declares s.history)
    (hwithin : op.Within scope s.history) (hop : (engineMachine m).perform op s = .ok (r, s')) :
    JournalHistory.Appended s'.history ∧ A.Declares s'.history ∧ Kept scope s s' := by
  cases op with
  | mechanism request =>
    cases hop
    exact ⟨happended, hdeclares, fun _ _ _ _ _ => rfl, fun _ hr => .inl hr,
      List.prefix_append _ _⟩
  | journal t =>
    simp only [engineMachine] at hop
    split at hop
    · rename_i h' htransition
      cases hop
      obtain ⟨hp, hf⟩ :=
        JournalHistory.permits_of_transition happended hdeclares.keyed htransition
      refine ⟨hf.appended, hf.declaration.trans hdeclares, ?_, fun r hr => ?_,
        List.prefix_append _ _⟩
      · intro kind path state hhome hout
        change h'.ledger.slot kind path = s.history.slot kind path
        rw [hf.ledger]
        refine Ledger.step_slot_of_ne fun e he => ?_
        rintro ⟨rfl, -⟩
        exact hout (hwithin.home e he state hhome)
      · exact .inr (hwithin.sealed r (hf.receipt.symm.trans hr))
    · cases hop

/-- A process within a scope keeps what is outside of it. -/
theorem ensures_kept {p : Engine α} (hp : p.Orderly (within scope))
    (happended : JournalHistory.Appended s.history) (hdeclares : A.Declares s.history) :
    p.Ensures (engineMachine m) s
      (fun _ s' => JournalHistory.Appended s'.history ∧ A.Declares s'.history ∧ Kept scope s s')
      (fun _ s' => JournalHistory.Appended s'.history ∧ A.Declares s'.history ∧ Kept scope s s')
      (fun s' => JournalHistory.Appended s'.history ∧ A.Declares s'.history ∧
        Kept scope s s') := by
  refine (Process.Obeys.ensures (D := within scope) (I := fun _ s' =>
    JournalHistory.Appended s'.history ∧ A.Declares s'.history ∧ Kept scope s s') ?_
      ⟨happended, hdeclares, .refl _ _⟩ trivial (hp none _ trivial)).mono
        (fun _ _ ⟨_, h⟩ => h) (fun _ _ ⟨_, h⟩ => h) (fun _ ⟨_, h⟩ => h)
  rintro last s₁ op r s₂ ⟨happended₁, hdeclares₁, hkept₁⟩ - hwithin hop
  obtain ⟨happended₂, hdeclares₂, hkept₂⟩ := Kept.perform happended₁ hdeclares₁ hwithin hop
  exact ⟨⟨happended₂, hdeclares₂, hkept₁.trans hkept₂⟩, trivial⟩

end Scopes

end PkgApply
