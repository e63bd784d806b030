import PkgApply.Engine.Rules
import PkgApply.Restart.Exposure

/-!
# Rules of a restart

How the operations of a restart move the ledger.  An intent or a terminal
event that is retained is not journaled again, so a restarted operation reads
the slots of its own effects and writes only those that are open.
-/

namespace PkgApply

open Library

/-! ## Writing once -/

namespace Ledger

variable (l : Ledger) (kind : EffectKind) (path : Option PackagePath) (ended : Ended)

/-- The ledger after an intent that is journaled unless it is retained. -/
def intendOnce : Ledger :=
  if (l.slot kind path).intended then l else l.intend l.state kind path

/-- The ledger after a terminal event that is journaled unless one is retained. -/
def finishOnce : Ledger :=
  if (l.slot kind path).ended.isSome then l else l.finish l.state kind path ended

@[simp] theorem intendOnce_state : (l.intendOnce kind path).state = l.state := by
  unfold intendOnce
  split <;> rfl

@[simp] theorem finishOnce_state : (l.finishOnce kind path ended).state = l.state := by
  unfold finishOnce
  split <;> rfl

@[simp] theorem intendOnce_intended : ((l.intendOnce kind path).slot kind path).intended = true := by
  unfold intendOnce
  split
  · assumption
  · simp

variable {kind path} {kind' : EffectKind} {path' : Option PackagePath}

theorem intendOnce_slot_of_ne (h : ¬(kind' = kind ∧ path' = path)) :
    (l.intendOnce kind path).slot kind' path' = l.slot kind' path' := by
  unfold intendOnce
  split
  · rfl
  · exact l.intend_slot_of_ne _ h

theorem finishOnce_slot_of_ne (h : ¬(kind' = kind ∧ path' = path)) :
    (l.finishOnce kind path ended).slot kind' path' = l.slot kind' path' := by
  unfold finishOnce
  split
  · rfl
  · exact l.finish_slot_of_ne _ _ h

theorem intendOnce_intended_of (h : (l.slot kind' path').intended = true) :
    ((l.intendOnce kind path).slot kind' path').intended = true := by
  by_cases hkey : kind' = kind ∧ path' = path
  · obtain ⟨rfl, rfl⟩ := hkey
    exact l.intendOnce_intended _ _
  · rwa [intendOnce_slot_of_ne _ hkey]

theorem finishOnce_intended_of (h : (l.slot kind' path').intended = true) :
    ((l.finishOnce kind path ended).slot kind' path').intended = true := by
  by_cases hkey : kind' = kind ∧ path' = path
  · obtain ⟨rfl, rfl⟩ := hkey
    unfold finishOnce
    split
    · exact h
    · simp
  · rwa [finishOnce_slot_of_ne _ _ hkey]

/-- Only the slots of some effects differ. -/
def SameBut (keys : Set (EffectKind × Option PackagePath)) (l l' : Ledger) : Prop :=
  ∀ kind path, (kind, path) ∉ keys → l'.slot kind path = l.slot kind path

namespace SameBut

variable {keys more : Set (EffectKind × Option PackagePath)} {l l' l'' : Ledger}

theorem refl (keys : Set (EffectKind × Option PackagePath)) (l : Ledger) : SameBut keys l l :=
  fun _ _ _ => rfl

theorem trans (h : SameBut keys l l') (h' : SameBut keys l' l'') : SameBut keys l l'' :=
  fun kind path hnot => (h' kind path hnot).trans (h kind path hnot)

theorem mono (h : SameBut keys l l') (hsub : keys ⊆ more) : SameBut more l l' :=
  fun kind path hnot => h kind path fun hmem => hnot (hsub hmem)

theorem intendOnce (h : SameBut keys l l') {kind : EffectKind} {path : Option PackagePath}
    (hmem : (kind, path) ∈ keys) : SameBut keys l (l'.intendOnce kind path) := by
  intro k p hnot
  rw [intendOnce_slot_of_ne _ (by rintro ⟨rfl, rfl⟩; exact hnot hmem)]
  exact h k p hnot

theorem finishOnce (h : SameBut keys l l') {kind : EffectKind} {path : Option PackagePath}
    (hmem : (kind, path) ∈ keys) (ended : Ended) :
    SameBut keys l (l'.finishOnce kind path ended) := by
  intro k p hnot
  rw [finishOnce_slot_of_ne _ _ (by rintro ⟨rfl, rfl⟩; exact hnot hmem)]
  exact h k p hnot

end SameBut

end Ledger

section Rules

variable {A : AdmittedApplication} {m : Mechanisms} {l : Ledger} {s : EngineState} {α : Type}
  {Q : α → EngineState → Prop} {E : Exn → EngineState → Prop} {I : EngineState → Prop}
  {e : JournalEffect} {f : Unit → Engine α}

/-- Progress replayed by a restart is read off the slot. -/
theorem At.progress (h : At A l s) (he : e ∈ s.history.effects) :
    restartProgress s.history e = (l.slot e.kind e.path).progress := by
  unfold restartProgress
  rw [h.appended.restartProgress_eq h.declares.keyed he, ← h.slot_eq]

theorem At.slot_cases (h : At A l s) (he : e ∈ s.history.effects) :
    l.slot e.kind e.path = .untouched ∨ l.slot e.kind e.path = .unresolved ∨
      ∃ ended, l.slot e.kind e.path = ⟨true, some ended⟩ := by
  rw [← h.slot_eq]
  exact h.appended.slot_cases h.declares.keyed he

/-- Every journal of the attempt declares the same effects. -/
theorem At.effects (h : At A l s) {s' : EngineState} {l' : Ledger} (h' : At A l' s') :
    s'.history.effects = s.history.effects := by
  rw [h'.declares.effects, h.declares.effects]

theorem ensures_restartPublishIntent (h : At A l s) (he : e ∈ s.history.effects)
    (hongoing : ongoing l.state = true) (hI : I s)
    (hf : ∀ s', At A (l.intendOnce e.kind e.path) s' →
      I s' ∧ (f ()).Ensures (engineMachine m) s' Q E I) :
    (restartPublishIntent l.state e >>= f).Ensures (engineMachine m) s Q E I := by
  rw [restartPublishIntent, bind_assoc]
  refine ensures_history ?_
  rw [h.progress he]
  unfold Ledger.intendOnce at hf
  rcases h.slot_cases he with hslot | hslot | ⟨ended, hslot⟩
  · rw [if_neg (by simp [hslot, EffectProgress.untouched])]
    rw [if_neg (by simp [hslot])] at hf
    exact ensures_intent h he hslot (stateMayFollow_self _) hongoing hI hf
  · rw [if_pos (by simp [hslot])] at hf ⊢
    exact (hf s h).2
  · rw [if_pos (by simp [hslot, Slot.progress])]
    rw [if_pos (by simp [hslot])] at hf
    exact (hf s h).2

theorem ensures_restartPublishTerminal {terminal : EventKind} {evidence : Evidence}
    {fact : Option ReplayFact} (h : At A l s) (he : e ∈ s.history.effects)
    (hintended : (l.slot e.kind e.path).intended = true) (hkind : terminal ≠ .intent)
    (hongoing : ongoing l.state = true) (hI : I s)
    (hf : ∀ s', At A (l.finishOnce e.kind e.path ⟨terminal, evidence, fact⟩) s' →
      I s' ∧ (f ()).Ensures (engineMachine m) s' Q E I) :
    (restartPublishTerminal l.state e terminal evidence fact >>= f).Ensures (engineMachine m) s
      Q E I := by
  rw [restartPublishTerminal, bind_assoc]
  refine ensures_history ?_
  rw [h.progress he]
  unfold Ledger.finishOnce at hf
  rcases h.slot_cases he with hslot | hslot | ⟨ended, hslot⟩
  · rw [hslot] at hintended
    cases hintended
  · rw [if_neg (by simp [hslot])] at hf ⊢
    exact ensures_terminal h he hslot hkind (stateMayFollow_self _) hongoing hI hf
  · rw [if_pos (by simp [hslot, Slot.progress])] at ⊢
    rw [if_pos (by simp [hslot])] at hf
    exact (hf s h).2

/-- The engine stands where only the slots of some effects have moved. -/
def Moved (A : AdmittedApplication) (l : Ledger) (keys : Set (EffectKind × Option PackagePath))
    (s : EngineState) : Prop :=
  ∃ l', At A l' s ∧ l'.state = l.state ∧ Ledger.SameBut keys l l'

theorem At.moved (h : At A l s) (keys : Set (EffectKind × Option PackagePath)) :
    Moved A l keys s := ⟨l, h, rfl, .refl _ _⟩

end Rules

/-! ## Ledgers that fit -/

def ReplayFact.synchronization? : ReplayFact → Option DurabilityFact
  | .synchronization fact => some fact
  | _ => none

/-- The synchronization a ledger retains under one effect. -/
def Ledger.synchronization (l : Ledger) (kind : EffectKind) : Option DurabilityFact :=
  (l.slot kind none).fact.bind ReplayFact.synchronization?

/-- Every ended slot of some effects is of a declared effect and fits it. -/
def Ledger.Fits (A : AdmittedApplication) (keys : Set (EffectKind × Option PackagePath))
    (l : Ledger) : Prop :=
  ∀ kind path ended, (kind, path) ∈ keys → (l.slot kind path).ended = some ended →
    ended.Fits A kind path ∧ A.HasKey kind path

theorem At.fits {A : AdmittedApplication} {l : Ledger} {s : EngineState} (h : At A l s)
    (hfits : s.history.Fitting A) (keys : Set (EffectKind × Option PackagePath)) :
    l.Fits A keys := by
  intro kind path ended _ hended
  rw [← h.slot_eq] at hended
  exact hfits.slot h.appended h.declares hended

/-- Effects that have not moved still fit. -/
theorem Ledger.Fits.sameBut {A : AdmittedApplication} {l l' : Ledger}
    {keys moved : Set (EffectKind × Option PackagePath)} (h : l.Fits A keys)
    (hsame : SameBut moved l l') (hdisjoint : ∀ x ∈ keys, x ∉ moved) : l'.Fits A keys := by
  intro kind path ended hmem hended
  rw [hsame kind path (hdisjoint _ hmem)] at hended
  exact h kind path ended hmem hended

end PkgApply
