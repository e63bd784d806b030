import PkgApply.Engine.Graph

/-!
# Rules of the engine

How each engine operation moves the ledger of a receipt-free journal.  A phase
is proved by these rules alone: what it reads is the ledger, and what it
leaves is the ledger with the slots of its own effects written.
-/

namespace PkgApply

open Library

/-! ## Writing the ledger -/

namespace Ledger

/-- The ledger in another state. -/
def enter (l : Ledger) (state : JournalState) : Ledger := { l with state := state }

/-- The ledger in another state with one slot written. -/
def write (l : Ledger) (state : JournalState) (kind : EffectKind) (path : Option PackagePath)
    (slot : Slot) : Ledger :=
  { l with
    state := state
    slot := fun k p => if k = kind ∧ p = path then slot else l.slot k p }

/-- The ledger after the intent of one effect. -/
def intend (l : Ledger) (state : JournalState) (kind : EffectKind) (path : Option PackagePath) :
    Ledger := l.write state kind path .unresolved

/-- The ledger after the terminal event of one effect. -/
def finish (l : Ledger) (state : JournalState) (kind : EffectKind) (path : Option PackagePath)
    (ended : Ended) : Ledger :=
  { l.write state kind path ⟨true, some ended⟩ with
    durability := settle l.durability ended.fact }

section Writes

variable (l : Ledger) (state : JournalState) (kind : EffectKind) (path : Option PackagePath)
  (slot : Slot) (ended : Ended)

@[simp] theorem enter_state : (l.enter state).state = state := rfl
@[simp] theorem enter_slot : (l.enter state).slot = l.slot := rfl
@[simp] theorem enter_durability : (l.enter state).durability = l.durability := rfl
@[simp] theorem intend_state : (l.intend state kind path).state = state := rfl
@[simp] theorem intend_durability : (l.intend state kind path).durability = l.durability := rfl
@[simp] theorem finish_state : (l.finish state kind path ended).state = state := rfl
@[simp] theorem finish_durability :
    (l.finish state kind path ended).durability = settle l.durability ended.fact := rfl

@[simp] theorem intend_slot_self : (l.intend state kind path).slot kind path = .unresolved := by
  simp [intend, write]

@[simp] theorem finish_slot_self :
    (l.finish state kind path ended).slot kind path = ⟨true, some ended⟩ := by
  simp [finish, write]

variable {kind path} {kind' : EffectKind} {path' : Option PackagePath}

theorem intend_slot_of_ne (h : ¬(kind' = kind ∧ path' = path)) :
    (l.intend state kind path).slot kind' path' = l.slot kind' path' := by
  simp [intend, write, h]

theorem finish_slot_of_ne (h : ¬(kind' = kind ∧ path' = path)) :
    (l.finish state kind path ended).slot kind' path' = l.slot kind' path' := by
  simp [finish, write, h]

@[simp] theorem intend_slot_of_kind (h : kind' ≠ kind) :
    (l.intend state kind path).slot kind' path' = l.slot kind' path' :=
  l.intend_slot_of_ne state fun hk => h hk.1

@[simp] theorem finish_slot_of_kind (h : kind' ≠ kind) :
    (l.finish state kind path ended).slot kind' path' = l.slot kind' path' :=
  l.finish_slot_of_ne state ended fun hk => h hk.1

end Writes

/-- Only slots of some kinds differ. -/
def Frame (kinds : List EffectKind) (l l' : Ledger) : Prop :=
  ∀ kind, kind ∉ kinds → ∀ path, l'.slot kind path = l.slot kind path

namespace Frame

variable {kinds : List EffectKind} {l l' l'' : Ledger}

theorem refl (kinds : List EffectKind) (l : Ledger) : Frame kinds l l := fun _ _ _ => rfl

theorem trans (h : Frame kinds l l') (h' : Frame kinds l' l'') : Frame kinds l l'' :=
  fun kind hk path => (h' kind hk path).trans (h kind hk path)

theorem enter (h : Frame kinds l l') (state : JournalState) : Frame kinds l (l'.enter state) := h

theorem intend (h : Frame kinds l l') {kind : EffectKind} (hk : kind ∈ kinds)
    (state : JournalState) (path : Option PackagePath) :
    Frame kinds l (l'.intend state kind path) := by
  intro k hnot p
  rw [intend_slot_of_kind _ _ (by rintro rfl; exact hnot hk)]
  exact h k hnot p

theorem finish (h : Frame kinds l l') {kind : EffectKind} (hk : kind ∈ kinds)
    (state : JournalState) (path : Option PackagePath) (ended : Ended) :
    Frame kinds l (l'.finish state kind path ended) := by
  intro k hnot p
  rw [finish_slot_of_kind _ _ _ (by rintro rfl; exact hnot hk)]
  exact h k hnot p

theorem mono {more : List EffectKind} (h : Frame kinds l l') (hsub : ∀ k ∈ kinds, k ∈ more) :
    Frame more l l' := fun kind hk path => h kind (fun hmem => hk (hsub kind hmem)) path

end Frame

end Ledger

/-! ## Where the engine stands -/

/-- The engine stands at a ledger: the journal is the attempt's, it holds no
receipt, and it amounts to that ledger. -/
structure At (A : AdmittedApplication) (l : Ledger) (s : EngineState) : Prop where
  appended : JournalHistory.Appended s.history
  declares : A.Declares s.history
  receipt : s.history.receipt = none
  evidence : s.history.completedEvidence = none
  ledger : s.history.ledger = l

/-- The journal of the attempt is sealed with a receipt. -/
structure Sealed (A : AdmittedApplication) (r : ApplicationReceipt) (l : Ledger)
    (s : EngineState) : Prop where
  appended : JournalHistory.Appended s.history
  declares : A.Declares s.history
  receipt : s.history.receipt = some r
  ledger : s.history.ledger = l

/-- The ledger of a published initial journal. -/
def Ledger.initial : Ledger := ⟨.preparing, fun _ _ => .untouched, .journaled⟩

theorem At.initial (A : AdmittedApplication) : At A .initial ⟨.initial A.declaration, []⟩ :=
  ⟨.initial _, rfl, rfl, rfl, rfl⟩

section Rules

variable {A : AdmittedApplication} {m : Mechanisms} {l : Ledger} {s : EngineState} {α : Type}
  {Q : α → EngineState → Prop} {E : Exn → EngineState → Prop} {I : EngineState → Prop}

/-- Where the engine stands depends on its history alone. -/
theorem At.log {s' : EngineState} (h : At A l s) (hs' : s'.history = s.history) : At A l s' := by
  obtain ⟨happended, hdeclares, hreceipt, hevidence, hledger⟩ := h
  exact ⟨hs' ▸ happended, hs' ▸ hdeclares, hs' ▸ hreceipt, hs' ▸ hevidence, hs' ▸ hledger⟩

theorem At.state_eq (h : At A l s) : s.history.state = l.state := by
  rw [← h.ledger]
  rfl

theorem At.slot_eq (h : At A l s) : s.history.slot = l.slot := by
  rw [← h.ledger]
  rfl

/-- States a receipt-free journal may be in. -/
def ongoing (state : JournalState) : Bool := !successfulState state && state != .recovered

/-! ## Reading -/

theorem ensures_history {f : JournalHistory → Engine α}
    (hf : (f s.history).Ensures (engineMachine m) s Q E I) :
    (Engine.history >>= f).Ensures (engineMachine m) s Q E I := Process.ensures_look.mpr hf

theorem ensures_ok {β : Type} {x : Except Exn β} {b : β} {f : β → Engine α} (hx : x = .ok b)
    (hf : (f b).Ensures (engineMachine m) s Q E I) :
    ((liftM x : Engine β) >>= f).Ensures (engineMachine m) s Q E I := by
  rw [hx]
  exact hf

/-- A guard that holds is passed. -/
theorem ensures_pass {p : Prop} [Decidable p] {e : Exn} {f : Unit → Engine α} (hp : ¬p)
    (hf : (f ()).Ensures (engineMachine m) s Q E I) :
    ((liftM (refuseIf p e) : Engine Unit) >>= f).Ensures (engineMachine m) s Q E I :=
  ensures_ok (refuseIf_eq_ok.mpr hp) hf

theorem ensures_error {β : Type} {x : Except Exn β} {e : Exn} {f : β → Engine α}
    (hx : x = .error e) (hE : E e s) :
    ((liftM x : Engine β) >>= f).Ensures (engineMachine m) s Q E I := by
  rw [hx]
  exact Process.ensures_throw.mpr hE

/-- A guard is passed or throws. -/
theorem ensures_check {p : Prop} [Decidable p] {e : Exn} {f : Unit → Engine α} (hE : p → E e s)
    (hf : ¬p → (f ()).Ensures (engineMachine m) s Q E I) :
    ((liftM (refuseIf p e) : Engine Unit) >>= f).Ensures (engineMachine m) s Q E I := by
  by_cases hp : p
  · exact ensures_error (if_pos hp) (hE hp)
  · exact ensures_pass hp (hf hp)

/-- A declared effect is found under its kind and path. -/
theorem ensures_find {kind : EffectKind} {path : Option PackagePath} {f : JournalEffect → Engine α}
    (h : At A l s) (hkey : A.HasKey kind path)
    (hf : ∀ e ∈ s.history.effects, e.kind = kind → e.path = path →
      (f e).Ensures (engineMachine m) s Q E I) :
    ((liftM (findEffect s.history.effects kind path) : Engine JournalEffect) >>= f).Ensures
      (engineMachine m) s Q E I := by
  obtain ⟨e, he, -, hfind, hkind, hpath⟩ := hkey.find h.declares
  exact ensures_ok hfind (hf e he hkind hpath)

/-! ## Calling -/

/-- A mechanism answers and leaves the journal alone. -/
theorem ensures_mechanism {request : MechanismRequest} {f : request.Response → Engine α}
    (h : At A l s) (hI : I s)
    (hf : ∀ s', At A l s' → I s' ∧ (f (m request)).Ensures (engineMachine m) s' Q E I) :
    (Engine.mechanism request >>= f).Ensures (engineMachine m) s Q E I := by
  obtain ⟨hI', hf⟩ := hf ⟨s.history, s.log ++ [⟨.mechanism request, m request⟩]⟩ (h.log rfl)
  exact (Process.ensures_call_ok (M := engineMachine m) rfl).mpr ⟨hI, hI', hf⟩

private theorem ensures_journal {t : Transition} {f : Unit → Engine α} (h : At A l s)
    (hp : s.history.Permits t) (hI : I s)
    (hf : ∀ s', s.history.Follows t s'.history →
      I s' ∧ (f ()).Ensures (engineMachine m) s' Q E I) :
    (Engine.journal t >>= f).Ensures (engineMachine m) s Q E I := by
  obtain ⟨h', hok, hfollows⟩ := JournalHistory.transition_ok h.appended h.declares.keyed hp
  have hop : (engineMachine m).perform (.journal t) s =
      .ok ((), ⟨h', s.log ++ [⟨.journal t, ()⟩]⟩) := by
    simp only [engineMachine, hok]
  obtain ⟨hI', hf⟩ := hf ⟨h', s.log ++ [⟨.journal t, ()⟩]⟩ hfollows
  exact (Process.ensures_call_ok hop).mpr ⟨hI, hI', hf⟩

private theorem At.follows {t : Transition} {l' : Ledger} {s' : EngineState} (h : At A l s)
    (hfollows : s.history.Follows t s'.history) (hreceipt : t.receipt = none)
    (hevidence : t.completedEvidence = none) (hledger : l.step t = l') : At A l' s' := by
  refine ⟨hfollows.appended, hfollows.declaration.trans h.declares, hfollows.receipt.trans hreceipt,
    hfollows.completedEvidence.trans hevidence, ?_⟩
  rw [hfollows.ledger, h.ledger, hledger]

private theorem At.permits {t : Transition} (h : At A l s)
    (hedge : stateMayFollow l.state t.state = true) (hongoing : ongoing t.state = true)
    (hreceipt : t.receipt = none) (hevidence : t.completedEvidence = none)
    (hdeclared : ∀ e, t.event = some e → e.effect ∈ s.history.effects)
    (hfresh : ∀ e, t.event = some e → e.kind = .intent →
      l.slot e.effect.kind e.effect.path = .untouched)
    (hunresolved : ∀ e, t.event = some e → e.kind ≠ .intent →
      l.slot e.effect.kind e.effect.path = .unresolved)
    (hfact : t.replayFact.isSome → ∃ e, t.event = some e ∧ e.kind ≠ .intent) :
    s.history.Permits t := by
  unfold ongoing at hongoing
  rw [Bool.and_eq_true, Bool.not_eq_true', bne_iff_ne] at hongoing
  refine ⟨?_, ?_, ?_, ?_, hdeclared, ?_, ?_, hfact, ?_, ?_, fun _ => hevidence, ?_⟩
  · rwa [h.state_eq]
  · simp [h.receipt]
  · simp [h.evidence]
  · simp [hevidence]
  · rwa [h.slot_eq]
  · rwa [h.slot_eq]
  · simp [hreceipt]
  · intro hstate
    rw [hongoing.1] at hstate
    cases hstate
  · exact fun hstate => absurd hstate hongoing.2

/-- A state is entered along an edge. -/
theorem ensures_enter {state : JournalState} {f : Unit → Engine α} (h : At A l s)
    (hedge : stateMayFollow l.state state = true) (hongoing : ongoing state = true) (hI : I s)
    (hf : ∀ s', At A (l.enter state) s' →
      I s' ∧ (f ()).Ensures (engineMachine m) s' Q E I) :
    (publishState state >>= f).Ensures (engineMachine m) s Q E I := by
  refine ensures_journal h (h.permits hedge hongoing rfl rfl nofun nofun nofun nofun) hI
    fun s' hfollows => hf s' (h.follows hfollows rfl rfl rfl)

/-- The intent of an untouched effect leaves its slot unresolved. -/
theorem ensures_intent {state : JournalState} {e : JournalEffect} {f : Unit → Engine α}
    (h : At A l s) (he : e ∈ s.history.effects) (hslot : l.slot e.kind e.path = .untouched)
    (hedge : stateMayFollow l.state state = true) (hongoing : ongoing state = true) (hI : I s)
    (hf : ∀ s', At A (l.intend state e.kind e.path) s' →
      I s' ∧ (f ()).Ensures (engineMachine m) s' Q E I) :
    (publishEvent state e .intent >>= f).Ensures (engineMachine m) s Q E I := by
  refine ensures_journal h (h.permits hedge hongoing rfl rfl ?_ ?_ ?_ nofun) hI
    fun s' hfollows => hf s' (h.follows hfollows rfl rfl ?_)
  · rintro _ ⟨⟩
    exact he
  · rintro _ ⟨⟩ -
    exact hslot
  · rintro _ ⟨⟩ hintent
    exact absurd rfl hintent
  · simp only [Ledger.step, Ledger.intend, Ledger.write, settle_none, Ledger.mk.injEq, true_and,
      and_true]
    funext k p
    by_cases hkey : k = e.kind ∧ p = e.path
    · obtain ⟨rfl, rfl⟩ := hkey
      simp [hslot]
    · rw [if_neg hkey, if_neg fun hx => hkey ⟨hx.1.symm, hx.2.symm⟩]

/-- A terminal event ends an unresolved effect. -/
theorem ensures_terminal {state : JournalState} {e : JournalEffect} {kind : EventKind}
    {evidence : Evidence} {fact : Option ReplayFact} {f : Unit → Engine α}
    (h : At A l s) (he : e ∈ s.history.effects) (hslot : l.slot e.kind e.path = .unresolved)
    (hkind : kind ≠ .intent) (hedge : stateMayFollow l.state state = true)
    (hongoing : ongoing state = true) (hI : I s)
    (hf : ∀ s', At A (l.finish state e.kind e.path ⟨kind, evidence, fact⟩) s' →
      I s' ∧ (f ()).Ensures (engineMachine m) s' Q E I) :
    (publishEvent state e kind evidence fact >>= f).Ensures (engineMachine m) s Q E I := by
  refine ensures_journal h (h.permits hedge hongoing rfl rfl ?_ ?_ ?_ ?_) hI
    fun s' hfollows => hf s' (h.follows hfollows rfl rfl ?_)
  · rintro _ ⟨⟩
    exact he
  · rintro _ ⟨⟩ hintent
    exact absurd hintent hkind
  · rintro _ ⟨⟩ -
    exact hslot
  · exact fun _ => ⟨_, rfl, hkind⟩
  · simp only [Ledger.step, Ledger.finish, Ledger.write, Ledger.mk.injEq, true_and, and_true]
    funext k p
    by_cases hkey : k = e.kind ∧ p = e.path
    · obtain ⟨rfl, rfl⟩ := hkey
      simp [hslot, Slot.note_terminal hkind]
    · rw [if_neg hkey, if_neg fun hx => hkey ⟨hx.1.symm, hx.2.symm⟩]

/-! ## Sealing -/

/-- A state change may carry the receipt of a failure. -/
theorem ensures_sealState {state : JournalState} {r : ApplicationReceipt} {f : Unit → Engine α}
    (h : At A l s) (hedge : stateMayFollow l.state state = true)
    (hstate : successfulState state = false) (hI : I s)
    (hf : ∀ s', Sealed A r (l.enter state) s' →
      I s' ∧ (f ()).Ensures (engineMachine m) s' Q E I) :
    (publishState state (some r) >>= f).Ensures (engineMachine m) s Q E I := by
  refine ensures_journal h ?_ hI fun s' hfollows => hf s' ?_
  · refine ⟨by rwa [h.state_eq], by simp [h.receipt], by simp [h.evidence], nofun, nofun, nofun,
      nofun, nofun, fun _ _ => ⟨nofun, fun _ => hstate⟩, fun hstate' => ?_, fun _ => rfl,
      fun _ => rfl⟩
    rw [show successfulState state = true from hstate'] at hstate
    cases hstate
  · refine ⟨hfollows.appended, hfollows.declaration.trans h.declares, hfollows.receipt, ?_⟩
    rw [hfollows.ledger, h.ledger]
    rfl

end Rules

end PkgApply
