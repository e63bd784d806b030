import PkgApply.Library.Interleaving
import PkgApply.Journal.Batch
import PkgApply.Engine.World

/-!
# Participants of one journal

Any number of processes publish, load and append to the journal of one
declaration.  Each call of the store is atomic; it may be refused, or throw
after it took effect.  What is committed grows by valid steps only, and every
history in the memory of a participant is a prefix of it.
-/

namespace PkgApply

open Library

/-- The calls of the store alone. -/
def storeSignature : Signature where
  Op := StoreOp
  Response := StoreOp.Response

/-- What a store holds of every journal. -/
abbrev Journals := JournalDeclaration → Option StoredJournal

/-- The history a participant holds, once it has one. -/
abbrev Memory := Option JournalHistory

abbrev Participating (α : Type) := MemberProcess storeSignature Memory Exn α

abbrev Participants (ι : Type) := Members ι storeSignature Journals Memory Exn

def participantStore : StoreCalls (memberSignature storeSignature Memory) :=
  fun op => Process.perform (S := memberSignature storeSignature Memory) (.shared op)

def remember (h : JournalHistory) : Participating Unit :=
  Process.perform (S := memberSignature storeSignature Memory) (.remember (some h))

/-- Append a step to the history in memory. -/
def appendInMemory (h : JournalHistory) (t : Transition) : Participating Unit := do
  let intended ← h.nextStep t
  let candidate ← h.validate intended
  let durable : JournalStep ← participantStore (.publishStep intended)
  refuseIf (durable ≠ intended) (.logicError "journal store changed an application step")
  let cursor : JournalCursor ←
    participantStore (.compareAndPublishCursor (some h.cursor) candidate)
  refuseIf (cursor ≠ candidate) (.logicError "journal store changed the application cursor")
  let h' ← h.append durable
  remember h'
  refuseIf (h'.cursor ≠ candidate) (.logicError "application history changed a durable cursor")

/-- Load the history of a declaration into memory. -/
def loadInMemory (d : JournalDeclaration) : Participating Unit := do
  let h ← JournalHistory.load participantStore d
  remember h

/-- Publish the initial journal and keep its history in memory. -/
def publishInMemory (d : JournalDeclaration) : Participating Unit := do
  let durable : JournalDeclaration ← participantStore (.publishDeclaration d)
  refuseIf (durable ≠ d) (.logicError "journal store changed the application declaration")
  let h := JournalHistory.initial durable
  let cursor : JournalCursor ← participantStore (.compareAndPublishCursor none h.cursor)
  refuseIf (cursor ≠ h.cursor)
    (.logicError "journal store changed the initial application cursor")
  remember h

/-- What a participant of a declaration may start. -/
inductive Starts (d : JournalDeclaration) : Memory → Participating Unit → Prop
  | publish (m : Memory) : Starts d m (publishInMemory d)
  | load (m : Memory) : Starts d m (loadInMemory d)
  | append (h : JournalHistory) (t : Transition) : Starts d (some h) (appendInMemory h t)

/-- A call takes effect, and is answered or throws, or it throws without effect. -/
inductive storeOutcomes : Outcomes storeSignature Journals Exn
  | answered {op : StoreOp} {js js' : Journals} {response : op.Response} :
    storePerform js op = .ok (response, js') → storeOutcomes op js (.ok response) js'
  | lost {op : StoreOp} {js js' : Journals} {response : op.Response} (e : Exn) :
    storePerform js op = .ok (response, js') → storeOutcomes op js (.error e) js'
  | refused {op : StoreOp} {js : Journals} (e : Exn) : storeOutcomes op js (.error e) js

/-! ## One process -/

/-- Participants' calls in one process against the outside, the memory passed on. -/
def participantOp : (op : MemberOp storeSignature Memory) → Memory →
    Outside ((memberSignature storeSignature Memory).Response op × Memory)
  | .shared op, m => do
    let response ← storeCalls op
    return (response, m)
  | .remember m', _ => return ((), m')

section Alone

variable {α β : Type} {m : Memory}

private abbrev alone (p : Participating α) (m : Memory) : Outside (α × Memory) :=
  Process.implement (fun _ => ()) participantOp p m

private theorem alone_value {δ : Type} {x : Except Exn δ} {f : δ → Participating α}
    {g : δ → Outside β} {r : β → Outside (α × Memory)}
    (h : ∀ a, alone (f a) m = g a >>= r) :
    alone ((liftM x : Participating δ) >>= f) m = ((liftM x : Outside δ) >>= g) >>= r := by
  cases x with
  | ok a => exact h a
  | error e => rfl

private theorem alone_store {op : StoreOp} {f : op.Response → Participating α}
    {g : op.Response → Outside β} {r : β → Outside (α × Memory)}
    (h : ∀ a, alone (f a) m = g a >>= r) :
    alone (participantStore op >>= f) m = (storeCalls op >>= g) >>= r :=
  congrArg (Process.call (S := outsideSignature) (.store op)) (funext h)

/-- Alone, an append in memory is the append of the engine. -/
theorem appendInMemory_alone (h : JournalHistory) (t : Transition) :
    Process.implement (T := outsideSignature) (fun _ => ()) participantOp (appendInMemory h t)
        (some h) =
      appendJournalStep h t >>= fun h' => pure ((), some h') := by
  refine alone_value fun intended => alone_value fun candidate => ?_
  refine alone_store fun durable => alone_value fun _ => ?_
  refine alone_store fun cursor => alone_value fun _ => ?_
  refine alone_value fun h' => ?_
  change alone (liftM (refuseIf _ _)) (some h') = _
  cases refuseIf (h'.cursor ≠ candidate)
    (.logicError "application history changed a durable cursor") <;> rfl

end Alone

/-! ## What is committed -/

/-- The step a store holds at a sequence number. -/
def slot (d : JournalDeclaration) (js : Journals) (sequence : Nat) : Option JournalStep :=
  (js d).bind fun j => j.steps sequence

/-- A store has committed a history: its cursor, and the steps below it. -/
structure Committed (d : JournalDeclaration) (js : Journals) (H : JournalHistory) : Prop where
  appended : JournalHistory.Appended H
  declaration : H.declaration = d
  cursor : (js d).bind StoredJournal.cursor = some H.cursor ∨
    (js d).bind StoredJournal.cursor = none ∧ H = .initial d
  steps : ∀ i, i < H.steps.length → slot d js i = H.steps[i]?

/-- A history valid steps lead from to another. -/
def JournalHistory.Prefix (h H : JournalHistory) : Prop :=
  JournalHistory.Appended h ∧ ∃ rest, h.replay rest = .ok H

/-- What participants may do to a store: extend what is committed, and keep
every step. -/
structure Advances (d : JournalDeclaration) (js js' : Journals) : Prop where
  extended : ∀ H, Committed d js H → ∃ H', H.Prefix H' ∧ Committed d js' H'
  retained : ∀ i step, slot d js i = some step → slot d js' i = some step

/-- A memory holds a prefix of what is committed. -/
def Behind (d : JournalDeclaration) : Memory → Journals → Prop
  | none, _ => True
  | some h, js => ∃ H, h.Prefix H ∧ Committed d js H

namespace JournalHistory

variable {h h₁ h₂ : JournalHistory}

theorem Appended.prefix_refl (hr : Appended h) : h.Prefix h := ⟨hr, [], rfl⟩

theorem Prefix.trans (h₁₂ : h.Prefix h₁) (h₂₃ : h₁.Prefix h₂) : h.Prefix h₂ := by
  obtain ⟨hr, steps, hsteps⟩ := h₁₂
  obtain ⟨-, rest, hrest⟩ := h₂₃
  exact ⟨hr, steps ++ rest, replay_trans hsteps hrest⟩

theorem Prefix.declaration (hp : h.Prefix h₁) : h₁.declaration = h.declaration := by
  obtain ⟨-, rest, hrest⟩ := hp
  exact (replay_steps hrest).1

theorem Prefix.steps (hp : h.Prefix h₁) : ∃ rest, h₁.steps = h.steps ++ rest := by
  obtain ⟨-, rest, hrest⟩ := hp
  exact ⟨rest, (replay_steps hrest).2⟩

/-- Valid steps determine the history they lead to. -/
theorem Appended.eq_of_steps (hr₁ : Appended h₁) (hr₂ : Appended h₂)
    (hdeclaration : h₁.declaration = h₂.declaration) (hsteps : h₁.steps = h₂.steps) : h₁ = h₂ := by
  have hreplay := hr₁.replay_eq
  rw [hdeclaration, hsteps, hr₂.replay_eq] at hreplay
  cases hreplay
  rfl

/-- A prefix with as many steps is the whole. -/
theorem Prefix.eq_of_cursor (hp : h.Prefix h₁) (hcursor : h₁.cursor = h.cursor) : h₁ = h := by
  obtain ⟨hr, rest, hrest⟩ := hp
  have hr₁ := hr.replay hrest
  obtain ⟨hdeclaration, hsteps⟩ := replay_steps hrest
  have hlength : h₁.steps.length = h.steps.length := by
    rw [← hr.sound.step_count, ← hr₁.sound.step_count, hcursor]
  rw [hsteps, List.length_append, Nat.add_eq_left, List.length_eq_zero_iff] at hlength
  exact hr₁.eq_of_steps hr hdeclaration (by rw [hsteps, hlength, List.append_nil])

end JournalHistory

section Committed

variable {d : JournalDeclaration} {js js' : Journals} {H H' : JournalHistory}

/-- A store has committed one history. -/
theorem Committed.unique (hH : Committed d js H) (hH' : Committed d js H') : H = H' := by
  rcases hH.cursor with hcursor | ⟨hcursor, rfl⟩ <;>
    rcases hH'.cursor with hcursor' | ⟨hcursor', rfl⟩
  · rw [hcursor] at hcursor'
    have hsame : H.steps.length = H'.steps.length := by
      rw [← hH.appended.sound.step_count, ← hH'.appended.sound.step_count,
        Option.some.inj hcursor']
    refine hH.appended.eq_of_steps hH'.appended (hH.declaration.trans hH'.declaration.symm)
      (List.ext_getElem? fun i => ?_)
    by_cases hi : i < H.steps.length
    · rw [← hH.steps i hi, ← hH'.steps i (hsame ▸ hi)]
    · rw [List.getElem?_eq_none (by omega), List.getElem?_eq_none (by omega)]
  · rw [hcursor] at hcursor'
    cases hcursor'
  · rw [hcursor] at hcursor'
    cases hcursor'
  · rfl

/-- An empty store has committed the initial history. -/
theorem Committed.empty (h : js d = none) : Committed d js (.initial d) :=
  ⟨.initial d, rfl, .inr ⟨by rw [h]; rfl, rfl⟩, fun i hi => absurd hi (Nat.not_lt_zero i)⟩

theorem Advances.refl (d : JournalDeclaration) (js : Journals) : Advances d js js :=
  ⟨fun H hH => ⟨H, hH.appended.prefix_refl, hH⟩, fun _ _ hslot => hslot⟩

theorem Advances.trans {js₁ js₂ js₃ : Journals} (h₁₂ : Advances d js₁ js₂)
    (h₂₃ : Advances d js₂ js₃) : Advances d js₁ js₃ := by
  refine ⟨fun H hH => ?_, fun i step hslot => h₂₃.retained i step (h₁₂.retained i step hslot)⟩
  obtain ⟨H₂, hfirst, hH₂⟩ := h₁₂.extended H hH
  obtain ⟨H₃, hfirst', hH₃⟩ := h₂₃.extended H₂ hH₂
  exact ⟨H₃, hfirst.trans hfirst', hH₃⟩

theorem Behind.later {m : Memory} (hb : Behind d m js) (h : Advances d js js') :
    Behind d m js' := by
  cases m with
  | none => trivial
  | some h₁ =>
    obtain ⟨H, hfirst, hH⟩ := hb
    obtain ⟨H', hfirst', hH'⟩ := h.extended H hH
    exact ⟨H', hfirst.trans hfirst', hH'⟩

/-- What every participant relies on and keeps to. -/
def chainReliance (d : JournalDeclaration) : Reliance Journals Memory where
  Valid js := ∃ H, Committed d js H
  Later := Advances d
  Holds := Behind d
  refl := Advances.refl d
  trans := Advances.trans
  valid := fun ⟨H, hH⟩ hlater => (hlater.extended H hH).imp fun _ h => h.2
  stable := Behind.later

end Committed

/-! ## Calls of the store -/

/-- The declaration whose steps or cursor a call writes. -/
def StoreOp.written : StoreOp → Option JournalDeclaration
  | publishStep step => some step.declaration
  | compareAndPublishCursor _ next => some next.declaration
  | _ => none

/-- Whether a call publishes a cursor. -/
def StoreOp.swaps : StoreOp → Bool
  | compareAndPublishCursor _ _ => true
  | _ => false

/-- What one call does to the journal of a declaration. -/
inductive StoreEffect (d : JournalDeclaration) (js js' : Journals) : StoreOp → Prop
  | unchanged {op : StoreOp} : op.written ≠ some d → js' d = js d → StoreEffect d js js' op
  | declared : js d = none → js' d = some ⟨none, fun _ => none⟩ →
    StoreEffect d js js' (.publishDeclaration d)
  | stepped {j : StoredJournal} {step : JournalStep} : js d = some j → step.declaration = d →
    (∀ other, j.steps step.sequence = some other → other = step) →
    js' d = some ⟨j.cursor, Function.update j.steps step.sequence (some step)⟩ →
    StoreEffect d js js' (.publishStep step)
  | swapped {j : StoredJournal} {next : JournalCursor} : js d = some j → next.declaration = d →
    js' d = some ⟨some next, j.steps⟩ →
    StoreEffect d js js' (.compareAndPublishCursor j.cursor next)

section Store

variable {d : JournalDeclaration} {js js' : Journals} {H h h' : JournalHistory} {op : StoreOp}

theorem storePerform_effect {response : op.Response}
    (hperform : storePerform js op = .ok (response, js')) : StoreEffect d js js' op := by
  cases op with
  | publishDeclaration d' =>
    cases hd' : js d' with
    | some j =>
      simp only [storePerform, hd', Except.ok.injEq] at hperform
      obtain ⟨-, rfl⟩ := hperform
      exact .unchanged (by rintro ⟨⟩) rfl
    | none =>
      simp only [storePerform, hd', Except.ok.injEq] at hperform
      obtain ⟨-, rfl⟩ := hperform
      by_cases hd : d = d'
      · subst hd
        exact .declared hd' (Function.update_self _ _ _)
      · exact .unchanged (by rintro ⟨⟩) (Function.update_of_ne hd _ _)
  | publishStep step =>
    cases hj : js step.declaration with
    | none => simp only [storePerform, hj, reduceCtorEq] at hperform
    | some j =>
      simp only [storePerform, hj] at hperform
      split at hperform
      · cases hperform
      rename_i hfree
      cases hperform
      by_cases hd : d = step.declaration
      · subst hd
        refine .stepped hj rfl (fun other hother => ?_) (Function.update_self _ _ _)
        simpa [hother] using hfree
      · exact .unchanged (fun hw => hd (Option.some.inj hw).symm) (Function.update_of_ne hd _ _)
  | compareAndPublishCursor expected next =>
    cases hj : js next.declaration with
    | none => simp only [storePerform, hj, reduceCtorEq] at hperform
    | some j =>
      simp only [storePerform, hj] at hperform
      split at hperform
      · rename_i hexpected
        cases hperform
        by_cases hd : d = next.declaration
        · subst hd hexpected
          exact .swapped hj rfl (Function.update_self _ _ _)
        · exact .unchanged (fun hw => hd (Option.some.inj hw).symm) (Function.update_of_ne hd _ _)
      · cases hperform
  | loadDeclaration d' =>
    cases hperform
    exact .unchanged (by rintro ⟨⟩) rfl
  | loadCursor d' =>
    cases hperform
    exact .unchanged (by rintro ⟨⟩) rfl
  | loadStep d' sequence =>
    cases hperform
    exact .unchanged (by rintro ⟨⟩) rfl

/-- A swap is answered with the cursor it publishes. -/
theorem storePerform_swap {expected : Option JournalCursor} {next response : JournalCursor}
    (hperform : storePerform js (.compareAndPublishCursor expected next) = .ok (response, js')) :
    response = next := by
  simp only [storePerform] at hperform
  split at hperform
  · cases hperform
  · split at hperform
    · cases hperform
      rfl
    · cases hperform

/-- A store keeps every step it holds. -/
theorem StoreEffect.retained (h : StoreEffect d js js' op) {i : Nat} {step : JournalStep}
    (hslot : slot d js i = some step) : slot d js' i = some step := by
  unfold slot at hslot ⊢
  cases h with
  | unchanged _ hsame => rwa [hsame]
  | declared hnone _ =>
    rw [hnone] at hslot
    cases hslot
  | @stepped j step' hj _ hfree hj' =>
    rw [hj, Option.bind_some] at hslot
    rw [hj', Option.bind_some]
    dsimp only
    by_cases hi : i = step'.sequence
    · subst hi
      rw [Function.update_self, hfree step hslot]
    · rwa [Function.update_of_ne hi]
  | swapped hj _ hj' =>
    rw [hj] at hslot
    rwa [hj']

/-- Only a swap changes the cursor. -/
theorem StoreEffect.cursor (h : StoreEffect d js js' op)
    (hop : op.swaps = false) :
    (js' d).bind StoredJournal.cursor = (js d).bind StoredJournal.cursor := by
  cases h with
  | unchanged _ hsame => rw [hsame]
  | declared hnone hj' => rw [hnone, hj']; rfl
  | stepped hj _ _ hj' => rw [hj, hj']; rfl
  | swapped => cases hop

/-- A call that is not a swap keeps what is committed. -/
theorem StoreEffect.committed (h : StoreEffect d js js' op)
    (hop : op.swaps = false)
    (hH : Committed d js H) : Committed d js' H := by
  refine ⟨hH.appended, hH.declaration, ?_, fun i hi => ?_⟩
  · rw [h.cursor hop]
    exact hH.cursor
  · rw [List.getElem?_eq_getElem hi]
    exact h.retained ((hH.steps i hi).trans (List.getElem?_eq_getElem hi))

/-- A call that is not a swap is within the reliance. -/
theorem StoreEffect.advances (h : StoreEffect d js js' op)
    (hop : op.swaps = false) : Advances d js js' :=
  ⟨fun H hH => ⟨H, hH.appended.prefix_refl, h.committed hop hH⟩, fun _ _ => h.retained⟩

/-- A published step is held. -/
theorem StoreEffect.published {step : JournalStep} (h : StoreEffect d js js' (.publishStep step))
    (hdeclaration : step.declaration = d) : slot d js' step.sequence = some step := by
  cases h with
  | unchanged hne _ => exact absurd (congrArg some hdeclaration) hne
  | stepped _ _ _ hj' =>
    unfold slot
    rw [hj', Option.bind_some]
    exact Function.update_self _ _ _

/-- A swap finds the expected cursor and leaves the next one. -/
theorem StoreEffect.swap {expected : Option JournalCursor} {next : JournalCursor}
    (h : StoreEffect d js js' (.compareAndPublishCursor expected next))
    (hdeclaration : next.declaration = d) :
    (js d).bind StoredJournal.cursor = expected ∧
      (js' d).bind StoredJournal.cursor = some next ∧ slot d js' = slot d js := by
  cases h with
  | unchanged hne _ => exact absurd (congrArg some hdeclaration) hne
  | swapped hj _ hj' =>
    refine ⟨by rw [hj]; rfl, by rw [hj']; rfl, ?_⟩
    unfold slot
    rw [hj, hj']
    rfl

/-- A swap from no cursor to the initial one commits the initial history. -/
theorem StoreEffect.initialized
    (h : StoreEffect d js js' (.compareAndPublishCursor none (JournalHistory.initial d).cursor))
    (hH : Committed d js H) : H = .initial d ∧ Committed d js' (.initial d) := by
  obtain ⟨hbefore, hafter, -⟩ := h.swap rfl
  refine ⟨?_, .initial d, rfl, .inl hafter, fun i hi => absurd hi (Nat.not_lt_zero i)⟩
  rcases hH.cursor with hcursor | ⟨-, rfl⟩
  · rw [hbefore] at hcursor
    cases hcursor
  · rfl

/-- A swap from the cursor of a prefix to that of a step the store holds finds
the prefix committed and commits the step. -/
theorem StoreEffect.extended {step : JournalStep}
    (h₀ : StoreEffect d js js' (.compareAndPublishCursor (some h.cursor) h'.cursor))
    (hp : h.Prefix H) (happend : h.append step = .ok h') (hslot : slot d js h.steps.length = some step)
    (hH : Committed d js H) : H = h ∧ Committed d js' h' := by
  have hr := hp.1
  obtain ⟨hadmits, rfl⟩ := JournalHistory.append_eq_ok_iff.mp happend
  have hdeclared : h.declaration = d := hp.declaration.symm.trans hH.declaration
  have hnext : (h.after step).cursor.declaration = d :=
    hr.sound.cursor_declaration.trans hdeclared
  obtain ⟨hbefore, hafter, hslots⟩ := h₀.swap hnext
  have hsame : H = h := by
    refine hp.eq_of_cursor ?_
    rcases hH.cursor with hcursor | ⟨hcursor, -⟩
    · rw [hbefore] at hcursor
      exact (Option.some.inj hcursor).symm
    · rw [hbefore] at hcursor
      cases hcursor
  subst hsame
  refine ⟨rfl, hr.append happend, hdeclared, .inl hafter, fun i hi => ?_⟩
  rw [hslots, JournalHistory.after_steps]
  rw [JournalHistory.after_steps, List.length_append, List.length_singleton] at hi
  rcases Nat.lt_or_eq_of_le (Nat.le_of_lt_succ hi) with hlt | rfl
  · rw [List.getElem?_append_left hlt]
    exact hH.steps i hlt
  · rw [hslot]
    simp

end Store

/-! ## Guarded participants -/

section Guarded

variable {d : JournalDeclaration} {js : Journals} {m : Memory} {α β : Type}
  {Q : α → Memory → Journals → Prop}

/-- A participant of a declaration keeps to the reliance. -/
abbrev Keeps (d : JournalDeclaration) (m₀ : Memory) (Q : α → Memory → Journals → Prop) :
    Participating α → Memory → Journals → Prop :=
  Guarded storeOutcomes (chainReliance d) m₀ Q

/-- One call of the store. -/
theorem keeps_store {op : StoreOp} {f : op.Response → Participating α}
    (hadvances : ∀ js₁ js₂, Advances d js js₁ → (∃ H, Committed d js₁ H) →
      StoreEffect d js₁ js₂ op → Advances d js₁ js₂)
    (hok : ∀ js₁ response js₂, Advances d js js₁ → (∃ H, Committed d js₁ H) →
      storePerform js₁ op = .ok (response, js₂) → Keeps d m Q (f response) m js₂) :
    Keeps d m Q (participantStore op >>= f) m js := by
  refine ⟨rfl, fun js₁ hlater hvalid result js₂ houtcome => ?_⟩
  cases houtcome with
  | answered hperform =>
    refine ⟨hadvances js₁ js₂ hlater hvalid (storePerform_effect hperform), ?_⟩
    rintro _ ⟨⟩
    exact hok js₁ _ js₂ hlater hvalid hperform
  | lost e hperform =>
    exact ⟨hadvances js₁ js₂ hlater hvalid (storePerform_effect hperform), nofun⟩
  | refused e => exact ⟨Advances.refl d js₁, nofun⟩

/-- One call that is not a swap. -/
theorem keeps_plain {op : StoreOp} {f : op.Response → Participating α}
    (hop : op.swaps = false)
    (hok : ∀ js₁ response js₂, Advances d js js₁ → (∃ H, Committed d js₁ H) →
      storePerform js₁ op = .ok (response, js₂) → Keeps d m Q (f response) m js₂) :
    Keeps d m Q (participantStore op >>= f) m js :=
  keeps_store (fun _ _ _ _ heffect => heffect.advances hop) hok

/-- A swap of a held step. -/
theorem keeps_swap {h h' : JournalHistory} {step : JournalStep}
    {f : JournalCursor → Participating α} (hb : Behind d (some h) js)
    (happend : h.append step = .ok h') (hslot : slot d js h.steps.length = some step)
    (hok : ∀ js', Behind d (some h') js' → Keeps d m Q (f h'.cursor) m js') :
    Keeps d m Q (participantStore (.compareAndPublishCursor (some h.cursor) h'.cursor) >>= f) m
      js := by
  have hextended : ∀ js₁ js₂, Advances d js js₁ → StoreEffect d js₁ js₂
      (.compareAndPublishCursor (some h.cursor) h'.cursor) → Committed d js₁ h ∧
        Committed d js₂ h' := by
    intro js₁ js₂ hlater heffect
    obtain ⟨H, hfirst, hH⟩ := hb.later hlater
    obtain ⟨rfl, hH'⟩ :=
      heffect.extended hfirst happend (hlater.retained _ _ hslot) hH
    exact ⟨hH, hH'⟩
  refine keeps_store (fun js₁ js₂ hlater _ heffect => ?_)
    fun js₁ response js₂ hlater _ hperform => ?_
  · obtain ⟨hH, hH'⟩ := hextended js₁ js₂ hlater heffect
    refine ⟨fun H₁ hH₁ => ⟨h', ?_, hH'⟩, fun _ _ => heffect.retained⟩
    cases hH₁.unique hH
    refine ⟨hH.appended, [step], ?_⟩
    simp only [JournalHistory.replay, happend, bind, Except.bind]
  · rw [storePerform_swap hperform]
    obtain ⟨-, hH'⟩ := hextended js₁ js₂ hlater (storePerform_effect hperform)
    exact hok js₂ ⟨h', hH'.appended.prefix_refl, hH'⟩

/-- A swap from no cursor to the initial one. -/
theorem keeps_initial {f : JournalCursor → Participating α}
    (hok : ∀ js', Behind d (some (.initial d)) js' →
      Keeps d m Q (f (JournalHistory.initial d).cursor) m js') :
    Keeps d m Q (participantStore (.compareAndPublishCursor none (JournalHistory.initial d).cursor)
      >>= f) m js := by
  refine keeps_store (fun js₁ js₂ _ _ heffect => ?_) fun js₁ response js₂ _ hvalid hperform => ?_
  · refine ⟨fun H hH => ?_, fun _ _ => heffect.retained⟩
    obtain ⟨rfl, hH'⟩ := heffect.initialized hH
    exact ⟨_, hH.appended.prefix_refl, hH'⟩
  · rw [storePerform_swap hperform]
    obtain ⟨H, hH⟩ := hvalid
    obtain ⟨-, hH'⟩ := (storePerform_effect hperform).initialized hH
    exact hok js₂ ⟨_, hH'.appended.prefix_refl, hH'⟩

/-- An append keeps to the reliance. -/
theorem appendInMemory_keeps {h : JournalHistory} (t : Transition) (hb : Behind d (some h) js) :
    Keeps d (some h) (fun _ _ _ => True) (appendInMemory h t) (some h) js := by
  refine guarded_value rfl fun intended _ => guarded_value rfl fun candidate hvalidate => ?_
  obtain ⟨H₀, hfirst, hH₀⟩ := hb
  have hr := hfirst.1
  obtain ⟨h', happend, rfl⟩ := append_of_validate hvalidate
  obtain ⟨hadmits, hafter⟩ := JournalHistory.append_eq_ok_iff.mp happend
  have hdeclaration : intended.declaration = d :=
    hadmits.declaration.trans (hr.sound.cursor_declaration.trans
      (hfirst.declaration.symm.trans hH₀.declaration))
  have hsequence : intended.sequence = h.steps.length := hadmits.sequence.trans hr.sound.step_count
  refine keeps_plain (by rfl) fun js₁ (durable : JournalStep) js₂ hlater _ hperform => ?_
  have heffect := storePerform_effect (d := d) hperform
  have hslot : slot d js₂ h.steps.length = some intended :=
    hsequence ▸ heffect.published hdeclaration
  have hb₂ : Behind d (some h) js₂ :=
    Behind.later ⟨H₀, hfirst, hH₀⟩ (hlater.trans (heffect.advances rfl))
  refine guarded_value rfl fun _ hsame => ?_
  obtain rfl : durable = intended := not_not.mp (refuseIf_eq_ok.mp hsame)
  refine keeps_swap hb₂ happend hslot fun js₃ hb₃ => guarded_value rfl fun _ _ => ?_
  refine guarded_ok happend ⟨hb₃, ?_⟩
  -- the last guard comes after the memory is set, and never fails
  have hguard : refuseIf (h'.cursor ≠ h'.cursor)
      (.logicError "application history changed a durable cursor") = .ok () :=
    refuseIf_eq_ok.mpr fun hne => hne rfl
  change Keeps d _ _ (liftM (refuseIf (h'.cursor ≠ h'.cursor) _)) _ js₃
  rw [hguard]
  exact trivial

/-- The steps below a committed cursor are loaded as they were committed. -/
theorem loadSteps_keeps {H : JournalHistory} (hb : Behind d (some H) js)
    (rest : List JournalStep) {h : JournalHistory} (hrest : h.replay rest = .ok H) :
    Keeps d m (fun h' m' js' => m' = m ∧ h' = H ∧ Behind d (some H) js')
      (JournalHistory.loadSteps participantStore d rest.length h.steps.length h) m js := by
  induction rest generalizing h js with
  | nil =>
    cases hrest
    exact ⟨rfl, rfl, hb⟩
  | cons step rest ih =>
    refine keeps_plain (by rfl) fun js₁ stored js₂ hlater _ hperform => ?_
    have hb₁ : Behind d (some H) js₁ := hb.later hlater
    cases hperform
    obtain ⟨H₁, hfirst, hH₁⟩ := hb₁
    have hsteps := (JournalHistory.replay_steps hrest).2
    obtain ⟨more, hmore⟩ := hfirst.steps
    have hslot : ((js₁ d).bind fun j => j.steps h.steps.length) = some step := by
      have hlt : h.steps.length < H₁.steps.length := by
        rw [hmore, hsteps]
        simp only [List.length_append, List.length_cons]
        omega
      refine (hH₁.steps _ hlt).trans ?_
      rw [hmore, hsteps]
      simp
    rw [JournalHistory.replay] at hrest
    obtain ⟨h₁, happend, hrest⟩ := bind_eq_ok_iff.mp hrest
    rw [hslot]
    refine guarded_ok happend ?_
    have hlength : h.steps.length + 1 = h₁.steps.length := by
      obtain ⟨-, rfl⟩ := JournalHistory.append_eq_ok_iff.mp happend
      simp
    rw [hlength]
    exact ih ⟨H₁, hfirst, hH₁⟩ hrest

/-- Adopting the step past the cursor keeps to the reliance. -/
theorem adoptOrphan_keeps {h : JournalHistory} (hb : Behind d (some h) js) :
    Keeps d m (fun h' _ js' => Behind d (some h') js')
      (JournalHistory.adoptOrphan participantStore d h.cursor h) m js := by
  refine keeps_plain (by rfl) fun js₁ stored js₂ hlater _ hperform => ?_
  have hb₁ : Behind d (some h) js₁ := hb.later hlater
  have hcount : h.cursor.stepCount = h.steps.length := by
    obtain ⟨_, hfirst, -⟩ := hb
    exact hfirst.1.sound.step_count
  cases hperform
  cases hslot : (js₁ d).bind fun j => j.steps h.cursor.stepCount with
  | none => exact hb₁
  | some step =>
    refine guarded_value rfl fun candidate hvalidate => ?_
    obtain ⟨h', happend, rfl⟩ := append_of_validate hvalidate
    refine keeps_swap hb₁ happend (hcount ▸ hslot) fun js₃ hb₃ => guarded_value rfl fun _ _ => ?_
    rw [happend]
    exact hb₃

theorem loadDeclaration_keeps (m : Memory) (js : Journals) :
    Keeps d m (fun d' m' _ => d' = d ∧ m' = m) (JournalHistory.loadDeclaration participantStore d)
      m js := by
  refine keeps_plain (by rfl) fun js₁ stored js₂ _ _ _ => ?_
  match stored with
  | none => exact rfl
  | some (declaration : JournalDeclaration) =>
    refine guarded_value rfl fun _ hsame => ⟨?_, rfl⟩
    exact not_not.mp (refuseIf_eq_ok.mp hsame)

/-- A loaded cursor is that of a prefix of what is committed. -/
theorem loadCursor_keeps {m : Memory} {js : Journals} :
    Keeps d m (fun committed m' js' => m' = m ∧ ∃ H, Behind d (some H) js' ∧ committed = H.cursor)
      (JournalHistory.loadCursor participantStore d d) m js := by
  refine keeps_plain (by rfl) fun js₁ stored js₂ _ hvalid hperform => ?_
  cases hperform
  obtain ⟨H, hH⟩ := hvalid
  cases hcursor : (js₁ d).bind StoredJournal.cursor with
  | some committed =>
    rcases hH.cursor with hcursor' | ⟨hcursor', -⟩
    · rw [hcursor'] at hcursor
      exact ⟨rfl, H, ⟨H, hH.appended.prefix_refl, hH⟩, (Option.some.inj hcursor).symm⟩
    · rw [hcursor'] at hcursor
      cases hcursor
  | none =>
    refine keeps_initial fun js₃ hb => guarded_value rfl fun _ _ => ?_
    exact ⟨rfl, _, hb, rfl⟩

/-- Loading keeps to the reliance. -/
theorem loadInMemory_keeps (m : Memory) (js : Journals) :
    Keeps d m (fun _ _ _ => True) (loadInMemory d) m js := by
  have hload : Keeps d m (fun h' _ js' => Behind d (some h') js')
      (JournalHistory.load participantStore d) m js := by
    refine Guarded.bind (loadDeclaration_keeps m js) fun d' m' js₁ hd => ?_
    obtain ⟨rfl, rfl⟩ := hd
    refine Guarded.bind loadCursor_keeps fun committed m'' js₂ hloaded => ?_
    obtain ⟨rfl, H, hb, rfl⟩ := hloaded
    refine guarded_value rfl fun _ _ => ?_
    have hr : JournalHistory.Appended H := by
      obtain ⟨_, hfirst, -⟩ := hb
      exact hfirst.1
    have hdeclared : H.declaration = d' := by
      obtain ⟨_, hfirst, hH⟩ := hb
      exact hfirst.declaration.symm.trans hH.declaration
    rw [hr.sound.step_count]
    refine Guarded.bind (loadSteps_keeps hb H.steps (hdeclared ▸ hr.replay_eq))
      fun h m₃ js₃ hsteps => ?_
    obtain ⟨rfl, rfl, hb₃⟩ := hsteps
    refine guarded_value rfl fun _ _ => adoptOrphan_keeps hb₃
  refine hload.bind fun h' m' js' hb => ?_
  exact ⟨hb, trivial⟩

/-- Publishing the initial journal keeps to the reliance. -/
theorem publishInMemory_keeps (m : Memory) (js : Journals) :
    Keeps d m (fun _ _ _ => True) (publishInMemory d) m js := by
  refine keeps_plain (by rfl) fun js₁ (durable : JournalDeclaration) js₂ _ _ _ =>
    guarded_value rfl fun _ hsame => ?_
  obtain rfl : durable = d := not_not.mp (refuseIf_eq_ok.mp hsame)
  refine keeps_initial fun js₃ hb => guarded_value rfl fun _ _ => ?_
  exact ⟨hb, trivial⟩

end Guarded

/-! ## Every interleaving -/

/-- Whatever participants of a declaration start keeps to the reliance. -/
theorem Starts.keeps {d : JournalDeclaration} {m : Memory} {p : Participating Unit}
    (h : Starts d m p) {js : Journals} (hb : Behind d m js) :
    Keeps d m (fun _ _ _ => True) p m js := by
  cases h with
  | publish => exact publishInMemory_keeps m js
  | load => exact loadInMemory_keeps m js
  | append h t => exact appendInMemory_keeps t hb

/-- A history is a chain: every step has the next sequence number and names the
step before it. -/
def JournalHistory.Linked (h : JournalHistory) : Prop :=
  ∀ i step, h.steps[i]? = some step → step.declaration = h.declaration ∧ step.sequence = i ∧
    step.predecessor = (h.steps.take i).getLast?.map JournalStep.identity

theorem JournalHistory.Appended.linked {h : JournalHistory} (hr : JournalHistory.Appended h) :
    h.Linked := by
  induction hr with
  | initial d => exact fun i step hstep => by simp [JournalHistory.initial] at hstep
  | @append h h' step hr happend ih =>
    have hs := hr.sound
    obtain ⟨hadmits, rfl⟩ := JournalHistory.append_eq_ok_iff.mp happend
    intro i step' hstep
    rw [after_steps] at hstep ⊢
    by_cases hi : i < h.steps.length
    · rw [List.getElem?_append_left hi] at hstep
      rw [List.take_append_of_le_length hi.le]
      exact ih i step' hstep
    · have hlast : i = h.steps.length := by
        have hlt := (List.getElem?_eq_some_iff.mp hstep).1
        rw [List.length_append, List.length_singleton] at hlt
        omega
      subst hlast
      rw [List.getElem?_append_right le_rfl, Nat.sub_self] at hstep
      cases hstep
      rw [List.take_left]
      exact ⟨hadmits.declaration.trans hs.cursor_declaration, hadmits.sequence.trans hs.step_count,
        hadmits.predecessor.trans hs.latest⟩

section Interleaving

variable {ι : Type} [DecidableEq ι] {d : JournalDeclaration}

/-- Participants without a journal in memory, on a store without the journal. -/
def Participants.start (js : Journals) : Participants ι := ⟨js, fun _ => ⟨none, none⟩⟩

/-- Any interleaving of participants of one declaration. -/
abbrev Participants.Reaches (d : JournalDeclaration) : Participants ι → Participants ι → Prop :=
  Members.Reaches storeOutcomes (Starts d)

omit [DecidableEq ι] in
theorem Participants.start_sound {js : Journals} (hfresh : js d = none) :
    Library.Sound storeOutcomes (chainReliance d) (Participants.start (ι := ι) js) :=
  ⟨⟨_, .empty hfresh⟩, fun _ => trivial, fun _ _ _ hrunning => by cases hrunning⟩

/-- In every interleaving what is committed is one chain that only grows, every
memory holds a prefix of it, and a process that fails leaves the memory it
found. -/
theorem Participants.Reaches.linear {js : Journals} {S S' : Participants ι} (hfresh : js d = none)
    (hS : Participants.Reaches d (.start js) S) (hS' : Participants.Reaches d S S') :
    ∃ H H', Committed d S.shared H ∧ Committed d S'.shared H' ∧ H.Prefix H' ∧ H'.Linked ∧
      (∀ i h, (S'.member i).memory = some h → h.Prefix H') ∧
      ∀ i m e, (S'.member i).running = some (m, .throw e) → (S'.member i).memory = m := by
  have hstarts : ∀ m p js, Starts d m p → (chainReliance d).Valid js →
      (chainReliance d).Holds m js → Guarded storeOutcomes (chainReliance d) m
        (fun _ _ _ => True) p m js := fun m p js hstart _ hb => hstart.keeps hb
  obtain ⟨-, hsound⟩ := Members.Reaches.sound hS hstarts (start_sound hfresh)
  obtain ⟨hlater, hsound'⟩ := Members.Reaches.sound hS' hstarts hsound
  obtain ⟨H, hH⟩ := hsound.valid
  obtain ⟨H', hfirst, hH'⟩ := hlater.extended H hH
  refine ⟨H, H', hH, hH', hfirst, hH'.appended.linked, fun i h hmemory => ?_,
    fun i m e hfailed => hsound'.failed hfailed⟩
  have hb := hsound'.holds i
  rw [hmemory] at hb
  obtain ⟨H₁, hbehind, hH₁⟩ := hb
  exact hH₁.unique hH' ▸ hbehind

/-! ### A race -/

/-- A participant starts to publish, to load, or to append to what it holds. -/
private def publishing : Move storeSignature Memory Exn :=
  .start fun _ => some (publishInMemory JournalHistory.idleDeclaration)

private def fetching : Move storeSignature Memory Exn :=
  .start fun _ => some (loadInMemory JournalHistory.idleDeclaration)

private def appending (t : Transition) : Move storeSignature Memory Exn :=
  .start fun m => m.map fun h => appendInMemory h t

private def going (i : Bool) (moves : Nat) : List (Bool × Move storeSignature Memory Exn) :=
  List.replicate moves (i, .go)

private def intending (effect : JournalEffect) : Transition :=
  ⟨.preparing, some ⟨effect, .intent, ∅⟩, none, none, none⟩

/-- One participant publishes the journal, another loads it, and the first appends a step. -/
private def opening : List (Bool × Move storeSignature Memory Exn) :=
  (false, publishing) :: going false 4 ++ (true, fetching) :: going true 5 ++
    (false, appending (intending ⟨0, .publishCompletedEvidence, none, JournalHistory.pathless⟩)) ::
      going false 4

/-- The first publishes a second step, the other loads and adopts it, and the
first finds the cursor swapped. -/
private def racing : List (Bool × Move storeSignature Memory Exn) :=
  (false, appending (intending ⟨2, .sealReceipt, none, JournalHistory.pathless⟩)) ::
    going false 1 ++ (true, fetching) :: going true 7 ++ going false 1

private def opened : Option (Participants Bool) :=
  Members.scheduled (fun op js => storePerform js op) opening (Participants.start fun _ => none)

private def raced : Option (Participants Bool) :=
  opened.bind (Members.scheduled (fun op js => storePerform js op) racing)

/-- The steps each participant holds, and how the first failed. -/
def Participants.standing (S : Participants Bool) : Option Nat × Option Nat × Option Exn :=
  ((S.member false).memory.map fun h => h.steps.length,
    (S.member true).memory.map fun h => h.steps.length, (S.member false).failure)

private theorem standing_race : opened.map Participants.standing = some (some 1, some 0, none) ∧
    raced.map Participants.standing =
      some (some 1, some 2, some (.logicError "journal cursor compare failed")) := by
  decide +kernel

private theorem starts_scheduled {m : Memory} {p : Participating Unit}
    {choose : Memory → Option (Participating Unit)}
    (hmem : ∃ i, (i, .start choose) ∈ opening ++ racing) (hp : choose m = some p) :
    Starts JournalHistory.idleDeclaration m p := by
  have happend (t : Transition) (h : (m.map fun h => appendInMemory h t) = some p) :
      Starts JournalHistory.idleDeclaration m p := by
    obtain ⟨held, rfl, rfl⟩ := Option.map_eq_some_iff.mp h
    exact .append held t
  obtain ⟨i, hmem⟩ := hmem
  simp only [opening, racing, going, publishing, fetching, appending, List.replicate, List.mem_append,
    List.mem_cons, List.not_mem_nil, Prod.mk.injEq, Move.start.injEq, reduceCtorEq, and_false,
    or_false] at hmem
  rcases hmem with ((⟨-, rfl⟩ | ⟨-, rfl⟩) | ⟨-, rfl⟩) | ⟨-, rfl⟩ | ⟨-, rfl⟩
  · cases hp
    exact .publish m
  · cases hp
    exact .load m
  · exact happend _ hp
  · exact happend _ hp
  · cases hp
    exact .load m

/-- Two appends race with a load that adopts the second: the first participant's
swap is refused, and its memory keeps one step while the other holds two. -/
theorem Participants.linear_raced : ∃ S S' : Participants Bool,
    Participants.Reaches JournalHistory.idleDeclaration (.start fun _ => none) S ∧
      Participants.Reaches JournalHistory.idleDeclaration S S' ∧
      S.standing = (some 1, some 0, none) ∧
      S'.standing = (some 1, some 2, some (.logicError "journal cursor compare failed")) ∧
      ∃ H H', Committed JournalHistory.idleDeclaration S.shared H ∧
        Committed JournalHistory.idleDeclaration S'.shared H' ∧ H.Prefix H' ∧ H'.Linked ∧
        (∀ i h, (S'.member i).memory = some h → h.Prefix H') ∧
        ∀ i m e, (S'.member i).running = some (m, .throw e) → (S'.member i).memory = m := by
  obtain ⟨hopened, hraced⟩ := standing_race
  obtain ⟨S, hS, hstanding⟩ := Option.map_eq_some_iff.mp hopened
  obtain ⟨S', hS', hstanding'⟩ := Option.map_eq_some_iff.mp hraced
  rw [raced, hS, Option.bind_some] at hS'
  have hreaches : Participants.Reaches JournalHistory.idleDeclaration (.start fun _ => none) S :=
    Members.scheduled_reaches (fun _ _ _ _ => .answered) (fun _ _ e _ => .refused e)
      (fun i choose m p hmem => starts_scheduled ⟨i, List.mem_append_left _ hmem⟩) hS
  have hreaches' : Participants.Reaches JournalHistory.idleDeclaration S S' :=
    Members.scheduled_reaches (fun _ _ _ _ => .answered) (fun _ _ e _ => .refused e)
      (fun i choose m p hmem => starts_scheduled ⟨i, List.mem_append_right _ hmem⟩) hS'
  have hfresh : (fun _ => none : Journals) JournalHistory.idleDeclaration = none := rfl
  exact ⟨S, S', hreaches, hreaches', hstanding, hstanding',
    Participants.Reaches.linear hfresh hreaches hreaches'⟩

end Interleaving

end PkgApply
