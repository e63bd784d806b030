import PkgApply.Engine.World
import PkgApply.Journal.Terminality

/-!
# Rehydration

What loading a journal yields for any content of the store, and for the
content a writer leaves when it is stopped around one append.
-/

namespace PkgApply

open Library

/-! ## Stored steps -/

namespace StoredJournal

theorem toOption_eq_some {α : Type} {x : Except Exn α} {a : α} :
    x.toOption = some a ↔ x = .ok a := by
  cases x <;> simp [Except.toOption]

/-- The history the first stored steps replay to. -/
def replayed (j : StoredJournal) (d : JournalDeclaration) : Nat → Option JournalHistory
  | 0 => some (.initial d)
  | n + 1 => do
    let h ← j.replayed d n
    let step ← j.steps n
    (h.append step).toOption

/-- A step below the count of a cursor is missing, or does not continue the
steps before it, or the steps lead to another cursor. -/
inductive Broken (j : StoredJournal) (d : JournalDeclaration) (cursor : JournalCursor) : Prop
  | missing {i : Nat} : i < cursor.stepCount → j.steps i = none → Broken j d cursor
  | refused {i : Nat} {h : JournalHistory} {step : JournalStep} {e : Exn} : i < cursor.stepCount →
    j.replayed d i = some h → j.steps i = some step → h.append step = .error e → Broken j d cursor
  | differs {h : JournalHistory} : j.replayed d cursor.stepCount = some h → h.cursor ≠ cursor →
    Broken j d cursor

/-- A history is the committed steps, with the step past them if there is one. -/
def Loads (j : StoredJournal) (d : JournalDeclaration) (cursor : JournalCursor)
    (h : JournalHistory) : Prop :=
  ∃ h₀, j.replayed d cursor.stepCount = some h₀ ∧ h₀.cursor = cursor ∧
    (j.steps cursor.stepCount = none ∧ h = h₀ ∨
      ∃ step, j.steps cursor.stepCount = some step ∧ h₀.append step = .ok h)

variable {j : StoredJournal} {d : JournalDeclaration} {cursor : JournalCursor}

theorem replayed_succ {n : Nat} {h h' : JournalHistory} {step : JournalStep}
    (hreplayed : j.replayed d n = some h) (hstep : j.steps n = some step)
    (happend : h.append step = .ok h') : j.replayed d (n + 1) = some h' := by
  simp [replayed, hreplayed, hstep, happend, Except.toOption]

/-- Steps that replay further replay up to each of them. -/
theorem replayed_le {n : Nat} {h : JournalHistory} (hreplayed : j.replayed d n = some h) {i : Nat}
    (hi : i ≤ n) : ∃ h', j.replayed d i = some h' := by
  induction n generalizing h with
  | zero => exact ⟨h, Nat.le_zero.mp hi ▸ hreplayed⟩
  | succ n ih =>
    rcases Nat.lt_or_eq_of_le hi with hlt | rfl
    · simp only [replayed, bind, Option.bind_eq_some_iff] at hreplayed
      obtain ⟨h₁, hfirst, -⟩ := hreplayed
      exact ih hfirst (Nat.le_of_lt_succ hlt)
    · exact ⟨h, hreplayed⟩

theorem appended_of_replayed {n : Nat} {h : JournalHistory}
    (hreplayed : j.replayed d n = some h) : JournalHistory.Appended h := by
  induction n generalizing h with
  | zero =>
    cases hreplayed
    exact .initial d
  | succ n ih =>
    simp only [replayed, bind, Option.bind_eq_some_iff] at hreplayed
    obtain ⟨h₁, hfirst, step, -, happend⟩ := hreplayed
    exact (ih hfirst).append (toOption_eq_some.mp happend)

theorem declaration_of_replayed {n : Nat} {h : JournalHistory}
    (hreplayed : j.replayed d n = some h) : h.declaration = d := by
  induction n generalizing h with
  | zero =>
    cases hreplayed
    rfl
  | succ n ih =>
    simp only [replayed, bind, Option.bind_eq_some_iff] at hreplayed
    obtain ⟨h₁, hfirst, step, -, happend⟩ := hreplayed
    obtain ⟨-, rfl⟩ := JournalHistory.append_eq_ok_iff.mp (toOption_eq_some.mp happend)
    exact ih (h := h₁) hfirst

/-- Nothing is loaded from a broken journal. -/
theorem Broken.not_loads (hbroken : j.Broken d cursor) (h : JournalHistory) :
    ¬j.Loads d cursor h := by
  rintro ⟨h₀, hreplayed, hcursor, -⟩
  cases hbroken with
  | @missing i hi hmissing =>
    obtain ⟨h', hnext⟩ := replayed_le hreplayed hi
    simp [replayed, hmissing] at hnext
  | @refused i h₁ step e hi hfirst hstep herror =>
    obtain ⟨h', hnext⟩ := replayed_le hreplayed hi
    simp [replayed, hfirst, hstep, herror, Except.toOption] at hnext
  | differs hreplayed' hdiffers =>
    rw [hreplayed] at hreplayed'
    cases hreplayed'
    exact hdiffers hcursor

/-- At most one history is loaded. -/
theorem Loads.unique {h h' : JournalHistory} (hloads : j.Loads d cursor h)
    (hloads' : j.Loads d cursor h') : h' = h := by
  obtain ⟨h₀, hreplayed, -, horphan⟩ := hloads
  obtain ⟨h₁, hreplayed', -, horphan'⟩ := hloads'
  rw [hreplayed] at hreplayed'
  cases hreplayed'
  rcases horphan with ⟨hnone, rfl⟩ | ⟨step, hsome, happend⟩ <;>
    rcases horphan' with ⟨hnone', rfl⟩ | ⟨step', hsome', happend'⟩ <;> simp_all

/-- A history replays from a store that holds its steps. -/
theorem replayed_of_steps {h : JournalHistory} (hr : JournalHistory.Appended h)
    (hsteps : ∀ i, i < h.steps.length → j.steps i = h.steps[i]?) :
    j.replayed h.declaration h.steps.length = some h := by
  induction hr with
  | initial d => rfl
  | @append h h' step hr happend ih =>
    obtain ⟨-, rfl⟩ := JournalHistory.append_eq_ok_iff.mp happend
    rw [JournalHistory.after_steps, List.length_append, List.length_singleton]
    refine replayed_succ (ih fun i hi => ?_) ?_ happend
    · rw [hsteps i (by simp; omega), JournalHistory.after_steps, List.getElem?_append_left hi]
    · rw [hsteps _ (by simp)]
      simp

/-- What is committed of a history loads as that history. -/
theorem loads_of {h : JournalHistory} (hr : JournalHistory.Appended h) :
    (StoredJournal.of h).Loads h.declaration h.cursor h := by
  refine ⟨h, ?_, rfl, .inl ⟨?_, rfl⟩⟩
  · rw [hr.sound.step_count]
    exact replayed_of_steps hr fun i _ => rfl
  · rw [hr.sound.step_count]
    exact List.getElem?_eq_none le_rfl

/-- A published step without its cursor is loaded with the steps before it. -/
theorem loads_pending {h h' : JournalHistory} {step : JournalStep}
    (hr : JournalHistory.Appended h) (happend : h.append step = .ok h') :
    (⟨some h.cursor, fun i => h'.steps[i]?⟩ : StoredJournal).Loads h.declaration h.cursor h' := by
  obtain ⟨-, rfl⟩ := JournalHistory.append_eq_ok_iff.mp happend
  refine ⟨h, ?_, rfl, .inr ⟨step, ?_, happend⟩⟩
  · rw [hr.sound.step_count]
    refine replayed_of_steps hr fun i hi => ?_
    exact List.getElem?_append_left hi
  · rw [hr.sound.step_count]
    simp

end StoredJournal

/-! ## Loading from any store -/

section Loading

variable {c : Collaborators} {w : World} {d : JournalDeclaration} {j : StoredJournal}
  {cursor : JournalCursor} {α : Type} {Q : α → World → Prop} {E : Exn → World → Prop}

theorem ensures_failure {β : Type} {x : Except Exn β} {e : Exn} {f : β → Outside α}
    {I : World → Prop} (hx : x = .error e) (hE : E e w) :
    ((liftM x : Outside β) >>= f).Ensures (worldMachine c) w Q E I := by
  rw [hx]
  exact Process.ensures_throw.mpr hE

/-- The stored steps are read and appended in order. -/
theorem loadSteps_stored (hjournal : w.journals d = some j) (remaining : Nat) {sequence : Nat}
    {h : JournalHistory} (hreplayed : j.replayed d sequence = some h) :
    (JournalHistory.loadSteps storeCalls d remaining sequence h).Ensures (worldMachine c) w
      (fun h' w' => w'.journals = w.journals ∧ j.replayed d (sequence + remaining) = some h')
      (fun _ _ => True) (fun _ => True) := by
  induction remaining generalizing sequence h w with
  | zero => exact Process.ensures_pure.mpr ⟨rfl, hreplayed⟩
  | succ remaining ih =>
    refine ensures_storeCall trivial (fun _ => trivial) fun response journals hok => ?_
    simp only [storePerform, hjournal, Option.bind_some, Except.ok.injEq] at hok
    obtain ⟨rfl, rfl⟩ := hok
    refine ⟨trivial, ?_⟩
    let w' : World :=
      ⟨w.journals, w.trace ++ [⟨.store (.loadStep d sequence), j.steps sequence⟩]⟩
    change Process.Ensures _ _ w' _ _ _
    cases hstep : j.steps sequence with
    | none => exact Process.ensures_throw.mpr trivial
    | some step =>
      cases happend : h.append step with
      | error e => exact ensures_failure happend trivial
      | ok h' =>
        have hnext := ih (w := w') hjournal
          (StoredJournal.replayed_succ hreplayed hstep happend)
        rw [show sequence + 1 + remaining = sequence + (remaining + 1) by omega] at hnext
        exact ensures_value happend hnext

/-- What is loaded is what the store holds, whatever it refuses, and the store
commits it. -/
theorem load_stored (hjournal : w.journals d = some j) (hcursor : j.cursor = some cursor) :
    (JournalHistory.load storeCalls d).Ensures (worldMachine c) w
      (fun h w' => j.Loads d cursor h ∧ w'.journals d = some ⟨some h.cursor, j.steps⟩)
      (fun _ _ => True) (fun _ => True) := by
  have hdeclaration : (JournalHistory.loadDeclaration storeCalls d).Ensures (worldMachine c) w
      (fun d' w' => d' = d ∧ w'.journals = w.journals) (fun _ _ => True) (fun _ => True) := by
    refine ensures_storeCall trivial (fun _ => trivial) fun response journals hok => ?_
    simp only [storePerform, hjournal, Option.map_some, Except.ok.injEq] at hok
    obtain ⟨rfl, rfl⟩ := hok
    exact ⟨trivial, ensures_guard (fun hne => hne rfl) (Process.ensures_pure.mpr ⟨rfl, rfl⟩)⟩
  refine Process.Ensures.bind hdeclaration ?_
  rintro d' w₁ ⟨rfl, hw₁⟩
  rw [← hw₁] at hjournal
  have hload : (JournalHistory.loadCursor storeCalls d' d').Ensures (worldMachine c) w₁
      (fun cursor' w' => cursor' = cursor ∧ w'.journals = w₁.journals) (fun _ _ => True)
      (fun _ => True) := by
    refine ensures_storeCall trivial (fun _ => trivial) fun response journals hok => ?_
    simp only [storePerform, hjournal, Option.bind_some, hcursor, Except.ok.injEq] at hok
    obtain ⟨rfl, rfl⟩ := hok
    exact ⟨trivial, Process.ensures_pure.mpr ⟨rfl, rfl⟩⟩
  refine Process.Ensures.bind hload ?_
  rintro cursor' w₂ ⟨rfl, hw₂⟩
  rw [← hw₂] at hjournal
  refine Process.Ensures.bind (Process.ensures_ofExcept.mpr
    ⟨fun _ _ => rfl, fun _ _ => trivial⟩ : Process.Ensures _ _ _ (fun _ w' => w' = w₂) _ _) ?_
  rintro _ _ rfl
  refine Process.Ensures.bind (loadSteps_stored hjournal _ rfl) ?_
  rintro h w₃ ⟨hw₃, hreplayed⟩
  rw [Nat.zero_add] at hreplayed
  rw [← hw₃] at hjournal
  by_cases hsame : h.cursor = cursor'
  · refine ensures_guard (not_not.mpr hsame) ?_
    refine ensures_storeCall trivial (fun _ => trivial) fun response journals hok => ?_
    simp only [storePerform, hjournal, Option.bind_some, Except.ok.injEq] at hok
    obtain ⟨rfl, rfl⟩ := hok
    refine ⟨trivial, ?_⟩
    cases hstep : j.steps cursor'.stepCount with
    | none =>
      refine Process.ensures_pure.mpr ⟨⟨h, hreplayed, hsame, .inl ⟨hstep, rfl⟩⟩, ?_⟩
      rw [hsame, ← hcursor]
      exact hjournal
    | some step =>
      cases happend : h.append step with
      | error e =>
        exact ensures_failure (validate_of_append_error happend) trivial
      | ok h' =>
        have hdeclared : h'.cursor.declaration = d' := by
          obtain ⟨-, rfl⟩ := JournalHistory.append_eq_ok_iff.mp happend
          exact (StoredJournal.appended_of_replayed hreplayed).sound.cursor_declaration.trans
            (StoredJournal.declaration_of_replayed hreplayed)
        refine ensures_value (validate_of_append happend) ?_
        refine ensures_storeCall trivial (fun _ => trivial) fun response journals hok => ?_
        simp only [storePerform, hdeclared, hjournal, hcursor, if_true, Except.ok.injEq] at hok
        obtain ⟨rfl, rfl⟩ := hok
        refine ⟨trivial, ensures_guard (fun hne => hne rfl) ?_⟩
        rw [happend]
        exact Process.ensures_pure.mpr
          ⟨⟨h, hreplayed, hsame, .inr ⟨step, hstep, happend⟩⟩, Function.update_self _ _ _⟩
  · have hrefused : refuseIf (h.cursor ≠ cursor') (.invalidArgument
        "application journal cursor disagrees with committed step history") = .error _ :=
      if_pos hsame
    exact ensures_failure hrefused trivial

/-- Collaborators whose store refuses nothing. -/
def Collaborators.Accepting (c : Collaborators) : Prop := ∀ op trace, c.refuses op trace = none

/-- A call an accepting store answers. -/
theorem ensures_accepted {op : StoreOp} {f : op.Response → Outside α}
    (response : op.Response) (journals : JournalDeclaration → Option StoredJournal)
    (hc : c.Accepting) (hok : storePerform w.journals op = .ok (response, journals))
    (hf : (f response).Ensures (worldMachine c) ⟨journals, w.trace ++ [⟨.store op, response⟩]⟩ Q E
      (fun _ => True)) :
    (storeCalls op >>= f).Ensures (worldMachine c) w Q E (fun _ => True) := by
  have hop : (worldMachine c).perform (.store op) w =
      .ok (response, ⟨journals, w.trace ++ [⟨.store op, response⟩]⟩) := by
    simp only [worldMachine, hc op w.trace, hok]
  exact (Process.ensures_call_ok hop).mpr ⟨trivial, trivial, hf⟩

/-- Stored steps that replay are loaded by an accepting store. -/
theorem loadSteps_accepted (hc : c.Accepting) (hjournal : w.journals d = some j)
    (remaining : Nat) {sequence : Nat} {h h₁ : JournalHistory}
    (hreplayed : j.replayed d sequence = some h)
    (hrest : j.replayed d (sequence + remaining) = some h₁) :
    (JournalHistory.loadSteps storeCalls d remaining sequence h).Ensures (worldMachine c) w
      (fun h' w' => h' = h₁ ∧ w'.journals = w.journals) (fun _ _ => False) (fun _ => True) := by
  induction remaining generalizing sequence h w with
  | zero =>
    rw [Nat.add_zero, hreplayed] at hrest
    cases hrest
    exact Process.ensures_pure.mpr ⟨rfl, rfl⟩
  | succ remaining ih =>
    obtain ⟨h', hnext⟩ := StoredJournal.replayed_le hrest
      (show sequence + 1 ≤ sequence + (remaining + 1) by omega)
    have hnext' := hnext
    simp only [StoredJournal.replayed, hreplayed, bind, Option.bind_some,
      Option.bind_eq_some_iff] at hnext'
    obtain ⟨step, hstep, happend⟩ := hnext'
    have happend : h.append step = .ok h' := StoredJournal.toOption_eq_some.mp happend
    refine ensures_accepted (some step) w.journals hc
      (by simp [storePerform, hjournal, hstep]) ?_
    refine ensures_value happend (ih (w := ⟨w.journals,
      w.trace ++ [⟨.store (.loadStep d sequence), some step⟩]⟩) hjournal hnext ?_)
    rwa [show sequence + 1 + remaining = sequence + (remaining + 1) by omega]

/-- What the store holds is loaded by an accepting store. -/
theorem load_accepted (hc : c.Accepting) (hjournal : w.journals d = some j)
    (hcursor : j.cursor = some cursor) {h : JournalHistory} (hloads : j.Loads d cursor h) :
    (JournalHistory.load storeCalls d).Ensures (worldMachine c) w (fun h' _ => h' = h)
      (fun _ _ => False) (fun _ => True) := by
  obtain ⟨h₀, hreplayed, rfl, horphan⟩ := hloads
  have hr := StoredJournal.appended_of_replayed hreplayed
  have hdeclaration := StoredJournal.declaration_of_replayed hreplayed
  have hdeclared : h₀.cursor.declaration = d := hr.sound.cursor_declaration.trans hdeclaration
  -- the declaration, then the cursor
  refine Process.Ensures.bind (Q := fun d' w' => d' = d ∧ w'.journals = w.journals)
    (ensures_accepted (some d) w.journals hc
      (by simp [storePerform, hjournal]) (ensures_guard (fun hne => hne rfl)
        (Process.ensures_pure.mpr ⟨rfl, rfl⟩))) ?_
  rintro d' w₁ ⟨rfl, hw₁⟩
  rw [← hw₁] at hjournal
  refine Process.Ensures.bind (Q := fun cursor w' => cursor = h₀.cursor ∧
    w'.journals = w₁.journals) (ensures_accepted (some h₀.cursor)
      w₁.journals hc (by simp [storePerform, hjournal, hcursor])
      (Process.ensures_pure.mpr ⟨rfl, rfl⟩)) ?_
  rintro _ w₂ ⟨rfl, hw₂⟩
  rw [← hw₂] at hjournal
  refine ensures_guard (not_not.mpr hdeclared) ?_
  -- the committed steps
  refine Process.Ensures.bind (loadSteps_accepted hc hjournal _ rfl
    (by rwa [Nat.zero_add])) ?_
  rintro h₂ w₃ ⟨rfl, hw₃⟩
  rw [← hw₃] at hjournal
  refine ensures_guard (fun hne => hne rfl) ?_
  -- the step past them
  rcases horphan with ⟨hnone, rfl⟩ | ⟨step, hsome, happend⟩
  · exact ensures_accepted none w₃.journals hc
      (by simp [storePerform, hjournal, hnone]) (Process.ensures_pure.mpr rfl)
  · have hcandidate : h.cursor.declaration = d' := by
      obtain ⟨-, rfl⟩ := JournalHistory.append_eq_ok_iff.mp happend
      exact hdeclared
    refine ensures_accepted (some step) w₃.journals hc
      (by simp [storePerform, hjournal, hsome]) ?_
    refine ensures_value (validate_of_append happend) ?_
    have hcommit : storePerform w₃.journals
        (.compareAndPublishCursor (some h₂.cursor) h.cursor) =
          .ok (h.cursor, Function.update w₃.journals d' (some ⟨some h.cursor, j.steps⟩)) := by
      simp only [storePerform, hcandidate, hjournal, hcursor, if_true]
    refine ensures_accepted _ _ hc hcommit ?_
    refine ensures_guard (fun hne => hne rfl) ?_
    rw [happend]
    exact Process.ensures_pure.mpr rfl

end Loading

/-! ## Writers -/

/-- A writer of one journal between two appends: its history, and the world.
It published the initial journal, appended a transition, or was stopped around
an append and loaded the journal again. -/
inductive Written (d : JournalDeclaration) : JournalHistory → World → Prop
  | published {c : Collaborators} {journals : JournalDeclaration → Option StoredJournal}
    {trace : List OutsideCall} {h : JournalHistory} {w : World} : journals d = none →
    (publishInitialJournal d).eval (worldMachine c) ⟨journals, trace⟩ = (.ok h, w) → Written d h w
  | appended {c : Collaborators} {t : Transition} {h h' : JournalHistory} {w w' : World} :
    Written d h w → (appendJournalStep h t).eval (worldMachine c) w = (.ok h', w') →
    Written d h' w'
  | restarted {c c' : Collaborators} {t : Transition} {h h' : JournalHistory} {w w' w'' : World} :
    Written d h w → (appendJournalStep h t).Leaves (worldMachine c) w w' →
    (JournalHistory.load storeCalls d).eval (worldMachine c') w' = (.ok h', w'') → Written d h' w''

section Writers

variable {c : Collaborators} {w : World} {d : JournalDeclaration}

theorem publishInitialJournal_stored (hfresh : w.journals d = none) :
    (publishInitialJournal d).Ensures (worldMachine c) w
      (fun h w' => h = .initial d ∧ w'.journals d = some (.of h)) (fun _ _ => True)
      (fun _ => True) := by
  refine ensures_storeCall trivial (fun _ => trivial) fun response journals hok => ?_
  simp only [storePerform, hfresh, Except.ok.injEq] at hok
  obtain ⟨rfl, rfl⟩ := hok
  refine ⟨trivial, ensures_guard (fun hne => hne rfl) ?_⟩
  refine ensures_storeCall trivial (fun _ => trivial) fun response journals hok => ?_
  have hcursor : (JournalHistory.initial d).cursor.declaration = d := rfl
  simp only [storePerform, hcursor, Function.update_self, if_true, Except.ok.injEq] at hok
  obtain ⟨rfl, rfl⟩ := hok
  exact ⟨trivial, ensures_guard (fun hne => hne rfl)
    (Process.ensures_pure.mpr ⟨rfl, Function.update_self _ _ _⟩)⟩

/-- What one append leaves in the store loads as the history before or after it. -/
theorem appendJournalStep_loads {h : JournalHistory} {t : Transition} {w' : World}
    (hjournal : w.journals h.declaration = some (.of h)) (hr : JournalHistory.Appended h)
    (hleaves : (appendJournalStep h t).Leaves (worldMachine c) w w') :
    ∃ cursor h', w'.journals h.declaration = some ⟨some cursor, fun i => h'.steps[i]?⟩ ∧
      (⟨some cursor, fun i => h'.steps[i]?⟩ : StoredJournal).Loads h.declaration cursor h' ∧
      JournalHistory.Appended h' ∧ h'.declaration = h.declaration ∧
      (h' = h ∨ h.transition t = .ok h') := by
  cases ht : h.transition t with
  | error e =>
    rw [appendJournalStep_error ht] at hleaves
    rcases hleaves with hcut | rfl
    · cases hcut
    · exact ⟨_, h, hjournal, StoredJournal.loads_of hr, hr, rfl, .inl rfl⟩
  | ok h' =>
    obtain ⟨step, happend, -, hensures⟩ := appendJournalStep_worlds (c := c) hjournal hr ht
    have hr' := hr.append happend
    have hdeclaration : h'.declaration = h.declaration := by
      obtain ⟨-, rfl⟩ := JournalHistory.append_eq_ok_iff.mp happend
      rfl
    have hworlds : w.Appends h h' step w' := by
      refine Process.Ensures.leaves (hensures.mono ?_ (fun _ _ hx => hx) fun _ hx => hx) hleaves
      rintro r w' ⟨-, rfl⟩
      exact .inr (.inr rfl)
    rcases hworlds with rfl | rfl | rfl
    · exact ⟨_, h, hjournal, StoredJournal.loads_of hr, hr, rfl, .inl rfl⟩
    · exact ⟨_, h', Function.update_self _ _ _, StoredJournal.loads_pending hr happend, hr',
        hdeclaration, .inr rfl⟩
    · exact ⟨_, h', Function.update_self _ _ _, hdeclaration ▸ StoredJournal.loads_of hr', hr',
        hdeclaration, .inr rfl⟩

/-- A writer's world holds exactly its history. -/
theorem Written.stored {h : JournalHistory} (hw : Written d h w) :
    JournalHistory.Appended h ∧ h.declaration = d ∧ w.journals d = some (.of h) := by
  induction hw with
  | @published c journals trace h w hfresh hrun =>
    obtain ⟨rfl, hjournal⟩ := (publishInitialJournal_stored (c := c)
      (w := ⟨journals, trace⟩) hfresh).returned _ _ hrun
    exact ⟨.initial d, rfl, hjournal⟩
  | @appended c t h h' w w' _ hrun ih =>
    obtain ⟨hr, rfl, hjournal⟩ := ih
    cases ht : h.transition t with
    | error e =>
      rw [appendJournalStep_error ht] at hrun
      cases hrun
    | ok h₁ =>
      obtain ⟨step, happend, -, hensures⟩ := appendJournalStep_worlds (c := c) hjournal hr ht
      obtain ⟨rfl, rfl⟩ := hensures.returned _ _ hrun
      have hdeclaration : h'.declaration = h.declaration := by
        obtain ⟨-, rfl⟩ := JournalHistory.append_eq_ok_iff.mp happend
        rfl
      exact ⟨hr.append happend, hdeclaration, Function.update_self _ _ _⟩
  | @restarted c c' t h h' w w' w'' _ hleaves hrun ih =>
    obtain ⟨hr, rfl, hjournal⟩ := ih
    obtain ⟨cursor, h₁, hjournal', hloads, hr', hdeclaration, -⟩ :=
      appendJournalStep_loads hjournal hr hleaves
    obtain ⟨hloads', hcommitted⟩ := (load_stored (c := c') hjournal' rfl).returned _ _ hrun
    cases hloads.unique hloads'
    exact ⟨hr', hdeclaration, hcommitted⟩

end Writers

/-- Crash consistency of rehydration: whatever a writer leaves around one append
loads as its history before that append or after it, and from any store content
with a cursor nothing is loaded but the committed steps with the valid step past
them, so nothing where the committed steps are broken. -/
theorem load_crash_consistent (d : JournalDeclaration) :
    (∀ h w, Written d h w → ∀ c t w', (appendJournalStep h t).Leaves (worldMachine c) w w' →
      ∀ c' : Collaborators, c'.Accepting → ∃ h' w'',
        (JournalHistory.load storeCalls d).eval (worldMachine c') w' = (.ok h', w'') ∧
          (h' = h ∨ h.transition t = .ok h')) ∧
    ∀ c w j cursor, w.journals d = some j → j.cursor = some cursor →
      (∀ h w', (JournalHistory.load storeCalls d).eval (worldMachine c) w = (.ok h, w') →
        j.Loads d cursor h) ∧
      (j.Broken d cursor → ∃ e w',
        (JournalHistory.load storeCalls d).eval (worldMachine c) w = (.error e, w')) := by
  refine ⟨fun h w hw c t w' hleaves c' hc' => ?_, fun c w j cursor hjournal hcursor => ?_⟩
  · obtain ⟨hr, rfl, hjournal⟩ := hw.stored
    obtain ⟨cursor, h', hjournal', hloads, -, -, hsame⟩ :=
      appendJournalStep_loads hjournal hr hleaves
    obtain ⟨_, w'', hrun, rfl⟩ := (load_accepted hc' hjournal' rfl hloads).returns
    exact ⟨_, w'', hrun, hsame⟩
  · have hload := load_stored (c := c) hjournal hcursor
    refine ⟨fun h w' hrun => (hload.returned h w' hrun).1, fun hbroken => ?_⟩
    obtain ⟨e, w', hrun, -⟩ := Process.Ensures.throws (hload.mono
      (fun h w' hx => hbroken.not_loads h hx.1) (fun _ _ hx => hx) fun _ hx => hx)
    exact ⟨e, w', hrun⟩

/-! ## A torn append -/

section Torn

private def tornStore : Collaborators :=
  ⟨AdmittedApplication.removalMechanisms .completed .completed .confirmed, fun _ _ => none⟩

private theorem tornStore_accepts : tornStore.Accepting := fun _ _ => rfl

/-- The intent to seal the receipt of a removal that has nothing to do. -/
private def tornSealing : Transition :=
  ⟨.preparing, some ⟨⟨2, .sealReceipt, none, JournalHistory.pathless⟩, .intent, ∅⟩, none, none,
    none⟩

private def tornHistory : JournalHistory := .initial JournalHistory.idleDeclaration

private def tornStart : World :=
  ((publishInitialJournal JournalHistory.idleDeclaration).eval (worldMachine tornStore)
    ⟨fun _ => none, []⟩).2

private theorem tornStart_written : Written JournalHistory.idleDeclaration tornHistory tornStart := by
  have hpublished : ((publishInitialJournal JournalHistory.idleDeclaration).eval
      (worldMachine tornStore) ⟨fun _ => none, []⟩).1 = .ok tornHistory := by decide +kernel
  exact .published rfl (Prod.ext hpublished rfl)

private def tornCuts : List World :=
  (appendJournalStep tornHistory tornSealing).cuts (worldMachine tornStore) tornStart

private theorem tornCuts_isSome : tornCuts[1]?.isSome = true := by decide +kernel

/-- The append published its step and was stopped before the cursor. -/
def tornWorld : World := tornCuts[1]?.get tornCuts_isSome

private theorem tornWorld_left :
    (appendJournalStep tornHistory tornSealing).Leaves (worldMachine tornStore) tornStart tornWorld :=
  .inl (List.mem_of_getElem? (Option.some_get tornCuts_isSome).symm)

/-- A journal that lost the one step its cursor counts. -/
private def lostJournal : StoredJournal :=
  ⟨some ⟨JournalHistory.idleDeclaration, 1, none, .preparing, none, none⟩, fun _ => none⟩

def lostWorld : World :=
  ⟨Function.update (fun _ => none) JournalHistory.idleDeclaration (some lostJournal), []⟩

private theorem tornWorld_torn : (tornWorld.journals JournalHistory.idleDeclaration).map
    (fun j => (j.cursor.map JournalCursor.stepCount, (j.steps 0).isSome)) =
      some (some 0, true) := by
  decide +kernel

/-- A journal torn between the step and its cursor is loaded, and nothing is
loaded from a store without a step that its cursor counts. -/
theorem load_crash_consistent_torn :
    (tornWorld.journals JournalHistory.idleDeclaration).map
        (fun j => (j.cursor.map JournalCursor.stepCount, (j.steps 0).isSome)) =
      some (some 0, true) ∧
    (∃ h' w'', (JournalHistory.load storeCalls JournalHistory.idleDeclaration).eval
        (worldMachine tornStore) tornWorld = (.ok h', w'') ∧
      (h' = tornHistory ∨ tornHistory.transition tornSealing = .ok h')) ∧
    ∃ e w', (JournalHistory.load storeCalls JournalHistory.idleDeclaration).eval
      (worldMachine tornStore) lostWorld = (.error e, w') := by
  obtain ⟨htorn, hlost⟩ := load_crash_consistent JournalHistory.idleDeclaration
  refine ⟨tornWorld_torn, ?_, ?_⟩
  · exact htorn tornHistory tornStart tornStart_written tornStore tornSealing tornWorld
      tornWorld_left tornStore tornStore_accepts
  · have hjournal : lostWorld.journals JournalHistory.idleDeclaration = some lostJournal := by
      simp only [lostWorld, Function.update_self]
    exact (hlost tornStore lostWorld _ _ hjournal rfl).2 (.missing Nat.one_pos rfl)

end Torn

end PkgApply
