import PkgApply.Journal.History
import PkgApply.Restart.Assessment

/-!
# Sound histories

What every history built by appending satisfies: its incremental progress is
the batch replay of its events, its counters count, and its terminal authority
fits its state.  One append preserves it.
-/

namespace PkgApply

namespace JournalDeclaration

/-- Distinct ordinals make distinct effects. -/
theorem effects_nodup (d : JournalDeclaration) : d.effects.Nodup := by
  refine List.Nodup.of_map JournalEffect.ordinal ?_
  rw [d.ordinals]
  exact List.nodup_range

end JournalDeclaration

namespace JournalHistory

variable {h h' : JournalHistory} {step : JournalStep}

theorem effects_nodup (h : JournalHistory) : h.effects.Nodup := h.declaration.effects_nodup

/-- Success effects with a completed terminal event. -/
def completedEffects (h : JournalHistory) : Nat :=
  h.effects.countP fun e =>
    successEffectRequired e.kind && (h.progressOf e).terminal == some .completed

/-- Every required effect counted means every required effect completed. -/
theorem completedEffects_eq_iff (h : JournalHistory) :
    (h.completedEffects = h.effects.countP fun e => successEffectRequired e.kind) ↔
      ∀ e ∈ h.effects, successEffectRequired e.kind = true →
        (h.progressOf e).terminal = some .completed := by
  have hle : ∀ l : List JournalEffect,
      ((l.countP fun e => successEffectRequired e.kind &&
          (h.progressOf e).terminal == some .completed) =
        l.countP fun e => successEffectRequired e.kind) ↔
      ∀ e ∈ l, successEffectRequired e.kind = true →
        (h.progressOf e).terminal = some .completed := by
    intro l
    induction l with
    | nil => simp
    | cons x rest ih =>
      have hrest := List.countP_mono_left (l := rest)
        (p := fun e => successEffectRequired e.kind &&
          (h.progressOf e).terminal == some .completed)
        (q := fun e => successEffectRequired e.kind) (by simp +contextual)
      simp only [List.countP_cons, List.forall_mem_cons, ← ih]
      cases hx : successEffectRequired x.kind <;>
        cases hc : ((h.progressOf x).terminal == some .completed) <;> simp_all
      omega
  exact hle h.effects

/-- What appending keeps true of a history. -/
structure Sound (h : JournalHistory) : Prop where
  cursor_declaration : h.cursor.declaration = h.declaration
  step_count : h.cursor.stepCount = h.steps.length
  latest : h.cursor.latestStep = h.steps.getLast?.map JournalStep.identity
  progress_length : h.progress.length = h.effects.length
  events_eq : h.events = h.steps.filterMap (·.event)
  replayed : validateEvents h.effects h.events = .ok h.progress
  progress_eq : ∀ e ∈ h.effects, h.progressOf e = eventsProgress h.events e
  intended : ∀ e ∈ h.effects, (h.progressOf e).terminal.isSome → (h.progressOf e).intended = true
  completed_count : h.completedSuccessEffects = h.completedEffects
  required_count : h.requiredSuccessEffects = h.effects.countP fun e => successEffectRequired e.kind
  evidence_receipt : h.completedEvidence.isSome → h.receipt.isSome
  successful : successfulState h.state = true →
    h.receipt.isSome ∧ h.completedEvidence.isSome ∧
      h.completedSuccessEffects = h.requiredSuccessEffects
  unsuccessful : successfulState h.state = false → h.completedEvidence = none
  recovered : h.state = .recovered → h.receipt.isSome

/-! ## The history one step later -/

@[simp] theorem after_declaration : (h.after step).declaration = h.declaration := rfl
@[simp] theorem after_effects : (h.after step).effects = h.effects := rfl
@[simp] theorem after_header : (h.after step).header = h.header := rfl
@[simp] theorem after_state : (h.after step).state = step.state := rfl
@[simp] theorem after_receipt : (h.after step).receipt = step.receipt := rfl
@[simp] theorem after_completedEvidence :
    (h.after step).completedEvidence = step.completedEvidence := rfl
@[simp] theorem after_steps : (h.after step).steps = h.steps ++ [step] := rfl
@[simp] theorem after_events : (h.after step).events = h.events ++ step.event.toList := rfl

theorem progressOf_of_idxOf {e : JournalEffect} {i : Nat} (hi : h.effects.idxOf? e = some i) :
    h.progressOf e = h.progress.getD i .untouched := by
  simp only [progressOf, hi]

/-- An effect's index is in range and holds it. -/
theorem idxOf_spec {e : JournalEffect} {i : Nat} (hi : h.effects.idxOf? e = some i) :
    ∃ hlt : i < h.effects.length, h.effects[i] = e := by
  obtain ⟨hlt, hget, -⟩ := List.idxOf?_eq_some_iff.mp hi
  exact ⟨hlt, by simpa using hget⟩

theorem exists_idxOf {e : JournalEffect} (he : e ∈ h.effects) :
    ∃ i, h.effects.idxOf? e = some i := by
  cases hi : h.effects.idxOf? e with
  | some i => exact ⟨i, rfl⟩
  | none => exact absurd he (List.idxOf?_eq_none_iff.mp hi)

/-- A step records its event at its effect and nothing elsewhere. -/
theorem progressOf_after (hlen : h.progress.length = h.effects.length) {e : JournalEffect}
    (he : e ∈ h.effects) (hev : ∀ x, step.event = some x → x.effect ∈ h.effects) :
    (h.after step).progressOf e =
      match step.event with
      | some x => if x.effect = e then (h.progressOf e).record x.kind else h.progressOf e
      | none => h.progressOf e := by
  obtain ⟨i, hi⟩ := exists_idxOf he
  obtain ⟨hlt, hget⟩ := idxOf_spec hi
  have hafter : (h.after step).progressOf e = (h.after step).progress.getD i .untouched :=
    progressOf_of_idxOf hi
  rw [hafter, progressOf_of_idxOf hi]
  cases hx : step.event with
  | none => simp only [after, hx]
  | some x =>
    obtain ⟨j, hj⟩ := exists_idxOf (hev x hx)
    obtain ⟨hjlt, hjget⟩ := idxOf_spec hj
    simp only [after, hx, hj, List.getD_eq_getElem?_getD, List.getElem?_set]
    by_cases hij : j = i
    · subst hij
      have hxe : x.effect = e := hjget.symm.trans hget
      simp [hxe, hlen, hlt]
    · have hxe : x.effect ≠ e := by
        rintro rfl
        exact hij (Option.some.inj (hj.symm.trans hi))
      simp [hij, hxe]

theorem eventsProgress_append (events : List JournalEvent) (x : Option JournalEvent)
    (e : JournalEffect) :
    eventsProgress (events ++ x.toList) e =
      match x with
      | some x =>
        if x.effect = e then (eventsProgress events e).record x.kind else eventsProgress events e
      | none => eventsProgress events e := by
  cases x with
  | none => simp [eventsProgress]
  | some x => simp [eventsProgress, List.foldl_append]

/-- Replay of one more event. -/
theorem validateEventsFrom_append (effects : List JournalEffect) (events : List JournalEvent)
    (x : JournalEvent) (index : Nat) (progress progress' : List EffectProgress)
    (hreplay : validateEventsFrom effects events index progress = .ok progress') :
    validateEventsFrom effects (events ++ [x]) index progress =
      validateEventsFrom effects [x] (index + events.length) progress' := by
  induction events generalizing index progress with
  | nil =>
    simp only [validateEventsFrom, Except.ok.injEq] at hreplay
    simp [hreplay]
  | cons y rest ih =>
    rw [List.cons_append]
    unfold validateEventsFrom at hreplay ⊢
    have hindex : index + (y :: rest).length = index + 1 + rest.length := by
      simp only [List.length_cons]
      omega
    rw [hindex]
    split at hreplay
    · cases hreplay
    rename_i hseq
    rw [if_neg hseq]
    split at hreplay
    · cases hreplay
    rename_i ordinal hidx
    simp only at hreplay ⊢
    split at hreplay
    · rename_i hkind
      rw [if_pos hkind]
      split at hreplay
      · cases hreplay
      rename_i hfresh
      rw [if_neg hfresh]
      exact ih _ _ hreplay
    · rename_i hkind
      rw [if_neg hkind]
      split at hreplay
      · cases hreplay
      rename_i hint
      rw [if_neg hint]
      split at hreplay
      · cases hreplay
      rename_i honce
      rw [if_neg honce]
      exact ih _ _ hreplay

/-- An admitted event replays to the progress it leaves. -/
theorem validateEventsFrom_admitted {x : JournalEvent} (hx : h.AdmitsEvent x) {i : Nat}
    (hi : h.effects.idxOf? x.effect = some i) :
    validateEventsFrom h.effects [x] h.events.length h.progress =
      .ok (h.progress.set i ((h.progress.getD i .untouched).record x.kind)) := by
  have hseq : ¬ x.sequence ≠ h.events.length := not_not.mpr hx.sequence
  unfold validateEventsFrom
  rw [if_neg hseq]
  simp only [hi]
  by_cases hk : x.kind = .intent
  · have hp := hx.fresh hk
    rw [progressOf_of_idxOf hi] at hp
    rw [if_pos hk, hp, hk]
    simp [EffectProgress.untouched, validateEventsFrom, EffectProgress.record]
  · have hp := hx.open_ hk
    rw [progressOf_of_idxOf hi] at hp
    rw [if_neg hk, hp]
    have hrec : (⟨true, none⟩ : EffectProgress).record x.kind = ⟨true, some x.kind⟩ := by
      cases hkind : x.kind with
      | intent => exact absurd hkind hk
      | completed => rfl
      | failed => rfl
      | indeterminate => rfl
    simp [validateEventsFrom, hrec]

namespace Sound

theorem initial (d : JournalDeclaration) : (JournalHistory.initial d).Sound := by
  have hprogress : ∀ e, (JournalHistory.initial d).progressOf e = .untouched := by
    intro e
    unfold progressOf
    cases (JournalHistory.initial d).effects.idxOf? e with
    | none => rfl
    | some i =>
      have hrep : (JournalHistory.initial d).progress =
          List.replicate d.effects.length .untouched := rfl
      simp only [hrep, List.getD_eq_getElem?_getD, List.getElem?_replicate]
      split <;> rfl
  refine ⟨rfl, rfl, rfl, ?_, rfl, rfl, fun e _ => hprogress e, ?_, ?_, rfl, ?_, ?_, ?_, ?_⟩
  · simp [JournalHistory.initial, JournalHistory.effects]
  · intro e _ hsome
    rw [hprogress e] at hsome
    cases hsome
  · have hcount : (JournalHistory.initial d).completedEffects = 0 := by
      unfold completedEffects
      rw [List.countP_eq_zero]
      intro e _
      simp [hprogress e, EffectProgress.untouched]
    exact hcount.symm
  · exact fun hsome => hsome
  · exact fun hstate => absurd hstate Bool.false_ne_true
  · exact fun _ => rfl
  · intro hstate
    change JournalState.preparing = .recovered at hstate
    cases hstate

/-- Counting one more completed effect. -/
private theorem countP_update {l : List JournalEffect} (hnodup : l.Nodup) {a : JournalEffect}
    (ha : a ∈ l) {p q : JournalEffect → Bool} (hp : p a = false) (hq : q a = true)
    (hother : ∀ e ∈ l, e ≠ a → q e = p e) : l.countP q = l.countP p + 1 := by
  induction l with
  | nil => cases ha
  | cons x rest ih =>
    rw [List.nodup_cons] at hnodup
    by_cases hxa : x = a
    · subst hxa
      have hrest : rest.countP q = rest.countP p := by
        refine List.countP_congr fun e he => ?_
        have hne : e ≠ x := fun heq => hnodup.1 (heq ▸ he)
        rw [hother e (List.mem_cons_of_mem _ he) hne]
      rw [List.countP_cons_of_pos hq, List.countP_cons_of_neg (by simp [hp]), hrest]
    · have hmem : a ∈ rest := (List.mem_cons.mp ha).resolve_left (Ne.symm hxa)
      have hrest := ih hnodup.2 hmem fun e he => hother e (List.mem_cons_of_mem _ he)
      rw [List.countP_cons, List.countP_cons, hrest, hother x List.mem_cons_self hxa]
      omega

theorem progressOf_after (hs : h.Sound) (hev : ∀ x, step.event = some x → h.AdmitsEvent x)
    {e : JournalEffect} (he : e ∈ h.effects) :
    (h.after step).progressOf e =
      match step.event with
      | some x => if x.effect = e then (h.progressOf e).record x.kind else h.progressOf e
      | none => h.progressOf e :=
  JournalHistory.progressOf_after hs.progress_length he fun x hx => (hev x hx).declared

/-- The counter counts the completed success effects. -/
theorem countCompleted_eq (hs : h.Sound) (step : JournalStep)
    (hev : ∀ x, step.event = some x → h.AdmitsEvent x) :
    h.countCompleted step.event = (h.after step).completedEffects := by
  have hprogress := fun e he => hs.progressOf_after hev (e := e) he
  cases hx : step.event with
  | none =>
    simp only [hx] at hprogress
    simp only [countCompleted, hs.completed_count, completedEffects, after_effects]
    exact List.countP_congr fun e he => by rw [hprogress e he]
  | some x =>
    simp only [hx] at hprogress
    have hx' := hev x hx
    by_cases hcount : x.kind = .completed ∧ successEffectRequired x.effect.kind
    · have hopen := hx'.open_ (by rw [hcount.1]; decide)
      simp only [countCompleted, hcount, and_self, if_true, hs.completed_count, completedEffects,
        after_effects]
      refine (countP_update h.effects_nodup hx'.declared ?_ ?_ ?_).symm
      · simp [hopen]
      · rw [hprogress _ hx'.declared]
        simp [hcount.1, hcount.2, EffectProgress.record]
      · intro e he hne
        rw [hprogress e he, if_neg (Ne.symm hne)]
    · simp only [countCompleted, if_neg hcount, hs.completed_count, completedEffects,
        after_effects]
      refine List.countP_congr fun e he => ?_
      rw [hprogress e he]
      by_cases hxe : x.effect = e
      · subst hxe
        rw [if_pos rfl]
        by_cases hrequired : successEffectRequired x.effect.kind = true
        · have hk : x.kind ≠ .completed := fun hk => hcount ⟨hk, hrequired⟩
          by_cases hintent : x.kind = .intent
          · simp [hintent, EffectProgress.record]
          · have hopen := hx'.open_ hintent
            rw [hopen]
            cases hkind : x.kind <;> simp_all [EffectProgress.record]
        · simp [hrequired]
      · rw [if_neg hxe]

/-- A step keeps one progress for each effect. -/
theorem progress_length_after (hs : h.Sound) (step : JournalStep) :
    (h.after step).progress.length = (h.after step).effects.length := by
  rw [after_effects, ← hs.progress_length]
  simp only [JournalHistory.after]
  split
  · rfl
  · split <;> simp

/-- After an admitted event every ended effect is intended. -/
theorem intended_after (hs : h.Sound) (hev : ∀ x, step.event = some x → h.AdmitsEvent x) :
    ∀ e ∈ (h.after step).effects, ((h.after step).progressOf e).terminal.isSome →
      ((h.after step).progressOf e).intended = true := by
  intro e he
  rw [hs.progressOf_after hev he]
  cases hx : step.event with
  | none => exact hs.intended e he
  | some x =>
    simp only
    split
    · rename_i hxe
      subst hxe
      intro hsome
      by_cases hk : x.kind = .intent
      · simp [hk, EffectProgress.record]
      · have hopen := (hev x hx).open_ hk
        rw [hopen]
        cases hkind : x.kind <;> rfl
    · exact hs.intended e he

/-- The events after an admitted event replay to the progress it leaves. -/
theorem replayed_after (hs : h.Sound) (hev : ∀ x, step.event = some x → h.AdmitsEvent x) :
    validateEvents (h.after step).effects (h.after step).events =
      .ok (h.after step).progress := by
  rw [after_effects, after_events]
  cases hx : step.event with
  | none => simpa [JournalHistory.after, hx] using hs.replayed
  | some x =>
    obtain ⟨i, hi⟩ := exists_idxOf (hev x hx).declared
    rw [Option.toList_some, validateEvents,
      validateEventsFrom_append _ _ _ _ _ _ hs.replayed, Nat.zero_add,
      validateEventsFrom_admitted (hev x hx) hi]
    simp [JournalHistory.after, hx, hi]

/-- One append keeps a history sound. -/
theorem after (hs : h.Sound) (ha : h.Admits step) : (h.after step).Sound := by
  have hprogress := fun e he => hs.progressOf_after ha.event (e := e) he
  refine ⟨hs.cursor_declaration, ?_, ?_, hs.progress_length_after step, ?_,
    hs.replayed_after ha.event, ?_, hs.intended_after ha.event,
    hs.countCompleted_eq step ha.event, hs.required_count, step.evidence_receipt,
    ha.resolution.successful, ha.resolution.unsuccessful, ha.resolution.recovered⟩
  · simp [JournalHistory.after, hs.step_count]
  · simp [JournalHistory.after]
  · rw [after_events, after_steps, List.filterMap_append, hs.events_eq]
    cases hx : step.event <;> simp [hx]
  · intro e he
    rw [after_events, eventsProgress_append, hprogress e he]
    cases step.event with
    | none => exact hs.progress_eq e he
    | some x => simp only [hs.progress_eq e he]

end Sound

/-! ## Reachable histories -/

/-- Histories built from a declaration by appending. -/
inductive Appended : JournalHistory → Prop
  | initial (d : JournalDeclaration) : Appended (.initial d)
  | append {h h' : JournalHistory} {step : JournalStep} :
    Appended h → h.append step = .ok h' → Appended h'

theorem Appended.sound (hr : Appended h) : h.Sound := by
  induction hr with
  | initial d => exact .initial d
  | append _ happend ih =>
    obtain ⟨ha, rfl⟩ := append_eq_ok_iff.mp happend
    exact ih.after ha

end JournalHistory

end PkgApply
