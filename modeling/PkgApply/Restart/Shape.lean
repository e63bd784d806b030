import PkgApply.Engine.Destruction
import PkgApply.Restart.Advance

/-!
# The shape of journals

Every journal that an application and its restarts leave in a store has the
shape of its attempt; and once an active effect is left without a completed
terminal event, or something is being recovered, no restart goes forward.
-/

namespace PkgApply

open Library

namespace AdmittedApplication

variable {A : AdmittedApplication} {R : Mechanisms → Prop} {m : Mechanisms} {s s' : EngineState}
  {session : RestartSession} {path : PackagePath}

/-- The journal of a run is built of due transitions. -/
theorem Left.built (hs : A.Left R s) : A.Built s.history := by
  induction hs with
  | start => exact .initial
  | @applied m s hm hleaves =>
    refine Process.Ensures.leaves (I := fun s' => A.Built s'.history) ?_ hleaves
    exact (advances_runApplication (m := m) ⟨rfl, rfl, rfl⟩ .initial (preparing_start A)
      fun path => Bool.false_ne_true).mono (fun _ _ hx => hx.1) (fun _ _ hx => hx) fun _ hx => hx
  | @resumed m session s s' hs hm hleaves ih =>
    refine Process.Ensures.leaves (I := fun s' => A.Built s'.history) ?_ hleaves
    exact (advances_runRestart ih hs.logged hs.gated).mono (fun _ _ hx => hx.1)
      (fun _ _ hx => hx) fun _ hx => hx

/-! ## What a stopped process leaves open -/

/-- An active effect is left unresolved, and its call is not under way. -/
structure Abandons (A : AdmittedApplication) (path : PackagePath) (last : Option EngineCall)
    (s : EngineState) : Prop where
  appended : JournalHistory.Appended s.history
  declares : A.Declares s.history
  unresolved : s.history.slot .publishActiveObject (some path) = .unresolved
  unintended : ∀ t, last = some ⟨.journal t, ()⟩ → ¬t.Intends .publishActiveObject path
  unexecuted : ∀ command, ∀ result : BackendOperationResult,
    last = some ⟨.mechanism (.executeActive command), result⟩ → command.path ≠ path

/-- No allowed call takes up an effect that is left unresolved. -/
theorem Abandons.step {last : Option EngineCall} {op : EngineOp}
    {r : engineSignature.Response op} (h : Abandons A path last s) (hallows : A.allows last op)
    (hop : (engineMachine m).perform op s = .ok (r, s')) : Abandons A path (some ⟨op, r⟩) s' := by
  cases op with
  | mechanism request =>
    cases hop
    refine ⟨h.appended, h.declares, h.unresolved, fun t ht => ?_, ?_⟩
    · cases ht
    · intro command result hlast hpath
      cases hlast
      obtain ⟨t, ht, hintends⟩ := hallows _ _ rfl
      exact h.unintended t ht (hpath ▸ hintends)
  | journal t =>
    simp only [engineMachine] at hop
    split at hop
    · rename_i h' htransition
      cases hop
      obtain ⟨hp, hf⟩ :=
        JournalHistory.permits_of_transition h.appended h.declares.keyed htransition
      have hother : ∀ e, t.event = some e →
          ¬(e.effect.kind = .publishActiveObject ∧ e.effect.path = some path) := by
        rintro e he ⟨hkind, hpath⟩
        by_cases hintent : e.kind = .intent
        · have hfresh := hp.fresh e he hintent
          rw [hkind, hpath, h.unresolved] at hfresh
          cases hfresh
        · unfold AdmittedApplication.allows at hallows
          simp only [he, if_neg hintent, Retains, hkind] at hallows
          obtain ⟨command, result, hlast, hcommand, -⟩ := hallows
          exact h.unexecuted command result hlast (Option.some.inj (hcommand.symm.trans hpath))
      refine ⟨hf.appended, hf.declaration.trans h.declares, ?_, ?_, by rintro _ _ ⟨⟩⟩
      · exact hf.slot_eq.trans ((Ledger.step_slot_of_ne hother).trans h.unresolved)
      · rintro t' ht ⟨e, he, -, hkind, hpath⟩
        cases ht
        exact hother e he ⟨hkind, hpath⟩
    · cases hop

/-- One engine process of a restart. -/
def Restarts (A : AdmittedApplication) (s s' : EngineState) : Prop :=
  ∃ m session, (runRestart A.request session).Leaves (engineMachine m) s s'

/-- A restart leaves what it finds unresolved. -/
theorem Restarts.unresolved (hr : A.Restarts s s') (happended : JournalHistory.Appended s.history)
    (hdeclares : A.Declares s.history)
    (hunresolved : s.history.slot .publishActiveObject (some path) = .unresolved) :
    s'.history.slot .publishActiveObject (some path) = .unresolved := by
  obtain ⟨m, session, hleaves⟩ := hr
  have habandons : Abandons A path none s :=
    ⟨happended, hdeclares, hunresolved, (fun _ hx => nomatch hx), fun _ _ hx => nomatch hx⟩
  have hstep : ∀ last s₁ op r s₂, Abandons A path last s₁ → A.Declares s₁.history →
      A.allows last op → (engineMachine m).perform op s₁ = .ok (r, s₂) →
        Abandons A path (some ⟨op, r⟩) s₂ ∧ A.Declares s₂.history := by
    intro last s₁ op r s₂ h _ hallows hop
    exact ⟨h.step hallows hop, (h.step hallows hop).declares⟩
  have hensures := Process.Obeys.ensures (M := engineMachine m) (D := A.discipline)
    (I := fun last s' => Abandons A path last s') hstep habandons hdeclares
      (orderly_runRestart session none s.history hdeclares)
  refine Process.Ensures.leaves (I := fun s' =>
    s'.history.slot .publishActiveObject (some path) = .unresolved) ?_ hleaves
  exact hensures.mono (fun _ _ ⟨_, h⟩ => h.unresolved) (fun _ _ ⟨_, h⟩ => h.unresolved)
    fun _ ⟨_, h⟩ => h.unresolved

/-- What a restart adds to a journal it adds behind. -/
theorem Restarts.extends (hr : A.Restarts s s') (happended : JournalHistory.Appended s.history)
    (hdeclares : A.Declares s.history) :
    s.history.steps <+: s'.history.steps ∧ s.history.Later s'.history := by
  obtain ⟨m, session, hleaves⟩ := hr
  have hinvariant := Process.ensures_invariant (M := engineMachine m) (I := fun s' =>
    JournalHistory.Appended s'.history ∧ A.Declares s'.history ∧
      s.history.steps <+: s'.history.steps ∧ s.history.Later s'.history) ?_
        (runRestart A.request session) ⟨happended, hdeclares, List.prefix_rfl, .refl _⟩
  · exact (hinvariant.leaves hleaves).2.2
  rintro op s₁ s₂ r ⟨happended₁, hdeclares₁, hinitial, hlater⟩ hop
  cases op with
  | mechanism request =>
    cases hop
    exact ⟨happended₁, hdeclares₁, hinitial, hlater⟩
  | journal t =>
    simp only [engineMachine] at hop
    split at hop
    · rename_i h' htransition
      cases hop
      obtain ⟨hp, hf⟩ :=
        JournalHistory.permits_of_transition happended₁ hdeclares₁.keyed htransition
      obtain ⟨last, hsteps, -⟩ := hf.steps
      refine ⟨hf.appended, hf.declaration.trans hdeclares₁, hinitial.trans ?_,
        hlater.trans (hf.later hp)⟩
      exact ⟨[last], hsteps.symm⟩
    · cases hop

/-- Where restarts lead from a leftover of a run. -/
structure Continues (A : AdmittedApplication) (s s' : EngineState) : Prop where
  left : A.Left (fun _ => True) s'
  steps : s.history.steps <+: s'.history.steps
  later : s.history.Later s'.history
  unresolved : ∀ path, s.history.slot .publishActiveObject (some path) = .unresolved →
    s'.history.slot .publishActiveObject (some path) = .unresolved

theorem Left.continues (hs : A.Left (fun _ => True) s)
    (hr : Relation.ReflTransGen A.Restarts s s') : A.Continues s s' := by
  induction hr with
  | refl => exact ⟨hs, List.prefix_rfl, .refl _, fun _ hx => hx⟩
  | @tail s₁ s₂ _ hrestart ih =>
    have hlogged := ih.left.logged
    obtain ⟨hsteps, hlater⟩ := hrestart.extends hlogged.appended hlogged.declares
    refine ⟨?_, ih.steps.trans hsteps, ih.later.trans hlater, fun path hunresolved => ?_⟩
    · obtain ⟨m, session, hleaves⟩ := hrestart
      exact .resumed ih.left trivial hleaves
    · exact hrestart.unresolved hlogged.appended hlogged.declares (ih.unresolved path hunresolved)

/-- An active effect that was intended without being completed is never
completed by a restart. -/
theorem Continues.not_done (hc : A.Continues s s')
    (htouched : s.history.Touched .publishActiveObject (some path))
    (hopen : ¬s.history.Done .publishActiveObject (some path)) :
    ¬s'.history.Done .publishActiveObject (some path) := by
  unfold JournalHistory.Done JournalHistory.EndedWith at hopen ⊢
  cases hended : (s.history.slot .publishActiveObject (some path)).ended with
  | some ended => rwa [hc.later _ _ (by rw [hended]; rfl)]
  | none =>
    have hunresolved : s.history.slot .publishActiveObject (some path) = .unresolved := by
      cases hslot : s.history.slot .publishActiveObject (some path) with
      | mk intended ended =>
        rw [JournalHistory.Touched, hslot] at htouched
        rw [hslot] at hended
        cases htouched
        cases hended
        rfl
    rw [hc.unresolved path hunresolved]
    rintro ⟨⟩

end AdmittedApplication

/-! ## Journals in a store -/

/-- Some steps end what goes forward: an active effect was intended without
being completed, or something is being recovered. -/
def Halted (steps : List JournalStep) : Prop :=
  ∃ p, (Entered steps .publishActiveObject (some p) .intent ∧
      ¬Entered steps .publishActiveObject (some p) .completed) ∨
    Entered steps .recoverActiveObject (some p) .intent

/-- One restart of a world. -/
def Resumes (A : AdmittedApplication) (w w' : World) : Prop :=
  ∃ c session, (resumeProcess A session).Leaves (worldMachine c) w w'

section Worlds

variable {A : AdmittedApplication} {s s' : EngineState} {w w' : World} {j : StoredJournal}

theorem Entered.mono {steps steps' : List JournalStep} {kind : EffectKind}
    {path : Option PackagePath} {event : EventKind} (h : Entered steps kind path event)
    (hinitial : steps <+: steps') : Entered steps' kind path event := by
  obtain ⟨step, hstep, henters⟩ := h
  exact ⟨step, hinitial.subset hstep, henters⟩

/-- What a store holds of a journal, step by step. -/
theorem Holds.steps (hw : Holds A s w) (hj : w.journals A.declaration = some j) (i : Nat) :
    j.steps i = s.history.steps[i]? := by
  obtain ⟨pending, j', hj', hstored, -⟩ := hw
  cases hj.symm.trans hj'
  generalize s.history = h at hstored
  cases hstored with
  | declared d => rfl
  | settled => rfl
  | pending => rfl

/-- Restarts of a world refine restarts of the engine. -/
theorem Holds.restarts (hw : Holds A s w) (hr : Relation.ReflTransGen (Resumes A) w w') :
    ∃ s', Relation.ReflTransGen A.Restarts s s' ∧ Holds A s' w' := by
  induction hr with
  | refl => exact ⟨s, .refl, hw⟩
  | tail _ hresumes ih =>
    obtain ⟨s₁, hs₁, hw₁⟩ := ih
    obtain ⟨c, session, hleaves⟩ := hresumes
    obtain ⟨s₂, hs₂, hw₂⟩ := hw₁.resumed hleaves
    rcases hs₂ with rfl | hs₂
    · exact ⟨s₂, hs₁, hw₂⟩
    · exact ⟨s₂, hs₁.tail ⟨_, session, hs₂⟩, hw₂⟩

/-- Behind a halted journal nothing is intended to go forward. -/
theorem AdmittedApplication.Continues.halted (hs : A.Left (fun _ => True) s)
    (hc : A.Continues s s') (hhalted : Halted s.history.steps) {i : Nat} {step : JournalStep}
    {kind : EffectKind} {path : Option PackagePath} (hstep : s'.history.steps[i]? = some step)
    (hforward : kind.forward = true) (henters : step.Enters kind path .intent) :
    i < s.history.steps.length := by
  by_contra hbehind
  obtain ⟨hi, rfl⟩ := List.getElem?_eq_some_iff.mp hstep
  have hsplit : s'.history.steps = s'.history.steps.take i ++
      s'.history.steps[i] :: s'.history.steps.drop (i + 1) := by
    rw [← List.drop_eq_getElem_cons hi, List.take_append_drop]
  have hinitial : s.history.steps <+: s'.history.steps.take i :=
    List.prefix_take_iff.mpr ⟨hc.steps, by omega⟩
  have hb := hs.built
  have hb' := hc.left.built
  obtain ⟨p, ⟨hintended, hopen⟩ | hrecovers⟩ := hhalted
  · obtain ⟨hcompleted, -⟩ := hb'.shaped.forward _ _ _ hsplit kind path hforward henters p
    refine hc.not_done (hb.touched_iff.mpr hintended) (fun hdone => hopen (hb.done_iff.mp hdone)) ?_
    exact hb'.done_iff.mpr ((hcompleted (hintended.mono hinitial)).mono (List.take_prefix _ _))
  · obtain ⟨-, -, -, hcalm⟩ := hb'.shaped.forward _ _ _ hsplit kind path hforward henters p
    exact hcalm (hrecovers.mono hinitial)

/-- Every journal a store holds of an attempt has the shape of the attempt, and
behind a halted one restarts append nothing that goes forward. -/
theorem Run.journal_shape (hw : Run A w) (hj : w.journals A.declaration = some j) :
    ∃ h, JournalHistory.Appended h ∧ A.Declares h ∧ (∀ i, j.steps i = h.steps[i]?) ∧
      A.Shaped h ∧
        (Halted h.steps → ∀ w' j', Relation.ReflTransGen (Resumes A) w w' →
          w'.journals A.declaration = some j' → ∀ i step kind path, j'.steps i = some step →
            kind.forward = true → step.Enters kind path .intent → i < h.steps.length) := by
  rcases hw.refines with ⟨hnone, -⟩ | ⟨s, hs, hholds⟩
  · rw [hnone] at hj
    cases hj
  have hlogged := hs.logged
  refine ⟨s.history, hlogged.appended, hlogged.declares, hholds.steps hj, hs.built.shaped, ?_⟩
  intro hhalted w' j' hresumes hj' i step kind path hstep hforward henters
  obtain ⟨s', hrestarts, hholds'⟩ := hholds.restarts hresumes
  rw [hholds'.steps hj'] at hstep
  exact (hs.continues hrestarts).halted hs hhalted hstep hforward henters

end Worlds

/-! ## An upgrade that is undone -/

section Upgraded

open AdmittedApplication

/-- The file the upgrade brings. -/
private def broughtPath : PackagePath := ⟨[0x61]⟩

/-- The file the upgrade retires. -/
private def retiredPath : PackagePath := ⟨[0x7a]⟩

private theorem regular_content : EntryType.regular = .regular ∨ EntryType.regular = .directory ∨
    EntryType.regular = .hardlink :=
  .inl rfl

private def upgradedImage : PackageImage where
  identity := ⟨2⟩
  entries := [upgradeEntry 0 broughtPath.bytes .regular regular_content]
  ids_nodup := by decide
  paths_nodup := by decide
  anchors_regular := by decide

/-- One file is activated, and another removed with its old object staged. -/
private def upgradedPlan : OperationPlan where
  kind := .upgrade
  identity := ⟨3⟩
  paths := [upgradeIncoming 0 broughtPath.bytes true, upgradeObsolete retiredPath.bytes false]
  preconditions := [⟨broughtPath, none⟩, ⟨retiredPath, some (upgradeMetadata .regular)⟩]
  paths_sorted := by decide
  preconditions_sorted := by decide
  preconditions_cover := by decide
  removal_roles := nofun

private theorem upgraded_applicable : ApplicableFacts .regular (.known 1) .unknown .unknown
    .notApplicable .notApplicable .unknown :=
  ⟨nofun, rfl, rfl, rfl, rfl, rfl⟩

private def retiredObject : CompletedObjectFact where
  path := retiredPath
  kind := .regular
  mode := .known 0o644
  uid := .known 0
  gid := .known 0
  size := .known 1
  mtime := .unknown
  regularContent := .unknown
  symlinkTarget := .notApplicable
  device := .notApplicable
  hardlink := .unknown
  provenance := .applicationObservation
  completeness := .complete
  applicable := upgraded_applicable

private def upgradedObservations : BackendObservationBatch :=
  ⟨[broughtPath, retiredPath], [.absent broughtPath, .present retiredObject], {⟨4⟩},
    by decide, rfl⟩

private def upgradedRequest : ApplicationRequest where
  identity := ⟨5⟩
  plan := upgradedPlan
  control := ⟨⟨6⟩, .exactPriorState, .visibilityOnly, .recoverAfterTargetMutation,
    CancellationPolicy.recovers_exact .exactPriorState⟩
  target := ⟨7⟩
  mutationBackend := ⟨8⟩
  image := some upgradedImage
  image_iff := iff_of_true rfl nofun
  entries_resolve := by
    rintro _ ⟨⟩ d hd id hid
    simp only [upgradedPlan, List.mem_cons, List.not_mem_nil, or_false] at hd
    rcases hd with rfl | rfl
    · cases hid
      exact ⟨_, rfl, rfl⟩
    · cases hid

private def upgraded : AdmittedApplication where
  request := upgradedRequest
  nonce := 9
  observations := upgradedObservations
  inputs :=
    { payloads := some ⟨⟨2⟩, [0], [⟨broughtPath, 0, some 0, true, false⟩]⟩
      captures := [⟨retiredPath, true, true⟩]
      schedule :=
        [⟨.captureOldObject, retiredPath, none⟩, ⟨.stageRegularPayload, broughtPath, some 0⟩,
          ⟨.publishRejectedObject, retiredPath, none⟩,
          ⟨.publishActiveObject, broughtPath, some 0⟩, ⟨.publishActiveObject, retiredPath, none⟩,
          ⟨.observeResult, broughtPath, none⟩, ⟨.observeResult, retiredPath, none⟩] }
  projection := ⟨⟨10⟩, ⟨11⟩, ⟨12⟩, .complete,
    [⟨broughtPath, ∅⟩, ⟨retiredPath, {⟨1⟩}⟩], ⟨13⟩, by decide⟩
  check := ⟨upgradedObservations, []⟩
  prepared := by rfl
  checked := by rfl
  satisfied := rfl

/-- Whether the retired file goes is never known. -/
private def upgradedMechanisms : Mechanisms
  | .observe _ _ => upgradedObservations
  | .captureOld _ =>
    ⟨.completed, .present retiredObject, true, ∅, fun _ => rfl, fun _ => rfl⟩
  | .executeRejected _ =>
    ⟨.completed, some ⟨14⟩, ∅, BackendOperationOutcome.noConfusion, iff_of_true rfl rfl⟩
  | .executeActive command =>
    (⟨if command.path = retiredPath then .indeterminate else .completed, ∅⟩ :
      BackendOperationResult)
  | request => installationMechanisms ∅ request

private def upgradedWorld : World :=
  ((applyProcess upgraded).eval (worldMachine ⟨upgradedMechanisms, fun _ _ => none⟩)
    ⟨fun _ => none, []⟩).2

private theorem upgradedWorld_run : Run upgraded upgradedWorld := .applied rfl (.inr rfl)

private def upgradedStep (i : Nat) : Option JournalStep :=
  (upgradedWorld.journals upgraded.declaration).bind fun j => j.steps i

/-- Whether a step of the upgrade's journal enters an event of one effect. -/
private def upgradedEnters (i : Nat) (kind : EffectKind) (path : PackagePath)
    (event : EventKind) : Bool :=
  (upgradedStep i).any fun step => step.event.any fun e =>
    e.effect.kind == kind && e.effect.path == some path && e.kind == event

private theorem upgraded_entered {j : StoredJournal} {steps : List JournalStep}
    (hj : upgradedWorld.journals upgraded.declaration = some j)
    (hsteps : ∀ i, j.steps i = steps[i]?) {i : Nat} {kind : EffectKind} {path : PackagePath}
    {event : EventKind} (h : upgradedEnters i kind path event = true) :
    Entered steps kind (some path) event := by
  unfold upgradedEnters upgradedStep at h
  rw [hj, Option.bind_some, hsteps] at h
  obtain ⟨step, hstep, henters⟩ := (Option.any_eq_true _ _).mp h
  obtain ⟨e, he, hmatch⟩ := (Option.any_eq_true _ _).mp henters
  simp only [Bool.and_eq_true, beq_iff_eq] at hmatch
  exact ⟨step, List.mem_of_getElem? hstep, e, he, hmatch.1.1, hmatch.1.2, hmatch.2⟩

/-- The old object is captured and staged as rejected, its removal is in doubt,
and the activation before it is undone. -/
private theorem upgraded_enters :
    (upgradedWorld.journals upgraded.declaration).isSome = true ∧
    upgradedEnters 1 .captureOldObject retiredPath .completed = true ∧
    upgradedEnters 11 .publishRejectedObject retiredPath .completed = true ∧
    upgradedEnters 15 .publishActiveObject retiredPath .indeterminate = true ∧
    upgradedEnters 18 .recoverActiveObject retiredPath .intent = true ∧
    upgradedEnters 21 .recoverActiveObject broughtPath .completed = true := by
  decide +kernel

/-- The upgrade's journal has the shape, and no restart goes forward behind it. -/
theorem journal_shape_upgraded : ∃ j h,
    upgradedWorld.journals upgraded.declaration = some j ∧ JournalHistory.Appended h ∧
      (∀ i, j.steps i = h.steps[i]?) ∧ upgraded.Shaped h ∧
      Entered h.steps .captureOldObject (some retiredPath) .completed ∧
      Entered h.steps .publishRejectedObject (some retiredPath) .completed ∧
      Entered h.steps .publishActiveObject (some retiredPath) .indeterminate ∧
      Entered h.steps .recoverActiveObject (some broughtPath) .completed ∧
      ∀ w' j', Relation.ReflTransGen (Resumes upgraded) upgradedWorld w' →
        w'.journals upgraded.declaration = some j' → ∀ i step kind path, j'.steps i = some step →
          kind.forward = true → step.Enters kind path .intent → i < h.steps.length := by
  obtain ⟨hsome, hcaptured, hrejected, hdoubt, hundoes, hundone⟩ := upgraded_enters
  obtain ⟨j, hj⟩ := Option.isSome_iff_exists.mp hsome
  obtain ⟨h, happended, -, hsteps, hshaped, hhalted⟩ := upgradedWorld_run.journal_shape hj
  have hrecovers := upgraded_entered hj hsteps hundoes
  exact ⟨j, h, hj, happended, hsteps, hshaped, upgraded_entered hj hsteps hcaptured,
    upgraded_entered hj hsteps hrejected, upgraded_entered hj hsteps hdoubt,
    upgraded_entered hj hsteps hundone, hhalted ⟨retiredPath, .inr hrecovers⟩⟩

end Upgraded

end PkgApply
