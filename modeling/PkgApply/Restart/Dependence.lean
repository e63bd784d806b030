import PkgApply.Restart.Shape

/-!
# Dependencies across a run

The active effects of a plan depend on each other: a directory goes before
what is put under it, what is under a removed directory goes before it, an
anchor before its hard links.  Whatever is crashed and restarted, an effect is
executed only after what it depends on is completed, and undone only after
what depends on it is restored.
-/

namespace PkgApply

open Library

namespace AdmittedApplication

/-- An active node of the plan. -/
def IsNode (A : AdmittedApplication) (node : ActiveNode) : Prop :=
  ∃ d ∈ A.plan.paths, activeNode A.request.image d = .ok (some node)

/-- The effect at one path has to be in place before the effect at another. -/
def Precedes (A : AdmittedApplication) (before after : PackagePath) : Prop :=
  ∃ node node', A.IsNode node ∧ A.IsNode node' ∧ node.path = before ∧ node'.path = after ∧
    node.MustPrecede node'

variable {A : AdmittedApplication} {R : Mechanisms → Prop} {s : EngineState} {p q : PackagePath}

/-! ## The schedule -/

theorem Precedes.ne (h : A.Precedes p q) : p ≠ q := by
  obtain ⟨node, node', -, -, rfl, rfl, hprecede⟩ := h
  exact hprecede.path_ne

/-- The active paths are the paths of an ordering of the active nodes. -/
theorem activePaths_ordered (A : AdmittedApplication) :
    ∃ nodes ordered, collect (activeNode A.request.image) A.plan.paths = .ok nodes ∧
      orderActiveNodes nodes A.request.image = .ok ordered ∧
        A.activePaths = ordered.map ActiveNode.path := by
  obtain ⟨staged, nodes, ordered, hnodes, hordered, hparts⟩ := A.closure.parts_ordered
  refine ⟨nodes, ordered, hnodes, hordered, ?_⟩
  have hsteps : A.steps .publishActiveObject =
      ordered.map fun node => ⟨.publishActiveObject, node.path, node.incoming⟩ :=
    hparts.steps_active
  rw [activePaths, hsteps, List.map_map]
  rfl

/-- The schedule takes no effect before one it depends on. -/
theorem activePaths_respects (A : AdmittedApplication) :
    A.activePaths.Pairwise fun p q => ¬A.Precedes q p := by
  obtain ⟨nodes, ordered, hnodes, hordered, hpaths⟩ := A.activePaths_ordered
  have hdistinct := activeNodes_distinct hnodes
  obtain ⟨hperm, hrespects, -⟩ :=
    (orderActiveNodes_least hdistinct (activeNodes_bound hnodes)).1 ordered hordered
  rw [hpaths, List.pairwise_map]
  refine List.Pairwise.imp_of_mem ?_ hrespects
  rintro a b ha hb hnot ⟨node, node', hnode, hnode', hpath, hpath', hprecede⟩
  have hmem : ∀ x, A.IsNode x → x ∈ nodes :=
    fun x ⟨d, hd, hok⟩ => (mem_collect hnodes x).mpr ⟨d, hd, hok⟩
  have heq : ∀ x y, A.IsNode x → y ∈ ordered → x.path = y.path → x = y := fun x y hx hy hxy =>
    List.inj_on_of_nodup_map hdistinct (hmem x hx) (hperm.mem_iff.mp hy) hxy
  rw [heq node b hnode hb hpath, heq node' a hnode' ha hpath'] at hprecede
  exact hnot hprecede

theorem IsNode.mem_activePaths {node : ActiveNode} (h : A.IsNode node) :
    node.path ∈ A.activePaths := by
  obtain ⟨d, hd, hok⟩ := h
  obtain ⟨hpath, -, -, hrequired, -⟩ := activeNode_eq_some hok
  exact List.mem_map.mpr ⟨_, (mem_steps_active _).mpr ⟨d, hd, hrequired, rfl⟩, hpath.symm⟩

/-- What an effect depends on is scheduled ahead of it. -/
theorem Precedes.split (h : A.Precedes p q) :
    ∃ pre post, A.activePaths = pre ++ q :: post ∧ p ∈ pre := by
  obtain ⟨node, node', hnode, hnode', rfl, rfl, -⟩ := id h
  obtain ⟨pre, post, hsplit⟩ := List.append_of_mem hnode'.mem_activePaths
  refine ⟨pre, post, hsplit, ?_⟩
  have hmem := hnode.mem_activePaths
  have hrespects := A.activePaths_respects
  rw [hsplit] at hmem hrespects
  rcases List.mem_append.mp hmem with hpre | hrest
  · exact hpre
  rcases List.mem_cons.mp hrest with heq | hpost
  · exact absurd heq h.ne
  · exact absurd h ((List.pairwise_cons.mp (List.pairwise_append.mp hrespects).2.1).1 _ hpost)

/-! ## Journals -/

/-- What is touched depends on nothing that is not completed. -/
theorem Built.done_of_precedes {h : JournalHistory} (hb : A.Built h) (hpq : A.Precedes p q)
    (htouched : h.Touched .publishActiveObject (some q)) :
    h.Done .publishActiveObject (some p) := by
  obtain ⟨pre, post, hsplit, hp⟩ := hpq.split
  have hactive := hb.ordered.active
  rw [hsplit] at hactive
  exact (List.pairwise_append.mp hactive).2.2 p hp q List.mem_cons_self htouched

/-- What is being recovered has nothing left in place that depends on it. -/
theorem Built.recovered_of_precedes {h : JournalHistory} (hb : A.Built h) (hpq : A.Precedes p q)
    (hdisturbed : (h.slot .publishActiveObject (some q)).disturbed = true)
    (htouched : h.Touched .recoverActiveObject (some p)) :
    h.Done .recoverActiveObject (some q) := by
  obtain ⟨pre, post, hsplit, hp⟩ := hpq.split
  have hundone := (mem_undone.mp (hb.ordered.undone p htouched)).2
  have hrecovery := hb.ordered.recovery
  unfold InTurn undone at hrecovery
  rw [List.pairwise_reverse, hsplit, List.filter_append, List.pairwise_append] at hrecovery
  exact hrecovery.2.2 p (List.mem_filter.mpr ⟨hp, hundone⟩) q
    (List.mem_filter.mpr ⟨List.mem_cons_self, hdisturbed⟩) htouched

end AdmittedApplication

/-! ## Logs -/

section Logged

variable {A : AdmittedApplication} {last : Option EngineCall} {s : EngineState} {kind : EffectKind}
  {path : PackagePath} {pre rest : List EngineCall} {call call' : EngineCall}

/-- What a log intends, its journal has touched. -/
theorem Logged.touched_of_intends (h : Logged A last s) (hcall : call ∈ s.log)
    (hintends : intendsCall kind path call = true) : s.history.Touched kind (some path) := by
  unfold intendsCall at hintends
  rw [Option.any_eq_true] at hintends
  obtain ⟨t, ht, hintends⟩ := hintends
  have hmem : t ∈ s.history.steps.map JournalStep.transition := by
    rw [h.agrees]
    exact List.mem_filterMap.mpr ⟨call, hcall, ht⟩
  obtain ⟨step, hstep, rfl⟩ := List.mem_map.mp hmem
  obtain ⟨e, he, hintent, hkind, hpath⟩ := Transition.intends_iff.mp hintends
  obtain ⟨x, hx, rfl⟩ := Option.map_eq_some_iff.mp he
  exact (h.appended.touched_iff h.declares.keyed).mpr ⟨step, hstep, x, hx, hkind, hpath, hintent⟩

/-- No other call of a log executes the same effect. -/
theorem Logged.executes_once (h : Logged A last s) (hlog : s.log = pre ++ call :: rest)
    (hexecutes : executesCall kind path call = true) :
    ∀ c ∈ pre ++ rest, executesCall kind path c = false := by
  have hle : s.log.countP (executesCall kind path) ≤ 1 := h.executes_le
  rw [hlog, List.countP_append, List.countP_cons, if_pos hexecutes] at hle
  have hzero : (pre ++ rest).countP (executesCall kind path) = 0 := by
    rw [List.countP_append]
    omega
  intro c hc
  simpa using List.countP_eq_zero.mp hzero c hc

/-- Two calls of a log that execute the same effect are one. -/
theorem Logged.executes_unique (h : Logged A last s) (hcall : call ∈ s.log) (hcall' : call' ∈ s.log)
    (hexecutes : executesCall kind path call = true)
    (hexecutes' : executesCall kind path call' = true) : call = call' := by
  obtain ⟨pre, rest, hlog⟩ := List.append_of_mem hcall
  have honce := h.executes_once hlog hexecutes
  rw [hlog, List.mem_append, List.mem_cons] at hcall'
  rcases hcall' with hpre | rfl | hrest
  · rw [honce call' (List.mem_append_left _ hpre)] at hexecutes'
    cases hexecutes'
  · rfl
  · rw [honce call' (List.mem_append_right _ hrest)] at hexecutes'
    cases hexecutes'

/-- An active effect that was reported completed or indeterminate, or whose
report is lost, is among what has to be undone. -/
theorem Logged.disturbed (h : Logged A last s) {command : BackendActiveEffectRequest}
    {result : BackendOperationResult}
    (hcall : (⟨.mechanism (.executeActive command), result⟩ : EngineCall) ∈ s.log)
    (houtcome : result.outcome = .completed ∨ result.outcome = .indeterminate) :
    (s.history.slot .publishActiveObject (some command.path)).disturbed = true := by
  have hexecutes : executesCall .publishActiveObject command.path
      (⟨.mechanism (.executeActive command), result⟩ : EngineCall) = true := by
    simp [executesCall, MechanismRequest.effect]
  obtain ⟨pre, rest, hlog⟩ := List.append_of_mem hcall
  obtain ⟨pre', c, hpre, hintends⟩ := h.disciplined.intent_before hlog hexecutes
  have hmem : c ∈ s.log := by simp [hlog, hpre]
  have htouched := h.touched_of_intends hmem hintends
  unfold Slot.disturbed
  rw [show (s.history.slot .publishActiveObject (some command.path)).intended = true from htouched,
    Bool.true_and]
  cases hended : (s.history.slot .publishActiveObject (some command.path)).ended with
  | none => rfl
  | some ended =>
    obtain ⟨step, hstep, e, he, hterminal, hkind, hpath, rfl⟩ :=
      (h.appended.slot_ended_iff h.declares.keyed).mp hended
    obtain ⟨last', hmem, hretains⟩ := h.retains hstep he hterminal
    simp only [Retains, hkind] at hretains
    obtain ⟨command', result', rfl, hpath', -, -, hfact⟩ := hretains
    have hsame : command'.path = command.path := Option.some.inj (hpath'.symm.trans hpath)
    have hexecutes' : executesCall .publishActiveObject command.path
        (⟨.mechanism (.executeActive command'), result'⟩ : EngineCall) = true := by
      simp [executesCall, MechanismRequest.effect, hsame]
    cases h.executes_unique hcall (hmem _ rfl) hexecutes hexecutes'
    simp only [hfact]
    rcases houtcome with houtcome | houtcome <;> simp [houtcome]

/-- Where a run executes an effect, its journal has touched it. -/
theorem AdmittedApplication.Left.touched_before {R : Mechanisms → Prop} (hs : A.Left R s)
    (hlog : s.log = pre ++ call :: rest) (hexecutes : executesCall kind path call = true) :
    ∃ s₀, A.Left R s₀ ∧ s₀.log = pre ∧ s₀.history.Touched kind (some path) := by
  obtain ⟨s₀, -, -, hs₀, -, -, hpre, -⟩ := hs.before hlog
  obtain ⟨pre', c, rfl, hintends⟩ := hs.logged.disciplined.intent_before hlog hexecutes
  exact ⟨s₀, hs₀, hpre, hs₀.logged.touched_of_intends (by simp [hpre]) hintends⟩

end Logged

/-! ## Runs against a store -/

section Runs

variable {A : AdmittedApplication} {w : World} {pre rest : List OutsideCall}
  {request : MechanismRequest} {response : request.Response} {kind : EffectKind}
  {path : PackagePath}

/-- Where a run calls the backend for an effect, the calls before it are those
of a leftover that has touched the effect, and its journal is accepted. -/
theorem Run.touched_before (hw : Run A w)
    (htrace : w.trace = pre ++ ⟨.mechanism request, response⟩ :: rest)
    (heffect : request.effect = some (kind, path)) :
    ∃ s, A.Left (fun _ => True) s ∧ s.history.Touched kind (some path) ∧
      (∀ c, outsideAnswer c ≠ none → c ∈ pre →
        ∃ c' ∈ s.log, engineAnswer c' = outsideAnswer c) ∧
      ∀ t ∈ journaled s.log, ∃ step : JournalStep, step.transition = t ∧ Accepted pre step := by
  rcases hw.refines with ⟨-, hcalls⟩ | ⟨s, hleft, pending, j, -, -, htraced, -, -⟩
  · have hcall : (⟨.mechanism request, response⟩ : OutsideCall) ∈ w.trace := by simp [htrace]
    cases hcalls _ hcall
  obtain ⟨pre', rest', hlog, haccepted⟩ := htraced.accounted _ _ _ _ htrace
  have hexecutes : executesCall kind path (⟨.mechanism request, response⟩ : EngineCall) = true := by
    simp [executesCall, heffect]
  obtain ⟨s₀, hs₀, hpre, htouched⟩ := hleft.touched_before hlog hexecutes
  subst hpre
  refine ⟨s₀, hs₀, htouched, fun c hanswer hc => ?_, haccepted⟩
  -- the answers up to the one call for the effect are the same
  have honce : ∀ l : List EngineCall, (∀ c ∈ l, executesCall kind path c = false) →
      (⟨request, response⟩ : (request : MechanismRequest) × request.Response) ∉
        l.filterMap engineAnswer := by
    intro l hl hmem
    obtain ⟨⟨op, r⟩, hc, heq⟩ := List.mem_filterMap.mp hmem
    cases op with
    | journal t => cases heq
    | mechanism request' =>
      cases heq
      rw [hl _ hc] at hexecutes
      cases hexecutes
  have hnot := hleft.logged.executes_once hlog hexecutes
  have hanswers := htraced.answers
  rw [htrace, hlog, List.filterMap_append, List.filterMap_append, List.filterMap_cons,
    List.filterMap_cons] at hanswers
  obtain ⟨hpre, -⟩ := (List.append_cons_inj_of_notMem
    (honce _ fun c hc => hnot c (List.mem_append_left _ hc))
    (honce _ fun c hc => hnot c (List.mem_append_right _ hc))).mp hanswers.symm
  obtain ⟨answer, hsome⟩ := Option.ne_none_iff_exists'.mp hanswer
  have hmem : answer ∈ s₀.log.filterMap engineAnswer := by
    rw [hpre]
    exact List.mem_filterMap.mpr ⟨c, hc, hsome⟩
  obtain ⟨c', hc', hsame⟩ := List.mem_filterMap.mp hmem
  exact ⟨c', hc', hsame.trans hsome.symm⟩

/-- Whatever is crashed and restarted: when the backend is called to execute an
active effect, the store has accepted the completion of every effect it depends
on; and when it is called to undo one, the store has accepted the restoration of
every effect depending on it that was reported completed or indeterminate. -/
theorem Run.dependencies_in_order (hw : Run A w)
    (htrace : w.trace = pre ++ ⟨.mechanism request, response⟩ :: rest) :
    (∀ command, request = .executeActive command → ∀ p, A.Precedes p command.path →
      AcceptsCompletion pre .publishActiveObject (some p)) ∧
    ∀ p, request = .recover p → ∀ command, A.Precedes p command.path →
      ∀ result : BackendOperationResult,
        (⟨.mechanism (.executeActive command), result⟩ : OutsideCall) ∈ pre →
        result.outcome = .completed ∨ result.outcome = .indeterminate →
          AcceptsCompletion pre .recoverActiveObject (some command.path) := by
  constructor
  · rintro command rfl p hprecedes
    obtain ⟨s, hs, htouched, -, haccepted⟩ := hw.touched_before htrace rfl
    exact (hs.built.done_of_precedes hprecedes htouched).acceptsCompletion hs.logged haccepted
  · rintro p rfl command hprecedes result hcall houtcome
    obtain ⟨s, hs, htouched, hanswered, haccepted⟩ := hw.touched_before htrace rfl
    obtain ⟨⟨op, r⟩, hc, hsame⟩ := hanswered _ (by simp [outsideAnswer]) hcall
    cases op with
    | journal t => cases hsame
    | mechanism request' =>
      cases hsame
      have hdisturbed := hs.logged.disturbed hc houtcome
      exact (hs.built.recovered_of_precedes hprecedes hdisturbed htouched).acceptsCompletion
        hs.logged haccepted

end Runs

section Requests

variable {request : MechanismRequest} {path : PackagePath}

theorem executeActive_of_effect (h : request.effect = some (.publishActiveObject, path)) :
    ∃ command, request = .executeActive command ∧ command.path = path := by
  cases request <;> simp [MechanismRequest.effect] at h
  exact ⟨_, rfl, h⟩

theorem recover_of_effect (h : request.effect = some (.recoverActiveObject, path)) :
    request = .recover path := by
  cases request <;> simp [MechanismRequest.effect] at h
  rw [h]

end Requests

/-! ## Two nested directories -/

section Nested

/-- The outer directory, `d`, or the inner one, `d/e`. -/
private def nestedPath (inner : Bool) : PackagePath :=
  ⟨if inner then [0x64, 0x2f, 0x65] else [0x64]⟩

private theorem nested_incoming :
    PathRole.installedOwnedPath = .incomingEntry ↔ (none : Option EntryId).isSome := by
  decide

private theorem nested_activates : PlannedActiveOutcome.removeDirectoryIfEmpty =
    .activateIncoming → (none : Option EntryId).isSome := by
  decide

private theorem nested_removes : PlannedActiveOutcome.removeDirectoryIfEmpty = .removeObserved ∨
    PlannedActiveOutcome.removeDirectoryIfEmpty = .removeDirectoryIfEmpty →
      (none : Option EntryId) = none :=
  fun _ => rfl

private def nestedDecision (inner : Bool) : PathDecision where
  path := nestedPath inner
  role := .installedOwnedPath
  active := .removeDirectoryIfEmpty
  rejected := .none
  incomingEntry := none
  ownership := ⟨[⟨1⟩], [], false⟩
  rejectedObject := none
  incoming_role := nested_incoming
  activates_incoming := nested_activates
  removes_existing := nested_removes
  rejects := fun h => absurd rfl h

private def nestedPlan : OperationPlan where
  kind := .remove
  identity := ⟨2⟩
  paths := [nestedDecision false, nestedDecision true]
  preconditions := [false, true].map fun inner =>
    ⟨nestedPath inner, some ⟨.directory, 0o755, 0, 0, none, none, none, none, none⟩⟩
  paths_sorted := by decide
  preconditions_sorted := by decide
  preconditions_cover := by decide
  removal_roles := fun _ => by decide

private def nestedObject (inner : Bool) : CompletedObjectFact :=
  { AdmittedApplication.removalObject with path := nestedPath inner }

private def nestedObservations : BackendObservationBatch :=
  ⟨[nestedPath false, nestedPath true],
    [.present (nestedObject false), .present (nestedObject true)], {⟨3⟩}, by decide, rfl⟩

private def nestedRequest : ApplicationRequest where
  identity := ⟨4⟩
  plan := nestedPlan
  control := ⟨⟨5⟩, .bestEffort, .visibilityOnly, .recoverAfterTargetMutation,
    CancellationPolicy.recovers_exact .bestEffort⟩
  target := ⟨6⟩
  mutationBackend := ⟨7⟩
  image := none
  image_iff := by decide
  entries_resolve := by rintro _ ⟨⟩

private def nestedRemoval : AdmittedApplication where
  request := nestedRequest
  nonce := 8
  observations := nestedObservations
  inputs :=
    { payloads := none
      captures := [⟨nestedPath false, false, true⟩, ⟨nestedPath true, false, true⟩]
      schedule := [⟨.captureOldObject, nestedPath false, none⟩,
        ⟨.captureOldObject, nestedPath true, none⟩, ⟨.publishActiveObject, nestedPath true, none⟩,
        ⟨.publishActiveObject, nestedPath false, none⟩, ⟨.observeResult, nestedPath false, none⟩,
        ⟨.observeResult, nestedPath true, none⟩] }
  projection := ⟨⟨9⟩, ⟨10⟩, ⟨11⟩, .complete,
    [⟨nestedPath false, {⟨1⟩}⟩, ⟨nestedPath true, {⟨1⟩}⟩], ⟨12⟩, by decide⟩
  check := ⟨nestedObservations, []⟩
  prepared := by rfl
  checked := rfl
  satisfied := rfl

/-- The inner directory goes; whether the outer one does is never known. -/
private def nestedMechanisms : Mechanisms
  | .captureOld request =>
    let object := nestedObject (request.path == nestedPath true)
    ⟨.completed, .present object, true, ∅, fun _ => rfl, fun _ => rfl⟩
  | .executeActive command =>
    (⟨if command.path = nestedPath true then .completed else .indeterminate, ∅⟩ :
      BackendOperationResult)
  | request => AdmittedApplication.removalMechanisms .completed .completed .confirmed request

private def nestedWorld : World :=
  ((applyProcess nestedRemoval).eval (worldMachine ⟨nestedMechanisms, fun _ _ => none⟩)
    ⟨fun _ => none, []⟩).2

private theorem nestedWorld_run : Run nestedRemoval nestedWorld := .applied rfl (.inr rfl)

/-- What is in the outer directory has to go first. -/
private theorem nested_precedes : nestedRemoval.Precedes (nestedPath true) (nestedPath false) := by
  let node inner : ActiveNode := ⟨nestedPath inner, .removeDirectoryIfEmpty, none, none⟩
  refine ⟨node true, node false, ⟨nestedDecision true, by decide, rfl⟩,
    ⟨nestedDecision false, by decide, rfl⟩, rfl, rfl, .inr (.inl ⟨by decide, ?_⟩)⟩
  rintro ⟨hactive, -⟩
  cases hactive

/-- The trace up to the call for one effect. -/
private def nestedBefore (kind : EffectKind) (inner : Bool) : List OutsideCall :=
  nestedWorld.trace.takeWhile fun c => !outsideExecutes kind (nestedPath inner) c

private theorem takeWhile_split {kind : EffectKind} {path : PackagePath} {l : List OutsideCall}
    (h : l.any (outsideExecutes kind path) = true) :
    ∃ (request : MechanismRequest) (response : request.Response) (rest : List OutsideCall),
      l = l.takeWhile (fun c => !outsideExecutes kind path c) ++
        ⟨.mechanism request, response⟩ :: rest ∧ request.effect = some (kind, path) := by
  induction l with
  | nil => cases h
  | cons c rest ih =>
    by_cases hc : outsideExecutes kind path c = true
    · obtain ⟨op, response⟩ := c
      cases op with
      | store op => cases hc
      | mechanism request =>
        exact ⟨request, response, rest, by simp [hc], by simpa [outsideExecutes] using hc⟩
    · obtain ⟨request, response, rest', hrest, heffect⟩ := ih (by simpa [hc] using h)
      refine ⟨request, response, rest', ?_, heffect⟩
      rw [List.takeWhile_cons_of_pos (by simpa using hc), List.cons_append, ← hrest]

/-- The removal of the outer directory was reported indeterminate. -/
private def doubts : OutsideCall → Bool
  | ⟨.mechanism (.executeActive command), result⟩ =>
    command.path == nestedPath false && (result : BackendOperationResult).outcome == .indeterminate
  | _ => false

private theorem doubts_eq {c : OutsideCall} (h : doubts c = true) :
    ∃ command, ∃ result : BackendOperationResult,
      c = ⟨.mechanism (.executeActive command), result⟩ ∧ command.path = nestedPath false ∧
        result.outcome = .indeterminate := by
  obtain ⟨op, response⟩ := c
  cases op with
  | store op => cases h
  | mechanism request =>
    cases request with
    | executeActive command =>
      obtain ⟨hpath, houtcome⟩ := Bool.and_eq_true_iff.mp h
      exact ⟨command, response, rfl, eq_of_beq hpath, eq_of_beq houtcome⟩
    | _ => cases h

theorem dependencies_in_order_nested :
    AcceptsCompletion (nestedBefore .publishActiveObject false) .publishActiveObject
        (some (nestedPath true)) ∧
      AcceptsCompletion (nestedBefore .recoverActiveObject true) .recoverActiveObject
        (some (nestedPath false)) := by
  constructor
  · have hany : nestedWorld.trace.any (outsideExecutes .publishActiveObject (nestedPath false)) =
        true := by decide +kernel
    obtain ⟨request, response, rest, htrace, heffect⟩ := takeWhile_split hany
    obtain ⟨command, rfl, hpath⟩ := executeActive_of_effect heffect
    exact (nestedWorld_run.dependencies_in_order htrace).1 command rfl _ (hpath ▸ nested_precedes)
  · have hany : nestedWorld.trace.any (outsideExecutes .recoverActiveObject (nestedPath true)) =
        true := by decide +kernel
    have hdoubts : (nestedBefore .recoverActiveObject true).any doubts = true := by decide +kernel
    obtain ⟨request, response, rest, htrace, heffect⟩ := takeWhile_split hany
    obtain ⟨c, hc, hdoubts⟩ := List.any_eq_true.mp hdoubts
    obtain ⟨command, result, rfl, hpath, houtcome⟩ := doubts_eq hdoubts
    rw [← hpath]
    exact (nestedWorld_run.dependencies_in_order htrace).2 _ (recover_of_effect heffect) command
      (hpath ▸ nested_precedes) result hc (.inr houtcome)

end Nested

end PkgApply
