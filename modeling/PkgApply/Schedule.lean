import PkgApply.Dependencies

/-!
# Captures, payloads and the effect schedule

What must be captured before mutation, which regular payloads must be staged,
and the deterministic order of every effect of an accepted plan.
-/

namespace PkgApply

/-! ## Old-object captures -/

/-- Why one existing object is captured before mutation. -/
structure OldObjectCaptureRequest where
  path : PackagePath
  forRejectedObject : Bool
  forRecovery : Bool
deriving DecidableEq, Repr

def recoverySelected (control : ExecutionControl) : Bool :=
  match control.recovery with
  | .none => false
  | .bestEffort | .exactPriorState => true

/-- Whether an active effect may destroy the object that was observed. -/
def activeEffectMayDestroyOld (outcome : PlannedActiveOutcome) (before : PathPrecondition) :
    Bool :=
  before.isPresent && activeMechanismRequired outcome

/-- The capture of one decision, if it needs one. -/
def captureRequest (plan : OperationPlan) (control : ExecutionControl) (d : PathDecision) :
    Except Exn (Option OldObjectCaptureRequest) := do
  let some before := plan.precondition d.path
    | throw (.invalidArgument "plan decision lacks its path precondition")
  let forRejected := d.rejected == .stageOld
  let forRecovery := recoverySelected control && activeEffectMayDestroyOld d.active before
  refuseIf (forRejected && !before.isPresent)
    (.invalidArgument "old-object staging requires a present planning observation")
  if forRejected || forRecovery then
    return some ⟨d.path, forRejected, forRecovery⟩
  else
    return none

/-- Captures in path order; decisions are already ordered and distinct. -/
def prepareOldObjectCaptures (plan : OperationPlan) (control : ExecutionControl) :
    Except Exn (List OldObjectCaptureRequest) :=
  collect (captureRequest plan control) plan.paths

/-! ## Incoming payloads -/

/-- One incoming entry some effect consumes. -/
structure IncomingPayloadRequirement where
  path : PackagePath
  imageEntry : EntryId
  regularPayloadEntry : Option EntryId
  requiredForActive : Bool
  requiredForRejected : Bool
deriving DecidableEq, Repr

/-- The payload closure of a plan over one image. -/
structure IncomingPayloadPlan where
  image : PackageImageIdentity
  selection : List EntryId
  requirements : List IncomingPayloadRequirement
deriving DecidableEq, Repr

/-- The regular entry whose bytes an incoming entry needs. -/
def regularPayloadEntry (image : PackageImage) (entry : PackageEntry) :
    Except Exn (Option EntryId) :=
  match entry.type with
  | .regular => .ok (some entry.id)
  | .hardlink =>
    match entry.hardlinkTarget with
    | none => .error (.invalidArgument "incoming hard link lacks its regular payload anchor")
    | some anchor =>
      match image.find anchor with
      | some target =>
        if target.type = .regular then .ok (some target.id)
        else .error (.invalidArgument
          "incoming hard-link payload anchor is not a regular entry")
      | none => .error (.invalidArgument
          "incoming hard-link payload anchor is not a regular entry")
  | .directory | .symlink | .fifo | .characterDevice | .blockDevice => .ok none

/-- The requirement of one decision, if an effect consumes its entry. -/
def payloadRequirement (image : PackageImage) (d : PathDecision) :
    Except Exn (Option IncomingPayloadRequirement) := do
  let active := d.active == .activateIncoming
  let rejected := d.rejected == .stageIncoming
  if !active && !rejected then
    return none
  let some id := d.incomingEntry
    | throw (.invalidArgument "incoming effect lacks an image entry identifier")
  let some entry := image.entry id
    | throw (.invalidArgument "incoming effect cites an absent image entry")
  refuseIf (entry.path ≠ d.path)
    (.invalidArgument "incoming effect entry resolves to another logical path")
  let payload ← regularPayloadEntry image entry
  return some ⟨d.path, entry.id, payload, active, rejected⟩

/-- Entry identifiers in ascending order, each once. -/
def sortUnique (ids : List EntryId) : List EntryId := (ids.insertionSort (· ≤ ·)).dedup

def prepareIncomingPayloads (plan : OperationPlan) (image : PackageImage) :
    Except Exn IncomingPayloadPlan := do
  let requirements ← collect (payloadRequirement image) plan.paths
  return ⟨image.identity,
    sortUnique (requirements.filterMap (·.regularPayloadEntry)), requirements⟩

/-! ## Effect steps -/

inductive EffectStepKind where
  | captureOldObject
  | stageRegularPayload
  | publishRejectedObject
  | publishActiveObject
  | observeResult
deriving DecidableEq, Repr

/-- One scheduled effect.  Its ordinal is its position in the schedule. -/
structure EffectStep where
  kind : EffectStepKind
  path : PackagePath
  incomingEntry : Option EntryId
deriving DecidableEq, Repr

/-! ## The schedule -/

/-- The staging step of one regular entry. -/
def stagingStep (image : PackageImage) (id : EntryId) : Except Exn (Option EffectStep) := do
  let some entry := image.entry id
    | throw (.invalidArgument "payload closure regular entry is absent or non-regular")
  refuseIf (entry.type ≠ .regular)
    (.invalidArgument "payload closure regular entry is absent or non-regular")
  return some ⟨.stageRegularPayload, entry.path, some id⟩

def payloadSteps (image : Option PackageImage) (payloads : Option IncomingPayloadPlan) :
    Except Exn (List EffectStep) :=
  match payloads with
  | none => .ok []
  | some payloads =>
    match image with
    | none => .error (.invalidArgument "payload closure belongs to another package image")
    | some image =>
      if payloads.image ≠ image.identity then
        .error (.invalidArgument "payload closure belongs to another package image")
      else
        collect (stagingStep image)
          (sortUnique (payloads.requirements.filterMap (·.regularPayloadEntry)))

/-- Every effect of an accepted plan, in execution order. -/
def prepareApplicationSchedule (plan : OperationPlan) (image : Option PackageImage)
    (payloads : Option IncomingPayloadPlan) (captures : List OldObjectCaptureRequest) :
    Except Exn (List EffectStep) := do
  let captureSteps := captures.map fun c => ⟨.captureOldObject, c.path, none⟩
  let payloadSteps ← payloadSteps image payloads
  let rejectedSteps := (plan.paths.filter fun d => d.rejected != .none).map fun d =>
    ⟨.publishRejectedObject, d.path, d.incomingEntry⟩
  let nodes ← collect (activeNode image) plan.paths
  let ordered ← orderActiveNodes nodes image
  let activeSteps := ordered.map fun node => ⟨.publishActiveObject, node.path, node.incoming⟩
  let observeSteps := plan.paths.map fun d => ⟨.observeResult, d.path, none⟩
  return captureSteps ++ payloadSteps ++ rejectedSteps ++ activeSteps ++ observeSteps

/-- Scheduled steps of one kind, in order. -/
def stepsOfKind (schedule : List EffectStep) (kind : EffectStepKind) : List EffectStep :=
  schedule.filter fun step => step.kind == kind

/-! ## No cycle -/

section Cycle

variable {plan : OperationPlan} {image : Option PackageImage} {payloads : Option IncomingPayloadPlan}

private theorem payloadSteps_ne_cycle : payloadSteps image payloads ≠ .error dependencyCycle := by
  intro h
  unfold payloadSteps at h
  cases payloads with
  | none => cases h
  | some payloads =>
    cases image with
    | none => simp [dependencyCycle] at h
    | some image =>
      simp only at h
      split at h
      · simp [dependencyCycle] at h
      · obtain ⟨id, -, hid⟩ := collect_error h
        unfold stagingStep at hid
        cases hentry : image.entry id with
        | none => simp [hentry, dependencyCycle, throw, throwThe, MonadExceptOf.throw] at hid
        | some entry =>
          by_cases htype : entry.type = .regular
          · simp [hentry, htype, refuseIf_bind_of_not, pure, Except.pure] at hid
          · simp only [hentry] at hid
            rw [refuseIf_bind_of htype] at hid
            simp [dependencyCycle] at hid

private theorem activeNode_ne_cycle {d : PathDecision} :
    activeNode image d ≠ .error dependencyCycle := by
  intro h
  unfold activeNode at h
  split at h
  · cases h
  split at h
  · cases image with
    | none => simp [dependencyCycle, throw, throwThe, MonadExceptOf.throw] at h
    | some img =>
      cases hbound : incomingEntry img d with
      | error e =>
        simp only [hbound, bind, Except.bind, Except.error.injEq] at h
        subst h
        unfold incomingEntry at hbound
        split at hbound
        · cases hbound
        · split at hbound
          · split at hbound
            · cases hbound
            · simp [dependencyCycle] at hbound
          · simp [dependencyCycle] at hbound
      | ok entry =>
        cases entry with
        | none => simp [hbound, dependencyCycle, bind, Except.bind, throw, throwThe,
            MonadExceptOf.throw] at h
        | some entry => simp [hbound, bind, Except.bind, pure, Except.pure] at h
  · cases h

/-- However removals, replacements and hard links mix, a plan that activates
entries only under directories it activates is never refused for a cycle. -/
theorem prepareApplicationSchedule_acyclic
    (hplan : plan.kind = .remove ∨ plan.ActivatesUnderDirectories image) :
    (∀ nodes, collect (activeNode image) plan.paths = .ok nodes →
      ¬Library.Ordering.Cyclic ActiveNode.MustPrecede {node | node ∈ nodes}) ∧
    ∀ payloads captures,
      prepareApplicationSchedule plan image payloads captures ≠ .error dependencyCycle := by
  have hplan : plan.ActivatesUnderDirectories image :=
    hplan.elim activatesUnderDirectories_of_remove id
  have hacyclic : ∀ nodes, collect (activeNode image) plan.paths = .ok nodes →
      ¬Library.Ordering.Cyclic ActiveNode.MustPrecede {node | node ∈ nodes} :=
    fun nodes hnodes => activeNodes_not_cyclic hplan hnodes
  refine ⟨hacyclic, fun payloads captures h => ?_⟩
  unfold prepareApplicationSchedule at h
  cases hsteps : payloadSteps image payloads with
  | error e =>
    simp only [hsteps, bind, Except.bind, Except.error.injEq] at h
    exact payloadSteps_ne_cycle (hsteps.trans (congrArg _ h))
  | ok steps =>
    cases hnodes : collect (activeNode image) plan.paths with
    | error e =>
      simp only [hsteps, hnodes, bind, Except.bind, Except.error.injEq] at h
      obtain ⟨d, -, hd⟩ := collect_error hnodes
      exact activeNode_ne_cycle (hd.trans (congrArg _ h))
    | ok nodes =>
      obtain ⟨ordered, hordered⟩ := (orderActiveNodes_ok_iff (activeNodes_distinct hnodes)
        (activeNodes_bound hnodes)).mpr (hacyclic nodes hnodes)
      simp [hsteps, hnodes, hordered, bind, Except.bind, pure, Except.pure] at h

end Cycle

/-! ## An upgrade that mixes them -/

section Upgrade

/-- A directory, a file in it, and a hard link to the file. -/
def upgradeEntry (id : EntryId) (path : List (Fin 256)) (type : EntryType)
    (content : type = .regular ∨ type = .directory ∨ type = .hardlink) : PackageEntry where
  id := id
  path := ⟨path⟩
  type := type
  mode := 0o644
  uid := 0
  gid := 0
  mtime := ⟨0, 0⟩
  size := 1
  regularContent := some ⟨1⟩
  symlinkTarget := none
  hardlinkTarget := some ⟨[0x64, 0x2f, 0x66]⟩
  device := none
  has_content := fun _ => rfl
  has_target := by rintro rfl; simp at content
  has_anchor := fun _ => rfl
  has_device := by rcases content with rfl | rfl | rfl <;> nofun

def upgradeImage : PackageImage where
  identity := ⟨2⟩
  entries := [upgradeEntry 0 [0x64] .directory (by decide),
    upgradeEntry 1 [0x64, 0x2f, 0x66] .regular (by decide),
    upgradeEntry 2 [0x64, 0x2f, 0x68] .hardlink (by decide)]
  ids_nodup := by decide
  paths_nodup := by decide
  anchors_regular := by decide

/-- An incoming path: activated, or kept with its entry staged as rejected. -/
def upgradeIncoming (id : EntryId) (path : List (Fin 256)) (activate : Bool) : PathDecision where
  path := ⟨path⟩
  role := .incomingEntry
  active := if activate then .activateIncoming else .retainObserved
  rejected := if activate then .none else .stageIncoming
  incomingEntry := some id
  ownership := ⟨[], [], true⟩
  rejectedObject := some ⟨⟨path⟩, .incoming id⟩
  incoming_role := by simp
  activates_incoming := fun _ => rfl
  removes_existing := by cases activate <;> simp
  rejects := by cases activate <;> simp [RejectedObjectPlan.outcome, RejectedObjectPlan.incomingEntry]

/-- An obsolete path: removed, with the old object staged as rejected. -/
def upgradeObsolete (path : List (Fin 256)) (directory : Bool) : PathDecision where
  path := ⟨path⟩
  role := .obsoleteOldPath
  active := if directory then .removeDirectoryIfEmpty else .removeObserved
  rejected := if directory then .none else .stageOld
  incomingEntry := none
  ownership := ⟨[⟨1⟩], [], false⟩
  rejectedObject := some ⟨⟨path⟩, .oldInstalled⟩
  incoming_role := by simp
  activates_incoming := by cases directory <;> simp
  removes_existing := fun _ => rfl
  rejects := by cases directory <;> simp [RejectedObjectPlan.outcome, RejectedObjectPlan.incomingEntry]

def upgradeMetadata (kind : CompletedObjectKind) : FilesystemObjectMetadata :=
  ⟨kind, 0o644, 0, 0, none, none, none, none, none⟩

/-- Activate `d` and the hard link `d/h`, keep `d/f`, remove `e` and `e/x`. -/
def upgradePlan : OperationPlan where
  kind := .upgrade
  identity := ⟨3⟩
  paths := [upgradeIncoming 0 [0x64] true, upgradeIncoming 1 [0x64, 0x2f, 0x66] false,
    upgradeIncoming 2 [0x64, 0x2f, 0x68] true, upgradeObsolete [0x65] true,
    upgradeObsolete [0x65, 0x2f, 0x78] false]
  preconditions := [⟨⟨[0x64]⟩, none⟩, ⟨⟨[0x64, 0x2f, 0x66]⟩, some (upgradeMetadata .regular)⟩,
    ⟨⟨[0x64, 0x2f, 0x68]⟩, none⟩, ⟨⟨[0x65]⟩, some (upgradeMetadata .directory)⟩,
    ⟨⟨[0x65, 0x2f, 0x78]⟩, some (upgradeMetadata .regular)⟩]
  paths_sorted := by decide
  preconditions_sorted := by decide
  preconditions_cover := by decide
  removal_roles := nofun

theorem upgradePlan_activatesUnderDirectories :
    upgradePlan.ActivatesUnderDirectories (some upgradeImage) := by
  intro d hd hactive above habove hrequired hancestor
  simp only [upgradePlan, List.mem_cons, List.not_mem_nil, or_false] at hd habove
  rcases hd with rfl | rfl | rfl | rfl | rfl <;>
    rcases habove with rfl | rfl | rfl | rfl | rfl <;>
    first
    | exact absurd hactive (by decide)
    | exact absurd hancestor (by decide)
    | exact absurd hrequired (by decide)
    | exact ⟨rfl, upgradeImage, 0, _, rfl, rfl, rfl, rfl⟩

theorem prepareApplicationSchedule_acyclic_upgrade :
    (∀ nodes, collect (activeNode (some upgradeImage)) upgradePlan.paths = .ok nodes →
      ¬Library.Ordering.Cyclic ActiveNode.MustPrecede {node | node ∈ nodes}) ∧
    ∀ payloads captures, prepareApplicationSchedule upgradePlan (some upgradeImage) payloads
      captures ≠ .error dependencyCycle :=
  prepareApplicationSchedule_acyclic (.inr upgradePlan_activatesUnderDirectories)

/-- The directory goes before its hard link, the obsolete file before its
directory, and what is ready first by path. -/
example : (do
    let nodes ← collect (activeNode (some upgradeImage)) upgradePlan.paths
    let ordered ← orderActiveNodes nodes (some upgradeImage)
    return ordered.map fun node : ActiveNode => node.path.bytes) =
    .ok [[0x64], [0x64, 0x2f, 0x68], [0x65, 0x2f, 0x78], [0x65]] := by decide +kernel

end Upgrade

end PkgApply
