import PkgApply.Engine.Active

/-!
# Completion

Observing the result of a complete active execution, matching it against the
plan, publishing completed evidence and sealing the receipt.
-/

namespace PkgApply

open Engine

/-! ## Matching one path -/

def completedKind : EntryType → CompletedObjectKind
  | .regular | .hardlink => .regular
  | .directory => .directory
  | .symlink => .symlink
  | .fifo => .fifo
  | .characterDevice => .characterDevice
  | .blockDevice => .blockDevice

/-- A fact against an attribute the image entry must have. -/
def matchEntryAttribute {α : Type} [DecidableEq α] (missing : String)
    (found : ResultObservationMatch) (observed : QualifiedFact α) :
    Option α → Except Exn ResultObservationMatch
  | none => .error (.logicError missing)
  | some expected => .ok (found.merge (matchExpectedFact observed expected))

/-- The attributes of an incoming object that its entry type adds. -/
def matchEntryType (entry : PackageEntry) (object : CompletedObjectFact)
    (found : ResultObservationMatch) : Except Exn ResultObservationMatch :=
  match entry.type with
  | .regular =>
    matchEntryAttribute "regular image entry lacks content identity"
      (found.merge (matchExpectedFact object.size entry.size)) object.regularContent
      entry.regularContent
  | .directory | .fifo => .ok found
  | .symlink =>
    matchEntryAttribute "symlink image entry lacks target" found object.symlinkTarget
      entry.symlinkTarget
  | .hardlink =>
    -- an inapplicable anchor discards what was found so far
    match entry.hardlinkTarget, object.hardlink with
    | none, _ => .error (.logicError "hard-link image entry lacks anchor")
    | some _, .unknown => .ok (found.merge .indeterminate)
    | some _, .notApplicable => .ok .mismatch
    | some anchor, .known observed =>
      .ok (found.merge (if observed = anchor then .matched else .mismatch))
  | .characterDevice | .blockDevice =>
    matchEntryAttribute "device image entry lacks device number" found object.device entry.device

/-- An activated path must show its image entry. -/
def matchIncomingEntry (observed : PathObservation) (entry : PackageEntry) :
    Except Exn ResultObservationMatch :=
  match observed with
  | .unknown _ => .ok .indeterminate
  | .absent _ => .ok .mismatch
  | .present object =>
    if object.provenance ≠ .applicationObservation then
      .error provenanceError
    else if object.path ≠ entry.path ∨ object.kind ≠ completedKind entry.type then
      .ok .mismatch
    else
      matchEntryType entry object <|
        (ResultObservationMatch.matched.merge (matchExpectedFact object.mode entry.mode))
          |>.merge (matchExpectedFact object.uid entry.uid)
          |>.merge (matchExpectedFact object.gid entry.gid)
          |>.merge (matchExpectedFact object.mtime entry.mtime)

/-- The active effect at one path, if there was one. -/
def findActiveEffect (effects : List ActiveEffectResult) (path : PackagePath) :
    Option ActiveEffectResult :=
  effects.find? fun e => e.request.path == path

/-- The rejected effect at one path, if there was one. -/
def findRejectedEffect (effects : List RejectedEffectResult) (path : PackagePath) :
    Option RejectedEffectResult :=
  effects.find? fun e => e.request.path == path

def matchAbsent (after : PathObservation) : ResultObservationMatch :=
  if after.state = .notApplicable then .matched else .mismatch

/-- The image entry an activation decision names. -/
def activatedEntry (image : Option PackageImage) (d : PathDecision) :
    Except Exn PackageEntry :=
  match image, d.incomingEntry with
  | some image, some id =>
    match image.entry id with
    | some entry => .ok entry
    | none => .error (.logicError "incoming result observation cites an absent image entry")
  | _, _ => .error (.logicError "incoming result observation lacks image authority")

/-- Match the final observation of one decision. -/
def matchResultObservation (effects : List ActiveEffectResult) (d : PathDecision)
    (before after : PathObservation) (image : Option PackageImage) :
    Except Exn ResultObservationMatch :=
  if after.state = .unknown then
    .ok .indeterminate
  else
    match d.active with
    | .activateIncoming => do matchIncomingEntry after (← activatedEntry image d)
    | .retainObserved => matchRetainedObservation before after
    | .removeObserved | .remainAbsent => .ok (matchAbsent after)
    | .removeDirectoryIfEmpty =>
      match findActiveEffect effects d.path with
      | none => .error (.logicError "conditional cleanup result lacks its active effect")
      | some effect =>
        if effect.result.outcome = .conditionalRetained then
          matchRetainedObservation before after
        else
          .ok (matchAbsent after)

/-! ## Consequences -/

/-- The status an active outcome leaves at its path. -/
def activeEffectStatus : BackendOperationOutcome → EffectStatus
  | .completed => .completed
  | .conditionalRetained => .conditionalRetained
  | .failed => .failed
  | .indeterminate => .indeterminate

/-- The rejected status at one path, and its record. -/
def rejectedStatusAt (effects : List RejectedEffectResult) (path : PackagePath) :
    Except Exn (EffectStatus × Option RejectedObjectRecordIdentity) :=
  match findRejectedEffect effects path with
  | none => .ok (.notAttempted, none)
  | some effect => do
    return (← rejectedEffectStatus effect.result.outcome, effect.result.record)

def completedPathConsequence (active : ActiveMutatedApplication) (d : PathDecision)
    (before after : PathObservation) (publication : OwnershipPublicationStatus) :
    Except Exn PathConsequence := do
  let activeStatus :=
    match findActiveEffect active.effects d.path with
    | none => EffectStatus.completed
    | some effect => activeEffectStatus effect.result.outcome
  let (status, record) ← rejectedStatusAt active.rejected.effects d.path
  PathConsequence.make ⟨d.path, d.role, d.active, d.rejected, d.incomingEntry, d.ownership,
    activeStatus, status, before, after, record, publication⟩

/-- The same consequences, none eligible for ownership publication. -/
def ineligiblePaths : List PathConsequence → Except Exn (List PathConsequence)
  | [] => return []
  | c :: rest => do
    let c ← PathConsequence.make { c with publication := .ineligible }
    let cs ← ineligiblePaths rest
    return c :: cs

/-! ## Receipts -/

def withCompletedEvidenceDurability (p : DurabilityProfile) (status : DurabilityStatus) :
    DurabilityProfile :=
  { p with completedEvidence := status }

/-- Outcome, recovery, evidence durability and journal state of a completion
that fails after its effects are visible. -/
structure CompletionFailure where
  outcome : AttemptOutcome
  recovery : RecoveryState
  durability : DurabilityStatus
  state : JournalState
deriving DecidableEq

/-- How a completion failure is classified. -/
def completionFailure (uncertain : Bool) : CompletionFailure :=
  if uncertain then
    ⟨.indeterminate, .requiresAuthoritativeObservation, .indeterminate, .indeterminate⟩
  else
    ⟨.effectsVisibleDurabilityUnconfirmed, .recoveryAssetsRetained, .unconfirmed,
      .effectsVisible⟩

def completionFailureReceipt (active : ActiveMutatedApplication) (request : ApplicationRequest)
    (state : LeaseBoundStateProjection) (header : JournalHeader) (failure : CompletionFailure)
    (paths : List PathConsequence) (evidence : Evidence) : Except Exn ApplicationReceipt := do
  let paths ← ineligiblePaths paths
  ApplicationReceipt.failed request active.rejected.prepared.journaled.attempt state
    failure.outcome failure.recovery
    (withCompletedEvidenceDurability active.durability failure.durability) paths (some header)
    evidence

/-- Seal a receipt: intent in the current state, then the sealing itself. -/
def sealTerminalReceipt (state : JournalState) (receipt : ApplicationReceipt)
    (evidence : Option CompletedEvidence := none) : Engine Unit := do
  let h ← history
  let effect ← findEffect h.effects .sealReceipt none
  publishEvent h.state effect .intent
  publishEvent state effect .completed ∅ none (some receipt) evidence

/-- Seal a completion that failed after its effects are visible. -/
def sealCompletionFailure (active : ActiveMutatedApplication) (request : ApplicationRequest)
    (state : LeaseBoundStateProjection) (uncertain : Bool) (paths : List PathConsequence)
    (evidence : Evidence) : Engine ApplicationReceipt := do
  let h ← history
  let failure := completionFailure uncertain
  let receipt ← completionFailureReceipt active request state h.header failure paths evidence
  sealTerminalReceipt failure.state receipt
  return receipt

/-- Recovery state of a completed receipt. -/
def completedRecovery (captures : List OldObjectCaptureResult) : RecoveryState :=
  if captures.isEmpty then .unchanged else .recoveryAssetsRetained

/-- Seal a completed application. -/
def sealCompleted (active : ActiveMutatedApplication) (completed : CompletedEvidence)
    (evidence : Evidence) : Engine ApplicationReceipt := do
  let receipt ← ApplicationReceipt.completed completed
    (completedRecovery active.rejected.prepared.captures) evidence
  sealTerminalReceipt .applicationCompleted receipt (some completed)
  return receipt

/-! ## The phase -/

/-- An image accompanies exactly a payload closure of that image. -/
def validateCompletionImage (app : JournaledApplication) (image : Option PackageImage) :
    Except Exn Unit :=
  match image with
  | some image =>
    refuseIf (!app.payloads.any fun p => p.image == image.identity)
      (.invalidArgument "application completion image differs from prepared payloads")
  | none =>
    refuseIf app.payloads.isSome
      (.invalidArgument "archive-free completion retained incoming payload authority")

def observeIntents : List PathDecision → Engine Unit
  | [] => return ()
  | d :: rest => do
    let h ← history
    let effect ← findEffect h.effects .observeResult (some d.path)
    publishEvent .effectsVisible effect .intent
    observeIntents rest

/-- The terminal event of a match. -/
def matchEvent : ResultObservationMatch → EventKind
  | .matched => .completed
  | .mismatch => .failed
  | .indeterminate => .indeterminate

/-- Before and after of one path. -/
def observedAt (app : JournaledApplication) (observations : BackendObservationBatch)
    (path : PackagePath) : Except Exn (PathObservation × PathObservation) :=
  match app.observations.find path, observations.find path with
  | some before, some after => .ok (before, after)
  | _, _ => .error (.logicError "result observation lacks admitted path closure")

/-- What the final observation has shown so far. -/
structure ObservedResult where
  paths : List PathConsequence
  mismatch : Bool
  indeterminate : Bool
deriving DecidableEq

namespace ObservedResult

def empty : ObservedResult := ⟨[], false, false⟩

/-- Whether every path matched. -/
def allMatched (r : ObservedResult) : Bool := !(r.mismatch || r.indeterminate)

end ObservedResult

/-- Count one match, with its consequence when the path matched. -/
def ObservedResult.add (r : ObservedResult) (active : ActiveMutatedApplication)
    (d : PathDecision) (before after : PathObservation) (found : ResultObservationMatch) :
    Except Exn ObservedResult := do
  let r := { r with
    mismatch := r.mismatch || found == .mismatch
    indeterminate := r.indeterminate || found == .indeterminate }
  if found = .matched then
    let c ← completedPathConsequence active d before after .eligible
    return { r with paths := r.paths ++ [c] }
  else
    return r

/-- Match every path and journal the verdict. -/
def observeTerminals (active : ActiveMutatedApplication) (image : Option PackageImage)
    (observations : BackendObservationBatch) :
    List PathDecision → ObservedResult → Engine ObservedResult
  | [], r => return r
  | d :: rest, r => do
    let (before, after) ← observedAt active.rejected.prepared.journaled observations d.path
    let found ← matchResultObservation active.effects d before after image
    let h ← history
    let effect ← findEffect h.effects .observeResult (some d.path)
    publishEvent .effectsVisible effect (matchEvent found) observations.evidence
    let r ← r.add active d before after found
    observeTerminals active image observations rest r

/-- Journal an observation that does not match the plan. -/
def interruptObservation (active : ActiveMutatedApplication) (indeterminate : Bool)
    (evidence : Evidence) : Engine ActiveInterruptedApplication := do
  publishState (if indeterminate then .indeterminate else .recoveryPending)
  let h ← history
  ActiveInterruptedApplication.make h.state
    ⟨active.rejected, active.effects,
      if indeterminate then .resultObservationIndeterminate else .resultObservationMismatch,
      active.durability, evidence⟩

/-- The evidence a completion establishes. -/
def makeCompletedEvidence (active : ActiveMutatedApplication) (request : ApplicationRequest)
    (state : LeaseBoundStateProjection) (header : JournalHeader) (paths : List PathConsequence)
    (evidence : Evidence) : Except Exn CompletedEvidence :=
  CompletedEvidence.make request active.rejected.prepared.journaled.attempt state header paths
    (withCompletedEvidenceDurability active.durability .confirmed) evidence

/-- A completed publication names the record that was to be published. -/
def validatePublication (completed : CompletedEvidence)
    (publication : CompletedEvidencePublicationResult) : Except Exn Unit :=
  refuseIf (publication.outcome = .completed ∧ publication.record ≠ some completed)
    (.logicError "backend published another completed-evidence record")

/-- Publish completed evidence between its intent and its terminal event. -/
def publishCompletedEvidence (completed : CompletedEvidence) :
    Engine CompletedEvidencePublicationResult := do
  let h ← history
  let effect ← findEffect h.effects .publishCompletedEvidence none
  publishEvent .resultObserved effect .intent
  let publication ← mechanism (.publishCompletedEvidence completed)
  validatePublication completed publication
  let terminal ← terminalEvent publication.outcome
  publishEvent .resultObserved effect terminal publication.evidence
    (if publication.outcome = .completed then some (.completedEvidence completed) else none)
  return publication

def synchronizeCompletedEvidence : Engine DurabilityFact :=
  synchronizeDomain .resultObserved .synchronizeCompletedEvidence .completedEvidence
    "backend synchronized another completed-evidence domain"
    "backend reported unattempted completed-evidence durability"

/-- Publish and synchronize completed evidence, then seal. -/
def concludeCompletion (active : ActiveMutatedApplication) (request : ApplicationRequest)
    (state : LeaseBoundStateProjection) (paths : List PathConsequence) (evidence : Evidence) :
    Engine ApplicationReceipt := do
  publishState .resultObserved
  let h ← history
  let completed ← makeCompletedEvidence active request state h.header paths evidence
  let publication ← publishCompletedEvidence completed
  let evidence := evidence ∪ publication.evidence
  if publication.outcome = .completed then
    let fact ← synchronizeCompletedEvidence
    if fact.status = .confirmed then
      sealCompleted active completed evidence
    else
      sealCompletionFailure active request state (fact.status == .indeterminate) paths evidence
  else
    sealCompletionFailure active request state (publication.outcome == .indeterminate) paths
      evidence

/-- The paths whose result is observed. -/
def resultPaths (plan : OperationPlan) : List PackagePath := plan.paths.map PathDecision.path

/-- The completion phase: a sealed receipt or an interruption. -/
def completeApplication (active : ActiveMutatedApplication) (request : ApplicationRequest)
    (state : LeaseBoundStateProjection) :
    Engine (ApplicationReceipt ⊕ ActiveInterruptedApplication) := do
  let h ← history
  let app := active.rejected.prepared.journaled
  validateBinding app request state h [.effectsVisible, .resultObserved]
    "application completion inputs differ from active execution"
  validateCompletionImage app request.image
  observeIntents request.plan.paths
  let observations ← mechanism (.observe .result (resultPaths request.plan))
  let evidence := active.evidence ∪ observations.evidence
  let observed ← observeTerminals active request.image observations request.plan.paths .empty
  if observed.allMatched then
    return .inl (← concludeCompletion active request state observed.paths evidence)
  else
    return .inr (← interruptObservation active observed.indeterminate evidence)

end PkgApply
