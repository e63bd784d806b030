import PkgApply.Vocabulary
import Mathlib.Data.List.Sort
import Mathlib.Data.Prod.Lex

/-!
# Object facts, observations and their comparison

What a backend reports about a path, what a plan recorded about it, and the
two comparisons the library makes: the precondition check before mutation and
the matching of the final observation against the plan.
-/

namespace PkgApply

/-! ## Qualified facts -/

/-- One value with an explicit known, unknown or inapplicable state. -/
inductive QualifiedFact (α : Type) where
  | known (value : α)
  | unknown
  | notApplicable
deriving DecidableEq, Repr

namespace QualifiedFact

variable {α : Type}

/-- Whether the fact is structurally applicable. -/
def isApplicable : QualifiedFact α → Bool
  | notApplicable => false
  | _ => true

end QualifiedFact

/-! ## Objects -/

inductive CompletedObjectKind where
  | regular
  | directory
  | symlink
  | fifo
  | characterDevice
  | blockDevice
  | socket
  | other
deriving DecidableEq, Repr

/-- Whether an object of this kind carries a device number. -/
def CompletedObjectKind.isDevice : CompletedObjectKind → Bool
  | characterDevice | blockDevice => true
  | _ => false

/-- Seconds and nanoseconds established for one object. -/
structure CompletedObjectTimestamp where
  seconds : Int
  nanoseconds : UInt32
deriving DecidableEq, Repr

structure CompletedDeviceNumber where
  major : UInt64
  minor : UInt64
deriving DecidableEq, Repr

/-- Authority that established one object fact. -/
inductive ObjectFactProvenance where
  | incomingImage
  | planningObservation
  | applicationObservation
  | recoveryCapture
  | rejectedCapture
deriving DecidableEq, Repr

inductive ObjectFactCompleteness where
  | complete
  | partialFacts
deriving DecidableEq, Repr

/-- The applicability rules an object fact is constructed under. -/
structure ApplicableFacts (kind : CompletedObjectKind) (size : QualifiedFact UInt64)
    (mtime : QualifiedFact CompletedObjectTimestamp)
    (regularContent : QualifiedFact RegularContentIdentity)
    (symlinkTarget : QualifiedFact (List (Fin 256)))
    (device : QualifiedFact CompletedDeviceNumber)
    (hardlink : QualifiedFact PackagePath) : Prop where
  nanoseconds : ∀ t, mtime = .known t → t.nanoseconds < 1000000000
  size : size.isApplicable = (kind == .regular)
  regularContent : regularContent.isApplicable = (kind == .regular)
  hardlink : hardlink.isApplicable = (kind == .regular)
  symlinkTarget : symlinkTarget.isApplicable = (kind == .symlink)
  device : device.isApplicable = kind.isDevice

theorem applicable_directory : ApplicableFacts .directory .notApplicable .unknown .notApplicable
    .notApplicable .notApplicable .notApplicable :=
  ⟨nofun, rfl, rfl, rfl, rfl, rfl⟩

/-- Completed object evidence; a value satisfies the applicability rules its
constructor checks. -/
structure CompletedObjectFact where
  path : PackagePath
  kind : CompletedObjectKind
  mode : QualifiedFact UInt32
  uid : QualifiedFact UInt64
  gid : QualifiedFact UInt64
  size : QualifiedFact UInt64
  mtime : QualifiedFact CompletedObjectTimestamp
  regularContent : QualifiedFact RegularContentIdentity
  symlinkTarget : QualifiedFact (List (Fin 256))
  device : QualifiedFact CompletedDeviceNumber
  hardlink : QualifiedFact PackagePath
  provenance : ObjectFactProvenance
  completeness : ObjectFactCompleteness
  applicable : ApplicableFacts kind size mtime regularContent symlinkTarget device hardlink
deriving DecidableEq

/-! ## Path observations -/

/-- Coarse state of one observed path. -/
inductive FactState where
  | known
  | unknown
  | notApplicable
deriving DecidableEq, Repr

/-- One observed path: present with its object, absent, or not established. -/
inductive PathObservation where
  | present (object : CompletedObjectFact)
  | absent (path : PackagePath)
  | unknown (path : PackagePath)
deriving DecidableEq

namespace PathObservation

def path : PathObservation → PackagePath
  | present object => object.path
  | absent path => path
  | unknown path => path

def state : PathObservation → FactState
  | present _ => .known
  | absent _ => .notApplicable
  | unknown _ => .unknown

def object : PathObservation → Option CompletedObjectFact
  | present object => some object
  | _ => none

@[simp] theorem state_eq_known_iff (o : PathObservation) :
    o.state = .known ↔ ∃ object, o = present object := by
  cases o <;> simp [state]

@[simp] theorem state_eq_notApplicable_iff (o : PathObservation) :
    o.state = .notApplicable ↔ ∃ path, o = absent path := by
  cases o <;> simp [state]

@[simp] theorem state_eq_unknown_iff (o : PathObservation) :
    o.state = .unknown ↔ ∃ path, o = unknown path := by
  cases o <;> simp [state]

end PathObservation

/-- An exact observation closure over one requested path set.  Both lists are
normalized: strictly ordered by path, one observation for each path. -/
structure BackendObservationBatch where
  requested : List PackagePath
  observations : List PathObservation
  evidence : Evidence
  sorted : requested.Pairwise (· < ·)
  exact : observations.map PathObservation.path = requested
deriving DecidableEq

namespace BackendObservationBatch

/-- The observation of one exact requested path. -/
def find (batch : BackendObservationBatch) (path : PackagePath) : Option PathObservation :=
  batch.observations.find? (·.path == path)

variable {batch : BackendObservationBatch} {path : PackagePath} {o : PathObservation}

theorem path_of_find (h : batch.find path = some o) : o.path = path := by
  have := List.find?_some h
  simpa using this

/-- Every requested path has an observation. -/
theorem exists_find (h : path ∈ batch.requested) : ∃ o, batch.find path = some o := by
  rw [← batch.exact, List.mem_map] at h
  obtain ⟨o, ho, rfl⟩ := h
  cases hfind : batch.find o.path with
  | some o' => exact ⟨o', rfl⟩
  | none => simpa using List.find?_eq_none.mp hfind o ho

end BackendObservationBatch

/-! ## What a plan recorded -/

/-- Metadata a plan recorded about a present object. -/
structure FilesystemObjectMetadata where
  kind : CompletedObjectKind
  mode : UInt32
  uid : UInt64
  gid : UInt64
  size : Option UInt64
  mtime : Option CompletedObjectTimestamp
  regularContent : Option RegularContentIdentity
  symlinkTarget : Option (List (Fin 256))
  device : Option CompletedDeviceNumber
deriving DecidableEq

/-- One path a plan was computed against: absent, or present as recorded. -/
structure PathPrecondition where
  path : PackagePath
  observation : Option FilesystemObjectMetadata
deriving DecidableEq

namespace PathPrecondition

def isPresent (p : PathPrecondition) : Bool := p.observation.isSome

end PathPrecondition

/-! ## The precondition check -/

inductive PreconditionField where
  | presence
  | objectKind
  | mode
  | uid
  | gid
  | size
  | mtime
  | regularContent
  | symlinkTarget
  | deviceNumber
deriving DecidableEq, Repr

inductive PreconditionFailureKind where
  | unknown
  | mismatch
deriving DecidableEq, Repr

structure PreconditionFailure where
  path : PackagePath
  field : PreconditionField
  kind : PreconditionFailureKind
deriving DecidableEq, Repr

/-- The order failures are reported in: path, then field, then kind. -/
def PreconditionFailure.le (a b : PreconditionFailure) : Prop :=
  toLex (a.path, toLex (a.field.ctorIdx, a.kind.ctorIdx)) ≤
    toLex (b.path, toLex (b.field.ctorIdx, b.kind.ctorIdx))

instance : DecidableRel PreconditionFailure.le :=
  fun _ _ => inferInstanceAs (Decidable (_ ≤ _))

namespace PreconditionCheck

variable {α : Type} [DecidableEq α]

/-- One required attribute against the observed fact. -/
def compareRequired (path : PackagePath) (field : PreconditionField)
    (observed : QualifiedFact α) (expected : α) : List PreconditionFailure :=
  match observed with
  | .known value => if value ≠ expected then [⟨path, field, .mismatch⟩] else []
  | _ => [⟨path, field, .unknown⟩]

/-- An attribute the plan may or may not have recorded. -/
def compareRecorded (path : PackagePath) (field : PreconditionField)
    (observed : QualifiedFact α) (expected : Option α) : List PreconditionFailure :=
  match expected with
  | some expected => compareRequired path field observed expected
  | none => []

def compareObject (expected : FilesystemObjectMetadata) (observed : CompletedObjectFact) :
    List PreconditionFailure :=
  let path := observed.path
  if expected.kind ≠ observed.kind then
    [⟨path, .objectKind, .mismatch⟩]
  else
    compareRequired path .mode observed.mode expected.mode
      ++ compareRequired path .uid observed.uid expected.uid
      ++ compareRequired path .gid observed.gid expected.gid
      ++ compareRecorded path .size observed.size expected.size
      ++ compareRecorded path .mtime observed.mtime expected.mtime
      ++ compareRecorded path .regularContent observed.regularContent expected.regularContent
      ++ compareRecorded path .symlinkTarget observed.symlinkTarget expected.symlinkTarget
      ++ compareRecorded path .deviceNumber observed.device expected.device

def comparePath (expected : PathPrecondition) (observed : PathObservation) :
    List PreconditionFailure :=
  match observed with
  | .unknown _ => [⟨expected.path, .presence, .unknown⟩]
  | .absent _ =>
    if expected.isPresent then [⟨expected.path, .presence, .mismatch⟩] else []
  | .present object =>
    match expected.observation with
    | none => [⟨expected.path, .presence, .mismatch⟩]
    | some metadata => compareObject metadata object

end PreconditionCheck

/-- A fresh observation closure together with what it fails to satisfy. -/
structure PreconditionCheck where
  observations : BackendObservationBatch
  failures : List PreconditionFailure
deriving DecidableEq

namespace PreconditionCheck

/-- Failures of every path, in plan order. -/
def collectFailures (observed : BackendObservationBatch) :
    List PathPrecondition → Except Exn (List PreconditionFailure)
  | [] => .ok []
  | expected :: rest =>
    match observed.find expected.path with
    | none => .error (.logicError "exact backend observation closure lost a path")
    | some current => do
      let failures ← collectFailures observed rest
      return comparePath expected current ++ failures

def make (expected : List PathPrecondition) (observed : BackendObservationBatch) :
    Except Exn PreconditionCheck := do
  refuseIf (expected.length ≠ observed.requested.length)
    (.invalidArgument "fresh observation request does not match plan path universe")
  refuseIf (expected.map PathPrecondition.path ≠ observed.requested)
    (.invalidArgument "fresh observation request path differs from plan precondition")
  let failures ← collectFailures observed expected
  return ⟨observed, failures.insertionSort PreconditionFailure.le⟩

def satisfied (check : PreconditionCheck) : Bool := check.failures.isEmpty

end PreconditionCheck

/-! ## Matching the final observation -/

inductive ResultObservationMatch where
  | matched
  | mismatch
  | indeterminate
deriving DecidableEq, Repr

namespace ResultObservationMatch

/-- Merge two verdicts: a mismatch dominates, then an unestablished fact. -/
def merge : ResultObservationMatch → ResultObservationMatch → ResultObservationMatch
  | mismatch, _ => mismatch
  | _, mismatch => mismatch
  | indeterminate, _ => indeterminate
  | _, indeterminate => indeterminate
  | matched, matched => matched

@[simp] theorem merge_eq_matched {a b : ResultObservationMatch} :
    a.merge b = matched ↔ a = matched ∧ b = matched := by
  cases a <;> cases b <;> simp [merge]

end ResultObservationMatch

section Facts

variable {α : Type} [DecidableEq α]

def matchExpectedFact (observed : QualifiedFact α) (expected : α) : ResultObservationMatch :=
  match observed with
  | .known value => if value = expected then .matched else .mismatch
  | .unknown => .indeterminate
  | .notApplicable => .mismatch

def matchRetainedFact (before after : QualifiedFact α) : ResultObservationMatch :=
  match before with
  | .known value => matchExpectedFact after value
  | .unknown => if after = .notApplicable then .mismatch else .matched
  | .notApplicable => if after = .notApplicable then .matched else .mismatch

end Facts

def provenanceError : Exn :=
  .logicError "backend result object lacks application-observation provenance"

/-- A retained path must still show every fact that was known before. -/
def matchRetainedObservation (before after : PathObservation) :
    Except Exn ResultObservationMatch :=
  if before.path ≠ after.path then
    .error (.logicError "result observation changed logical path")
  else
    match after, before with
    | .unknown _, _ => .ok .indeterminate
    | _, .unknown _ => .ok .indeterminate
    | .absent _, .absent _ => .ok .matched
    | .present _, .absent _ => .ok .mismatch
    | .absent _, .present _ => .ok .mismatch
    | .present observed, .present expected =>
      if observed.provenance ≠ .applicationObservation then
        .error provenanceError
      else if expected.path ≠ observed.path ∨ expected.kind ≠ observed.kind then
        .ok .mismatch
      else
        .ok ((matchRetainedFact expected.mode observed.mode)
          |>.merge (matchRetainedFact expected.uid observed.uid)
          |>.merge (matchRetainedFact expected.gid observed.gid)
          |>.merge (matchRetainedFact expected.size observed.size)
          |>.merge (matchRetainedFact expected.mtime observed.mtime)
          |>.merge (matchRetainedFact expected.regularContent observed.regularContent)
          |>.merge (matchRetainedFact expected.symlinkTarget observed.symlinkTarget)
          |>.merge (matchRetainedFact expected.device observed.device)
          |>.merge (matchRetainedFact expected.hardlink observed.hardlink))

end PkgApply
