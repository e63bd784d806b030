import PkgApply.Library.Codec
import PkgApply.Transport.Value

/-!
# Journal transport codec

The byte form of declarations, steps and cursors: a writer that refuses to grow
past the size limit, a reader that refuses malformed bytes, and one encoder and
one decoder for each value.  Every decoder rebuilds the value through its
constructor and compares the identity it carries.
-/

namespace PkgApply.Transport

open Library

/-! ## Errors -/

inductive CodecErrorCode where
  | invalidMagic
  | unsupportedVersion
  | truncated
  | invalidValue
  | limitExceeded
  | trailingData
  | identityMismatch
deriving DecidableEq, Repr

structure CodecError where
  code : CodecErrorCode
  message : String
deriving DecidableEq, Repr

/-- What leaves a decoder before `translateInvalid`. -/
inductive DecodeFailure where
  | codec (error : CodecError)
  | exception (e : Exn)
deriving DecidableEq

/-- An exception of a constructor or a parser becomes an invalid value. -/
def translateInvalid {α : Type} : Except DecodeFailure α → Except DecodeFailure α
  | .error (.exception (.invalidArgument message)) =>
    .error (.codec ⟨.invalidValue,
      "application journal transport encoding is invalid: " ++ message⟩)
  | outcome => outcome

/-! ## Writer -/

def maximumTransportEncodingSize : Nat := 256 * 1024 * 1024
def maximumEvidenceCount : Nat := 1000000
def maximumEffectCount : Nat := 1000000
def maximumProjectionPathCount : Nat := 1000000
def maximumProjectionOwnerCount : Nat := 1000000
def maximumPathTextSize : Nat := maximumTransportEncodingSize
def maximumReplaySize : Nat := maximumTransportEncodingSize

abbrev Writer := Coder Byte CodecError Unit

def sizeLimitError : CodecError :=
  ⟨.limitExceeded, "application journal transport encoding exceeds the size limit"⟩

def requireSpace (size : Nat) : Writer := do
  let bytes ← get
  if bytes.length > maximumTransportEncodingSize ∨
      size > maximumTransportEncodingSize - bytes.length then
    throw sizeLimitError

def appendU8 (value : Byte) : Writer := do
  requireSpace 1
  modify (· ++ [value])

def appendU16 (value : Nat) : Writer :=
  encodeEach appendU8 (bigEndian 2 value)

def appendU64 (value : Nat) : Writer :=
  encodeEach appendU8 (bigEndian 8 value)

def appendFlag (value : Bool) : Writer :=
  appendU8 (if value then 1 else 0)

def appendBytes (data : List Byte) : Writer :=
  if data.length = 0 then
    pure ()
  else do
    requireSpace data.length
    modify (· ++ data)

def appendString (value : List Byte) : Writer := do
  appendU64 value.length
  appendBytes value

def appendBlob (value : List Byte) : Writer := do
  appendU64 value.length
  requireSpace value.length
  modify (· ++ value)

def countLimitError (description : String) : CodecError :=
  ⟨.limitExceeded, description ++ " exceeds its count limit"⟩

def appendCount (count maximum : Nat) (description : String) : Writer := do
  if count > maximum then
    throw (countLimitError description)
  appendU64 count

/-- Run a writer on nothing. -/
def finish (output : Writer) : Except CodecError (List Byte) := do
  let (_, bytes) ← output []
  if bytes.length > maximumTransportEncodingSize then
    throw sizeLimitError
  return bytes

/-! ## Reader -/

abbrev Reader (α : Type) := Coder Byte DecodeFailure α

def refuse {α : Type} (code : CodecErrorCode) (message : String) : Reader α :=
  throw (.codec ⟨code, message⟩)

def require (count : Nat) : Reader Unit := do
  if count > (← get).length then
    refuse .truncated "application journal transport encoding is truncated"

/-- The next `count` bytes. -/
def take (count : Nat) : Reader (List Byte) := do
  require count
  let input ← get
  set (input.drop count)
  return input.take count

def readU8 : Reader Byte := do
  require 1
  match ← get with
  | byte :: rest => do
    set rest
    return byte
  | [] => refuse .truncated "application journal transport encoding is truncated"

def readU16 : Reader Nat := do
  return ofBigEndian (← decodeEach readU8 2)

def readU64 : Reader Nat := do
  return ofBigEndian (← decodeEach readU8 8)

def readBool : Reader Bool := do
  let value ← readU8
  if value > 1 then
    refuse .invalidValue
      "application journal transport encoding contains an invalid boolean"
  return value == 1

def readString (maximumSize : Nat) : Reader (List Byte) := do
  let length ← readU64
  if length > maximumSize then
    refuse .limitExceeded "application journal transport string exceeds its size limit"
  take length

def readBlob : Reader (List Byte) := do
  let length ← readU64
  if length > maximumReplaySize then
    refuse .limitExceeded "application journal replay payload exceeds its size limit"
  take length

def expectMagic (magic : List Byte) : Reader Unit := do
  let found ← take magic.length
  if found ≠ magic then
    refuse .invalidMagic "application journal transport encoding has invalid magic"

def requireEnd : Reader Unit := do
  if (← get) ≠ [] then
    refuse .trailingData "application journal transport encoding contains trailing data"

def readCount (maximum : Nat) (description : String) : Reader Nat := do
  let count ← readU64
  if count > maximum then
    throw (.codec (countLimitError description))
  return count

/-- A schema or encoding version. -/
def expectVersion (version : Nat) (message : String) : Reader Unit := do
  let found ← readU16
  if found ≠ version then
    refuse .unsupportedVersion message

/-- A parser or a constructor of the library inside a decoder. -/
def construct {α : Type} : Except Exn α → Reader α
  | .ok a => return a
  | .error e => throw (.exception e)

/-- Run a decoder on a whole encoding. -/
def decode {α : Type} (input : Reader α) (data : List Byte) : Except DecodeFailure α :=
  translateInvalid <| do
    if data.length > maximumTransportEncodingSize then
      throw (.codec sizeLimitError)
    let (a, _) ← input data
    return a

/-! ## Identities -/

def appendDigestText (digest : BitVec 256) : Writer :=
  appendString (digestText digest)

def readDigestText : Reader (BitVec 256) := do
  let text ← readString maximumDigestTextSize
  construct (parseDigest text)

def appendTyped {domain : DigestDomain} (identity : TypedDigest domain) : Writer :=
  appendDigestText identity.digest

def readTyped (domain : DigestDomain) : Reader (TypedDigest domain) :=
  return ⟨← readDigestText⟩

def appendIdentity {kind : IdentityKind} (identity : Identity kind) : Writer :=
  appendDigestText identity.digest

def readIdentity (kind : IdentityKind) : Reader (Identity kind) :=
  return ⟨← readDigestText⟩

section Planning

variable (X : Externals)

def appendPlanning {kind : IdentityKind} (identity : Identity kind) : Writer :=
  appendString (X.planningText identity)

def readPlanning (kind : IdentityKind) : Reader (Identity kind) := do
  let text ← readString maximumDigestTextSize
  construct (X.parsePlanning kind text)

def appendPath (path : PackagePath) : Writer :=
  appendString path.bytes

def readPath : Reader PackagePath := do
  let text ← readString maximumPathTextSize
  construct (X.parsePath text)

end Planning

/-! ## Enumerations -/

def readOperationKind : Reader OperationKind := do
  match (← readU8).val with
  | 1 => return .install
  | 2 => return .upgrade
  | 3 => return .remove
  | _ =>
    refuse .invalidValue
      "application journal declaration encoding contains an invalid operation kind"

def readProjectionCompleteness : Reader StateProjectionCompleteness := do
  match (← readU8).val with
  | 1 => return .complete
  | 2 => return .incomplete
  | _ =>
    refuse .invalidValue
      "application journal declaration encoding contains invalid projection completeness"

def readEffectKind : Reader EffectKind := do
  match (← readU8).val with
  | 1 => return .captureOldObject
  | 2 => return .stageIncomingPayload
  | 3 => return .publishActiveObject
  | 4 => return .publishRejectedObject
  | 5 => return .observeResult
  | 7 => return .synchronizeActiveNamespace
  | 8 => return .synchronizeRejectedStore
  | 9 => return .sealReceipt
  | 10 => return .synchronizeIncomingStaging
  | 11 => return .synchronizeRecoveryStaging
  | 12 => return .synchronizeCompletedEvidence
  | 13 => return .recoverActiveObject
  | 14 => return .synchronizeRecoveredNamespace
  | 15 => return .publishCompletedEvidence
  | _ =>
    refuse .invalidValue
      "application journal declaration encoding contains an invalid effect kind"

def readState : Reader JournalState := do
  match (← readU8).val with
  | 1 => return .preparing
  | 2 => return .prepared
  | 3 => return .mutating
  | 4 => return .effectsVisible
  | 5 => return .resultObserved
  | 6 => return .applicationCompleted
  | 7 => return .externalResolutionPending
  | 8 => return .recovering
  | 9 => return .recovered
  | 10 => return .finalized
  | 11 => return .abandoned
  | 12 => return .indeterminate
  | 13 => return .recoveryPending
  | _ =>
    refuse .invalidValue
      "application journal transport encoding contains an invalid state"

def readEventKind : Reader EventKind := do
  match (← readU8).val with
  | 1 => return .intent
  | 2 => return .completed
  | 3 => return .failed
  | 4 => return .indeterminate
  | _ =>
    refuse .invalidValue
      "application journal transport encoding contains an invalid event kind"

/-! ## Headers -/

section Header

variable (X : Externals)

def pathCountText : String := "application journal declaration projection paths"
def ownerCountText : String := "application journal declaration projection owners"

def appendProjectedPathOwners (path : ProjectedPathOwners) : Writer := do
  appendPath path.path
  appendCount path.owners.card maximumProjectionOwnerCount ownerCountText
  encodeEach (appendPlanning X) (ascending path.owners)

def appendStateProjection (projection : LeaseBoundStateProjection) : Writer := do
  appendTyped (identifyProjection X projection)
  appendU16 schemaVersion
  appendIdentity projection.lease
  appendPlanning X projection.snapshot
  appendPlanning X projection.ownershipInventory
  appendU8 (canonicalCompleteness projection.completeness)
  appendCount projection.paths.length maximumProjectionPathCount pathCountText
  encodeEach (appendProjectedPathOwners X) projection.paths
  appendIdentity projection.evidence

def readProjectedPathOwners : Reader ProjectedPathOwners := do
  let path ← readPath X
  let ownerCount ← readCount maximumProjectionOwnerCount ownerCountText
  let owners ← decodeEach (readPlanning X .installedPackage) ownerCount
  construct (makeProjectedPathOwners path owners)

def readStateProjection : Reader LeaseBoundStateProjection := do
  let expected ← readTyped .leaseBoundStateProjection
  expectVersion schemaVersion
    "application journal declaration state projection schema is unsupported"
  let lease ← readIdentity .leaseInstance
  let snapshot ← readPlanning X .installedSnapshot
  let ownership ← readPlanning X .ownershipInventory
  let completeness ← readProjectionCompleteness
  let pathCount ← readCount maximumProjectionPathCount pathCountText
  let paths ← decodeEach (readProjectedPathOwners X) pathCount
  let evidence ← readIdentity .projectionEvidence
  let projection ← construct
    (makeStateProjection lease snapshot ownership completeness paths evidence)
  if identifyProjection X projection ≠ expected then
    refuse .identityMismatch
      "application journal declaration projection identity does not match its body"
  return projection

def appendHeader (header : JournalHeader) : Writer := do
  appendU16 schemaVersion
  appendU8 (canonicalKind header.kind)
  appendIdentity header.request
  appendPlanning X header.plan
  appendU16 schemaVersion
  appendBytes (digestBytes header.attempt.nonce)
  appendIdentity header.target
  appendIdentity header.control
  appendStateProjection X header.stateProjection
  appendIdentity header.lease
  appendIdentity header.backend

def readNonce : Reader AttemptNonce :=
  return BitVec.ofNat 256 (ofBigEndian (← decodeEach readU8 32))

def readHeader : Reader JournalHeader := do
  expectVersion schemaVersion "application journal declaration header schema is unsupported"
  let kind ← readOperationKind
  let request ← readIdentity .applicationRequest
  let plan ← readPlanning X .operationPlan
  expectVersion schemaVersion "application journal declaration attempt schema is unsupported"
  let nonce ← readNonce
  let target ← readIdentity .targetContext
  let control ← readIdentity .executionControl
  let projection ← readStateProjection X
  let lease ← readIdentity .leaseInstance
  let backend ← readIdentity .mutationBackend
  construct (JournalHeader.make ⟨kind, request, plan, ⟨request, target, backend, nonce⟩, target,
    control, projection, lease, backend⟩)

end Header

/-! ## Declarations -/

/-- The constructor checks that a path is there exactly when the kind has one. -/
def makeEffect (ordinal : Nat) (kind : EffectKind) (path : Option PackagePath) :
    Except Exn JournalEffect :=
  if h : path.isSome = requiresPath kind then
    .ok ⟨ordinal, kind, path, h⟩
  else
    .error (.invalidArgument "journal effect path applicability mismatch")

section Declaration

variable (X : Externals)

def declarationMagic : List Byte := ascii "ZLAPJDC" ++ [0]

def encodingVersion : Nat := 1

def effectCountText : String := "application journal declaration effect graph"

def appendEffect (effect : JournalEffect) : Writer := do
  appendU64 effect.ordinal
  appendU8 (canonicalEffect effect.kind)
  encodeOptional appendFlag appendPath effect.path

def readEffect : Reader JournalEffect := do
  let ordinal ← readU64
  let kind ← readEffectKind
  let path ← decodeOptional readBool (readPath X)
  construct (makeEffect ordinal kind path)

def appendDeclaration (declaration : Declaration) : Writer := do
  appendBytes declarationMagic
  appendU16 encodingVersion
  appendU16 schemaVersion
  appendTyped (declaration.identity X)
  appendHeader X declaration.header
  appendCount declaration.effects.length maximumEffectCount effectCountText
  encodeEach appendEffect declaration.effects
  appendBlob declaration.replaySeed

/-- The identity a declaration carries, and what its constructor makes of the
fields. -/
def readDeclaration :
    Reader (TypedDigest .applicationJournalDeclaration × Except Exn Declaration) := do
  expectMagic declarationMagic
  expectVersion encodingVersion
    "application journal declaration encoding version is unsupported"
  expectVersion schemaVersion "application journal declaration schema is unsupported"
  let expected ← readTyped .applicationJournalDeclaration
  let header ← readHeader X
  let effectCount ← readCount maximumEffectCount effectCountText
  let effects ← decodeEach (readEffect X) effectCount
  let replaySeed ← readBlob
  return (expected, Declaration.make X header effects replaySeed)

def encodeDeclaration (declaration : Declaration) : Except CodecError (List Byte) :=
  finish (appendDeclaration X declaration)

def decodeDeclaration (data : List Byte) : Except DecodeFailure Declaration :=
  data |> decode do
    let (expected, made) ← readDeclaration X
    requireEnd
    let declaration ← construct made
    if declaration.identity X ≠ expected then
      refuse .identityMismatch
        "application journal declaration identity does not match its content"
    return declaration

end Declaration

/-! ## Steps -/

section Step

variable (X : Externals)

def stepMagic : List Byte := ascii "ZLAPJST" ++ [0]

def evidenceCountText : String := "application journal transport backend evidence"

def appendEvent (event : Event) : Writer := do
  appendU64 event.sequence.toNat
  appendU8 (canonicalEvent event.kind)
  appendTyped event.effect
  appendCount event.backendEvidence.card maximumEvidenceCount evidenceCountText
  encodeEach appendIdentity (ascending event.backendEvidence)

def readEvent : Reader Event := do
  let sequence ← readU64
  let kind ← readEventKind
  let effect ← readTyped .applicationJournalEffect
  let evidenceCount ← readCount maximumEvidenceCount evidenceCountText
  let evidence ← decodeEach (readIdentity .backendEvidence) evidenceCount
  construct (Event.make (.ofNat sequence) kind effect evidence)

def appendStep (step : Step) : Writer := do
  appendBytes stepMagic
  appendU16 encodingVersion
  appendU16 schemaVersion
  appendTyped (step.identity X)
  appendTyped step.declaration
  appendU64 step.sequence.toNat
  encodeOptional appendFlag appendTyped step.predecessor
  appendU8 (canonicalState step.state)
  encodeOptional appendFlag appendEvent step.event
  appendBlob step.replayFact
  encodeOptional appendFlag appendTyped step.receipt
  encodeOptional appendFlag appendTyped step.completedEvidence

def readStep : Reader (TypedDigest .applicationJournalStep × Except Exn Step) := do
  expectMagic stepMagic
  expectVersion encodingVersion "application journal step encoding version is unsupported"
  expectVersion schemaVersion "application journal step schema is unsupported"
  let expected ← readTyped .applicationJournalStep
  let declaration ← readTyped .applicationJournalDeclaration
  let sequence ← readU64
  let predecessor ← decodeOptional readBool (readTyped .applicationJournalStep)
  let state ← readState
  let event ← decodeOptional readBool readEvent
  let replayFact ← readBlob
  let receipt ← decodeOptional readBool (readTyped .applicationReceipt)
  let completedEvidence ← decodeOptional readBool (readTyped .completedApplicationEvidence)
  return (expected, Step.make declaration (.ofNat sequence) predecessor state event replayFact
    receipt completedEvidence)

def encodeStep (step : Step) : Except CodecError (List Byte) :=
  finish (appendStep X step)

def decodeStep (data : List Byte) : Except DecodeFailure Step :=
  data |> decode do
    let (expected, made) ← readStep
    requireEnd
    let step ← construct made
    if step.identity X ≠ expected then
      refuse .identityMismatch "application journal step identity does not match its content"
    return step

end Step

/-! ## Cursors -/

/-- The constructor of a decoded cursor. -/
def Cursor.restore (cursor : Cursor) : Except Exn Cursor := do
  refuseIf ((cursor.stepCount = 0) ≠ (cursor.latestStep = none))
    (.invalidArgument "application journal cursor head contradicts its step count")
  refuseIf (cursor.stepCount = 0 ∧
      (cursor.state ≠ .preparing ∨ cursor.receipt.isSome ∨ cursor.completedEvidence.isSome))
    (.invalidArgument "empty application journal cursor is not initial")
  refuseIf (cursor.completedEvidence.isSome ∧ cursor.receipt.isNone)
    (.invalidArgument "application journal cursor completed evidence lacks receipt authority")
  return cursor

section Cursor

variable (X : Externals)

def cursorMagic : List Byte := ascii "ZLAPJCU" ++ [0]

def appendCursor (cursor : Cursor) : Writer := do
  appendBytes cursorMagic
  appendU16 encodingVersion
  appendU16 schemaVersion
  appendTyped (cursor.identity X)
  appendTyped cursor.declaration
  appendU64 cursor.stepCount.toNat
  encodeOptional appendFlag appendTyped cursor.latestStep
  appendU8 (canonicalState cursor.state)
  encodeOptional appendFlag appendTyped cursor.receipt
  encodeOptional appendFlag appendTyped cursor.completedEvidence

def readCursor : Reader (TypedDigest .applicationJournalCursor × Cursor) := do
  expectMagic cursorMagic
  expectVersion encodingVersion "application journal cursor encoding version is unsupported"
  expectVersion schemaVersion "application journal cursor schema is unsupported"
  let expected ← readTyped .applicationJournalCursor
  let declaration ← readTyped .applicationJournalDeclaration
  let stepCount ← readU64
  let latestStep ← decodeOptional readBool (readTyped .applicationJournalStep)
  let state ← readState
  let receipt ← decodeOptional readBool (readTyped .applicationReceipt)
  let completedEvidence ← decodeOptional readBool (readTyped .completedApplicationEvidence)
  return (expected, ⟨declaration, .ofNat stepCount, latestStep, state, receipt,
    completedEvidence⟩)

def encodeCursor (cursor : Cursor) : Except CodecError (List Byte) :=
  finish (appendCursor X cursor)

def decodeCursor (data : List Byte) : Except DecodeFailure Cursor :=
  data |> decode do
    let (expected, cursor) ← readCursor
    requireEnd
    if (cursor.stepCount = 0) ≠ (cursor.latestStep = none) then
      refuse .invalidValue "application journal cursor head contradicts its step count"
    let cursor ← construct cursor.restore
    if cursor.identity X ≠ expected then
      refuse .identityMismatch "application journal cursor identity does not match its content"
    return cursor

end Cursor

end PkgApply.Transport
