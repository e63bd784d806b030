import PkgApply.Transport.Codec

/-!
# What the transport encoders accept

An encoder refuses only a count over its limit and an encoding over the size
limit: within the limits it returns bytes, as many as the value's size.
-/

namespace PkgApply.Transport

open Library

variable {X : Externals}

/-! ## Writers -/

/-- Space is checked against what is written already. -/
theorem requireSpace_eq_ok {size : Nat} {out out' : List Byte} :
    requireSpace size out = .ok ((), out') ↔
      out' = out ∧ out.length + size ≤ maximumTransportEncodingSize := by
  by_cases h : out.length > maximumTransportEncodingSize ∨
      size > maximumTransportEncodingSize - out.length
  · have hw : requireSpace size out = .error sizeLimitError := by
      simp only [requireSpace, bind, StateT.bind, get, getThe, MonadStateOf.get, StateT.get, pure,
        Except.pure, Except.bind, h, ite_true]
      rfl
    simp [hw]
    omega
  · have hw : requireSpace size out = .ok ((), out) := by
      simp only [requireSpace, bind, StateT.bind, get, getThe, MonadStateOf.get, StateT.get, pure,
        Except.pure, Except.bind, h, ite_false]
      rfl
    simp [hw, eq_comm]
    omega

theorem modify_eq_ok {f : List Byte → List Byte} {out out' : List Byte} :
    (modify f : Writer) out = .ok ((), out') ↔ out' = f out := by
  change Except.ok ((), f out) = _ ↔ _
  simp [eq_comm]

/-- Writing some bytes once there is space for them. -/
theorem write_eq_ok (bytes : List Byte) {out out' : List Byte} :
    (do requireSpace bytes.length; modify (· ++ bytes) : Writer) out = .ok ((), out') ↔
      out' = out ++ bytes ∧ out.length + bytes.length ≤ maximumTransportEncodingSize := by
  rw [encode_bind_eq_ok]
  constructor
  · rintro ⟨middle, hspace, hmodify⟩
    obtain ⟨rfl, hsize⟩ := requireSpace_eq_ok.mp hspace
    exact ⟨modify_eq_ok.mp hmodify, hsize⟩
  · rintro ⟨rfl, hsize⟩
    exact ⟨out, requireSpace_eq_ok.mpr ⟨rfl, hsize⟩, modify_eq_ok.mpr rfl⟩

/-- The writer takes `n` bytes, and refuses only where they do not fit. -/
def Takes (output : Writer) (n : Nat) : Prop :=
  ∀ out, out.length + n ≤ maximumTransportEncodingSize →
    ∃ out', output out = .ok ((), out') ∧ out'.length = out.length + n

section Takes

variable {output output' : Writer} {n m : Nat}

theorem Takes.of_eq (h : Takes output n) (hn : n = m) : Takes output m :=
  hn ▸ h

theorem Takes.nothing : Takes (pure ()) 0 :=
  fun out _ => ⟨out, rfl, rfl⟩

/-- Sizes add up. -/
theorem Takes.bind (h : Takes output n) (h' : Takes output' m) :
    Takes (do output; output') (n + m) := by
  intro out hsize
  obtain ⟨middle, hfirst, hmiddle⟩ := h out (by omega)
  obtain ⟨out', hsecond, hout⟩ := h' middle (by omega)
  exact ⟨out', encode_bind_eq_ok.mpr ⟨middle, hfirst, hsecond⟩, by omega⟩

theorem takes_write (bytes : List Byte) :
    Takes (do requireSpace bytes.length; modify (· ++ bytes)) bytes.length :=
  fun out hsize => ⟨out ++ bytes, (write_eq_ok bytes).mpr ⟨rfl, hsize⟩, List.length_append⟩

theorem takes_u8 (value : Byte) : Takes (appendU8 value) 1 :=
  takes_write [value]

theorem takes_bytes (bytes : List Byte) : Takes (appendBytes bytes) bytes.length := by
  unfold appendBytes
  by_cases h : bytes.length = 0
  · rw [if_pos h, h]
    exact .nothing
  · rw [if_neg h]
    exact takes_write bytes

/-- A list takes what its elements take. -/
theorem takes_each {α : Type} {append : α → Writer} {l : List α} (size : α → Nat)
    (h : ∀ a ∈ l, Takes (append a) (size a)) :
    Takes (encodeEach append l) (l.map size).sum := by
  induction l with
  | nil => exact .nothing
  | cons a rest ih =>
    exact (h a List.mem_cons_self).bind (ih fun b hb => h b (List.mem_cons_of_mem _ hb))

theorem takes_bigEndian (width value : Nat) :
    Takes (encodeEach appendU8 (bigEndian width value)) width := by
  have h := takes_each (fun _ => 1) fun byte (_ : byte ∈ bigEndian width value) => takes_u8 byte
  simpa using h

theorem takes_u16 (value : Nat) : Takes (appendU16 value) 2 :=
  takes_bigEndian 2 value

theorem takes_u64 (value : Nat) : Takes (appendU64 value) 8 :=
  takes_bigEndian 8 value

theorem takes_string (value : List Byte) : Takes (appendString value) (8 + value.length) :=
  (takes_u64 _).bind (takes_bytes value)

theorem takes_blob (value : List Byte) : Takes (appendBlob value) (8 + value.length) :=
  (takes_u64 _).bind (takes_write value)

theorem takes_count {count maximum : Nat} (h : count ≤ maximum) (description : String) :
    Takes (appendCount count maximum description) 8 := by
  unfold appendCount
  rw [if_neg (by omega)]
  exact takes_u64 count

/-- A digest takes the length of its text and the text. -/
theorem takes_digestText (digest : BitVec 256) : Takes (appendDigestText digest) 82 := by
  have h := takes_string (digestText digest)
  rwa [length_digestText] at h

theorem takes_optional {α : Type} {append : α → Writer} (o : Option α) (size : α → Nat)
    (h : ∀ a, o = some a → Takes (append a) (size a)) :
    Takes (encodeOptional appendFlag append o) (1 + (o.map size).getD 0) := by
  cases o with
  | none => exact takes_u8 0
  | some a => exact (takes_u8 1).bind (h a rfl)

end Takes

/-! ## Declarations -/

section Declaration

variable (X : Externals)

/-- What a path and its owners take in an encoding. -/
def ownersSize (path : ProjectedPathOwners) : Nat :=
  ((ascending path.owners).map fun owner => 8 + (X.planningText owner).length).sum

def pathSize (path : ProjectedPathOwners) : Nat :=
  16 + path.path.bytes.length + ownersSize X path

def projectionSize (projection : LeaseBoundStateProjection) : Nat :=
  273 + (X.planningText projection.snapshot).length +
    (X.planningText projection.ownershipInventory).length +
      (projection.paths.map (pathSize X)).sum

def headerSize (header : JournalHeader) : Nat :=
  455 + (X.planningText header.plan).length + projectionSize X header.stateProjection

def effectSize (effect : JournalEffect) : Nat :=
  10 + (effect.path.map fun path => 8 + path.bytes.length).getD 0

/-- What a declaration takes in an encoding. -/
def declarationSize (declaration : Declaration) : Nat :=
  110 + headerSize X declaration.header + (declaration.effects.map effectSize).sum +
    declaration.replaySeed.length

end Declaration

/-- The counts of a declaration are within the limits. -/
structure Declaration.WithinCounts (declaration : Declaration) : Prop where
  effects : declaration.effects.length ≤ maximumEffectCount
  paths : declaration.header.stateProjection.paths.length ≤ maximumProjectionPathCount
  owners : ∀ path ∈ declaration.header.stateProjection.paths,
    path.owners.card ≤ maximumProjectionOwnerCount

theorem takes_projectedPathOwners {path : ProjectedPathOwners}
    (h : path.owners.card ≤ maximumProjectionOwnerCount) :
    Takes (appendProjectedPathOwners X path) (pathSize X path) := by
  have howners := takes_each (fun owner => 8 + (X.planningText owner).length)
    fun owner (_ : owner ∈ ascending path.owners) => takes_string (X.planningText owner)
  refine ((takes_string path.path.bytes).bind ((takes_count h _).bind howners)).of_eq ?_
  unfold pathSize ownersSize
  omega

theorem takes_stateProjection {projection : LeaseBoundStateProjection}
    (hpaths : projection.paths.length ≤ maximumProjectionPathCount)
    (howners : ∀ path ∈ projection.paths, path.owners.card ≤ maximumProjectionOwnerCount) :
    Takes (appendStateProjection X projection) (projectionSize X projection) := by
  have heach := takes_each (pathSize X) fun path hpath =>
    takes_projectedPathOwners (howners path hpath)
  refine ((takes_digestText _).bind ((takes_u16 _).bind ((takes_digestText _).bind
    ((takes_string _).bind ((takes_string _).bind ((takes_u8 _).bind
      ((takes_count hpaths _).bind (heach.bind (takes_digestText _))))))))).of_eq ?_
  unfold projectionSize
  omega

theorem takes_header {header : JournalHeader}
    (hpaths : header.stateProjection.paths.length ≤ maximumProjectionPathCount)
    (howners : ∀ path ∈ header.stateProjection.paths,
      path.owners.card ≤ maximumProjectionOwnerCount) :
    Takes (appendHeader X header) (headerSize X header) := by
  have hnonce := takes_bytes (digestBytes header.attempt.nonce)
  rw [length_digestBytes] at hnonce
  refine ((takes_u16 _).bind ((takes_u8 _).bind ((takes_digestText _).bind
    ((takes_string _).bind ((takes_u16 _).bind (hnonce.bind ((takes_digestText _).bind
      ((takes_digestText _).bind ((takes_stateProjection hpaths howners).bind
        ((takes_digestText _).bind (takes_digestText _))))))))))).of_eq ?_
  unfold headerSize
  omega

theorem takes_effect (effect : JournalEffect) :
    Takes (appendEffect effect) (effectSize effect) := by
  have hpath := takes_optional effect.path (fun path => 8 + path.bytes.length)
    fun path _ => takes_string path.bytes
  refine ((takes_u64 _).bind ((takes_u8 _).bind hpath)).of_eq ?_
  unfold effectSize
  omega

/-- Within the counts, a declaration is refused by its size alone. -/
theorem takes_declaration {declaration : Declaration} (h : declaration.WithinCounts) :
    Takes (appendDeclaration X declaration) (declarationSize X declaration) := by
  have hmagic := takes_bytes declarationMagic
  have heffects := takes_each effectSize fun effect (_ : effect ∈ declaration.effects) =>
    takes_effect effect
  have height : declarationMagic.length = 8 := by decide +kernel
  refine (hmagic.bind ((takes_u16 _).bind ((takes_u16 _).bind ((takes_digestText _).bind
    ((takes_header h.paths h.owners).bind ((takes_count h.effects _).bind
      (heffects.bind (takes_blob _)))))))).of_eq ?_
  unfold declarationSize
  omega

/-! ## Steps and cursors -/

def optionalSize {α : Type} (o : Option α) : Nat :=
  if o.isSome then 82 else 0

def eventSize (event : Event) : Nat :=
  99 + 82 * event.backendEvidence.card

/-- What a step takes in an encoding. -/
def stepSize (step : Step) : Nat :=
  197 + optionalSize step.predecessor + (step.event.map eventSize).getD 0 +
    step.replayFact.length + optionalSize step.receipt + optionalSize step.completedEvidence

def cursorSize (cursor : Cursor) : Nat :=
  188 + optionalSize cursor.latestStep + optionalSize cursor.receipt +
    optionalSize cursor.completedEvidence

theorem takes_optionalTyped {domain : DigestDomain} (identity : Option (TypedDigest domain)) :
    Takes (encodeOptional appendFlag appendTyped identity) (1 + optionalSize identity) := by
  refine (takes_optional identity (fun _ => 82) fun a _ => takes_digestText a.digest).of_eq ?_
  cases identity <;> rfl

theorem takes_event {event : Event} (h : event.backendEvidence.card ≤ maximumEvidenceCount) :
    Takes (appendEvent event) (eventSize event) := by
  have hevidence := takes_each (fun _ => 82)
    fun identity (_ : identity ∈ ascending event.backendEvidence) => takes_digestText identity.digest
  refine ((takes_u64 _).bind ((takes_u8 _).bind ((takes_digestText _).bind
    ((takes_count h _).bind hevidence)))).of_eq ?_
  simp only [List.map_const', List.sum_replicate_nat, length_ascending, eventSize]
  omega

theorem takes_step {step : Step}
    (h : ∀ event, step.event = some event →
      event.backendEvidence.card ≤ maximumEvidenceCount) :
    Takes (appendStep X step) (stepSize step) := by
  have hmagic := takes_bytes stepMagic
  have height : stepMagic.length = 8 := by decide +kernel
  have hevent := takes_optional step.event eventSize fun event hevent =>
    takes_event (h event hevent)
  refine (hmagic.bind ((takes_u16 _).bind ((takes_u16 _).bind ((takes_digestText _).bind
    ((takes_digestText _).bind ((takes_u64 _).bind ((takes_optionalTyped _).bind
      ((takes_u8 _).bind (hevent.bind ((takes_blob _).bind ((takes_optionalTyped _).bind
        (takes_optionalTyped _)))))))))))).of_eq ?_
  unfold stepSize
  omega

theorem takes_cursor (cursor : Cursor) : Takes (appendCursor X cursor) (cursorSize cursor) := by
  have hmagic := takes_bytes cursorMagic
  have height : cursorMagic.length = 8 := by decide +kernel
  refine (hmagic.bind ((takes_u16 _).bind ((takes_u16 _).bind ((takes_digestText _).bind
    ((takes_digestText _).bind ((takes_u64 _).bind ((takes_optionalTyped _).bind
      ((takes_u8 _).bind ((takes_optionalTyped _).bind (takes_optionalTyped _)))))))))).of_eq ?_
  unfold cursorSize
  omega

/-! ## Encoders -/

/-- What fits is returned. -/
theorem Takes.finish {output : Writer} {n : Nat} (h : Takes output n)
    (hsize : n ≤ maximumTransportEncodingSize) :
    ∃ bytes, finish output = .ok bytes ∧ bytes.length = n := by
  obtain ⟨bytes, houtput, hlength⟩ := h [] (by simpa using hsize)
  rw [List.length_nil, Nat.zero_add] at hlength
  refine ⟨bytes, ?_, hlength⟩
  simp [Transport.finish, houtput, hlength, Bind.bind, Except.bind, pure, Except.pure,
    Nat.not_lt.mpr hsize]

/-- A declaration within the counts is encoded where it fits. -/
theorem encodeDeclaration_ok {declaration : Declaration} (h : declaration.WithinCounts)
    (hsize : declarationSize X declaration ≤ maximumTransportEncodingSize) :
    ∃ bytes, encodeDeclaration X declaration = .ok bytes ∧
      bytes.length = declarationSize X declaration :=
  (takes_declaration h).finish hsize

theorem encodeStep_ok {step : Step}
    (h : ∀ event, step.event = some event → event.backendEvidence.card ≤ maximumEvidenceCount)
    (hsize : stepSize step ≤ maximumTransportEncodingSize) :
    ∃ bytes, encodeStep X step = .ok bytes ∧ bytes.length = stepSize step :=
  (takes_step h).finish hsize

/-- A cursor is always encoded. -/
theorem encodeCursor_ok (cursor : Cursor) :
    ∃ bytes, encodeCursor X cursor = .ok bytes ∧ bytes.length = cursorSize cursor := by
  apply (takes_cursor cursor).finish
  have hsize : ∀ {α : Type} (o : Option α), optionalSize o ≤ 82 := by
    intro α o
    cases o <;> simp [optionalSize]
  have hlatest := hsize cursor.latestStep
  have hreceipt := hsize cursor.receipt
  have hcompleted := hsize cursor.completedEvidence
  unfold cursorSize maximumTransportEncodingSize
  omega

example : declarationSize .reference toolDeclaration = 1234 := by decide +kernel

end PkgApply.Transport
