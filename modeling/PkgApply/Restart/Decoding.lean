import PkgApply.Transport.Recorded

/-!
# Replay facts read back

A journal retains its replay seed and replay facts encoded.  A value stands for
its encoding here, and reading it back refuses what the decoder refuses: a list
beyond the count limit, which the encoder writes all the same, and completed
evidence that the request does not make again.
-/

namespace PkgApply

open Transport Library

/-! ## Decoder -/

/-- The count of one list, before its items. -/
def readReplayCount (count : Nat) (description : String) : Except Exn Unit :=
  refuseIf (maximumItemCount < count)
    (.invalidArgument (description ++ " exceeds its count limit"))

def readReplayEvidence (evidence : Evidence) : Except Exn Unit :=
  readReplayCount evidence.card "backend evidence"

/-- The first observation a declaration retains. -/
def decodeReplaySeed (seed : BackendObservationBatch) : Except Exn BackendObservationBatch := do
  readReplayCount seed.requested.length "observation request paths"
  readReplayCount seed.observations.length "observations"
  readReplayEvidence seed.evidence
  return seed

/-- What completed evidence retains of a path, under the decision at its place. -/
def readPathDynamic (decision : PathDecision) (c : PathConsequence) :
    Except Exn PathConsequence := do
  refuseIf (c.path ≠ decision.path)
    (.invalidArgument "completed evidence path order differs from the immutable plan")
  return { c with
    role := decision.role
    requestedActive := decision.active
    requestedRejected := decision.rejected
    incomingEntry := decision.incomingEntry
    ownership := decision.ownership }

/-- A path for each decision, in the order of the plan. -/
def readPathsDynamic : List PathDecision → List PathConsequence → Except Exn (List PathConsequence)
  | decision :: decisions, c :: rest => do
    let c ← readPathDynamic decision c
    let cs ← readPathsDynamic decisions rest
    return c :: cs
  | _, _ => .ok []

/-- Completed evidence is made again from the request, and must be what it was. -/
def readCompletedEvidence (request : ApplicationRequest) (expected : CompletedEvidence) :
    Except Exn CompletedEvidence := do
  readReplayCount expected.paths.length "completed evidence paths"
  refuseIf (expected.paths.length ≠ request.plan.paths.length)
    (.invalidArgument "completed evidence path universe differs from the immutable plan")
  let paths ← readPathsDynamic request.plan.paths expected.paths
  readReplayEvidence expected.backendEvidence
  let result ← CompletedEvidence.make request expected.attempt expected.stateProjection
    expected.journal paths expected.durability expected.backendEvidence
  refuseIf (result ≠ expected)
    (.invalidArgument "completed evidence identity does not match replay fact content")
  return result

/-- The fact a terminal event retains. -/
def decodeReplayFact (request : ApplicationRequest) : ReplayFact → Except Exn ReplayFact
  | .payloadSeal result => do
    readReplayEvidence result.evidence
    return .payloadSeal result
  | .capture result => do
    readReplayEvidence result.evidence
    return .capture result
  | .rejectedEffect path result => do
    readReplayEvidence result.evidence
    return .rejectedEffect path result
  | .activeEffect path result => do
    readReplayEvidence result.evidence
    return .activeEffect path result
  | .recoveryEffect path result => do
    readReplayEvidence result.evidence
    return .recoveryEffect path result
  | .synchronization result => return .synchronization result
  | .completedEvidence evidence => do
    let evidence ← readCompletedEvidence request evidence
    return .completedEvidence evidence

/-! ## Retained lists -/

/-- No list of the fact is longer than the decoder reads. -/
def ReplayFact.Within : ReplayFact → Prop
  | .payloadSeal result | .activeEffect _ result | .recoveryEffect _ result =>
    result.evidence.card ≤ maximumItemCount
  | .capture result => result.evidence.card ≤ maximumItemCount
  | .rejectedEffect _ result => result.evidence.card ≤ maximumItemCount
  | .synchronization _ => True
  | .completedEvidence evidence => evidence.paths.length ≤ maximumItemCount ∧
      evidence.backendEvidence.card ≤ maximumItemCount

instance : DecidablePred ReplayFact.Within := by
  intro fact
  cases fact <;> unfold ReplayFact.Within <;> infer_instance

/-- Evidence in a fact was made for the request. -/
def ReplayFact.MadeFor (request : ApplicationRequest) : ReplayFact → Prop
  | .completedEvidence e => e.MadeFor request
  | _ => True

section Decode

variable {request : ApplicationRequest} {seed seed' : BackendObservationBatch}
  {fact fact' : ReplayFact} {e e' : CompletedEvidence}

theorem readReplayCount_eq_ok {count : Nat} {description : String} {u : Unit} :
    readReplayCount count description = .ok u ↔ count ≤ maximumItemCount := by
  rw [readReplayCount, refuseIf_eq_ok, Nat.not_lt]

theorem readReplayEvidence_eq_ok {evidence : Evidence} {u : Unit} :
    readReplayEvidence evidence = .ok u ↔ evidence.card ≤ maximumItemCount :=
  readReplayCount_eq_ok

/-- A seed is read as itself, if its lists are read at all. -/
theorem decodeReplaySeed_eq_ok :
    decodeReplaySeed seed = .ok seed' ↔ SeedWithin seed ∧ seed' = seed := by
  have hlength : seed.observations.length = seed.requested.length := by
    rw [← seed.exact, List.length_map]
  simp only [decodeReplaySeed, bind_eq_ok_iff, readReplayCount_eq_ok, readReplayEvidence_eq_ok,
    hlength, pure, Except.pure, Except.ok.injEq, exists_const, SeedWithin]
  constructor
  · rintro ⟨hrequested, -, hevidence, rfl⟩
    exact ⟨⟨hrequested, hevidence⟩, rfl⟩
  · rintro ⟨⟨hrequested, hevidence⟩, rfl⟩
    exact ⟨hrequested, hrequested, hevidence, rfl⟩

/-- Paths that go along the plan are read as they are. -/
theorem readPathsDynamic_along {decisions : List PathDecision} {paths : List PathConsequence}
    (h : List.Forall₂ (fun d (c : PathConsequence) => c.matchesDecision d = true) decisions paths) :
    readPathsDynamic decisions paths = .ok paths := by
  induction h with
  | nil => rfl
  | @cons decision c decisions rest hmatches _ ih =>
    obtain ⟨hpath, hrole, hactive, hrejected, hentry, hownership⟩ := matchesDecision_iff.mp hmatches
    have hread : readPathDynamic decision c = .ok c := by
      rw [readPathDynamic, refuseIf_bind_of_not (not_not.mpr hpath), ← hrole, ← hactive,
        ← hrejected, ← hentry, ← hownership]
      rfl
    rw [readPathsDynamic, hread, ih]
    rfl

/-- Evidence is made again from its own parts. -/
theorem CompletedEvidence.MadeFor.again (h : e.MadeFor request) :
    AlongPlan request.plan e.paths ∧ CompletedEvidence.make request e.attempt e.stateProjection
      e.journal e.paths e.durability e.backendEvidence = .ok e := by
  obtain ⟨attempt, stateProjection, journal, paths, durability, evidence, hmade⟩ := h
  simp only [CompletedEvidence.make, bind_eq_ok_iff, pure, Except.pure, Except.ok.injEq] at hmade ⊢
  obtain ⟨_, hnormal, _, hplan, _, hdurability, _, hcompleted, rfl⟩ := hmade
  have halong := alongPlan_of_validate hnormal hplan
  exact ⟨halong, _, halong.normalized, (), hplan, (), hdurability, (), hcompleted, rfl⟩

theorem readCompletedEvidence_eq_ok (h : readCompletedEvidence request e = .ok e') :
    (e.paths.length ≤ maximumItemCount ∧ e.backendEvidence.card ≤ maximumItemCount) ∧ e' = e := by
  simp only [readCompletedEvidence, bind_eq_ok_iff, readReplayCount_eq_ok,
    readReplayEvidence_eq_ok, refuseIf_eq_ok, not_not, pure, Except.pure, Except.ok.injEq] at h
  obtain ⟨_, hpaths, _, -, _, -, _, hevidence, result, -, _, hsame, rfl⟩ := h
  exact ⟨⟨hpaths, hevidence⟩, hsame⟩

/-- Evidence made for the request is read back if its lists are. -/
theorem CompletedEvidence.MadeFor.read (h : e.MadeFor request)
    (hpaths : e.paths.length ≤ maximumItemCount)
    (hevidence : e.backendEvidence.card ≤ maximumItemCount) :
    readCompletedEvidence request e = .ok e := by
  obtain ⟨halong, hmade⟩ := h.again
  simp only [readCompletedEvidence, bind_eq_ok_iff, readReplayCount_eq_ok,
    readReplayEvidence_eq_ok, refuseIf_eq_ok, not_not, pure, Except.pure, Except.ok.injEq]
  exact ⟨(), hpaths, (), halong.length_eq.symm, e.paths, readPathsDynamic_along halong, (),
    hevidence, e, hmade, (), rfl, rfl⟩

/-- What is read back is the fact, and its lists keep within the limit. -/
theorem decodeReplayFact_eq_ok (h : decodeReplayFact request fact = .ok fact') :
    fact.Within ∧ fact' = fact := by
  cases fact with
  | synchronization result =>
    cases h
    exact ⟨trivial, rfl⟩
  | completedEvidence e =>
    obtain ⟨e', hread, hfact⟩ := bind_eq_ok_iff.mp h
    obtain ⟨hwithin, rfl⟩ := readCompletedEvidence_eq_ok hread
    cases hfact
    exact ⟨hwithin, rfl⟩
  | _ =>
    obtain ⟨_, hread, hfact⟩ := bind_eq_ok_iff.mp h
    cases hfact
    exact ⟨readReplayEvidence_eq_ok.mp hread, rfl⟩

/-- A fact whose lists keep within the limit is read back. -/
theorem ReplayFact.MadeFor.decode (h : fact.MadeFor request) (hwithin : fact.Within) :
    decodeReplayFact request fact = .ok fact := by
  cases fact with
  | synchronization result => rfl
  | completedEvidence e =>
    exact bind_eq_ok_iff.mpr ⟨e, CompletedEvidence.MadeFor.read h hwithin.1 hwithin.2, rfl⟩
  | _ => exact bind_eq_ok_iff.mpr ⟨(), readReplayEvidence_eq_ok.mpr hwithin, rfl⟩

theorem decodeReplayFact_iff (h : fact.MadeFor request) :
    decodeReplayFact request fact = .ok fact ↔ fact.Within :=
  ⟨fun hread => (decodeReplayFact_eq_ok hread).1, h.decode⟩

end Decode

/-! ## The bytes behind the values -/

section Bytes

variable {X : Externals} {maximumEntryId : UInt64} {request : ApplicationRequest}

theorem within_recorded {fact : ReplayFact} : FactWithin (fact.recorded X) ↔ fact.Within := by
  cases fact <;> exact Iff.rfl

/-- A seed is read back exactly when the decoder reads its encoding back. -/
theorem decodeReplaySeed_bytes {seed : BackendObservationBatch} (h : SeedConstructed X seed)
    {data : List Byte} (hdata : ReplayCodec.encodeReplaySeed seed = .ok data) :
    ReplayCodec.decodeReplaySeed X data = .ok seed ↔ decodeReplaySeed seed = .ok seed := by
  rw [ReplayCodec.decode_encodeSeed_iff h hdata, decodeReplaySeed_eq_ok, and_iff_left rfl]

/-- A fact is read back exactly when the decoder reads its encoding back. -/
theorem decodeReplayFact_bytes {fact : ReplayFact}
    (h : FactConstructed X maximumEntryId request (fact.recorded X))
    (hmade : fact.MadeFor request) {data : List Byte}
    (hdata : ReplayCodec.encodeReplayFact X (fact.recorded X) = .ok data) :
    ReplayCodec.decodeReplayFact X request data = .ok (fact.recorded X) ↔
      decodeReplayFact request fact = .ok fact := by
  rw [ReplayCodec.decode_encodeFact_iff h hdata, decodeReplayFact_iff hmade, within_recorded]

end Bytes

end PkgApply
