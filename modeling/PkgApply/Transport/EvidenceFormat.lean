import PkgApply.Transport.Consequences

/-!
# Formats of completed evidence

How the body of completed evidence is spelled, and what a decoder that is given
the request makes of a spelling.  The plan fixes the paths and their order, so
durability facts and backend evidence are the lists left to permute.
-/

namespace PkgApply.Transport

open Library

/-! ## Paths along a plan -/

section Paths

variable {plan : OperationPlan} {paths paths' : List PathConsequence}

/-- One consequence for each decision, in the plan's order. -/
def AlongPlan (plan : OperationPlan) (paths : List PathConsequence) : Prop :=
  List.Forall₂ (fun d (c : PathConsequence) => c.matchesDecision d = true) plan.paths paths

theorem normalizePaths_eq_ok : normalizePaths paths = .ok paths' ↔
    (paths.map PathConsequence.path).Nodup ∧
      paths' = paths.insertionSort fun a b => a.path ≤ b.path := by
  unfold normalizePaths
  by_cases hnodup : (paths.map PathConsequence.path).Nodup
  · simp only [hnodup, if_true, Except.ok.injEq, true_and]
    exact eq_comm
  · simp only [hnodup, if_false, false_and, reduceCtorEq]

theorem validatePlanPaths_eq_ok {complete : Bool} :
    validatePlanPaths plan paths complete = .ok () ↔
      (complete = true → paths.length = plan.paths.length) ∧
        ∀ c ∈ paths, ∃ d, plan.decision c.path = some d ∧ c.matchesDecision d = true := by
  simp only [validatePlanPaths, refuseIf_bind_eq_ok, refuseIf_eq_ok, Bool.not_eq_true',
    Bool.not_eq_false, List.all_eq_true, Option.any_eq_true, not_and, not_not]

/-- Normalized paths are in strictly ascending order. -/
theorem pairwise_of_normalizePaths (h : normalizePaths paths = .ok paths') :
    (paths'.map PathConsequence.path).Pairwise (· < ·) := by
  obtain ⟨hnodup, rfl⟩ := normalizePaths_eq_ok.mp h
  have hsorted := List.pairwise_map.mpr (List.pairwise_insertionSort
    (fun a b : PathConsequence => a.path ≤ b.path) paths)
  have hperm := (List.perm_insertionSort (fun a b : PathConsequence => a.path ≤ b.path)
    paths).map PathConsequence.path
  have hboth := List.pairwise_and_iff.mpr ⟨hsorted, hperm.nodup_iff.mpr hnodup⟩
  exact hboth.imp fun ⟨hle, hne⟩ => lt_of_le_of_ne hle hne

/-- Paths in ascending order are normalized already. -/
theorem normalizePaths_of_pairwise (h : (paths.map PathConsequence.path).Pairwise (· < ·)) :
    normalizePaths paths = .ok paths := by
  have hascending : paths.Pairwise fun a b => a.path ≤ b.path :=
    (List.pairwise_map.mp h).imp le_of_lt
  exact normalizePaths_eq_ok.mpr ⟨h.imp ne_of_lt, hascending.insertionSort_eq.symm⟩

theorem AlongPlan.paths_eq (h : AlongPlan plan paths) :
    paths.map PathConsequence.path = plan.paths.map PathDecision.path := by
  symm
  apply List.forall₂_eq_eq_eq ▸ List.forall₂_map_left_iff.mpr (List.forall₂_map_right_iff.mpr ?_)
  exact h.imp fun d c hmatches => (matchesDecision_iff.mp hmatches).1.symm

theorem AlongPlan.normalized (h : AlongPlan plan paths) : normalizePaths paths = .ok paths := by
  apply normalizePaths_of_pairwise
  rw [h.paths_eq]
  exact plan.paths_sorted

/-- Normalized paths that cover a plan go along it. -/
theorem alongPlan_of_validate (hnormal : normalizePaths paths = .ok paths')
    (hplan : validatePlanPaths plan paths' true = .ok ()) : AlongPlan plan paths' := by
  obtain ⟨hlength, hmatches⟩ := validatePlanPaths_eq_ok.mp hplan
  have hsorted := pairwise_of_normalizePaths hnormal
  have hsubset : paths'.map PathConsequence.path ⊆ plan.paths.map PathDecision.path := by
    intro path hpath
    obtain ⟨c, hc, rfl⟩ := List.mem_map.mp hpath
    obtain ⟨d, hd, -⟩ := hmatches c hc
    rw [← OperationPlan.decision_path hd]
    exact List.mem_map_of_mem (OperationPlan.decision_mem hd)
  have hperm : (paths'.map PathConsequence.path).Perm (plan.paths.map PathDecision.path) := by
    apply (List.subperm_of_subset (hsorted.imp ne_of_lt) hsubset).perm_of_length_le
    rw [List.length_map, List.length_map, hlength rfl]
  have hpaths : paths'.map PathConsequence.path = plan.paths.map PathDecision.path :=
    hperm.eq_of_pairwise (fun a b _ _ hab hba => absurd (hab.trans hba) (lt_irrefl a)) hsorted
      plan.paths_sorted
  apply List.forall₂_iff_get.mpr
  refine ⟨(hlength rfl).symm, ?_⟩
  intro i hi hi'
  obtain ⟨d, hd, hmatch⟩ := hmatches _ (List.get_mem paths' ⟨i, hi'⟩)
  have hpath : (plan.paths.get ⟨i, hi⟩).path = (paths'.get ⟨i, hi'⟩).path := by
    have hget := congrArg (fun l => l[i]?) hpaths
    simpa [List.getElem?_map, hi, hi'] using hget.symm
  have hdecision := OperationPlan.decision_of_mem (List.get_mem plan.paths ⟨i, hi⟩)
  rw [hpath, hd, Option.some.injEq] at hdecision
  rw [← hdecision]
  exact hmatch

theorem AlongPlan.validated (h : AlongPlan plan paths) :
    validatePlanPaths plan paths true = .ok () := by
  rw [validatePlanPaths_eq_ok]
  refine ⟨fun _ => h.length_eq.symm, ?_⟩
  intro c hc
  obtain ⟨i, rfl⟩ := List.get_of_mem hc
  have hi : i < plan.paths.length := lt_of_lt_of_eq i.isLt h.length_eq.symm
  have hmatches := (List.forall₂_iff_get.mp h).2 i hi i.isLt
  refine ⟨plan.paths.get ⟨i, hi⟩, ?_, hmatches⟩
  have hdecision := OperationPlan.decision_of_mem (List.get_mem plan.paths ⟨i, hi⟩)
  rwa [← (matchesDecision_iff.mp hmatches).1] at hdecision

end Paths

/-! ## Backend evidence -/

theorem normalizeBackendEvidence_eq_ok {message : String} {l : List BackendEvidenceIdentity}
    {evidence : Evidence} :
    normalizeBackendEvidence message l = .ok evidence ↔ l.Nodup ∧ evidence = l.toFinset := by
  simp only [normalizeBackendEvidence, refuseIf_bind_eq_ok, not_not, pure, Except.pure,
    Except.ok.injEq, eq_comm (b := evidence)]

theorem normalizeBackendEvidence_ascending (message : String) (evidence : Evidence) :
    normalizeBackendEvidence message (ascending evidence) = .ok evidence := by
  rw [normalizeBackendEvidence_eq_ok, toFinset_ascending]
  exact ⟨nodup_ascending _, rfl⟩

/-! ## Completed evidence -/

structure SpelledEvidence where
  identity : TypedDigest .completedApplicationEvidence
  kind : OperationKind
  request : ApplicationRequestIdentity
  plan : List Byte
  attempt : TypedDigest .applicationAttempt
  target : TargetContextIdentity
  control : ExecutionControlIdentity
  stateProjection : TypedDigest .leaseBoundStateProjection
  journal : TypedDigest .applicationJournal
  paths : List SpelledConsequence
  durability : List DurabilityFact
  backendEvidence : List BackendEvidenceIdentity

def evidenceFormat : Format Byte SpelledEvidence :=
  (((typedFormat .completedApplicationEvidence).seq ((Format.coded operationKinds).seq
    ((identityFormat .applicationRequest).seq (Format.text.seq
      ((typedFormat .applicationAttempt).seq ((identityFormat .targetContext).seq
        ((identityFormat .executionControl).seq ((typedFormat .leaseBoundStateProjection).seq
          ((typedFormat .applicationJournal).seq ((listFormat consequenceFormat).seq
            ((listFormat durabilityFactFormat).seq
              (listFormat (identityFormat .backendEvidence))))))))))))).after
    (bigEndian 2 schemaVersion)).via
    ⟨fun s => (s.identity, s.kind, s.request, s.plan, s.attempt, s.target, s.control,
        s.stateProjection, s.journal, s.paths, s.durability, s.backendEvidence),
      fun p => ⟨p.1, p.2.1, p.2.2.1, p.2.2.2.1, p.2.2.2.2.1, p.2.2.2.2.2.1, p.2.2.2.2.2.2.1,
        p.2.2.2.2.2.2.2.1, p.2.2.2.2.2.2.2.2.1, p.2.2.2.2.2.2.2.2.2.1,
        p.2.2.2.2.2.2.2.2.2.2.1, p.2.2.2.2.2.2.2.2.2.2.2⟩,
      fun _ => rfl, fun _ => rfl⟩

section Evidence

variable (X : Externals) (maximumEntryId : UInt64) (request : ApplicationRequest)

namespace SpelledEvidence

/-- The header of the request, paths along its plan, and a constructor that
accepts the parts and reproduces the identity. -/
structure Denotes (s : SpelledEvidence) (e : EvidenceRecord) : Prop where
  kind : s.kind = request.plan.kind
  requested : s.request = request.identity
  plan : X.ReadsPlanning s.plan request.plan.identity
  target : s.target = request.target
  control : s.control = request.control.identity
  paths_count : s.paths.length ≤ maximumItemCount
  paths : List.Forall₂ (SpelledConsequence.Denotes X maximumEntryId) s.paths e.paths
  along : AlongPlan request.plan e.paths
  durability : makeDurabilityProfile s.durability = .ok e.durability
  evidence_count : s.backendEvidence.length ≤ maximumItemCount
  made : EvidenceRecord.make request s.attempt s.stateProjection s.journal e.paths e.durability
    s.backendEvidence = .ok e
  identity : e.identity X = s.identity

/-- Own texts and positive zeros, one durability fact after the other in the
order of their domains, and backend evidence in ascending order. -/
structure Canonical (s : SpelledEvidence) : Prop where
  plan : X.OwnPlanning .operationPlan s.plan
  paths : ∀ path ∈ s.paths, path.Canonical X
  durability : s.durability.map DurabilityFact.domain = durabilityDomains.all
  backendEvidence : s.backendEvidence.Pairwise (· < ·)

end SpelledEvidence

def spellEvidence (e : EvidenceRecord) : SpelledEvidence :=
  ⟨e.identity X, e.kind, e.request, X.planningText e.plan, e.attempt, e.target, e.control,
    e.stateProjection, e.journal, e.paths.map (spellConsequence X), durabilityFacts e.durability,
    ascending e.backendEvidence⟩

/-- Completed evidence the source can construct for a request. -/
structure EvidenceConstructed (e : EvidenceRecord) : Prop where
  paths : ∀ path ∈ e.paths, ConsequenceConstructed X maximumEntryId path
  paths_size : e.paths.length < 2 ^ 64
  evidence_size : e.backendEvidence.card < 2 ^ 64
  made : ∃ paths evidence, EvidenceRecord.make request e.attempt e.stateProjection e.journal paths
    e.durability evidence = .ok e

/-- No list of the evidence is longer than a decoder reads. -/
structure EvidenceWithin (e : EvidenceRecord) : Prop where
  paths : e.paths.length ≤ maximumItemCount
  owners : ∀ path ∈ e.paths, OwnersWithin path
  backendEvidence : e.backendEvidence.card ≤ maximumItemCount

variable {X maximumEntryId request} {s : SpelledEvidence} {e : EvidenceRecord}
  {attempt : TypedDigest .applicationAttempt}
  {stateProjection : TypedDigest .leaseBoundStateProjection}
  {journal : TypedDigest .applicationJournal} {paths : List PathConsequence}
  {durability : DurabilityProfile} {evidence : List BackendEvidenceIdentity}

/-- What the constructor checks, and what it then holds. -/
theorem evidenceMake_eq_ok :
    EvidenceRecord.make request attempt stateProjection journal paths durability evidence =
      .ok e ↔
    normalizePaths paths = .ok e.paths ∧ validatePlanPaths request.plan e.paths true = .ok () ∧
      validateCompletedDurability request.control durability = .ok () ∧ evidence.Nodup ∧
      e.paths.all PathConsequence.completedPath = true ∧
      e = ⟨request.plan.kind, request.identity, request.plan.identity, attempt, request.target,
        request.control.identity, stateProjection, journal, e.paths, durability,
        evidence.toFinset⟩ := by
  simp only [EvidenceRecord.make, bind_eq_ok_iff, refuseIf_eq_ok,
    normalizeBackendEvidence_eq_ok, Bool.not_eq_true', Bool.not_eq_false, pure, Except.pure,
    Except.ok.injEq]
  constructor
  · rintro ⟨_, hpaths, _, hplan, _, hdurability, _, ⟨hnodup, rfl⟩, _, hcompleted, rfl⟩
    exact ⟨hpaths, hplan, hdurability, hnodup, hcompleted, rfl⟩
  · rintro ⟨hpaths, hplan, hdurability, hnodup, hcompleted, he⟩
    exact ⟨e.paths, hpaths, (), hplan, (), hdurability, _, ⟨hnodup, rfl⟩, (), hcompleted, he.symm⟩

/-- Made again from its own parts, evidence is the same. -/
theorem evidenceMake_again
    (h : EvidenceRecord.make request attempt stateProjection journal paths durability evidence =
      .ok e) :
    EvidenceRecord.make request e.attempt e.stateProjection e.journal e.paths e.durability
      (ascending e.backendEvidence) = .ok e := by
  obtain ⟨hpaths, hplan, hdurability, -, hcompleted, he⟩ := evidenceMake_eq_ok.mp h
  rw [evidenceMake_eq_ok, toFinset_ascending]
  refine ⟨normalizePaths_of_pairwise (pairwise_of_normalizePaths hpaths), hplan, ?_,
    nodup_ascending _, hcompleted, ?_⟩
  · rw [he]
    exact hdurability
  · rw [he]

theorem SpelledEvidence.canonical_iff (h : s.Denotes X maximumEntryId request e) :
    s.Canonical X ↔ s = spellEvidence X e := by
  obtain ⟨-, -, -, -, -, he⟩ := evidenceMake_eq_ok.mp h.made
  have hpaths : (∀ path ∈ s.paths, path.Canonical X) ↔ s.paths = e.paths.map (spellConsequence X) :=
    forall_canonical_iff h.paths fun _ _ hs => SpelledConsequence.canonical_iff hs
  have hplan := Externals.ownPlanning_iff h.plan
  have hdurability := durability_canonical_iff h.durability
  constructor
  · rintro ⟨hplan', hpaths', hdurability', hevidence⟩
    have hspelled := hpaths.mp hpaths'
    have hfacts := hdurability.mp hdurability'
    have htext := hplan.mp hplan'
    have hidentity := h.identity
    have hevidence := pairwise_lt_iff.mp hevidence
    obtain ⟨identity, kind, request', plan, attempt, target, control, projection, journal, paths,
      durability, evidence⟩ := s
    obtain rfl := h.kind
    obtain rfl := h.requested
    obtain rfl := h.target
    obtain rfl := h.control
    simp only at hspelled hfacts htext hidentity hevidence he
    simp only [spellEvidence, hidentity, ← hspelled, ← hfacts]
    rw [he]
    simp only [← htext, ← hevidence]
  · intro hs
    constructor
    · rw [hplan, hs, spellEvidence, he]
    · rw [hpaths, hs, spellEvidence]
    · rw [hdurability, hs, spellEvidence]
    · have hset : e.backendEvidence = s.backendEvidence.toFinset :=
        congrArg EvidenceRecord.backendEvidence he
      rw [pairwise_lt_iff, ← hset, hs]
      rfl

/-- Constructed evidence is denoted by its spelling when its lists keep within
the limit. -/
theorem SpelledEvidence.denotes_spell (h : EvidenceConstructed X maximumEntryId request e) :
    (spellEvidence X e).Denotes X maximumEntryId request e ↔ EvidenceWithin e := by
  obtain ⟨paths, evidence, hmade⟩ := h.made
  obtain ⟨hnormal, hplan, -, -, -, he⟩ := evidenceMake_eq_ok.mp hmade
  constructor
  · intro hdenotes
    constructor
    · simpa [spellEvidence] using hdenotes.paths_count
    · intro path hpath
      have hspelled := List.forall₂_same.mp (List.forall₂_map_left_iff.mp hdenotes.paths)
      exact (SpelledConsequence.denotes_spell (h.paths path hpath)).mp (hspelled path hpath)
    · simpa [spellEvidence] using hdenotes.evidence_count
  · intro hwithin
    constructor
    · rw [spellEvidence, he]
    · rw [spellEvidence, he]
    · rw [spellEvidence, he]
      exact Externals.readsPlanning_text.mpr rfl
    · rw [spellEvidence, he]
    · rw [spellEvidence, he]
    · simpa [spellEvidence] using hwithin.paths
    · apply forall₂_spelled
      intro path hpath
      exact (SpelledConsequence.denotes_spell (h.paths path hpath)).mpr (hwithin.owners path hpath)
    · exact alongPlan_of_validate hnormal hplan
    · exact makeDurabilityProfile_eq_ok.mpr (List.Perm.refl _)
    · simpa [spellEvidence] using hwithin.backendEvidence
    · exact evidenceMake_again hmade
    · rfl

theorem SpelledEvidence.Denotes.constructed (h : s.Denotes X maximumEntryId request e) :
    EvidenceConstructed X maximumEntryId request e := by
  obtain ⟨-, -, -, -, -, he⟩ := evidenceMake_eq_ok.mp h.made
  have hcounts : maximumItemCount < 2 ^ 64 := by decide
  constructor
  · exact forall_right h.paths fun _ _ hs => hs.constructed
  · rw [← h.paths.length_eq]
    exact lt_of_le_of_lt h.paths_count hcounts
  · rw [he]
    exact lt_of_le_of_lt (List.toFinset_card_le _) (lt_of_le_of_lt h.evidence_count hcounts)
  · exact ⟨e.paths, ascending e.backendEvidence, evidenceMake_again h.made⟩

theorem SpelledEvidence.validBelow (hpaths : s.paths.length < 2 ^ 64)
    (h : ∀ path ∈ s.paths, consequenceFormat.ValidBelow (2 ^ 64) path)
    (hfacts : s.durability.length < 2 ^ 64) (hevidence : s.backendEvidence.length < 2 ^ 64) :
    evidenceFormat.ValidBelow (2 ^ 64) s := by
  apply Format.ValidBelow.via
  apply Format.ValidBelow.after
  refine .seq (.of_mem trivial) ?_
  refine .seq (.of_mem trivial) ?_
  refine .seq (.of_mem trivial) ?_
  apply (validBelow_text _).seq
  refine .seq (.of_mem trivial) ?_
  refine .seq (.of_mem trivial) ?_
  refine .seq (.of_mem trivial) ?_
  refine .seq (.of_mem trivial) ?_
  refine .seq (.of_mem trivial) ?_
  apply (validBelow_list hpaths h).seq
  apply Format.ValidBelow.seq
  · exact .of_mem ⟨hfacts, fun _ _ => ⟨trivial, trivial⟩⟩
  · exact validBelow_identities hevidence

theorem validBelow_evidence (h : EvidenceConstructed X maximumEntryId request e) :
    evidenceFormat.ValidBelow (2 ^ 64) (spellEvidence X e) := by
  apply SpelledEvidence.validBelow
  · simpa [spellEvidence] using h.paths_size
  · intro spelled hspelled
    obtain ⟨path, hpath, rfl⟩ := List.mem_map.mp hspelled
    exact validBelow_consequence (h.paths path hpath)
  · exact (by decide : 6 < 2 ^ 64)
  · simpa [spellEvidence] using h.evidence_size

end Evidence

end PkgApply.Transport
