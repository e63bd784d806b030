import PkgApply.Transport.Evidence

/-!
# Formats of path consequences

How the completed-evidence and receipt codecs spell a path consequence.  It
repeats the plan's decision at its path, so a decoder is left with the texts and
the signs as the only freedom inside it.
-/

namespace PkgApply.Transport

open Library

/-! ## Consequences -/

structure SpelledConsequence where
  path : List Byte
  role : PathRole
  requestedActive : PlannedActiveOutcome
  requestedRejected : PlannedRejectedOutcome
  incomingEntry : Option Nat
  beforeOwners : List (List Byte)
  afterOwners : List (List Byte)
  incomingOwns : Bool
  activeStatus : EffectStatus
  rejectedStatus : EffectStatus
  before : SpelledObservation
  after : SpelledObservation
  rejectedObject : Option RejectedObjectRecordIdentity
  publication : OwnershipPublicationStatus

def consequenceFormat : Format Byte SpelledConsequence :=
  (Format.text.seq ((Format.coded pathRoles).seq ((Format.coded activeOutcomes).seq
    ((Format.coded rejectedOutcomes).seq ((optionalFormat (.number 8)).seq
      ((listFormat .text).seq ((listFormat .text).seq (Format.flag.seq
        (((Format.coded effectStatuses).seq (.coded effectStatuses)).seq
          (observationFormat.seq (observationFormat.seq
            ((optionalFormat (identityFormat .rejectedObjectRecord)).seq
              (Format.coded publicationStatuses))))))))))))).via
    ⟨fun s => (s.path, s.role, s.requestedActive, s.requestedRejected, s.incomingEntry,
        s.beforeOwners, s.afterOwners, s.incomingOwns, (s.activeStatus, s.rejectedStatus),
        s.before, s.after, s.rejectedObject, s.publication),
      fun p => ⟨p.1, p.2.1, p.2.2.1, p.2.2.2.1, p.2.2.2.2.1, p.2.2.2.2.2.1, p.2.2.2.2.2.2.1,
        p.2.2.2.2.2.2.2.1, p.2.2.2.2.2.2.2.2.1.1, p.2.2.2.2.2.2.2.2.1.2,
        p.2.2.2.2.2.2.2.2.2.1, p.2.2.2.2.2.2.2.2.2.2.1, p.2.2.2.2.2.2.2.2.2.2.2.1,
        p.2.2.2.2.2.2.2.2.2.2.2.2⟩,
      fun _ => rfl, fun _ => rfl⟩

section Consequence

variable (X : Externals) (maximumEntryId : UInt64)

/-- Owners a decoder reads from their texts. -/
def ReadsOwners (texts : List (List Byte)) (owners : List InstalledPackageIdentity) : Prop :=
  texts.length ≤ maximumItemCount ∧ List.Forall₂ X.ReadsPlanning texts owners

namespace SpelledConsequence

structure Denotes (s : SpelledConsequence) (c : PathConsequence) : Prop where
  path : X.parsePath s.path = .ok c.path
  role : s.role = c.role
  requestedActive : s.requestedActive = c.requestedActive
  requestedRejected : s.requestedRejected = c.requestedRejected
  incomingEntry : s.incomingEntry = c.incomingEntry
  entry_le : ∀ entry, c.incomingEntry = some entry → entry ≤ maximumEntryId.toNat
  beforeOwners : ReadsOwners X s.beforeOwners c.ownership.beforeExistingOwners
  afterOwners : ReadsOwners X s.afterOwners c.ownership.afterExistingOwners
  incomingOwns : s.incomingOwns = c.ownership.incomingPackageOwnsAfter
  activeStatus : s.activeStatus = c.activeStatus
  rejectedStatus : s.rejectedStatus = c.rejectedStatus
  before : s.before.Denotes X c.before
  after : s.after.Denotes X c.after
  rejectedObject : s.rejectedObject = c.rejectedObject
  publication : s.publication = c.publication
  made : c.make = .ok c

/-- Own texts of paths and owners, and no negative zero. -/
structure Canonical (s : SpelledConsequence) : Prop where
  path : X.OwnPath s.path
  beforeOwners : ∀ text ∈ s.beforeOwners, X.OwnPlanning .installedPackage text
  afterOwners : ∀ text ∈ s.afterOwners, X.OwnPlanning .installedPackage text
  before : s.before.Canonical X
  after : s.after.Canonical X

end SpelledConsequence

def spellConsequence (c : PathConsequence) : SpelledConsequence :=
  ⟨c.path.bytes, c.role, c.requestedActive, c.requestedRejected, c.incomingEntry,
    c.ownership.beforeExistingOwners.map X.planningText,
    c.ownership.afterExistingOwners.map X.planningText, c.ownership.incomingPackageOwnsAfter,
    c.activeStatus, c.rejectedStatus, spellObservation c.before, spellObservation c.after,
    c.rejectedObject, c.publication⟩

/-- A consequence the source can construct. -/
structure ConsequenceConstructed (c : PathConsequence) : Prop where
  path : X.parsePath c.path.bytes = .ok c.path
  entry : ∀ entry, c.incomingEntry = some entry → entry ≤ maximumEntryId.toNat
  beforeOwners_size : c.ownership.beforeExistingOwners.length < 2 ^ 64
  afterOwners_size : c.ownership.afterExistingOwners.length < 2 ^ 64
  before : ObservationConstructed X c.before
  after : ObservationConstructed X c.after
  made : c.make = .ok c

/-- No list of owners is longer than a decoder reads. -/
def OwnersWithin (c : PathConsequence) : Prop :=
  c.ownership.beforeExistingOwners.length ≤ maximumItemCount ∧
    c.ownership.afterExistingOwners.length ≤ maximumItemCount

variable {X maximumEntryId} {s : SpelledConsequence} {c c' : PathConsequence}

theorem consequenceMake_eq_ok (h : c.make = .ok c') : c' = c := by
  simp only [PathConsequence.make, refuseIf_bind_eq_ok, pure, Except.pure, Except.ok.injEq] at h
  exact h.2.2.2.2.2.2.2.2.symm

theorem ReadsOwners.canonical_iff {texts : List (List Byte)}
    {owners : List InstalledPackageIdentity} (h : ReadsOwners X texts owners) :
    (∀ text ∈ texts, X.OwnPlanning .installedPackage text) ↔ texts = owners.map X.planningText :=
  forall_canonical_iff h.2 fun _ _ hs => Externals.ownPlanning_iff hs

theorem readsOwners_spelled {owners : List InstalledPackageIdentity} :
    ReadsOwners X (owners.map X.planningText) owners ↔ owners.length ≤ maximumItemCount := by
  rw [ReadsOwners, List.length_map]
  exact and_iff_left (forall₂_readsPlanning.mpr rfl)

theorem SpelledConsequence.canonical_iff (h : s.Denotes X maximumEntryId c) :
    s.Canonical X ↔ s = spellConsequence X c := by
  constructor
  · intro hcanonical
    have hpath := (Externals.ownPath_iff h.path).mp hcanonical.path
    have hbeforeOwners := h.beforeOwners.canonical_iff.mp hcanonical.beforeOwners
    have hafterOwners := h.afterOwners.canonical_iff.mp hcanonical.afterOwners
    have hbefore := (SpelledObservation.canonical_iff h.before).mp hcanonical.before
    have hafter := (SpelledObservation.canonical_iff h.after).mp hcanonical.after
    have hincoming := h.incomingOwns
    obtain ⟨path, role, active, rejected, entry, beforeOwners, afterOwners, incomingOwns,
      activeStatus, rejectedStatus, before, after, rejectedObject, publication⟩ := s
    simp only [spellConsequence, SpelledConsequence.mk.injEq]
    exact ⟨hpath, h.role, h.requestedActive, h.requestedRejected, h.incomingEntry, hbeforeOwners,
      hafterOwners, hincoming, h.activeStatus, h.rejectedStatus, hbefore, hafter,
      h.rejectedObject, h.publication⟩
  · intro hs
    constructor
    · exact (Externals.ownPath_iff h.path).mpr (congrArg SpelledConsequence.path hs)
    · exact h.beforeOwners.canonical_iff.mpr (congrArg SpelledConsequence.beforeOwners hs)
    · exact h.afterOwners.canonical_iff.mpr (congrArg SpelledConsequence.afterOwners hs)
    · exact (SpelledObservation.canonical_iff h.before).mpr (congrArg SpelledConsequence.before hs)
    · exact (SpelledObservation.canonical_iff h.after).mpr (congrArg SpelledConsequence.after hs)

/-- A constructed consequence is denoted by its spelling when it has not too
many owners. -/
theorem SpelledConsequence.denotes_spell (h : ConsequenceConstructed X maximumEntryId c) :
    (spellConsequence X c).Denotes X maximumEntryId c ↔ OwnersWithin c := by
  constructor
  · intro hdenotes
    exact ⟨readsOwners_spelled.mp hdenotes.beforeOwners,
      readsOwners_spelled.mp hdenotes.afterOwners⟩
  · rintro ⟨hbefore, hafter⟩
    exact
      { path := h.path
        role := rfl
        requestedActive := rfl
        requestedRejected := rfl
        incomingEntry := rfl
        entry_le := h.entry
        beforeOwners := readsOwners_spelled.mpr hbefore
        afterOwners := readsOwners_spelled.mpr hafter
        incomingOwns := rfl
        activeStatus := rfl
        rejectedStatus := rfl
        before := SpelledObservation.denotes_spell h.before
        after := SpelledObservation.denotes_spell h.after
        rejectedObject := rfl
        publication := rfl
        made := h.made }

theorem ReadsOwners.size {texts : List (List Byte)} {owners : List InstalledPackageIdentity}
    (h : ReadsOwners X texts owners) : owners.length < 2 ^ 64 := by
  have hlength := h.2.length_eq
  have hcount := h.1
  rw [maximumItemCount] at hcount
  omega

theorem SpelledConsequence.Denotes.constructed (h : s.Denotes X maximumEntryId c) :
    ConsequenceConstructed X maximumEntryId c where
  path := X.parsePath_bytes h.path
  entry := h.entry_le
  beforeOwners_size := h.beforeOwners.size
  afterOwners_size := h.afterOwners.size
  before := h.before.constructed
  after := h.after.constructed
  made := h.made

theorem validBelow_consequence (h : ConsequenceConstructed X maximumEntryId c) :
    consequenceFormat.ValidBelow (2 ^ 64) (spellConsequence X c) := by
  have howners {owners : List InstalledPackageIdentity} (hsize : owners.length < 2 ^ 64) :
      (listFormat .text).ValidBelow (2 ^ 64) (owners.map X.planningText) := by
    apply validBelow_list
    · rwa [List.length_map]
    · exact fun text _ => validBelow_text text
  apply Format.ValidBelow.via
  apply (validBelow_text _).seq
  refine .seq (.of_mem trivial) ?_
  refine .seq (.of_mem trivial) ?_
  refine .seq (.of_mem trivial) ?_
  apply Format.ValidBelow.seq
  · apply Format.ValidBelow.optional
    intro entry hentry
    exact .of_mem (lt_of_le_of_lt (h.entry entry hentry) maximumEntryId.toNat_lt)
  apply (howners h.beforeOwners_size).seq
  apply (howners h.afterOwners_size).seq
  refine .seq (.of_mem trivial) ?_
  refine .seq (.of_mem ⟨trivial, trivial⟩) ?_
  apply (validBelow_observation h.before).seq
  apply (validBelow_observation h.after).seq
  exact .of_mem ⟨fun _ _ => trivial, trivial⟩

/-- A consequence repeats a decision in every part the decision fixes. -/
theorem matchesDecision_iff {d : PathDecision} : c.matchesDecision d = true ↔
    c.path = d.path ∧ c.role = d.role ∧ c.requestedActive = d.active ∧
      c.requestedRejected = d.rejected ∧ c.incomingEntry = d.incomingEntry ∧
      c.ownership = d.ownership := by
  simp only [PathConsequence.matchesDecision, Bool.and_eq_true, beq_iff_eq, and_assoc]

end Consequence

end PkgApply.Transport
