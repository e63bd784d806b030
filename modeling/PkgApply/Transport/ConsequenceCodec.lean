import PkgApply.Transport.Consequences
import PkgApply.Transport.ObjectCodec

/-!
# Path consequences in the record codecs

The completed-evidence and receipt codecs write a consequence alike, and read it
against the plan's decision at its path before they construct it.
-/

namespace PkgApply.Transport

open Library

namespace RecordCodec

variable (codec : RecordCodec) (X : Externals) (maximumEntryId : UInt64)

/-! ## Readers -/

section Reader

def readEntry : Reading EntryId := do
  let value ← codec.stream.readU64
  refuseWhen (value > maximumEntryId.toNat)
    (codec.refusal .invalidValue (codec.subject ++ " entry identifier is out of range"))
  return value

def readOwners : Reading (List InstalledPackageIdentity) :=
  codec.readList maximumItemCount (codec.described "owners") (codec.readPlanning X .installedPackage)

def publicationMessage : String :=
  match codec with
  | receipt => codec.subject ++ " path has invalid publication eligibility"
  | _ => codec.subject ++ " path has an invalid publication status"

/-- Everything after the path, against the decision at it. -/
def readPathAfterName (path : PackagePath) (decision : PathDecision) :
    Reading PathConsequence := do
  let role ← codec.stream.readCode pathRoles
    (codec.refusal .invalidValue (codec.subject ++ " path has an invalid role"))
  let active ← codec.stream.readCode activeOutcomes
    (codec.refusal .invalidValue (codec.contains ++ " an invalid active outcome"))
  let rejected ← codec.stream.readCode rejectedOutcomes
    (codec.refusal .invalidValue (codec.contains ++ " an invalid rejected outcome"))
  let entry ← codec.readOptional (codec.readEntry maximumEntryId)
  let beforeOwners ← codec.readOwners X
  let afterOwners ← codec.readOwners X
  let incomingOwns ← codec.stream.readBool
  refuseWhen (path ≠ decision.path ∨ role ≠ decision.role ∨ active ≠ decision.active ∨
      rejected ≠ decision.rejected ∨ entry ≠ decision.incomingEntry ∨
      beforeOwners ≠ decision.ownership.beforeExistingOwners ∨
      afterOwners ≠ decision.ownership.afterExistingOwners ∨
      incomingOwns ≠ decision.ownership.incomingPackageOwnsAfter)
    (codec.refusal .requestMismatch (codec.subject ++ " path differs from the immutable plan"))
  let statuses ← codec.stream.readCodes effectStatuses effectStatuses
    (codec.refusal .invalidValue (codec.subject ++ " path has an invalid effect status"))
  let before ← codec.readObservation X
  let after ← codec.readObservation X
  let rejectedObject ← codec.readOptional (codec.readIdentity .rejectedObjectRecord)
  let publication ← codec.stream.readCode publicationStatuses
    (codec.refusal .invalidValue codec.publicationMessage)
  codec.checked " path is invalid: " (build (PathConsequence.make ⟨path, role, active, rejected,
    entry, decision.ownership, statuses.1, statuses.2, before, after, rejectedObject,
    publication⟩))

end Reader

/-! ## Writers -/

section Writer

def appendOwners (owners : List InstalledPackageIdentity) : Writing :=
  appendList (codec.appendPlanning X) owners

def appendConsequence (path : PathConsequence) : Writing := do
  codec.appendPath path.path
  Stream.appendU8 (pathRoles.code path.role)
  Stream.appendU8 (activeOutcomes.code path.requestedActive)
  Stream.appendU8 (rejectedOutcomes.code path.requestedRejected)
  appendOptional Stream.appendU64 path.incomingEntry
  codec.appendOwners X path.ownership.beforeExistingOwners
  codec.appendOwners X path.ownership.afterExistingOwners
  Stream.appendFlag path.ownership.incomingPackageOwnsAfter
  Stream.appendU8 (effectStatuses.code path.activeStatus)
  Stream.appendU8 (effectStatuses.code path.rejectedStatus)
  codec.appendObservation path.before
  codec.appendObservation path.after
  appendOptional codec.appendIdentity path.rejectedObject
  Stream.appendU8 (publicationStatuses.code path.publication)

end Writer

/-! ## What is read -/

section Parses

variable {codec X maximumEntryId} {limit : Nat}

theorem parses_entry : Parses limit (codec.readEntry maximumEntryId) (.number 8)
    fun n entry => n = entry ∧ entry ≤ maximumEntryId.toNat := by
  apply Parses.iff
  · apply codec.stream.parses_u64.then
      (K := fun n entry => n = entry ∧ entry ≤ maximumEntryId.toNat)
    intro n input entry rest
    simp only [decode_bind_eq_ok, refuseWhen_eq_ok, Stream.pure_eq_ok, not_lt]
    constructor
    · rintro ⟨_, _, ⟨rfl, hle⟩, rfl, rfl⟩
      exact ⟨rfl, rfl, hle⟩
    · rintro ⟨rfl, rfl, hle⟩
      exact ⟨(), rest, ⟨rfl, hle⟩, rfl, rfl⟩
  · intro n _ entry
    exact exists_eq_left'

theorem parses_owners : Parses limit (codec.readOwners X) (listFormat .text) (ReadsOwners X) :=
  parses_list (parses_planning _)

/-- An entry that is there is in range. -/
theorem entryRel_iff {o o' : Option EntryId} :
    Option.Rel (fun n entry => n = entry ∧ entry ≤ maximumEntryId.toNat) o o' ↔
      o = o' ∧ ∀ entry, o' = some entry → entry ≤ maximumEntryId.toNat := by
  constructor
  · rintro (⟨rfl, hle⟩ | _)
    · exact ⟨rfl, fun entry hentry => Option.some.inj hentry ▸ hle⟩
    · exact ⟨rfl, fun entry hentry => (by cases hentry)⟩
  · rintro ⟨rfl, hle⟩
    cases o with
    | none => exact .none
    | some entry => exact .some ⟨rfl, hle entry rfl⟩

/-- A path and the rest of it, against a decision that is picked by the path. -/
theorem parses_consequence {pick : PackagePath → Reading PathDecision}
    {K : PackagePath → PathDecision → Prop}
    (hpick : ∀ path input d rest, pick path input = .ok (d, rest) ↔ rest = input ∧ K path d) :
    Parses codec.maximum (do
      let path ← codec.readPath X
      let decision ← pick path
      codec.readPathAfterName X maximumEntryId path decision) consequenceFormat fun s c =>
        s.Denotes X maximumEntryId c ∧ ∃ d, K c.path d ∧ c.matchesDecision d = true := by
  apply Parses.as
  · apply parses_path.bind
    intro path
    apply Parses.before (hpick path)
    intro decision
    apply (codec.stream.parses_code _ _).field
    intro role
    apply (codec.stream.parses_code _ _).field
    intro active
    apply (codec.stream.parses_code _ _).field
    intro rejected
    apply (parses_optional parses_entry).bind
    intro entry
    apply parses_owners.bind
    intro beforeOwners
    apply parses_owners.bind
    intro afterOwners
    apply codec.stream.parses_bool.field
    intro incomingOwns
    apply Parses.guard
    apply (codec.stream.parses_codes _ _ _).field
    intro statuses
    apply parses_observation.bind
    intro before
    apply parses_observation.bind
    intro after
    apply (parses_optional (parses_identity _)).bind
    intro rejectedObject
    apply (codec.stream.parses_code _ _).then
    intro publication input c rest
    exact checked_eq_ok.trans build_eq_ok
  · intro s _ c
    simp only [exists_eq_left', not_or, not_not, matchesDecision_iff]
    constructor
    · rintro ⟨path, hpath, d, hpick, entry, hentry, _, hbeforeOwners, _, hafterOwners,
        ⟨hpath', hrole, hactive, hrejected, hentry', rfl, rfl, hincoming⟩, before, hbefore, after,
        hafter, rejectedObject, hrejectedObject, hmade⟩
      obtain ⟨hentry, hle⟩ := entryRel_iff.mp hentry
      obtain rfl := consequenceMake_eq_ok hmade
      have hdenotes : s.Denotes X maximumEntryId _ :=
        { path := hpath
          role := rfl
          requestedActive := rfl
          requestedRejected := rfl
          incomingEntry := hentry
          entry_le := hle
          beforeOwners := hbeforeOwners
          afterOwners := hafterOwners
          incomingOwns := hincoming
          activeStatus := rfl
          rejectedStatus := rfl
          before := hbefore
          after := hafter
          rejectedObject := optionRel_eq_iff.mp hrejectedObject
          publication := rfl
          made := hmade }
      exact ⟨hdenotes, d, hpick, hpath', hrole, hactive, hrejected, hentry', rfl⟩
    · rintro ⟨h, d, hpick, hpath, hrole, hactive, hrejected, hentry, hownership⟩
      have howners := congrArg OwnershipTransition.beforeExistingOwners hownership
      have howners' := congrArg OwnershipTransition.afterExistingOwners hownership
      have hincoming := congrArg OwnershipTransition.incomingPackageOwnsAfter hownership
      refine ⟨c.path, h.path, d, hpick, c.incomingEntry,
        entryRel_iff.mpr ⟨h.incomingEntry, h.entry_le⟩, _, h.beforeOwners, _, h.afterOwners,
        ⟨hpath, h.role.trans hrole, h.requestedActive.trans hactive,
          h.requestedRejected.trans hrejected, hentry, howners, howners',
          h.incomingOwns.trans hincoming⟩,
        c.before, h.before, c.after, h.after, c.rejectedObject,
        optionRel_eq_iff.mpr h.rejectedObject, ?_⟩
      change PathConsequence.make ⟨c.path, s.role, s.requestedActive, s.requestedRejected,
        c.incomingEntry, d.ownership, s.activeStatus, s.rejectedStatus, c.before, c.after,
        c.rejectedObject, s.publication⟩ = .ok c
      rw [h.role, h.requestedActive, h.requestedRejected, ← hownership, h.activeStatus,
        h.rejectedStatus, h.publication]
      exact h.made

end Parses

/-! ## What is written -/

section Writes

theorem writes_owners (owners : List InstalledPackageIdentity) :
    Writes codec.maximum (codec.appendOwners X owners)
      ((listFormat .text).spell (owners.map X.planningText)) :=
  writes_list fun owner _ => writes_planning codec owner

theorem writes_consequence (path : PathConsequence) :
    Writes codec.maximum (codec.appendConsequence X path)
      (consequenceFormat.spell (spellConsequence X path)) := by
  apply (writes_path codec _).bind
  apply (Stream.writes_coded pathRoles _).bind
  apply (Stream.writes_coded activeOutcomes _).bind
  apply (Stream.writes_coded rejectedOutcomes _).bind
  apply (writes_optional_id (F := .number 8) Stream.writes_u64).bind
  apply (writes_owners codec X _).bind
  apply (writes_owners codec X _).bind
  apply (Stream.writes_flag _).bind
  apply (Stream.writes_coded effectStatuses _).pair (Stream.writes_coded effectStatuses _)
  apply (writes_observation codec _).bind
  apply (writes_observation codec _).bind
  apply (writes_optional_id (writes_identity codec)).bind
  exact Stream.writes_coded publicationStatuses _

end Writes

end RecordCodec

end PkgApply.Transport
