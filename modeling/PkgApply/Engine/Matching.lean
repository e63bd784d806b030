import PkgApply.Engine.Completion
import PkgApply.Knowledge

/-!
# Matching the result

What the final observation of a path has to show, and how its verdict answers:
a match means everything the decision constrains is known and as planned, a
mismatch is found wherever something known is not, and more knowledge changes
neither.
-/

namespace PkgApply

/-! ## Verdicts -/

namespace ResultObservationMatch

variable {a a' b b' : ResultObservationMatch}

@[simp] theorem merge_eq_mismatch : a.merge b = mismatch ↔ a = mismatch ∨ b = mismatch := by
  cases a <;> cases b <;> simp [merge]

@[simp] theorem merge_mismatch : a.merge mismatch = mismatch := by
  cases a <;> rfl

/-- A later verdict may settle an open one, and keeps a settled one. -/
def SettlesTo (a b : ResultObservationMatch) : Prop := a = indeterminate ∨ b = a

theorem SettlesTo.refl (a : ResultObservationMatch) : a.SettlesTo a := .inr rfl

/-- Merging settles where its parts do. -/
theorem SettlesTo.merge (ha : a.SettlesTo a') (hb : b.SettlesTo b') :
    (a.merge b).SettlesTo (a'.merge b') := by
  rcases ha with ha | ha
  · subst ha
    cases b with
    | mismatch =>
      have hb' : b' = mismatch := hb.resolve_left nofun
      rw [hb', merge_mismatch, merge_mismatch]
      exact .refl _
    | matched => exact .inl rfl
    | indeterminate => exact .inl rfl
  · subst ha
    rcases hb with hb | hb
    · subst hb
      cases a' with
      | mismatch => exact .inr rfl
      | matched => exact .inl rfl
      | indeterminate => exact .inl rfl
    · rw [hb]
      exact .refl _

end ResultObservationMatch

open ResultObservationMatch

/-! ## Facts -/

section Facts

variable {α : Type} [DecidableEq α] {before after after' : QualifiedFact α} {expected : α}

theorem matchExpectedFact_eq_matched :
    matchExpectedFact after expected = .matched ↔ after.Agrees expected := by
  cases after with
  | known value => by_cases h : value = expected <;> simp [matchExpectedFact, QualifiedFact.Agrees, h]
  | unknown => simp [matchExpectedFact, QualifiedFact.Agrees]
  | notApplicable => simp [matchExpectedFact, QualifiedFact.Agrees]

theorem matchExpectedFact_of_differs (h : after.Differs expected) :
    matchExpectedFact after expected = .mismatch := by
  obtain ⟨value, rfl, hvalue⟩ := h
  simp [matchExpectedFact, hvalue]

theorem matchExpectedFact_settles (h : after.Refines after') :
    (matchExpectedFact after expected).SettlesTo (matchExpectedFact after' expected) := by
  cases h with
  | same => exact .refl _
  | learned => exact .inl rfl

/-- A retained fact that matches is still known as it was. -/
theorem agrees_of_matchRetainedFact (h : matchRetainedFact before after = .matched) {v : α}
    (hv : before = .known v) : after.Agrees v := by
  subst hv
  exact matchExpectedFact_eq_matched.mp h

theorem matchRetainedFact_of_differs {v : α} (hv : before = .known v) (h : after.Differs v) :
    matchRetainedFact before after = .mismatch := by
  subst hv
  exact matchExpectedFact_of_differs h

theorem matchRetainedFact_settles (h : after.Refines after') :
    (matchRetainedFact before after).SettlesTo (matchRetainedFact before after') := by
  cases h with
  | same => exact .refl _
  | learned v =>
    cases before with
    | known => exact .inl rfl
    | unknown => exact .inr rfl
    | notApplicable => exact .inr rfl

end Facts

/-! ## Retained objects -/

section Retained

variable {before after after' : PathObservation} {b a : CompletedObjectFact}

/-- Every fact known of an object stands in a relation to what is observed now. -/
def CompletedObjectFact.EveryKnown (before after : CompletedObjectFact)
    (p : ∀ {α : Type}, QualifiedFact α → α → Prop) : Prop :=
  (∀ v, before.mode = .known v → p after.mode v) ∧ (∀ v, before.uid = .known v → p after.uid v) ∧
    (∀ v, before.gid = .known v → p after.gid v) ∧ (∀ v, before.size = .known v → p after.size v) ∧
    (∀ v, before.mtime = .known v → p after.mtime v) ∧
    (∀ v, before.regularContent = .known v → p after.regularContent v) ∧
    (∀ v, before.symlinkTarget = .known v → p after.symlinkTarget v) ∧
    (∀ v, before.device = .known v → p after.device v) ∧
    (∀ v, before.hardlink = .known v → p after.hardlink v)

/-- Some fact known of an object stands in a relation to what is observed now. -/
def CompletedObjectFact.AnyKnown (before after : CompletedObjectFact)
    (p : ∀ {α : Type}, QualifiedFact α → α → Prop) : Prop :=
  (∃ v, before.mode = .known v ∧ p after.mode v) ∨ (∃ v, before.uid = .known v ∧ p after.uid v) ∨
    (∃ v, before.gid = .known v ∧ p after.gid v) ∨ (∃ v, before.size = .known v ∧ p after.size v) ∨
    (∃ v, before.mtime = .known v ∧ p after.mtime v) ∨
    (∃ v, before.regularContent = .known v ∧ p after.regularContent v) ∨
    (∃ v, before.symlinkTarget = .known v ∧ p after.symlinkTarget v) ∨
    (∃ v, before.device = .known v ∧ p after.device v) ∨
    (∃ v, before.hardlink = .known v ∧ p after.hardlink v)

/-- The merged verdict of all facts of a retained object. -/
private def matchRetainedObject (expected observed : CompletedObjectFact) :
    ResultObservationMatch :=
  (matchRetainedFact expected.mode observed.mode)
    |>.merge (matchRetainedFact expected.uid observed.uid)
    |>.merge (matchRetainedFact expected.gid observed.gid)
    |>.merge (matchRetainedFact expected.size observed.size)
    |>.merge (matchRetainedFact expected.mtime observed.mtime)
    |>.merge (matchRetainedFact expected.regularContent observed.regularContent)
    |>.merge (matchRetainedFact expected.symlinkTarget observed.symlinkTarget)
    |>.merge (matchRetainedFact expected.device observed.device)
    |>.merge (matchRetainedFact expected.hardlink observed.hardlink)

private theorem everyKnown_of_matched (h : matchRetainedObject b a = .matched) :
    b.EveryKnown a fun f v => f.Agrees v := by
  simp only [matchRetainedObject, merge_eq_matched] at h
  obtain ⟨⟨⟨⟨⟨⟨⟨⟨hmode, huid⟩, hgid⟩, hsize⟩, hmtime⟩, hcontent⟩, htarget⟩, hdevice⟩, hhardlink⟩ := h
  exact ⟨fun _ => agrees_of_matchRetainedFact hmode, fun _ => agrees_of_matchRetainedFact huid,
    fun _ => agrees_of_matchRetainedFact hgid, fun _ => agrees_of_matchRetainedFact hsize,
    fun _ => agrees_of_matchRetainedFact hmtime, fun _ => agrees_of_matchRetainedFact hcontent,
    fun _ => agrees_of_matchRetainedFact htarget, fun _ => agrees_of_matchRetainedFact hdevice,
    fun _ => agrees_of_matchRetainedFact hhardlink⟩

private theorem mismatch_of_anyKnown (h : b.AnyKnown a fun f v => f.Differs v) :
    matchRetainedObject b a = .mismatch := by
  simp only [matchRetainedObject, merge_eq_mismatch, or_assoc]
  rcases h with ⟨v, hv, h⟩ | ⟨v, hv, h⟩ | ⟨v, hv, h⟩ | ⟨v, hv, h⟩ | ⟨v, hv, h⟩ | ⟨v, hv, h⟩ |
    ⟨v, hv, h⟩ | ⟨v, hv, h⟩ | ⟨v, hv, h⟩ <;>
    simp [matchRetainedFact_of_differs hv h]

private theorem matchRetainedObject_settles {a' : CompletedObjectFact} (h : a.Refines a') :
    (matchRetainedObject b a).SettlesTo (matchRetainedObject b a') :=
  ((((((((matchRetainedFact_settles h.mode).merge (matchRetainedFact_settles h.uid)).merge
    (matchRetainedFact_settles h.gid)).merge (matchRetainedFact_settles h.size)).merge
    (matchRetainedFact_settles h.mtime)).merge (matchRetainedFact_settles h.regularContent)).merge
    (matchRetainedFact_settles h.symlinkTarget)).merge (matchRetainedFact_settles h.device)).merge
    (matchRetainedFact_settles h.hardlink)

end Retained

/-! ## Incoming objects -/

section Incoming

variable {entry : PackageEntry} {object object' : CompletedObjectFact}

/-- Every attribute the entry's type gives it stands in a relation to what is
observed. -/
def PackageEntry.Every (entry : PackageEntry) (object : CompletedObjectFact)
    (p : ∀ {α : Type}, QualifiedFact α → α → Prop) : Prop :=
  p object.mode entry.mode ∧ p object.uid entry.uid ∧ p object.gid entry.gid ∧
    p object.mtime entry.mtime ∧
    match entry.type with
    | .regular => p object.size entry.size ∧
        ∀ v, entry.regularContent = some v → p object.regularContent v
    | .directory | .fifo => True
    | .symlink => ∀ v, entry.symlinkTarget = some v → p object.symlinkTarget v
    | .hardlink => ∀ v, entry.hardlinkTarget = some v → p object.hardlink v
    | .characterDevice | .blockDevice => ∀ v, entry.device = some v → p object.device v

/-- Some attribute the entry's type gives it stands in a relation to what is
observed. -/
def PackageEntry.Any (entry : PackageEntry) (object : CompletedObjectFact)
    (p : ∀ {α : Type}, QualifiedFact α → α → Prop) : Prop :=
  p object.mode entry.mode ∨ p object.uid entry.uid ∨ p object.gid entry.gid ∨
    p object.mtime entry.mtime ∨
    match entry.type with
    | .regular => p object.size entry.size ∨
        ∃ v, entry.regularContent = some v ∧ p object.regularContent v
    | .directory | .fifo => False
    | .symlink => ∃ v, entry.symlinkTarget = some v ∧ p object.symlinkTarget v
    | .hardlink => ∃ v, entry.hardlinkTarget = some v ∧ p object.hardlink v
    | .characterDevice | .blockDevice => ∃ v, entry.device = some v ∧ p object.device v

/-- The verdict on the attributes every entry has. -/
private def matchEntryCommon (entry : PackageEntry) (object : CompletedObjectFact) :
    ResultObservationMatch :=
  (ResultObservationMatch.matched.merge (matchExpectedFact object.mode entry.mode))
    |>.merge (matchExpectedFact object.uid entry.uid)
    |>.merge (matchExpectedFact object.gid entry.gid)
    |>.merge (matchExpectedFact object.mtime entry.mtime)

/-- The verdict on the attributes an entry's type adds. -/
private def matchEntryAdded (entry : PackageEntry) (object : CompletedObjectFact) :
    ResultObservationMatch :=
  match entry.type with
  | .regular => (matchExpectedFact object.size entry.size).merge <|
      (entry.regularContent.map (matchExpectedFact object.regularContent)).getD .matched
  | .directory | .fifo => .matched
  | .symlink => (entry.symlinkTarget.map (matchExpectedFact object.symlinkTarget)).getD .matched
  | .hardlink => (entry.hardlinkTarget.map (matchExpectedFact object.hardlink)).getD .matched
  | .characterDevice | .blockDevice =>
    (entry.device.map (matchExpectedFact object.device)).getD .matched

private theorem merge_matched {a : ResultObservationMatch} : a.merge .matched = a := by
  cases a <;> rfl

private theorem merge_assoc {a b c : ResultObservationMatch} :
    (a.merge b).merge c = a.merge (b.merge c) := by
  cases a <;> cases b <;> cases c <;> rfl

/-- The type's attributes are merged in, whatever was found before. -/
private theorem matchEntryType_eq (found : ResultObservationMatch) :
    matchEntryType entry object found = .ok (found.merge (matchEntryAdded entry object)) := by
  unfold matchEntryType matchEntryAdded
  cases htype : entry.type with
  | regular =>
    obtain ⟨content, hcontent⟩ := Option.isSome_iff_exists.mp (entry.has_content htype)
    simp [matchEntryAttribute, hcontent, merge_assoc]
  | directory => simp [merge_matched]
  | fifo => simp [merge_matched]
  | symlink =>
    obtain ⟨target, htarget⟩ := Option.isSome_iff_exists.mp (entry.has_target htype)
    simp [matchEntryAttribute, htarget]
  | hardlink =>
    obtain ⟨anchor, hanchor⟩ := Option.isSome_iff_exists.mp (entry.has_anchor htype)
    simp only [hanchor]
    cases object.hardlink with
    | known observed => simp [matchExpectedFact]
    | unknown => simp [matchExpectedFact]
    | notApplicable => simp [matchExpectedFact]
  | characterDevice | blockDevice =>
    obtain ⟨device, hdevice⟩ := Option.isSome_iff_exists.mp (entry.has_device (by rw [htype]; rfl))
    simp [matchEntryAttribute, hdevice]

private theorem option_matched {α : Type} [DecidableEq α] {observed : QualifiedFact α}
    {expected : Option α} :
    (expected.map (matchExpectedFact observed)).getD .matched = .matched ↔
      ∀ v, expected = some v → observed.Agrees v := by
  cases expected with
  | none => simp
  | some v => simp [matchExpectedFact_eq_matched]

private theorem option_of_differs {α : Type} [DecidableEq α] {observed : QualifiedFact α}
    {expected : Option α} (h : ∃ v, expected = some v ∧ observed.Differs v) :
    (expected.map (matchExpectedFact observed)).getD .matched = .mismatch := by
  obtain ⟨v, rfl, h⟩ := h
  exact matchExpectedFact_of_differs h

private theorem option_settles {α : Type} [DecidableEq α] {observed observed' : QualifiedFact α}
    {expected : Option α} (h : observed.Refines observed') :
    ((expected.map (matchExpectedFact observed)).getD .matched).SettlesTo
      ((expected.map (matchExpectedFact observed')).getD .matched) := by
  cases expected with
  | none => exact .refl _
  | some v => exact matchExpectedFact_settles h

private theorem every_of_matched
    (h : (matchEntryCommon entry object).merge (matchEntryAdded entry object) = .matched) :
    entry.Every object fun f v => f.Agrees v := by
  unfold matchEntryCommon at h
  simp only [merge_eq_matched, matchExpectedFact_eq_matched, true_and] at h
  obtain ⟨⟨⟨⟨hmode, huid⟩, hgid⟩, hmtime⟩, hadded⟩ := h
  refine ⟨hmode, huid, hgid, hmtime, ?_⟩
  unfold matchEntryAdded at hadded
  cases htype : entry.type with
  | regular => simpa [htype, matchExpectedFact_eq_matched, option_matched] using hadded
  | directory | fifo => trivial
  | symlink | hardlink | characterDevice | blockDevice =>
    simpa [htype, option_matched] using hadded

private theorem mismatch_of_any (h : entry.Any object fun f v => f.Differs v) :
    (matchEntryCommon entry object).merge (matchEntryAdded entry object) = .mismatch := by
  unfold matchEntryCommon
  simp only [merge_eq_mismatch]
  rcases h with h | h | h | h | h
  · simp [matchExpectedFact_of_differs h]
  · simp [matchExpectedFact_of_differs h]
  · simp [matchExpectedFact_of_differs h]
  · simp [matchExpectedFact_of_differs h]
  · refine .inr ?_
    unfold matchEntryAdded
    cases htype : entry.type with
    | regular =>
      rw [htype] at h
      rcases h with h | h
      · simp [matchExpectedFact_of_differs h]
      · simp only [option_of_differs h, merge_mismatch]
    | directory | fifo => simp [htype] at h
    | symlink | hardlink | characterDevice | blockDevice =>
      rw [htype] at h
      exact option_of_differs h

private theorem matchEntry_settles (h : object.Refines object') :
    ((matchEntryCommon entry object).merge (matchEntryAdded entry object)).SettlesTo
      ((matchEntryCommon entry object').merge (matchEntryAdded entry object')) := by
  refine SettlesTo.merge ?_ ?_
  · exact ((((SettlesTo.refl _).merge (matchExpectedFact_settles h.mode)).merge
      (matchExpectedFact_settles h.uid)).merge (matchExpectedFact_settles h.gid)).merge
      (matchExpectedFact_settles h.mtime)
  · unfold matchEntryAdded
    cases entry.type with
    | regular => exact (matchExpectedFact_settles h.size).merge (option_settles h.regularContent)
    | directory | fifo => exact .refl _
    | symlink => exact option_settles h.symlinkTarget
    | hardlink => exact option_settles h.hardlink
    | characterDevice | blockDevice => exact option_settles h.device

end Incoming

/-! ## The verdict on a path -/

/-- What a decision wants to see of its path in the end. -/
inductive Expectation where
  | entry (entry : PackageEntry)
  | retained (before : PathObservation)
  | absent

namespace Expectation

variable {expected : Expectation} {after after' : PathObservation} {v : ResultObservationMatch}

/-- Presence is as planned, and every fact constrained is known and equal. -/
def Shown (after : PathObservation) : Expectation → Prop
  | entry e => ∃ object, after = .present object ∧ object.path = e.path ∧
      object.kind = completedKind e.type ∧ e.Every object fun f v => f.Agrees v
  | retained before => (∃ p q, before = .absent p ∧ after = .absent q) ∨
      ∃ b a, before = .present b ∧ after = .present a ∧ a.kind = b.kind ∧
        b.EveryKnown a fun f v => f.Agrees v
  | absent => ∃ p, after = .absent p

/-- Presence, the kind or some fact constrained is known and different. -/
def Contradicted (after : PathObservation) : Expectation → Prop
  | entry e => (∃ p, after = .absent p) ∨ ∃ object, after = .present object ∧
      (object.path ≠ e.path ∨ object.kind ≠ completedKind e.type ∨
        e.Any object fun f v => f.Differs v)
  | retained before => (∃ p a, before = .absent p ∧ after = .present a) ∨
      (∃ b q, before = .present b ∧ after = .absent q) ∨
      ∃ b a, before = .present b ∧ after = .present a ∧
        (a.kind ≠ b.kind ∨ b.AnyKnown a fun f v => f.Differs v)
  | absent => ∃ object, after = .present object

/-- The observation is of the right path, and made by the application. -/
def Comparable (after : PathObservation) : Expectation → Prop
  | entry _ => ∀ object, after = .present object → object.provenance = .applicationObservation
  | retained before => before.path = after.path ∧ ∀ b a, before = .present b →
      after = .present a → a.provenance = .applicationObservation
  | absent => True

/-- The verdict on an established observation. -/
private def verdict (after : PathObservation) : Expectation → Except Exn ResultObservationMatch
  | entry e => matchIncomingEntry after e
  | retained before => matchRetainedObservation before after
  | absent => .ok (matchAbsent after)

private theorem matchIncomingEntry_present {object : CompletedObjectFact} {e : PackageEntry} :
    matchIncomingEntry (.present object) e =
      if object.provenance ≠ .applicationObservation then .error provenanceError
      else if object.path ≠ e.path ∨ object.kind ≠ completedKind e.type then .ok .mismatch
      else .ok ((matchEntryCommon e object).merge (matchEntryAdded e object)) := by
  simp only [matchIncomingEntry, matchEntryType_eq]
  rfl

private theorem matchRetainedObservation_present {b a : CompletedObjectFact} :
    matchRetainedObservation (.present b) (.present a) =
      if b.path ≠ a.path then .error (.logicError "result observation changed logical path")
      else if a.provenance ≠ .applicationObservation then .error provenanceError
      else if b.path ≠ a.path ∨ b.kind ≠ a.kind then .ok .mismatch
      else .ok (matchRetainedObject b a) := rfl

/-- A verdict given whatever was found. -/
private theorem guarded_ne_ok {p : Prop} [Decidable p] {e : Exn} {v w : ResultObservationMatch}
    (hne : v ≠ w) : (if p then .error e else .ok v : Except Exn ResultObservationMatch) ≠ .ok w := by
  intro h
  split at h
  · cases h
  · exact hne (Except.ok.inj h)

/-- A match shows what is expected. -/
private theorem shown_of_matched (h : expected.verdict after = .ok .matched) :
    expected.Shown after := by
  cases expected with
  | entry e =>
    cases after with
    | present object =>
      rw [verdict, matchIncomingEntry_present] at h
      split at h
      · cases h
      split at h
      · cases h
      rename_i hsame
      obtain ⟨hpath, hkind⟩ := not_or.mp hsame
      exact ⟨object, rfl, not_not.mp hpath, not_not.mp hkind, every_of_matched (Except.ok.inj h)⟩
    | absent => cases h
    | unknown => cases h
  | retained before =>
    cases after with
    | present a =>
      cases before with
      | present b =>
        rw [verdict, matchRetainedObservation_present] at h
        split at h
        · cases h
        split at h
        · cases h
        split at h
        · cases h
        rename_i hsame
        have hkind := not_not.mp (not_or.mp hsame).2
        exact .inr ⟨b, a, rfl, rfl, hkind.symm, everyKnown_of_matched (Except.ok.inj h)⟩
      | absent => exact absurd h (guarded_ne_ok nofun)
      | unknown => exact absurd h (guarded_ne_ok nofun)
    | absent q =>
      cases before with
      | present b => exact absurd h (guarded_ne_ok nofun)
      | absent p => exact .inl ⟨p, q, rfl, rfl⟩
      | unknown => exact absurd h (guarded_ne_ok nofun)
    | unknown => exact absurd h (guarded_ne_ok nofun)
  | absent =>
    cases after with
    | absent p => exact ⟨p, rfl⟩
    | present object => simp [verdict, matchAbsent, PathObservation.state] at h
    | unknown => simp [verdict, matchAbsent, PathObservation.state] at h

/-- What is contradicted is a mismatch. -/
private theorem mismatch_of_contradicted (h : expected.verdict after = .ok v)
    (hcontra : expected.Contradicted after) : v = .mismatch := by
  cases expected with
  | entry e =>
    rcases hcontra with ⟨p, rfl⟩ | ⟨object, rfl, hcontra⟩
    · exact (Except.ok.inj h).symm
    · rw [verdict, matchIncomingEntry_present] at h
      split at h
      · cases h
      split at h
      · exact (Except.ok.inj h).symm
      rename_i hsame
      obtain ⟨hpath, hkind⟩ := not_or.mp hsame
      rcases hcontra with hcontra | hcontra | hcontra
      · exact absurd hcontra hpath
      · exact absurd hcontra hkind
      · rw [← Except.ok.inj h]
        exact mismatch_of_any hcontra
  | retained before =>
    rcases hcontra with ⟨p, a, rfl, rfl⟩ | ⟨b, q, rfl, rfl⟩ | ⟨b, a, rfl, rfl, hcontra⟩
    · simp only [verdict, matchRetainedObservation] at h
      split at h
      · cases h
      · exact (Except.ok.inj h).symm
    · simp only [verdict, matchRetainedObservation] at h
      split at h
      · cases h
      · exact (Except.ok.inj h).symm
    · rw [verdict, matchRetainedObservation_present] at h
      split at h
      · cases h
      split at h
      · cases h
      split at h
      · exact (Except.ok.inj h).symm
      rename_i hsame
      rcases hcontra with hcontra | hcontra
      · exact absurd (not_not.mp (not_or.mp hsame).2).symm hcontra
      · rw [← Except.ok.inj h]
        exact mismatch_of_anyKnown hcontra
  | absent =>
    obtain ⟨object, rfl⟩ := hcontra
    exact (Except.ok.inj h).symm

/-- Learning more about the path settles the verdict. -/
private theorem verdict_settles (h : expected.verdict after = .ok v) (hafter : after.state ≠ .unknown)
    (hrefines : after.Refines after') : ∃ v', expected.verdict after' = .ok v' ∧ v.SettlesTo v' := by
  cases hrefines with
  | absent path => exact ⟨v, h, .refl _⟩
  | unknown => exact absurd rfl hafter
  | @present a a' hmore =>
    cases expected with
    | entry e =>
      rw [verdict, matchIncomingEntry_present] at h ⊢
      rw [hmore.provenance, hmore.path, hmore.kind]
      by_cases hprovenance : a.provenance ≠ .applicationObservation
      · rw [if_pos hprovenance] at h
        cases h
      rw [if_neg hprovenance] at h ⊢
      by_cases hsame : a.path ≠ e.path ∨ a.kind ≠ completedKind e.type
      · rw [if_pos hsame] at h ⊢
        exact ⟨v, h, .refl _⟩
      · rw [if_neg hsame] at h ⊢
        exact ⟨_, rfl, Except.ok.inj h ▸ matchEntry_settles hmore⟩
    | retained before =>
      cases before with
      | present b =>
        rw [verdict, matchRetainedObservation_present] at h ⊢
        rw [hmore.provenance, hmore.path, hmore.kind]
        by_cases hpath : b.path ≠ a.path
        · rw [if_pos hpath] at h
          cases h
        rw [if_neg hpath] at h ⊢
        by_cases hprovenance : a.provenance ≠ .applicationObservation
        · rw [if_pos hprovenance] at h
          cases h
        rw [if_neg hprovenance] at h ⊢
        by_cases hsame : b.path ≠ a.path ∨ b.kind ≠ a.kind
        · rw [if_pos hsame] at h ⊢
          exact ⟨v, h, .refl _⟩
        · rw [if_neg hsame] at h ⊢
          exact ⟨_, rfl, Except.ok.inj h ▸ matchRetainedObject_settles hmore⟩
      | absent p =>
        refine ⟨v, ?_, .refl _⟩
        rw [← h]
        simp only [verdict, matchRetainedObservation, PathObservation.path, hmore.path]
        rfl
      | unknown p =>
        refine ⟨v, ?_, .refl _⟩
        rw [← h]
        simp only [verdict, matchRetainedObservation, PathObservation.path, hmore.path]
        rfl
    | absent => exact ⟨v, h, .refl _⟩

/-- A verdict is given exactly on a comparable observation. -/
private theorem verdict_ok_iff (hafter : after.state ≠ .unknown) :
    (∃ v, expected.verdict after = .ok v) ↔ expected.Comparable after := by
  cases expected with
  | entry e =>
    cases after with
    | present object =>
      rw [verdict, matchIncomingEntry_present]
      constructor
      · rintro ⟨v, h⟩ object' hobject'
        cases hobject'
        by_contra hprovenance
        rw [if_pos hprovenance] at h
        cases h
      · intro h
        rw [if_neg (not_not.mpr (h object rfl))]
        split
        · exact ⟨_, rfl⟩
        · exact ⟨_, rfl⟩
    | absent => exact ⟨fun _ object hobject => (by cases hobject), fun _ => ⟨_, rfl⟩⟩
    | unknown => exact absurd rfl hafter
  | retained before =>
    by_cases hpath : before.path = after.path
    · cases after with
      | present a =>
        cases before with
        | present b =>
          have hsame : b.path = a.path := hpath
          rw [verdict, matchRetainedObservation_present, if_neg (not_not.mpr hsame)]
          constructor
          · rintro ⟨v, h⟩
            refine ⟨hpath, fun b' a' hb' ha' => ?_⟩
            cases ha'
            by_contra hprovenance
            rw [if_pos hprovenance] at h
            cases h
          · intro h
            rw [if_neg (not_not.mpr (h.2 b a rfl rfl))]
            split
            · exact ⟨_, rfl⟩
            · exact ⟨_, rfl⟩
        | absent p =>
          refine ⟨fun _ => ⟨hpath, fun b a' hb _ => (by cases hb)⟩, fun _ => ⟨.mismatch, ?_⟩⟩
          unfold verdict matchRetainedObservation
          dsimp only
          rw [if_neg (not_not.mpr hpath)]
        | unknown p =>
          refine ⟨fun _ => ⟨hpath, fun b a' hb _ => (by cases hb)⟩, fun _ => ⟨.indeterminate, ?_⟩⟩
          unfold verdict matchRetainedObservation
          dsimp only
          rw [if_neg (not_not.mpr hpath)]
      | absent q =>
        refine ⟨fun _ => ⟨hpath, fun b a' _ ha' => (by cases ha')⟩, fun _ => ?_⟩
        unfold verdict matchRetainedObservation
        dsimp only
        rw [if_neg (not_not.mpr hpath)]
        cases before with
        | present b => exact ⟨.mismatch, rfl⟩
        | absent p => exact ⟨.matched, rfl⟩
        | unknown p => exact ⟨.indeterminate, rfl⟩
      | unknown => exact absurd rfl hafter
    · constructor
      · rintro ⟨v, h⟩
        unfold verdict matchRetainedObservation at h
        dsimp only at h
        rw [if_pos hpath] at h
        cases h
      · exact fun h => absurd h.1 hpath
  | absent => exact ⟨fun _ => trivial, fun _ => ⟨_, rfl⟩⟩

end Expectation

/-- What a decision expects, if its image entry and its effect are there. -/
def expectation (effects : List ActiveEffectResult) (d : PathDecision) (before : PathObservation)
    (image : Option PackageImage) : Option Expectation :=
  match d.active with
  | .activateIncoming =>
    match image, d.incomingEntry with
    | some image, some id => (image.entry id).map .entry
    | _, _ => none
  | .retainObserved => some (.retained before)
  | .removeObserved | .remainAbsent => some .absent
  | .removeDirectoryIfEmpty =>
    (findActiveEffect effects d.path).map fun effect =>
      if effect.result.outcome = .conditionalRetained then .retained before else .absent

section Result

variable {effects : List ActiveEffectResult} {d : PathDecision} {before after : PathObservation}
  {image : Option PackageImage} {v : ResultObservationMatch}

/-- An established observation is answered by what is expected. -/
private theorem matchResultObservation_eq_ok (hafter : after.state ≠ .unknown) :
    matchResultObservation effects d before after image = .ok v ↔
      ∃ expected, expectation effects d before image = some expected ∧
        expected.verdict after = .ok v := by
  unfold matchResultObservation expectation
  rw [if_neg hafter]
  cases d.active with
  | activateIncoming =>
    simp only [activatedEntry]
    cases image with
    | none => simp [bind, Except.bind]
    | some image =>
      cases d.incomingEntry with
      | none => simp [bind, Except.bind]
      | some id =>
        cases hentry : image.entry id with
        | none => simp [hentry, bind, Except.bind]
        | some entry => simp [hentry, bind, Except.bind, Expectation.verdict]
  | retainObserved => simp [Expectation.verdict]
  | removeObserved | remainAbsent => simp [Expectation.verdict]
  | removeDirectoryIfEmpty =>
    cases findActiveEffect effects d.path with
    | none => simp
    | some effect =>
      by_cases hretained : effect.result.outcome = .conditionalRetained
      · simp [hretained, Expectation.verdict]
      · simp [hretained, Expectation.verdict]

/-- Matching answers every comparable observation.  A match shows presence as
planned and every fact the decision constrains, known and equal; whatever is
known and different is a mismatch, whatever else is unknown; and learning the
unknown facts changes neither verdict. -/
theorem matchResultObservation_stable (effects : List ActiveEffectResult) (d : PathDecision)
    (before after : PathObservation) (image : Option PackageImage) :
    ((∃ v, matchResultObservation effects d before after image = .ok v) ↔
      after.state = .unknown ∨ ∃ expected, expectation effects d before image = some expected ∧
        expected.Comparable after) ∧
    (matchResultObservation effects d before after image = .ok .matched →
      ∃ expected, expectation effects d before image = some expected ∧ expected.Shown after) ∧
    (∀ expected, expectation effects d before image = some expected →
      expected.Comparable after → expected.Contradicted after →
        matchResultObservation effects d before after image = .ok .mismatch) ∧
    ∀ after', after.Refines after' → ∀ v, v = .mismatch ∨ v = .matched →
      matchResultObservation effects d before after image = .ok v →
        matchResultObservation effects d before after' image = .ok v := by
  by_cases hafter : after.state = .unknown
  · have hopen : matchResultObservation effects d before after image = .ok .indeterminate :=
      if_pos hafter
    refine ⟨⟨fun _ => .inl hafter, fun _ => ⟨_, hopen⟩⟩, fun h => ?_, ?_, ?_⟩
    · rw [hopen] at h
      cases h
    · intro expected _ _ hcontra
      obtain ⟨path, rfl⟩ := (PathObservation.state_eq_unknown_iff _).mp hafter
      cases expected with
      | entry e =>
        rcases hcontra with ⟨p, h⟩ | ⟨object, h, -⟩
        · cases h
        · cases h
      | retained before =>
        rcases hcontra with ⟨p, a, -, h⟩ | ⟨b, q, -, h⟩ | ⟨b, a, -, h, -⟩
        · cases h
        · cases h
        · cases h
      | absent =>
        obtain ⟨object, h⟩ := hcontra
        cases h
    · intro after' _ v hv h
      rw [hopen] at h
      cases h
      rcases hv with hv | hv
      · cases hv
      · cases hv
  · refine ⟨?_, fun h => ?_, fun expected hexpected hcomparable hcontra => ?_, ?_⟩
    · rw [or_iff_right hafter]
      constructor
      · rintro ⟨v, h⟩
        obtain ⟨expected, hexpected, hverdict⟩ := (matchResultObservation_eq_ok hafter).mp h
        exact ⟨expected, hexpected, (Expectation.verdict_ok_iff hafter).mp ⟨v, hverdict⟩⟩
      · rintro ⟨expected, hexpected, hcomparable⟩
        obtain ⟨v, hverdict⟩ := (Expectation.verdict_ok_iff hafter).mpr hcomparable
        exact ⟨v, (matchResultObservation_eq_ok hafter).mpr ⟨expected, hexpected, hverdict⟩⟩
    · obtain ⟨expected, hexpected, hverdict⟩ := (matchResultObservation_eq_ok hafter).mp h
      exact ⟨expected, hexpected, Expectation.shown_of_matched hverdict⟩
    · obtain ⟨v, hverdict⟩ := (Expectation.verdict_ok_iff hafter).mpr hcomparable
      rw [Expectation.mismatch_of_contradicted hverdict hcontra] at hverdict
      exact (matchResultObservation_eq_ok hafter).mpr ⟨expected, hexpected, hverdict⟩
    · intro after' hrefines v hv h
      obtain ⟨expected, hexpected, hverdict⟩ := (matchResultObservation_eq_ok hafter).mp h
      obtain ⟨v', hverdict', hsettles⟩ := Expectation.verdict_settles hverdict hafter hrefines
      have hafter' : after'.state ≠ .unknown := by
        cases hrefines with
        | present => nofun
        | absent => nofun
        | unknown => exact absurd rfl hafter
      have hsame : v' = v := by
        rcases hsettles with hopen | hsame
        · rcases hv with hv | hv
          · rw [hv] at hopen
            cases hopen
          · rw [hv] at hopen
            cases hopen
        · exact hsame
      exact (matchResultObservation_eq_ok hafter').mpr ⟨expected, hexpected, hsame ▸ hverdict'⟩

end Result

end PkgApply
