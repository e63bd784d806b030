import PkgApply.Library.Keyed
import PkgApply.Transport.JournalRoundTrip

/-!
# Well-formed journal records

What the whole-record constructor demands, said without its progress table:
each effect has no event, its intent, or its intent and then one terminal
event.  The replay that checks this is one automaton for each effect.
-/

namespace PkgApply

open Library Transport

namespace EffectProgress

/-- Progress of one effect after one more of its events, where it may follow. -/
def next (p : EffectProgress) (kind : EventKind) : Option EffectProgress :=
  if kind = .intent then
    if p.intended ∨ p.terminal.isSome then none else some { p with intended := true }
  else if !p.intended then none
  else if p.terminal.isSome then none
  else some { p with terminal := some kind }

/-- The kinds of event that lead to this progress. -/
def course : EffectProgress → List EventKind
  | ⟨false, _⟩ => []
  | ⟨true, none⟩ => [.intent]
  | ⟨true, some kind⟩ => [.intent, kind]

end EffectProgress

/-- No event, the intent, or the intent and one terminal event. -/
def ValidCourse (kinds : List EventKind) : Prop :=
  kinds = [] ∨ kinds = [.intent] ∨ ∃ kind, kind ≠ .intent ∧ kinds = [.intent, kind]

section Courses

variable {p p' : EffectProgress} {kind : EventKind} {kinds : List EventKind}

theorem EffectProgress.next_eq_some : p.next kind = some p' ↔
    (kind = .intent ∧ p.intended = false ∧ p.terminal = none ∧ p' = ⟨true, none⟩) ∨
      (kind ≠ .intent ∧ p.intended = true ∧ p.terminal = none ∧ p' = ⟨true, some kind⟩) := by
  obtain ⟨intended, terminal⟩ := p
  cases kind <;> cases intended <;> cases terminal <;> simp [next, eq_comm]

/-- Nothing follows a terminal event. -/
theorem EffectProgress.foldlM_next_ended {ended : EventKind} :
    kinds.foldlM next ⟨true, some ended⟩ = some p' ↔ kinds = [] ∧ p' = ⟨true, some ended⟩ := by
  cases kinds with
  | nil => simp [eq_comm]
  | cons kind kinds => simp [List.foldlM_cons, Option.bind_eq_some_iff, next_eq_some]

/-- An intent is followed by nothing, or by one terminal event. -/
theorem EffectProgress.foldlM_next_intended : kinds.foldlM next ⟨true, none⟩ = some p' ↔
    (kinds = [] ∧ p' = ⟨true, none⟩) ∨
      ∃ kind, kind ≠ .intent ∧ kinds = [kind] ∧ p' = ⟨true, some kind⟩ := by
  cases kinds with
  | nil => simp [eq_comm]
  | cons kind kinds =>
    rw [List.foldlM_cons, Option.bind_eq_bind, Option.bind_eq_some_iff]
    constructor
    · rintro ⟨q, hq, hrest⟩
      obtain ⟨-, hintended, -⟩ | ⟨hkind, -, -, rfl⟩ := next_eq_some.mp hq
      · simp at hintended
      · obtain ⟨rfl, rfl⟩ := foldlM_next_ended.mp hrest
        exact .inr ⟨kind, hkind, rfl, rfl⟩
    · rintro (⟨hnil, -⟩ | ⟨kind', hkind, hcons, rfl⟩)
      · cases hnil
      · cases hcons
        exact ⟨_, next_eq_some.mpr (.inr ⟨hkind, rfl, rfl, rfl⟩), foldlM_next_ended.mpr ⟨rfl, rfl⟩⟩

/-- From the start an effect runs through the valid courses, and its progress
tells which. -/
theorem EffectProgress.foldlM_next : kinds.foldlM next .untouched = some p' ↔
    ValidCourse kinds ∧ kinds = p'.course ∧ (p'.intended = false → p'.terminal = none) := by
  cases kinds with
  | nil =>
    obtain ⟨intended, terminal⟩ := p'
    cases intended <;> cases terminal <;> simp [ValidCourse, untouched, course]
  | cons kind kinds =>
    rw [List.foldlM_cons, Option.bind_eq_bind, Option.bind_eq_some_iff]
    constructor
    · rintro ⟨q, hq, hrest⟩
      obtain ⟨rfl, -, -, rfl⟩ | ⟨-, hintended, -⟩ := next_eq_some.mp hq
      · obtain ⟨rfl, rfl⟩ | ⟨kind', hkind', rfl, rfl⟩ := foldlM_next_intended.mp hrest
        · exact ⟨.inr (.inl rfl), rfl, by simp⟩
        · exact ⟨.inr (.inr ⟨kind', hkind', rfl⟩), rfl, by simp⟩
      · simp [untouched] at hintended
    · rintro ⟨hvalid, hcourse, -⟩
      have hfirst : untouched.next .intent = some ⟨true, none⟩ := rfl
      obtain hnil | hone | ⟨kind', hkind', htwo⟩ := hvalid
      · cases hnil
      · cases hone
        obtain ⟨_ | _, _ | terminal⟩ := p' <;> cases hcourse
        exact ⟨_, hfirst, foldlM_next_intended.mpr (.inl ⟨rfl, rfl⟩)⟩
      · cases htwo
        obtain ⟨_ | _, _ | terminal⟩ := p' <;> cases hcourse
        exact ⟨_, hfirst, foldlM_next_intended.mpr (.inr ⟨_, hkind', rfl, rfl⟩)⟩

theorem EffectProgress.exists_foldlM_next :
    (∃ p, kinds.foldlM next .untouched = some p) ↔ ValidCourse kinds := by
  constructor
  · rintro ⟨p, hp⟩
    exact (foldlM_next.mp hp).1
  · rintro (rfl | rfl | ⟨kind, hkind, rfl⟩)
    · exact ⟨.untouched, rfl⟩
    · exact ⟨⟨true, none⟩, rfl⟩
    · exact ⟨⟨true, some kind⟩, foldlM_next.mpr ⟨.inr (.inr ⟨kind, hkind, rfl⟩), rfl, by simp⟩⟩

end Courses

namespace Transport

namespace Snapshot

/-! ## Progress by identity -/

abbrev EffectIdentity : Type := TypedDigest .applicationJournalEffect

/-- The progress a table keeps for an identity. -/
def progressAt (identities : List EffectIdentity) (progress : List EffectProgress)
    (identity : EffectIdentity) : EffectProgress :=
  match identities.idxOf? identity with
  | none => .untouched
  | some ordinal => progress.getD ordinal .untouched

/-- One event, for the effect it cites. -/
def advance : (EffectIdentity → EffectProgress) → Event → Option (EffectIdentity → EffectProgress) :=
  stepAt (fun p event => p.next event.kind) Event.effect

section Table

variable {identities : List EffectIdentity} {progress progress' : List EffectProgress}
  {identity : EffectIdentity} {ordinal index : Nat} {p : EffectProgress} {event : Event}
  {events : List Event}

theorem progressAt_of_idxOf (h : identities.idxOf? identity = some ordinal) :
    progressAt identities progress identity = progress.getD ordinal .untouched := by
  rw [progressAt, h]

theorem progressAt_replicate {count : Nat} :
    progressAt identities (List.replicate count .untouched) = fun _ => .untouched := by
  funext identity
  unfold progressAt
  split
  · rfl
  · rw [List.getD_eq_getElem?_getD, List.getElem?_replicate]
    split <;> rfl

/-- Setting an entry of the table changes the progress of its identity alone. -/
theorem progressAt_set (hlength : progress.length = identities.length)
    (hfound : identities.idxOf? identity = some ordinal) :
    progressAt identities (progress.set ordinal p) =
      Function.update (progressAt identities progress) identity p := by
  obtain ⟨hlt, hidentity, -⟩ := List.idxOf?_eq_some_iff.mp hfound
  have hbound : ordinal < progress.length := hlength ▸ hlt
  funext other
  by_cases hother : other = identity
  · subst hother
    rw [progressAt_of_idxOf hfound, Function.update_self]
    simp [hbound]
  · rw [Function.update_of_ne hother]
    unfold progressAt
    split
    · rfl
    · rename_i ordinal' hfound'
      obtain ⟨hlt', hidentity', -⟩ := List.idxOf?_eq_some_iff.mp hfound'
      have hne : ordinal ≠ ordinal' := by
        intro heq
        subst heq
        exact hother (hidentity'.symm.trans hidentity)
      simp [List.getElem?_set_ne hne]

/-- Tables of one length that agree on every identity are one table. -/
theorem progressAt_injective (hnodup : identities.Nodup)
    (hlength : progress.length = identities.length) (hlength' : progress'.length = identities.length)
    (h : progressAt identities progress = progressAt identities progress') :
    progress = progress' := by
  apply List.ext_getElem (hlength.trans hlength'.symm)
  intro i hi hi'
  have hlt : i < identities.length := hlength ▸ hi
  have hfound : identities.idxOf? identities[i] = some i := by
    rw [List.idxOf?_eq_some_iff]
    refine ⟨hlt, rfl, ?_⟩
    intro j hj heq
    exact absurd ((hnodup.getElem_inj_iff).mp heq) (by omega)
  have hat := congrFun h identities[i]
  rw [progressAt_of_idxOf hfound, progressAt_of_idxOf hfound] at hat
  simpa [hi, hi'] using hat

/-- One event of the replay. -/
theorem validateEventsFrom_cons : validateEventsFrom identities (event :: events) index progress =
      .ok progress' ↔
    event.sequence.toNat = index ∧ ∃ ordinal, identities.idxOf? event.effect = some ordinal ∧
      ∃ p, (progress.getD ordinal .untouched).next event.kind = some p ∧
        validateEventsFrom identities events (index + 1) (progress.set ordinal p) =
          .ok progress' := by
  rw [validateEventsFrom]
  by_cases hsequence : event.sequence.toNat = index
  · cases hfound : identities.idxOf? event.effect with
    | none => simp [hsequence]
    | some ordinal =>
      generalize progress.getD ordinal .untouched = state
      simp only [hsequence, ne_eq, not_true_eq_false, if_false, true_and, Option.some.injEq,
        exists_eq_left', EffectProgress.next]
      split
      · split <;> simp
      · split
        · simp
        · split <;> simp
  · simp [hsequence]

/-- A replay accepts consecutive events of declared effects that every effect
runs through. -/
theorem validateEventsFrom_eq_ok (hnodup : identities.Nodup)
    (hlength : progress.length = identities.length) :
    validateEventsFrom identities events index progress = .ok progress' ↔
      events.map (fun event => event.sequence.toNat) = List.range' index events.length ∧
      (∀ event ∈ events, event.effect ∈ identities) ∧
      progress'.length = identities.length ∧
      events.foldlM advance (progressAt identities progress) =
        some (progressAt identities progress') := by
  induction events generalizing index progress with
  | nil =>
    simp only [validateEventsFrom, Except.ok.injEq, List.map_nil, List.length_nil, List.range'_zero,
      List.foldlM_nil, List.not_mem_nil, false_implies, implies_true, true_and]
    constructor
    · rintro rfl
      exact ⟨hlength, rfl⟩
    · rintro ⟨hlength', hsame⟩
      exact progressAt_injective hnodup hlength hlength' (Option.some.inj hsame)
  | cons event events ih =>
    rw [validateEventsFrom_cons, advance, foldlM_stepAt_cons, List.map_cons, List.length_cons,
      List.range'_succ, List.cons.injEq, List.forall_mem_cons]
    constructor
    · rintro ⟨hsequence, ordinal, hfound, p, hnext, hrest⟩
      obtain ⟨hsequences, hdeclared, hlength', hadvance⟩ := (ih (by simpa using hlength)).mp hrest
      have hmem : event.effect ∈ identities := by
        by_contra hnot
        rw [List.idxOf?_eq_none_iff.mpr hnot] at hfound
        cases hfound
      refine ⟨⟨hsequence, hsequences⟩, ⟨hmem, hdeclared⟩, hlength', p, ?_, ?_⟩
      · rw [progressAt_of_idxOf hfound]
        exact hnext
      · rw [← progressAt_set hlength hfound]
        exact hadvance
    · rintro ⟨⟨hsequence, hsequences⟩, ⟨hmem, hdeclared⟩, hlength', p, hnext, hadvance⟩
      cases hfound : identities.idxOf? event.effect with
      | none => exact absurd hmem (List.idxOf?_eq_none_iff.mp hfound)
      | some ordinal =>
        rw [progressAt_of_idxOf hfound] at hnext
        rw [← progressAt_set hlength hfound] at hadvance
        exact ⟨hsequence, ordinal, rfl, p, hnext,
          (ih (by simpa using hlength)).mpr ⟨hsequences, hdeclared, hlength', hadvance⟩⟩

end Table

/-! ## Well-formed records -/

variable (X : Externals)

/-- The kinds of event that cite an identity, in order. -/
def coursed (events : List Event) (identity : EffectIdentity) : List EventKind :=
  (events.filter fun event => event.effect = identity).map Event.kind

/-- What a journal record is, apart from how it is checked. -/
structure WellFormed (s : Snapshot) : Prop where
  ordinals : s.effects.map JournalEffect.ordinal = List.range s.effects.length
  distinct : (s.effects.map (identifyEffect X)).Nodup
  sequences : s.events.map (fun event => event.sequence.toNat) = List.range s.events.length
  declared : ∀ event ∈ s.events, ∃ effect ∈ s.effects, event.effect = identifyEffect X effect
  courses : ∀ effect ∈ s.effects, ValidCourse (coursed s.events (identifyEffect X effect))
  successful : successfulState s.state = true →
    s.receipt.isSome ∧ s.completedEvidence.isSome ∧
      ∀ effect ∈ s.effects, successEffectRequired effect.kind = true →
        coursed s.events (identifyEffect X effect) = [.intent, .completed]
  unsuccessful : successfulState s.state = false → s.completedEvidence = none
  recovered : s.state = .recovered → s.receipt.isSome

section Events

variable {X} {effects : List JournalEffect} {events : List Event} {progress : List EffectProgress}

theorem foldlM_advance {states : EffectIdentity → EffectProgress} :
    events.foldlM advance (fun _ => .untouched) = some states ↔
      ∀ identity, (coursed events identity).foldlM EffectProgress.next .untouched =
        some (states identity) := by
  rw [advance, foldlM_stepAt]
  simp only [coursed, List.foldlM_map]

/-- The whole event list of a record is accepted when its effects are distinct,
its events consecutive and declared, and every course valid. -/
theorem validateEvents_eq_ok : validateEvents X effects events = .ok progress ↔
    (effects.map (identifyEffect X)).Nodup ∧
      events.map (fun event => event.sequence.toNat) = List.range events.length ∧
      (∀ event ∈ events, ∃ effect ∈ effects, event.effect = identifyEffect X effect) ∧
      progress.length = effects.length ∧
      ∀ identity, (coursed events identity).foldlM EffectProgress.next .untouched =
        some (progressAt (effects.map (identifyEffect X)) progress identity) := by
  simp only [validateEvents, bind_eq_ok_iff, refuseIf_eq_ok, not_not, exists_and_left,
    exists_const, List.range_eq_range']
  apply and_congr_right
  intro hnodup
  have hlength : (List.replicate effects.length EffectProgress.untouched).length =
      (effects.map (identifyEffect X)).length := by simp
  rw [validateEventsFrom_eq_ok hnodup hlength, progressAt_replicate, foldlM_advance,
    List.length_map]
  simp only [List.mem_map, eq_comm]

/-- A table is the progress of the effects in order. -/
theorem map_progressAt (hnodup : (effects.map (identifyEffect X)).Nodup)
    (hlength : progress.length = effects.length) :
    progress = effects.map fun effect =>
      progressAt (effects.map (identifyEffect X)) progress (identifyEffect X effect) := by
  apply List.ext_getElem (by simpa using hlength)
  intro i hi hi'
  have hlt : i < (effects.map (identifyEffect X)).length := by simpa using hi'
  have hfound : (effects.map (identifyEffect X)).idxOf? (effects.map (identifyEffect X))[i] =
      some i := by
    rw [List.idxOf?_eq_some_iff]
    refine ⟨hlt, rfl, ?_⟩
    intro j hj heq
    exact absurd ((hnodup.getElem_inj_iff).mp heq) (by omega)
  rw [List.getElem_map] at hfound
  rw [List.getElem_map, progressAt_of_idxOf hfound]
  simp [hi]

/-- No event cites an effect that is not declared. -/
theorem coursed_undeclared {identity : EffectIdentity}
    (hdeclared : ∀ event ∈ events, ∃ effect ∈ effects, event.effect = identifyEffect X effect)
    (h : identity ∉ effects.map (identifyEffect X)) : coursed events identity = [] := by
  rw [coursed, List.map_eq_nil_iff, List.filter_eq_nil_iff]
  intro event hevent hcites
  obtain ⟨effect, heffect, hidentity⟩ := hdeclared event hevent
  have hsame : event.effect = identity := by simpa using hcites
  exact h (List.mem_map.mpr ⟨effect, heffect, hidentity.symm.trans hsame⟩)

/-- Effects whose courses are all valid have a progress table. -/
theorem exists_progress
    (hdeclared : ∀ event ∈ events, ∃ effect ∈ effects, event.effect = identifyEffect X effect)
    (hcourses : ∀ effect ∈ effects, ValidCourse (coursed events (identifyEffect X effect))) :
    ∃ progress : List EffectProgress, progress.length = effects.length ∧
      ∀ identity, (coursed events identity).foldlM EffectProgress.next .untouched =
        some (progressAt (effects.map (identifyEffect X)) progress identity) := by
  have hruns : ∀ identity, ∃ p,
      (coursed events identity).foldlM EffectProgress.next .untouched = some p := by
    intro identity
    by_cases hmem : identity ∈ effects.map (identifyEffect X)
    · obtain ⟨effect, heffect, rfl⟩ := List.mem_map.mp hmem
      exact EffectProgress.exists_foldlM_next.mpr (hcourses effect heffect)
    · rw [coursed_undeclared hdeclared hmem]
      exact ⟨.untouched, rfl⟩
  choose states hstates using hruns
  refine ⟨effects.map fun effect => states (identifyEffect X effect), by simp, ?_⟩
  intro identity
  rw [hstates identity]
  unfold progressAt
  split
  · rename_i hnone
    have hmem := List.idxOf?_eq_none_iff.mp hnone
    have hstate := hstates identity
    rw [coursed_undeclared hdeclared hmem] at hstate
    exact hstate.symm
  · rename_i ordinal hfound
    obtain ⟨hlt, hidentity, -⟩ := List.idxOf?_eq_some_iff.mp hfound
    rw [List.length_map] at hlt
    rw [List.getElem_map] at hidentity
    simp [hlt, hidentity]

/-- The completed effects of a table are those whose course ends completed. -/
theorem successEffectsCompleted_iff (hnodup : (effects.map (identifyEffect X)).Nodup)
    (hlength : progress.length = effects.length)
    (hruns : ∀ identity, (coursed events identity).foldlM EffectProgress.next .untouched =
      some (progressAt (effects.map (identifyEffect X)) progress identity)) :
    successEffectsCompleted effects progress = true ↔
      ∀ effect ∈ effects, successEffectRequired effect.kind = true →
        coursed events (identifyEffect X effect) = [.intent, .completed] := by
  rw [map_progressAt hnodup hlength, successEffectsCompleted, ← List.map_prod_left_eq_zip,
    List.all_map, List.all_eq_true]
  apply forall₂_congr
  intro effect heffect
  obtain ⟨-, hcourse, -⟩ := EffectProgress.foldlM_next.mp (hruns (identifyEffect X effect))
  rw [hcourse, Function.comp_apply]
  generalize progressAt (effects.map (identifyEffect X)) progress (identifyEffect X effect) = p
  obtain ⟨_ | _, _ | terminal⟩ := p <;>
    cases hrequired : successEffectRequired effect.kind <;>
    simp [hrequired, EffectProgress.course]

end Events

section Make

variable {X} {header : JournalHeader} {state : JournalState} {effects : List JournalEffect}
  {events : List Event} {receipt : Option (TypedDigest .applicationReceipt)}
  {completedEvidence : Option (TypedDigest .completedApplicationEvidence)} {snapshot : Snapshot}
  {progress : List EffectProgress}

/-- The authority a state demands, given which success effects are completed. -/
theorem validateResolution_eq_ok : snapshot.validateResolution progress = .ok () ↔
    (successfulState snapshot.state = true → snapshot.receipt.isSome ∧
      snapshot.completedEvidence.isSome ∧
        successEffectsCompleted snapshot.effects progress = true) ∧
    (successfulState snapshot.state = false → snapshot.completedEvidence = none) ∧
    (snapshot.state = .recovered → snapshot.receipt.isSome) := by
  obtain ⟨header, state, effects, events, receipt, completedEvidence⟩ := snapshot
  cases state <;> cases receipt <;> cases completedEvidence <;>
    simp [validateResolution, bind_eq_ok_iff, refuseIf_eq_ok, successfulState]

/-- The constructor makes a record exactly of well-formed fields. -/
theorem make_eq_ok_iff : make X header state effects events receipt completedEvidence =
      .ok snapshot ↔
    snapshot = ⟨header, state, effects.insertionSort fun a b => a.ordinal ≤ b.ordinal, events,
      receipt, completedEvidence⟩ ∧ snapshot.WellFormed X := by
  generalize hsorted : effects.insertionSort (fun a b => a.ordinal ≤ b.ordinal) = sorted
  simp only [make, hsorted, bind_eq_ok_iff, refuseIf_eq_ok, not_not, pure, Except.pure,
    Except.ok.injEq, validateEvents_eq_ok]
  constructor
  · rintro ⟨_, hordinals, progress, ⟨hnodup, hsequences, hdeclared, hlength, hruns⟩, _,
      hresolution, rfl⟩
    obtain ⟨hsuccessful, hunsuccessful, hrecovered⟩ := validateResolution_eq_ok.mp hresolution
    refine ⟨rfl, ⟨hordinals, hnodup, hsequences, hdeclared, ?_, ?_, hunsuccessful, hrecovered⟩⟩
    · intro effect _
      exact EffectProgress.exists_foldlM_next.mp ⟨_, hruns (identifyEffect X effect)⟩
    · intro hstate
      obtain ⟨hreceipt, hevidence, hcompleted⟩ := hsuccessful hstate
      exact ⟨hreceipt, hevidence,
        (successEffectsCompleted_iff hnodup hlength hruns).mp hcompleted⟩
  · rintro ⟨rfl, h⟩
    obtain ⟨progress, hlength, hruns⟩ := exists_progress h.declared h.courses
    refine ⟨(), h.ordinals, progress, ⟨h.distinct, h.sequences, h.declared, hlength, hruns⟩, (),
      validateResolution_eq_ok.mpr ⟨?_, h.unsuccessful, h.recovered⟩, rfl⟩
    intro hstate
    obtain ⟨hreceipt, hevidence, hcompleted⟩ := h.successful hstate
    exact ⟨hreceipt, hevidence,
      (successEffectsCompleted_iff h.distinct hlength hruns).mpr hcompleted⟩

end Make

end Snapshot

open JournalCodec

/-- **Well-formed journals.**  The constructor makes a record exactly of
well-formed fields, the effects in ordinal order, and so what the decoder
accepts is well formed, whatever bytes it is given. -/
theorem journal_wellFormed (X : Externals) :
    (∀ header state effects events receipt completedEvidence snapshot,
      Snapshot.make X header state effects events receipt completedEvidence = .ok snapshot ↔
        snapshot = ⟨header, state, effects.insertionSort fun a b => a.ordinal ≤ b.ordinal, events,
          receipt, completedEvidence⟩ ∧ snapshot.WellFormed X) ∧
    ∀ data snapshot, decodeApplicationJournal X data = .ok snapshot → snapshot.WellFormed X := by
  constructor
  · intro header state effects events receipt completedEvidence snapshot
    exact Snapshot.make_eq_ok_iff
  · intro data snapshot hdecode
    obtain ⟨-, s, -, -, ⟨header, -, effects, -, events, -, hmade⟩, -⟩ :=
      (decodes_journal data snapshot).mp hdecode
    exact (Snapshot.make_eq_ok_iff.mp hmade.symm).2

/-- The record of one intent is read back well formed. -/
theorem journal_wellFormed_tool :
    (toolSnapshot {⟨countingDigest 40⟩}).WellFormed .reference := by
  have hdata := encode_toolSnapshot {⟨countingDigest 40⟩} (by simp)
  have hconstructed := constructed_toolSnapshot {⟨countingDigest 40⟩} (by simp)
  have hcounts := withinCounts_toolSnapshot {⟨countingDigest 40⟩} (by simp [maximumEvidenceCount])
  have hdecode := (encodes_journal.decode_iff decodes_journal
    (validBelow_snapshot (fits_of_constructed hconstructed)) hdata).mpr
      ((denotes_spellSnapshot hconstructed).mpr hcounts)
  exact (journal_wellFormed .reference).2 _ _ hdecode

end Transport

end PkgApply
