import PkgApply.Engine.Readiness
import PkgApply.Restart.Scopes

/-!
# Reports about completed evidence

A state is backed when what its journal retains about completed evidence was
reported in order: the record published, and a synchronization confirmed after
it.  Every step of the engine that publishes, synchronizes or seals leaves its
state backed, and a completed receipt names evidence confirmed by its own
process or before it.
-/

namespace PkgApply

open Library Engine

/-! ## Reports -/

/-- The call that publishes a record, with its answer. -/
def publication (E : CompletedEvidence) (answer : CompletedEvidencePublicationResult) :
    EngineCall := ⟨.mechanism (.publishCompletedEvidence E), answer⟩

/-- The call that synchronizes completed evidence, with its answer. -/
def confirmation (fact : DurabilityFact) : EngineCall :=
  ⟨.mechanism (.synchronize .synchronizeCompletedEvidence .completedEvidence), fact⟩

/-- A call by which the backend reported this record as published. -/
def Publishes (E : CompletedEvidence) (c : EngineCall) : Prop :=
  ∃ answer, answer.outcome = .completed ∧ answer.record = some E ∧ c = publication E answer

/-- A synchronization fact that confirms completed evidence. -/
def DurabilityFact.ConfirmsEvidence (fact : DurabilityFact) : Prop :=
  fact.domain = .completedEvidence ∧ fact.status = .confirmed

/-- A call by which the backend reported completed evidence as synchronized. -/
def Confirms (c : EngineCall) : Prop :=
  ∃ fact, DurabilityFact.ConfirmsEvidence fact ∧ c = confirmation fact

/-- A record was reported published, and a synchronization confirmed after it. -/
def DurableIn (E : CompletedEvidence) (log : List EngineCall) : Prop :=
  ∃ c c', Publishes E c ∧ Confirms c' ∧ [c, c'].Sublist log

theorem DurableIn.mono {E : CompletedEvidence} {log log' : List EngineCall} (h : DurableIn E log)
    (hlog : log.Sublist log') : DurableIn E log' := by
  obtain ⟨c, c', hc, hc', hsub⟩ := h
  exact ⟨c, c', hc, hc', hsub.trans hlog⟩

/-- A record that was published is durable once a synchronization is confirmed. -/
theorem DurableIn.confirm {E : CompletedEvidence} {log : List EngineCall} {c c' : EngineCall}
    (hmem : c ∈ log) (hc : Publishes E c) (hc' : Confirms c') : DurableIn E (log ++ [c']) :=
  ⟨c, c', hc, hc', (List.singleton_sublist.mpr hmem).append (List.Sublist.refl [c'])⟩

/-! ## What the journal retains -/

namespace EngineState

/-- How the publication of completed evidence ended. -/
def published (s : EngineState) : Option Ended :=
  (s.history.slot .publishCompletedEvidence none).ended

/-- How the synchronization of completed evidence ended. -/
def synchronized (s : EngineState) : Option Ended :=
  (s.history.slot .synchronizeCompletedEvidence none).ended

end EngineState

/-- A publication ended with a record. -/
def Ended.Published (ended : Ended) (E : CompletedEvidence) : Prop :=
  ended.kind = .completed ∧ ended.fact = some (.completedEvidence E)

/-- A synchronization ended with a confirmation. -/
def Ended.Confirmed (ended : Ended) : Prop :=
  ended.kind = .completed ∧
    ∃ fact, ended.fact = some (.synchronization fact) ∧ DurabilityFact.ConfirmsEvidence fact

/-- What the journal retains about completed evidence was reported. -/
structure Backed (s : EngineState) : Prop where
  published : ∀ ended, s.published = some ended → ended.kind = .completed →
    ∃ E, ended.Published E ∧ ∃ c ∈ s.log, Publishes E c
  synchronized : ∀ ended, s.synchronized = some ended → ended.kind = .completed →
    ended.Confirmed ∧ ∃ first E, s.published = some first ∧ first.Published E ∧ DurableIn E s.log

namespace Backed

variable {s s' : EngineState}

/-- Other slots and further calls do not matter. -/
theorem mono (h : Backed s) (hpublished : s'.published = s.published)
    (hsynchronized : s'.synchronized = s.synchronized) (hlog : s.log <+: s'.log) : Backed s' := by
  refine ⟨fun ended hended hkind => ?_, fun ended hended hkind => ?_⟩
  · rw [hpublished] at hended
    obtain ⟨E, hE, c, hc, hreports⟩ := h.published ended hended hkind
    exact ⟨E, hE, c, hlog.subset hc, hreports⟩
  · rw [hsynchronized] at hended
    obtain ⟨hconfirmed, first, E, hfirst, hE, hdurable⟩ := h.synchronized ended hended hkind
    exact ⟨hconfirmed, first, E, hpublished.trans hfirst, hE, hdurable.mono hlog.sublist⟩

/-- The publication ends while nothing is synchronized. -/
theorem publish (h : Backed s) {ended : Ended} (hopen : s.published = none)
    (hpublished : s'.published = some ended) (hsynchronized : s'.synchronized = s.synchronized)
    (hended : ended.kind = .completed → ∃ E, ended.Published E ∧ ∃ c ∈ s'.log, Publishes E c) :
    Backed s' := by
  refine ⟨fun x hx hkind => ?_, fun x hx hkind => ?_⟩
  · cases hpublished.symm.trans hx
    exact hended hkind
  · rw [hsynchronized] at hx
    obtain ⟨-, first, E, hfirst, -⟩ := h.synchronized x hx hkind
    rw [hopen] at hfirst
    cases hfirst

/-- The synchronization ends once the record retained is durable. -/
theorem synchronize (h : Backed s) {ended : Ended} (hpublished : s'.published = s.published)
    (hsynchronized : s'.synchronized = some ended)
    (hended : ended.kind = .completed → ended.Confirmed ∧
      ∃ first E, s.published = some first ∧ first.Published E ∧ DurableIn E s.log)
    (hlog : s.log <+: s'.log) : Backed s' := by
  refine ⟨fun x hx hkind => ?_, fun x hx hkind => ?_⟩
  · rw [hpublished] at hx
    obtain ⟨E, hE, c, hc, hreports⟩ := h.published x hx hkind
    exact ⟨E, hE, c, hlog.subset hc, hreports⟩
  · cases hsynchronized.symm.trans hx
    obtain ⟨hconfirmed, first, E, hfirst, hE, hdurable⟩ := hended hkind
    exact ⟨hconfirmed, first, E, hpublished.trans hfirst, hE, hdurable.mono hlog.sublist⟩

end Backed

/-! ## One process -/

/-- Completed evidence was confirmed durable by the process that started here. -/
def ConfirmedNow (E : CompletedEvidence) (s₀ s : EngineState) : Prop :=
  ∃ before c after, s.log = before ++ c :: after ∧ s₀.log <+: before ∧ Confirms c ∧
    ∃ p ∈ before, Publishes E p

/-- Completed evidence was confirmed durable before, and the journal retains
both the publication and the synchronization. -/
structure ConfirmedBefore (E : CompletedEvidence) (s₀ : EngineState) : Prop where
  published : ∃ ended, s₀.published = some ended ∧ ended.Published E
  synchronized : ∃ ended, s₀.synchronized = some ended ∧ ended.Confirmed
  durable : DurableIn E s₀.log

/-- A completed receipt, sealed under a projection by the process that started
here, names durable evidence of that projection. -/
structure Names (projection : LeaseBoundStateProjection) (s₀ s : EngineState)
    (r : ApplicationReceipt) (E : CompletedEvidence) : Prop where
  retained : s.history.completedEvidence = some E
  receipt : r.completedEvidence = some E
  sealedUnder : r.stateProjection = projection
  evidenceUnder : E.stateProjection = projection
  confirmed : ConfirmedNow E s₀ s ∨ ConfirmedBefore E s₀

/-- Where the process that started here may be found. -/
structure Concluded (A : AdmittedApplication) (projection : LeaseBoundStateProjection)
    (s₀ s : EngineState) : Prop where
  appended : JournalHistory.Appended s.history
  declares : A.Declares s.history
  backed : Backed s
  log : s₀.log <+: s.log
  completed : ∀ r, s.history.receipt = some r → r.outcome = .completed →
    ∃ E, Names projection s₀ s r E

/-- The process that started here has not sealed a completed receipt. -/
structure Underway (A : AdmittedApplication) (s₀ s : EngineState) : Prop where
  appended : JournalHistory.Appended s.history
  declares : A.Declares s.history
  backed : Backed s
  log : s₀.log <+: s.log
  uncompleted : ∀ r, s.history.receipt = some r → r.outcome ≠ .completed

/-- The parts of the engine that neither publish completed evidence nor seal a
completed receipt. -/
def Scope.inconclusive : Scope := ⟨(· ≠ .resultObserved), (·.outcome ≠ .completed)⟩

theorem Scope.inconclusive_failing : Scope.inconclusive.Failing := fun _ h => h

theorem Scope.inconclusive_homes {state : JournalState} (h : state ≠ .resultObserved) :
    Scope.inconclusive.homes state := h

section Process

variable {A : AdmittedApplication} {m : Mechanisms} {projection : LeaseBoundStateProjection}
  {s₀ s s' : EngineState} {α β : Type} {Q : α → EngineState → Prop}

theorem Underway.concluded (h : Underway A s₀ s) : Concluded A projection s₀ s :=
  ⟨h.appended, h.declares, h.backed, h.log, fun r hr hcompleted =>
    absurd hcompleted (h.uncompleted r hr)⟩

/-- A process that sets out from a backed journal without a completed receipt. -/
theorem Underway.start {last : Option EngineCall} (hs : Logged A last s) (hbacked : Backed s)
    (huncompleted : ∀ r, s.history.receipt = some r → r.outcome ≠ .completed) : Underway A s s :=
  ⟨hs.appended, hs.declares, hbacked, List.prefix_rfl, huncompleted⟩

theorem Kept.published (h : Kept .inconclusive s s') : s'.published = s.published := by
  unfold EngineState.published
  rw [h.slots _ _ _ rfl fun hne => hne rfl]

theorem Kept.synchronized (h : Kept .inconclusive s s') : s'.synchronized = s.synchronized := by
  unfold EngineState.synchronized
  rw [h.slots _ _ _ rfl fun hne => hne rfl]

/-- The process goes on without an end of the publication or the synchronization. -/
structure Unmoved (A : AdmittedApplication) (s₀ s s' : EngineState) : Prop where
  underway : Underway A s₀ s'
  published : s'.published = s.published
  synchronized : s'.synchronized = s.synchronized
  log : s.log <+: s'.log

theorem Unmoved.trans {s'' : EngineState} (h : Unmoved A s₀ s s') (h' : Unmoved A s₀ s' s'') :
    Unmoved A s₀ s s'' :=
  ⟨h'.underway, h'.published.trans h.published, h'.synchronized.trans h.synchronized,
    h.log.trans h'.log⟩

theorem Unmoved.refl (h : Underway A s₀ s) : Unmoved A s₀ s s := ⟨h, rfl, rfl, List.prefix_rfl⟩

theorem Underway.kept (h : Underway A s₀ s) (happended : JournalHistory.Appended s'.history)
    (hdeclares : A.Declares s'.history) (hkept : Kept .inconclusive s s') : Unmoved A s₀ s s' where
  underway := ⟨happended, hdeclares, h.backed.mono hkept.published hkept.synchronized hkept.log,
    h.log.trans hkept.log, fun r hr => (hkept.receipt r hr).elim (h.uncompleted r) id⟩
  published := hkept.published
  synchronized := hkept.synchronized
  log := hkept.log

/-- A process that leaves its journal concluded wherever it ends or is cut. -/
def Concludes (A : AdmittedApplication) (m : Mechanisms) (projection : LeaseBoundStateProjection)
    (s₀ : EngineState) (p : Engine α) (s : EngineState) (Q : α → EngineState → Prop) : Prop :=
  p.Ensures (engineMachine m) s Q (fun _ s' => Concluded A projection s₀ s')
    (fun s' => Concluded A projection s₀ s')

theorem Concludes.bind {p : Engine α} {f : α → Engine β} {R : β → EngineState → Prop}
    (hp : Concludes A m projection s₀ p s Q)
    (hf : ∀ a s', Q a s' → Concludes A m projection s₀ (f a) s' R) :
    Concludes A m projection s₀ (p >>= f) s R := Process.Ensures.bind hp hf

theorem concludes_pure {a : α} (h : Q a s) : Concludes A m projection s₀ (pure a) s Q :=
  Process.ensures_pure.mpr h

theorem concludes_history {f : JournalHistory → Engine α}
    (hf : Concludes A m projection s₀ (f s.history) s Q) :
    Concludes A m projection s₀ (Engine.history >>= f) s Q := ensures_history hf

/-- A check throws where the process stands. -/
theorem concludes_ofExcept {x : Except Exn β} {f : β → Engine α} (h : Underway A s₀ s)
    (hf : ∀ b, x = .ok b → Concludes A m projection s₀ (f b) s Q) :
    Concludes A m projection s₀ ((liftM x : Engine β) >>= f) s Q := by
  cases hx : x with
  | ok b => exact hf b hx
  | error e => exact Process.ensures_throw.mpr h.concluded

theorem concludes_mechanism {request : MechanismRequest} (h : Underway A s₀ s) :
    Concludes A m projection s₀ (mechanism request) s fun answer s' =>
      Unmoved A s₀ s s' ∧ s'.log = s.log ++ [⟨.mechanism request, answer⟩] := by
  have hinitial : s.log <+: s.log ++ [⟨.mechanism request, m request⟩] := List.prefix_append _ _
  have h' : Underway A s₀ ⟨s.history, s.log ++ [⟨.mechanism request, m request⟩]⟩ :=
    ⟨h.appended, h.declares, h.backed.mono rfl rfl hinitial, h.log.trans hinitial, h.uncompleted⟩
  exact (Process.ensures_call_ok (M := engineMachine m) rfl).mpr
    ⟨h.concluded, h'.concluded, Process.ensures_pure.mpr ⟨⟨h', rfl, rfl, hinitial⟩, rfl⟩⟩

/-- A transition the journal refuses throws where the process stands. -/
theorem concludes_journal {t : Transition} {R : EngineState → Prop} (h : Underway A s₀ s)
    (hR : ∀ s', s.history.Permits t → s.history.Follows t s'.history → s.log <+: s'.log →
      Concluded A projection s₀ s' ∧ R s') :
    Concludes A m projection s₀ (Engine.journal t) s fun _ s' => R s' := by
  cases htransition : s.history.transition t with
  | error e =>
    have hop : (engineMachine m).perform (.journal t) s = .error e := by
      simp only [engineMachine, htransition]
    exact (Process.ensures_call_error hop).mpr ⟨h.concluded, h.concluded⟩
  | ok h' =>
    have hop : (engineMachine m).perform (.journal t) s =
        .ok ((), ⟨h', s.log ++ [⟨.journal t, ()⟩]⟩) := by
      simp only [engineMachine, htransition]
    obtain ⟨hpermits, hfollows⟩ :=
      JournalHistory.permits_of_transition h.appended h.declares.keyed htransition
    obtain ⟨hconcluded, hR⟩ := hR ⟨h', s.log ++ [⟨.journal t, ()⟩]⟩ hpermits hfollows
      (List.prefix_append _ _)
    exact (Process.ensures_call_ok hop).mpr ⟨h.concluded, hconcluded, Process.ensures_pure.mpr hR⟩

/-- An inconclusive part of the engine moves neither. -/
theorem concludes_within {p : Engine α} (hp : p.Orderly (within .inconclusive))
    (h : Underway A s₀ s) :
    Concludes A m projection s₀ p s fun _ s' => Unmoved A s₀ s s' := by
  refine (ensures_kept hp h.appended h.declares).mono ?_ ?_ ?_
  · rintro _ s' ⟨happended, hdeclares, hkept⟩
    exact h.kept happended hdeclares hkept
  · rintro _ s' ⟨happended, hdeclares, hkept⟩
    exact (h.kept happended hdeclares hkept).underway.concluded
  · rintro s' ⟨happended, hdeclares, hkept⟩
    exact (h.kept happended hdeclares hkept).underway.concluded

/-! ## Events of completed evidence -/

/-- How an effect ended is left alone by every event but its own terminal. -/
theorem JournalHistory.Follows.ended_eq {h h' : JournalHistory} {t : Transition}
    (hf : h.Follows t h') {kind : EffectKind} {path : Option PackagePath}
    (hquiet : ∀ e, t.event = some e → e.effect.kind = kind → e.kind = .intent) :
    (h'.slot kind path).ended = (h.slot kind path).ended := by
  change (h'.ledger.slot kind path).ended = (h.ledger.slot kind path).ended
  rw [hf.ledger]
  by_cases hself : ∃ e, t.event = some e ∧ e.effect.kind = kind ∧ e.effect.path = path
  · obtain ⟨e, he, rfl, rfl⟩ := hself
    rw [Ledger.step_slot_self he, hquiet e he rfl]
    rfl
  · rw [Ledger.step_slot_of_ne fun e he hkey => hself ⟨e, he, hkey⟩]

/-- A terminal event ends its effect. -/
theorem JournalHistory.Follows.ended_terminal {h h' : JournalHistory} {t : Transition}
    (hf : h.Follows t h') (hp : h.Permits t) {e : TransitionEvent} (he : t.event = some e)
    (hkind : e.kind ≠ .intent) :
    (h'.slot e.effect.kind e.effect.path).ended = some ⟨e.kind, e.evidence, t.replayFact⟩ := by
  change (h'.ledger.slot _ _).ended = _
  rw [hf.ledger, Ledger.step_slot_self he]
  change ((h.slot _ _).note _ _ _).ended = _
  rw [hp.unresolved e he hkind, Slot.note_terminal hkind]

/-- An event of any effect without its end moves neither. -/
theorem concludes_quiet {t : Transition} (h : Underway A s₀ s) (hreceipt : t.receipt = none)
    (hquiet : ∀ e, t.event = some e → e.kind = .intent) :
    Concludes A m projection s₀ (Engine.journal t) s fun _ s' => Unmoved A s₀ s s' := by
  refine concludes_journal h fun s' _ hf hlog => ?_
  have hpublished : s'.published = s.published := hf.ended_eq fun e he _ => hquiet e he
  have hsynchronized : s'.synchronized = s.synchronized := hf.ended_eq fun e he _ => hquiet e he
  have hunder : Underway A s₀ s' :=
    ⟨hf.appended, hf.declaration.trans h.declares, h.backed.mono hpublished hsynchronized hlog,
      h.log.trans hlog, fun r hr => by cases hr.symm.trans (hf.receipt.trans hreceipt)⟩
  exact ⟨hunder.concluded, hunder, hpublished, hsynchronized, hlog⟩

/-- The terminal event of the publication. -/
theorem concludes_publishTerminal {state : JournalState} {effect : JournalEffect}
    {terminal : EventKind} {evidence : Evidence} {fact : Option ReplayFact}
    (h : Underway A s₀ s) (hkind : effect.kind = .publishCompletedEvidence)
    (hpath : effect.path = none) (hterminal : terminal ≠ .intent)
    (hended : terminal = .completed → ∃ E, fact = some (.completedEvidence E) ∧
      ∃ c ∈ s.log, Publishes E c) :
    Concludes A m projection s₀ (publishEvent state effect terminal evidence fact) s fun _ s' =>
      Underway A s₀ s' ∧ s'.published = some ⟨terminal, evidence, fact⟩ ∧
        s'.synchronized = s.synchronized ∧ s.log <+: s'.log := by
  refine concludes_journal h fun s' hp hf hlog => ?_
  have hopen : s.published = none := by
    have hslot := hp.unresolved _ rfl hterminal
    dsimp only at hslot
    rw [hkind, hpath] at hslot
    unfold EngineState.published
    rw [hslot]
    rfl
  have hpublished : s'.published = some ⟨terminal, evidence, fact⟩ := by
    have hended := hf.ended_terminal hp rfl hterminal
    dsimp only at hended
    rwa [hkind, hpath] at hended
  have hsynchronized : s'.synchronized = s.synchronized := hf.ended_eq fun e he hk => by
    cases he
    rw [hkind] at hk
    cases hk
  have hbacked : Backed s' := by
    refine h.backed.publish hopen hpublished hsynchronized fun hcompleted => ?_
    obtain ⟨E, hfact, c, hc, hreports⟩ := hended hcompleted
    exact ⟨E, ⟨hcompleted, hfact⟩, c, hlog.subset hc, hreports⟩
  have hunder : Underway A s₀ s' :=
    ⟨hf.appended, hf.declaration.trans h.declares, hbacked, h.log.trans hlog,
      fun r hr => by cases hr.symm.trans hf.receipt⟩
  exact ⟨hunder.concluded, hunder, hpublished, hsynchronized, hlog⟩

/-- The terminal event of the synchronization. -/
theorem concludes_synchronizeTerminal {state : JournalState} {effect : JournalEffect}
    {terminal : EventKind} {evidence : Evidence} {fact : Option ReplayFact}
    (h : Underway A s₀ s) (hkind : effect.kind = .synchronizeCompletedEvidence)
    (hpath : effect.path = none) (hterminal : terminal ≠ .intent)
    (hended : terminal = .completed → Ended.Confirmed ⟨terminal, evidence, fact⟩ ∧
      ∃ first E, s.published = some first ∧ first.Published E ∧ DurableIn E s.log) :
    Concludes A m projection s₀ (publishEvent state effect terminal evidence fact) s fun _ s' =>
      Underway A s₀ s' ∧ s.log <+: s'.log := by
  refine concludes_journal h fun s' hp hf hlog => ?_
  have hsynchronized : s'.synchronized = some ⟨terminal, evidence, fact⟩ := by
    have hended := hf.ended_terminal hp rfl hterminal
    dsimp only at hended
    rwa [hkind, hpath] at hended
  have hpublished : s'.published = s.published := hf.ended_eq fun e he hk => by
    cases he
    rw [hkind] at hk
    cases hk
  have hunder : Underway A s₀ s' :=
    ⟨hf.appended, hf.declaration.trans h.declares,
      h.backed.synchronize hpublished hsynchronized hended hlog, h.log.trans hlog,
      fun r hr => by cases hr.symm.trans hf.receipt⟩
  exact ⟨hunder.concluded, hunder, hlog⟩

end Process

/-! ## Publishing and synchronizing -/

/-- A record was reported published, and the publication has ended. -/
structure PublishedIn (E : CompletedEvidence) (s : EngineState) : Prop where
  ended : ∃ first, s.published = some first ∧ first.kind = .completed
  reported : ∃ c ∈ s.log, Publishes E c

section Reports

variable {A : AdmittedApplication} {m : Mechanisms} {projection : LeaseBoundStateProjection}
  {s₀ s s' : EngineState} {E : CompletedEvidence}

theorem PublishedIn.mono (h : PublishedIn E s) (hunmoved : Unmoved A s₀ s s') :
    PublishedIn E s' := by
  obtain ⟨⟨first, hfirst, hkind⟩, c, hc, hreports⟩ := h
  exact ⟨⟨first, hunmoved.published.trans hfirst, hkind⟩, c, hunmoved.log.subset hc, hreports⟩

theorem ConfirmedNow.mono (h : ConfirmedNow E s₀ s) (hlog : s.log <+: s'.log) :
    ConfirmedNow E s₀ s' := by
  obtain ⟨before, c, after, heq, hbefore, hc, hpublished⟩ := h
  obtain ⟨rest, hrest⟩ := hlog
  refine ⟨before, c, after ++ rest, ?_, hbefore, hc, hpublished⟩
  rw [← hrest, heq, List.append_assoc, List.cons_append]

/-- A confirmation after the publication makes both records durable: the one
published, and the one retained. -/
theorem PublishedIn.confirm (h : PublishedIn E s) (hs : Underway A s₀ s) {c : EngineCall}
    (hc : Confirms c) (hlog : s'.log = s.log ++ [c]) :
    ConfirmedNow E s₀ s' ∧
      ∃ first E', s.published = some first ∧ first.Published E' ∧ DurableIn E' s'.log := by
  obtain ⟨⟨first, hfirst, hkind⟩, hreported⟩ := h
  obtain ⟨E', hE', c', hc', hreports⟩ := hs.backed.published first hfirst hkind
  refine ⟨⟨s.log, c, [], hlog, hs.log, hc, hreported⟩, first, E', hfirst, hE', ?_⟩
  rw [hlog]
  exact DurableIn.confirm hc' hreports hc

/-- A completed publication that names its record reports it. -/
theorem publishes_of_answer {answer : CompletedEvidencePublicationResult} {x : Exn}
    (hvalid : refuseIf (answer.outcome = .completed ∧ answer.record ≠ some E) x = .ok ())
    (hlog : s'.log = s.log ++ [publication E answer]) (hcompleted : answer.outcome = .completed) :
    ∃ c ∈ s'.log, Publishes E c := by
  refine ⟨publication E answer, ?_, answer, hcompleted, ?_, rfl⟩
  · rw [hlog]
    exact List.mem_append_right _ (List.mem_singleton_self _)
  · by_contra hrecord
    exact refuseIf_eq_ok.mp hvalid ⟨hcompleted, hrecord⟩

/-- The live publication. -/
theorem concludes_publishCompletedEvidence (h : Underway A s₀ s) :
    Concludes A m projection s₀ (publishCompletedEvidence E) s fun answer s' =>
      Underway A s₀ s' ∧ (answer.outcome = .completed → PublishedIn E s') := by
  refine concludes_history (concludes_ofExcept h fun effect heffect => ?_)
  obtain ⟨-, hkind, hpath⟩ := findEffect_spec heffect
  refine (concludes_quiet h rfl ?_).bind fun _ s₁ h₁ => ?_
  · rintro _ ⟨⟩
    rfl
  refine (concludes_mechanism h₁.underway).bind fun answer s₂ ⟨h₂, hlog⟩ => ?_
  refine concludes_ofExcept h₂.underway fun _ hvalid => ?_
  refine concludes_ofExcept h₂.underway fun terminal hterminal => ?_
  have hreported := publishes_of_answer hvalid hlog
  refine (concludes_publishTerminal h₂.underway hkind hpath (terminalEvent_ne_intent hterminal)
    fun hcompleted => ?_).bind fun _ s₃ ⟨h₃, hpublished, _, hlog₃⟩ => ?_
  · have hanswer := (terminalEvent_completed_iff hterminal).mp hcompleted
    exact ⟨E, if_pos hanswer, hreported hanswer⟩
  · refine concludes_pure ⟨h₃, fun hanswer => ⟨⟨_, hpublished, ?_⟩, ?_⟩⟩
    · exact (terminalEvent_completed_iff hterminal).mpr hanswer
    · obtain ⟨c, hc, hreports⟩ := hreported hanswer
      exact ⟨c, hlog₃.subset hc, hreports⟩

/-- The live synchronization. -/
theorem concludes_synchronizeCompletedEvidence (h : Underway A s₀ s) (hE : PublishedIn E s) :
    Concludes A m projection s₀ synchronizeCompletedEvidence s fun fact s' =>
      Underway A s₀ s' ∧ (fact.status = .confirmed → ConfirmedNow E s₀ s') := by
  refine concludes_history (concludes_ofExcept h fun effect heffect => ?_)
  obtain ⟨-, hkind, hpath⟩ := findEffect_spec heffect
  refine (concludes_quiet h rfl ?_).bind fun _ s₁ h₁ => ?_
  · rintro _ ⟨⟩
    rfl
  refine (concludes_mechanism h₁.underway).bind fun fact s₂ ⟨h₂, hlog⟩ => ?_
  refine concludes_ofExcept h₂.underway fun _ hdomain => ?_
  refine concludes_ofExcept h₂.underway fun terminal hterminal => ?_
  have hconfirms : fact.status = .confirmed → DurabilityFact.ConfirmsEvidence fact :=
    fun hstatus => ⟨not_not.mp (refuseIf_eq_ok.mp hdomain), hstatus⟩
  have hconfirmed := fun hstatus => (hE.mono h₁).confirm h₁.underway
    ⟨fact, hconfirms hstatus, rfl⟩ hlog
  refine (concludes_synchronizeTerminal h₂.underway hkind hpath
    (synchronizationEvent_ne_intent hterminal) fun hcompleted => ?_).bind
      fun _ s₃ ⟨h₃, hlog₃⟩ => ?_
  · have hstatus := (synchronizationEvent_completed_iff hterminal).1.mp hcompleted
    refine ⟨⟨hcompleted, fact, rfl, hconfirms hstatus⟩, ?_⟩
    rw [h₂.published]
    exact (hconfirmed hstatus).2
  · exact concludes_pure ⟨h₃, fun hstatus => (hconfirmed hstatus).1.mono hlog₃⟩

/-! ## Restarted publication and synchronization -/

/-- Whether an effect has ended is read off its slot. -/
theorem Underway.terminal_eq (h : Underway A s₀ s) {e : JournalEffect}
    (he : e ∈ s.history.effects) :
    (restartProgress s.history e).terminal =
      (s.history.slot e.kind e.path).ended.map Ended.kind := by
  unfold restartProgress
  rw [h.appended.restartProgress_eq h.declares.keyed he]
  rfl

theorem Underway.effects (h : Underway A s₀ s) (h' : Underway A s₀ s') :
    s'.history.effects = s.history.effects := by
  rw [h'.declares.effects, h.declares.effects]

theorem concludes_restartPublishIntent {state : JournalState} {effect : JournalEffect}
    (h : Underway A s₀ s) :
    Concludes A m projection s₀ (restartPublishIntent state effect) s fun _ s' =>
      Unmoved A s₀ s s' := by
  refine concludes_history ?_
  split
  · exact concludes_pure (.refl h)
  · refine concludes_quiet h rfl ?_
    rintro _ ⟨⟩
    rfl

/-- A restarted publication of an effect that has not ended. -/
theorem concludes_restartPublication {effect : JournalEffect} (h : Underway A s₀ s)
    (heffect : effect ∈ s.history.effects) (hkind : effect.kind = .publishCompletedEvidence)
    (hpath : effect.path = none) (hopen : s.published = none) :
    Concludes A m projection s₀ (restartPublication effect E) s fun answer s' =>
      Underway A s₀ s' ∧ s'.synchronized = s.synchronized ∧
        (answer.outcome = .completed → PublishedIn E s') := by
  refine (concludes_restartPublishIntent h).bind fun _ s₁ h₁ => ?_
  refine (concludes_mechanism h₁.underway).bind fun answer s₂ ⟨h₂, hlog⟩ => ?_
  refine concludes_ofExcept h₂.underway fun _ hvalid => ?_
  refine concludes_ofExcept h₂.underway fun terminal hterminal => ?_
  have hreported := publishes_of_answer hvalid hlog
  have hopen₂ : s₂.published = none := by rw [h₂.published, h₁.published, hopen]
  have hunended : (restartProgress s₂.history effect).terminal = none := by
    rw [h₂.underway.terminal_eq (h.effects h₂.underway ▸ heffect), hkind, hpath]
    exact Option.map_eq_none_iff.mpr hopen₂
  refine Concludes.bind (Q := fun _ s₃ => Underway A s₀ s₃ ∧ s₃.synchronized = s.synchronized ∧
    (answer.outcome = .completed → PublishedIn E s₃)) (concludes_history ?_)
      fun _ s₃ h₃ => concludes_pure h₃
  rw [if_neg (by simp [hunended])]
  refine (concludes_publishTerminal h₂.underway hkind hpath (terminalEvent_ne_intent hterminal)
    fun hcompleted => ?_).mono (fun _ s₃ h₃ => ?_) (fun _ _ hx => hx) fun _ hx => hx
  · have hanswer := (terminalEvent_completed_iff hterminal).mp hcompleted
    exact ⟨E, if_pos hanswer, hreported hanswer⟩
  · obtain ⟨hunder, hpublished, hsynchronized, hlog₃⟩ := h₃
    refine ⟨hunder, ?_, fun hanswer => ⟨⟨_, hpublished, ?_⟩, ?_⟩⟩
    · rw [hsynchronized, h₂.synchronized, h₁.synchronized]
    · exact (terminalEvent_completed_iff hterminal).mpr hanswer
    · obtain ⟨c, hc, hreports⟩ := hreported hanswer
      exact ⟨c, hlog₃.subset hc, hreports⟩

/-- A publication of refreshed evidence. -/
theorem concludes_refreshPublication (h : Underway A s₀ s)
    (hended : ∃ first, s.published = some first ∧ first.kind = .completed) :
    Concludes A m projection s₀ (refreshPublication E) s fun answer s' =>
      Underway A s₀ s' ∧ s'.synchronized = s.synchronized ∧
        (answer.outcome = .completed → PublishedIn E s') := by
  refine (concludes_mechanism h).bind fun answer s₁ ⟨h₁, hlog⟩ => ?_
  refine concludes_ofExcept h₁.underway fun _ hvalid => ?_
  refine concludes_pure ⟨h₁.underway, h₁.synchronized, fun hcompleted => ⟨?_, ?_⟩⟩
  · obtain ⟨first, hfirst, hkind⟩ := hended
    exact ⟨first, h₁.published.trans hfirst, hkind⟩
  · exact publishes_of_answer hvalid hlog hcompleted

/-- A restarted synchronization after the publication. -/
theorem concludes_restartSynchronize {effect : JournalEffect} {mismatch : String}
    (h : Underway A s₀ s) (hkind : effect.kind = .synchronizeCompletedEvidence)
    (hpath : effect.path = none) (hE : PublishedIn E s) :
    Concludes A m projection s₀
      (restartSynchronize .resultObserved effect .completedEvidence mismatch) s fun status s' =>
        Underway A s₀ s' ∧ (status = .confirmed → ConfirmedNow E s₀ s') := by
  refine (concludes_restartPublishIntent h).bind fun _ s₁ h₁ => ?_
  refine (concludes_mechanism h₁.underway).bind fun fact s₂ ⟨h₂, hlog⟩ => ?_
  refine concludes_ofExcept h₂.underway fun _ hdomain => ?_
  refine concludes_ofExcept h₂.underway fun terminal hterminal => ?_
  have hconfirms : fact.status = .confirmed → DurabilityFact.ConfirmsEvidence fact :=
    fun hstatus => ⟨not_not.mp (refuseIf_eq_ok.mp hdomain), hstatus⟩
  have hconfirmed : fact.status = .confirmed → _ := fun hstatus =>
    (hE.mono h₁).confirm h₁.underway ⟨fact, hconfirms hstatus, by rw [hkind]; rfl⟩ hlog
  refine Concludes.bind (Q := fun _ s₃ => Underway A s₀ s₃ ∧ s₂.log <+: s₃.log)
    (concludes_history ?_) fun _ s₃ ⟨h₃, hlog₃⟩ =>
      concludes_pure ⟨h₃, fun hstatus => (hconfirmed hstatus).1.mono hlog₃⟩
  split
  · exact concludes_pure ⟨h₂.underway, List.prefix_rfl⟩
  · refine concludes_synchronizeTerminal h₂.underway hkind hpath
      (synchronizationEvent_ne_intent hterminal) fun hcompleted => ?_
    have hstatus := (synchronizationEvent_completed_iff hterminal).1.mp hcompleted
    refine ⟨⟨hcompleted, fact, rfl, hconfirms hstatus⟩, ?_⟩
    rw [h₂.published]
    exact (hconfirmed hstatus).2

/-- A synchronization of refreshed evidence. -/
theorem concludes_refreshSynchronization {effect : JournalEffect} (h : Underway A s₀ s)
    (hkind : effect.kind = .synchronizeCompletedEvidence) (hE : PublishedIn E s) :
    Concludes A m projection s₀ (refreshSynchronization effect) s fun status s' =>
      Underway A s₀ s' ∧ (status = .confirmed → ConfirmedNow E s₀ s') := by
  refine (concludes_mechanism h).bind fun fact s₁ ⟨h₁, hlog⟩ => ?_
  refine concludes_ofExcept h₁.underway fun _ hdomain => ?_
  refine concludes_pure ⟨h₁.underway, fun hstatus => ?_⟩
  have hconfirms : DurabilityFact.ConfirmsEvidence fact :=
    ⟨not_not.mp (refuseIf_eq_ok.mp hdomain), hstatus⟩
  exact (hE.confirm h ⟨fact, hconfirms, by rw [hkind]; rfl⟩ hlog).1

/-! ## Sealing -/

/-- Once its synchronization has ended completed, this evidence is confirmed. -/
def Assured (E : CompletedEvidence) (s₀ s : EngineState) : Prop :=
  ∀ ended, s.synchronized = some ended → ended.kind = .completed →
    ConfirmedNow E s₀ s ∨ ConfirmedBefore E s₀

theorem Assured.mono (h : Assured E s₀ s) (hsynchronized : s'.synchronized = s.synchronized)
    (hlog : s.log <+: s'.log) : Assured E s₀ s' := by
  intro ended hended hkind
  rw [hsynchronized] at hended
  exact (h ended hended hkind).imp (·.mono hlog) id

/-- A receipt of this evidence under a projection. -/
structure ReceiptOf (E : CompletedEvidence) (projection : LeaseBoundStateProjection)
    (r : ApplicationReceipt) : Prop where
  evidence : r.completedEvidence = some E
  sealedUnder : r.stateProjection = projection
  evidenceUnder : E.stateProjection = projection

theorem receiptOf_completed {recovery : RecoveryState} {evidence : Evidence}
    {r : ApplicationReceipt} (hr : ApplicationReceipt.completed E recovery evidence = .ok r)
    (hE : E.stateProjection = projection) : ReceiptOf E projection r := by
  unfold ApplicationReceipt.completed at hr
  rw [refuseIf_bind_eq_ok] at hr
  obtain ⟨-, hr⟩ := hr
  cases hr
  exact ⟨rfl, hE, hE⟩

/-- The journal takes a completed receipt only when every effect of success,
the synchronization among them, has ended completed. -/
theorem concludes_completedSeal {t : Transition} {r : ApplicationReceipt} (h : Underway A s₀ s)
    (hstate : t.state = .applicationCompleted) (hreceipt : t.receipt = some r)
    (hevidence : t.completedEvidence = some E)
    (hevent : ∀ e, t.event = some e → e.effect.kind = .sealReceipt)
    (hr : ReceiptOf E projection r) (hassured : Assured E s₀ s) :
    Concludes A m projection s₀ (Engine.journal t) s fun _ s' =>
      Concluded A projection s₀ s' := by
  have hother : ∀ kind, kind ≠ .sealReceipt → ∀ e, t.event = some e → e.effect.kind = kind →
      e.kind = .intent := fun kind hne e he hkind => absurd (hkind.symm.trans (hevent e he)) hne
  refine concludes_journal h fun s' hp hf hlog => ?_
  have hpublished : s'.published = s.published := hf.ended_eq (hother _ nofun)
  have hsynchronized : s'.synchronized = s.synchronized := hf.ended_eq (hother _ nofun)
  have hcompleted : s'.synchronized.map Ended.kind = some .completed := by
    obtain ⟨e, he, -, -, hkind, hpath⟩ :=
      ((A.hasKey_domain .synchronizeCompletedEvidence).mpr trivial).find h.declares
    obtain ⟨-, -, hsuccess⟩ := hp.successful (by rw [hstate]; rfl)
    have hended := hsuccess e he (by rw [hkind]; rfl)
    rwa [hkind, hpath, ← hf.ledger] at hended
  have hconfirmed : ConfirmedNow E s₀ s' ∨ ConfirmedBefore E s₀ := by
    obtain ⟨ended, hended, hkind⟩ := Option.map_eq_some_iff.mp hcompleted
    exact hassured.mono hsynchronized hlog ended hended hkind
  have hconcluded : Concluded A projection s₀ s' := by
    refine ⟨hf.appended, hf.declaration.trans h.declares,
      h.backed.mono hpublished hsynchronized hlog, h.log.trans hlog, fun r' hr' _ => ⟨E, ?_⟩⟩
    cases hr'.symm.trans (hf.receipt.trans hreceipt)
    exact ⟨hf.completedEvidence.trans hevidence, hr.evidence, hr.sealedUnder, hr.evidenceUnder,
      hconfirmed⟩
  exact ⟨hconcluded, hconcluded⟩

/-- The live seal of a completed application. -/
theorem concludes_sealCompleted {active : ActiveMutatedApplication} {evidence : Evidence}
    (h : Underway A s₀ s) (hE : E.stateProjection = projection) (hassured : Assured E s₀ s) :
    Concludes A m projection s₀ (sealCompleted active E evidence) s fun _ s' =>
      Concluded A projection s₀ s' := by
  refine concludes_ofExcept h fun r hr => ?_
  have hof := receiptOf_completed hr hE
  refine Concludes.bind (Q := fun _ s' => Concluded A projection s₀ s') ?_
    fun _ _ hx => concludes_pure hx
  refine concludes_history (concludes_ofExcept h fun effect heffect => ?_)
  refine (concludes_quiet h rfl ?_).bind fun _ s₁ h₁ => ?_
  · rintro _ ⟨⟩
    rfl
  · refine concludes_completedSeal h₁.underway rfl rfl rfl ?_ hof
      (hassured.mono h₁.synchronized h₁.log)
    rintro _ ⟨⟩
    exact (findEffect_spec heffect).2.1

/-- The restarted seal of a completed application. -/
theorem concludes_restartCompleted {active : ActiveMutatedApplication} {evidence : Evidence}
    (h : Underway A s₀ s) (hE : E.stateProjection = projection) (hassured : Assured E s₀ s) :
    Concludes A m projection s₀ (restartCompleted active E evidence) s fun _ s' =>
      Concluded A projection s₀ s' := by
  refine concludes_ofExcept h fun r hr => ?_
  have hof := receiptOf_completed hr hE
  refine Concludes.bind (Q := fun _ s' => Concluded A projection s₀ s') ?_
    fun _ _ hx => concludes_pure hx
  refine concludes_history (concludes_ofExcept h fun effect heffect => ?_)
  refine concludes_ofExcept h fun _ _ => concludes_ofExcept h fun _ _ => ?_
  refine concludes_ofExcept h fun _ _ => concludes_ofExcept h fun _ _ => ?_
  refine (concludes_restartPublishIntent h).bind fun _ s₁ h₁ => ?_
  have hassured₁ := hassured.mono h₁.synchronized h₁.log
  split
  · refine concludes_completedSeal h₁.underway rfl rfl rfl ?_ hof hassured₁
    rintro _ ⟨⟩
    exact (findEffect_spec heffect).2.1
  · refine concludes_ofExcept h₁.underway fun _ _ => ?_
    split
    · exact concludes_pure h₁.underway.concluded
    · exact concludes_completedSeal h₁.underway rfl rfl rfl (by rintro _ ⟨⟩) hof hassured₁

end Reports

end PkgApply
