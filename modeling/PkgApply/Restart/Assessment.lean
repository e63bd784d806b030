import PkgApply.Journal.History

/-!
# Restart assessment

What a journal alone says about how its application may go on.
-/

namespace PkgApply

inductive RestartDisposition where
  | terminal
  | resumeForward
  | resumeRecovery
  | externalResolutionRequired
deriving DecidableEq, Repr

namespace RestartDisposition

def resumable : RestartDisposition → Bool
  | resumeForward | resumeRecovery => true
  | terminal | externalResolutionRequired => false

end RestartDisposition

/-- What a list of events amounts to for one effect. -/
def eventsProgress (events : List JournalEvent) (effect : JournalEffect) : EffectProgress :=
  events.foldl (fun p event => if event.effect = effect then p.record event.kind else p) .untouched

/-- An active effect left without a terminal event, or with a failed one. -/
def activeEffectRequiresRecovery (r : JournalRecord) : Bool :=
  r.effects.any fun effect =>
    effect.kind == .publishActiveObject &&
      match eventsProgress r.events effect with
      | ⟨intended, none⟩ => intended
      | ⟨_, some kind⟩ => kind == .failed || kind == .indeterminate

/-- How the application of a journal may go on. -/
def assessRestart (r : JournalRecord) : RestartDisposition :=
  if r.receipt.isSome then
    if r.state = .indeterminate ∨ r.state = .externalResolutionPending then
      .externalResolutionRequired
    else .terminal
  else
    match r.state with
    | .preparing | .prepared | .effectsVisible | .resultObserved => .resumeForward
    | .mutating => if activeEffectRequiresRecovery r then .resumeRecovery else .resumeForward
    | .recoveryPending | .recovering => .resumeRecovery
    | .applicationCompleted | .recovered | .finalized | .abandoned => .terminal
    | .externalResolutionPending | .indeterminate => .externalResolutionRequired

end PkgApply
