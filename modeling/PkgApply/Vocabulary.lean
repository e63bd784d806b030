import Mathlib.Data.Finset.Basic
import Mathlib.Data.List.Lex
import Mathlib.Order.Fin.Basic
import PkgApply.Library.Encoding

/-!
# Shared vocabulary

Identities, paths, backend evidence and exceptions.  An identity the library
receives from outside is an opaque digest tagged with the authority it names;
an identity the library derives from a record stands for that record, so two
records with equal identities are equal.
-/

namespace PkgApply

/-! ## Exceptions -/

/-- The exceptions the library lets escape. -/
inductive Exn where
  | invalidArgument (message : String)
  | logicError (message : String)
deriving DecidableEq, Repr

/-- The guard `if (p) throw e`. -/
def refuseIf (p : Prop) [Decidable p] (e : Exn) : Except Exn Unit :=
  if p then .error e else .ok ()

section Refuse

variable {α : Type} {p : Prop} [Decidable p] {e : Exn} {f : Unit → Except Exn α} {a : α}

@[simp] theorem refuseIf_eq_ok {u : Unit} : refuseIf p e = .ok u ↔ ¬p := by
  unfold refuseIf
  by_cases hp : p <;> simp [hp]

/-- Passing a guard. -/
@[simp] theorem refuseIf_bind_eq_ok : (refuseIf p e >>= f) = .ok a ↔ ¬p ∧ f () = .ok a := by
  unfold refuseIf
  by_cases hp : p <;> simp [hp, bind, Except.bind]

theorem refuseIf_bind_of_not (hp : ¬p) : (refuseIf p e >>= f) = f () := by
  simp [refuseIf, hp, bind, Except.bind]

theorem refuseIf_bind_of (hp : p) : (refuseIf p e >>= f) = .error e := by
  simp [refuseIf, hp, bind, Except.bind]

end Refuse

theorem bind_eq_ok_iff {ε α β : Type} {x : Except ε α} {f : α → Except ε β} {b : β} :
    (x >>= f) = .ok b ↔ ∃ a, x = .ok a ∧ f a = .ok b := by
  cases x <;> simp [bind, Except.bind]

/-- A check and what follows it. -/
theorem andThen_eq_ok {ε α : Type} {first : Except ε Unit} {rest : Unit → Except ε α} {a : α} :
    (first >>= rest) = .ok a ↔ first = .ok () ∧ rest () = .ok a := by
  rw [bind_eq_ok_iff]
  constructor
  · rintro ⟨⟨⟩, hfirst, hrest⟩
    exact ⟨hfirst, hrest⟩
  · rintro ⟨hfirst, hrest⟩
    exact ⟨(), hfirst, hrest⟩

/-- The values a partial computation gives along a list, in order. -/
def collect {α β : Type} (f : α → Except Exn (Option β)) : List α → Except Exn (List β)
  | [] => return []
  | a :: rest => do
    let value ← f a
    let values ← collect f rest
    return value.toList ++ values

section Collect

variable {α β γ : Type} {f : α → Except Exn (Option β)} {l : List α} {values : List β}

theorem collect_cons_eq_ok {a : α} : collect f (a :: l) = .ok values ↔
    ∃ value rest, f a = .ok value ∧ collect f l = .ok rest ∧ values = value.toList ++ rest := by
  simp only [collect, bind_eq_ok_iff, pure, Except.pure, Except.ok.injEq, eq_comm (b := values)]
  constructor
  · rintro ⟨value, hvalue, rest, hrest, rfl⟩
    exact ⟨value, rest, hvalue, hrest, rfl⟩
  · rintro ⟨value, rest, hvalue, hrest, rfl⟩
    exact ⟨value, hvalue, rest, hrest, rfl⟩

/-- Collecting succeeds at every element. -/
theorem collect_each (h : collect f l = .ok values) : ∀ a ∈ l, ∃ value, f a = .ok value := by
  induction l generalizing values with
  | nil => exact fun a ha => absurd ha List.not_mem_nil
  | cons x rest ih =>
    obtain ⟨value, more, hvalue, hmore, rfl⟩ := collect_cons_eq_ok.mp h
    intro a ha
    rcases List.mem_cons.mp ha with rfl | ha
    · exact ⟨value, hvalue⟩
    · exact ih hmore a ha

/-- Collecting succeeds when every element does. -/
theorem collect_ok (h : ∀ a ∈ l, ∃ value, f a = .ok value) : ∃ values, collect f l = .ok values := by
  induction l with
  | nil => exact ⟨[], rfl⟩
  | cons x rest ih =>
    obtain ⟨value, hvalue⟩ := h x List.mem_cons_self
    obtain ⟨values, hvalues⟩ := ih fun a ha => h a (List.mem_cons_of_mem _ ha)
    exact ⟨_, collect_cons_eq_ok.mpr ⟨value, values, hvalue, hvalues, rfl⟩⟩

/-- What is collected corresponds, in order, to the elements that give a value. -/
theorem collect_forall₂ (p : α → Bool)
    (hp : ∀ a ∈ l, ∀ value, f a = .ok value → value.isSome = p a)
    (h : collect f l = .ok values) :
    List.Forall₂ (fun a b => f a = .ok (some b)) (l.filter p) values := by
  induction l generalizing values with
  | nil =>
    cases h
    exact .nil
  | cons x rest ih =>
    obtain ⟨value, more, hvalue, hmore, rfl⟩ := collect_cons_eq_ok.mp h
    have hx := hp x List.mem_cons_self value hvalue
    have hrest := ih (fun a ha => hp a (List.mem_cons_of_mem _ ha)) hmore
    cases value with
    | none =>
      rw [List.filter_cons_of_neg (by simp [← hx])]
      exact hrest
    | some b =>
      rw [List.filter_cons_of_pos (by simp [← hx])]
      exact .cons hvalue hrest

/-- Collecting fails only as some element does. -/
theorem collect_error {e : Exn} (h : collect f l = .error e) : ∃ a ∈ l, f a = .error e := by
  induction l with
  | nil => cases h
  | cons x rest ih =>
    cases hx : f x with
    | error e' =>
      simp only [collect, hx, bind, Except.bind, Except.error.injEq] at h
      exact ⟨x, List.mem_cons_self, by rw [hx, h]⟩
    | ok value =>
      cases hrest : collect f rest with
      | error e' =>
        simp only [collect, hx, hrest, bind, Except.bind, Except.error.injEq] at h
        obtain ⟨a, ha, hfa⟩ := ih (by rw [hrest, h])
        exact ⟨a, List.mem_cons_of_mem _ ha, hfa⟩
      | ok values => simp [collect, hx, hrest, bind, Except.bind, pure, Except.pure] at h

/-- What is collected is what some element gives. -/
theorem mem_collect (h : collect f l = .ok values) (b : β) :
    b ∈ values ↔ ∃ a ∈ l, f a = .ok (some b) := by
  induction l generalizing values with
  | nil =>
    simp only [collect, pure, Except.pure, Except.ok.injEq] at h
    simp [← h]
  | cons x rest ih =>
    obtain ⟨value, more, hvalue, hmore, rfl⟩ := collect_cons_eq_ok.mp h
    rw [List.mem_append, Option.mem_toList, ih hmore]
    constructor
    · rintro (hb | ⟨a, ha, hb⟩)
      · exact ⟨x, List.mem_cons_self, by rw [hvalue, hb]⟩
      · exact ⟨a, List.mem_cons_of_mem _ ha, hb⟩
    · rintro ⟨a, ha, hb⟩
      rcases List.mem_cons.mp ha with rfl | ha
      · rw [hvalue] at hb
        exact .inl (Except.ok.inj hb)
      · exact .inr ⟨a, ha, hb⟩

/-- Collecting keeps the order of any label the values share with the elements. -/
theorem collect_sublist (label : β → γ) (label' : α → γ)
    (hlabel : ∀ a b, f a = .ok (some b) → label b = label' a) (h : collect f l = .ok values) :
    (values.map label).Sublist (l.map label') := by
  induction l generalizing values with
  | nil =>
    simp only [collect, pure, Except.pure, Except.ok.injEq] at h
    simp [← h]
  | cons x rest ih =>
    obtain ⟨value, more, hvalue, hmore, rfl⟩ := collect_cons_eq_ok.mp h
    cases value with
    | none => simpa using (ih hmore).cons _
    | some b =>
      simp only [Option.toList_some, List.singleton_append, List.map_cons, hlabel x b hvalue]
      exact (ih hmore).cons_cons _

end Collect

/-! ## Identities -/

/-- The authorities whose digests are produced outside the library. -/
inductive IdentityKind where
  | mutationBackend
  | observationBackend
  | capabilityProfile
  | operationPlan
  | applicationRequest
  | targetContext
  | executionControl
  | leaseInstance
  | exclusionDomain
  | installedSnapshot
  | ownershipInventory
  | installedPackage
  | projectionEvidence
  | backendEvidence
  | rejectedObjectRecord
  | regularContent
  | packageImage
deriving DecidableEq, Repr

/-- A digest together with the authority it names. -/
structure Identity (kind : IdentityKind) where
  digest : BitVec 256
deriving DecidableEq, Repr

abbrev MutationBackendIdentity := Identity .mutationBackend
abbrev ObservationBackendIdentity := Identity .observationBackend
abbrev CapabilityProfileIdentity := Identity .capabilityProfile
abbrev OperationPlanIdentity := Identity .operationPlan
abbrev ApplicationRequestIdentity := Identity .applicationRequest
abbrev TargetContextIdentity := Identity .targetContext
abbrev ExecutionControlIdentity := Identity .executionControl
abbrev MutationLeaseInstanceIdentity := Identity .leaseInstance
abbrev MutationExclusionDomainIdentity := Identity .exclusionDomain
abbrev InstalledStateSnapshotIdentity := Identity .installedSnapshot
abbrev OwnershipInventoryIdentity := Identity .ownershipInventory
abbrev InstalledPackageIdentity := Identity .installedPackage
abbrev StateProjectionEvidenceIdentity := Identity .projectionEvidence
abbrev BackendEvidenceIdentity := Identity .backendEvidence
abbrev RejectedObjectRecordIdentity := Identity .rejectedObjectRecord
abbrev RegularContentIdentity := Identity .regularContent
abbrev PackageImageIdentity := Identity .packageImage

/-- Backend evidence.  The source keeps a sorted vector and refuses a
duplicate, so a value is exactly a finite set. -/
abbrev Evidence := Finset BackendEvidenceIdentity

/-- The 256-bit nonce of one attempt. -/
abbrev AttemptNonce := BitVec 256

/-! ## Paths -/

/-- A package path by its bytes, ordered bytewise. -/
structure PackagePath where
  bytes : List (Fin 256)
deriving DecidableEq, Repr

namespace PackagePath

theorem bytes_injective : Function.Injective PackagePath.bytes := by
  rintro ⟨p⟩ ⟨q⟩ h
  simpa using h

instance : LinearOrder PackagePath :=
  LinearOrder.lift' PackagePath.bytes bytes_injective

/-- The byte `/`. -/
def separator : Fin 256 := 0x2f

/-- `a` names a strict ancestor of `b`. -/
def isAncestorOf (a b : PackagePath) : Bool :=
  (a.bytes ++ [separator]).isPrefixOf b.bytes

/-- A strict ancestor has a shorter path. -/
theorem length_lt_of_isAncestorOf {a b : PackagePath} (h : a.isAncestorOf b) :
    a.bytes.length < b.bytes.length := by
  unfold isAncestorOf at h
  have hlength := (List.isPrefixOf_iff_prefix.mp h).length_le
  rw [List.length_append, List.length_singleton] at hlength
  omega

/-- Ancestry is irreflexive. -/
theorem isAncestorOf_irrefl (a : PackagePath) : a.isAncestorOf a = false := by
  by_contra h
  exact lt_irrefl _ (length_lt_of_isAncestorOf (Bool.not_eq_false _ ▸ h))

end PackagePath

/-- An entry of the incoming package image. -/
abbrev EntryId := Nat

/-! ## Operations -/

inductive OperationKind where
  | install
  | upgrade
  | remove
deriving DecidableEq, Repr

/-- What a plan requires of the active namespace at one path. -/
inductive PlannedActiveOutcome where
  | activateIncoming
  | retainObserved
  | removeObserved
  | removeDirectoryIfEmpty
  | remainAbsent
deriving DecidableEq, Repr

/-- What a plan requires of the rejected-object store at one path. -/
inductive PlannedRejectedOutcome where
  | none
  | stageIncoming
  | stageOld
deriving DecidableEq, Repr

/-- Mechanism-level completion reported by a backend. -/
inductive BackendOperationOutcome where
  | completed
  | conditionalRetained
  | failed
  | indeterminate
deriving DecidableEq, Repr

end PkgApply
