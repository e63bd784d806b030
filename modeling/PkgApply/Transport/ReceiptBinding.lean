import PkgApply.Transport.Binding
import PkgApply.Transport.Preimages
import PkgApply.Transport.ReceiptCodec

/-!
# What the identity of a receipt binds

A canonical record determines what it was built from, so where SHA-256 does not
collide the identity of a receipt binds every field of it, the completed
evidence it names, and every path consequence; and the cursor of a journal
binds the receipt the journal ends in.
-/

namespace PkgApply.Transport

open Library

variable {X : Externals} {maximumEntryId maximumEntryId' : UInt64}
  {request request' : ApplicationRequest}

/-! ## Constructed values are told apart -/

theorem validBelow_pathPreimage (path : PackagePath) : pathPreimage.ValidBelow (2 ^ 64) path :=
  .along trivial (validBelow_text _)

theorem validBelow_planningPreimage {kind : IdentityKind} (identity : Identity kind) :
    (planningPreimage X kind).ValidBelow (2 ^ 64) identity :=
  .along trivial (validBelow_text _)

theorem validBelow_objectPreimage {object : CompletedObjectFact} (h : ObjectConstructed X object) :
    objectPreimage.ValidBelow (2 ^ 64) object := by
  have htotal {σ : Type} {F : Format Byte σ} {f : QualifiedFact σ} (hF : ∀ s, s ∈ F.valid) :
      (factFormat F).ValidBelow (2 ^ 64) f := .of_mem fun s _ => hF s
  refine .along (Set.mem_univ _) ?_
  apply (validBelow_pathPreimage _).seq
  refine .seq (.of_mem trivial) ?_
  refine .seq (htotal fun _ => trivial) ?_
  refine .seq (htotal fun _ => trivial) ?_
  refine .seq (htotal fun _ => trivial) ?_
  refine .seq (htotal fun _ => trivial) ?_
  apply Format.ValidBelow.seq
  · apply validBelow_fact
    intro time htime
    have hstored := h.seconds time htime
    refine .along hstored (.of_mem ⟨?_, trivial⟩)
    change (time.seconds % 2 ^ 64).toNat < 256 ^ 8
    omega
  refine .seq (htotal fun _ => trivial) ?_
  apply (validBelow_fact fun text _ => validBelow_text text).seq
  refine .seq (htotal fun _ => ⟨trivial, trivial⟩) ?_
  apply (validBelow_fact fun path _ => validBelow_pathPreimage path).seq
  exact .of_mem ⟨trivial, trivial⟩

theorem validBelow_observationPreimage {o : PathObservation} (h : ObservationConstructed X o) :
    observationPreimage.ValidBelow (2 ^ 64) o := by
  refine .along (Set.mem_univ _) ?_
  apply (validBelow_pathPreimage _).seq
  apply validBelow_fact
  intro object hobject
  exact validBelow_objectPreimage (h.object object (observedFact_eq_known.mp hobject))

theorem validBelow_consequencePreimage {c : PathConsequence}
    (h : ConsequenceConstructed X maximumEntryId c) :
    (consequencePreimage X).ValidBelow (2 ^ 64) c := by
  have howners {owners : List InstalledPackageIdentity} (hsize : owners.length < 2 ^ 64) :
      (listFormat (planningPreimage X .installedPackage)).ValidBelow (2 ^ 64) owners :=
    validBelow_list hsize fun owner _ => validBelow_planningPreimage owner
  refine .along (Set.mem_univ _) ?_
  apply (validBelow_pathPreimage _).seq
  refine .seq (.of_mem trivial) ?_
  refine .seq (.of_mem trivial) ?_
  refine .seq (.of_mem trivial) ?_
  apply Format.ValidBelow.seq
  · apply Format.ValidBelow.optional
    intro entry hentry
    exact .of_mem (lt_of_le_of_lt (h.entry entry hentry) maximumEntryId.toNat_lt)
  apply (howners h.beforeOwners_size).seq
  apply (howners h.afterOwners_size).seq
  refine .seq (.of_mem trivial) ?_
  refine .seq (.of_mem trivial) ?_
  refine .seq (.of_mem trivial) ?_
  apply (validBelow_observationPreimage h.before).seq
  apply (validBelow_observationPreimage h.after).seq
  exact .of_mem ⟨fun _ _ => trivial, trivial⟩

theorem validBelow_pathsPreimage {paths : List PathConsequence} (hsize : paths.length < 2 ^ 64)
    (h : ∀ path ∈ paths, ConsequenceConstructed X maximumEntryId path) :
    (listFormat (consequencePreimage X)).ValidBelow (2 ^ 64) paths :=
  validBelow_list hsize fun path hpath => validBelow_consequencePreimage (h path hpath)

theorem validBelow_backendEvidencePreimage {evidence : Evidence} (hsize : evidence.card < 2 ^ 64) :
    backendEvidencePreimage.ValidBelow (2 ^ 64) evidence :=
  .along trivial (validBelow_list (by rwa [length_ascending]) fun _ _ => .of_mem trivial)

theorem validBelow_evidencePreimage {e : EvidenceRecord}
    (h : EvidenceConstructed X maximumEntryId request e) :
    (evidencePreimage X).ValidBelow (2 ^ 64) e := by
  refine .along (Set.mem_univ _) ?_
  apply Format.ValidBelow.after
  apply Format.ValidBelow.after
  refine .seq (.of_mem trivial) ?_
  refine .seq (.of_mem trivial) ?_
  apply (validBelow_planningPreimage _).seq
  refine .seq (.of_mem trivial) ?_
  refine .seq (.of_mem trivial) ?_
  refine .seq (.of_mem trivial) ?_
  refine .seq (.of_mem trivial) ?_
  refine .seq (.of_mem trivial) ?_
  apply (validBelow_pathsPreimage h.paths_size h.paths).seq
  refine .seq (.of_mem trivial) ?_
  exact validBelow_backendEvidencePreimage h.evidence_size

/-- A constructed receipt has constructed paths, and so has its evidence. -/
theorem ReceiptConstructed.parts {r : ReceiptRecord}
    (h : ReceiptConstructed X maximumEntryId request r) :
    (∀ path ∈ r.paths, ConsequenceConstructed X maximumEntryId path) ∧
      r.paths.length < 2 ^ 64 ∧
        ∀ e, r.completedEvidence = some e → EvidenceConstructed X maximumEntryId request e := by
  rcases h.made with hfailed | ⟨e, evidence, he, hmade⟩
  · obtain ⟨_, _, hmade⟩ := hfailed.made
    have hr := (receiptFailed_eq_ok.mp hmade).2.2.2.2.2
    refine ⟨hfailed.paths, hfailed.paths_size, fun e he => ?_⟩
    rw [hr] at he
    cases he
  · have hr := (receiptCompleted_eq_ok.mp hmade).2.2
    rw [hr]
    refine ⟨he.paths, he.paths_size, fun e' he' => ?_⟩
    cases he'
    exact he

theorem validBelow_receiptPreimage {r : ReceiptRecord}
    (h : ReceiptConstructed X maximumEntryId request r) :
    (receiptPreimage X).ValidBelow (2 ^ 64) (receiptTuple X r) := by
  obtain ⟨hpaths, hsize, -⟩ := h.parts
  apply Format.ValidBelow.after
  apply Format.ValidBelow.after
  refine .seq (.of_mem trivial) ?_
  refine .seq (.of_mem trivial) ?_
  apply (validBelow_planningPreimage _).seq
  refine .seq (.of_mem trivial) ?_
  refine .seq (.of_mem trivial) ?_
  refine .seq (.of_mem trivial) ?_
  refine .seq (.of_mem trivial) ?_
  refine .seq (.of_mem trivial) ?_
  refine .seq (.of_mem trivial) ?_
  refine .seq (.of_mem trivial) ?_
  apply (validBelow_pathsPreimage hsize hpaths).seq
  refine .seq (.of_mem fun _ _ => trivial) ?_
  refine .seq (.of_mem fun _ _ => trivial) ?_
  exact validBelow_backendEvidencePreimage h.evidence_size

/-! ## Equal identities -/

/-- What the identity of a receipt depends on: its record and the record of the
evidence it names. -/
def ReceiptRecord.preimages (X : Externals) (r : ReceiptRecord) : List (List Byte) :=
  (r.record X).bytes :: r.completedEvidence.toList.map fun e => (e.record X).bytes

/-- Every record a receipt depends on has a `size_t` size. -/
def ReceiptRecord.Sized (X : Externals) (r : ReceiptRecord) : Prop :=
  ∀ bytes ∈ r.preimages X, bytes.length < 2 ^ 64

section Equal

variable {a b : EvidenceRecord} {r r' : ReceiptRecord}

/-- The record of completed evidence determines the evidence. -/
theorem evidenceRecord_inj (ha : EvidenceConstructed X maximumEntryId request a)
    (hb : EvidenceConstructed X maximumEntryId' request' b)
    (hsize : (a.record X).bytes.length < 2 ^ 64)
    (h : (a.record X).bytes = (b.record X).bytes) : a = b := by
  have hsize' : (b.record X).bytes.length < 2 ^ 64 := h ▸ hsize
  rw [bytes_evidenceRecord] at hsize hsize'
  rw [bytes_evidenceRecord, bytes_evidenceRecord] at h
  exact (evidencePreimage X).inj (validBelow_evidencePreimage ha hsize)
    (validBelow_evidencePreimage hb hsize') h

/-- The record of a receipt determines what it holds. -/
theorem receiptRecord_inj (hr : ReceiptConstructed X maximumEntryId request r)
    (hr' : ReceiptConstructed X maximumEntryId' request' r')
    (hsize : (r.record X).bytes.length < 2 ^ 64)
    (h : (r.record X).bytes = (r'.record X).bytes) : receiptTuple X r = receiptTuple X r' := by
  have hsize' : (r'.record X).bytes.length < 2 ^ 64 := h ▸ hsize
  rw [bytes_receiptRecord] at hsize hsize'
  rw [bytes_receiptRecord, bytes_receiptRecord] at h
  exact (receiptPreimage X).inj (validBelow_receiptPreimage hr hsize)
    (validBelow_receiptPreimage hr' hsize') h

/-- Evidence that receipts name by one identity is one. -/
private theorem namedEvidence_eq (hr : ReceiptConstructed X maximumEntryId request r)
    (hr' : ReceiptConstructed X maximumEntryId' request' r') (hsized : r.Sized X)
    (hfree : X.CollisionFree (r.preimages X) (r'.preimages X))
    (h : r.completedEvidence.map (EvidenceRecord.identity X) =
      r'.completedEvidence.map (EvidenceRecord.identity X)) :
    r.completedEvidence = r'.completedEvidence := by
  cases he : r.completedEvidence with
  | none =>
    rw [he] at h
    exact (Option.map_eq_none_iff.mp h.symm).symm
  | some e =>
    rw [he] at h
    obtain ⟨e', he', hidentity⟩ := Option.map_eq_some_iff.mp h.symm
    have hmem : (e.record X).bytes ∈ r.preimages X := by simp [ReceiptRecord.preimages, he]
    have hmem' : (e'.record X).bytes ∈ r'.preimages X := by simp [ReceiptRecord.preimages, he']
    have hbytes := hfree _ hmem _ hmem' (congrArg TypedDigest.digest hidentity.symm)
    rw [he', evidenceRecord_inj (hr.parts.2.2 e he) (hr'.parts.2.2 e' he') (hsized _ hmem) hbytes]

/-- Receipts of one identity are one. -/
theorem receipt_eq_of_identity (hr : ReceiptConstructed X maximumEntryId request r)
    (hr' : ReceiptConstructed X maximumEntryId' request' r') (hsized : r.Sized X)
    (hfree : X.CollisionFree (r.preimages X) (r'.preimages X))
    (h : r.identity X = r'.identity X) : r = r' := by
  have hbytes := hfree _ List.mem_cons_self _ List.mem_cons_self (congrArg TypedDigest.digest h)
  have htuple := receiptRecord_inj hr hr' (hsized _ List.mem_cons_self) hbytes
  have hevidence := namedEvidence_eq hr hr' hsized hfree
    (congrArg (fun p => p.2.2.2.2.2.2.2.2.2.2.2.2.1) htuple)
  cases r
  cases r'
  simp only [receiptTuple, Prod.mk.injEq] at htuple
  simp_all

end Equal

/-- **Receipts are bound.**  Where SHA-256 does not collide on their records,
constructed receipts of one identity agree in every field, with the completed
evidence and every path consequence, whatever requests they were constructed
for; and journals whose cursors have one identity end in one receipt. -/
theorem receipt_bound (X : Externals) {maximumEntryId maximumEntryId' : UInt64}
    {request request' : ApplicationRequest} {r r' : ReceiptRecord}
    (hr : ReceiptConstructed X maximumEntryId request r)
    (hr' : ReceiptConstructed X maximumEntryId' request' r') (hsized : r.Sized X) :
    (X.CollisionFree (r.preimages X) (r'.preimages X) → r.identity X = r'.identity X → r = r') ∧
      ∀ c c' : Cursor, X.CollisionFree (c.record.bytes :: r.preimages X)
          (c'.record.bytes :: r'.preimages X) →
        c.receipt = some (r.identity X) → c'.receipt = some (r'.identity X) →
          c.identity X = c'.identity X → c = c' ∧ r = r' := by
  constructor
  · exact receipt_eq_of_identity hr hr' hsized
  · intro c c' hfree hc hc' hidentity
    have hbytes := hfree _ List.mem_cons_self _ List.mem_cons_self
      (congrArg TypedDigest.digest hidentity)
    obtain rfl := Cursor.record_injective hbytes
    refine ⟨rfl, receipt_eq_of_identity hr hr' hsized ?_ (Option.some.inj (hc.symm.trans hc'))⟩
    exact fun x hx y hy => hfree x (List.mem_cons_of_mem _ hx) y (List.mem_cons_of_mem _ hy)

/-! ## The receipt of a removal -/

section Removed

open EvidenceCodec ReceiptCodec

/-- The cursor of a journal that ends in the receipt. -/
private def removedCursor : Cursor :=
  ⟨toolIdentity, 1, toolCursor.latestStep, .applicationCompleted,
    some ⟨0x3fb6386d521218ae7c490e18ab396d3aa53a8e9e8e625747426d87f5bbcfa145⟩,
    some ⟨0xb66c5335859628fe3f61feb8040465ad6b37ea0cb4980e1b895d7a0c61f40a58⟩⟩

/-- The records of the receipt with their identities. -/
private theorem records_removed :
    (removedEvidence {⟨30⟩}).identity .reference =
      ⟨0xb66c5335859628fe3f61feb8040465ad6b37ea0cb4980e1b895d7a0c61f40a58⟩ ∧
    (removedReceipt {⟨30⟩, ⟨31⟩}).identity .reference =
      ⟨0x3fb6386d521218ae7c490e18ab396d3aa53a8e9e8e625747426d87f5bbcfa145⟩ ∧
    removedCursor.identity .reference =
      ⟨0x821e89104ece752ebda06af344952727841b5d6aaea95dbc8423db7a34dff217⟩ ∧
    ((removedReceipt {⟨30⟩, ⟨31⟩}).record .reference).bytes.length = 640 ∧
    ((removedEvidence {⟨30⟩}).record .reference).bytes.length = 581 := by
  decide +kernel

/-- SHA-256 itself does not collide on the three records. -/
private theorem collisionFree_removed : Externals.reference.CollisionFree
    (removedCursor.record.bytes :: (removedReceipt {⟨30⟩, ⟨31⟩}).preimages .reference)
    (removedCursor.record.bytes :: (removedReceipt {⟨30⟩, ⟨31⟩}).preimages .reference) := by
  apply Externals.collisionFree_self
  obtain ⟨hevidence, hreceipt, hcursor, -⟩ := records_removed
  have hcursor := congrArg TypedDigest.digest hcursor
  have hreceipt := congrArg TypedDigest.digest hreceipt
  have hevidence := congrArg TypedDigest.digest hevidence
  change ([_, _, _] : List (BitVec 256)).Nodup
  rw [show Externals.reference.sha256 removedCursor.record.bytes = _ from hcursor,
    show Externals.reference.sha256 ((removedReceipt {⟨30⟩, ⟨31⟩}).record .reference).bytes = _
      from hreceipt,
    show Externals.reference.sha256 ((removedEvidence {⟨30⟩}).record .reference).bytes = _
      from hevidence]
  decide

private theorem sized_removed : (removedReceipt {⟨30⟩, ⟨31⟩}).Sized .reference := by
  intro bytes hbytes
  obtain ⟨-, -, -, hreceipt, hevidence⟩ := records_removed
  rcases List.mem_pair.mp hbytes with rfl | rfl
  · exact lt_of_eq_of_lt hreceipt (by omega)
  · exact lt_of_eq_of_lt hevidence (by omega)

/-- The receipt binds its backend evidence as a set. -/
theorem receipt_bound_removed : removedCursor = removedCursor ∧
    removedReceipt {⟨30⟩, ⟨31⟩} = removedReceipt {⟨31⟩, ⟨30⟩} := by
  have hsame : removedReceipt {⟨31⟩, ⟨30⟩} = removedReceipt {⟨30⟩, ⟨31⟩} :=
    congrArg removedReceipt (Finset.pair_comm _ _)
  have hconstructed := constructed_removedReceipt {⟨30⟩, ⟨31⟩} (by decide)
  have hconstructed' := constructed_removedReceipt {⟨31⟩, ⟨30⟩} (by decide)
  have hnamed : removedCursor.receipt =
      some ((removedReceipt {⟨30⟩, ⟨31⟩}).identity .reference) := by
    rw [records_removed.2.1]
    rfl
  exact (receipt_bound .reference hconstructed hconstructed' sized_removed).2 removedCursor
    removedCursor (hsame ▸ collisionFree_removed) hnamed (hsame ▸ hnamed) rfl

end Removed

end PkgApply.Transport
