import PkgApply.Transport.Canonical
import PkgApply.Transport.ReceiptCodec
import PkgApply.Transport.ReplayRoundTrip

/-!
# Encodings told apart

The durable encodings of the journal, of what it retains and of what it ends
in.  What one decoder accepts never begins with what the same or another one
accepts: bytes cut short, run together or taken for another kind are refused.
-/

namespace PkgApply.Transport

open Library TransportCodec JournalCodec ReplayCodec EvidenceCodec ReceiptCodec

/-- The durable encodings. -/
inductive Encoding where
  | declaration
  | step
  | cursor
  | record
  | replaySeed
  | replayFact
  | completedEvidence
  | receipt
deriving DecidableEq

namespace Encoding

/-- The decoder of an encoding accepts some bytes, for some request where it
takes one. -/
def Accepts (X : Externals) (data : List Byte) : Encoding → Prop
  | declaration => ∃ value, decodeDeclaration X data = .ok value
  | step => ∃ value, decodeStep X data = .ok value
  | cursor => ∃ value, decodeCursor X data = .ok value
  | record => ∃ value, decodeApplicationJournal X data = .ok value
  | replaySeed => ∃ value, ReplayCodec.decodeReplaySeed X data = .ok value
  | replayFact => ∃ request value, ReplayCodec.decodeReplayFact X request data = .ok value
  | completedEvidence => ∃ maximumEntryId request value,
      decodeCompletedApplicationEvidence X maximumEntryId request data = .ok value
  | receipt => ∃ maximumEntryId request value,
      decodeApplicationReceipt X maximumEntryId request data = .ok value

/-- What an encoding opens with. -/
def magic : Encoding → List Byte
  | declaration => declarationMagic
  | step => stepMagic
  | cursor => cursorMagic
  | record => journalMagic
  | replaySeed | replayFact => replayMagic
  | completedEvidence => evidenceMagic
  | receipt => receiptMagic

/-- What an encoding spells. -/
def Spelled : Encoding → Type
  | declaration => SpelledDeclaration
  | step => SpelledStep
  | cursor => TypedDigest .applicationJournalCursor × Cursor
  | record => SpelledSnapshot
  | replaySeed | replayFact => Σ tag, SpelledBody tag
  | completedEvidence => SpelledEvidence
  | receipt => SpelledReceipt

def format (X : Externals) : (encoding : Encoding) → Format Byte encoding.Spelled
  | declaration => declarationFormat
  | step => stepFormat
  | cursor => cursorFormat
  | record => snapshotFormat
  | replaySeed | replayFact => replayFormat
  | completedEvidence => envelopeFormat X evidenceMagic evidenceFormat
  | receipt => envelopeFormat X receiptMagic receiptFormat

variable {X : Externals} {encoding encoding' : Encoding} {data data' : List Byte}

theorem valid_cursor (s : TypedDigest .applicationJournalCursor × Cursor) :
    s ∈ cursorFormat.valid :=
  ⟨trivial, trivial, trivial, fun _ _ => trivial, trivial, fun _ _ => trivial, fun _ _ => trivial⟩

/-- An accepted encoding is a spelling of its format. -/
theorem Accepts.spells (h : encoding.Accepts X data) :
    ∃ s ∈ (encoding.format X).valid, data = (encoding.format X).spell s := by
  cases encoding with
  | declaration =>
    obtain ⟨value, h⟩ := h
    obtain ⟨-, s, hs, hdata, -⟩ := (decodes_declaration data value).mp h
    exact ⟨s, hs, hdata⟩
  | step =>
    obtain ⟨value, h⟩ := h
    obtain ⟨-, s, hs, hdata, -⟩ := (decodes_step data value).mp h
    exact ⟨s, hs, hdata⟩
  | cursor =>
    obtain ⟨value, h⟩ := h
    obtain ⟨hsize, hdata⟩ := spelled_of_decodeCursor h
    exact ⟨_, valid_cursor _, hdata⟩
  | record =>
    obtain ⟨value, h⟩ := h
    obtain ⟨-, s, hs, hdata, -⟩ := (decodes_journal data value).mp h
    exact ⟨s, hs, hdata⟩
  | replaySeed =>
    obtain ⟨value, h⟩ := h
    obtain ⟨-, s, hs, hdata, -⟩ := (decodes_seed data value).mp h
    exact ⟨s, hs, hdata⟩
  | replayFact =>
    obtain ⟨request, value, h⟩ := h
    obtain ⟨-, s, hs, hdata, -⟩ := (decodes_fact data value).mp h
    exact ⟨s, hs, hdata⟩
  | completedEvidence =>
    obtain ⟨maximumEntryId, request, value, h⟩ := h
    obtain ⟨-, s, hs, hdata, -⟩ := (decodes_evidence data value).mp h
    exact ⟨s, hs, hdata⟩
  | receipt =>
    obtain ⟨maximumEntryId, request, value, h⟩ := h
    obtain ⟨-, s, hs, hdata, -⟩ := (decodes_receipt data value).mp h
    exact ⟨s, hs, hdata⟩

theorem length_magic (encoding : Encoding) : encoding.magic.length = 8 := by
  cases encoding <;> decide +kernel

theorem magic_begins (s : encoding.Spelled) :
    encoding.magic <+: (encoding.format X).spell s := by
  cases encoding with
  | replaySeed | replayFact => exact (List.prefix_append _ _).trans (List.prefix_append _ _)
  | _ => exact List.prefix_append _ _

/-- The magics differ, but for the two replay encodings, which differ in their tags. -/
theorem eq_of_magic (h : encoding.magic = encoding'.magic) : encoding = encoding' ∨
    (encoding = replaySeed ∧ encoding' = replayFact) ∨
      (encoding = replayFact ∧ encoding' = replaySeed) := by
  cases encoding <;> cases encoding' <;>
    first
    | exact .inl rfl
    | exact .inr (.inl ⟨rfl, rfl⟩)
    | exact .inr (.inr ⟨rfl, rfl⟩)
    | exact absurd h (by decide +kernel)

/-- What has the tag of a seed is no fact. -/
theorem not_seed_and_fact (hseed : replaySeed.Accepts X data) : ¬replayFact.Accepts X data := by
  rintro ⟨request, fact, hfact⟩
  obtain ⟨batch, hseed⟩ := hseed
  obtain ⟨-, ⟨tag, body⟩, hs, hdata, hdenotes⟩ := (decodes_seed data batch).mp hseed
  obtain ⟨-, s', hs', hdata', hdenotes'⟩ := (decodes_fact data fact).mp hfact
  obtain rfl := replayFormat.inj hs hs' (hdata.symm.trans hdata')
  cases tag with
  | seed => exact hdenotes'
  | _ => exact hdenotes

/-- Encodings that open alike are of one kind. -/
private theorem magic_of_prefix (h : encoding.Accepts X data) (h' : encoding'.Accepts X data')
    (hbegins : data <+: data') : encoding.magic = encoding'.magic := by
  obtain ⟨s, -, rfl⟩ := h.spells
  obtain ⟨s', -, rfl⟩ := h'.spells
  have hmagic : encoding.magic <+: (encoding'.format X).spell s' :=
    (magic_begins s).trans hbegins
  have hlength : encoding.magic.length = encoding'.magic.length := by
    rw [length_magic, length_magic]
  exact (List.prefix_of_prefix_length_le hmagic (magic_begins s') hlength.le).eq_of_length hlength

/-- What a decoder accepts begins nothing else that any decoder accepts: no cut
or extension of it is accepted, and no decoder of another kind accepts it. -/
theorem accepts_prefix_free (h : encoding.Accepts X data) (h' : encoding'.Accepts X data')
    (hbegins : data <+: data') : encoding = encoding' ∧ data = data' := by
  have hreplay : ∀ {s s' : Σ tag, SpelledBody tag}, s ∈ replayFormat.valid →
      s' ∈ replayFormat.valid → replayFormat.spell s <+: replayFormat.spell s' →
        replayFormat.spell s = replayFormat.spell s' := by
    intro s s' hs hs' hspelled
    rw [Format.eq_of_prefix hs hs' hspelled]
  have hmagic := magic_of_prefix h h' hbegins
  obtain ⟨s, hs, hdata⟩ := h.spells
  obtain ⟨s', hs', hdata'⟩ := h'.spells
  rcases eq_of_magic hmagic with rfl | ⟨rfl, rfl⟩ | ⟨rfl, rfl⟩
  · refine ⟨rfl, ?_⟩
    rw [hdata, hdata'] at hbegins ⊢
    rw [Format.eq_of_prefix hs hs' hbegins]
  · have hsame : data = data' := by
      rw [hdata, hdata'] at hbegins ⊢
      exact hreplay hs hs' hbegins
    exact absurd (hsame ▸ h') (not_seed_and_fact h)
  · have hsame : data = data' := by
      rw [hdata, hdata'] at hbegins ⊢
      exact hreplay hs hs' hbegins
    exact absurd (hsame ▸ h) (not_seed_and_fact h')

/-- A cursor with a byte behind it is no encoding of anything. -/
theorem accepts_prefix_free_cursor : ∃ data, cursor.Accepts .reference data ∧
    ∀ (encoding : Encoding) (byte : Byte), ¬encoding.Accepts .reference (data ++ [byte]) := by
  obtain ⟨data, hdata, -⟩ := encodeCursor_ok (X := .reference) toolCursor
  have hcursor : cursor.Accepts .reference data :=
    ⟨_, decodeCursor_encode reaches_toolCursor (by decide) hdata⟩
  refine ⟨data, hcursor, fun encoding byte haccepts => ?_⟩
  obtain ⟨-, hsame⟩ := accepts_prefix_free hcursor haccepts (List.prefix_append _ _)
  simp at hsame

end Encoding

end PkgApply.Transport
