import Mathlib.Tactic.TypeStar

/-!
# Encoders and decoders that agree

An encoder appends to what has been written and may refuse; a decoder consumes
what remains and may refuse.  `Agree w r a` says that whatever `w` appends, `r`
consumes exactly and reads as `a`, whatever follows.  Agreement composes along
the structure of the two programs, so a whole format is proved field by field.
-/

namespace PkgApply.Library

/-- A program over a list: an encoder's list is what it has written, a
decoder's is what remains. -/
abbrev Coder (β ε α : Type) := StateT (List β) (Except ε) α

variable {β ε ε' α α' γ : Type} {w w' : Coder β ε Unit} {r : Coder β ε' α} {a : α}

/-- What the encoder appends, the decoder reads as `a`. -/
def Agree (w : Coder β ε Unit) (r : Coder β ε' α) (a : α) : Prop :=
  ∀ out out', w out = .ok ((), out') →
    ∃ bytes, out' = out ++ bytes ∧ ∀ rest, r (bytes ++ rest) = .ok (a, rest)

/-- An encoder ran after another. -/
theorem encode_bind_eq_ok {out out' : List β} :
    (do w; w') out = .ok ((), out') ↔
      ∃ middle, w out = .ok ((), middle) ∧ w' middle = .ok ((), out') := by
  change (w out >>= fun p => w' p.2) = .ok ((), out') ↔ _
  cases h : w out with
  | error e => simp [bind, Except.bind]
  | ok p => simp [bind, Except.bind, Prod.ext_iff]

/-- A decoder ran after another. -/
theorem decode_bind {k : α → Coder β ε' γ} {input rest : List β}
    (h : r input = .ok (a, rest)) : (r >>= k) input = k a rest := by
  change (r input >>= fun p => k p.1 p.2) = _
  rw [h]
  rfl

/-! ## Composition -/

theorem Agree.nothing : Agree (pure () : Coder β ε Unit) (pure a : Coder β ε' α) a := by
  intro out out' h
  cases h
  exact ⟨[], (List.append_nil _).symm, fun _ => rfl⟩

/-- One field after another. -/
theorem Agree.bind {k : α → Coder β ε' γ} {c : γ} (h : Agree w r a) (h' : Agree w' (k a) c) :
    Agree (do w; w') (r >>= k) c := by
  intro out out' hw
  obtain ⟨middle, hfirst, hsecond⟩ := encode_bind_eq_ok.mp hw
  obtain ⟨bytes, rfl, hread⟩ := h _ _ hfirst
  obtain ⟨more, rfl, hread'⟩ := h' _ _ hsecond
  refine ⟨bytes ++ more, List.append_assoc .., fun rest => ?_⟩
  rw [List.append_assoc, decode_bind (hread _), hread']

/-- What a decoder makes of a field without reading on. -/
theorem Agree.then {k : α → Coder β ε' γ} {c : γ} (h : Agree w r a)
    (hk : ∀ rest, k a rest = .ok (c, rest)) : Agree w (r >>= k) c := by
  intro out out' hw
  obtain ⟨bytes, hout, hread⟩ := h _ _ hw
  refine ⟨bytes, hout, fun rest => ?_⟩
  rw [decode_bind (hread _), hk]

/-- A fact that holds whenever the encoder does not refuse. -/
theorem Agree.of_encoded {p : Prop} (hp : ∀ out out', w out = .ok ((), out') → p)
    (h : p → Agree w r a) : Agree w r a :=
  fun out out' hw => h (hp out out' hw) out out' hw

/-- An encoder that refuses agrees with every decoder. -/
theorem Agree.of_refused (hw : ∀ out out', w out ≠ .ok ((), out')) : Agree w r a :=
  fun out out' h => absurd h (hw out out')

/-- A whole encoding is read to its end. -/
theorem Agree.run {bytes : List β} (h : Agree w r a) (hw : w [] = .ok ((), bytes)) :
    r bytes = .ok (a, []) := by
  obtain ⟨written, rfl, hread⟩ := h _ _ hw
  have hrest := hread []
  rwa [List.append_nil] at hrest

/-! ## Lists and optional values -/

def encodeEach (encode : α → Coder β ε Unit) : List α → Coder β ε Unit
  | [] => pure ()
  | a :: rest => do
    encode a
    encodeEach encode rest

def decodeEach (decode : Coder β ε' α) : Nat → Coder β ε' (List α)
  | 0 => pure []
  | n + 1 => do
    let a ← decode
    let rest ← decodeEach decode n
    pure (a :: rest)

/-- Elements that agree one by one agree as a list. -/
theorem agree_each {encode : α' → Coder β ε Unit} {decode : Coder β ε' α} (value : α' → α)
    {l : List α'} (h : ∀ a ∈ l, Agree (encode a) decode (value a)) :
    Agree (encodeEach encode l) (decodeEach decode l.length) (l.map value) := by
  induction l with
  | nil => exact .nothing
  | cons a rest ih =>
    apply (h a List.mem_cons_self).bind
    apply (ih fun b hb => h b (List.mem_cons_of_mem _ hb)).then
    exact fun _ => rfl

def encodeOptional (flag : Bool → Coder β ε Unit) (encode : α → Coder β ε Unit) :
    Option α → Coder β ε Unit
  | none => flag false
  | some a => do
    flag true
    encode a

def decodeOptional (flag : Coder β ε' Bool) (decode : Coder β ε' α) :
    Coder β ε' (Option α) := do
  if ← flag then
    let a ← decode
    pure (some a)
  else
    pure none

theorem agree_optional {flag : Bool → Coder β ε Unit} {flag' : Coder β ε' Bool}
    {encode : α' → Coder β ε Unit} {decode : Coder β ε' α} (value : α' → α) {o : Option α'}
    (hflag : ∀ present, Agree (flag present) flag' present)
    (h : ∀ a, o = some a → Agree (encode a) decode (value a)) :
    Agree (encodeOptional flag encode o) (decodeOptional flag' decode) (o.map value) := by
  cases o with
  | none => exact (hflag false).then fun _ => rfl
  | some a =>
    apply (hflag true).bind
    exact (h a rfl).then fun _ => rfl

end PkgApply.Library
