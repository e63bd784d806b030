import PkgApply.Library.Codec
import PkgApply.Library.Encoding
import Mathlib.Data.List.Flatten

/-!
# Formats

The pure side of a codec.  A format says how a value is spelled and which
values it tells apart inside a longer list.  A decoder `Parses` a format when it
accepts exactly its spellings, and an encoder `Writes` a spelling when it writes
that and nothing else, and refuses only over a limit.  Both compose along the
programs, so what a decoder accepts is read off its text.
-/

namespace PkgApply.Library

variable {β ε α γ σ τ : Type}

/-- How the values of a format are spelled, one after the other. -/
structure Format (β σ : Type) where
  spell : σ → List β
  valid : Set σ
  delimited : DelimitedOn spell valid

namespace Format

variable (F : Format β σ) (G : Format β τ)

/-- Nothing at all. -/
def nothing : Format β Unit where
  spell _ := []
  valid := Set.univ
  delimited := fun _ _ _ _ _ _ h => ⟨rfl, h⟩

/-- One value after another. -/
def seq : Format β (σ × τ) where
  spell p := F.spell p.1 ++ G.spell p.2
  valid := F.valid ×ˢ G.valid
  delimited := F.delimited.prod G.delimited

/-- A format for the values it is in bijection with. -/
def via (e : τ ≃ σ) : Format β τ where
  spell := F.spell ∘ e
  valid := Set.preimage e F.valid
  delimited := F.delimited.comp (fun _ h => h) e.injective.injOn

/-- A format for values that a map tells apart. -/
def along (f : τ → σ) (values : Set τ) (hf : Set.InjOn f values) : Format β τ where
  spell := F.spell ∘ f
  valid := {t | t ∈ values ∧ f t ∈ F.valid}
  delimited := F.delimited.comp (fun _ h => h.2) (hf.mono fun _ h => h.1)

/-- A format after bytes that are always the same. -/
def after (bytes : List β) : Format β σ where
  spell s := bytes ++ F.spell s
  valid := F.valid
  delimited := fun a ha b hb x y h =>
    F.delimited a ha b hb x y (by simpa only [List.append_assoc, List.append_cancel_left_eq] using h)

/-- A number of elements and the elements. -/
def list (count : Format β Nat) : Format β (List σ) where
  spell := counted count.spell F.spell
  valid := {l | l.length ∈ count.valid ∧ ∀ a ∈ l, a ∈ F.valid}
  delimited := count.delimited.counted F.delimited

/-- A flag and, when it is set, a value. -/
def optional (flag : Format β Bool) (hflag : flag.valid = Set.univ) : Format β (Option σ) where
  spell := tagged flag.spell F.spell
  valid := {o | ∀ a, o = some a → a ∈ F.valid}
  delimited := DelimitedOn.tagged (flag.delimited.mono hflag.ge) F.delimited

/-- A flag and one of two values, as the flag says. -/
def either (flag : Format β Bool) (hflag : flag.valid = Set.univ) : Format β (σ ⊕ τ) where
  spell
    | .inl s => flag.spell true ++ F.spell s
    | .inr t => flag.spell false ++ G.spell t
  valid := {x | Sum.elim (· ∈ F.valid) (· ∈ G.valid) x}
  delimited := by
    have hvalid (present : Bool) : present ∈ flag.valid := hflag ▸ trivial
    rintro (s | t) hs (s' | t') hs' x y h <;> simp only [List.append_assoc] at h
    · obtain ⟨-, h⟩ := flag.delimited _ (hvalid _) _ (hvalid _) _ _ h
      obtain ⟨rfl, rfl⟩ := F.delimited s hs s' hs' _ _ h
      exact ⟨rfl, rfl⟩
    · obtain ⟨hflags, -⟩ := flag.delimited _ (hvalid _) _ (hvalid _) _ _ h
      cases hflags
    · obtain ⟨hflags, -⟩ := flag.delimited _ (hvalid _) _ (hvalid _) _ _ h
      cases hflags
    · obtain ⟨-, h⟩ := flag.delimited _ (hvalid _) _ (hvalid _) _ _ h
      obtain ⟨rfl, rfl⟩ := G.delimited t hs t' hs' _ _ h
      exact ⟨rfl, rfl⟩

/-- A value, and one of the format it calls for. -/
def sigma {ι : Type} {κ : ι → Type} (T : Format β ι) (F : (i : ι) → Format β (κ i)) :
    Format β (Σ i, κ i) where
  spell p := T.spell p.1 ++ (F p.1).spell p.2
  valid := {p | p.1 ∈ T.valid ∧ p.2 ∈ (F p.1).valid}
  delimited := by
    rintro ⟨i, s⟩ ⟨hi, hs⟩ ⟨j, t⟩ ⟨hj, ht⟩ x y h
    simp only [List.append_assoc] at h
    obtain ⟨rfl, h⟩ := T.delimited i hi j hj _ _ h
    obtain ⟨rfl, rfl⟩ := (F i).delimited s hs t ht _ _ h
    exact ⟨rfl, rfl⟩

/-- The value is valid if it is spelled in fewer than `n` elements. -/
def ValidBelow (n : Nat) (s : σ) : Prop :=
  (F.spell s).length < n → s ∈ F.valid

variable {F G}

/-- A spelling followed by anything is told apart from every other. -/
theorem inj {s s' : σ} (hs : s ∈ F.valid) (hs' : s' ∈ F.valid)
    (h : F.spell s = F.spell s') : s = s' :=
  F.delimited.injOn hs hs' h

/-- No spelling begins with another. -/
theorem eq_of_prefix {s s' : σ} (hs : s ∈ F.valid) (hs' : s' ∈ F.valid)
    (h : F.spell s <+: F.spell s') : s = s' := by
  obtain ⟨rest, h⟩ := h
  exact (F.delimited s hs s' hs' rest [] (by rw [h, List.append_nil])).1

variable (F) in
/-- A spelling of some value of this kind. -/
def SpellsAs (kind : σ → Prop) (data : List β) : Prop :=
  ∃ s ∈ F.valid, data = F.spell s ∧ kind s

theorem spellsAs_iff {kind : σ → Prop} {s : σ} (hs : s ∈ F.valid) :
    F.SpellsAs kind (F.spell s) ↔ kind s := by
  constructor
  · rintro ⟨s', hs', heq, hkind⟩
    rwa [F.inj hs hs' heq]
  · intro hkind
    exact ⟨s, hs, rfl, hkind⟩

section ValidBelow

variable {n : Nat} {s : σ}

theorem ValidBelow.of_mem (h : s ∈ F.valid) : F.ValidBelow n s :=
  fun _ => h

theorem ValidBelow.mono {m : Nat} (h : F.ValidBelow n s) (hle : m ≤ n) : F.ValidBelow m s :=
  fun hsize => h (lt_of_lt_of_le hsize hle)

theorem ValidBelow.seq {p : σ × τ} (h : F.ValidBelow n p.1) (h' : G.ValidBelow n p.2) :
    (F.seq G).ValidBelow n p := by
  intro hsize
  change (F.spell p.1 ++ G.spell p.2).length < n at hsize
  rw [List.length_append] at hsize
  exact ⟨h (by omega), h' (by omega)⟩

theorem ValidBelow.via {e : τ ≃ σ} {t : τ} (h : F.ValidBelow n (e t)) : (F.via e).ValidBelow n t :=
  h

theorem ValidBelow.along {f : τ → σ} {values : Set τ} {hf : Set.InjOn f values} {t : τ}
    (ht : t ∈ values) (h : F.ValidBelow n (f t)) : (F.along f values hf).ValidBelow n t :=
  fun hsize => ⟨ht, h hsize⟩

theorem ValidBelow.after {bytes : List β} (h : F.ValidBelow n s) :
    (F.after bytes).ValidBelow n s := by
  intro hsize
  change (bytes ++ F.spell s).length < n at hsize
  rw [List.length_append] at hsize
  exact h (by omega)

theorem ValidBelow.list {count : Format β Nat} {l : List σ} (hcount : l.length ∈ count.valid)
    (h : ∀ a ∈ l, F.ValidBelow n a) : (F.list count).ValidBelow n l := by
  intro hsize
  change (count.spell l.length ++ l.flatMap F.spell).length < n at hsize
  rw [List.length_append] at hsize
  refine ⟨hcount, fun a ha => h a ha ?_⟩
  have hle : ([a].flatMap F.spell).length ≤ (l.flatMap F.spell).length :=
    ((List.singleton_sublist.mpr ha).flatMap F.spell).length_le
  rw [List.flatMap_singleton] at hle
  omega

theorem ValidBelow.optional {flag : Format β Bool} {hflag : flag.valid = Set.univ} {o : Option σ}
    (h : ∀ a, o = some a → F.ValidBelow n a) : (F.optional flag hflag).ValidBelow n o := by
  intro hsize a ha
  rw [ha] at hsize
  change (flag.spell true ++ F.spell a).length < n at hsize
  rw [List.length_append] at hsize
  exact h a ha (by omega)

theorem ValidBelow.left {flag : Format β Bool} {hflag : flag.valid = Set.univ}
    (h : F.ValidBelow n s) : (F.either G flag hflag).ValidBelow n (.inl s) := by
  intro hsize
  change (flag.spell true ++ F.spell s).length < n at hsize
  rw [List.length_append] at hsize
  exact h (by omega)

theorem ValidBelow.right {flag : Format β Bool} {hflag : flag.valid = Set.univ} {t : τ}
    (h : G.ValidBelow n t) : (F.either G flag hflag).ValidBelow n (.inr t) := by
  intro hsize
  change (flag.spell false ++ G.spell t).length < n at hsize
  rw [List.length_append] at hsize
  exact h (by omega)

theorem ValidBelow.sigma {ι : Type} {κ : ι → Type} {T : Format β ι} {F : (i : ι) → Format β (κ i)}
    {p : Σ i, κ i} (h : T.ValidBelow n p.1) (h' : (F p.1).ValidBelow n p.2) :
    (T.sigma F).ValidBelow n p := by
  intro hsize
  change (T.spell p.1 ++ (F p.1).spell p.2).length < n at hsize
  rw [List.length_append] at hsize
  exact ⟨h (by omega), h' (by omega)⟩

end ValidBelow

end Format

/-! ## Decoders -/

/-- One decoder for each element of a list. -/
def decodeAlong {δ : Type} (decode : δ → Coder β ε α) : List δ → Coder β ε (List α)
  | [] => pure []
  | d :: rest => do
    let a ← decode d
    let more ← decodeAlong decode rest
    pure (a :: more)

/-- A decoder ran after another, both to an end. -/
theorem decode_bind_eq_ok {r : Coder β ε α} {k : α → Coder β ε γ} {input : List β}
    {out : γ × List β} :
    (r >>= k) input = .ok out ↔
      ∃ a middle, r input = .ok (a, middle) ∧ k a middle = .ok out := by
  change (r input >>= fun p => k p.1 p.2) = .ok out ↔ _
  cases h : r input with
  | error e => simp [bind, Except.bind]
  | ok p =>
    constructor
    · intro hk
      exact ⟨p.1, p.2, rfl, hk⟩
    · rintro ⟨a, middle, hp, hk⟩
      cases hp
      exact hk

/-- The guard `if (p) throw e` of a coder. -/
def refuseWhen (p : Prop) [Decidable p] (e : ε) : Coder β ε Unit :=
  if p then throw e else pure ()

@[simp] theorem refuseWhen_eq_ok {p : Prop} [Decidable p] {e : ε} {input rest : List β} {u : Unit} :
    (refuseWhen p e : Coder β ε Unit) input = .ok (u, rest) ↔ rest = input ∧ ¬p := by
  unfold refuseWhen
  by_cases hp : p
  · rw [if_pos hp]
    simp only [hp, not_true_eq_false, and_false, iff_false]
    intro h
    cases h
  · rw [if_neg hp]
    simp only [hp, not_false_eq_true, and_true]
    constructor
    · intro h
      cases h
      rfl
    · intro h
      rw [h]
      rfl

/-- On inputs within the limit, the decoder accepts exactly the spellings of
the values that denote what it returns. -/
def Parses (limit : Nat) (r : Coder β ε α) (F : Format β σ) (V : σ → α → Prop) : Prop :=
  ∀ input, input.length ≤ limit → ∀ a rest,
    r input = .ok (a, rest) ↔ ∃ s ∈ F.valid, input = F.spell s ++ rest ∧ V s a

theorem length_le_of_append {limit : Nat} {x y : List β} (h : (x ++ y).length ≤ limit) :
    y.length ≤ limit := by
  rw [List.length_append] at h
  omega

section Parses

variable {limit : Nat} {r : Coder β ε α} {k : α → Coder β ε γ} {F : Format β σ}
  {G : Format β τ} {V V' : σ → α → Prop}

/-- What a spelling is read as. -/
theorem Parses.read (h : Parses limit r F V) {s : σ} {a : α} (hs : s ∈ F.valid) {rest : List β}
    (hsize : (F.spell s ++ rest).length ≤ limit) :
    r (F.spell s ++ rest) = .ok (a, rest) ↔ V s a := by
  rw [h _ hsize]
  constructor
  · rintro ⟨s', hs', heq, hV⟩
    obtain ⟨rfl, -⟩ := F.delimited s hs s' hs' _ _ heq
    exact hV
  · intro hV
    exact ⟨s, hs, rfl, hV⟩

/-- Two ways to say what a valid spelling denotes. -/
theorem Parses.iff (h : Parses limit r F V) (hV : ∀ s ∈ F.valid, ∀ a, V s a ↔ V' s a) :
    Parses limit r F V' := by
  intro input hsize a rest
  rw [h input hsize]
  constructor
  · rintro ⟨s, hs, heq, h⟩
    exact ⟨s, hs, heq, (hV s hs a).mp h⟩
  · rintro ⟨s, hs, heq, h⟩
    exact ⟨s, hs, heq, (hV s hs a).mpr h⟩

/-- One field after another: the second denotes what it does under the first. -/
theorem Parses.bind {W : α → τ → γ → Prop} (h : Parses limit r F V)
    (hk : ∀ a, Parses limit (k a) G (W a)) :
    Parses limit (r >>= k) (F.seq G) fun p c => ∃ a, V p.1 a ∧ W a p.2 c := by
  intro input hsize c rest
  rw [decode_bind_eq_ok]
  constructor
  · rintro ⟨a, middle, hr, hkr⟩
    obtain ⟨s, hs, rfl, hV⟩ := (h input hsize a middle).mp hr
    obtain ⟨t, ht, rfl, hc⟩ := (hk a middle (length_le_of_append hsize) c rest).mp hkr
    exact ⟨(s, t), ⟨hs, ht⟩, (List.append_assoc ..).symm, a, hV, hc⟩
  · rintro ⟨⟨s, t⟩, ⟨hs, ht⟩, rfl, a, hV, hc⟩
    have hassoc : (F.seq G).spell (s, t) ++ rest = F.spell s ++ (G.spell t ++ rest) :=
      List.append_assoc ..
    rw [hassoc] at hsize ⊢
    have hsecond := ((hk a).read ht (length_le_of_append hsize)).mpr hc
    exact ⟨a, _, (h.read hs hsize).mpr hV, hsecond⟩

/-- A field that stands for itself, and the rest. -/
theorem Parses.field {r : Coder β ε σ} {k : σ → Coder β ε γ} {W : σ → τ → γ → Prop}
    (h : Parses limit r F Eq) (hk : ∀ s, Parses limit (k s) G (W s)) :
    Parses limit (r >>= k) (F.seq G) fun p c => W p.1 p.2 c :=
  (h.bind hk).iff fun _ _ _ => exists_eq_left'

/-- Bytes that are always the same, and the rest. -/
theorem Parses.after {bytes : List β} {r : Coder β ε Unit} {k : Unit → Coder β ε γ}
    {W : τ → γ → Prop}
    (h : ∀ input rest, r input = .ok ((), rest) ↔ input = bytes ++ rest)
    (hk : Parses limit (k ()) G W) : Parses limit (r >>= k) (G.after bytes) W := by
  intro input hsize c rest
  rw [decode_bind_eq_ok]
  constructor
  · rintro ⟨⟨⟩, middle, hr, hkr⟩
    obtain rfl := (h input middle).mp hr
    obtain ⟨t, ht, rfl, hc⟩ := (hk middle (length_le_of_append hsize) c rest).mp hkr
    exact ⟨t, ht, (List.append_assoc ..).symm, hc⟩
  · rintro ⟨t, ht, rfl, hc⟩
    have hassoc : (G.after bytes).spell t ++ rest = bytes ++ (G.spell t ++ rest) :=
      List.append_assoc ..
    rw [hassoc] at hsize ⊢
    exact ⟨(), _, (h _ _).mpr rfl, (hk.read ht (length_le_of_append hsize)).mpr hc⟩

/-- What a decoder makes of a field without reading on. -/
theorem Parses.then {K : α → γ → Prop} (h : Parses limit r F V)
    (hk : ∀ a input c rest, k a input = .ok (c, rest) ↔ rest = input ∧ K a c) :
    Parses limit (r >>= k) F fun s c => ∃ a, V s a ∧ K a c := by
  intro input hsize c rest
  rw [decode_bind_eq_ok]
  constructor
  · rintro ⟨a, middle, hr, hkr⟩
    obtain ⟨rfl, hK⟩ := (hk a middle c rest).mp hkr
    obtain ⟨s, hs, heq, hV⟩ := (h input hsize a rest).mp hr
    exact ⟨s, hs, heq, a, hV, hK⟩
  · rintro ⟨s, hs, heq, a, hV, hK⟩
    exact ⟨a, rest, (h input hsize a rest).mpr ⟨s, hs, heq, hV⟩, (hk a rest c rest).mpr ⟨rfl, hK⟩⟩

/-- A decision that consumes nothing, and the rest under it. -/
theorem Parses.before {δ : Type} {q : Coder β ε δ} {K : δ → Prop} {k : δ → Coder β ε γ}
    {W : δ → τ → γ → Prop} (hq : ∀ input d rest, q input = .ok (d, rest) ↔ rest = input ∧ K d)
    (hk : ∀ d, Parses limit (k d) G (W d)) :
    Parses limit (q >>= k) G fun t c => ∃ d, K d ∧ W d t c := by
  intro input hsize c rest
  rw [decode_bind_eq_ok]
  constructor
  · rintro ⟨d, middle, hd, hrest⟩
    obtain ⟨rfl, hK⟩ := (hq _ _ _).mp hd
    obtain ⟨t, ht, heq, hW⟩ := (hk d _ hsize c rest).mp hrest
    exact ⟨t, ht, heq, d, hK, hW⟩
  · rintro ⟨t, ht, heq, d, hK, hW⟩
    have hrest := (hk d input hsize c rest).mpr ⟨t, ht, heq, hW⟩
    exact ⟨d, input, (hq _ _ _).mpr ⟨rfl, hK⟩, hrest⟩

/-- A guard, and the rest. -/
theorem Parses.guard {p : Prop} [Decidable p] {e : ε} {k : Unit → Coder β ε γ}
    {W : τ → γ → Prop} (hk : Parses limit (k ()) G W) :
    Parses limit (refuseWhen p e >>= k) G fun t c => ¬p ∧ W t c :=
  (Parses.before (fun _ _ _ => refuseWhen_eq_ok) fun _ => hk).iff fun _ _ _ =>
    ⟨fun ⟨_, h⟩ => h, fun h => ⟨(), h⟩⟩

/-- A format read through a bijection, with what it then denotes. -/
theorem Parses.as {V' : τ → α → Prop} {e : τ ≃ σ} (h : Parses limit r F V)
    (hV : ∀ t, e t ∈ F.valid → ∀ a, V (e t) a ↔ V' t a) : Parses limit r (F.via e) V' := by
  intro input hsize a rest
  rw [h input hsize]
  constructor
  · rintro ⟨s, hs, heq, h⟩
    rw [← e.apply_symm_apply s] at hs heq h
    exact ⟨e.symm s, hs, heq, (hV _ hs a).mp h⟩
  · rintro ⟨t, ht, heq, h⟩
    exact ⟨e t, ht, heq, (hV t ht a).mpr h⟩

/-- Elements one after the other, when their number is known. -/
theorem Parses.each (h : Parses limit r F V) (n : Nat) :
    ∀ input, input.length ≤ limit → ∀ l rest, decodeEach r n input = .ok (l, rest) ↔
      ∃ ss : List σ, ss.length = n ∧ (∀ s ∈ ss, s ∈ F.valid) ∧
        input = ss.flatMap F.spell ++ rest ∧ List.Forall₂ V ss l := by
  induction n with
  | zero =>
    intro input _ l rest
    change Except.ok ([], input) = _ ↔ _
    constructor
    · intro heq
      cases heq
      exact ⟨[], rfl, by simp, rfl, .nil⟩
    · rintro ⟨ss, hlength, -, rfl, hV⟩
      obtain rfl := List.length_eq_zero_iff.mp hlength
      cases hV
      rfl
  | succ n ih =>
    intro input hsize l rest
    rw [decodeEach, decode_bind_eq_ok]
    constructor
    · rintro ⟨a, middle, hr, hrest⟩
      obtain ⟨s, hs, rfl, hV⟩ := (h input hsize a middle).mp hr
      obtain ⟨l', _, hl', heq⟩ := decode_bind_eq_ok.mp hrest
      cases heq
      obtain ⟨ss, hlength, hss, rfl, hVs⟩ := (ih middle (length_le_of_append hsize) l' rest).mp hl'
      refine ⟨s :: ss, by simp [hlength], ?_, by simp, .cons hV hVs⟩
      intro s' hs'
      rcases List.mem_cons.mp hs' with rfl | hs'
      · exact hs
      · exact hss s' hs'
    · rintro ⟨ss, hlength, hss, rfl, hVs⟩
      cases ss with
      | nil => cases hlength
      | cons s ss =>
        cases hVs with
        | @cons _ a _ l' hV hVs =>
          rw [List.flatMap_cons, List.append_assoc] at hsize ⊢
          have hmore := (ih _ (length_le_of_append hsize) l' rest).mpr
            ⟨ss, by simpa using hlength, fun s' hs' => hss s' (List.mem_cons_of_mem _ hs'), rfl, hVs⟩
          exact ⟨a, _, (h.read (hss s List.mem_cons_self) hsize).mpr hV,
            decode_bind_eq_ok.mpr ⟨l', rest, hmore, rfl⟩⟩

/-- Elements one after the other, each read along an element of a list. -/
theorem Parses.along {δ : Type} {r : δ → Coder β ε α} {M : δ → α → Prop}
    (h : ∀ d, Parses limit (r d) F fun s a => V s a ∧ M d a) (ds : List δ) :
    ∀ input, input.length ≤ limit → ∀ l rest, decodeAlong r ds input = .ok (l, rest) ↔
      ∃ ss : List σ, (∀ s ∈ ss, s ∈ F.valid) ∧ input = ss.flatMap F.spell ++ rest ∧
        List.Forall₂ V ss l ∧ List.Forall₂ M ds l := by
  induction ds with
  | nil =>
    intro input _ l rest
    change Except.ok ([], input) = _ ↔ _
    constructor
    · intro heq
      cases heq
      exact ⟨[], by simp, rfl, .nil, .nil⟩
    · rintro ⟨ss, -, rfl, hV, hM⟩
      cases hM
      cases hV
      rfl
  | cons d ds ih =>
    intro input hsize l rest
    rw [decodeAlong, decode_bind_eq_ok]
    constructor
    · rintro ⟨a, middle, hr, hrest⟩
      obtain ⟨s, hs, rfl, hV, hM⟩ := (h d input hsize a middle).mp hr
      obtain ⟨l', _, hl', heq⟩ := decode_bind_eq_ok.mp hrest
      cases heq
      obtain ⟨ss, hss, rfl, hVs, hMs⟩ := (ih middle (length_le_of_append hsize) l' rest).mp hl'
      exact ⟨s :: ss, List.forall_mem_cons.mpr ⟨hs, hss⟩, by simp, .cons hV hVs, .cons hM hMs⟩
    · rintro ⟨ss, hss, rfl, hVs, hMs⟩
      cases hMs with
      | @cons _ a _ l' hM hMs =>
        cases hVs with
        | @cons s _ ss _ hV hVs =>
          obtain ⟨hs, hss⟩ := List.forall_mem_cons.mp hss
          rw [List.flatMap_cons, List.append_assoc] at hsize ⊢
          have hmore := (ih _ (length_le_of_append hsize) l' rest).mpr ⟨ss, hss, rfl, hVs, hMs⟩
          exact ⟨a, _, ((h d).read hs hsize).mpr ⟨hV, hM⟩,
            decode_bind_eq_ok.mpr ⟨l', rest, hmore, rfl⟩⟩

/-- A bounded number of elements that must be that of a list, and an element
along each of the list's. -/
theorem Parses.listAlong {δ : Type} {count : Coder β ε Nat} {C : Format β Nat} {bound : Nat}
    {mismatch : ε} {r : δ → Coder β ε α} {M : δ → α → Prop} {ds : List δ}
    (hcount : Parses limit count C fun n m => n = m ∧ n ≤ bound)
    (h : ∀ d, Parses limit (r d) F fun s a => V s a ∧ M d a) :
    Parses limit (do
      let n ← count
      refuseWhen (n ≠ ds.length) mismatch
      decodeAlong r ds) (F.list C) fun ss l =>
        ss.length ≤ bound ∧ List.Forall₂ V ss l ∧ List.Forall₂ M ds l := by
  intro input hsize l rest
  simp only [decode_bind_eq_ok, refuseWhen_eq_ok, not_not]
  constructor
  · rintro ⟨n, middle, hn, _, _, ⟨rfl, rfl⟩, hl⟩
    obtain ⟨_, hn', rfl, rfl, hbound⟩ := (hcount input hsize _ _).mp hn
    obtain ⟨ss, hss, rfl, hVs, hMs⟩ :=
      (Parses.along h ds _ (length_le_of_append hsize) l rest).mp hl
    have hlength : ss.length = ds.length := hVs.length_eq.trans hMs.length_eq.symm
    rw [← hlength] at hn' hbound ⊢
    exact ⟨ss, ⟨hn', hss⟩, (List.append_assoc ..).symm, hbound, hVs, hMs⟩
  · rintro ⟨ss, ⟨hn, hss⟩, rfl, hbound, hVs, hMs⟩
    have hlength : ss.length = ds.length := hVs.length_eq.trans hMs.length_eq.symm
    have hassoc : (F.list C).spell ss ++ rest =
        C.spell ss.length ++ (ss.flatMap F.spell ++ rest) := List.append_assoc ..
    rw [hassoc] at hsize ⊢
    have helements := (Parses.along h ds _ (length_le_of_append hsize) l rest).mpr
      ⟨ss, hss, rfl, hVs, hMs⟩
    exact ⟨ss.length, _, (hcount.read hn hsize).mpr ⟨rfl, hbound⟩, (), _, ⟨rfl, hlength⟩, helements⟩

/-- A bounded number of elements and the elements. -/
theorem Parses.list {count : Coder β ε Nat} {C : Format β Nat} {bound : Nat}
    (hcount : Parses limit count C fun n m => n = m ∧ n ≤ bound) (h : Parses limit r F V) :
    Parses limit (count >>= decodeEach r) (F.list C) fun ss l =>
      ss.length ≤ bound ∧ List.Forall₂ V ss l := by
  intro input hsize l rest
  rw [decode_bind_eq_ok]
  constructor
  · rintro ⟨n, middle, hn, hl⟩
    obtain ⟨n', hn', rfl, rfl, hbound⟩ := (hcount input hsize n middle).mp hn
    obtain ⟨ss, rfl, hss, rfl, hVs⟩ := (h.each n' middle (length_le_of_append hsize) l rest).mp hl
    exact ⟨ss, ⟨hn', hss⟩, (List.append_assoc ..).symm, hbound, hVs⟩
  · rintro ⟨ss, ⟨hn, hss⟩, rfl, hbound, hVs⟩
    have hassoc : (F.list C).spell ss ++ rest =
        C.spell ss.length ++ (ss.flatMap F.spell ++ rest) := List.append_assoc ..
    rw [hassoc] at hsize ⊢
    have helements := (h.each _ _ (length_le_of_append hsize) l rest).mpr ⟨ss, rfl, hss, rfl, hVs⟩
    exact ⟨ss.length, _, (hcount.read hn hsize).mpr ⟨rfl, hbound⟩, helements⟩

/-- A flag and, when it is set, a value. -/
theorem Parses.optional {flag : Format β Bool} {readFlag : Coder β ε Bool}
    (hflag : flag.valid = Set.univ) (hread : Parses limit readFlag flag Eq)
    (h : Parses limit r F V) :
    Parses limit (decodeOptional readFlag r) (F.optional flag hflag) (Option.Rel V) := by
  have hvalid (present : Bool) : present ∈ flag.valid := hflag ▸ trivial
  intro input hsize o rest
  rw [decodeOptional, decode_bind_eq_ok]
  constructor
  · rintro ⟨present, middle, hpresent, hrest⟩
    obtain ⟨present', -, rfl, rfl⟩ := (hread input hsize present middle).mp hpresent
    cases present' with
    | false =>
      cases hrest
      exact ⟨none, fun _ hnone => (by cases hnone), rfl, .none⟩
    | true =>
      obtain ⟨a, _, ha, heq⟩ := decode_bind_eq_ok.mp hrest
      cases heq
      obtain ⟨s, hs, rfl, hV⟩ := (h middle (length_le_of_append hsize) a rest).mp ha
      refine ⟨some s, fun _ hsome => Option.some.inj hsome ▸ hs, ?_, .some hV⟩
      exact (List.append_assoc ..).symm
  · rintro ⟨os, hos, rfl, hV⟩
    cases hV with
    | none => exact ⟨false, rest, (hread.read (hvalid false) hsize).mpr rfl, rfl⟩
    | @some s a hV =>
      have hassoc : (F.optional flag hflag).spell (some s) ++ rest =
          flag.spell true ++ (F.spell s ++ rest) := List.append_assoc ..
      rw [hassoc] at hsize ⊢
      have hvalue := (h.read (hos s rfl) (length_le_of_append hsize)).mpr hV
      exact ⟨true, _, (hread.read (hvalid true) hsize).mpr rfl,
        decode_bind_eq_ok.mpr ⟨a, rest, hvalue, rfl⟩⟩

/-- A flag and what it calls for. -/
theorem Parses.either {flag : Format β Bool} {readFlag : Coder β ε Bool}
    {k : Bool → Coder β ε γ} {V : σ → γ → Prop} {W : τ → γ → Prop}
    (hflag : flag.valid = Set.univ) (hread : Parses limit readFlag flag Eq)
    (h : Parses limit (k true) F V) (h' : Parses limit (k false) G W) :
    Parses limit (readFlag >>= k) (F.either G flag hflag) fun x c =>
      match x with
      | .inl s => V s c
      | .inr t => W t c := by
  have hvalid (present : Bool) : present ∈ flag.valid := hflag ▸ trivial
  intro input hsize c rest
  rw [decode_bind_eq_ok]
  constructor
  · rintro ⟨present, middle, hpresent, hrest⟩
    obtain ⟨present', -, rfl, rfl⟩ := (hread input hsize present middle).mp hpresent
    cases present' with
    | true =>
      obtain ⟨s, hs, rfl, hV⟩ := (h middle (length_le_of_append hsize) c rest).mp hrest
      exact ⟨.inl s, hs, (List.append_assoc ..).symm, hV⟩
    | false =>
      obtain ⟨t, ht, rfl, hW⟩ := (h' middle (length_le_of_append hsize) c rest).mp hrest
      exact ⟨.inr t, ht, (List.append_assoc ..).symm, hW⟩
  · rintro ⟨s | t, hs, rfl, hV⟩
    · have hassoc : (F.either G flag hflag).spell (.inl s) ++ rest =
          flag.spell true ++ (F.spell s ++ rest) := List.append_assoc ..
      rw [hassoc] at hsize ⊢
      have hvalue := (h.read hs (length_le_of_append hsize)).mpr hV
      exact ⟨true, _, (hread.read (hvalid true) hsize).mpr rfl, hvalue⟩
    · have hassoc : (F.either G flag hflag).spell (.inr t) ++ rest =
          flag.spell false ++ (G.spell t ++ rest) := List.append_assoc ..
      rw [hassoc] at hsize ⊢
      have hvalue := (h'.read hs (length_le_of_append hsize)).mpr hV
      exact ⟨false, _, (hread.read (hvalid false) hsize).mpr rfl, hvalue⟩

/-- A value and what it calls for. -/
theorem Parses.sigma {ι : Type} {κ : ι → Type} {T : Format β ι} {F : (i : ι) → Format β (κ i)}
    {r : Coder β ε ι} {k : ι → Coder β ε γ} {W : (i : ι) → κ i → γ → Prop}
    (h : Parses limit r T Eq) (hk : ∀ i, Parses limit (k i) (F i) (W i)) :
    Parses limit (r >>= k) (T.sigma F) fun p c => W p.1 p.2 c := by
  intro input hsize c rest
  rw [decode_bind_eq_ok]
  constructor
  · rintro ⟨i, middle, hi, hc⟩
    obtain ⟨i, hvalid, rfl, rfl⟩ := (h input hsize i middle).mp hi
    obtain ⟨s, hs, rfl, hW⟩ := (hk i middle (length_le_of_append hsize) c rest).mp hc
    exact ⟨⟨i, s⟩, ⟨hvalid, hs⟩, (List.append_assoc ..).symm, hW⟩
  · rintro ⟨⟨i, s⟩, ⟨hvalid, hs⟩, rfl, hW⟩
    have hassoc : (T.sigma F).spell ⟨i, s⟩ ++ rest = T.spell i ++ ((F i).spell s ++ rest) :=
      List.append_assoc ..
    rw [hassoc] at hsize ⊢
    have hvalue := ((hk i).read hs (length_le_of_append hsize)).mpr hW
    exact ⟨i, _, (h.read hvalid hsize).mpr rfl, hvalue⟩

end Parses

/-! ## Encoders -/

/-- The encoder writes this spelling and nothing else, and it does wherever the
spelling fits the limit. -/
structure Writes (limit : Nat) (w : Coder β ε Unit) (s : List β) : Prop where
  exact : ∀ out out', w out = .ok ((), out') → out' = out ++ s
  fits : ∀ out, out.length + s.length ≤ limit → w out = .ok ((), out ++ s)

section Writes

variable {limit : Nat} {w w' : Coder β ε Unit} {s s' : List β}

theorem Writes.nothing : Writes limit (pure () : Coder β ε Unit) [] where
  exact := by
    intro out out' h
    cases h
    exact (List.append_nil _).symm
  fits := by
    intro out _
    rw [List.append_nil]
    rfl

/-- One field after another. -/
theorem Writes.bind (h : Writes limit w s) (h' : Writes limit w' s') :
    Writes limit (do w; w') (s ++ s') where
  exact := by
    intro out out' hw
    obtain ⟨middle, hfirst, hsecond⟩ := encode_bind_eq_ok.mp hw
    rw [h'.exact _ _ hsecond, h.exact _ _ hfirst, List.append_assoc]
  fits := by
    intro out hsize
    rw [List.length_append] at hsize
    rw [encode_bind_eq_ok]
    refine ⟨out ++ s, h.fits out (by omega), ?_⟩
    rw [← List.append_assoc]
    exact h'.fits _ (by rw [List.length_append]; omega)

theorem Writes.of_eq (h : Writes limit w s) (hs : s = s') : Writes limit w s' :=
  hs ▸ h

/-- Two fields that the format has as one, and the rest. -/
theorem Writes.pair {w'' : Coder β ε Unit} {s'' : List β} (h : Writes limit w s)
    (h' : Writes limit w' s') (h'' : Writes limit w'' s'') :
    Writes limit (do w; w'; w'') ((s ++ s') ++ s'') :=
  (h.bind (h'.bind h'')).of_eq (List.append_assoc ..).symm

/-- Elements one after the other. -/
theorem writes_each {encode : α → Coder β ε Unit} {spell : α → List β} {l : List α}
    (h : ∀ a ∈ l, Writes limit (encode a) (spell a)) :
    Writes limit (encodeEach encode l) (l.flatMap spell) := by
  induction l with
  | nil => exact .nothing
  | cons a rest ih =>
    rw [List.flatMap_cons]
    exact (h a List.mem_cons_self).bind (ih fun b hb => h b (List.mem_cons_of_mem _ hb))

theorem writes_optional {flag : Bool → Coder β ε Unit} {flag' : Bool → List β}
    {encode : α → Coder β ε Unit} {spell : α → List β} {o : Option α}
    (hflag : ∀ present, Writes limit (flag present) (flag' present))
    (h : ∀ a, o = some a → Writes limit (encode a) (spell a)) :
    Writes limit (encodeOptional flag encode o) (tagged flag' spell o) := by
  cases o with
  | none => exact hflag false
  | some a => exact (hflag true).bind (h a rfl)

end Writes

/-! ## Whole encodings -/

/-- The encoder gives the spelling of every value it accepts that fits the
limit, and nothing else. -/
def Encodes (limit : Nat) (encode : α → Except ε (List β)) (F : Format β σ) (spelled : α → σ)
    (accepted : α → Prop) : Prop :=
  ∀ a data, encode a = .ok data ↔
    accepted a ∧ data = F.spell (spelled a) ∧ (F.spell (spelled a)).length ≤ limit

/-- The decoder accepts exactly the spellings within the limit, as what they
denote. -/
def Decodes (limit : Nat) (decode : List β → Except ε α) (F : Format β σ) (V : σ → α → Prop) :
    Prop :=
  ∀ data a, decode data = .ok a ↔ data.length ≤ limit ∧ ∃ s ∈ F.valid, data = F.spell s ∧ V s a

/-- The encoder gives one spelling of every value that a valid spelling denotes,
and that one is canonical. -/
structure Respells (limit : Nat) (encode : α → Except ε (List β)) (F : Format β σ)
    (V : σ → α → Prop) (canonical : σ → Prop) (spelled : α → σ) : Prop where
  encodes : ∀ s a, s ∈ F.valid → V s a → ∀ data, encode a = .ok data ↔
    data = F.spell (spelled a) ∧ (F.spell (spelled a)).length ≤ limit
  valid : ∀ s a, s ∈ F.valid → V s a → F.ValidBelow (limit + 1) (spelled a)
  canonical : ∀ s a, V s a → (canonical s ↔ s = spelled a)

section Encodings

variable {ε' : Type} {limit : Nat} {encode : α → Except ε (List β)}
  {decode : List β → Except ε' α} {F : Format β σ} {V : σ → α → Prop} {spelled : α → σ}
  {accepted : α → Prop} {a : α} {data : List β}

/-- What the encoder gave reads back exactly when its spelling denotes the
value. -/
theorem Encodes.decode_iff (hencode : Encodes limit encode F spelled accepted)
    (hdecode : Decodes limit decode F V) (hvalid : F.ValidBelow (limit + 1) (spelled a))
    (h : encode a = .ok data) : decode data = .ok a ↔ V (spelled a) a := by
  obtain ⟨-, rfl, hsize⟩ := (hencode a data).mp h
  have hspelled := hvalid (Nat.lt_succ_of_le hsize)
  rw [hdecode]
  constructor
  · rintro ⟨-, s, hs, heq, hV⟩
    obtain rfl := F.inj hspelled hs heq
    exact hV
  · intro hV
    exact ⟨hsize, _, hspelled, rfl, hV⟩

/-- Accepted data is encoded again as it was exactly when it spells a value
canonically. -/
theorem Decodes.encode_iff {canonical : σ → Prop} (hdecode : Decodes limit decode F V)
    (hrespells : Respells limit encode F V canonical spelled) (h : decode data = .ok a) :
    encode a = .ok data ↔ F.SpellsAs canonical data := by
  obtain ⟨hsize, s, hs, rfl, hV⟩ := (hdecode data a).mp h
  rw [Format.spellsAs_iff hs, hrespells.canonical s a hV, hrespells.encodes s a hs hV]
  constructor
  · rintro ⟨heq, hle⟩
    exact F.inj hs (hrespells.valid s a hs hV (Nat.lt_succ_of_le hle)) heq
  · intro heq
    rw [← heq]
    exact ⟨rfl, hsize⟩

end Encodings

end PkgApply.Library
