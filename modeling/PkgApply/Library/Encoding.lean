import Mathlib.Algebra.GroupWithZero.Nat
import Mathlib.Data.Finset.Sort
import Mathlib.Data.Set.Function

/-!
# Byte encodings

Fixed-width big-endian numbers, and encodings that can be told apart inside a
longer byte string: `Delimited` encodings end where their value ends, so a
concatenation of them determines every part.
-/

namespace PkgApply.Library

abbrev Byte := Fin 256

instance neZero_byte : NeZero 256 := ⟨by decide⟩

/-! ## Big-endian numbers -/

/-- The `width` low bytes of a number, most significant first. -/
def bigEndian : (width : Nat) → Nat → List Byte
  | 0, _ => []
  | width + 1, n => bigEndian width (n / 256) ++ [Fin.ofNat 256 n]

/-- The number some bytes spell, most significant first. -/
def ofBigEndian (bytes : List Byte) : Nat :=
  bytes.foldl (fun n byte => n * 256 + byte) 0

section BigEndian

variable {width m n : Nat}

@[simp] theorem length_bigEndian : (bigEndian width n).length = width := by
  induction width generalizing n with
  | zero => rfl
  | succ width ih => simp [bigEndian, ih]

theorem ofBigEndian_concat (bytes : List Byte) (byte : Byte) :
    ofBigEndian (bytes ++ [byte]) = ofBigEndian bytes * 256 + byte := by
  simp [ofBigEndian]

theorem ofBigEndian_bigEndian : ofBigEndian (bigEndian width n) = n % 256 ^ width := by
  induction width generalizing n with
  | zero => simp [bigEndian, ofBigEndian, Nat.mod_one]
  | succ width ih =>
    have hbyte : ((Fin.ofNat 256 n : Byte) : Nat) = n % 256 := rfl
    rw [bigEndian, ofBigEndian_concat, ih, hbyte, pow_succ', Nat.mod_mul]
    omega

theorem ofBigEndian_bigEndian_of_lt (h : n < 256 ^ width) :
    ofBigEndian (bigEndian width n) = n := by
  rw [ofBigEndian_bigEndian, Nat.mod_eq_of_lt h]

/-- Some bytes are what their number spells. -/
theorem bigEndian_ofBigEndian (bytes : List Byte) :
    bigEndian bytes.length (ofBigEndian bytes) = bytes := by
  induction bytes using List.reverseRecOn with
  | nil => rfl
  | append_singleton bytes byte ih =>
    have hdiv : (ofBigEndian bytes * 256 + byte) / 256 = ofBigEndian bytes := by omega
    have hmod : Fin.ofNat 256 (ofBigEndian bytes * 256 + byte) = byte := by
      apply Fin.ext
      simp only [Fin.ofNat_eq_cast, Fin.val_natCast]
      omega
    rw [List.length_append, List.length_singleton, ofBigEndian_concat, bigEndian, hdiv, hmod, ih]

theorem ofBigEndian_lt (bytes : List Byte) : ofBigEndian bytes < 256 ^ bytes.length := by
  rw [← bigEndian_ofBigEndian bytes, ofBigEndian_bigEndian, length_bigEndian]
  exact Nat.mod_lt _ (Nat.pow_pos (by decide))

theorem bigEndian_inj (hm : m < 256 ^ width) (hn : n < 256 ^ width)
    (h : bigEndian width m = bigEndian width n) : m = n := by
  rw [← ofBigEndian_bigEndian_of_lt hm, ← ofBigEndian_bigEndian_of_lt hn, h]

end BigEndian

/-! ## Encodings that end where their value ends -/

section Delimited

variable {α β γ : Type} {s : Set α} {t : Set γ} {enc : α → List β} {enc' : γ → List β}

/-- Two encodings followed by anything agree only on the same value and the
same continuation. -/
def DelimitedOn (enc : α → List β) (s : Set α) : Prop :=
  ∀ a ∈ s, ∀ b ∈ s, ∀ x y, enc a ++ x = enc b ++ y → a = b ∧ x = y

abbrev Delimited (enc : α → List β) : Prop := DelimitedOn enc Set.univ

theorem DelimitedOn.mono {s' : Set α} (h : DelimitedOn enc s) (hs : s' ⊆ s) :
    DelimitedOn enc s' :=
  fun a ha b hb => h a (hs ha) b (hs hb)

/-- A delimited encoding is injective. -/
theorem DelimitedOn.injOn (h : DelimitedOn enc s) : Set.InjOn enc s := by
  intro a ha b hb heq
  exact (h a ha b hb [] [] (by rw [heq])).1

/-- Encodings of one length are delimited as soon as they are injective. -/
theorem DelimitedOn.of_length (n : Nat) (hlength : ∀ a, (enc a).length = n)
    (hinj : Set.InjOn enc s) : DelimitedOn enc s := by
  intro a ha b hb x y h
  obtain ⟨henc, hrest⟩ := List.append_inj h (by rw [hlength, hlength])
  exact ⟨hinj ha hb henc, hrest⟩

/-- Encoding through an injection. -/
theorem DelimitedOn.comp (h : DelimitedOn enc s) {f : γ → α} (hf : Set.MapsTo f t s)
    (hinj : Set.InjOn f t) : DelimitedOn (enc ∘ f) t := by
  intro a ha b hb x y heq
  obtain ⟨hfab, hrest⟩ := h (f a) (hf ha) (f b) (hf hb) x y heq
  exact ⟨hinj ha hb hfab, hrest⟩

/-- One encoding after another. -/
theorem DelimitedOn.prod (h : DelimitedOn enc s) (h' : DelimitedOn enc' t) :
    DelimitedOn (fun p : α × γ => enc p.1 ++ enc' p.2) (s ×ˢ t) := by
  rintro ⟨a, c⟩ ⟨ha, hc⟩ ⟨b, d⟩ ⟨hb, hd⟩ x y heq
  simp only [List.append_assoc] at heq
  obtain ⟨rfl, hsecond⟩ := h a ha b hb _ _ heq
  obtain ⟨rfl, hrest⟩ := h' c hc d hd _ _ hsecond
  exact ⟨rfl, hrest⟩

/-- Elements one after the other, when their number is known. -/
theorem DelimitedOn.flatMap (h : DelimitedOn enc s) {l l' : List α} (hl : ∀ a ∈ l, a ∈ s)
    (hl' : ∀ a ∈ l', a ∈ s) (hlength : l.length = l'.length) {x y : List β}
    (heq : l.flatMap enc ++ x = l'.flatMap enc ++ y) : l = l' ∧ x = y := by
  induction l generalizing l' with
  | nil =>
    obtain rfl := List.length_eq_zero_iff.mp hlength.symm
    exact ⟨rfl, heq⟩
  | cons a l ih =>
    cases l' with
    | nil => cases hlength
    | cons b l' =>
      simp only [List.flatMap_cons, List.append_assoc] at heq
      obtain ⟨rfl, htail⟩ := h a (hl a List.mem_cons_self) b (hl' b List.mem_cons_self) _ _ heq
      obtain ⟨rfl, hrest⟩ := ih (fun a ha => hl a (List.mem_cons_of_mem _ ha))
        (fun a ha => hl' a (List.mem_cons_of_mem _ ha)) (by simpa using hlength) htail
      exact ⟨rfl, hrest⟩

/-- A tag and, when it is set, the value. -/
def tagged (tag : Bool → List β) (enc : α → List β) : Option α → List β
  | none => tag false
  | some a => tag true ++ enc a

theorem DelimitedOn.tagged {tag : Bool → List β} (htag : Delimited tag)
    (h : DelimitedOn enc s) :
    DelimitedOn (tagged tag enc) {o | ∀ a, o = some a → a ∈ s} := by
  intro o ho o' ho' x y heq
  cases o with
  | none =>
    cases o' with
    | none => exact ⟨rfl, (htag _ trivial _ trivial _ _ heq).2⟩
    | some b =>
      simp only [Library.tagged, List.append_assoc] at heq
      exact absurd (htag _ trivial _ trivial _ _ heq).1 Bool.false_ne_true
  | some a =>
    cases o' with
    | none =>
      simp only [Library.tagged, List.append_assoc] at heq
      exact absurd (htag _ trivial _ trivial _ _ heq).1.symm Bool.false_ne_true
    | some b =>
      simp only [Library.tagged, List.append_assoc] at heq
      obtain ⟨-, heq⟩ := htag _ trivial _ trivial _ _ heq
      obtain ⟨rfl, hrest⟩ := h a (ho a rfl) b (ho' b rfl) _ _ heq
      exact ⟨rfl, hrest⟩

/-- The number of elements and the elements. -/
def counted (count : Nat → List β) (enc : α → List β) (l : List α) : List β :=
  count l.length ++ l.flatMap enc

theorem DelimitedOn.counted {count : Nat → List β} {sizes : Set Nat}
    (hcount : DelimitedOn count sizes) (h : DelimitedOn enc s) :
    DelimitedOn (counted count enc) {l | l.length ∈ sizes ∧ ∀ a ∈ l, a ∈ s} := by
  rintro l ⟨hsize, hl⟩ l' ⟨hsize', hl'⟩ x y heq
  simp only [Library.counted, List.append_assoc] at heq
  obtain ⟨hlength, heq⟩ := hcount _ hsize _ hsize' _ _ heq
  exact h.flatMap hl hl' hlength heq

end Delimited

/-- Numbers of a fixed width. -/
theorem delimitedOn_bigEndian (width : Nat) :
    DelimitedOn (bigEndian width) {n | n < 256 ^ width} :=
  .of_length width (fun _ => length_bigEndian) fun _ hm _ hn h => bigEndian_inj hm hn h

/-! ## Sets as ascending lists -/

section Ascending

variable {α : Type} [LinearOrder α]

/-- The elements of a finite set in ascending order. -/
def ascending (s : Finset α) : List α :=
  Quot.liftOn s.val (·.insertionSort (· ≤ ·)) fun _ _ h =>
    (((List.perm_insertionSort _ _).trans h).trans (List.perm_insertionSort _ _).symm).eq_of_pairwise'
      (List.pairwise_insertionSort _ _) (List.pairwise_insertionSort _ _)

theorem ascending_eq_sort (s : Finset α) : ascending s = s.sort := by
  obtain ⟨⟨l⟩, hnodup⟩ := s
  exact (List.mergeSort_eq_insertionSort (r := (· ≤ ·)) l).symm

@[simp] theorem length_ascending (s : Finset α) : (ascending s).length = s.card := by
  rw [ascending_eq_sort, Finset.length_sort]

theorem nodup_ascending (s : Finset α) : (ascending s).Nodup := by
  rw [ascending_eq_sort]
  exact Finset.sort_nodup _ _

@[simp] theorem toFinset_ascending [DecidableEq α] (s : Finset α) : (ascending s).toFinset = s := by
  rw [ascending_eq_sort, Finset.sort_toFinset]

theorem ascending_injective : Function.Injective (ascending : Finset α → List α) := by
  intro s t h
  rw [← toFinset_ascending s, h, toFinset_ascending]

/-- A list is in strictly ascending order exactly when it is its set in
ascending order. -/
theorem pairwise_lt_iff [DecidableEq α] {l : List α} :
    l.Pairwise (· < ·) ↔ l = ascending l.toFinset := by
  rw [ascending_eq_sort]
  constructor
  · intro h
    have hnodup : l.Nodup := h.imp ne_of_lt
    exact ((List.toFinset_sort (· ≤ ·) hnodup).mpr (h.imp le_of_lt)).symm
  · intro h
    rw [h]
    exact (Finset.sortedLT_sort _).pairwise

end Ascending

end PkgApply.Library
