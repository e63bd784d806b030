import Mathlib.Data.Fintype.Card
import Mathlib.Data.List.Lex
import Mathlib.Data.Set.Finite.Basic
import Mathlib.Logic.Relation
import Mathlib.Order.WellFounded

/-!
# Greedy orders

Elements with constraints "`a` before `b`" and a key.  The greedy order takes
the ready element of least key until none is ready.  It respects every
constraint, it is the only such order, and it takes everything exactly when
the constraints have no cycle.
-/

namespace PkgApply.Library.Ordering

variable {α κ : Type} {r : α → α → Prop} {rest : Set α} {order other : List α} {a b : α}

/-- Nothing in `rest` has to come before `a`. -/
def Ready (r : α → α → Prop) (rest : Set α) (a : α) : Prop :=
  a ∈ rest ∧ ∀ b ∈ rest, ¬r b a

/-- Take the ready element of least key until no element is ready. -/
inductive Greedy [LinearOrder κ] (r : α → α → Prop) (key : α → κ) : Set α → List α → Prop
  | stuck {rest : Set α} (hnone : ∀ a, ¬Ready r rest a) : Greedy r key rest []
  | take {rest : Set α} {a : α} {order : List α} (hready : Ready r rest a)
      (hleast : ∀ b, Ready r rest b → key a ≤ key b) (hrest : Greedy r key (rest \ {a}) order) :
      Greedy r key rest (a :: order)

/-- The constraints inside `rest` lead from some element back to it. -/
def Cyclic (r : α → α → Prop) (rest : Set α) : Prop :=
  ∃ a, Relation.TransGen (fun a b => a ∈ rest ∧ b ∈ rest ∧ r a b) a a

/-- No element comes after one it has to precede. -/
def Respects (r : α → α → Prop) (order : List α) : Prop :=
  order.Pairwise fun a b => ¬r b a

/-! ## Cycles -/

/-- A rank that every constraint raises leaves no room for a cycle. -/
theorem not_cyclic_of_rank [Preorder κ] (rank : α → κ)
    (h : ∀ a ∈ rest, ∀ b ∈ rest, r a b → rank a < rank b) : ¬Cyclic r rest := by
  rintro ⟨a, ha⟩
  have hlt : ∀ b, Relation.TransGen (fun a b => a ∈ rest ∧ b ∈ rest ∧ r a b) a b →
      rank a < rank b := by
    intro b hb
    induction hb with
    | single hab => exact h _ hab.1 _ hab.2.1 hab.2.2
    | tail _ hbc ih => exact ih.trans (h _ hbc.1 _ hbc.2.1 hbc.2.2)
  exact lt_irrefl _ (hlt a ha)

/-- Without a cycle some element of a finite set is ready. -/
theorem exists_ready (hfinite : rest.Finite) (hne : rest.Nonempty) (hcycle : ¬Cyclic r rest) :
    ∃ a, Ready r rest a := by
  have := hfinite.to_subtype
  let before : rest → rest → Prop := Relation.TransGen fun a b => r a b
  have hlift : ∀ a b : rest, before a b →
      Relation.TransGen (fun a b => a ∈ rest ∧ b ∈ rest ∧ r a b) a.1 b.1 := by
    intro a b hab
    exact Relation.TransGen.lift Subtype.val (fun a b h => ⟨a.2, b.2, h⟩) _ _ hab
  have : IsTrans rest before := ⟨fun _ _ _ => Relation.TransGen.trans⟩
  have : Std.Irrefl before := ⟨fun a ha => hcycle ⟨a, hlift a a ha⟩⟩
  obtain ⟨x, hx⟩ := hne
  obtain ⟨a, -, hmin⟩ := (Finite.wellFounded_of_trans_of_irrefl before).has_min Set.univ
    ⟨⟨x, hx⟩, trivial⟩
  exact ⟨a, a.2, fun b hb hba => hmin ⟨b, hb⟩ trivial (.single hba)⟩

/-- A cycle inside a part is a cycle of the whole. -/
theorem Cyclic.mono {part : Set α} (h : Cyclic r part) (hsub : part ⊆ rest) : Cyclic r rest := by
  obtain ⟨a, ha⟩ := h
  exact ⟨a, Relation.TransGen.mono (fun x y h => ⟨hsub h.1, hsub h.2.1, h.2.2⟩) _ _ ha⟩

/-- What an order puts first, positions confirm. -/
theorem Respects.idxOf_lt [DecidableEq α] (h : Respects r order) (ha : a ∈ order) (hb : b ∈ order)
    (hne : a ≠ b) (hab : r a b) : order.idxOf a < order.idxOf b := by
  by_contra hlt
  have hidx : order.idxOf b ≠ order.idxOf a := fun heq => hne ((List.idxOf_inj hb).mp heq).symm
  have hbound := List.idxOf_lt_length_iff.mpr ha
  have hpair := List.pairwise_iff_getElem.mp h (order.idxOf b) (order.idxOf a)
    (List.idxOf_lt_length_iff.mpr hb) hbound (by omega)
  rw [List.getElem_idxOf, List.getElem_idxOf] at hpair
  exact hpair hab

/-- An order of everything excludes a cycle. -/
theorem Respects.not_cyclic (h : Respects r order) (hirrefl : ∀ a ∈ rest, ¬r a a)
    (hall : ∀ a ∈ rest, a ∈ order) : ¬Cyclic r rest := by
  classical
  refine not_cyclic_of_rank (fun a => order.idxOf a) fun a ha b hb hab => ?_
  refine h.idxOf_lt (hall a ha) (hall b hb) ?_ hab
  rintro rfl
  exact hirrefl a ha hab

/-! ## The greedy order -/

namespace Greedy

variable [LinearOrder κ] {key : α → κ}

theorem mem_rest (h : Greedy r key rest order) : ∀ a ∈ order, a ∈ rest := by
  induction h with
  | stuck => simp
  | take hready _ _ ih =>
    intro a ha
    rcases List.mem_cons.mp ha with rfl | ha
    · exact hready.1
    · exact (ih a ha).1

theorem nodup (h : Greedy r key rest order) : order.Nodup := by
  induction h with
  | stuck => exact List.nodup_nil
  | take _ _ hrest ih =>
    refine List.nodup_cons.mpr ⟨fun hin => ?_, ih⟩
    exact (hrest.mem_rest _ hin).2 rfl

/-- A greedy order respects the constraints. -/
theorem respects (h : Greedy r key rest order) : Respects r order := by
  induction h with
  | stuck => exact List.Pairwise.nil
  | take hready _ hrest ih =>
    refine List.pairwise_cons.mpr ⟨fun b hb => ?_, ih⟩
    exact hready.2 b (hrest.mem_rest b hb).1

/-- Distinct keys leave one greedy order. -/
theorem unique (h : Greedy r key rest order) (h' : Greedy r key rest other)
    (hkey : Set.InjOn key rest) : other = order := by
  induction h generalizing other with
  | stuck hnone =>
    cases h' with
    | stuck => rfl
    | take hready _ _ => exact absurd hready (hnone _)
  | take hready hleast hrest ih =>
    cases h' with
    | stuck hnone => exact absurd hready (hnone _)
    | take hready' hleast' hrest' =>
      have heq := hkey hready'.1 hready.1 (le_antisymm (hleast' _ hready) (hleast _ hready'))
      subst heq
      rw [ih hrest' (hkey.mono Set.sdiff_subset)]

/-- The greedy order takes everything when there is no cycle. -/
theorem exhausts (h : Greedy r key rest order) (hfinite : rest.Finite)
    (hcycle : ¬Cyclic r rest) : ∀ a ∈ rest, a ∈ order := by
  induction h with
  | @stuck rest hnone =>
    intro a ha
    obtain ⟨b, hb⟩ := exists_ready hfinite ⟨a, ha⟩ hcycle
    exact absurd hb (hnone b)
  | @take rest c order _ _ _ ih =>
    intro a ha
    by_cases hac : a = c
    · exact hac ▸ List.mem_cons_self
    · refine List.mem_cons_of_mem _ (ih (hfinite.subset Set.sdiff_subset) ?_ a ⟨ha, hac⟩)
      exact fun h => hcycle (h.mono Set.sdiff_subset)

/-- It takes everything exactly when there is no cycle. -/
theorem exhausts_iff (h : Greedy r key rest order) (hfinite : rest.Finite)
    (hirrefl : ∀ a ∈ rest, ¬r a a) : (∀ a ∈ rest, a ∈ order) ↔ ¬Cyclic r rest :=
  ⟨h.respects.not_cyclic hirrefl, h.exhausts hfinite⟩

/-- Among the orders that respect the constraints, the greedy one has the
least keys, compared element by element. -/
theorem least (h : Greedy r key rest order) (hkey : Set.InjOn key rest)
    (hrespects : Respects r other) (hnodup : other.Nodup) (hirrefl : ∀ a ∈ rest, ¬r a a)
    (hmem : ∀ a, a ∈ other ↔ a ∈ rest) : order.map key ≤ other.map key := by
  induction h generalizing other with
  | stuck => exact not_lt.mp (List.not_lt_nil _)
  | @take rest c order hready hleast _ ih =>
    cases other with
    | nil => exact absurd ((hmem c).mpr hready.1) List.not_mem_nil
    | cons b other =>
      obtain ⟨hfirst, hlater⟩ := List.pairwise_cons.mp hrespects
      obtain ⟨hnotin, hnodup'⟩ := List.nodup_cons.mp hnodup
      have hb : b ∈ rest := (hmem b).mp List.mem_cons_self
      have hbready : Ready r rest b := by
        refine ⟨hb, fun x hx => ?_⟩
        rcases List.mem_cons.mp ((hmem x).mpr hx) with rfl | hx'
        · exact hirrefl _ hb
        · exact hfirst x hx'
      rw [List.map_cons, List.map_cons]
      rcases (hleast b hbready).lt_or_eq with hlt | heq
      · exact le_of_lt (List.cons_lt_cons_iff.mpr (.inl hlt))
      · have hcb := hkey hready.1 hb heq
        subst hcb
        refine List.cons_le_cons _ (ih (hkey.mono Set.sdiff_subset) hlater hnodup'
          (fun x hx => hirrefl x hx.1) fun x => ?_)
        have hx := hmem x
        rw [List.mem_cons] at hx
        constructor
        · intro hin
          refine ⟨hx.mp (.inr hin), fun heq' => ?_⟩
          exact hnotin (Set.mem_singleton_iff.mp heq' ▸ hin)
        · rintro ⟨hin, hne⟩
          exact (hx.mpr hin).resolve_left hne

end Greedy

end PkgApply.Library.Ordering
