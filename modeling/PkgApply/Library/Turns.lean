import Mathlib.Data.List.Basic
import Mathlib.Data.List.Nodup

/-!
# Work taken in turn

Items in a fixed order, each of which may be begun and may be finished.  They
are taken in turn when none is begun before everything ahead of it is
finished; what has been begun is then a prefix of the order, all but the last
of it finished.
-/

namespace PkgApply.Library

variable {α : Type*} {begun begun' finished finished' : α → Prop} {l pre post : List α} {a x : α}

/-- No item is begun before every item ahead of it is finished. -/
def InTurn (begun finished : α → Prop) (l : List α) : Prop :=
  l.Pairwise fun a b => begun b → finished a

/-- It is the turn of an item: every item ahead of it is finished. -/
def Turn (finished : α → Prop) (l : List α) (x : α) : Prop :=
  ∃ pre post, l = pre ++ x :: post ∧ ∀ a ∈ pre, finished a

theorem Turn.mem (h : Turn finished l x) : x ∈ l := by
  obtain ⟨pre, post, rfl, -⟩ := h
  simp

namespace InTurn

theorem of_not_begun (h : ∀ a ∈ l, ¬begun a) : InTurn begun finished l :=
  List.pairwise_of_forall_mem_list fun _ _ b hb hbegun => absurd hbegun (h b hb)

theorem mono (h : InTurn begun finished l) (hbegun : ∀ a ∈ l, begun' a → begun a)
    (hfinished : ∀ a ∈ l, finished a → finished' a) : InTurn begun' finished' l :=
  List.Pairwise.imp_of_mem (fun ha hb hab hbegun' => hfinished _ ha (hab (hbegun _ hb hbegun'))) h

/-- An item whose turn it is may be begun. -/
theorem start (h : InTurn begun finished l) (hnodup : l.Nodup) (hturn : Turn finished l x)
    (hbegun : ∀ a ∈ l, begun' a → begun a ∨ a = x) (hfinished : ∀ a ∈ l, finished a → finished' a) :
    InTurn begun' finished' l := by
  obtain ⟨pre, post, rfl, hpre⟩ := hturn
  have hahead : (pre ++ x :: post).Pairwise fun a b => b = x → finished a := by
    rw [List.nodup_append, List.nodup_cons] at hnodup
    obtain ⟨-, ⟨hx, -⟩, -⟩ := hnodup
    rw [List.pairwise_append, List.pairwise_cons]
    refine ⟨?_, ⟨?_, ?_⟩, fun a ha _ _ _ => hpre a ha⟩
    · exact List.pairwise_of_forall_mem_list fun a ha _ _ _ => hpre a ha
    · rintro b hb rfl
      exact absurd hb hx
    · refine List.pairwise_of_forall_mem_list fun a _ b hb hbx => ?_
      exact absurd (hbx ▸ hb) hx
  refine List.Pairwise.imp_of_mem (fun {a b} ha hb hab hb' => ?_) (List.Pairwise.and h hahead)
  rcases hbegun b hb hb' with hb' | rfl
  · exact hfinished a ha (hab.1 hb')
  · exact hfinished a ha (hab.2 rfl)

/-- Behind an item that is not finished nothing is begun. -/
theorem not_begun (h : InTurn begun finished (pre ++ x :: post)) (hx : ¬finished x)
    (ha : a ∈ post) : ¬begun a := by
  intro hbegun
  exact hx ((List.pairwise_cons.mp (List.pairwise_append.mp h).2.1).1 a ha hbegun)

/-- What has been begun is a prefix, all but the last of it finished. -/
theorem exists_take (h : InTurn begun finished l) (hbegun : ∀ a ∈ l, finished a → begun a) :
    ∃ n ≤ l.length, (∀ a ∈ l, begun a ↔ a ∈ l.take n) ∧ ∀ a ∈ l.take (n - 1), finished a := by
  induction l with
  | nil => exact ⟨0, Nat.le_refl 0, by simp, by simp⟩
  | cons x rest ih =>
    obtain ⟨hx, hrest⟩ := List.pairwise_cons.mp h
    obtain ⟨n, hn, htake, hfinished⟩ := ih hrest fun a ha => hbegun a (List.mem_cons_of_mem _ ha)
    by_cases hfirst : begun x
    · refine ⟨n + 1, by simpa using hn, ?_, ?_⟩
      · intro a ha
        rw [List.take_succ_cons, List.mem_cons]
        rcases List.mem_cons.mp ha with rfl | hlater
        · simp [hfirst]
        · rw [htake a hlater]
          constructor
          · exact .inr
          · rintro (rfl | ha')
            · exact (htake a hlater).mp hfirst
            · exact ha'
      · intro a ha
        cases n with
        | zero => simp at ha
        | succ n =>
          rw [Nat.add_sub_cancel, List.take_succ_cons, List.mem_cons] at ha
          rcases ha with rfl | ha
          · -- the second of the begun items needs the first finished
            have hne : rest ≠ [] := by
              rintro rfl
              simp at hn
            obtain ⟨b, rest', rfl⟩ := List.exists_cons_of_ne_nil hne
            exact hx b List.mem_cons_self ((htake b List.mem_cons_self).mpr (by simp))
          · exact hfinished a ha
    · refine ⟨0, Nat.zero_le _, ?_, by simp⟩
      intro a ha
      rcases List.mem_cons.mp ha with rfl | ha
      · simp [hfirst]
      · simp only [List.take_zero, List.not_mem_nil, iff_false]
        intro hbegun'
        exact hfirst (hbegun x List.mem_cons_self (hx a ha hbegun'))

end InTurn

end PkgApply.Library
