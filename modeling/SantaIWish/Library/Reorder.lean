import Mathlib.Data.List.Nodup
import Mathlib.Data.List.Perm.Basic

/-!
# Reordering a list of actions without changing its effect

Actions that do not depend on one another commute. A permutation that keeps the
relative order of every dependent pair therefore has the same effect; this is
the trace-equivalence argument, with no assumption on the dependence relation.
-/

set_option autoImplicit false

universe u v

namespace Reorder

variable {A : Type u} {S : Type v}

/-- `l'` keeps the order in which `l` has every two elements that depend on one another. -/
def KeepsOrder (Depends : A → A → Prop) (l l' : List A) : Prop :=
  ∀ a b, List.Sublist [a, b] l → Depends a b → List.Sublist [a, b] l'

theorem pair_sublist_cons {a b c : A} {l : List A} (h : List.Sublist [a, b] (c :: l)) :
    (a = c ∧ b ∈ l) ∨ List.Sublist [a, b] l := by
  cases h with
  | cons _ h => exact Or.inr h
  | cons_cons _ h => exact Or.inl ⟨rfl, List.singleton_sublist.mp h⟩

theorem not_both_orders {a b : A} {l : List A} (hl : l.Nodup)
    (hab : List.Sublist [a, b] l) : ¬ List.Sublist [b, a] l := by
  induction l with
  | nil => exact absurd hab (by simp)
  | cons c l ih =>
    intro hba
    have hc := List.nodup_cons.mp hl
    rcases pair_sublist_cons hab with ⟨rfl, hb⟩ | hab'
    · rcases pair_sublist_cons hba with ⟨rfl, _⟩ | hba'
      · exact hc.1 hb
      · exact hc.1 (hba'.subset (by simp))
    · rcases pair_sublist_cons hba with ⟨rfl, _⟩ | hba'
      · exact hc.1 (hab'.subset (by simp))
      · exact ih hc.2 hab' hba'

theorem foldl_move_front (f : S → A → S) {a : A} {front back : List A}
    (hcomm : ∀ x ∈ front, ∀ s, f (f s x) a = f (f s a) x) (s : S) :
    (front ++ a :: back).foldl f s = (a :: (front ++ back)).foldl f s := by
  induction front generalizing s with
  | nil => rfl
  | cons x front ih =>
    have hx := hcomm x List.mem_cons_self s
    have hrest := ih (fun y hy => hcomm y (List.mem_cons_of_mem x hy)) (f s x)
    simp only [List.cons_append, List.foldl_cons] at hrest ⊢
    rw [hrest, hx]

theorem KeepsOrder.tail {Depends : A → A → Prop} {a : A} {l front back : List A}
    (hl : (a :: l).Nodup) (hfront : a ∉ front)
    (h : KeepsOrder Depends (a :: l) (front ++ a :: back)) :
    KeepsOrder Depends l (front ++ back) := by
  classical
  intro b c hbc hdep
  have hmem : a ∉ [b, c] := fun hm => (List.nodup_cons.mp hl).1 (hbc.subset hm)
  have hsub := (h b c (hbc.cons a) hdep).erase a
  rwa [List.erase_of_not_mem hmem, List.erase_append_right _ hfront, List.erase_cons_head] at hsub

/-- Reordering that respects dependence does not change the effect. -/
theorem foldl_eq_of_keepsOrder (f : S → A → S) {Depends : A → A → Prop}
    (hcomm : ∀ a b, ¬ Depends a b → ∀ s, f (f s b) a = f (f s a) b)
    {l l' : List A} (hl : l.Nodup) (hperm : l'.Perm l) (hkeep : KeepsOrder Depends l l') (s : S) :
    l'.foldl f s = l.foldl f s := by
  induction l generalizing l' s with
  | nil => rw [hperm.eq_nil]
  | cons a l ih =>
    obtain ⟨front, back, rfl⟩ := List.append_of_mem (hperm.symm.subset List.mem_cons_self)
    have hnodup : (front ++ a :: back).Nodup := hperm.nodup_iff.mpr hl
    have hfront : a ∉ front := fun ha =>
      (List.disjoint_of_nodup_append hnodup) ha List.mem_cons_self
    have hrest : (front ++ back).Perm l :=
      (List.perm_middle.symm.trans hperm).cons_inv
    -- an element moved in front of `a` cannot depend on it: `a` came first
    have hmove : ∀ x ∈ front, ∀ s, f (f s x) a = f (f s a) x := by
      intro x hx
      apply hcomm
      intro hdep
      have hxl : x ∈ l := hrest.subset (List.mem_append_left back hx)
      have hax := hkeep a x ((List.singleton_sublist.mpr hxl).cons_cons a) hdep
      have hxa : List.Sublist [x, a] (front ++ a :: back) :=
        (List.singleton_sublist.mpr hx).append (by simp)
      exact not_both_orders hnodup hax hxa
    rw [foldl_move_front f hmove, List.foldl_cons, List.foldl_cons]
    exact ih (List.nodup_cons.mp hl).2 hrest (hkeep.tail hl hfront) (f s a)

end Reorder
