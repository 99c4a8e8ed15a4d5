import Mathlib.Data.List.Destutter

/-!
# A course without repetitions

One more value shows in the destuttered course unless it has the key of the last one.
-/

set_option autoImplicit false

universe u v

namespace List
variable {α : Type u} {β : Type v} [DecidableEq β] (f : α → β)

theorem destutter'_key_concat (a b : α) (l : List α) :
    (l ++ [b]).destutter' (fun x y => f x ≠ f y) a = l.destutter' (fun x y => f x ≠ f y) a ++
      if f ((a :: l).getLast (cons_ne_nil a l)) = f b then [] else [b] := by
  induction l generalizing a with
  | nil =>
    rw [nil_append, destutter'_singleton, destutter'_nil, getLast_singleton]
    by_cases hab : f a = f b <;> simp [hab]
  | cons c l ih =>
    rw [cons_append]
    by_cases hac : f a = f c
    · rw [destutter'_cons_neg l (not_not.mpr hac), destutter'_cons_neg _ (not_not.mpr hac), ih]
      have hlast : f ((a :: l).getLast (cons_ne_nil a l)) =
          f ((a :: c :: l).getLast (cons_ne_nil a (c :: l))) := by
        cases l with
        | nil => exact hac
        | cons d l => rfl
      rw [hlast]
    · rw [destutter'_cons_pos _ hac, destutter'_cons_pos _ hac, ih]
      rfl

end List
