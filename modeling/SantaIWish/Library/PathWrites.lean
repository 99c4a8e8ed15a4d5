import Mathlib.Data.List.Infix

/-!
# Trees of leaves addressed by paths, and writes that replace a subtree

A tree is the map from the full path of a leaf to its value. Writing `v` at `p`
replaces everything at and below `p`; the proper prefixes of `p` become inner
nodes, so they carry no leaf. Two writes at incomparable paths commute.
-/

set_option autoImplicit false

universe u v

namespace PathWrites

abbrev Tree (K : Type u) (V : Type v) : Type (max u v) := List K → Option V

variable {K : Type u} {V : Type v}

/-- One of the two paths is at or below the other. -/
def Comparable (p q : List K) : Prop := p <+: q ∨ q <+: p

theorem Comparable.symm {p q : List K} (h : Comparable p q) : Comparable q p := Or.symm h

theorem comparable_append_left (p q r : List K) :
    Comparable (p ++ q) (p ++ r) ↔ Comparable q r := by
  simp only [Comparable, List.prefix_append_right_inj]

theorem Comparable.of_append_right {p q r : List K} (h : Comparable p (q ++ r)) :
    Comparable p q := by
  rcases h with h | h
  · exact List.prefix_or_prefix_of_prefix h (List.prefix_append q r)
  · exact Or.inr ((List.prefix_append q r).trans h)

theorem Comparable.of_append {p q r s : List K} (h : Comparable (p ++ r) (q ++ s)) :
    Comparable p q :=
  (h.of_append_right.symm.of_append_right).symm

theorem comparable_cons {a b : K} {p q : List K} :
    Comparable (a :: p) (b :: q) ↔ a = b ∧ Comparable p q := by
  simp only [Comparable, List.cons_prefix_cons]
  constructor
  · intro hh
    rcases hh with ⟨hab, h⟩ | ⟨hba, h⟩
    · exact ⟨hab, Or.inl h⟩
    · exact ⟨hba.symm, Or.inr h⟩
  · intro hh
    rcases hh with ⟨rfl, h | h⟩
    · exact Or.inl ⟨rfl, h⟩
    · exact Or.inr ⟨rfl, h⟩

def sub (p : List K) (t : Tree K V) : Tree K V := fun q => t (p ++ q)

@[simp] theorem sub_apply (p q : List K) (t : Tree K V) : sub p t q = t (p ++ q) := rfl

section Write
variable [DecidableEq K]

def write (p : List K) (v t : Tree K V) : Tree K V := fun q =>
  if p <+: q then v (q.drop p.length) else if q <+: p then none else t q

@[simp] theorem write_below (p r : List K) (v t : Tree K V) : write p v t (p ++ r) = v r := by
  simp [write]

theorem write_above {p q : List K} (v t : Tree K V) (hqp : q <+: p) (hne : q ≠ p) :
    write p v t q = none := by
  have hpq : ¬ p <+: q := fun h => hne (hqp.eq_of_length (Nat.le_antisymm hqp.length_le h.length_le))
  simp [write, hpq, hqp]

theorem write_incomparable {p q : List K} (v t : Tree K V) (h : ¬ Comparable p q) :
    write p v t q = t q := by
  have hpq : ¬ p <+: q := fun hh => h (Or.inl hh)
  have hqp : ¬ q <+: p := fun hh => h (Or.inr hh)
  simp [write, hpq, hqp]

theorem sub_write_self (p : List K) (v t : Tree K V) : sub p (write p v t) = v := by
  funext r
  exact write_below p r v t

/-- The frame rule: a write leaves every subtree at an incomparable path as it was. -/
theorem sub_write_of_incomparable {p q : List K} (v t : Tree K V) (h : ¬ Comparable p q) :
    sub q (write p v t) = sub q t := by
  funext r
  exact write_incomparable v t fun hr => h hr.of_append_right

theorem write_comm {p q : List K} (h : ¬ Comparable p q) (v w t : Tree K V) :
    write p v (write q w t) = write q w (write p v t) := by
  funext r
  by_cases hpr : Comparable p r
  · by_cases hqr : Comparable q r
    · -- `r` is comparable with both, so it lies above both
      have hrp : ¬ p <+: r := fun hp => h (by
        rcases hqr with hq | hq
        · exact List.prefix_or_prefix_of_prefix hp hq
        · exact Or.inl (hp.trans hq))
      have hrq : ¬ q <+: r := fun hq => h (by
        rcases hpr with hp | hp
        · exact List.prefix_or_prefix_of_prefix hp hq
        · exact Or.inr (hq.trans hp))
      have hp := hpr.resolve_left hrp
      have hq := hqr.resolve_left hrq
      simp [write, hrp, hrq, hp, hq]
    · rw [write_incomparable w _ hqr]
      unfold write
      split
      · rfl
      · split
        · rfl
        · rw [if_neg fun hq => hqr (Or.inl hq), if_neg fun hq => hqr (Or.inr hq)]
  · rw [write_incomparable v _ hpr]
    unfold write
    split
    · rfl
    · split
      · rfl
      · rw [if_neg fun hp => hpr (Or.inl hp), if_neg fun hp => hpr (Or.inr hp)]

end Write

/-- The tree holds, at `p`, every leaf of `v`. -/
def Holds (p : List K) (v t : Tree K V) : Prop := ∀ r x, v r = some x → t (p ++ r) = some x

section Holds
variable [DecidableEq K]

theorem holds_write_self (p : List K) (v t : Tree K V) : Holds p v (write p v t) := by
  intro r x hx
  rw [write_below, hx]

/-- The write `v` at `p` agrees with the leaf `x` at `q`: it does not reach it, or writes it again. -/
def Agrees (p : List K) (v : Tree K V) (q : List K) (x : V) : Prop :=
  Comparable p q → ∃ r, q = p ++ r ∧ v r = some x

theorem write_keeps_iff {p q : List K} {v t : Tree K V} {x : V} (hx : t q = some x) :
    write p v t q = some x ↔ Agrees p v q x := by
  constructor
  · intro h hcmp
    rcases hcmp with ⟨r, rfl⟩ | hqp
    · exact ⟨r, rfl, by simpa using h⟩
    · by_cases heq : q = p
      · subst heq
        exact ⟨[], by simp, by simpa using (write_below q [] v t).symm.trans (by simpa using h)⟩
      · rw [write_above v t hqp heq] at h
        exact absurd h (by simp)
  · intro h
    by_cases hcmp : Comparable p q
    · obtain ⟨r, rfl, hr⟩ := h hcmp
      rw [write_below, hr]
    · rw [write_incomparable v t hcmp, hx]

/-- Exactly when a write keeps the leaves another write has put in place. -/
theorem holds_write_iff {p q : List K} {v w t : Tree K V} (hw : Holds q w t) :
    Holds q w (write p v t) ↔ ∀ r x, w r = some x → Agrees p v (q ++ r) x := by
  constructor
  · exact fun h r x hx => (write_keeps_iff (hw r x hx)).mp (h r x hx)
  · exact fun h r x hx => (write_keeps_iff (hw r x hx)).mpr (h r x hx)

end Holds

section Sequence
variable [DecidableEq K]

/-- A list of writes, each a path and the subtree to put there, applied from left to right. -/
def writeAll (ws : List (List K × Tree K V)) (t : Tree K V) : Tree K V :=
  ws.foldl (fun t w => write w.1 w.2 t) t

@[simp] theorem writeAll_nil (t : Tree K V) : writeAll [] t = t := rfl

@[simp] theorem writeAll_cons (w : List K × Tree K V) (ws : List (List K × Tree K V))
    (t : Tree K V) : writeAll (w :: ws) t = writeAll ws (write w.1 w.2 t) := rfl

theorem writeAll_append (ws ws' : List (List K × Tree K V)) (t : Tree K V) :
    writeAll (ws ++ ws') t = writeAll ws' (writeAll ws t) := List.foldl_append

/-- What a write put in place stays until a different write at a comparable path. -/
theorem sub_writeAll_kept {w : List K × Tree K V} {ws : List (List K × Tree K V)}
    (h : ∀ w' ∈ ws, w' = w ∨ ¬ Comparable w'.1 w.1) {t : Tree K V} (ht : sub w.1 t = w.2) :
    sub w.1 (writeAll ws t) = w.2 := by
  induction ws generalizing t with
  | nil => exact ht
  | cons w' ws ih =>
    refine ih (fun x hx => h x (List.mem_cons_of_mem w' hx)) ?_
    rcases h w' List.mem_cons_self with rfl | hw'
    · exact sub_write_self w'.1 w'.2 t
    · rw [sub_write_of_incomparable _ _ hw', ht]

theorem sub_writeAll_last {earlier later : List (List K × Tree K V)} {w : List K × Tree K V}
    (h : ∀ w' ∈ later, w' = w ∨ ¬ Comparable w'.1 w.1) (t : Tree K V) :
    sub w.1 (writeAll (earlier ++ w :: later) t) = w.2 := by
  rw [writeAll_append, writeAll_cons]
  exact sub_writeAll_kept h (sub_write_self w.1 w.2 _)

end Sequence

end PathWrites
