import Mathlib.Data.List.Basic

/-!
# Patterns over a text, with lookahead

The fragment of regular expressions that repeats single characters only. A
pattern is tried at a position; `rests` lists what is left of the text after each
way it can match there. A lookahead matches without consuming anything.
-/

set_option autoImplicit false

universe u

/-- `^`, a character class, a sequence, `[..]{n,}` and `(?=..)`. -/
inductive Pattern (α : Type u) where
  | start
  | one (p : α → Bool)
  | seq (first second : Pattern α)
  | atLeast (n : Nat) (p : α → Bool)
  | ahead (pattern : Pattern α)

namespace Pattern

variable {α : Type u}

/-- What can be left after `n` or more characters of the class. -/
def repeated (p : α → Bool) : Nat → List α → List (List α)
  | 0, [] => [[]]
  | 0, c :: s => (c :: s) :: if p c then repeated p 0 s else []
  | _ + 1, [] => []
  | n + 1, c :: s => if p c then repeated p n s else []

/-- `atStart` says that nothing of the text lies before the position. -/
def rests : Pattern α → Bool → List α → List (List α)
  | start, atStart, s => if atStart then [s] else []
  | one _, _, [] => []
  | one p, _, c :: s => if p c then [s] else []
  | seq first second, atStart, s =>
    (rests first atStart s).flatMap fun t => rests second (atStart && t.length == s.length) t
  | atLeast n p, _, s => repeated p n s
  | ahead pattern, atStart, s => if (rests pattern atStart s).isEmpty then [] else [s]

/-- The pattern matches the text from its start to its end. -/
def matchesWhole (pattern : Pattern α) (s : List α) : Bool :=
  (rests pattern true s).any List.isEmpty

theorem mem_repeated {p : α → Bool} {n : Nat} {s t : List α} :
    t ∈ repeated p n s ↔ ∃ u, s = u ++ t ∧ n ≤ u.length ∧ ∀ c ∈ u, p c = true := by
  induction s generalizing n with
  | nil =>
    cases n with
    | zero =>
      rw [repeated, List.mem_singleton]
      constructor
      · rintro rfl
        exact ⟨[], rfl, Nat.le_refl _, by simp⟩
      · intro hh
        obtain ⟨u, hs, _⟩ := hh
        exact (List.append_eq_nil_iff.mp hs.symm).2
    | succ n =>
      refine iff_of_false (by simp [repeated]) ?_
      intro hh
      obtain ⟨u, hs, hlen, _⟩ := hh
      obtain ⟨rfl, _⟩ := List.append_eq_nil_iff.mp hs.symm
      cases hlen
  | cons c s ih =>
    -- the ways that consume the first character
    have hconsume : ∀ n, (t ∈ if p c = true then repeated p n s else []) ↔
        ∃ u, c :: s = u ++ t ∧ n + 1 ≤ u.length ∧ ∀ d ∈ u, p d = true := by
      intro n
      by_cases hp : p c = true
      · rw [if_pos hp, ih]
        constructor
        · intro hh
          obtain ⟨u, rfl, hlen, hu⟩ := hh
          exact ⟨c :: u, rfl, Nat.succ_le_succ hlen, List.forall_mem_cons.mpr ⟨hp, hu⟩⟩
        · intro hh
          obtain ⟨u, hs, hlen, hu⟩ := hh
          rcases List.cons_eq_append_iff.mp hs with ⟨rfl, _⟩ | ⟨u, rfl, rfl⟩
          · cases hlen
          · exact ⟨u, rfl, Nat.le_of_succ_le_succ hlen, (List.forall_mem_cons.mp hu).2⟩
      · rw [if_neg hp]
        refine iff_of_false (by simp) ?_
        intro hh
        obtain ⟨u, hs, hlen, hu⟩ := hh
        rcases List.cons_eq_append_iff.mp hs with ⟨rfl, _⟩ | ⟨u, rfl, _⟩
        · cases hlen
        · exact hp (hu c List.mem_cons_self)
    cases n with
    | succ n => exact hconsume n
    | zero =>
      rw [repeated, List.mem_cons, hconsume]
      constructor
      · rintro (rfl | ⟨u, hs, _, hu⟩)
        · exact ⟨[], rfl, Nat.le_refl _, by simp⟩
        · exact ⟨u, hs, Nat.zero_le _, hu⟩
      · intro hh
        obtain ⟨u, hs, _, hu⟩ := hh
        rcases List.cons_eq_append_iff.mp hs with ⟨rfl, rfl⟩ | ⟨v, rfl, _⟩
        · exact Or.inl rfl
        · exact Or.inr ⟨c :: v, hs, Nat.succ_le_succ (Nat.zero_le _), hu⟩

section Rests
variable {atStart : Bool} {s t : List α}

theorem mem_rests_start : t ∈ rests start atStart s ↔ atStart = true ∧ t = s := by
  cases atStart <;> simp [rests]

theorem mem_rests_one {p : α → Bool} : t ∈ rests (one p) atStart s ↔ ∃ c, s = c :: t ∧ p c = true := by
  cases s with
  | nil => simp [rests]
  | cons c s =>
    by_cases hp : p c = true
    · rw [rests, if_pos hp, List.mem_singleton]
      constructor
      · rintro rfl
        exact ⟨c, rfl, hp⟩
      · intro hh
        obtain ⟨d, hs, _⟩ := hh
        exact (List.cons.inj hs).2.symm
    · rw [rests, if_neg hp]
      constructor
      · intro h
        cases h
      · intro hh
        obtain ⟨d, hs, hd⟩ := hh
        exact absurd ((List.cons.inj hs).1 ▸ hd) hp

theorem mem_rests_seq {first second : Pattern α} :
    t ∈ rests (seq first second) atStart s ↔
      ∃ m ∈ rests first atStart s, t ∈ rests second (atStart && m.length == s.length) m :=
  List.mem_flatMap

theorem mem_rests_atLeast {n : Nat} {p : α → Bool} : t ∈ rests (atLeast n p) atStart s ↔
    ∃ u, s = u ++ t ∧ n ≤ u.length ∧ ∀ c ∈ u, p c = true := by
  rw [rests, mem_repeated]

theorem mem_rests_ahead {pattern : Pattern α} :
    t ∈ rests (ahead pattern) atStart s ↔ t = s ∧ ∃ m, m ∈ rests pattern atStart s := by
  rw [rests]
  cases h : rests pattern atStart s with
  | nil => simp
  | cons m ms => simp

theorem matchesWhole_iff {pattern : Pattern α} :
    matchesWhole pattern s = true ↔ [] ∈ rests pattern true s := by
  simp [matchesWhole]

/-- Looking ahead past characters of one class for one of another: there is one of the other, as long
as everything the text holds is of the first. -/
theorem mem_rests_ahead_contains {skip p : α → Bool} (hskip : ∀ c ∈ s, skip c = true) :
    t ∈ rests (ahead (seq (atLeast 0 skip) (one p))) atStart s ↔ t = s ∧ ∃ c ∈ s, p c = true := by
  rw [mem_rests_ahead]
  apply and_congr_right
  intro _
  constructor
  · intro hh
    obtain ⟨m, hm⟩ := hh
    obtain ⟨v, hv, hone⟩ := mem_rests_seq.mp hm
    obtain ⟨u, rfl, _, _⟩ := mem_rests_atLeast.mp hv
    obtain ⟨c, rfl, hc⟩ := mem_rests_one.mp hone
    exact ⟨c, by simp, hc⟩
  · intro hh
    obtain ⟨c, hmem, hc⟩ := hh
    obtain ⟨u, v, rfl⟩ := List.append_of_mem hmem
    refine ⟨v, mem_rests_seq.mpr ⟨c :: v, mem_rests_atLeast.mpr ⟨u, rfl, Nat.zero_le _, ?_⟩,
      mem_rests_one.mpr ⟨c, rfl, hc⟩⟩⟩
    exact fun d hd => hskip d (List.mem_append_left _ hd)

end Rests

end Pattern
