import Mathlib.Data.List.Induction
import Mathlib.Data.List.Infix

/-!
# Finite runs of a partial deterministic machine

`step s a = none` means that action `a` is not enabled in `s`. Safety of a run is
stated over the states reached by its prefixes, together with the prefix itself,
so that a property may speak about the past.
-/

set_option autoImplicit false

universe u v

namespace Runs

variable {S : Type u} {A : Type v} (step : S → A → Option S)

/-- The state reached by a list of actions, if every one of them is enabled in turn. -/
def run (s : S) : List A → Option S
  | [] => some s
  | a :: as => (step s a).bind fun s' => run s' as

@[simp] theorem run_nil (s : S) : run step s [] = some s := rfl

theorem run_cons (s : S) (a : A) (as : List A) :
    run step s (a :: as) = (step s a).bind fun s' => run step s' as := rfl

theorem run_append (s : S) (as bs : List A) :
    run step s (as ++ bs) = (run step s as).bind fun s' => run step s' bs := by
  induction as generalizing s with
  | nil => rfl
  | cons a as ih =>
    rw [List.cons_append, run_cons, run_cons]
    cases step s a with
    | none => rfl
    | some s' => exact ih s'

theorem run_snoc (s : S) (as : List A) (a : A) :
    run step s (as ++ [a]) = (run step s as).bind fun s' => step s' a := by
  rw [run_append]
  congr 1
  funext s'
  cases h : step s' a <;> simp [run, h]

theorem run_snoc_eq_some {s t : S} {as : List A} {a : A} :
    run step s (as ++ [a]) = some t ↔ ∃ m, run step s as = some m ∧ step m a = some t := by
  rw [run_snoc, Option.bind_eq_some_iff]

variable {step}

/-- A history invariant that every enabled step extends holds after every run. -/
theorem run_induction {P : List A → S → Prop} {s₀ : S} (init : P [] s₀)
    (extend : ∀ as s a t, run step s₀ as = some s → P as s → step s a = some t → P (as ++ [a]) t)
    (as : List A) (s : S) (hrun : run step s₀ as = some s) : P as s := by
  induction as using List.reverseRecOn generalizing s with
  | nil =>
    obtain rfl : s₀ = s := by simpa using hrun
    exact init
  | append_singleton as a ih =>
    obtain ⟨m, hm, ha⟩ := (run_snoc_eq_some step).mp hrun
    exact extend as m a s hm (ih m hm) ha

/-- A state invariant that every enabled step keeps holds after every run. -/
theorem run_invariant {I : S → Prop} {s₀ : S} (init : I s₀)
    (keep : ∀ s a t, I s → step s a = some t → I t)
    {as : List A} {s : S} (hrun : run step s₀ as = some s) : I s :=
  run_induction (P := fun _ s => I s) init (fun _ s a t _ hs ha => keep s a t hs ha) as s hrun

section Since

/-- Some past action met `P`, a condition on its own past and on it, and every action after it met `Q`. -/
def Since (P : List A → A → Prop) (Q : A → Prop) (past : List A) : Prop :=
  ∃ before a after, past = before ++ a :: after ∧ P before a ∧ ∀ b ∈ after, Q b

variable {P : List A → A → Prop} {Q : A → Prop}

theorem not_since_nil : ¬ Since P Q [] := by
  intro hh
  obtain ⟨before, a, after, h, _⟩ := hh
  simp at h

theorem since_snoc {past : List A} {a : A} :
    Since P Q (past ++ [a]) ↔ P past a ∨ (Since P Q past ∧ Q a) := by
  constructor
  · intro hh
    obtain ⟨before, b, after, heq, hP, hQ⟩ := hh
    rcases List.eq_nil_or_concat' after with rfl | ⟨after, c, rfl⟩
    · obtain ⟨rfl, hb⟩ := List.append_inj' heq rfl
      obtain rfl : a = b := by simpa using hb
      exact Or.inl hP
    · rw [← List.cons_append, ← List.append_assoc] at heq
      obtain ⟨rfl, hc⟩ := List.append_inj' heq rfl
      obtain rfl : a = c := by simpa using hc
      exact Or.inr ⟨⟨before, b, after, rfl, hP, fun x hx => hQ x (by simp [hx])⟩, hQ a (by simp)⟩
  · intro hh
    rcases hh with hP | ⟨⟨before, b, after, rfl, hP, hQ⟩, ha⟩
    · exact ⟨past, a, [], rfl, hP, by simp⟩
    · refine ⟨before, b, after ++ [a], by simp, hP, ?_⟩
      intro x hx
      rcases List.mem_append.mp hx with hx | hx
      · exact hQ x hx
      · obtain rfl := List.mem_singleton.mp hx
        exact ha

end Since

section Safety
variable (step)

/-- `Q` holds in every state the run `as` reaches, the first and the last included. -/
def Always (s₀ : S) (as : List A) (Q : List A → S → Prop) : Prop :=
  ∀ p s, p <+: as → run step s₀ p = some s → Q p s

/-- Every step of the run `as` meets `C`, a condition on its past, on the state before it and on the action. -/
def EveryStep (s₀ : S) (as : List A) (C : List A → S → A → Prop) : Prop :=
  ∀ p a s, p ++ [a] <+: as → run step s₀ p = some s → C p s a

variable {step}

theorem Always.of_run {s₀ s : S} {as : List A} {Q : List A → S → Prop}
    (h : Always step s₀ as Q) (hrun : run step s₀ as = some s) : Q as s :=
  h as s List.prefix_rfl hrun

theorem always_nil {s₀ : S} {Q : List A → S → Prop} : Always step s₀ [] Q ↔ Q [] s₀ := by
  constructor
  · exact fun h => h.of_run rfl
  · intro h p s hp hrun
    obtain rfl := List.prefix_nil.mp hp
    obtain rfl : s₀ = s := by simpa using hrun
    exact h

theorem everyStep_nil {s₀ : S} {C : List A → S → A → Prop} : EveryStep step s₀ [] C := by
  intro p a s hp
  simpa using List.prefix_nil.mp hp

theorem always_snoc {s₀ : S} {as : List A} {a : A} {Q : List A → S → Prop} :
    Always step s₀ (as ++ [a]) Q ↔
      Always step s₀ as Q ∧ ∀ t, run step s₀ (as ++ [a]) = some t → Q (as ++ [a]) t := by
  constructor
  · intro h
    refine ⟨fun p s hp => h p s (hp.trans (List.prefix_append as [a])), fun t ht => h.of_run ht⟩
  · intro hh p s hp hrun
    obtain ⟨hpast, hlast⟩ := hh
    rcases List.prefix_concat_iff.mp hp with rfl | hp
    · exact hlast s hrun
    · exact hpast p s hp hrun

theorem everyStep_snoc {s₀ : S} {as : List A} {a : A} {C : List A → S → A → Prop} :
    EveryStep step s₀ (as ++ [a]) C ↔
      EveryStep step s₀ as C ∧ ∀ s, run step s₀ as = some s → C as s a := by
  constructor
  · intro h
    exact ⟨fun p b s hp => h p b s (hp.trans (List.prefix_append as [a])),
      fun s hs => h as a s List.prefix_rfl hs⟩
  · intro hh p b s hp hrun
    obtain ⟨hpast, hlast⟩ := hh
    rcases List.prefix_concat_iff.mp hp with heq | hp
    · obtain ⟨rfl, hb⟩ := List.append_inj' heq rfl
      obtain rfl : b = a := by simpa using hb
      exact hlast s hrun
    · exact hpast p b s hp hrun

theorem everyStep_cons {s₀ s₁ : S} {a : A} {as : List A} {C : List A → S → A → Prop}
    (ha : step s₀ a = some s₁) : EveryStep step s₀ (a :: as) C ↔
      C [] s₀ a ∧ EveryStep step s₁ as fun past => C (a :: past) := by
  constructor
  · intro h
    refine ⟨h [] a s₀ (List.prefix_append [a] as) rfl, fun p b s hp hrun => ?_⟩
    apply h (a :: p) b s (List.cons_prefix_cons.mpr ⟨rfl, hp⟩)
    rw [run_cons, ha, Option.bind_some, hrun]
  · intro hh p b s hp hrun
    obtain ⟨hfirst, hrest⟩ := hh
    cases p with
    | nil =>
      obtain rfl : s₀ = s := by simpa using hrun
      obtain ⟨rfl, _⟩ := List.cons_prefix_cons.mp hp
      exact hfirst
    | cons c p =>
      obtain ⟨rfl, htail⟩ := List.cons_prefix_cons.mp hp
      rw [run_cons, ha, Option.bind_some] at hrun
      exact hrest p b s htail hrun

theorem everyStep_append {s₀ s : S} {as bs : List A} {C : List A → S → A → Prop}
    (hrun : run step s₀ as = some s) : EveryStep step s₀ (as ++ bs) C ↔
      EveryStep step s₀ as C ∧ EveryStep step s bs fun past => C (as ++ past) := by
  induction as generalizing s₀ C with
  | nil =>
    obtain rfl : s₀ = s := by simpa using hrun
    exact ⟨fun h => ⟨everyStep_nil, h⟩, fun h => h.2⟩
  | cons a as ih =>
    obtain ⟨s₁, ha, hrest⟩ := Option.bind_eq_some_iff.mp hrun
    rw [List.cons_append, everyStep_cons ha, everyStep_cons ha, ih hrest, and_assoc]
    rfl

/-- The exact-condition rule. If, where `Q` has held all along, a step keeps it exactly when the step
meets `C`, then `Q` holds throughout a run exactly when every step of the run meets `C`. -/
theorem always_iff_everyStep {s₀ : S} {Q : List A → S → Prop} {C : List A → S → A → Prop}
    (init : Q [] s₀)
    (exact_step : ∀ as s a t, run step s₀ as = some s → Always step s₀ as Q → step s a = some t →
      (Q (as ++ [a]) t ↔ C as s a))
    (as : List A) (s : S) (hrun : run step s₀ as = some s) :
    Always step s₀ as Q ↔ EveryStep step s₀ as C := by
  refine run_induction (P := fun as _ => Always step s₀ as Q ↔ EveryStep step s₀ as C)
    ?_ ?_ as s hrun
  · exact iff_of_true (always_nil.mpr init) everyStep_nil
  · intro as s a t hs ih ha
    have ht : run step s₀ (as ++ [a]) = some t := (run_snoc_eq_some step).mpr ⟨s, hs, ha⟩
    rw [always_snoc, everyStep_snoc, ← ih]
    apply and_congr_right
    intro hpast
    have hiff := exact_step as s a t hs hpast ha
    constructor
    · intro hlast m hm
      obtain rfl : s = m := by simpa [hs] using hm
      exact hiff.mp (hlast t ht)
    · intro hstep m hm
      obtain rfl : t = m := by simpa [ht] using hm
      exact hiff.mpr (hstep s hs)

end Safety

end Runs
