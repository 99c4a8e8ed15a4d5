import SantaIWish.Library.Runs

/-!
# Forward simulation between two machines

Each step of the concrete machine stands for a list of abstract actions, which may
depend on the concrete state. If a step from related states is matched by the run of
its actions, then a concrete run is matched by the run of its trace.
-/

set_option autoImplicit false

universe u v w x y

namespace Runs

variable {C : Type u} {A : Type v} {S : Type w} {B : Type x}

section Trace
variable (step : C → A → Option C) (actions : C → A → List B)

/-- The abstract actions of a run, up to the first action that is not enabled. -/
def trace (c : C) : List A → List B
  | [] => []
  | a :: as => actions c a ++ (step c a).elim [] fun c' => trace c' as

theorem trace_cons {c c' : C} {a : A} (h : step c a = some c') (as : List A) :
    trace step actions c (a :: as) = actions c a ++ trace step actions c' as := by
  rw [trace, h]
  rfl

theorem trace_append {c c' : C} {as : List A} (hrun : run step c as = some c') (bs : List A) :
    trace step actions c (as ++ bs) = trace step actions c as ++ trace step actions c' bs := by
  induction as generalizing c with
  | nil =>
    obtain rfl := Option.some.inj hrun
    rfl
  | cons a as ih =>
    obtain ⟨m, ha, hrest⟩ := Option.bind_eq_some_iff.mp hrun
    rw [List.cons_append, trace_cons step actions ha, trace_cons step actions ha, ih hrest,
      List.append_assoc]

theorem trace_singleton (c : C) (a : A) : trace step actions c [a] = actions c a := by
  cases hstep : step c a <;> simp [trace, hstep]

theorem trace_snoc {c c' : C} {as : List A} (hrun : run step c as = some c') (a : A) :
    trace step actions c (as ++ [a]) = trace step actions c as ++ actions c' a := by
  rw [trace_append step actions hrun, trace_singleton]

/-- Every action of a trace is one of a concrete action of the run. -/
theorem mem_trace {c : C} {as : List A} {b : B} (hb : b ∈ trace step actions c as) :
    ∃ a ∈ as, ∃ c', b ∈ actions c' a := by
  induction as generalizing c with
  | nil => cases hb
  | cons a as ih =>
    rcases List.mem_append.mp hb with hb | hb
    · exact ⟨a, List.mem_cons_self, c, hb⟩
    · cases hstep : step c a with
      | none =>
        rw [hstep] at hb
        cases hb
      | some c' =>
        rw [hstep] at hb
        obtain ⟨a', ha', hb'⟩ := ih hb
        exact ⟨a', List.mem_cons_of_mem a ha', hb'⟩

end Trace

/-- Concrete steps whose actions meet `E` are matched, as long as the states are related. -/
structure Simulates (cstep : C → A → Option C) (astep : S → B → Option S) (actions : C → A → List B)
    (E : A → Prop) (R : C → S → Prop) : Prop where
  step : ∀ c s a c', R c s → E a → cstep c a = some c' →
    ∃ s', run astep s (actions c a) = some s' ∧ R c' s'

namespace Simulates
variable {cstep : C → A → Option C} {astep : S → B → Option S} {actions : C → A → List B}
  {E : A → Prop} {R : C → S → Prop}

/-- A concrete run is matched by the run of its trace. -/
theorem run (h : Simulates cstep astep actions E R) {c c' : C} {s : S} (hR : R c s) {as : List A}
    (hE : ∀ a ∈ as, E a) (hrun : Runs.run cstep c as = some c') :
    ∃ s', Runs.run astep s (trace cstep actions c as) = some s' ∧ R c' s' := by
  induction as generalizing c s with
  | nil =>
    obtain rfl := Option.some.inj hrun
    exact ⟨s, rfl, hR⟩
  | cons a as ih =>
    obtain ⟨hEa, hErest⟩ := List.forall_mem_cons.mp hE
    obtain ⟨m, ha, hrest⟩ := Option.bind_eq_some_iff.mp hrun
    obtain ⟨s₁, hs₁, hR₁⟩ := h.step c s a m hR hEa ha
    obtain ⟨s', hs', hR'⟩ := ih hR₁ hErest hrest
    refine ⟨s', ?_, hR'⟩
    rw [trace_cons cstep actions ha, run_append, hs₁, Option.bind_some, hs']

/-- If both machines put out the same with each step, they do so in a run. -/
theorem outputs {O : Type y} {cout : C → A → List O} {aout : S → B → List O}
    (h : Simulates cstep astep actions E R)
    (hout : ∀ c s a c', R c s → E a → cstep c a = some c' →
      cout c a = trace astep aout s (actions c a))
    {c c' : C} {s : S} (hR : R c s) {as : List A} (hE : ∀ a ∈ as, E a)
    (hrun : Runs.run cstep c as = some c') :
    trace cstep cout c as = trace astep aout s (trace cstep actions c as) := by
  induction as generalizing c s with
  | nil => rfl
  | cons a as ih =>
    obtain ⟨hEa, hErest⟩ := List.forall_mem_cons.mp hE
    obtain ⟨m, ha, hrest⟩ := Option.bind_eq_some_iff.mp hrun
    obtain ⟨s₁, hs₁, hR₁⟩ := h.step c s a m hR hEa ha
    rw [trace_cons cstep cout ha, trace_cons cstep actions ha, trace_append astep aout hs₁,
      hout c s a m hR hEa ha, ih hR₁ hErest hrest]

end Simulates

end Runs
