import Mathlib.Data.List.Basic
import SantaIWish.Controller.SignUp

/-!
# What sign-ups record

A finished sign-up has one local parent whether its write succeeded or failed. A
pushed profile screen carries the parent of a sign-up finished before, or none:
that of its own sign-up does not exist yet.
-/

namespace SantaIWish
open Runs
set_option autoImplicit false

namespace SignUpScreen

/-- All callbacks have arrived. -/
def Settled (s : SignUpScreen) : Prop :=
  ∀ call ∈ s.calls, call.stage ≠ .creating ∧ call.stage ≠ .writing

instance (s : SignUpScreen) : Decidable s.Settled :=
  inferInstanceAs (Decidable (∀ call ∈ s.calls, call.stage ≠ .creating ∧ call.stage ≠ .writing))

def parentsOf (s : SignUpScreen) (i : Nat) : List RecordedParent :=
  s.parents.filter fun r => r.signUp = i

/-- One parent for each sign-up whose account and document were written, with its texts, and no other. -/
structure ParentsExact (s : SignUpScreen) : Prop where
  succeeded : ∀ i call, s.calls[i]? = some call → call.stage = .finished true →
    s.parentsOf i = [⟨i, createParentProfile call.name call.email⟩]
  failed : ∀ i call, s.calls[i]? = some call → call.stage ≠ .finished true → s.parentsOf i = []
  known : ∀ r ∈ s.parents, r.signUp < s.calls.length

/-- Every pushed profile carries the parent of its own sign-up. -/
def ProfilesOwn (s : SignUpScreen) : Prop :=
  ∀ p ∈ s.pushed, ∃ r, p.childParent = some r ∧ r.signUp = p.signUp

/-- What holds after every step: a parent for each answered write, and no profile with its own. -/
structure Consistent (s : SignUpScreen) : Prop where
  parents : ∀ i call, s.calls[i]? = some call → s.parentsOf i =
    if call.stage.isFinished = true then [⟨i, createParentProfile call.name call.email⟩] else []
  known : ∀ r ∈ s.parents, r.signUp < s.calls.length
  childParent : ∀ r, s.childParent = some r → r ∈ s.parents
  notOwn : ∀ p ∈ s.pushed, ∀ r, p.childParent = some r → r.signUp ≠ p.signUp
  pushed : ∀ call ∈ s.calls, call.stage.hasAccount = true → s.pushed ≠ []

theorem consistent_init : ({} : SignUpScreen).Consistent := by
  constructor <;> simp

theorem parentsOf_eq_nil {s : SignUpScreen} {i : Nat} :
    s.parentsOf i = [] ↔ ∀ r ∈ s.parents, r.signUp ≠ i := by
  simp [parentsOf, List.filter_eq_nil_iff]

theorem parentsOf_snoc (s : SignUpScreen) (r : RecordedParent) (i : Nat) :
    (s.parents ++ [r]).filter (fun r => r.signUp = i) =
      if r.signUp = i then s.parentsOf i ++ [r] else s.parentsOf i := by
  rw [List.filter_append, parentsOf]
  split
  · rename_i h
    simp [h]
  · rename_i h
    simp [h]

theorem getElem?_set_cases {calls : List SignUpCall} {i j : Nat} {new call : SignUpCall}
    (h : (calls.set i new)[j]? = some call) :
    (j = i ∧ call = new) ∨ (j ≠ i ∧ calls[j]? = some call) := by
  by_cases hj : i = j
  · subst j
    rw [List.getElem?_set_self'] at h
    obtain ⟨old, _, hnew⟩ := Option.map_eq_some_iff.mp h
    exact Or.inl ⟨rfl, hnew.symm⟩
  · rw [List.getElem?_set_ne hj] at h
    exact Or.inr ⟨fun he => hj he.symm, h⟩

theorem getElem?_snoc_cases {calls : List SignUpCall} {j : Nat} {new call : SignUpCall}
    (h : (calls ++ [new])[j]? = some call) :
    (j = calls.length ∧ call = new) ∨ calls[j]? = some call := by
  rw [List.getElem?_append] at h
  split at h
  · exact Or.inr h
  · rename_i hj
    obtain ⟨hindex, hnew⟩ := List.getElem?_eq_some_iff.mp h
    have hlength : j = calls.length := by
      rw [List.length_singleton] at hindex
      omega
    exact Or.inl ⟨hlength, by simpa using hnew.symm⟩

section Step
variable {s t : SignUpScreen}

theorem consistent_registerNewAccount (hs : s.Consistent) {email name password : String}
    (h : s.step (.registerNewAccount email name password) = some t) : t.Consistent := by
  obtain ⟨hcalls, hparents, hchild, hpushed, _⟩ := step_registerNewAccount h
  have hof : ∀ i, t.parentsOf i = s.parentsOf i := fun i => by rw [parentsOf, hparents, parentsOf]
  rcases hcalls with hcalls | ⟨new, hnew, hcalls⟩
  · refine ⟨fun i call hcall => ?_, ?_, ?_, ?_, ?_⟩
    · rw [hof]
      exact hs.parents i call (hcalls ▸ hcall)
    · rw [hparents, hcalls]
      exact hs.known
    · rw [hparents, hchild]
      exact hs.childParent
    · rw [hpushed]
      exact hs.notOwn
    · rw [hpushed, hcalls]
      exact hs.pushed
  · refine ⟨fun i call hcall => ?_, fun r hr => ?_, ?_, ?_, fun call hcall => ?_⟩
    · rw [hof]
      rw [hcalls] at hcall
      rcases getElem?_snoc_cases hcall with ⟨rfl, rfl⟩ | hcall
      · rw [hnew]
        exact parentsOf_eq_nil.mpr fun r hr => Nat.ne_of_lt (hs.known r hr)
      · exact hs.parents i call hcall
    · rw [hcalls, List.length_append]
      exact Nat.lt_add_right 1 (hs.known r (hparents ▸ hr))
    · rw [hparents, hchild]
      exact hs.childParent
    · rw [hpushed]
      exact hs.notOwn
    · rw [hcalls] at hcall
      rw [hpushed]
      rcases List.mem_append.mp hcall with hcall | hcall
      · exact hs.pushed call hcall
      · obtain rfl := List.mem_singleton.mp hcall
        rw [hnew]
        intro hfalse
        cases hfalse

/-- Setting the stage of a call that is neither finished before nor after changes no parent. -/
theorem Consistent.setStage (hs : s.Consistent) {i : Nat} {call : SignUpCall} {stage : SignUpStage}
    (hcall : s.calls[i]? = some call) (hbefore : call.stage.isFinished = false)
    (hafter : stage.isFinished = false) {j : Nat} {other : SignUpCall}
    (hother : (s.calls.set i { call with stage := stage })[j]? = some other) : s.parentsOf j =
      if other.stage.isFinished = true then [⟨j, createParentProfile other.name other.email⟩] else [] := by
  rcases getElem?_set_cases hother with ⟨rfl, rfl⟩ | ⟨_, hother⟩
  · rw [hs.parents j call hcall, hbefore, hafter]
  · exact hs.parents j other hother

theorem consistent_userCreated (hs : s.Consistent) {i : Nat} {result : Except String String}
    (h : s.step (.userCreated i result) = some t) : t.Consistent := by
  obtain ⟨call, hcall, hstage, rfl⟩ := step_userCreated h
  have hbefore : call.stage.isFinished = false := by rw [hstage]; rfl
  cases result with
  | error err =>
    refine ⟨fun j other hother => hs.setStage hcall hbefore rfl hother, fun r hr => ?_, hs.childParent,
      hs.notOwn, fun other hother haccount => ?_⟩
    · simpa [userCreated, showErrorAlert, SignUpScreen.setStage] using hs.known r hr
    · rcases List.mem_or_eq_of_mem_set hother with hmem | rfl
      · exact hs.pushed other hmem haccount
      · cases haccount
  | ok uid =>
    have hnone : s.parentsOf i = [] := by
      rw [hs.parents i call hcall, hbefore]
      rfl
    refine ⟨fun j other hother => hs.setStage hcall hbefore rfl hother, fun r hr => ?_, hs.childParent,
      fun p hp r hr => ?_, fun _ _ _ => List.append_ne_nil_of_right_ne_nil _ (List.cons_ne_nil _ _)⟩
    · simpa [userCreated, SignUpScreen.setStage] using hs.known r hr
    · rcases List.mem_append.mp hp with hp | hp
      · exact hs.notOwn p hp r hr
      · -- the field of the screen holds a parent of the store, and this sign-up has none there
        obtain rfl := List.mem_singleton.mp hp
        exact parentsOf_eq_nil.mp hnone r (hs.childParent r hr)

theorem consistent_documentAdded (hs : s.Consistent) {i : Nat} {failed : Bool}
    (h : s.step (.documentAdded i failed) = some t) : t.Consistent := by
  obtain ⟨call, hcall, hstage, rfl⟩ := step_documentAdded h
  have hnone : s.parentsOf i = [] := by
    rw [hs.parents i call hcall, hstage]
    rfl
  refine ⟨fun j other hother => ?_, fun r hr => ?_, fun r hr => ?_, ?_, fun other hother haccount => ?_⟩
  · rw [documentAdded_calls] at hother
    rw [parentsOf, documentAdded_parents, parentsOf_snoc]
    rcases getElem?_set_cases hother with ⟨rfl, rfl⟩ | ⟨hne, hother⟩
    · rw [if_pos rfl, hnone]
      rfl
    · rw [if_neg fun he => hne he.symm]
      exact hs.parents j other hother
  · rw [documentAdded_calls, List.length_set]
    rw [documentAdded_parents] at hr
    rcases List.mem_append.mp hr with hr | hr
    · exact hs.known r hr
    · obtain rfl := List.mem_singleton.mp hr
      exact (List.getElem?_eq_some_iff.mp hcall).1
  · rw [documentAdded_childParent] at hr
    obtain rfl := Option.some.inj hr
    rw [documentAdded_parents]
    exact List.mem_append_right _ List.mem_cons_self
  · rw [documentAdded_pushed]
    exact hs.notOwn
  · rw [documentAdded_calls] at hother
    rw [documentAdded_pushed]
    rcases List.mem_or_eq_of_mem_set hother with hmem | rfl
    · exact hs.pushed other hmem haccount
    · exact hs.pushed call (List.mem_of_getElem? hcall) (by rw [hstage]; rfl)

theorem consistent_step (hs : s.Consistent) {a : SignUpStep} (h : s.step a = some t) :
    t.Consistent := by
  cases a with
  | registerNewAccount email name password => exact consistent_registerNewAccount hs h
  | userCreated i result => exact consistent_userCreated hs h
  | documentAdded i failed => exact consistent_documentAdded hs h

theorem consistent_run {steps : List SignUpStep} (hrun : run step {} steps = some s) :
    s.Consistent :=
  run_invariant consistent_init (fun _ _ _ hs h => consistent_step hs h) hrun

/-! ## What the callbacks of the run decide -/

/-- Setting an entry that did not meet a property adds what the new entry meets, and no more. -/
theorem exists_mem_set_iff {calls : List SignUpCall} {i : Nat} {old new : SignUpCall}
    {P : SignUpCall → Prop} (hold : calls[i]? = some old) (hP : ¬ P old) :
    (∃ call ∈ calls.set i new, P call) ↔ P new ∨ ∃ call ∈ calls, P call := by
  obtain ⟨hi, hget⟩ := List.getElem?_eq_some_iff.mp hold
  constructor
  · intro hh
    obtain ⟨call, hcall, hp⟩ := hh
    rcases List.mem_or_eq_of_mem_set hcall with hmem | rfl
    · exact Or.inr ⟨call, hmem, hp⟩
    · exact Or.inl hp
  · rintro (hp | ⟨call, hcall, hp⟩)
    · exact ⟨new, List.mem_set hi new, hp⟩
    · obtain ⟨j, hj⟩ := List.mem_iff_getElem?.mp hcall
      have hne : i ≠ j := by
        rintro rfl
        obtain rfl := Option.some.inj (hold.symm.trans hj)
        exact hP hp
      exact ⟨call, List.mem_of_getElem? ((List.getElem?_set_ne hne).trans hj), hp⟩

/-- A screen was pushed when some account was created. -/
theorem pushed_iff {steps : List SignUpStep} (hrun : run step {} steps = some s) :
    s.pushed = [] ↔ ∀ i uid, .userCreated i (.ok uid) ∉ steps := by
  refine run_induction (P := fun steps (s : SignUpScreen) =>
    s.pushed = [] ↔ ∀ i uid, .userCreated i (.ok uid) ∉ steps) (by simp) ?_ steps s hrun
  intro steps s a t _ hs hstep
  cases a with
  | registerNewAccount email name password =>
    rw [(step_registerNewAccount hstep).2.2.2.1, hs]
    simp
  | userCreated i result =>
    obtain ⟨call, _, _, rfl⟩ := step_userCreated hstep
    cases result with
    | error err =>
      have hpushed : (s.userCreated i call (.error err)).pushed = s.pushed := rfl
      rw [hpushed, hs]
      simp
    | ok uid =>
      refine iff_of_false (List.append_ne_nil_of_right_ne_nil _ (List.cons_ne_nil _ _)) ?_
      intro hnone
      exact hnone i uid (List.mem_append_right _ List.mem_cons_self)
  | documentAdded i failed =>
    obtain ⟨call, _, _, rfl⟩ := step_documentAdded hstep
    rw [documentAdded_pushed, hs]
    simp

/-- A sign-up ended with a failed write when some write failed. -/
theorem failedWrite_iff {steps : List SignUpStep} (hrun : run step {} steps = some s) :
    (∃ call ∈ s.calls, call.stage = .finished false) ↔ ∃ i, .documentAdded i true ∈ steps := by
  refine run_induction (P := fun steps (s : SignUpScreen) =>
    (∃ call ∈ s.calls, call.stage = .finished false) ↔ ∃ i, .documentAdded i true ∈ steps)
    (by simp) ?_ steps s hrun
  intro steps s a t _ hs hstep
  cases a with
  | registerNewAccount email name password =>
    have hsame : (∃ i, SignUpStep.documentAdded i true ∈
        steps ++ [.registerNewAccount email name password]) ↔ ∃ i, .documentAdded i true ∈ steps := by
      simp
    rw [hsame, ← hs]
    rcases (step_registerNewAccount hstep).1 with hcalls | ⟨new, hnew, hcalls⟩
    · rw [hcalls]
    · rw [hcalls]
      simp [or_and_right, exists_or, hnew]
  | userCreated i result =>
    obtain ⟨call, hcall, hstage, rfl⟩ := step_userCreated hstep
    have hsame : (∃ j, SignUpStep.documentAdded j true ∈ steps ++ [.userCreated i result]) ↔
        ∃ j, .documentAdded j true ∈ steps := by simp
    have hold : ¬ call.stage = .finished false := by simp [hstage]
    rw [hsame, ← hs]
    cases result <;> exact (exists_mem_set_iff hcall hold).trans (by simp)
  | documentAdded i failed =>
    obtain ⟨call, hcall, hstage, rfl⟩ := step_documentAdded hstep
    have hold : ¬ call.stage = .finished false := by simp [hstage]
    rw [documentAdded_calls, exists_mem_set_iff hcall hold, hs]
    cases failed
    · simp
    · exact iff_of_true (Or.inl rfl) ⟨i, List.mem_append_right _ List.mem_cons_self⟩

theorem Consistent.parentsExact_iff (hs : s.Consistent) :
    s.ParentsExact ↔ ¬ ∃ call ∈ s.calls, call.stage = .finished false := by
  constructor
  · intro h hh
    obtain ⟨call, hcall, hstage⟩ := hh
    obtain ⟨i, hi⟩ := List.mem_iff_getElem?.mp hcall
    have hone := hs.parents i call hi
    rw [h.failed i call hi (by simp [hstage]), hstage] at hone
    cases hone
  · intro hnone
    refine ⟨fun i call hcall hstage => ?_, fun i call hcall hstage => ?_, hs.known⟩
    · rw [hs.parents i call hcall, hstage]
      rfl
    · have hunfinished : call.stage.isFinished = false := by
        cases hcase : call.stage with
        | creating | refused | writing => rfl
        | finished written =>
          cases written with
          | true => exact absurd hcase hstage
          | false => exact absurd ⟨call, List.mem_of_getElem? hcall, hcase⟩ hnone
      rw [hs.parents i call hcall, hunfinished]
      rfl

theorem Consistent.profilesOwn_iff (hs : s.Consistent) : s.ProfilesOwn ↔ s.pushed = [] := by
  constructor
  · intro h
    rw [List.eq_nil_iff_forall_not_mem]
    intro p hp
    obtain ⟨r, hr, hown⟩ := h p hp
    exact hs.notOwn p hp r hr hown
  · intro hnone p hp
    rw [hnone] at hp
    cases hp

/-- The store has exactly the parents of the successful sign-ups as long as no write fails. -/
theorem parentsExact_iff_writes {steps : List SignUpStep} (hrun : run step {} steps = some s) :
    s.ParentsExact ↔ ∀ i, .documentAdded i true ∉ steps := by
  rw [(consistent_run hrun).parentsExact_iff, failedWrite_iff hrun, not_exists]

end Step

end SignUpScreen

/-- Sign-ups are recorded as they should be, and each pushed profile has its own parent, exactly in the
runs in which no account is created. This holds at every moment, so also when all callbacks have
arrived. -/
theorem signUps_exact_iff (steps : List SignUpStep) (s : SignUpScreen)
    (hrun : run SignUpScreen.step {} steps = some s) :
    s.ParentsExact ∧ s.ProfilesOwn ↔ ∀ i uid, .userCreated i (.ok uid) ∉ steps := by
  have hs := SignUpScreen.consistent_run hrun
  rw [← SignUpScreen.pushed_iff hrun, hs.parentsExact_iff, hs.profilesOwn_iff]
  constructor
  · exact fun h => h.2
  · intro hnone
    refine ⟨fun hh => ?_, hnone⟩
    obtain ⟨call, hcall, hstage⟩ := hh
    exact hs.pushed call hcall (by rw [hstage]; rfl) hnone

theorem refused_signUp_exact : ∃ s : SignUpScreen,
    run SignUpScreen.step {} [.registerNewAccount "lee@home" "Lee" "secret",
      .userCreated 0 (.error "in use")] = some s ∧ s.Settled ∧ s.ParentsExact ∧ s.ProfilesOwn := by
  obtain ⟨s, hs⟩ : ∃ s, run SignUpScreen.step {} [.registerNewAccount "lee@home" "Lee" "secret",
      .userCreated 0 (.error "in use")] = some s := ⟨_, rfl⟩
  refine ⟨s, hs, ?_, (signUps_exact_iff _ s hs).mpr (by simp)⟩
  obtain rfl := Option.some.inj hs
  decide

/-- After a sign-up that succeeded the profile screen has no parent. -/
theorem profile_without_parent :
    ¬ ∀ (steps : List SignUpStep) (s : SignUpScreen), run SignUpScreen.step {} steps = some s →
      s.Settled → s.ParentsExact ∧ s.ProfilesOwn := by
  intro h
  obtain ⟨s, hs⟩ : ∃ s, run SignUpScreen.step {} [.registerNewAccount "lee@home" "Lee" "secret",
      .userCreated 0 (.ok "uid"), .documentAdded 0 false] = some s := ⟨_, rfl⟩
  have hsettled : s.Settled := by
    obtain rfl := Option.some.inj hs
    decide
  have hown := (h _ s hs hsettled).2
  obtain rfl := Option.some.inj hs
  obtain ⟨r, hr, _⟩ := hown _ List.mem_cons_self
  cases hr

end SantaIWish
