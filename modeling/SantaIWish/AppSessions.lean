import SantaIWish.AppRuns
import SantaIWish.SignOut

/-!
# The session behind the screens

A profile is on screen because somebody signed in, or because a token was stored when the
app was launched, and nobody has signed out since. A token that was stored after a
sign-out is as good for that as any other.
-/

namespace SantaIWish
open Runs NavigationStack
set_option autoImplicit false

/-- The steps of the session that a step of the app makes. -/
def App.sessionSteps (s : App) : AppStep → List SessionStep
  | .signInEnded _ result => .signIn result :: if result.isSome then [.profileDidLoad] else []
  | .userCreated n result =>
    .createUser result ::
      if result.isSome && s.signUps[n]?.any fun call => s.presents call.1 then [.profileDidLoad] else []
  | .tokenIssued user serial => [.tokenIssued user serial]
  | .tokenFailed user invalid => [.tokenFailed user invalid]
  | .signedOutByForce user => [.signedOutByForce user]
  | .signOutTapped => [.signOut]
  | .relaunch => .relaunch :: if s.session.checkLoginStatis then [.profileDidLoad] else []
  | _ => []

/-- A token was stored when the app was launched. -/
def LaunchedIn (past : List SessionStep) (a : SessionStep) : Prop :=
  a = .relaunch ∧ ∃ s, run Session.step {} past = some s ∧ s.checkLoginStatis = true

/-- Somebody has signed in, or the app was launched with a token, and nobody has signed out since. -/
def Entered (past : List SessionStep) : Prop :=
  Since (fun before a => a.account.isSome = true ∨ LaunchedIn before a) (· ≠ .signOut) past

theorem entered_snoc {past : List SessionStep} {a : SessionStep} :
    Entered (past ++ [a]) ↔
      (a.account.isSome = true ∨ LaunchedIn past a) ∨ (Entered past ∧ a ≠ .signOut) :=
  since_snoc

/-! ## The session of the app -/

section Session
variable {order : NameOrder} {s t : App} {a : AppStep}

theorem App.sessionSteps_quiet (h : a.Quiet) : s.sessionSteps a = [] := by
  cases a <;> first | rfl | exact h.elim

theorem Session.run_loaded {s t : Session} {b : SessionStep} (hstep : s.step b = some t)
    (hpending : 0 < t.transitions) :
    run Session.step s [b, .profileDidLoad] = some t.profileDidLoad := by
  rw [run_cons, hstep, Option.bind_some, run_cons, Session.step, if_pos hpending]
  rfl

theorem Session.attemptEnded_transitions (s : Session) (uid : String) :
    0 < (s.attemptEnded (some uid)).transitions := Nat.succ_pos _

theorem App.step_session (h : s.step order a = some t) :
    run Session.step s.session (s.sessionSteps a) = some t.session := by
  by_cases hquiet : a.Quiet
  · rw [sessionSteps_quiet hquiet, run_nil, (step_quiet hquiet h).1]
  cases a with
  | signInEnded n result =>
    obtain ⟨_, _, rfl⟩ := Option.map_eq_some_iff.mp h
    cases result with
    | none => rfl
    | some uid => exact Session.run_loaded rfl (s.session.attemptEnded_transitions uid)
  | userCreated n result =>
    obtain ⟨call, hcall, rfl⟩ := Option.map_eq_some_iff.mp h
    rw [sessionSteps, hcall, Option.any_some]
    cases result with
    | none => rfl
    | some uid =>
      simp only [userCreated, Option.isSome_some, Bool.true_and]
      cases hpresents : s.presents call.1 with
      | true =>
        rw [if_pos rfl, if_pos rfl]
        exact Session.run_loaded rfl (s.session.attemptEnded_transitions uid)
      | false =>
        rw [if_neg Bool.false_ne_true, if_neg Bool.false_ne_true]
        rfl
  | tokenIssued user serial =>
    obtain ⟨huser, rfl⟩ := step_tokenIssued h
    rw [sessionSteps, run_cons, Session.step, if_pos huser]
    rfl
  | tokenFailed user invalid =>
    obtain ⟨huser, rfl⟩ := step_tokenFailed h
    rw [sessionSteps, run_cons, Session.step, if_pos huser]
    rfl
  | signedOutByForce user =>
    obtain rfl := Option.some.inj h
    rfl
  | signOutTapped =>
    obtain rfl := step_signOutTapped h
    rfl
  | relaunch =>
    obtain rfl := Option.some.inj h
    unfold relaunch
    cases hgate : s.session.checkLoginStatis with
    | true =>
      rw [sessionSteps, hgate]
      apply Session.run_loaded rfl
      change 0 < if s.session.checkLoginStatis = true then 1 else 0
      rw [if_pos hgate]
      exact Nat.one_pos
    | false =>
      rw [sessionSteps, hgate]
      rfl
  | _ => exact absurd trivial hquiet

/-- The session of the app is the session alone. -/
theorem session_simulates (order : NameOrder) : Simulates (App.step order) Session.step App.sessionSteps
    (fun _ => True) (fun s t => s.session = t) := by
  constructor
  rintro s _ a s' rfl _ hstep
  exact ⟨s'.session, App.step_session hstep, rfl⟩

/-- The current user after a step of the app, from the one before it. -/
def AppStep.currentUser (before : Option String) : AppStep → Option String
  | signInEnded _ result | userCreated _ result => result.or before
  | tokenFailed user invalid => if invalid = true ∧ before = some user then none else before
  | signedOutByForce user => if before = some user then none else before
  | _ => before

theorem App.step_currentUser (h : s.step order a = some t) :
    t.session.currentUser = a.currentUser s.session.currentUser := by
  rw [Session.run_currentUser (step_session h)]
  cases a with
  | signInEnded n result => cases result <;> rfl
  | userCreated n result | relaunch =>
    rw [sessionSteps, List.foldl_cons]
    split <;> rfl
  | _ => rfl

end Session

/-! ## Behind a profile -/

section Run
variable (order : NameOrder)

/-- What a run of the app does to its session. -/
def App.sessionRun (s : App) (steps : List AppStep) : List SessionStep :=
  trace (App.step order) App.sessionSteps s steps

variable {order} {s t : App} {a : AppStep} {past : List SessionStep}

theorem Entered.append {past after : List SessionStep} (h : Entered past) (hafter : .signOut ∉ after) :
    Entered (past ++ after) := by
  induction after using List.reverseRecOn with
  | nil => rwa [List.append_nil]
  | append_singleton after a ih =>
    rw [← List.append_assoc]
    refine entered_snoc.mpr (Or.inr ⟨ih fun hmem => hafter (List.mem_append_left _ hmem), ?_⟩)
    rintro rfl
    exact hafter (List.mem_append_right _ List.mem_cons_self)

theorem Entered.signedIn {a : SessionStep} {after : List SessionStep} (ha : a.account.isSome = true)
    (hafter : .signOut ∉ after) : Entered (past ++ a :: after) := by
  rw [← List.singleton_append, ← List.append_assoc]
  exact (entered_snoc.mpr (Or.inl (Or.inl ha))).append hafter

/-- A step that leaves a profile on screen signs somebody in, launches with a token or finds a profile
there, and does not sign out. -/
theorem App.step_entered (hwellFormed : s.toScreens.WellFormed order)
    (hpast : run Session.step {} past = some s.session) (hentered : s.HasProfile → Entered past)
    (h : s.step order a = some t) (hprofile : t.HasProfile) : Entered (past ++ s.sessionSteps a) := by
  by_cases hquiet : a.Quiet
  · rw [sessionSteps_quiet hquiet, List.append_nil]
    exact hentered ((step_quiet hquiet h).2.hasProfile hprofile)
  cases a with
  | signInEnded n result =>
    obtain ⟨_, _, rfl⟩ := Option.map_eq_some_iff.mp h
    cases result with
    | none => exact (hentered hprofile).append (by simp [sessionSteps])
    | some uid => exact .signedIn rfl (by simp)
  | userCreated n result =>
    obtain ⟨call, _, rfl⟩ := Option.map_eq_some_iff.mp h
    cases result with
    | none => exact (hentered hprofile).append (by simp [sessionSteps])
    | some uid =>
      apply Entered.signedIn rfl
      split <;> simp
  | tokenIssued user serial =>
    obtain ⟨_, rfl⟩ := step_tokenIssued h
    exact (hentered hprofile).append (by simp [sessionSteps])
  | tokenFailed user invalid =>
    obtain ⟨_, rfl⟩ := step_tokenFailed h
    exact (hentered hprofile).append (by simp [sessionSteps])
  | signedOutByForce user =>
    obtain rfl := Option.some.inj h
    exact (hentered hprofile).append (by simp [sessionSteps])
  | signOutTapped =>
    obtain rfl := step_signOutTapped h
    exact absurd hprofile hwellFormed.not_hasProfile_unwound
  | relaunch =>
    obtain rfl := Option.some.inj h
    unfold relaunch at hprofile
    split at hprofile
    · rename_i hgate
      rw [sessionSteps, if_pos hgate]
      have hlaunched : Entered (past ++ [.relaunch]) :=
        entered_snoc.mpr (Or.inl (Or.inr ⟨rfl, s.session, hpast, hgate⟩))
      have hloaded : Entered (past ++ [.relaunch] ++ [.profileDidLoad]) := hlaunched.append (by simp)
      rwa [List.append_assoc] at hloaded
    · exact absurd hprofile (Screens.not_hasProfile_login rfl)
  | _ => exact absurd trivial hquiet

theorem App.run_session {steps : List AppStep} (hrun : run (App.step order) .installed steps = some s) :
    run Session.step {} (App.installed.sessionRun order steps) = some s.session := by
  obtain ⟨_, hsession, rfl⟩ :=
    (session_simulates order).run (s := App.installed.session) rfl (fun _ _ => trivial) hrun
  exact hsession

theorem App.run_entered {steps : List AppStep} (hrun : run (App.step order) .installed steps = some s) :
    s.HasProfile → Entered (App.installed.sessionRun order steps) := by
  refine run_induction (P := fun steps s => s.HasProfile →
    Entered (App.installed.sessionRun order steps)) ?_ ?_ steps s hrun
  · intro hprofile
    exact absurd hprofile (Screens.not_hasProfile_login rfl)
  · intro steps t a u hsteps ih hstep hprofile
    rw [sessionRun, trace_snoc _ _ hsteps]
    exact step_entered (run_wellFormed hsteps) (run_session hsteps) ih hstep hprofile

/-- The session of the app is a run of the session alone, and whoever sees a profile has entered: signed in,
or launched the app with a token stored, and not signed out since. -/
theorem app_refines_session (order : NameOrder) (steps : List AppStep) (s : App)
    (hrun : run (App.step order) .installed steps = some s) :
    run Session.step {} (App.installed.sessionRun order steps) = some s.session ∧
      (s.HasProfile → Entered (App.installed.sessionRun order steps)) :=
  ⟨App.run_session hrun, App.run_entered hrun⟩

/-- Ann signs in, and her token is there when the app is launched again. -/
def annBack : List AppStep :=
  [.loginButtonTapped "ann@x.org" "secret", .signInEnded 0 (some "uid"), .tokenIssued "uid" 1, .relaunch]

theorem annBack_profile : ∃ s, run (App.step .codePoints) .installed annBack = some s ∧ s.HasProfile := by
  have hprofile : (run (App.step .codePoints) .installed annBack).map (fun s =>
      s.navigation.screens.any fun p => p.screen.isProfile) = some true := by decide +kernel
  obtain ⟨s, hs, hprofile⟩ := Option.map_eq_some_iff.mp hprofile
  exact ⟨s, hs, List.any_eq_true.mp hprofile⟩

theorem annBack_refines_session : ∃ s, run (App.step .codePoints) .installed annBack = some s ∧
    run Session.step {} (App.installed.sessionRun .codePoints annBack) = some s.session ∧
      Entered (App.installed.sessionRun .codePoints annBack) := by
  obtain ⟨s, hs, hprofile⟩ := annBack_profile
  obtain ⟨hsession, hentered⟩ := app_refines_session .codePoints annBack s hs
  exact ⟨s, hs, hsession, hentered hprofile⟩

/-- Without tokens stored after a sign-out, the stored token of a launch is that of somebody signed in. -/
theorem Entered.signedIn_of_tokens {s : Session} (hrun : run Session.step {} past = some s)
    (htokens : EveryStep Session.step {} past TokenInSession) (h : Entered past) : SignedIn past := by
  have hgates : Always Session.step {} past GateSound :=
    (always_iff_everyStep (by simp [GateSound, Session.checkLoginStatis])
      (fun _ _ _ _ hs hpast h => gateSound_snoc (hpast.of_run hs) h) past s hrun).mpr htokens
  obtain ⟨before, a, after, rfl, ha, hafter⟩ := h
  rcases ha with ha | ⟨rfl, t, ht, hgate⟩
  · exact ⟨before, a, after, rfl, ha, hafter⟩
  · obtain ⟨earlier, b, later, rfl, hb, hlater⟩ := hgates before t (List.prefix_append _ _) ht hgate
    refine ⟨earlier, b, later ++ .relaunch :: after, by simp, hb, fun c hc => ?_⟩
    rcases List.mem_append.mp hc with hc | hc
    · exact hlater c hc
    · rcases List.mem_cons.mp hc with rfl | hc
      · simp
      · exact hafter c hc

/-- Where every token comes while somebody is signed in, a profile is only ever on screen while somebody
is: after a sign-out no launch of the app brings it back. -/
theorem run_profileSignedIn (order : NameOrder) (steps : List AppStep) (s : App)
    (hrun : run (App.step order) .installed steps = some s)
    (htokens : EveryStep Session.step {} (App.installed.sessionRun order steps) TokenInSession)
    (hprofile : s.HasProfile) : SignedIn (App.installed.sessionRun order steps) :=
  (App.run_entered hrun hprofile).signedIn_of_tokens (App.run_session hrun) htokens

theorem annBack_profileSignedIn : SignedIn (App.installed.sessionRun .codePoints annBack) := by
  obtain ⟨s, hs, hprofile⟩ := annBack_profile
  apply run_profileSignedIn .codePoints annBack s hs _ hprofile
  have hsteps : App.installed.sessionRun .codePoints annBack =
      [] ++ [.signIn (some "uid")] ++ [.profileDidLoad] ++ [.tokenIssued "uid" 1] ++ [.relaunch] ++
        [.profileDidLoad] := by decide +kernel
  have hother : ∀ {past s a}, (∀ user serial, a ≠ .tokenIssued user serial) → TokenInSession past s a :=
    fun ha user serial heq => absurd heq (ha user serial)
  rw [hsteps]
  simp only [everyStep_snoc]
  refine ⟨⟨⟨⟨⟨everyStep_nil, ?_⟩, ?_⟩, ?_⟩, ?_⟩, ?_⟩
  · exact fun _ _ => hother (by simp)
  · exact fun _ _ => hother (by simp)
  · exact fun _ _ _ _ _ => (by decide : SignedIn [.signIn (some "uid"), .profileDidLoad])
  · exact fun _ _ => hother (by simp)
  · exact fun _ _ => hother (by simp)

end Run

end SantaIWish
