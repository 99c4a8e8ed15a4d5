import SantaIWish.Network
import SantaIWish.ShownScreens

/-!
# The app as a device

What is tapped on the screens of the app is, for its store and for the server, what a
device does: it signs in and out and adds. As long as Firebase Auth signs nobody out by
itself, nothing is saved without an account, and everything saved is PUT under the user
that is current then.
-/

namespace SantaIWish
open Runs NavigationStack
set_option autoImplicit false

/-- The steps of the device that a step of the app makes. -/
def App.deviceSteps (s : App) : AppStep → List DeviceStep
  | .signInEnded _ result => (result.map .signIn).toList
  | .userCreated _ result => (result.map .signIn).toList
  | .signOutTapped => [.signOut]
  | .relaunch =>
    if s.session.checkLoginStatis then (s.session.currentUser.map .signIn).toList else []
  | a => (s.saved a).toList.map .add

/-- Firebase Auth does not find that a user is no longer valid. -/
def AppStep.KeepsUser : AppStep → Prop
  | tokenFailed _ invalid => invalid = false
  | signedOutByForce _ => False
  | _ => True

def Screens.HasProfile (s : Screens) : Prop :=
  ∃ p ∈ s.navigation.screens, p.screen.isProfile = true

/-- The device has the store of the app. Behind a profile, its account is the current user. -/
structure App.Refines (order : NameOrder) (s : App) (d : Device) : Prop where
  wellFormed : s.toScreens.WellFormed order
  store : d.store = s.store
  account : s.HasProfile → d.account = s.session.currentUser ∧ s.session.currentUser ≠ none
  user : s.session.token.isSome = true ∨ s.session.inFlight ≠ [] → s.session.currentUser ≠ none

/-! ## The profile -/

section Profile
variable {order : NameOrder} {s : Screens}

theorem Screen.isProfile_viewWillAppear (t : Store) (screen : Screen) :
    (screen.viewWillAppear order t).isProfile = screen.isProfile := by
  cases screen <;> rfl

theorem Screen.isProfile_viewDidLoad (t : Store) (screen : Screen) :
    (screen.viewDidLoad t).isProfile = screen.isProfile := by
  cases screen <;> rfl

theorem Screens.HasProfile.of_push {screen : Screen} (hscreen : screen.isProfile = false)
    (h : (s.push order screen).HasProfile) : s.HasProfile := by
  obtain ⟨p, hp, hprofile⟩ := h
  rcases List.mem_cons.mp hp with rfl | hp
  · have hnot : (((screen.viewDidLoad s.store.graph).viewWillAppear order s.store.graph)).isProfile =
        false := by
      rw [Screen.isProfile_viewWillAppear, Screen.isProfile_viewDidLoad, hscreen]
    exact absurd (hnot.symm.trans hprofile) (by decide)
  · exact ⟨p, hp, hprofile⟩

theorem Screens.HasProfile.of_pop (h : (s.pop order).HasProfile) : s.HasProfile := by
  obtain ⟨p, hp, hprofile⟩ := h
  have hkept : ∀ p ∈ (s.pop order).navigation.screens, p.screen.isProfile = true → s.HasProfile := by
    apply forall_pop
    · intro p hp h
      exact hp ((Screen.isProfile_viewWillAppear _ _).symm.trans h)
    · exact fun p hp h => ⟨p, hp, h⟩
  exact hkept p hp hprofile

theorem Screens.not_hasProfile_login {p : Presented} (hp : p.screen = .login) {store : LocalStore}
    {n : ScreenID} : ¬ Screens.HasProfile ⟨store, ⟨p, []⟩, n⟩ := by
  intro hh
  obtain ⟨q, hq, hprofile⟩ := hh
  obtain rfl := List.mem_singleton.mp hq
  rw [hp] at hprofile
  cases hprofile

end Profile

namespace App
variable {order : NameOrder} {s t : App} {a : AppStep}

theorem QuietMove.hasProfile {op : Option AddOp} (h : QuietMove order s t op) (hprofile : t.HasProfile) :
    s.HasProfile := by
  unfold Screens.HasProfile at hprofile
  cases h with
  | stay h => rwa [h] at hprofile
  | push hscreen _ h => exact Screens.HasProfile.of_push hscreen (h ▸ hprofile)
  | pop h => exact Screens.HasProfile.of_pop (h ▸ hprofile)
  | @add op u _ hadd h =>
    have hu : u.HasProfile := by
      rcases h with h | h
      · rwa [h] at hprofile
      · exact Screens.HasProfile.of_pop (h ▸ hprofile)
    unfold Screens.HasProfile at hu
    rwa [(Screens.add_eq_some hadd).2.2.1] at hu

end App

/-! ## The session -/

/-- A token, or a callback that will bring one, is there only with a user. -/
def Session.Backed (s : Session) : Prop :=
  s.token.isSome = true ∨ s.inFlight ≠ [] → s.currentUser ≠ none

namespace Session
variable {s : Session}

theorem Backed.attemptEnded (h : s.Backed) (result : Option String) : (s.attemptEnded result).Backed := by
  intro hh
  rw [attemptEnded_currentUser]
  cases result with
  | some uid => simp
  | none =>
    rw [attemptEnded_token] at hh
    cases hu : s.currentUser with
    | some user => simp
    | none =>
      have hsame : s.attemptEnded none = s := by
        simp [Session.attemptEnded, authenticated, getCredentials, hu]
      rw [hsame] at hh
      exact absurd hu (h hh)

theorem Backed.receiveToken (h : s.Backed) {user : String} (huser : user ∈ s.inFlight) (serial : Nat) :
    (s.receiveToken user serial).Backed := fun _ => h (Or.inr (List.ne_nil_of_mem huser))

theorem Backed.tokenFailed (h : s.Backed) {user : String} (huser : user ∈ s.inFlight) :
    (s.tokenFailed user false).Backed := fun _ => h (Or.inr (List.ne_nil_of_mem huser))

theorem Backed.signOut (h : s.Backed) : s.signOut.Backed := by
  intro hh
  apply h
  rcases hh with hh | hh
  · cases hh
  · exact Or.inr hh

theorem Backed.relaunch (h : s.Backed) : s.relaunch.Backed := by
  intro hh
  apply h
  rcases hh with hh | hh
  · exact Or.inl hh
  · exact absurd rfl hh

end Session

theorem Screens.WellFormed.not_hasProfile_unwound {order : NameOrder} {s : Screens} (h : s.WellFormed order) :
    ¬ (s.unwindToLogin order).HasProfile :=
  Screens.not_hasProfile_login (Screens.login_viewWillAppear (h.standing.getLast _))

/-! ## The simulation -/

section Simulation
variable {order : NameOrder}

theorem Screens.AddsFrom.hasProfile {s : Screens} {t : Store} {op : AddOp}
    (h : Screens.AddsFrom t op s.navigation.screens) : s.HasProfile := by
  unfold Screens.HasProfile
  generalize s.navigation.screens = screens at h ⊢
  cases h with
  | child => exact ⟨_, List.mem_cons_of_mem _ List.mem_cons_self, rfl⟩
  | item _ | letter _ =>
    exact ⟨_, List.mem_cons_of_mem _ (List.mem_cons_of_mem _ (List.mem_cons_of_mem _
      List.mem_cons_self)), rfl⟩

theorem Screens.AddsFrom.controller {s : Screens} {t : Store} {op : AddOp}
    (h : Screens.AddsFrom t op s.navigation.screens) :
    ∃ controller, s.top.santaIWishController = some controller := by
  obtain ⟨store, ⟨top, below⟩, next⟩ := s
  cases h <;> exact ⟨_, rfl⟩

theorem App.deviceSteps_quiet {s : App} {a : AppStep} (h : a.Quiet) :
    s.deviceSteps a = (s.saved a).toList.map .add := by
  cases a <;> first | rfl | exact h.elim

/-- What a quiet step saves, the device adds. -/
theorem App.Refines.save {s t : App} {d : Device} {a : AppStep} (h : s.Refines order d)
    (hquiet : a.Quiet) (hstep : s.step order a = some t) :
    ∃ e, run Device.step d (s.deviceSteps a) = some e ∧ t.Refines order e := by
  have hmoves := App.step_moves hstep
  have hwellFormed := hmoves.invariant (fun _ _ _ ht hmove => hmove.wellFormed ht) h.wellFormed
  obtain ⟨hsession, hmove⟩ := App.step_quiet hquiet hstep
  have hprofile := hmove.hasProfile
  have hstore := hmoves.store
  rw [App.deviceSteps_quiet hquiet]
  cases hop : s.saved a with
  | none =>
    rw [hop] at hstore
    refine ⟨d, rfl, hwellFormed, h.store.trans (Option.some.inj hstore), fun hp => ?_, ?_⟩
    · rw [hsession]
      exact h.account (hprofile hp)
    · rw [hsession]
      exact h.user
  | some op =>
    have hhas := (App.addsFrom h.wellFormed hop).hasProfile
    obtain ⟨haccount, huser⟩ := h.account hhas
    have hadd : d.store.add op = some t.store := by
      rw [hop, Option.toList_some, run_cons, ← h.store] at hstore
      obtain ⟨m, hm, hmt⟩ := Option.bind_eq_some_iff.mp hstore
      obtain rfl := Option.some.inj hmt
      exact hm
    refine ⟨{ d with store := t.store }, ?_, hwellFormed, rfl, fun hp => ?_, ?_⟩
    · rw [Option.toList_some, List.map_singleton, run_cons, Device.step,
        if_neg (by rw [haccount]; exact huser), hadd]
      rfl
    · rw [hsession]
      exact ⟨haccount, huser⟩
    · rw [hsession]
      exact h.user

theorem App.Refines.signIn {t : App} {d : Device} {uid : String}
    (hwellFormed : t.toScreens.WellFormed order) (hstore : d.store = t.store)
    (huser : t.session.currentUser = some uid) (hbacked : t.session.Backed) :
    ∃ e, run Device.step d [.signIn uid] = some e ∧ t.Refines order e :=
  ⟨_, rfl, hwellFormed, hstore, fun _ => ⟨huser.symm, by rw [huser]; simp⟩, hbacked⟩

theorem App.Refines.keep {s t : App} {d : Device} (h : s.Refines order d)
    (hwellFormed : t.toScreens.WellFormed order) (hstore : t.store = s.store)
    (hprofile : t.HasProfile → s.HasProfile) (huser : t.session.currentUser = s.session.currentUser)
    (hbacked : t.session.Backed) : ∃ e, run Device.step d [] = some e ∧ t.Refines order e := by
  refine ⟨d, rfl, hwellFormed, h.store.trans hstore.symm, fun hp => ?_, hbacked⟩
  rw [huser]
  exact h.account (hprofile hp)

/-- The screens of the app are, for the store and the account, a device. -/
theorem app_simulates (order : NameOrder) : Simulates (App.step order) Device.step App.deviceSteps
    AppStep.KeepsUser (App.Refines order) := by
  constructor
  intro s d a t h ha hstep
  by_cases hquiet : a.Quiet
  · exact h.save hquiet hstep
  have hwellFormed := (App.step_moves hstep).invariant (fun _ _ _ ht hmove => hmove.wellFormed ht)
    h.wellFormed
  have hbacked : s.session.Backed := h.user
  cases a with
  | signInEnded n result =>
    obtain ⟨_, _, rfl⟩ := Option.map_eq_some_iff.mp hstep
    cases result with
    | none =>
      exact h.keep hwellFormed rfl id (Session.attemptEnded_currentUser none) (hbacked.attemptEnded none)
    | some uid =>
      have huser := Session.attemptEnded_currentUser (s := s.session) (some uid)
      exact App.Refines.signIn hwellFormed h.store huser (hbacked.attemptEnded (some uid))
  | userCreated n result =>
    obtain ⟨call, _, rfl⟩ := Option.map_eq_some_iff.mp hstep
    cases result with
    | none =>
      exact h.keep hwellFormed rfl id (Session.attemptEnded_currentUser none) (hbacked.attemptEnded none)
    | some uid =>
      have huser := Session.attemptEnded_currentUser (s := s.session) (some uid)
      simp only [App.userCreated] at hwellFormed ⊢
      split at hwellFormed
      · rename_i hpresents
        rw [if_pos hpresents]
        exact App.Refines.signIn hwellFormed h.store huser (hbacked.attemptEnded (some uid))
      · rename_i hpresents
        rw [if_neg hpresents]
        exact App.Refines.signIn hwellFormed h.store huser (hbacked.attemptEnded (some uid))
  | tokenIssued user serial =>
    obtain ⟨huser, rfl⟩ := App.step_tokenIssued hstep
    exact h.keep hwellFormed rfl id rfl (hbacked.receiveToken huser serial)
  | tokenFailed user invalid =>
    obtain rfl : invalid = false := ha
    obtain ⟨huser, rfl⟩ := App.step_tokenFailed hstep
    exact h.keep hwellFormed rfl id rfl (hbacked.tokenFailed huser)
  | signedOutByForce user => exact ha.elim
  | signOutTapped =>
    obtain rfl := App.step_signOutTapped hstep
    refine ⟨_, rfl, hwellFormed, h.store, fun hp => ?_, hbacked.signOut⟩
    exact absurd hp h.wellFormed.not_hasProfile_unwound
  | relaunch =>
    obtain rfl := Option.some.inj hstep
    simp only [App.deviceSteps]
    unfold App.relaunch at hwellFormed ⊢
    split at hwellFormed
    · rename_i hstatus
      obtain ⟨uid, huser⟩ := Option.ne_none_iff_exists'.mp (hbacked (Or.inl hstatus))
      rw [if_pos hstatus, if_pos hstatus, huser]
      exact App.Refines.signIn hwellFormed h.store huser hbacked.relaunch
    · rename_i hstatus
      rw [if_neg hstatus, if_neg hstatus]
      exact h.keep hwellFormed rfl (fun hp => absurd hp (Screens.not_hasProfile_login rfl)) rfl
        hbacked.relaunch
  | _ => exact absurd trivial hquiet

/-- With each step the app PUTs what the device sends. -/
theorem App.puts_eq {s : App} {d : Device} (h : s.Refines order d) (a : AppStep) :
    s.puts a = trace Device.step Device.sent d (s.deviceSteps a) := by
  by_cases hquiet : a.Quiet
  · rw [deviceSteps_quiet hquiet, puts]
    cases hop : s.saved a with
    | none => rfl
    | some op =>
      have hfrom := addsFrom h.wellFormed hop
      obtain ⟨controller, hcontroller⟩ := hfrom.controller
      rw [hcontroller, Option.toList_some, List.map_singleton, trace_singleton, Device.sent,
        (h.account hfrom.hasProfile).1, h.store]
  · have hnone : s.puts a = [] := by
      cases a <;> first | rfl | exact absurd trivial hquiet
    rw [hnone]
    cases a with
    | signInEnded n result | userCreated n result => cases result <;> rfl
    | tokenIssued user serial | tokenFailed user invalid | signedOutByForce user | signOutTapped => rfl
    | relaunch =>
      rw [deviceSteps]
      split
      · cases s.session.currentUser <;> rfl
      · rfl
    | _ => exact absurd trivial hquiet

theorem App.installed_refines : App.installed.Refines order ⟨.empty, none⟩ :=
  ⟨Screens.wellFormed_installed, rfl, fun hp => absurd hp (Screens.not_hasProfile_login rfl), by
    rintro (h | h)
    · cases h
    · exact absurd rfl h⟩

theorem App.deviceSteps_adds (s : App) (a : AppStep) : addsOf (s.deviceSteps a) = (s.saved a).toList := by
  by_cases hquiet : a.Quiet
  · rw [deviceSteps_quiet hquiet]
    cases s.saved a <;> rfl
  · cases a with
    | signInEnded n result | userCreated n result => cases result <;> rfl
    | tokenIssued user serial | tokenFailed user invalid | signedOutByForce user | signOutTapped => rfl
    | relaunch =>
      rw [deviceSteps]
      split
      · cases s.session.currentUser <;> rfl
      · rfl
    | _ => exact absurd trivial hquiet

end Simulation

/-! ## Runs of the app -/

/-- An add sends one request. -/
theorem Device.length_sent {d e : Device} {a : DeviceStep} (h : d.step a = some e) :
    (d.sent a).length = (addsOf [a]).length := by
  cases a with
  | signIn uid => rfl
  | signOut => rfl
  | add op =>
    obtain ⟨haccount, _, henabled, _⟩ := Device.step_add h
    obtain ⟨uid, huid⟩ := Option.ne_none_iff_exists'.mp haccount
    obtain ⟨q, hq, _⟩ := AddOp.start_spec uid d.store.wellFormed henabled
    rw [sent, huid, hq]
    rfl

theorem Device.run_length_sent {d e : Device} {steps : List DeviceStep}
    (hrun : run Device.step d steps = some e) :
    (trace Device.step Device.sent d steps).length = (addsOf steps).length := by
  refine run_induction (P := fun steps _ =>
    (trace Device.step Device.sent d steps).length = (addsOf steps).length) rfl ?_ steps e hrun
  intro steps t a u hsteps ih hstep
  rw [trace_snoc _ _ hsteps, addsOf_snoc, List.length_append, List.length_append, ih,
    Device.length_sent hstep]

section Run
variable (order : NameOrder)

/-- What a run of the app makes the device do. -/
def App.deviceRun (s : App) (steps : List AppStep) : List DeviceStep :=
  trace (App.step order) App.deviceSteps s steps

def App.putRun (s : App) (steps : List AppStep) : List URLRequest :=
  trace (App.step order) App.puts s steps

theorem App.addsOf_deviceRun {s t : App} {steps : List AppStep}
    (hrun : run (App.step order) s steps = some t) :
    addsOf (s.deviceRun order steps) = s.adds order steps := by
  refine run_induction (P := fun steps _ => addsOf (s.deviceRun order steps) = s.adds order steps)
    rfl ?_ steps t hrun
  intro steps t a u hsteps ih hstep
  rw [deviceRun, adds, trace_snoc _ _ hsteps, trace_snoc _ _ hsteps, ← deviceSteps_adds, addsOf,
    List.filterMap_append]
  exact congrArg (· ++ _) ih

/-- Every run of the app, from its installation on, is a run of a device: what was saved is in the store
of the device, and what was PUT is what the device sends, one request for each save. Behind a profile,
the account of the device is the user that is current in Firebase Auth. -/
theorem app_refines_device (steps : List AppStep) (hkeeps : ∀ a ∈ steps, a.KeepsUser) (s : App)
    (hrun : run (App.step order) .installed steps = some s) :
    ∃ d, run Device.step ⟨.empty, none⟩ (App.installed.deviceRun order steps) = some d ∧
      d.store = s.store ∧
      (s.HasProfile → d.account = s.session.currentUser ∧ s.session.currentUser ≠ none) ∧
      addsOf (App.installed.deviceRun order steps) = App.installed.adds order steps ∧
      (∀ op ∈ App.installed.adds order steps, FromScreen op) ∧
      App.installed.putRun order steps = trace Device.step Device.sent ⟨.empty, none⟩
        (App.installed.deviceRun order steps) ∧
      (App.installed.putRun order steps).length = (App.installed.adds order steps).length := by
  obtain ⟨d, hd, hrefines⟩ := (app_simulates order).run App.installed_refines hkeeps hrun
  have hadds := App.addsOf_deviceRun order hrun
  have hputs : App.installed.putRun order steps = trace Device.step Device.sent ⟨.empty, none⟩
      (App.installed.deviceRun order steps) :=
    (app_simulates order).outputs (fun _ _ a _ h _ _ => App.puts_eq h a) App.installed_refines hkeeps hrun
  refine ⟨d, hd, hrefines.store, hrefines.account, hadds, fun op hop => ?_, hputs, ?_⟩
  · obtain ⟨a, _, t, hsaved⟩ := mem_trace (App.step order) _ hop
    exact (App.saved_adds (Option.mem_toList.mp hsaved)).2
  · rw [hputs, ← hadds]
    exact Device.run_length_sent hd

/-- Ann is added and opened, and her train is added. -/
theorem annOpened_refines_device : ∃ (s : App) (d : Device),
    run (App.step .codePoints) .installed
      (annOpened ++ [.addItemTapped, .saveItem 0 (some [1]) "Train" "red"]) = some s ∧
    d.store = s.store ∧ d.account = some "uid" ∧
    (App.installed.putRun .codePoints
      (annOpened ++ [.addItemTapped, .saveItem 0 (some [1]) "Train" "red"])).length = 2 := by
  have hfacts : (run (App.step .codePoints) .installed
      (annOpened ++ [.addItemTapped, .saveItem 0 (some [1]) "Train" "red"])).map (fun s =>
        (s.session.currentUser, s.navigation.screens.any fun p => p.screen.isProfile)) =
      some (some "uid", true) := by decide +kernel
  have hadds : (App.installed.adds .codePoints
      (annOpened ++ [.addItemTapped, .saveItem 0 (some [1]) "Train" "red"])).length = 2 := by
    decide +kernel
  obtain ⟨s, hs, hfacts⟩ := Option.map_eq_some_iff.mp hfacts
  obtain ⟨huser, hprofile⟩ := Prod.mk.inj hfacts
  obtain ⟨d, _, hstore, haccount, _, _, _, hputs⟩ :=
    app_refines_device .codePoints _ (by simp [annOpened, AppStep.KeepsUser]) s hs
  exact ⟨s, d, hs, hstore, (haccount (List.any_eq_true.mp hprofile)).1.trans huser, hputs.trans hadds⟩

end Run

end SantaIWish
