import SantaIWish.Library.Destutter
import SantaIWish.Library.Simulation
import SantaIWish.AuthSteps

/-!
# What listeners are told of the current user

Listeners are told whenever the access token of the current user has become another one, and
of nothing else: sign-ins, refreshes, sign-outs and the launch with a stored user, once each.
-/

namespace SantaIWish
open Runs
set_option autoImplicit false

def AuthStep.IsLaunch : AuthStep → Prop
  | launch _ => True
  | _ => False

/-- The access token and the user id. -/
abbrev UserView := Option String × Option String

def UserView.told (v : UserView) : AuthNotification := ⟨v.1.filter fun token => token ≠ "", v.2⟩

namespace Auth

def view (s : Auth) : UserView := (s.rawAccessToken, s.getUserID)

/-- What there is to see of the current user after each step. -/
def views (s : Auth) (steps : List AuthStep) : List UserView :=
  trace Auth.step (fun s a => ((s.step a).map view).toList) s steps

variable {s t m : Auth}

theorem view_of_user (h : t.user = s.user) : t.view = s.view := by
  simp only [view, rawAccessToken, getUserID, h]

/-- One more token, if it is another one. -/
structure Tells (s t : Auth) : Prop where
  last : t.lastNotifiedUserToken = t.rawAccessToken
  notifications : t.notifications = s.notifications ++
    if s.lastNotifiedUserToken = t.rawAccessToken then [] else [t.view.told]

namespace Tells

theorem quiet (hlast : s.lastNotifiedUserToken = s.rawAccessToken) (huser : t.user = s.user)
    (hlast' : t.lastNotifiedUserToken = s.lastNotifiedUserToken)
    (hsame : t.notifications = s.notifications) : Tells s t := by
  have htoken : t.rawAccessToken = s.rawAccessToken := congrArg Prod.fst (view_of_user huser)
  refine ⟨(hlast'.trans hlast).trans htoken.symm, ?_⟩
  rw [htoken, if_pos hlast, hsame, List.append_nil]

theorem post (hlast : m.lastNotifiedUserToken = s.lastNotifiedUserToken)
    (hsame : m.notifications = s.notifications) :
    Tells s m.possiblyPostAuthStateChangeNotification := by
  have hview : m.possiblyPostAuthStateChangeNotification.view = m.view := view_of_user post_user
  have htoken : m.possiblyPostAuthStateChangeNotification.rawAccessToken = m.rawAccessToken :=
    congrArg Prod.fst hview
  refine ⟨post_lastNotifiedUserToken.trans htoken.symm, ?_⟩
  rw [htoken, hview, ← hlast, ← hsame]
  unfold possiblyPostAuthStateChangeNotification
  split
  · rw [List.append_nil]
  · rfl

/-- A user that is to be current, and an archive that is to be saved with it. -/
theorem updated (hlast : s.lastNotifiedUserToken = s.rawAccessToken) (force : Bool)
    (fails : List SecItemCall) : Tells s (s.updateCurrentUser none force true fails).1 := by
  by_cases hnone : none = s.currentUser
  · rw [updateCurrentUser, if_pos hnone]
    exact post rfl rfl
  · rcases updateCurrentUser_cases s hnone force fails with ⟨t, hsaved, heq⟩ | ⟨error, _, heq⟩
    · rw [heq]
      obtain ⟨keychain, _, rfl⟩ := saveUser_none hsaved
      exact post rfl rfl
    · rw [heq]
      cases force with
      | false => exact quiet hlast rfl rfl rfl
      | true => exact post rfl rfl

end Tells

theorem step_tells (h : s.WellFormed) (hlast : s.lastNotifiedUserToken = s.rawAccessToken) {a : AuthStep}
    (hsaves : a.SavesTokens) (hlaunch : ¬ a.IsLaunch) (hstep : s.step a = some t) : Tells s t := by
  cases a with
  | retrieveUser accessToken date refreshToken =>
    obtain rfl := Option.some.inj hstep
    exact .quiet hlast (user_retrieved (fun n hn => (h.current n hn).1) _ _) rfl rfl
  | accountInfoReceived n localID fails =>
    obtain ⟨u, hn, hu, rfl⟩ := step_accountInfoReceived hstep
    have hother := h.ne_current hn
    rcases accountInfoReceived_cases hother hu localID fails with
      ⟨error, _, heq⟩ | ⟨uid, _, ⟨error, heq⟩ | ⟨keychain, _, heq⟩⟩
    · rw [heq]
      exact .quiet hlast rfl rfl rfl
    · rw [heq]
      exact .quiet hlast (user_set hother _) rfl rfl
    · rw [heq]
      exact .post rfl rfl
  | tokenReceived n now answer shared fails =>
    obtain ⟨u, hu, rfl⟩ := Option.map_eq_some_iff.mp hstep
    cases answer with
    | error error =>
      rw [tokenReceived_error]
      split
      · have htells := Tells.updated (s := { s with retrieving := s.retrieving.erase n }) hlast true fails
        exact ⟨htells.last, htells.notifications⟩
      · exact .quiet hlast rfl rfl rfl
    | ok response =>
      obtain ⟨v, _, _, ⟨hsame, heq⟩ | ⟨_, ⟨error, hunsaved, _⟩ | ⟨keychain, _, heq⟩⟩⟩ :=
        tokenReceived_ok hu now response shared fails
      · rw [heq]
        refine .quiet hlast ?_ rfl rfl
        by_cases hcurrent : s.currentUser = some n
        · rw [user_set_self hcurrent (h.current n hcurrent).1, hsame hcurrent, user_of_current hcurrent, hu]
        · exact user_set hcurrent v
      · exact absurd hunsaved (not_or.mpr hsaves)
      · rw [heq]
        exact .post rfl rfl
  | signOut fails =>
    obtain rfl := Option.some.inj hstep
    unfold Auth.signOut
    split
    · exact .quiet hlast rfl rfl rfl
    · exact .updated hlast false fails
  | launch fails => exact absurd trivial hlaunch

/-- The course of the current user in a process, with a launch that starts from nobody. -/
def course (s : Auth) (steps : List AuthStep) : List UserView := (none, none) :: s.view :: s.views steps

/-- The course without what repeats the token, and without the start. -/
def news (s : Auth) (steps : List AuthStep) : List AuthNotification :=
  ((s.course steps).destutter fun v w => v.1 ≠ w.1).tail.map UserView.told

theorem course_snoc {s₀ : Auth} {steps : List AuthStep} {a : AuthStep}
    (hrun : run Auth.step s₀ steps = some s) (hstep : s.step a = some t) :
    s₀.course (steps ++ [a]) = s₀.course steps ++ [t.view] := by
  rw [course, views, trace_snoc _ _ hrun, hstep]
  rfl

theorem course_getLast {s₀ : Auth} {steps : List AuthStep} (hrun : run Auth.step s₀ steps = some s) :
    (s₀.course steps).getLast (List.cons_ne_nil _ _) = s.view := by
  refine run_induction (P := fun steps s => (s₀.course steps).getLast (List.cons_ne_nil _ _) = s.view)
    rfl ?_ steps s hrun
  intro steps s a t hsteps _ hstep
  simp only [course_snoc hsteps hstep, List.getLast_append_singleton]

theorem launch_tells (k : KeychainServices UserArchive) (fails : List SecItemCall) :
    Tells { keychain := (loaded k fails).1 } (launch k fails) := by
  rw [launch_eq]
  exact .post rfl rfl

theorem run_told {k : KeychainServices UserArchive} {fails : List SecItemCall} {steps : List AuthStep}
    (hsteps : ∀ a ∈ steps, a.SavesTokens ∧ ¬ a.IsLaunch)
    (hrun : run Auth.step (launch k fails) steps = some s) : s.WellFormed ∧
      s.lastNotifiedUserToken = s.rawAccessToken ∧ s.notifications = (launch k fails).news steps := by
  refine run_induction (P := fun steps s => (∀ a ∈ steps, a.SavesTokens ∧ ¬ a.IsLaunch) →
    s.WellFormed ∧ s.lastNotifiedUserToken = s.rawAccessToken ∧
      s.notifications = (launch k fails).news steps) ?_ ?_ steps s hrun hsteps
  · intro _
    obtain ⟨hlast, hnotifications⟩ := launch_tells k fails
    refine ⟨WellFormed.launch k fails, hlast, ?_⟩
    rw [hnotifications, news, course, views, trace, List.destutter_pair]
    by_cases hnone : none = (launch k fails).rawAccessToken <;> simp [view, hnone]
  · intro steps s a t hrun ih hstep hsteps
    obtain ⟨hwellFormed, hlast, htold⟩ := ih fun b hb => hsteps b (List.mem_append_left _ hb)
    obtain ⟨hsaves, hlaunch⟩ := hsteps a (List.mem_append_right _ List.mem_cons_self)
    obtain ⟨hlast', hnotifications⟩ := step_tells hwellFormed hlast hsaves hlaunch hstep
    refine ⟨hwellFormed.step hstep, hlast', ?_⟩
    have hkey : (((launch k fails).course steps).getLast (List.cons_ne_nil _ _)).1 = s.rawAccessToken :=
      congrArg Prod.fst (course_getLast hrun)
    rw [hnotifications, htold, news, news, course_snoc hrun hstep, course, List.cons_append,
      List.destutter_cons', List.destutter_cons', List.destutter'_key_concat Prod.fst,
      List.tail_append_of_ne_nil (List.destutter'_ne_nil _ _), List.map_append]
    simp only [course] at hkey
    rw [hkey, hlast]
    congr 1
    by_cases hsame : s.rawAccessToken = t.rawAccessToken <;> simp [view, hsame]

/-- In a process whose refreshed tokens can be saved, listeners are told of every change of the access
token of the current user once, with the token and the user that there were then. -/
theorem run_notified (k : KeychainServices UserArchive) (fails : List SecItemCall) (steps : List AuthStep)
    (hsteps : ∀ a ∈ steps, a.SavesTokens ∧ ¬ a.IsLaunch) (s : Auth)
    (hrun : run Auth.step (launch k fails) steps = some s) :
    s.notifications = (launch k fails).news steps := (run_told hsteps hrun).2.2

/-- Ann signs in, has her token refreshed twice, with the same token at last, and is signed out. -/
def annRefreshed : List AuthStep :=
  [.retrieveUser (some "first") (some 3600) (some "refresh"),
    .accountInfoReceived 0 (.ok (some "uid")) [],
    .tokenReceived 0 3600 (.ok ⟨"renewed", none, 3600, by decide⟩) false [],
    .tokenReceived 0 7200 (.ok ⟨"renewed", none, 3600, by decide⟩) false [],
    .tokenReceived 0 7200 (.error .userDisabled) false []]

theorem annRefreshed_notified : ∃ s, run Auth.step (launch {} []) annRefreshed = some s ∧
    s.notifications = [⟨some "first", some "uid"⟩, ⟨some "renewed", some "uid"⟩, ⟨none, none⟩] := by
  obtain ⟨s, hs⟩ : ∃ s, run Auth.step (launch {} []) annRefreshed = some s := ⟨_, rfl⟩
  refine ⟨s, hs, (run_notified {} [] annRefreshed ?_ s hs).trans (by decide +kernel)⟩
  simp [annRefreshed, AuthStep.SavesTokens, AuthStep.IsLaunch]

end Auth

end SantaIWish
