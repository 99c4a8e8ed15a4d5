import SantaIWish.AppSessions
import SantaIWish.SavedUser
import SantaIWish.Firebase.IDToken

/-!
# The app and Firebase Auth

The session of the app has a current user of its own, set by the results of callbacks and
kept by a launch. Put together with Firebase Auth, which has user objects and a keychain, it
is the user that Auth has at that time.
-/

namespace SantaIWish
open Runs
set_option autoImplicit false

structure AuthApp where
  app : App
  auth : Auth

inductive AuthAppStep where
  /-- A step of the app in which Auth has no part. -/
  | app (a : AppStep)
  /-- A login or a sign-up that the server turns down. -/
  | signInRejected (n : Nat)
  | createUserRejected (n : Nat)
  | retrieveUser (accessToken : Option String) (accessTokenExpirationDate : Option Nat)
      (refreshToken : Option String)
  /-- The answer to `getAccountInfo` for a user, which ends the `n`th login. -/
  | signInEnded (n user : Nat) (localID : Except AuthErrorCode String) (fails : List SecItemCall)
  | userCreated (n user : Nat) (localID : Except AuthErrorCode String) (fails : List SecItemCall)
  /-- The answer of the server to a token request of `getIDToken`. -/
  | tokenReceived (user now : Nat) (answer : Except AuthErrorCode SecureTokenResponse) (shared : Bool)
      (fails : List SecItemCall) (serial : Nat)
  /-- A token that need not be requested. -/
  | tokenCached (user now serial : Nat)
  /-- The answer to a token request that something other than the app made. -/
  | refreshed (user now : Nat) (answer : Except AuthErrorCode SecureTokenResponse) (shared : Bool)
      (fails : List SecItemCall)
  | relaunch (fails : List SecItemCall)

namespace AppStep

/-- The callbacks of Auth, and the launch. -/
def fromAuth : AppStep → Bool
  | signInEnded _ _ | userCreated _ _ | tokenIssued _ _ | tokenFailed _ _ | signedOutByForce _
  | relaunch => true
  | _ => false

end AppStep

namespace AuthApp

def authStep : AuthAppStep → Option AuthStep
  | .app _ | .signInRejected _ | .createUserRejected _ | .tokenCached _ _ _ => none
  | .retrieveUser accessToken date refreshToken => some (.retrieveUser accessToken date refreshToken)
  | .signInEnded _ user localID fails => some (.accountInfoReceived user (localID.map some) fails)
  | .userCreated _ user localID fails => some (.accountInfoReceived user (localID.map some) fails)
  | .tokenReceived user now answer shared fails _ => some (.tokenReceived user now answer shared fails)
  | .refreshed user now answer shared fails => some (.tokenReceived user now answer shared fails)
  | .relaunch fails => some (.launch fails)

section Callback
variable (jsonObject : List UInt8 → Option Json)

/-- The user a callback is given. -/
def signedIn : Except AuthErrorCode (Option String) → Option String
  | .ok uid => uid
  | .error _ => none

/-- The user is signed out by an answer. -/
def signsOut (s : Auth) (user : Nat) (shared : Bool) : Except AuthErrorCode SecureTokenResponse → Bool
  | .ok _ => false
  | .error error => error.tokenIsInvalid && decide (s.hasUserID user shared)

/-- The callback of `getIDToken`: the token has to be one that can be read. -/
def tokenCallback (uid : String) (serial : Nat) (signedOut : Bool) :
    Except AuthErrorCode String → Option AppStep
  | .error _ => some (.tokenFailed uid signedOut)
  | .ok token =>
    match parseIDToken jsonObject token with
    | .ok _ => some (.tokenIssued uid serial)
    | .error .malformedJWT => some (.tokenFailed uid false)
    -- an exception, which nobody catches
    | .error .unrecognizedSelector => none

/-- The step of the app that a step makes, if it makes one. -/
def callback (s : AuthApp) : AuthAppStep → Option (Option AppStep)
  | .app a => if a.fromAuth then none else some (some a)
  | .signInRejected n => some (some (.signInEnded n none))
  | .createUserRejected n => some (some (.userCreated n none))
  | .retrieveUser _ _ _ => some none
  | .signInEnded n user localID fails =>
    s.auth.users[user]?.map fun u =>
      some (.signInEnded n (signedIn (s.auth.accountInfoReceived user u (localID.map some) fails).2))
  | .userCreated n user localID fails =>
    s.auth.users[user]?.map fun u =>
      some (.userCreated n (signedIn (s.auth.accountInfoReceived user u (localID.map some) fails).2))
  | .tokenReceived user now answer shared fails serial =>
    s.auth.users[user]?.bind fun u => u.uid.bind fun uid =>
      (tokenCallback jsonObject uid serial (signsOut s.auth user shared answer)
        (s.auth.tokenReceived user now u answer shared fails).2).map some
  | .tokenCached user now serial =>
    s.auth.users[user]?.bind fun u => u.uid.bind fun uid =>
      if u.tokenService.hasValidAccessToken now then
        u.tokenService.accessToken.bind fun token =>
          (tokenCallback jsonObject uid serial false (.ok token)).map some
      else none
  | .refreshed user _ answer shared _ =>
    some (if signsOut s.auth user shared answer then s.auth.getUserID.map .signedOutByForce else none)
  | .relaunch _ => some (some .relaunch)

def step (order : NameOrder) (s : AuthApp) (a : AuthAppStep) : Option AuthApp :=
  ((authStep a).elim (some s.auth) s.auth.step).bind fun auth =>
    (s.callback jsonObject a).bind fun b =>
      (b.elim (some s.app) (s.app.step order)).map fun app => ⟨app, auth⟩

end Callback

end AuthApp

/-! ## Who is signed in after a step -/

namespace Auth
variable {s : Auth}

theorem getUserID_of_user {t : Auth} (h : t.user = s.user) : t.getUserID = s.getUserID := by
  rw [getUserID, getUserID, h]

theorem accountInfoReceived_getUserID {n : Nat} (hother : s.currentUser ≠ some n) {u : User}
    (hu : s.users[n]? = some u) (localID : Except AuthErrorCode String) (fails : List SecItemCall) :
    (s.accountInfoReceived n u (localID.map some) fails).1.getUserID =
      (AuthApp.signedIn (s.accountInfoReceived n u (localID.map some) fails).2).or s.getUserID := by
  rcases accountInfoReceived_cases hother hu (localID.map some) fails with
    ⟨error, _, heq⟩ | ⟨uid, huid, ⟨error, heq⟩ | ⟨keychain, _, heq⟩⟩
  · rw [heq]
    rfl
  · rw [heq]
    exact getUserID_of_user (user_set hother _)
  · rw [heq]
    cases localID with
    | error error => cases huid
    | ok localID =>
      obtain rfl := Except.ok.inj huid
      rw [getUserID, post_user, user_of_current rfl]
      have hset := List.getElem?_set_self (a := { u with uid := some localID })
        (List.getElem?_eq_some_iff.mp hu).1
      exact congrArg (Option.bind · User.uid) hset

theorem tokenReceived_getUserID (h : s.WellFormed) {n : Nat} {u : User} (hu : s.users[n]? = some u) (now : Nat)
    (answer : Except AuthErrorCode SecureTokenResponse) (shared : Bool) (fails : List SecItemCall) :
    (s.tokenReceived n now u answer shared fails).1.getUserID =
      if AuthApp.signsOut s n shared answer then none else s.getUserID := by
  cases answer with
  | error error =>
    rw [tokenReceived_error]
    by_cases hout : error.tokenIsInvalid = true ∧ s.hasUserID n shared
    · rw [if_pos hout]
      have hsigned : AuthApp.signsOut s n shared (.error error) = true := by
        simp [AuthApp.signsOut, hout.1, hout.2]
      rw [if_pos hsigned]
      rw [getUserID, updateCurrentUser_none_user, Option.bind_none]
    · rw [if_neg hout]
      have hsigned : ¬ AuthApp.signsOut s n shared (.error error) = true := by
        simpa [AuthApp.signsOut] using hout
      rw [if_neg hsigned]
      rfl
  | ok response =>
    have hsigned : AuthApp.signsOut s n shared (.ok response) = false := rfl
    rw [hsigned, if_neg Bool.false_ne_true]
    obtain ⟨v, huid, _, hends⟩ := tokenReceived_ok hu now response shared fails
    have hset : getUserID { s with users := s.users.set n v } = s.getUserID := by
      by_cases hcurrent : s.currentUser = some n
      · rw [getUserID, user_set_self hcurrent (h.current n hcurrent).1, getUserID, user_of_current hcurrent,
          hu, Option.bind_some, Option.bind_some, huid]
      · exact getUserID_of_user (user_set hcurrent v)
    rcases hends with ⟨_, heq⟩ | ⟨_, ⟨error, _, heq⟩ | ⟨keychain, _, heq⟩⟩
    · rw [heq]
      exact hset
    · rw [heq]
      exact hset
    · rw [heq, getUserID, post_user]
      exact hset

end Auth

namespace AuthAppStep

/-- What Auth does works. -/
def Works (a : AuthAppStep) : Prop := ∀ b, AuthApp.authStep a = some b → b.Works

end AuthAppStep

namespace AuthApp
variable {jsonObject : List UInt8 → Option Json} {order : NameOrder} {s t : AuthApp} {a : AuthAppStep}

theorem step_eq_some (h : s.step jsonObject order a = some t) : ∃ b, s.callback jsonObject a = some b ∧
    (authStep a).elim (some s.auth) s.auth.step = some t.auth ∧
      b.elim (some s.app) (s.app.step order) = some t.app := by
  obtain ⟨auth, hauth, h⟩ := Option.bind_eq_some_iff.mp h
  obtain ⟨b, hb, h⟩ := Option.bind_eq_some_iff.mp h
  obtain ⟨app, happ, rfl⟩ := Option.map_eq_some_iff.mp h
  exact ⟨b, hb, hauth, happ⟩

/-- The session of the app has the user of Auth, and so has the keychain. -/
structure Agrees (s : AuthApp) : Prop where
  kept : s.auth.Kept fun a u => a.userID = u.uid
  currentUser : s.app.session.currentUser = s.auth.getUserID

theorem tokenCallback_cases {uid : String} {serial : Nat} {signedOut : Bool}
    {result : Except AuthErrorCode String} {b : AppStep}
    (h : tokenCallback jsonObject uid serial signedOut result = some b) :
    (∃ error, result = .error error ∧ b = .tokenFailed uid signedOut) ∨
      (∃ token, result = .ok token) ∧ (b = .tokenIssued uid serial ∨ b = .tokenFailed uid false) := by
  unfold tokenCallback at h
  split at h
  · rename_i error
    exact Or.inl ⟨error, rfl, (Option.some.inj h).symm⟩
  · rename_i token
    refine Or.inr ⟨⟨token, rfl⟩, ?_⟩
    split at h
    · exact Or.inl (Option.some.inj h).symm
    · exact Or.inr (Option.some.inj h).symm
    · cases h

/-- An answer that signs out a user is about the current one. -/
theorem signsOut_getUserID {s : Auth} {n : Nat} {u : User} (hu : s.users[n]? = some u) {shared : Bool}
    {answer : Except AuthErrorCode SecureTokenResponse} (h : signsOut s n shared answer = true) :
    s.getUserID = u.uid := by
  cases answer with
  | ok response => cases h
  | error error =>
    have hid : s.hasUserID n shared := of_decide_eq_true (Bool.and_eq_true_iff.mp h).2
    rcases hid with hcurrent | ⟨hsame, _⟩
    · rw [Auth.getUserID, Auth.user_of_current hcurrent, hu, Option.bind_some]
    · rw [hsame, hu, Option.bind_some]

/-- The app is told what has become of the current user. -/
theorem callback_currentUser (hkept : s.auth.Kept fun a u => a.userID = u.uid) (hworks : a.Works)
    {b : Option AppStep} (hb : s.callback jsonObject a = some b) {auth : Auth}
    (hauth : (authStep a).elim (some s.auth) s.auth.step = some auth) :
    auth.getUserID = b.elim s.auth.getUserID (AppStep.currentUser s.auth.getUserID) := by
  cases a with
  | app a =>
    obtain rfl := Option.some.inj hauth
    simp only [callback] at hb
    split at hb
    · cases hb
    · rename_i hother
      obtain rfl := Option.some.inj hb
      cases a <;> first | rfl | exact absurd rfl hother
  | signInRejected n | createUserRejected n =>
    obtain rfl := Option.some.inj hauth
    obtain rfl := Option.some.inj hb
    rfl
  | retrieveUser accessToken date refreshToken =>
    obtain rfl := Option.some.inj hauth
    obtain rfl := Option.some.inj hb
    exact Auth.getUserID_of_user
      (Auth.user_retrieved (fun n hn => (hkept.wellFormed.current n hn).1) _ _)
  | signInEnded n user localID fails | userCreated n user localID fails =>
    obtain ⟨u, hmem, hu, rfl⟩ := Auth.step_accountInfoReceived hauth
    obtain ⟨u', hu', rfl⟩ := Option.map_eq_some_iff.mp hb
    obtain rfl := Option.some.inj (hu.symm.trans hu')
    exact Auth.accountInfoReceived_getUserID (hkept.wellFormed.ne_current hmem) hu localID fails
  | tokenReceived user now answer shared fails serial =>
    obtain ⟨u, hu, rfl⟩ := Option.map_eq_some_iff.mp hauth
    obtain ⟨u', hu', hb⟩ := Option.bind_eq_some_iff.mp hb
    obtain rfl := Option.some.inj (hu.symm.trans hu')
    obtain ⟨uid, huid, hb⟩ := Option.bind_eq_some_iff.mp hb
    obtain ⟨b, hcallback, rfl⟩ := Option.map_eq_some_iff.mp hb
    rw [Auth.tokenReceived_getUserID hkept.wellFormed hu]
    rcases tokenCallback_cases hcallback with ⟨error, _, rfl⟩ | ⟨⟨token, htoken⟩, hissued⟩
    · rw [Option.elim_some, AppStep.currentUser]
      cases hout : signsOut s.auth user shared answer with
      | false => simp
      | true => simp [signsOut_getUserID hu hout, huid]
    · have hstays : signsOut s.auth user shared answer = false := by
        cases answer with
        | ok response => rfl
        | error error =>
          rw [Auth.tokenReceived_error] at htoken
          cases htoken
      rw [hstays, if_neg Bool.false_ne_true]
      rcases hissued with rfl | rfl
      · rfl
      · simp [AppStep.currentUser]
  | tokenCached user now serial =>
    obtain rfl := Option.some.inj hauth
    obtain ⟨u, hu, hb⟩ := Option.bind_eq_some_iff.mp hb
    obtain ⟨uid, huid, hb⟩ := Option.bind_eq_some_iff.mp hb
    split at hb
    · obtain ⟨token, _, hb⟩ := Option.bind_eq_some_iff.mp hb
      obtain ⟨b, hcallback, rfl⟩ := Option.map_eq_some_iff.mp hb
      rcases tokenCallback_cases hcallback with ⟨error, _, rfl⟩ | ⟨_, rfl | rfl⟩
      · simp [AppStep.currentUser]
      · rfl
      · simp [AppStep.currentUser]
    · cases hb
  | refreshed user now answer shared fails =>
    obtain ⟨u, hu, rfl⟩ := Option.map_eq_some_iff.mp hauth
    obtain rfl := Option.some.inj hb
    rw [Auth.tokenReceived_getUserID hkept.wellFormed hu]
    cases hout : signsOut s.auth user shared answer with
    | false => rfl
    | true =>
      -- whoever is current is signed out
      cases huid : s.auth.getUserID with
      | none => rfl
      | some uid => simp [AppStep.currentUser]
  | relaunch fails =>
    obtain rfl := Option.some.inj hauth
    obtain rfl := Option.some.inj hb
    obtain rfl : fails = [] := hworks _ rfl
    exact hkept.relaunched_userID

theorem Agrees.step (h : s.Agrees) (hworks : a.Works) (hstep : s.step jsonObject order a = some t) :
    t.Agrees := by
  obtain ⟨b, hb, hauth, happ⟩ := step_eq_some hstep
  constructor
  · cases ha : authStep a with
    | none =>
      rw [ha] at hauth
      rw [← Option.some.inj hauth]
      exact h.kept
    | some c =>
      rw [ha] at hauth
      exact h.kept.step archiveRel_userID (hworks c ha)
        (Or.inr fun _ _ _ hrel hsame => hrel.trans hsame.symm) hauth
  · rw [callback_currentUser h.kept hworks hb hauth, ← h.currentUser]
    cases b with
    | none => rw [← Option.some.inj happ, Option.elim_none]
    | some b => exact App.step_currentUser happ

/-- A phone on which the app has not been launched yet. -/
def installed : AuthApp := ⟨.installed, .launch {} []⟩

end AuthApp

end SantaIWish
