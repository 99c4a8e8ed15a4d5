import Mathlib.Data.List.Nodup
import SantaIWish.TokenRuns
import SantaIWish.Firebase.CurrentUser

/-!
# What a step does to the current user

A sign-in makes a user current once its archive is saved. New tokens are saved with the user they
are of, if that is the current one. A user is signed out when its archive is removed, or by force.
-/

namespace SantaIWish
open Runs
set_option autoImplicit false

/-- Refreshed tokens are saved. -/
def AuthStep.SavesTokens : AuthStep → Prop
  | tokenReceived _ _ _ _ fails =>
    ⟨.add, .genericPassword⟩ ∉ fails ∧ ⟨.update, .genericPassword⟩ ∉ fails
  | _ => True

namespace SecureTokenService
variable (s : SecureTokenService) (now : Nat) (response : SecureTokenResponse)

theorem receiveAccessToken_of_not_updated (h : (s.receiveAccessToken now response).2 = false) :
    (s.receiveAccessToken now response).1 = s := by
  unfold receiveAccessToken at h ⊢
  split at h
  · rw [if_pos ‹_›]
  · cases h

theorem receiveRefreshToken_of_not_updated (h : (s.receiveRefreshToken response).2 = false) :
    (s.receiveRefreshToken response).1 = s := by
  unfold receiveRefreshToken at h ⊢
  cases hbrought : response.refreshToken with
  | none => rfl
  | some token =>
    rw [hbrought] at h
    dsimp only at h ⊢
    split at h
    · rw [if_pos ‹_›]
    · cases h

/-- Tokens that are not new change nothing. -/
theorem receive_of_not_updated (h : (s.receive now (.ok response)).2 = false) :
    (s.receive now (.ok response)).1 = s := by
  have hparts : ((s.receiveAccessToken now response).2 ||
      ((s.receiveAccessToken now response).1.receiveRefreshToken response).2) = false := h
  obtain ⟨haccess, hrefresh⟩ := Bool.or_eq_false_iff.mp hparts
  exact (receiveRefreshToken_of_not_updated _ response hrefresh).trans
    (receiveAccessToken_of_not_updated s now response haccess)

theorem receive_refreshToken (h : s.refreshToken.isSome = true) :
    (s.receive now (.ok response)).1.refreshToken.isSome = true := by
  rw [(receive_spec s now (.ok response) 0).2.1]
  cases (TokenStep.responded 0 (.ok response)).refreshToken with
  | none => exact h
  | some token => rfl

end SecureTokenService

namespace Auth
variable {s t : Auth}

section Post

@[simp] theorem post_keychain :
    s.possiblyPostAuthStateChangeNotification.keychain = s.keychain := by
  unfold possiblyPostAuthStateChangeNotification
  split <;> rfl

@[simp] theorem post_users : s.possiblyPostAuthStateChangeNotification.users = s.users := by
  unfold possiblyPostAuthStateChangeNotification
  split <;> rfl

@[simp] theorem post_retrieving :
    s.possiblyPostAuthStateChangeNotification.retrieving = s.retrieving := by
  unfold possiblyPostAuthStateChangeNotification
  split <;> rfl

@[simp] theorem post_currentUser :
    s.possiblyPostAuthStateChangeNotification.currentUser = s.currentUser := by
  unfold possiblyPostAuthStateChangeNotification
  split <;> rfl

@[simp] theorem post_lastNotifiedUserToken :
    s.possiblyPostAuthStateChangeNotification.lastNotifiedUserToken = s.rawAccessToken := by
  unfold possiblyPostAuthStateChangeNotification
  split
  · assumption
  · rfl

@[simp] theorem post_user : s.possiblyPostAuthStateChangeNotification.user = s.user := by
  simp [user]

end Post

theorem user_mem {u : User} (h : s.user = some u) : u ∈ s.users := by
  obtain ⟨n, _, hu⟩ := Option.bind_eq_some_iff.mp h
  exact List.mem_of_getElem? hu

theorem user_of_current {n : Nat} (h : s.currentUser = some n) : s.user = s.users[n]? := by
  rw [user, h, Option.bind_some]

theorem user_set_self {n : Nat} (h : s.currentUser = some n) (hn : n < s.users.length) (v : User) :
    user { s with users := s.users.set n v } = some v := by
  unfold user
  rw [h]
  exact List.getElem?_set_self hn

theorem user_retrieved (h : ∀ n, s.currentUser = some n → n < s.users.length) (u : User)
    (retrieving : List Nat) :
    user { s with users := s.users ++ [u], retrieving := retrieving } = s.user := by
  unfold user
  cases hcurrent : s.currentUser with
  | none => rfl
  | some n => exact List.getElem?_append_left (h n hcurrent)

/-- A change of the object of another user is none of the current user. -/
theorem user_set {n : Nat} (h : s.currentUser ≠ some n) (v : User) :
    user { s with users := s.users.set n v } = s.user := by
  unfold user
  cases hcurrent : s.currentUser with
  | none => rfl
  | some m =>
    have hm : n ≠ m := fun heq => h (hcurrent.trans (congrArg some heq.symm))
    exact List.getElem?_set_ne hm

theorem saveUser_none {fails : List SecItemCall} (h : s.saveUser none fails = .ok t) :
    ∃ keychain, s.keychain.removeData fails = .ok keychain ∧ t = { s with keychain := keychain } := by
  unfold saveUser at h
  dsimp only [Option.bind_none] at h
  split at h
  · cases h
  · rename_i keychain hsaved
    exact ⟨keychain, hsaved, (Except.ok.inj h).symm⟩

theorem saveUser_some {n : Nat} {u : User} (hu : s.users[n]? = some u) {fails : List SecItemCall}
    (h : s.saveUser (some n) fails = .ok t) : ∃ keychain,
      s.keychain.setData fails u.encodeWithCoder = .ok keychain ∧ t = { s with keychain := keychain } := by
  unfold saveUser at h
  rw [Option.bind_some, hu] at h
  dsimp only at h
  split at h
  · cases h
  · rename_i keychain hsaved
    exact ⟨keychain, hsaved, (Except.ok.inj h).symm⟩

theorem saveUser_none_error {fails : List SecItemCall} {error : AuthErrorCode}
    (h : s.saveUser none fails = .error error) : ⟨.delete, .genericPassword⟩ ∈ fails := by
  by_contra hfails
  unfold saveUser at h
  simp [KeychainServices.removeData, hfails] at h

theorem saveUser_some_error {n : Nat} {u : User} (hu : s.users[n]? = some u) {fails : List SecItemCall}
    {error : AuthErrorCode} (h : s.saveUser (some n) fails = .error error) :
    ⟨.add, .genericPassword⟩ ∈ fails ∨ ⟨.update, .genericPassword⟩ ∈ fails := by
  by_contra hfails
  obtain ⟨hadd, hupdate⟩ := not_or.mp hfails
  unfold saveUser at h
  simp [hu, KeychainServices.setData, KeychainServices.setItemWithQuery, hadd, hupdate] at h

/-- A user that is saved becomes current, and one that could not be saved if that is forced. -/
theorem updateCurrentUser_cases (s : Auth) {user : Option Nat} (hnew : user ≠ s.currentUser)
    (force : Bool) (fails : List SecItemCall) :
    (∃ t, s.saveUser user fails = .ok t ∧ s.updateCurrentUser user force true fails =
      (possiblyPostAuthStateChangeNotification { t with currentUser := user }, .ok ())) ∨
    (∃ error, s.saveUser user fails = .error error ∧ s.updateCurrentUser user force true fails =
      (if force then possiblyPostAuthStateChangeNotification { s with currentUser := user } else s,
        .error error)) := by
  unfold updateCurrentUser
  rw [if_neg hnew]
  simp only [if_true]
  cases hsaved : s.saveUser user fails with
  | ok t => exact Or.inl ⟨t, rfl, rfl⟩
  | error error =>
    refine Or.inr ⟨error, rfl, ?_⟩
    cases force <;> rfl

/-- By force nobody is left, whether or not the archive could be removed. -/
theorem updateCurrentUser_none_user (s : Auth) (fails : List SecItemCall) :
    (s.updateCurrentUser none true true fails).1.user = none := by
  by_cases hnone : none = s.currentUser
  · rw [updateCurrentUser, if_pos hnone, post_user, user, ← hnone]
    rfl
  · rcases updateCurrentUser_cases s hnone true fails with ⟨t, _, heq⟩ | ⟨error, _, heq⟩
    · rw [heq, post_user]
      rfl
    · rw [heq, if_pos rfl, post_user]
      rfl

/-- A retrieval ends in an error, or in a user that could not be saved, or in the current user. -/
theorem accountInfoReceived_cases {n : Nat} (hother : s.currentUser ≠ some n) {u : User}
    (hu : s.users[n]? = some u) (localID : Except AuthErrorCode (Option String)) (fails : List SecItemCall) :
    (∃ error, localID = .error error ∧ s.accountInfoReceived n u localID fails =
      ({ s with retrieving := s.retrieving.erase n }, .error error)) ∨
    ∃ uid, localID = .ok uid ∧
      ((∃ error, s.accountInfoReceived n u localID fails =
        ({ s with retrieving := s.retrieving.erase n, users := s.users.set n { u with uid := uid } },
          .error error)) ∨
      ∃ keychain, s.keychain.setData fails (User.encodeWithCoder { u with uid := uid }) = .ok keychain ∧
        s.accountInfoReceived n u localID fails =
          (possiblyPostAuthStateChangeNotification { s with
            keychain := keychain
            users := s.users.set n { u with uid := uid }
            retrieving := s.retrieving.erase n
            currentUser := some n }, .ok uid)) := by
  cases localID with
  | error error => exact Or.inl ⟨error, rfl, rfl⟩
  | ok uid =>
    refine Or.inr ⟨uid, rfl, ?_⟩
    have hlt := (List.getElem?_eq_some_iff.mp hu).1
    let t : Auth :=
      { s with retrieving := s.retrieving.erase n, users := s.users.set n { u with uid := uid } }
    have hset : t.users[n]? = some { u with uid := uid } := List.getElem?_set_self hlt
    have hreceived : s.accountInfoReceived n u (.ok uid) fails =
        ((t.updateCurrentUser (some n) false true fails).1,
          (t.updateCurrentUser (some n) false true fails).2.map fun _ => uid) := rfl
    rcases updateCurrentUser_cases t (Ne.symm hother) false fails with
      ⟨_, hsaved, heq⟩ | ⟨error, hsaved, heq⟩
    · obtain ⟨keychain, hkeychain, rfl⟩ := saveUser_some hset hsaved
      refine Or.inr ⟨keychain, hkeychain, ?_⟩
      rw [hreceived, heq]
      rfl
    · refine Or.inl ⟨error, ?_⟩
      rw [hreceived, heq]
      rfl

theorem step_accountInfoReceived {n : Nat} {localID : Except AuthErrorCode (Option String)}
    {fails : List SecItemCall} (h : s.step (.accountInfoReceived n localID fails) = some t) :
    ∃ u, n ∈ s.retrieving ∧ s.users[n]? = some u ∧ t = (s.accountInfoReceived n u localID fails).1 := by
  simp only [step] at h
  split at h
  · rename_i hn
    obtain ⟨u, hu, rfl⟩ := Option.map_eq_some_iff.mp h
    exact ⟨u, hn, hu, rfl⟩
  · cases h

theorem step_tokenReceived {n : Nat} {u : User} (hu : s.users[n]? = some u) (now : Nat)
    (answer : Except AuthErrorCode SecureTokenResponse) (shared : Bool) (fails : List SecItemCall) :
    s.step (.tokenReceived n now answer shared fails) =
      some (s.tokenReceived n now u answer shared fails).1 := by
  rw [step, hu, Option.map_some]

/-- An error of the server is handed on, and signs the current user out if it is about the user's token. -/
theorem tokenReceived_error (s : Auth) (n now : Nat) (u : User) (error : AuthErrorCode) (shared : Bool)
    (fails : List SecItemCall) : s.tokenReceived n now u (.error error) shared fails =
      (if error.tokenIsInvalid = true ∧ s.hasUserID n shared then
          (updateCurrentUser { s with retrieving := s.retrieving.erase n } none true true fails).1
        else { s with retrieving := s.retrieving.erase n }, .error error) := by
  have hsame : hasUserID { s with retrieving := s.retrieving.erase n } n shared ↔ s.hasUserID n shared :=
    Iff.rfl
  simp only [tokenReceived, signOutIfTokenIsInvalidWithError, signOutByForceWithUserID, hsame]
  by_cases hinvalid : error.tokenIsInvalid = true <;> by_cases hid : s.hasUserID n shared <;>
    simp [hinvalid, hid]

/-- New tokens are saved, if they are of the current user. -/
theorem tokenReceived_ok {n : Nat} {u : User} (hu : s.users[n]? = some u) (now : Nat)
    (response : SecureTokenResponse) (shared : Bool) (fails : List SecItemCall) :
    ∃ v : User, v.uid = u.uid ∧ v.tokenService = (u.tokenService.receive now (.ok response)).1 ∧
      (((s.currentUser = some n → v = u) ∧ s.tokenReceived n now u (.ok response) shared fails =
        ({ s with users := s.users.set n v }, .ok response.accessToken)) ∨
      s.currentUser = some n ∧
        ((∃ error, (⟨.add, .genericPassword⟩ ∈ fails ∨ ⟨.update, .genericPassword⟩ ∈ fails) ∧
          s.tokenReceived n now u (.ok response) shared fails =
            ({ s with users := s.users.set n v }, .error error)) ∨
        ∃ keychain, s.keychain.setData fails v.encodeWithCoder = .ok keychain ∧
          s.tokenReceived n now u (.ok response) shared fails =
            (possiblyPostAuthStateChangeNotification
              { s with keychain := keychain, users := s.users.set n v }, .ok response.accessToken))) := by
  let v : User := { u with tokenService := (u.tokenService.receive now (.ok response)).1 }
  let t : Auth := { s with users := s.users.set n v }
  have hset : t.users[n]? = some v := List.getElem?_set_self (List.getElem?_eq_some_iff.mp hu).1
  have hreceived : s.tokenReceived n now u (.ok response) shared fails =
      if (u.tokenService.receive now (.ok response)).2 then
        ((t.updateKeychainWithUser n fails).1,
          (t.updateKeychainWithUser n fails).2.map fun _ => response.accessToken)
      else (t, .ok response.accessToken) := rfl
  refine ⟨v, rfl, rfl, ?_⟩
  cases hupdated : (u.tokenService.receive now (.ok response)).2 with
  | false =>
    refine Or.inl ⟨fun _ => ?_, ?_⟩
    · exact congrArg (fun service => { u with tokenService := service })
        (SecureTokenService.receive_of_not_updated _ now response hupdated)
    · rw [hreceived, hupdated]
      rfl
  | true =>
    rw [hreceived, hupdated, if_pos rfl, updateKeychainWithUser]
    by_cases hcurrent : s.currentUser = some n
    · refine Or.inr ⟨hcurrent, ?_⟩
      rw [if_neg (not_not.mpr hcurrent)]
      cases hsaved : t.saveUser (some n) fails with
      | error error => exact Or.inl ⟨error, saveUser_some_error hset hsaved, rfl⟩
      | ok t' =>
        obtain ⟨keychain, hkeychain, rfl⟩ := saveUser_some hset hsaved
        exact Or.inr ⟨keychain, hkeychain, rfl⟩
    · refine Or.inl ⟨fun h => absurd h hcurrent, ?_⟩
      rw [if_pos hcurrent]
      rfl

/-- What a new process finds: the keychain, and the user that could be read. -/
def loaded (k : KeychainServices UserArchive) (fails : List SecItemCall) :
    KeychainServices UserArchive × Option User :=
  match k.restarted.dataForKey fails with
  | .error _ => (k.restarted, none)
  | .ok (data, keychain) => (keychain, data.bind User.initWithCoder)

theorem launch_eq (k : KeychainServices UserArchive) (fails : List SecItemCall) :
    launch k fails = possiblyPostAuthStateChangeNotification
      { keychain := (loaded k fails).1
        users := (loaded k fails).2.toList
        currentUser := (loaded k fails).2.map fun _ => 0 } := by
  unfold launch getUser loaded
  dsimp only
  cases k.restarted.dataForKey fails with
  | error function => rfl
  | ok found =>
    obtain ⟨data, keychain⟩ := found
    dsimp only
    cases data.bind User.initWithCoder with
    | none => rfl
    | some u =>
      let t : Auth := { keychain := keychain, users := [u], currentUser := some 0 }
      change { t.possiblyPostAuthStateChangeNotification with lastNotifiedUserToken := t.rawAccessToken } =
        t.possiblyPostAuthStateChangeNotification
      rw [← post_lastNotifiedUserToken]

@[simp] theorem launch_user (k : KeychainServices UserArchive) (fails : List SecItemCall) :
    (launch k fails).user = (loaded k fails).2 := by
  rw [launch_eq, post_user]
  cases (loaded k fails).2 <;> rfl

theorem loaded_nil (k : KeychainServices UserArchive) : (loaded k []).1.Clean ∧
    (loaded k []).1.stored = k.restarted.stored ∧
      (loaded k []).2 = k.restarted.stored.bind User.initWithCoder := by
  obtain ⟨keychain, hfound, hstored, hclean⟩ := k.restarted.dataForKey_nil
  rw [loaded, hfound]
  exact ⟨hclean KeychainServices.clean_restarted, hstored, rfl⟩

/-! ## The objects of a process -/

/-- The current user is an object, and none that is still being retrieved. -/
structure WellFormed (s : Auth) : Prop where
  current : ∀ n, s.currentUser = some n → n < s.users.length ∧ n ∉ s.retrieving
  nodup : s.retrieving.Nodup
  retrieving : ∀ n ∈ s.retrieving, n < s.users.length

namespace WellFormed

theorem ne_current (h : s.WellFormed) {n : Nat} (hn : n ∈ s.retrieving) : s.currentUser ≠ some n :=
  fun hcurrent => (h.current n hcurrent).2 hn

theorem post (h : s.WellFormed) : s.possiblyPostAuthStateChangeNotification.WellFormed := by
  refine ⟨?_, ?_, ?_⟩
  · simpa using h.current
  · simpa using h.nodup
  · simpa using h.retrieving

theorem retrieved (h : s.WellFormed) (u : User) : WellFormed { s with
    users := s.users ++ [u]
    retrieving := s.retrieving ++ [s.users.length] } := by
  have hfresh : s.users.length ∉ s.retrieving := fun hmem => Nat.lt_irrefl _ (h.retrieving _ hmem)
  refine ⟨?_, ?_, ?_⟩
  · intro n hn
    obtain ⟨hlt, hmem⟩ := h.current n hn
    simp only [List.length_append, List.length_singleton, List.mem_append, List.mem_singleton]
    exact ⟨Nat.lt_succ_of_lt hlt, not_or.mpr ⟨hmem, Nat.ne_of_lt hlt⟩⟩
  · exact List.nodup_append_comm.mpr (List.nodup_cons.mpr ⟨hfresh, h.nodup⟩)
  · intro n hn
    rw [List.length_append, List.length_singleton]
    rcases List.mem_append.mp hn with hn | hn
    · exact Nat.lt_succ_of_lt (h.retrieving n hn)
    · exact List.mem_singleton.mp hn ▸ Nat.lt_succ_self _

theorem dropped (h : s.WellFormed) (n : Nat) :
    WellFormed { s with retrieving := s.retrieving.erase n } :=
  ⟨fun m hm => ⟨(h.current m hm).1, fun hmem => (h.current m hm).2 (List.mem_of_mem_erase hmem)⟩,
    h.nodup.erase n, fun m hm => h.retrieving m (List.mem_of_mem_erase hm)⟩

theorem set (h : s.WellFormed) (n : Nat) (v : User) :
    WellFormed { s with users := s.users.set n v } := by
  refine ⟨?_, h.nodup, ?_⟩
  · intro m hm
    rw [List.length_set]
    exact h.current m hm
  · intro m hm
    rw [List.length_set]
    exact h.retrieving m hm

theorem signedIn (h : s.WellFormed) {n : Nat} (hn : n < s.users.length) (hmem : n ∉ s.retrieving)
    (keychain : KeychainServices UserArchive) :
    WellFormed { s with keychain := keychain, currentUser := some n } := by
  refine ⟨?_, h.nodup, h.retrieving⟩
  intro m hm
  obtain rfl := Option.some.inj hm
  exact ⟨hn, hmem⟩

theorem signedOut (h : s.WellFormed) (keychain : KeychainServices UserArchive) :
    WellFormed { s with keychain := keychain, currentUser := none } := by
  refine ⟨?_, h.nodup, h.retrieving⟩
  intro n hn
  cases hn

theorem launch (k : KeychainServices UserArchive) (fails : List SecItemCall) :
    (Auth.launch k fails).WellFormed := by
  rw [launch_eq]
  refine post ⟨?_, List.nodup_nil, by simp⟩
  intro n hn
  cases hfound : (loaded k fails).2 with
  | none =>
    rw [hfound] at hn
    cases hn
  | some u =>
    rw [hfound] at hn
    obtain rfl := Option.some.inj hn
    exact ⟨Nat.one_pos, List.not_mem_nil⟩

theorem removed (h : s.WellFormed) (force : Bool) (fails : List SecItemCall) :
    (s.updateCurrentUser none force true fails).1.WellFormed := by
  by_cases hnone : none = s.currentUser
  · rw [updateCurrentUser, if_pos hnone]
    exact h.post
  · rcases updateCurrentUser_cases s hnone force fails with ⟨t, hsaved, heq⟩ | ⟨error, hsaved, heq⟩
    · rw [heq]
      obtain ⟨keychain, _, rfl⟩ := saveUser_none hsaved
      exact (h.signedOut keychain).post
    · rw [heq]
      cases force with
      | false => exact h
      | true => exact (h.signedOut s.keychain).post

theorem step (h : s.WellFormed) {a : AuthStep} (hstep : s.step a = some t) : t.WellFormed := by
  cases a with
  | retrieveUser accessToken date refreshToken =>
    obtain rfl := Option.some.inj hstep
    exact h.retrieved _
  | accountInfoReceived n localID fails =>
    obtain ⟨u, hn, hu, rfl⟩ := step_accountInfoReceived hstep
    have hlt := (List.getElem?_eq_some_iff.mp hu).1
    rcases accountInfoReceived_cases (h.ne_current hn) hu localID fails with
      ⟨error, _, heq⟩ | ⟨uid, _, ⟨error, heq⟩ | ⟨keychain, _, heq⟩⟩
    · rw [heq]
      exact h.dropped n
    · rw [heq]
      exact (h.dropped n).set n _
    · rw [heq]
      refine (((h.dropped n).set n _).signedIn ?_ h.nodup.not_mem_erase keychain).post
      rwa [List.length_set]
  | tokenReceived n now answer shared fails =>
    obtain ⟨u, hu, rfl⟩ := Option.map_eq_some_iff.mp hstep
    cases answer with
    | error error =>
      rw [tokenReceived_error]
      split
      · exact (h.dropped n).removed true fails
      · exact h.dropped n
    | ok response =>
      obtain ⟨v, _, _, ⟨_, heq⟩ | ⟨_, ⟨error, _, heq⟩ | ⟨keychain, _, heq⟩⟩⟩ :=
        tokenReceived_ok hu now response shared fails
      · rw [heq]
        exact h.set n v
      · rw [heq]
        exact h.set n v
      · rw [heq]
        have hset := h.set n v
        exact post ⟨hset.current, hset.nodup, hset.retrieving⟩
  | signOut fails =>
    obtain rfl := Option.some.inj hstep
    unfold Auth.signOut
    split
    · exact h
    · exact h.removed false fails
  | launch fails =>
    obtain rfl := Option.some.inj hstep
    exact launch s.keychain fails

end WellFormed

end Auth

end SantaIWish
