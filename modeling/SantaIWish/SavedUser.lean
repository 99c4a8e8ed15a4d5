import SantaIWish.AuthSteps

/-!
# The user in the keychain

Whatever becomes of sign-ins, refreshes of tokens, errors of the server and writes of the
keychain, the archive in the keychain is that of the user in memory, so that the next process
has the user that this one had.
-/

namespace SantaIWish
open Runs
set_option autoImplicit false

/-- An archive that is read again: one with a user id and a refresh token. -/
def UserArchive.Complete (a : UserArchive) : Prop :=
  a.userID.isSome = true ∧ a.tokenService.refreshToken.isSome = true

namespace AuthStep

/-- Sign-ins bring a user id and a refresh token. Nothing fails when the app is launched, no user that Auth
signs out by force is left in the keychain, and a sign-out gets the legacy item deleted, which an earlier
version of the library may have left. Users may fail to be saved. -/
def Works : AuthStep → Prop
  | retrieveUser _ _ refreshToken => refreshToken.isSome = true
  | accountInfoReceived _ localID _ => localID ≠ .ok none
  | tokenReceived _ _ _ _ fails => ∀ query, ⟨.delete, query⟩ ∉ fails
  | signOut fails => ⟨.delete, .legacyGenericPassword⟩ ∉ fails
  | launch fails => fails = []

end AuthStep

/-! ## Archives -/

theorem UserArchive.Complete.initWithCoder {a : UserArchive} (h : a.Complete) :
    ∃ u, User.initWithCoder a = some u ∧ u.encodeWithCoder = a ∧
      u.tokenService.authorizationCode = none := by
  obtain ⟨userID, refreshToken, accessToken, date⟩ := a
  obtain ⟨uid, rfl⟩ := Option.isSome_iff_exists.mp h.1
  obtain ⟨token, rfl⟩ := Option.isSome_iff_exists.mp h.2
  exact ⟨_, rfl, rfl, rfl⟩

theorem User.initWithCoder_encodeWithCoder {u : User} (h : u.encodeWithCoder.Complete)
    (hcode : u.tokenService.authorizationCode = none) :
    User.initWithCoder u.encodeWithCoder = some u := by
  obtain ⟨uid, code, accessToken, date, refreshToken⟩ := u
  obtain ⟨id, rfl⟩ := Option.isSome_iff_exists.mp h.1
  obtain ⟨token, rfl⟩ := Option.isSome_iff_exists.mp h.2
  obtain rfl := hcode
  rfl

/-! ## The archive of the current user -/

/-- How the archive in the keychain may stand to the user. -/
structure ArchiveRel (R : UserArchive → User → Prop) : Prop where
  encode : ∀ u : User, R u.encodeWithCoder u
  userID : ∀ a u, R a u → a.userID = u.uid

theorem archiveRel_userID : ArchiveRel fun a u => a.userID = u.uid := ⟨fun _ => rfl, fun _ _ => id⟩

theorem archiveRel_eq : ArchiveRel fun a u => a = u.encodeWithCoder :=
  ⟨fun _ => rfl, fun _ _ h => h ▸ rfl⟩

namespace Auth

theorem rel_mono {R R' : UserArchive → User → Prop} (hR : ∀ a u, R a u → R' a u)
    {o : Option UserArchive} {o' : Option User} (h : Option.Rel R o o') : Option.Rel R' o o' := by
  cases h with
  | none => exact .none
  | some h => exact .some (hR _ _ h)

structure Kept (R : UserArchive → User → Prop) (s : Auth) : Prop where
  wellFormed : s.WellFormed
  clean : s.keychain.Clean
  stored : Option.Rel R s.keychain.stored s.user
  complete : ∀ a, s.keychain.stored = some a → a.Complete
  lasting : ∀ u ∈ s.users, u.tokenService.refreshToken.isSome = true ∧
    u.tokenService.authorizationCode = none

namespace Kept
variable {R : UserArchive → User → Prop} {s t : Auth}

theorem stored_none (h : s.Kept R) (huser : s.user = none) : s.keychain.stored = none := by
  have hrel := h.stored
  rw [huser] at hrel
  generalize s.keychain.stored = o at hrel
  cases hrel with
  | none => rfl

theorem exists_archive (h : s.Kept R) {u : User} (huser : s.user = some u) :
    ∃ a, s.keychain.stored = some a ∧ R a u := by
  have hrel := h.stored
  rw [huser] at hrel
  generalize s.keychain.stored = o at hrel
  cases hrel with
  | some hrel => exact ⟨_, rfl, hrel⟩

theorem post (h : s.Kept R) : s.possiblyPostAuthStateChangeNotification.Kept R := by
  refine ⟨h.wellFormed.post, ?_, ?_, ?_, ?_⟩
  · simpa using h.clean
  · simpa using h.stored
  · simpa using h.complete
  · simpa using h.lasting

theorem retrieved (h : s.Kept R) {service : SecureTokenService}
    (hrefresh : service.refreshToken.isSome = true) (hcode : service.authorizationCode = none) :
    Kept R { s with
      users := s.users ++ [{ tokenService := service }]
      retrieving := s.retrieving ++ [s.users.length] } := by
  refine ⟨h.wellFormed.retrieved _, h.clean, ?_, h.complete, ?_⟩
  · rw [user_retrieved fun n hn => (h.wellFormed.current n hn).1]
    exact h.stored
  · intro u hu
    rcases List.mem_append.mp hu with hu | hu
    · exact h.lasting u hu
    · obtain rfl := List.mem_singleton.mp hu
      exact ⟨hrefresh, hcode⟩

theorem dropped (h : s.Kept R) (n : Nat) : Kept R { s with retrieving := s.retrieving.erase n } :=
  ⟨h.wellFormed.dropped n, h.clean, h.stored, h.complete, h.lasting⟩

/-- The object of a user changes, in a way that its archive need not follow. -/
theorem set (h : s.Kept R) {n : Nat} {v : User}
    (hsame : s.currentUser = some n → ∀ a u, s.users[n]? = some u → R a u → R a v)
    (hrefresh : v.tokenService.refreshToken.isSome = true)
    (hcode : v.tokenService.authorizationCode = none) :
    Kept R { s with users := s.users.set n v } := by
  refine ⟨h.wellFormed.set n v, h.clean, ?_, h.complete, ?_⟩
  · by_cases hcurrent : s.currentUser = some n
    · have hlt := (h.wellFormed.current n hcurrent).1
      have huser := (user_of_current hcurrent).trans (List.getElem?_eq_getElem hlt)
      obtain ⟨a, hstored, hR⟩ := h.exists_archive huser
      rw [user_set_self hcurrent hlt]
      change Option.Rel R s.keychain.stored (some v)
      rw [hstored]
      exact .some (hsame hcurrent a _ (List.getElem?_eq_getElem hlt) hR)
    · rw [user_set hcurrent]
      exact h.stored
  · intro u hu
    rcases List.mem_or_eq_of_mem_set hu with hu | rfl
    · exact h.lasting u hu
    · exact ⟨hrefresh, hcode⟩

theorem mono {R' : UserArchive → User → Prop} (h : s.Kept R) (hR : ∀ a u, R a u → R' a u) : s.Kept R' :=
  ⟨h.wellFormed, h.clean, rel_mono hR h.stored, h.complete, h.lasting⟩

theorem signedIn {R' : UserArchive → User → Prop} (h : s.Kept R') (hR : ArchiveRel R) {n : Nat} {u : User}
    (hu : s.users[n]? = some u) (hn : n ∉ s.retrieving) (huid : u.uid.isSome = true)
    {keychain : KeychainServices UserArchive} (hclean : keychain.Clean)
    (hstored : keychain.stored = some u.encodeWithCoder) :
    Kept R { s with keychain := keychain, currentUser := some n } := by
  have hlt := (List.getElem?_eq_some_iff.mp hu).1
  refine ⟨h.wellFormed.signedIn hlt hn keychain, hclean, ?_, ?_, h.lasting⟩
  · change Option.Rel R keychain.stored s.users[n]?
    rw [hstored, hu]
    exact .some (hR.encode u)
  · intro a ha
    obtain rfl := Option.some.inj (hstored.symm.trans ha)
    exact ⟨huid, (h.lasting u (List.mem_of_getElem? hu)).1⟩

theorem signedOut (h : s.Kept R) {keychain : KeychainServices UserArchive} (hclean : keychain.Clean)
    (hstored : keychain.stored = none) :
    Kept R { s with keychain := keychain, currentUser := none } := by
  refine ⟨h.wellFormed.signedOut keychain, hclean, ?_, ?_, h.lasting⟩
  · change Option.Rel R keychain.stored none
    rw [hstored]
    exact .none
  · intro a ha
    cases hstored.symm.trans ha

/-- Signing out leaves nobody, or the user where the archive could not be removed. -/
theorem removed (h : s.Kept R) {force : Bool} {fails : List SecItemCall}
    (hlegacy : ⟨.delete, .legacyGenericPassword⟩ ∉ fails)
    (hforce : force = true → ⟨.delete, .genericPassword⟩ ∉ fails) :
    (s.updateCurrentUser none force true fails).1.Kept R := by
  by_cases hnone : none = s.currentUser
  · rw [updateCurrentUser, if_pos hnone]
    exact h.post
  · rcases updateCurrentUser_cases s hnone force fails with ⟨t, hsaved, heq⟩ | ⟨error, hsaved, heq⟩
    · rw [heq]
      obtain ⟨keychain, hremoved, rfl⟩ := saveUser_none hsaved
      obtain ⟨hstored, hclean⟩ := KeychainServices.removeData_spec hremoved
      exact (h.signedOut (hclean hlegacy h.clean) hstored).post
    · rw [heq]
      cases force with
      | false => exact h
      | true => exact absurd (saveUser_none_error hsaved) (hforce rfl)

theorem accountInfo (h : s.Kept R) (hR : ArchiveRel R) {n : Nat} {u : User} (hn : n ∈ s.retrieving)
    (hu : s.users[n]? = some u) {localID : Except AuthErrorCode (Option String)}
    (hlocalID : localID ≠ .ok none) (fails : List SecItemCall) :
    (s.accountInfoReceived n u localID fails).1.Kept R := by
  have hdropped := h.dropped n
  have hother := h.wellFormed.ne_current hn
  rcases accountInfoReceived_cases hother hu localID fails with ⟨error, _, heq⟩ | ⟨uid, rfl, hends⟩
  · rw [heq]
    exact hdropped
  · obtain ⟨hrefresh, hcode⟩ := h.lasting u (List.mem_of_getElem? hu)
    have hset := hdropped.set (v := { u with uid := uid }) (fun hcurrent => absurd hcurrent hother)
      hrefresh hcode
    rcases hends with ⟨error, heq⟩ | ⟨keychain, hkeychain, heq⟩
    · rw [heq]
      exact hset
    · rw [heq]
      obtain ⟨hstored, hclean⟩ := KeychainServices.setData_spec hkeychain
      have huid : uid.isSome = true :=
        Option.isSome_iff_ne_none.mpr fun hnone => hlocalID (hnone ▸ rfl)
      exact (hset.signedIn hR (List.getElem?_set_self (List.getElem?_eq_some_iff.mp hu).1)
        h.wellFormed.nodup.not_mem_erase huid (hclean h.clean) hstored).post

/-- An archive that lags behind is still one of the user, where `R` lets it. -/
theorem token (h : s.Kept R) (hR : ArchiveRel R) {n : Nat} {u : User} (hu : s.users[n]? = some u)
    (now : Nat) (answer : Except AuthErrorCode SecureTokenResponse) (shared : Bool)
    {fails : List SecItemCall} (hfails : ∀ query, ⟨.delete, query⟩ ∉ fails)
    (hlag : ⟨.add, .genericPassword⟩ ∈ fails ∨ ⟨.update, .genericPassword⟩ ∈ fails →
      ∀ a u v, R a u → v.uid = u.uid → R a v) :
    (s.tokenReceived n now u answer shared fails).1.Kept R := by
  cases answer with
  | error error =>
    rw [tokenReceived_error]
    split
    · exact (h.dropped n).removed (hfails _) fun _ => hfails _
    · exact h.dropped n
  | ok response =>
    obtain ⟨hrefresh, hcode⟩ := h.lasting u (List.mem_of_getElem? hu)
    obtain ⟨v, huid, hservice, hends⟩ := tokenReceived_ok hu now response shared fails
    have hrefresh' : v.tokenService.refreshToken.isSome = true := by
      rw [hservice]
      exact u.tokenService.receive_refreshToken now response hrefresh
    have hcode' : v.tokenService.authorizationCode = none := by
      rw [hservice, (u.tokenService.receive_spec now (.ok response) 0).2.2, hcode]
    rcases hends with ⟨hsame, heq⟩ | ⟨hcurrent, ⟨error, hunsaved, heq⟩ | ⟨keychain, hkeychain, heq⟩⟩
    · rw [heq]
      refine h.set (fun hcurrent a u' hu' hrel => ?_) hrefresh' hcode'
      obtain rfl := Option.some.inj (hu'.symm.trans hu)
      rwa [hsame hcurrent]
    · rw [heq]
      refine h.set (fun _ a u' hu' hrel => ?_) hrefresh' hcode'
      obtain rfl := Option.some.inj (hu'.symm.trans hu)
      exact hlag hunsaved a u' v hrel huid
    · rw [heq]
      obtain ⟨hstored, hclean⟩ := KeychainServices.setData_spec hkeychain
      have hset := (h.mono hR.userID).set (v := v) (fun _ a u' hu' hrel => by
        obtain rfl := Option.some.inj (hu'.symm.trans hu)
        exact hrel.trans huid.symm) hrefresh' hcode'
      have hknown : u.uid.isSome = true := by
        obtain ⟨a, ha, hrel⟩ := h.exists_archive ((user_of_current hcurrent).trans hu)
        exact hR.userID a u hrel ▸ (h.complete a ha).1
      have hsigned := hset.signedIn hR (List.getElem?_set_self (List.getElem?_eq_some_iff.mp hu).1)
        (h.wellFormed.current n hcurrent).2 (huid ▸ hknown) (hclean h.clean) hstored
      rw [← hcurrent] at hsigned
      exact hsigned.post

theorem launch {k : KeychainServices UserArchive} (hR : ArchiveRel R)
    (hk : ∀ a, k.restarted.stored = some a → a.Complete) : (Auth.launch k []).Kept R := by
  have hwellFormed := WellFormed.launch k []
  obtain ⟨hclean, hstored, hfound⟩ := loaded_nil k
  have huser := launch_user k []
  rw [launch_eq, hfound] at hwellFormed huser ⊢
  cases ho : k.restarted.stored with
  | none =>
    rw [ho] at hwellFormed huser hstored
    refine ⟨hwellFormed, ?_, ?_, ?_, ?_⟩
    · simpa using hclean
    · rw [huser, post_keychain, hstored]
      exact .none
    · simp [hstored]
    · simp
  | some a =>
    obtain ⟨u, hu, rfl, hcode⟩ := (hk a ho).initWithCoder
    rw [ho, Option.bind_some, hu] at hwellFormed huser
    rw [Option.bind_some, hu]
    refine ⟨hwellFormed, ?_, ?_, ?_, ?_⟩
    · simpa using hclean
    · rw [huser, post_keychain, hstored, ho]
      exact .some (hR.encode u)
    · simpa [hstored, ho] using hk _ ho
    · simpa using ⟨(hk _ ho).2, hcode⟩

theorem relaunch (h : s.Kept R) (hR : ArchiveRel R) : (Auth.launch s.keychain []).Kept R := by
  refine launch hR fun a ha => ?_
  rw [h.clean.stored_restarted] at ha
  exact h.complete a ha

theorem relaunch_user (h : s.Kept R) :
    (Auth.launch s.keychain []).user = s.keychain.stored.bind User.initWithCoder := by
  rw [launch_user, (loaded_nil s.keychain).2.2, h.clean.stored_restarted]

theorem relaunched_userID (h : s.Kept fun a u => a.userID = u.uid) :
    (Auth.launch s.keychain []).getUserID = s.getUserID := by
  rw [getUserID, getUserID, h.relaunch_user]
  cases huser : s.user with
  | none =>
    rw [h.stored_none huser]
    rfl
  | some u =>
    obtain ⟨a, ha, huid⟩ := h.exists_archive huser
    obtain ⟨v, hv, rfl, _⟩ := (h.complete a ha).initWithCoder
    rw [ha, Option.bind_some, hv]
    exact huid

/-- Steps keep the user, where `R` lets the archive lag behind the tokens, or where they are saved. -/
theorem step (h : s.Kept R) (hR : ArchiveRel R) {a : AuthStep} (hworks : a.Works)
    (hlag : a.SavesTokens ∨ ∀ a u v, R a u → v.uid = u.uid → R a v) (hstep : s.step a = some t) :
    t.Kept R := by
  cases a with
  | retrieveUser accessToken date refreshToken =>
    obtain rfl := Option.some.inj hstep
    exact h.retrieved hworks rfl
  | accountInfoReceived n localID fails =>
    obtain ⟨u, hn, hu, rfl⟩ := step_accountInfoReceived hstep
    exact h.accountInfo hR hn hu hworks fails
  | tokenReceived n now answer shared fails =>
    obtain ⟨u, hu, rfl⟩ := Option.map_eq_some_iff.mp hstep
    refine h.token hR hu now answer shared hworks fun hunsaved => ?_
    rcases hlag with hsaves | hlag
    · exact absurd hunsaved (not_or.mpr hsaves)
    · exact hlag
  | signOut fails =>
    obtain rfl := Option.some.inj hstep
    unfold Auth.signOut
    split
    · exact h
    · exact h.removed hworks fun hforce => absurd hforce Bool.false_ne_true
  | launch fails =>
    obtain rfl := Option.some.inj hstep
    obtain rfl : fails = [] := hworks
    exact h.relaunch hR

end Kept

/-! ## In every run -/

section Run
variable {k : KeychainServices UserArchive} {steps : List AuthStep} {s : Auth}

theorem run_kept {R : UserArchive → User → Prop} (hR : ArchiveRel R)
    (hk : ∀ a, k.restarted.stored = some a → a.Complete) (hworks : ∀ a ∈ steps, a.Works)
    (hlag : (∀ a ∈ steps, a.SavesTokens) ∨ ∀ a u v, R a u → v.uid = u.uid → R a v)
    (hrun : run Auth.step (launch k []) steps = some s) : s.Kept R := by
  refine run_induction (P := fun steps s => (∀ a ∈ steps, a.Works) →
    ((∀ a ∈ steps, a.SavesTokens) ∨ ∀ a u v, R a u → v.uid = u.uid → R a v) → s.Kept R)
    (fun _ _ => Kept.launch hR hk) ?_ steps s hrun hworks hlag
  intro steps s a t _ ih hstep hworks hlag
  have hkept := ih (fun b hb => hworks b (List.mem_append_left _ hb))
    (hlag.imp_left fun hsaves b hb => hsaves b (List.mem_append_left _ hb))
  have ha : a ∈ steps ++ [a] := List.mem_append_right _ List.mem_cons_self
  exact hkept.step hR (hworks a ha) (hlag.imp_left fun hsaves => hsaves a ha) hstep

/-- Whatever fails to be saved, the next process has the user that this one has, and it has the user's
tokens, too, if the refreshed ones could be saved. -/
theorem run_relaunched (k : KeychainServices UserArchive)
    (hk : ∀ a, k.restarted.stored = some a → a.Complete) (steps : List AuthStep)
    (hworks : ∀ a ∈ steps, a.Works) (s : Auth) (hrun : run Auth.step (launch k []) steps = some s) :
    (launch s.keychain []).getUserID = s.getUserID ∧
      ((∀ a ∈ steps, a.SavesTokens) → (launch s.keychain []).user = s.user) := by
  constructor
  · have h : s.Kept _ := run_kept archiveRel_userID hk hworks
      (Or.inr fun _ _ _ hrel hsame => hrel.trans hsame.symm) hrun
    exact h.relaunched_userID
  · intro hsaves
    have h : s.Kept _ := run_kept archiveRel_eq hk hworks (Or.inl hsaves) hrun
    rw [h.relaunch_user]
    cases huser : s.user with
    | none =>
      rw [h.stored_none huser]
      rfl
    | some u =>
      obtain ⟨a, ha, rfl⟩ := h.exists_archive huser
      rw [ha]
      exact User.initWithCoder_encodeWithCoder (h.complete _ ha) (h.lasting u (user_mem huser)).2

/-- Ann signs in and has her token refreshed. -/
def annSignedIn : List AuthStep :=
  [.retrieveUser (some "first") (some 3600) (some "refresh"),
    .accountInfoReceived 0 (.ok (some "uid")) [],
    .tokenReceived 0 3600 (.ok ⟨"second", none, 3600, by decide⟩) false []]

theorem annSignedIn_relaunched : ∃ s, run Auth.step (launch {} []) annSignedIn = some s ∧
    (launch s.keychain []).getUserID = some "uid" ∧
      (launch s.keychain []).rawAccessToken = some "second" := by
  obtain ⟨s, hs⟩ : ∃ s, run Auth.step (launch {} []) annSignedIn = some s := ⟨_, rfl⟩
  have hworks : ∀ a ∈ annSignedIn, a.Works := by simp [annSignedIn, AuthStep.Works]
  have hsaves : ∀ a ∈ annSignedIn, a.SavesTokens := by simp [annSignedIn, AuthStep.SavesTokens]
  obtain ⟨huid, huser⟩ := run_relaunched {} (fun a ha => nomatch ha) annSignedIn hworks s hs
  have hview : s.getUserID = some "uid" ∧ s.rawAccessToken = some "second" := by
    obtain rfl := Option.some.inj hs
    exact ⟨rfl, rfl⟩
  refine ⟨s, hs, huid.trans hview.1, ?_⟩
  rw [rawAccessToken, huser hsaves]
  exact hview.2

end Run

end Auth

end SantaIWish
