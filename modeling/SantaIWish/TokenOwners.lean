import SantaIWish.UserNotifications

/-!
# Whose token it is

The server issues no access token twice. So each belongs to one user object, and the token of
the current user stays what it is only as long as this is the current user.
-/

namespace SantaIWish
open Runs
set_option autoImplicit false

namespace AuthStep

/-- The access token that a step brings. -/
def accessToken : AuthStep → Option String
  | retrieveUser accessToken _ _ => accessToken
  | tokenReceived _ _ (.ok response) _ _ => some response.accessToken
  | _ => none

/-- A user that is retrieved has an id. -/
def BringsUserID : AuthStep → Prop
  | accountInfoReceived _ localID _ => localID ≠ .ok none
  | _ => True

end AuthStep

namespace Auth
variable {s t : Auth}

def tokenOf (s : Auth) (n : Nat) : Option String :=
  s.users[n]?.bind fun u => u.tokenService.accessToken

theorem rawAccessToken_eq (s : Auth) : s.rawAccessToken = s.currentUser.bind s.tokenOf := by
  rw [rawAccessToken, user]
  cases s.currentUser <;> rfl

theorem rawAccessToken_of_current {n : Nat} (h : s.currentUser = some n) :
    s.rawAccessToken = s.tokenOf n := by
  rw [rawAccessToken_eq, h, Option.bind_some]

theorem tokenReceived_rawAccessToken {n : Nat} (hcurrent : s.currentUser = some n) {u : User}
    (hu : s.users[n]? = some u) (now : Nat) (response : SecureTokenResponse) (shared : Bool)
    (fails : List SecItemCall) :
    (s.tokenReceived n now u (.ok response) shared fails).1.rawAccessToken = some response.accessToken := by
  obtain ⟨v, _, hservice, hends⟩ := tokenReceived_ok hu now response shared fails
  have hset : user { s with users := s.users.set n v } = some v :=
    user_set_self hcurrent (List.getElem?_eq_some_iff.mp hu).1 v
  have htoken : v.tokenService.accessToken = some response.accessToken := by
    rw [hservice]
    exact (u.tokenService.receive_spec now (.ok response) 0).1
  have hraw : rawAccessToken { s with users := s.users.set n v } = some response.accessToken := by
    rw [rawAccessToken, hset, Option.bind_some, htoken]
  rcases hends with ⟨_, heq⟩ | ⟨_, ⟨error, _, heq⟩ | ⟨keychain, _, heq⟩⟩
  · rw [heq]
    exact hraw
  · rw [heq]
    exact hraw
  · rw [heq, rawAccessToken, post_user]
    exact hraw

/-! ## What a step changes -/

/-- The object `n` is the only one that may change, and the token it may get was `brought`. -/
structure Changes (s t : Auth) (n : Nat) (brought : Option String) : Prop where
  others : ∀ m, m ≠ n → t.users[m]? = s.users[m]?
  service : ∀ v, t.users[n]? = some v → v.tokenService.accessToken = brought ∨
    ∃ u, s.users[n]? = some u ∧ v.tokenService = u.tokenService
  kept : ∀ m u, m ∉ s.retrieving → s.users[m]? = some u →
    m ∉ t.retrieving ∧ ∃ v, t.users[m]? = some v ∧ v.uid = u.uid
  current : t.currentUser = s.currentUser ∨ t.currentUser = none ∨
    t.currentUser = some n ∧ n ∈ s.retrieving ∧ ∀ v, t.users[n]? = some v → v.uid.isSome = true

namespace Changes
variable {n : Nat} {brought : Option String}

theorem of_set {u v : User} (hu : s.users[n]? = some u) (husers : t.users = s.users.set n v)
    (hretrieving : t.retrieving ⊆ s.retrieving)
    (hservice : v.tokenService.accessToken = brought ∨ v.tokenService = u.tokenService)
    (huid : n ∈ s.retrieving ∨ v.uid = u.uid)
    (hcurrent : t.currentUser = s.currentUser ∨ t.currentUser = none ∨
      t.currentUser = some n ∧ n ∈ s.retrieving ∧ v.uid.isSome = true) : Changes s t n brought := by
  have hset : t.users[n]? = some v := by
    rw [husers]
    exact List.getElem?_set_self (List.getElem?_eq_some_iff.mp hu).1
  refine ⟨fun m hm => ?_, fun w hw => ?_, fun m w hm hw => ?_, ?_⟩
  · rw [husers]
    exact List.getElem?_set_ne (Ne.symm hm)
  · obtain rfl := Option.some.inj (hset.symm.trans hw)
    exact hservice.imp_right fun hsame => ⟨u, hu, hsame⟩
  · refine ⟨fun hmem => hm (hretrieving hmem), ?_⟩
    by_cases hmn : m = n
    · subst hmn
      obtain rfl := Option.some.inj (hu.symm.trans hw)
      exact ⟨v, hset, huid.resolve_left hm⟩
    · refine ⟨w, ?_, rfl⟩
      rw [husers, List.getElem?_set_ne (Ne.symm hmn), hw]
  · refine hcurrent.imp_right (Or.imp_right ?_)
    rintro ⟨hn, hmem, hknown⟩
    refine ⟨hn, hmem, fun w hw => ?_⟩
    obtain rfl := Option.some.inj (hset.symm.trans hw)
    exact hknown

theorem of_users_eq (husers : t.users = s.users) (hretrieving : t.retrieving ⊆ s.retrieving)
    (hcurrent : t.currentUser = s.currentUser ∨ t.currentUser = none) (n : Nat)
    (brought : Option String) : Changes s t n brought := by
  refine ⟨fun m _ => by rw [husers], fun v hv => ?_, fun m u hm hu => ?_, ?_⟩
  · rw [husers] at hv
    exact Or.inr ⟨v, hv, rfl⟩
  · rw [husers]
    exact ⟨fun hmem => hm (hretrieving hmem), u, hu, rfl⟩
  · exact hcurrent.imp_right Or.inl

theorem dropped (n : Nat) (brought : Option String) :
    Changes s { s with retrieving := s.retrieving.erase n } n brought := by
  have herase : s.retrieving.erase n ⊆ s.retrieving := List.erase_subset
  exact of_users_eq (s := s) (t := { s with retrieving := s.retrieving.erase n }) rfl herase
    (Or.inl rfl) n brought

theorem retrieved (u : User) : Changes s { s with
    users := s.users ++ [u]
    retrieving := s.retrieving ++ [s.users.length] } s.users.length u.tokenService.accessToken := by
  refine ⟨fun m hm => ?_, fun v hv => ?_, fun m v hm hv => ?_, Or.inl rfl⟩
  · rcases Nat.lt_or_gt_of_ne hm with hlt | hlt
    · exact List.getElem?_append_left hlt
    · rw [List.getElem?_eq_none (Nat.le_of_lt hlt), List.getElem?_eq_none]
      rw [List.length_append]
      exact hlt
  · rw [List.getElem?_append_right (Nat.le_refl _), Nat.sub_self] at hv
    obtain rfl := Option.some.inj hv
    exact Or.inl rfl
  · have hlt := (List.getElem?_eq_some_iff.mp hv).1
    refine ⟨?_, v, (List.getElem?_append_left hlt).trans hv, rfl⟩
    rw [List.mem_append, List.mem_singleton]
    exact not_or.mpr ⟨hm, Nat.ne_of_lt hlt⟩

/-- A token of an object is the one it had, or the one that was brought. -/
theorem tokenOf (h : Changes s t n brought) {m : Nat} {token : String}
    (htoken : t.tokenOf m = some token) : s.tokenOf m = some token ∨ m = n ∧ brought = some token := by
  by_cases hm : m = n
  · subst hm
    obtain ⟨v, hv, hvtoken⟩ := Option.bind_eq_some_iff.mp htoken
    rcases h.service v hv with hbrought | ⟨u, hu, hsame⟩
    · exact Or.inr ⟨rfl, hbrought.symm.trans hvtoken⟩
    · left
      rw [Auth.tokenOf, hu, Option.bind_some, ← hsame]
      exact hvtoken
  · left
    rwa [Auth.tokenOf, ← h.others m hm]

end Changes

theorem updateCurrentUser_none_spec (s : Auth) (force : Bool) (fails : List SecItemCall) :
    (s.updateCurrentUser none force true fails).1.users = s.users ∧
      (s.updateCurrentUser none force true fails).1.retrieving = s.retrieving ∧
      ((s.updateCurrentUser none force true fails).1.currentUser = s.currentUser ∨
        (s.updateCurrentUser none force true fails).1.currentUser = none) := by
  by_cases hnone : none = s.currentUser
  · rw [updateCurrentUser, if_pos hnone]
    exact ⟨post_users, post_retrieving, Or.inl post_currentUser⟩
  · rcases updateCurrentUser_cases s hnone force fails with ⟨t, hsaved, heq⟩ | ⟨error, _, heq⟩
    · obtain ⟨keychain, _, rfl⟩ := saveUser_none hsaved
      rw [heq]
      exact ⟨post_users, post_retrieving, Or.inr post_currentUser⟩
    · rw [heq]
      cases force with
      | false => exact ⟨rfl, rfl, Or.inl rfl⟩
      | true => exact ⟨post_users, post_retrieving, Or.inr post_currentUser⟩

theorem step_changes (h : s.WellFormed) {a : AuthStep} (hknown : a.BringsUserID)
    (hlaunch : ¬ a.IsLaunch) (hstep : s.step a = some t) : ∃ n, Changes s t n a.accessToken := by
  cases a with
  | retrieveUser accessToken date refreshToken =>
    obtain rfl := Option.some.inj hstep
    exact ⟨_, Changes.retrieved _⟩
  | accountInfoReceived n localID fails =>
    obtain ⟨u, hn, hu, rfl⟩ := step_accountInfoReceived hstep
    refine ⟨n, ?_⟩
    rcases accountInfoReceived_cases (h.ne_current hn) hu localID fails with
      ⟨error, _, heq⟩ | ⟨uid, huid, ⟨error, heq⟩ | ⟨keychain, _, heq⟩⟩
    · rw [heq]
      exact Changes.dropped n _
    · rw [heq]
      exact .of_set hu rfl List.erase_subset (Or.inr rfl) (Or.inl hn) (Or.inl rfl)
    · rw [heq]
      have hsome : uid.isSome = true :=
        Option.isSome_iff_ne_none.mpr fun hnone => hknown (huid.trans (congrArg _ hnone))
      refine .of_set hu post_users ?_ (Or.inr rfl) (Or.inl hn) (Or.inr (Or.inr ⟨?_, hn, hsome⟩))
      · rw [post_retrieving]
        exact List.erase_subset
      · exact post_currentUser
  | tokenReceived n now answer shared fails =>
    obtain ⟨u, hu, rfl⟩ := Option.map_eq_some_iff.mp hstep
    refine ⟨n, ?_⟩
    cases answer with
    | error error =>
      rw [tokenReceived_error]
      split
      · obtain ⟨husers, hretrieving, hcurrent⟩ := updateCurrentUser_none_spec
          { s with retrieving := s.retrieving.erase n } true fails
        refine Changes.of_users_eq (s := s) husers ?_ hcurrent _ _
        rw [hretrieving]
        exact List.erase_subset
      · exact Changes.dropped n _
    | ok response =>
      obtain ⟨v, huid, hservice, hends⟩ := tokenReceived_ok hu now response shared fails
      have htoken : v.tokenService.accessToken = some response.accessToken := by
        rw [hservice]
        exact (u.tokenService.receive_spec now (.ok response) 0).1
      rcases hends with ⟨_, heq⟩ | ⟨_, ⟨error, _, heq⟩ | ⟨keychain, _, heq⟩⟩
      · rw [heq]
        exact .of_set hu rfl (List.Subset.refl _) (Or.inl htoken) (Or.inr huid) (Or.inl rfl)
      · rw [heq]
        exact .of_set hu rfl (List.Subset.refl _) (Or.inl htoken) (Or.inr huid) (Or.inl rfl)
      · rw [heq]
        refine .of_set hu post_users ?_ (Or.inl htoken) (Or.inr huid) (Or.inl post_currentUser)
        rw [post_retrieving]
        exact List.Subset.refl _
  | signOut fails =>
    obtain rfl := Option.some.inj hstep
    refine ⟨0, ?_⟩
    unfold Auth.signOut
    split
    · exact .of_users_eq rfl (List.Subset.refl _) (Or.inl rfl) _ _
    · obtain ⟨husers, hretrieving, hcurrent⟩ := updateCurrentUser_none_spec s false fails
      refine .of_users_eq husers ?_ hcurrent _ _
      rw [hretrieving]
      exact List.Subset.refl _
  | launch fails => exact absurd trivial hlaunch

/-! ## Owners -/

/-- The tokens were `issued` to one object each, and the current user has an id. -/
structure Owned (issued : List String) (s : Auth) : Prop where
  issued : ∀ n token, s.tokenOf n = some token → token ∈ issued
  owner : ∀ n m token, s.tokenOf n = some token → s.tokenOf m = some token → n = m
  known : ∀ u, s.user = some u → u.uid.isSome = true

namespace Owned
variable {issued : List String} {n : Nat} {brought : Option String}

theorem rawAccessToken_issued (h : s.Owned issued) {token : String} (htoken : s.rawAccessToken = some token) :
    token ∈ issued := by
  rw [rawAccessToken_eq] at htoken
  obtain ⟨n, _, hn⟩ := Option.bind_eq_some_iff.mp htoken
  exact h.issued n token hn

theorem changes (h : s.Owned issued) (hwellFormed : s.WellFormed) (hchanges : Changes s t n brought)
    (hfresh : ∀ token, brought = some token → token ∉ issued) :
    t.Owned (issued ++ brought.toList) := by
  refine ⟨fun m token hm => ?_, fun m m' token hm hm' => ?_, fun v hv => ?_⟩
  · rcases hchanges.tokenOf hm with hm | ⟨_, rfl⟩
    · exact List.mem_append_left _ (h.issued m token hm)
    · exact List.mem_append_right _ List.mem_cons_self
  · rcases hchanges.tokenOf hm with hm | ⟨rfl, rfl⟩ <;>
      rcases hchanges.tokenOf hm' with hm' | ⟨rfl, hm'⟩
    · exact h.owner m m' token hm hm'
    · exact absurd (h.issued m token hm) (hfresh token hm')
    · exact absurd (h.issued m' token hm') (hfresh token rfl)
    · rfl
  · obtain ⟨m, hm, hv⟩ := Option.bind_eq_some_iff.mp hv
    rcases hchanges.current with hsame | hnone | ⟨hn, _, hknown⟩
    · rw [hsame] at hm
      obtain ⟨hlt, hretrieving⟩ := hwellFormed.current m hm
      have hu := List.getElem?_eq_getElem hlt
      obtain ⟨_, w, hw, huid⟩ := hchanges.kept m _ hretrieving hu
      obtain rfl := Option.some.inj (hw.symm.trans hv)
      rw [huid]
      exact h.known _ ((user_of_current hm).trans hu)
    · cases hnone.symm.trans hm
    · obtain rfl := Option.some.inj (hn.symm.trans hm)
      exact hknown v hv

/-- A token that stays the current one stays that of the same user. -/
theorem currentUser_eq (h : s.Owned issued) (hchanges : Changes s t n brought)
    (hfresh : ∀ token, brought = some token → token ∉ issued)
    {token : String} (hs : s.rawAccessToken = some token) (ht : t.rawAccessToken = some token) :
    t.currentUser = s.currentUser := by
  rcases hchanges.current with hsame | hnone | ⟨hn, _⟩
  · exact hsame
  · rw [rawAccessToken_eq, hnone] at ht
    cases ht
  · rw [rawAccessToken_of_current hn] at ht
    rw [rawAccessToken_eq] at hs
    obtain ⟨m, hm, htoken⟩ := Option.bind_eq_some_iff.mp hs
    rcases hchanges.tokenOf ht with hsame | ⟨_, hbrought⟩
    · rw [hn, hm, h.owner n m token hsame htoken]
    · exact absurd (h.issued m token htoken) (hfresh token hbrought)

theorem launch (k : KeychainServices UserArchive) (fails : List SecItemCall) :
    (Auth.launch k fails).Owned (Auth.launch k fails).rawAccessToken.toList := by
  have hcurrent : ∀ n token, (Auth.launch k fails).tokenOf n = some token →
      n = 0 ∧ (Auth.launch k fails).currentUser = some 0 := by
    intro n token hn
    rw [tokenOf, launch_eq, post_users] at hn
    rw [launch_eq, post_currentUser]
    obtain ⟨u, hu, _⟩ := Option.bind_eq_some_iff.mp hn
    cases hfound : (loaded k fails).2 with
    | none =>
      rw [hfound] at hu
      cases hu
    | some v =>
      rw [hfound] at hu
      exact ⟨Nat.lt_one_iff.mp (List.getElem?_eq_some_iff.mp hu).1, rfl⟩
  refine ⟨fun n token hn => ?_, fun n m token hn hm => ?_, fun u hu => ?_⟩
  · obtain ⟨rfl, h0⟩ := hcurrent n token hn
    rw [rawAccessToken_of_current h0, hn]
    exact List.mem_singleton_self token
  · rw [(hcurrent n token hn).1, (hcurrent m token hm).1]
  · rw [launch_user, loaded] at hu
    split at hu
    · cases hu
    · obtain ⟨a, _, ha⟩ := Option.bind_eq_some_iff.mp hu
      obtain ⟨uid, huid, ha⟩ := Option.bind_eq_some_iff.mp ha
      obtain ⟨service, _, rfl⟩ := Option.map_eq_some_iff.mp ha
      rfl

end Owned

end Auth

end SantaIWish
