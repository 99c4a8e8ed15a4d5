import SantaIWish.TokenOwners
import SantaIWish.Firebase.AutoRefresh

/-!
# The token is always refreshed

Tasks and refreshes are not tracked: a task finds out from the token whether it is still wanted, and
the callback of a refresh from the user id. Nevertheless, while the app is in the foreground, there
is a task or a refresh for the current token, so that it does not run out unnoticed.
-/

namespace SantaIWish
open Runs
set_option autoImplicit false

namespace AutoRefreshStep

/-- The access token that a step brings. -/
def accessToken : AutoRefreshStep → Option String
  | auth a => a.accessToken
  | refreshed _ (.ok response) _ _ => some response.accessToken
  | _ => none

/-- In one process, refreshed tokens can be saved, and users have ids. -/
def Works : AutoRefreshStep → Prop
  | auth a => a.SavesTokens ∧ a.BringsUserID ∧ ¬ a.IsLaunch
  | refreshed _ _ _ fails =>
    ⟨.add, .genericPassword⟩ ∉ fails ∧ ⟨.update, .genericPassword⟩ ∉ fails
  | _ => True

end AutoRefreshStep

namespace AutoRefresh
variable {s t : AutoRefresh}

/-- When a task for a token that expires at `date` is due at the latest. -/
def deadline (s : AutoRefresh) (date : Option Nat) : Nat :=
  max (s.now + kMaxWaitTimeForBackoff) (date.getD 0 - kTokenRefreshHeadStart)

structure Sound (issued : List String) (s : AutoRefresh) : Prop where
  wellFormed : s.auth.WellFormed
  last : s.auth.lastNotifiedUserToken = s.auth.rawAccessToken
  owned : s.auth.Owned issued
  refreshes : ∀ r ∈ s.refreshes, r.user ∉ s.auth.retrieving ∧
    ∃ u, s.auth.users[r.user]? = some u ∧ u.uid = r.uid
  tasks : ∀ task ∈ s.tasks, task.accessToken ∈ issued ∧
    ∀ (n : Nat) (u : User), s.auth.users[n]? = some u →
      u.tokenService.accessToken = some task.accessToken →
      task.due ≤ s.deadline u.tokenService.accessTokenExpirationDate

/-- The current token is to be refreshed. In the background no task may be left, but then that is known. -/
def Covered (s : AutoRefresh) : Prop :=
  s.autoRefreshTokens = true → ∀ token, s.auth.rawAccessToken = some token →
    (∃ task ∈ s.tasks, task.accessToken = token) ∨
    (∃ r ∈ s.refreshes, s.auth.currentUser = some r.user) ∨
    s.isAppInBackground = true ∧ s.autoRefreshScheduled = false

/-! ## Scheduling -/

section Schedule

theorem scheduled_cases (s : AutoRefresh) (delay : Nat) (retry : Bool) :
    (s.auth.rawAccessToken = none ∧ s.scheduleAutoTokenRefreshWithDelay delay retry = s) ∨
    ∃ token, s.auth.rawAccessToken = some token ∧ s.scheduleAutoTokenRefreshWithDelay delay retry =
      { s with
        autoRefreshScheduled := true
        tasks := s.tasks ++ [⟨token, delay, retry, s.now + delay⟩] } := by
  unfold scheduleAutoTokenRefreshWithDelay
  cases s.auth.rawAccessToken with
  | none => exact Or.inl ⟨rfl, rfl⟩
  | some token => exact Or.inr ⟨token, rfl, rfl⟩

theorem scheduled_auth (s : AutoRefresh) (delay : Nat) (retry : Bool) :
    (s.scheduleAutoTokenRefreshWithDelay delay retry).auth = s.auth := by
  rcases scheduled_cases s delay retry with ⟨_, heq⟩ | ⟨token, _, heq⟩ <;> rw [heq]

theorem covered_scheduled (s : AutoRefresh) (delay : Nat) (retry : Bool) :
    (s.scheduleAutoTokenRefreshWithDelay delay retry).Covered := by
  rcases scheduled_cases s delay retry with ⟨hnone, heq⟩ | ⟨token, htoken, heq⟩
  · rw [heq]
    intro _ token htoken
    cases hnone.symm.trans htoken
  · rw [heq]
    intro _ token' htoken'
    obtain rfl := Option.some.inj (htoken.symm.trans htoken')
    exact Or.inl ⟨_, List.mem_append_right _ List.mem_cons_self, rfl⟩

theorem Sound.scheduled {issued : List String} (h : s.Sound issued) {delay : Nat} (retry : Bool)
    (hdelay : ∀ u, s.auth.user = some u →
      s.now + delay ≤ s.deadline u.tokenService.accessTokenExpirationDate) :
    (s.scheduleAutoTokenRefreshWithDelay delay retry).Sound issued := by
  rcases scheduled_cases s delay retry with ⟨_, heq⟩ | ⟨token, htoken, heq⟩
  · rwa [heq]
  · rw [heq]
    refine ⟨h.wellFormed, h.last, h.owned, h.refreshes, fun task htask => ?_⟩
    rcases List.mem_append.mp htask with htask | htask
    · exact h.tasks task htask
    · obtain rfl := List.mem_singleton.mp htask
      refine ⟨h.owned.rawAccessToken_issued htoken, fun n u hu hn => hdelay u ?_⟩
      rw [Auth.rawAccessToken_eq] at htoken
      obtain ⟨m, hm, hmtoken⟩ := Option.bind_eq_some_iff.mp htoken
      -- the one object that has this token
      obtain rfl : m = n := by
        refine h.owned.owner m n token hmtoken ?_
        rw [Auth.tokenOf, hu, Option.bind_some]
        exact hn
      exact (Auth.user_of_current hm).trans hu

/-- Five minutes before the token expires, or at once. -/
theorem Sound.scheduledInTime {issued : List String} (h : s.Sound issued) :
    s.scheduleAutoTokenRefresh.Sound issued := by
  refine h.scheduled false fun u hu => ?_
  have hdate : s.accessTokenExpirationDate = u.tokenService.accessTokenExpirationDate := by
    rw [accessTokenExpirationDate, hu, Option.bind_some]
  rw [hdate, deadline]
  omega

theorem Sound.retried {issued : List String} (h : s.Sound issued) {delay : Nat}
    (hdelay : delay ≤ kMaxWaitTimeForBackoff) :
    (s.scheduleAutoTokenRefreshWithDelay delay true).Sound issued :=
  h.scheduled true fun _ _ => (Nat.add_le_add_left hdelay s.now).trans (Nat.le_max_left _ _)

end Schedule

/-! ## What Auth does -/

section Posted
variable {issued : List String} {a : AuthStep} {auth : Auth}

theorem Sound.authStep (h : s.Sound issued) (hsaves : a.SavesTokens) (hknown : a.BringsUserID)
    (hlaunch : ¬ a.IsLaunch) (hfresh : ∀ token, a.accessToken = some token → token ∉ issued)
    (hstep : s.auth.step a = some auth) :
    Sound (issued ++ a.accessToken.toList) { s with auth := auth } := by
  obtain ⟨n, hchanges⟩ := Auth.step_changes h.wellFormed hknown hlaunch hstep
  refine ⟨h.wellFormed.step hstep, (Auth.step_tells h.wellFormed h.last hsaves hlaunch hstep).last,
    h.owned.changes h.wellFormed hchanges hfresh, fun r hr => ?_, fun task htask => ?_⟩
  · obtain ⟨hretrieving, u, hu, huid⟩ := h.refreshes r hr
    obtain ⟨hretrieving', v, hv, hvuid⟩ := hchanges.kept r.user u hretrieving hu
    exact ⟨hretrieving', v, hv, hvuid.trans huid⟩
  · obtain ⟨hissued, hdue⟩ := h.tasks task htask
    refine ⟨List.mem_append_left _ hissued, fun m v hv htoken => ?_⟩
    by_cases hm : m = n
    · subst hm
      rcases hchanges.service v hv with hbrought | ⟨u, hu, hsame⟩
      · exact absurd hissued (hfresh _ (hbrought.symm.trans htoken))
      · rw [hsame] at htoken ⊢
        exact hdue m u hu htoken
    · rw [hchanges.others m hm] at hv
      exact hdue m v hv htoken

theorem possiblyPosted_auth : (s.possiblyPosted auth).auth = auth := by
  unfold possiblyPosted scheduleAutoTokenRefresh
  split
  · exact scheduled_auth _ _ _
  · rfl

theorem Sound.possiblyPosted (h : Sound issued { s with auth := auth }) :
    (s.possiblyPosted auth).Sound issued := by
  unfold AutoRefresh.possiblyPosted
  split
  · exact h.scheduledInTime
  · exact h

/-- Where the token is another one, a refresh is scheduled. -/
theorem covered_of_other (hlast : s.auth.lastNotifiedUserToken = s.auth.rawAccessToken)
    (hlast' : auth.lastNotifiedUserToken = auth.rawAccessToken)
    (hother : auth.rawAccessToken ≠ s.auth.rawAccessToken) : (s.possiblyPosted auth).Covered := by
  unfold possiblyPosted
  split
  · exact covered_scheduled _ _ _
  · rename_i hunposted
    intro henabled
    rw [hlast, hlast'] at hunposted
    exact absurd ⟨hother, henabled⟩ hunposted

theorem Covered.authStep (h : s.Covered) (hsound : s.Sound issued) (hsaves : a.SavesTokens)
    (hknown : a.BringsUserID) (hlaunch : ¬ a.IsLaunch)
    (hfresh : ∀ token, a.accessToken = some token → token ∉ issued)
    (hstep : s.auth.step a = some auth) : (s.possiblyPosted auth).Covered := by
  obtain ⟨n, hchanges⟩ := Auth.step_changes hsound.wellFormed hknown hlaunch hstep
  have hlast := (Auth.step_tells hsound.wellFormed hsound.last hsaves hlaunch hstep).last
  by_cases hsame : auth.rawAccessToken = s.auth.rawAccessToken
  · have hunposted : s.possiblyPosted auth = { s with auth := auth } := by
      unfold possiblyPosted
      rw [if_neg]
      rw [hsound.last, hlast]
      exact fun hposted => hposted.1 hsame
    rw [hunposted]
    intro henabled token htoken
    have hcurrent := hsound.owned.currentUser_eq hchanges hfresh (hsame.symm.trans htoken) htoken
    rcases h henabled token (hsame.symm.trans htoken) with htask | hrefresh | hbackground
    · exact Or.inl htask
    · refine Or.inr (Or.inl ?_)
      rwa [hcurrent]
    · exact Or.inr (Or.inr hbackground)
  · exact covered_of_other hsound.last hlast hsame

end Posted

/-! ## Tasks and refreshes -/

theorem Sound.runTask {issued : List String} (h : s.Sound issued) (task : RefreshTask) :
    (s.runTask task).Sound issued := by
  unfold AutoRefresh.runTask
  split
  · exact h
  · dsimp only
    split
    · exact ⟨h.wellFormed, h.last, h.owned, h.refreshes, h.tasks⟩
    · split
      · exact ⟨h.wellFormed, h.last, h.owned, h.refreshes, h.tasks⟩
      · rename_i n hcurrent
        refine ⟨h.wellFormed, h.last, h.owned, fun r hr => ?_, h.tasks⟩
        rcases List.mem_append.mp hr with hr | hr
        · exact h.refreshes r hr
        · obtain rfl := List.mem_singleton.mp hr
          obtain ⟨hlt, hretrieving⟩ := h.wellFormed.current n hcurrent
          have hu := List.getElem?_eq_getElem hlt
          refine ⟨hretrieving, _, hu, ?_⟩
          rw [Auth.getUserID, Auth.user_of_current hcurrent, hu, Option.bind_some]

theorem mem_eraseIdx_of_ne {α : Type} {l : List α} {n : Nat} {x y : α} (hx : l[n]? = some x)
    (hy : y ∈ l) (hne : y ≠ x) : y ∈ l.eraseIdx n := by
  obtain ⟨m, hm⟩ := List.mem_iff_getElem?.mp hy
  refine List.mem_eraseIdx_iff_getElem?.mpr ⟨m, fun hmn => hne ?_, hm⟩
  subst hmn
  exact Option.some.inj (hm.symm.trans hx)

/-- A task that is run leaves the other ones, a refresh, or the background. -/
theorem Covered.runTask (h : s.Covered) {n : Nat} {task : RefreshTask} (htask : s.tasks[n]? = some task) :
    (AutoRefresh.runTask { s with tasks := s.tasks.eraseIdx n } task).Covered := by
  unfold AutoRefresh.runTask
  split
  · rename_i hother
    intro henabled token htoken
    rcases h henabled token htoken with ⟨task', htask', rfl⟩ | hcovered
    · refine Or.inl ⟨task', mem_eraseIdx_of_ne htask htask' ?_, rfl⟩
      rintro rfl
      exact hother htoken
    · exact Or.inr hcovered
  · rename_i hsame
    dsimp only
    split
    · rename_i hbackground
      exact fun _ _ _ => Or.inr (Or.inr ⟨hbackground, rfl⟩)
    · split
      · rename_i hnone
        intro _ token htoken
        rw [Auth.rawAccessToken_eq, hnone] at htoken
        cases htoken
      · rename_i m hcurrent
        exact fun _ _ _ =>
          Or.inr (Or.inl ⟨_, List.mem_append_right _ List.mem_cons_self, hcurrent⟩)

theorem Sound.refreshEnded {issued : List String} (h : s.Sound issued) (r : Refresh)
    (result : Except AuthErrorCode String) : (s.refreshEnded r result).Sound issued := by
  unfold AutoRefresh.refreshEnded
  split
  · exact h
  · cases result with
    | ok token => exact h
    | error error =>
      refine h.retried ?_
      split
      · exact Nat.min_le_right _ _
      · decide

theorem refreshEnded_auth (r : Refresh) (result : Except AuthErrorCode String) :
    (s.refreshEnded r result).auth = s.auth := by
  unfold refreshEnded
  split
  · rfl
  · cases result with
    | ok token => rfl
    | error error => exact scheduled_auth _ _ _

/-- A refresh that has failed is tried again. -/
theorem covered_retried {r : Refresh} (hknown : s.auth.getUserID.isSome = true)
    (huid : s.auth.getUserID = r.uid) (error : AuthErrorCode) :
    (s.refreshEnded r (.error error)).Covered := by
  unfold refreshEnded
  rw [if_neg (not_not.mpr ⟨hknown, huid⟩)]
  exact covered_scheduled _ _ _

theorem Covered.refreshEnded (h : s.Covered) (r : Refresh) (result : Except AuthErrorCode String) :
    (s.refreshEnded r result).Covered := by
  unfold AutoRefresh.refreshEnded
  split
  · exact h
  · cases result with
    | ok token => exact h
    | error error => exact covered_scheduled _ _ _

theorem Sound.refreshesErased {issued : List String} (h : s.Sound issued) (n : Nat) :
    Sound issued { s with refreshes := s.refreshes.eraseIdx n } :=
  ⟨h.wellFormed, h.last, h.owned, fun r hr => h.refreshes r (List.mem_of_mem_eraseIdx hr), h.tasks⟩

theorem accessToken_refreshed (r : Refresh) (n now : Nat) (answer : Except AuthErrorCode SecureTokenResponse)
    (shared : Bool) (fails : List SecItemCall) :
    (AutoRefreshStep.refreshed n answer shared fails).accessToken =
      (AuthStep.tokenReceived r.user now answer shared fails).accessToken := by
  cases answer <;> rfl

/-- A refresh that is answered is off the list, and Auth has had the answer. -/
theorem step_refreshed {n : Nat} {answer : Except AuthErrorCode SecureTokenResponse} {shared : Bool}
    {fails : List SecItemCall} (h : s.step (.refreshed n answer shared fails) = some t) :
    ∃ r u, s.refreshes[n]? = some r ∧ s.auth.users[r.user]? = some u ∧
      t = (possiblyPosted { s with refreshes := s.refreshes.eraseIdx n }
        (s.auth.tokenReceived r.user s.now u answer shared fails).1).refreshEnded r
          (s.auth.tokenReceived r.user s.now u answer shared fails).2 := by
  obtain ⟨r, hr, h⟩ := Option.bind_eq_some_iff.mp h
  obtain ⟨u, hu, rfl⟩ := Option.map_eq_some_iff.mp h
  exact ⟨r, u, hr, hu, rfl⟩

theorem step_runTask {n : Nat} (h : s.step (.runTask n) = some t) : ∃ task, s.tasks[n]? = some task ∧
    t = AutoRefresh.runTask { s with tasks := s.tasks.eraseIdx n } task := by
  obtain ⟨task, htask, h⟩ := Option.bind_eq_some_iff.mp h
  split at h
  · exact ⟨task, htask, (Option.some.inj h).symm⟩
  · cases h

theorem step_auth {a : AuthStep} (hlaunch : ¬ a.IsLaunch) (h : s.step (.auth a) = some t) :
    ∃ auth, s.auth.step a = some auth ∧ t = s.possiblyPosted auth := by
  simp only [step] at h
  split at h
  · obtain ⟨auth, hauth, rfl⟩ := Option.map_eq_some_iff.mp h
    refine ⟨auth, hauth, ?_⟩
    cases a with
    | launch fails => exact absurd trivial hlaunch
    | _ => rfl
  · cases h

section Step
variable {issued : List String} {a : AutoRefreshStep}

theorem Sound.step (h : s.Sound issued) (hworks : a.Works)
    (hfresh : ∀ token, a.accessToken = some token → token ∉ issued) (hstep : s.step a = some t) :
    t.Sound (issued ++ a.accessToken.toList) := by
  have hsame : a.accessToken = none → issued ++ a.accessToken.toList = issued := by
    intro hnone
    rw [hnone]
    exact List.append_nil issued
  cases a with
  | auth a =>
    obtain ⟨hsaves, hknown, hlaunch⟩ := hworks
    obtain ⟨auth, hauth, rfl⟩ := step_auth hlaunch hstep
    exact (h.authStep hsaves hknown hlaunch hfresh hauth).possiblyPosted
  | getTokenForcingRefresh =>
    rw [hsame rfl]
    simp only [AutoRefresh.step] at hstep
    split at hstep
    · obtain rfl := Option.some.inj hstep
      exact h
    · obtain rfl := Option.some.inj hstep
      have henabled : Sound issued { s with autoRefreshTokens := true } :=
        ⟨h.wellFormed, h.last, h.owned, h.refreshes, h.tasks⟩
      exact henabled.scheduledInTime
  | runTask n =>
    obtain ⟨task, _, rfl⟩ := step_runTask hstep
    rw [hsame rfl]
    have hrest : Sound issued { s with tasks := s.tasks.eraseIdx n } :=
      ⟨h.wellFormed, h.last, h.owned, h.refreshes,
        fun task htask => h.tasks task (List.mem_of_mem_eraseIdx htask)⟩
    exact hrest.runTask task
  | refreshed n answer shared fails =>
    obtain ⟨r, u, _, hu, rfl⟩ := step_refreshed hstep
    have hsaves : (AuthStep.tokenReceived r.user s.now answer shared fails).SavesTokens := hworks
    have hauth := Auth.step_tokenReceived hu s.now answer shared fails
    rw [accessToken_refreshed r n s.now] at hfresh ⊢
    exact (((h.refreshesErased n).authStep hsaves trivial id hfresh hauth).possiblyPosted).refreshEnded r _
  | applicationDidBecomeActive =>
    rw [hsame rfl]
    obtain rfl := Option.some.inj hstep
    unfold AutoRefresh.applicationDidBecomeActive
    have hactive : Sound issued { s with isAppInBackground := false } :=
      ⟨h.wellFormed, h.last, h.owned, h.refreshes, h.tasks⟩
    split
    · dsimp only
      split
      · exact hactive
      · exact hactive.scheduledInTime
    · exact h
  | applicationDidEnterBackground =>
    rw [hsame rfl]
    obtain rfl := Option.some.inj hstep
    split
    · exact ⟨h.wellFormed, h.last, h.owned, h.refreshes, h.tasks⟩
    · exact h
  | wait seconds =>
    rw [hsame rfl]
    obtain rfl := Option.some.inj hstep
    refine ⟨h.wellFormed, h.last, h.owned, h.refreshes, fun task htask => ?_⟩
    obtain ⟨hissued, hdue⟩ := h.tasks task htask
    refine ⟨hissued, fun n u hu htoken => (hdue n u hu htoken).trans ?_⟩
    unfold deadline
    dsimp only
    omega

/-- The refresh of the current user has ended. -/
theorem covered_refreshed (h : s.Sound issued) {r : Refresh} (hr : r ∈ s.refreshes)
    (hcurrent : s.auth.currentUser = some r.user) {u : User} (hu : s.auth.users[r.user]? = some u)
    (refreshes : List Refresh) (answer : Except AuthErrorCode SecureTokenResponse) (shared : Bool)
    {fails : List SecItemCall}
    (hsaves : (AuthStep.tokenReceived r.user s.now answer shared fails).SavesTokens)
    (hfresh : ∀ token, (AuthStep.tokenReceived r.user s.now answer shared fails).accessToken = some token →
      token ∉ issued) :
    ((possiblyPosted { s with refreshes := refreshes }
      (s.auth.tokenReceived r.user s.now u answer shared fails).1).refreshEnded r
        (s.auth.tokenReceived r.user s.now u answer shared fails).2).Covered := by
  have hauth := Auth.step_tokenReceived hu s.now answer shared fails
  have hlast := (Auth.step_tells h.wellFormed h.last hsaves id hauth).last
  cases answer with
  | ok response =>
    -- another token, which has been saved and made known
    have htoken := Auth.tokenReceived_rawAccessToken hcurrent hu s.now response shared fails
    refine Covered.refreshEnded ?_ r _
    refine covered_of_other (s := { s with refreshes := refreshes }) h.last hlast fun hsame => ?_
    exact hfresh response.accessToken rfl (h.owned.rawAccessToken_issued (hsame.symm.trans htoken))
  | error error =>
    rw [Auth.tokenReceived_error]
    split
    · -- the user is signed out
      intro _ token htoken
      rw [refreshEnded_auth, possiblyPosted_auth, Auth.rawAccessToken,
        Auth.updateCurrentUser_none_user] at htoken
      cases htoken
    · have huser := (Auth.user_of_current hcurrent).trans hu
      have hid : s.auth.getUserID = u.uid := by rw [Auth.getUserID, huser, Option.bind_some]
      obtain ⟨_, v, hv, huid⟩ := h.refreshes r hr
      obtain rfl := Option.some.inj (hu.symm.trans hv)
      refine covered_retried ?_ ?_ error
      · rw [possiblyPosted_auth]
        exact hid ▸ h.owned.known u huser
      · rw [possiblyPosted_auth]
        exact hid.trans huid

theorem Covered.step (h : s.Covered) (hsound : s.Sound issued) (hworks : a.Works)
    (hfresh : ∀ token, a.accessToken = some token → token ∉ issued) (hstep : s.step a = some t) :
    t.Covered := by
  cases a with
  | auth a =>
    obtain ⟨hsaves, hknown, hlaunch⟩ := hworks
    obtain ⟨auth, hauth, rfl⟩ := step_auth hlaunch hstep
    exact h.authStep hsound hsaves hknown hlaunch hfresh hauth
  | getTokenForcingRefresh =>
    simp only [AutoRefresh.step] at hstep
    split at hstep
    · obtain rfl := Option.some.inj hstep
      exact h
    · obtain rfl := Option.some.inj hstep
      exact covered_scheduled _ _ _
  | runTask n =>
    obtain ⟨task, htask, rfl⟩ := step_runTask hstep
    exact h.runTask htask
  | refreshed n answer shared fails =>
    obtain ⟨r, u, hr, hu, rfl⟩ := step_refreshed hstep
    rw [accessToken_refreshed r n s.now] at hfresh
    have hsaves : (AuthStep.tokenReceived r.user s.now answer shared fails).SavesTokens := hworks
    by_cases hcurrent : s.auth.currentUser = some r.user
    · exact covered_refreshed hsound (List.mem_of_getElem? hr) hcurrent hu _ answer shared hsaves hfresh
    · -- another refresh or a task is left
      have hrest : Covered { s with refreshes := s.refreshes.eraseIdx n } := by
        intro henabled token htoken
        rcases h henabled token htoken with htask | ⟨r', hr', hcurrent'⟩ | hbackground
        · exact Or.inl htask
        · refine Or.inr (Or.inl ⟨r', mem_eraseIdx_of_ne hr hr' ?_, hcurrent'⟩)
          rintro rfl
          exact hcurrent hcurrent'
        · exact Or.inr (Or.inr hbackground)
      have hauth := Auth.step_tokenReceived hu s.now answer shared fails
      exact (hrest.authStep (hsound.refreshesErased n) hsaves trivial id hfresh hauth).refreshEnded r _
  | applicationDidBecomeActive =>
    obtain rfl := Option.some.inj hstep
    unfold AutoRefresh.applicationDidBecomeActive
    split
    · rename_i henabled
      dsimp only
      split
      · rename_i hscheduled
        intro _ token htoken
        rcases h henabled token htoken with htask | hrefresh | ⟨_, hunscheduled⟩
        · exact Or.inl htask
        · exact Or.inr (Or.inl hrefresh)
        · cases hunscheduled.symm.trans hscheduled
      · exact covered_scheduled _ _ _
    · exact h
  | applicationDidEnterBackground =>
    obtain rfl := Option.some.inj hstep
    split
    · intro henabled token htoken
      rcases h henabled token htoken with htask | hrefresh | ⟨_, hunscheduled⟩
      · exact Or.inl htask
      · exact Or.inr (Or.inl hrefresh)
      · exact Or.inr (Or.inr ⟨rfl, hunscheduled⟩)
    · exact h
  | wait seconds =>
    obtain rfl := Option.some.inj hstep
    exact h

end Step

/-! ## In every run -/

/-- The access tokens of a process, that of the user it finds at first. -/
def issued (k : KeychainServices UserArchive) (fails : List SecItemCall) (steps : List AutoRefreshStep) :
    List String :=
  (Auth.launch k fails).rawAccessToken.toList ++ steps.filterMap AutoRefreshStep.accessToken

section Run
variable {k : KeychainServices UserArchive} {fails : List SecItemCall} {now : Nat}
  {steps : List AutoRefreshStep}

theorem issued_snoc (a : AutoRefreshStep) :
    issued k fails (steps ++ [a]) = issued k fails steps ++ a.accessToken.toList := by
  rw [issued, issued, List.filterMap_append, List.append_assoc]
  cases h : a.accessToken <;> simp [h]

theorem sound_launch : (launch k fails now).Sound (issued k fails []) := by
  refine ⟨.launch k fails, (Auth.launch_tells k fails).last, ?_, ?_, ?_⟩
  · rw [issued, List.filterMap_nil, List.append_nil]
    exact Auth.Owned.launch k fails
  · intro r hr
    cases hr
  · intro task htask
    cases htask

theorem run_covered (hworks : ∀ a ∈ steps, a.Works) (hissued : (issued k fails steps).Nodup)
    (hrun : run AutoRefresh.step (launch k fails now) steps = some s) :
    s.Sound (issued k fails steps) ∧ s.Covered := by
  refine run_induction (P := fun steps s => (∀ a ∈ steps, a.Works) → (issued k fails steps).Nodup →
    s.Sound (issued k fails steps) ∧ s.Covered) ?_ ?_ steps s hrun hworks hissued
  · intro _ _
    refine ⟨sound_launch, fun henabled => ?_⟩
    cases henabled
  · intro steps s a t _ ih hstep hworks hissued
    rw [issued_snoc] at hissued ⊢
    obtain ⟨hpast, _, hdisjoint⟩ := List.nodup_append'.mp hissued
    obtain ⟨hsound, hcovered⟩ := ih (fun b hb => hworks b (List.mem_append_left _ hb)) hpast
    have ha := hworks a (List.mem_append_right _ List.mem_cons_self)
    have hfresh : ∀ token, a.accessToken = some token → token ∉ issued k fails steps := by
      intro token htoken hmem
      refine hdisjoint hmem ?_
      rw [htoken]
      exact List.mem_cons_self
    exact ⟨hsound.step ha hfresh hstep, hcovered.step hsound ha hfresh hstep⟩

end Run

/-- As long as the app is in the foreground, the current token is being refreshed, or a task is there that
will have it refreshed: five minutes before it expires, or within sixteen minutes. -/
theorem run_refreshed (k : KeychainServices UserArchive) (fails : List SecItemCall) (now : Nat)
    (steps : List AutoRefreshStep) (hworks : ∀ a ∈ steps, a.Works) (hissued : (issued k fails steps).Nodup)
    (s : AutoRefresh) (hrun : run AutoRefresh.step (launch k fails now) steps = some s)
    (henabled : s.autoRefreshTokens = true) (hforeground : s.isAppInBackground = false)
    (u : User) (huser : s.auth.user = some u) (token : String)
    (htoken : u.tokenService.accessToken = some token) :
    (∃ r ∈ s.refreshes, s.auth.currentUser = some r.user) ∨
      ∃ task ∈ s.tasks, task.accessToken = token ∧
        task.due ≤ s.deadline u.tokenService.accessTokenExpirationDate := by
  obtain ⟨hsound, hcovered⟩ := run_covered hworks hissued hrun
  have hraw : s.auth.rawAccessToken = some token := by rw [Auth.rawAccessToken, huser, Option.bind_some, htoken]
  rcases hcovered henabled token hraw with ⟨task, htask, rfl⟩ | hrefresh | ⟨hbackground, _⟩
  · obtain ⟨n, _, hu⟩ := Option.bind_eq_some_iff.mp huser
    exact Or.inr ⟨task, htask, rfl, (hsound.tasks task htask).2 n u hu htoken⟩
  · exact Or.inl hrefresh
  · cases hforeground.symm.trans hbackground

/-- Ann signs in, Firestore asks for a token, and five minutes before it expires a refresh fails. -/
def annRefreshFails : List AutoRefreshStep :=
  [.auth (.retrieveUser (some "first") (some 3600) (some "refresh")),
    .auth (.accountInfoReceived 0 (.ok (some "uid")) []),
    .getTokenForcingRefresh, .wait 3300, .runTask 0, .refreshed 0 (.error (.other 17020)) false []]

def annUser : User :=
  ⟨some "uid", { accessToken := some "first", accessTokenExpirationDate := some 3600,
                 refreshToken := some "refresh" }⟩

theorem annRefreshFails_refreshed : ∃ s : AutoRefresh,
    run AutoRefresh.step (launch {} [] 0) annRefreshFails = some s ∧
      ∃ task ∈ s.tasks, task.accessToken = "first" ∧ task.due ≤ 4260 := by
  have hfacts : (run AutoRefresh.step (launch {} [] 0) annRefreshFails).map
      (fun s => (s.autoRefreshTokens, s.isAppInBackground, s.auth.user, s.refreshes, s.now)) =
        some (true, false, some annUser, [], 3300) := by decide +kernel
  obtain ⟨s, hs, hfacts⟩ := Option.map_eq_some_iff.mp hfacts
  simp only [Prod.mk.injEq] at hfacts
  obtain ⟨henabled, hforeground, huser, hrefreshes, hnow⟩ := hfacts
  have hworks : ∀ a ∈ annRefreshFails, a.Works := by
    simp [annRefreshFails, AutoRefreshStep.Works, AuthStep.SavesTokens, AuthStep.BringsUserID,
      AuthStep.IsLaunch]
  rcases run_refreshed {} [] 0 annRefreshFails hworks (by decide) s hs henabled hforeground annUser huser
    "first" rfl with ⟨r, hr, _⟩ | ⟨task, htask, htoken, hdue⟩
  · rw [hrefreshes] at hr
    cases hr
  · refine ⟨s, hs, task, htask, htoken, hdue.trans ?_⟩
    rw [deadline, hnow]
    decide

-- A refreshed token that cannot be saved: the task is not wanted any more, and yet one is said to be scheduled.
example : (run AutoRefresh.step (launch {} [] 0) (annRefreshFails.take 3 ++
    [.auth (.tokenReceived 0 0 (.ok ⟨"another", none, 3600, by decide⟩) false [⟨.update, .genericPassword⟩]),
      .wait 3300, .runTask 0])).map
        (fun s => (s.auth.rawAccessToken, s.tasks, s.refreshes, s.autoRefreshScheduled)) =
          some (some "another", [], [], true) := by decide +kernel

end AutoRefresh

end SantaIWish
