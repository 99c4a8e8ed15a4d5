import SantaIWish.Firebase.CurrentUser

/-!
# Automatic refreshes of the token

Once another service of Firebase has asked for a token, as Firestore does for a sign-up, Auth has
the token of the current user refreshed five minutes before it expires. A refresh that fails is
tried again, after one minute at first and after twice as long each time it fails again.
-/

namespace SantaIWish
set_option autoImplicit false

def kMaxWaitTimeForBackoff : Nat := 16 * 60

def kTokenRefreshHeadStart : Nat := 5 * 60

/-- A task that is to run after a delay, with the token there was when it was scheduled. -/
structure RefreshTask where
  accessToken : String
  delay : Nat
  retry : Bool
  due : Nat
  deriving DecidableEq

/-- A refresh that a task has asked a user for, and the task's own delay. -/
structure Refresh where
  user : Nat
  uid : Option String
  delay : Nat
  retry : Bool
  deriving DecidableEq

structure AutoRefresh where
  auth : Auth
  /-- In seconds. -/
  now : Nat := 0
  autoRefreshTokens : Bool := false
  autoRefreshScheduled : Bool := false
  isAppInBackground : Bool := false
  tasks : List RefreshTask := []
  refreshes : List Refresh := []

inductive AutoRefreshStep where
  | auth (a : AuthStep)
  | getTokenForcingRefresh
  /-- A task runs when it is due, or later. -/
  | runTask (n : Nat)
  /-- The answer to the request of the `n`th refresh. -/
  | refreshed (n : Nat) (answer : Except AuthErrorCode SecureTokenResponse) (shared : Bool)
      (fails : List SecItemCall)
  | applicationDidBecomeActive
  | applicationDidEnterBackground
  | wait (seconds : Nat)

/-- The time of a step is that of the clock. -/
def AuthStep.isAt (now : Nat) : AuthStep → Bool
  | tokenReceived _ time _ _ _ => time == now
  | _ => true

namespace AutoRefresh

def scheduleAutoTokenRefreshWithDelay (s : AutoRefresh) (delay : Nat) (retry : Bool) : AutoRefresh :=
  match s.auth.rawAccessToken with
  | none => s
  | some accessToken =>
    { s with
      autoRefreshScheduled := true
      tasks := s.tasks ++ [⟨accessToken, delay, retry, s.now + delay⟩] }

def accessTokenExpirationDate (s : AutoRefresh) : Option Nat :=
  s.auth.user.bind fun u => u.tokenService.accessTokenExpirationDate

/-- The interval is no less than zero, and it is zero for a token without a date. -/
def scheduleAutoTokenRefresh (s : AutoRefresh) : AutoRefresh :=
  s.scheduleAutoTokenRefreshWithDelay
    (s.accessTokenExpirationDate.getD 0 - s.now - kTokenRefreshHeadStart) false

/-- What Auth does ends with `possiblyPostAuthStateChangeNotification`, if it comes to that. A
notification was posted if another token has become the last one, and then a refresh is scheduled. -/
def possiblyPosted (s : AutoRefresh) (auth : Auth) : AutoRefresh :=
  if auth.lastNotifiedUserToken ≠ s.auth.lastNotifiedUserToken ∧ s.autoRefreshTokens = true then
    { s with auth := auth }.scheduleAutoTokenRefresh
  else { s with auth := auth }

def authStepped (s : AutoRefresh) (a : AuthStep) (auth : Auth) : AutoRefresh :=
  match a with
  | .launch _ => { auth := auth, now := s.now }
  | _ => s.possiblyPosted auth

def runTask (s : AutoRefresh) (task : RefreshTask) : AutoRefresh :=
  -- another refresh must have been scheduled
  if s.auth.rawAccessToken ≠ some task.accessToken then s
  else
    let s := { s with autoRefreshScheduled := false }
    if s.isAppInBackground then s
    else
      match s.auth.currentUser with
      | none => s
      | some n => { s with refreshes := s.refreshes ++ [⟨n, s.auth.getUserID, task.delay, task.retry⟩] }

/-- The callback of a refresh. -/
def refreshEnded (s : AutoRefresh) (r : Refresh) (result : Except AuthErrorCode String) : AutoRefresh :=
  if ¬ (s.auth.getUserID.isSome = true ∧ s.auth.getUserID = r.uid) then s
  else
    match result with
    | .ok _ => s
    | .error _ =>
      s.scheduleAutoTokenRefreshWithDelay
        (if r.retry then min (r.delay * 2) kMaxWaitTimeForBackoff else 60) true

/-- The observers are there as long as tokens are refreshed. -/
def applicationDidBecomeActive (s : AutoRefresh) : AutoRefresh :=
  if s.autoRefreshTokens then
    let s := { s with isAppInBackground := false }
    if s.autoRefreshScheduled then s else s.scheduleAutoTokenRefresh
  else s

def step (s : AutoRefresh) : AutoRefreshStep → Option AutoRefresh
  | .auth a => if a.isAt s.now then (s.auth.step a).map (s.authStepped a) else none
  | .getTokenForcingRefresh =>
    -- the request of the service itself is answered like any other one
    if s.autoRefreshTokens then some s
    else some { s with autoRefreshTokens := true }.scheduleAutoTokenRefresh
  | .runTask n =>
    s.tasks[n]?.bind fun task =>
      if task.due ≤ s.now then some ({ s with tasks := s.tasks.eraseIdx n }.runTask task) else none
  | .refreshed n answer shared fails =>
    s.refreshes[n]?.bind fun r =>
      s.auth.users[r.user]?.map fun u =>
        let (auth, result) := s.auth.tokenReceived r.user s.now u answer shared fails
        ({ s with refreshes := s.refreshes.eraseIdx n }.possiblyPosted auth).refreshEnded r result
  | .applicationDidBecomeActive => some s.applicationDidBecomeActive
  | .applicationDidEnterBackground =>
    some (if s.autoRefreshTokens then { s with isAppInBackground := true } else s)
  | .wait seconds => some { s with now := s.now + seconds }

/-- A process in which no service has asked for a token yet. -/
def launch (keychain : KeychainServices UserArchive) (fails : List SecItemCall) (now : Nat) : AutoRefresh :=
  { auth := Auth.launch keychain fails, now := now }

end AutoRefresh

end SantaIWish
