import SantaIWish.Library.Runs

/-!
# Signing in and out

Firebase Auth keeps the current user across launches, until it finds out that the
user's token is no longer valid. The app keeps a token and a user id in
`UserDefaults`, written by the callback of `getIDToken`, which runs some time
after `getCredentials` asked for it. A callback is identified by the user it
captured. A screen transition to the profile is pending until that
screen loads.
-/

namespace SantaIWish
set_option autoImplicit false

structure IDToken where
  user : String
  serial : Nat
  deriving DecidableEq, Repr

structure Session where
  /-- `Auth.auth().currentUser?.uid` -/
  currentUser : Option String := none
  /-- `UserDefaults`, key `token` -/
  token : Option IDToken := none
  /-- `UserDefaults`, key `userID` -/
  userID : Option String := none
  /-- The users captured by the `getIDToken` calls in flight. -/
  inFlight : List String := []
  /-- Profile screens pushed and not loaded yet. -/
  transitions : Nat := 0
  deriving DecidableEq, Repr

inductive SessionStep where
  /-- The callback of `signIn`, with the user it signed in if it did. -/
  | signIn (result : Option String)
  | createUser (result : Option String)
  | getCredentials
  | tokenIssued (user : String) (serial : Nat)
  /-- Firebase Auth signs a user out by itself if the refresh of the token says it is no longer valid. -/
  | tokenFailed (user : String) (invalid : Bool)
  /-- A refresh that the app did not ask for says so. -/
  | signedOutByForce (user : String)
  | signOut
  | relaunch
  | profileDidLoad
  deriving DecidableEq, Repr

namespace Session

def getCredentials (s : Session) : Session :=
  match s.currentUser with
  | some user => { s with inFlight := s.inFlight ++ [user] }
  | none => s

/-- The callback stores the token of the user it captured beside the user that is current now. -/
def receiveToken (s : Session) (user : String) (serial : Nat) : Session :=
  { s with
    token := some ⟨user, serial⟩
    userID := s.currentUser
    inFlight := s.inFlight.erase user }

/-- Only the current user is signed out, and what `UserDefaults` has of it stays. -/
def signOutByForce (s : Session) (user : String) : Session :=
  { s with currentUser := if s.currentUser = some user then none else s.currentUser }

/-- The callback of a token that could not be refreshed. -/
def tokenFailed (s : Session) (user : String) (invalid : Bool) : Session :=
  let s := { s with inFlight := s.inFlight.erase user }
  if invalid then s.signOutByForce user else s

def signOut (s : Session) : Session := { s with token := none }

def authenticated (s : Session) (result : Option String) : Session :=
  match result with
  | some user => { s with currentUser := some user }
  | none => s

/-- The callback of a login or sign-up: credentials are asked for before the error is looked at. -/
def attemptEnded (s : Session) (result : Option String) : Session :=
  let s := (s.authenticated result).getCredentials
  match result with
  | some _ => { s with transitions := s.transitions + 1 }
  | none => s

/-- Whether the login screen lets the user in without a password. -/
def checkLoginStatis (s : Session) : Bool := s.token.isSome

/-- A new process: callbacks and screens are gone, and the login screen checks the stored token. -/
def relaunch (s : Session) : Session :=
  { s with inFlight := [], transitions := if s.checkLoginStatis then 1 else 0 }

def step (s : Session) : SessionStep → Option Session
  | .signIn result => some (s.attemptEnded result)
  | .createUser result => some (s.attemptEnded result)
  | .getCredentials => some s.getCredentials
  | .tokenIssued user serial => if user ∈ s.inFlight then some (s.receiveToken user serial) else none
  | .tokenFailed user invalid =>
    if user ∈ s.inFlight then some (s.tokenFailed user invalid) else none
  | .signedOutByForce user => some (s.signOutByForce user)
  | .signOut => some s.signOut
  | .relaunch => some s.relaunch
  | .profileDidLoad =>
    if 0 < s.transitions then some { s with transitions := s.transitions - 1 } else none

end Session

/-! ## What a step does to the stored record -/

namespace SessionStep

def account : SessionStep → Option String
  | signIn result => result
  | createUser result => result
  | _ => none

/-- Auth's current user after a step, from the one before it. -/
def currentUser (before : Option String) : SessionStep → Option String
  | signIn result | createUser result => result.or before
  | tokenFailed user invalid => if invalid = true ∧ before = some user then none else before
  | signedOutByForce user => if before = some user then none else before
  | _ => before

def KeepsRecord : SessionStep → Prop
  | tokenIssued _ _ => False
  | signOut => False
  | _ => True

end SessionStep

namespace Session
variable {s t : Session} {a : SessionStep}

@[simp] theorem getCredentials_currentUser : s.getCredentials.currentUser = s.currentUser := by
  unfold getCredentials
  split <;> rfl

@[simp] theorem getCredentials_token : s.getCredentials.token = s.token := by
  unfold getCredentials
  split <;> rfl

@[simp] theorem getCredentials_userID : s.getCredentials.userID = s.userID := by
  unfold getCredentials
  split <;> rfl

theorem attemptEnded_currentUser (result : Option String) :
    (s.attemptEnded result).currentUser = result.or s.currentUser := by
  cases result <;> simp [attemptEnded, authenticated]

@[simp] theorem attemptEnded_token (result : Option String) :
    (s.attemptEnded result).token = s.token := by
  cases result <;> simp [attemptEnded, authenticated]

@[simp] theorem attemptEnded_userID (result : Option String) :
    (s.attemptEnded result).userID = s.userID := by
  cases result <;> simp [attemptEnded, authenticated]

theorem tokenFailed_currentUser (s : Session) (user : String) (invalid : Bool) :
    (s.tokenFailed user invalid).currentUser =
      if invalid = true ∧ s.currentUser = some user then none else s.currentUser := by
  cases invalid <;> simp [tokenFailed, signOutByForce]

@[simp] theorem tokenFailed_token (user : String) (invalid : Bool) :
    (s.tokenFailed user invalid).token = s.token := by
  cases invalid <;> rfl

@[simp] theorem tokenFailed_userID (user : String) (invalid : Bool) :
    (s.tokenFailed user invalid).userID = s.userID := by
  cases invalid <;> rfl

theorem step_currentUser (h : s.step a = some t) : t.currentUser = a.currentUser s.currentUser := by
  cases a with
  | signIn result | createUser result =>
    obtain rfl : s.attemptEnded result = t := by simpa [step] using h
    exact attemptEnded_currentUser result
  | getCredentials =>
    obtain rfl : s.getCredentials = t := by simpa [step] using h
    exact getCredentials_currentUser
  | tokenIssued user serial =>
    obtain ⟨_, rfl⟩ : user ∈ s.inFlight ∧ s.receiveToken user serial = t := by
      simpa [step] using h
    rfl
  | tokenFailed user invalid =>
    obtain ⟨_, rfl⟩ : user ∈ s.inFlight ∧ s.tokenFailed user invalid = t := by simpa [step] using h
    exact tokenFailed_currentUser s user invalid
  | signedOutByForce user =>
    obtain rfl : s.signOutByForce user = t := by simpa [step] using h
    rfl
  | signOut =>
    obtain rfl : s.signOut = t := by simpa [step] using h
    rfl
  | relaunch =>
    obtain rfl : s.relaunch = t := by simpa [step] using h
    rfl
  | profileDidLoad =>
    obtain ⟨_, rfl⟩ : 0 < s.transitions ∧ { s with transitions := s.transitions - 1 } = t := by
      simpa [step] using h
    rfl

theorem run_currentUser {steps : List SessionStep} (h : Runs.run step s steps = some t) :
    t.currentUser = steps.foldl SessionStep.currentUser s.currentUser := by
  induction steps generalizing s with
  | nil =>
    obtain rfl := Option.some.inj h
    rfl
  | cons a steps ih =>
    obtain ⟨m, ha, hrest⟩ := Option.bind_eq_some_iff.mp h
    rw [ih hrest, step_currentUser ha, List.foldl_cons]

/-- Only a callback writes the record, and only signing out removes its token. -/
theorem step_record (h : s.step a = some t) (hkeeps : a.KeepsRecord) :
    t.token = s.token ∧ t.userID = s.userID := by
  cases a with
  | signIn result | createUser result =>
    obtain rfl : s.attemptEnded result = t := by simpa [step] using h
    simp
  | getCredentials =>
    obtain rfl : s.getCredentials = t := by simpa [step] using h
    simp
  | tokenIssued user serial => exact hkeeps.elim
  | tokenFailed user invalid =>
    obtain ⟨_, rfl⟩ : user ∈ s.inFlight ∧ s.tokenFailed user invalid = t := by simpa [step] using h
    simp
  | signedOutByForce user =>
    obtain rfl : s.signOutByForce user = t := by simpa [step] using h
    exact ⟨rfl, rfl⟩
  | signOut => exact hkeeps.elim
  | relaunch =>
    obtain rfl : s.relaunch = t := by simpa [step] using h
    exact ⟨rfl, rfl⟩
  | profileDidLoad =>
    obtain ⟨_, rfl⟩ : 0 < s.transitions ∧ { s with transitions := s.transitions - 1 } = t := by
      simpa [step] using h
    exact ⟨rfl, rfl⟩

theorem step_tokenIssued {user : String} {serial : Nat}
    (h : s.step (.tokenIssued user serial) = some t) :
    t.token = some ⟨user, serial⟩ ∧ t.userID = s.currentUser := by
  obtain ⟨_, rfl⟩ : user ∈ s.inFlight ∧ s.receiveToken user serial = t := by simpa [step] using h
  exact ⟨rfl, rfl⟩

theorem step_signOut (h : s.step .signOut = some t) : t.token = none ∧ t.userID = s.userID := by
  obtain rfl : s.signOut = t := by simpa [step] using h
  exact ⟨rfl, rfl⟩

end Session

end SantaIWish
