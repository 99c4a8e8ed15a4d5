import SantaIWish.Firebase.Keychain
import SantaIWish.Firebase.TokenService

/-!
# The current user of Firebase Auth

`FIRAuth` has a current user in memory and its archive in the keychain. A user is an object: it
refreshes its tokens in place, also when another one has become current, and an archive of it is
read into a new object by the next process. All of it runs on one queue.
-/

namespace SantaIWish
set_option autoImplicit false

inductive AuthErrorCode where
  | userNotFound
  | userDisabled
  | invalidUserToken
  | userTokenExpired
  | keychainError (function : SecItemFunction)
  | other (code : Int)
  deriving DecidableEq, Repr

/-- The error codes by which a user is signed out. -/
def AuthErrorCode.tokenIsInvalid : AuthErrorCode → Bool
  | userNotFound | userDisabled | invalidUserToken | userTokenExpired => true
  | _ => false

structure User where
  uid : Option String := none
  tokenService : SecureTokenService
  deriving DecidableEq

structure SecureTokenServiceArchive where
  refreshToken : Option String
  accessToken : Option String
  accessTokenExpirationDate : Option Nat
  deriving DecidableEq

structure UserArchive where
  userID : Option String
  tokenService : SecureTokenServiceArchive
  deriving DecidableEq

/-- The authorization code is not encoded. -/
def SecureTokenService.encodeWithCoder (s : SecureTokenService) : SecureTokenServiceArchive :=
  ⟨s.refreshToken, s.accessToken, s.accessTokenExpirationDate⟩

def SecureTokenService.initWithCoder (a : SecureTokenServiceArchive) : Option SecureTokenService :=
  a.refreshToken.map fun refreshToken =>
    { accessToken := a.accessToken
      accessTokenExpirationDate := a.accessTokenExpirationDate
      refreshToken := some refreshToken }

def User.encodeWithCoder (u : User) : UserArchive := ⟨u.uid, u.tokenService.encodeWithCoder⟩

def User.initWithCoder (a : UserArchive) : Option User :=
  a.userID.bind fun userID =>
    (SecureTokenService.initWithCoder a.tokenService).map fun tokenService =>
      { uid := some userID, tokenService := tokenService }

/-- What the listeners of `FIRAuthStateDidChangeInternalNotification` are told. -/
structure AuthNotification where
  token : Option String
  uid : Option String
  deriving DecidableEq

structure Auth where
  keychain : KeychainServices UserArchive
  /-- The user objects of the process. -/
  users : List User := []
  /-- The users that are being retrieved for a sign-in. -/
  retrieving : List Nat := []
  currentUser : Option Nat := none
  lastNotifiedUserToken : Option String := none
  notifications : List AuthNotification := []

inductive AuthStep where
  /-- A response with tokens, to a login or to a sign-up. -/
  | retrieveUser (accessToken : Option String) (accessTokenExpirationDate : Option Nat)
      (refreshToken : Option String)
  /-- The answer to `getAccountInfo`, with the user id. -/
  | accountInfoReceived (n : Nat) (localID : Except AuthErrorCode (Option String))
      (fails : List SecItemCall)
  /-- The answer to the request of the token service of a user. -/
  | tokenReceived (n now : Nat) (answer : Except AuthErrorCode SecureTokenResponse) (shared : Bool)
      (fails : List SecItemCall)
  | signOut (fails : List SecItemCall)
  /-- A new process. -/
  | launch (fails : List SecItemCall)

namespace Auth

def user (s : Auth) : Option User := s.currentUser.bind fun n => s.users[n]?

def getUserID (s : Auth) : Option String := s.user.bind User.uid

def rawAccessToken (s : Auth) : Option String := s.user.bind fun u => u.tokenService.accessToken

def possiblyPostAuthStateChangeNotification (s : Auth) : Auth :=
  if s.lastNotifiedUserToken = s.rawAccessToken then s
  else
    { s with
      lastNotifiedUserToken := s.rawAccessToken
      notifications :=
        s.notifications ++ [⟨s.rawAccessToken.filter fun token => token ≠ "", s.getUserID⟩] }

def saveUser (s : Auth) (user : Option Nat) (fails : List SecItemCall) : Except AuthErrorCode Auth :=
  let saved :=
    match user.bind fun n => s.users[n]? with
    | none => s.keychain.removeData fails
    | some u => s.keychain.setData fails u.encodeWithCoder
  match saved with
  | .error function => .error (.keychainError function)
  | .ok keychain => .ok { s with keychain := keychain }

/-- A forced update takes place whether or not it could be saved. -/
def updateCurrentUser (s : Auth) (user : Option Nat) (force savingToDisk : Bool)
    (fails : List SecItemCall) : Auth × Except AuthErrorCode Unit :=
  if user = s.currentUser then (s.possiblyPostAuthStateChangeNotification, .ok ())
  else
    match if savingToDisk then s.saveUser user fails else .ok s with
    | .ok s => (possiblyPostAuthStateChangeNotification { s with currentUser := user }, .ok ())
    | .error error =>
      if force then (possiblyPostAuthStateChangeNotification { s with currentUser := user }, .error error)
      else (s, .error error)

/-- It is no error that a user is no longer current. -/
def updateKeychainWithUser (s : Auth) (n : Nat) (fails : List SecItemCall) :
    Auth × Except AuthErrorCode Unit :=
  if s.currentUser ≠ some n then (s, .ok ())
  else
    match s.saveUser (some n) fails with
    | .ok s => (s.possiblyPostAuthStateChangeNotification, .ok ())
    | .error error => (s, .error error)

def signOut (s : Auth) (fails : List SecItemCall) : Auth × Except AuthErrorCode Unit :=
  match s.currentUser with
  | none => (s, .ok ())
  | some _ => s.updateCurrentUser none false true fails

/-- The user ids are compared as objects: two users may have equal ids, and those be one object
if the runtime has `shared` them. -/
def hasUserID (s : Auth) (n : Nat) (shared : Bool) : Prop :=
  s.currentUser = some n ∨
    s.getUserID = s.users[n]?.bind User.uid ∧ (shared = true ∨ s.getUserID = none)

instance (s : Auth) (n : Nat) (shared : Bool) : Decidable (s.hasUserID n shared) := by
  unfold hasUserID
  infer_instance

def signOutByForceWithUserID (s : Auth) (n : Nat) (shared : Bool) (fails : List SecItemCall) :
    Auth × Except AuthErrorCode Unit :=
  if ¬ s.hasUserID n shared then (s, .ok ()) else s.updateCurrentUser none true true fails

def signOutIfTokenIsInvalidWithError (s : Auth) (n : Nat) (shared : Bool) (fails : List SecItemCall)
    (error : AuthErrorCode) : Auth :=
  if error.tokenIsInvalid then (s.signOutByForceWithUserID n shared fails).1 else s

/-- The callback of the token service in `internalGetTokenForcingRefresh`, and what it hands on. -/
def tokenReceived (s : Auth) (n now : Nat) (u : User) (answer : Except AuthErrorCode SecureTokenResponse)
    (shared : Bool) (fails : List SecItemCall) : Auth × Except AuthErrorCode String :=
  match answer with
  | .error error =>
    -- the end of a retrieval, if it was one
    let s := { s with retrieving := s.retrieving.erase n }
    (s.signOutIfTokenIsInvalidWithError n shared fails error, .error error)
  | .ok response =>
    let (tokenService, tokenUpdated) := u.tokenService.receive now (.ok response)
    let s := { s with users := s.users.set n { u with tokenService := tokenService } }
    if tokenUpdated then
      let (s, saved) := s.updateKeychainWithUser n fails
      (s, saved.map fun _ => response.accessToken)
    else (s, .ok response.accessToken)

/-- The account info of a user that was retrieved, and the callback that makes it the current one. -/
def accountInfoReceived (s : Auth) (n : Nat) (u : User) (localID : Except AuthErrorCode (Option String))
    (fails : List SecItemCall) : Auth × Except AuthErrorCode (Option String) :=
  let s := { s with retrieving := s.retrieving.erase n }
  match localID with
  | .error error => (s, .error error)
  | .ok localID =>
    let s := { s with users := s.users.set n { u with uid := localID } }
    let (s, updated) := s.updateCurrentUser (some n) false true fails
    (s, updated.map fun _ => localID)

def getUser (s : Auth) (fails : List SecItemCall) : Except AuthErrorCode (Option User × Auth) :=
  match s.keychain.dataForKey fails with
  | .error function => .error (.keychainError function)
  | .ok (data, keychain) => .ok (data.bind User.initWithCoder, { s with keychain := keychain })

/-- `initWithAPIKey`, on the keychain that the last process has left. -/
def launch (keychain : KeychainServices UserArchive) (fails : List SecItemCall) : Auth :=
  let s : Auth := { keychain := keychain.restarted }
  match s.getUser fails with
  | .error _ => s
  | .ok (none, s) => (s.updateCurrentUser none false false fails).1
  | .ok (some u, s) =>
    let s := ({ s with users := [u] }.updateCurrentUser (some 0) false false fails).1
    { s with lastNotifiedUserToken := u.tokenService.accessToken }

def step (s : Auth) : AuthStep → Option Auth
  | .retrieveUser accessToken accessTokenExpirationDate refreshToken =>
    some { s with
      users := s.users ++ [{ tokenService := {
        accessToken := accessToken
        accessTokenExpirationDate := accessTokenExpirationDate
        refreshToken := refreshToken } }]
      retrieving := s.retrieving ++ [s.users.length] }
  | .accountInfoReceived n localID fails =>
    if n ∈ s.retrieving then
      s.users[n]?.map fun u => (s.accountInfoReceived n u localID fails).1
    else none
  | .tokenReceived n now answer shared fails =>
    s.users[n]?.map fun u => (s.tokenReceived n now u answer shared fails).1
  | .signOut fails => some (s.signOut fails).1
  | .launch fails => some (launch s.keychain fails)

end Auth

end SantaIWish
