import SantaIWish.Library.SerialQueue

/-!
# The token service of Firebase Auth

`getIDToken` asks `FIRSecureTokenService` for an access token. Each call is a task of a
serial queue: it hands out the cached token if that is good for another five minutes, and
asks the server for a new one otherwise. The queue is resumed before the callback is run.
-/

namespace SantaIWish
set_option autoImplicit false

/-- A response of the server that could be read: its access token is not empty. -/
structure SecureTokenResponse where
  accessToken : String
  refreshToken : Option String
  /-- In seconds. -/
  expiresIn : Nat
  accessToken_ne : accessToken ≠ ""

inductive SecureTokenRequest where
  | refreshRequest (refreshToken : String)
  | authCodeRequest (code : Option String)
  deriving DecidableEq

structure SecureTokenService where
  authorizationCode : Option String := none
  accessToken : Option String := none
  accessTokenExpirationDate : Option Nat := none
  refreshToken : Option String := none
  deriving DecidableEq

def kFiveMinutes : Nat := 5 * 60

namespace SecureTokenService

def hasValidAccessToken (s : SecureTokenService) (now : Nat) : Bool :=
  s.accessToken.isSome && s.accessTokenExpirationDate.any fun date => now + kFiveMinutes < date

/-- Without a refresh token the authorization code is exchanged. -/
def request (s : SecureTokenService) : SecureTokenRequest :=
  match s.refreshToken with
  | some refreshToken =>
    if refreshToken = "" then .authCodeRequest s.authorizationCode else .refreshRequest refreshToken
  | none => .authCodeRequest s.authorizationCode

/-- A token that is the same as before leaves its expiration date as it was, too. -/
def receiveAccessToken (s : SecureTokenService) (now : Nat) (response : SecureTokenResponse) :
    SecureTokenService × Bool :=
  if s.accessToken = some response.accessToken then (s, false)
  else
    ({ s with
      accessToken := some response.accessToken
      accessTokenExpirationDate := some (now + response.expiresIn) }, true)

def receiveRefreshToken (s : SecureTokenService) (response : SecureTokenResponse) :
    SecureTokenService × Bool :=
  match response.refreshToken with
  | some refreshToken =>
    if refreshToken = "" ∨ s.refreshToken = some refreshToken then (s, false)
    else ({ s with refreshToken := some refreshToken }, true)
  | none => (s, false)

/-- The service afterwards, and whether a token was updated. -/
def receive (s : SecureTokenService) (now : Nat) : Except String SecureTokenResponse →
    SecureTokenService × Bool
  | .error _ => (s, false)
  | .ok response =>
    let (s, accessUpdated) := s.receiveAccessToken now response
    let (s, refreshUpdated) := s.receiveRefreshToken response
    (s, accessUpdated || refreshUpdated)

end SecureTokenService

/-- A call of `fetchAccessTokenForcingRefresh`. -/
structure Fetch where
  caller : Nat
  forceRefresh : Bool
  deriving DecidableEq

/-- The arguments of the callback. -/
structure FetchCallback where
  fetch : Fetch
  token : Option String
  error : Option String
  tokenUpdated : Bool
  deriving DecidableEq

structure TokenFetches where
  service : SecureTokenService
  now : Nat := 0
  queue : SerialQueue Fetch := {}
  /-- The requests of the tasks under way. -/
  requests : List SecureTokenRequest := []
  callbacks : List FetchCallback := []

inductive TokenStep where
  | fetchAccessToken (fetch : Fetch)
  | runTask
  | responded (n : Nat) (answer : Except String SecureTokenResponse)
  | wait (seconds : Nat)

namespace TokenFetches

def answered (fetch : Fetch) (tokenUpdated : Bool) : Except String SecureTokenResponse → FetchCallback
  | .error error => ⟨fetch, none, some error, tokenUpdated⟩
  | .ok response => ⟨fetch, some response.accessToken, none, tokenUpdated⟩

/-- The block of a task, up to its callback or to its request. -/
def start (s : TokenFetches) (queue : SerialQueue Fetch) (fetch : Fetch) : Option TokenFetches :=
  if fetch.forceRefresh = false ∧ s.service.hasValidAccessToken s.now = true then
    (queue.step (.complete (queue.running.length - 1))).map fun queue =>
      { s with
        queue := queue
        callbacks := s.callbacks ++ [⟨fetch, s.service.accessToken, none, false⟩] }
  else some { s with queue := queue, requests := s.requests ++ [s.service.request] }

def respond (s : TokenFetches) (n : Nat) (fetch : Fetch) (queue : SerialQueue Fetch)
    (answer : Except String SecureTokenResponse) : TokenFetches :=
  let (service, tokenUpdated) := s.service.receive s.now answer
  { s with
    service := service
    queue := queue
    requests := s.requests.eraseIdx n
    callbacks := s.callbacks ++ [answered fetch tokenUpdated answer] }

def step (s : TokenFetches) : TokenStep → Option TokenFetches
  | .fetchAccessToken fetch =>
    (s.queue.step (.enqueue fetch)).map fun queue => { s with queue := queue }
  | .runTask =>
    (s.queue.step .start).bind fun queue => queue.running.getLast?.bind fun fetch => s.start queue fetch
  | .responded n answer =>
    s.queue.running[n]?.bind fun fetch =>
      (s.queue.step (.complete n)).map fun queue => s.respond n fetch queue answer
  | .wait seconds => some { s with now := s.now + seconds }

end TokenFetches

end SantaIWish
