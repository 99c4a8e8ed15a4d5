import SantaIWish.Foundation.Base64Url
import SantaIWish.Foundation.Json

/-!
# ID tokens

The text of an ID token has three parts between dots. The second one is the JSON text of the
claims, in Base64 for URLs. `getIDToken` hands on a token only if its claims can be read.
-/

namespace SantaIWish
set_option autoImplicit false

inductive IDTokenError where
  | malformedJWT
  /-- A message that an object of another class does not understand: an exception. -/
  | unrecognizedSelector
  deriving DecidableEq, Repr

/-- The dates are those of the numbers of seconds, zero for none. -/
structure AuthTokenResult where
  token : String
  expirationDate : Option Scalar
  authDate : Option Scalar
  issuedAtDate : Option Scalar
  signInProvider : Option Json
  claims : Json

/-- `object[key]`, `nil` for `nil`. -/
def subscript (key : String) : Option Json → Except IDTokenError (Option Json)
  | none => .ok none
  | some (.obj fields) => .ok (fields.lookup key)
  | some _ => .error .unrecognizedSelector

/-- What `doubleValue` is sent to: a number, a string or `nil`. -/
def doubleValue : Option Json → Except IDTokenError (Option Scalar)
  | none => .ok none
  | some (.scalar v) => .ok (some v)
  | some _ => .error .unrecognizedSelector

section Parse
-- `NSJSONSerialization`, with fragments allowed
variable (jsonObject : List UInt8 → Option Json)

def tokenResult (token : String) (claims : Json) : Except IDTokenError AuthTokenResult := do
  let exp ← doubleValue (← subscript "exp" (some claims))
  let authTime ← doubleValue (← subscript "auth_time" (some claims))
  let iat ← doubleValue (← subscript "iat" (some claims))
  let signInProvider ← subscript "sign_in_provider" (← subscript "firebase" (some claims))
  return ⟨token, exp, authTime, iat, signInProvider, claims⟩

def parseIDToken (token : String) : Except IDTokenError AuthTokenResult :=
  match token.toList.splitOn '.' with
  | [_, idToken, _] =>
    match Base64.decodeIgnoringUnknown (Base64.pad 3 (Base64.fromUrl idToken)) with
    | none => .error .malformedJWT
    | some data =>
      match jsonObject data with
      | none => .error .malformedJWT
      | some claims => tokenResult token claims
  | _ => .error .malformedJWT

/-- The token of a header, of claims and of a signature, each as bytes. -/
def jwt (header claims signature : List UInt8) : String :=
  String.ofList (Base64.encodeUrl header ++
    '.' :: (Base64.encodeUrl claims ++ '.' :: Base64.encodeUrl signature))

theorem splitOn_jwt (header claims signature : List UInt8) : (jwt header claims signature).toList.splitOn '.' =
    [Base64.encodeUrl header, Base64.encodeUrl claims, Base64.encodeUrl signature] := by
  rw [jwt, String.toList_ofList,
    List.splitOn_append_cons_self_of_not_mem (Base64.dot_not_mem_encodeUrl header),
    List.splitOn_append_cons_self_of_not_mem (Base64.dot_not_mem_encodeUrl claims),
    List.splitOn_eq_singleton (Base64.dot_not_mem_encodeUrl signature)]

/-- A token is read as the bytes that were put into it, whatever their length. -/
theorem parseIDToken_jwt (header claims signature : List UInt8) :
    parseIDToken jsonObject (jwt header claims signature) =
      (jsonObject claims).elim (.error .malformedJWT) (tokenResult (jwt header claims signature)) := by
  simp only [parseIDToken, splitOn_jwt, Base64.decode_encodeUrl]
  cases jsonObject claims <;> rfl

end Parse

end SantaIWish
