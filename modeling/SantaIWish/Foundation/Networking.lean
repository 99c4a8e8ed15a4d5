import SantaIWish.Foundation.Json
import SantaIWish.Library.AsyncCalls

/-!
# URLs, requests and the answers of data tasks

`appendingPathComponent` appends the non-empty segments between the slashes of
its argument. The endpoint of a database node is the node's path with the
extension `json`.
-/

namespace SantaIWish
set_option autoImplicit false

structure NSError where
  domain : String
  code : Int
  deriving DecidableEq, Repr

/-- The error of Objective-C's bare `NSError()`. -/
def NSError.bare : NSError := ⟨"", 0⟩

inductive NetworkingError where
  | noData
  | serverError (error : NSError)
  | unexpectedStatusCode (code : Int)
  | badDecode
  | badEncoding
  | notPutInFB
  | noRepresentation
  deriving DecidableEq, Repr

inductive HTTPMethod where
  | get
  | put
  | post
  | delete
  deriving DecidableEq, Repr

def HTTPMethod.rawValue : HTTPMethod → String
  | get => "GET"
  | put => "PUT"
  | post => "POST"
  | delete => "DELETE"

structure URL where
  pathComponents : List String
  pathExtension : Option String
  deriving DecidableEq, Repr

/-- The non-empty segments between the slashes of a text. -/
def pathSegments (s : String) : List String :=
  ((s.toList.splitOn '/').filter fun cs => cs ≠ []).map String.ofList

namespace URL

def appendingPathComponent (u : URL) (s : String) : URL :=
  { u with pathComponents := u.pathComponents ++ pathSegments s }

def appendingPathExtension (u : URL) (ext : String) : URL := { u with pathExtension := some ext }

@[simp] theorem pathComponents_appendingPathComponent (u : URL) (s : String) :
    (u.appendingPathComponent s).pathComponents = u.pathComponents ++ pathSegments s := rfl

@[simp] theorem pathComponents_appendingPathExtension (u : URL) (ext : String) :
    (u.appendingPathExtension ext).pathComponents = u.pathComponents := rfl

end URL

structure URLRequest where
  url : URL
  httpMethod : String
  httpBody : Option Json

/-- `URLRequest(url:)`, a GET without a body. -/
def URLRequest.get (url : URL) : URLRequest := ⟨url, HTTPMethod.get.rawValue, none⟩

def URLRequest.put (url : URL) (body : Json) : URLRequest :=
  ⟨url, HTTPMethod.put.rawValue, some body⟩

/-- The body of an answer: JSON text, or bytes that are none. -/
inductive Payload where
  | json (j : Json)
  | malformed

/-- What a data task passes to its completion handler. -/
structure TaskResult where
  data : Option Payload
  statusCode : Option Int
  error : Option NSError

/-- The server answered the request with a 2xx status. -/
def TaskResult.Accepted (r : TaskResult) : Prop :=
  ∃ code, r.statusCode = some code ∧ 200 ≤ code ∧ code < 300

/-- `JSONDecoder().decode` -/
def Decoder.decode {α : Type} (value : Decoder α) : Payload → Except DecodingError α
  | .json j => value j
  | .malformed => .error .dataCorrupted

/-- `JSONEncoder().encode`, with whether it throws as an outcome. -/
def jsonEncode (throws : Bool) (j : Json) : Option Json := if throws then none else some j

/-- A text that is one key: not empty and without a slash. -/
theorem pathSegments_of_no_slash {s : String} (hne : s ≠ "") (hslash : '/' ∉ s.toList) :
    pathSegments s = [s] := by
  have hsplit : s.toList.splitOn '/' = [s.toList] := List.splitOn_eq_singleton hslash
  have htoList : s.toList ≠ [] := fun h => hne (String.toList_injective h)
  simp [pathSegments, hsplit, htoList]

@[simp] theorem pathSegments_empty : pathSegments "" = [] := by decide

end SantaIWish
