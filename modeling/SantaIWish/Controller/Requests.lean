import SantaIWish.Foundation.Networking
import SantaIWish.Models.ManagedObjects

/-!
# The requests of `SantaIWishController`

Each function is a call of `AsyncCalls`: the completions it invokes before it
returns, and the data task it resumes with the handler of its answer. `throws`
says whether the `try` on the encoder throws.
-/

namespace SantaIWish
open AsyncCalls (Started)
set_option autoImplicit false

def baseURL : URL := ⟨[], none⟩

def accountURL (id : String) : URL :=
  (baseURL.appendingPathComponent "ParentAccount").appendingPathComponent id

def childrenURL (id : String) : URL := (accountURL id).appendingPathComponent "children"

def childURL (id name : String) : URL := (childrenURL id).appendingPathComponent name

def itemsURL (id name : String) : URL := (childURL id name).appendingPathComponent "Items"

def itemURL (id name item : String) : URL := (itemsURL id name).appendingPathComponent item

def letterURL (id name title : String) : URL :=
  ((childURL id name).appendingPathComponent "LetterToSanta").appendingPathComponent title

/-! ## PUT -/

/-- Success is reported as soon as the body is encoded, before the request is sent. -/
def put (parentRepresentation : ParentRepresentation) (id : String) (throws : Bool) :
    Started URLRequest TaskResult (Except NetworkingError (Option ParentRepresentation)) :=
  let requestURL := (accountURL id).appendingPathExtension "json"
  match jsonEncode throws parentRepresentation.encode with
  | none => .returning [.error .badEncoding]
  | some body =>
    { completions := [.ok (some parentRepresentation)]
      task := some (.put requestURL body, fun result =>
        match result.error with
        | some _ => [.error .notPutInFB]
        | none => []) }

/-- The shape `putChild`, `putItem` and `putLetter` share: guards that return without a word, a body
that may fail to encode, and a task whose handler reports a transport error or, where there is
none, invokes `answered`. -/
def sendPut (guarded : Option (URL × Json)) (throws : Bool)
    (answered : List (Option NetworkingError)) :
    Started URLRequest TaskResult (Option NetworkingError) :=
  match guarded with
  | none => .returning []
  | some (url, representation) =>
    let requestURL := url.appendingPathExtension "json"
    match jsonEncode throws representation with
    | none => .returning [some .badEncoding]
    | some body => .resuming (.put requestURL body) fun result =>
      match result.error with
      | some error => [some (.serverError error)]
      | none => answered

/-- The handler of `putChild` says nothing when there is no error. -/
def putChild (s : Store) (child : ObjectID) (id : Option String) (throws : Bool) :
    Started URLRequest TaskResult (Option NetworkingError) :=
  let guarded := do
    let id ← id
    let childRep ← s.childRepresentation child
    return (childURL id childRep.name, childRep.encode)
  sendPut guarded throws []

def putItem (s : Store) (child : ObjectID) (id : Option String) (item : ObjectID) (throws : Bool) :
    Started URLRequest TaskResult (Option NetworkingError) :=
  let guarded := do
    let id ← id
    let childRep ← s.childRepresentation child
    let itemRep ← s.itemRepresentation item
    return (itemURL id childRep.name itemRep.name, itemRep.encode)
  sendPut guarded throws [none]

def putLetter (s : Store) (child : ObjectID) (id : Option String) (letter : ObjectID)
    (throws : Bool) : Started URLRequest TaskResult (Option NetworkingError) :=
  let guarded := do
    let id ← id
    let childRep ← s.childRepresentation child
    let letterRep ← s.letterRepresentation letter
    return (letterURL id childRep.name letterRep.title, letterRep.encode)
  sendPut guarded throws [none]

/-- The completion is called next to the request, not in its handler: the closure passed to
`putLetter` only logs or saves. -/
def addLetterToChild (s : Store) (child : ObjectID) (id : Option String) (letter : ObjectID)
    (throws : Bool) : Started URLRequest TaskResult (Option NSError) :=
  { completions := [none]
    task := (putLetter s child id letter throws).task.map fun t => (t.1, fun _ => []) }

/-! ## GET -/

def decodeKids (data : Payload) : Except DecodingError (List ChildRepresentation) :=
  ((Decoder.dictionary ChildRepresentation.decoder).decode data).map fun d => d.map Prod.snd

def decodeItems (data : Payload) : Except DecodingError (List ItemRepresentation) :=
  ((Decoder.dictionary ItemRepresentation.decoder).decode data).map fun d => d.map Prod.snd

/-- `NSCoderReadCorruptError` and `NSCoderValueNotFoundError`. -/
def DecodingError.nsError : DecodingError → NSError
  | .typeMismatch => ⟨"NSCocoaErrorDomain", 4864⟩
  | .dataCorrupted => ⟨"NSCocoaErrorDomain", 4864⟩
  | .valueNotFound => ⟨"NSCocoaErrorDomain", 4865⟩
  | .keyNotFound _ => ⟨"NSCocoaErrorDomain", 4865⟩

/-- The shape the two fetches share: a guard that returns without a word, then one completion for
each way the task can be answered. The status code is not looked at. -/
def sendGet {C : Type} (guarded : Option URL) (failed : NSError → C) (noData : C)
    (received : Payload → C) : Started URLRequest TaskResult C :=
  match guarded with
  | none => .returning []
  | some url => .resuming (.get (url.appendingPathExtension "json")) fun result =>
    match result.error, result.data with
    | some error, _ => [failed error]
    | none, none => [noData]
    | none, some data => [received data]

def kidsReceived (data : Payload) : Option NSError :=
  match decodeKids data with
  | .ok _ => none
  | .error error => some error.nsError

def itemsReceived (data : Payload) :
    Except NetworkingError (Option (List ItemRepresentation)) :=
  match decodeItems data with
  | .ok items => .ok (some items)
  | .error _ => .error .badDecode

def fetchKidsFromServer (storedUserID : Option String) :
    Started URLRequest TaskResult (Option NSError) :=
  sendGet (storedUserID.map childrenURL) some (some .bare) kidsReceived

def fetchItemsFromServer (s : Store) (child : ObjectID) (currentUser : Option String) :
    Started URLRequest TaskResult (Except NetworkingError (Option (List ItemRepresentation))) :=
  let guarded := do
    let userID ← currentUser
    let childRep ← s.childRepresentation child
    return itemsURL userID childRep.name
  sendGet guarded (fun error => .error (.serverError error)) (.error .noData) itemsReceived

theorem decodeKids_obj (fs : List (String × Json)) :
    decodeKids (.json (.obj fs)) = fs.mapM fun f => ChildRepresentation.decoder f.2 :=
  Decoder.dictionary_values ChildRepresentation.decoder fs

theorem decodeItems_obj (fs : List (String × Json)) :
    decodeItems (.json (.obj fs)) = fs.mapM fun f => ItemRepresentation.decoder f.2 :=
  Decoder.dictionary_values ItemRepresentation.decoder fs

/-! ## Paths -/

theorem accountURL_path (id : String) :
    (accountURL id).pathComponents = "ParentAccount" :: pathSegments id := by
  have h : pathSegments "ParentAccount" = ["ParentAccount"] := by decide
  simp [accountURL, baseURL, h]

theorem childrenURL_path (id : String) :
    (childrenURL id).pathComponents = "ParentAccount" :: (pathSegments id ++ ["children"]) := by
  have h : pathSegments "children" = ["children"] := by decide
  simp [childrenURL, accountURL_path, h]

theorem childURL_path (id name : String) :
    (childURL id name).pathComponents = (childrenURL id).pathComponents ++ pathSegments name := rfl

theorem itemURL_path (id name item : String) : (itemURL id name item).pathComponents =
    (childURL id name).pathComponents ++ "Items" :: pathSegments item := by
  have h : pathSegments "Items" = ["Items"] := by decide
  simp [itemURL, itemsURL, h]

theorem letterURL_path (id name title : String) : (letterURL id name title).pathComponents =
    (childURL id name).pathComponents ++ "LetterToSanta" :: pathSegments title := by
  have h : pathSegments "LetterToSanta" = ["LetterToSanta"] := by decide
  simp [letterURL, h]

/-! ## Issued requests -/

theorem request_sendPut (guarded : Option (URL × Json)) (answered : List (Option NetworkingError)) :
    (sendPut guarded false answered).request =
      guarded.map fun g => .put (g.1.appendingPathExtension "json") g.2 := by
  cases guarded <;> rfl

theorem sendPut_not_dropped {guarded : Option (URL × Json)} (h : guarded.isSome = true)
    (throws : Bool) (answered : List (Option NetworkingError)) :
    ¬ (sendPut guarded throws answered).Dropped := by
  obtain ⟨g, rfl⟩ := Option.isSome_iff_exists.mp h
  intro hdropped
  cases throws with
  | true => cases hdropped.1
  | false => cases hdropped.2

theorem sendGet_not_dropped {C : Type} {guarded : Option URL} (h : guarded.isSome = true)
    (failed : NSError → C) (noData : C) (received : Payload → C) :
    ¬ (sendGet guarded failed noData received).Dropped := by
  obtain ⟨url, rfl⟩ := Option.isSome_iff_exists.mp h
  intro hdropped
  cases hdropped.2

theorem request_putChild (s : Store) (child : ObjectID) (id : String) :
    (putChild s child (some id) false).request = (s.childRepresentation child).map fun childRep =>
      .put ((childURL id childRep.name).appendingPathExtension "json") childRep.encode := by
  rw [putChild, request_sendPut]
  cases s.childRepresentation child <;> rfl

theorem request_putItem {s : Store} {child item : ObjectID} {childRep : ChildRepresentation}
    (id : String) (hchild : s.childRepresentation child = some childRep) :
    (putItem s child (some id) item false).request = (s.itemRepresentation item).map fun itemRep =>
      .put ((itemURL id childRep.name itemRep.name).appendingPathExtension "json") itemRep.encode := by
  rw [putItem, request_sendPut, hchild]
  cases s.itemRepresentation item <;> rfl

theorem request_putLetter {s : Store} {child letter : ObjectID} {childRep : ChildRepresentation}
    (id : String) (hchild : s.childRepresentation child = some childRep) :
    (putLetter s child (some id) letter false).request =
      (s.letterRepresentation letter).map fun letterRep =>
        .put ((letterURL id childRep.name letterRep.title).appendingPathExtension "json")
          letterRep.encode := by
  rw [putLetter, request_sendPut, hchild]
  cases s.letterRepresentation letter <;> rfl

end SantaIWish
