import SantaIWish.Controller.Adds
import SantaIWish.Firebase.RealtimeDatabase

/-!
# Serving the requests of the app

A PUT request writes its body at the path of its URL. Every request an add issues
is such a write, of a body of which something is kept, so that serving it is a
write of `PathWrites` on the tree of leaves.
-/

namespace SantaIWish
open RealtimeDatabase PathWrites
set_option autoImplicit false

namespace URLRequest

def serve (q : URLRequest) (t : Json) : Json :=
  if q.httpMethod = HTTPMethod.put.rawValue then
    RealtimeDatabase.put q.url.pathComponents (q.httpBody.getD .null) t
  else t

/-- The answer to a GET that reaches the server. -/
def answer (q : URLRequest) (t : Json) : TaskResult :=
  { data := some (.json (RealtimeDatabase.get q.url.pathComponents t)), statusCode := some 200, error := none }

def path (q : URLRequest) : List String := q.url.pathComponents

def content (q : URLRequest) : Json := stored (q.httpBody.getD .null)

/-- A PUT of which something is kept. -/
def IsWrite (q : URLRequest) : Prop :=
  q.httpMethod = HTTPMethod.put.rawValue ∧ q.content.isNull = false

theorem IsWrite.serve_eq {q : URLRequest} (hq : q.IsWrite) (t : Json) :
    q.serve t = replaceAt q.path q.content t := by
  rw [serve, if_pos hq.1]
  rfl

theorem IsWrite.leaves_serve {q : URLRequest} (hq : q.IsWrite) (t : Json) :
    leaves (q.serve t) = write q.path (leaves q.content) (leaves t) := by
  rw [serve, if_pos hq.1]
  exact leaves_put hq.2 _ t

end URLRequest

def deliver (requests : List URLRequest) (t : Json) : Json :=
  requests.foldl (fun t q => q.serve t) t

/-- The request puts the entry into the node at `base`. -/
structure URLRequest.Puts (base : List String) (q : URLRequest) (entry : String × Json) : Prop where
  isWrite : q.IsWrite
  path : q.path = base ++ [entry.1]
  content : q.content = entry.2

/-- Requests that put entries into one node, one after another, upsert them there. -/
theorem get_deliver {base : List String} {requests : List URLRequest} {entries : List (String × Json)}
    (h : List.Forall₂ (URLRequest.Puts base) requests entries) {t : Json} {fs : List (String × Json)}
    (ht : t.get base = node fs) : (deliver requests t).get base =
      node (entries.foldl (fun fs e => Fields.upsert e.1 e.2 fs) fs) := by
  induction h generalizing t fs with
  | nil => exact ht
  | @cons q e requests entries hq _ ih =>
    have hserved : (q.serve t).get base = node (Fields.upsert e.1 e.2 fs) := by
      rw [hq.isWrite.serve_eq, hq.path, get_replaceAt_append, ht, replaceAt, replaceAt,
        setField_of_isNull hq.isWrite.2, fields_node, hq.content]
      exact (node_of_ne_nil (Fields.upsert_ne_nil e.1 e.2 fs)).symm
    exact ih hserved

/-! ## What is kept of the representations -/

theorem stored_letter (l : LetterRepresentation) :
    stored l.encode = .obj [("note", .str l.note), ("title", .str l.title)] := rfl

theorem stored_item (i : ItemRepresentation) : stored i.encode =
    .obj [("childNote", .str i.childNote), ("name", .str i.name), ("image", encodeData i.image)] := rfl

/-- Of a child without letters and items only the two texts are kept. -/
theorem stored_new_child (name age : String) :
    stored (ChildRepresentation.encode ⟨name, age, [], []⟩) =
      .obj [("name", .str name), ("age", .str age)] := rfl

theorem stored_letter_isNull (l : LetterRepresentation) : (stored l.encode).isNull = false := rfl

theorem stored_item_isNull (i : ItemRepresentation) : (stored i.encode).isNull = false := rfl

theorem stored_child_isNull (c : ChildRepresentation) : (stored c.encode).isNull = false := rfl

/-! ## The requests of the adds -/

theorem sendPut_isWrite {guarded : Option (URL × Json)} {throws : Bool}
    {answered : List (Option NetworkingError)} {q : URLRequest}
    (hkept : ∀ url j, guarded = some (url, j) → (stored j).isNull = false)
    (hq : (sendPut guarded throws answered).request = some q) : q.IsWrite := by
  cases guarded with
  | none => simp [sendPut, AsyncCalls.Started.returning, AsyncCalls.Started.request] at hq
  | some g =>
    cases throws with
    | true =>
      simp [sendPut, jsonEncode, AsyncCalls.Started.returning, AsyncCalls.Started.request] at hq
    | false =>
      rw [request_sendPut, Option.map_some, Option.some.injEq] at hq
      subst q
      exact ⟨rfl, hkept g.1 g.2 rfl⟩

/-- Whatever an add sends is a write. -/
theorem AddOp.start_isWrite {op : AddOp} {uid : Option String} {s : Store} {q : URLRequest}
    (hq : (op.start uid s).request = some q) : q.IsWrite := by
  cases op with
  | addChild id name age =>
    refine sendPut_isWrite (fun url j hj => ?_) hq
    cases uid <;> cases hchild : s.childRepresentation id <;> simp [hchild] at hj
    obtain ⟨_, rfl⟩ := hj
    exact stored_child_isNull _
  | addItem id child image description name =>
    refine sendPut_isWrite (fun url j hj => ?_) hq
    cases uid <;> cases hchild : s.childRepresentation child <;>
      cases hitem : s.itemRepresentation id <;> simp [hchild, hitem] at hj
    obtain ⟨_, rfl⟩ := hj
    exact stored_item_isNull _
  | addLetter id child note title =>
    refine sendPut_isWrite (fun url j hj => ?_) hq
    cases uid <;> cases hchild : s.childRepresentation child <;>
      cases hletter : s.letterRepresentation id <;> simp [hchild, hletter] at hj
    obtain ⟨_, rfl⟩ := hj
    exact stored_letter_isNull _

end SantaIWish
