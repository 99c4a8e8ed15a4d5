import SantaIWish.Controller.LocalStore
import SantaIWish.Firebase.Service

/-!
# Where the records of the local store are put

Each record has one request. Its path ends in the record's key: the texts of the
child and of the record itself, cut at their slashes.
-/

namespace SantaIWish
open RealtimeDatabase
set_option autoImplicit false

/-- A record of the local store; an item or a letter comes with its child. -/
inductive RecordRef where
  | child (id : ObjectID)
  | item (owner id : ObjectID)
  | letter (owner id : ObjectID)
  deriving DecidableEq

namespace RecordRef

def owner : RecordRef → ObjectID
  | child c => c
  | item c _ => c
  | letter c _ => c

def isPart : RecordRef → Bool
  | child _ => false
  | item _ _ => true
  | letter _ _ => true

def request (uid : String) (s : Store) : RecordRef → Option URLRequest
  | child c => (putChild s c (some uid) false).request
  | item c i => (putItem s c (some uid) i false).request
  | letter c l => (putLetter s c (some uid) l false).request

def In (s : Store) : RecordRef → Prop
  | child c => c ∈ s.children.map Child.objectID
  | item c i => ∃ x ∈ s.items, x.objectID = i ∧ x.child = some c
  | letter c l => ∃ x ∈ s.letters, x.objectID = l ∧ x.child = some c

end RecordRef

/-! ## Where each record is put -/

namespace Store

def childKey (s : Store) (id : ObjectID) : List String :=
  pathSegments (((s.child? id).bind Child.name).getD "")

def itemKey (s : Store) (id : ObjectID) : List String :=
  pathSegments (((s.item? id).bind Item.name).getD "")

def letterKey (s : Store) (id : ObjectID) : List String :=
  pathSegments (((s.letter? id).bind Letter.title).getD "")

theorem childKey_of_representation {s : Store} {id : ObjectID} {rep : ChildRepresentation}
    (h : s.childRepresentation id = some rep) : s.childKey id = pathSegments rep.name := by
  obtain ⟨c, hc, hrep⟩ := Option.bind_eq_some_iff.mp h
  rw [childKey, hc, Option.bind_some, Child.name_of_representation hrep, Option.getD_some]

theorem itemKey_of_representation {s : Store} {id : ObjectID} {rep : ItemRepresentation}
    (h : s.itemRepresentation id = some rep) : s.itemKey id = pathSegments rep.name := by
  obtain ⟨i, hi, hrep⟩ := Option.bind_eq_some_iff.mp h
  rw [itemKey, hi, Option.bind_some, Item.name_of_representation hrep, Option.getD_some]

theorem letterKey_of_representation {s : Store} {id : ObjectID} {rep : LetterRepresentation}
    (h : s.letterRepresentation id = some rep) : s.letterKey id = pathSegments rep.title := by
  obtain ⟨l, hl, hrep⟩ := Option.bind_eq_some_iff.mp h
  rw [letterKey, hl, Option.bind_some, Letter.title_of_representation hrep, Option.getD_some]

namespace WellFormed
variable {s : Store}

theorem childKey_of_mem (h : s.WellFormed) {c : Child} (hc : c ∈ s.children) :
    s.childKey c.objectID = pathSegments (c.name.getD "") := by
  rw [childKey, h.child?_of_mem hc, Option.bind_some]

theorem itemKey_of_mem (h : s.WellFormed) {i : Item} (hi : i ∈ s.items) :
    s.itemKey i.objectID = pathSegments (i.name.getD "") := by
  rw [itemKey, h.item?_of_mem hi, Option.bind_some]

theorem letterKey_of_mem (h : s.WellFormed) {l : Letter} (hl : l ∈ s.letters) :
    s.letterKey l.objectID = pathSegments (l.title.getD "") := by
  rw [letterKey, h.letter?_of_mem hl, Option.bind_some]

end WellFormed

end Store

namespace RecordRef

def partKey (s : Store) : RecordRef → List String
  | child _ => []
  | item _ i => "Items" :: s.itemKey i
  | letter _ l => "LetterToSanta" :: s.letterKey l

/-- The part of a record's path below the node of the children. -/
def key (s : Store) (r : RecordRef) : List String := s.childKey r.owner ++ r.partKey s

/-- A record is put at its key below the children of the account, by a write. -/
theorem request_path {uid : String} {s : Store} {r : RecordRef} {q : URLRequest}
    (h : r.request uid s = some q) :
    q.IsWrite ∧ q.path = (childrenURL uid).pathComponents ++ r.key s := by
  cases r with
  | child c =>
    refine ⟨AddOp.start_isWrite (show (AddOp.start (some uid) s (.addChild c "" 0)).request = some q
      from h), ?_⟩
    rw [request, request_putChild] at h
    obtain ⟨rep, hrep, rfl⟩ := Option.map_eq_some_iff.mp h
    have hkey : key s (child c) = pathSegments rep.name := by
      simp [key, owner, partKey, Store.childKey_of_representation hrep]
    rw [hkey]
    rfl
  | item c i =>
    refine ⟨AddOp.start_isWrite
      (show (AddOp.start (some uid) s (.addItem i c [] "" "")).request = some q from h), ?_⟩
    cases hchild : s.childRepresentation c with
    | none =>
      simp [request, putItem, hchild, sendPut, AsyncCalls.Started.returning,
        AsyncCalls.Started.request] at h
    | some childRep =>
      rw [request, request_putItem uid hchild] at h
      obtain ⟨rep, hrep, rfl⟩ := Option.map_eq_some_iff.mp h
      have hkey : key s (item c i) = pathSegments childRep.name ++ "Items" :: pathSegments rep.name := by
        simp [key, owner, partKey, Store.childKey_of_representation hchild,
          Store.itemKey_of_representation hrep]
      rw [hkey, ← List.append_assoc, ← childURL_path, ← itemURL_path]
      rfl
  | letter c l =>
    refine ⟨AddOp.start_isWrite
      (show (AddOp.start (some uid) s (.addLetter l c "" "")).request = some q from h), ?_⟩
    cases hchild : s.childRepresentation c with
    | none =>
      simp [request, putLetter, hchild, sendPut, AsyncCalls.Started.returning,
        AsyncCalls.Started.request] at h
    | some childRep =>
      rw [request, request_putLetter uid hchild] at h
      obtain ⟨rep, hrep, rfl⟩ := Option.map_eq_some_iff.mp h
      have hkey : key s (letter c l) =
          pathSegments childRep.name ++ "LetterToSanta" :: pathSegments rep.title := by
        simp [key, owner, partKey, Store.childKey_of_representation hchild,
          Store.letterKey_of_representation hrep]
      rw [hkey, ← List.append_assoc, ← childURL_path, ← letterURL_path]
      rfl

theorem owner_mem {s : Store} (hs : s.WellFormed) {r : RecordRef} (hr : r.In s) :
    ∃ c ∈ s.children, c.objectID = r.owner := by
  cases r with
  | child c => exact List.mem_map.mp hr
  | item c i =>
    obtain ⟨x, hx, _, hchild⟩ := hr
    obtain ⟨d, hd, hxd⟩ := (hs.item x hx).2
    exact ⟨d, hd, Option.some.inj (hxd.symm.trans hchild)⟩
  | letter c l =>
    obtain ⟨x, hx, _, hchild⟩ := hr
    obtain ⟨d, hd, hxd⟩ := (hs.letter x hx).2
    exact ⟨d, hd, Option.some.inj (hxd.symm.trans hchild)⟩

theorem owner_childRepresentation {s : Store} (hs : s.WellFormed) {r : RecordRef} (hr : r.In s) :
    ∃ childRep, s.childRepresentation r.owner = some childRep := by
  obtain ⟨c, hc, howner⟩ := owner_mem hs hr
  obtain ⟨childRep, hchild, _⟩ := hs.childRepresentation_eq hc
  exact ⟨childRep, howner ▸ hchild⟩

theorem exists_request (uid : String) {s : Store} (hs : s.WellFormed) {r : RecordRef}
    (hr : r.In s) : ∃ q, r.request uid s = some q := by
  obtain ⟨childRep, hchild⟩ := owner_childRepresentation hs hr
  cases r with
  | child c =>
    dsimp only [owner] at hchild
    exact ⟨_, by rw [request, request_putChild, hchild]; rfl⟩
  | item c i =>
    dsimp only [owner] at hchild
    obtain ⟨x, hx, rfl, _⟩ := hr
    obtain ⟨rep, hrep⟩ := (hs.item x hx).1
    have hitem : s.itemRepresentation x.objectID = some rep := by
      rw [Store.itemRepresentation, hs.item?_of_mem hx]
      exact hrep
    exact ⟨_, by rw [request, request_putItem uid hchild, hitem]; rfl⟩
  | letter c l =>
    dsimp only [owner] at hchild
    obtain ⟨x, hx, rfl, _⟩ := hr
    obtain ⟨rep, hrep⟩ := (hs.letter x hx).1
    have hletter : s.letterRepresentation x.objectID = some rep := by
      rw [Store.letterRepresentation, hs.letter?_of_mem hx]
      exact hrep
    exact ⟨_, by rw [request, request_putLetter uid hchild, hletter]; rfl⟩

end RecordRef

/-! ## The record an add puts -/

namespace AddOp

def record : AddOp → RecordRef
  | addChild id _ _ => .child id
  | addItem id child _ _ _ => .item child id
  | addLetter id child _ _ => .letter child id

theorem start_request (uid : String) (s : Store) (op : AddOp) :
    (op.start (some uid) s).request = op.record.request uid s := by
  cases op <;> rfl

def content : AddOp → Json
  | addChild _ name age => .obj [("name", .str name), ("age", .str (toString age))]
  | addItem _ _ image description name =>
    .obj [("childNote", .str description), ("name", .str name), ("image", encodeData image)]
  | addLetter _ _ note title => .obj [("note", .str note), ("title", .str title)]

theorem record_in {s : Store} {op : AddOp} (h : op.Enabled s) : op.record.In (op.inserted s) := by
  cases op with
  | addChild id name age => simp [record, RecordRef.In, inserted, Child.new]
  | addItem id child image description name =>
    rw [inserted_addItem h.1]
    exact ⟨Item.added id child image description name, by simp, rfl, rfl⟩
  | addLetter id child note title =>
    rw [inserted_addLetter h.1]
    exact ⟨Letter.added id child note title, by simp, rfl, rfl⟩

theorem record_not_in {s : Store} {op : AddOp} (h : op.Enabled s) : ¬ op.record.In s := by
  cases op with
  | addChild id name age => exact h
  | addItem id child image description name =>
    intro hh
    obtain ⟨x, hx, hid, _⟩ := hh
    exact h.1 (List.mem_map.mpr ⟨x, hx, hid⟩)
  | addLetter id child note title =>
    intro hh
    obtain ⟨x, hx, hid, _⟩ := hh
    exact h.1 (List.mem_map.mpr ⟨x, hx, hid⟩)

theorem in_inserted_iff {s : Store} {op : AddOp} (h : op.Enabled s) {r : RecordRef}
    (hr : r ≠ op.record) : r.In (op.inserted s) ↔ r.In s := by
  cases op with
  | addChild id name age =>
    cases r with
    | child c =>
      have hne : c ≠ id := fun he => hr (he ▸ rfl)
      simp [RecordRef.In, inserted, Child.new, hne]
    | item c i => rfl
    | letter c l => rfl
  | addItem id child image description name =>
    rw [inserted_addItem h.1]
    cases r with
    | child c => simp [RecordRef.In]
    | item c i =>
      have hne : id = i → ¬ child = c := by
        rintro rfl rfl
        exact hr rfl
      simpa [RecordRef.In, or_and_right, exists_or, Item.added, Item.new] using
        fun hid hchild => absurd hchild (hne hid)
    | letter c l => rfl
  | addLetter id child note title =>
    rw [inserted_addLetter h.1]
    cases r with
    | child c => simp [RecordRef.In]
    | item c i => rfl
    | letter c l =>
      have hne : id = l → ¬ child = c := by
        rintro rfl rfl
        exact hr rfl
      simpa [RecordRef.In, or_and_right, exists_or, Letter.added, Letter.new] using
        fun hid hchild => absurd hchild (hne hid)

section Inserted
variable {s : Store}

theorem childRepresentation_inserted {id : ObjectID} {name : String} {age : Int}
    (hs : s.WellFormed) (hfresh : id ∉ s.children.map Child.objectID) :
    ((addChild id name age).inserted s).childRepresentation id = some ⟨name, toString age, [], []⟩ := by
  have hmem : Child.new id name (toString age) [] [] ∈ ((addChild id name age).inserted s).children :=
    List.mem_append_right _ List.mem_cons_self
  have hfind := (wellFormed_addChild hs hfresh).child?_of_mem hmem
  have hid : (Child.new id name (toString age) [] []).objectID = id := rfl
  rw [hid] at hfind
  rw [Store.childRepresentation, hfind]
  rfl

theorem itemRepresentation_inserted {id child : ObjectID} {image : Data} {description name : String}
    (hs : s.WellFormed) (h : (addItem id child image description name).Enabled s) :
    ((addItem id child image description name).inserted s).itemRepresentation id =
      some ⟨description, name, image⟩ := by
  have hmem : Item.added id child image description name ∈
      ((addItem id child image description name).inserted s).items := by
    rw [inserted_addItem h.1]
    exact List.mem_append_right _ List.mem_cons_self
  have hfind := (wellFormed_addItem hs h.1 h.2).item?_of_mem hmem
  have hid : (Item.added id child image description name).objectID = id := rfl
  rw [hid] at hfind
  rw [Store.itemRepresentation, hfind]
  rfl

theorem letterRepresentation_inserted {id child : ObjectID} {note title : String}
    (hs : s.WellFormed) (h : (addLetter id child note title).Enabled s) :
    ((addLetter id child note title).inserted s).letterRepresentation id = some ⟨note, title⟩ := by
  have hmem : Letter.added id child note title ∈
      ((addLetter id child note title).inserted s).letters := by
    rw [inserted_addLetter h.1]
    exact List.mem_append_right _ List.mem_cons_self
  have hfind := (wellFormed_addLetter hs h.1 h.2).letter?_of_mem hmem
  have hid : (Letter.added id child note title).objectID = id := rfl
  rw [hid] at hfind
  rw [Store.letterRepresentation, hfind]
  rfl

end Inserted

/-- The request an add sends once its object is inserted: a write of its content at the key of its
record. -/
theorem start_spec (uid : String) {s : Store} {op : AddOp} (hs : s.WellFormed) (h : op.Enabled s) :
    ∃ q, (op.start (some uid) (op.inserted s)).request = some q ∧ q.IsWrite ∧
      q.path = (childrenURL uid).pathComponents ++ op.record.key (op.inserted s) ∧
      q.content = op.content := by
  obtain ⟨q, hq⟩ := RecordRef.exists_request uid (inserted_wellFormed hs h) (record_in h)
  refine ⟨q, (start_request uid _ op).trans hq, (RecordRef.request_path hq).1,
    (RecordRef.request_path hq).2, ?_⟩
  cases op with
  | addChild id name age =>
    rw [record, RecordRef.request, request_putChild, childRepresentation_inserted hs h] at hq
    obtain rfl := Option.some.inj hq
    exact stored_new_child name (toString age)
  | addItem id child image description name =>
    obtain ⟨childRep, hchild⟩ :=
      RecordRef.owner_childRepresentation (inserted_wellFormed hs h) (record_in h)
    dsimp only [record, RecordRef.owner] at hchild
    rw [record, RecordRef.request, request_putItem uid hchild, itemRepresentation_inserted hs h] at hq
    obtain rfl := Option.some.inj hq
    exact stored_item _
  | addLetter id child note title =>
    obtain ⟨childRep, hchild⟩ :=
      RecordRef.owner_childRepresentation (inserted_wellFormed hs h) (record_in h)
    dsimp only [record, RecordRef.owner] at hchild
    rw [record, RecordRef.request, request_putLetter uid hchild, letterRepresentation_inserted hs h]
      at hq
    obtain rfl := Option.some.inj hq
    exact stored_letter _

end AddOp

/-! ## Valid keys -/

/-- Not empty, and without the characters Firebase reserves. -/
def validKey (s : String) : Bool := s ≠ "" && s.toList.all fun c => c ∉ ['.', '$', '#', '[', ']', '/']

structure ChildNamesValid (s : Store) : Prop where
  childName : ∀ c ∈ s.children, validKey (c.name.getD "") = true
  childNames : (s.children.map Child.name).Nodup

/-- All names and titles are valid, and distinct among siblings. -/
structure KeysValid (s : Store) : Prop extends ChildNamesValid s where
  itemName : ∀ i ∈ s.items, validKey (i.name.getD "") = true
  itemNames : ∀ c ∈ s.children, ((s.itemsOf c.objectID).map Item.name).Nodup
  letterTitle : ∀ l ∈ s.letters, validKey (l.title.getD "") = true
  letterTitles : ∀ c ∈ s.children, ((s.lettersOf c.objectID).map Letter.title).Nodup

theorem pathSegments_of_validKey {s : String} (h : validKey s = true) : pathSegments s = [s] := by
  simp only [validKey, Bool.and_eq_true, decide_eq_true_eq, List.all_eq_true] at h
  refine pathSegments_of_no_slash h.1 fun hslash => ?_
  exact h.2 '/' hslash (by simp)

end SantaIWish
