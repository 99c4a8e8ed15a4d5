import SantaIWish.Firebase.Service
import SantaIWish.Library.Replay

/-!
# The family of an account

What the server keeps of an account is a family: children by name, each with its age,
its items by name and its letters by title. Three kinds of update change it, and a PUT
of the app is one of them. A child is there once anything was put under its name, but
only its own PUT gives it an age; and this PUT drops the items and letters put before.
-/

namespace SantaIWish
open RealtimeDatabase
set_option autoImplicit false

structure ChildEntry where
  age : Option String := none
  items : List (String × ItemRepresentation) := []
  letters : List (String × LetterRepresentation) := []
  deriving DecidableEq

abbrev Family : Type := List (String × ChildEntry)

inductive FamilyUpdate where
  | child (name age : String)
  | item (child : String) (item : ItemRepresentation)
  | letter (child : String) (letter : LetterRepresentation)
  deriving DecidableEq

namespace FamilyUpdate

def childName : FamilyUpdate → String
  | child name _ => name
  | item c _ => c
  | letter c _ => c

def update : FamilyUpdate → ChildEntry → ChildEntry
  | child _ age, _ => { age := some age }
  | item _ i, e => { e with items := Fields.upsert i.name i e.items }
  | letter _ l, e => { e with letters := Fields.upsert l.title l e.letters }

/-- Where the update is put below the child's node, and what. -/
def partKey : FamilyUpdate → List String
  | child _ _ => []
  | item _ i => ["Items", i.name]
  | letter _ l => ["LetterToSanta", l.title]

def content : FamilyUpdate → Json
  | child name age => .obj [("name", .str name), ("age", .str age)]
  | item _ i => stored i.encode
  | letter _ l => stored l.encode

theorem content_isNull (u : FamilyUpdate) : u.content.isNull = false := by
  cases u <;> rfl

end FamilyUpdate

namespace Family

def apply (family : Family) (u : FamilyUpdate) : Family :=
  Replay.apply FamilyUpdate.childName FamilyUpdate.update {} family u

def ofLog (log : List FamilyUpdate) : Family :=
  Replay.replay FamilyUpdate.childName FamilyUpdate.update {} log

/-- The names are 0, 1, ..., n-1. -/
def Indexed {A : Type} (entries : List (String × A)) : Prop :=
  ∀ i < entries.length, toString i ∈ entries.map Prod.fst

instance {A : Type} (entries : List (String × A)) : Decidable (Indexed entries) := by
  unfold Indexed
  infer_instance

/-- What fetching the kids makes of a family: the children with their ages alone. -/
def kids (family : Family) : Except DecodingError (List ChildRepresentation) :=
  if family.isEmpty then .error .valueNotFound
  else if Indexed family then .error .typeMismatch
  else family.mapM fun c =>
    match c.2.age with
    | some age => .ok ⟨c.1, age, [], []⟩
    | none => .error (.keyNotFound "name")

/-- What fetching the items of a child makes of a family. -/
def wishlist (family : Family) (child : String) :
    Except NetworkingError (Option (List ItemRepresentation)) :=
  let items := ((family.lookup child).getD {}).items
  if Indexed items then .error .badDecode else .ok (some (items.map Prod.snd))

end Family

/-! ## The nodes of a family -/

/-- The fields of the node of a child that has this entry. -/
structure EntryNode (name : String) (e : ChildEntry) (fs : List (String × Json)) : Prop where
  once : (fs.map Prod.fst).Nodup
  keys : ∀ k ∈ fs.map Prod.fst, k ∈ ["name", "age", "Items", "LetterToSanta"]
  name : fs.lookup "name" = e.age.map fun _ => .str name
  age : fs.lookup "age" = e.age.map fun age => .str age
  items : (fs.lookup "Items").getD .null = node (e.items.map fun i => (i.1, stored i.2.encode))
  letters : (fs.lookup "LetterToSanta").getD .null =
    node (e.letters.map fun l => (l.1, stored l.2.encode))

structure RepresentsChild (c : String × ChildEntry) (f : String × Json) : Prop where
  key : c.1 = f.1
  node : ∃ fs, fs ≠ [] ∧ f.2 = node fs ∧ EntryNode c.1 c.2 fs

def Represents (family : Family) (t : Json) : Prop :=
  ∃ fs, t = node fs ∧ List.Forall₂ RepresentsChild family fs

theorem entryNode_empty (name : String) : EntryNode name {} [] := by
  constructor <;> simp [node]

section Parts
variable {name : String} {e : ChildEntry} {fs : List (String × Json)}

theorem EntryNode.putItem (h : EntryNode name e fs) (item : ItemRepresentation) :
    EntryNode name { e with items := Fields.upsert item.name item e.items }
      (Fields.upsert "Items"
        (replaceAt [item.name] (stored item.encode) ((fs.lookup "Items").getD .null)) fs) := by
  have hnode : replaceAt [item.name] (stored item.encode) ((fs.lookup "Items").getD .null) =
      node ((Fields.upsert item.name item e.items).map fun i => (i.1, stored i.2.encode)) := by
    rw [h.items, replaceAt_node (stored_item_isNull item)]
    exact congrArg node (Fields.upsert_map (fun i => stored (ItemRepresentation.encode i)) _ _ _)
  constructor
  · exact Fields.nodup_keys_upsert _ _ h.once
  · intro k hk
    rcases Fields.mem_keys_upsert.mp hk with rfl | hk
    · simp
    · exact h.keys k hk
  · rw [Fields.lookup_upsert_of_ne (by decide), h.name]
  · rw [Fields.lookup_upsert_of_ne (by decide), h.age]
  · rw [Fields.lookup_upsert_self, Option.getD_some, hnode]
  · rw [Fields.lookup_upsert_of_ne (by decide), h.letters]

theorem EntryNode.putLetter (h : EntryNode name e fs) (letter : LetterRepresentation) :
    EntryNode name { e with letters := Fields.upsert letter.title letter e.letters }
      (Fields.upsert "LetterToSanta"
        (replaceAt [letter.title] (stored letter.encode) ((fs.lookup "LetterToSanta").getD .null))
        fs) := by
  have hnode :
      replaceAt [letter.title] (stored letter.encode) ((fs.lookup "LetterToSanta").getD .null) =
        node ((Fields.upsert letter.title letter e.letters).map fun l => (l.1, stored l.2.encode)) := by
    rw [h.letters, replaceAt_node (stored_letter_isNull letter)]
    exact congrArg node (Fields.upsert_map (fun l => stored (LetterRepresentation.encode l)) _ _ _)
  constructor
  · exact Fields.nodup_keys_upsert _ _ h.once
  · intro k hk
    rcases Fields.mem_keys_upsert.mp hk with rfl | hk
    · simp
    · exact h.keys k hk
  · rw [Fields.lookup_upsert_of_ne (by decide), h.name]
  · rw [Fields.lookup_upsert_of_ne (by decide), h.age]
  · rw [Fields.lookup_upsert_of_ne (by decide), h.items]
  · rw [Fields.lookup_upsert_self, Option.getD_some, hnode]

theorem entryNode_child (name age : String) :
    EntryNode name { age := some age } [("name", .str name), ("age", .str age)] := by
  constructor
  · simp
  · simp
  · rfl
  · rfl
  · rfl
  · rfl

/-- Below the node of its child, every update is a PUT. -/
theorem EntryNode.put (u : FamilyUpdate) (h : EntryNode u.childName e fs) :
    ∃ gs, gs ≠ [] ∧ replaceAt u.partKey u.content (node fs) = node gs ∧
      EntryNode u.childName (u.update e) gs := by
  cases u with
  | child name age => exact ⟨_, List.cons_ne_nil _ _, rfl, entryNode_child name age⟩
  | item child item =>
    exact ⟨_, Fields.upsert_ne_nil _ _ _, replaceAt_node (stored_item_isNull item) _ _ _,
      h.putItem item⟩
  | letter child letter =>
    exact ⟨_, Fields.upsert_ne_nil _ _ _, replaceAt_node (stored_letter_isNull letter) _ _ _,
      h.putLetter letter⟩

end Parts

theorem represents_nil : Represents [] .null := ⟨[], rfl, .nil⟩

/-- The PUT of an update is the update. -/
theorem Represents.put {family : Family} {t : Json} (h : Represents family t) (u : FamilyUpdate) :
    Represents (family.apply u) (replaceAt (u.childName :: u.partKey) u.content t) := by
  obtain ⟨fs, rfl, hall⟩ := h
  refine ⟨_, replaceAt_node u.content_isNull _ _ _, ?_⟩
  apply Fields.forall₂_upsert (fun _ _ hcf => hcf.key) _ hall
  refine ⟨rfl, ?_⟩
  rcases Fields.forall₂_lookup (fun _ _ hcf => hcf.key) hall u.childName with ⟨hc, hf⟩ | ⟨e, j, hc, hf, hcf⟩
  · rw [hc, hf]
    exact (entryNode_empty u.childName).put u
  · obtain ⟨gs, _, rfl, hgs⟩ := hcf.node
    rw [hc, hf]
    exact hgs.put u

/-! ## What the fetches make of the nodes -/

theorem RepresentsChild.decode {c : String × ChildEntry} {f : String × Json}
    (h : RepresentsChild c f) : ChildRepresentation.decoder (rendered f.2) =
      match c.2.age with
      | some age => .ok ⟨c.1, age, [], []⟩
      | none => .error (.keyNotFound "name") := by
  obtain ⟨fs, hne, hnode, hfs⟩ := h.node
  have hkeys : ¬ IndexKeys (fs.map Prod.fst) := by
    apply not_indexKeys (by simpa using hne)
    intro hzero
    exact absurd (hfs.keys "0" hzero) (by decide)
  have hlookup : ∀ k, (fs.map fun f => (f.1, rendered f.2)).lookup k = (fs.lookup k).map rendered :=
    fun k => Fields.lookup_map rendered k fs
  have hnone : ∀ k, k ∉ ["name", "age", "Items", "LetterToSanta"] →
      Json.field k (.obj (fs.map fun f => (f.1, rendered f.2))) = .null := by
    intro k hk
    rw [Json.field, Json.fields_obj, hlookup, Fields.lookup_of_not_mem fun hm => hk (hfs.keys k hm)]
    rfl
  rw [hnode, node_of_ne_nil hne, rendered_of_not_indexKeys hfs.once hkeys]
  cases hage : c.2.age with
  | some age =>
    apply decode_child_of_fields _ _ (hnone "letters" (by decide)) (hnone "items" (by decide))
    · rw [Json.field, Json.fields_obj, hlookup, hfs.name, hage]
      rfl
    · rw [Json.field, Json.fields_obj, hlookup, hfs.age, hage]
      rfl
  | none =>
    have hname : (fs.map fun f => (f.1, rendered f.2)).lookup "name" = none := by
      rw [hlookup, hfs.name, hage]
      rfl
    simp [ChildRepresentation.decoder, Decoder.container, Decoder.forKey, hname, bind, Except.bind]

theorem indexed_iff {A : Type} {entries : List (String × A)} (h : (entries.map Prod.fst).Nodup) :
    Family.Indexed entries ↔ IndexKeys (entries.map Prod.fst) := by
  rw [indexKeys_iff h, List.length_map]
  rfl

/-- Fetching the kids sees the family and nothing else. -/
theorem Represents.decodeKids {family : Family} {t : Json} (h : Represents family t)
    (hnodup : (family.map Prod.fst).Nodup) : decodeKids (.json (rendered t)) = family.kids := by
  obtain ⟨fs, rfl, hall⟩ := h
  have hkeys := Fields.forall₂_keys (fun _ _ hcf => hcf.key) hall
  have hindexed := indexed_iff hnodup
  rw [hkeys] at hindexed hnodup
  unfold Family.kids
  cases hall with
  | nil => rfl
  | @cons c f family fs hcf hrest =>
    rw [node, List.isEmpty_cons, if_neg Bool.false_ne_true]
    by_cases hindex : Family.Indexed (c :: family)
    · obtain ⟨xs, hxs⟩ := rendered_indexKeys hnodup (hindexed.mp hindex)
      rw [if_pos hindex, hxs]
      rfl
    · rw [if_neg hindex, rendered_of_not_indexKeys hnodup fun hi => hindex (hindexed.mpr hi),
        decodeKids_obj]
      apply Decoder.mapM_congr
      rw [List.forall₂_map_left_iff]
      exact (List.Forall₂.cons hcf hrest).flip.imp fun _ _ hcf => hcf.decode

theorem Represents.letters {family : Family} {t : Json} (h : Represents family t) (child : String) :
    (t.field child).field "LetterToSanta" =
      node (((family.lookup child).getD {}).letters.map fun l => (l.1, stored l.2.encode)) := by
  obtain ⟨fs, rfl, hall⟩ := h
  rw [field_node]
  rcases Fields.forall₂_lookup (fun _ _ hcf => hcf.key) hall child with ⟨hc, hf⟩ | ⟨e, j, hc, hf, hcf⟩
  · rw [hc, hf]
    rfl
  · obtain ⟨gs, _, hj, hgs⟩ := hcf.node
    dsimp only at hj
    rw [hc, hf, Option.getD_some, Option.getD_some, hj, field_node, hgs.letters]

/-- Fetching the items of a child sees its wish list and nothing else. -/
theorem Represents.decodeItems {family : Family} {t : Json} (h : Represents family t) (child : String)
    (hnodup : (((family.lookup child).getD {}).items.map Prod.fst).Nodup) :
    itemsReceived (.json (rendered ((t.field child).field "Items"))) = family.wishlist child := by
  obtain ⟨fs, rfl, hall⟩ := h
  have hitems : ((node fs).field child).field "Items" =
      node (((family.lookup child).getD {}).items.map fun i => (i.1, stored i.2.encode)) := by
    rw [field_node]
    rcases Fields.forall₂_lookup (fun _ _ hcf => hcf.key) hall child with ⟨hc, hf⟩ | ⟨e, j, hc, hf, hcf⟩
    · rw [hc, hf]
      rfl
    · obtain ⟨gs, _, hj, hgs⟩ := hcf.node
      dsimp only at hj
      rw [hc, hf, Option.getD_some, Option.getD_some, hj, field_node, hgs.items]
  rw [hitems]
  unfold Family.wishlist
  generalize ((family.lookup child).getD {}).items = items at hnodup ⊢
  have hkeys : (items.map fun i => (i.1, stored i.2.encode)).map Prod.fst = items.map Prod.fst := by
    rw [List.map_map]
    rfl
  by_cases hindex : Family.Indexed items
  · rw [if_pos hindex]
    cases items with
    | nil => rfl
    | cons i items =>
      obtain ⟨xs, hxs⟩ := rendered_indexKeys (hkeys ▸ hnodup) (hkeys ▸ (indexed_iff hnodup).mp hindex)
      rw [List.map_cons] at hxs ⊢
      rw [node, hxs]
      rfl
  · have hne : items ≠ [] := by
      rintro rfl
      exact hindex fun i hi => absurd hi (Nat.not_lt_zero i)
    have hdecode : SantaIWish.decodeItems (.json (.obj
        ((items.map fun i => (i.1, stored i.2.encode)).map fun f => (f.1, rendered f.2)))) =
        .ok (items.map Prod.snd) := by
      rw [decodeItems_obj, Decoder.mapM_ok_iff, List.forall₂_map_left_iff, List.forall₂_map_left_iff,
        List.forall₂_map_right_iff, List.forall₂_same]
      exact fun i _ => decode_encode_item i.2
    rw [if_neg hindex, node_of_ne_nil (by simpa using hne),
      rendered_of_not_indexKeys (hkeys ▸ hnodup)
        (hkeys ▸ fun hi => hindex ((indexed_iff hnodup).mpr hi)), itemsReceived, hdecode]

end SantaIWish
