import SantaIWish.Controller.Records

/-!
# Reading a wish list back

`putItem` and `fetchItemsFromServer` meet at the `Items` node of the child. What
stands there is the last item put under each name. The fetch decodes objects
only: it fails when the node is absent, and when its keys are 0, 1, ..., n-1,
because the server answers such a node as an array.
-/

namespace SantaIWish
open RealtimeDatabase
set_option autoImplicit false

/-- A call of `putItem` for the child, which bears the name, over the graph at the time of the call. -/
structure PutItemCall (child : ObjectID) (name : String) where
  store : LocalStore
  item : Item
  named : ∃ c ∈ store.graph.children, c.objectID = child ∧ c.name = some name
  stored : item ∈ store.graph.items
  validName : validKey (item.name.getD "") = true

section Calls
variable {child : ObjectID} {name : String}

def PutItemCall.request (uid : String) (call : PutItemCall child name) : Option URLRequest :=
  (putItem call.store.graph child (some uid) call.item.objectID false).request

def putItems (uid : String) (calls : List (PutItemCall child name)) (t : Json) : Json :=
  deliver (calls.filterMap (PutItemCall.request uid)) t

def itemsPut (calls : List (PutItemCall child name)) : List ItemRepresentation :=
  calls.filterMap fun call => call.item.itemRepresentation

end Calls

/-- What the completion of the fetch is called with when the server answers. -/
def fetchItems (uid : String) (s : Store) (child : ObjectID) (t : Json) :
    List (Except NetworkingError (Option (List ItemRepresentation))) :=
  match (fetchItemsFromServer s child (some uid)).task with
  | some (request, handler) => handler (request.answer t)
  | none => []

/-- One success, with the last item put under each name, in some order. -/
def ItemsReadBack (uid : String) (s : Store) (child : ObjectID) (t : Json)
    (puts : List ItemRepresentation) : Prop :=
  ∃ items, fetchItems uid s child t = [.ok (some items)] ∧
    items.Perm (Fields.lastPerKey ItemRepresentation.name puts)

/-! ## One call -/

theorem childRepresentation_named {s : LocalStore} {child : ObjectID} {name : String}
    (h : ∃ c ∈ s.graph.children, c.objectID = child ∧ c.name = some name) :
    ∃ rep, s.graph.childRepresentation child = some rep ∧ rep.name = name := by
  obtain ⟨c, hc, rfl, hname⟩ := h
  obtain ⟨rep, hrep, hrepName, _⟩ := s.wellFormed.childRepresentation_eq hc
  exact ⟨rep, hrep, Option.some.inj (hrepName.symm.trans hname)⟩

theorem itemURL_path_of_validKey (uid name : String) {item : String} (h : validKey item = true) :
    (itemURL uid name item).pathComponents = (itemsURL uid name).pathComponents ++ [item] := by
  rw [itemURL, URL.pathComponents_appendingPathComponent, pathSegments_of_validKey h]

theorem PutItemCall.spec (uid : String) {child : ObjectID} {name : String}
    (call : PutItemCall child name) : ∃ rep q, call.item.itemRepresentation = some rep ∧
      call.request uid = some q ∧
      q.Puts (itemsURL uid name).pathComponents (rep.name, RealtimeDatabase.stored rep.encode) := by
  obtain ⟨rep, hrep⟩ := (call.store.wellFormed.item call.item call.stored).1
  obtain ⟨childRep, hchild, hname⟩ := childRepresentation_named call.named
  have hitem : call.store.graph.itemRepresentation call.item.objectID = some rep := by
    rw [Store.itemRepresentation, call.store.wellFormed.item?_of_mem call.stored]
    exact hrep
  have hvalid : validKey rep.name = true := by
    have hvalid := call.validName
    rw [Item.name_of_representation hrep] at hvalid
    exact hvalid
  refine ⟨rep, _, hrep, by rw [request, request_putItem uid hchild, hitem, Option.map_some], ?_⟩
  rw [hname]
  refine ⟨⟨rfl, ?_⟩, itemURL_path_of_validKey uid name hvalid, rfl⟩
  rw [URLRequest.content, URLRequest.put, Option.getD_some, stored_item]
  rfl

/-! ## The node of the items -/

def ItemRepresentation.entry (rep : ItemRepresentation) : String × Json :=
  (rep.name, RealtimeDatabase.stored rep.encode)

theorem puts_of_calls (uid : String) {child : ObjectID} {name : String}
    (calls : List (PutItemCall child name)) :
    List.Forall₂ (URLRequest.Puts (itemsURL uid name).pathComponents)
      (calls.filterMap (PutItemCall.request uid)) ((itemsPut calls).map ItemRepresentation.entry) := by
  induction calls with
  | nil => exact .nil
  | cons call calls ih =>
    obtain ⟨rep, q, hrep, hq, hputs⟩ := call.spec uid
    have hcons : itemsPut (call :: calls) = rep :: itemsPut calls := List.filterMap_cons_some hrep
    rw [hcons, List.filterMap_cons_some hq]
    exact .cons hputs ih

theorem itemsNode_of_calls {uid : String} {child : ObjectID} {name : String} {t : Json}
    (hempty : t.get (itemsURL uid name).pathComponents = node [])
    (calls : List (PutItemCall child name)) : ∃ fs : List (String × Json),
      (putItems uid calls t).get (itemsURL uid name).pathComponents = node fs ∧
      fs.Perm ((Fields.lastPerKey ItemRepresentation.name (itemsPut calls)).map
        ItemRepresentation.entry) := by
  refine ⟨_, get_deliver (puts_of_calls uid calls) hempty, ?_⟩
  have hlast : Fields.lastPerKey Prod.fst ((itemsPut calls).map ItemRepresentation.entry) =
      (Fields.lastPerKey ItemRepresentation.name (itemsPut calls)).map ItemRepresentation.entry :=
    Fields.lastPerKey_map (fun _ => rfl) _
  rw [← hlast]
  exact Fields.foldl_upsert_perm _

/-! ## What the fetch makes of it -/

/-- An item has no index keys, so it is answered as the object that was put. -/
theorem rendered_item (rep : ItemRepresentation) :
    rendered (RealtimeDatabase.stored rep.encode) = rep.encode := rfl

theorem decodeItems_entries (reps : List ItemRepresentation) :
    decodeItems (.json (.obj ((reps.map ItemRepresentation.entry).map fun f => (f.1, rendered f.2)))) =
      .ok reps := by
  rw [decodeItems_obj, Decoder.mapM_ok_iff, List.forall₂_map_left_iff, List.forall₂_map_left_iff,
    List.forall₂_same]
  intro rep _
  rw [ItemRepresentation.entry, rendered_item, decode_encode_item]

theorem fetchItems_eq {uid : String} {s : LocalStore} {child : ObjectID} {name : String}
    (hnamed : ∃ c ∈ s.graph.children, c.objectID = child ∧ c.name = some name) (t : Json) :
    fetchItems uid s.graph child t =
      [itemsReceived (.json (RealtimeDatabase.get (itemsURL uid name).pathComponents t))] := by
  obtain ⟨rep, hrep, rfl⟩ := childRepresentation_named hnamed
  simp only [fetchItems, fetchItemsFromServer, hrep]
  rfl

/-- The fetch reads back exactly the item names that are not 0, 1, ..., n-1 for some n; in particular
it does not read back the empty wish list. -/
theorem itemsReadBack_iff (uid : String) (child : ObjectID) (name : String) (t : Json)
    (hempty : t.get (itemsURL uid name).pathComponents = .null)
    (calls : List (PutItemCall child name)) (s : LocalStore)
    (hnamed : ∃ c ∈ s.graph.children, c.objectID = child ∧ c.name = some name) :
    ItemsReadBack uid s.graph child (putItems uid calls t) (itemsPut calls) ↔
      ¬ IndexKeys ((itemsPut calls).map ItemRepresentation.name) := by
  obtain ⟨fs, hnode, hperm⟩ := itemsNode_of_calls hempty calls
  have hkeysPerm : (fs.map Prod.fst).Perm
      ((Fields.lastPerKey ItemRepresentation.name (itemsPut calls)).map ItemRepresentation.name) := by
    have h := hperm.map Prod.fst
    rwa [List.map_map] at h
  have hnodup : (fs.map Prod.fst).Nodup := hkeysPerm.nodup_iff.mpr (Fields.nodup_lastPerKey _)
  have hkeys : IndexKeys (fs.map Prod.fst) ↔
      IndexKeys ((itemsPut calls).map ItemRepresentation.name) := by
    refine indexKeys_congr fun k => ?_
    rw [hkeysPerm.mem_iff, Fields.mem_keys_lastPerKey]
  rw [← hkeys, ItemsReadBack, fetchItems_eq hnamed, RealtimeDatabase.get, hnode]
  constructor
  · intro hh hindex
    obtain ⟨items, hitems, _⟩ := hh
    cases fs with
    | nil => cases hitems
    | cons f fs =>
      obtain ⟨xs, hxs⟩ := rendered_indexKeys hnodup hindex
      rw [node, hxs] at hitems
      cases hitems
  · intro hindex
    have hne : fs ≠ [] := by
      rintro rfl
      exact hindex ⟨0, fun k => by simp⟩
    -- the entries are those of some arrangement of the items
    obtain ⟨items, hitemsPerm, rfl⟩ := Fields.exists_map_eq_of_perm hperm
    refine ⟨items, ?_, hitemsPerm⟩
    rw [node_of_ne_nil hne, rendered_of_not_indexKeys hnodup hindex, itemsReceived,
      decodeItems_entries]

theorem train_read_back : ∃ (s : LocalStore) (calls : List (PutItemCall 0 "Ann")),
    itemsPut calls = [⟨"red", "Train", [1]⟩, ⟨"small", "Doll", []⟩, ⟨"blue", "Train", [2]⟩] ∧
      ItemsReadBack "uid" s.graph 0 (putItems "uid" calls .null) (itemsPut calls) := by
  let ops : List AddOp := [.addChild 0 "Ann" 7, .addItem 0 0 [1] "red" "Train",
    .addItem 1 0 [] "small" "Doll", .addItem 2 0 [2] "blue" "Train"]
  obtain ⟨s, hs⟩ : ∃ s, Runs.run LocalStore.add .empty ops = some s := ⟨_, rfl⟩
  have hnamed : ∃ c ∈ s.graph.children, c.objectID = 0 ∧ c.name = some "Ann" := by
    obtain rfl := Option.some.inj hs
    exact ⟨_, List.mem_cons_self, rfl, rfl⟩
  have hitem : ∀ i ∈ [Item.added 0 0 [1] "red" "Train", Item.added 1 0 [] "small" "Doll",
      Item.added 2 0 [2] "blue" "Train"], i ∈ s.graph.items := by
    obtain rfl := Option.some.inj hs
    exact fun i hi => hi
  let calls : List (PutItemCall 0 "Ann") :=
    [⟨s, _, hnamed, hitem (Item.added 0 0 [1] "red" "Train") (by simp), by decide⟩,
      ⟨s, _, hnamed, hitem (Item.added 1 0 [] "small" "Doll") (by simp), by decide⟩,
      ⟨s, _, hnamed, hitem (Item.added 2 0 [2] "blue" "Train") (by simp), by decide⟩]
  have hputs : itemsPut calls = [⟨"red", "Train", [1]⟩, ⟨"small", "Doll", []⟩, ⟨"blue", "Train", [2]⟩] :=
    rfl
  refine ⟨s, calls, hputs, (itemsReadBack_iff "uid" 0 "Ann" .null rfl calls s hnamed).mpr ?_⟩
  rw [hputs]
  exact not_indexKeys (by decide) (by decide)

/-- The empty wish list is not read back. -/
theorem empty_wishlist_not_read_back :
    ¬ ∀ (uid : String) (child : ObjectID) (name : String) (t : Json)
      (calls : List (PutItemCall child name)) (s : LocalStore),
      t.get (itemsURL uid name).pathComponents = .null →
      (∃ c ∈ s.graph.children, c.objectID = child ∧ c.name = some name) →
      ItemsReadBack uid s.graph child (putItems uid calls t) (itemsPut calls) := by
  intro h
  obtain ⟨s, hs⟩ : ∃ s, Runs.run LocalStore.add .empty [.addChild 0 "Ann" 7] = some s := ⟨_, rfl⟩
  obtain ⟨items, hitems, _⟩ := h "uid" 0 "Ann" .null [] s rfl (by
    obtain rfl := Option.some.inj hs
    exact ⟨_, List.mem_cons_self, rfl, rfl⟩)
  obtain rfl := Option.some.inj hs
  cases hitems

end SantaIWish
