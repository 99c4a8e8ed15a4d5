import Mathlib.Data.List.Nodup
import SantaIWish.Controller.Records
import SantaIWish.RoundTrip

/-!
# Reading the children back from the server

The requests are applied as they are issued. Whatever was added, the node of an
account's children then holds one node for each child, with its two texts. The
items and letters lie below it under `Items` and `LetterToSanta`, where the
decoder of a child does not look; and no children at all read as `null`.
-/

namespace SantaIWish
open RealtimeDatabase
set_option autoImplicit false

structure Mirror where
  store : LocalStore
  remote : Json

namespace Mirror

def step (uid : String) (s : Mirror) (op : AddOp) : Option Mirror :=
  (s.store.add op).map fun store =>
    { store := store
      remote := match (op.start (some uid) store.graph).request with
        | some q => q.serve s.remote
        | none => s.remote }

def childrenNode (uid : String) (s : Mirror) : Json := s.remote.get (childrenURL uid).pathComponents

end Mirror

/-- `fetchKidsFromServer` decodes what is at the node of the children. -/
def fetchKids (uid : String) (s : Mirror) : Except DecodingError (List ChildRepresentation) :=
  decodeKids (.json (s.childrenNode uid))

/-- The kids that are read are the local children, in some order, each with its letters and items. -/
def ReadsBack (uid : String) (s : Mirror) : Prop :=
  ∃ kids order, fetchKids uid s = .ok kids ∧ order.Perm kids ∧
    List.Forall₂ (fun (c : Child) (kid : ChildRepresentation) =>
      ∃ rep, s.store.graph.childRepresentation c.objectID = some rep ∧ kid.Same rep)
      s.store.graph.children order

/-! ## The node of a child -/

/-- A field of the children node that holds the two texts of a child and nothing its decoder reads. -/
structure ChildNode (c : Child) (f : String × Json) : Prop where
  key : c.name = some f.1
  name : f.2.field "name" = .str f.1
  age : ∃ age, c.age = some age ∧ f.2.field "age" = .str age
  letters : f.2.field "letters" = .null
  items : f.2.field "items" = .null

/-- What the reader makes of a child: its texts alone. -/
def Child.bareRepresentation (c : Child) : ChildRepresentation := ⟨c.name.getD "", c.age.getD "", [], []⟩

theorem ChildNode.decode {c : Child} {f : String × Json} (h : ChildNode c f) :
    ChildRepresentation.decoder f.2 = .ok c.bareRepresentation := by
  obtain ⟨age, hage, hfield⟩ := h.age
  rw [decode_child_of_fields h.name hfield h.letters h.items, Child.bareRepresentation, h.key, hage]
  rfl

def Mirrored (children : List Child) (t : Json) : Prop :=
  ∃ fs, t = node fs ∧ List.Forall₂ ChildNode children fs

theorem names_of_childNodes {children : List Child} {fs : List (String × Json)}
    (h : List.Forall₂ ChildNode children fs) :
    children.map Child.name = (fs.map Prod.fst).map some := by
  induction h with
  | nil => rfl
  | cons hf _ ih => rw [List.map_cons, List.map_cons, List.map_cons, hf.key, ih]

theorem Mirrored.decodeKids {children : List Child} {t : Json} (h : Mirrored children t)
    (hne : children ≠ []) :
    decodeKids (.json t) = .ok (children.map Child.bareRepresentation) := by
  obtain ⟨fs, rfl, hall⟩ := h
  have hfs : fs ≠ [] := by
    rintro rfl
    exact hne (List.forall₂_nil_right_iff.mp hall)
  have hread : fs.mapM (fun f => (ChildRepresentation.decoder f.2).map fun v => (f.1, v)) =
      .ok (children.map fun c => (c.name.getD "", c.bareRepresentation)) := by
    rw [Decoder.mapM_ok_iff, List.forall₂_map_right_iff]
    refine hall.flip.imp fun f c hf => ?_
    rw [hf.decode, hf.key]
    rfl
  rw [node_of_ne_nil hfs, SantaIWish.decodeKids, Decoder.decode, Decoder.dictionary, hread]
  simp only [Except.map, List.map_map]
  rfl

theorem Mirrored.addChild {children : List Child} {t : Json} (h : Mirrored children t)
    {id : ObjectID} {name age : String} (hnew : some name ∉ children.map Child.name) :
    Mirrored (children ++ [Child.new id name age [] []])
      (replaceAt [name] (.obj [("name", .str name), ("age", .str age)]) t) := by
  obtain ⟨fs, rfl, hall⟩ := h
  refine ⟨fs ++ [(name, .obj [("name", .str name), ("age", .str age)])], ?_, ?_⟩
  · have hkey : name ∉ fs.map Prod.fst := by
      rw [names_of_childNodes hall] at hnew
      exact fun hm => hnew (List.mem_map_of_mem hm)
    rw [replaceAt, replaceAt, setField_of_isNull rfl, fields_node, Fields.upsert_of_not_mem _ hkey,
      node_of_ne_nil (List.append_ne_nil_of_right_ne_nil fs (List.cons_ne_nil _ _))]
  · exact List.rel_append hall (.cons ⟨rfl, rfl, ⟨age, rfl, rfl⟩, rfl, rfl⟩ .nil)

/-- A write below a child at a key its decoder does not read changes nothing the decoder sees. -/
theorem ChildNode.part {c : Child} {f : String × Json} (h : ChildNode c f) {tag : String}
    (htag : tag ∉ ["name", "age", "letters", "items"]) (path : List String) (v : Json) :
    ChildNode c (f.1, replaceAt (tag :: path) v f.2) := by
  have hkept : ∀ k ∈ ["name", "age", "letters", "items"],
      (replaceAt (tag :: path) v f.2).field k = f.2.field k := by
    intro k hk
    have hne : k ≠ tag := by
      rintro rfl
      exact htag hk
    exact field_setField_of_ne hne _ _
  obtain ⟨age, hage, hfield⟩ := h.age
  exact ⟨h.key, (hkept _ (by simp)).trans h.name, ⟨age, hage, (hkept _ (by simp)).trans hfield⟩,
    (hkept _ (by simp)).trans h.letters, (hkept _ (by simp)).trans h.items⟩

theorem Mirrored.part {children : List Child} {t : Json} (h : Mirrored children t)
    (hnodup : (children.map Child.name).Nodup) {name : String}
    (hname : some name ∈ children.map Child.name) {tag : String}
    (htag : tag ∉ ["name", "age", "letters", "items"]) (path : List String) {v : Json}
    (hv : v.isNull = false) : Mirrored children (replaceAt (name :: tag :: path) v t) := by
  obtain ⟨fs, rfl, hall⟩ := h
  rw [names_of_childNodes hall] at hnodup hname
  have hkey : name ∈ fs.map Prod.fst := by simpa using hname
  have hfs : fs ≠ [] := by
    rintro rfl
    cases hkey
  -- only the field of the child itself is rewritten, and it stays where it is
  refine ⟨fs.map fun f => if f.1 = name then (f.1, replaceAt (tag :: path) v f.2) else f, ?_, ?_⟩
  · have hupsert := Fields.upsert_lookup_of_nodup
      (fun j : Option Json => replaceAt (tag :: path) v (j.getD .null)) hkey
      (List.Nodup.of_map some hnodup)
    rw [replaceAt, setField_of_isNull (replaceAt_isNull hv _ _), fields_node, field_node, hupsert,
      node_of_ne_nil fun h => hfs (List.map_eq_nil_iff.mp h)]
    rfl
  · rw [List.forall₂_map_right_iff]
    refine hall.imp fun c f hf => ?_
    split
    · exact hf.part htag path v
    · exact hf

/-- The texts of the children are all the mirror depends on. -/
theorem Mirrored.congr {children : List Child} {t : Json} (h : Mirrored children t) {g : Child → Child}
    (hname : ∀ c, (g c).name = c.name) (hage : ∀ c, (g c).age = c.age) :
    Mirrored (children.map g) t := by
  obtain ⟨fs, rfl, hall⟩ := h
  refine ⟨fs, rfl, ?_⟩
  rw [List.forall₂_map_left_iff]
  refine hall.imp fun c f hf => ⟨(hname c).trans hf.key, hf.name, ?_, hf.letters, hf.items⟩
  rw [hage c]
  exact hf.age

/-! ## Runs -/

theorem ChildNamesValid.of_inserted {s : Store} {op : AddOp} (henabled : op.Enabled s)
    (h : ChildNamesValid (op.inserted s)) : ChildNamesValid s := by
  cases op with
  | addChild id name age =>
    refine ⟨fun c hc => h.childName c (List.mem_append_left _ hc), ?_⟩
    have hnames := h.childNames
    rw [AddOp.inserted_addChild, List.map_append] at hnames
    exact (List.nodup_append.mp hnames).1
  | addItem id child image description name =>
    rw [AddOp.inserted_addItem henabled.1] at h
    refine ⟨fun c hc => ?_, ?_⟩
    · simpa using h.childName _ (List.mem_map_of_mem hc)
    · simpa [Function.comp_def] using h.childNames
  | addLetter id child note title =>
    rw [AddOp.inserted_addLetter henabled.1] at h
    refine ⟨fun c hc => ?_, ?_⟩
    · simpa using h.childName _ (List.mem_map_of_mem hc)
    · simpa [Function.comp_def] using h.childNames

namespace Mirror

theorem step_eq_some {uid : String} {s t : Mirror} {op : AddOp} (h : step uid s op = some t) :
    s.store.add op = some t.store ∧ op.Enabled s.store.graph ∧
      t.store.graph = op.inserted s.store.graph ∧
      t.childrenNode uid =
        replaceAt (op.record.key t.store.graph) op.content (s.childrenNode uid) := by
  obtain ⟨store, hstore, rfl⟩ := Option.map_eq_some_iff.mp h
  obtain ⟨henabled, hgraph⟩ := LocalStore.add_eq_some.mp hstore
  obtain ⟨q, hq, hwrite, hpath, hcontent⟩ := AddOp.start_spec uid s.store.wellFormed henabled
  refine ⟨hstore, henabled, hgraph, ?_⟩
  simp only [childrenNode, hgraph, hq]
  rw [hwrite.serve_eq, hpath, hcontent, get_replaceAt_append]

end Mirror

/-- One add keeps the mirror, as long as the names of the children are valid. -/
theorem Mirrored.add {s : Store} {t : Json} (hs : s.WellFormed) (h : Mirrored s.children t)
    {op : AddOp} (henabled : op.Enabled s) (hvalid : ChildNamesValid (op.inserted s)) :
    Mirrored (op.inserted s).children (replaceAt (op.record.key (op.inserted s)) op.content t) := by
  have ht := AddOp.inserted_wellFormed hs henabled
  obtain ⟨c, hc, howner⟩ := RecordRef.owner_mem ht (AddOp.record_in henabled)
  obtain ⟨name, _, hname, _⟩ := ht.attributes c hc
  have hkey : (op.inserted s).childKey op.record.owner = [name] := by
    have hvalidName := hvalid.childName c hc
    rw [← howner, ht.childKey_of_mem hc, hname]
    rw [hname] at hvalidName
    exact pathSegments_of_validKey hvalidName
  rw [RecordRef.key, hkey]
  have hbefore := hvalid.of_inserted henabled
  cases op with
  | addChild id name' age =>
    obtain rfl : name' = name := by
      have hid : c = Child.new id name' (toString age) [] [] :=
        Fields.eq_of_key_eq ht.childIDs hc (List.mem_append_right _ List.mem_cons_self) howner
      rw [hid] at hname
      exact Option.some.inj hname
    apply h.addChild
    have hnames := hvalid.childNames
    rw [AddOp.inserted_addChild, List.map_append] at hnames
    exact fun hm => (List.disjoint_of_nodup_append hnames) hm List.mem_cons_self
  | addItem id child image description itemName =>
    have hmem : some name ∈ s.children.map Child.name := by
      rw [← hname]
      rw [AddOp.inserted_addItem henabled.1] at hc
      obtain ⟨d, hd, rfl⟩ := List.mem_map.mp hc
      simpa using ⟨d, hd, rfl⟩
    rw [AddOp.inserted_addItem henabled.1]
    exact (h.part hbefore.childNames hmem (by decide) _ rfl).congr
      (Child.withItem_name child id) (Child.withItem_age child id)
  | addLetter id child note title =>
    have hmem : some name ∈ s.children.map Child.name := by
      rw [← hname]
      rw [AddOp.inserted_addLetter henabled.1] at hc
      obtain ⟨d, hd, rfl⟩ := List.mem_map.mp hc
      simpa using ⟨d, hd, rfl⟩
    rw [AddOp.inserted_addLetter henabled.1]
    exact (h.part hbefore.childNames hmem (by decide) _ rfl).congr
      (Child.withLetter_name child id) (Child.withLetter_age child id)

theorem mirrored_of_run {uid : String} {remote : Json}
    (hempty : remote.get (childrenURL uid).pathComponents = .null) {ops : List AddOp} {s : Mirror}
    (hrun : Runs.run (Mirror.step uid) ⟨.empty, remote⟩ ops = some s)
    (hvalid : ChildNamesValid s.store.graph) :
    Mirrored s.store.graph.children (s.childrenNode uid) := by
  refine Runs.run_invariant (I := fun s : Mirror => ChildNamesValid s.store.graph →
    Mirrored s.store.graph.children (s.childrenNode uid)) ?_ ?_ hrun hvalid
  · exact fun _ => ⟨[], hempty, .nil⟩
  · intro s op t hs hstep ht
    obtain ⟨_, henabled, hgraph, hnode⟩ := Mirror.step_eq_some hstep
    rw [hgraph] at ht
    rw [hnode, hgraph]
    exact (hs (ht.of_inserted henabled)).add s.store.wellFormed henabled ht

def AddOp.isAddChild : AddOp → Bool
  | addChild _ _ _ => true
  | addItem _ _ _ _ _ => false
  | addLetter _ _ _ _ => false

/-- There is a child once anything was added, and a part once anything but a child was. -/
theorem empty_iff_of_run {uid : String} {remote : Json} {ops : List AddOp} {s : Mirror}
    (hrun : Runs.run (Mirror.step uid) ⟨.empty, remote⟩ ops = some s) :
    (s.store.graph.children = [] ↔ ops = []) ∧
      (s.store.graph.items = [] ∧ s.store.graph.letters = [] ↔
        ∀ op ∈ ops, op.isAddChild = true) := by
  refine Runs.run_induction (P := fun ops (s : Mirror) =>
    (s.store.graph.children = [] ↔ ops = []) ∧
      (s.store.graph.items = [] ∧ s.store.graph.letters = [] ↔ ∀ op ∈ ops, op.isAddChild = true))
    ?_ ?_ ops s hrun
  · exact ⟨by simp [LocalStore.empty], by simp [LocalStore.empty]⟩
  · intro ops s op t _ hbefore hstep
    have hparts := hbefore.2
    obtain ⟨_, henabled, hgraph, _⟩ := Mirror.step_eq_some hstep
    rw [hgraph]
    cases op with
    | addChild id name age =>
      rw [AddOp.inserted_addChild]
      refine ⟨by simp, ?_⟩
      rw [hparts]
      simp [or_imp, forall_and, AddOp.isAddChild]
    | addItem id child image description name =>
      have hne := List.ne_nil_of_mem henabled.2
      rw [AddOp.inserted_addItem henabled.1]
      refine ⟨by simpa using hne, ?_⟩
      simp [or_imp, forall_and, AddOp.isAddChild]
    | addLetter id child note title =>
      have hne := List.ne_nil_of_mem henabled.2
      rw [AddOp.inserted_addLetter henabled.1]
      refine ⟨by simpa using hne, ?_⟩
      simp [or_imp, forall_and, AddOp.isAddChild]

theorem exists_rel_of_mem {A B : Type} {R : A → B → Prop} {xs : List A} {ys : List B}
    (h : List.Forall₂ R xs ys) {x : A} (hx : x ∈ xs) : ∃ y ∈ ys, R x y := by
  induction h with
  | nil => cases hx
  | cons hxy _ ih =>
    rcases List.mem_cons.mp hx with rfl | hx
    · exact ⟨_, List.mem_cons_self, hxy⟩
    · obtain ⟨y, hy, hR⟩ := ih hx
      exact ⟨y, List.mem_cons_of_mem _ hy, hR⟩

/-- A child that is read back from its texts alone has no item and no letter. -/
theorem parts_of_bare {s : Store} (hs : s.WellFormed) {c : Child} (hc : c ∈ s.children)
    {rep kid : ChildRepresentation} (hrep : s.childRepresentation c.objectID = some rep)
    (hsame : kid.Same rep) (hletters : kid.letters = []) (hitems : kid.items = []) :
    s.lettersOf c.objectID = [] ∧ s.itemsOf c.objectID = [] := by
  obtain ⟨rep', hrep', _, _, hallLetters, hallItems⟩ := hs.childRepresentation_eq hc
  obtain rfl : rep = rep' := Option.some.inj (hrep.symm.trans hrep')
  have hnoLetters : rep.letters = [] := (hletters ▸ hsame.letters).nil_eq.symm
  have hnoItems : rep.items = [] := (hitems ▸ hsame.items).nil_eq.symm
  rw [hnoLetters] at hallLetters
  rw [hnoItems] at hallItems
  exact ⟨List.forall₂_nil_right_iff.mp hallLetters, List.forall₂_nil_right_iff.mp hallItems⟩

theorem bare_same {s : Store} (hs : s.WellFormed) {c : Child} (hc : c ∈ s.children)
    (hitems : s.items = []) (hletters : s.letters = []) :
    ∃ rep, s.childRepresentation c.objectID = some rep ∧ c.bareRepresentation.Same rep := by
  obtain ⟨rep, hrep, hname, hage, hallLetters, hallItems⟩ := hs.childRepresentation_eq hc
  rw [Store.lettersOf, hletters, List.filter_nil, List.forall₂_nil_left_iff] at hallLetters
  rw [Store.itemsOf, hitems, List.filter_nil, List.forall₂_nil_left_iff] at hallItems
  refine ⟨rep, hrep, ?_, ?_, ?_, ?_⟩
  · rw [Child.bareRepresentation, hname, Option.getD_some]
  · rw [Child.bareRepresentation, hage, Option.getD_some]
  · rw [hallLetters]
    exact .nil
  · rw [hallItems]
    exact .nil

/-- The server reads back as the local store exactly after a run that added children, at least one,
and nothing else. -/
theorem readsBack_iff_children_only (uid : String) (remote : Json)
    (hempty : remote.get (childrenURL uid).pathComponents = .null) (ops : List AddOp) (s : Mirror)
    (hrun : Runs.run (Mirror.step uid) ⟨.empty, remote⟩ ops = some s)
    (hvalid : KeysValid s.store.graph) :
    ReadsBack uid s ↔ ops ≠ [] ∧ ∀ op ∈ ops, op.isAddChild = true := by
  have hs := s.store.wellFormed
  have hmirror := mirrored_of_run hempty hrun hvalid.toChildNamesValid
  obtain ⟨hchildren, hparts⟩ := empty_iff_of_run hrun
  rw [← hparts, ne_eq, ← hchildren]
  constructor
  · intro hh
    obtain ⟨kids, order, hkids, hperm, hall⟩ := hh
    have hne : s.store.graph.children ≠ [] := by
      intro hnil
      obtain ⟨fs, hnode, hfs⟩ := hmirror
      rw [hnil, List.forall₂_nil_left_iff] at hfs
      rw [fetchKids, hnode, hfs] at hkids
      cases hkids
    -- what is read are the bare children, so no child may have a part
    obtain rfl : s.store.graph.children.map Child.bareRepresentation = kids :=
      Except.ok.inj ((hmirror.decodeKids hne).symm.trans hkids)
    have hbare : ∀ c ∈ s.store.graph.children,
        s.store.graph.lettersOf c.objectID = [] ∧ s.store.graph.itemsOf c.objectID = [] := by
      intro c hc
      obtain ⟨kid, hkid, rep, hrep, hsame⟩ := exists_rel_of_mem hall hc
      obtain ⟨d, _, rfl⟩ := List.mem_map.mp (hperm.subset hkid)
      exact parts_of_bare hs hc hrep hsame rfl rfl
    exact ⟨hne, hs.items_eq_nil fun c hc => (hbare c hc).2, hs.letters_eq_nil fun c hc => (hbare c hc).1⟩
  · intro hh
    obtain ⟨hne, hitems, hletters⟩ := hh
    refine ⟨_, _, hmirror.decodeKids hne, .rfl, ?_⟩
    rw [List.forall₂_map_right_iff, List.forall₂_same]
    exact fun c hc => bare_same hs hc hitems hletters

theorem two_children_read_back : ∃ s : Mirror,
    Runs.run (Mirror.step "uid") ⟨.empty, .null⟩ [.addChild 0 "Ann" 7, .addChild 1 "Bob" 4] = some s ∧
      ReadsBack "uid" s := by
  refine ⟨_, rfl, (readsBack_iff_children_only "uid" .null rfl
    [.addChild 0 "Ann" 7, .addChild 1 "Bob" 4] _ rfl ?_).mpr ⟨by decide, by decide⟩⟩
  refine ⟨⟨?_, ?_⟩, ?_, ?_, ?_, ?_⟩ <;> decide

/-- The train Ann wishes for is stored, but it is not read back. -/
theorem item_not_read_back : ¬ ∀ (uid : String) (ops : List AddOp) (s : Mirror),
    Runs.run (Mirror.step uid) ⟨.empty, .null⟩ ops = some s → KeysValid s.store.graph →
      ReadsBack uid s := by
  intro h
  let ops : List AddOp := [.addChild 0 "Ann" 7, .addItem 0 0 [] "red" "Train"]
  obtain ⟨s, hs⟩ : ∃ s, Runs.run (Mirror.step "uid") ⟨.empty, .null⟩ ops = some s := ⟨_, rfl⟩
  have hvalid : KeysValid s.store.graph := by
    obtain rfl := Option.some.inj hs
    refine ⟨⟨?_, ?_⟩, ?_, ?_, ?_, ?_⟩ <;> decide
  obtain ⟨kids, order, hkids, hperm, hall⟩ := h "uid" ops s hs hvalid
  obtain rfl := Option.some.inj hs
  obtain rfl : [⟨"Ann", "7", [], []⟩] = kids := Except.ok.inj hkids
  obtain rfl := List.perm_singleton.mp hperm
  obtain ⟨rep, hrep, hsame⟩ := (List.forall₂_cons.mp hall).1
  obtain rfl := Option.some.inj hrep
  exact absurd hsame.items (by decide)

end SantaIWish
