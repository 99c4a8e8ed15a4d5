import Mathlib.Logic.Function.Basic
import SantaIWish.AccountLists
import SantaIWish.BulkUpload
import SantaIWish.FamilyLog
import SantaIWish.Library.Simulation
import SantaIWish.WishlistReadBack

/-!
# Several devices and one server

Each device adds to its own store, and each add sends one PUT under the account that is
signed in there. A request in flight reaches the server at any later moment, before or
after later ones, or gets lost. For an account the server then is a log of updates,
those that have arrived, in the order of their arrival: two devices with one account
write to one family, and no device learns what another one has added.
-/

namespace SantaIWish
open Runs RealtimeDatabase PathWrites
set_option autoImplicit false

structure Network (ι : Type) where
  device : ι → Device
  inFlight : List URLRequest := []
  remote : Json

inductive NetworkStep (ι : Type) where
  | device (i : ι) (a : DeviceStep)
  | arrive (n : Nat)
  | lose (n : Nat)

/-- The request a step of a device sends. -/
def Device.sent (d : Device) : DeviceStep → List URLRequest
  | .add op => (op.start d.account (op.inserted d.store.graph)).request.toList
  | .signIn _ => []
  | .signOut => []

def Network.step {ι : Type} [DecidableEq ι] (s : Network ι) : NetworkStep ι → Option (Network ι)
  | .device i a => ((s.device i).step a).map fun d =>
      { s with
        device := Function.update s.device i d
        inFlight := s.inFlight ++ (s.device i).sent a }
  | .arrive n => s.inFlight[n]?.map fun q =>
      { s with inFlight := s.inFlight.eraseIdx n, remote := q.serve s.remote }
  | .lose n => s.inFlight[n]?.map fun _ => { s with inFlight := s.inFlight.eraseIdx n }

/-! ## The log of the accounts -/

/-- What is on its way to an account, and what has arrived, in order. -/
structure AccountLog where
  inFlight : List (String × FamilyUpdate) := []
  log : List (String × FamilyUpdate) := []
  deriving DecidableEq

inductive AccountStep where
  | issue (uid : String) (u : FamilyUpdate)
  | arrive (n : Nat)
  | lose (n : Nat)

namespace AccountLog

def step (s : AccountLog) : AccountStep → Option AccountLog
  | .issue uid u => some { s with inFlight := s.inFlight ++ [(uid, u)] }
  | .arrive n => s.inFlight[n]?.map fun e => ⟨s.inFlight.eraseIdx n, s.log ++ [e]⟩
  | .lose n => s.inFlight[n]?.map fun _ => { s with inFlight := s.inFlight.eraseIdx n }

/-- The updates that have arrived for an account. -/
def of (uid : String) (s : AccountLog) : List FamilyUpdate :=
  s.log.filterMap fun e => if e.1 = uid then some e.2 else none

end AccountLog

/-- The update an add makes, over the graph in which the name of its child is read. -/
def AddOp.familyUpdate (s : Store) : AddOp → FamilyUpdate
  | addChild _ name age => .child name (toString age)
  | addItem _ child image description name =>
    .item ((s.childName (some child)).getD "") ⟨description, name, image⟩
  | addLetter _ child note title => .letter ((s.childName (some child)).getD "") ⟨note, title⟩

/-- What a step of the network is for the accounts. -/
def Network.actions {ι : Type} (s : Network ι) : NetworkStep ι → List AccountStep
  | .device i (.add op) =>
    [.issue ((s.device i).account.getD "") (op.familyUpdate (op.inserted (s.device i).store.graph))]
  | .device _ _ => []
  | .arrive n => [.arrive n]
  | .lose n => [.lose n]

/-- The name or title an add gives its record. -/
def AddOp.text : AddOp → String
  | addChild _ name _ => name
  | addItem _ _ _ _ name => name
  | addLetter _ _ _ title => title

/-- Accounts, names and titles are keys the server accepts. -/
def DeviceStep.Valid : DeviceStep → Prop
  | .signIn uid => validKey uid = true
  | .signOut => True
  | .add op => validKey op.text = true

def NetworkStep.Valid {ι : Type} : NetworkStep ι → Prop
  | .device _ a => a.Valid
  | _ => True

/-! ## The simulation -/

structure Carries (e : String × FamilyUpdate) (q : URLRequest) : Prop where
  account : validKey e.1 = true
  isWrite : q.IsWrite
  path : q.path = (childrenURL e.1).pathComponents ++ e.2.childName :: e.2.partKey
  content : q.content = e.2.content

structure Device.Valid (d : Device) : Prop where
  account : ∀ uid, d.account = some uid → validKey uid = true
  names : ∀ name ∈ d.store.graph.children.map Child.name, validKey (name.getD "") = true

/-- The server keeps for each account the family of its log. -/
structure Network.Logged {ι : Type} (s : Network ι) (t : AccountLog) : Prop where
  device : ∀ i, (s.device i).Valid
  inFlight : List.Forall₂ Carries t.inFlight s.inFlight
  family : ∀ uid, validKey uid = true →
    Represents (Family.ofLog (t.of uid)) (s.remote.get (childrenURL uid).pathComponents)

def AddOp.newChildNames : AddOp → List (Option String)
  | addChild _ name _ => [some name]
  | _ => []

theorem childNames_inserted {s : Store} {op : AddOp} (h : op.Enabled s) :
    (op.inserted s).children.map Child.name = s.children.map Child.name ++ op.newChildNames := by
  cases op with
  | addChild id name age => simp [AddOp.inserted_addChild, Child.new, AddOp.newChildNames]
  | addItem id child image description name =>
    simp [AddOp.inserted_addItem h.1, AddOp.newChildNames, Function.comp_def]
  | addLetter id child note title =>
    simp [AddOp.inserted_addLetter h.1, AddOp.newChildNames, Function.comp_def]

theorem Device.Valid.step {d e : Device} {a : DeviceStep} (hd : d.Valid) (ha : a.Valid)
    (h : d.step a = some e) : e.Valid := by
  cases a with
  | signIn uid =>
    obtain rfl := Option.some.inj h
    refine ⟨fun uid' huid => ?_, hd.names⟩
    obtain rfl := Option.some.inj huid
    exact ha
  | signOut =>
    obtain rfl := Option.some.inj h
    exact ⟨by simp, hd.names⟩
  | add op =>
    obtain ⟨_, haccount, henabled, hgraph⟩ := Device.step_add h
    refine ⟨haccount ▸ hd.account, ?_⟩
    rw [hgraph, childNames_inserted henabled]
    intro name hname
    rcases List.mem_append.mp hname with hname | hname
    · exact hd.names name hname
    · cases op with
      | addChild id name' age =>
        obtain rfl := List.mem_singleton.mp hname
        exact ha
      | addItem id child image description name' => cases hname
      | addLetter id child note title => cases hname

/-- The update of an add names the child the add is for. -/
theorem AddOp.owner_named {s : Store} (hs : s.WellFormed) {op : AddOp} (h : op.Enabled s) :
    ∃ c ∈ (op.inserted s).children, c.objectID = op.record.owner ∧
      c.name = some (op.familyUpdate (op.inserted s)).childName := by
  have ht := inserted_wellFormed hs h
  obtain ⟨c, hc, howner⟩ := RecordRef.owner_mem ht (record_in h)
  obtain ⟨name, _, hname, _⟩ := ht.attributes c hc
  have hchild : ((op.inserted s).childName (some op.record.owner)).getD "" = name := by
    rw [← howner, Store.childName, Option.bind_some, ht.child?_of_mem hc, Option.bind_some, hname,
      Option.getD_some]
  refine ⟨c, hc, howner, ?_⟩
  cases op with
  | addChild id name age =>
    have hid : c = Child.new id name (toString age) [] [] :=
      Fields.eq_of_key_eq ht.childIDs hc (List.mem_append_right _ List.mem_cons_self) howner
    rw [hid]
    rfl
  | addItem id child image description name' => exact hname.trans (congrArg some hchild.symm)
  | addLetter id child note title => exact hname.trans (congrArg some hchild.symm)

/-- The key of the record an add puts is that of the update it makes. -/
theorem AddOp.key_eq {s : Store} (hs : s.WellFormed) {op : AddOp} (h : op.Enabled s)
    (hnames : ∀ name ∈ (op.inserted s).children.map Child.name, validKey (name.getD "") = true)
    (htext : validKey op.text = true) : op.record.key (op.inserted s) =
      (op.familyUpdate (op.inserted s)).childName :: (op.familyUpdate (op.inserted s)).partKey := by
  have ht := inserted_wellFormed hs h
  obtain ⟨c, hc, howner, hname⟩ := owner_named hs h
  have hvalid := hnames _ (List.mem_map_of_mem hc)
  rw [hname, Option.getD_some] at hvalid
  rw [RecordRef.key, ← howner, ht.childKey_of_mem hc, hname, Option.getD_some,
    pathSegments_of_validKey hvalid]
  cases op with
  | addChild id name age => rfl
  | addItem id child image description name =>
    have hitem : Item.added id child image description name ∈
        ((addItem id child image description name).inserted s).items := by
      rw [inserted_addItem h.1]
      exact List.mem_append_right _ List.mem_cons_self
    have hkey : ((addItem id child image description name).inserted s).itemKey id = [name] :=
      (ht.itemKey_of_mem hitem).trans (pathSegments_of_validKey htext)
    rw [record, RecordRef.partKey, hkey]
    rfl
  | addLetter id child note title =>
    have hletter : Letter.added id child note title ∈
        ((addLetter id child note title).inserted s).letters := by
      rw [inserted_addLetter h.1]
      exact List.mem_append_right _ List.mem_cons_self
    have hkey : ((addLetter id child note title).inserted s).letterKey id = [title] :=
      (ht.letterKey_of_mem hletter).trans (pathSegments_of_validKey htext)
    rw [record, RecordRef.partKey, hkey]
    rfl

theorem AddOp.content_eq (s : Store) (op : AddOp) : op.content = (op.familyUpdate s).content := by
  cases op <;> rfl

/-- An add on a device sends one request, which carries its update. -/
theorem Device.sent_add {d e : Device} {op : AddOp} (hd : d.Valid) (htext : validKey op.text = true)
    (h : d.step (.add op) = some e) : ∃ q, d.sent (.add op) = [q] ∧
      Carries (d.account.getD "", op.familyUpdate (op.inserted d.store.graph)) q := by
  obtain ⟨haccount, _, henabled, hgraph⟩ := Device.step_add h
  obtain ⟨uid, huid⟩ := Option.ne_none_iff_exists'.mp haccount
  obtain ⟨q, hq, hwrite, hpath, hcontent⟩ := AddOp.start_spec uid d.store.wellFormed henabled
  have he : e.Valid := Device.Valid.step (a := .add op) hd htext h
  have hnames := he.names
  rw [hgraph] at hnames
  refine ⟨q, by rw [sent, huid, hq, Option.toList_some], ?_⟩
  rw [huid, Option.getD_some]
  refine ⟨hd.account uid huid, hwrite, ?_, hcontent.trans (AddOp.content_eq _ op)⟩
  rw [hpath, AddOp.key_eq d.store.wellFormed henabled hnames htext]

theorem children_incomparable {uid uid' : String} (huid : validKey uid = true)
    (huid' : validKey uid' = true) (hne : uid ≠ uid') (key : List String) :
    ¬ Comparable ((childrenURL uid).pathComponents ++ key) (childrenURL uid').pathComponents := by
  intro hcmp
  have h := hcmp.symm.of_append_right
  rw [childrenURL_path, childrenURL_path, pathSegments_of_validKey huid,
    pathSegments_of_validKey huid'] at h
  exact hne (comparable_cons.mp (comparable_cons.mp h).2).1.symm

theorem AccountLog.of_arrived (uid : String) (inFlight log : List (String × FamilyUpdate))
    (e : String × FamilyUpdate) : AccountLog.of uid ⟨inFlight, log ++ [e]⟩ =
      AccountLog.of uid ⟨inFlight, log⟩ ++ if e.1 = uid then [e.2] else [] := by
  rw [of, of, List.filterMap_append]
  congr 1
  split
  · rename_i h
    simp [h]
  · rename_i h
    simp [h]

/-- A request that arrives is the update it carries, for its own account and no other. -/
theorem Carries.arrive {e : String × FamilyUpdate} {q : URLRequest} (h : Carries e q) {t : Json}
    {inFlight inFlight' log : List (String × FamilyUpdate)}
    (hfamily : ∀ uid, validKey uid = true → Represents (Family.ofLog (AccountLog.of uid ⟨inFlight, log⟩))
      (t.get (childrenURL uid).pathComponents)) (uid : String) (huid : validKey uid = true) :
    Represents (Family.ofLog (AccountLog.of uid ⟨inFlight', log ++ [e]⟩))
      ((q.serve t).get (childrenURL uid).pathComponents) := by
  rw [AccountLog.of_arrived, h.isWrite.serve_eq, h.path, h.content]
  by_cases hown : e.1 = uid
  · subst hown
    rw [if_pos rfl, Family.ofLog_snoc, get_replaceAt_append]
    exact (hfamily e.1 huid).put e.2
  · rw [if_neg hown, List.append_nil,
      get_replaceAt_of_incomparable (children_incomparable h.account huid hown _)]
    exact hfamily uid huid

theorem forall₂_at {A B : Type} {R : A → B → Prop} {xs : List A} {ys : List B}
    (h : List.Forall₂ R xs ys) {n : Nat} {y : B} (hy : ys[n]? = some y) :
    ∃ x, xs[n]? = some x ∧ R x y ∧ List.Forall₂ R (xs.eraseIdx n) (ys.eraseIdx n) := by
  induction h generalizing n with
  | nil => cases hy
  | @cons x y' xs ys hxy hrest ih =>
    cases n with
    | zero =>
      obtain rfl : y' = y := Option.some.inj hy
      exact ⟨x, rfl, hxy, hrest⟩
    | succ n =>
      obtain ⟨x', hx', hR, herased⟩ := ih (by simpa using hy)
      exact ⟨x', by simpa using hx', hR, .cons hxy herased⟩

/-- The server refines the log of each account, whatever the devices do and the transport does. -/
theorem network_simulates (ι : Type) [DecidableEq ι] : Simulates (Network.step (ι := ι))
    AccountLog.step Network.actions NetworkStep.Valid Network.Logged := by
  constructor
  intro s t a s' hR ha hstep
  cases a with
  | device i a =>
    obtain ⟨d, hd, rfl⟩ := Option.map_eq_some_iff.mp hstep
    have hdevice : ∀ j, (Function.update s.device i d j).Valid := by
      intro j
      by_cases hj : j = i
      · subst hj
        rw [Function.update_self]
        exact (hR.device j).step ha hd
      · rw [Function.update_of_ne hj]
        exact hR.device j
    cases a with
    | signIn uid => exact ⟨t, rfl, hdevice, by simpa [Device.sent] using hR.inFlight, hR.family⟩
    | signOut => exact ⟨t, rfl, hdevice, by simpa [Device.sent] using hR.inFlight, hR.family⟩
    | add op =>
      obtain ⟨q, hsent, hcarries⟩ := Device.sent_add (hR.device i) ha hd
      refine ⟨_, rfl, hdevice, ?_, hR.family⟩
      rw [hsent]
      exact List.rel_append hR.inFlight (.cons hcarries .nil)
  | arrive n =>
    obtain ⟨q, hq, rfl⟩ := Option.map_eq_some_iff.mp hstep
    obtain ⟨e, he, hcarries, hrest⟩ := forall₂_at hR.inFlight hq
    refine ⟨⟨t.inFlight.eraseIdx n, t.log ++ [e]⟩, ?_, hR.device, hrest, hcarries.arrive hR.family⟩
    simp [Network.actions, run, AccountLog.step, he]
  | lose n =>
    obtain ⟨q, hq, rfl⟩ := Option.map_eq_some_iff.mp hstep
    obtain ⟨e, he, _, hrest⟩ := forall₂_at hR.inFlight hq
    refine ⟨{ t with inFlight := t.inFlight.eraseIdx n }, ?_, hR.device, hrest, hR.family⟩
    simp [Network.actions, run, AccountLog.step, he]

/-! ## Runs -/

/-- Nothing is stored for any account, and nothing is on its way. -/
structure Network.Fresh {ι : Type} (s : Network ι) : Prop where
  device : ∀ i, (s.device i).Valid
  inFlight : s.inFlight = []
  empty : ∀ uid, s.remote.get (childrenURL uid).pathComponents = .null

theorem Network.Fresh.logged {ι : Type} {s : Network ι} (h : s.Fresh) : s.Logged {} := by
  refine ⟨h.device, ?_, fun uid _ => ?_⟩
  · rw [h.inFlight]
    exact .nil
  · rw [h.empty uid]
    exact represents_nil

theorem Network.Logged.kidsFetched {ι : Type} {s : Network ι} {t : AccountLog} (h : s.Logged t)
    {uid : String} (huid : validKey uid = true) : KidsOfLog (t.of uid) (kidsFetched uid s.remote) := by
  rw [SantaIWish.kidsFetched, RealtimeDatabase.get,
    (h.family uid huid).decodeKids (Family.nodup_ofLog _)]
  exact Family.kids_ofLog _

theorem get_itemsURL (uid : String) {name : String} (hname : validKey name = true) (t : Json) :
    t.get (itemsURL uid name).pathComponents =
      ((t.get (childrenURL uid).pathComponents).field name).field "Items" := by
  have hitems : pathSegments "Items" = ["Items"] := by decide
  rw [itemsURL, URL.pathComponents_appendingPathComponent, childURL_path,
    pathSegments_of_validKey hname, hitems, Json.get_append, Json.get_append]
  rfl

theorem Network.Logged.fetchItems {ι : Type} {s : Network ι} {t : AccountLog} (h : s.Logged t)
    {uid : String} (huid : validKey uid = true) {store : LocalStore} {child : ObjectID} {name : String}
    (hchild : ∃ c ∈ store.graph.children, c.objectID = child ∧ c.name = some name)
    (hname : validKey name = true) :
    ∃ result, fetchItems uid store.graph child s.remote = [result] ∧
      WishlistOfLog name (t.of uid) result := by
  refine ⟨_, fetchItems_eq hchild _, ?_⟩
  rw [RealtimeDatabase.get, get_itemsURL uid hname]
  have hnodup : ((((Family.ofLog (t.of uid)).lookup name).getD {}).items.map Prod.fst).Nodup := by
    rw [Family.lookup_ofLog, entryOf_items]
    exact Fields.nodup_lastPut _
  rw [(h.family uid huid).decodeItems name hnodup]
  exact Family.wishlist_ofLog name _

theorem Network.Logged.storedLetter {ι : Type} {s : Network ι} {t : AccountLog} (h : s.Logged t)
    {uid : String} (huid : validKey uid = true) {name title : String} (hname : validKey name = true)
    (htitle : validKey title = true) :
    s.remote.get (letterURL uid name title).pathComponents =
      (((lettersSince name (t.of uid)).filter fun l => l.title = title).getLast?.map fun l =>
        RealtimeDatabase.stored l.encode).getD .null := by
  have hletters := (h.family uid huid).letters name
  rw [Family.lookup_ofLog, entryOf_letters] at hletters
  rw [letterURL_path, childURL_path, pathSegments_of_validKey hname, pathSegments_of_validKey htitle,
    Json.get_append, Json.get_append]
  change Json.field title (Json.field "LetterToSanta" (Json.field name _)) = _
  have hfilter : ((lettersSince name (t.of uid)).map fun l => (l.title, l)).filter (fun e => e.1 = title) =
      ((lettersSince name (t.of uid)).filter fun l => l.title = title).map fun l => (l.title, l) := by
    rw [List.filter_map]
    rfl
  rw [hletters, RealtimeDatabase.field_node,
    Fields.lookup_map fun l => RealtimeDatabase.stored (LetterRepresentation.encode l),
    Fields.lookup_lastPut, hfilter, List.getLast?_map, Option.map_map, Option.map_map]
  rfl

section Run
variable {ι : Type} [DecidableEq ι]

/-- Two new devices. -/
def twoDevices : Network Bool := ⟨fun _ => ⟨.empty, none⟩, [], .null⟩

theorem twoDevices_fresh : twoDevices.Fresh :=
  ⟨fun _ => ⟨by simp [twoDevices], by simp [twoDevices, LocalStore.empty]⟩, rfl,
    fun _ => Json.get_null _⟩

/-- Both devices add an Ann; her train is the first to arrive, and her second device the last. -/
def annTwice : List (NetworkStep Bool) :=
  [.device true (.signIn "uid"), .device true (.add (.addChild 0 "Ann" 7)),
    .device true (.add (.addItem 0 0 [1] "red" "Train")), .device false (.signIn "uid"),
    .device false (.add (.addChild 0 "Ann" 8)), .arrive 1, .arrive 0, .arrive 0]

theorem annTwice_valid : ∀ a ∈ annTwice, a.Valid := by
  simp [annTwice, NetworkStep.Valid, DeviceStep.Valid, AddOp.text]
  decide

/-- Every run of the network is a run of the logs: at its end each account's children are stored as the
family of the account's log. -/
theorem network_refines_log (s s' : Network ι) (hs : s.Fresh) (steps : List (NetworkStep ι))
    (hvalid : ∀ a ∈ steps, a.Valid) (hrun : run Network.step s steps = some s') :
    ∃ t, run AccountLog.step {} (trace Network.step Network.actions s steps) = some t ∧ s'.Logged t :=
  (network_simulates ι).run hs.logged hvalid hrun

theorem annTwice_refines_log : ∃ s' t, run Network.step twoDevices annTwice = some s' ∧
    t.of "uid" = [.item "Ann" ⟨"red", "Train", [1]⟩, .child "Ann" "7", .child "Ann" "8"] ∧ s'.Logged t := by
  obtain ⟨s', hs'⟩ : ∃ s', run Network.step twoDevices annTwice = some s' := ⟨_, rfl⟩
  obtain ⟨t, ht, hlogged⟩ :=
    network_refines_log twoDevices s' twoDevices_fresh annTwice annTwice_valid hs'
  refine ⟨s', t, hs', ?_, hlogged⟩
  obtain rfl := Option.some.inj ht
  rfl

/-- What fetching the kids gives in every state of the network: it depends on the account's log alone. -/
theorem run_kidsFetched (s s' : Network ι) (hs : s.Fresh) (steps : List (NetworkStep ι))
    (hvalid : ∀ a ∈ steps, a.Valid) (hrun : run Network.step s steps = some s') (uid : String)
    (huid : validKey uid = true) :
    ∃ t, run AccountLog.step {} (trace Network.step Network.actions s steps) = some t ∧
      KidsOfLog (t.of uid) (kidsFetched uid s'.remote) := by
  obtain ⟨t, ht, hlogged⟩ := (network_simulates ι).run hs.logged hvalid hrun
  exact ⟨t, ht, hlogged.kidsFetched huid⟩

theorem annTwice_kids : ∃ s', run Network.step twoDevices annTwice = some s' ∧
    kidsFetched "uid" s'.remote = .ok [⟨"Ann", "8", [], []⟩] := by
  obtain ⟨s', hs'⟩ : ∃ s', run Network.step twoDevices annTwice = some s' := ⟨_, rfl⟩
  obtain ⟨t, ht, hkids⟩ :=
    run_kidsFetched twoDevices s' twoDevices_fresh annTwice annTwice_valid hs' "uid" (by decide)
  have hlog : t.of "uid" =
      [.item "Ann" ⟨"red", "Train", [1]⟩, .child "Ann" "7", .child "Ann" "8"] := by
    obtain rfl := Option.some.inj ht
    rfl
  rw [hlog] at hkids
  obtain ⟨kids, hkids, hperm⟩ := hkids.read (not_indexKeys (by decide) (by decide)) (by decide)
  obtain rfl := List.perm_singleton.mp hperm
  exact ⟨s', hs', hkids⟩

/-- What fetching the items of a child gives in every state of the network. -/
theorem run_fetchItems (s s' : Network ι) (hs : s.Fresh) (steps : List (NetworkStep ι))
    (hvalid : ∀ a ∈ steps, a.Valid) (hrun : run Network.step s steps = some s') (uid : String)
    (huid : validKey uid = true) (store : LocalStore) (child : ObjectID) (name : String)
    (hchild : ∃ c ∈ store.graph.children, c.objectID = child ∧ c.name = some name)
    (hname : validKey name = true) :
    ∃ t result, run AccountLog.step {} (trace Network.step Network.actions s steps) = some t ∧
      fetchItems uid store.graph child s'.remote = [result] ∧ WishlistOfLog name (t.of uid) result := by
  obtain ⟨t, ht, hlogged⟩ := (network_simulates ι).run hs.logged hvalid hrun
  obtain ⟨result, hresult, hwishlist⟩ := hlogged.fetchItems huid hchild hname
  exact ⟨t, result, ht, hresult, hwishlist⟩

/-- The train is gone: Ann herself was put after it. -/
theorem annTwice_wishlist : ∃ (s' : Network Bool) (store : LocalStore),
    run Network.step twoDevices annTwice = some s' ∧
      fetchItems "uid" store.graph 0 s'.remote = [.error .badDecode] := by
  obtain ⟨s', hs'⟩ : ∃ s', run Network.step twoDevices annTwice = some s' := ⟨_, rfl⟩
  obtain ⟨store, hstore⟩ : ∃ s, run LocalStore.add .empty [.addChild 0 "Ann" 7] = some s := ⟨_, rfl⟩
  have hchild : ∃ c ∈ store.graph.children, c.objectID = 0 ∧ c.name = some "Ann" := by
    obtain rfl := Option.some.inj hstore
    exact ⟨_, List.mem_cons_self, rfl, rfl⟩
  obtain ⟨t, result, ht, hresult, hwishlist⟩ := run_fetchItems twoDevices s' twoDevices_fresh annTwice
    annTwice_valid hs' "uid" (by decide) store 0 "Ann" hchild (by decide)
  have hlog : t.of "uid" =
      [.item "Ann" ⟨"red", "Train", [1]⟩, .child "Ann" "7", .child "Ann" "8"] := by
    obtain rfl := Option.some.inj ht
    rfl
  rw [hlog] at hwishlist
  obtain rfl := hwishlist.indexed ⟨0, fun k => by
    simp [itemsSince, partsSince, sincePut, List.rtakeWhile, FamilyUpdate.ownPut]⟩
  exact ⟨s', store, hs', hresult⟩

/-- The server keeps of each title the letter that arrived last since the child's own PUT, and none that
arrived before it. -/
theorem run_storedLetter (s s' : Network ι) (hs : s.Fresh) (steps : List (NetworkStep ι))
    (hvalid : ∀ a ∈ steps, a.Valid) (hrun : run Network.step s steps = some s') (uid name title : String)
    (huid : validKey uid = true) (hname : validKey name = true) (htitle : validKey title = true) :
    ∃ t, run AccountLog.step {} (trace Network.step Network.actions s steps) = some t ∧
      s'.remote.get (letterURL uid name title).pathComponents =
        (((lettersSince name (t.of uid)).filter fun l => l.title = title).getLast?.map fun l =>
          RealtimeDatabase.stored l.encode).getD .null := by
  obtain ⟨t, ht, hlogged⟩ := (network_simulates ι).run hs.logged hvalid hrun
  exact ⟨t, ht, hlogged.storedLetter huid hname htitle⟩

/-- Two letters of one title arrive in the wrong order. -/
def twoLetters : List (NetworkStep Bool) :=
  [.device true (.signIn "uid"), .device true (.add (.addChild 0 "Ann" 7)),
    .device true (.add (.addLetter 0 0 "a train" "Santa")),
    .device true (.add (.addLetter 1 0 "a doll" "Santa")), .arrive 0, .arrive 1, .arrive 0]

theorem twoLetters_stored : ∃ s', run Network.step twoDevices twoLetters = some s' ∧
    s'.remote.get (letterURL "uid" "Ann" "Santa").pathComponents =
      RealtimeDatabase.stored (LetterRepresentation.encode ⟨"a train", "Santa"⟩) := by
  obtain ⟨s', hs'⟩ : ∃ s', run Network.step twoDevices twoLetters = some s' := ⟨_, rfl⟩
  have hvalid : ∀ a ∈ twoLetters, a.Valid := by
    simp [twoLetters, NetworkStep.Valid, DeviceStep.Valid, AddOp.text]
    decide
  obtain ⟨t, ht, hletter⟩ := run_storedLetter twoDevices s' twoDevices_fresh twoLetters hvalid hs'
    "uid" "Ann" "Santa" (by decide) (by decide) (by decide)
  have hlog : t.of "uid" =
      [.child "Ann" "7", .letter "Ann" ⟨"a doll", "Santa"⟩, .letter "Ann" ⟨"a train", "Santa"⟩] := by
    obtain rfl := Option.some.inj ht
    rfl
  rw [hlog] at hletter
  refine ⟨s', hs', hletter.trans ?_⟩
  simp [lettersSince, partsSince, sincePut, List.rtakeWhile, FamilyUpdate.ownPut, FamilyUpdate.letter?,
    FamilyUpdate.childName]

end Run

end SantaIWish
