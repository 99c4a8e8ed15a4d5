import SantaIWish.Controller.LocalStore

/-!
# The lists shown for a child

The wish-list and letter screens fetch by the name of the child, while the counts
follow the relationship. The two agree for a child exactly when no other child of
the same name has an item or a letter.
-/

namespace SantaIWish
set_option autoImplicit false

universe u

structure NameOrder where
  le : String → String → Bool
  trans : ∀ a b c, le a b = true → le b c = true → le a c = true
  total : ∀ a b, (le a b || le b a) = true

/-- Objects without the key come first. -/
def NameOrder.leKey (order : NameOrder) : Option String → Option String → Bool
  | none, _ => true
  | some _, none => false
  | some a, some b => order.le a b

theorem NameOrder.leKey_trans (order : NameOrder) (a b c : Option String)
    (hab : order.leKey a b = true) (hbc : order.leKey b c = true) : order.leKey a c = true := by
  cases a <;> cases b <;> cases c <;> simp_all [leKey]
  exact order.trans _ _ _ hab hbc

theorem NameOrder.leKey_total (order : NameOrder) (a b : Option String) :
    (order.leKey a b || order.leKey b a) = true := by
  cases a <;> cases b <;> simp [leKey]
  simpa using order.total _ _

/-! ## The fetches -/

def Store.childName (s : Store) (owner : Option ObjectID) : Option String :=
  owner.bind fun id => (s.child? id).bind Child.name

/-- What the screen compares with; a child or a name that is missing counts as the empty text. -/
def getChildName (child : Option Child) : String := (child.bind Child.name).getD ""

/-- The fetch both screens make: objects whose `child.name` is the name, in the order of a key. -/
def fetchByChildName {A : Type u} (order : NameOrder) (s : Store) (child : Option Child)
    (owner : A → Option ObjectID) (key : A → Option String) (objects : List A) : List A :=
  (objects.filter fun x => s.childName (owner x) = some (getChildName child)).mergeSort
    fun x y => order.leKey (key x) (key y)

def wishlistRows (order : NameOrder) (s : Store) (child : Option Child) : List Item :=
  fetchByChildName order s child Item.child Item.name s.items

def letterRows (order : NameOrder) (s : Store) (child : Option Child) : List Letter :=
  fetchByChildName order s child Letter.child Letter.title s.letters

def memberCount (members : Option (List ObjectID)) : Nat := (members.map List.length).getD 0

structure ProfileCell where
  childName : Option String
  childAge : String
  lettersToSanta : String
  wishLists : String
  deriving DecidableEq

def Child.profileCell (child : Child) : ProfileCell :=
  { childName := child.name
    childAge := "age: " ++ child.age.getD "unavailable"
    lettersToSanta := "Letters to santa " ++ toString (memberCount child.letters)
    wishLists := "wishlists " ++ toString (memberCount child.items) }

/-- The labels of `ChildProfileDetailViewController`. -/
structure DetailLabels where
  name : Option String
  age : String
  wishList : String
  lettersToSanta : String
  deriving DecidableEq

/-- The labels stay as they are for a child without an age. -/
def Child.detailLabels (child : Child) : Option DetailLabels :=
  child.age.map fun age =>
    { name := child.name
      age := "Age: " ++ age
      wishList := "wishList items: " ++ toString (memberCount child.items)
      lettersToSanta := "letters to santa: " ++ toString (memberCount child.letters) }

/-- The rows are the members of a to-many set, each once, in order, and as many as its count. -/
structure RowsAre {A : Type u} (order : NameOrder) (objectID : A → ObjectID)
    (key : A → Option String) (members : Option (List ObjectID)) (rows : List A) : Prop where
  mem : ∀ id, id ∈ rows.map objectID ↔ id ∈ members.getD []
  once : (rows.map objectID).Nodup
  sorted : rows.Pairwise fun x y => order.leKey (key x) (key y) = true
  count : rows.length = memberCount members

/-- The lists are the child's own, and their lengths are the counts that its cell and its detail screen
display. -/
structure ListsAreOwn (order : NameOrder) (s : Store) (c : Child) : Prop where
  wishlist : RowsAre order Item.objectID Item.name c.items (wishlistRows order s (some c))
  letters : RowsAre order Letter.objectID Letter.title c.letters (letterRows order s (some c))
  cell : c.profileCell.wishLists = "wishlists " ++ toString (wishlistRows order s (some c)).length ∧
    c.profileCell.lettersToSanta = "Letters to santa " ++ toString (letterRows order s (some c)).length
  detail : ∃ labels, c.detailLabels = some labels ∧
    labels.wishList = "wishList items: " ++ toString (wishlistRows order s (some c)).length ∧
    labels.lettersToSanta = "letters to santa: " ++ toString (letterRows order s (some c)).length

/-- The labels display the counts. -/
theorem ListsAreOwn.of_rows {order : NameOrder} {s : Store} {c : Child} (hs : s.WellFormed)
    (hc : c ∈ s.children)
    (hwishlist : RowsAre order Item.objectID Item.name c.items (wishlistRows order s (some c)))
    (hletters : RowsAre order Letter.objectID Letter.title c.letters (letterRows order s (some c))) :
    ListsAreOwn order s c := by
  obtain ⟨_, age, _, hage⟩ := hs.attributes c hc
  refine ⟨hwishlist, hletters, ?_, ?_⟩
  · rw [hwishlist.count, hletters.count]
    exact ⟨rfl, rfl⟩
  · rw [hwishlist.count, hletters.count, Child.detailLabels, hage]
    exact ⟨_, rfl, rfl, rfl⟩

/-! ## When a fetch by name is a fetch by relationship -/

section Fetch
variable {A : Type u} (order : NameOrder) {s : Store} (owner : A → Option ObjectID)
  (key : A → Option String) (objectID : A → ObjectID) {objects : List A}

def ownedBy (owner : A → Option ObjectID) (objects : List A) (child : ObjectID) : List A :=
  objects.filter fun x => owner x = some child

theorem mem_fetchByChildName {c : Child} (hs : s.WellFormed) (hc : c ∈ s.children)
    (howner : ∀ x ∈ objects, ∃ d ∈ s.children, owner x = some d.objectID) {x : A} :
    x ∈ fetchByChildName order s (some c) owner key objects ↔
      x ∈ objects ∧ ∃ d ∈ s.children, owner x = some d.objectID ∧ d.name = c.name := by
  obtain ⟨name, _, hname, _⟩ := hs.attributes c hc
  simp only [fetchByChildName, List.mem_mergeSort, List.mem_filter, decide_eq_true_eq]
  apply and_congr_right
  intro hx
  constructor
  · intro hfetched
    obtain ⟨d, hd, hxd⟩ := howner x hx
    refine ⟨d, hd, hxd, ?_⟩
    simpa [Store.childName, hxd, hs.child?_of_mem hd, getChildName, hname] using hfetched
  · intro hh
    obtain ⟨d, hd, hxd, hnames⟩ := hh
    simp [Store.childName, hxd, hs.child?_of_mem hd, getChildName, hnames, hname]

/-- Without namesakes that own anything the fetch gives what the child owns. -/
theorem fetchByChildName_perm {c : Child} (hs : s.WellFormed) (hc : c ∈ s.children)
    (howner : ∀ x ∈ objects, ∃ d ∈ s.children, owner x = some d.objectID)
    (hnone : ∀ d ∈ s.children, d.objectID ≠ c.objectID → d.name = c.name →
      ownedBy owner objects d.objectID = []) :
    (fetchByChildName order s (some c) owner key objects).Perm (ownedBy owner objects c.objectID) := by
  have hfilter : (objects.filter fun x => s.childName (owner x) = some (getChildName (some c))) =
      ownedBy owner objects c.objectID := by
    apply List.filter_congr
    intro x hx
    have hiff := @mem_fetchByChildName A order s owner key objects c hs hc howner x
    simp only [fetchByChildName, List.mem_mergeSort, List.mem_filter] at hiff
    rw [Bool.eq_iff_iff, decide_eq_true_eq (p := owner x = _)]
    constructor
    · intro hname
      obtain ⟨_, d, hd, hxd, hnames⟩ := hiff.mp ⟨hx, hname⟩
      by_cases hid : d.objectID = c.objectID
      · exact hid ▸ hxd
      · have hempty := hnone d hd hid hnames
        have hxmem : x ∈ ownedBy owner objects d.objectID :=
          List.mem_filter.mpr ⟨hx, by simpa using hxd⟩
        rw [hempty] at hxmem
        cases hxmem
    · intro hxc
      exact (hiff.mpr ⟨hx, c, hc, hxc, rfl⟩).2
  rw [fetchByChildName, hfilter]
  exact List.mergeSort_perm _ _

theorem rowsAre_iff {c : Child} {members : Option (List ObjectID)} (hs : s.WellFormed)
    (hc : c ∈ s.children) (hids : (objects.map objectID).Nodup)
    (howner : ∀ x ∈ objects, ∃ d ∈ s.children, owner x = some d.objectID)
    (hmembers : members = some ((ownedBy owner objects c.objectID).map objectID)) :
    RowsAre order objectID key members (fetchByChildName order s (some c) owner key objects) ↔
      ∀ d ∈ s.children, d.objectID ≠ c.objectID → d.name = c.name →
        ownedBy owner objects d.objectID = [] := by
  constructor
  · intro hrows d hd hne hname
    rw [ownedBy, List.filter_eq_nil_iff]
    intro x hx hxd
    have hxd : owner x = some d.objectID := by simpa using hxd
    -- the namesake's object is fetched, but is no member of the child's own set
    have hfetched := (mem_fetchByChildName order owner key hs hc howner).mpr ⟨hx, d, hd, hxd, hname⟩
    have hmember := (hrows.mem (objectID x)).mp (List.mem_map_of_mem hfetched)
    rw [hmembers, Option.getD_some] at hmember
    obtain ⟨y, hy, hyx⟩ := List.mem_map.mp hmember
    obtain ⟨hyobjects, hyc⟩ := List.mem_filter.mp hy
    obtain rfl := Fields.eq_of_key_eq hids hyobjects hx hyx
    have hyc : owner y = some c.objectID := by simpa using hyc
    exact hne (Option.some.inj (hxd.symm.trans hyc))
  · intro hnone
    have hperm := fetchByChildName_perm order owner key hs hc howner hnone
    refine ⟨fun id => ?_, ?_, ?_, ?_⟩
    · rw [hmembers, Option.getD_some]
      exact (hperm.map objectID).mem_iff
    · exact (hperm.map objectID).nodup_iff.mpr ((List.filter_sublist.map objectID).nodup hids)
    · exact List.pairwise_mergeSort (fun x y z => order.leKey_trans (key x) (key y) (key z))
        (fun x y => order.leKey_total (key x) (key y)) _
    · simp [memberCount, hmembers, hperm.length_eq]

end Fetch

/-- The exact condition for a child of a well-formed store: no namesake has an item or a letter. -/
theorem listsAreOwn_iff (order : NameOrder) (s : LocalStore) (c : Child)
    (hc : c ∈ s.graph.children) :
    ListsAreOwn order s.graph c ↔
      ∀ d ∈ s.graph.children, d.objectID ≠ c.objectID → d.name = c.name →
        d.items = some [] ∧ d.letters = some [] := by
  have hs := s.wellFormed
  have hitems := rowsAre_iff order Item.child Item.name Item.objectID hs hc hs.itemIDs
    (fun i hi => (hs.item i hi).2) (hs.items c hc)
  have hletters := rowsAre_iff order Letter.child Letter.title Letter.objectID hs hc hs.letterIDs
    (fun l hl => (hs.letter l hl).2) (hs.letters c hc)
  have hsplit : ListsAreOwn order s.graph c ↔
      RowsAre order Item.objectID Item.name c.items (wishlistRows order s.graph (some c)) ∧
        RowsAre order Letter.objectID Letter.title c.letters (letterRows order s.graph (some c)) :=
    ⟨fun h => ⟨h.wishlist, h.letters⟩, fun h => .of_rows hs hc h.1 h.2⟩
  rw [hsplit, wishlistRows, letterRows, hitems, hletters]
  constructor
  · intro hh d hd hne hname
    obtain ⟨hnoItem, hnoLetter⟩ := hh
    have hi : s.graph.itemsOf d.objectID = [] := hnoItem d hd hne hname
    have hl : s.graph.lettersOf d.objectID = [] := hnoLetter d hd hne hname
    exact ⟨by rw [hs.items d hd, hi]; rfl, by rw [hs.letters d hd, hl]; rfl⟩
  · intro h
    refine ⟨fun d hd hne hname => ?_, fun d hd hne hname => ?_⟩
    · have hnone := (hs.items d hd).symm.trans (h d hd hne hname).1
      simpa [Store.itemsOf, ownedBy] using hnone
    · have hnone := (hs.letters d hd).symm.trans (h d hd hne hname).2
      simpa [Store.lettersOf, ownedBy] using hnone

def NameOrder.codePoints : NameOrder where
  le a b := decide (a ≤ b)
  trans a b c hab hbc := by
    rw [decide_eq_true_eq] at hab hbc ⊢
    exact String.le_trans hab hbc
  total a b := by
    rw [Bool.or_eq_true, decide_eq_true_eq, decide_eq_true_eq]
    exact String.le_total a b

theorem lists_of_ann_and_bob : ∃ s : LocalStore,
    Runs.run LocalStore.add .empty [.addChild 0 "Ann" 7, .addChild 1 "Bob" 9,
      .addItem 0 1 [] "blue" "Kite"] = some s ∧
      ∀ c ∈ s.graph.children, ListsAreOwn .codePoints s.graph c := by
  refine ⟨_, rfl, fun c hc => (listsAreOwn_iff _ _ c hc).mpr ?_⟩
  revert c
  decide

/-- Two children named Ann: the first one's list shows the second one's kite. -/
theorem namesakes_share_list : ¬ ∀ (order : NameOrder) (s : LocalStore), s.Reachable →
    ∀ c ∈ s.graph.children, ListsAreOwn order s.graph c := by
  intro h
  have hlists := h .codePoints _ ⟨[.addChild 0 "Ann" 7, .addChild 1 "Ann" 9,
    .addItem 0 1 [] "blue" "Kite"], rfl⟩ _ List.mem_cons_self
  have hmem := (hlists.wishlist.mem 0).mp (List.mem_map.mpr ⟨Item.added 0 1 [] "blue" "Kite",
    List.mem_mergeSort.mpr (by decide), rfl⟩)
  exact absurd hmem (by decide)

end SantaIWish
