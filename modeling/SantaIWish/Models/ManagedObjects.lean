import SantaIWish.Models.Representations

/-!
# The Core Data entities and the object graph

Every attribute and relationship is optional. Core Data keeps the two sides of a
relationship inverse to each other, so an item or letter is linked to its child
on both sides at once. Objects are identified by their `objectID`.
-/

namespace SantaIWish
set_option autoImplicit false

abbrev ObjectID : Type := Nat

structure Item where
  objectID : ObjectID
  image : Option Data := none
  childNote : Option String := none
  name : Option String := none
  child : Option ObjectID := none
  deriving DecidableEq

structure Letter where
  objectID : ObjectID
  note : Option String := none
  title : Option String := none
  child : Option ObjectID := none
  deriving DecidableEq

structure Child where
  objectID : ObjectID
  name : Option String := none
  age : Option String := none
  letters : Option (List ObjectID) := none
  items : Option (List ObjectID) := none
  parent : Option ObjectID := none
  deriving DecidableEq

structure Store where
  children : List Child := []
  items : List Item := []
  letters : List Letter := []
  deriving DecidableEq

/-! ## Convenience initialisers -/

/-- `Item.init(image:childNote:name:context:)`; the relationship is assigned to itself. -/
def Item.new (id : ObjectID) (image : Data) (childNote name : String) : Item :=
  let item : Item := { objectID := id }
  { item with
    image := some image
    childNote := some childNote
    child := item.child
    name := some name }

/-- The attributes `Letter.init(note:child:title:context:)` sets; its relationship is set in the graph. -/
def Letter.new (id : ObjectID) (note title : String) : Letter :=
  { objectID := id, note := some note, title := some title }

def Child.new (id : ObjectID) (name age : String) (letters items : List ObjectID) : Child :=
  { objectID := id, name := some name, age := some age, letters := some letters, items := some items }

/-! ## Representations of managed objects -/

def Item.itemRepresentation (item : Item) : Option ItemRepresentation := do
  let childNote ← item.childNote
  let name ← item.name
  let image ← item.image
  return ⟨childNote, name, image⟩

def Letter.letterRepresentation (letter : Letter) : Option LetterRepresentation := do
  let note ← letter.note
  let title ← letter.title
  return ⟨note, title⟩

namespace Store

def child? (s : Store) (id : ObjectID) : Option Child := s.children.find? fun c => c.objectID = id
def item? (s : Store) (id : ObjectID) : Option Item := s.items.find? fun i => i.objectID = id
def letter? (s : Store) (id : ObjectID) : Option Letter := s.letters.find? fun l => l.objectID = id

end Store

/-- One unrepresentable letter or item makes the whole representation nil. -/
def Child.childRepresentation (child : Child) (s : Store) : Option ChildRepresentation := do
  let name ← child.name
  let age ← child.age
  let letters ← child.letters
  let items ← child.items
  let letterRepresentation ← (letters.filterMap s.letter?).mapM Letter.letterRepresentation
  let itemRepresentation ← (items.filterMap s.item?).mapM Item.itemRepresentation
  return ⟨name, age, letterRepresentation, itemRepresentation⟩

namespace Store

def childRepresentation (s : Store) (child : ObjectID) : Option ChildRepresentation :=
  (s.child? child).bind fun c => c.childRepresentation s

def itemRepresentation (s : Store) (item : ObjectID) : Option ItemRepresentation :=
  (s.item? item).bind Item.itemRepresentation

def letterRepresentation (s : Store) (letter : ObjectID) : Option LetterRepresentation :=
  (s.letter? letter).bind Letter.letterRepresentation

end Store

theorem Item.name_of_representation {item : Item} {rep : ItemRepresentation}
    (h : item.itemRepresentation = some rep) : item.name = some rep.name := by
  simp only [itemRepresentation, Option.bind_eq_bind, Option.bind_eq_some_iff] at h
  obtain ⟨childNote, _, name, hname, image, _, h⟩ := h
  obtain rfl := Option.some.inj h
  exact hname

theorem Letter.title_of_representation {letter : Letter} {rep : LetterRepresentation}
    (h : letter.letterRepresentation = some rep) : letter.title = some rep.title := by
  simp only [letterRepresentation, Option.bind_eq_bind, Option.bind_eq_some_iff] at h
  obtain ⟨note, _, title, htitle, h⟩ := h
  obtain rfl := Option.some.inj h
  exact htitle

theorem Child.name_of_representation {child : Child} {s : Store} {rep : ChildRepresentation}
    (h : child.childRepresentation s = some rep) : child.name = some rep.name := by
  simp only [childRepresentation, Option.bind_eq_bind, Option.bind_eq_some_iff] at h
  obtain ⟨name, hname, age, _, letters, _, items, _, _, _, _, _, h⟩ := h
  obtain rfl := Option.some.inj h
  exact hname

/-! ## Relationships -/

def insertMember (x : ObjectID) (set : Option (List ObjectID)) : List ObjectID :=
  if x ∈ set.getD [] then set.getD [] else set.getD [] ++ [x]

/-- The child with the item in its set, every other child as it was. -/
def Child.withItem (child item : ObjectID) (c : Child) : Child :=
  if c.objectID = child then { c with items := some (insertMember item c.items) } else c

def Child.withLetter (child letter : ObjectID) (c : Child) : Child :=
  if c.objectID = child then { c with letters := some (insertMember letter c.letters) } else c

namespace Store

def addToItems (s : Store) (child item : ObjectID) : Store :=
  { s with
    children := s.children.map (Child.withItem child item)
    items := s.items.map fun i => if i.objectID = item then { i with child := some child } else i }

/-- `child.addToLetters(letter)`, which `letter.child = child` does as well. -/
def addToLetters (s : Store) (child letter : ObjectID) : Store :=
  { s with
    children := s.children.map (Child.withLetter child letter)
    letters := s.letters.map fun l =>
      if l.objectID = letter then { l with child := some child } else l }

def itemsOf (s : Store) (child : ObjectID) : List Item := s.items.filter fun i => i.child = some child

def lettersOf (s : Store) (child : ObjectID) : List Letter :=
  s.letters.filter fun l => l.child = some child

end Store

theorem insertMember_of_not_mem {x : ObjectID} {xs : List ObjectID} (h : x ∉ xs) :
    insertMember x (some xs) = xs ++ [x] := by
  simp [insertMember, h]

theorem insertMember_twice (x : ObjectID) (set : Option (List ObjectID)) :
    insertMember x (some (insertMember x set)) = insertMember x set := by
  unfold insertMember
  split
  · simp_all
  · simp

section Linked
variable (child member : ObjectID) (c : Child)

@[simp] theorem Child.withItem_objectID : (c.withItem child member).objectID = c.objectID := by
  unfold Child.withItem
  split <;> rfl

@[simp] theorem Child.withItem_name : (c.withItem child member).name = c.name := by
  unfold Child.withItem
  split <;> rfl

@[simp] theorem Child.withItem_age : (c.withItem child member).age = c.age := by
  unfold Child.withItem
  split <;> rfl

@[simp] theorem Child.withItem_letters : (c.withItem child member).letters = c.letters := by
  unfold Child.withItem
  split <;> rfl

@[simp] theorem Child.withLetter_objectID : (c.withLetter child member).objectID = c.objectID := by
  unfold Child.withLetter
  split <;> rfl

@[simp] theorem Child.withLetter_name : (c.withLetter child member).name = c.name := by
  unfold Child.withLetter
  split <;> rfl

@[simp] theorem Child.withLetter_age : (c.withLetter child member).age = c.age := by
  unfold Child.withLetter
  split <;> rfl

@[simp] theorem Child.withLetter_items : (c.withLetter child member).items = c.items := by
  unfold Child.withLetter
  split <;> rfl

theorem Child.withLetter_twice :
    (c.withLetter child member).withLetter child member = c.withLetter child member := by
  by_cases hc : c.objectID = child
  · simp [Child.withLetter, hc, insertMember_twice]
  · simp [Child.withLetter, hc]

end Linked

/-! ## Well-formed graphs -/

/-- Identities are unique, every attribute is set, and both sides of each relationship agree. -/
structure Store.WellFormed (s : Store) : Prop where
  childIDs : (s.children.map Child.objectID).Nodup
  itemIDs : (s.items.map Item.objectID).Nodup
  letterIDs : (s.letters.map Letter.objectID).Nodup
  attributes : ∀ c ∈ s.children, ∃ name age, c.name = some name ∧ c.age = some age
  items : ∀ c ∈ s.children, c.items = some ((s.itemsOf c.objectID).map Item.objectID)
  letters : ∀ c ∈ s.children, c.letters = some ((s.lettersOf c.objectID).map Letter.objectID)
  item : ∀ i ∈ s.items, (∃ rep, i.itemRepresentation = some rep) ∧
    ∃ c ∈ s.children, i.child = some c.objectID
  letter : ∀ l ∈ s.letters, (∃ rep, l.letterRepresentation = some rep) ∧
    ∃ c ∈ s.children, l.child = some c.objectID

theorem Store.wellFormed_empty : ({} : Store).WellFormed := by
  constructor <;> simp

theorem mapM_some_of_forall {α β : Type} {f : α → Option β} {xs : List α}
    (h : ∀ x ∈ xs, ∃ y, f x = some y) :
    ∃ ys, xs.mapM f = some ys ∧ List.Forall₂ (fun x y => f x = some y) xs ys := by
  induction xs with
  | nil => exact ⟨[], rfl, .nil⟩
  | cons x xs ih =>
    obtain ⟨y, hy⟩ := h x List.mem_cons_self
    obtain ⟨ys, hys, hall⟩ := ih fun x hx => h x (List.mem_cons_of_mem _ hx)
    exact ⟨y :: ys, by simp [List.mapM_cons, hy, hys], .cons hy hall⟩

namespace Store.WellFormed
variable {s : Store}

theorem child?_of_mem (h : s.WellFormed) {c : Child} (hc : c ∈ s.children) :
    s.child? c.objectID = some c :=
  Fields.find_key_of_mem h.childIDs hc

theorem item?_of_mem (h : s.WellFormed) {i : Item} (hi : i ∈ s.items) :
    s.item? i.objectID = some i :=
  Fields.find_key_of_mem h.itemIDs hi

theorem letter?_of_mem (h : s.WellFormed) {l : Letter} (hl : l ∈ s.letters) :
    s.letter? l.objectID = some l :=
  Fields.find_key_of_mem h.letterIDs hl

theorem mem_itemsOf {i : Item} {child : ObjectID} (hi : i ∈ s.itemsOf child) : i ∈ s.items :=
  List.mem_of_mem_filter hi

theorem mem_lettersOf {l : Letter} {child : ObjectID} (hl : l ∈ s.lettersOf child) :
    l ∈ s.letters :=
  List.mem_of_mem_filter hl

/-- Every item belongs to a child. -/
theorem items_eq_nil (h : s.WellFormed) (hnone : ∀ c ∈ s.children, s.itemsOf c.objectID = []) :
    s.items = [] := by
  rw [List.eq_nil_iff_forall_not_mem]
  intro i hi
  obtain ⟨c, hc, hic⟩ := (h.item i hi).2
  have hmem : i ∈ s.itemsOf c.objectID := List.mem_filter.mpr ⟨hi, by simpa using hic⟩
  rw [hnone c hc] at hmem
  cases hmem

theorem letters_eq_nil (h : s.WellFormed) (hnone : ∀ c ∈ s.children, s.lettersOf c.objectID = []) :
    s.letters = [] := by
  rw [List.eq_nil_iff_forall_not_mem]
  intro l hl
  obtain ⟨c, hc, hlc⟩ := (h.letter l hl).2
  have hmem : l ∈ s.lettersOf c.objectID := List.mem_filter.mpr ⟨hl, by simpa using hlc⟩
  rw [hnone c hc] at hmem
  cases hmem

/-- In a well-formed graph every child has a representation, and it is complete. -/
theorem childRepresentation_eq (h : s.WellFormed) {c : Child} (hc : c ∈ s.children) :
    ∃ rep, s.childRepresentation c.objectID = some rep ∧
      c.name = some rep.name ∧ c.age = some rep.age ∧
      List.Forall₂ (fun (l : Letter) r => l.letterRepresentation = some r)
        (s.lettersOf c.objectID) rep.letters ∧
      List.Forall₂ (fun (i : Item) r => i.itemRepresentation = some r)
        (s.itemsOf c.objectID) rep.items := by
  obtain ⟨name, age, hname, hage⟩ := h.attributes c hc
  have hrepLetters : ∀ l ∈ s.lettersOf c.objectID, ∃ rep, l.letterRepresentation = some rep :=
    fun l hl => (h.letter l (mem_lettersOf hl)).1
  have hrepItems : ∀ i ∈ s.itemsOf c.objectID, ∃ rep, i.itemRepresentation = some rep :=
    fun i hi => (h.item i (mem_itemsOf hi)).1
  obtain ⟨letters, hletters, hallLetters⟩ := mapM_some_of_forall hrepLetters
  obtain ⟨items, hitems, hallItems⟩ := mapM_some_of_forall hrepItems
  have hl : ((s.lettersOf c.objectID).map Letter.objectID).filterMap s.letter? =
      s.lettersOf c.objectID :=
    Fields.filterMap_find_key h.letterIDs fun _ => mem_lettersOf
  have hi : ((s.itemsOf c.objectID).map Item.objectID).filterMap s.item? =
      s.itemsOf c.objectID :=
    Fields.filterMap_find_key h.itemIDs fun _ => mem_itemsOf
  refine ⟨⟨name, age, letters, items⟩, ?_, hname, hage, hallLetters, hallItems⟩
  simp [Store.childRepresentation, h.child?_of_mem hc, Child.childRepresentation, hname, hage,
    h.letters c hc, h.items c hc, hl, hi, hletters, hitems]

end Store.WellFormed

end SantaIWish
