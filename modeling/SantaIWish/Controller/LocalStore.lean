import SantaIWish.Controller.Adds
import SantaIWish.Library.Runs

/-!
# Well-formed local stores

Every insertion keeps the object graph well-formed, so the local store is the
graph together with that fact, and a run of adds is a run over such stores.
-/

namespace SantaIWish
set_option autoImplicit false

/-- The objects of a child after one more object has been added, to it or to another child. -/
theorem members_snoc {A : Type} {owner : A → Option ObjectID} {key : A → ObjectID} {xs : List A} {x : A}
    {child : ObjectID} (howner : owner x = some child) (hfresh : key x ∉ xs.map key) (c : ObjectID) :
    ((xs ++ [x]).filter fun y => owner y = some c).map key =
      if c = child then insertMember (key x) (some ((xs.filter fun y => owner y = some c).map key))
      else (xs.filter fun y => owner y = some c).map key := by
  rw [List.filter_append, List.map_append]
  by_cases hc : c = child
  · subst child
    have hmem : key x ∉ (xs.filter fun y => owner y = some c).map key := fun h =>
      hfresh ((List.filter_sublist.map key).subset h)
    rw [if_pos rfl, insertMember_of_not_mem hmem]
    simp [howner]
  · have hne : ¬ child = c := fun h => hc h.symm
    simp [howner, hc, hne]

/-- A to-many side that mirrors the inverse side still does after a member is added to both. -/
theorem withItem_items {s : Store} {c : Child} {id child : ObjectID} {image : Data}
    {description name : String} (hfresh : id ∉ s.items.map Item.objectID)
    (hc : c.items = some ((s.itemsOf c.objectID).map Item.objectID)) :
    (c.withItem child id).items = some (((s.items ++ [Item.added id child image description name]).filter
      fun i => i.child = some c.objectID).map Item.objectID) := by
  have hadded : (Item.added id child image description name).child = some child := rfl
  rw [members_snoc hadded hfresh, Child.withItem, hc]
  split
  · rfl
  · exact hc

theorem withLetter_letters {s : Store} {c : Child} {id child : ObjectID} {note title : String}
    (hfresh : id ∉ s.letters.map Letter.objectID)
    (hc : c.letters = some ((s.lettersOf c.objectID).map Letter.objectID)) :
    (c.withLetter child id).letters = some (((s.letters ++ [Letter.added id child note title]).filter
      fun l => l.child = some c.objectID).map Letter.objectID) := by
  have hadded : (Letter.added id child note title).child = some child := rfl
  rw [members_snoc hadded hfresh, Child.withLetter, hc]
  split
  · rfl
  · exact hc

theorem nodup_snoc {α : Type} {xs : List α} {x : α} (hxs : xs.Nodup) (hx : x ∉ xs) :
    (xs ++ [x]).Nodup := by
  rw [List.nodup_append]
  refine ⟨hxs, by simp, ?_⟩
  intro a ha b hb hab
  obtain rfl := List.mem_singleton.mp hb
  exact hx (hab ▸ ha)

namespace AddOp
variable {s : Store}

theorem wellFormed_addChild {id : ObjectID} {name : String} {age : Int} (h : s.WellFormed)
    (hfresh : id ∉ s.children.map Child.objectID) :
    ((addChild id name age).inserted s).WellFormed := by
  rw [inserted_addChild]
  have hnoItem : s.itemsOf id = [] := by
    rw [Store.itemsOf, List.filter_eq_nil_iff]
    intro i hi
    obtain ⟨c, hc, hic⟩ := (h.item i hi).2
    have hne : c.objectID ≠ id := fun he => hfresh (List.mem_map.mpr ⟨c, hc, he⟩)
    simp [hic, hne]
  have hnoLetter : s.lettersOf id = [] := by
    rw [Store.lettersOf, List.filter_eq_nil_iff]
    intro l hl
    obtain ⟨c, hc, hlc⟩ := (h.letter l hl).2
    have hne : c.objectID ≠ id := fun he => hfresh (List.mem_map.mpr ⟨c, hc, he⟩)
    simp [hlc, hne]
  constructor
  · rw [List.map_append]
    exact nodup_snoc h.childIDs hfresh
  · exact h.itemIDs
  · exact h.letterIDs
  · intro c hc
    rcases List.mem_append.mp hc with hc | hc
    · exact h.attributes c hc
    · obtain rfl := List.mem_singleton.mp hc
      exact ⟨name, toString age, rfl, rfl⟩
  · intro c hc
    rcases List.mem_append.mp hc with hc | hc
    · exact h.items c hc
    · obtain rfl := List.mem_singleton.mp hc
      exact congrArg (fun is => some (is.map Item.objectID)) hnoItem.symm
  · intro c hc
    rcases List.mem_append.mp hc with hc | hc
    · exact h.letters c hc
    · obtain rfl := List.mem_singleton.mp hc
      exact congrArg (fun ls => some (ls.map Letter.objectID)) hnoLetter.symm
  · intro i hi
    obtain ⟨hrep, c, hc, hic⟩ := h.item i hi
    exact ⟨hrep, c, List.mem_append_left _ hc, hic⟩
  · intro l hl
    obtain ⟨hrep, c, hc, hlc⟩ := h.letter l hl
    exact ⟨hrep, c, List.mem_append_left _ hc, hlc⟩

theorem wellFormed_addItem {id child : ObjectID} {image : Data} {description name : String}
    (h : s.WellFormed) (hfresh : id ∉ s.items.map Item.objectID)
    (hchild : child ∈ s.children.map Child.objectID) :
    ((addItem id child image description name).inserted s).WellFormed := by
  rw [inserted_addItem hfresh]
  constructor
  · rw [List.map_map]
    exact (List.map_congr_left fun c _ => Child.withItem_objectID child id c) ▸ h.childIDs
  · rw [List.map_append]
    exact nodup_snoc h.itemIDs hfresh
  · exact h.letterIDs
  · intro c hc
    obtain ⟨c, hmem, rfl⟩ := List.mem_map.mp hc
    simpa using h.attributes c hmem
  · intro c hc
    obtain ⟨c, hmem, rfl⟩ := List.mem_map.mp hc
    simpa [Store.itemsOf] using withItem_items hfresh (h.items c hmem)
  · intro c hc
    obtain ⟨c, hmem, rfl⟩ := List.mem_map.mp hc
    simpa [Store.lettersOf] using h.letters c hmem
  · intro i hi
    rcases List.mem_append.mp hi with hi | hi
    · obtain ⟨hrep, c, hc, hic⟩ := h.item i hi
      exact ⟨hrep, c.withItem child id, List.mem_map_of_mem hc, by simpa using hic⟩
    · obtain rfl := List.mem_singleton.mp hi
      obtain ⟨c, hc, rfl⟩ := List.mem_map.mp hchild
      exact ⟨⟨⟨description, name, image⟩, rfl⟩, c.withItem c.objectID id, List.mem_map_of_mem hc,
        by simp [Item.added]⟩
  · intro l hl
    obtain ⟨hrep, c, hc, hlc⟩ := h.letter l hl
    exact ⟨hrep, c.withItem child id, List.mem_map_of_mem hc, by simpa using hlc⟩

theorem wellFormed_addLetter {id child : ObjectID} {note title : String} (h : s.WellFormed)
    (hfresh : id ∉ s.letters.map Letter.objectID)
    (hchild : child ∈ s.children.map Child.objectID) :
    ((addLetter id child note title).inserted s).WellFormed := by
  rw [inserted_addLetter hfresh]
  constructor
  · rw [List.map_map]
    exact (List.map_congr_left fun c _ => Child.withLetter_objectID child id c) ▸ h.childIDs
  · exact h.itemIDs
  · rw [List.map_append]
    exact nodup_snoc h.letterIDs hfresh
  · intro c hc
    obtain ⟨c, hmem, rfl⟩ := List.mem_map.mp hc
    simpa using h.attributes c hmem
  · intro c hc
    obtain ⟨c, hmem, rfl⟩ := List.mem_map.mp hc
    simpa [Store.itemsOf] using h.items c hmem
  · intro c hc
    obtain ⟨c, hmem, rfl⟩ := List.mem_map.mp hc
    simpa [Store.lettersOf] using withLetter_letters hfresh (h.letters c hmem)
  · intro i hi
    obtain ⟨hrep, c, hc, hic⟩ := h.item i hi
    exact ⟨hrep, c.withLetter child id, List.mem_map_of_mem hc, by simpa using hic⟩
  · intro l hl
    rcases List.mem_append.mp hl with hl | hl
    · obtain ⟨hrep, c, hc, hlc⟩ := h.letter l hl
      exact ⟨hrep, c.withLetter child id, List.mem_map_of_mem hc, by simpa using hlc⟩
    · obtain rfl := List.mem_singleton.mp hl
      obtain ⟨c, hc, rfl⟩ := List.mem_map.mp hchild
      exact ⟨⟨⟨note, title⟩, rfl⟩, c.withLetter c.objectID id, List.mem_map_of_mem hc,
        by simp [Letter.added]⟩

theorem inserted_wellFormed {op : AddOp} (h : s.WellFormed) (henabled : op.Enabled s) :
    (op.inserted s).WellFormed := by
  cases op with
  | addChild id name age => exact wellFormed_addChild h henabled
  | addItem id child image description name => exact wellFormed_addItem h henabled.1 henabled.2
  | addLetter id child note title => exact wellFormed_addLetter h henabled.1 henabled.2

end AddOp

structure LocalStore where
  graph : Store
  wellFormed : graph.WellFormed

namespace LocalStore

def empty : LocalStore := ⟨{}, Store.wellFormed_empty⟩

/-- Insert, link and save. -/
def add (s : LocalStore) (op : AddOp) : Option LocalStore :=
  if h : op.Enabled s.graph then
    some ⟨op.inserted s.graph, AddOp.inserted_wellFormed s.wellFormed h⟩
  else none

theorem ext {s t : LocalStore} (h : s.graph = t.graph) : s = t := by
  cases s
  cases t
  cases h
  rfl

theorem add_eq_some {s t : LocalStore} {op : AddOp} :
    s.add op = some t ↔ op.Enabled s.graph ∧ t.graph = op.inserted s.graph := by
  unfold add
  split
  · rename_i h
    constructor
    · intro he
      obtain rfl := Option.some.inj he
      exact ⟨h, rfl⟩
    · intro hh
      obtain ⟨_, ht⟩ := hh
      exact congrArg some (ext ht.symm)
  · rename_i h
    simp [h]

def Reachable (s : LocalStore) : Prop := ∃ ops, Runs.run add empty ops = some s

end LocalStore

end SantaIWish
