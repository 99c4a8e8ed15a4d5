import SantaIWish.Controller.LocalStore

/-!
# Every stored child can be uploaded

The guards of the requests ask for the representations of managed objects whose
attributes are all optional. In a well-formed graph none of them is nil, and the
representation of a child holds one part for each letter and item of its sets.
-/

namespace SantaIWish
set_option autoImplicit false

/-- The elements of `child.letters`. -/
def Child.letterObjects (c : Child) (s : Store) : List Letter :=
  (c.letters.getD []).filterMap s.letter?

/-- The elements of `child.items`. -/
def Child.itemObjects (c : Child) (s : Store) : List Item :=
  (c.items.getD []).filterMap s.item?

/-- The representation carries the texts of the child, and its lists are those of the elements of the
two sets, up to order. -/
structure Child.RepresentedBy (c : Child) (s : Store) (rep : ChildRepresentation) : Prop where
  name : c.name = some rep.name
  age : c.age = some rep.age
  letters : (rep.letters.map some).Perm ((c.letterObjects s).map Letter.letterRepresentation)
  items : (rep.items.map some).Perm ((c.itemObjects s).map Item.itemRepresentation)

/-- Both relationships are set, every member of them is an object of the graph and stands in them once. -/
structure Child.Linked (c : Child) (s : Store) : Prop where
  letters : c.letters = some ((c.letterObjects s).map Letter.objectID)
  items : c.items = some ((c.itemObjects s).map Item.objectID)
  letterSet : ((c.letterObjects s).map Letter.objectID).Nodup
  itemSet : ((c.itemObjects s).map Item.objectID).Nodup

theorem forall₂_some_iff {A B : Type} {f : A → Option B} {xs : List A} {ys : List B} :
    List.Forall₂ (fun x y => f x = some y) xs ys ↔ xs.map f = ys.map some := by
  rw [← List.forall₂_eq_eq_eq, List.forall₂_map_left_iff, List.forall₂_map_right_iff]

namespace Store.WellFormed
variable {s : Store} {c : Child}

theorem letterObjects_eq (h : s.WellFormed) (hc : c ∈ s.children) :
    c.letterObjects s = s.lettersOf c.objectID := by
  rw [Child.letterObjects, h.letters c hc, Option.getD_some]
  exact Fields.filterMap_find_key h.letterIDs fun _ => mem_lettersOf

theorem itemObjects_eq (h : s.WellFormed) (hc : c ∈ s.children) :
    c.itemObjects s = s.itemsOf c.objectID := by
  rw [Child.itemObjects, h.items c hc, Option.getD_some]
  exact Fields.filterMap_find_key h.itemIDs fun _ => mem_itemsOf

theorem linked (h : s.WellFormed) (hc : c ∈ s.children) : c.Linked s := by
  refine ⟨?_, ?_, ?_, ?_⟩
  · rw [h.letterObjects_eq hc]
    exact h.letters c hc
  · rw [h.itemObjects_eq hc]
    exact h.items c hc
  · rw [h.letterObjects_eq hc]
    exact h.letterIDs.sublist (List.filter_sublist.map Letter.objectID)
  · rw [h.itemObjects_eq hc]
    exact h.itemIDs.sublist (List.filter_sublist.map Item.objectID)

theorem representedBy (h : s.WellFormed) (hc : c ∈ s.children) :
    ∃ rep, c.childRepresentation s = some rep ∧ c.RepresentedBy s rep := by
  obtain ⟨rep, hrep, hname, hage, hletters, hitems⟩ := h.childRepresentation_eq hc
  rw [Store.childRepresentation, h.child?_of_mem hc, Option.bind_some] at hrep
  refine ⟨rep, hrep, hname, hage, ?_, ?_⟩
  · rw [h.letterObjects_eq hc, forall₂_some_iff.mp hletters]
  · rw [h.itemObjects_eq hc, forall₂_some_iff.mp hitems]

theorem childRepresentation_isSome (h : s.WellFormed) (hc : c ∈ s.children) :
    (s.childRepresentation c.objectID).isSome = true := by
  obtain ⟨rep, hrep, _⟩ := h.childRepresentation_eq hc
  rw [hrep]
  rfl

theorem itemRepresentation_isSome (h : s.WellFormed) {i : Item} (hi : i ∈ s.items) :
    (s.itemRepresentation i.objectID).isSome = true := by
  obtain ⟨rep, hrep⟩ := (h.item i hi).1
  rw [Store.itemRepresentation, h.item?_of_mem hi, Option.bind_some, hrep]
  rfl

theorem letterRepresentation_isSome (h : s.WellFormed) {l : Letter} (hl : l ∈ s.letters) :
    (s.letterRepresentation l.objectID).isSome = true := by
  obtain ⟨rep, hrep⟩ := (h.letter l hl).1
  rw [Store.letterRepresentation, h.letter?_of_mem hl, Option.bind_some, hrep]
  rfl

end Store.WellFormed

/-! ## The guards of the requests -/

/-- No request about the child is dropped once there is a user. -/
structure Store.NoneDropped (s : Store) (c : Child) (uid : String) (throws : Bool) : Prop where
  putChild : ¬ (putChild s c.objectID (some uid) throws).Dropped
  putItem : ∀ i ∈ s.items, ¬ (putItem s c.objectID (some uid) i.objectID throws).Dropped
  putLetter : ∀ l ∈ s.letters, ¬ (putLetter s c.objectID (some uid) l.objectID throws).Dropped
  fetchItemsFromServer : ¬ (fetchItemsFromServer s c.objectID (some uid)).Dropped

theorem Store.WellFormed.noneDropped {s : Store} {c : Child} (h : s.WellFormed)
    (hc : c ∈ s.children) (uid : String) (throws : Bool) : s.NoneDropped c uid throws := by
  obtain ⟨rep, hrep⟩ := Option.isSome_iff_exists.mp (h.childRepresentation_isSome hc)
  refine ⟨sendPut_not_dropped ?_ throws _, fun i hi => sendPut_not_dropped ?_ throws _,
    fun l hl => sendPut_not_dropped ?_ throws _, sendGet_not_dropped ?_ _ _ _⟩
  · simp [hrep]
  · obtain ⟨itemRep, hitem⟩ := Option.isSome_iff_exists.mp (h.itemRepresentation_isSome hi)
    simp [hrep, hitem]
  · obtain ⟨letterRep, hletter⟩ := Option.isSome_iff_exists.mp (h.letterRepresentation_isSome hl)
    simp [hrep, hletter]
  · simp [hrep]

/-- In every store that adds can reach, every child is represented in full, and none of the requests
about it is dropped. -/
theorem stored_child_uploads (s : LocalStore) (hs : s.Reachable) (c : Child)
    (hc : c ∈ s.graph.children) :
    (∃ rep, c.childRepresentation s.graph = some rep ∧ c.RepresentedBy s.graph rep) ∧
      c.Linked s.graph ∧ ∀ uid throws, s.graph.NoneDropped c uid throws := by
  obtain ⟨ops, hrun⟩ := hs
  have hgraph : s.graph.WellFormed := by
    refine Runs.run_invariant (I := fun s : LocalStore => s.graph.WellFormed) Store.wellFormed_empty
      ?_ hrun
    intro s op t hs hstep
    obtain ⟨henabled, ht⟩ := LocalStore.add_eq_some.mp hstep
    rw [ht]
    exact AddOp.inserted_wellFormed hs henabled
  exact ⟨hgraph.representedBy hc, hgraph.linked hc, hgraph.noneDropped hc⟩

theorem ann_uploads : ∃ s : LocalStore, s.Reachable ∧ ∃ c ∈ s.graph.children,
    c.items = some [0] ∧ c.letters = some [5, 6] ∧
      ((∃ rep, c.childRepresentation s.graph = some rep ∧ c.RepresentedBy s.graph rep) ∧
        c.Linked s.graph ∧ ∀ uid throws, s.graph.NoneDropped c uid throws) := by
  let ops : List AddOp := [.addChild 0 "Ann" 7, .addItem 0 0 [1, 2] "red" "Train",
    .addLetter 5 0 "Please" "Hello", .addLetter 6 0 "" "Hello"]
  obtain ⟨s, hs⟩ : ∃ s, Runs.run LocalStore.add .empty ops = some s := ⟨_, rfl⟩
  have hreach : s.Reachable := ⟨ops, hs⟩
  obtain ⟨c, hc, hitems, hletters⟩ :
      ∃ c ∈ s.graph.children, c.items = some [0] ∧ c.letters = some [5, 6] := by
    obtain rfl := Option.some.inj hs
    exact ⟨_, List.mem_cons_self, rfl, rfl⟩
  exact ⟨s, hreach, c, hc, hitems, hletters, stored_child_uploads s hreach c hc⟩

end SantaIWish
