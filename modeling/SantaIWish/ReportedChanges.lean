import SantaIWish.Controller.TableUpdates

/-!
# Tables that follow a fetched results controller

After every report the wish-list table shows the new list. The letters table does
so exactly when nothing was inserted and no moved letter has a new title: an
insertion makes its row counts disagree, and a moved cell is not configured again.
-/

namespace SantaIWish
open BatchUpdates
set_option autoImplicit false

universe u

variable {A : Type u} {objectID : A → ObjectID} {text : A → Option String}

/-! ## Cells -/

theorem cells_eq_map (objects : List A) :
    cells objectID text objects = objects.map fun x => ⟨objectID x, text x⟩ := by
  unfold cells numberOfRowsInSection
  induction objects with
  | nil => rfl
  | cons x objects ih =>
    have hfirst : cellForRowAt objectID text (x :: objects) 0 = some ⟨objectID x, text x⟩ := rfl
    rw [List.length_cons, List.range_succ_eq_map, List.filterMap_cons_some hfirst, List.filterMap_map,
      List.map_cons]
    exact congrArg _ ih

@[simp] theorem length_cells (objects : List A) :
    (cells objectID text objects).length = objects.length := by
  rw [cells_eq_map, List.length_map]

theorem others_cells (positions : List Nat) (objects : List A) :
    others positions (cells objectID text objects) =
      (others positions objects).map fun x => (⟨objectID x.1, text x.1⟩, x.2) := by
  rw [cells_eq_map, others, List.zipIdx_map, List.filter_map]
  rfl

/-! ## Reports -/

namespace IsReport
variable {old new : List A} {changes calls : List Change}

theorem perm (h : IsReport objectID old new changes) (hcalls : calls.Perm changes) :
    IsReport objectID old new calls where
  oldOnce := (((hcalls.filterMap _).append (hcalls.filterMap _)).nodup_iff).mpr h.oldOnce
  newOnce := ((hcalls.filterMap _).nodup_iff).mpr h.newOnce
  indexPath := fun c hc => h.indexPath c (hcalls.mem_iff.mp hc)
  newIndexPath := fun c hc => h.newIndexPath c (hcalls.mem_iff.mp hc)
  rest := by
    rw [others_perm (hcalls.filterMap Change.removed), others_perm (hcalls.filterMap Change.added)]
    refine h.rest.imp fun x y hxy => ⟨hxy.1, ?_⟩
    rw [(hcalls.filterMap Change.updated).mem_iff]
    exact hxy.2

theorem old_range (h : IsReport objectID old new changes) {i : Nat}
    (hi : i ∈ changes.filterMap Change.removed ++ changes.filterMap Change.updated) :
    i < old.length := by
  have hchange : ∃ c ∈ changes, c.didChange.indexPath = some i := by
    rcases List.mem_append.mp hi with hi | hi
    · obtain ⟨c, hc, hremoved⟩ := List.mem_filterMap.mp hi
      refine ⟨c, hc, ?_⟩
      cases c <;> simp_all [Change.removed, Change.didChange]
    · obtain ⟨c, hc, hupdated⟩ := List.mem_filterMap.mp hi
      refine ⟨c, hc, ?_⟩
      cases c <;> simp_all [Change.updated, Change.didChange]
  obtain ⟨c, hc, hindex⟩ := hchange
  obtain ⟨x, hx, _⟩ := h.indexPath c hc i hindex
  exact (List.getElem?_eq_some_iff.mp hx).1

theorem new_range (h : IsReport objectID old new changes) {j : Nat}
    (hj : j ∈ changes.filterMap Change.added) : j < new.length := by
  obtain ⟨c, hc, hadded⟩ := List.mem_filterMap.mp hj
  have hindex : c.didChange.newIndexPath = some j := by
    cases c <;> simp_all [Change.added, Change.didChange]
  obtain ⟨y, hy, _⟩ := h.newIndexPath c hc j hindex
  exact (List.getElem?_eq_some_iff.mp hy).1

theorem counts (h : IsReport objectID old new changes) :
    old.length + (changes.filterMap Change.added).length =
      new.length + (changes.filterMap Change.removed).length := by
  have hold := length_others (List.nodup_append.mp h.oldOnce).1
    fun i hi => h.old_range (List.mem_append_left _ hi)
  have hnew := length_others h.newOnce fun j hj => h.new_range hj
  have hrest := h.rest.length_eq
  omega

/-- A batch that takes away, reloads and adds the rows a report names fits the two lists. -/
theorem fits (h : IsReport objectID old new changes) {batch : List Update}
    (hremoved : batch.filterMap Update.removed = changes.filterMap Change.removed)
    (hreloaded : batch.filterMap Update.reloaded = changes.filterMap Change.updated)
    (hadded : batch.filterMap Update.added = changes.filterMap Change.added) :
    Fits batch old.length new.length where
  oldOnce := by rw [hremoved, hreloaded]; exact h.oldOnce
  oldRange := by rw [hremoved, hreloaded]; exact fun i hi => h.old_range hi
  newOnce := by rw [hadded]; exact h.newOnce
  newRange := by rw [hadded]; exact fun j hj => h.new_range hj
  counts := by rw [hremoved, hadded]; exact h.counts

/-- Such a batch shows the new list exactly when the rows it moves need not change. -/
theorem perform_iff (h : IsReport objectID old new changes) {batch : List Update}
    (hremoved : batch.filterMap Update.removed = changes.filterMap Change.removed)
    (hreloaded : batch.filterMap Update.reloaded = changes.filterMap Change.updated)
    (hadded : batch.filterMap Update.added = changes.filterMap Change.added) :
    perform batch (cells objectID text new) (cells objectID text old) =
        some (cells objectID text new) ↔
      ∀ i j, .move i j ∈ batch →
        (cells objectID text old)[i]? = (cells objectID text new)[j]? := by
  have hfits := h.fits hremoved hreloaded hadded
  rw [perform_eq_source_iff (by rwa [length_cells, length_cells]), and_iff_left_iff_imp]
  intro _
  rw [hremoved, hreloaded, hadded, others_cells, others_cells, List.forall₂_map_left_iff,
    List.forall₂_map_right_iff]
  refine h.rest.imp fun x y hxy => ?_
  rcases hxy.2 with hupdated | hsame
  · exact Or.inl hupdated
  · exact Or.inr (by rw [hsame])

end IsReport

/-! ## The updates of a report -/

theorem filterMap_flatMap_updates {updates : Change → List Update} {f : Update → Option Nat}
    {g : Change → Option Nat} (h : ∀ c, (updates c).filterMap f = (g c).toList)
    (changes : List Change) : (changes.flatMap updates).filterMap f = changes.filterMap g := by
  rw [List.filterMap_flatMap, List.filterMap_eq_flatMap_toList]
  simp only [h]

namespace WishlistsTableViewController

theorem removed_updates (c : Change) : (updates c).filterMap Update.removed = c.removed.toList := by
  cases c <;> rfl

theorem reloaded_updates (c : Change) : (updates c).filterMap Update.reloaded = c.updated.toList := by
  cases c <;> rfl

theorem added_updates (c : Change) : (updates c).filterMap Update.added = c.added.toList := by
  cases c <;> rfl

theorem move_not_mem_updates (c : Change) (i j : Nat) : .move i j ∉ updates c := by
  cases c <;> simp [updates]

theorem perform_updates {old new : List A} {changes : List Change}
    (h : IsReport objectID old new changes) :
    perform (changes.flatMap updates) (cells objectID text new) (cells objectID text old) =
      some (cells objectID text new) := by
  rw [h.perform_iff (filterMap_flatMap_updates removed_updates changes)
    (filterMap_flatMap_updates reloaded_updates changes)
    (filterMap_flatMap_updates added_updates changes)]
  intro i j hmove
  obtain ⟨c, _, hc⟩ := List.mem_flatMap.mp hmove
  exact absurd hc (move_not_mem_updates c i j)

end WishlistsTableViewController

namespace SantaLettersTableViewController

theorem removed_updates (c : Change) : (updates c).filterMap Update.removed = c.removed.toList := by
  cases c <;> rfl

theorem reloaded_updates (c : Change) : (updates c).filterMap Update.reloaded = c.updated.toList := by
  cases c <;> rfl

theorem move_mem_updates_iff {c : Change} {i j : Nat} :
    .move i j ∈ updates c ↔ ∃ object, c = .move object i j := by
  cases c <;> simp [updates, eq_comm]

theorem length_added_updates (changes : List Change) :
    (changes.filterMap Change.added).length =
      ((changes.flatMap updates).filterMap Update.added).length +
        changes.countP fun c => c.didChange.type = .insert := by
  induction changes with
  | nil => rfl
  | cons c changes ih =>
    have hchange : c.added.toList.length = ((updates c).filterMap Update.added).length +
        if decide (c.didChange.type = .insert) = true then 1 else 0 := by cases c <;> rfl
    rw [List.filterMap_eq_flatMap_toList] at ih ⊢
    rw [List.flatMap_cons, List.flatMap_cons, List.filterMap_append, List.length_append,
      List.length_append, List.countP_cons, ih, hchange]
    omega

theorem added_updates_of_no_insert {changes : List Change} (h : ∀ object j, .insert object j ∉ changes) :
    (changes.flatMap updates).filterMap Update.added = changes.filterMap Change.added := by
  rw [List.filterMap_flatMap, List.filterMap_eq_flatMap_toList]
  refine List.flatMap_congr fun c hc => ?_
  cases c with
  | insert object j => exact absurd hc (h object j)
  | delete object i => rfl
  | update object i => rfl
  | move object i j => rfl

/-- An insertion makes the row counts disagree, which ends the program. -/
theorem perform_updates_of_insert {old new : List A} {changes : List Change}
    (h : IsReport objectID old new changes) {object : ObjectID} {j : Nat}
    (hinsert : .insert object j ∈ changes) :
    perform (changes.flatMap updates) (cells objectID text new) (cells objectID text old) = none := by
  rw [perform_eq_none_iff]
  intro hfits
  have htold := hfits.counts
  rw [length_cells, length_cells, filterMap_flatMap_updates removed_updates] at htold
  have hreport := h.counts
  have hadded := length_added_updates changes
  have hpos : 0 < changes.countP fun c => c.didChange.type = .insert :=
    List.countP_pos_iff.mpr ⟨_, hinsert, rfl⟩
  omega

/-- The letters table shows the new list exactly when nothing is inserted and moved letters keep their
titles. -/
theorem perform_updates_iff {old new : List A} {changes : List Change}
    (h : IsReport objectID old new changes) :
    perform (changes.flatMap updates) (cells objectID text new) (cells objectID text old) =
        some (cells objectID text new) ↔
      (∀ object j, .insert object j ∉ changes) ∧
      ∀ object i j, .move object i j ∈ changes → ∀ x y, old[i]? = some x → new[j]? = some y →
        text x = text y := by
  by_cases hinsert : ∃ object j, .insert object j ∈ changes
  · obtain ⟨object, j, hmem⟩ := hinsert
    rw [perform_updates_of_insert h hmem]
    refine iff_of_false (by simp) fun hnone => hnone.1 object j hmem
  · have hnone : ∀ object j, .insert object j ∉ changes := fun object j hmem =>
      hinsert ⟨object, j, hmem⟩
    rw [h.perform_iff (filterMap_flatMap_updates removed_updates changes)
      (filterMap_flatMap_updates reloaded_updates changes) (added_updates_of_no_insert hnone),
      and_iff_right hnone, cells_eq_map, cells_eq_map]
    simp only [List.getElem?_map]
    constructor
    · intro hmoved object i j hmem x y hx hy
      have hcell := hmoved i j (List.mem_flatMap.mpr ⟨_, hmem, List.mem_singleton_self _⟩)
      rw [hx, hy] at hcell
      exact (Cell.mk.inj (Option.some.inj hcell)).2
    · intro htitles i j hmem
      obtain ⟨c, hc, hmove⟩ := List.mem_flatMap.mp hmem
      obtain ⟨object, rfl⟩ := move_mem_updates_iff.mp hmove
      obtain ⟨x, hx, hobject⟩ := h.indexPath _ hc i rfl
      obtain ⟨y, hy, hobject'⟩ := h.newIndexPath _ hc j rfl
      rw [hx, hy, Option.map_some, Option.map_some, htitles object i j hc x y hx hy, hobject, hobject']

end SantaLettersTableViewController

/-! ## The tables after a report -/

/-- Shows exactly these objects, each with its current contents. -/
def TableView.showing (objectID : A → ObjectID) (text : A → Option String) (objects : List A) :
    TableView :=
  ⟨objects.map fun x => ⟨objectID x, text x⟩, none⟩

theorem TableView.showing_eq (objects : List A) :
    TableView.showing objectID text objects = ⟨cells objectID text objects, none⟩ := by
  rw [cells_eq_map]
  rfl

/-- After a report of any changes, its callbacks in any order, the wish-list table shows the new list. -/
theorem wishlist_shows_new {old new : List Item} {changes calls : List Change}
    (hreport : IsReport Item.objectID old new changes) (hcalls : calls.Perm changes) :
    processReport WishlistsTableViewController.didChange (cells Item.objectID Item.name new)
      (.showing Item.objectID Item.name old) calls = some (.showing Item.objectID Item.name new) := by
  rw [TableView.showing_eq, TableView.showing_eq,
    processReport_eq WishlistsTableViewController.didChange_open,
    WishlistsTableViewController.perform_updates (hreport.perm hcalls), Option.map_some]

/-- Of a ball, a car and a doll the doll is deleted, the car gets a note, the ball becomes a train and a
book comes first. -/
theorem wishlist_shows_book_car_train :
    processReport WishlistsTableViewController.didChange
      (cells Item.objectID Item.name [⟨4, none, none, some "book", none⟩,
        ⟨2, none, some "red", some "car", none⟩, ⟨1, none, none, some "train", none⟩])
      (.showing Item.objectID Item.name [⟨1, none, none, some "ball", none⟩,
        ⟨2, none, none, some "car", none⟩, ⟨3, none, none, some "doll", none⟩])
      [.insert 4 0, .move 1 0 2, .update 2 1, .delete 3 2] =
    some (.showing Item.objectID Item.name [⟨4, none, none, some "book", none⟩,
      ⟨2, none, some "red", some "car", none⟩, ⟨1, none, none, some "train", none⟩]) := by
  refine @wishlist_shows_new _ _ [.delete 3 2, .update 2 1, .move 1 0 2, .insert 4 0] _
    ⟨by decide, by decide, ?_, ?_, ?_⟩ (by decide)
  · simp [Change.didChange]
  · simp [Change.didChange]
  · exact .cons ⟨rfl, Or.inl (by decide)⟩ .nil

/-- The two tables treat a report alike exactly when it has no insertion and no moved object shows a new
text. `text` is what the label gets, the name of an item or the title of a letter. -/
theorem letters_same_iff {old new : List A} {changes calls : List Change}
    (hreport : IsReport objectID old new changes) (hcalls : calls.Perm changes) :
    processReport SantaLettersTableViewController.didChange (cells objectID text new)
        (.showing objectID text old) calls =
      processReport WishlistsTableViewController.didChange (cells objectID text new)
        (.showing objectID text old) calls ↔
      (∀ object j, .insert object j ∉ changes) ∧
      ∀ object i j, .move object i j ∈ changes → ∀ x y, old[i]? = some x → new[j]? = some y →
        text x = text y := by
  have hcalled := hreport.perm hcalls
  have hrows : Function.Injective fun rows : List Cell => (⟨rows, none⟩ : TableView) :=
    fun _ _ h => (TableView.mk.inj h).1
  rw [TableView.showing_eq, processReport_eq WishlistsTableViewController.didChange_open,
    processReport_eq SantaLettersTableViewController.didChange_open,
    (Option.map_injective hrows).eq_iff, WishlistsTableViewController.perform_updates hcalled,
    SantaLettersTableViewController.perform_updates_iff hcalled]
  simp only [hcalls.mem_iff]

/-- One letter is deleted, one gets a note, and one changes its place but not its title. -/
theorem letters_same_without_insertion :
    processReport SantaLettersTableViewController.didChange
        (cells Letter.objectID Letter.title [⟨3, none, some "Hello", none⟩,
          ⟨2, some "a sled", some "Dear Santa", none⟩])
        (.showing Letter.objectID Letter.title [⟨1, none, some "Cookies", none⟩,
          ⟨2, none, some "Dear Santa", none⟩, ⟨3, none, some "Hello", none⟩])
        [.move 3 2 0, .update 2 1, .delete 1 0] =
      processReport WishlistsTableViewController.didChange
        (cells Letter.objectID Letter.title [⟨3, none, some "Hello", none⟩,
          ⟨2, some "a sled", some "Dear Santa", none⟩])
        (.showing Letter.objectID Letter.title [⟨1, none, some "Cookies", none⟩,
          ⟨2, none, some "Dear Santa", none⟩, ⟨3, none, some "Hello", none⟩])
        [.move 3 2 0, .update 2 1, .delete 1 0] := by
  refine (@letters_same_iff _ _ _ _ _ [.delete 1 0, .update 2 1, .move 3 2 0] _
    ⟨by decide, by decide, ?_, ?_, ?_⟩ (by decide)).mpr ⟨by simp, ?_⟩
  · simp [Change.didChange]
  · simp [Change.didChange]
  · exact .cons ⟨rfl, Or.inl (by decide)⟩ .nil
  · intro object i j hmove x y hx hy
    obtain ⟨rfl, rfl, rfl⟩ : object = 3 ∧ i = 2 ∧ j = 0 := by simpa using hmove
    obtain rfl := Option.some.inj hx
    obtain rfl := Option.some.inj hy
    rfl

/-- The first letter of a child: the wish-list table would show its row, the letters table refuses. -/
theorem first_letter_not_inserted :
    ¬ ∀ (old new : List Letter) (changes calls : List Change),
      IsReport Letter.objectID old new changes → calls.Perm changes →
      processReport SantaLettersTableViewController.didChange (cells Letter.objectID Letter.title new)
          (.showing Letter.objectID Letter.title old) calls =
        processReport WishlistsTableViewController.didChange (cells Letter.objectID Letter.title new)
          (.showing Letter.objectID Letter.title old) calls := by
  intro h
  have hreport : IsReport Letter.objectID [] [⟨1, none, some "Dear Santa", none⟩] [.insert 1 0] :=
    ⟨by decide, by decide, by simp [Change.didChange], by simp [Change.didChange], .nil⟩
  have hsame := h [] [⟨1, none, some "Dear Santa", none⟩] [.insert 1 0] [.insert 1 0] hreport (.refl _)
  revert hsame
  decide

end SantaIWish
