import SantaIWish.ShownScreens

/-!
# What is saved is shown

A save button leads back to the list its screen was opened from, at once or with the next
block on the main queue. That list is what it was, with one entry more.
-/

namespace SantaIWish
open Runs NavigationStack
set_option autoImplicit false

/-! ## The lists after an add -/

section Lists
variable {order : NameOrder} {s : Store}

theorem Store.child?_map {f : Child → Child} (hid : ∀ c, (f c).objectID = c.objectID) {t : Store}
    (ht : t.children = s.children.map f) (id : ObjectID) : t.child? id = (s.child? id).map f := by
  have hkey : (fun c : Child => decide (c.objectID = id)) ∘ f = fun c => decide (c.objectID = id) := by
    funext c
    rw [Function.comp_apply, hid c]
  rw [child?, ht, List.find?_map, hkey, child?]

theorem Store.childName_map {f : Child → Child} (hid : ∀ c, (f c).objectID = c.objectID)
    (hname : ∀ c, (f c).name = c.name) {t : Store} (ht : t.children = s.children.map f)
    (owner : Option ObjectID) : t.childName owner = s.childName owner := by
  cases owner with
  | none => rfl
  | some id =>
    simp only [childName, Option.bind_some, Store.child?_map hid ht]
    cases s.child? id with
    | none => rfl
    | some c => exact hname c

/-- One more object of a child, in a store whose children have kept their names. -/
theorem fetchByChildName_snoc {A : Type} {owner : A → Option ObjectID} (key : A → Option String)
    (objects : List A) {x : A} {f : Child → Child} (hid : ∀ c, (f c).objectID = c.objectID)
    (hname : ∀ c, (f c).name = c.name) {t : Store} (ht : t.children = s.children.map f)
    (hs : s.WellFormed) {c : Child} (hc : c ∈ s.children) (hx : owner x = some c.objectID) :
    (fetchByChildName order t (t.child? c.objectID) owner key (objects ++ [x])).Perm
      (x :: fetchByChildName order s (some c) owner key objects) := by
  have hchild : t.child? c.objectID = some (f c) := by
    rw [Store.child?_map hid ht, hs.child?_of_mem hc, Option.map_some]
  have hsame : getChildName (some (f c)) = getChildName (some c) := by
    simp [getChildName, hname c]
  have hown : s.childName (owner x) = some (getChildName (some c)) := by
    obtain ⟨name, _, hc', _⟩ := hs.attributes c hc
    simp [Store.childName, hx, hs.child?_of_mem hc, getChildName, hc']
  have hfilter :
      (objects ++ [x]).filter (fun y => t.childName (owner y) = some (getChildName (some (f c)))) =
        objects.filter (fun y => s.childName (owner y) = some (getChildName (some c))) ++ [x] := by
    simp [hsame, Store.childName_map hid hname ht, hown]
  rw [hchild, fetchByChildName, hfilter, fetchByChildName]
  refine (List.mergeSort_perm _ _).trans ((List.perm_append_singleton _ _).trans ?_)
  exact (List.mergeSort_perm _ _).symm.cons x

theorem profileCells_snoc {c : Child} {t : Store} (ht : t.children = s.children ++ [c]) :
    (profileCells order t).Perm (c.profileCell :: profileCells order s) := by
  rw [profileCells, ht, profileCells, ← List.map_cons]
  apply List.Perm.map
  refine (List.mergeSort_perm _ _).trans ((List.perm_append_singleton _ _).trans ?_)
  exact (List.mergeSort_perm _ _).symm.cons c

end Lists

/-! ## Back on the list -/

/-- What a save button leaves to the main queue. -/
def AppStep.dispatched : AppStep → List AppStep
  | saveLetter _ _ _ => [mainQueue]
  | _ => []

/-- The screens before and after something is added: the screen that adds it is gone, and the list below
has one entry more than it would have had before. -/
inductive Screens.Shows (order : NameOrder) (s : Store) : AddOp → List Presented → List Presented → Prop
  | child {id : ObjectID} {name : String} {age : Int} {i k : ScreenID} {cells cells' : List ProfileCell}
      {rest : List Presented}
      (h : cells'.Perm ((Child.new id name (toString age) [] []).profileCell :: profileCells order s)) :
    Shows order s (.addChild id name age) (⟨i, .addChild⟩ :: ⟨k, .profile cells⟩ :: rest)
      (⟨k, .profile cells'⟩ :: rest)
  | item {id : ObjectID} {image : Data} {description name : String} {c : Child} {given : Injected}
      {i j : ScreenID} {rows rows' : List (Option String)} {rest : List Presented}
      (hc : c ∈ s.children) (hgiven : given.child = some c.objectID)
      (h : rows'.Perm (some name :: (wishlistRows order s (some c)).map Item.name)) :
    Shows order s (.addItem id c.objectID image description name)
      (⟨i, .addItem given⟩ :: ⟨j, .wishlists given rows⟩ :: rest) (⟨j, .wishlists given rows'⟩ :: rest)
  | letter {id : ObjectID} {note title : String} {c : Child} {given : Injected}
      {i j : ScreenID} {rows rows' : List (Option String)} {rest : List Presented}
      (hc : c ∈ s.children) (hgiven : given.child = some c.objectID)
      (h : rows'.Perm (some title :: (letterRows order s (some c)).map Letter.title)) :
    Shows order s (.addLetter id c.objectID note title)
      (⟨i, .sendSantaLetter given⟩ :: ⟨j, .santaLetters given rows⟩ :: rest)
      (⟨j, .santaLetters given rows'⟩ :: rest)

section Back
variable {order : NameOrder} {s : App} {a : AppStep} {op : AddOp}

/-- The screen that saves is popped over the new store, unless other blocks wait before its own. -/
theorem App.saved_pops {t : Screens} (hop : s.saved a = some op) (hadd : s.toScreens.add op = some t)
    (hqueue : a.dispatched ≠ [] → s.mainQueue = []) :
    ∃ u, run (App.step order) s (a :: a.dispatched) = some u ∧ u.toScreens = t.pop order := by
  have hsave : ∀ after, s.save a after = some (after { s with toScreens := t }) := by
    intro after
    rw [save, hop]
    dsimp only
    rw [hadd, Option.map_some]
  rcases saved_cases hop with ⟨id, name, age, rfl, hscreen, _⟩ |
    ⟨id, imageData, name, description, given, child, rfl, hscreen, _, _⟩ |
    ⟨id, note, title, given, child, rfl, hscreen, _, _⟩
  · refine ⟨pop order { s with toScreens := t }, ?_, rfl⟩
    have hstep : s.step order (.doneBUtton id name age) = some (pop order { s with toScreens := t }) := by
      rw [step, if_pos hscreen, hsave]
    change run (App.step order) s [.doneBUtton id name age] = _
    rw [run_cons, hstep]
    rfl
  · refine ⟨pop order { s with toScreens := t }, ?_, rfl⟩
    have hstep : s.step order (.saveItem id imageData name description) =
        some (pop order { s with toScreens := t }) := by
      rw [step, hscreen]
      exact hsave _
    change run (App.step order) s [.saveItem id imageData name description] = _
    rw [run_cons, hstep]
    rfl
  · have hempty : s.mainQueue = [] := hqueue (List.cons_ne_nil _ _)
    have hsaved : s.step order (.saveLetter id note title) =
        some { s with toScreens := t, mainQueue := [s.top.id] } := by
      rw [step, hscreen]
      dsimp only
      rw [hsave, hempty]
      rfl
    have hnavigation : t.navigation = s.navigation := (Screens.add_eq_some hadd).2.2.1
    have hpresents : t.presents s.top.id = true := by
      rw [Screens.presents, hnavigation, List.any_eq_true]
      exact ⟨s.top, top_mem, decide_eq_true rfl⟩
    refine ⟨pop order { s with toScreens := t, mainQueue := [] }, ?_, rfl⟩
    rw [AppStep.dispatched, run_cons, hsaved, Option.bind_some, run_cons]
    simp only [step]
    rw [if_pos hpresents]
    rfl

theorem Screens.AddsFrom.shows {s t : Screens}
    (h : Screens.AddsFrom s.store.graph op s.navigation.screens) (hadd : s.add op = some t) :
    Screens.Shows order s.store.graph op s.navigation.screens (t.pop order).navigation.screens := by
  obtain ⟨henabled, hgraph, hnavigation, _⟩ := Screens.add_eq_some hadd
  have hs := s.store.wellFormed
  have hpop : ∀ {x y below}, s.navigation.screens = x :: y :: below →
      (t.pop order).navigation.screens = y.viewWillAppear order t.store.graph :: below := by
    intro x y below hscreens
    rw [Screens.pop, hnavigation]
    exact screens_pop hscreens
  generalize hscreens : s.navigation.screens = screens at h
  cases h with
  | child =>
    rw [hpop hscreens]
    apply Screens.Shows.child
    apply profileCells_snoc
    rw [hgraph, AddOp.inserted_addChild]
  | @item id image description name c _ _ _ _ _ _ _ _ hc =>
    rw [hpop hscreens]
    apply Screens.Shows.item hc rfl
    rw [AddOp.inserted_addItem henabled.1] at hgraph
    have howner : (Item.added id c.objectID image description name).child = some c.objectID := rfl
    rw [Option.bind_some, wishlistRows, congrArg Store.items hgraph]
    exact (fetchByChildName_snoc Item.name _ (Child.withItem_objectID c.objectID id)
      (Child.withItem_name c.objectID id) (congrArg Store.children hgraph) hs hc howner).map Item.name
  | @letter id note title c _ _ _ _ _ _ _ _ hc =>
    rw [hpop hscreens]
    apply Screens.Shows.letter hc rfl
    rw [AddOp.inserted_addLetter henabled.1] at hgraph
    have howner : (Letter.added id c.objectID note title).child = some c.objectID := rfl
    rw [Option.bind_some, letterRows, congrArg Store.letters hgraph]
    exact (fetchByChildName_snoc Letter.title _ (Child.withLetter_objectID c.objectID id)
      (Child.withLetter_name c.objectID id) (congrArg Store.children hgraph) hs hc howner).map
        Letter.title

/-- In every run of the app, what a save button adds is shown: the screen is back on the list it was
opened from, which is what it was with one entry more. For a letter no other block waits on the main
queue. -/
theorem run_saveShows (order : NameOrder) (steps : List AppStep) (s : App)
    (hrun : run (App.step order) .installed steps = some s) (a : AppStep) (op : AddOp)
    (hop : s.saved a = some op) (henabled : op.Enabled s.store.graph)
    (hqueue : a.dispatched ≠ [] → s.mainQueue = []) :
    ∃ t, run (App.step order) s (a :: a.dispatched) = some t ∧
      Screens.Shows order s.store.graph op s.navigation.screens t.navigation.screens := by
  obtain ⟨t, hadd⟩ : ∃ t, s.toScreens.add op = some t := by
    rw [Screens.add, LocalStore.add, dif_pos henabled]
    exact ⟨_, rfl⟩
  obtain ⟨u, hu, hscreens⟩ := App.saved_pops hop hadd hqueue
  refine ⟨u, hu, ?_⟩
  rw [hscreens]
  exact (App.addsFrom (App.run_wellFormed hrun) hop).shows hadd

/-- Ann's first letter. -/
def letterOpened : List AppStep := annOpened ++ [.backButton, .lettersTapped, .addLetterTapped]

theorem letterOpened_saveShows : ∃ s t : App,
    run (App.step .codePoints) .installed letterOpened = some s ∧
    run (App.step .codePoints) s [.saveLetter 0 "thank you" "for Santa", .mainQueue] = some t ∧
      Screens.Shows .codePoints s.store.graph (.addLetter 0 0 "thank you" "for Santa")
        s.navigation.screens t.navigation.screens := by
  have hruns : (run (App.step .codePoints) .installed letterOpened).map (fun s =>
      (s.saved (.saveLetter 0 "thank you" "for Santa"), s.mainQueue,
        decide (AddOp.Enabled s.store.graph (.addLetter 0 0 "thank you" "for Santa")))) =
      some (some (.addLetter 0 0 "thank you" "for Santa"), [], true) := by decide +kernel
  obtain ⟨s, hs, hruns⟩ := Option.map_eq_some_iff.mp hruns
  obtain ⟨hop, hruns⟩ := Prod.mk.inj hruns
  obtain ⟨hqueue, henabled⟩ := Prod.mk.inj hruns
  obtain ⟨t, ht, hshows⟩ := run_saveShows .codePoints _ s hs _ _ hop (of_decide_eq_true henabled)
    fun _ => hqueue
  exact ⟨s, t, hs, ht, hshows⟩

end Back

end SantaIWish
