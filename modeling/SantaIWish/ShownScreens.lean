import SantaIWish.Controller.Navigation
import SantaIWish.Library.Simulation

/-!
# What the screens show

Whatever the user taps and whenever callbacks arrive, the screens stand on each other as
the storyboard has them, and the list on top is the present one. The counters of an open
child are those it was opened with.
-/

namespace SantaIWish
open Runs NavigationStack
set_option autoImplicit false

/-! ## The moves of the screens -/

/-- A screen stands on the one whose segue shows it, with what that one was given. A profile stands on
any screen, as a callback pushes it. -/
def Screen.StandsOn (s : Store) (screen : Screen) (q : Presented) : Prop :=
  match screen with
  | login => False
  | signup controller => q.screen = login ∧ controller = q.id
  | profile _ => True
  | addChild => ∃ cells, q.screen = profile cells
  | childProfileDetail given _ => (∃ cells, q.screen = profile cells) ∧
      ∃ c ∈ s.children, given = ⟨some q.id, some c.objectID⟩
  | wishlists given _ => ∃ labels, q.screen = childProfileDetail given labels
  | santaLetters given _ => ∃ labels, q.screen = childProfileDetail given labels
  | addItem given => ∃ rows, q.screen = wishlists given rows
  | sendSantaLetter given => ∃ rows, q.screen = santaLetters given rows

/-- What can be added on a screen. -/
def Screen.Adds : Screen → AddOp → Prop
  | addChild, .addChild _ _ _ => True
  | addItem given, .addItem _ child _ _ _ => given.child = some child
  | sendSantaLetter given, .addLetter _ child _ _ => given.child = some child
  | _, _ => False

namespace Screens
variable (order : NameOrder)

inductive Move : Screens → Option AddOp → Screens → Prop
  | push {s : Screens} {screen : Screen} (h : screen.StandsOn s.store.graph s.top) :
    Move s none (s.push order screen)
  | pop (s : Screens) : Move s none (s.pop order)
  | unwindToLogin (s : Screens) : Move s none (s.unwindToLogin order)
  | launch (s : Screens) : Move s none s.launch
  | add {s t : Screens} {op : AddOp} (h : s.top.screen.Adds op) (hadd : s.add op = some t) :
    Move s (some op) t

/-- Any number of moves, with what they add in order. -/
inductive Moves (s : Screens) : List AddOp → Screens → Prop
  | refl : Moves s [] s
  | tail {ops : List AddOp} {op : Option AddOp} {t u : Screens} (h : Moves s ops t)
    (hmove : Move order t op u) : Moves s (ops ++ op.toList) u

variable {order} {s t u : Screens} {ops ops' : List AddOp}

theorem Moves.single {op : Option AddOp} (h : Move order s op t) : Moves order s op.toList t :=
  .tail .refl h

theorem Moves.trans (h : Moves order s ops t) (h' : Moves order t ops' u) :
    Moves order s (ops ++ ops') u := by
  induction h' with
  | refl => exact (List.append_nil ops).symm ▸ h
  | tail _ hmove ih => exact List.append_assoc ops _ _ ▸ ih.tail hmove

/-- What each move keeps holds after any number of them. -/
theorem Moves.invariant {I : Screens → Prop} (h : Moves order s ops t)
    (keep : ∀ t op u, I t → Move order t op u → I u) (hs : I s) : I t := by
  induction h with
  | refl => exact hs
  | tail _ hmove ih => exact keep _ _ _ ih hmove

end Screens

theorem Screen.isProfile_iff {screen : Screen} :
    screen.isProfile = true ↔ ∃ cells, screen = profile cells := by
  cases screen <;> simp [isProfile]

/-- The steps that leave the session alone and push no profile. -/
def AppStep.Quiet : AppStep → Prop
  | signInEnded _ _ => False
  | userCreated _ _ => False
  | tokenIssued _ _ => False
  | tokenFailed _ _ => False
  | signedOutByForce _ => False
  | signOutTapped => False
  | relaunch => False
  | _ => True

namespace App
variable {order : NameOrder} {s t : App} {a : AppStep}

/-- What is saved, and from which screen. -/
theorem saved_cases {op : AddOp} (h : s.saved a = some op) :
    (∃ id name age, a = .doneBUtton id name age ∧ s.top.screen = .addChild ∧
      op = SantaIWish.doneBUtton id name age) ∨
    (∃ id imageData name description given child, a = .saveItem id imageData name description ∧
      s.top.screen = .addItem given ∧ given.child = some child ∧
      SantaIWish.saveItem id child imageData name description = some op) ∨
    (∃ id note title given child, a = .saveLetter id note title ∧
      s.top.screen = .sendSantaLetter given ∧ given.child = some child ∧
      op = SantaIWish.saveLetter id child note title) := by
  cases a <;> simp only [saved, reduceCtorEq] at h
  case doneBUtton id name age =>
    split at h
    · rename_i hscreen
      exact Or.inl ⟨id, name, age, rfl, hscreen, (Option.some.inj h).symm⟩
    · cases h
  case saveItem id imageData name description =>
    split at h
    · rename_i given hscreen
      obtain ⟨child, hchild, hop⟩ := Option.bind_eq_some_iff.mp h
      exact Or.inr (Or.inl ⟨id, imageData, name, description, given, child, rfl, hscreen, hchild, hop⟩)
    · cases h
  case saveLetter id note title =>
    split at h
    · rename_i given hscreen
      obtain ⟨_, _, hop⟩ := Option.bind_eq_some_iff.mp h
      obtain ⟨child, hchild, rfl⟩ := Option.map_eq_some_iff.mp hop
      exact Or.inr (Or.inr ⟨id, note, title, given, child, rfl, hscreen, hchild, rfl⟩)
    · cases h

theorem saveItem_eq_some {id child : ObjectID} {imageData : Option Data} {name description : String}
    {op : AddOp} (h : SantaIWish.saveItem id child imageData name description = some op) :
    ∃ image, op = .addItem id child image description name := by
  simp only [SantaIWish.saveItem] at h
  split at h
  · rename_i image
    split at h
    · exact ⟨image, (Option.some.inj h).symm⟩
    · cases h
  · cases h

theorem saved_adds {op : AddOp} (h : s.saved a = some op) :
    s.top.screen.Adds op ∧ FromScreen op := by
  rcases saved_cases h with ⟨id, name, age, _, hscreen, rfl⟩ |
    ⟨id, imageData, name, description, given, child, _, hscreen, hchild, hop⟩ |
    ⟨id, note, title, given, child, _, hscreen, hchild, rfl⟩
  · rw [hscreen]
    exact ⟨trivial, .child id name age⟩
  · refine ⟨?_, .item hop⟩
    obtain ⟨image, rfl⟩ := saveItem_eq_some hop
    rw [hscreen]
    exact hchild
  · rw [hscreen]
    exact ⟨hchild, .letter id child note title⟩

/-- What a step does that leaves the session alone. -/
inductive QuietMove (order : NameOrder) (s t : App) : Option AddOp → Prop
  | stay (h : t.toScreens = s.toScreens) : QuietMove order s t none
  | push {screen : Screen} (hprofile : screen.isProfile = false)
    (hon : screen.StandsOn s.store.graph s.top) (h : t.toScreens = s.toScreens.push order screen) :
    QuietMove order s t none
  | pop (h : t.toScreens = s.toScreens.pop order) : QuietMove order s t none
  | add {op : AddOp} {u : Screens} (hadds : s.top.screen.Adds op) (hadd : s.toScreens.add op = some u)
    (h : t.toScreens = u ∨ t.toScreens = u.pop order) : QuietMove order s t (some op)

theorem QuietMove.moves {op : Option AddOp} (h : QuietMove order s t op) :
    Screens.Moves order s.toScreens op.toList t.toScreens := by
  cases h with
  | stay h => exact h ▸ .refl
  | push _ hon h => exact h ▸ .single (.push hon)
  | pop h => exact h ▸ .single (.pop _)
  | add hadds hadd h =>
    rcases h with h | h
    · exact h ▸ .single (.add hadds hadd)
    · rw [h]
      exact (Screens.Moves.single (.add hadds hadd)).tail (.pop _)

theorem push_quiet (screen : Screen) (hprofile : screen.isProfile = false)
    (hon : screen.StandsOn s.store.graph s.top) : (s.push order screen).session = s.session ∧
      QuietMove order s (s.push order screen) none := ⟨rfl, .push hprofile hon rfl⟩

theorem save_quiet {after : App → App} (hafter : ∀ u, (after u).session = u.session ∧
      ((after u).toScreens = u.toScreens ∨ (after u).toScreens = u.toScreens.pop order))
    (h : s.save a after = some t) : t.session = s.session ∧ QuietMove order s t (s.saved a) := by
  unfold save at h
  cases hop : s.saved a with
  | none =>
    rw [hop] at h
    obtain rfl := Option.some.inj h
    exact ⟨rfl, .stay rfl⟩
  | some op =>
    rw [hop] at h
    obtain ⟨u, hu, rfl⟩ := Option.map_eq_some_iff.mp h
    obtain ⟨hsession, hscreens⟩ := hafter { s with toScreens := u }
    exact ⟨hsession, .add (saved_adds hop).1 hu hscreens⟩

theorem pushProfile_moves (s : App) :
    Screens.Moves order s.toScreens [] (s.pushProfile order).toScreens := by
  have hon : Screen.StandsOn s.store.graph (.profile []) s.top := trivial
  exact .single (.push hon)

theorem prepareProfileDetail_standsOn {n : Nat} {cells : List ProfileCell} {screen : Screen}
    (hcells : s.top.screen = .profile cells) (h : s.prepareProfileDetail order n = some screen) :
    screen.StandsOn s.store.graph s.top := by
  obtain ⟨c, hc, rfl⟩ := Option.map_eq_some_iff.mp h
  refine ⟨⟨cells, hcells⟩, c, List.mem_mergeSort.mp (List.mem_of_getElem? hc), ?_⟩
  rw [Presented.santaIWishController, hcells]

theorem step_tokenIssued {user : String} {serial : Nat}
    (h : s.step order (.tokenIssued user serial) = some t) :
    user ∈ s.session.inFlight ∧ t = { s with session := s.session.receiveToken user serial } := by
  simp only [step] at h
  split at h
  · rename_i huser
    exact ⟨huser, (Option.some.inj h).symm⟩
  · cases h

theorem step_tokenFailed {user : String} {invalid : Bool}
    (h : s.step order (.tokenFailed user invalid) = some t) :
    user ∈ s.session.inFlight ∧ t = { s with session := s.session.tokenFailed user invalid } := by
  simp only [step] at h
  split at h
  · rename_i huser
    exact ⟨huser, (Option.some.inj h).symm⟩
  · cases h

theorem step_signOutTapped (h : s.step order .signOutTapped = some t) :
    t = { s with toScreens := s.toScreens.unwindToLogin order, session := s.session.signOut } := by
  simp only [step] at h
  split at h
  · exact (Option.some.inj h).symm
  · cases h

theorem step_quiet (hquiet : a.Quiet) (h : s.step order a = some t) :
    t.session = s.session ∧ QuietMove order s t (s.saved a) := by
  cases a with
  | signInEnded n result => exact hquiet.elim
  | userCreated n result => exact hquiet.elim
  | tokenIssued user serial => exact hquiet.elim
  | tokenFailed user invalid => exact hquiet.elim
  | signedOutByForce user => exact hquiet.elim
  | signOutTapped => exact hquiet.elim
  | relaunch => exact hquiet.elim
  | loginButtonTapped email password =>
    simp only [step] at h
    split at h
    · obtain rfl := Option.some.inj h
      unfold login
      split <;> exact ⟨rfl, .stay rfl⟩
    · cases h
  | nextButtonTapped email name password =>
    simp only [step] at h
    split at h
    · obtain rfl := Option.some.inj h
      unfold registerNewAccount
      split <;> exact ⟨rfl, .stay rfl⟩
    · cases h
  | signUpTapped =>
    simp only [step] at h
    split at h
    · rename_i hscreen
      obtain rfl := Option.some.inj h
      exact push_quiet (.signup _) rfl ⟨hscreen, rfl⟩
    · cases h
  | addChildTapped =>
    simp only [step] at h
    split at h
    · rename_i hprofile
      obtain rfl := Option.some.inj h
      exact push_quiet .addChild rfl (Screen.isProfile_iff.mp hprofile)
    · cases h
  | cellTapped n =>
    simp only [step] at h
    split at h
    · rename_i cells hscreen
      split at h
      · obtain ⟨screen, hprepared, rfl⟩ := Option.map_eq_some_iff.mp h
        refine push_quiet screen ?_ (prepareProfileDetail_standsOn hscreen hprepared)
        obtain ⟨c, _, rfl⟩ := Option.map_eq_some_iff.mp hprepared
        rfl
      · cases h
    · cases h
  | wishListTapped =>
    simp only [step] at h
    split at h
    · rename_i given labels hscreen
      obtain rfl := Option.some.inj h
      exact push_quiet (.wishlists _ _) rfl ⟨labels, hscreen⟩
    · cases h
  | lettersTapped =>
    simp only [step] at h
    split at h
    · rename_i given labels hscreen
      obtain rfl := Option.some.inj h
      exact push_quiet (.santaLetters _ _) rfl ⟨labels, hscreen⟩
    · cases h
  | addItemTapped =>
    simp only [step] at h
    split at h
    · rename_i given rows hscreen
      obtain rfl := Option.some.inj h
      exact push_quiet (.addItem _) rfl ⟨rows, hscreen⟩
    · cases h
  | addLetterTapped =>
    simp only [step] at h
    split at h
    · rename_i given rows hscreen
      obtain rfl := Option.some.inj h
      exact push_quiet (.sendSantaLetter _) rfl ⟨rows, hscreen⟩
    · cases h
  | doneBUtton id name age =>
    simp only [step] at h
    split at h
    · apply save_quiet _ h
      exact fun _ => ⟨rfl, Or.inr rfl⟩
    · cases h
  | saveItem id image name description =>
    simp only [step] at h
    split at h
    · apply save_quiet _ h
      exact fun _ => ⟨rfl, Or.inr rfl⟩
    · cases h
  | saveLetter id note title =>
    simp only [step] at h
    split at h
    · apply save_quiet _ h
      exact fun _ => ⟨rfl, Or.inl rfl⟩
    · cases h
  | mainQueue =>
    simp only [step] at h
    split at h
    · cases h
    · split at h
      · obtain rfl := Option.some.inj h
        exact ⟨rfl, .pop rfl⟩
      · obtain rfl := Option.some.inj h
        exact ⟨rfl, .stay rfl⟩
  | backButton =>
    simp only [step] at h
    split at h
    · obtain rfl := Option.some.inj h
      exact ⟨rfl, .pop rfl⟩
    · cases h

/-- A step of the app moves the screens, and adds what it saves. -/
theorem step_moves (h : s.step order a = some t) :
    Screens.Moves order s.toScreens (s.saved a).toList t.toScreens := by
  by_cases hquiet : a.Quiet
  · exact (step_quiet hquiet h).2.moves
  cases a with
  | signInEnded n result =>
    obtain ⟨_, _, rfl⟩ := Option.map_eq_some_iff.mp h
    cases result with
    | none => exact .refl
    | some uid => exact pushProfile_moves _
  | userCreated n result =>
    obtain ⟨call, _, rfl⟩ := Option.map_eq_some_iff.mp h
    unfold userCreated
    cases result with
    | none => exact .refl
    | some uid =>
      dsimp only
      split
      · exact pushProfile_moves _
      · exact .refl
  | tokenIssued user serial =>
    obtain ⟨_, rfl⟩ := step_tokenIssued h
    exact .refl
  | tokenFailed user invalid =>
    obtain ⟨_, rfl⟩ := step_tokenFailed h
    exact .refl
  | signedOutByForce user =>
    obtain rfl := Option.some.inj h
    exact .refl
  | signOutTapped =>
    obtain rfl := step_signOutTapped h
    exact .single (.unwindToLogin _)
  | relaunch =>
    obtain rfl := Option.some.inj h
    have hlaunch : Screens.Moves order s.toScreens [] s.toScreens.launch := .single (.launch _)
    unfold relaunch
    split
    · exact hlaunch.trans (pushProfile_moves s.launched)
    · exact hlaunch
  | _ => exact absurd trivial hquiet

/-- The adds of a run of the app. -/
def adds (order : NameOrder) (s : App) (steps : List AppStep) : List AddOp :=
  trace (step order) (fun s a => (s.saved a).toList) s steps

theorem run_moves {steps : List AppStep} (hrun : run (step order) s steps = some t) :
    Screens.Moves order s.toScreens (s.adds order steps) t.toScreens := by
  refine run_induction (P := fun steps t =>
    Screens.Moves order s.toScreens (s.adds order steps) t.toScreens) .refl ?_ steps t hrun
  intro steps t a u hsteps ih hstep
  rw [adds, trace_snoc _ _ hsteps]
  exact ih.trans (step_moves hstep)

end App

/-! ## Every screen stands on the one that shows it -/

/-- What is shown last is what the store has now. -/
@[simp] theorem Presented.viewWillAppear_twice (order : NameOrder) (s : Store) (p : Presented) :
    (p.viewWillAppear order s).viewWillAppear order s = p.viewWillAppear order s := by
  obtain ⟨id, screen⟩ := p
  cases screen <;> rfl

theorem Screen.StandsOn.viewDidLoad {s : Store} {screen : Screen} {q : Presented}
    (h : screen.StandsOn s q) : (screen.viewDidLoad s).StandsOn s q := by
  cases screen <;> exact h

theorem Presented.standsOn_viewWillAppear {order : NameOrder} {s t : Store} {p q : Presented}
    (h : p.screen.StandsOn s q) : (p.viewWillAppear order t).screen.StandsOn s q := by
  obtain ⟨id, screen⟩ := p
  cases screen <;> exact h

theorem Screen.StandsOn.mono {s t : Store} {screen : Screen} {q : Presented}
    (hmono : ∀ c ∈ s.children, ∃ d ∈ t.children, d.objectID = c.objectID) (h : screen.StandsOn s q) :
    screen.StandsOn t q := by
  cases screen with
  | childProfileDetail given labels =>
    obtain ⟨hprofile, c, hc, hgiven⟩ := h
    obtain ⟨d, hd, hid⟩ := hmono c hc
    exact ⟨hprofile, d, hd, by rw [hid]; exact hgiven⟩
  | login => exact h
  | signup controller => exact h
  | profile cells => exact h
  | addChild => exact h
  | wishlists given rows => exact h
  | santaLetters given rows => exact h
  | addItem given => exact h
  | sendSantaLetter given => exact h

theorem AddOp.children_inserted {s : Store} {op : AddOp} (h : op.Enabled s) :
    ∀ c ∈ s.children, ∃ d ∈ (op.inserted s).children, d.objectID = c.objectID := by
  intro c hc
  have hmem : c.objectID ∈ (op.inserted s).children.map Child.objectID := by
    rw [childIDs_inserted h]
    exact List.mem_append_left _ (List.mem_map_of_mem hc)
  exact List.mem_map.mp hmem

namespace Screens

/-- The screens stand on the login screen, and the top one shows what the store has now. -/
structure WellFormed (order : NameOrder) (s : Screens) : Prop where
  standing : Standing (fun p => p.screen = .login) (fun p q => p.screen.StandsOn s.store.graph q)
    s.navigation.screens
  shown : s.top.viewWillAppear order s.store.graph = s.top
  ids : ∀ p ∈ s.navigation.screens, p.id < s.nextScreen

section Move
variable {order : NameOrder} {s t : Screens} {op : Option AddOp}

theorem add_eq_some {op : AddOp} (h : s.add op = some t) :
    op.Enabled s.store.graph ∧ t.store.graph = op.inserted s.store.graph ∧
      t.navigation = s.navigation ∧ t.nextScreen = s.nextScreen := by
  obtain ⟨store, hstore, rfl⟩ := Option.map_eq_some_iff.mp h
  obtain ⟨henabled, hgraph⟩ := LocalStore.add_eq_some.mp hstore
  exact ⟨henabled, hgraph, rfl, rfl⟩

/-- The screens that add show nothing that an add would change. -/
theorem viewWillAppear_of_adds {p : Presented} {op : AddOp} (h : p.screen.Adds op) (s : Store) :
    p.viewWillAppear order s = p := by
  obtain ⟨id, screen⟩ := p
  cases screen with
  | addChild => rfl
  | addItem given => rfl
  | sendSantaLetter given => rfl
  | login => exact h.elim
  | signup controller => exact h.elim
  | profile cells => exact h.elim
  | childProfileDetail given labels => exact h.elim
  | wishlists given rows => exact h.elim
  | santaLetters given rows => exact h.elim

theorem login_viewWillAppear {s : Store} {p : Presented} (h : p.screen = .login) :
    (p.viewWillAppear order s).screen = .login := by
  rw [Presented.viewWillAppear, h]
  rfl

theorem Move.wellFormed (h : Move order s op t) (hs : s.WellFormed order) : t.WellFormed order := by
  cases h with
  | push hon =>
    constructor
    · exact hs.standing.push Presented.standsOn_viewWillAppear hon.viewDidLoad
    · exact Presented.viewWillAppear_twice _ _ _
    · intro p hp
      rcases List.mem_cons.mp hp with rfl | hp
      · exact Nat.lt_succ_self _
      · exact Nat.lt_succ_of_lt (hs.ids p hp)
  | pop =>
    constructor
    · exact hs.standing.pop login_viewWillAppear Presented.standsOn_viewWillAppear
    · rcases pop_cases (Presented.viewWillAppear order s.store.graph) s.navigation with
        hsame | ⟨q, below, _, hpop⟩
      · rw [top, Screens.pop, hsame]
        exact hs.shown
      · rw [top, Screens.pop, hpop]
        exact Presented.viewWillAppear_twice _ _ _
    · exact forall_pop (fun _ hp => hp) hs.ids
  | unwindToLogin =>
    constructor
    · exact hs.standing.popToRoot login_viewWillAppear
    · exact Presented.viewWillAppear_twice _ _ _
    · exact forall_popToRoot (fun _ hp => hp) hs.ids
  | launch =>
    constructor
    · exact .ground rfl
    · rfl
    · intro p hp
      obtain rfl := List.mem_singleton.mp hp
      exact Nat.lt_succ_self _
  | add hadds hadd =>
    obtain ⟨henabled, hgraph, hnavigation, hnext⟩ := add_eq_some hadd
    constructor
    · rw [hgraph, hnavigation]
      exact hs.standing.imp fun p q hpq => hpq.mono (AddOp.children_inserted henabled)
    · rw [hgraph, top, hnavigation]
      exact viewWillAppear_of_adds hadds _
    · rw [hnavigation, hnext]
      exact hs.ids

/-- The adds of the moves are a run of the store. -/
theorem Moves.store {ops : List AddOp} (h : Moves order s ops t) :
    run LocalStore.add s.store ops = some t.store := by
  induction h with
  | refl => rfl
  | tail _ hmove ih =>
    rw [run_append, ih, Option.bind_some]
    cases hmove with
    | add _ hadd =>
      obtain ⟨store, hstore, rfl⟩ := Option.map_eq_some_iff.mp hadd
      rw [Option.toList_some, run_cons, hstore]
      rfl
    | push _ | pop | unwindToLogin | launch => rfl

end Move

end Screens

/-! ## The top screen -/

def Screen.given? : Screen → Option Injected
  | childProfileDetail given _ => some given
  | wishlists given _ => some given
  | santaLetters given _ => some given
  | addItem given => some given
  | sendSantaLetter given => some given
  | _ => none

/-- The list on a screen is what a fetch for its child gives now. -/
def Screen.ShowsCurrent (order : NameOrder) (s : Store) : Screen → Prop
  | profile cells => cells = profileCells order s
  | wishlists given rows => ∃ c ∈ s.children, given.child = some c.objectID ∧
      rows = (wishlistRows order s (some c)).map Item.name
  | santaLetters given rows => ∃ c ∈ s.children, given.child = some c.objectID ∧
      rows = (letterRows order s (some c)).map Letter.title
  | _ => True

section TopScreen
variable {order : NameOrder}

/-- Whatever was handed from screen to screen is a controller and a child of the store. -/
theorem Screens.WellFormed.given {s : Screens} (h : s.WellFormed order) :
    ∀ p ∈ s.navigation.screens, ∀ given, p.screen.given? = some given →
      ∃ k, ∃ c ∈ s.store.graph.children, given = ⟨some k, some c.objectID⟩ := by
  refine h.standing.forall (P := fun p => ∀ given, p.screen.given? = some given →
    ∃ k, ∃ c ∈ s.store.graph.children, given = ⟨some k, some c.objectID⟩) ?_ ?_
  · rintro ⟨id, screen⟩ rfl given hgiven
    cases hgiven
  · rintro ⟨id, screen⟩ q hon ih given hgiven
    cases screen with
    | childProfileDetail given' labels =>
      obtain rfl : given' = given := Option.some.inj hgiven
      obtain ⟨_, c, hc, hgiven⟩ := hon
      exact ⟨q.id, c, hc, hgiven⟩
    | wishlists given' rows | santaLetters given' rows =>
      obtain rfl : given' = given := Option.some.inj hgiven
      obtain ⟨labels, hq⟩ := hon
      exact ih given' (by rw [hq]; rfl)
    | addItem given' | sendSantaLetter given' =>
      obtain rfl : given' = given := Option.some.inj hgiven
      obtain ⟨rows, hq⟩ := hon
      exact ih given' (by rw [hq]; rfl)
    | login | signup controller | profile cells | addChild => cases hgiven

theorem Screens.wellFormed_installed : App.installed.toScreens.WellFormed order := by
  constructor
  · exact .ground rfl
  · rfl
  · intro p hp
    obtain rfl := List.mem_singleton.mp hp
    exact Nat.one_pos

theorem App.run_wellFormed {steps : List AppStep} {s : App}
    (hrun : run (App.step order) .installed steps = some s) : s.toScreens.WellFormed order :=
  (run_moves hrun).invariant (fun _ _ _ ht hmove => hmove.wellFormed ht) Screens.wellFormed_installed

theorem Screens.WellFormed.showsCurrent {s : Screens} (h : s.WellFormed order) :
    s.top.screen.ShowsCurrent order s.store.graph := by
  have hshown := congrArg Presented.screen h.shown
  rw [Presented.viewWillAppear] at hshown
  have hgiven := h.given s.top top_mem
  cases hscreen : s.top.screen with
  | profile cells =>
    rw [hscreen] at hshown
    exact (Screen.profile.inj hshown).symm
  | wishlists given rows =>
    rw [hscreen] at hshown hgiven
    obtain ⟨k, c, hc, rfl⟩ := hgiven given rfl
    refine ⟨c, hc, rfl, ?_⟩
    rw [← s.store.wellFormed.child?_of_mem hc]
    exact (Screen.wishlists.inj hshown).2.symm
  | santaLetters given rows =>
    rw [hscreen] at hshown hgiven
    obtain ⟨k, c, hc, rfl⟩ := hgiven given rfl
    refine ⟨c, hc, rfl, ?_⟩
    rw [← s.store.wellFormed.child?_of_mem hc]
    exact (Screen.santaLetters.inj hshown).2.symm
  | login | signup _ | addChild | childProfileDetail _ _ | addItem _ | sendSantaLetter _ => trivial

theorem App.cellTapped_spec {s : App} (h : s.toScreens.WellFormed order) {cells : List ProfileCell}
    (htop : s.top.screen = .profile cells) {n : Nat} (hn : n < cells.length) :
    ∃ c ∈ s.store.graph.children, cells[n]? = some c.profileCell ∧
      ∃ t, s.step order (.cellTapped n) = some t ∧
        t.top = ⟨s.nextScreen, .childProfileDetail ⟨some s.top.id, some c.objectID⟩ c.detailLabels⟩ := by
  have hcells := h.showsCurrent
  rw [htop] at hcells
  obtain rfl : cells = profileCells order s.store.graph := hcells
  rw [profileCells, List.length_map] at hn
  obtain ⟨c, hc⟩ : ∃ c, (s.store.graph.children.mergeSort fun c d => order.leKey c.name d.name)[n]? =
      some c := ⟨_, List.getElem?_eq_getElem hn⟩
  have hmem := List.mem_mergeSort.mp (List.mem_of_getElem? hc)
  have hprepared : s.prepareProfileDetail order n =
      some (.childProfileDetail ⟨some s.top.id, some c.objectID⟩ none) := by
    rw [App.prepareProfileDetail, hc, Presented.santaIWishController, htop]
    rfl
  refine ⟨c, hmem, by rw [profileCells, List.getElem?_map, hc]; rfl,
    s.push order (.childProfileDetail ⟨some s.top.id, some c.objectID⟩ none), ?_, ?_⟩
  · simp only [App.step]
    rw [htop]
    dsimp only
    rw [profileCells, List.length_map, if_pos hn, hprepared, Option.map_some]
  · have hchild := s.store.wellFormed.child?_of_mem hmem
    change Presented.mk s.nextScreen (Screen.childProfileDetail _
      ((s.store.graph.child? c.objectID).bind Child.detailLabels)) = _
    rw [hchild, Option.bind_some]

/-- Whatever was tapped and whatever callbacks came, in any order: the list on top of the screens is
what the store has now. -/
theorem run_showsCurrent (order : NameOrder) (steps : List AppStep) (s : App)
    (hrun : run (App.step order) .installed steps = some s) :
    s.top.screen.ShowsCurrent order s.store.graph := (App.run_wellFormed hrun).showsCurrent

/-- Ann is added and opened, and then her wish list. -/
def annOpened : List AppStep :=
  [.loginButtonTapped "ann@x.org" "secret", .signInEnded 0 (some "uid"), .addChildTapped,
    .doneBUtton 0 "Ann" "7", .cellTapped 0, .wishListTapped]

theorem annOpened_showsCurrent : ∃ s : App, run (App.step .codePoints) .installed annOpened = some s ∧
    s.top.screen.ShowsCurrent .codePoints s.store.graph := by
  obtain ⟨s, hs⟩ := Option.isSome_iff_exists.mp
    (show (run (App.step .codePoints) .installed annOpened).isSome = true by decide +kernel)
  exact ⟨s, hs, run_showsCurrent .codePoints annOpened s hs⟩

/-- The screens when something is added: the screen that adds it, the list it was opened from, the open
child, and the profile whose cell opened that child and whose controller adds. -/
inductive Screens.AddsFrom (s : Store) : AddOp → List Presented → Prop
  | child {id : ObjectID} {name : String} {age : Int} {i k : ScreenID} {cells : List ProfileCell}
      {rest : List Presented} :
    AddsFrom s (.addChild id name age) (⟨i, .addChild⟩ :: ⟨k, .profile cells⟩ :: rest)
  | item {id : ObjectID} {image : Data} {description name : String} {c : Child} {i j l k : ScreenID}
      {rows : List (Option String)} {labels : Option DetailLabels} {cells : List ProfileCell}
      {rest : List Presented} (hc : c ∈ s.children) :
    AddsFrom s (.addItem id c.objectID image description name)
      (⟨i, .addItem ⟨some k, some c.objectID⟩⟩ :: ⟨j, .wishlists ⟨some k, some c.objectID⟩ rows⟩ ::
        ⟨l, .childProfileDetail ⟨some k, some c.objectID⟩ labels⟩ :: ⟨k, .profile cells⟩ :: rest)
  | letter {id : ObjectID} {note title : String} {c : Child} {i j l k : ScreenID}
      {rows : List (Option String)} {labels : Option DetailLabels} {cells : List ProfileCell}
      {rest : List Presented} (hc : c ∈ s.children) :
    AddsFrom s (.addLetter id c.objectID note title)
      (⟨i, .sendSantaLetter ⟨some k, some c.objectID⟩⟩ ::
        ⟨j, .santaLetters ⟨some k, some c.objectID⟩ rows⟩ ::
        ⟨l, .childProfileDetail ⟨some k, some c.objectID⟩ labels⟩ :: ⟨k, .profile cells⟩ :: rest)

/-- Any screen but the login screen has the one it stands on below it. -/
theorem exists_below {s : Store} {p : Presented} {below : List Presented}
    (h : Standing (fun p => p.screen = .login) (fun p q => p.screen.StandsOn s q) (p :: below))
    (hp : p.screen ≠ .login) :
    ∃ k screen rest, below = ⟨k, screen⟩ :: rest ∧ p.screen.StandsOn s ⟨k, screen⟩ ∧
      Standing (fun p => p.screen = .login) (fun p q => p.screen.StandsOn s q)
        (⟨k, screen⟩ :: rest) := by
  cases h with
  | ground hlogin => exact absurd hlogin hp
  | on hpq hrest => exact ⟨_, _, _, rfl, hpq, hrest⟩

/-- A list of a child stands on the child, and that on the profile it was opened from. -/
theorem exists_opened {s : Store} {p : Presented} {below : List Presented} {given : Injected}
    (h : Standing (fun p => p.screen = .login) (fun p q => p.screen.StandsOn s q) (p :: below))
    (hp : ∃ rows, p.screen = .wishlists given rows ∨ p.screen = .santaLetters given rows) :
    ∃ l labels k cells rest, ∃ c ∈ s.children, given = ⟨some k, some c.objectID⟩ ∧
      below = ⟨l, .childProfileDetail given labels⟩ :: ⟨k, .profile cells⟩ :: rest := by
  obtain ⟨rows, hp⟩ := hp
  obtain ⟨l, detail, rest, rfl, hon, hdetail⟩ := exists_below h (by rcases hp with hp | hp <;> simp [hp])
  obtain ⟨labels, rfl⟩ : ∃ labels, detail = .childProfileDetail given labels := by
    rcases hp with hp | hp <;> rwa [hp] at hon
  obtain ⟨k, profile, rest, rfl, hon, _⟩ := exists_below hdetail (by simp)
  obtain ⟨⟨cells, hcells⟩, c, hc, hgiven⟩ := hon
  obtain rfl : profile = .profile cells := hcells
  exact ⟨l, labels, k, cells, rest, c, hc, hgiven, rfl⟩

theorem App.addsFrom {s : App} (h : s.toScreens.WellFormed order) {a : AppStep} {op : AddOp}
    (hop : s.saved a = some op) : Screens.AddsFrom s.store.graph op s.navigation.screens := by
  have hadds := (saved_adds hop).1
  have hstanding := h.standing
  obtain ⟨i, screen, below, hscreens, htop⟩ : ∃ i screen below,
      s.navigation.screens = ⟨i, screen⟩ :: below ∧ s.top.screen = screen := ⟨_, _, _, rfl, rfl⟩
  rw [htop] at hadds
  rw [hscreens] at hstanding ⊢
  cases op with
  | addChild id name age =>
    obtain rfl : screen = .addChild := by
      cases screen <;> first | rfl | exact hadds.elim
    obtain ⟨k, profile, rest, rfl, hon, _⟩ := exists_below hstanding (by simp)
    obtain ⟨cells, rfl⟩ : ∃ cells, profile = .profile cells := hon
    exact .child
  | addItem id child image description name =>
    obtain ⟨given, rfl, hchild⟩ : ∃ given, screen = .addItem given ∧ given.child = some child := by
      cases screen <;> first | exact ⟨_, rfl, hadds⟩ | exact hadds.elim
    obtain ⟨j, list, rest, rfl, hon, hlist⟩ := exists_below hstanding (by simp)
    obtain ⟨rows, rfl⟩ : ∃ rows, list = .wishlists given rows := hon
    obtain ⟨l, labels, k, cells, rest, c, hc, rfl, rfl⟩ := exists_opened hlist ⟨rows, Or.inl rfl⟩
    obtain rfl := Option.some.inj hchild
    exact .item hc
  | addLetter id child note title =>
    obtain ⟨given, rfl, hchild⟩ : ∃ given, screen = .sendSantaLetter given ∧ given.child = some child := by
      cases screen <;> first | exact ⟨_, rfl, hadds⟩ | exact hadds.elim
    obtain ⟨j, list, rest, rfl, hon, hlist⟩ := exists_below hstanding (by simp)
    obtain ⟨rows, rfl⟩ : ∃ rows, list = .santaLetters given rows := hon
    obtain ⟨l, labels, k, cells, rest, c, hc, rfl, rfl⟩ := exists_opened hlist ⟨rows, Or.inr rfl⟩
    obtain rfl := Option.some.inj hchild
    exact .letter hc

/-- Nothing is added but from a screen that was opened over its child: in every run, what is saved goes
to the child whose cell was tapped, with the controller of the profile that showed it. -/
theorem run_addsFrom (order : NameOrder) (steps : List AppStep) (s : App)
    (hrun : run (App.step order) .installed steps = some s) (a : AppStep) (op : AddOp)
    (hop : s.saved a = some op) :
    FromScreen op ∧ Screens.AddsFrom s.store.graph op s.navigation.screens :=
  ⟨(App.saved_adds hop).2, App.addsFrom (App.run_wellFormed hrun) hop⟩

theorem annOpened_addsFrom : ∃ (s : App) (op : AddOp),
    run (App.step .codePoints) .installed (annOpened ++ [.addItemTapped]) = some s ∧
      s.saved (.saveItem 0 (some [1]) "Train" "red") = some op ∧
        FromScreen op ∧ Screens.AddsFrom s.store.graph op s.navigation.screens := by
  have hsaved : (run (App.step .codePoints) .installed (annOpened ++ [.addItemTapped])).map
      (fun s => s.saved (.saveItem 0 (some [1]) "Train" "red")) =
        some (some (.addItem 0 0 [1] "red" "Train")) := by decide +kernel
  obtain ⟨s, hs, hop⟩ := Option.map_eq_some_iff.mp hsaved
  exact ⟨s, _, hs, hop, run_addsFrom .codePoints _ s hs _ _ hop⟩

end TopScreen

end SantaIWish
