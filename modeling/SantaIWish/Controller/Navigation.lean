import SantaIWish.AccountLists
import SantaIWish.Controller.SignUp
import SantaIWish.Library.NavigationStack

/-!
# The screens of the app

All screens stand in one navigation controller, the login screen at the bottom. A segue
pushes the next screen and hands it what it needs, the sign-out button unwinds to the
login screen. Callbacks of Firebase Auth push the profile screen whatever is on top, and
the letter screen is popped by a block on the main queue. A `SantaIWishController` is
named after the screen that created it.
-/

namespace SantaIWish
set_option autoImplicit false

abbrev ScreenID := Nat

/-- What `prepare(for:)` hands to the screens of one child. -/
structure Injected where
  santaIWishController : Option ScreenID
  child : Option ObjectID
  deriving DecidableEq

inductive Screen where
  | login
  | signup (santaIWishController : ScreenID)
  | profile (cells : List ProfileCell)
  | addChild
  | childProfileDetail (given : Injected) (labels : Option DetailLabels)
  | wishlists (given : Injected) (rows : List (Option String))
  | santaLetters (given : Injected) (rows : List (Option String))
  | addItem (given : Injected)
  | sendSantaLetter (given : Injected)
  deriving DecidableEq

structure Presented where
  id : ScreenID
  screen : Screen
  deriving DecidableEq

/-- What a screen saves with: its own controller or the one it was given. -/
def Presented.santaIWishController (p : Presented) : Option ScreenID :=
  match p.screen with
  | .login => some p.id
  | .signup controller => some controller
  | .profile _ => some p.id
  | .addChild => some p.id
  | .childProfileDetail given _ => given.santaIWishController
  | .wishlists given _ => given.santaIWishController
  | .santaLetters given _ => given.santaIWishController
  | .addItem given => given.santaIWishController
  | .sendSantaLetter given => given.santaIWishController

def Screen.isProfile : Screen → Bool
  | profile _ => true
  | _ => false

def Screen.hasBackButton : Screen → Bool
  | login => false
  | profile _ => false
  | _ => true

/-! ## What a screen shows -/

/-- The counters of a child are put into labels once, when its screen is loaded. -/
def Screen.viewDidLoad (s : Store) : Screen → Screen
  | childProfileDetail given _ =>
    childProfileDetail given ((given.child.bind s.child?).bind Child.detailLabels)
  | screen => screen

/-- The lists are loaded again whenever they come to the top. -/
def Screen.viewWillAppear (order : NameOrder) (s : Store) : Screen → Screen
  | profile _ => profile (profileCells order s)
  | wishlists given _ =>
    wishlists given ((wishlistRows order s (given.child.bind s.child?)).map Item.name)
  | santaLetters given _ =>
    santaLetters given ((letterRows order s (given.child.bind s.child?)).map Letter.title)
  | screen => screen

def Presented.viewWillAppear (order : NameOrder) (s : Store) (p : Presented) : Presented :=
  { p with screen := p.screen.viewWillAppear order s }

/-! ## The navigation controller -/

/-- The screens over the local store that they show. -/
structure Screens where
  store : LocalStore
  navigation : NavigationStack Presented
  /-- The next identity of a screen. -/
  nextScreen : ScreenID

namespace Screens

def top (s : Screens) : Presented := s.navigation.top

def push (order : NameOrder) (screen : Screen) (s : Screens) : Screens :=
  { s with
    navigation := s.navigation.push (Presented.viewWillAppear order s.store.graph)
      ⟨s.nextScreen, screen.viewDidLoad s.store.graph⟩
    nextScreen := s.nextScreen + 1 }

def pop (order : NameOrder) (s : Screens) : Screens :=
  { s with navigation := s.navigation.pop (Presented.viewWillAppear order s.store.graph) }

/-- The unwind segue `logout:`. -/
def unwindToLogin (order : NameOrder) (s : Screens) : Screens :=
  { s with navigation := s.navigation.popToRoot (Presented.viewWillAppear order s.store.graph) }

/-- A new process starts with the login screen. -/
def launch (s : Screens) : Screens :=
  { s with navigation := ⟨⟨s.nextScreen, .login⟩, []⟩, nextScreen := s.nextScreen + 1 }

def add (op : AddOp) (s : Screens) : Option Screens :=
  (s.store.add op).map fun store => { s with store := store }

/-- Whether a screen is still in the navigation controller. -/
def presents (id : ScreenID) (s : Screens) : Bool := s.navigation.screens.any fun p => p.id = id

end Screens

structure Credentials where
  email : String
  password : String
  deriving DecidableEq

structure App extends Screens where
  session : Session := {}
  /-- The calls of `signIn` in flight. -/
  signIns : List Credentials := []
  /-- The calls of `createUser` in flight, with the sign-up screen that made them. -/
  signUps : List (ScreenID × Credentials) := []
  /-- The letter screens whose blocks wait on the main queue. -/
  mainQueue : List ScreenID := []

inductive AppStep where
  | loginButtonTapped (email password : String)
  | signUpTapped
  | nextButtonTapped (email name password : String)
  /-- The callback of `signIn`, with the user it signed in if it did. -/
  | signInEnded (n : Nat) (result : Option String)
  | userCreated (n : Nat) (result : Option String)
  | tokenIssued (user : String) (serial : Nat)
  /-- Firebase Auth signs a user out by itself if the refresh of the token says it is no longer valid. -/
  | tokenFailed (user : String) (invalid : Bool)
  /-- A refresh that the app did not ask for says so. -/
  | signedOutByForce (user : String)
  | addChildTapped
  | cellTapped (indexPath : Nat)
  | signOutTapped
  | wishListTapped
  | lettersTapped
  | addItemTapped
  | addLetterTapped
  | doneBUtton (id : ObjectID) (childName childAgeString : String)
  | saveItem (id : ObjectID) (imageData : Option Data) (toyName toyDescription : String)
  | saveLetter (id : ObjectID) (letter titleText : String)
  /-- The first block on the main queue. -/
  | mainQueue
  | backButton
  | relaunch
  deriving DecidableEq

/-- `LoginViewController.validateFields` -/
def LoginViewController.validateFields (email password : String) : Option String :=
  if trimmed email = "" ∨ trimmed password = "" then some "Please fill in all fields." else none

def Session.profileDidLoad (s : Session) : Session := { s with transitions := s.transitions - 1 }

namespace App

def login (s : App) (email password : String) : App :=
  match LoginViewController.validateFields email password with
  | some _ => s
  | none => { s with signIns := s.signIns ++ [⟨trimmed email, trimmed password⟩] }

def registerNewAccount (s : App) (email name password : String) : App :=
  match validateFields email name password with
  | some _ => s
  | none => { s with signUps := s.signUps ++ [(s.top.id, ⟨trimmed email, trimmed password⟩)] }

def push (order : NameOrder) (screen : Screen) (s : App) : App :=
  { s with toScreens := s.toScreens.push order screen }

def pop (order : NameOrder) (s : App) : App := { s with toScreens := s.toScreens.pop order }

def pushProfile (order : NameOrder) (s : App) : App :=
  { s.push order (.profile []) with session := s.session.profileDidLoad }

/-- The profile screen is pushed by the login screen, which is always there. -/
def signInEnded (order : NameOrder) (s : App) (n : Nat) (result : Option String) : App :=
  let s := { s with signIns := s.signIns.eraseIdx n, session := s.session.attemptEnded result }
  match result with
  | some _ => s.pushProfile order
  | none => s

/-- A sign-up screen that has been popped has no navigation controller to push with. -/
def userCreated (order : NameOrder) (s : App) (n : Nat) (screen : ScreenID) (result : Option String) :
    App :=
  let s := { s with signUps := s.signUps.eraseIdx n, session := s.session.attemptEnded result }
  match result with
  | some _ => if s.presents screen then s.pushProfile order else s
  | none => s

/-- `prepare(for:)` of `ProfileViewController`: the object at the index path of a new fetch. -/
def prepareProfileDetail (order : NameOrder) (s : App) (indexPath : Nat) : Option Screen :=
  ((s.store.graph.children.mergeSort fun c d => order.leKey c.name d.name)[indexPath]?).map
    fun child => .childProfileDetail ⟨s.top.santaIWishController, some child.objectID⟩ none

/-- What a save button adds, if its guards let it. -/
def saved (s : App) : AppStep → Option AddOp
  | .doneBUtton id childName childAgeString =>
    match s.top.screen with
    | .addChild => some (SantaIWish.doneBUtton id childName childAgeString)
    | _ => none
  | .saveItem id imageData toyName toyDescription =>
    match s.top.screen with
    | .addItem given =>
      given.child.bind fun child => SantaIWish.saveItem id child imageData toyName toyDescription
    | _ => none
  | .saveLetter id letter titleText =>
    match s.top.screen with
    | .sendSantaLetter given =>
      -- `addLetterToChild` makes the letter, so there is none without a controller
      given.santaIWishController.bind fun _ =>
        given.child.map fun child => SantaIWish.saveLetter id child letter titleText
    | _ => none
  | _ => none

def save (s : App) (a : AppStep) (after : App → App) : Option App :=
  match s.saved a with
  | some op => (s.toScreens.add op).map fun t => after { s with toScreens := t }
  | none => some s

/-- The PUT a step issues, under the user that is current then. -/
def puts (s : App) (a : AppStep) : List URLRequest :=
  match s.saved a, s.top.santaIWishController with
  | some op, some _ =>
    (op.start s.session.currentUser (op.inserted s.store.graph)).request.toList
  | _, _ => []

def launched (s : App) : App := { toScreens := s.toScreens.launch, session := s.session.relaunch }

/-- The login screen lets in whoever has a token stored. -/
def relaunch (order : NameOrder) (s : App) : App :=
  if s.session.checkLoginStatis then s.launched.pushProfile order else s.launched

def step (order : NameOrder) (s : App) (a : AppStep) : Option App :=
  match a with
  | .loginButtonTapped email password =>
    if s.top.screen = .login then some (s.login email password) else none
  | .signUpTapped => if s.top.screen = .login then some (s.push order (.signup s.top.id)) else none
  | .nextButtonTapped email name password =>
    match s.top.screen with
    | .signup _ => some (s.registerNewAccount email name password)
    | _ => none
  | .signInEnded n result => s.signIns[n]?.map fun _ => s.signInEnded order n result
  | .userCreated n result => s.signUps[n]?.map fun call => s.userCreated order n call.1 result
  | .tokenIssued user serial =>
    if user ∈ s.session.inFlight then some { s with session := s.session.receiveToken user serial }
    else none
  | .tokenFailed user invalid =>
    if user ∈ s.session.inFlight then some { s with session := s.session.tokenFailed user invalid }
    else none
  | .signedOutByForce user => some { s with session := s.session.signOutByForce user }
  | .addChildTapped => if s.top.screen.isProfile then some (s.push order .addChild) else none
  | .cellTapped indexPath =>
    match s.top.screen with
    | .profile cells =>
      if indexPath < cells.length then
        (s.prepareProfileDetail order indexPath).map fun screen => s.push order screen
      else none
    | _ => none
  | .signOutTapped =>
    if s.top.screen.isProfile then
      some { s with toScreens := s.toScreens.unwindToLogin order, session := s.session.signOut }
    else none
  | .wishListTapped =>
    match s.top.screen with
    | .childProfileDetail given _ => some (s.push order (.wishlists given []))
    | _ => none
  | .lettersTapped =>
    match s.top.screen with
    | .childProfileDetail given _ => some (s.push order (.santaLetters given []))
    | _ => none
  | .addItemTapped =>
    match s.top.screen with
    | .wishlists given _ => some (s.push order (.addItem given))
    | _ => none
  | .addLetterTapped =>
    match s.top.screen with
    | .santaLetters given _ => some (s.push order (.sendSantaLetter given))
    | _ => none
  | .doneBUtton .. => if s.top.screen = .addChild then s.save a (pop order) else none
  | .saveItem .. =>
    match s.top.screen with
    | .addItem _ => s.save a (pop order)
    | _ => none
  | .saveLetter .. =>
    match s.top.screen with
    | .sendSantaLetter _ => s.save a fun t => { t with mainQueue := t.mainQueue ++ [s.top.id] }
    | _ => none
  | .mainQueue =>
    match s.mainQueue with
    | [] => none
    | id :: mainQueue =>
      let s := { s with mainQueue := mainQueue }
      if s.presents id then some (s.pop order) else some s
  | .backButton => if s.top.screen.hasBackButton then some (s.pop order) else none
  | .relaunch => some (s.relaunch order)

/-- The app before its first launch has ended. -/
def installed : App := { store := .empty, navigation := ⟨⟨0, .login⟩, []⟩, nextScreen := 1 }

end App

end SantaIWish
