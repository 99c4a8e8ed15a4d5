import SantaIWish.Controller.Screens
import SantaIWish.Controller.Session

/-!
# Signing up

`registerNewAccount` asks Firebase Auth for a new account. The callback of a
successful creation starts the Firestore write and pushes the profile screen
without waiting; the callback of the write creates the local parent before it
looks at its error. Callbacks of several sign-ups arrive in any order.
-/

namespace SantaIWish
set_option autoImplicit false

structure Parent where
  name : Option String := none
  email : Option String := none
  children : Option (List ObjectID) := none
  deriving DecidableEq, Repr

def Parent.new (name email : String) (children : List ObjectID) : Parent :=
  { name := some name, email := some email, children := some children }

/-- What `createParentProfile` inserts; the default of `children` is the empty set. -/
def createParentProfile (name email : String) : Parent := .new name email []

/-- A parent of the local store. Its identity is the sign-up whose callback created it. -/
structure RecordedParent where
  signUp : Nat
  parent : Parent
  deriving DecidableEq, Repr

/-- Where a sign-up stands: its account is being created or was refused, or the write is under way or
answered. -/
inductive SignUpStage where
  | creating
  | refused
  | writing
  | finished (written : Bool)
  deriving DecidableEq, Repr

def SignUpStage.isFinished : SignUpStage → Bool
  | finished _ => true
  | _ => false

def SignUpStage.hasAccount : SignUpStage → Bool
  | writing => true
  | finished _ => true
  | _ => false

/-- A call of `registerNewAccount` that passed validation, with the texts its closures captured. -/
structure SignUpCall where
  email : String
  password : String
  name : String
  stage : SignUpStage := .creating
  deriving DecidableEq, Repr

structure PushedProfile where
  signUp : Nat
  childParent : Option RecordedParent
  deriving DecidableEq, Repr

structure SignUpScreen where
  session : Session := {}
  calls : List SignUpCall := []
  parents : List RecordedParent := []
  /-- The field of the screen, shared by all its sign-ups. -/
  childParent : Option RecordedParent := none
  pushed : List PushedProfile := []
  alerts : List String := []
  deriving DecidableEq, Repr

inductive SignUpStep where
  | registerNewAccount (email name password : String)
  /-- The callback of `createUser`: the new user, or the description of the error. -/
  | userCreated (i : Nat) (result : Except String String)
  /-- The callback of `addDocument`. -/
  | documentAdded (i : Nat) (failed : Bool)

/-- `trimmingCharacters(in: .whitespacesAndNewlines)` -/
def trimmed (s : String) : String :=
  String.ofList ((s.toList.dropWhile isSpace).reverse.dropWhile isSpace).reverse

/-- The check of the password is commented out. -/
def validateFields (email name password : String) : Option String :=
  if trimmed email = "" ∨ trimmed name = "" ∨ trimmed password = "" then
    some "Please fill in all fields."
  else none

namespace SignUpScreen

def showErrorAlert (s : SignUpScreen) (errorMessage : String) : SignUpScreen :=
  { s with alerts := s.alerts ++ [errorMessage] }

def setStage (s : SignUpScreen) (i : Nat) (call : SignUpCall) (stage : SignUpStage) : SignUpScreen :=
  { s with calls := s.calls.set i { call with stage := stage } }

def registerNewAccount (s : SignUpScreen) (email name password : String) : SignUpScreen :=
  match validateFields email name password with
  | some error => s.showErrorAlert error
  | none => { s with calls := s.calls ++ [⟨trimmed email, trimmed password, trimmed name, .creating⟩] }

/-- Credentials are asked for before the error is looked at, and the screen is pushed before the write is
answered. The sign-up screen is still in its navigation controller; `App.userCreated` has one that was
popped, whose `navigationController` is nil. -/
def userCreated (s : SignUpScreen) (i : Nat) (call : SignUpCall) (result : Except String String) :
    SignUpScreen :=
  let s := { s with session := s.session.attemptEnded result.toOption }
  match result with
  | .error err => (s.setStage i call .refused).showErrorAlert ("Error creating Account: " ++ err)
  | .ok _ => { s.setStage i call .writing with pushed := s.pushed ++ [⟨i, s.childParent⟩] }

/-- The parent is created before the error is looked at. -/
def documentAdded (s : SignUpScreen) (i : Nat) (call : SignUpCall) (failed : Bool) : SignUpScreen :=
  let parent : RecordedParent := ⟨i, createParentProfile call.name call.email⟩
  let s := { s.setStage i call (.finished !failed) with
    parents := s.parents ++ [parent], childParent := some parent }
  if failed then s.showErrorAlert "Error creating Account" else s

/-- Each callback arrives once, that of the write after that of the creation. -/
def step (s : SignUpScreen) : SignUpStep → Option SignUpScreen
  | .registerNewAccount email name password => some (s.registerNewAccount email name password)
  | .userCreated i result =>
    match s.calls[i]? with
    | some call => if call.stage = .creating then some (s.userCreated i call result) else none
    | none => none
  | .documentAdded i failed =>
    match s.calls[i]? with
    | some call => if call.stage = .writing then some (s.documentAdded i call failed) else none
    | none => none

/-! ## What a step does -/

section Step
variable {s t : SignUpScreen}

theorem step_registerNewAccount {email name password : String}
    (h : s.step (.registerNewAccount email name password) = some t) :
    (t.calls = s.calls ∨ ∃ call : SignUpCall, call.stage = .creating ∧ t.calls = s.calls ++ [call]) ∧
      t.parents = s.parents ∧ t.childParent = s.childParent ∧ t.pushed = s.pushed ∧
      t.session = s.session := by
  obtain rfl : s.registerNewAccount email name password = t := Option.some.inj h
  unfold registerNewAccount
  split
  · exact ⟨Or.inl rfl, rfl, rfl, rfl, rfl⟩
  · exact ⟨Or.inr ⟨_, rfl, rfl⟩, rfl, rfl, rfl, rfl⟩

theorem step_userCreated {i : Nat} {result : Except String String}
    (h : s.step (.userCreated i result) = some t) :
    ∃ call, s.calls[i]? = some call ∧ call.stage = .creating ∧ t = s.userCreated i call result := by
  simp only [step] at h
  split at h
  · rename_i call hcall
    split at h
    · rename_i hstage
      exact ⟨call, hcall, hstage, (Option.some.inj h).symm⟩
    · cases h
  · cases h

theorem step_documentAdded {i : Nat} {failed : Bool} (h : s.step (.documentAdded i failed) = some t) :
    ∃ call, s.calls[i]? = some call ∧ call.stage = .writing ∧ t = s.documentAdded i call failed := by
  simp only [step] at h
  split at h
  · rename_i call hcall
    split at h
    · rename_i hstage
      exact ⟨call, hcall, hstage, (Option.some.inj h).symm⟩
    · cases h
  · cases h

@[simp] theorem documentAdded_calls (i : Nat) (call : SignUpCall) (failed : Bool) :
    (s.documentAdded i call failed).calls =
      s.calls.set i { call with stage := .finished !failed } := by
  cases failed <;> rfl

@[simp] theorem documentAdded_parents (i : Nat) (call : SignUpCall) (failed : Bool) :
    (s.documentAdded i call failed).parents =
      s.parents ++ [⟨i, createParentProfile call.name call.email⟩] := by
  cases failed <;> rfl

@[simp] theorem documentAdded_childParent (i : Nat) (call : SignUpCall) (failed : Bool) :
    (s.documentAdded i call failed).childParent =
      some ⟨i, createParentProfile call.name call.email⟩ := by
  cases failed <;> rfl

@[simp] theorem documentAdded_pushed (i : Nat) (call : SignUpCall) (failed : Bool) :
    (s.documentAdded i call failed).pushed = s.pushed := by
  cases failed <;> rfl

@[simp] theorem documentAdded_session (i : Nat) (call : SignUpCall) (failed : Bool) :
    (s.documentAdded i call failed).session = s.session := by
  cases failed <;> rfl

/-- For the stored record a sign-up is a step of the session, and everything else is none. -/
theorem step_session {a : SignUpStep} (h : s.step a = some t) :
    t.session = s.session ∨ ∃ result, s.session.step (.createUser result) = some t.session := by
  cases a with
  | registerNewAccount email name password => exact Or.inl (step_registerNewAccount h).2.2.2.2
  | userCreated i result =>
    obtain ⟨call, _, _, rfl⟩ := step_userCreated h
    refine Or.inr ⟨result.toOption, ?_⟩
    cases result <;> rfl
  | documentAdded i failed =>
    obtain ⟨call, _, _, rfl⟩ := step_documentAdded h
    exact Or.inl (documentAdded_session i call failed)

theorem run_session {steps : List SignUpStep} (hrun : Runs.run step {} steps = some s) :
    ∃ sessionSteps, Runs.run Session.step {} sessionSteps = some s.session := by
  refine Runs.run_invariant (I := fun s : SignUpScreen =>
    ∃ sessionSteps, Runs.run Session.step {} sessionSteps = some s.session) ⟨[], rfl⟩ ?_ hrun
  intro s a t hs hstep
  obtain ⟨sessionSteps, hsession⟩ := hs
  rcases step_session hstep with hsame | ⟨result, hresult⟩
  · exact ⟨sessionSteps, by rw [hsession, hsame]⟩
  · exact ⟨sessionSteps ++ [.createUser result],
      (Runs.run_snoc_eq_some Session.step).mpr ⟨s.session, hsession, hresult⟩⟩

end Step

end SignUpScreen

end SantaIWish
