import SantaIWish.Library.Runs
import SantaIWish.Library.BatchUpdates
import SantaIWish.Models.ManagedObjects

/-!
# The delegates of the two fetched results controllers

Both tables have one section, so an index path is a row. The report of a change is
a sequence of `didChange` callbacks between two that open and close a batch of
updates of the table; by then the data source is the new fetch.
-/

namespace SantaIWish
open BatchUpdates
set_option autoImplicit false

universe u

inductive NSFetchedResultsChangeType where
  | insert
  | delete
  | move
  | update
  deriving DecidableEq, Repr

/-- The arguments of `controller(_:didChange:at:for:newIndexPath:)`. -/
structure DidChange where
  anObject : ObjectID
  indexPath : Option Nat
  type : NSFetchedResultsChangeType
  newIndexPath : Option Nat
  deriving DecidableEq, Repr

/-- A change as a fetched results controller reports it, with the index paths it gives. -/
inductive Change where
  | insert (anObject : ObjectID) (newIndexPath : Nat)
  | delete (anObject : ObjectID) (indexPath : Nat)
  | update (anObject : ObjectID) (indexPath : Nat)
  | move (anObject : ObjectID) (indexPath newIndexPath : Nat)
  deriving DecidableEq, Repr

namespace Change

def didChange : Change → DidChange
  | insert anObject newIndexPath => ⟨anObject, none, .insert, some newIndexPath⟩
  | delete anObject indexPath => ⟨anObject, some indexPath, .delete, none⟩
  | update anObject indexPath => ⟨anObject, some indexPath, .update, none⟩
  | move anObject indexPath newIndexPath => ⟨anObject, some indexPath, .move, some newIndexPath⟩

def removed : Change → Option Nat
  | delete _ indexPath => some indexPath
  | move _ indexPath _ => some indexPath
  | _ => none

def updated : Change → Option Nat
  | update _ indexPath => some indexPath
  | _ => none

def added : Change → Option Nat
  | insert _ newIndexPath => some newIndexPath
  | move _ _ newIndexPath => some newIndexPath
  | _ => none

end Change

/-- What a fetched results controller can report when its objects change from `old` to `new`: each row
once, under the index of the list it is in, and the objects it does not report to have left or come are
the same in both lists and in the same order. Of these it reports the ones that changed. -/
structure IsReport {A : Type u} (objectID : A → ObjectID) (old new : List A)
    (changes : List Change) : Prop where
  oldOnce : (changes.filterMap Change.removed ++ changes.filterMap Change.updated).Nodup
  newOnce : (changes.filterMap Change.added).Nodup
  indexPath : ∀ c ∈ changes, ∀ i, c.didChange.indexPath = some i →
    ∃ x, old[i]? = some x ∧ objectID x = c.didChange.anObject
  newIndexPath : ∀ c ∈ changes, ∀ j, c.didChange.newIndexPath = some j →
    ∃ y, new[j]? = some y ∧ objectID y = c.didChange.anObject
  rest : List.Forall₂
    (fun x y => objectID x.1 = objectID y.1 ∧ (x.2 ∈ changes.filterMap Change.updated ∨ x.1 = y.1))
    (others (changes.filterMap Change.removed) old) (others (changes.filterMap Change.added) new)

/-! ## The table -/

/-- A cell: the object it was configured for and the text of its label. -/
structure Cell where
  object : ObjectID
  text : Option String
  deriving DecidableEq, Repr

/-- The rows on the screen, and the updates collected since `beginUpdates`. -/
structure TableView where
  rows : List Cell
  updates : Option (List Update) := none
  deriving DecidableEq, Repr

namespace TableView

def beginUpdates (tableView : TableView) : TableView := { tableView with updates := some [] }

/-- Outside a batch an update is a batch of its own. A refused batch raises an exception. -/
def update (tableView : TableView) (dataSource : List Cell) (u : Update) : Option TableView :=
  match tableView.updates with
  | some batch => some { tableView with updates := some (batch ++ [u]) }
  | none => (perform [u] dataSource tableView.rows).map fun rows => ⟨rows, none⟩

def insertRows (tableView : TableView) (dataSource : List Cell) (indexPath : Nat) : Option TableView :=
  tableView.update dataSource (.insert indexPath)

def deleteRows (tableView : TableView) (dataSource : List Cell) (indexPath : Nat) : Option TableView :=
  tableView.update dataSource (.delete indexPath)

def reloadRows (tableView : TableView) (dataSource : List Cell) (indexPath : Nat) : Option TableView :=
  tableView.update dataSource (.reload indexPath)

def moveRow (tableView : TableView) (dataSource : List Cell) (indexPath newIndexPath : Nat) :
    Option TableView :=
  tableView.update dataSource (.move indexPath newIndexPath)

def endUpdates (tableView : TableView) (dataSource : List Cell) : Option TableView :=
  match tableView.updates with
  | some batch => (perform batch dataSource tableView.rows).map fun rows => ⟨rows, none⟩
  | none => some tableView

@[simp] theorem update_open (rows : List Cell) (batch : List Update) (dataSource : List Cell)
    (u : Update) :
    update ⟨rows, some batch⟩ dataSource u = some ⟨rows, some (batch ++ [u])⟩ := rfl

end TableView

/-- `tableView(_:numberOfRowsInSection:)` of both screens; each fetch succeeds or ends the program. -/
def numberOfRowsInSection {A : Type u} (fetchedObjects : List A) : Nat := fetchedObjects.length

/-- `tableView(_:cellForRowAt:)` of both screens: the label gets the name of the item or the title of the
letter. -/
def cellForRowAt {A : Type u} (objectID : A → ObjectID) (text : A → Option String)
    (fetchedObjects : List A) (indexPath : Nat) : Option Cell :=
  fetchedObjects[indexPath]?.map fun object => ⟨objectID object, text object⟩

def cells {A : Type u} (objectID : A → ObjectID) (text : A → Option String)
    (fetchedObjects : List A) : List Cell :=
  (List.range (numberOfRowsInSection fetchedObjects)).filterMap
    (cellForRowAt objectID text fetchedObjects)

/-! ## The delegates -/

def controllerWillChangeContent (tableView : TableView) : TableView := tableView.beginUpdates

def controllerDidChangeContent (tableView : TableView) (dataSource : List Cell) : Option TableView :=
  tableView.endUpdates dataSource

def WishlistsTableViewController.didChange (dataSource : List Cell) (tableView : TableView)
    (c : DidChange) : Option TableView :=
  match c.type with
  | .insert =>
    match c.newIndexPath with
    | some newIndexPath => tableView.insertRows dataSource newIndexPath
    | none => some tableView
  | .update =>
    match c.indexPath with
    | some indexPath => tableView.reloadRows dataSource indexPath
    | none => some tableView
  | .move =>
    match c.indexPath, c.newIndexPath with
    | some oldIndexPath, some newIndexPath => do
      let tableView ← tableView.deleteRows dataSource oldIndexPath
      tableView.insertRows dataSource newIndexPath
    | _, _ => some tableView
  | .delete =>
    match c.indexPath with
    | some indexPath => tableView.deleteRows dataSource indexPath
    | none => some tableView

/-- The guard on the old index path comes before the kind of change is looked at. -/
def SantaLettersTableViewController.didChange (dataSource : List Cell) (tableView : TableView)
    (c : DidChange) : Option TableView :=
  match c.indexPath with
  | none => some tableView
  | some indexPath =>
    match c.type with
    | .insert => tableView.insertRows dataSource indexPath
    | .update => tableView.reloadRows dataSource indexPath
    | .delete => tableView.deleteRows dataSource indexPath
    | .move =>
      match c.newIndexPath with
      | some newIndexPath => tableView.moveRow dataSource indexPath newIndexPath
      | none => some tableView

/-- A table whose delegate is told of a whole report. -/
def processReport (didChange : List Cell → TableView → DidChange → Option TableView)
    (dataSource : List Cell) (tableView : TableView) (calls : List Change) : Option TableView :=
  (Runs.run (didChange dataSource) (controllerWillChangeContent tableView)
    (calls.map Change.didChange)).bind fun tableView => controllerDidChangeContent tableView dataSource

/-! ## What the delegates collect -/

def WishlistsTableViewController.updates : Change → List Update
  | .insert _ newIndexPath => [.insert newIndexPath]
  | .delete _ indexPath => [.delete indexPath]
  | .update _ indexPath => [.reload indexPath]
  | .move _ indexPath newIndexPath => [.delete indexPath, .insert newIndexPath]

/-- An insertion has no old index path, so the letters table is not told of it. -/
def SantaLettersTableViewController.updates : Change → List Update
  | .insert _ _ => []
  | .delete _ indexPath => [.delete indexPath]
  | .update _ indexPath => [.reload indexPath]
  | .move _ indexPath newIndexPath => [.move indexPath newIndexPath]

theorem WishlistsTableViewController.didChange_open (dataSource rows : List Cell)
    (batch : List Update) (c : Change) :
    didChange dataSource ⟨rows, some batch⟩ c.didChange =
      some ⟨rows, some (batch ++ WishlistsTableViewController.updates c)⟩ := by
  cases c with
  | insert anObject newIndexPath => rfl
  | delete anObject indexPath => rfl
  | update anObject indexPath => rfl
  | move anObject indexPath newIndexPath =>
    simp [didChange, Change.didChange, TableView.deleteRows, TableView.insertRows, updates]

theorem SantaLettersTableViewController.didChange_open (dataSource rows : List Cell)
    (batch : List Update) (c : Change) :
    didChange dataSource ⟨rows, some batch⟩ c.didChange =
      some ⟨rows, some (batch ++ SantaLettersTableViewController.updates c)⟩ := by
  cases c with
  | insert anObject newIndexPath => simp [didChange, Change.didChange, updates]
  | delete anObject indexPath => rfl
  | update anObject indexPath => rfl
  | move anObject indexPath newIndexPath => rfl

section Report
variable {didChange : List Cell → TableView → DidChange → Option TableView}
  {updates : Change → List Update}

/-- If every callback only collects its updates, the callbacks of a report collect them all. -/
theorem run_didChange
    (hopen : ∀ dataSource rows batch c, didChange dataSource ⟨rows, some batch⟩ c.didChange =
      some ⟨rows, some (batch ++ updates c)⟩)
    (dataSource rows : List Cell) (batch : List Update) (calls : List Change) :
    Runs.run (didChange dataSource) ⟨rows, some batch⟩ (calls.map Change.didChange) =
      some ⟨rows, some (batch ++ calls.flatMap updates)⟩ := by
  induction calls generalizing batch with
  | nil => simp
  | cons c calls ih =>
    rw [List.map_cons, Runs.run_cons, hopen, Option.bind_some, ih, List.flatMap_cons, List.append_assoc]

theorem processReport_eq
    (hopen : ∀ dataSource rows batch c, didChange dataSource ⟨rows, some batch⟩ c.didChange =
      some ⟨rows, some (batch ++ updates c)⟩)
    (dataSource rows : List Cell) (calls : List Change) :
    processReport didChange dataSource ⟨rows, none⟩ calls =
      (perform (calls.flatMap updates) dataSource rows).map fun rows => ⟨rows, none⟩ := by
  unfold processReport controllerWillChangeContent TableView.beginUpdates
  rw [run_didChange hopen, List.nil_append, Option.bind_some]
  rfl

end Report

end SantaIWish
