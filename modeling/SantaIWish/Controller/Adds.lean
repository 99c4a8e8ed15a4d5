import SantaIWish.Controller.Requests

/-!
# Adding children, items and letters

An add inserts an object and links it, saves, and calls the function that PUTs
it. `AddOp.inserted` is the part before the save, with the identity Core Data
gives the new object; an identity already in use and an unknown child are not
possible.
-/

namespace SantaIWish
open AsyncCalls (Started)
set_option autoImplicit false

inductive AddOp where
  | addChild (id : ObjectID) (name : String) (age : Int)
  | addItem (id child : ObjectID) (image : Data) (description name : String)
  | addLetter (id child : ObjectID) (note title : String)
  deriving DecidableEq

namespace AddOp

def Enabled (s : Store) : AddOp → Prop
  | addChild id _ _ => id ∉ s.children.map Child.objectID
  | addItem id child _ _ _ => id ∉ s.items.map Item.objectID ∧ child ∈ s.children.map Child.objectID
  | addLetter id child _ _ =>
    id ∉ s.letters.map Letter.objectID ∧ child ∈ s.children.map Child.objectID

instance (s : Store) (op : AddOp) : Decidable (op.Enabled s) := by
  cases op <;> unfold Enabled <;> infer_instance

def inserted (s : Store) : AddOp → Store
  | addChild id name age => { s with children := s.children ++ [Child.new id name (toString age) [] []] }
  | addItem id child image description name =>
    { s with items := s.items ++ [Item.new id image description name] }.addToItems child id
  | addLetter id child note title =>
    -- `Letter.init` sets the child, and `child.addToLetters(letter)` does so again
    ({ s with letters := s.letters ++ [Letter.new id note title] }.addToLetters child id).addToLetters
      child id

/-- The PUT the operation issues, over the graph in which the object's attributes are read. -/
def start (uid : Option String) (s : Store) : AddOp → Started URLRequest TaskResult (Option NetworkingError)
  | addChild id _ _ => putChild s id uid false
  | addItem id child _ _ _ => putItem s child uid id false
  | addLetter id child _ _ => putLetter s child uid id false

end AddOp

/-! ## What an insertion changes -/

def Item.added (id child : ObjectID) (image : Data) (description name : String) : Item :=
  { Item.new id image description name with child := some child }

def Letter.added (id child : ObjectID) (note title : String) : Letter :=
  { Letter.new id note title with child := some child }

namespace AddOp
variable {s : Store}

theorem inserted_addChild (id : ObjectID) (name : String) (age : Int) :
    (addChild id name age).inserted s =
      { s with children := s.children ++ [Child.new id name (toString age) [] []] } := rfl

theorem inserted_addItem {id child : ObjectID} {image : Data} {description name : String}
    (hfresh : id ∉ s.items.map Item.objectID) :
    (addItem id child image description name).inserted s =
      { s with
        children := s.children.map (Child.withItem child id)
        items := s.items ++ [Item.added id child image description name] } := by
  have hitems := Fields.map_update_of_not_mem (fun i : Item => { i with child := some child }) hfresh
  simp [inserted, Store.addToItems, hitems, Item.added, Item.new]

theorem inserted_addLetter {id child : ObjectID} {note title : String}
    (hfresh : id ∉ s.letters.map Letter.objectID) :
    (addLetter id child note title).inserted s =
      { s with
        children := s.children.map (Child.withLetter child id)
        letters := s.letters ++ [Letter.added id child note title] } := by
  have hletters := Fields.map_update_of_not_mem
    (fun l : Letter => { l with child := some child }) hfresh
  simp [inserted, Store.addToLetters, hletters, Letter.added, Letter.new, Child.withLetter_twice,
    Function.comp_def]

end AddOp

end SantaIWish
