import SantaIWish.Controller.LocalStore

/-!
# The screens that add records

What each screen accepts and hands on. The identity of the new object is the
one Core Data will give it.
-/

namespace SantaIWish
set_option autoImplicit false

/-! ## `NSString.integerValue` -/

def isSpace (c : Char) : Bool :=
  c.toNat ∈ [0x20, 0x85, 0xA0, 0x1680, 0x2028, 0x2029, 0x202F, 0x205F, 0x3000] ||
    (0x9 ≤ c.toNat && c.toNat ≤ 0xD) || (0x2000 ≤ c.toNat && c.toNat ≤ 0x200A)

def digitsValue (cs : List Char) : Nat := cs.foldl (fun n c => 10 * n + (c.toNat - '0'.toNat)) 0

def clampInt64 (n : Int) : Int := max (-9223372036854775808) (min n 9223372036854775807)

/-- Leading spaces, an optional sign and the longest run of digits; 0 when there is no digit. -/
def integerValue (s : String) : Int :=
  match s.toList.dropWhile isSpace with
  | '-' :: cs => clampInt64 (-(digitsValue (cs.takeWhile Char.isDigit) : Int))
  | '+' :: cs => clampInt64 (digitsValue (cs.takeWhile Char.isDigit))
  | cs => clampInt64 (digitsValue (cs.takeWhile Char.isDigit))

/-! ## Swift's `Int(_: String)` -/

/-- One or more digits. -/
def digits? (cs : List Char) : Option Nat :=
  if cs ≠ [] ∧ cs.all Char.isDigit = true then some (digitsValue cs) else none

def int64? (n : Int) : Option Int :=
  if -9223372036854775808 ≤ n ∧ n ≤ 9223372036854775807 then some n else none

/-- The whole text is an optional sign and digits, of a value in the 64-bit range. -/
def intValue? (s : String) : Option Int :=
  match s.toList with
  | '-' :: cs => (digits? cs).bind fun n => int64? (-(n : Int))
  | '+' :: cs => (digits? cs).bind fun n => int64? n
  | cs => (digits? cs).bind fun n => int64? n

/-! ## The save buttons -/

/-- `AddChildViewController`: a name and an age that is a number are required. -/
def doneButton (id : ObjectID) (name ageString : String) : Option AddOp :=
  if name ≠ "" then
    if ageString ≠ "" then (intValue? ageString).map fun age => .addChild id name age else none
  else none

/-- `AddChildOBJCViewController`, the screen of the storyboard: nothing is checked. -/
def doneBUtton (id : ObjectID) (childName childAgeString : String) : AddOp :=
  .addChild id childName (integerValue childAgeString)

/-- `AddItemViewController`: an image and a name are required. -/
def saveItem (id child : ObjectID) (imageData : Option Data) (toyName toyDescription : String) :
    Option AddOp :=
  match imageData with
  | some imageData =>
    if toyName ≠ "" then some (.addItem id child imageData toyDescription toyName) else none
  | none => none

/-- `SendSantaLetterViewController`: both texts are taken as they are. -/
def saveLetter (id child : ObjectID) (letter titleText : String) : AddOp :=
  .addLetter id child letter titleText

inductive FromScreen : AddOp → Prop
  | child (id : ObjectID) (name age : String) : FromScreen (doneBUtton id name age)
  | item {id child : ObjectID} {imageData : Option Data} {name description : String} {op : AddOp}
      (h : saveItem id child imageData name description = some op) : FromScreen op
  | letter (id child : ObjectID) (note title : String) : FromScreen (saveLetter id child note title)

def LocalStore.ScreenReachable (s : LocalStore) : Prop :=
  ∃ ops, (∀ op ∈ ops, FromScreen op) ∧ Runs.run LocalStore.add .empty ops = some s

end SantaIWish
