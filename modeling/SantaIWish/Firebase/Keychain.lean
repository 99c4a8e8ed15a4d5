/-!
# The keychain of Firebase Auth

`FIRAuthKeychainServices` keeps the data of a key in a generic-password item. An earlier version
of the library kept it in an item without a service: that one is read while there is no other, and
then moved. It is deleted once in a process, whether or not the deletion succeeds.
-/

namespace SantaIWish
set_option autoImplicit false

universe u

/-- The functions of the Security framework, as the errors name them. -/
inductive SecItemFunction where
  | copyMatching
  | add
  | update
  | delete
  deriving DecidableEq, Repr

inductive KeychainQuery where
  | genericPassword
  | legacyGenericPassword
  deriving DecidableEq, Repr

structure SecItemCall where
  function : SecItemFunction
  query : KeychainQuery
  deriving DecidableEq, Repr

/-- The items of one key. -/
structure KeychainServices (α : Type u) where
  item : Option α := none
  legacyItem : Option α := none
  /-- Kept in memory. -/
  legacyEntryDeleted : Bool := false

namespace KeychainServices
variable {α : Type u}

/-! The calls listed in `fails` fail with a status of their own, and change nothing. -/

def itemWithQuery (k : KeychainServices α) (fails : List SecItemCall) (query : KeychainQuery) :
    Except SecItemFunction (Option α) :=
  if ⟨.copyMatching, query⟩ ∈ fails then .error .copyMatching
  else
    match query with
    | .genericPassword => .ok k.item
    | .legacyGenericPassword => .ok k.legacyItem

/-- `SecItemAdd` refuses a duplicate, which is updated instead. -/
def setItemWithQuery (k : KeychainServices α) (fails : List SecItemCall) (data : α) :
    Except SecItemFunction (KeychainServices α) :=
  if ⟨.add, .genericPassword⟩ ∈ fails then .error .add
  else if k.item.isSome ∧ ⟨.update, .genericPassword⟩ ∈ fails then .error .update
  else .ok { k with item := some data }

def deleteLegacyItem (k : KeychainServices α) (fails : List SecItemCall) : KeychainServices α :=
  if k.legacyEntryDeleted then k
  else
    { k with
      legacyItem := if ⟨.delete, .legacyGenericPassword⟩ ∈ fails then k.legacyItem else none
      legacyEntryDeleted := true }

def dataForKey (k : KeychainServices α) (fails : List SecItemCall) :
    Except SecItemFunction (Option α × KeychainServices α) := do
  match ← k.itemWithQuery fails .genericPassword with
  | some data => return (some data, k)
  | none =>
    if k.legacyEntryDeleted then return (none, k)
    match ← k.itemWithQuery fails .legacyGenericPassword with
    | none => return (none, { k with legacyEntryDeleted := true })
    | some data =>
      let k ← k.setItemWithQuery fails data
      return (some data, k.deleteLegacyItem fails)

def setData (k : KeychainServices α) (fails : List SecItemCall) (data : α) :
    Except SecItemFunction (KeychainServices α) := k.setItemWithQuery fails data

def removeData (k : KeychainServices α) (fails : List SecItemCall) :
    Except SecItemFunction (KeychainServices α) :=
  if ⟨.delete, .genericPassword⟩ ∈ fails then .error .delete
  else .ok (deleteLegacyItem { k with item := none } fails)

/-- In a new process. -/
def restarted (k : KeychainServices α) : KeychainServices α := { k with legacyEntryDeleted := false }

/-! ## The keychain as a cell -/

/-- The data of the key. -/
def stored (k : KeychainServices α) : Option α :=
  k.item.or (if k.legacyEntryDeleted then none else k.legacyItem)

/-- What is taken to be deleted is. -/
def Clean (k : KeychainServices α) : Prop := k.legacyEntryDeleted = true → k.legacyItem = none

variable {k k' : KeychainServices α} {fails : List SecItemCall}

theorem clean_restarted : k.restarted.Clean := fun h => absurd h Bool.false_ne_true

/-- A legacy item that is still there comes back with the next process. -/
theorem Clean.stored_restarted (h : k.Clean) : k.restarted.stored = k.stored := by
  unfold stored restarted
  cases hdeleted : k.legacyEntryDeleted with
  | false => rfl
  | true => simp [h hdeleted]

theorem Clean.deleteLegacyItem (h : k.Clean) (hfails : ⟨.delete, .legacyGenericPassword⟩ ∉ fails) :
    (k.deleteLegacyItem fails).Clean := by
  unfold KeychainServices.deleteLegacyItem
  rw [if_neg hfails]
  split
  · exact h
  · exact fun _ => rfl

theorem deleteLegacyItem_stored :
    (k.deleteLegacyItem fails).stored = k.item := by
  unfold deleteLegacyItem
  split
  · rename_i hdeleted
    simp [stored, hdeleted]
  · simp [stored]

theorem setData_spec {data : α} (h : k.setData fails data = .ok k') :
    k'.stored = some data ∧ (k.Clean → k'.Clean) := by
  unfold setData setItemWithQuery at h
  split at h
  · cases h
  · split at h
    · cases h
    · obtain rfl := Except.ok.inj h
      exact ⟨rfl, id⟩

theorem removeData_spec (h : k.removeData fails = .ok k') : k'.stored = none ∧
    (⟨.delete, .legacyGenericPassword⟩ ∉ fails → k.Clean → k'.Clean) := by
  unfold removeData at h
  split at h
  · cases h
  · obtain rfl := Except.ok.inj h
    refine ⟨deleteLegacyItem_stored, fun hfails hclean => ?_⟩
    have hclean' : Clean { k with item := none } := hclean
    exact hclean'.deleteLegacyItem hfails

/-- Where nothing fails, the data is found, and stays what it is. -/
theorem dataForKey_nil (k : KeychainServices α) : ∃ k', k.dataForKey [] = .ok (k.stored, k') ∧
    k'.stored = k.stored ∧ (k.Clean → k'.Clean) := by
  obtain ⟨item, legacyItem, deleted⟩ := k
  cases item with
  | some data => exact ⟨_, rfl, rfl, id⟩
  | none =>
    cases deleted with
    | true => exact ⟨_, rfl, rfl, id⟩
    | false =>
      cases legacyItem with
      | none => exact ⟨_, rfl, rfl, fun _ _ => rfl⟩
      | some data => exact ⟨_, rfl, rfl, fun _ _ => rfl⟩

end KeychainServices

end SantaIWish
