import Mathlib.Data.List.Forall2
import SantaIWish.Library.Fields

/-!
# JSON values and the containers `JSONDecoder` reads them through

An object is a list of keyed fields. A missing field and a field that holds
`null` are told apart only by the decoders that Foundation lets tell them apart.
-/

namespace SantaIWish
set_option autoImplicit false

universe u

inductive Scalar where
  | bool (b : Bool)
  | number (mantissa exponent : Int)
  | string (s : String)
  deriving DecidableEq, Repr

inductive Json where
  | null
  | scalar (v : Scalar)
  | arr (elements : List Json)
  | obj (fields : List (String × Json))

namespace Json

@[match_pattern] abbrev str (s : String) : Json := .scalar (.string s)

def isNull : Json → Bool
  | null => true
  | _ => false

def fields : Json → List (String × Json)
  | obj fs => fs
  | _ => []

def scalar? : Json → Option Scalar
  | scalar v => some v
  | _ => none

/-- The value of a field, `null` when there is none. -/
def field (k : String) (j : Json) : Json := (j.fields.lookup k).getD null

/-- The value at a path. -/
def get : List String → Json → Json
  | [], j => j
  | k :: p, j => get p (field k j)

@[simp] theorem get_nil (j : Json) : get [] j = j := rfl

@[simp] theorem get_cons (k : String) (p : List String) (j : Json) :
    get (k :: p) j = get p (field k j) := rfl

theorem get_append (p q : List String) (j : Json) : get (p ++ q) j = get q (get p j) := by
  induction p generalizing j with
  | nil => rfl
  | cons k p ih => exact ih (field k j)

@[simp] theorem fields_obj (fs : List (String × Json)) : (obj fs).fields = fs := rfl

@[simp] theorem isNull_obj (fs : List (String × Json)) : (obj fs).isNull = false := rfl

@[simp] theorem field_null (k : String) : field k null = null := rfl

@[simp] theorem get_null (p : List String) : get p null = null := by
  induction p with
  | nil => rfl
  | cons k p ih => exact ih

end Json

/-! ## Decoding -/

inductive DecodingError where
  | typeMismatch
  | valueNotFound
  | keyNotFound (key : String)
  | dataCorrupted
  deriving DecidableEq, Repr

abbrev Decoder (α : Type u) : Type u := Json → Except DecodingError α

namespace Decoder
variable {α : Type u}

def string : Decoder String
  | .str s => .ok s
  | .null => .error .valueNotFound
  | _ => .error .typeMismatch

/-- The keyed container of an object. -/
def container : Decoder (List (String × Json))
  | .obj fs => .ok fs
  | .null => .error .valueNotFound
  | _ => .error .typeMismatch

def array (element : Decoder α) : Decoder (List α)
  | .arr xs => xs.mapM element
  | .null => .error .valueNotFound
  | _ => .error .typeMismatch

/-- A `[String: α]`; Swift leaves the order of its entries open. Its keys are compared by canonical
equivalence, so texts are taken to be in one normal form, in which equivalent keys are equal. -/
def dictionary (element : Decoder α) : Decoder (List (String × α))
  | .obj fs => fs.mapM fun f => (element f.2).map fun v => (f.1, v)
  | .null => .error .valueNotFound
  | _ => .error .typeMismatch

/-- `container.decode(_:forKey:)` -/
def forKey (value : Decoder α) (key : String) (fs : List (String × Json)) :
    Except DecodingError α :=
  match fs.lookup key with
  | some j => value j
  | none => .error (.keyNotFound key)

/-- `container.decodeIfPresent(_:forKey:)` -/
def forKeyIfPresent (value : Decoder α) (key : String) (fs : List (String × Json)) :
    Except DecodingError (Option α) :=
  match fs.lookup key with
  | none => .ok none
  | some .null => .ok none
  | some j => (value j).map some

@[simp] theorem string_str (s : String) : string (.str s) = .ok s := rfl

theorem forKey_of_field {value : Decoder α} {key : String} {fs : List (String × Json)} {j : Json}
    (hj : Json.field key (.obj fs) = j) (hnull : j ≠ .null) : forKey value key fs = value j := by
  simp only [Json.field, Json.fields_obj] at hj
  cases hlookup : fs.lookup key with
  | none => exact absurd (by simpa [hlookup] using hj.symm) hnull
  | some j' =>
    obtain rfl : j' = j := by simpa [hlookup] using hj
    simp [forKey, hlookup]

theorem forKeyIfPresent_of_field_null {value : Decoder α} {key : String}
    {fs : List (String × Json)} (hj : Json.field key (.obj fs) = .null) :
    forKeyIfPresent value key fs = .ok none := by
  simp only [Json.field, Json.fields_obj] at hj
  cases hlookup : fs.lookup key with
  | none => simp [forKeyIfPresent, hlookup]
  | some j =>
    obtain rfl : j = .null := by simpa [hlookup] using hj
    simp [forKeyIfPresent, hlookup]

/-- Decoding every element succeeds exactly when each of them does. -/
theorem mapM_ok_iff {β : Type u} {γ : Type*} (f : γ → Except DecodingError β) (xs : List γ)
    (ys : List β) : xs.mapM f = .ok ys ↔ List.Forall₂ (fun x y => f x = .ok y) xs ys := by
  induction xs generalizing ys with
  | nil =>
    rw [List.mapM_nil, List.forall₂_nil_left_iff]
    exact ⟨fun h => (Except.ok.inj h).symm, fun h => h ▸ rfl⟩
  | cons x xs ih =>
    rw [List.mapM_cons]
    constructor
    · intro h
      cases hx : f x with
      | error e => rw [hx] at h; cases h
      | ok y =>
        cases hxs : xs.mapM f with
        | error e => rw [hx, hxs] at h; cases h
        | ok ys' =>
          rw [hx, hxs] at h
          cases h
          exact .cons hx ((ih ys').mp hxs)
    · intro h
      cases h with
      | cons hx htail =>
        rw [hx, (ih _).mpr htail]
        rfl

/-- The values of a dictionary, one for each field of the object. -/
theorem dictionary_values (element : Decoder α) (fs : List (String × Json)) :
    (dictionary element (.obj fs)).map (fun d => d.map Prod.snd) = fs.mapM fun f => element f.2 := by
  rw [dictionary]
  induction fs with
  | nil => rfl
  | cons f fs ih =>
    rw [List.mapM_cons, List.mapM_cons, ← ih]
    cases element f.2 with
    | error e => rfl
    | ok v =>
      cases fs.mapM fun f => (element f.2).map fun v => (f.1, v) with
      | error e => rfl
      | ok d => rfl

theorem mapM_congr {β γ δ : Type u} {f : γ → Except DecodingError β} {g : δ → Except DecodingError β}
    {xs : List γ} {ys : List δ} (h : List.Forall₂ (fun x y => f x = g y) xs ys) :
    xs.mapM f = ys.mapM g := by
  induction h with
  | nil => rfl
  | cons hxy _ ih => rw [List.mapM_cons, List.mapM_cons, hxy, ih]

/-- Where only one error can occur and it does, it is the result. -/
theorem mapM_error {β : Type u} {γ : Type*} {f : γ → Except DecodingError β} {e : DecodingError}
    {xs : List γ} (hone : ∀ x ∈ xs, (∃ y, f x = .ok y) ∨ f x = .error e)
    (hsome : ∃ x ∈ xs, f x = .error e) : xs.mapM f = .error e := by
  induction xs with
  | nil =>
    obtain ⟨x, hx, _⟩ := hsome
    cases hx
  | cons x xs ih =>
    obtain ⟨hx, hxs⟩ := List.forall_mem_cons.mp hone
    rw [List.mapM_cons]
    rcases hx with ⟨y, hy⟩ | he
    · have hrest : ∃ x ∈ xs, f x = .error e := by
        obtain ⟨x', hmem, he⟩ := hsome
        rcases List.mem_cons.mp hmem with rfl | hmem
        · rw [hy] at he
          cases he
        · exact ⟨x', hmem, he⟩
      rw [hy, ih hxs hrest]
      rfl
    · rw [he]
      rfl

end Decoder

end SantaIWish
