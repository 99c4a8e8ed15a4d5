import Mathlib.Data.List.Nodup
import Mathlib.Data.List.Perm.Subperm
import SantaIWish.Foundation.Json
import SantaIWish.Library.PathWrites

/-!
# The Realtime Database as a JSON tree

A PUT replaces the subtree at its path by what the service keeps of the body. An
empty array or object is not kept, and an array is kept under the keys 0, 1, ...
Two trees are the same when they have the same leaves: `leaves` maps the tree to
the path-addressed trees of `PathWrites`, and a PUT to a write there.
-/

namespace SantaIWish.RealtimeDatabase
open PathWrites
set_option autoImplicit false

/-- An inner node without children does not exist. -/
def node : List (String × Json) → Json
  | [] => .null
  | f :: fs => .obj (f :: fs)

def keep (k : String) (v : Json) (fs : List (String × Json)) : List (String × Json) :=
  if v.isNull then fs else (k, v) :: fs

mutual

def stored : Json → Json
  | .null => .null
  | .scalar v => .scalar v
  | .arr xs => node (storedElements 0 xs)
  | .obj fs => node (storedFields fs)

def storedElements : Nat → List Json → List (String × Json)
  | _, [] => []
  | i, x :: xs => keep (toString i) (stored x) (storedElements (i + 1) xs)

def storedFields : List (String × Json) → List (String × Json)
  | [] => []
  | (k, v) :: fs => keep k (stored v) (storedFields fs)

end

def setField (k : String) (v t : Json) : Json :=
  if v.isNull then
    match t with
    | .obj fs => node (Fields.remove k fs)
    | t => t
  else .obj (Fields.upsert k v t.fields)

def replaceAt : List String → Json → Json → Json
  | [], v, _ => v
  | k :: p, v, t => setField k (replaceAt p v (t.field k)) t

def put (path : List String) (body t : Json) : Json := replaceAt path (stored body) t

/-! ## What a GET answers -/

/-- The elements of a node whose keys are 0, 1, ..., n-1. -/
def elements? (fs : List (String × Json)) : Option (List Json) :=
  (List.range fs.length).mapM fun i => fs.lookup (toString i)

mutual

/-- A node whose keys are 0, 1, ..., n-1 is answered as an array, any other as an object. -/
def rendered : Json → Json
  | .null => .null
  | .scalar v => .scalar v
  | .arr xs => .arr xs
  | .obj fs =>
    match elements? (renderedFields fs) with
    | some xs => .arr xs
    | none => .obj (renderedFields fs)

def renderedFields : List (String × Json) → List (String × Json)
  | [] => []
  | (k, v) :: fs => (k, rendered v) :: renderedFields fs

end

def get (path : List String) (t : Json) : Json := rendered (t.get path)

/-- The keys are 0, 1, ..., n-1 for some n, in any order. -/
def IndexKeys (keys : List String) : Prop := ∃ n : Nat, ∀ k, k ∈ keys ↔ ∃ i < n, k = toString i

theorem indexKeys_congr {keys keys' : List String} (h : ∀ k, k ∈ keys ↔ k ∈ keys') :
    IndexKeys keys ↔ IndexKeys keys' :=
  exists_congr fun _ => forall_congr' fun k => by rw [h k]

/-! ## Fields of a changed node -/

@[simp] theorem fields_node (fs : List (String × Json)) : (node fs).fields = fs := by
  cases fs <;> rfl

@[simp] theorem node_isNull (fs : List (String × Json)) : (node fs).isNull = fs.isEmpty := by
  cases fs <;> rfl

theorem node_of_ne_nil {fs : List (String × Json)} (h : fs ≠ []) : node fs = .obj fs := by
  cases fs with
  | nil => exact absurd rfl h
  | cons f fs => rfl

theorem isNull_iff {j : Json} : j.isNull = true ↔ j = .null := by
  cases j <;> simp [Json.isNull]

theorem field_node (k : String) (fs : List (String × Json)) :
    (node fs).field k = (fs.lookup k).getD .null := by
  rw [Json.field, fields_node]

theorem setField_of_isNull {v : Json} (hv : v.isNull = false) (k : String) (t : Json) :
    setField k v t = .obj (Fields.upsert k v t.fields) := by
  simp [setField, hv]

theorem field_setField_self (k : String) (v t : Json) : (setField k v t).field k = v := by
  unfold setField
  split
  · rename_i hv
    obtain rfl := isNull_iff.mp hv
    cases t with
    | obj fs => simp [Json.field, Fields.lookup_remove_self]
    | null => rfl
    | scalar v => rfl
    | arr xs => rfl
  · simp [Json.field, Fields.lookup_upsert_self]

theorem field_setField_of_ne {k k' : String} (h : k' ≠ k) (v t : Json) :
    (setField k v t).field k' = t.field k' := by
  unfold setField
  split
  · cases t with
    | obj fs => simp [Json.field, Fields.lookup_remove_of_ne h]
    | null => rfl
    | scalar v => rfl
    | arr xs => rfl
  · simp [Json.field, Fields.lookup_upsert_of_ne h]

theorem setField_isNull {k : String} {v : Json} (t : Json) (hv : v.isNull = false) :
    (setField k v t).isNull = false := by
  simp [setField, hv]

theorem replaceAt_isNull {v : Json} (hv : v.isNull = false) (p : List String) (t : Json) :
    (replaceAt p v t).isNull = false := by
  induction p generalizing t with
  | nil => exact hv
  | cons k p ih => exact setField_isNull t (ih (t.field k))

theorem get_replaceAt_append (p q : List String) (v t : Json) :
    (replaceAt (p ++ q) v t).get p = replaceAt q v (t.get p) := by
  induction p generalizing t with
  | nil => rfl
  | cons k p ih =>
    simp only [List.cons_append, replaceAt, Json.get_cons, field_setField_self]
    exact ih (t.field k)

/-- A write below a node rewrites the field it goes through, or adds it. -/
theorem replaceAt_node {v : Json} (hv : v.isNull = false) (k : String) (p : List String)
    (fs : List (String × Json)) : replaceAt (k :: p) v (node fs) =
      node (Fields.upsert k (replaceAt p v ((fs.lookup k).getD .null)) fs) := by
  rw [replaceAt, setField_of_isNull (replaceAt_isNull hv p _), fields_node, field_node,
    node_of_ne_nil (Fields.upsert_ne_nil _ _ _)]

/-- The frame rule: a write leaves what stands at an incomparable path as it was. -/
theorem get_replaceAt_of_incomparable {p q : List String} (h : ¬ Comparable p q) (v t : Json) :
    (replaceAt p v t).get q = t.get q := by
  induction p generalizing q t with
  | nil => exact absurd (Or.inl List.nil_prefix) h
  | cons k p ih =>
    cases q with
    | nil => exact absurd (Or.inr List.nil_prefix) h
    | cons k' q =>
      rw [replaceAt, Json.get_cons, Json.get_cons]
      by_cases hk : k = k'
      · subst k'
        have hpq : ¬ Comparable p q := fun hcmp => h (comparable_cons.mpr ⟨rfl, hcmp⟩)
        rw [field_setField_self, ih hpq]
      · rw [field_setField_of_ne fun he => hk he.symm]

/-! ## Rendered nodes -/

theorem renderedFields_eq (fs : List (String × Json)) :
    renderedFields fs = fs.map fun f => (f.1, rendered f.2) := by
  induction fs with
  | nil => rfl
  | cons f fs ih => rw [renderedFields, ih, List.map_cons]

theorem keys_renderedFields (fs : List (String × Json)) :
    (renderedFields fs).map Prod.fst = fs.map Prod.fst := by
  rw [renderedFields_eq, List.map_map]
  rfl

theorem toString_nat_injective : Function.Injective (toString : Nat → String) := by
  intro m n h
  have hdigits : Nat.toDigits 10 m = Nat.toDigits 10 n := String.ofList_injective h
  rw [← Nat.ofDigitChars_ten_toDigits (n := m), hdigits, Nat.ofDigitChars_ten_toDigits]

theorem nodup_indices (n : Nat) : ((List.range n).map fun i => toString i).Nodup :=
  List.nodup_range.map toString_nat_injective

theorem mem_indices {n : Nat} {k : String} :
    k ∈ (List.range n).map (fun i => toString i) ↔ ∃ i < n, k = toString i := by
  simp [eq_comm]

/-- Distinct keys are index keys exactly when each number below their count is among them. -/
theorem indexKeys_iff {keys : List String} (h : keys.Nodup) :
    IndexKeys keys ↔ ∀ i < keys.length, toString i ∈ keys := by
  constructor
  · intro hh
    obtain ⟨n, hn⟩ := hh
    have hperm : keys.Perm ((List.range n).map fun i => toString i) :=
      (List.perm_ext_iff_of_nodup h (nodup_indices n)).mpr fun k => (hn k).trans mem_indices.symm
    have hlength : keys.length = n := by simpa using hperm.length_eq
    intro i hi
    exact (hn _).mpr ⟨i, hlength ▸ hi, rfl⟩
  · intro hall
    have hsubset : ((List.range keys.length).map fun i => toString i) ⊆ keys := by
      intro k hk
      obtain ⟨i, hi, rfl⟩ := mem_indices.mp hk
      exact hall i hi
    have hperm := ((nodup_indices keys.length).subperm hsubset).perm_of_length_le (by simp)
    exact ⟨keys.length, fun k => hperm.mem_iff.symm.trans mem_indices⟩

theorem not_indexKeys {keys : List String} (hne : keys ≠ []) (hzero : "0" ∉ keys) :
    ¬ IndexKeys keys := by
  intro hh
  obtain ⟨n, hn⟩ := hh
  obtain ⟨k, hk⟩ := List.exists_mem_of_ne_nil keys hne
  obtain ⟨i, hi, _⟩ := (hn k).mp hk
  exact hzero ((hn "0").mpr ⟨0, Nat.zero_lt_of_lt hi, rfl⟩)

theorem mapM_isSome_iff {α β : Type*} (f : α → Option β) (xs : List α) :
    (xs.mapM f).isSome = true ↔ ∀ x ∈ xs, (f x).isSome = true := by
  induction xs with
  | nil => simp
  | cons x xs ih =>
    rw [List.mapM_cons, List.forall_mem_cons, ← ih]
    cases f x <;> cases xs.mapM f <;> simp

theorem elements?_isSome_iff {fs : List (String × Json)} (h : (fs.map Prod.fst).Nodup) :
    (elements? fs).isSome = true ↔ IndexKeys (fs.map Prod.fst) := by
  rw [indexKeys_iff h, elements?, mapM_isSome_iff, List.length_map]
  simp only [List.mem_range, List.lookup_isSome_iff, List.mem_map, beq_iff_eq]
  exact forall₂_congr fun i _ => exists_congr fun f => and_congr_right fun _ => eq_comm

theorem rendered_indexKeys {fs : List (String × Json)} (h : (fs.map Prod.fst).Nodup)
    (hkeys : IndexKeys (fs.map Prod.fst)) : ∃ xs, rendered (.obj fs) = .arr xs := by
  rw [← keys_renderedFields] at h hkeys
  obtain ⟨xs, hxs⟩ := Option.isSome_iff_exists.mp ((elements?_isSome_iff h).mpr hkeys)
  exact ⟨xs, by rw [rendered, hxs]⟩

theorem rendered_of_not_indexKeys {fs : List (String × Json)} (h : (fs.map Prod.fst).Nodup)
    (hkeys : ¬ IndexKeys (fs.map Prod.fst)) :
    rendered (.obj fs) = .obj (fs.map fun f => (f.1, rendered f.2)) := by
  rw [← keys_renderedFields] at h hkeys
  have hnone : elements? (renderedFields fs) = none := by
    rw [← Option.not_isSome_iff_eq_none, elements?_isSome_iff h]
    exact hkeys
  rw [rendered, hnone, renderedFields_eq]

/-! ## The tree of leaves -/

def leaves (t : Json) : Tree String Scalar := fun p => (t.get p).scalar?

/-- The same leaves at the same paths; the order of the keys in an object does not count. -/
def SameTree (t t' : Json) : Prop := leaves t = leaves t'

theorem leaves_cons (t : Json) (k : String) (p : List String) :
    leaves t (k :: p) = leaves (t.field k) p := rfl

theorem leaves_get (t : Json) (p : List String) : leaves (t.get p) = sub p (leaves t) := by
  funext q
  simp [leaves, Json.get_append]

theorem leaves_replaceAt {v : Json} (hv : v.isNull = false) (p : List String) (t : Json) :
    leaves (replaceAt p v t) = write p (leaves v) (leaves t) := by
  induction p generalizing t with
  | nil =>
    funext q
    exact (write_below [] q (leaves v) (leaves t)).symm
  | cons k p ih =>
    funext q
    cases q with
    | nil =>
      rw [write_above _ _ List.nil_prefix (by simp)]
      simp only [leaves, replaceAt, setField_of_isNull (replaceAt_isNull hv p (t.field k))]
      rfl
    | cons k' q =>
      rw [leaves_cons, replaceAt]
      by_cases hk : k' = k
      · subst k'
        rw [field_setField_self, ih]
        simp [write, leaves_cons]
      · have hk' : k ≠ k' := fun h => hk h.symm
        rw [field_setField_of_ne hk]
        simp [write, leaves_cons, hk, hk']

/-- The server's PUT refines the abstract write. -/
theorem leaves_put {body : Json} (hbody : (stored body).isNull = false) (path : List String)
    (t : Json) : leaves (put path body t) = write path (leaves (stored body)) (leaves t) :=
  leaves_replaceAt hbody path t

end SantaIWish.RealtimeDatabase
