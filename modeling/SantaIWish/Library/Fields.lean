import Mathlib.Data.List.Basic
import Mathlib.Data.List.Induction
import Mathlib.Data.List.Perm.Basic

/-!
# Keyed fields: association lists with in-place update

Lookup is `List.lookup`. An update replaces the first entry of its key where it
stands and appends a new key at the end, so the order of the keys never changes.
-/

set_option autoImplicit false

universe u v

namespace Fields

variable {K : Type u} {V : Type v} [DecidableEq K]

/-- Replace the entry of `k`, or append one. -/
def upsert (k : K) (v : V) : List (K × V) → List (K × V)
  | [] => [(k, v)]
  | (k', v') :: fs => if k' = k then (k, v) :: fs else (k', v') :: upsert k v fs

/-- Drop every entry of `k`. -/
def remove (k : K) (fs : List (K × V)) : List (K × V) := fs.filter fun f => f.1 ≠ k

theorem upsert_ne_nil (k : K) (v : V) (fs : List (K × V)) : upsert k v fs ≠ [] := by
  cases fs with
  | nil => exact List.cons_ne_nil _ _
  | cons f fs =>
    rw [upsert]
    split <;> exact List.cons_ne_nil _ _

theorem lookup_upsert_self (k : K) (v : V) (fs : List (K × V)) :
    (upsert k v fs).lookup k = some v := by
  induction fs with
  | nil => simp [upsert]
  | cons f fs ih =>
    obtain ⟨k', v'⟩ := f
    by_cases hk : k' = k
    · simp [upsert, hk]
    · have hne : (k == k') = false := by simpa using fun h => hk h.symm
      simp only [upsert, if_neg hk, List.lookup_cons, hne, ih]

theorem lookup_upsert_of_ne {k k' : K} (h : k' ≠ k) (v : V) (fs : List (K × V)) :
    (upsert k v fs).lookup k' = fs.lookup k' := by
  have hne : (k' == k) = false := by simpa using h
  induction fs with
  | nil => simp [upsert, List.lookup_cons, hne]
  | cons f fs ih =>
    obtain ⟨k₀, v₀⟩ := f
    by_cases hk : k₀ = k
    · subst k₀
      simp [upsert, List.lookup_cons, hne]
    · simp only [upsert, if_neg hk, List.lookup_cons, ih]

theorem lookup_remove_self (k : K) (fs : List (K × V)) : (remove k fs).lookup k = none := by
  induction fs with
  | nil => rfl
  | cons f fs ih =>
    obtain ⟨k', v'⟩ := f
    by_cases hk : k' = k
    · simpa [remove, hk] using ih
    · have hne : (k == k') = false := by simpa using fun h => hk h.symm
      simpa [remove, hk, List.lookup_cons, hne] using ih

theorem lookup_remove_of_ne {k k' : K} (h : k' ≠ k) (fs : List (K × V)) :
    (remove k fs).lookup k' = fs.lookup k' := by
  have hne : (k' == k) = false := by simpa using h
  induction fs with
  | nil => rfl
  | cons f fs ih =>
    obtain ⟨k₀, v₀⟩ := f
    by_cases hk : k₀ = k
    · subst k₀
      simpa [remove, List.lookup_cons, hne] using ih
    · have hkeep : remove k ((k₀, v₀) :: fs) = (k₀, v₀) :: remove k fs := by simp [remove, hk]
      rw [hkeep, List.lookup_cons, List.lookup_cons, ih]

theorem lookup_map {W : Type*} (g : V → W) (k : K) (fs : List (K × V)) :
    (fs.map fun f => (f.1, g f.2)).lookup k = (fs.lookup k).map g := by
  induction fs with
  | nil => rfl
  | cons f fs ih =>
    rw [List.map_cons, List.lookup_cons, List.lookup_cons, ih]
    cases k == f.1 <;> rfl

theorem lookup_of_not_mem {k : K} {fs : List (K × V)} (h : k ∉ fs.map Prod.fst) : fs.lookup k = none := by
  rw [List.lookup_eq_none_iff]
  intro f hf
  have hne : k ≠ f.1 := fun he => h (List.mem_map.mpr ⟨f, hf, he.symm⟩)
  simpa using hne

theorem upsert_of_not_mem {k : K} (v : V) {fs : List (K × V)} (h : k ∉ fs.map Prod.fst) :
    upsert k v fs = fs ++ [(k, v)] := by
  induction fs with
  | nil => rfl
  | cons f fs ih =>
    obtain ⟨k', v'⟩ := f
    have hk : k' ≠ k := fun he => h (by simp [he])
    have hrest : k ∉ fs.map Prod.fst := fun hm => h (List.mem_cons_of_mem _ hm)
    simp [upsert, hk, ih hrest]

/-- Updating a key that occurs once changes its own entry and no other. -/
theorem upsert_of_nodup {k : K} (v : V) {fs : List (K × V)} (hk : k ∈ fs.map Prod.fst)
    (hfs : (fs.map Prod.fst).Nodup) :
    upsert k v fs = fs.map fun f => if f.1 = k then (k, v) else f := by
  induction fs with
  | nil => simp at hk
  | cons f fs ih =>
    obtain ⟨k', v'⟩ := f
    obtain ⟨hnew, hrest⟩ := List.nodup_cons.mp hfs
    by_cases he : k' = k
    · subst k'
      have hsame : fs.map (fun f => if f.1 = k then (k, v) else f) = fs := by
        conv_rhs => rw [← List.map_id fs]
        apply List.map_congr_left
        intro f hf
        have hne : f.1 ≠ k := fun hfk => hnew (List.mem_map.mpr ⟨f, hf, hfk⟩)
        simp [hne]
      simp [upsert, hsame]
    · have hmem : k ∈ fs.map Prod.fst := by
        rcases List.mem_cons.mp hk with h | h
        · exact absurd h.symm he
        · exact h
      simp [upsert, he, ih hmem hrest]

theorem lookup_eq_some_of_mem {k : K} {v : V} {fs : List (K × V)} (hmem : (k, v) ∈ fs)
    (hfs : (fs.map Prod.fst).Nodup) : fs.lookup k = some v := by
  induction fs with
  | nil => simp at hmem
  | cons f fs ih =>
    obtain ⟨k', v'⟩ := f
    obtain ⟨hnew, hrest⟩ := List.nodup_cons.mp hfs
    rcases List.mem_cons.mp hmem with heq | htail
    · obtain ⟨rfl, rfl⟩ := Prod.mk.inj heq
      simp
    · have hne : (k == k') = false := by
        rw [beq_eq_false_iff_ne]
        rintro rfl
        exact hnew (List.mem_map.mpr ⟨(k, v), htail, rfl⟩)
      rw [List.lookup_cons, hne]
      exact ih htail hrest

theorem mem_iff_lookup {k : K} {v : V} {fs : List (K × V)} (hfs : (fs.map Prod.fst).Nodup) :
    (k, v) ∈ fs ↔ fs.lookup k = some v := by
  constructor
  · exact fun h => lookup_eq_some_of_mem h hfs
  · intro h
    obtain ⟨before, after, rfl, _⟩ := List.lookup_eq_some_iff.mp h
    exact List.mem_append_right _ List.mem_cons_self

theorem exists_lookup_of_mem {k : K} {fs : List (K × V)} (hk : k ∈ fs.map Prod.fst) :
    ∃ v, fs.lookup k = some v := by
  have hsome : (fs.lookup k).isSome = true := by
    obtain ⟨f, hf, rfl⟩ := List.mem_map.mp hk
    exact List.lookup_isSome_iff.mpr ⟨f, hf, by simp⟩
  exact Option.isSome_iff_exists.mp hsome

/-- Changing the value of a key that occurs once changes its own entry and no other. -/
theorem upsert_lookup_of_nodup {k : K} (g : Option V → V) {fs : List (K × V)}
    (hk : k ∈ fs.map Prod.fst) (hfs : (fs.map Prod.fst).Nodup) :
    upsert k (g (fs.lookup k)) fs = fs.map fun f => if f.1 = k then (f.1, g (some f.2)) else f := by
  rw [upsert_of_nodup _ hk hfs]
  apply List.map_congr_left
  intro hh hf
  obtain ⟨k', v'⟩ := hh
  by_cases he : k' = k
  · subst k'
    simp [lookup_eq_some_of_mem hf hfs]
  · simp [he]

theorem remove_of_not_mem {k : K} {fs : List (K × V)} (h : k ∉ fs.map Prod.fst) : remove k fs = fs := by
  rw [remove, List.filter_eq_self]
  intro f hf
  have hne : f.1 ≠ k := fun he => h (List.mem_map.mpr ⟨f, hf, he⟩)
  simpa using hne

theorem upsert_perm (k : K) (v : V) {fs : List (K × V)} (hfs : (fs.map Prod.fst).Nodup) :
    (upsert k v fs).Perm ((k, v) :: remove k fs) := by
  induction fs with
  | nil => exact .rfl
  | cons f fs ih =>
    obtain ⟨k', v'⟩ := f
    obtain ⟨hnew, hrest⟩ := List.nodup_cons.mp hfs
    by_cases hk : k' = k
    · subst k'
      have hremove : remove k ((k, v') :: fs) = fs := by
        rw [← remove_of_not_mem hnew]
        simp [remove]
      rw [hremove, upsert, if_pos rfl]
    · have hremove : remove k ((k', v') :: fs) = (k', v') :: remove k fs := by simp [remove, hk]
      rw [hremove, upsert, if_neg hk]
      exact ((ih hrest).cons (k', v')).trans (.swap _ _ _)

theorem mem_keys_upsert {k k' : K} {v : V} {fs : List (K × V)} :
    k' ∈ (upsert k v fs).map Prod.fst ↔ k' = k ∨ k' ∈ fs.map Prod.fst := by
  induction fs with
  | nil => simp [upsert]
  | cons f fs ih =>
    obtain ⟨k₀, v₀⟩ := f
    by_cases hk : k₀ = k
    · subst k₀
      simp [upsert]
    · rw [upsert, if_neg hk, List.map_cons, List.map_cons, List.mem_cons, List.mem_cons, ih]
      exact or_left_comm

theorem nodup_keys_upsert (k : K) (v : V) {fs : List (K × V)} (hfs : (fs.map Prod.fst).Nodup) :
    ((upsert k v fs).map Prod.fst).Nodup := by
  induction fs with
  | nil => simp [upsert]
  | cons f fs ih =>
    obtain ⟨k', v'⟩ := f
    obtain ⟨hnew, hrest⟩ := List.nodup_cons.mp hfs
    by_cases hk : k' = k
    · subst k'
      simpa [upsert] using hfs
    · rw [upsert, if_neg hk, List.map_cons, List.nodup_cons, mem_keys_upsert]
      refine ⟨?_, ih hrest⟩
      rintro (h | h)
      · exact hk h
      · exact hnew h

theorem upsert_map {W : Type*} (g : V → W) (k : K) (v : V) (fs : List (K × V)) :
    upsert k (g v) (fs.map fun f => (f.1, g f.2)) = (upsert k v fs).map fun f => (f.1, g f.2) := by
  induction fs with
  | nil => rfl
  | cons f fs ih =>
    by_cases hk : f.1 = k
    · simp [upsert, hk]
    · simp [upsert, hk, ih]

section Related
variable {W : Type*} {R : K × V → K × W → Prop}

/-- Entries of the same key stand in the same places, so they are found and replaced together. -/
theorem forall₂_upsert (hkey : ∀ f g, R f g → f.1 = g.1) {k : K} {v : V} {w : W} (hnew : R (k, v) (k, w))
    {fs : List (K × V)} {gs : List (K × W)} (h : List.Forall₂ R fs gs) :
    List.Forall₂ R (upsert k v fs) (upsert k w gs) := by
  induction h with
  | nil => exact .cons hnew .nil
  | @cons f g fs gs hfg hrest ih =>
    obtain ⟨k₁, v₁⟩ := f
    obtain ⟨k₂, w₂⟩ := g
    obtain rfl : k₁ = k₂ := hkey _ _ hfg
    by_cases hk : k₁ = k
    · simpa [upsert, hk] using And.intro hnew hrest
    · simpa [upsert, hk] using And.intro hfg ih

theorem forall₂_lookup (hkey : ∀ f g, R f g → f.1 = g.1) {fs : List (K × V)} {gs : List (K × W)}
    (h : List.Forall₂ R fs gs) (k : K) :
    (fs.lookup k = none ∧ gs.lookup k = none) ∨
      ∃ v w, fs.lookup k = some v ∧ gs.lookup k = some w ∧ R (k, v) (k, w) := by
  induction h with
  | nil => exact Or.inl ⟨rfl, rfl⟩
  | @cons f g fs gs hfg _ ih =>
    obtain ⟨k₁, v₁⟩ := f
    obtain ⟨k₂, w₂⟩ := g
    obtain rfl : k₁ = k₂ := hkey _ _ hfg
    by_cases hk : k = k₁
    · subst hk
      exact Or.inr ⟨v₁, w₂, by simp, by simp, hfg⟩
    · have hne : (k == k₁) = false := by simpa using hk
      rw [List.lookup_cons, List.lookup_cons, hne]
      exact ih

end Related

theorem forall₂_keys {A B C : Type*} {R : A × B → A × C → Prop} (hkey : ∀ f g, R f g → f.1 = g.1)
    {fs : List (A × B)} {gs : List (A × C)} (h : List.Forall₂ R fs gs) :
    fs.map Prod.fst = gs.map Prod.fst := by
  rw [← List.forall₂_eq_eq_eq, List.forall₂_map_left_iff, List.forall₂_map_right_iff]
  exact h.imp hkey

/-! ## Records found by a unique key -/

section Records
variable {A : Type v} {key : A → K} {xs : List A}

theorem find_key_of_mem (hxs : (xs.map key).Nodup) {x : A} (hx : x ∈ xs) :
    xs.find? (fun y => key y = key x) = some x := by
  induction xs with
  | nil => simp at hx
  | cons y xs ih =>
    obtain ⟨hnew, hrest⟩ := List.nodup_cons.mp hxs
    by_cases hkey : key y = key x
    · rcases List.mem_cons.mp hx with rfl | hx
      · simp
      · exact absurd (List.mem_map.mpr ⟨x, hx, hkey.symm⟩) hnew
    · rcases List.mem_cons.mp hx with rfl | hx
      · exact absurd rfl hkey
      · simpa [List.find?_cons, hkey] using ih hrest hx

/-- Looking up the keys of some of the records gives these records back. -/
theorem filterMap_find_key (hxs : (xs.map key).Nodup) {ys : List A} (hys : ∀ y ∈ ys, y ∈ xs) :
    (ys.map key).filterMap (fun k => xs.find? fun y => key y = k) = ys := by
  induction ys with
  | nil => rfl
  | cons y ys ih =>
    have hy := find_key_of_mem hxs (hys y List.mem_cons_self)
    have htail := ih fun z hz => hys z (List.mem_cons_of_mem y hz)
    simp only [List.map_cons, List.filterMap_cons, hy, htail]

theorem eq_of_key_eq (hxs : (xs.map key).Nodup) {x y : A} (hx : x ∈ xs) (hy : y ∈ xs)
    (h : key x = key y) : x = y := by
  have hfind := find_key_of_mem hxs hx
  rw [h, find_key_of_mem hxs hy] at hfind
  exact (Option.some.inj hfind).symm

/-- An update by key does not touch a list in which the key does not occur. -/
theorem map_update_of_not_mem {k : K} (f : A → A) (hk : k ∉ xs.map key) :
    (xs.map fun x => if key x = k then f x else x) = xs := by
  conv_rhs => rw [← List.map_id xs]
  apply List.map_congr_left
  intro x hx
  have hne : key x ≠ k := fun h => hk (List.mem_map.mpr ⟨x, hx, h⟩)
  simp [hne]

end Records

/-- An arrangement of the images of some records is the list of images of an arrangement of them. -/
theorem exists_map_eq_of_perm {A B : Type*} {f : A → B} {xs : List A} {ys : List B}
    (h : ys.Perm (xs.map f)) : ∃ zs : List A, zs.Perm xs ∧ ys = zs.map f := by
  have himages : List.Forall₂ (fun y x => y = f x) (xs.map f) xs :=
    List.forall₂_map_left_iff.mpr (List.forall₂_same.mpr fun _ _ => rfl)
  obtain ⟨zs, hzs, hperm⟩ := List.perm_comp_forall₂ h himages
  refine ⟨zs, hperm, ?_⟩
  rw [← List.forall₂_eq_eq_eq, List.forall₂_map_right_iff]
  exact hzs

/-! ## The last record of each key -/

section LastPerKey
variable {A : Type v} (key : A → K)

/-- The records that no later record of the same key follows. -/
def lastPerKey : List A → List A
  | [] => []
  | x :: xs => if key x ∈ xs.map key then lastPerKey xs else x :: lastPerKey xs

variable {key}

theorem mem_keys_lastPerKey {k : K} {xs : List A} :
    k ∈ (lastPerKey key xs).map key ↔ k ∈ xs.map key := by
  induction xs with
  | nil => rfl
  | cons x xs ih =>
    rw [lastPerKey]
    split
    · rename_i hlater
      rw [ih, List.map_cons, List.mem_cons]
      constructor
      · exact Or.inr
      · rintro (rfl | hk)
        · exact hlater
        · exact hk
    · rw [List.map_cons, List.map_cons, List.mem_cons, List.mem_cons, ih]

theorem nodup_lastPerKey (xs : List A) : ((lastPerKey key xs).map key).Nodup := by
  induction xs with
  | nil => exact .nil
  | cons x xs ih =>
    rw [lastPerKey]
    split
    · exact ih
    · rename_i hlast
      rw [List.map_cons, List.nodup_cons, mem_keys_lastPerKey]
      exact ⟨hlast, ih⟩

theorem lastPerKey_sublist (xs : List A) : (lastPerKey key xs).Sublist xs := by
  induction xs with
  | nil => exact .slnil
  | cons x xs ih =>
    rw [lastPerKey]
    split
    · exact ih.cons x
    · exact ih.cons_cons x

theorem lastPerKey_of_nodup {xs : List A} (h : (xs.map key).Nodup) : lastPerKey key xs = xs := by
  induction xs with
  | nil => rfl
  | cons x xs ih =>
    obtain ⟨hnew, hrest⟩ := List.nodup_cons.mp h
    rw [lastPerKey, if_neg hnew, ih hrest]

theorem lastPerKey_map {B : Type*} {key' : B → K} {g : A → B} (hg : ∀ x, key' (g x) = key x)
    (xs : List A) : lastPerKey key' (xs.map g) = (lastPerKey key xs).map g := by
  have hkeys : ∀ xs : List A, (xs.map g).map key' = xs.map key := by
    intro xs
    rw [List.map_map]
    exact List.map_congr_left fun x _ => hg x
  induction xs with
  | nil => rfl
  | cons x xs ih =>
    rw [List.map_cons, lastPerKey, lastPerKey, hkeys, hg, ih]
    split <;> rfl

/-- One more record takes the place of the records of its key. -/
theorem lastPerKey_snoc (xs : List A) (x : A) : (lastPerKey key (xs ++ [x])).Perm
    (x :: (lastPerKey key xs).filter fun y => key y ≠ key x) := by
  induction xs with
  | nil => exact .rfl
  | cons y xs ih =>
    have hlater : key y ∈ (xs ++ [x]).map key ↔ key y ∈ xs.map key ∨ key y = key x := by simp
    rw [List.cons_append, lastPerKey, lastPerKey]
    by_cases hmem : key y ∈ xs.map key
    · rw [if_pos (hlater.mpr (Or.inl hmem)), if_pos hmem]
      exact ih
    · rw [if_neg hmem]
      by_cases hkey : key y = key x
      · rw [if_pos (hlater.mpr (Or.inr hkey)), List.filter_cons_of_neg (by simpa using hkey)]
        exact ih
      · have hnot : key y ∉ (xs ++ [x]).map key := fun h => (hlater.mp h).elim hmem hkey
        rw [if_neg hnot, List.filter_cons_of_pos (by simpa using hkey)]
        exact (ih.cons y).trans (.swap _ _ _)

end LastPerKey

/-- Entries put one after another leave the last entry of each key. -/
theorem foldl_upsert_perm (entries : List (K × V)) :
    (entries.foldl (fun fs e => upsert e.1 e.2 fs) []).Perm (lastPerKey Prod.fst entries) := by
  induction entries using List.reverseRecOn with
  | nil => exact .rfl
  | append_singleton entries e ih =>
    rw [List.foldl_append, List.foldl_cons, List.foldl_nil]
    have hnodup := ((ih.map Prod.fst).nodup_iff).mpr (nodup_lastPerKey entries)
    have hupsert := upsert_perm e.1 e.2 hnodup
    have hremove : (remove e.1 (entries.foldl (fun fs e => upsert e.1 e.2 fs) [])).Perm
        (remove e.1 (lastPerKey Prod.fst entries)) := ih.filter _
    exact hupsert.trans ((hremove.cons e).trans (lastPerKey_snoc entries e).symm)

/-- Entries put one after another, each under its key. -/
def lastPut (entries : List (K × V)) : List (K × V) :=
  entries.foldl (fun fs e => upsert e.1 e.2 fs) []

theorem lastPut_perm (entries : List (K × V)) : (lastPut entries).Perm (lastPerKey Prod.fst entries) :=
  foldl_upsert_perm entries

theorem lastPut_snoc (entries : List (K × V)) (e : K × V) :
    lastPut (entries ++ [e]) = upsert e.1 e.2 (lastPut entries) := by
  rw [lastPut, List.foldl_append]
  rfl

theorem nodup_lastPut (entries : List (K × V)) : ((lastPut entries).map Prod.fst).Nodup :=
  ((lastPut_perm entries).map Prod.fst).nodup_iff.mpr (nodup_lastPerKey entries)

theorem mem_keys_lastPut {k : K} {entries : List (K × V)} :
    k ∈ (lastPut entries).map Prod.fst ↔ k ∈ entries.map Prod.fst := by
  rw [((lastPut_perm entries).map Prod.fst).mem_iff, mem_keys_lastPerKey]

theorem lookup_lastPut (k : K) (entries : List (K × V)) :
    (lastPut entries).lookup k = (entries.filter fun e => e.1 = k).getLast?.map Prod.snd := by
  induction entries using List.reverseRecOn with
  | nil => rfl
  | append_singleton entries e ih =>
    rw [lastPut_snoc, List.filter_append, List.getLast?_append]
    by_cases he : e.1 = k
    · subst he
      rw [lookup_upsert_self]
      simp
    · rw [lookup_upsert_of_ne fun h => he h.symm, ih]
      simp [he]

end Fields
