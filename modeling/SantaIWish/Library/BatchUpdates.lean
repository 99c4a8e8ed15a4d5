import Mathlib.Data.List.Forall2
import Mathlib.Data.List.Perm.Basic
import Mathlib.Data.List.Range

/-!
# Batches of row updates

A table shows one row for each entry of its data source. Within a batch the rows
to delete, reload or move are named by their old positions, the inserted rows and
the targets of moves by their positions in the result. Inserted and reloaded rows
are asked of the data source; every other row stays what it was. A batch that does
not fit the two row counts is refused.
-/

set_option autoImplicit false

universe u

namespace BatchUpdates

inductive Update where
  | insert (new : Nat)
  | delete (old : Nat)
  | reload (old : Nat)
  | move (old new : Nat)
  deriving DecidableEq, Repr

namespace Update

def removed : Update → Option Nat
  | delete old => some old
  | move old _ => some old
  | _ => none

def reloaded : Update → Option Nat
  | reload old => some old
  | _ => none

def added : Update → Option Nat
  | insert new => some new
  | move _ new => some new
  | _ => none

end Update

variable {A : Type u}

/-- The rows at the positions that are not listed, in order and with their positions. -/
def others (positions : List Nat) (rows : List A) : List (A × Nat) :=
  rows.zipIdx.filter fun r => r.2 ∉ positions

/-- The row the update puts at a position of the result; `none` for one the data source is asked for. -/
def Update.placed (rows : List A) (j : Nat) : Update → Option (Option A)
  | insert new => if new = j then some none else none
  | move old new => if new = j then some rows[old]? else none
  | _ => none

def placed (batch : List Update) (rows : List A) (j : Nat) : Option (Option A) :=
  batch.findSome? (Update.placed rows j)

/-- The rows that no update takes away, `none` for those reloaded. -/
def kept (batch : List Update) (rows : List A) : List (Option A) :=
  (others (batch.filterMap Update.removed) rows).map fun r =>
    if r.2 ∈ batch.filterMap Update.reloaded then none else some r.1

/-- Every position of the source gets the row placed there, and the kept rows fill the rest in order. -/
def weave (placed : Nat → Option (Option A)) : List (A × Nat) → List (Option A) → List A
  | [], _ => []
  | (a, j) :: source, kept =>
    match placed j, kept with
    | some row, kept => row.getD a :: weave placed source kept
    | none, row :: kept => row.getD a :: weave placed source kept
    | none, [] => []

/-- No row is named twice, every position exists, and the row counts add up. -/
structure Fits (batch : List Update) (count newCount : Nat) : Prop where
  oldOnce : (batch.filterMap Update.removed ++ batch.filterMap Update.reloaded).Nodup
  oldRange : ∀ i ∈ batch.filterMap Update.removed ++ batch.filterMap Update.reloaded, i < count
  newOnce : (batch.filterMap Update.added).Nodup
  newRange : ∀ j ∈ batch.filterMap Update.added, j < newCount
  counts : count + (batch.filterMap Update.added).length =
    newCount + (batch.filterMap Update.removed).length

theorem fits_iff {batch : List Update} {count newCount : Nat} : Fits batch count newCount ↔
    (batch.filterMap Update.removed ++ batch.filterMap Update.reloaded).Nodup ∧
    (∀ i ∈ batch.filterMap Update.removed ++ batch.filterMap Update.reloaded, i < count) ∧
    (batch.filterMap Update.added).Nodup ∧
    (∀ j ∈ batch.filterMap Update.added, j < newCount) ∧
    count + (batch.filterMap Update.added).length =
      newCount + (batch.filterMap Update.removed).length :=
  ⟨fun h => ⟨h.1, h.2, h.3, h.4, h.5⟩, fun h => ⟨h.1, h.2.1, h.2.2.1, h.2.2.2.1, h.2.2.2.2⟩⟩

instance (batch : List Update) (count newCount : Nat) : Decidable (Fits batch count newCount) :=
  decidable_of_iff' _ fits_iff

/-- The rows after the batch, `none` if it is refused. -/
def perform (batch : List Update) (source rows : List A) : Option (List A) :=
  if Fits batch rows.length source.length then
    some (weave (placed batch rows) source.zipIdx (kept batch rows))
  else none

theorem perform_eq_none_iff {batch : List Update} {source rows : List A} :
    perform batch source rows = none ↔ ¬ Fits batch rows.length source.length := by
  unfold perform
  split
  · rename_i hfits
    simp [hfits]
  · rename_i hfits
    simp [hfits]

/-! ## Rows that are not listed -/

theorem others_perm {positions positions' : List Nat} (h : positions.Perm positions') (rows : List A) :
    others positions rows = others positions' rows := by
  unfold others
  refine List.filter_congr fun r _ => ?_
  simp [h.mem_iff]

theorem length_others {positions : List Nat} {rows : List A} (hnodup : positions.Nodup)
    (hrange : ∀ i ∈ positions, i < rows.length) :
    (others positions rows).length + positions.length = rows.length := by
  have hothers : (others positions rows).length =
      ((List.range rows.length).filter fun i => i ∉ positions).length := by
    rw [others, List.range_eq_range', ← List.zipIdx_map_snd 0 rows, List.filter_map, List.length_map]
    rfl
  have hlisted : ((List.range rows.length).filter fun i => i ∈ positions).Perm positions := by
    refine (List.perm_ext_iff_of_nodup (List.nodup_range.filter _) hnodup).mpr fun i => ?_
    simp only [List.mem_filter, List.mem_range, decide_eq_true_eq, and_iff_right_iff_imp]
    exact hrange i
  have hsplit := List.length_eq_length_filter_add (l := List.range rows.length) fun i => i ∈ positions
  rw [List.length_range, hlisted.length_eq] at hsplit
  rw [hothers]
  simp only [decide_not]
  omega

/-! ## What is placed -/

theorem placed_eq_none_iff {batch : List Update} {rows : List A} {j : Nat} :
    placed batch rows j = none ↔ j ∉ batch.filterMap Update.added := by
  rw [placed, List.findSome?_eq_none_iff, List.mem_filterMap, not_exists]
  refine forall_congr' fun u => ?_
  rw [not_and]
  refine imp_congr_right fun _ => ?_
  cases u <;> simp [Update.placed, Update.added]

theorem placed_eq_of_mem {batch : List Update} {rows : List A} {u : Update} {j : Nat}
    (honce : (batch.filterMap Update.added).Nodup) (hu : u ∈ batch) (hj : u.added = some j) :
    placed batch rows j = u.placed rows j := by
  induction batch with
  | nil => cases hu
  | cons v batch ih =>
    have htail : (batch.filterMap Update.added).Nodup := by
      cases hv : v.added with
      | none => rwa [List.filterMap_cons_none hv] at honce
      | some k =>
        rw [List.filterMap_cons_some hv] at honce
        exact (List.nodup_cons.mp honce).2
    rcases List.mem_cons.mp hu with rfl | hmem
    · rw [placed, List.findSome?_cons]
      cases u <;> simp_all [Update.placed, Update.added]
    · have hv : v.placed rows j = none := by
        cases hv : v.added with
        | none => cases v <;> simp_all [Update.placed, Update.added]
        | some k =>
          rw [List.filterMap_cons_some hv] at honce
          have hk : k ≠ j := by
            rintro rfl
            exact (List.nodup_cons.mp honce).1 (List.mem_filterMap.mpr ⟨u, hmem, hj⟩)
          cases v <;> simp_all [Update.placed, Update.added]
      rw [placed, List.findSome?_cons, hv]
      exact ih htail hmem

/-! ## When the result shows the data source -/

/-- Weaving gives the source exactly when every placed row and, in order, every kept row is the entry at
its position or was asked of the source. -/
theorem weave_eq_iff {placed : Nat → Option (Option A)} {source : List (A × Nat)}
    {kept : List (Option A)} (hlen : kept.length = (source.filter fun s => (placed s.2).isNone).length) :
    weave placed source kept = source.map Prod.fst ↔
      (∀ s ∈ source, ∀ row, placed s.2 = some row → row.getD s.1 = s.1) ∧
      List.Forall₂ (fun row s => row.getD s.1 = s.1) kept
        (source.filter fun s => (placed s.2).isNone) := by
  induction source generalizing kept with
  | nil =>
    obtain rfl : kept = [] := by simpa using hlen
    simp [weave]
  | cons s source ih =>
    obtain ⟨a, j⟩ := s
    cases hplaced : placed j with
    | some row =>
      simp only [List.filter_cons, hplaced, Option.isNone_some, Bool.false_eq_true, if_false] at hlen ⊢
      simp only [weave, hplaced, List.map_cons, List.cons.injEq, ih hlen, List.forall_mem_cons,
        Option.some.injEq, forall_eq', and_assoc]
    | none =>
      simp only [List.filter_cons, hplaced, Option.isNone_none, if_true, List.length_cons] at hlen ⊢
      cases kept with
      | nil => simp at hlen
      | cons row kept =>
        simp only [weave, hplaced, List.map_cons, List.cons.injEq, ih (Nat.succ.inj hlen),
          List.forall_mem_cons, List.forall₂_cons, reduceCtorEq, false_imp_iff, implies_true, true_and]
        exact and_left_comm

/-- Placed rows show the entries at their positions exactly when the moved ones do. -/
theorem placed_shows_iff {batch : List Update} {source rows : List A}
    (hfits : Fits batch rows.length source.length) :
    (∀ s ∈ source.zipIdx, ∀ row, placed batch rows s.2 = some row → row.getD s.1 = s.1) ↔
      ∀ i j, .move i j ∈ batch → rows[i]? = source[j]? := by
  constructor
  · intro h i j hmove
    have hi : i < rows.length :=
      hfits.oldRange i (List.mem_append_left _ (List.mem_filterMap.mpr ⟨_, hmove, rfl⟩))
    have hj : j < source.length := hfits.newRange j (List.mem_filterMap.mpr ⟨_, hmove, rfl⟩)
    have hplaced : placed batch rows j = some rows[i]? := by
      rw [placed_eq_of_mem hfits.newOnce hmove rfl]
      simp [Update.placed]
    have hshows := h (source[j], j) (List.mk_mem_zipIdx_iff_getElem?.mpr (List.getElem?_eq_getElem hj))
      _ hplaced
    rw [List.getElem?_eq_getElem hi] at hshows ⊢
    rw [List.getElem?_eq_getElem hj]
    exact congrArg some hshows
  · intro h s hs row hrow
    have hentry : source[s.2]? = some s.1 := List.mk_mem_zipIdx_iff_getElem?.mp hs
    obtain ⟨u, hu, hplaced⟩ := List.exists_of_findSome?_eq_some hrow
    cases u with
    | insert new =>
      obtain rfl : none = row := (by simpa [Update.placed] using hplaced : new = s.2 ∧ none = row).2
      rfl
    | move old new =>
      obtain ⟨rfl, rfl⟩ : new = s.2 ∧ rows[old]? = row := by simpa [Update.placed] using hplaced
      rw [h old s.2 hu, hentry, Option.getD_some]
    | delete old => cases hplaced
    | reload old => cases hplaced

/-- The rule for a batch that fits: the rows become those of the data source exactly when every moved row
already shows what it should and so does, in order, every row left alone that is not reloaded. -/
theorem perform_eq_source_iff {batch : List Update} {source rows : List A}
    (hfits : Fits batch rows.length source.length) :
    perform batch source rows = some source ↔
      (∀ i j, .move i j ∈ batch → rows[i]? = source[j]?) ∧
      List.Forall₂ (fun r s => r.2 ∈ batch.filterMap Update.reloaded ∨ r.1 = s.1)
        (others (batch.filterMap Update.removed) rows)
        (others (batch.filterMap Update.added) source) := by
  have hunplaced : (source.zipIdx.filter fun s => (placed batch rows s.2).isNone) =
      others (batch.filterMap Update.added) source := by
    refine List.filter_congr fun s _ => ?_
    rw [Bool.eq_iff_iff, Option.isNone_iff_eq_none, placed_eq_none_iff, decide_eq_true_iff]
  have hlen : (kept batch rows).length =
      (source.zipIdx.filter fun s => (placed batch rows s.2).isNone).length := by
    have hremoved := length_others (List.nodup_append.mp hfits.oldOnce).1
      fun i hi => hfits.oldRange i (List.mem_append_left _ hi)
    have hadded := length_others hfits.newOnce hfits.newRange
    have hcounts := hfits.counts
    rw [hunplaced, kept, List.length_map]
    omega
  rw [perform, if_pos hfits, Option.some.injEq]
  have hwoven := weave_eq_iff hlen
  rw [List.zipIdx_map_fst] at hwoven
  rw [hwoven, hunplaced, kept, List.forall₂_map_left_iff, placed_shows_iff hfits]
  refine and_congr_right fun _ => iff_of_eq ?_
  congr 1
  funext r s
  split
  · rename_i hreloaded
    simp [hreloaded]
  · rename_i hreloaded
    simp [hreloaded]

end BatchUpdates
