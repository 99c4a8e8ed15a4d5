import SantaIWish.Library.Fields

/-!
# The view of a log by key

Every record of a log changes the value of its own key. What the view holds under a
key is what the records of that key, in order, make of the initial value: records of
other keys do not matter, and a key is there once a record names it.
-/

set_option autoImplicit false

universe u v w

namespace Replay

variable {K : Type u} {V : Type v} {O : Type w} [DecidableEq K]
variable (key : O → K) (update : O → V → V) (init : V)

def apply (view : List (K × V)) (o : O) : List (K × V) :=
  Fields.upsert (key o) (update o ((view.lookup (key o)).getD init)) view

def replay (log : List O) : List (K × V) := log.foldl (apply key update init) []

/-- What the records of one key make of the initial value. -/
def valueOf (k : K) (log : List O) : V :=
  (log.filter fun o => key o = k).foldl (fun v o => update o v) init

variable {key update init}

theorem replay_snoc (log : List O) (o : O) :
    replay key update init (log ++ [o]) = apply key update init (replay key update init log) o := by
  rw [replay, List.foldl_append]
  rfl

theorem nodup_keys_replay (log : List O) : ((replay key update init log).map Prod.fst).Nodup := by
  induction log using List.reverseRecOn with
  | nil => exact .nil
  | append_singleton log o ih =>
    rw [replay_snoc]
    exact Fields.nodup_keys_upsert _ _ ih

theorem mem_keys_replay {k : K} {log : List O} :
    k ∈ (replay key update init log).map Prod.fst ↔ k ∈ log.map key := by
  induction log using List.reverseRecOn with
  | nil => rfl
  | append_singleton log o ih =>
    rw [replay_snoc, apply, Fields.mem_keys_upsert, ih, List.map_append, List.mem_append, or_comm]
    exact or_congr_right List.mem_singleton.symm

theorem valueOf_snoc_self (log : List O) (o : O) :
    valueOf key update init (key o) (log ++ [o]) = update o (valueOf key update init (key o) log) := by
  simp [valueOf, List.filter_append, List.foldl_append]

theorem valueOf_snoc_of_ne {k : K} {o : O} (h : key o ≠ k) (log : List O) :
    valueOf key update init k (log ++ [o]) = valueOf key update init k log := by
  simp [valueOf, List.filter_append, h]

theorem valueOf_of_not_mem {k : K} {log : List O} (h : k ∉ log.map key) :
    valueOf key update init k log = init := by
  have hnone : (log.filter fun o => key o = k) = [] := by
    rw [List.filter_eq_nil_iff]
    intro o ho hk
    exact h (List.mem_map.mpr ⟨o, ho, by simpa using hk⟩)
  rw [valueOf, hnone]
  rfl

/-- The value under a key is a matter of the records of that key alone. -/
theorem lookup_replay (k : K) (log : List O) :
    (replay key update init log).lookup k =
      if k ∈ log.map key then some (valueOf key update init k log) else none := by
  induction log using List.reverseRecOn with
  | nil => rfl
  | append_singleton log o ih =>
    rw [replay_snoc, apply]
    by_cases hk : k = key o
    · subst hk
      have hbefore : ((replay key update init log).lookup (key o)).getD init =
          valueOf key update init (key o) log := by
        rw [ih]
        split
        · rfl
        · rename_i hnew
          exact (valueOf_of_not_mem hnew).symm
      rw [Fields.lookup_upsert_self, hbefore, valueOf_snoc_self, if_pos (by simp)]
    · have hne : key o ≠ k := fun h => hk h.symm
      rw [Fields.lookup_upsert_of_ne hk, ih, valueOf_snoc_of_ne hne]
      have hmem : k ∈ (log ++ [o]).map key ↔ k ∈ log.map key := by simp [hk]
      simp only [hmem]

/-- The entries of the view: each key of the log, with its value. -/
theorem mem_replay {e : K × V} {log : List O} :
    e ∈ replay key update init log ↔ e.1 ∈ log.map key ∧ e.2 = valueOf key update init e.1 log := by
  obtain ⟨k, v⟩ := e
  constructor
  · intro he
    have hmem : k ∈ log.map key := mem_keys_replay.mp (List.mem_map_of_mem he)
    have hlookup := Fields.lookup_eq_some_of_mem he (nodup_keys_replay log)
    rw [lookup_replay, if_pos hmem] at hlookup
    exact ⟨hmem, (Option.some.inj hlookup).symm⟩
  · intro hh
    obtain ⟨hmem, hv⟩ := hh
    obtain ⟨⟨k', v'⟩, he, hkey⟩ := List.mem_map.mp (mem_keys_replay.mpr hmem)
    obtain rfl : k' = k := hkey
    have hlookup := Fields.lookup_eq_some_of_mem he (nodup_keys_replay log)
    rw [lookup_replay, if_pos hmem] at hlookup
    obtain rfl : v = v' := hv.trans (Option.some.inj hlookup)
    exact he

end Replay
