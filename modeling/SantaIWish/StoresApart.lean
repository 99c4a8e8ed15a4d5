import SantaIWish.Library.Simulation
import SantaIWish.TwoStores

/-!
# Each store on its own

The local store and the server are written by the same adds, and each only by its own
share of them: Core Data has the adds whose saves succeeded, whatever the server
answers, and the server has the PUTs it applied, in the order in which it applied them,
whatever became of the saves. When a PUT is applied and when its handler is called are
apart: a request may time out before it is applied, and the response to one that was
applied may come late.
-/

namespace SantaIWish
open Runs
set_option autoImplicit false

structure ApartStores extends Stores where
  /-- The adds whose handlers have been called. -/
  answered : List Nat := []

inductive ApartStep where
  | add (op : AddOp) (outcome : SaveOutcome)
  /-- The server applies the PUT of the add number `i`, before the answer to it or after. -/
  | serve (i : Nat)
  /-- The PUT of the add number `i` ends, with an error or not. -/
  | answer (i : Nat) (error : Option NSError) (resaved : Bool)

/-- A request is sent once, so the server applies it at most once. -/
def Stores.serve (s : Stores) (i : Nat) : Option Stores := do
  let a ← s.adds[i]?
  let q ← a.request
  if a.applied.isSome then none
  else
    some { s with remote := q.serve s.remote, adds := s.adds.set i { a with applied := some true } }

namespace ApartStores

def answer (s : ApartStores) (i : Nat) (error : Option NSError) (resaved : Bool) : Option ApartStores := do
  let a ← s.adds[i]?
  let _ ← a.request
  if i ∈ s.answered then none
  else some ⟨s.completed a.op error resaved, s.answered ++ [i]⟩

def step (uid : Option String) (s : ApartStores) : ApartStep → Option ApartStores
  | .add op outcome => (s.toStores.add uid op outcome).map fun t => { s with toStores := t }
  | .serve i => (s.toStores.serve i).map fun t => { s with toStores := t }
  | .answer i error resaved => s.answer i error resaved

/-- The PUT that a step applies. -/
def servedBy (s : ApartStores) : ApartStep → List URLRequest
  | .serve i => (s.adds[i]?.bind Added.request).toList
  | _ => []

/-- The PUTs that are applied in a run, in that order. -/
def served (uid : Option String) (s : ApartStores) (steps : List ApartStep) : List URLRequest :=
  trace (ApartStores.step uid) servedBy s steps

theorem served_snoc {uid : Option String} {s t : ApartStores} {steps : List ApartStep}
    (hrun : run (ApartStores.step uid) s steps = some t) (a : ApartStep) :
    s.served uid (steps ++ [a]) = s.served uid steps ++ t.servedBy a := trace_snoc _ _ hrun a

/-- Nothing has been added yet. -/
def start (store : LocalStore) (remote : Json) : ApartStores :=
  { context := store, persistent := store, remote := remote }

end ApartStores

/-- The adds whose saves succeeded. -/
def savedAdds (steps : List ApartStep) : List AddOp :=
  steps.filterMap fun
    | .add op outcome => if outcome.succeeds = true then some op else none
    | _ => none

/-- The PUT of an add that was applied. -/
def Added.appliedRequest (a : Added) : Option URLRequest :=
  if a.applied = some true then a.request else none

theorem Stores.serve_spec {s t : Stores} {i : Nat} (h : s.serve i = some t) :
    ∃ a q, s.adds[i]? = some a ∧ a.request = some q ∧ a.applied = none ∧
      t = { s with remote := q.serve s.remote, adds := s.adds.set i { a with applied := some true } } := by
  unfold serve at h
  obtain ⟨a, ha, h⟩ := Option.bind_eq_some_iff.mp h
  obtain ⟨q, hq, h⟩ := Option.bind_eq_some_iff.mp h
  split at h
  · cases h
  · rename_i hopen
    exact ⟨a, q, ha, hq, by simpa using hopen, (Option.some.inj h).symm⟩

theorem ApartStores.answer_spec {s t : ApartStores} {i : Nat} {error : Option NSError} {resaved : Bool}
    (hs : s.context = s.persistent) (h : s.answer i error resaved = some t) :
    ∃ a q, s.adds[i]? = some a ∧ a.request = some q ∧ i ∉ s.answered ∧
      t = { s with answered := s.answered ++ [i] } := by
  unfold answer at h
  obtain ⟨a, ha, h⟩ := Option.bind_eq_some_iff.mp h
  obtain ⟨q, hq, h⟩ := Option.bind_eq_some_iff.mp h
  split at h
  · cases h
  · rename_i hopen
    refine ⟨a, q, ha, hq, hopen, ?_⟩
    rw [← Option.some.inj h, Stores.completed_of_coherent hs]

section Set
variable {A B : Type} {f : A → Option B} {xs : List A} {i : Nat} {a a' : A}

theorem filterMap_set_of_some {b : B} (ha : xs[i]? = some a) (hbefore : f a = none)
    (hafter : f a' = some b) : ((xs.set i a').filterMap f).Perm (xs.filterMap f ++ [b]) := by
  induction xs generalizing i with
  | nil => cases ha
  | cons x xs ih =>
    cases i with
    | zero =>
      obtain rfl : x = a := Option.some.inj ha
      rw [List.set_cons_zero, List.filterMap_cons_none hbefore, List.filterMap_cons_some hafter]
      exact (List.perm_append_singleton b _).symm
    | succ i =>
      rw [List.set_cons_succ]
      cases hx : f x with
      | none =>
        rw [List.filterMap_cons_none hx, List.filterMap_cons_none hx]
        exact ih ha
      | some y =>
        rw [List.filterMap_cons_some hx, List.filterMap_cons_some hx]
        exact (ih ha).cons y

end Set

/-- What a run has made of the two stores. -/
structure StoresApart (uid : Option String) (store : LocalStore) (remote : Json) (steps : List ApartStep)
    (s : ApartStores) : Prop where
  context : s.context = s.persistent
  persistent : run LocalStore.add store (savedAdds steps) = some s.persistent
  server : s.remote = ((ApartStores.start store remote).served uid steps).foldl (fun t q => q.serve t) remote
  once : ((ApartStores.start store remote).served uid steps).Perm (s.adds.filterMap Added.appliedRequest)

section Run
variable {uid : Option String} {store : LocalStore} {remote : Json} {steps : List ApartStep}
  {s t : ApartStores}

theorem savedAdds_snoc (steps : List ApartStep) (a : ApartStep) :
    savedAdds (steps ++ [a]) = savedAdds steps ++ savedAdds [a] := List.filterMap_append

theorem StoresApart.step {a : ApartStep} (h : StoresApart uid store remote steps s)
    (hrun : run (ApartStores.step uid) (.start store remote) steps = some s)
    (hstep : s.step uid a = some t) : StoresApart uid store remote (steps ++ [a]) t := by
  have hserved := ApartStores.served_snoc hrun a
  cases a with
  | add op outcome =>
    obtain ⟨t, hadd, rfl⟩ := Option.map_eq_some_iff.mp hstep
    obtain ⟨_, henabled, store', hgraph, rfl⟩ := Stores.add_spec h.context hadd
    have hnone : s.servedBy (.add op outcome) = [] := rfl
    rw [hnone, List.append_nil] at hserved
    refine ⟨rfl, ?_, hserved ▸ h.server, ?_⟩
    · rw [savedAdds_snoc, run_append, h.persistent, Option.bind_some]
      cases hsucceeds : outcome.succeeds with
      | true =>
        rw [hsucceeds, if_pos rfl] at hgraph
        simp [savedAdds, hsucceeds, run, LocalStore.add_eq_some.mpr ⟨henabled, hgraph⟩]
      | false =>
        rw [hsucceeds, if_neg Bool.false_ne_true] at hgraph
        simp [savedAdds, hsucceeds, LocalStore.ext hgraph]
    · rw [hserved, List.filterMap_append]
      have hnew : [({ op := op, request := s.sent uid op outcome } : Added)].filterMap
          Added.appliedRequest = [] := rfl
      rw [hnew, List.append_nil]
      exact h.once
  | serve i =>
    obtain ⟨t, hserve, rfl⟩ := Option.map_eq_some_iff.mp hstep
    obtain ⟨a, q, ha, hq, hopen, rfl⟩ := Stores.serve_spec hserve
    have hone : s.servedBy (.serve i) = [q] := by
      rw [ApartStores.servedBy, ha, Option.bind_some, hq, Option.toList_some]
    rw [hone] at hserved
    have hbefore : a.appliedRequest = none := by rw [Added.appliedRequest, hopen, if_neg (by simp)]
    have hafter : ({ a with applied := some true } : Added).appliedRequest = some q := by
      rw [Added.appliedRequest, if_pos rfl, hq]
    refine ⟨h.context, ?_, ?_, ?_⟩
    · rw [savedAdds_snoc]
      exact (List.append_nil (savedAdds steps)).symm ▸ h.persistent
    · rw [hserved, List.foldl_append, List.foldl_cons, List.foldl_nil, ← h.server]
    · rw [hserved]
      exact (h.once.append_right [q]).trans (filterMap_set_of_some ha hbefore hafter).symm
  | answer i error resaved =>
    obtain ⟨a, q, _, _, _, rfl⟩ := ApartStores.answer_spec h.context hstep
    have hnone : s.servedBy (.answer i error resaved) = [] := rfl
    rw [hnone, List.append_nil] at hserved
    refine ⟨h.context, ?_, hserved ▸ h.server, hserved ▸ h.once⟩
    rw [savedAdds_snoc]
    exact (List.append_nil (savedAdds steps)).symm ▸ h.persistent

theorem run_storesApart (hrun : run (ApartStores.step uid) (.start store remote) steps = some s) :
    StoresApart uid store remote steps s := by
  refine run_induction (P := StoresApart uid store remote) ?_ ?_ steps s hrun
  · exact ⟨rfl, rfl, rfl, .nil⟩
  · exact fun _ _ _ _ hsteps h hstep => h.step hsteps hstep

/-- In every run, whatever fails, whenever the server applies what it was sent and in whatever order the
answers come: nothing is left unsaved, the local store is that of the adds whose saves succeeded, and the
server is what the PUTs it applied have made of it, each of them applied once. -/
theorem stores_apart (uid : Option String) (store : LocalStore) (remote : Json) (steps : List ApartStep)
    (s : ApartStores) (hrun : run (ApartStores.step uid) (.start store remote) steps = some s) :
    StoresApart uid store remote steps s := run_storesApart hrun

/-- A wish of Ann's that is sent but not saved, a child whose request times out before it is applied, and a
letter that is answered before both. -/
def wishNotSaved : List ApartStep :=
  [.add (.addChild 0 "Ann" 7) .saved, .add (.addItem 3 0 [] "red" "train") (.failed true),
    .add (.addLetter 5 0 "thank you" "for Santa") .saved, .serve 2, .answer 2 none true,
    .answer 0 (some .bare) true, .serve 0, .serve 1, .answer 1 none false]

theorem wishNotSaved_apart : ∃ s : ApartStores,
    run (ApartStores.step (some "uid")) (.start .empty .null) wishNotSaved = some s ∧
      StoresApart (some "uid") .empty .null wishNotSaved s :=
  ⟨_, rfl, stores_apart (some "uid") .empty .null wishNotSaved _ rfl⟩

end Run

/-! ## Applying at the answer -/

/-- The add as the server has it: applied, or not yet. -/
def Added.asServed (a : Added) : Added :=
  { a with applied := if a.applied = some true then some true else none }

def Stores.asServed (s : Stores) : Stores := { s with adds := s.adds.map Added.asServed }

/-- The stores are the same, apart from what an answer has settled. -/
structure Stores.Apart (s : Stores) (t : ApartStores) : Prop where
  context : s.context = s.persistent
  stores : t.toStores = s.asServed
  answered : ∀ i, i ∈ t.answered ↔ ∃ a, s.adds[i]? = some a ∧ a.applied ≠ none

namespace Stores
variable {uid : Option String} {s s' : Stores} {t : ApartStores}

/-- The steps in which a PUT is applied, if it is, right before its handler is called. -/
def apartSteps (_ : Stores) : StoreStep → List ApartStep
  | .add op outcome => [.add op outcome]
  | .answer i true error resaved => [.serve i, .answer i error resaved]
  | .answer i false error resaved => [.answer i error resaved]

theorem Apart.adds (h : s.Apart t) {i : Nat} {a : Added} (ha : s.adds[i]? = some a) :
    t.adds[i]? = some a.asServed := by
  rw [h.stores, asServed, List.getElem?_map, ha, Option.map_some]

theorem add_asServed (uid : Option String) (s : Stores) (op : AddOp) (outcome : SaveOutcome) :
    s.asServed.add uid op outcome = (s.add uid op outcome).map asServed := by
  have hrecords : (s.adds.map Added.asServed).map (fun a => a.op.record) =
      s.adds.map fun a => a.op.record := List.map_map
  unfold add
  rw [asServed, hrecords]
  split
  · rfl
  · rw [Option.map_map]
    apply congrFun (congrArg Option.map (funext fun context => ?_))
    unfold save
    cases outcome.succeeds <;> simp [asServed, sent, Added.asServed]

theorem Apart.add {op : AddOp} {outcome : SaveOutcome} (h : s.Apart t) (hadd : s.add uid op outcome = some s') :
    ∃ t', t.step uid (.add op outcome) = some t' ∧ s'.Apart t' := by
  have hserved := add_asServed uid s op outcome
  rw [← h.stores, hadd] at hserved
  obtain ⟨_, _, store, _, rfl⟩ := add_spec h.context hadd
  refine ⟨_, congrArg (Option.map _) hserved, rfl, rfl, fun i => ?_⟩
  rw [h.answered]
  constructor
  · intro hh
    obtain ⟨a, ha, happlied⟩ := hh
    exact ⟨a, List.getElem?_append_left (List.getElem?_eq_some_iff.mp ha).1 ▸ ha, happlied⟩
  · intro hh
    obtain ⟨a, ha, happlied⟩ := hh
    rw [List.getElem?_append] at ha
    split at ha
    · exact ⟨a, ha, happlied⟩
    · -- the new add has not been answered
      obtain rfl := List.mem_singleton.mp (List.mem_of_getElem? ha)
      exact absurd rfl happlied

theorem Apart.serve (uid : Option String) {i : Nat} {a : Added} {q : URLRequest} (h : s.Apart t)
    (ha : s.adds[i]? = some a) (hq : a.request = some q) (hopen : a.applied = none) :
    ∃ t', t.step uid (.serve i) = some t' ∧ t'.answered = t.answered ∧
      t'.toStores = asServed { s with
        remote := q.serve s.remote
        adds := s.adds.set i { a with applied := some true } } := by
  have hnone : a.asServed.applied = none := by rw [Added.asServed, hopen, if_neg (by simp)]
  have hserve : t.toStores.serve i = some { t.toStores with
      remote := q.serve t.remote
      adds := t.adds.set i { a.asServed with applied := some true } } := by
    unfold Stores.serve
    rw [h.adds ha]
    change (a.request.bind fun q => _) = _
    rw [hq, Option.bind_some, hnone]
    rfl
  refine ⟨_, congrArg (Option.map _) hserve, rfl, ?_⟩
  rw [h.stores]
  simp only [asServed, List.map_set]
  rfl

theorem answer_apart (uid : Option String) {t : ApartStores} (ht : t.context = t.persistent) {i : Nat}
    {a : Added} {q : URLRequest} (ha : t.adds[i]? = some a) (hq : a.request = some q) (hopen : i ∉ t.answered)
    (error : Option NSError) (resaved : Bool) :
    t.step uid (.answer i error resaved) = some { t with answered := t.answered ++ [i] } := by
  have hcompleted := completed_of_coherent ht a.op error resaved
  simp only [ApartStores.step, ApartStores.answer, ha, hq, Option.bind_eq_bind, Option.bind_some, if_neg hopen,
    hcompleted]

theorem mem_answered_set {adds : List Added} {answered : List Nat} {i : Nat} {a : Added} (applied : Bool)
    (ha : adds[i]? = some a) (h : ∀ j, j ∈ answered ↔ ∃ b, adds[j]? = some b ∧ b.applied ≠ none) (j : Nat) :
    j ∈ answered ++ [i] ↔
      ∃ b, (adds.set i { a with applied := some applied })[j]? = some b ∧ b.applied ≠ none := by
  rw [List.mem_append, List.mem_singleton, h]
  have hi : i < adds.length := (List.getElem?_eq_some_iff.mp ha).1
  by_cases hij : i = j
  · subst hij
    rw [List.getElem?_set_self hi]
    exact iff_of_true (Or.inr rfl) ⟨_, rfl, by simp⟩
  · rw [List.getElem?_set_ne hij]
    exact or_iff_left fun heq => hij heq.symm

/-- An answer that does not say the PUT was applied leaves the add as the server has it. -/
theorem map_asServed_set {adds : List Added} {i : Nat} {a : Added} (ha : adds[i]? = some a)
    (hopen : a.applied = none) :
    (adds.set i { a with applied := some false }).map Added.asServed = adds.map Added.asServed := by
  obtain ⟨hi, rfl⟩ := List.getElem?_eq_some_iff.mp ha
  have hsame : ({ adds[i] with applied := some false } : Added).asServed = adds[i].asServed := by
    simp [Added.asServed, hopen]
  rw [List.map_set, hsame, ← List.getElem_map Added.asServed (h := by simpa using hi), List.set_getElem_self]

theorem Apart.answer {i : Nat} {applied : Bool} {error : Option NSError} {resaved : Bool} (h : s.Apart t)
    (hanswer : s.answer i applied error resaved = some s') :
    ∃ t', run (ApartStores.step uid) t (apartSteps s (.answer i applied error resaved)) = some t' ∧
      s'.Apart t' := by
  obtain ⟨a, q, ha, hq, hopen, rfl⟩ := answer_spec h.context hanswer
  have hunanswered : i ∉ t.answered := by
    rw [h.answered]
    intro hh
    obtain ⟨b, hb, happlied⟩ := hh
    obtain rfl := Option.some.inj (ha.symm.trans hb)
    exact happlied hopen
  have hlater := mem_answered_set applied ha h.answered
  cases applied with
  | true =>
    obtain ⟨u, hserve, hanswered, hu⟩ := h.serve uid ha hq hopen
    have hget : u.adds[i]? = some ({ a with applied := some true } : Added).asServed := by
      rw [hu, asServed, List.getElem?_map, List.getElem?_set_self (List.getElem?_eq_some_iff.mp ha).1,
        Option.map_some]
    have hcontext : u.context = u.persistent := by
      rw [hu]
      exact h.context
    have hanswer := answer_apart uid hcontext hget hq (hanswered ▸ hunanswered) error resaved
    refine ⟨{ u with answered := u.answered ++ [i] }, ?_, h.context, hu, ?_⟩
    · rw [apartSteps, run_cons, hserve, Option.bind_some, run_cons, hanswer]
      rfl
    · rw [hanswered]
      exact hlater
  | false =>
    have hcontext : t.context = t.persistent := by
      rw [h.stores]
      exact h.context
    have hanswer := answer_apart uid hcontext (h.adds ha) hq hunanswered error resaved
    refine ⟨{ t with answered := t.answered ++ [i] }, ?_, h.context, ?_, hlater⟩
    · rw [apartSteps, run_cons, hanswer]
      rfl
    · rw [asServed, map_asServed_set ha hopen]
      exact h.stores

/-- The stores in which a PUT is applied at its answer are a case of those in which it is applied at any
time. -/
theorem simulates_apart (uid : Option String) :
    Simulates (Stores.step uid) (ApartStores.step uid) apartSteps (fun _ => True) Apart := by
  constructor
  intro s t a s' h _ hstep
  cases a with
  | add op outcome =>
    obtain ⟨t', ht', h'⟩ := h.add hstep
    exact ⟨t', by rw [apartSteps, run_cons, ht']; rfl, h'⟩
  | answer i applied error resaved => exact h.answer hstep

/-- What is true of the stores apart is true where each PUT is applied at its answer. -/
theorem run_apart {uid : Option String} {store : LocalStore} {remote : Json} {steps : List StoreStep}
    {s : Stores} (hrun : run (Stores.step uid) ⟨store, store, remote, []⟩ steps = some s) :
    ∃ t, StoresApart uid store remote
        (trace (Stores.step uid) apartSteps ⟨store, store, remote, []⟩ steps) t ∧ s.Apart t := by
  have hstart : Apart ⟨store, store, remote, []⟩ (.start store remote) :=
    ⟨rfl, rfl, fun i => by simp [ApartStores.start]⟩
  obtain ⟨t, ht, h⟩ := (simulates_apart uid).run hstart (fun _ _ => trivial) hrun
  exact ⟨t, run_storesApart ht, h⟩

end Stores

end SantaIWish
