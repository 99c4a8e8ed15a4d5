import SantaIWish.Controller.LocalStore
import SantaIWish.Firebase.Service
import SantaIWish.Library.Reorder

/-!
# Requests applied out of order

An add sends its request and goes on, so the server may apply the requests in
any order. Two requests conflict when one writes at or below the path of the
other: then the later one applied decides, and the order matters. Every order in
which conflicting requests keep the order of issue gives the same tree.
-/

namespace SantaIWish
open PathWrites RealtimeDatabase Reorder
set_option autoImplicit false

/-- The local store and the requests issued so far, in the order of issue. -/
structure Outbox where
  store : LocalStore := .empty
  issued : List URLRequest := []

namespace Outbox

def step (uid : String) (s : Outbox) (op : AddOp) : Option Outbox :=
  (s.store.add op).map fun store =>
    { store := store
      issued := s.issued ++ (op.start (some uid) store.graph).request.toList }

theorem step_eq_some {uid : String} {s t : Outbox} {op : AddOp} (h : step uid s op = some t) :
    s.store.add op = some t.store ∧
      t.issued = s.issued ++ (op.start (some uid) t.store.graph).request.toList := by
  obtain ⟨store, hstore, rfl⟩ := Option.map_eq_some_iff.mp h
  exact ⟨hstore, rfl⟩

theorem issued_isWrite {uid : String} {ops : List AddOp} {s : Outbox}
    (hrun : Runs.run (step uid) {} ops = some s) : ∀ q ∈ s.issued, q.IsWrite := by
  refine Runs.run_invariant (I := fun s : Outbox => ∀ q ∈ s.issued, q.IsWrite) ?_ ?_ hrun
  · intro q hq
    cases hq
  · intro s op t hs hstep q hq
    rw [(step_eq_some hstep).2, List.mem_append] at hq
    rcases hq with hq | hq
    · exact hs q hq
    · exact AddOp.start_isWrite (Option.mem_toList.mp hq)

end Outbox

namespace URLRequest

/-- The two requests differ, and one writes at or below the path of the other. -/
def Conflicts (q q' : URLRequest) : Prop := q ≠ q' ∧ Comparable q.path q'.path

def asWrite (q : URLRequest) : List String × Tree String Scalar := (q.path, leaves q.content)

theorem eq_or_incomparable {q q' : URLRequest} (h : ¬ q.Conflicts q') :
    q = q' ∨ ¬ Comparable q.path q'.path := by
  by_cases heq : q = q'
  · exact Or.inl heq
  · exact Or.inr fun hcmp => h ⟨heq, hcmp⟩

theorem write_comm_of_not_conflicts {q q' : URLRequest} (h : ¬ q.Conflicts q')
    (t : Tree String Scalar) :
    write q.path (leaves q.content) (write q'.path (leaves q'.content) t) =
      write q'.path (leaves q'.content) (write q.path (leaves q.content) t) := by
  rcases eq_or_incomparable h with rfl | hpaths
  · rfl
  · exact write_comm hpaths _ _ t

end URLRequest

theorem leaves_deliver {requests : List URLRequest} (h : ∀ q ∈ requests, q.IsWrite) (t : Json) :
    leaves (deliver requests t) = writeAll (requests.map URLRequest.asWrite) (leaves t) := by
  induction requests generalizing t with
  | nil => rfl
  | cons q requests ih =>
    have hq := (h q List.mem_cons_self).leaves_serve t
    have hrest := ih (fun q' hq' => h q' (List.mem_cons_of_mem q hq')) (q.serve t)
    rw [hq] at hrest
    exact hrest

/-- An order in which each issued request is applied once, and conflicting requests as they were issued.
A request is told from an equal one by its place in the order of issue. -/
structure RespectsConflicts (issued : List URLRequest) (order : List (URLRequest × Nat)) : Prop where
  once : order.Perm issued.zipIdx
  conflicts : KeepsOrder (fun a b : URLRequest × Nat => a.1.Conflicts b.1) issued.zipIdx order

theorem sameTree_of_respectsConflicts {issued : List URLRequest} {order : List (URLRequest × Nat)}
    (hwrites : ∀ q ∈ issued, q.IsWrite) (h : RespectsConflicts issued order) (t : Json) :
    SameTree (deliver (order.map Prod.fst) t) (deliver issued t) := by
  have hissued : issued.zipIdx.map Prod.fst = issued := List.zipIdx_map_fst 0 issued
  have horder : ∀ q ∈ order.map Prod.fst, q.IsWrite := by
    intro q hq
    apply hwrites
    rw [← hissued]
    exact (h.once.map Prod.fst).subset hq
  have hnodup : issued.zipIdx.Nodup :=
    List.Nodup.of_map Prod.snd (by rw [List.zipIdx_map_snd]; exact List.nodup_range')
  -- requests that do not conflict commute as writes, so the reordering keeps the fold
  have hfold := foldl_eq_of_keepsOrder
    (fun (t : Tree String Scalar) (a : URLRequest × Nat) => write a.1.path (leaves a.1.content) t)
    (fun a b hab t => URLRequest.write_comm_of_not_conflicts hab t) hnodup h.once h.conflicts
    (leaves t)
  rw [SameTree, leaves_deliver horder, leaves_deliver hwrites]
  conv_rhs => rw [← hissued]
  simpa only [writeAll, List.foldl_map, URLRequest.asWrite] using hfold

/-- Nothing is lost to a reordering of requests that do not conflict: the tree is the one of the order
of issue, and holds what each request wrote unless a conflicting one was issued after it. -/
theorem reordered_delivery_same (uid : String) (ops : List AddOp) (s : Outbox)
    (hrun : Runs.run (Outbox.step uid) {} ops = some s) (order : List (URLRequest × Nat))
    (horder : RespectsConflicts s.issued order) (t : Json) :
    SameTree (deliver (order.map Prod.fst) t) (deliver s.issued t) ∧
      ∀ (earlier later : List URLRequest) (q : URLRequest), s.issued = earlier ++ q :: later →
        (∀ q' ∈ later, ¬ q'.Conflicts q) →
        SameTree ((deliver (order.map Prod.fst) t).get q.path) q.content := by
  have hwrites := Outbox.issued_isWrite hrun
  have hsame := sameTree_of_respectsConflicts hwrites horder t
  refine ⟨hsame, ?_⟩
  intro earlier later q hissued hlater
  rw [SameTree, leaves_get, hsame, leaves_deliver hwrites, hissued, List.map_append, List.map_cons]
  apply sub_writeAll_last (w := q.asWrite)
  intro w hw
  obtain ⟨q', hq', rfl⟩ := List.mem_map.mp hw
  rcases URLRequest.eq_or_incomparable (hlater q' hq') with rfl | hpaths
  · exact Or.inl rfl
  · exact Or.inr hpaths

theorem two_children_reordered : ∃ (s : Outbox) (q q' : URLRequest), s.issued = [q, q'] ∧
    ∀ t, SameTree (deliver [q', q] t) (deliver [q, q'] t) := by
  let ops : List AddOp := [.addChild 0 "Ann" 7, .addChild 1 "Bob" 4]
  obtain ⟨s, hs⟩ : ∃ s, Runs.run (Outbox.step "uid") {} ops = some s := ⟨_, rfl⟩
  obtain ⟨q, q', hissued, hpaths⟩ : ∃ q q', s.issued = [q, q'] ∧ ¬ Comparable q.path q'.path := by
    obtain rfl := Option.some.inj hs
    exact ⟨_, _, rfl, by unfold Comparable; decide⟩
  refine ⟨s, q, q', hissued, fun t => ?_⟩
  have horder : RespectsConflicts s.issued [(q', 1), (q, 0)] := by
    rw [hissued]
    refine ⟨.swap _ _ _, fun a b hab hconflict => absurd hconflict.2 ?_⟩
    obtain ⟨rfl, rfl⟩ : a = (q, 0) ∧ b = (q', 1) := by simpa using hab.eq_of_length rfl
    exact hpaths
  have h := (reordered_delivery_same "uid" ops s hs [(q', 1), (q, 0)] horder t).1
  rwa [hissued] at h

/-- An item that reaches the server before its child is replaced by the child. -/
theorem child_after_item_loses_item :
    ¬ ∀ (uid : String) (ops : List AddOp) (s : Outbox), Runs.run (Outbox.step uid) {} ops = some s →
      ∀ order : List (URLRequest × Nat), order.Perm s.issued.zipIdx →
        ∀ t, SameTree (deliver (order.map Prod.fst) t) (deliver s.issued t) := by
  intro h
  let ops : List AddOp := [.addChild 0 "Ann" 7, .addItem 0 0 [] "red" "Train"]
  obtain ⟨s, hs⟩ : ∃ s, Runs.run (Outbox.step "uid") {} ops = some s := ⟨_, rfl⟩
  have hsame := h "uid" ops s hs s.issued.zipIdx.reverse (List.reverse_perm _) .null
  obtain rfl := Option.some.inj hs
  have hleaf := congrFun hsame ["ParentAccount", "uid", "children", "Ann", "Items", "Train", "name"]
  exact absurd hleaf (by decide)

end SantaIWish
