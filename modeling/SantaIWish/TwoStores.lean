import SantaIWish.Controller.Records

/-!
# Adding to Core Data and to the server

An add saves the main context and sends its PUT; neither waits for the other, and
neither is taken back when the other fails. The save of the completion handler
comes when nothing is left to save. The two stores agree on every add exactly
when each PUT ends as its save did, and no PUT overwrites what an earlier one
wrote.
-/

namespace SantaIWish
open RealtimeDatabase PathWrites Runs
set_option autoImplicit false

/-- How the save of an add ends. After a failed one the context is reset, and the attributes of its
objects may still be readable or not. -/
inductive SaveOutcome where
  | saved
  | failed (readable : Bool)
  deriving DecidableEq

namespace SaveOutcome

def succeeds : SaveOutcome → Bool
  | saved => true
  | failed _ => false

def readable : SaveOutcome → Bool
  | saved => true
  | failed readable => readable

end SaveOutcome

/-- An add made so far: the PUT it sent, and once that is answered, whether the server applied it. -/
structure Added where
  op : AddOp
  request : Option URLRequest
  applied : Option Bool := none

structure Stores where
  context : LocalStore
  persistent : LocalStore
  remote : Json
  adds : List Added := []

inductive StoreStep where
  | add (op : AddOp) (outcome : SaveOutcome)
  /-- The PUT of the add number `i` ends: applied or not, with an error or not, and if its handler saves,
  with a save that succeeds or not. -/
  | answer (i : Nat) (applied : Bool) (error : Option NSError) (resaved : Bool)

namespace Stores

/-- `save` of the main context: where it fails the context is reset. -/
def save (s : Stores) (succeeds : Bool) : Stores :=
  if succeeds then { s with persistent := s.context } else { s with context := s.persistent }

def sent (uid : Option String) (s : Stores) (op : AddOp) (outcome : SaveOutcome) : Option URLRequest :=
  if outcome.readable then (op.start uid (op.inserted s.context.graph)).request else none

/-- Insert and link, save, then PUT. The new object is none that was added before. -/
def add (uid : Option String) (s : Stores) (op : AddOp) (outcome : SaveOutcome) : Option Stores :=
  if op.record ∈ s.adds.map fun a => a.op.record then none
  else (s.context.add op).map fun context =>
    { ({ s with context := context }.save outcome.succeeds) with
      adds := s.adds ++ [{ op := op, request := s.sent uid op outcome }] }

/-- The closure passed to the PUT. Without an error `addItemToWishList` saves the main context again,
`addLetterToChild` a new background context with nothing in it, and `addChild` nothing. -/
def completed (s : Stores) (op : AddOp) (error : Option NSError) (resaved : Bool) : Stores :=
  match op, error with
  -- the status code is not looked at: a rejected PUT without an error counts as done
  | .addItem _ _ _ _ _, none => s.save resaved
  | _, _ => s

/-- The handler of a PUT is called. If the PUT is applied, it is taken to be applied at this step; the server
of `ApartStores` applies it earlier or later. -/
def answer (s : Stores) (i : Nat) (applied : Bool) (error : Option NSError) (resaved : Bool) :
    Option Stores := do
  let a ← s.adds[i]?
  let q ← a.request
  if a.applied.isSome then none
  else
    let s' : Stores :=
      { s with
        remote := if applied then q.serve s.remote else s.remote
        adds := s.adds.set i { a with applied := some applied } }
    some (s'.completed a.op error resaved)

def step (uid : Option String) (s : Stores) : StoreStep → Option Stores
  | .add op outcome => s.add uid op outcome
  | .answer i applied error resaved => s.answer i applied error resaved

end Stores

/-! ## What the stores agree on -/

namespace Added

def Settled (a : Added) : Prop := a.request = none ∨ a.applied ≠ none

/-- Its own PUT was applied, and what it wrote is still there. -/
def InRemote (a : Added) (t : Json) : Prop :=
  a.applied = some true ∧ ∃ q, a.request = some q ∧ Holds q.path (leaves q.content) (leaves t)

def InPersistent (a : Added) (s : LocalStore) : Prop := a.op.record.In s.graph

end Added

/-- Every add that is settled is in both stores or in neither. -/
def AllOrNothing (s : Stores) : Prop :=
  ∀ a ∈ s.adds, a.Settled → (a.InPersistent s.persistent ↔ a.InRemote s.remote)

def URLRequest.Spares (q q' : URLRequest) : Prop :=
  ∀ r x, leaves q'.content r = some x → Agrees q.path (leaves q.content) (q'.path ++ r) x

/-- The condition on a step: an add saves nothing it does not send, and a PUT ends as the save of its
add did and, if it is applied, spares the earlier ones that were. -/
def StepAgrees (uid : Option String) (s : Stores) : StoreStep → Prop
  | .add op outcome => s.sent uid op outcome = none → outcome.succeeds = false
  | .answer i applied _ _ => ∀ a q, s.adds[i]? = some a → a.request = some q →
      (a.InPersistent s.persistent ↔ applied = true) ∧
        (applied = true → ∀ b ∈ s.adds, ∀ q', b.applied = some true → b.request = some q' →
          q.Spares q')

/-! ## What a step does -/

/-- Nothing is ever left unsaved, and what is sent is a write. -/
structure Coherent (s : Stores) : Prop where
  context : s.context = s.persistent
  writes : ∀ a ∈ s.adds, ∀ q, a.request = some q → q.IsWrite

namespace Stores

theorem save_of_coherent {s : Stores} (h : s.context = s.persistent) (succeeds : Bool) :
    s.save succeeds = s := by
  obtain ⟨context, persistent, remote, adds⟩ := s
  obtain rfl : context = persistent := h
  cases succeeds <;> rfl

theorem completed_of_coherent {s : Stores} (h : s.context = s.persistent) (op : AddOp)
    (error : Option NSError) (resaved : Bool) : s.completed op error resaved = s := by
  cases op <;> cases error <;> simp [completed, save_of_coherent h]

theorem add_spec {uid : Option String} {s t : Stores} {op : AddOp} {outcome : SaveOutcome}
    (hs : s.context = s.persistent) (h : s.add uid op outcome = some t) :
    (∀ a ∈ s.adds, a.op.record ≠ op.record) ∧ op.Enabled s.persistent.graph ∧
      ∃ store : LocalStore,
        store.graph = (if outcome.succeeds = true then op.inserted s.persistent.graph
          else s.persistent.graph) ∧
        t = { s with
          context := store
          persistent := store
          adds := s.adds ++ [{ op := op, request := s.sent uid op outcome }] } := by
  unfold add at h
  split at h
  · cases h
  · rename_i hnew
    obtain ⟨context, hcontext, rfl⟩ := Option.map_eq_some_iff.mp h
    obtain ⟨henabled, hgraph⟩ := LocalStore.add_eq_some.mp hcontext
    rw [hs] at henabled hgraph
    refine ⟨fun a ha he => hnew (List.mem_map.mpr ⟨a, ha, he⟩), henabled, ?_⟩
    cases hsucceeds : outcome.succeeds with
    | true => exact ⟨context, hgraph, rfl⟩
    | false => exact ⟨s.persistent, rfl, rfl⟩

theorem answer_spec {s t : Stores} {i : Nat} {applied : Bool} {error : Option NSError} {resaved : Bool}
    (hs : s.context = s.persistent) (h : s.answer i applied error resaved = some t) :
    ∃ a q, s.adds[i]? = some a ∧ a.request = some q ∧ a.applied = none ∧
      t = { s with
        remote := if applied = true then q.serve s.remote else s.remote
        adds := s.adds.set i { a with applied := some applied } } := by
  unfold answer at h
  obtain ⟨a, ha, h⟩ := Option.bind_eq_some_iff.mp h
  obtain ⟨q, hq, h⟩ := Option.bind_eq_some_iff.mp h
  split at h
  · cases h
  · rename_i hopen
    refine ⟨a, q, ha, hq, by simpa using hopen, ?_⟩
    rw [← Option.some.inj h]
    apply completed_of_coherent
    exact hs

theorem sent_isWrite {uid : Option String} {s : Stores} {op : AddOp} {outcome : SaveOutcome}
    {q : URLRequest} (h : s.sent uid op outcome = some q) : q.IsWrite := by
  unfold sent at h
  split at h
  · exact AddOp.start_isWrite h
  · cases h

theorem step_coherent {uid : Option String} {s t : Stores} {a : StoreStep} (hs : Coherent s)
    (h : s.step uid a = some t) : Coherent t := by
  cases a with
  | add op outcome =>
    obtain ⟨_, _, store, _, rfl⟩ := add_spec hs.context h
    refine ⟨rfl, fun a ha q hq => ?_⟩
    rcases List.mem_append.mp ha with ha | ha
    · exact hs.writes a ha q hq
    · obtain rfl := List.mem_singleton.mp ha
      exact sent_isWrite hq
  | answer i applied error resaved =>
    obtain ⟨a, q, ha, hq, _, rfl⟩ := answer_spec hs.context h
    refine ⟨hs.context, fun b hb q' hq' => ?_⟩
    rcases List.mem_or_eq_of_mem_set hb with hb | rfl
    · exact hs.writes b hb q' hq'
    · exact hs.writes a (List.mem_of_getElem? ha) q' hq'

end Stores

theorem run_coherent {uid : Option String} {store : LocalStore} {remote : Json}
    {steps : List StoreStep} {s : Stores}
    (hrun : run (Stores.step uid) ⟨store, store, remote, []⟩ steps = some s) : Coherent s :=
  run_invariant ⟨rfl, fun _ ha => absurd ha List.not_mem_nil⟩ (fun _ _ _ => Stores.step_coherent) hrun

theorem inPersistent_add_iff {s : Store} {store : LocalStore} {op : AddOp} {succeeds : Bool}
    (henabled : op.Enabled s)
    (hstore : store.graph = if succeeds = true then op.inserted s else s) {a : Added} :
    (a.op.record ≠ op.record → (a.InPersistent store ↔ a.op.record.In s)) ∧
      (a.op = op → (a.InPersistent store ↔ succeeds = true)) := by
  rw [Added.InPersistent, hstore]
  cases succeeds with
  | true =>
    refine ⟨fun hne => AddOp.in_inserted_iff henabled hne, ?_⟩
    rintro rfl
    exact iff_of_true (AddOp.record_in henabled) rfl
  | false =>
    refine ⟨fun _ => Iff.rfl, ?_⟩
    rintro rfl
    exact iff_of_false (AddOp.record_not_in henabled) Bool.false_ne_true

theorem allOrNothing_add_iff {uid : Option String} {s t : Stores} {op : AddOp} {outcome : SaveOutcome}
    (hs : Coherent s) (hall : AllOrNothing s) (h : s.add uid op outcome = some t) :
    AllOrNothing t ↔ StepAgrees uid s (.add op outcome) := by
  obtain ⟨hnew, henabled, store, hstore, rfl⟩ := Stores.add_spec hs.context h
  have hpersistent := fun a : Added => inPersistent_add_iff (a := a) henabled hstore
  constructor
  · intro ht hsent
    have hadded := ht { op := op, request := s.sent uid op outcome }
      (List.mem_append_right _ List.mem_cons_self) (Or.inl hsent)
    rw [(hpersistent _).2 rfl] at hadded
    rw [Bool.eq_false_iff]
    intro hsucceeds
    cases (hadded.mp hsucceeds).1
  · intro hstep a ha hsettled
    rcases List.mem_append.mp ha with ha | ha
    · rw [(hpersistent a).1 (hnew a ha)]
      exact hall a ha hsettled
    · obtain rfl := List.mem_singleton.mp ha
      have hsent : s.sent uid op outcome = none := hsettled.resolve_right fun h => h rfl
      rw [(hpersistent _).2 rfl, hstep hsent]
      refine iff_of_false Bool.false_ne_true ?_
      intro hh
      obtain ⟨happlied, _⟩ := hh
      cases happlied

/-- An add whose PUT is answered is in the remote store exactly when the PUT was applied. -/
theorem Added.inRemote_answered_iff {a : Added} {q : URLRequest} (hq : a.request = some q)
    (hwrite : q.IsWrite) (applied : Bool) (t : Json) :
    ({ a with applied := some applied } : Added).InRemote (if applied = true then q.serve t else t) ↔
      applied = true := by
  constructor
  · intro hremote
    exact Option.some.inj hremote.1
  · rintro rfl
    refine ⟨rfl, q, hq, ?_⟩
    rw [if_pos rfl, hwrite.leaves_serve]
    exact holds_write_self _ _ _

/-- A later PUT leaves an add in the remote store exactly when it spares the PUT of the add. -/
theorem Added.inRemote_serve_iff {b : Added} {q q' : URLRequest} {t : Json} (hwrite : q.IsWrite)
    (hb : b.InRemote t) (hq' : b.request = some q') : b.InRemote (q.serve t) ↔ q.Spares q' := by
  obtain ⟨happlied, q₁, hq₁, hholds⟩ := hb
  obtain rfl := Option.some.inj (hq'.symm.trans hq₁)
  have hserved : Holds q'.path (leaves q'.content) (leaves (q.serve t)) ↔ q.Spares q' := by
    rw [hwrite.leaves_serve]
    exact holds_write_iff hholds
  rw [← hserved]
  constructor
  · intro hremote
    obtain ⟨_, q₂, hq₂, hafter⟩ := hremote
    obtain rfl := Option.some.inj (hq'.symm.trans hq₂)
    exact hafter
  · exact fun hafter => ⟨happlied, q', hq', hafter⟩

/-- In the past of a run that has been all or nothing, what was applied is still there. -/
theorem inRemote_of_always {uid : Option String} {store : LocalStore} {remote : Json}
    {steps : List StoreStep} {s : Stores}
    (hrun : run (Stores.step uid) ⟨store, store, remote, []⟩ steps = some s)
    (halways : Always (Stores.step uid) ⟨store, store, remote, []⟩ steps fun _ => AllOrNothing) :
    ∀ b ∈ s.adds, b.applied = some true → b.InRemote s.remote := by
  refine run_induction (P := fun steps (s : Stores) =>
    Always (Stores.step uid) ⟨store, store, remote, []⟩ steps (fun _ => AllOrNothing) →
      ∀ b ∈ s.adds, b.applied = some true → b.InRemote s.remote) ?_ ?_ steps s hrun halways
  · intro _ b hb
    cases hb
  · intro past s a t hpast ih hstep halways b hb happlied
    have hs := run_coherent hpast
    obtain ⟨hbefore, hlast⟩ := always_snoc.mp halways
    have hafter := hlast t ((run_snoc_eq_some _).mpr ⟨s, hpast, hstep⟩)
    cases a with
    | add op outcome =>
      obtain ⟨_, _, store, _, rfl⟩ := Stores.add_spec hs.context hstep
      rcases List.mem_append.mp hb with hb | hb
      · exact ih hbefore b hb happlied
      · obtain rfl := List.mem_singleton.mp hb
        cases happlied
    | answer i applied error resaved =>
      obtain ⟨a, q, ha, hq, _, rfl⟩ := Stores.answer_spec hs.context hstep
      rcases List.mem_or_eq_of_mem_set hb with hmem | rfl
      · -- it was applied before, so it is in the persistent store, and the state reached says the rest
        have hremote := ih hbefore b hmem happlied
        have hsettled : b.Settled := Or.inr (by simp [happlied])
        exact (hafter b hb hsettled).mp ((hbefore.of_run hpast b hmem hsettled).mpr hremote)
      · obtain rfl : applied = true := by simpa using happlied
        exact (Added.inRemote_answered_iff hq (hs.writes a (List.mem_of_getElem? ha) q hq) _ _).mpr rfl

theorem mem_set_of_ne {A : Type} {xs : List A} {i : Nat} {a a' b : A} (ha : xs[i]? = some a)
    (hb : b ∈ xs) (hne : b ≠ a) : b ∈ xs.set i a' := by
  obtain ⟨j, hj⟩ := List.mem_iff_getElem?.mp hb
  have hij : i ≠ j := by
    rintro rfl
    exact hne (Option.some.inj (hj.symm.trans ha))
  exact List.mem_iff_getElem?.mpr ⟨j, by rw [List.getElem?_set_ne hij, hj]⟩

theorem allOrNothing_answer_iff {uid : Option String} {s t : Stores} {i : Nat} {applied : Bool}
    {error : Option NSError} {resaved : Bool} (hs : Coherent s) (hall : AllOrNothing s)
    (hkept : ∀ b ∈ s.adds, b.applied = some true → b.InRemote s.remote)
    (h : s.answer i applied error resaved = some t) :
    AllOrNothing t ↔ StepAgrees uid s (.answer i applied error resaved) := by
  obtain ⟨a, q, ha, hq, hopen, rfl⟩ := Stores.answer_spec hs.context h
  have hwrite := hs.writes a (List.mem_of_getElem? ha) q hq
  have hi : i < s.adds.length := (List.getElem?_eq_some_iff.mp ha).1
  have hself := Added.inRemote_answered_iff hq hwrite applied s.remote
  constructor
  · intro ht a₁ q₁ ha₁ hq₁
    obtain rfl := Option.some.inj (ha.symm.trans ha₁)
    obtain rfl := Option.some.inj (hq.symm.trans hq₁)
    have hown := ht { a with applied := some applied } (List.mem_set hi _) (Or.inr (by simp))
    rw [hself] at hown
    refine ⟨hown, ?_⟩
    rintro rfl b hb q' happlied hq'
    -- `a` was still open, so `b` is another add and keeps its place in the list
    have hne : b ≠ a := by
      rintro rfl
      rw [hopen] at happlied
      cases happlied
    have hsettled : b.Settled := Or.inr (by simp [happlied])
    have hbefore := hkept b hb happlied
    have hafter := (ht b (mem_set_of_ne ha hb hne) hsettled).mp ((hall b hb hsettled).mpr hbefore)
    exact (Added.inRemote_serve_iff hwrite hbefore hq').mp hafter
  · intro hstep b hb hsettled
    obtain ⟨hown, hspares⟩ := hstep a q ha hq
    rcases List.mem_or_eq_of_mem_set hb with hb | rfl
    · dsimp only
      rw [hall b hb hsettled]
      by_cases happlied : b.applied = some true
      · have hbefore := hkept b hb happlied
        refine iff_of_true hbefore ?_
        split
        · rename_i htrue
          obtain ⟨_, q', hq', _⟩ := hkept b hb happlied
          exact (Added.inRemote_serve_iff hwrite hbefore hq').mpr (hspares htrue b hb q' happlied hq')
        · exact hbefore
      · exact iff_of_false (fun hremote => happlied hremote.1) fun hremote => happlied hremote.1
    · dsimp only
      rw [hself]
      exact hown

/-- The two stores agree on every settled add throughout a run exactly when every step of the run
agrees. -/
theorem allOrNothing_iff_stepsAgree (uid : Option String) (store : LocalStore) (remote : Json)
    (steps : List StoreStep) (s : Stores)
    (hrun : run (Stores.step uid) ⟨store, store, remote, []⟩ steps = some s) :
    Always (Stores.step uid) ⟨store, store, remote, []⟩ steps (fun _ => AllOrNothing) ↔
      EveryStep (Stores.step uid) ⟨store, store, remote, []⟩ steps (fun _ => StepAgrees uid) := by
  refine always_iff_everyStep ?_ ?_ steps s hrun
  · intro a ha
    cases ha
  · intro past s a t hpast halways hstep
    have hs := run_coherent hpast
    have hall := halways.of_run hpast
    cases a with
    | add op outcome => exact allOrNothing_add_iff hs hall hstep
    | answer i applied error resaved =>
      exact allOrNothing_answer_iff hs hall (inRemote_of_always hpast halways) hstep

theorem child_saved_and_put : ∃ s : Stores,
    run (Stores.step (some "uid")) ⟨.empty, .empty, .null, []⟩
      [.add (.addChild 0 "Ann" 7) .saved, .answer 0 true none true] = some s ∧
    Always (Stores.step (some "uid")) ⟨.empty, .empty, .null, []⟩
      [.add (.addChild 0 "Ann" 7) .saved, .answer 0 true none true] fun _ => AllOrNothing := by
  have hsteps : EveryStep (Stores.step (some "uid")) ⟨.empty, .empty, .null, []⟩
      ([] ++ [.add (.addChild 0 "Ann" 7) .saved] ++ [.answer 0 true none true])
      fun _ => StepAgrees (some "uid") := by
    rw [everyStep_snoc, everyStep_snoc]
    refine ⟨⟨everyStep_nil, fun s hs hsent => ?_⟩, fun s hs a q ha hq => ?_⟩
    · obtain rfl := Option.some.inj hs
      cases hsent
    · obtain rfl := Option.some.inj hs
      obtain rfl := Option.some.inj ha
      refine ⟨iff_of_true (show (0 : ObjectID) ∈ [0] by decide) rfl, fun _ b hb q' happlied => ?_⟩
      obtain rfl := List.mem_singleton.mp hb
      cases happlied
  exact ⟨_, rfl, (allOrNothing_iff_stepsAgree (some "uid") .empty .null _ _ rfl).mpr hsteps⟩

/-- The PUT of a saved child fails. -/
theorem failed_put_leaves_child :
    ¬ ∀ (uid : Option String) (steps : List StoreStep) (s : Stores),
      run (Stores.step uid) ⟨.empty, .empty, .null, []⟩ steps = some s →
        Always (Stores.step uid) ⟨.empty, .empty, .null, []⟩ steps fun _ => AllOrNothing := by
  intro h
  let steps : List StoreStep :=
    [.add (.addChild 0 "Ann" 7) .saved, .answer 0 false (some .bare) true]
  obtain ⟨s, hs⟩ : ∃ s, run (Stores.step (some "uid")) ⟨.empty, .empty, .null, []⟩ steps = some s :=
    ⟨_, rfl⟩
  have hall := (h (some "uid") steps s hs).of_run hs
  obtain rfl := Option.some.inj hs
  have hremote := (hall _ List.mem_cons_self (Or.inr (by decide))).mp
    (show (0 : ObjectID) ∈ [0] by decide)
  exact absurd hremote.1 (by decide)

end SantaIWish
