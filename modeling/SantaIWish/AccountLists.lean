import Mathlib.Data.Fintype.EquivFin
import Mathlib.Data.List.Perm.Basic
import SantaIWish.ChildLists
import SantaIWish.Controller.Records

/-!
# The children shown to an account

The profile screen fetches every child of the store, and no add records an
account. What it shows is therefore a tally of all adds, whoever made them: the
children an account sees are its own exactly as long as no other account has
signed in on the device.
-/

namespace SantaIWish
open Runs
set_option autoImplicit false

/-- The cells of `ProfileViewController`, from a fetch without a predicate in the order of the names. -/
def profileCells (order : NameOrder) (s : Store) : List ProfileCell :=
  (s.children.mergeSort fun c d => order.leKey c.name d.name).map Child.profileCell

structure Device where
  store : LocalStore
  account : Option String

inductive DeviceStep where
  | signIn (uid : String)
  | signOut
  | add (op : AddOp)
  deriving DecidableEq

/-- The screens that add are there only for someone who is signed in; they leave the account out of
what they add. -/
def Device.step (d : Device) : DeviceStep → Option Device
  | .signIn uid => some { d with account := some uid }
  | .signOut => some { d with account := none }
  | .add op => if d.account = none then none
    else (d.store.add op).map fun store => { d with store := store }

def addsOf (steps : List DeviceStep) : List AddOp :=
  steps.filterMap fun
    | .add op => some op
    | _ => none

/-- The steps without the adds made while an account other than `B`, or none, is signed in. -/
def eraseForeign (B : String) : Option String → List DeviceStep → List DeviceStep
  | _, [] => []
  | _, .signIn uid :: steps => .signIn uid :: eraseForeign B (some uid) steps
  | _, .signOut :: steps => .signOut :: eraseForeign B none steps
  | account, .add op :: steps =>
    if account = some B then .add op :: eraseForeign B account steps else eraseForeign B account steps

/-! ## The tally of the adds -/

structure ChildTally where
  name : String
  age : String
  letters : Nat
  items : Nat
  deriving DecidableEq

def AddOp.isLetterOf (child : ObjectID) : AddOp → Bool
  | addLetter _ c _ _ => c = child
  | _ => false

def AddOp.isItemOf (child : ObjectID) : AddOp → Bool
  | addItem _ c _ _ _ => c = child
  | _ => false

namespace ChildTally

def cell (t : ChildTally) : ProfileCell :=
  { childName := some t.name
    childAge := "age: " ++ t.age
    lettersToSanta := "Letters to santa " ++ toString t.letters
    wishLists := "wishlists " ++ toString t.items }

def after (t : ChildTally) (child : ObjectID) (ops : List AddOp) : ChildTally :=
  { t with
    letters := t.letters + ops.countP (AddOp.isLetterOf child)
    items := t.items + ops.countP (AddOp.isItemOf child) }

end ChildTally

def Child.tally (c : Child) : ChildTally :=
  ⟨c.name.getD "", c.age.getD "", memberCount c.letters, memberCount c.items⟩

def newChildren (ops : List AddOp) : List (ObjectID × ChildTally) :=
  ops.filterMap fun
    | .addChild id name age => some (id, ⟨name, toString age, 0, 0⟩)
    | _ => none

/-- Each child of the store or of the adds, with all that was added to it. -/
def tallies (s : Store) (ops : List AddOp) : List (ObjectID × ChildTally) :=
  ((s.children.map fun c => (c.objectID, c.tally)) ++ newChildren ops).map fun e =>
    (e.1, e.2.after e.1 ops)

theorem ChildTally.after_snoc (t : ChildTally) (child : ObjectID) (ops : List AddOp) (op : AddOp) :
    t.after child (ops ++ [op]) = (t.after child ops).after child [op] := by
  simp [after, Nat.add_assoc]

theorem tallies_snoc (s : Store) (ops : List AddOp) (op : AddOp) :
    tallies s (ops ++ [op]) =
      ((tallies s ops).map fun e => (e.1, e.2.after e.1 [op])) ++
        (newChildren [op]).map fun e => (e.1, e.2.after e.1 (ops ++ [op])) := by
  simp only [tallies, newChildren, List.filterMap_append, List.map_append, List.map_map,
    List.append_assoc]
  simp [Function.comp_def, ChildTally.after_snoc]

theorem after_of_no_owner {ops : List AddOp} {child : ObjectID}
    (h : ∀ op ∈ ops, op.record.owner ≠ child) (t : ChildTally) : t.after child ops = t := by
  have hletters : ops.countP (AddOp.isLetterOf child) = 0 := by
    rw [List.countP_eq_zero]
    intro op hop
    have hne := h op hop
    cases op <;> simp_all [AddOp.isLetterOf, AddOp.record, RecordRef.owner]
  have hitems : ops.countP (AddOp.isItemOf child) = 0 := by
    rw [List.countP_eq_zero]
    intro op hop
    have hne := h op hop
    cases op <;> simp_all [AddOp.isItemOf, AddOp.record, RecordRef.owner]
  simp [ChildTally.after, hletters, hitems]

theorem tallies_inserted {s : Store} (hs : s.WellFormed) {op : AddOp} (h : op.Enabled s) :
    ((op.inserted s).children.map fun c => (c.objectID, c.tally)) =
      ((s.children.map fun c => (c.objectID, c.tally)).map fun e => (e.1, e.2.after e.1 [op])) ++
        newChildren [op] := by
  cases op with
  | addChild id name age =>
    rw [AddOp.inserted_addChild, List.map_append, List.map_map]
    simp [ChildTally.after, AddOp.isLetterOf, AddOp.isItemOf, newChildren, Child.new, Child.tally,
      memberCount, Function.comp_def]
  | addItem id child image description name =>
    rw [AddOp.inserted_addItem h.1, List.map_map, List.map_map]
    simp only [newChildren, List.filterMap_cons, List.filterMap_nil, List.append_nil]
    apply List.map_congr_left
    intro c hc
    have hnew : id ∉ (s.itemsOf c.objectID).map Item.objectID := fun hm =>
      h.1 ((List.filter_sublist.map Item.objectID).subset hm)
    by_cases hchild : c.objectID = child
    · simp [ChildTally.after, AddOp.isLetterOf, AddOp.isItemOf, Child.tally, memberCount,
        Child.withItem, hchild, hs.items c hc, insertMember_of_not_mem (hchild ▸ hnew)]
    · have hne : ¬ child = c.objectID := fun he => hchild he.symm
      simp [ChildTally.after, AddOp.isLetterOf, AddOp.isItemOf, Child.withItem, hchild, hne]
  | addLetter id child note title =>
    rw [AddOp.inserted_addLetter h.1, List.map_map, List.map_map]
    simp only [newChildren, List.filterMap_cons, List.filterMap_nil, List.append_nil]
    apply List.map_congr_left
    intro c hc
    have hnew : id ∉ (s.lettersOf c.objectID).map Letter.objectID := fun hm =>
      h.1 ((List.filter_sublist.map Letter.objectID).subset hm)
    by_cases hchild : c.objectID = child
    · simp [ChildTally.after, AddOp.isLetterOf, AddOp.isItemOf, Child.tally, memberCount,
        Child.withLetter, hchild, hs.letters c hc, insertMember_of_not_mem (hchild ▸ hnew)]
    · have hne : ¬ child = c.objectID := fun he => hchild he.symm
      simp [ChildTally.after, AddOp.isLetterOf, AddOp.isItemOf, Child.withLetter, hchild, hne]

theorem Device.step_add {d e : Device} {op : AddOp} (h : d.step (.add op) = some e) :
    d.account ≠ none ∧ e.account = d.account ∧ op.Enabled d.store.graph ∧
      e.store.graph = op.inserted d.store.graph := by
  simp only [step] at h
  split at h
  · cases h
  · rename_i haccount
    obtain ⟨store, hstore, rfl⟩ := Option.map_eq_some_iff.mp h
    obtain ⟨henabled, hgraph⟩ := LocalStore.add_eq_some.mp hstore
    exact ⟨haccount, rfl, henabled, hgraph⟩

theorem Device.exists_add {d : Device} {op : AddOp} (haccount : d.account ≠ none)
    (h : op.Enabled d.store.graph) : ∃ e, d.step (.add op) = some e := by
  have hadd : d.store.add op = some ⟨op.inserted d.store.graph,
      AddOp.inserted_wellFormed d.store.wellFormed h⟩ := LocalStore.add_eq_some.mpr ⟨h, rfl⟩
  exact ⟨_, by rw [step, if_neg haccount, hadd]; rfl⟩

def Device.childIDs (d : Device) : List ObjectID := d.store.graph.children.map Child.objectID

def AddOp.newChildIDs : AddOp → List ObjectID
  | addChild id _ _ => [id]
  | _ => []

theorem childIDs_inserted {s : Store} {op : AddOp} (h : op.Enabled s) :
    (op.inserted s).children.map Child.objectID = s.children.map Child.objectID ++ op.newChildIDs := by
  cases op with
  | addChild id name age => simp [AddOp.inserted_addChild, Child.new, AddOp.newChildIDs]
  | addItem id child image description name =>
    simp [AddOp.inserted_addItem h.1, AddOp.newChildIDs, Function.comp_def]
  | addLetter id child note title =>
    simp [AddOp.inserted_addLetter h.1, AddOp.newChildIDs, Function.comp_def]

theorem childIDs_step {d e : Device} {a : DeviceStep} (h : d.step a = some e) :
    e.childIDs = d.childIDs ++ (addsOf [a]).flatMap AddOp.newChildIDs := by
  cases a with
  | signIn uid =>
    obtain rfl := Option.some.inj h
    simp [Device.childIDs, addsOf]
  | signOut =>
    obtain rfl := Option.some.inj h
    simp [Device.childIDs, addsOf]
  | add op =>
    obtain ⟨_, _, henabled, hgraph⟩ := Device.step_add h
    rw [Device.childIDs, hgraph, childIDs_inserted henabled]
    simp [Device.childIDs, addsOf]

theorem childIDs_run {d e : Device} {steps : List DeviceStep}
    (hrun : run Device.step d steps = some e) : ∀ id ∈ d.childIDs, id ∈ e.childIDs := by
  refine run_invariant (I := fun e : Device => ∀ id ∈ d.childIDs, id ∈ e.childIDs)
    (fun _ hid => hid) ?_ hrun
  intro e a e' hids hstep id hid
  rw [childIDs_step hstep]
  exact List.mem_append_left _ (hids id hid)

theorem addsOf_snoc (steps : List DeviceStep) (a : DeviceStep) :
    addsOf (steps ++ [a]) = addsOf steps ++ addsOf [a] := List.filterMap_append

theorem run_owners {start : Device} {steps : List DeviceStep} {d : Device}
    (hrun : run Device.step start steps = some d) :
    ∀ op ∈ addsOf steps, op.record.owner ∈ d.childIDs := by
  refine run_induction (P := fun steps (d : Device) =>
    ∀ op ∈ addsOf steps, op.record.owner ∈ d.childIDs) ?_ ?_ steps d hrun
  · intro op hop
    cases hop
  · intro steps d a e _ howners hstep op hop
    rw [addsOf_snoc] at hop
    rw [childIDs_step hstep, List.mem_append]
    rcases List.mem_append.mp hop with hop | hop
    · exact Or.inl (howners op hop)
    · cases a with
      | signIn uid => cases hop
      | signOut => cases hop
      | add op' =>
        obtain rfl : op = op' := List.mem_singleton.mp hop
        obtain ⟨_, _, henabled, _⟩ := Device.step_add hstep
        cases op with
        | addChild id name age => exact Or.inr List.mem_cons_self
        | addItem id child image description name => exact Or.inl henabled.2
        | addLetter id child note title => exact Or.inl henabled.2

/-- The tallies of the children are those of the first store and of all adds since. -/
theorem run_tallies {start : Device} {steps : List DeviceStep} {d : Device}
    (hrun : run Device.step start steps = some d) :
    (d.store.graph.children.map fun c => (c.objectID, c.tally)) =
      tallies start.store.graph (addsOf steps) := by
  refine run_induction (P := fun steps (d : Device) =>
    (d.store.graph.children.map fun c => (c.objectID, c.tally)) =
      tallies start.store.graph (addsOf steps)) ?_ ?_ steps d hrun
  · simp [tallies, addsOf, newChildren, ChildTally.after]
  · intro steps d a e hsteps htallies hstep
    rw [addsOf_snoc]
    cases a with
    | signIn uid =>
      obtain rfl := Option.some.inj hstep
      exact htallies.trans (by simp [addsOf])
    | signOut =>
      obtain rfl := Option.some.inj hstep
      exact htallies.trans (by simp [addsOf])
    | add op =>
      obtain ⟨_, _, henabled, hgraph⟩ := Device.step_add hstep
      have hone : addsOf [.add op] = [op] := rfl
      rw [hone, tallies_snoc, ← htallies, hgraph, tallies_inserted d.store.wellFormed henabled]
      congr 1
      cases op with
      | addChild id name age =>
        -- nothing was added to the new child before it existed
        have hnone : ∀ t : ChildTally, t.after id (addsOf steps) = t :=
          after_of_no_owner fun op hop he => henabled (he ▸ run_owners hsteps op hop)
        simp only [newChildren, List.filterMap_cons, List.filterMap_nil, List.map_cons, List.map_nil,
          ChildTally.after_snoc, hnone]
        rfl
      | addItem id child image description name => rfl
      | addLetter id child note title => rfl

theorem profileCell_eq {s : Store} (hs : s.WellFormed) {c : Child} (hc : c ∈ s.children) :
    c.profileCell = c.tally.cell := by
  obtain ⟨name, age, hname, hage⟩ := hs.attributes c hc
  simp [Child.profileCell, ChildTally.cell, Child.tally, hname, hage]

/-- What the profile screen shows is a function of the first store and of all adds, whoever made
them. -/
theorem run_profileCells (order : NameOrder) {start : Device} {steps : List DeviceStep} {d : Device}
    (hrun : run Device.step start steps = some d) :
    (profileCells order d.store.graph).Perm
      (((tallies start.store.graph (addsOf steps)).map Prod.snd).map ChildTally.cell) := by
  have hcells : (d.store.graph.children.map Child.profileCell) =
      ((d.store.graph.children.map fun c => (c.objectID, c.tally)).map Prod.snd).map
        ChildTally.cell := by
    rw [List.map_map, List.map_map]
    exact List.map_congr_left fun c hc => profileCell_eq d.store.wellFormed hc
  rw [← run_tallies hrun, ← hcells]
  exact (List.mergeSort_perm _ _).map _

/-! ## Runs in which another account signs in -/

/-- No account but `B` is signed in, at first or later. -/
def OnlyAccount (B : String) (account : Option String) (steps : List DeviceStep) : Prop :=
  (account = none ∨ account = some B) ∧ ∀ uid, .signIn uid ∈ steps → uid = B

theorem eraseForeign_append {B : String} {start m : Device} {p : List DeviceStep}
    (q : List DeviceStep) (hrun : run Device.step start p = some m) :
    eraseForeign B start.account (p ++ q) =
      eraseForeign B start.account p ++ eraseForeign B m.account q := by
  induction p generalizing start with
  | nil =>
    obtain rfl := Option.some.inj hrun
    rfl
  | cons a p ih =>
    obtain ⟨n, hstep, hrest⟩ := Option.bind_eq_some_iff.mp hrun
    have hp := ih hrest
    cases a with
    | signIn uid =>
      obtain rfl := Option.some.inj hstep
      exact congrArg (List.cons (.signIn uid)) hp
    | signOut =>
      obtain rfl := Option.some.inj hstep
      exact congrArg (List.cons .signOut) hp
    | add op =>
      rw [(Device.step_add hstep).2.1] at hp
      simp only [List.cons_append, eraseForeign]
      split
      · rw [hp]
        rfl
      · exact hp

theorem signIn_mem_eraseForeign {B uid : String} {account : Option String} {steps : List DeviceStep} :
    .signIn uid ∈ eraseForeign B account steps ↔ .signIn uid ∈ steps := by
  induction steps generalizing account with
  | nil => rfl
  | cons a steps ih =>
    cases a with
    | signIn uid' => simp [eraseForeign, ih]
    | signOut => simp [eraseForeign, ih]
    | add op =>
      rw [eraseForeign]
      split <;> simp [ih]

theorem OnlyAccount.eraseForeign_eq {B : String} {start d : Device} {steps : List DeviceStep}
    (h : OnlyAccount B start.account steps) (hrun : run Device.step start steps = some d) :
    eraseForeign B start.account steps = steps := by
  induction steps generalizing start with
  | nil => rfl
  | cons a steps ih =>
    obtain ⟨n, hstep, hrest⟩ := Option.bind_eq_some_iff.mp hrun
    have hlater : ∀ uid, .signIn uid ∈ steps → uid = B := fun uid huid =>
      h.2 uid (List.mem_cons_of_mem a huid)
    cases a with
    | signIn uid =>
      obtain rfl := h.2 uid List.mem_cons_self
      obtain rfl := Option.some.inj hstep
      exact congrArg (List.cons _) (ih ⟨Or.inr rfl, hlater⟩ hrest)
    | signOut =>
      obtain rfl := Option.some.inj hstep
      exact congrArg (List.cons _) (ih ⟨Or.inl rfl, hlater⟩ hrest)
    | add op =>
      obtain ⟨hsigned, haccount, _⟩ := Device.step_add hstep
      have hB := h.1.resolve_left hsigned
      have hsteps := ih ⟨Or.inr (haccount.trans hB), hlater⟩ hrest
      rw [haccount] at hsteps
      rw [eraseForeign, if_pos hB, hsteps]

theorem exists_foreign_point {B : String} {start d : Device} {steps : List DeviceStep}
    (hrun : run Device.step start steps = some d) (h : ¬ OnlyAccount B start.account steps) :
    ∃ p q m A, steps = p ++ q ∧ run Device.step start p = some m ∧ run Device.step m q = some d ∧
      m.account = some A ∧ A ≠ B := by
  by_cases hstart : start.account = none ∨ start.account = some B
  · have hsignIn : ∃ uid, .signIn uid ∈ steps ∧ uid ≠ B := by
      by_contra hnone
      exact h ⟨hstart, fun uid huid => by_contra fun hne => hnone ⟨uid, huid, hne⟩⟩
    obtain ⟨A, hA, hne⟩ := hsignIn
    -- the foreign account is signed in right after this step
    obtain ⟨p, q, rfl⟩ := List.append_of_mem hA
    rw [run_append] at hrun
    obtain ⟨m, hm, hrest⟩ := Option.bind_eq_some_iff.mp hrun
    refine ⟨p ++ [.signIn A], q, { m with account := some A }, A, by simp, ?_, hrest, rfl, hne⟩
    exact (run_snoc_eq_some _).mpr ⟨m, hm, rfl⟩
  · cases haccount : start.account with
    | none => exact absurd (Or.inl haccount) hstart
    | some A =>
      exact ⟨[], steps, start, A, rfl, rfl, hrun, haccount, fun he => hstart (Or.inr (he ▸ haccount))⟩

/-! ## One more child -/

structure ExtraChild (id : ObjectID) (d e : Device) : Prop where
  account : e.account = d.account
  children : e.childIDs.Perm (id :: d.childIDs)
  items : e.store.graph.items.map Item.objectID = d.store.graph.items.map Item.objectID
  letters : e.store.graph.letters.map Letter.objectID = d.store.graph.letters.map Letter.objectID

theorem ExtraChild.enabled {id : ObjectID} {d e : Device} (h : ExtraChild id d e) {op : AddOp}
    (hop : op.Enabled d.store.graph) (hnew : id ∉ op.newChildIDs) : op.Enabled e.store.graph := by
  have hchild : ∀ c, c ∈ e.childIDs ↔ c = id ∨ c ∈ d.childIDs := fun c => by
    rw [h.children.mem_iff, List.mem_cons]
  cases op with
  | addChild id' name age =>
    intro hmem
    rcases (hchild id').mp hmem with rfl | hmem
    · exact hnew List.mem_cons_self
    · exact hop hmem
  | addItem id' child image description name =>
    exact ⟨h.items ▸ hop.1, (hchild child).mpr (Or.inr hop.2)⟩
  | addLetter id' child note title =>
    exact ⟨h.letters ▸ hop.1, (hchild child).mpr (Or.inr hop.2)⟩

theorem partIDs_inserted {s t : Store} {op : AddOp} (hs : op.Enabled s) (ht : op.Enabled t)
    (hitems : t.items.map Item.objectID = s.items.map Item.objectID)
    (hletters : t.letters.map Letter.objectID = s.letters.map Letter.objectID) :
    (op.inserted t).items.map Item.objectID = (op.inserted s).items.map Item.objectID ∧
      (op.inserted t).letters.map Letter.objectID = (op.inserted s).letters.map Letter.objectID := by
  cases op with
  | addChild id name age => exact ⟨hitems, hletters⟩
  | addItem id child image description name =>
    rw [AddOp.inserted_addItem hs.1, AddOp.inserted_addItem ht.1]
    exact ⟨by rw [List.map_append, List.map_append, hitems], hletters⟩
  | addLetter id child note title =>
    rw [AddOp.inserted_addLetter hs.1, AddOp.inserted_addLetter ht.1]
    exact ⟨hitems, by rw [List.map_append, List.map_append, hletters]⟩

theorem ExtraChild.step {id : ObjectID} {d d' e : Device} {a : DeviceStep} (h : ExtraChild id d e)
    (hstep : d.step a = some d') (hunused : id ∉ d'.childIDs) :
    ∃ e', e.step a = some e' ∧ ExtraChild id d' e' := by
  cases a with
  | signIn uid =>
    obtain rfl := Option.some.inj hstep
    exact ⟨_, rfl, rfl, h.children, h.items, h.letters⟩
  | signOut =>
    obtain rfl := Option.some.inj hstep
    exact ⟨_, rfl, rfl, h.children, h.items, h.letters⟩
  | add op =>
    obtain ⟨hsigned, haccount, henabled, hgraph⟩ := Device.step_add hstep
    have hids : d'.childIDs = d.childIDs ++ op.newChildIDs := by
      rw [Device.childIDs, hgraph, childIDs_inserted henabled, Device.childIDs]
    have hop := h.enabled henabled fun hm => hunused (hids ▸ List.mem_append_right _ hm)
    obtain ⟨e', he'⟩ := Device.exists_add (h.account ▸ hsigned) hop
    obtain ⟨_, haccount', _, hgraph'⟩ := Device.step_add he'
    obtain ⟨hitems, hletters⟩ := partIDs_inserted henabled hop h.items h.letters
    refine ⟨e', he', ?_, ?_, ?_, ?_⟩
    · rw [haccount', haccount, h.account]
    · rw [hids, Device.childIDs, hgraph', childIDs_inserted hop]
      exact h.children.append_right _
    · rw [hgraph, hgraph']
      exact hitems
    · rw [hgraph, hgraph']
      exact hletters

theorem ExtraChild.run {id : ObjectID} {d d' e : Device} {steps : List DeviceStep}
    (h : ExtraChild id d e) (hrun : run Device.step d steps = some d') (hunused : id ∉ d'.childIDs) :
    ∃ e', Runs.run Device.step e steps = some e' ∧ ExtraChild id d' e' := by
  induction steps generalizing d e with
  | nil =>
    obtain rfl := Option.some.inj hrun
    exact ⟨e, rfl, h⟩
  | cons a steps ih =>
    obtain ⟨n, hstep, hrest⟩ := Option.bind_eq_some_iff.mp hrun
    obtain ⟨m, hm, hextra⟩ := h.step hstep fun hid => hunused (childIDs_run hrest id hid)
    obtain ⟨e', he', hlast⟩ := ih hextra hrest
    exact ⟨e', by rw [run_cons, hm]; exact he', hlast⟩

/-- Wherever another account is signed in, one more child changes the list at the end. -/
theorem exists_other_run {B : String} {start d : Device} {steps : List DeviceStep}
    (hrun : run Device.step start steps = some d) (h : ¬ OnlyAccount B start.account steps) :
    ∃ steps' d', run Device.step start steps' = some d' ∧
      eraseForeign B start.account steps' = eraseForeign B start.account steps ∧
      d'.childIDs.length = d.childIDs.length + 1 := by
  obtain ⟨p, q, m, A, rfl, hp, hq, hA, hne⟩ := exists_foreign_point hrun h
  obtain ⟨id, hid⟩ := Infinite.exists_notMem_finset d.childIDs.toFinset
  rw [List.mem_toFinset] at hid
  have henabled : (AddOp.addChild id "" 0).Enabled m.store.graph := fun hm =>
    hid (childIDs_run hq id hm)
  obtain ⟨n, hn⟩ := Device.exists_add (by simp [hA]) henabled
  obtain ⟨_, haccount, _, hgraph⟩ := Device.step_add hn
  have hextra : ExtraChild id m n := by
    refine ⟨haccount, ?_, by rw [hgraph]; rfl, by rw [hgraph]; rfl⟩
    rw [Device.childIDs, hgraph, childIDs_inserted henabled]
    exact List.perm_append_singleton _ _
  obtain ⟨d', hd', hlast⟩ := hextra.run hq hid
  -- the same run with an add of `A`, which the erasure drops again
  refine ⟨p ++ .add (.addChild id "" 0) :: q, d', ?_, ?_, ?_⟩
  · rw [run_append, hp, Option.bind_some, run_cons, hn]
    exact hd'
  · rw [eraseForeign_append _ hp, eraseForeign_append _ hp, eraseForeign,
      if_neg (by simpa [hA] using hne)]
  · rw [hlast.children.length_eq, List.length_cons]

theorem length_profileCells (order : NameOrder) (d : Device) :
    (profileCells order d.store.graph).length = d.childIDs.length := by
  simp [profileCells, Device.childIDs]

/-- The children that `B` sees after a run are the same after every run that differs in the adds of others
only. The order of children of the same name is left open. -/
def ShownSame (order : NameOrder) (B : String) (start : Device) (past : List DeviceStep) (d : Device) : Prop :=
  ∀ past' d', run Device.step start past' = some d' →
    eraseForeign B start.account past' = eraseForeign B start.account past →
    (profileCells order d.store.graph).Perm (profileCells order d'.store.graph)

theorem OnlyAccount.of_eraseForeign_eq {B : String} {account : Option String} {steps steps' : List DeviceStep}
    (h : OnlyAccount B account steps) (herase : eraseForeign B account steps' = eraseForeign B account steps) :
    OnlyAccount B account steps' := by
  refine ⟨h.1, fun uid huid => h.2 uid ?_⟩
  have hmem : .signIn uid ∈ eraseForeign B account steps' := signIn_mem_eraseForeign.mpr huid
  rw [herase] at hmem
  exact signIn_mem_eraseForeign.mp hmem

theorem shownSame_iff_onlyAccount {order : NameOrder} {B : String} {start d : Device} {past : List DeviceStep}
    (hrun : run Device.step start past = some d) :
    ShownSame order B start past d ↔ OnlyAccount B start.account past := by
  constructor
  · intro hsame
    by_contra honly
    obtain ⟨past', d', hrun', herase, hlength⟩ := exists_other_run hrun honly
    have hcells := (hsame past' d' hrun' herase).length_eq
    rw [length_profileCells, length_profileCells, hlength] at hcells
    omega
  · intro honly past' d' hrun' herase
    have honly' := honly.of_eraseForeign_eq herase
    -- nothing is erased from either run, so they are one run
    rw [honly.eraseForeign_eq hrun, honly'.eraseForeign_eq hrun'] at herase
    subst past'
    obtain rfl := Option.some.inj (hrun.symm.trans hrun')
    exact .rfl

/-- What `B` is shown whenever it is signed in is out of reach of the adds of others exactly when, whenever
it is signed in, no other account has been before. -/
theorem shown_same_iff (order : NameOrder) (B : String) (start : Device) (steps : List DeviceStep) :
    Always Device.step start steps
        (fun past d => d.account = some B → ShownSame order B start past d) ↔
      Always Device.step start steps
        (fun past d => d.account = some B → OnlyAccount B start.account past) := by
  constructor
  · intro h past d hp hrun hB
    exact (shownSame_iff_onlyAccount hrun).mp (h past d hp hrun hB)
  · intro h past d hp hrun hB
    exact (shownSame_iff_onlyAccount hrun).mpr (h past d hp hrun hB)

/-- Bob sees the child that Alice adds. -/
theorem bob_sees_alices_child :
    ¬ ∀ (order : NameOrder) (B : String) (start d d' : Device) (steps steps' : List DeviceStep),
      run Device.step start steps = some d → run Device.step start steps' = some d' →
      eraseForeign B start.account steps' = eraseForeign B start.account steps →
      d.account = some B →
      (profileCells order d.store.graph).Perm (profileCells order d'.store.graph) := by
  intro h
  have hcells := (h .codePoints "bob" ⟨.empty, none⟩ _ _ [.signIn "alice", .signOut, .signIn "bob"]
    [.signIn "alice", .add (.addChild 0 "Ann" 7), .signOut, .signIn "bob"] rfl rfl (by decide)
    rfl).length_eq
  rw [length_profileCells, length_profileCells] at hcells
  exact absurd hcells (by decide)

end SantaIWish
