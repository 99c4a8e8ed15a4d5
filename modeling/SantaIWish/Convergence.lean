import SantaIWish.Network

/-!
# Once everything has arrived

One account is used on any number of devices, nothing is lost, and nothing is on its way
any more. Then every child that was added anywhere is fetched, in whatever order the
requests have arrived. The items are all fetched as well if no request of a child has
arrived before the child's own.
-/

namespace SantaIWish
open Runs RealtimeDatabase
set_option autoImplicit false

/-- The updates that were sent. -/
def issued (actions : List AccountStep) : List (String × FamilyUpdate) :=
  actions.filterMap fun
    | .issue uid u => some (uid, u)
    | _ => none

/-- The names and ages of the children that were added, on any device. -/
def childAdds {ι : Type} (steps : List (NetworkStep ι)) : List (String × String) :=
  steps.filterMap fun
    | .device _ (.add (.addChild _ name age)) => some (name, toString age)
    | _ => none

/-- All updates that were sent in a run, in the order in which they were. -/
def Network.sent {ι : Type} [DecidableEq ι] (s : Network ι) (steps : List (NetworkStep ι)) :
    List (String × FamilyUpdate) := issued (trace Network.step Network.actions s steps)

/-! ## Nothing is applied twice -/

theorem issued_append (as bs : List AccountStep) : issued (as ++ bs) = issued as ++ issued bs :=
  List.filterMap_append

/-- Without losses what was sent has arrived or is on its way, and each of it once. -/
theorem AccountLog.perm_issued {actions : List AccountStep} {t : AccountLog}
    (hrun : run AccountLog.step {} actions = some t) (hkept : ∀ n, .lose n ∉ actions) :
    (t.log ++ t.inFlight).Perm (issued actions) := by
  refine run_induction (P := fun actions (t : AccountLog) => (∀ n, .lose n ∉ actions) →
    (t.log ++ t.inFlight).Perm (issued actions)) ?_ ?_ actions t hrun hkept
  · exact fun _ => .nil
  · intro actions t a t' _ ih hstep hkept
    have hbefore := ih fun n hn => hkept n (List.mem_append_left _ hn)
    rw [issued_append]
    cases a with
    | issue uid u =>
      obtain rfl := Option.some.inj hstep
      rw [← List.append_assoc]
      exact hbefore.append_right _
    | arrive n =>
      obtain ⟨e, he, rfl⟩ := Option.map_eq_some_iff.mp hstep
      obtain ⟨hn, rfl⟩ := List.getElem?_eq_some_iff.mp he
      have hmoved := (List.getElem_cons_eraseIdx_perm hn).append_left t.log
      rw [List.append_assoc]
      exact (hmoved.trans hbefore).trans (List.append_nil _ ▸ .rfl)
    | lose n => exact absurd (List.mem_append_right _ List.mem_cons_self) (hkept n)

/-! ## What the devices send -/

/-- What was sent so far under one account, and the children that were added. -/
structure SentFor {ι : Type} (uid : String) (adds : List (String × String))
    (sent : List (String × FamilyUpdate)) (s : Network ι) : Prop where
  account : ∀ i, (s.device i).account = none ∨ (s.device i).account = some uid
  uid : ∀ e ∈ sent, e.1 = uid
  ownPuts : ownPuts (sent.map Prod.snd) = adds
  children : ∀ i, ∀ name ∈ (s.device i).store.graph.children.map Child.name,
    name.getD "" ∈ adds.map Prod.fst
  parts : ∀ e ∈ sent, e.2.childName ∈ adds.map Prod.fst

theorem childAdds_append {ι : Type} (as bs : List (NetworkStep ι)) :
    childAdds (as ++ bs) = childAdds as ++ childAdds bs := List.filterMap_append

theorem forall_update {ι A : Type} [DecidableEq ι] {P : A → Prop} {f : ι → A} {i : ι} {x : A} (hx : P x)
    (hf : ∀ j, P (f j)) (j : ι) : P (Function.update f i x j) := by
  by_cases hj : j = i
  · subst hj
    rwa [Function.update_self]
  · rw [Function.update_of_ne hj]
    exact hf j

/-- Whatever adds nothing sends nothing. -/
theorem SentFor.congr {ι : Type} {uid : String} {adds : List (String × String)}
    {sent : List (String × FamilyUpdate)} {s t : Network ι} (h : SentFor uid adds sent s)
    (haccount : ∀ i, (t.device i).account = none ∨ (t.device i).account = some uid)
    (hstore : ∀ i, (t.device i).store = (s.device i).store) : SentFor uid adds sent t :=
  ⟨haccount, h.uid, h.ownPuts, fun i => by rw [hstore i]; exact h.children i, h.parts⟩

section Sent
variable {ι : Type} [DecidableEq ι] {uid : String} {adds : List (String × String)}
  {sent : List (String × FamilyUpdate)} {s t : Network ι}

/-- An add puts its child, or a part of a child that was added before. -/
theorem SentFor.add (h : SentFor uid adds sent s) {i : ι} {op : AddOp} {d : Device}
    (hd : (s.device i).step (.add op) = some d) (ht : t.device = Function.update s.device i d) :
    SentFor uid (adds ++ childAdds [NetworkStep.device i (.add op)])
      (sent ++ issued (s.actions (.device i (.add op)))) t := by
  obtain ⟨hsigned, haccount, henabled, hgraph⟩ := Device.step_add hd
  have huid : (s.device i).account = some uid := (h.account i).resolve_left hsigned
  have hbefore : ∀ name, name ∈ adds.map Prod.fst →
      name ∈ (adds ++ childAdds [NetworkStep.device i (.add op)]).map Prod.fst := by
    intro name hname
    rw [List.map_append]
    exact List.mem_append_left _ hname
  have hnames : ∀ name ∈ (op.inserted (s.device i).store.graph).children.map Child.name,
      name.getD "" ∈ (adds ++ childAdds [NetworkStep.device i (.add op)]).map Prod.fst := by
    rw [childNames_inserted henabled]
    intro name hname
    rcases List.mem_append.mp hname with hname | hname
    · exact hbefore _ (h.children i name hname)
    · cases op with
      | addChild id name' age =>
        obtain rfl := List.mem_singleton.mp hname
        simp [childAdds]
      | addItem id child image description name' => cases hname
      | addLetter id child note title => cases hname
  have hissued : issued (s.actions (.device i (.add op))) =
      [(uid, op.familyUpdate (op.inserted (s.device i).store.graph))] := by
    rw [Network.actions, huid]
    rfl
  rw [hissued]
  constructor
  · rw [ht]
    exact forall_update (P := fun d : Device => d.account = none ∨ d.account = some uid)
      (haccount ▸ h.account i) h.account
  · intro e he
    rcases List.mem_append.mp he with he | he
    · exact h.uid e he
    · obtain rfl := List.mem_singleton.mp he
      rfl
  · rw [List.map_append, SantaIWish.ownPuts, List.filterMap_append]
    congr 1
    · exact h.ownPuts
    · cases op <;> rfl
  · rw [ht]
    exact forall_update (P := fun d : Device => ∀ name ∈ d.store.graph.children.map Child.name,
      name.getD "" ∈ (adds ++ childAdds [NetworkStep.device i (.add op)]).map Prod.fst)
      (hgraph ▸ hnames) fun j name hname => hbefore _ (h.children j name hname)
  · intro e he
    rcases List.mem_append.mp he with he | he
    · exact hbefore _ (h.parts e he)
    · obtain rfl := List.mem_singleton.mp he
      obtain ⟨c, hc, _, hcname⟩ := AddOp.owner_named (s.device i).store.wellFormed henabled
      have hmem := hnames _ (List.mem_map_of_mem hc)
      rwa [hcname, Option.getD_some] at hmem

theorem SentFor.step {a : NetworkStep ι} (h : SentFor uid adds sent s)
    (ha : ∀ i uid', a = .device i (.signIn uid') → uid' = uid) (hstep : s.step a = some t) :
    SentFor uid (adds ++ childAdds [a]) (sent ++ issued (s.actions a)) t := by
  have hquiet : childAdds [a] = [] → issued (s.actions a) = [] →
      (∀ i, (t.device i).account = none ∨ (t.device i).account = some uid) →
      (∀ i, (t.device i).store = (s.device i).store) →
      SentFor uid (adds ++ childAdds [a]) (sent ++ issued (s.actions a)) t := by
    intro hadds hissued haccount hstore
    rw [hadds, hissued, List.append_nil, List.append_nil]
    exact h.congr haccount hstore
  cases a with
  | arrive n =>
    obtain ⟨q, _, rfl⟩ := Option.map_eq_some_iff.mp hstep
    exact hquiet rfl rfl h.account fun _ => rfl
  | lose n =>
    obtain ⟨q, _, rfl⟩ := Option.map_eq_some_iff.mp hstep
    exact hquiet rfl rfl h.account fun _ => rfl
  | device i a =>
    obtain ⟨d, hd, rfl⟩ := Option.map_eq_some_iff.mp hstep
    have hstore : d.store = (s.device i).store →
        ∀ j, (Function.update s.device i d j).store = (s.device j).store := by
      intro hdevice j
      by_cases hj : j = i
      · subst hj
        rw [Function.update_self, hdevice]
      · rw [Function.update_of_ne hj]
    cases a with
    | add op => exact h.add hd rfl
    | signIn uid' =>
      obtain rfl := ha i uid' rfl
      obtain rfl := Option.some.inj hd
      exact hquiet rfl rfl (forall_update (P := fun d : Device => d.account = none ∨ d.account = some uid')
        (Or.inr rfl) h.account) (hstore rfl)
    | signOut =>
      obtain rfl := Option.some.inj hd
      exact hquiet rfl rfl (forall_update (P := fun d : Device => d.account = none ∨ d.account = some uid)
        (Or.inl rfl) h.account) (hstore rfl)

theorem run_sentFor {steps : List (NetworkStep ι)} (hempty : ∀ i, s.device i = ⟨.empty, none⟩)
    (hone : ∀ i uid', .device i (.signIn uid') ∈ steps → uid' = uid)
    (hrun : run Network.step s steps = some t) :
    SentFor uid (childAdds steps) (s.sent steps) t := by
  refine run_induction (P := fun steps t => (∀ i uid', .device i (.signIn uid') ∈ steps → uid' = uid) →
    SentFor uid (childAdds steps) (s.sent steps) t)
    ?_ ?_ steps t hrun hone
  · intro _
    constructor
    · exact fun i => Or.inl (by rw [hempty i])
    · exact fun e he => absurd he List.not_mem_nil
    · rfl
    · intro i name hname
      rw [hempty i] at hname
      cases hname
    · exact fun e he => absurd he List.not_mem_nil
  · intro steps t a t' hsteps ih hstep hone
    rw [childAdds_append, Network.sent, trace_snoc Network.step Network.actions hsteps, issued_append]
    apply (ih fun i uid' hmem => hone i uid' (List.mem_append_left _ hmem)).step _ hstep
    rintro i uid' rfl
    exact hone i uid' (List.mem_append_right _ List.mem_cons_self)

end Sent

/-! ## Everything has arrived -/

/-- One account, nothing lost, nothing on its way. -/
structure Quiet {ι : Type} (uid : String) (steps : List (NetworkStep ι)) (s : Network ι) : Prop where
  account : ∀ i uid', .device i (.signIn uid') ∈ steps → uid' = uid
  kept : ∀ n, .lose n ∉ steps
  inFlight : s.inFlight = []

section Quiet
variable {ι : Type} [DecidableEq ι] {uid : String} {s s' : Network ι} {steps : List (NetworkStep ι)}

theorem lose_not_mem_trace (hkept : ∀ n, .lose n ∉ steps) (n : Nat) :
    .lose n ∉ trace Network.step Network.actions s steps := by
  intro hmem
  obtain ⟨a, ha, c, hn⟩ := mem_trace Network.step Network.actions hmem
  cases a with
  | device i a => cases a <;> simp [Network.actions] at hn
  | arrive m => simp [Network.actions] at hn
  | lose m => exact hkept m ha

/-- Then the log of the account is an arrangement of all that was sent. -/
theorem log_perm_issued {t : AccountLog} (hempty : ∀ i, s.device i = ⟨.empty, none⟩)
    (hrun : run Network.step s steps = some s')
    (ht : run AccountLog.step {} (trace Network.step Network.actions s steps) = some t)
    (hlogged : s'.Logged t) (hquiet : Quiet uid steps s') :
    (t.of uid).Perm ((s.sent steps).map Prod.snd) := by
  have hsent := run_sentFor hempty hquiet.account hrun
  have hperm := AccountLog.perm_issued ht (lose_not_mem_trace hquiet.kept)
  have hnone : t.inFlight = [] := by
    have h := hlogged.inFlight
    rwa [hquiet.inFlight, List.forall₂_nil_right_iff] at h
  rw [hnone, List.append_nil] at hperm
  have hof : t.of uid = t.log.map Prod.snd := by
    rw [AccountLog.of, ← List.filterMap_eq_map]
    apply List.filterMap_congr
    intro e he
    rw [if_pos (hsent.uid e (hperm.mem_iff.mp he))]
    rfl
  rw [hof]
  exact hperm.map Prod.snd

theorem Quiet.kidsFetched (hquiet : Quiet uid steps s') (hs : s.Fresh)
    (hempty : ∀ i, s.device i = ⟨.empty, none⟩) (hvalid : ∀ a ∈ steps, a.Valid)
    (hrun : run Network.step s steps = some s') (huid : validKey uid = true)
    (hindex : ¬ IndexKeys ((childAdds steps).map Prod.fst)) :
    ∃ kids, kidsFetched uid s'.remote = .ok kids ∧ (kids.map ChildRepresentation.name).Nodup ∧
      (∀ name, name ∈ kids.map ChildRepresentation.name ↔ name ∈ (childAdds steps).map Prod.fst) ∧
      ∀ kid ∈ kids, kid.Bare ∧ (kid.name, kid.age) ∈ childAdds steps := by
  obtain ⟨t, ht, hlogged⟩ := (network_simulates ι).run hs.logged hvalid hrun
  have hsent := run_sentFor hempty hquiet.account hrun
  have hperm := log_perm_issued hempty hrun ht hlogged hquiet
  have hputs : (ownPuts (t.of uid)).Perm (childAdds steps) := by
    rw [← hsent.ownPuts]
    exact hperm.filterMap _
  have hparts : ∀ u ∈ t.of uid, u.childName ∈ (childAdds steps).map Prod.fst := by
    intro u hu
    obtain ⟨e, he, rfl⟩ := List.mem_map.mp (hperm.mem_iff.mp hu)
    exact hsent.parts e he
  have hnames : ∀ name, name ∈ (t.of uid).map FamilyUpdate.childName ↔
      name ∈ (childAdds steps).map Prod.fst := by
    intro name
    constructor
    · intro h
      obtain ⟨u, hu, rfl⟩ := List.mem_map.mp h
      exact hparts u hu
    · intro h
      rw [← (hputs.map Prod.fst).mem_iff] at h
      obtain ⟨put, hput, rfl⟩ := List.mem_map.mp h
      obtain ⟨u, hu, huput⟩ := List.mem_filterMap.mp hput
      exact List.mem_map.mpr ⟨u, hu, (u.ownPut_name_iff.mp (by rw [huput, Option.map_some])).2⟩
  obtain ⟨kids, hkids, hlast⟩ := (hlogged.kidsFetched huid).read
    (fun h => hindex ((indexKeys_congr hnames).mp h))
    fun u hu => (hputs.map Prod.fst).mem_iff.mpr (hparts u hu)
  have hkeys : (kids.map ChildRepresentation.name).Perm
      ((Fields.lastPerKey Prod.fst (ownPuts (t.of uid))).map Prod.fst) := by
    have h := hlast.map ChildRepresentation.name
    rwa [List.map_map] at h
  refine ⟨kids, hkids, hkeys.nodup_iff.mpr (Fields.nodup_lastPerKey _), fun name => ?_, fun kid hkid => ?_⟩
  · rw [hkeys.mem_iff, Fields.mem_keys_lastPerKey, (hputs.map Prod.fst).mem_iff]
  · obtain ⟨put, hput, rfl⟩ := List.mem_map.mp (hlast.mem_iff.mp hkid)
    exact ⟨⟨rfl, rfl⟩, hputs.mem_iff.mp ((Fields.lastPerKey_sublist _).subset hput)⟩

/-- Once everything has arrived, in whatever order, fetching the kids gives each child that was added on
any device, once, with an age it was added with; unless the names are 0, 1, ..., n-1, which no children
at all are too. -/
theorem kids_converge (s s' : Network ι) (hs : s.Fresh) (hempty : ∀ i, s.device i = ⟨.empty, none⟩)
    (steps : List (NetworkStep ι)) (hvalid : ∀ a ∈ steps, a.Valid)
    (hrun : run Network.step s steps = some s') (uid : String) (huid : validKey uid = true)
    (hquiet : Quiet uid steps s') (hindex : ¬ IndexKeys ((childAdds steps).map Prod.fst)) :
    ∃ kids, kidsFetched uid s'.remote = .ok kids ∧ (kids.map ChildRepresentation.name).Nodup ∧
      (∀ name, name ∈ kids.map ChildRepresentation.name ↔ name ∈ (childAdds steps).map Prod.fst) ∧
      ∀ kid ∈ kids, kid.Bare ∧ (kid.name, kid.age) ∈ childAdds steps :=
  hquiet.kidsFetched hs hempty hvalid hrun huid hindex

/-- One device adds Ann and two items, the other Bob; Bob is the first to arrive. -/
def annAndBob : List (NetworkStep Bool) :=
  [.device true (.signIn "uid"), .device true (.add (.addChild 0 "Ann" 7)),
    .device true (.add (.addItem 0 0 [1] "red" "Train")), .device false (.signIn "uid"),
    .device false (.add (.addChild 0 "Bob" 4)), .device true (.add (.addItem 1 0 [] "small" "Doll")),
    .arrive 2, .arrive 0, .arrive 1, .arrive 0]

theorem annAndBob_valid : ∀ a ∈ annAndBob, a.Valid := by
  simp [annAndBob, NetworkStep.Valid, DeviceStep.Valid, AddOp.text]
  decide

theorem annAndBob_quiet {s : Network Bool} (hrun : run Network.step twoDevices annAndBob = some s) :
    Quiet "uid" annAndBob s := by
  refine ⟨by simp [annAndBob], by simp [annAndBob], ?_⟩
  obtain rfl := Option.some.inj hrun
  rfl

theorem annAndBob_kids : ∃ s kids, run Network.step twoDevices annAndBob = some s ∧
    kidsFetched "uid" s.remote = .ok kids ∧
      ∀ name, name ∈ kids.map ChildRepresentation.name ↔ name ∈ ["Ann", "Bob"] := by
  obtain ⟨s, hs⟩ : ∃ s, run Network.step twoDevices annAndBob = some s := ⟨_, rfl⟩
  obtain ⟨kids, hkids, _, hnames, _⟩ := kids_converge twoDevices s twoDevices_fresh (fun _ => rfl)
    annAndBob annAndBob_valid hs "uid" (by decide) (annAndBob_quiet hs)
    (not_indexKeys (by decide) (by decide))
  exact ⟨s, kids, hs, hkids, hnames⟩

end Quiet

end SantaIWish
