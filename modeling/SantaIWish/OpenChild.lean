import SantaIWish.ShownScreens

/-!
# The counters of an open child

The screen of a child puts its counters into labels when it is loaded, and nothing puts
them there again. They are out of date exactly when something was added to the child
since.
-/

namespace SantaIWish
open Runs NavigationStack
set_option autoImplicit false

/-! ## What stays on a screen -/

/-- A screen without the list that is loaded again when it comes to the top. -/
def Screen.withoutList : Screen → Screen
  | profile _ => profile []
  | wishlists given _ => wishlists given []
  | santaLetters given _ => santaLetters given []
  | screen => screen

@[simp] theorem Screen.withoutList_viewWillAppear (order : NameOrder) (s : Store) (screen : Screen) :
    (screen.viewWillAppear order s).withoutList = screen.withoutList := by
  cases screen <;> rfl

/-- The screens that were there before are what they were, their lists apart. -/
structure Screens.Keeps (s t : Screens) : Prop where
  next : s.nextScreen ≤ t.nextScreen
  kept : ∀ p ∈ t.navigation.screens, p.id < s.nextScreen →
    ∃ q ∈ s.navigation.screens, q.id = p.id ∧ q.screen.withoutList = p.screen.withoutList

namespace Screens
variable {order : NameOrder} {s t u : Screens}

theorem Keeps.refl (s : Screens) : s.Keeps s := ⟨Nat.le_refl _, fun p hp _ => ⟨p, hp, rfl, rfl⟩⟩

theorem Keeps.trans (h : s.Keeps t) (h' : t.Keeps u) : s.Keeps u := by
  refine ⟨Nat.le_trans h.next h'.next, fun p hp hid => ?_⟩
  obtain ⟨q, hq, hqid, hqscreen⟩ := h'.kept p hp (Nat.lt_of_lt_of_le hid h.next)
  obtain ⟨r, hr, hrid, hrscreen⟩ := h.kept q hq (by rwa [hqid])
  exact ⟨r, hr, hrid.trans hqid, hrscreen.trans hqscreen⟩

theorem Move.keeps {op : Option AddOp} (h : Move order s op t) : s.Keeps t := by
  have happear : ∀ p : Presented, (∃ q ∈ s.navigation.screens, q.id = p.id ∧
      q.screen.withoutList = p.screen.withoutList) → ∃ q ∈ s.navigation.screens,
        q.id = (p.viewWillAppear order s.store.graph).id ∧
          q.screen.withoutList = (p.viewWillAppear order s.store.graph).screen.withoutList := by
    intro p hh
    obtain ⟨q, hq, hid, hscreen⟩ := hh
    exact ⟨q, hq, hid, by rw [Presented.viewWillAppear, Screen.withoutList_viewWillAppear, hscreen]⟩
  cases h with
  | push hon =>
    refine ⟨Nat.le_succ _, fun p hp hid => ?_⟩
    rcases List.mem_cons.mp hp with rfl | hp
    · exact absurd hid (Nat.lt_irrefl _)
    · exact ⟨p, hp, rfl, rfl⟩
  | pop => exact ⟨Nat.le_refl _, fun p hp _ => forall_pop happear (fun p hp => ⟨p, hp, rfl, rfl⟩) p hp⟩
  | unwindToLogin =>
    exact ⟨Nat.le_refl _, fun p hp _ => forall_popToRoot happear (fun p hp => ⟨p, hp, rfl, rfl⟩) p hp⟩
  | launch =>
    refine ⟨Nat.le_succ _, fun p hp hid => ?_⟩
    obtain rfl := List.mem_singleton.mp hp
    exact absurd hid (Nat.lt_irrefl _)
  | add _ hadd =>
    obtain ⟨_, _, hnavigation, hnext⟩ := add_eq_some hadd
    exact ⟨hnext.ge, fun p hp _ => ⟨p, hnavigation ▸ hp, rfl, rfl⟩⟩

theorem Moves.keeps {ops : List AddOp} (h : Moves order s ops t) : s.Keeps t :=
  h.invariant (fun _ _ _ hkeeps hmove => hkeeps.trans hmove.keeps) (.refl s)

end Screens

/-! ## The labels -/

def ChildTally.labels (t : ChildTally) : DetailLabels :=
  { name := some t.name
    age := "Age: " ++ t.age
    wishList := "wishList items: " ++ toString t.items
    lettersToSanta := "letters to santa: " ++ toString t.letters }

theorem ChildTally.labels_injective : Function.Injective ChildTally.labels := by
  rintro ⟨name, age, letters, items⟩ ⟨name', age', letters', items'⟩ h
  simp only [labels, DetailLabels.mk.injEq, Option.some.injEq, String.append_right_inj] at h
  obtain ⟨rfl, rfl, hitems, hletters⟩ := h
  obtain rfl := RealtimeDatabase.toString_nat_injective hletters
  obtain rfl := RealtimeDatabase.toString_nat_injective hitems
  rfl

theorem Child.detailLabels_eq {s : Store} (hs : s.WellFormed) {c : Child} (hc : c ∈ s.children) :
    c.detailLabels = some c.tally.labels := by
  obtain ⟨name, age, hname, hage⟩ := hs.attributes c hc
  simp [detailLabels, ChildTally.labels, tally, hname, hage]

/-- The adds alone are what any account could have made. -/
theorem Device.run_adds (uid : String) {s t : LocalStore} {ops : List AddOp}
    (h : run LocalStore.add s ops = some t) :
    run Device.step ⟨s, some uid⟩ (ops.map .add) = some ⟨t, some uid⟩ := by
  induction ops generalizing s with
  | nil =>
    obtain rfl := Option.some.inj h
    rfl
  | cons op ops ih =>
    obtain ⟨m, hm, hrest⟩ := Option.bind_eq_some_iff.mp h
    rw [List.map_cons, run_cons, Device.step, if_neg (by simp), hm, Option.map_some, Option.bind_some]
    exact ih hrest

theorem addsOf_map (ops : List AddOp) : addsOf (ops.map .add) = ops := by
  induction ops with
  | nil => rfl
  | cons op ops ih => exact congrArg (op :: ·) ih

/-- A child of the store is still there after more adds, with what they added to it. -/
theorem LocalStore.run_tally {s t : LocalStore} {ops : List AddOp}
    (h : run LocalStore.add s ops = some t) {c : Child} (hc : c ∈ s.graph.children) :
    ∃ d ∈ t.graph.children, d.objectID = c.objectID ∧ d.tally = c.tally.after c.objectID ops := by
  have htallies := run_tallies (Device.run_adds "" h)
  rw [addsOf_map] at htallies
  have hmem : (c.objectID, c.tally.after c.objectID ops) ∈ tallies s.graph ops :=
    List.mem_map.mpr ⟨(c.objectID, c.tally), List.mem_append_left _ (List.mem_map.mpr ⟨c, hc, rfl⟩), rfl⟩
  rw [← htallies] at hmem
  obtain ⟨d, hd, heq⟩ := List.mem_map.mp hmem
  obtain ⟨hid, htally⟩ := Prod.mk.inj heq
  exact ⟨d, hd, hid, htally⟩

def AddOp.isPartOf (child : ObjectID) (op : AddOp) : Bool := op.isItemOf child || op.isLetterOf child

theorem ChildTally.after_eq_self_iff {t : ChildTally} {child : ObjectID} {ops : List AddOp} :
    t = t.after child ops ↔ ∀ op ∈ ops, op.isPartOf child = false := by
  have hcounts : t = t.after child ops ↔
      ops.countP (AddOp.isLetterOf child) = 0 ∧ ops.countP (AddOp.isItemOf child) = 0 := by
    obtain ⟨name, age, letters, items⟩ := t
    simp [after]
  rw [hcounts, List.countP_eq_zero, List.countP_eq_zero]
  constructor
  · intro hh op hop
    obtain ⟨hletters, hitems⟩ := hh
    simp [AddOp.isPartOf, hitems op hop, hletters op hop]
  · intro h
    constructor
    · intro op hop
      simp [(Bool.or_eq_false_iff.mp (h op hop)).2]
    · intro op hop
      simp [(Bool.or_eq_false_iff.mp (h op hop)).1]

theorem App.step_cellTapped {order : NameOrder} {s t : App} {n : Nat}
    (h : s.step order (.cellTapped n) = some t) :
    ∃ cells screen, s.top.screen = .profile cells ∧ n < cells.length ∧ t = s.push order screen := by
  simp only [step] at h
  split at h
  · rename_i cells hscreen
    split at h
    · rename_i hn
      obtain ⟨screen, _, rfl⟩ := Option.map_eq_some_iff.mp h
      exact ⟨cells, screen, hscreen, hn, rfl⟩
    · cases h
  · cases h

/-- A child is opened. As long as its screen is there it shows the counters the child had then, and they
are the present ones exactly if nothing was added to the child since. -/
theorem run_detailLabels (order : NameOrder) (steps : List AppStep) (s : App)
    (hrun : run (App.step order) .installed steps = some s) (n : Nat) (t : App)
    (htap : s.step order (.cellTapped n) = some t) (after : List AppStep) (u : App)
    (hafter : run (App.step order) t after = some u) (p : Presented)
    (hp : p ∈ u.navigation.screens) (hid : p.id = t.top.id) :
    ∃ c ∈ t.store.graph.children, ∃ d ∈ u.store.graph.children, d.objectID = c.objectID ∧
      p.screen = .childProfileDetail ⟨some s.top.id, some c.objectID⟩ c.detailLabels ∧
      (c.detailLabels = d.detailLabels ↔ ∀ op ∈ t.adds order after, op.isPartOf c.objectID = false) := by
  have hwellFormed := App.run_wellFormed hrun
  obtain ⟨cells, screen, hscreen, hn, hpush⟩ := App.step_cellTapped htap
  obtain ⟨c, hc, _, t', ht', htop⟩ := App.cellTapped_spec hwellFormed hscreen hn
  obtain rfl : t = t' := Option.some.inj (htap.symm.trans ht')
  have hstore : t.store = s.store := by rw [hpush]; rfl
  rw [← hstore] at hc
  have htopID : t.top.id = s.nextScreen := by rw [htop]
  -- The screen is the one the tap pushed, as the others had an identity before.
  obtain ⟨q, hq, hqid, hqscreen⟩ := (App.run_moves hafter).keeps.kept p hp (by
    rw [hid, htopID, hpush]
    exact Nat.lt_succ_self _)
  obtain rfl : q = t.top := by
    have hscreens : t.navigation.screens = t.top :: s.navigation.screens := by rw [hpush]; rfl
    rw [hscreens] at hq
    rcases List.mem_cons.mp hq with hq | hq
    · exact hq
    · have hlt := hwellFormed.ids q hq
      rw [hqid, hid, htopID] at hlt
      exact absurd hlt (Nat.lt_irrefl _)
  obtain ⟨d, hd, hdid, htally⟩ := LocalStore.run_tally (App.run_moves hafter).store hc
  refine ⟨c, hc, d, hd, hdid, ?_, ?_⟩
  · rw [htop] at hqscreen
    cases hpscreen : p.screen <;> rw [hpscreen] at hqscreen <;> cases hqscreen
    rfl
  · rw [Child.detailLabels_eq t.store.wellFormed hc, Child.detailLabels_eq u.store.wellFormed hd,
      Option.some_inj, ChildTally.labels_injective.eq_iff, htally, ChildTally.after_eq_self_iff]

/-- Her train is added from the screen of the child, which is on top again then. -/
def trainAdded : List AppStep :=
  [.wishListTapped, .addItemTapped, .saveItem 0 (some [1]) "Train" "red", .backButton]

theorem annOpened_labels : ∃ s t u : App,
    run (App.step .codePoints) .installed (annOpened.take 4) = some s ∧
    s.step .codePoints (.cellTapped 0) = some t ∧ run (App.step .codePoints) t trainAdded = some u ∧
      u.top.id = t.top.id ∧ ∃ c ∈ t.store.graph.children, ∃ d ∈ u.store.graph.children,
        d.objectID = c.objectID ∧
        u.top.screen = .childProfileDetail ⟨some s.top.id, some c.objectID⟩ c.detailLabels ∧
        (c.detailLabels = d.detailLabels ↔
          ∀ op ∈ t.adds .codePoints trainAdded, op.isPartOf c.objectID = false) := by
  have hruns : ((run (App.step .codePoints) .installed (annOpened.take 4)).bind fun s =>
      (s.step .codePoints (.cellTapped 0)).bind fun t =>
        (run (App.step .codePoints) t trainAdded).map fun u => decide (u.top.id = t.top.id)) =
      some true := by decide +kernel
  obtain ⟨s, hs, hruns⟩ := Option.bind_eq_some_iff.mp hruns
  obtain ⟨t, ht, hruns⟩ := Option.bind_eq_some_iff.mp hruns
  obtain ⟨u, hu, hid⟩ := Option.map_eq_some_iff.mp hruns
  have hid := of_decide_eq_true hid
  exact ⟨s, t, u, hs, ht, hu, hid,
    run_detailLabels .codePoints _ s hs 0 t ht trainAdded u hu u.top top_mem hid⟩

end SantaIWish
