import SantaIWish.Convergence
import SantaIWish.Phones

/-!
# What was saved on any phone

One family uses one account on all its phones. Once every request has arrived, in whatever
order, the kids that are fetched are the children that were saved on the screens of any
of the phones.
-/

namespace SantaIWish
open Runs RealtimeDatabase
set_option autoImplicit false

/-- The name and age of the child an add puts. -/
def AddOp.kid : AddOp → Option (String × String)
  | addChild _ name age => some (name, toString age)
  | _ => none

namespace Phones

/-- The child that is saved with a step. -/
def savedKid {ι : Type} (s : Phones ι) : PhonesStep ι → List (String × String)
  | .app i a => ((s.app i).saved a).toList.filterMap AddOp.kid
  | _ => []

theorem childAdds_device {ι : Type} (i : ι) (steps : List DeviceStep) :
    childAdds (steps.map (NetworkStep.device i)) = (addsOf steps).filterMap AddOp.kid := by
  induction steps with
  | nil => rfl
  | cons a steps ih =>
    cases a with
    | signIn uid | signOut => exact ih
    | add op =>
      cases op with
      | addChild id name age => exact congrArg ((name, toString age) :: ·) ih
      | addItem id child image description name | addLetter id child note title => exact ih

section Run
variable {ι : Type} [DecidableEq ι] (order : NameOrder)

/-- The children that are saved in a run, on any phone, in that order. -/
def savedKids (s : Phones ι) (steps : List (PhonesStep ι)) : List (String × String) :=
  trace (step order) savedKid s steps

/-- One account, nothing lost, nothing on its way. -/
structure Quiet (uid : String) (steps : List (PhonesStep ι)) (s : Phones ι) : Prop where
  account : ∀ i a, .app i a ∈ steps → a.SignsIn (· = uid)
  kept : ∀ n, .lose n ∉ steps
  inFlight : s.inFlight = []

variable {order} {s s' : Phones ι} {steps : List (PhonesStep ι)}

theorem childAdds_networkRun (hrun : run (step order) s steps = some s') :
    childAdds (s.networkRun order steps) = s.savedKids order steps := by
  refine run_induction (P := fun steps _ => childAdds (s.networkRun order steps) = s.savedKids order steps)
    rfl ?_ steps s' hrun
  intro steps t a u hsteps ih _
  rw [networkRun, savedKids, trace_snoc _ _ hsteps, trace_snoc _ _ hsteps, childAdds_append]
  have hone : childAdds (t.actions a) = t.savedKid a := by
    cases a with
    | app i a => rw [actions, childAdds_device, App.deviceSteps_adds, savedKid]
    | arrive n | lose n => rfl
  rw [hone]
  exact congrArg (· ++ _) ih

theorem lose_not_mem_networkRun (hkept : ∀ n, .lose n ∉ steps) (n : Nat) :
    .lose n ∉ s.networkRun order steps := by
  intro hmem
  obtain ⟨a, ha, c, hn⟩ := mem_trace (step order) actions hmem
  cases a with
  | app i a =>
    obtain ⟨_, _, heq⟩ := List.mem_map.mp hn
    cases heq
  | arrive m => cases List.mem_singleton.mp hn
  | lose m => exact hkept m ha

/-- When everything has arrived on the server, in whatever order, fetching the kids gives each child that
was saved on any phone, once, with an age it was saved with; unless the names are 0, 1, ..., n-1, which no
children at all are too. -/
theorem savedKids_converge (order : NameOrder) (s s' : Phones ι) (hs : s.Fresh)
    (steps : List (PhonesStep ι)) (hkeeps : ∀ a ∈ steps, a.KeepsUser) (hvalid : ∀ a ∈ steps, a.Valid)
    (hrun : run (step order) s steps = some s') (uid : String) (huid : validKey uid = true)
    (hquiet : Quiet uid steps s') (hindex : ¬ IndexKeys ((s.savedKids order steps).map Prod.fst)) :
    ∃ kids, kidsFetched uid s'.remote = .ok kids ∧ (kids.map ChildRepresentation.name).Nodup ∧
      (∀ name, name ∈ kids.map ChildRepresentation.name ↔
        name ∈ (s.savedKids order steps).map Prod.fst) ∧
      ∀ kid ∈ kids, kid.Bare ∧ (kid.name, kid.age) ∈ s.savedKids order steps := by
  obtain ⟨n, hn, hrefines⟩ := (simulates order).run (hs.refines order) hkeeps hrun
  have hnetwork : SantaIWish.Quiet uid (s.networkRun order steps) n :=
    ⟨(run_signIns order hs hquiet.account hrun).2, lose_not_mem_networkRun hquiet.kept,
      hrefines.inFlight.trans hquiet.inFlight⟩
  rw [← childAdds_networkRun hrun] at hindex ⊢
  rw [← hrefines.remote]
  exact hnetwork.kidsFetched hs.network_fresh (fun _ => rfl) (networkRun_valid order hs hvalid hrun) hn
    huid hindex

end Run

/-- Ann is saved on one phone and Bob on the other; he is the first to arrive. -/
def annAndBobSaved : List (PhonesStep Bool) :=
  addsAnn true "7" ++ [.app false (.loginButtonTapped "ann@x.org" "secret"),
    .app false (.signInEnded 0 (some "uid")), .app false .addChildTapped,
    .app false (.doneBUtton 0 "Bob" "4"), .arrive 1, .arrive 0]

theorem annAndBobSaved_converge : ∃ s' kids, run (step .codePoints) twoPhones annAndBobSaved = some s' ∧
    kidsFetched "uid" s'.remote = .ok kids ∧
      ∀ name, name ∈ kids.map ChildRepresentation.name ↔ name ∈ ["Ann", "Bob"] := by
  have harrived : (run (step .codePoints) twoPhones annAndBobSaved).map (fun s => s.inFlight.isEmpty) =
      some true := by decide +kernel
  obtain ⟨s', hs', harrived⟩ := Option.map_eq_some_iff.mp harrived
  have hsignsIn : ∀ b ∈ annAndBobSaved, ∀ i a, b = .app i a → a.SignsIn (· = "uid") := by
    simp [annAndBobSaved, addsAnn, AppStep.SignsIn]
  have hvalid : ∀ a ∈ annAndBobSaved, a.Valid := by
    simp [annAndBobSaved, addsAnn, PhonesStep.Valid, AppStep.Valid]
    decide
  have hkids : twoPhones.savedKids .codePoints annAndBobSaved = [("Ann", "7"), ("Bob", "4")] := by
    decide +kernel
  have hquiet : Quiet "uid" annAndBobSaved s' :=
    ⟨fun i a ha => hsignsIn _ ha i a rfl, by simp [annAndBobSaved, addsAnn], List.isEmpty_iff.mp harrived⟩
  obtain ⟨kids, hfetched, _, hnames, _⟩ := savedKids_converge .codePoints twoPhones s' twoPhones_fresh
    annAndBobSaved (by simp [annAndBobSaved, addsAnn, PhonesStep.KeepsUser, AppStep.KeepsUser]) hvalid hs'
    "uid" (by decide) hquiet (by rw [hkids]; exact not_indexKeys (by decide) (by decide))
  rw [hkids] at hnames
  exact ⟨s', kids, hs', hfetched, hnames⟩

end Phones

end SantaIWish
