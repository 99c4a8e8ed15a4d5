import SantaIWish.AppSessions

/-!
# Several phones and one server

The app runs on any number of phones. Whatever is tapped on them, whenever Firebase Auth
answers, and in whatever order the requests arrive or get lost, the server has for each
account the family of a log of updates, as it has for devices.
-/

namespace SantaIWish
open Runs RealtimeDatabase
set_option autoImplicit false

/-- The app on each phone, and the requests on their way to the server. -/
structure Phones (ι : Type) where
  app : ι → App
  inFlight : List URLRequest := []
  remote : Json

inductive PhonesStep (ι : Type) where
  | app (i : ι) (a : AppStep)
  | arrive (n : Nat)
  | lose (n : Nat)

/-- The users that sign in, and the names and titles that are typed, are keys the server accepts. -/
def AppStep.Valid : AppStep → Prop
  | signInEnded _ result => ∀ uid, result = some uid → validKey uid = true
  | userCreated _ result => ∀ uid, result = some uid → validKey uid = true
  | doneBUtton _ childName _ => validKey childName = true
  | saveItem _ _ toyName _ => validKey toyName = true
  | saveLetter _ _ titleText => validKey titleText = true
  | _ => True

/-- What is true of the users that sign in. -/
def AppStep.SignsIn (P : String → Prop) : AppStep → Prop
  | signInEnded _ result => ∀ uid, result = some uid → P uid
  | userCreated _ result => ∀ uid, result = some uid → P uid
  | _ => True

theorem AppStep.Valid.signsIn {a : AppStep} (h : a.Valid) : a.SignsIn fun uid => validKey uid = true := by
  cases a <;> first | exact h | trivial

def PhonesStep.KeepsUser {ι : Type} : PhonesStep ι → Prop
  | app _ a => a.KeepsUser
  | _ => True

def PhonesStep.Valid {ι : Type} : PhonesStep ι → Prop
  | app _ a => a.Valid
  | _ => True

namespace Phones

/-- What a step of the phones is for the network of their devices. -/
def actions {ι : Type} (s : Phones ι) : PhonesStep ι → List (NetworkStep ι)
  | .app i a => ((s.app i).deviceSteps a).map (.device i)
  | .arrive n => [.arrive n]
  | .lose n => [.lose n]

structure Refines {ι : Type} (order : NameOrder) (s : Phones ι) (t : Network ι) : Prop where
  device : ∀ i, (s.app i).Refines order (t.device i)
  inFlight : t.inFlight = s.inFlight
  remote : t.remote = s.remote

section Step
variable {ι : Type} [DecidableEq ι] (order : NameOrder)

def step (s : Phones ι) : PhonesStep ι → Option (Phones ι)
  | .app i a => ((s.app i).step order a).map fun t =>
      { s with app := Function.update s.app i t, inFlight := s.inFlight ++ (s.app i).puts a }
  | .arrive n => s.inFlight[n]?.map fun q =>
      { s with inFlight := s.inFlight.eraseIdx n, remote := q.serve s.remote }
  | .lose n => s.inFlight[n]?.map fun _ => { s with inFlight := s.inFlight.eraseIdx n }

/-- The steps of one device are steps of the network, which sends what the device does. -/
theorem run_device {s : Network ι} {i : ι} {steps : List DeviceStep} {d : Device}
    (h : run Device.step (s.device i) steps = some d) :
    run Network.step s (steps.map (.device i)) = some
      { s with
        device := Function.update s.device i d
        inFlight := s.inFlight ++ trace Device.step Device.sent (s.device i) steps } := by
  induction steps generalizing s with
  | nil =>
    obtain rfl := Option.some.inj h
    rw [Function.update_eq_self, trace, List.append_nil]
    rfl
  | cons a steps ih =>
    obtain ⟨e, he, hrest⟩ := Option.bind_eq_some_iff.mp h
    rw [List.map_cons, run_cons, Network.step, he, Option.map_some, Option.bind_some, ih,
      trace_cons Device.step Device.sent he]
    · simp
    · simpa using hrest

/-- The phones are, for the server, a network of devices. -/
theorem simulates : Simulates (step (ι := ι) order) Network.step actions PhonesStep.KeepsUser
    (Refines order) := by
  constructor
  intro s t a s' h ha hstep
  cases a with
  | app i a =>
    obtain ⟨u, hu, rfl⟩ := Option.map_eq_some_iff.mp hstep
    obtain ⟨d, hd, hrefines⟩ := (app_simulates order).step _ _ a u (h.device i) ha hu
    refine ⟨_, run_device hd, fun j => ?_, ?_, h.remote⟩
    · change App.Refines order (Function.update s.app i u j) (Function.update t.device i d j)
      by_cases hj : j = i
      · subst hj
        rw [Function.update_self, Function.update_self]
        exact hrefines
      · rw [Function.update_of_ne hj, Function.update_of_ne hj]
        exact h.device j
    · rw [h.inFlight, App.puts_eq (h.device i)]
  | arrive n =>
    obtain ⟨q, hq, rfl⟩ := Option.map_eq_some_iff.mp hstep
    have hq' : t.inFlight[n]? = some q := by rw [h.inFlight, hq]
    refine ⟨{ t with inFlight := t.inFlight.eraseIdx n, remote := q.serve t.remote }, ?_, h.device, ?_, ?_⟩
    · simp [actions, run, Network.step, hq']
    · rw [h.inFlight]
    · rw [h.remote]
  | lose n =>
    obtain ⟨q, hq, rfl⟩ := Option.map_eq_some_iff.mp hstep
    have hq' : t.inFlight[n]? = some q := by rw [h.inFlight, hq]
    refine ⟨{ t with inFlight := t.inFlight.eraseIdx n }, ?_, h.device, ?_, h.remote⟩
    · simp [actions, run, Network.step, hq']
    · rw [h.inFlight]

end Step

/-! ## Runs of the phones -/

/-- The app has just been installed on each phone, and nothing is stored for any account. -/
structure Fresh {ι : Type} (s : Phones ι) : Prop where
  app : ∀ i, s.app i = .installed
  inFlight : s.inFlight = []
  empty : ∀ uid, s.remote.get (childrenURL uid).pathComponents = .null

/-- The devices before anything has happened on them. -/
def network {ι : Type} (s : Phones ι) : Network ι := ⟨fun _ => ⟨.empty, none⟩, [], s.remote⟩

theorem Fresh.refines {ι : Type} {s : Phones ι} (h : s.Fresh) (order : NameOrder) :
    s.Refines order s.network :=
  ⟨fun i => h.app i ▸ App.installed_refines, h.inFlight.symm, rfl⟩

theorem Fresh.network_fresh {ι : Type} {s : Phones ι} (h : s.Fresh) : s.network.Fresh := by
  refine ⟨fun _ => ⟨by simp [network], ?_⟩, rfl, h.empty⟩
  intro name hname
  cases hname

section Run
variable {ι : Type} [DecidableEq ι] (order : NameOrder)

def networkRun (s : Phones ι) (steps : List (PhonesStep ι)) : List (NetworkStep ι) :=
  trace (step order) actions s steps

theorem saved_text {s : App} {a : AppStep} (ha : a.Valid) {op : AddOp} (h : s.saved a = some op) :
    validKey op.text = true := by
  rcases App.saved_cases h with ⟨id, name, age, rfl, _, rfl⟩ |
    ⟨id, imageData, name, description, given, child, rfl, _, _, hop⟩ |
    ⟨id, note, title, given, child, rfl, _, _, rfl⟩
  · exact ha
  · obtain ⟨image, rfl⟩ := App.saveItem_eq_some hop
    exact ha
  · exact ha

/-- Whoever a step of the app signs in on the device has signed in before or does so now. -/
theorem deviceSteps_signIn {P : String → Prop} {s : App} {a : AppStep} (ha : a.SignsIn P)
    (huser : ∀ uid, s.session.currentUser = some uid → P uid) {uid : String}
    (h : .signIn uid ∈ s.deviceSteps a) : P uid := by
  by_cases hquiet : a.Quiet
  · rw [App.deviceSteps_quiet hquiet] at h
    obtain ⟨op, _, hop⟩ := List.mem_map.mp h
    cases hop
  · cases a with
    | signInEnded n result | userCreated n result =>
      obtain ⟨uid, huid, heq⟩ := Option.map_eq_some_iff.mp (Option.mem_toList.mp h)
      cases heq
      exact ha uid huid
    | tokenIssued user serial | tokenFailed user invalid | signedOutByForce user => cases h
    | signOutTapped => cases List.mem_singleton.mp h
    | relaunch =>
      rw [App.deviceSteps] at h
      split at h
      · obtain ⟨uid, huid, heq⟩ := Option.map_eq_some_iff.mp (Option.mem_toList.mp h)
        cases heq
        exact huser uid huid
      · cases h
    | _ => exact absurd trivial hquiet

/-- A current user was one before or has just signed in. -/
theorem step_currentUser {P : String → Prop} {s t : App} {a : AppStep} (hstep : s.step order a = some t)
    (ha : a.SignsIn P) {uid : String} (huid : t.session.currentUser = some uid) :
    s.session.currentUser = some uid ∨ P uid := by
  rw [App.step_currentUser hstep] at huid
  cases a with
  | signInEnded n result | userCreated n result =>
    cases result with
    | none => exact Or.inl huid
    | some uid' => exact Or.inr (ha uid huid)
  | tokenFailed user invalid | signedOutByForce user =>
    rw [AppStep.currentUser] at huid
    split at huid
    · cases huid
    · exact Or.inl huid
  | _ => exact Or.inl huid

/-- Whatever holds of the users that sign in on the phones holds of those on the devices. -/
theorem run_signIns {P : String → Prop} {s s' : Phones ι} {steps : List (PhonesStep ι)} (hs : s.Fresh)
    (hsignsIn : ∀ i a, .app i a ∈ steps → a.SignsIn P) (hrun : run (step order) s steps = some s') :
    (∀ i uid, (s'.app i).session.currentUser = some uid → P uid) ∧
      ∀ i uid, .device i (.signIn uid) ∈ s.networkRun order steps → P uid := by
  refine run_induction (P := fun steps s' => (∀ i a, .app i a ∈ steps → a.SignsIn P) →
    (∀ i uid, (s'.app i).session.currentUser = some uid → P uid) ∧
      ∀ i uid, .device i (.signIn uid) ∈ s.networkRun order steps → P uid) ?_ ?_ steps s' hrun hsignsIn
  · intro _
    refine ⟨fun i uid huid => ?_, fun i uid h => by cases h⟩
    rw [hs.app i] at huid
    cases huid
  · intro steps t a u hsteps ih hstep hsignsIn
    obtain ⟨husers, hbefore⟩ := ih fun i a ha => hsignsIn i a (List.mem_append_left _ ha)
    have hnow : ∀ i b, a = .app i b → b.SignsIn P := by
      rintro i b rfl
      exact hsignsIn i b (List.mem_append_right _ List.mem_cons_self)
    constructor
    · cases a with
      | app i a =>
        obtain ⟨v, hv, rfl⟩ := Option.map_eq_some_iff.mp hstep
        intro j uid huid
        change (Function.update t.app i v j).session.currentUser = some uid at huid
        by_cases hj : j = i
        · subst hj
          rw [Function.update_self] at huid
          exact (step_currentUser order hv (hnow j a rfl) huid).elim (husers j uid) id
        · rw [Function.update_of_ne hj] at huid
          exact husers j uid huid
      | arrive n | lose n =>
        obtain ⟨_, _, rfl⟩ := Option.map_eq_some_iff.mp hstep
        exact husers
    · intro i uid h
      rw [networkRun, trace_snoc _ _ hsteps] at h
      rcases List.mem_append.mp h with h | h
      · exact hbefore i uid h
      · cases a with
        | app j a =>
          obtain ⟨x, hx, heq⟩ := List.mem_map.mp h
          obtain ⟨rfl, rfl⟩ := NetworkStep.device.inj heq
          exact deviceSteps_signIn (hnow j a rfl) (husers j) hx
        | arrive n | lose n => cases List.mem_singleton.mp h

/-- The adds of the network are what was saved on the phones. -/
theorem networkRun_add {s : Phones ι} {steps : List (PhonesStep ι)} {i : ι} {op : AddOp}
    (h : .device i (.add op) ∈ s.networkRun order steps) :
    ∃ a, .app i a ∈ steps ∧ ∃ t : App, t.saved a = some op := by
  obtain ⟨b, hb, c, h⟩ := mem_trace (step order) actions h
  cases b with
  | app j a =>
    obtain ⟨x, hx, heq⟩ := List.mem_map.mp h
    obtain ⟨rfl, rfl⟩ := NetworkStep.device.inj heq
    have hop : op ∈ addsOf ((c.app j).deviceSteps a) := List.mem_filterMap.mpr ⟨_, hx, rfl⟩
    rw [App.deviceSteps_adds] at hop
    exact ⟨a, hb, c.app j, Option.mem_toList.mp hop⟩
  | arrive n | lose n => cases List.mem_singleton.mp h

/-- Of valid steps of the phones all steps of the network are valid. -/
theorem networkRun_valid {s s' : Phones ι} {steps : List (PhonesStep ι)} (hs : s.Fresh)
    (hvalid : ∀ a ∈ steps, a.Valid) (hrun : run (step order) s steps = some s') :
    ∀ a ∈ s.networkRun order steps, a.Valid := by
  intro b hb
  cases b with
  | device i b =>
    cases b with
    | signIn uid => exact (run_signIns order hs (fun i a ha => (hvalid _ ha).signsIn) hrun).2 i uid hb
    | signOut => trivial
    | add op =>
      obtain ⟨a, ha, t, hop⟩ := networkRun_add order hb
      exact saved_text (hvalid _ ha) hop
  | arrive n | lose n => trivial

/-- Whatever is tapped on any number of phones, and in whatever order requests arrive or get lost, the
server stores for each account the family of a log of updates, to which each save has added at most one;
fetching the kids tells nothing but that log. -/
theorem refines_log (s s' : Phones ι) (hs : s.Fresh) (steps : List (PhonesStep ι))
    (hkeeps : ∀ a ∈ steps, a.KeepsUser) (hvalid : ∀ a ∈ steps, a.Valid)
    (hrun : run (step order) s steps = some s') :
    ∃ n t, run Network.step s.network (s.networkRun order steps) = some n ∧ s'.Refines order n ∧
      run AccountLog.step {} (trace Network.step Network.actions s.network (s.networkRun order steps)) =
        some t ∧ n.Logged t ∧
      ∀ uid, validKey uid = true → KidsOfLog (t.of uid) (kidsFetched uid s'.remote) := by
  obtain ⟨n, hn, hrefines⟩ := (simulates order).run (hs.refines order) hkeeps hrun
  obtain ⟨t, ht, hlogged⟩ := (network_simulates ι).run hs.network_fresh.logged
    (networkRun_valid order hs hvalid hrun) hn
  refine ⟨n, t, hn, hrefines, ht, hlogged, fun uid huid => ?_⟩
  rw [← hrefines.remote]
  exact hlogged.kidsFetched huid

end Run

def twoPhones : Phones Bool := ⟨fun _ => .installed, [], .null⟩

theorem twoPhones_fresh : twoPhones.Fresh := ⟨fun _ => rfl, rfl, fun _ => Json.get_null _⟩

/-- Signing in and adding Ann on one phone. -/
def addsAnn (i : Bool) (age : String) : List (PhonesStep Bool) :=
  [.app i (.loginButtonTapped "ann@x.org" "secret"), .app i (.signInEnded 0 (some "uid")),
    .app i .addChildTapped, .app i (.doneBUtton 0 "Ann" age)]

/-- Both phones add her; what was added last is the first to arrive. -/
def annOnTwoPhones : List (PhonesStep Bool) :=
  addsAnn true "7" ++ addsAnn false "8" ++ [.arrive 1, .arrive 0]

theorem annOnTwoPhones_refines_log : ∃ s', run (step .codePoints) twoPhones annOnTwoPhones = some s' ∧
    kidsFetched "uid" s'.remote = .ok [⟨"Ann", "7", [], []⟩] := by
  obtain ⟨s', hs'⟩ := Option.isSome_iff_exists.mp
    (show (run (step .codePoints) twoPhones annOnTwoPhones).isSome = true by decide +kernel)
  have hvalid : ∀ a ∈ annOnTwoPhones, a.Valid := by
    simp [annOnTwoPhones, addsAnn, PhonesStep.Valid, AppStep.Valid]
    decide
  obtain ⟨_, t, _, _, ht, _, hkids⟩ := refines_log .codePoints twoPhones s' twoPhones_fresh annOnTwoPhones
    (by simp [annOnTwoPhones, addsAnn, PhonesStep.KeepsUser, AppStep.KeepsUser]) hvalid hs'
  have hlog : (run AccountLog.step {} (trace Network.step Network.actions twoPhones.network
      (twoPhones.networkRun .codePoints annOnTwoPhones))).map (AccountLog.of "uid") =
        some [.child "Ann" "8", .child "Ann" "7"] := by decide +kernel
  rw [ht] at hlog
  have hkids := hkids "uid" (by decide)
  rw [Option.some.inj hlog] at hkids
  obtain ⟨kids, hkids, hperm⟩ := hkids.read (not_indexKeys (by decide) (by decide)) (by decide)
  obtain rfl := List.perm_singleton.mp hperm
  exact ⟨s', hs', hkids⟩

end Phones

end SantaIWish
