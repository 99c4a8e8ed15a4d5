import SantaIWish.Controller.Requests

/-!
# The completion protocol of the controller

A completion value counts as success when it is a nil error or a `.success`. The
protocol asks for exactly one completion, and for success only after a 2xx
answer. `MeetsProtocol` says, from the arguments of a call and the answer its
task gets, when the code keeps to it.
-/

namespace SantaIWish
open AsyncCalls (Started Event Protocol)
set_option autoImplicit false

inductive ControllerCall where
  | put (parentRepresentation : ParentRepresentation) (id : String) (throws : Bool)
  | putChild (s : Store) (child : ObjectID) (id : Option String) (throws : Bool)
  | putItem (s : Store) (child : ObjectID) (id : Option String) (item : ObjectID) (throws : Bool)
  | putLetter (s : Store) (child : ObjectID) (id : Option String) (letter : ObjectID) (throws : Bool)
  | fetchKidsFromServer (storedUserID : Option String)
  | fetchItemsFromServer (s : Store) (child : ObjectID) (currentUser : Option String)
  | addLetterToChild (s : Store) (child : ObjectID) (id : Option String) (letter : ObjectID)
      (throws : Bool)

def isNil {E : Type} (error : Option E) : Bool := error.isNone

def isSuccess {E A : Type} : Except E A → Bool
  | .ok _ => true
  | .error _ => false

namespace ControllerCall

/-- What the call does, with each completion value reduced to whether it reports success. -/
def start : ControllerCall → Started URLRequest TaskResult Bool
  | put parentRepresentation id throws => (SantaIWish.put parentRepresentation id throws).map isSuccess
  | putChild s child id throws => (SantaIWish.putChild s child id throws).map isNil
  | putItem s child id item throws => (SantaIWish.putItem s child id item throws).map isNil
  | putLetter s child id letter throws => (SantaIWish.putLetter s child id letter throws).map isNil
  | fetchKidsFromServer storedUserID => (SantaIWish.fetchKidsFromServer storedUserID).map isNil
  | fetchItemsFromServer s child currentUser =>
    (SantaIWish.fetchItemsFromServer s child currentUser).map isSuccess
  | addLetterToChild s child id letter throws =>
    (SantaIWish.addLetterToChild s child id letter throws).map isNil

/-- The answer made no success out of a rejected request. -/
def HonestGet (decodes : Payload → Prop) (r : TaskResult) : Prop :=
  r.error.isSome = true ∨ (∀ data, r.data = some data → ¬ decodes data) ∨ r.Accepted

/-- When a call, with the answer its task got if it resumed one, keeps to the protocol. -/
def MeetsProtocol (answer : Option TaskResult) : ControllerCall → Prop
  | put _ _ throws => throws = true
  | putChild s child id throws =>
    id.isSome = true ∧ (s.childRepresentation child).isSome = true ∧
      (throws = true ∨ ∃ r, answer = some r ∧ r.error.isSome = true)
  | putItem s child id item throws =>
    id.isSome = true ∧ (s.childRepresentation child).isSome = true ∧
      (s.itemRepresentation item).isSome = true ∧
      (throws = true ∨ ∃ r, answer = some r ∧ (r.error.isSome = true ∨ r.Accepted))
  | putLetter s child id letter throws =>
    id.isSome = true ∧ (s.childRepresentation child).isSome = true ∧
      (s.letterRepresentation letter).isSome = true ∧
      (throws = true ∨ ∃ r, answer = some r ∧ (r.error.isSome = true ∨ r.Accepted))
  | fetchKidsFromServer storedUserID =>
    storedUserID.isSome = true ∧
      ∃ r, answer = some r ∧ HonestGet (fun data => ∃ kids, decodeKids data = .ok kids) r
  | fetchItemsFromServer s child currentUser =>
    currentUser.isSome = true ∧ (s.childRepresentation child).isSome = true ∧
      ∃ r, answer = some r ∧ HonestGet (fun data => ∃ items, decodeItems data = .ok items) r
  | addLetterToChild _ _ _ _ _ => False

end ControllerCall

/-! ## Finished calls -/

/-- A call that has been made, of any type of completion value seen as success or failure. -/
def FinishedAs (started : Started URLRequest TaskResult Bool) (answer : Option TaskResult) : Prop :=
  match started.task, answer with
  | none, none => ∃ c, started.completions = [c] ∧ c = false
  | some (_, handler), some r =>
    (∃ c, started.completions = [c] ∧ handler r = [] ∧ c = false) ∨
      ∃ d, started.completions = [] ∧ handler r = [d] ∧ (d = true → r.Accepted)
  | _, _ => False

abbrev CallRecord : Type := AsyncCalls.Call ControllerCall URLRequest TaskResult Bool

def CallRecord.KeepsProtocol (c : CallRecord) : Prop := Protocol id TaskResult.Accepted c.events

theorem keepsProtocol_iff_finishedAs {c : CallRecord}
    (hc : AsyncCalls.Progress ControllerCall.start c) (hdone : c.task = none) :
    c.KeepsProtocol ↔ FinishedAs c.kind.start c.answer := by
  have hidle : ∀ (htask : c.kind.start.task = none) (hanswer : c.answer = none)
      (hevents : c.events = c.kind.start.completions.map .completed),
      c.KeepsProtocol ↔ FinishedAs c.kind.start c.answer := by
    intro htask hanswer hevents
    simp only [CallRecord.KeepsProtocol, hevents, AsyncCalls.protocol_idle_iff, FinishedAs, htask,
      hanswer, id]
  cases hc with
  | idle _ hanswer hstart hevents => exact hidle hstart hanswer hevents
  | waiting htask hanswer hevents => exact hidle (htask ▸ hdone) hanswer hevents
  | finished request handler r _ hanswer hstart hevents =>
    simp only [CallRecord.KeepsProtocol, hevents, AsyncCalls.protocol_finished_iff, FinishedAs,
      hstart, hanswer, id]

theorem answer_isSome_of_progress {c : CallRecord}
    (hc : AsyncCalls.Progress ControllerCall.start c) (hdone : c.task = none) :
    c.answer.isSome = c.kind.start.task.isSome := by
  cases hc with
  | idle _ hanswer hstart _ => simp [hanswer, hstart]
  | waiting htask hanswer _ => simp [hanswer, ← htask, hdone]
  | finished request handler r _ hanswer hstart _ => simp [hanswer, hstart]

/-! ## The two shapes of a call -/

theorem finishedAs_sendPut (guarded : Option (URL × Json)) (throws : Bool)
    (answered : List (Option NetworkingError)) (answer : Option TaskResult)
    (hfits : answer.isSome = ((sendPut guarded throws answered).map isNil).task.isSome) :
    FinishedAs ((sendPut guarded throws answered).map isNil) answer ↔
      guarded.isSome = true ∧ (throws = true ∨ ∃ r, answer = some r ∧
        (r.error.isSome = true ∨ ∃ v, answered.map isNil = [v] ∧ (v = true → r.Accepted))) := by
  cases guarded with
  | none =>
    obtain rfl : answer = none := by simpa [sendPut, Started.returning, Started.map] using hfits
    simp [FinishedAs, sendPut, Started.returning, Started.map]
  | some g =>
    cases throws with
    | true =>
      obtain rfl : answer = none := by
        simpa [sendPut, jsonEncode, Started.returning, Started.map] using hfits
      simp [FinishedAs, sendPut, jsonEncode, Started.returning, Started.map, isNil]
    | false =>
      obtain ⟨r, rfl⟩ : ∃ r, answer = some r := by
        simpa [sendPut, jsonEncode, Started.resuming, Started.map, Option.isSome_iff_exists]
          using hfits
      cases herror : r.error with
      | some error =>
        simp [FinishedAs, sendPut, jsonEncode, Started.resuming, Started.map, herror, isNil]
      | none =>
        simp [FinishedAs, sendPut, jsonEncode, Started.resuming, Started.map, herror]

theorem finishedAs_sendGet {C : Type} (guarded : Option URL) (failed : NSError → C) (noData : C)
    (received : Payload → C) (succeeds : C → Bool) (hfailed : ∀ e, succeeds (failed e) = false)
    (hnoData : succeeds noData = false) (answer : Option TaskResult)
    (hfits : answer.isSome =
      ((sendGet guarded failed noData received).map succeeds).task.isSome) :
    FinishedAs ((sendGet guarded failed noData received).map succeeds) answer ↔
      guarded.isSome = true ∧ ∃ r, answer = some r ∧
        ControllerCall.HonestGet (fun data => succeeds (received data) = true) r := by
  cases guarded with
  | none =>
    obtain rfl : answer = none := by simpa [sendGet, Started.returning, Started.map] using hfits
    simp [FinishedAs, sendGet, Started.returning, Started.map]
  | some url =>
    obtain ⟨r, rfl⟩ : ∃ r, answer = some r := by
      simpa [sendGet, Started.resuming, Started.map, Option.isSome_iff_exists] using hfits
    cases herror : r.error with
    | some error =>
      simp [FinishedAs, sendGet, Started.resuming, Started.map, ControllerCall.HonestGet, herror,
        hfailed]
    | none =>
      cases hdata : r.data with
      | none =>
        simp [FinishedAs, sendGet, Started.resuming, Started.map, ControllerCall.HonestGet, herror,
          hdata, hnoData]
      | some data =>
        simp only [FinishedAs, sendGet, Started.resuming, Started.map, ControllerCall.HonestGet]
        cases hsuccess : succeeds (received data) <;> simp [herror, hdata, hsuccess]

theorem isNil_kidsReceived (data : Payload) :
    isNil (kidsReceived data) = true ↔ ∃ kids, decodeKids data = .ok kids := by
  unfold kidsReceived
  cases decodeKids data <;> simp [isNil]

theorem isSuccess_itemsReceived (data : Payload) :
    isSuccess (itemsReceived data) = true ↔ ∃ items, decodeItems data = .ok items := by
  unfold itemsReceived
  cases decodeItems data <;> simp [isSuccess]

theorem finishedAs_iff_meetsProtocol (kind : ControllerCall) (answer : Option TaskResult)
    (hfits : answer.isSome = kind.start.task.isSome) :
    FinishedAs kind.start answer ↔ kind.MeetsProtocol answer := by
  cases kind with
  | put parentRepresentation id throws =>
    cases throws with
    | true =>
      obtain rfl : answer = none := by
        simpa [ControllerCall.start, put, jsonEncode, Started.returning, Started.map] using hfits
      simp [FinishedAs, ControllerCall.start, put, jsonEncode, Started.returning, Started.map,
        ControllerCall.MeetsProtocol, isSuccess]
    | false =>
      obtain ⟨r, rfl⟩ : ∃ r, answer = some r := by
        simpa [ControllerCall.start, put, jsonEncode, Started.map, Option.isSome_iff_exists]
          using hfits
      simp [FinishedAs, ControllerCall.start, put, jsonEncode, Started.map,
        ControllerCall.MeetsProtocol, isSuccess]
  | putChild s child id throws =>
    refine (finishedAs_sendPut _ throws [] answer hfits).trans ?_
    cases id <;> cases hchild : s.childRepresentation child <;>
      simp [ControllerCall.MeetsProtocol, hchild]
  | putItem s child id item throws =>
    refine (finishedAs_sendPut _ throws [none] answer hfits).trans ?_
    cases id <;> cases hchild : s.childRepresentation child <;>
      cases hitem : s.itemRepresentation item <;>
      simp [ControllerCall.MeetsProtocol, isNil, hchild, hitem]
  | putLetter s child id letter throws =>
    refine (finishedAs_sendPut _ throws [none] answer hfits).trans ?_
    cases id <;> cases hchild : s.childRepresentation child <;>
      cases hletter : s.letterRepresentation letter <;>
      simp [ControllerCall.MeetsProtocol, isNil, hchild, hletter]
  | fetchKidsFromServer storedUserID =>
    refine (finishedAs_sendGet _ _ _ _ isNil (fun _ => rfl) rfl answer hfits).trans ?_
    simp only [isNil_kidsReceived, Option.isSome_map, ControllerCall.MeetsProtocol]
  | fetchItemsFromServer s child currentUser =>
    refine (finishedAs_sendGet _ _ _ _ isSuccess (fun _ => rfl) rfl answer hfits).trans ?_
    simp only [isSuccess_itemsReceived, ControllerCall.MeetsProtocol]
    cases currentUser <;> cases hchild : s.childRepresentation child <;> simp
  | addLetterToChild s child id letter throws =>
    cases htask : (putLetter s child id letter throws).task <;> cases answer <;>
      simp [FinishedAs, ControllerCall.start, addLetterToChild, Started.map, htask,
        ControllerCall.MeetsProtocol, isNil]

/-! ## Runs of calls -/

abbrev CallStep : Type := AsyncCalls.Step ControllerCall TaskResult

/-- In every run in which every resumed task has been answered, in any order, the calls keep to the
protocol exactly when each of them meets its condition. -/
theorem completions_iff_meetsProtocol (steps : List CallStep) (calls : List CallRecord)
    (hrun : Runs.run (AsyncCalls.step ControllerCall.start) [] steps = some calls)
    (hdone : ∀ c ∈ calls, c.task = none) :
    (∀ c ∈ calls, c.KeepsProtocol) ↔ ∀ c ∈ calls, c.kind.MeetsProtocol c.answer := by
  apply forall₂_congr
  intro c hc
  have hprogress := AsyncCalls.run_progress hrun c hc
  have hfits := answer_isSome_of_progress hprogress (hdone c hc)
  exact (keepsProtocol_iff_finishedAs hprogress (hdone c hc)).trans
    (finishedAs_iff_meetsProtocol c.kind c.answer hfits)

section Runs

def annStore : Store := { children := [Child.new 0 "Ann" "7" [] []] }

def accepted (data : Option Payload) : TaskResult := ⟨data, some 200, none⟩

/-- A fetch in flight while an upload fails to encode, then the answer to the fetch. -/
def fetchThenUpload : List CallStep :=
  [.call (.fetchKidsFromServer (some "u1")), .call (.putChild annStore 0 (some "u1") true),
    .answer 0 (accepted (some (.json (.obj []))))]

theorem completions_fetchThenUpload :
    ∃ calls : List CallRecord,
      Runs.run (AsyncCalls.step ControllerCall.start) [] fetchThenUpload = some calls ∧
        calls.length = 2 ∧ ∀ c ∈ calls, c.KeepsProtocol := by
  refine ⟨_, rfl, rfl, (completions_iff_meetsProtocol fetchThenUpload _ rfl (by decide)).mpr ?_⟩
  intro c hc
  rcases List.mem_cons.mp hc with rfl | hc
  · exact ⟨rfl, _, rfl, Or.inr (Or.inr ⟨200, rfl, by decide, by decide⟩)⟩
  · obtain rfl := List.mem_singleton.mp hc
    exact ⟨rfl, rfl, Or.inl rfl⟩

/-- A child that is uploaded without any error: `putChild` never calls its completion. -/
theorem putChild_never_completes :
    ¬ ∀ (steps : List CallStep) (calls : List CallRecord),
      Runs.run (AsyncCalls.step ControllerCall.start) [] steps = some calls →
        (∀ c ∈ calls, c.task = none) → ∀ c ∈ calls, c.KeepsProtocol := by
  intro h
  have hkeeps := h [.call (.putChild annStore 0 (some "u1") false), .answer 0 (accepted none)] _ rfl
    (by decide) _ List.mem_cons_self
  exact absurd hkeeps.1 (by decide)

end Runs

end SantaIWish
