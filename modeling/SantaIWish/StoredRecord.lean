import SantaIWish.Controller.Session
import SantaIWish.Controller.Requests

/-!
# The stored session record

The profile screen reads the account of its fetch from `UserDefaults`, while the
requests that write take it from Auth. The two agree at a fetch exactly when the
last callback that stored a record was asked for by the account that is current
at the fetch, came while that account was current, and no sign-out followed.
-/

namespace SantaIWish
open Runs
set_option autoImplicit false

/-- Who is signed in with Auth: the last user who signed in, if Auth has not signed it out since. -/
def accountAfter (past : List SessionStep) : Option String :=
  past.foldl SessionStep.currentUser none

@[simp] theorem accountAfter_nil : accountAfter [] = none := rfl

@[simp] theorem accountAfter_snoc (past : List SessionStep) (a : SessionStep) :
    accountAfter (past ++ [a]) = a.currentUser (accountAfter past) := by
  simp [accountAfter]

/-- The stored record was written by the callback `serial` asked for by `user`, while `current` was
Auth's current user. -/
def WrittenBy (past : List SessionStep) (user : String) (serial : Nat) (current : Option String) :
    Prop :=
  Since (fun before a => a = .tokenIssued user serial ∧ accountAfter before = current)
    SessionStep.KeepsRecord past

theorem writtenBy_snoc {past : List SessionStep} {a : SessionStep} {user : String} {serial : Nat}
    {current : Option String} : WrittenBy (past ++ [a]) user serial current ↔
      (a = .tokenIssued user serial ∧ accountAfter past = current) ∨
        (WrittenBy past user serial current ∧ a.KeepsRecord) :=
  since_snoc

/-- The state is a function of the past: who is current, and which callback wrote the record. -/
structure Explains (past : List SessionStep) (s : Session) : Prop where
  account : s.currentUser = accountAfter past
  record : ∀ user serial current, WrittenBy past user serial current ↔
    s.token = some ⟨user, serial⟩ ∧ s.userID = current

theorem explains_init : Explains [] {} := by
  refine ⟨rfl, fun user serial current => iff_of_false not_since_nil ?_⟩
  simp

theorem explains_snoc {past : List SessionStep} {s t : Session} {a : SessionStep}
    (hs : Explains past s) (h : s.step a = some t) : Explains (past ++ [a]) t := by
  refine ⟨by rw [Session.step_currentUser h, accountAfter_snoc, hs.account], ?_⟩
  intro user serial current
  rw [writtenBy_snoc, hs.record]
  by_cases hkeeps : a.KeepsRecord
  · obtain ⟨htoken, huserID⟩ := Session.step_record h hkeeps
    have hne : a ≠ .tokenIssued user serial := by
      rintro rfl
      exact hkeeps
    simp [hne, hkeeps, htoken, huserID]
  · cases a with
    | tokenIssued user' serial' =>
      obtain ⟨htoken, huserID⟩ := Session.step_tokenIssued h
      simp [htoken, huserID, hs.account, SessionStep.KeepsRecord]
    | signOut =>
      obtain ⟨htoken, _⟩ := Session.step_signOut h
      simp [htoken, SessionStep.KeepsRecord]
    | signIn _ | createUser _ | getCredentials | tokenFailed _ _ | signedOutByForce _ | relaunch
    | profileDidLoad =>
      exact absurd trivial hkeeps

theorem run_explains {past : List SessionStep} {s : Session}
    (hrun : run Session.step {} past = some s) : Explains past s :=
  run_induction explains_init (fun _ _ _ _ _ hs h => explains_snoc hs h) past s hrun

/-- What a fetch of the profile screen relies on: it is sent, for Auth's current user, and the stored
token was issued for that user. -/
def RecordAgrees (s : Session) : Prop :=
  ∃ uid token, s.currentUser = some uid ∧ s.userID = some uid ∧ s.token = some token ∧
    token.user = uid

/-- The account that is current now asked for the callback that wrote the record, and was current
when it came. -/
def RecordFresh (past : List SessionStep) : Prop :=
  ∃ uid serial, accountAfter past = some uid ∧ WrittenBy past uid serial (some uid)

theorem recordAgrees_iff_fresh {past : List SessionStep} {s : Session} (hs : Explains past s) :
    RecordAgrees s ↔ RecordFresh past := by
  unfold RecordAgrees RecordFresh
  simp only [hs.record, ← hs.account]
  constructor
  · intro hh
    obtain ⟨uid, token, hcurrent, huserID, htoken, rfl⟩ := hh
    exact ⟨token.user, token.serial, hcurrent, htoken, huserID⟩
  · intro hh
    obtain ⟨uid, serial, hcurrent, htoken, huserID⟩ := hh
    exact ⟨uid, ⟨uid, serial⟩, hcurrent, huserID, htoken, rfl⟩

/-- What `configureViews` of the profile screen starts. -/
def Session.configureViews (s : Session) :
    AsyncCalls.Started URLRequest TaskResult (Option NSError) := fetchKidsFromServer s.userID

/-- With the record in agreement the fetch goes to the node of Auth's current user. -/
theorem RecordAgrees.request {s : Session} (h : RecordAgrees s) :
    ∃ uid, s.currentUser = some uid ∧ s.configureViews.request =
      some (.get ((childrenURL uid).appendingPathExtension "json")) := by
  obtain ⟨uid, _, hcurrent, huserID, _⟩ := h
  refine ⟨uid, hcurrent, ?_⟩
  rw [Session.configureViews, huserID]
  rfl

/-- The record is right at every fetch of a run exactly when it is fresh at every fetch. -/
theorem fetches_agree_iff_fresh (steps : List SessionStep) :
    EveryStep Session.step {} steps (fun _ s a => a = .profileDidLoad → RecordAgrees s) ↔
      EveryStep Session.step {} steps
        (fun past _ a => a = .profileDidLoad → RecordFresh past) := by
  constructor
  · intro h past a s hp hs ha
    exact (recordAgrees_iff_fresh (run_explains hs)).mp (h past a s hp hs ha)
  · intro h past a s hp hs ha
    exact (recordAgrees_iff_fresh (run_explains hs)).mpr (h past a s hp hs ha)

/-- Bob's profile loads before his token has come, beside the record Alice left. -/
theorem bob_fetches_for_alice :
    ¬ ∀ (steps : List SessionStep) (s : Session), run Session.step {} steps = some s →
      EveryStep Session.step {} steps (fun _ s a => a = .profileDidLoad → RecordAgrees s) := by
  intro h
  have hsteps := h [.signIn (some "alice"), .tokenIssued "alice" 1, .profileDidLoad, .signOut,
    .signIn (some "bob"), .profileDidLoad] _ rfl
  obtain ⟨uid, token, hcurrent, huserID, _⟩ := hsteps [.signIn (some "alice"),
    .tokenIssued "alice" 1, .profileDidLoad, .signOut, .signIn (some "bob")] .profileDidLoad _
    (by decide) rfl rfl
  have hcurrent : some "bob" = some uid := hcurrent
  have huserID : some "alice" = some uid := huserID
  rw [← hcurrent] at huserID
  exact absurd huserID (by decide)

end SantaIWish
