import SantaIWish.Controller.Session

/-!
# Signing out

Signing out removes the stored token, but neither Auth's current user nor the
callbacks in flight. A callback that succeeds afterwards stores a token again.
-/

namespace SantaIWish
open Runs
set_option autoImplicit false

/-- A login or sign-up has succeeded and no sign-out has followed it. -/
def SignedIn (past : List SessionStep) : Prop :=
  Since (fun _ a => a.account.isSome = true) (· ≠ .signOut) past

theorem signedIn_snoc {past : List SessionStep} {a : SessionStep} :
    SignedIn (past ++ [a]) ↔ a.account.isSome = true ∨ (SignedIn past ∧ a ≠ .signOut) :=
  since_snoc

/-- Being let in without a password is backed by a login or sign-up. -/
def GateSound (past : List SessionStep) (s : Session) : Prop :=
  s.checkLoginStatis = true → SignedIn past

/-- A callback that stores a token does so while signed in. -/
def TokenInSession (past : List SessionStep) (_ : Session) (a : SessionStep) : Prop :=
  ∀ user serial, a = .tokenIssued user serial → SignedIn past

theorem gateSound_snoc {past : List SessionStep} {s t : Session} {a : SessionStep}
    (hs : GateSound past s) (h : s.step a = some t) :
    GateSound (past ++ [a]) t ↔ TokenInSession past s a := by
  by_cases hkeeps : a.KeepsRecord
  · have htoken := (Session.step_record h hkeeps).1
    refine iff_of_true ?_ ?_
    · intro hin
      have hpast : SignedIn past := hs (by simpa [Session.checkLoginStatis, htoken] using hin)
      refine signedIn_snoc.mpr (Or.inr ⟨hpast, ?_⟩)
      rintro rfl
      exact hkeeps
    · rintro user serial rfl
      exact hkeeps.elim
  · cases a with
    | tokenIssued user serial =>
      have htoken := (Session.step_tokenIssued h).1
      have hsnoc : SignedIn (past ++ [.tokenIssued user serial]) ↔ SignedIn past := by
        simp [signedIn_snoc, SessionStep.account]
      simp [GateSound, Session.checkLoginStatis, htoken, hsnoc, TokenInSession]
    | signOut =>
      have htoken := (Session.step_signOut h).1
      simp [GateSound, Session.checkLoginStatis, htoken, TokenInSession]
    | signIn _ | createUser _ | getCredentials | tokenFailed _ _ | signedOutByForce _ | relaunch
    | profileDidLoad =>
      exact absurd trivial hkeeps

/-- In every state a run reaches the gate is sound, exactly when every callback that succeeds is
delivered while signed in. -/
theorem gateSound_iff_tokensInSession (steps : List SessionStep) (s : Session)
    (hrun : run Session.step {} steps = some s) :
    Always Session.step {} steps GateSound ↔ EveryStep Session.step {} steps TokenInSession :=
  always_iff_everyStep (by simp [GateSound, Session.checkLoginStatis])
    (fun _ _ _ _ hs hpast h => gateSound_snoc (hpast.of_run hs) h) steps s hrun

/-! ## A sign-out that does not last -/

def signedIn (past : List SessionStep) : Bool :=
  past.foldl (fun b a => a.account.isSome || (b && decide (a ≠ .signOut))) false

theorem signedIn_iff (past : List SessionStep) : SignedIn past ↔ signedIn past = true := by
  induction past using List.reverseRecOn with
  | nil => exact iff_of_false not_since_nil (by simp [signedIn])
  | append_singleton past a ih => rw [signedIn_snoc, ih]; simp [signedIn]

instance (past : List SessionStep) : Decidable (SignedIn past) :=
  decidable_of_iff _ (signedIn_iff past).symm

/-- Alice signs out, and someone else then tries to log in with a wrong password. -/
def wrongPassword : List SessionStep :=
  [.signIn (some "alice"), .tokenIssued "alice" 1, .signOut, .signIn none, .tokenIssued "alice" 2]

theorem wrongPassword_opens_gate :
    ¬ ∀ (steps : List SessionStep) (s : Session), run Session.step {} steps = some s →
      Always Session.step {} steps GateSound := by
  intro h
  have hgate := (h wrongPassword _ rfl).of_run rfl
  exact absurd (hgate (by decide)) (by decide)

theorem gateSound_iff_alice :
    Always Session.step {} [.signIn (some "alice"), .tokenIssued "alice" 1, .signOut] GateSound ↔
      EveryStep Session.step {} [.signIn (some "alice"), .tokenIssued "alice" 1, .signOut]
        TokenInSession :=
  gateSound_iff_tokensInSession _ _ rfl

end SantaIWish
