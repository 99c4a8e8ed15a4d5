import SantaIWish.Library.Runs
import SantaIWish.Firebase.TokenService

/-!
# Fetching access tokens

However calls, answers of the server and the passing of time are interleaved, the calls
get their callbacks in order, one request is under way at most, and what is sent and
handed out is the newest token there is. No call is left without its callback if the
server answers.
-/

namespace SantaIWish
open Runs
set_option autoImplicit false

def fetched (steps : List TokenStep) : List Fetch :=
  steps.filterMap fun
    | .fetchAccessToken fetch => some fetch
    | _ => none

namespace TokenStep

/-- The access token a step brings. -/
def accessToken : TokenStep → Option String
  | responded _ (.ok response) => some response.accessToken
  | _ => none

def refreshToken : TokenStep → Option String
  | responded _ (.ok response) => response.refreshToken.filter fun token => token ≠ ""
  | _ => none

end TokenStep

/-- The last token that was brought, or else the first one. -/
def newest (brought : TokenStep → Option String) (first : Option String) (steps : List TokenStep) :
    Option String := (steps.filterMap brought).getLast?.or first

theorem newest_snoc (brought : TokenStep → Option String) (first : Option String)
    (steps : List TokenStep) (a : TokenStep) :
    newest brought first (steps ++ [a]) = (brought a).or (newest brought first steps) := by
  rw [newest, newest, List.filterMap_append]
  cases h : brought a <;> simp [h]

/-! ## What a step does -/

namespace SecureTokenService
variable (s : SecureTokenService) (now : Nat)

theorem receiveAccessToken_spec (response : SecureTokenResponse) :
    (s.receiveAccessToken now response).1.accessToken = some response.accessToken ∧
      (s.receiveAccessToken now response).1.refreshToken = s.refreshToken ∧
      (s.receiveAccessToken now response).1.authorizationCode = s.authorizationCode := by
  unfold receiveAccessToken
  split
  · rename_i hsame
    exact ⟨hsame, rfl, rfl⟩
  · exact ⟨rfl, rfl, rfl⟩

theorem receiveRefreshToken_spec (response : SecureTokenResponse) :
    (s.receiveRefreshToken response).1.refreshToken =
        (response.refreshToken.filter fun token => token ≠ "").or s.refreshToken ∧
      (s.receiveRefreshToken response).1.accessToken = s.accessToken ∧
      (s.receiveRefreshToken response).1.authorizationCode = s.authorizationCode := by
  unfold receiveRefreshToken
  cases response.refreshToken with
  | none => exact ⟨rfl, rfl, rfl⟩
  | some token =>
    dsimp only
    split
    · rename_i hkept
      refine ⟨?_, rfl, rfl⟩
      by_cases hempty : token = ""
      · simp [Option.filter, hempty]
      · simp [Option.filter, hempty, hkept.resolve_left hempty]
    · rename_i hnew
      refine ⟨?_, rfl, rfl⟩
      simp [Option.filter, not_or.mp hnew]

/-- What a service has after an answer are the tokens it brought, or else those it had. -/
theorem receive_spec (answer : Except String SecureTokenResponse) (n : Nat) :
    (s.receive now answer).1.accessToken = (TokenStep.responded n answer).accessToken.or s.accessToken ∧
      (s.receive now answer).1.refreshToken =
        (TokenStep.responded n answer).refreshToken.or s.refreshToken ∧
      (s.receive now answer).1.authorizationCode = s.authorizationCode := by
  cases answer with
  | error e => exact ⟨rfl, rfl, rfl⟩
  | ok response =>
    obtain ⟨haccess, hrefresh, hcode⟩ := receiveAccessToken_spec s now response
    obtain ⟨hrefresh', haccess', hcode'⟩ :=
      receiveRefreshToken_spec (s.receiveAccessToken now response).1 response
    exact ⟨haccess'.trans haccess, hrefresh'.trans (by rw [hrefresh]; rfl), hcode'.trans hcode⟩

end SecureTokenService

namespace TokenFetches
variable {s t : TokenFetches}

/-- A task hands out the cached token at once, or leaves a request. -/
theorem step_runTask (hs : s.queue.Serial) (h : s.step .runTask = some t) :
    ∃ fetch waiting, s.queue.waiting = fetch :: waiting ∧ s.queue.running = [] ∧
      ((s.service.hasValidAccessToken s.now = true ∧
        t = { s with
          queue := { waiting := waiting, completed := s.queue.completed ++ [fetch] }
          callbacks := s.callbacks ++ [⟨fetch, s.service.accessToken, none, false⟩] }) ∨
      t = { s with
        queue := { s.queue with waiting := waiting, suspensions := 1, running := [fetch] }
        requests := s.requests ++ [s.service.request] }) := by
  obtain ⟨queue, hqueue, h⟩ := Option.bind_eq_some_iff.mp h
  obtain ⟨fetch, waiting, hwaiting, hnone, rfl⟩ := SerialQueue.step_start hqueue
  have hrunning := hs.running_eq_nil hnone
  refine ⟨fetch, waiting, hwaiting, hrunning, ?_⟩
  simp only [hrunning, List.nil_append, List.getLast?_singleton, Option.bind_some, start] at h
  split at h
  · rename_i hvalid
    obtain ⟨queue, hcomplete, rfl⟩ := Option.map_eq_some_iff.mp h
    obtain rfl := Option.some.inj hcomplete
    exact Or.inl ⟨hvalid.2, rfl⟩
  · exact Or.inr (Option.some.inj h).symm

theorem step_responded (hs : s.queue.Serial) {n : Nat} {answer : Except String SecureTokenResponse}
    (h : s.step (.responded n answer) = some t) :
    ∃ fetch, n = 0 ∧ s.queue.running = [fetch] ∧ t = s.respond 0 fetch
      { s.queue with suspensions := 0, running := [], completed := s.queue.completed ++ [fetch] }
        answer := by
  obtain ⟨fetch, hfetch, h⟩ := Option.bind_eq_some_iff.mp h
  obtain ⟨queue, hqueue, rfl⟩ := Option.map_eq_some_iff.mp h
  obtain ⟨task, hrunning, rfl⟩ := hs.complete hqueue
  rw [hrunning] at hfetch
  obtain ⟨hn, rfl⟩ := List.getElem?_eq_some_iff.mp hfetch
  obtain rfl : n = 0 := Nat.lt_one_iff.mp hn
  exact ⟨_, rfl, hrunning, rfl⟩

/-! ## What holds in every run -/

/-- After these steps, from a service that had the tokens of `first`. -/
structure Tracks (first : SecureTokenService) (steps : List TokenStep) (s : TokenFetches) : Prop where
  serial : s.queue.Serial
  tasks : s.queue.tasks = fetched steps
  callbacks : s.callbacks.map FetchCallback.fetch = s.queue.completed
  requests : s.requests = s.queue.running.map fun _ => s.service.request
  accessToken : s.service.accessToken = newest TokenStep.accessToken first.accessToken steps
  refreshToken : s.service.refreshToken = newest TokenStep.refreshToken first.refreshToken steps
  authorizationCode : s.service.authorizationCode = first.authorizationCode

theorem fetched_snoc (steps : List TokenStep) (a : TokenStep) :
    fetched (steps ++ [a]) = fetched steps ++ fetched [a] := List.filterMap_append

theorem Tracks.step {first : SecureTokenService} {steps : List TokenStep} {a : TokenStep}
    (h : Tracks first steps s) (hstep : s.step a = some t) : Tracks first (steps ++ [a]) t := by
  cases a with
  | fetchAccessToken fetch =>
    obtain rfl := Option.some.inj hstep
    have hqueue : s.queue.step (.enqueue fetch) =
        some { s.queue with waiting := s.queue.waiting ++ [fetch] } := rfl
    refine ⟨h.serial.step hqueue, ?_, h.callbacks, h.requests, ?_, ?_, h.authorizationCode⟩
    · rw [fetched_snoc, ← h.tasks]
      exact h.serial.tasks_step hqueue
    · rw [newest_snoc]
      exact h.accessToken
    · rw [newest_snoc]
      exact h.refreshToken
  | wait seconds =>
    obtain rfl := Option.some.inj hstep
    refine ⟨h.serial, ?_, h.callbacks, h.requests, ?_, ?_, h.authorizationCode⟩
    · rw [fetched_snoc]
      exact h.tasks.trans (List.append_nil _).symm
    · rw [newest_snoc]
      exact h.accessToken
    · rw [newest_snoc]
      exact h.refreshToken
  | runTask =>
    have htasks := h.tasks
    have hrequests := h.requests
    obtain ⟨fetch, waiting, hwaiting, hrunning, ⟨_, rfl⟩ | rfl⟩ := step_runTask h.serial hstep
    · refine ⟨⟨rfl, Nat.zero_le _⟩, ?_, ?_, ?_, ?_, ?_, h.authorizationCode⟩
      · rw [fetched_snoc, ← htasks]
        simp [SerialQueue.tasks, fetched, hwaiting, hrunning]
      · simp [h.callbacks]
      · simpa [hrunning] using hrequests
      · rw [newest_snoc]
        exact h.accessToken
      · rw [newest_snoc]
        exact h.refreshToken
    · refine ⟨⟨rfl, Nat.le_refl _⟩, ?_, h.callbacks, ?_, ?_, ?_, h.authorizationCode⟩
      · rw [fetched_snoc, ← htasks]
        simp [SerialQueue.tasks, fetched, hwaiting, hrunning]
      · rw [hrunning, List.map_nil] at hrequests
        rw [hrequests]
        rfl
      · rw [newest_snoc]
        exact h.accessToken
      · rw [newest_snoc]
        exact h.refreshToken
  | responded n answer =>
    have htasks := h.tasks
    obtain ⟨fetch, rfl, hrunning, rfl⟩ := step_responded h.serial hstep
    obtain ⟨haccess, hrefresh, hcode⟩ :=
      SecureTokenService.receive_spec s.service s.now answer 0
    refine ⟨⟨rfl, Nat.zero_le _⟩, ?_, ?_, ?_, ?_, ?_, hcode.trans h.authorizationCode⟩
    · rw [fetched_snoc, ← htasks]
      simp [SerialQueue.tasks, fetched, respond, hrunning]
    · cases answer <;> simp [respond, h.callbacks, answered]
    · simp [respond, h.requests, hrunning]
    · rw [newest_snoc, ← h.accessToken]
      exact haccess
    · rw [newest_snoc, ← h.refreshToken]
      exact hrefresh

theorem run_tracks {first : SecureTokenService} {now : Nat} {steps : List TokenStep}
    (hrun : run TokenFetches.step ⟨first, now, {}, [], []⟩ steps = some s) : Tracks first steps s := by
  refine run_induction (P := Tracks first) ?_ ?_ steps s hrun
  · exact ⟨SerialQueue.serial_empty, rfl, rfl, rfl, rfl, rfl, rfl⟩
  · exact fun _ _ _ _ _ htracks hstep => htracks.step hstep

/-- Calls get their callbacks once and in the order in which they were made, those that have none yet
are under way or wait, and one request is under way at most. -/
theorem run_callbacks (first : SecureTokenService) (now : Nat) (steps : List TokenStep) (s : TokenFetches)
    (hrun : run TokenFetches.step ⟨first, now, {}, [], []⟩ steps = some s) :
    s.callbacks.map FetchCallback.fetch ++ s.queue.running ++ s.queue.waiting = fetched steps ∧
      s.requests.length = s.queue.running.length ∧ s.requests.length ≤ 1 := by
  have h := run_tracks hrun
  have hlength : s.requests.length = s.queue.running.length := by rw [h.requests, List.length_map]
  refine ⟨?_, hlength, hlength.le.trans h.serial.atMostOne⟩
  rw [h.callbacks]
  exact h.tasks

/-- Two calls: the first one asks the server, and the second one is handed what it got. -/
def twoFetches : List TokenStep :=
  [.fetchAccessToken ⟨1, false⟩, .fetchAccessToken ⟨2, false⟩, .runTask,
    .responded 0 (.ok ⟨"access", some "second", 3600, by decide⟩), .wait 60, .runTask]

theorem twoFetches_callbacks : ∃ s : TokenFetches,
    run TokenFetches.step ⟨{ refreshToken := some "first" }, 0, {}, [], []⟩ twoFetches = some s ∧
      s.callbacks.map FetchCallback.fetch ++ s.queue.running ++ s.queue.waiting =
        [⟨1, false⟩, ⟨2, false⟩] ∧ s.requests.length = s.queue.running.length ∧ s.requests.length ≤ 1 := by
  obtain ⟨s, hs⟩ : ∃ s, run TokenFetches.step ⟨{ refreshToken := some "first" }, 0, {}, [], []⟩
      twoFetches = some s := ⟨_, rfl⟩
  exact ⟨s, hs, run_callbacks _ 0 twoFetches s hs⟩

/-- Whatever is sent or handed out is the newest: a request has the last refresh token that the server
has issued, and a token that a callback gets is the last access token that it has. -/
theorem run_newest (first : SecureTokenService) (now : Nat) (steps : List TokenStep) (s : TokenFetches)
    (hrun : run TokenFetches.step ⟨first, now, {}, [], []⟩ steps = some s) :
    (∀ r ∈ s.requests, r = SecureTokenService.request
      { first with refreshToken := newest TokenStep.refreshToken first.refreshToken steps }) ∧
    ∀ a t c token, s.step a = some t → t.callbacks = s.callbacks ++ [c] → c.token = some token →
      newest TokenStep.accessToken first.accessToken (steps ++ [a]) = some token := by
  have h := run_tracks hrun
  constructor
  · intro r hr
    rw [h.requests] at hr
    obtain ⟨_, _, rfl⟩ := List.mem_map.mp hr
    simp only [SecureTokenService.request, h.refreshToken, h.authorizationCode]
  · intro a t c token hstep hcallbacks htoken
    have hsame : t.callbacks ≠ s.callbacks := by
      rw [hcallbacks]
      simp
    cases a with
    | fetchAccessToken fetch | wait seconds =>
      obtain rfl := Option.some.inj hstep
      exact absurd rfl hsame
    | runTask =>
      obtain ⟨fetch, waiting, _, _, ⟨_, rfl⟩ | rfl⟩ := step_runTask h.serial hstep
      · obtain rfl := List.singleton_inj.mp (List.append_cancel_left hcallbacks)
        rw [newest_snoc, ← h.accessToken]
        exact htoken
      · exact absurd rfl hsame
    | responded n answer =>
      obtain ⟨fetch, rfl, _, rfl⟩ := step_responded h.serial hstep
      obtain rfl := List.singleton_inj.mp (List.append_cancel_left hcallbacks)
      rw [newest_snoc]
      cases answer with
      | error e => cases htoken
      | ok response =>
        obtain rfl := Option.some.inj htoken
        rfl

/-- The first call is under way, and then answered. -/
theorem twoFetches_newest : ∃ s : TokenFetches,
    run TokenFetches.step ⟨{ refreshToken := some "first" }, 0, {}, [], []⟩ (twoFetches.take 3) = some s ∧
      (∀ r ∈ s.requests, r = .refreshRequest "first") ∧
      newest TokenStep.accessToken none (twoFetches.take 4) = some "access" := by
  obtain ⟨s, hs⟩ : ∃ s, run TokenFetches.step ⟨{ refreshToken := some "first" }, 0, {}, [], []⟩
      (twoFetches.take 3) = some s := ⟨_, rfl⟩
  obtain ⟨hrequests, htoken⟩ := run_newest _ 0 (twoFetches.take 3) s hs
  refine ⟨s, hs, fun r hr => (hrequests r hr).trans rfl, ?_⟩
  obtain rfl := Option.some.inj hs
  exact htoken (.responded 0 (.ok ⟨"access", some "second", 3600, by decide⟩)) _
    ⟨⟨1, false⟩, some "access", none, true⟩ "access" rfl rfl rfl

/-! ## Every call gets its callback -/

/-- The server answers a request as it likes, by what has happened and by what it is asked. -/
abbrev Answers := List TokenStep → SecureTokenRequest → Except String SecureTokenResponse

/-- The queue runs its tasks, and the request that is open is answered. -/
def Serves (answers : Answers) (s : TokenFetches) (later : List TokenStep) : Prop :=
  EveryStep TokenFetches.step s later fun past t a =>
    a = .runTask ∨ ∃ r, t.requests = [r] ∧ a = .responded 0 (answers past r)

section Drain

theorem Serves.append {answers : Answers} {before later : List TokenStep} (h : Serves answers s before)
    (hrun : run TokenFetches.step s before = some t)
    (hlater : Serves (fun past => answers (before ++ past)) t later) : Serves answers s (before ++ later) :=
  (everyStep_append hrun).mpr ⟨h, hlater⟩

/-- Nobody calls while the queue is served. -/
theorem Serves.fetched_eq_nil {answers : Answers} {later : List TokenStep} (h : Serves answers s later)
    (hrun : run TokenFetches.step s later = some t) : fetched later = [] := by
  induction later generalizing s answers with
  | nil => rfl
  | cons a later ih =>
    obtain ⟨m, ha, hrest⟩ := Option.bind_eq_some_iff.mp hrun
    obtain ⟨hfirst, hlater⟩ := (everyStep_cons ha).mp h
    have hnone : fetched [a] = [] := by
      rcases hfirst with rfl | ⟨r, _, rfl⟩ <;> rfl
    have hrest := ih (s := m) hlater hrest
    rw [← List.singleton_append, fetched, List.filterMap_append, ← fetched, ← fetched, hnone, hrest,
      List.append_nil]

/-- No task is under way and no request is open. -/
structure Idle (s : TokenFetches) : Prop where
  serial : s.queue.Serial
  running : s.queue.running = []
  requests : s.requests = []

/-- The task under way is answered. -/
theorem exists_responded (answers : Answers) (hs : s.queue.Serial) {fetch : Fetch}
    (hrunning : s.queue.running = [fetch]) {r : SecureTokenRequest} (hrequests : s.requests = [r]) :
    ∃ later t, Serves answers s later ∧ run TokenFetches.step s later = some t ∧ t.Idle ∧
      t.queue.waiting = s.queue.waiting := by
  have hcomplete : ∃ queue, s.queue.step (.complete 0) = some queue := by
    rw [SerialQueue.step, hrunning]
    exact ⟨_, rfl⟩
  obtain ⟨queue, hqueue⟩ := hcomplete
  have hstep : s.step (.responded 0 (answers [] r)) = some (s.respond 0 fetch queue (answers [] r)) := by
    rw [step, hrunning, hqueue]
    rfl
  obtain ⟨_, _, hempty⟩ := hs.complete hqueue
  refine ⟨[.responded 0 (answers [] r)], _, ?_, by rw [run_cons, hstep]; rfl, ⟨?_, ?_, ?_⟩, ?_⟩
  · exact (everyStep_cons hstep).mpr ⟨Or.inr ⟨r, hrequests, rfl⟩, everyStep_nil⟩
  · exact hs.step hqueue
  · rw [respond, hempty]
  · rw [respond, hrequests]
    rfl
  · rw [respond, hempty]

/-- The first task that waits is run, and answered if it has to be. -/
theorem exists_served (answers : Answers) (hs : s.Idle) {fetch : Fetch} {waiting : List Fetch}
    (hwaiting : s.queue.waiting = fetch :: waiting) :
    ∃ later t, Serves answers s later ∧ run TokenFetches.step s later = some t ∧ t.Idle ∧
      t.queue.waiting = waiting := by
  have hstart := hs.serial.start hs.running hwaiting
  have hrun : ∃ t, s.step .runTask = some t := by
    rw [step, hstart, Option.bind_some, List.getLast?_singleton, Option.bind_some, start]
    split
    · exact ⟨_, rfl⟩
    · exact ⟨_, rfl⟩
  obtain ⟨t, ht⟩ := hrun
  have hone : run TokenFetches.step s [.runTask] = some t := by rw [run_cons, ht]; rfl
  have hserves : Serves answers s [.runTask] := (everyStep_cons ht).mpr ⟨Or.inl rfl, everyStep_nil⟩
  obtain ⟨fetch', waiting', hwaiting', _, hcases⟩ := step_runTask hs.serial ht
  obtain ⟨rfl, rfl⟩ := List.cons_eq_cons.mp (hwaiting.symm.trans hwaiting')
  rcases hcases with ⟨_, heq⟩ | heq
  · refine ⟨[.runTask], t, hserves, hone, ?_⟩
    rw [heq]
    exact ⟨⟨⟨rfl, Nat.zero_le _⟩, rfl, hs.requests⟩, rfl⟩
  · have hserial : t.queue.Serial := by
      rw [heq]
      exact ⟨rfl, Nat.le_refl _⟩
    have hrequests : t.requests = [s.service.request] := by rw [heq, hs.requests, List.nil_append]
    obtain ⟨later, u, hlater, hu, hidle, hrest⟩ :=
      exists_responded (fun past => answers ([.runTask] ++ past)) hserial (by rw [heq]) hrequests
    refine ⟨[.runTask] ++ later, u, hserves.append hone hlater, ?_, hidle, hrest.trans (by rw [heq])⟩
    rw [run_append, hone, Option.bind_some, hu]

theorem exists_drained (answers : Answers) (hs : s.Idle) :
    ∃ later t, Serves answers s later ∧ run TokenFetches.step s later = some t ∧
      t.queue.running = [] ∧ t.queue.waiting = [] := by
  induction hwaiting : s.queue.waiting generalizing s answers with
  | nil => exact ⟨[], s, everyStep_nil, rfl, hs.running, hwaiting⟩
  | cons fetch waiting ih =>
    obtain ⟨before, t, hbefore, hrun, ht, hrest⟩ := exists_served answers hs hwaiting
    obtain ⟨later, u, hlater, hrun', hu⟩ := ih (fun past => answers (before ++ past)) ht hrest
    refine ⟨before ++ later, u, hbefore.append hrun hlater, ?_, hu⟩
    rw [run_append, hrun, Option.bind_some, hrun']

/-- From every state that is reached, whatever the server answers, the queue gets to a state in which
all calls made so far have got their callbacks, in order: no answer and no failure blocks a later call. -/
theorem run_drained (answers : Answers) (first : SecureTokenService) (now : Nat) (steps : List TokenStep)
    (s : TokenFetches) (hrun : run TokenFetches.step ⟨first, now, {}, [], []⟩ steps = some s) :
    ∃ later t, Serves answers s later ∧ run TokenFetches.step s later = some t ∧
      t.callbacks.map FetchCallback.fetch = fetched steps := by
  have h := run_tracks hrun
  -- What is under way is answered first.
  obtain ⟨before, m, hbefore, hm, hidle⟩ : ∃ before m, Serves answers s before ∧
      run TokenFetches.step s before = some m ∧ m.Idle := by
    have hrequests := h.requests
    cases hrunning : s.queue.running with
    | nil =>
      rw [hrunning] at hrequests
      exact ⟨[], s, everyStep_nil, rfl, h.serial, hrunning, hrequests⟩
    | cons fetch rest =>
      have hone := h.serial.atMostOne
      rw [hrunning] at hone
      obtain rfl : rest = [] := List.length_eq_zero_iff.mp (Nat.le_zero.mp (Nat.le_of_succ_le_succ hone))
      rw [hrunning] at hrequests
      obtain ⟨before, m, hbefore, hm, hidle, _⟩ := exists_responded answers h.serial hrunning hrequests
      exact ⟨before, m, hbefore, hm, hidle⟩
  obtain ⟨later, t, hlater, ht, hrunning, hwaiting⟩ :=
    exists_drained (fun past => answers (before ++ past)) hidle
  have hserves := hbefore.append hm hlater
  have hrun' : run TokenFetches.step s (before ++ later) = some t := by
    rw [run_append, hm, Option.bind_some, ht]
  refine ⟨before ++ later, t, hserves, hrun', ?_⟩
  have hall : Tracks first (steps ++ (before ++ later)) t := by
    apply run_tracks
    rw [run_append, hrun, Option.bind_some, hrun']
  have htasks := hall.tasks
  rw [fetched, List.filterMap_append, ← fetched, ← fetched, hserves.fetched_eq_nil hrun', List.append_nil,
    SerialQueue.tasks, hrunning, hwaiting, List.append_nil, List.append_nil] at htasks
  rw [hall.callbacks, htasks]

/-- No request is ever answered with a token here, and still both calls get their callbacks. -/
theorem twoFetches_drained : ∃ (s : TokenFetches) (later : List TokenStep) (t : TokenFetches),
    run TokenFetches.step ⟨{ refreshToken := some "first" }, 0, {}, [], []⟩ (twoFetches.take 3) = some s ∧
      Serves (fun _ _ => .error "no network") s later ∧ run TokenFetches.step s later = some t ∧
        t.callbacks.map FetchCallback.fetch = [⟨1, false⟩, ⟨2, false⟩] := by
  obtain ⟨s, hs⟩ : ∃ s, run TokenFetches.step ⟨{ refreshToken := some "first" }, 0, {}, [], []⟩
      (twoFetches.take 3) = some s := ⟨_, rfl⟩
  obtain ⟨later, t, hlater, ht, hcallbacks⟩ := run_drained (fun _ _ => .error "no network") _ 0 _ s hs
  exact ⟨s, later, t, hs, hlater, ht, hcallbacks⟩

end Drain

end TokenFetches

end SantaIWish
