/-!
# Serial task queues

Tasks start in the order in which they were enqueued. A task suspends the queue as it
starts, and resumes it when it completes, which may be at any later moment. So at most
one of them is under way, they complete in order, and none is left behind as long as
each completes.
-/

set_option autoImplicit false

universe u

structure SerialQueue (T : Type u) where
  waiting : List T := []
  suspensions : Nat := 0
  /-- Started, and not completed yet. -/
  running : List T := []
  completed : List T := []
  deriving DecidableEq

namespace SerialQueue

inductive Step (T : Type u) where
  | enqueue (task : T)
  | start
  | complete (n : Nat)

variable {T : Type u}

def step (s : SerialQueue T) : Step T → Option (SerialQueue T)
  | .enqueue task => some { s with waiting := s.waiting ++ [task] }
  | .start =>
    match s.waiting with
    | [] => none
    | task :: waiting =>
      if s.suspensions = 0 then
        some { s with
          waiting := waiting, suspensions := s.suspensions + 1, running := s.running ++ [task] }
      else none
  | .complete n =>
    s.running[n]?.map fun task =>
      { s with
        suspensions := s.suspensions - 1
        running := s.running.eraseIdx n
        completed := s.completed ++ [task] }

def enqueued (steps : List (Step T)) : List T :=
  steps.filterMap fun
    | .enqueue task => some task
    | _ => none

/-- A suspension for the task that is under way, if there is one. -/
structure Serial (s : SerialQueue T) : Prop where
  suspensions : s.suspensions = s.running.length
  atMostOne : s.running.length ≤ 1

/-- All tasks, in the order in which they complete. -/
def tasks (s : SerialQueue T) : List T := s.completed ++ s.running ++ s.waiting

section Run
variable {s t : SerialQueue T} {a : Step T}

theorem serial_empty : Serial ({} : SerialQueue T) := ⟨rfl, Nat.zero_le _⟩

theorem step_start (h : s.step .start = some t) : ∃ task waiting, s.waiting = task :: waiting ∧
    s.suspensions = 0 ∧
      t = { s with waiting := waiting, suspensions := 1, running := s.running ++ [task] } := by
  simp only [step] at h
  split at h
  · cases h
  · rename_i task waiting hwaiting
    split at h
    · rename_i hnone
      obtain rfl := Option.some.inj h
      exact ⟨task, waiting, hwaiting, hnone, by rw [hnone]⟩
    · cases h

theorem Serial.running_eq_nil (h : s.Serial) (hnone : s.suspensions = 0) : s.running = [] :=
  List.length_eq_zero_iff.mp (h.suspensions.symm.trans hnone)

/-- Only the one task under way can complete. -/
theorem Serial.complete (h : s.Serial) {n : Nat} (hstep : s.step (.complete n) = some t) :
    ∃ task, s.running = [task] ∧
      t = { s with suspensions := 0, running := [], completed := s.completed ++ [task] } := by
  obtain ⟨task, htask, rfl⟩ := Option.map_eq_some_iff.mp hstep
  obtain ⟨hn, rfl⟩ := List.getElem?_eq_some_iff.mp htask
  obtain ⟨task, hrunning⟩ : ∃ task, s.running = [task] :=
    List.length_eq_one_iff.mp (Nat.le_antisymm h.atMostOne (Nat.lt_of_le_of_lt (Nat.zero_le n) hn))
  obtain rfl : n = 0 := by
    rw [hrunning] at hn
    exact Nat.lt_one_iff.mp hn
  refine ⟨task, hrunning, ?_⟩
  simp [h.suspensions, hrunning]

theorem Serial.step (h : s.Serial) (hstep : s.step a = some t) : t.Serial := by
  cases a with
  | enqueue task =>
    obtain rfl := Option.some.inj hstep
    exact ⟨h.suspensions, h.atMostOne⟩
  | start =>
    obtain ⟨task, waiting, _, hnone, rfl⟩ := step_start hstep
    rw [h.running_eq_nil hnone]
    exact ⟨rfl, Nat.le_refl _⟩
  | complete n =>
    obtain ⟨task, _, rfl⟩ := h.complete hstep
    exact ⟨rfl, Nat.zero_le _⟩

theorem Serial.tasks_step (h : s.Serial) (hstep : s.step a = some t) :
    t.tasks = s.tasks ++ enqueued [a] := by
  cases a with
  | enqueue task =>
    obtain rfl := Option.some.inj hstep
    simp [tasks, enqueued]
  | start =>
    obtain ⟨task, waiting, hwaiting, _, rfl⟩ := step_start hstep
    simp [tasks, enqueued, hwaiting]
  | complete n =>
    obtain ⟨task, hrunning, rfl⟩ := h.complete hstep
    simp [tasks, enqueued, hrunning]

/-- A task that waits can start unless another one is under way. -/
theorem Serial.start (h : s.Serial) (hrunning : s.running = []) {task : T} {waiting : List T}
    (hwaiting : s.waiting = task :: waiting) : s.step .start =
      some { s with waiting := waiting, suspensions := 1, running := [task] } := by
  have hnone : s.suspensions = 0 := by rw [h.suspensions, hrunning, List.length_nil]
  simp [SerialQueue.step, hwaiting, hnone, hrunning]

end Run

end SerialQueue
