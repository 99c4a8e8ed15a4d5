import SantaIWish.Library.Runs

/-!
# Calls with a completion handler

A call invokes some completions before it returns and may leave one task in
flight; the answer to the task runs a handler that invokes further completions.
Answers to different calls arrive in any order. The machine records, for each
call, its events in the order they happened.
-/

set_option autoImplicit false

universe u v w x

namespace AsyncCalls

/-- What a call does before it returns: `Q` requests, `R` answers, `C` completion values. -/
structure Started (Q : Type u) (R : Type v) (C : Type w) where
  completions : List C
  task : Option (Q × (R → List C))

namespace Started
variable {Q : Type u} {R : Type v} {C : Type w}

/-- The call returns without leaving a task in flight. -/
def returning (completions : List C) : Started Q R C := ⟨completions, none⟩

/-- The call resumes a task for `request` and has invoked no completion. -/
def resuming (request : Q) (handler : R → List C) : Started Q R C := ⟨[], some (request, handler)⟩

def request (s : Started Q R C) : Option Q := s.task.map Prod.fst

/-- The call neither invoked a completion nor left a task that could. -/
def Dropped (s : Started Q R C) : Prop := s.completions = [] ∧ s.task = none

/-- The same call seen through a translation of its completion values. -/
def map {D : Type x} (f : C → D) (s : Started Q R C) : Started Q R D :=
  ⟨s.completions.map f, s.task.map fun t => (t.1, fun r => (t.2 r).map f)⟩

end Started

inductive Event (R : Type v) (C : Type w) where
  | completed (c : C)
  | answered (r : R)

namespace Event
variable {R : Type v} {C : Type w}

def isCompletion : Event R C → Bool
  | completed _ => true
  | answered _ => false

end Event

variable {K : Type x} {Q : Type u} {R : Type v} {C : Type w}

/-- A call that has been made: what was called, its events so far and its task, if still in flight. -/
structure Call (K : Type x) (Q : Type u) (R : Type v) (C : Type w) where
  kind : K
  events : List (Event R C)
  answer : Option R
  task : Option (Q × (R → List C))

inductive Step (K : Type x) (R : Type v) where
  | call (kind : K)
  | answer (i : Nat) (r : R)

section Machine
variable (start : K → Started Q R C)

def Call.begin (kind : K) : Call K Q R C :=
  ⟨kind, (start kind).completions.map .completed, none, (start kind).task⟩

/-- The answer to the task in flight runs its handler, once. -/
def Call.receive (c : Call K Q R C) (r : R) : Option (Call K Q R C) :=
  match c.task with
  | some (_, handler) => some { c with
      events := c.events ++ .answered r :: (handler r).map .completed
      answer := some r
      task := none }
  | none => none

def step (calls : List (Call K Q R C)) : Step K R → Option (List (Call K Q R C))
  | .call kind => some (calls ++ [Call.begin start kind])
  | .answer i r => (calls[i]?).bind fun c => (c.receive r).map fun c' => calls.set i c'

/-- Where a call can stand: its task in flight, answered by `r`, or never resumed. -/
inductive Progress (c : Call K Q R C) : Prop where
  | idle (htask : c.task = none) (hanswer : c.answer = none) (hstart : (start c.kind).task = none)
      (hevents : c.events = (start c.kind).completions.map .completed)
  | waiting (htask : c.task = (start c.kind).task) (hanswer : c.answer = none)
      (hevents : c.events = (start c.kind).completions.map .completed)
  | finished (request : Q) (handler : R → List C) (r : R) (htask : c.task = none)
      (hanswer : c.answer = some r) (hstart : (start c.kind).task = some (request, handler))
      (hevents : c.events = (start c.kind).completions.map .completed ++
        .answered r :: (handler r).map .completed)

variable {start}

theorem progress_begin (kind : K) : Progress start (Call.begin start kind) :=
  .waiting rfl rfl rfl

theorem progress_receive {c c' : Call K Q R C} {r : R} (hc : Progress start c)
    (h : c.receive r = some c') : Progress start c' := by
  cases htask : c.task with
  | none => simp [Call.receive, htask] at h
  | some t =>
    obtain ⟨request, handler⟩ := t
    simp only [Call.receive, htask, Option.some.injEq] at h
    subst c'
    cases hc with
    | idle htask' => simp [htask] at htask'
    | finished _ _ _ htask' => simp [htask] at htask'
    | waiting htask' hanswer hevents =>
      exact .finished request handler r rfl rfl (htask'.symm.trans htask) (by simp [hevents])

theorem progress_step {calls calls' : List (Call K Q R C)} {a : Step K R}
    (h : ∀ c ∈ calls, Progress start c) (hstep : step start calls a = some calls') :
    ∀ c ∈ calls', Progress start c := by
  intro c hc
  cases a with
  | call kind =>
    obtain rfl : calls ++ [Call.begin start kind] = calls' := by simpa [step] using hstep
    rcases List.mem_append.mp hc with hc | hc
    · exact h c hc
    · obtain rfl := List.mem_singleton.mp hc
      exact progress_begin kind
  | answer i r =>
    simp only [step, Option.bind_eq_some_iff, Option.map_eq_some_iff] at hstep
    obtain ⟨d, hd, d', hd', rfl⟩ := hstep
    rcases List.mem_or_eq_of_mem_set hc with hc | rfl
    · exact h c hc
    · exact progress_receive (h d (List.mem_of_getElem? hd)) hd'

theorem run_progress {as : List (Step K R)} {calls : List (Call K Q R C)}
    (hrun : Runs.run (step start) [] as = some calls) : ∀ c ∈ calls, Progress start c :=
  Runs.run_invariant (I := fun calls => ∀ c ∈ calls, Progress start c) (by simp)
    (fun _ _ _ => progress_step) hrun

end Machine

section Protocol
variable (succeeds : C → Bool) (good : R → Prop)

def CompletesOnce (events : List (Event R C)) : Prop :=
  (events.filter Event.isCompletion).length = 1

instance (events : List (Event R C)) : Decidable (CompletesOnce events) :=
  inferInstanceAs (Decidable (_ = 1))

/-- Success is reported only after an answer that allows it. -/
def SuccessAnswered (events : List (Event R C)) : Prop :=
  ∀ before c after, events = before ++ .completed c :: after → succeeds c = true →
    ∃ r, Event.answered r ∈ before ∧ good r

/-- The completion protocol of one call. -/
def Protocol (events : List (Event R C)) : Prop :=
  CompletesOnce events ∧ SuccessAnswered succeeds good events

variable {succeeds good}

@[simp] theorem filter_completed (cs : List C) :
    (cs.map (Event.completed (R := R))).filter Event.isCompletion = cs.map .completed := by
  simp [List.filter_eq_self, Event.isCompletion]

/-- A call that resumes no task may only report one failure. -/
theorem protocol_idle_iff (cs : List C) :
    Protocol succeeds good (cs.map (Event.completed (R := R))) ↔
      ∃ c, cs = [c] ∧ succeeds c = false := by
  constructor
  · intro hh
    obtain ⟨honce, hsuccess⟩ := hh
    obtain ⟨c, rfl⟩ : ∃ c, cs = [c] := by simpa [CompletesOnce, List.length_eq_one_iff] using honce
    refine ⟨c, rfl, ?_⟩
    by_contra hc
    obtain ⟨r, hr, _⟩ := hsuccess [] c [] rfl (by simpa using hc)
    simp at hr
  · intro hh
    obtain ⟨c, rfl, hc⟩ := hh
    refine ⟨by simp [CompletesOnce, List.filter_cons, Event.isCompletion], ?_⟩
    intro before d after heq hd
    obtain ⟨rfl, hdc⟩ : before = [] ∧ d = c := by
      cases before <;> simp_all
    simp [hdc, hc] at hd

/-- A call whose task was answered by `r` completes once, and not with a success unless `r` allows it. -/
theorem protocol_finished_iff (cs ds : List C) (r : R) :
    Protocol succeeds good
        (cs.map (Event.completed (R := R)) ++ .answered r :: ds.map .completed) ↔
      (∃ c, cs = [c] ∧ ds = [] ∧ succeeds c = false) ∨
      (∃ d, cs = [] ∧ ds = [d] ∧ (succeeds d = true → good r)) := by
  constructor
  · intro hh
    obtain ⟨honce, hsuccess⟩ := hh
    have hlen : cs.length + ds.length = 1 := by
      simpa [CompletesOnce, List.filter_append, Event.isCompletion] using honce
    cases cs with
    | nil =>
      obtain ⟨d, rfl⟩ : ∃ d, ds = [d] := by simpa [List.length_eq_one_iff] using hlen
      refine Or.inr ⟨d, rfl, rfl, fun hd => ?_⟩
      obtain ⟨r', hr', hgood⟩ := hsuccess [.answered r] d [] rfl hd
      obtain rfl : r' = r := by simpa using hr'
      exact hgood
    | cons c cs =>
      obtain ⟨rfl, rfl⟩ : cs = [] ∧ ds = [] := by
        simp only [List.length_cons] at hlen
        exact ⟨List.length_eq_zero_iff.mp (by omega), List.length_eq_zero_iff.mp (by omega)⟩
      refine Or.inl ⟨c, rfl, rfl, ?_⟩
      by_contra hc
      obtain ⟨r', hr', _⟩ := hsuccess [] c [.answered r] rfl (by simpa using hc)
      simp at hr'
  · intro hh
    rcases hh with ⟨c, rfl, rfl, hc⟩ | ⟨d, rfl, rfl, hd⟩
    · refine ⟨by simp [CompletesOnce, List.filter_cons, Event.isCompletion], ?_⟩
      intro before e after heq he
      rcases before with _ | ⟨b, _ | ⟨b', before⟩⟩ <;> simp_all
    · refine ⟨by simp [CompletesOnce, List.filter_cons, Event.isCompletion], ?_⟩
      intro before e after heq he
      obtain ⟨rfl, rfl⟩ : before = [.answered r] ∧ e = d := by
        rcases before with _ | ⟨b, _ | ⟨b', before⟩⟩ <;> simp_all
      exact ⟨r, by simp, hd he⟩

end Protocol

end AsyncCalls
