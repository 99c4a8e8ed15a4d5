/-!
# Navigation stacks

Screens that were pushed one over the other; the first one stays. A screen is told when
it comes to the top. What holds of each screen and the one below it is kept by whatever
can happen to the stack, as long as coming to the top does not matter for it.
-/

set_option autoImplicit false

universe u

structure NavigationStack (α : Type u) where
  top : α
  below : List α := []
  deriving DecidableEq

namespace NavigationStack

variable {α : Type u} (appear : α → α)

/-- The screens, the top one first. -/
def screens (s : NavigationStack α) : List α := s.top :: s.below

def push (x : α) (s : NavigationStack α) : NavigationStack α := ⟨appear x, s.screens⟩

/-- The first screen is never popped. -/
def pop (s : NavigationStack α) : NavigationStack α :=
  match s.below with
  | [] => s
  | x :: below => ⟨appear x, below⟩

/-- The screen that was there first. -/
def root (s : NavigationStack α) : α := s.screens.getLast (List.cons_ne_nil _ _)

def popToRoot (s : NavigationStack α) : NavigationStack α := ⟨appear s.root, []⟩

variable {appear} {s : NavigationStack α} {x : α}

theorem root_mem : s.root ∈ s.screens := List.getLast_mem _

theorem top_mem : s.top ∈ s.screens := List.mem_cons_self

/-- Popping gives up the top screen, if it is not the first one. -/
theorem pop_cases (appear : α → α) (s : NavigationStack α) :
    s.pop appear = s ∨
      ∃ x below, s.screens = s.top :: x :: below ∧ s.pop appear = ⟨appear x, below⟩ := by
  unfold pop
  split
  · exact Or.inl rfl
  · rename_i x below hbelow
    exact Or.inr ⟨x, below, by rw [screens, hbelow], rfl⟩

theorem screens_pop {y : α} {below : List α} (h : s.screens = x :: y :: below) :
    (s.pop appear).screens = appear y :: below := by
  have hbelow : s.below = y :: below := (List.cons.inj h).2
  rw [pop, hbelow, screens]

/-- What is true of a screen stays true, whatever comes to the top. -/
theorem forall_pop {P : α → Prop} (happear : ∀ x, P x → P (appear x)) (h : ∀ x ∈ s.screens, P x) :
    ∀ x ∈ (s.pop appear).screens, P x := by
  rcases pop_cases appear s with hsame | ⟨y, below, hscreens, hpop⟩
  · rwa [hsame]
  · rw [hpop]
    rw [hscreens] at h
    intro x hx
    rcases List.mem_cons.mp hx with rfl | hx
    · exact happear y (h y (by simp))
    · exact h x (by simp [hx])

theorem forall_popToRoot {P : α → Prop} (happear : ∀ x, P x → P (appear x))
    (h : ∀ x ∈ s.screens, P x) : ∀ x ∈ (s.popToRoot appear).screens, P x := by
  intro x hx
  obtain rfl := List.mem_singleton.mp hx
  exact happear _ (h _ root_mem)

/-! ## Each screen over the one below it -/

/-- The screens `xs`, the top one first, stand on each other, the last one on the ground. -/
inductive Standing (ground : α → Prop) (on : α → α → Prop) : List α → Prop
  | ground {x : α} (h : ground x) : Standing ground on [x]
  | on {x y : α} {xs : List α} (h : on x y) (hxs : Standing ground on (y :: xs)) :
    Standing ground on (x :: y :: xs)

section Standing
variable {ground : α → Prop} {on : α → α → Prop}

theorem Standing.imp {on' : α → α → Prop} (himp : ∀ x y, on x y → on' x y) {xs : List α}
    (h : Standing ground on xs) : Standing ground on' xs := by
  induction h with
  | ground hx => exact .ground hx
  | on hxy _ ih => exact .on (himp _ _ hxy) ih

theorem Standing.getLast {xs : List α} (h : Standing ground on xs) :
    ∀ hne : xs ≠ [], ground (xs.getLast hne) := by
  induction h with
  | ground hx => exact fun _ => hx
  | on _ _ ih =>
    intro _
    rw [List.getLast_cons_cons]
    exact ih _

/-- A property that the ground has and that rises from a screen to the one on it. -/
theorem Standing.forall {P : α → Prop} (hground : ∀ x, ground x → P x)
    (hon : ∀ x y, on x y → P y → P x) {xs : List α} (h : Standing ground on xs) : ∀ x ∈ xs, P x := by
  induction h with
  | ground hx =>
    intro x hmem
    obtain rfl := List.mem_singleton.mp hmem
    exact hground x hx
  | on hxy _ ih =>
    intro x hmem
    rcases List.mem_cons.mp hmem with rfl | hmem
    · exact hon _ _ hxy (ih _ List.mem_cons_self)
    · exact ih x hmem

theorem Standing.push (hon : ∀ {x y}, on x y → on (appear x) y)
    (h : Standing ground on s.screens) (hx : on x s.top) :
    Standing ground on (s.push appear x).screens := .on (hon hx) h

theorem Standing.pop (hground : ∀ {x}, ground x → ground (appear x))
    (hon : ∀ {x y}, on x y → on (appear x) y) (h : Standing ground on s.screens) :
    Standing ground on (s.pop appear).screens := by
  rcases pop_cases appear s with hsame | ⟨y, below, hscreens, hpop⟩
  · rwa [hsame]
  · rw [hscreens] at h
    rw [hpop]
    cases h with
    | on _ hbelow =>
      cases hbelow with
      | ground hy => exact .ground (hground hy)
      | on hyz hrest => exact .on (hon hyz) hrest

theorem Standing.popToRoot (hground : ∀ {x}, ground x → ground (appear x))
    (h : Standing ground on s.screens) : Standing ground on (s.popToRoot appear).screens :=
  .ground (hground (h.getLast _))

end Standing

end NavigationStack
