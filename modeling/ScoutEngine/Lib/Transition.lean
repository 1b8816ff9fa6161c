import Mathlib.Data.List.Basic
import Mathlib.Logic.Function.Basic

/-!
# Runs of a transition system

* `System`: an initial state and actions, each of which may be disabled.
* `System.Run`: a run, with every state and the action taken there, the last one first.
* **`System.Run.invariant`**: what holds initially and is kept by every action that meets a
  condition holds at the end of every run whose actions all meet it.
* `System.Run.from_state`: the same from a state that a run passes to its end.
* `System.Run.kept`: what every action keeps is kept along a run.
* `System.exec`, `System.run_exec`, `System.Run.exec`, `System.exec_actions`, `System.exists_run`:
  running a list of actions.
-/

set_option autoImplicit false

namespace Transition

variable {S A : Type}

theorem update_cases {α β : Type} [DecidableEq α] {f : α → β} {k j : α} {v w : β}
    (h : Function.update f k v j = w) : j = k ∧ v = w ∨ j ≠ k ∧ f j = w := by
  by_cases hjk : j = k
  · subst hjk
    rw [Function.update_self] at h
    exact Or.inl ⟨rfl, h⟩
  · rw [Function.update_of_ne hjk] at h
    exact Or.inr ⟨hjk, h⟩

/-- An initial state, and what an action makes of a state in which it is enabled. -/
structure System (S A : Type) where
  init : S
  step : S → A → Option S

/-- A run: the states passed with the actions taken there, last one first, and its end. -/
inductive System.Run (M : System S A) : List (S × A) → S → Prop where
  | init : M.Run [] M.init
  | step {h : List (S × A)} {s s' : S} {a : A} (hr : M.Run h s) (hs : M.step s a = some s') :
      M.Run ((s, a) :: h) s'

variable {M : System S A}

/-- **Invariants of runs** whose actions all meet a condition. -/
theorem System.Run.invariant {P : S → Prop} {Ok : S → A → Prop} (init : P M.init)
    (step : ∀ s a s', P s → Ok s a → M.step s a = some s' → P s') {h : List (S × A)} {s : S}
    (hr : M.Run h s) (hok : ∀ e ∈ h, Ok e.1 e.2) : P s := by
  induction hr with
  | init => exact init
  | step _ hs ih =>
    rw [List.forall_mem_cons] at hok
    exact step _ _ _ (ih hok.2) hok.1 hs

/-- Invariants that every action keeps. -/
theorem System.Run.always {P : S → Prop} (init : P M.init)
    (step : ∀ s a s', P s → M.step s a = some s' → P s') {h : List (S × A)} {s : S}
    (hr : M.Run h s) : P s :=
  hr.invariant init (fun s a s' hs (_ : True) => step s a s' hs) fun _ _ => trivial

/-- A state that a run passes is the end of a run, with a part of its actions. -/
theorem System.Run.of_mem {h : List (S × A)} {s : S} {e : S × A} (hr : M.Run h s) (he : e ∈ h) :
    ∃ h', M.Run h' e.1 ∧ h' <:+ h := by
  induction hr with
  | init => exact absurd he List.not_mem_nil
  | @step h _ _ _ hr _ ih =>
    rcases List.mem_cons.mp he with rfl | he
    · exact ⟨h, hr, List.suffix_cons _ _⟩
    · obtain ⟨h', hr', hsuf⟩ := ih he
      exact ⟨h', hr', hsuf.trans (List.suffix_cons _ _)⟩

/-- **Invariants hold in every state that a run passes.** -/
theorem System.Run.invariant_passed {P : S → Prop} {Ok : S → A → Prop} (init : P M.init)
    (step : ∀ s a s', P s → Ok s a → M.step s a = some s' → P s') {h : List (S × A)} {s : S}
    (hr : M.Run h s) (hok : ∀ e ∈ h, Ok e.1 e.2) : ∀ e ∈ h, P e.1 := by
  intro e he
  obtain ⟨h', hr', hsuf⟩ := hr.of_mem he
  exact hr'.invariant init step fun e' he' => hok e' (hsuf.mem he')

/-- What an action keeps is kept from every state that a run passes to its end. -/
theorem System.Run.kept {R : S → S → Prop}
    (trans : ∀ s s' s'', R s s' → R s' s'' → R s s'')
    (step : ∀ h s a s', M.Run h s → M.step s a = some s' → R s s') {h : List (S × A)} {s : S}
    (hr : M.Run h s) : ∀ e ∈ h, R e.1 s := by
  induction hr with
  | init => exact fun _ he => absurd he List.not_mem_nil
  | step hr hs ih =>
    rw [List.forall_mem_cons]
    have hlast := step _ _ _ _ hr hs
    exact ⟨hlast, fun e he => trans _ _ _ (ih e he) hlast⟩

/-- The actions taken determine where a run ends. -/
theorem System.Run.unique {h : List (S × A)} {s s' : S} (hr : M.Run h s) (hr' : M.Run h s') :
    s = s' := by
  cases hr with
  | init =>
    cases hr'
    rfl
  | step _ hs =>
    cases hr' with
    | step _ hs' => exact Option.some.inj (hs.symm.trans hs')

/-- A run passes the end of each part of it. -/
theorem System.Run.exists_of_append {h₁ h₂ : List (S × A)} {s : S} (hr : M.Run (h₂ ++ h₁) s) :
    ∃ s₁, M.Run h₁ s₁ := by
  induction h₂ generalizing s with
  | nil => exact ⟨s, hr⟩
  | cons e h₂ ih =>
    cases hr with
    | step hr _ => exact ih hr

/-- **Invariants from a state on**: what holds in a state that a run passes, and is kept by every
action that meets a condition, holds at its end if all actions from there on meet it. -/
theorem System.Run.from_state {P : S → Prop} {Ok : S → A → Prop} {h₁ h₂ : List (S × A)}
    {s₁ s : S} (hr₁ : M.Run h₁ s₁) (hr : M.Run (h₂ ++ h₁) s) (start : P s₁)
    (step : ∀ s a s', P s → Ok s a → M.step s a = some s' → P s')
    (hok : ∀ e ∈ h₂, Ok e.1 e.2) : P s := by
  induction h₂ generalizing s with
  | nil => exact hr₁.unique hr ▸ start
  | cons e h₂ ih =>
    rw [List.forall_mem_cons] at hok
    cases hr with
    | step hr hs => exact step _ _ _ (ih hr hok.2) hok.1 hs

/-- Take actions in order. -/
def System.exec (M : System S A) : List A → List (S × A) → S → Option (List (S × A) × S)
  | [], h, s => some (h, s)
  | a :: as, h, s =>
    match M.step s a with
    | some s' => exec M as ((s, a) :: h) s'
    | none => none

theorem System.run_exec {as : List A} {h h' : List (S × A)} {s s' : S} (hr : M.Run h s)
    (he : M.exec as h s = some (h', s')) : M.Run h' s' := by
  induction as generalizing h s with
  | nil =>
    obtain ⟨rfl, rfl⟩ := Prod.mk.inj (Option.some.inj he)
    exact hr
  | cons a as ih =>
    rw [System.exec] at he
    split at he
    · rename_i s₁ hs
      exact ih (hr.step hs) he
    · cases he

theorem System.exec_actions {as : List A} {h h' : List (S × A)} {s s' : S}
    (he : M.exec as h s = some (h', s')) : h'.map Prod.snd = as.reverse ++ h.map Prod.snd := by
  induction as generalizing h s with
  | nil =>
    obtain ⟨rfl, rfl⟩ := Prod.mk.inj (Option.some.inj he)
    rfl
  | cons a as ih =>
    rw [System.exec] at he
    split at he
    · rw [ih he, List.map_cons, List.reverse_cons, List.append_assoc, List.singleton_append]
    · cases he

/-- The history is only added to. -/
theorem System.exec_append (M : System S A) (as : List A) (h h₀ : List (S × A)) (s : S) :
    M.exec as (h ++ h₀) s = (M.exec as h s).map fun r => (r.1 ++ h₀, r.2) := by
  induction as generalizing h s with
  | nil => rfl
  | cons a as ih =>
    simp only [System.exec]
    cases M.step s a with
    | none => rfl
    | some s' => exact ih ((s, a) :: h) s'

/-- **Actions taken from the end of a run on prolong it.** -/
theorem System.Run.exec {as : List A} {h₀ h : List (S × A)} {s₀ s : S} (hr : M.Run h₀ s₀)
    (he : M.exec as [] s₀ = some (h, s)) : M.Run (h ++ h₀) s := by
  have happend : M.exec as h₀ s₀ = some (h ++ h₀, s) := by
    rw [← List.nil_append h₀, System.exec_append, he]
    rfl
  exact System.run_exec hr happend

/-- A test that a list of actions passes is passed by a run. -/
theorem System.exists_run (as : List A) (p : List (S × A) → S → Bool)
    (h : (M.exec as [] M.init).any (fun r => p r.1 r.2) = true) : ∃ h s, M.Run h s ∧ p h s = true := by
  obtain ⟨⟨h, s⟩, he, hp⟩ := (Option.any_eq_true _ _).mp h
  exact ⟨h, s, System.run_exec .init he, hp⟩

end Transition
