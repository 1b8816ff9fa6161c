import ScoutEngine.Executor.Moves

/-!
# What a run records

* `Control.resultsAt`: the results with the indices of their steps.
* `Control.begins`: the steps begun, with the outputs at that moment.
* `Control.waits`, `Control.pauses`: the pauses.
* `Move.begins`, `Move.results`: a move begins at most one step and records at most one result, for
  the step at the index.
* `HeadMove.pauses`, `WakeMove.pauses`: a loop head takes at most one pause, and a wake-up ends it.
* `begins_mono`, `execution_of_halt`: records only grow, and a run that was left stays as it is.
-/

set_option autoImplicit false

namespace ScoutEngine

namespace Control

/-- The results in order, each with the index of its step. -/
def resultsAt (c : Control) : List (ℤ × StepResult) :=
  c.trace.filterMap fun
    | .result i r => some (i, r)
    | _ => none

/-- The steps begun in order, each with the outputs at that moment. -/
def begins (c : Control) : List (ℤ × Outputs) :=
  c.trace.filterMap fun
    | .begin i o => some (i, o)
    | _ => none

/-- The pauses in order. -/
def waits (c : Control) : List (ℤ × PauseKind) :=
  c.trace.filterMap fun
    | .waiting i k => some (i, k)
    | _ => none

/-- The number of pauses so far. -/
def pauses (c : Control) : ℕ := c.waits.length

@[simp] theorem resultsAt_begun (c : Control) : c.begun.resultsAt = c.resultsAt := by
  simp [resultsAt, begun, log, List.filterMap_append]

@[simp] theorem resultsAt_waitFor (p : Pause) (c : Control) :
    (c.waitFor p).resultsAt = c.resultsAt := by
  simp [resultsAt, waitFor, log, List.filterMap_append]

@[simp] theorem resultsAt_woken (p : Pause) (i : ResumeInstruction) (c : Control) :
    (c.woken p i).resultsAt = c.resultsAt := by
  simp [resultsAt, woken, log, List.filterMap_append]

@[simp] theorem resultsAt_record (r : StepResult) (c : Control) :
    (c.record r).resultsAt = c.resultsAt ++ [(c.stepIdx, r)] := by
  simp [resultsAt, record, log, List.filterMap_append]

/-- The result of a step that has just begun. -/
theorem resultsAt_record_begun (r : StepResult) (c : Control) :
    (c.begun.record r).resultsAt = c.resultsAt ++ [(c.stepIdx, r)] := by
  rw [resultsAt_record, resultsAt_begun]
  rfl

/-- The result of a step whose pause is over. -/
theorem resultsAt_record_woken (p : Pause) (i : ResumeInstruction) (r : StepResult) (c : Control) :
    ((c.woken p i).record r).resultsAt = c.resultsAt ++ [(c.stepIdx, r)] := by
  rw [resultsAt_record, resultsAt_woken]
  rfl

@[simp] theorem begins_begun (c : Control) : c.begun.begins = c.begins ++ [(c.stepIdx, c.outputs)] := by
  simp [begins, begun, log, List.filterMap_append]

@[simp] theorem begins_waitFor (p : Pause) (c : Control) : (c.waitFor p).begins = c.begins := by
  simp [begins, waitFor, log, List.filterMap_append]

@[simp] theorem begins_woken (p : Pause) (i : ResumeInstruction) (c : Control) :
    (c.woken p i).begins = c.begins := by
  simp [begins, woken, log, List.filterMap_append]

@[simp] theorem begins_record (r : StepResult) (c : Control) : (c.record r).begins = c.begins := by
  simp [begins, record, log, List.filterMap_append]

theorem begins_advance (step : WorkflowStep) (r : StepResult) (c : Control) :
    (c.advance step r).begins = c.begins := by
  simp [begins]

theorem begins_goto (n : ℕ) (v : PyVal) (c : Control) : (c.goto n v).begins = c.begins := by
  simp [begins]

theorem begins_account (cfg : Config) (step : WorkflowStep) (r : StepResult) (c : Control) :
    (c.account cfg step r).begins = c.begins := by
  cases hr : r.status with
  | passed =>
    rw [account_passed hr, begins_advance]
    rfl
  | failed =>
    rcases account_failed cfg step c hr with ⟨-, h⟩ | ⟨-, ⟨-, h⟩ | ⟨-, h⟩⟩
    · rw [h, begins_waitFor]
      rfl
    · rw [h]
      rfl
    · rw [h, begins_advance]
      rfl

theorem begins_ran [PyText] (step : WorkflowStep) (r : StepResult) (c : Control) :
    (c.ran step r).begins = c.begins ++ [(c.stepIdx, c.outputs)] := by
  change (c.begun.record r).begins = _
  rw [begins_record, begins_begun]

theorem results_account (cfg : Config) (step : WorkflowStep) (r : StepResult) (c : Control) :
    (c.account cfg step r).results = c.results := by
  cases hr : r.status with
  | passed =>
    rw [account_passed hr, advance_results]
    rfl
  | failed =>
    rcases account_failed cfg step c hr with ⟨-, h⟩ | ⟨-, ⟨-, h⟩ | ⟨-, h⟩⟩
    · rw [h]
      rfl
    · rw [h]
      rfl
    · rw [h, advance_results]
      rfl

theorem results_ran [PyText] (cfg : Config) (step : WorkflowStep) (r : StepResult) (c : Control) :
    ((c.ran step r).account cfg step r).results = c.results ++ [r] :=
  results_account cfg step r (c.ran step r)

theorem resultsAt_goto (n : ℕ) (v : PyVal) (c : Control) :
    (c.goto n v).results = c.results ∧ (c.goto n v).resultsAt = c.resultsAt := by
  simp [resultsAt]

theorem resultsAt_account (cfg : Config) (step : WorkflowStep) (r : StepResult) (c : Control) :
    (c.account cfg step r).resultsAt = c.resultsAt := by
  have hadvance (c : Control) : (c.advance step r).resultsAt = c.resultsAt := by
    simp [resultsAt]
  cases hr : r.status with
  | passed =>
    rw [account_passed hr, hadvance]
    rfl
  | failed =>
    rcases account_failed cfg step c hr with ⟨-, h⟩ | ⟨-, ⟨-, h⟩ | ⟨-, h⟩⟩
    · rw [h, resultsAt_waitFor]
      rfl
    · rw [h]
      rfl
    · rw [h, hadvance]
      rfl

theorem resultsAt_ran [PyText] (step : WorkflowStep) (r : StepResult) (c : Control) :
    (c.ran step r).resultsAt = c.resultsAt ++ [(c.stepIdx, r)] := by
  change (c.begun.record r).resultsAt = _
  exact resultsAt_record_begun r c

/-- The accounting ends a run by the policy only. -/
theorem account_halt (cfg : Config) (step : WorkflowStep) (r : StepResult) (c : Control) :
    (c.account cfg step r).halt = c.halt ∨ (c.account cfg step r).halt = some .stopped := by
  cases hr : r.status with
  | passed =>
    rw [account_passed hr, advance_halt]
    exact Or.inl rfl
  | failed =>
    rcases account_failed cfg step c hr with ⟨-, h⟩ | ⟨-, ⟨-, h⟩ | ⟨-, h⟩⟩
    · rw [h]
      exact Or.inl rfl
    · rw [h]
      exact Or.inr rfl
    · rw [h, advance_halt]
      exact Or.inl rfl

@[simp] theorem pauses_begun (c : Control) : c.begun.pauses = c.pauses := by
  simp [pauses, waits, begun, log, List.filterMap_append]

@[simp] theorem pauses_waitFor (p : Pause) (c : Control) : (c.waitFor p).pauses = c.pauses + 1 := by
  simp [pauses, waits, waitFor, log, List.filterMap_append]

@[simp] theorem pauses_woken (p : Pause) (i : ResumeInstruction) (c : Control) :
    (c.woken p i).pauses = c.pauses := by
  simp [pauses, waits, woken, log, List.filterMap_append]

@[simp] theorem pauses_record (r : StepResult) (c : Control) : (c.record r).pauses = c.pauses := by
  simp [pauses, waits, record, log, List.filterMap_append]

theorem pauses_ran [PyText] (step : WorkflowStep) (r : StepResult) (c : Control) :
    (c.ran step r).pauses = c.pauses :=
  (pauses_record r c.begun).trans (pauses_begun c)

/-- Going on after a step takes no pause. -/
@[simp] theorem pauses_advance (step : WorkflowStep) (r : StepResult) (c : Control) :
    (c.advance step r).pauses = c.pauses := by
  simp [pauses, waits]

/-- Nor does a jump. -/
@[simp] theorem pauses_goto (n : ℕ) (v : PyVal) (c : Control) : (c.goto n v).pauses = c.pauses := by
  simp [pauses, waits]

end Control

section Moves

variable [PyText] {cfg : Config} {x : Input} {c c' : Control}

/-- **A loop head that goes on to a step begins it.** -/
theorem HeadMove.begins_of_goes {step : WorkflowStep} (h : HeadMove cfg x c c')
    (hs : cfg.stepAt c = some step) (hx : x.Goes cfg) :
    c'.begins = c.begins ++ [(c.stepIdx, c.outputs)] := by
  cases h with
  | finished hn => exact absurd (cfg.stepAt_lt hs) (Int.not_lt.mpr hn)
  | noStep _ hn =>
    obtain ⟨raw, hraw, -⟩ := cfg.stepAt_raw hs
    exact absurd (hn.symm.trans hraw) (Option.some_ne_none raw).symm
  | cancelled _ hc => exact absurd (hx.1.symm.trans hc) Bool.false_ne_true
  | requested _ _ hp hc =>
    have hpc := hx.2
    rw [hp, hc] at hpc
    exact absurd hpc Bool.noConfusion
  | monitorRaised => exact Control.begins_begun _
  | handoffWaits => exact (Control.begins_waitFor _ _).trans (Control.begins_begun _)
  | handoffPassed =>
    refine (Control.begins_goto _ _ _).trans ?_
    exact (Control.begins_record _ _).trans (Control.begins_begun _)
  | handoffRaised => exact (Control.begins_record _ _).trans (Control.begins_begun _)
  | ran => exact (Control.begins_account _ _ _ _).trans (Control.begins_ran _ _ _)
  | @callbackRaised step r => exact Control.begins_ran step r c

/-- **A result recorded at a loop head comes from the step there**, and is counted at once unless
an exception leaves the loop. -/
theorem HeadMove.ran_of_result {step : WorkflowStep} {r : StepResult} (h : HeadMove cfg x c c')
    (hs : cfg.stepAt c = some step) (ha : step.action ≠ .handoff)
    (hr : r ∈ c'.results.drop c.results.length) (hh : ∀ e, c'.halt ≠ some (.raised e)) :
    r.Of step ∧ c' = (c.ran step r).account cfg step r := by
  have hsame (h : c'.results = c.results) : False := by
    rw [h, List.drop_length] at hr
    exact List.not_mem_nil hr
  cases h with
  | finished | noStep | cancelled | requested => exact (hsame rfl).elim
  | monitorRaised _ _ e | handoffRaised _ _ _ _ e | callbackRaised _ _ _ _ e =>
    exact absurd rfl (hh e)
  | handoffWaits hs' _ ha' | handoffPassed hs' _ ha' =>
    obtain rfl := Option.some.inj (hs.symm.trans hs')
    exact absurd ha' ha
  | ran hs' _ _ hof =>
    obtain rfl := Option.some.inj (hs.symm.trans hs')
    rw [Control.results_ran, List.drop_left] at hr
    obtain rfl := List.mem_singleton.mp hr
    exact ⟨hof, rfl⟩

/-- Otherwise it leaves the loop or takes a developer pause. -/
theorem HeadMove.begins (h : HeadMove cfg x c c') :
    (c'.begins = c.begins ∧ (c'.halt ≠ none ∨ ∃ step, c' = c.waitFor (requestedPause step))) ∨
      c'.begins = c.begins ++ [(c.stepIdx, c.outputs)] := by
  by_cases hg : ∃ step, cfg.stepAt c = some step ∧ x.Goes cfg
  · obtain ⟨step, hs, hx⟩ := hg
    exact Or.inr (h.begins_of_goes hs hx)
  · cases h with
    | finished | noStep | cancelled => exact Or.inl ⟨rfl, Or.inl (Option.some_ne_none _)⟩
    | @requested step => exact Or.inl ⟨Control.begins_waitFor _ _, Or.inr ⟨step, rfl⟩⟩
    | monitorRaised hs hx | handoffWaits hs hx | handoffPassed hs hx | handoffRaised hs hx
    | ran hs hx | callbackRaised hs hx => exact absurd ⟨_, hs, hx⟩ hg

theorem HeadMove.begins_of_not_goes (h : HeadMove cfg x c c')
    (hn : cfg.stepAt c = none ∨ ¬ x.Goes cfg) : c'.begins = c.begins := by
  have hs : ∀ step, cfg.stepAt c = some step → ¬ x.Goes cfg := fun step hs =>
    hn.resolve_left fun h => Option.some_ne_none step (hs.symm.trans h)
  cases h with
  | finished | noStep | cancelled => rfl
  | requested => exact Control.begins_waitFor _ _
  | monitorRaised h hx | handoffWaits h hx | handoffPassed h hx | handoffRaised h hx | ran h hx
  | callbackRaised h hx => exact absurd hx (hs _ h)

omit [PyText] in
theorem WakeMove.begins {p : Pause} {i : ResumeInstruction} (h : WakeMove cfg p i c c') :
    c'.begins = c.begins := by
  cases h with
  | requested | error => exact (Control.begins_goto _ _ _).trans (Control.begins_woken _ _ _)
  | handoff =>
    refine (Control.begins_goto _ _ _).trans ?_
    exact (Control.begins_record _ _).trans (Control.begins_woken _ _ _)
  | handoffRaised | aborted | abortRaised =>
    exact (Control.begins_record _ _).trans (Control.begins_woken _ _ _)

/-- **A move begins at most one step, the one at the index.** -/
theorem Move.begins (h : Move cfg x c c') :
    c'.begins = c.begins ∨ c'.begins = c.begins ++ [(c.stepIdx, c.outputs)] := by
  cases h with
  | halted => exact Or.inl rfl
  | head _ _ h => exact h.begins.imp_left And.left
  | wake _ _ h => exact Or.inl h.begins

/-- **A move records at most one result, of the step at the index.** -/
theorem Move.results (h : Move cfg x c c') :
    (c'.results = c.results ∧ c'.resultsAt = c.resultsAt) ∨
      ∃ r, c'.results = c.results ++ [r] ∧ c'.resultsAt = c.resultsAt ++ [(c.stepIdx, r)] := by
  cases h with
  | halted => exact Or.inl ⟨rfl, rfl⟩
  | head _ _ h =>
    cases h with
    | finished | noStep | cancelled => exact Or.inl ⟨rfl, rfl⟩
    | requested => exact Or.inl ⟨rfl, Control.resultsAt_waitFor _ _⟩
    | monitorRaised => exact Or.inl ⟨rfl, Control.resultsAt_begun c⟩
    | handoffWaits =>
      exact Or.inl ⟨rfl, (Control.resultsAt_waitFor _ _).trans (Control.resultsAt_begun c)⟩
    | @handoffPassed step =>
      have hg := Control.resultsAt_goto cfg.steps.length (.int (c.stepIdx + 1))
        (c.begun.passHandoff (handoffResult step))
      exact Or.inr ⟨_, hg.1, hg.2.trans (Control.resultsAt_record_begun _ c)⟩
    | handoffRaised => exact Or.inr ⟨_, rfl, Control.resultsAt_record_begun _ c⟩
    | @ran step r =>
      exact Or.inr ⟨r, Control.results_ran cfg step r c,
        (Control.resultsAt_account cfg step r _).trans (Control.resultsAt_ran step r c)⟩
    | @callbackRaised step r => exact Or.inr ⟨r, rfl, Control.resultsAt_ran step r c⟩
  | @wake p _ _ _ h =>
    cases h with
    | requested =>
      have hg := Control.resultsAt_goto cfg.steps.length
        (applyResume (x.resume.getD { action := .abort }) c.stepIdx)
        (c.woken p (x.resume.getD { action := .abort }))
      exact Or.inl ⟨hg.1, hg.2.trans (Control.resultsAt_woken _ _ _)⟩
    | error =>
      have hg := Control.resultsAt_goto cfg.steps.length
        (applyResume (x.resume.getD { action := .abort }) c.stepIdx)
        ((c.woken p (x.resume.getD { action := .abort })).setRetrying
          (x.resume.getD { action := .abort }))
      exact Or.inl ⟨hg.1, hg.2.trans (Control.resultsAt_woken _ _ _)⟩
    | handoff =>
      have hg := Control.resultsAt_goto cfg.steps.length
        (applyResume (x.resume.getD { action := .abort }) c.stepIdx)
        ((c.woken p (x.resume.getD { action := .abort })).passHandoff (handoffResult p.step))
      exact Or.inr ⟨_, hg.1, hg.2.trans (Control.resultsAt_record_woken _ _ _ c)⟩
    | handoffRaised | aborted | abortRaised =>
      exact Or.inr ⟨_, rfl, Control.resultsAt_record_woken _ _ _ c⟩

/-- **A loop head takes at most one pause.** -/
theorem HeadMove.pauses (h : HeadMove cfg x c c') (hh : c.halt = none) (hw : c.waiting = none) :
    (c'.waiting = none ∧ c'.pauses = c.pauses) ∨
      c'.waiting ≠ none ∧ c'.halt = none ∧ c'.pauses = c.pauses + 1 := by
  cases h with
  | finished | noStep | cancelled => exact Or.inl ⟨hw, rfl⟩
  | requested => exact Or.inr ⟨Option.some_ne_none _, hh, Control.pauses_waitFor _ _⟩
  | monitorRaised => exact Or.inl ⟨hw, Control.pauses_begun c⟩
  | handoffWaits => exact Or.inr ⟨Option.some_ne_none _, hh, by simp⟩
  | handoffPassed =>
    exact Or.inl ⟨(Control.goto_waiting _ _ _).trans hw, (Control.pauses_goto _ _ _).trans
      ((Control.pauses_record _ _).trans (Control.pauses_begun c))⟩
  | handoffRaised => exact Or.inl ⟨hw, (Control.pauses_record _ _).trans (Control.pauses_begun c)⟩
  | @ran step r =>
    have hp := Control.pauses_ran step r c
    cases hr : r.status with
    | passed =>
      rw [Control.account_passed hr]
      exact Or.inl ⟨(Control.advance_waiting _ _ _).trans hw,
        (Control.pauses_advance _ _ _).trans hp⟩
    | failed =>
      rcases Control.account_failed cfg step (c.ran step r) hr with ⟨-, h⟩ | ⟨-, ⟨-, h⟩ | ⟨-, h⟩⟩
      · rw [h]
        exact Or.inr ⟨Option.some_ne_none _, hh,
          (Control.pauses_waitFor _ _).trans (congrArg (· + 1) hp)⟩
      · rw [h]
        exact Or.inl ⟨hw, hp⟩
      · rw [h]
        exact Or.inl ⟨(Control.advance_waiting _ _ _).trans hw,
          (Control.pauses_advance _ _ _).trans hp⟩
  | @callbackRaised step r => exact Or.inl ⟨hw, Control.pauses_ran step r c⟩

omit [PyText] in
/-- **A wake-up ends the pause.** -/
theorem WakeMove.pauses {p : Pause} {i : ResumeInstruction} (h : WakeMove cfg p i c c') :
    c'.waiting = none ∧ c'.pauses = c.pauses := by
  cases h with
  | requested | error =>
    exact ⟨Control.goto_waiting _ _ _,
      (Control.pauses_goto _ _ _).trans (Control.pauses_woken p i c)⟩
  | handoff =>
    exact ⟨Control.goto_waiting _ _ _, (Control.pauses_goto _ _ _).trans
      ((Control.pauses_record _ _).trans (Control.pauses_woken p i c))⟩
  | handoffRaised | aborted | abortRaised =>
    exact ⟨rfl, (Control.pauses_record _ _).trans (Control.pauses_woken p i c)⟩

/-- A move of the executor with a step that was not let go on begins none. -/
theorem next_begins_head {cfg : Config} {env : Env} {x : Input} {s : RunState} (hh : s.halt = none)
    (hw : s.waiting = none) (hn : cfg.stepAt s.toControl = none ∨ ¬ x.Goes cfg) :
    (next cfg env x s).begins = s.begins := by
  rw [next_of_awake hh hw]
  exact (head_move cfg env x s).begins_of_not_goes hn

theorem next_begins_wake {cfg : Config} {env : Env} {x : Input} {s : RunState} {p : Pause}
    (hh : s.halt = none) (hw : s.waiting = some p) : (next cfg env x s).begins = s.begins := by
  rw [next_of_waiting hh hw]
  exact (wake_move cfg env p x s).begins

theorem begins_mono (cfg : Config) (env : Env) (σ : ℕ → RunState → Input) {m n : ℕ} (h : m ≤ n) :
    (execution cfg env σ m).begins <+: (execution cfg env σ n).begins := by
  induction n, h using Nat.le_induction with
  | base => exact List.prefix_rfl
  | succ n _ ih =>
    refine ih.trans ?_
    rcases (next_move cfg env (σ n (execution cfg env σ n)) (execution cfg env σ n)).begins with
      h | h
    · exact ⟨[], (List.append_nil _).trans h.symm⟩
    · exact ⟨_, h.symm⟩

/-- A run that was left stays as it is. -/
theorem execution_of_halt (cfg : Config) (env : Env) (σ : ℕ → RunState → Input) {m n : ℕ}
    (hm : (execution cfg env σ m).halt ≠ none) (h : m ≤ n) :
    execution cfg env σ n = execution cfg env σ m := by
  induction n, h using Nat.le_induction with
  | base => rfl
  | succ n _ ih =>
    rw [execution_succ, ih, next]
    cases hh : (execution cfg env σ m).halt with
    | none => exact absurd hh hm
    | some k => rfl

end Moves

end ScoutEngine
