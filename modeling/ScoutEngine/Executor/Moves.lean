import ScoutEngine.Executor.Loop

/-!
# What one move does to the variables

The outcomes of a loop head and of a wake-up, with everything that the browser, the monitor and
the callback can contribute left open. Invariants of runs are proved by cases on them.

* `Control.ran`, `Control.account`: a step that was executed.
* `HeadMove`, **`head_move`**; `WakeMove`, **`wake_move`**; `Move`, **`next_move`**.
* **`execution_invariant`**: what holds initially and is kept by every move holds in every state
  of every run.
* `finish_ok`: the result of a run, from its variables.
-/

set_option autoImplicit false

namespace ScoutEngine

variable [PyText]

/-! ## The variables after a step -/

/-- The step at the index, resolved; none when the loop is over or the index is out of range. -/
def Config.stepAt (cfg : Config) (c : Control) : Option WorkflowStep :=
  if c.stepIdx < cfg.steps.length then
    (pyGet cfg.steps c.stepIdx).map fun raw => resolveStepRuntime raw c.outputs
  else none

theorem Config.stepAt_raw {cfg : Config} {c : Control} {step : WorkflowStep}
    (h : cfg.stepAt c = some step) : ∃ raw, pyGet cfg.steps c.stepIdx = some raw ∧
      step = resolveStepRuntime raw c.outputs := by
  unfold Config.stepAt at h
  split_ifs at h
  obtain ⟨raw, hraw, rfl⟩ := Option.map_eq_some_iff.mp h
  exact ⟨raw, hraw, rfl⟩

omit [PyText] in
theorem mem_of_pyGet {α : Type} {xs : List α} {i : ℤ} {a : α} (h : pyGet xs i = some a) : a ∈ xs := by
  unfold pyGet at h
  split_ifs at h
  · exact List.mem_of_getElem? h
  · exact List.mem_of_getElem? h

/-- A step at the index is a step of the workflow. -/
theorem Config.stepAt_mem {cfg : Config} {c : Control} {step : WorkflowStep}
    (h : cfg.stepAt c = some step) : ∃ raw ∈ cfg.steps, step = resolveStepRuntime raw c.outputs := by
  obtain ⟨raw, hraw, rfl⟩ := Config.stepAt_raw h
  exact ⟨raw, mem_of_pyGet hraw, rfl⟩

theorem Config.stepAt_lt {cfg : Config} {c : Control} {step : WorkflowStep}
    (h : cfg.stepAt c = some step) : c.stepIdx < cfg.steps.length := by
  unfold Config.stepAt at h
  split_ifs at h with hlt
  exact hlt

/-- An index inside the workflow has a step. -/
theorem Config.stepAt_inside {cfg : Config} {c : Control} (h0 : 0 ≤ c.stepIdx)
    (hlt : c.stepIdx < cfg.steps.length) : ∃ raw, cfg.steps[c.stepIdx.toNat]? = some raw ∧
      cfg.stepAt c = some (resolveStepRuntime raw c.outputs) := by
  have hn : c.stepIdx.toNat < cfg.steps.length := by omega
  refine ⟨cfg.steps[c.stepIdx.toNat], List.getElem?_eq_getElem hn, ?_⟩
  rw [Config.stepAt, if_pos hlt, pyGet, if_pos h0, List.getElem?_eq_getElem hn]
  rfl

theorem resolveStepRuntime_action (raw : WorkflowStep) (o : Outputs) :
    (resolveStepRuntime raw o).action = raw.action := by
  unfold resolveStepRuntime
  split_ifs <;> rfl

/-- The control-flow fields are not interpolated. -/
theorem resolveStepRuntime_control (raw : WorkflowStep) (o : Outputs) :
    (resolveStepRuntime raw o).skipSteps = raw.skipSteps ∧
      (resolveStepRuntime raw o).jumpTo = raw.jumpTo ∧
      (resolveStepRuntime raw o).loopSteps = raw.loopSteps := by
  unfold resolveStepRuntime
  split_ifs <;> exact ⟨rfl, rfl, rfl⟩

/-- A failure at this index pauses the run. -/
def Config.PausesAfterFailure (cfg : Config) (c : Control) : Prop :=
  cfg.workflow.settings.pauseOnError ∧ cfg.canPause ∧ c.stepIdx ∉ c.paused

instance (cfg : Config) (c : Control) : Decidable (cfg.PausesAfterFailure c) :=
  inferInstanceAs (Decidable (_ ∧ _ ∧ _))

namespace Control

/-- A step was executed. -/
def ran (step : WorkflowStep) (r : StepResult) (c : Control) : Control :=
  (c.begun.record r).capture step r

/-- The accounting of a result: the variables at the next loop head, at the pause, or at the end. -/
def account (cfg : Config) (step : WorkflowStep) (r : StepResult) (c : Control) : Control :=
  match r.status with
  | .passed => c.countPass.advance step r
  | .failed =>
    if cfg.PausesAfterFailure c then
      { c.countFail with paused := insert c.stepIdx c.paused }.waitFor (errorPause step r)
    else
      match cfg.policy step with
      | .stop => c.countFail.stop .stopped
      | _ => c.countFail.advance step r

end Control

namespace Control

omit [PyText] in
theorem account_passed {cfg : Config} {step : WorkflowStep} {r : StepResult} {c : Control}
    (h : r.status = .passed) : c.account cfg step r = c.countPass.advance step r := by
  rw [account, h]

omit [PyText] in
/-- The accounting of a failed step: it pauses, or stops, or goes on. -/
theorem account_failed (cfg : Config) (step : WorkflowStep) {r : StepResult} (c : Control)
    (h : r.status = .failed) :
    (cfg.PausesAfterFailure c ∧ c.account cfg step r =
        { c.countFail with paused := insert c.stepIdx c.paused }.waitFor (errorPause step r)) ∨
      ¬ cfg.PausesAfterFailure c ∧
        (cfg.policy step = .stop ∧ c.account cfg step r = c.countFail.stop .stopped ∨
          cfg.policy step ≠ .stop ∧ c.account cfg step r = c.countFail.advance step r) := by
  rw [account, h]
  dsimp only
  split_ifs with hp
  · exact Or.inl ⟨hp, rfl⟩
  · refine Or.inr ⟨hp, ?_⟩
    cases hq : cfg.policy step with
    | stop => exact Or.inl ⟨rfl, rfl⟩
    | _ => exact Or.inr ⟨nofun, rfl⟩

end Control

/-! ## Moves -/

/-- The loop head goes on to the step. -/
def Input.Goes (cfg : Config) (x : Input) : Prop := x.cancel = false ∧ (x.pause && cfg.canPause) = false

/-- **The outcomes of a loop head.** -/
inductive HeadMove (cfg : Config) (x : Input) (c : Control) : Control → Prop where
  | finished (h : (cfg.steps.length : ℤ) ≤ c.stepIdx) : HeadMove cfg x c (c.stop .finished)
  | noStep (h : c.stepIdx < cfg.steps.length) (hs : pyGet cfg.steps c.stepIdx = none) :
      HeadMove cfg x c (c.raised .indexError "list index out of range")
  | cancelled {step : WorkflowStep} (hs : cfg.stepAt c = some step) (hx : x.cancel = true) :
      HeadMove cfg x c (c.stop .cancelled)
  | requested {step : WorkflowStep} (hs : cfg.stepAt c = some step) (hx : x.cancel = false)
      (hp : x.pause = true) (hc : cfg.canPause = true) :
      HeadMove cfg x c (c.waitFor (requestedPause step))
  | monitorRaised {step : WorkflowStep} (hs : cfg.stepAt c = some step) (hx : x.Goes cfg)
      (e : PyExc) : HeadMove cfg x c (c.begun.stop (.raised e))
  | handoffWaits {step : WorkflowStep} (hs : cfg.stepAt c = some step) (hx : x.Goes cfg)
      (ha : step.action = .handoff) (hc : cfg.canPause = true) :
      HeadMove cfg x c (c.begun.waitFor (handoffPause step))
  | handoffPassed {step : WorkflowStep} (hs : cfg.stepAt c = some step) (hx : x.Goes cfg)
      (ha : step.action = .handoff) (hc : cfg.canPause = false) :
      HeadMove cfg x c
        ((c.begun.passHandoff (handoffResult step)).goto cfg.steps.length (.int (c.stepIdx + 1)))
  | handoffRaised {step : WorkflowStep} (hs : cfg.stepAt c = some step) (hx : x.Goes cfg)
      (ha : step.action = .handoff) (hc : cfg.canPause = false) (e : PyExc) :
      HeadMove cfg x c ((c.begun.passHandoff (handoffResult step)).stop (.raised e))
  | ran {step : WorkflowStep} {r : StepResult} (hs : cfg.stepAt c = some step) (hx : x.Goes cfg)
      (ha : step.action ≠ .handoff) (hr : r.Of step) :
      HeadMove cfg x c ((c.ran step r).account cfg step r)
  | callbackRaised {step : WorkflowStep} {r : StepResult} (hs : cfg.stepAt c = some step)
      (hx : x.Goes cfg) (ha : step.action ≠ .handoff) (hr : r.Of step) (e : PyExc) :
      HeadMove cfg x c ((c.ran step r).stop (.raised e))

/-- **The outcomes of a wake-up.** -/
inductive WakeMove (cfg : Config) (p : Pause) (i : ResumeInstruction) (c : Control) :
    Control → Prop where
  | requested (hk : p.kind = .requested) :
      WakeMove cfg p i c ((c.woken p i).goto cfg.steps.length (applyResume i c.stepIdx))
  | error (hk : p.kind = .error) :
      WakeMove cfg p i c (((c.woken p i).setRetrying i).goto cfg.steps.length
        (applyResume i c.stepIdx))
  | handoff (hk : p.kind = .handoff) (hi : (applyResume i c.stepIdx).isNone = false) :
      WakeMove cfg p i c (((c.woken p i).passHandoff (handoffResult p.step)).goto
        cfg.steps.length (applyResume i c.stepIdx))
  | handoffRaised (hk : p.kind = .handoff) (hi : (applyResume i c.stepIdx).isNone = false) (e : PyExc) :
      WakeMove cfg p i c (((c.woken p i).passHandoff (handoffResult p.step)).stop (.raised e))
  | aborted (hk : p.kind = .handoff) (hi : (applyResume i c.stepIdx).isNone = true) :
      WakeMove cfg p i c (((c.woken p i).record (abortedResult p.step)).stop .cancelled)
  | abortRaised (hk : p.kind = .handoff) (hi : (applyResume i c.stepIdx).isNone = true) (e : PyExc) :
      WakeMove cfg p i c (((c.woken p i).record (abortedResult p.step)).stop (.raised e))

/-- **The outcomes of a move.** -/
inductive Move (cfg : Config) (x : Input) (c : Control) : Control → Prop where
  | halted {h : Halt} (hh : c.halt = some h) : Move cfg x c c
  | head {c' : Control} (hh : c.halt = none) (hw : c.waiting = none) (h : HeadMove cfg x c c') :
      Move cfg x c c'
  | wake {p : Pause} {c' : Control} (hh : c.halt = none) (hw : c.waiting = some p)
      (h : WakeMove cfg p (x.resume.getD { action := .abort }) c c') : Move cfg x c c'

/-! ## The moves of the executor -/

omit [PyText] in
@[simp] theorem publish_toControl (cfg : Config) (f : String → Sessions → Sessions) (s : RunState) :
    (s.publish cfg f).toControl = s.toControl := by
  unfold RunState.publish
  split_ifs <;> rfl

omit [PyText] in
@[simp] theorem control_toControl (f : Control → Control) (s : RunState) :
    (s.control f).toControl = f s.toControl := rfl

omit [PyText] in
theorem exec_toControl {α : Type} (env : Env) (p : StepM α) (s : RunState) :
    (s.exec env p).2.toControl = s.toControl := rfl

omit [PyText] in
theorem waitForResume_toControl (cfg : Config) (p : Pause) (s : RunState) :
    (waitForResume cfg p s).toControl = s.toControl.waitFor p := by
  rw [waitForResume, control_toControl, publish_toControl]

omit [PyText] in
/-- A program of calls either lets the run go on or leaves the loop, with the same variables. -/
theorem andThen_cases (env : Env) (p : StepM Unit) (k : RunState → RunState) (s : RunState) :
    (∃ s' : RunState, s'.toControl = s.toControl ∧ s.andThen env p k = k s') ∨
      ∃ e, (s.andThen env p k).toControl = s.toControl.stop (.raised e) := by
  unfold RunState.andThen
  rcases h : s.exec env p with ⟨e | _, s'⟩
  · refine Or.inr ⟨e, ?_⟩
    rw [control_toControl, ← exec_toControl env p s, h]
  · exact Or.inl ⟨s', by rw [← exec_toControl env p s, h], rfl⟩

omit [PyText] in
theorem account_toControl (cfg : Config) (step : WorkflowStep) (r : StepResult) (s : RunState) :
    (account cfg step r s).toControl = s.toControl.account cfg step r := by
  unfold account Control.account
  cases r.status with
  | passed => rfl
  | failed =>
    by_cases hp : cfg.PausesAfterFailure s.toControl
    · rw [if_pos hp]
      exact (congrArg RunState.toControl (if_pos hp)).trans (waitForResume_toControl _ _ _)
    · rw [if_neg hp]
      refine (congrArg RunState.toControl (if_neg hp)).trans ?_
      cases cfg.policy step <;> rfl

theorem endHandoff_cases (cfg : Config) (env : Env) (step : WorkflowStep) (v : PyVal)
    (s : RunState) :
    (endHandoff cfg env step v s).toControl =
        (s.toControl.passHandoff (handoffResult step)).goto cfg.steps.length v ∨
      ∃ e, (endHandoff cfg env step v s).toControl =
        (s.toControl.passHandoff (handoffResult step)).stop (.raised e) := by
  rcases andThen_cases env (notify cfg (handoffResult step))
      (fun s => (showIdle cfg s).control (Control.goto cfg.steps.length v))
      (s.control (Control.passHandoff (handoffResult step))) with ⟨s', hs', h⟩ | ⟨e, h⟩
  · refine Or.inl ((congrArg RunState.toControl h).trans ?_)
    rw [control_toControl, showIdle, publish_toControl, hs', control_toControl]
  · exact Or.inr ⟨e, h⟩

theorem abortHandoff_cases (cfg : Config) (env : Env) (step : WorkflowStep) (s : RunState) :
    (abortHandoff cfg env step s).toControl =
        (s.toControl.record (abortedResult step)).stop .cancelled ∨
      ∃ e, (abortHandoff cfg env step s).toControl =
        (s.toControl.record (abortedResult step)).stop (.raised e) := by
  rcases andThen_cases env (notify cfg (abortedResult step))
      (fun s => s.control (Control.stop .cancelled))
      (s.control (Control.record (abortedResult step))) with ⟨s', hs', h⟩ | ⟨e, h⟩
  · refine Or.inl ((congrArg RunState.toControl h).trans ?_)
    rw [control_toControl, hs', control_toControl]
  · exact Or.inr ⟨e, h⟩

theorem normalStep_cases (cfg : Config) (env : Env) (step : WorkflowStep) (s : RunState) :
    ∃ r : StepResult, r.Of step ∧
      ((normalStep cfg env step (account cfg step) s).toControl =
          ((s.toControl.record r).capture step r).account cfg step r ∨
        ∃ e, (normalStep cfg env step (account cfg step) s).toControl =
          ((s.toControl.record r).capture step r).stop (.raised e)) := by
  have hshow : (showStep cfg step s).toControl = s.toControl := publish_toControl _ _ _
  refine ⟨(executeStep env cfg.options step (showStep cfg step s).monitor
    (showStep cfg step s).calls).1, executeStep_output _ _ _ _ _, ?_⟩
  unfold normalStep
  dsimp only
  generalize executeStep env cfg.options step (showStep cfg step s).monitor
    (showStep cfg step s).calls = r
  rcases andThen_cases env (notify cfg r.1) (account cfg step r.1)
      (showIdle cfg (({ showStep cfg step s with monitor := r.2.1, calls := r.2.2 }).control
        fun c => (c.record r.1).capture step r.1)) with ⟨s', hs', h⟩ | ⟨e, h⟩
  · refine Or.inl ((congrArg RunState.toControl h).trans ?_)
    rw [account_toControl, hs', showIdle, publish_toControl, control_toControl, hshow]
  · refine Or.inr ⟨e, h.trans ?_⟩
    rw [showIdle, publish_toControl, control_toControl, hshow]

theorem head_of_stepAt {cfg : Config} {s : RunState} {step : WorkflowStep} (env : Env) (x : Input)
    (h : cfg.stepAt s.toControl = some step) : head cfg env x s =
      if x.cancel then s.control (Control.stop .cancelled)
      else if x.pause && cfg.canPause then waitForResume cfg (requestedPause step) s
      else beginStep cfg env step (account cfg step) s := by
  obtain ⟨raw, hraw, rfl⟩ := cfg.stepAt_raw h
  rw [head, if_pos (cfg.stepAt_lt h), hraw]

/-- Without a step left the loop is left: at its end, or for an index before the first step. -/
theorem head_cases_none {cfg : Config} {s : RunState} (env : Env) (x : Input)
    (h : cfg.stepAt s.toControl = none) :
    (s.stepIdx < cfg.steps.length ∧ pyGet cfg.steps s.stepIdx = none ∧
      head cfg env x s = s.control (Control.raised .indexError "list index out of range")) ∨
    (cfg.steps.length : ℤ) ≤ s.stepIdx ∧ head cfg env x s = s.control (Control.stop .finished) := by
  unfold head
  by_cases hlt : s.stepIdx < cfg.steps.length
  · rw [Config.stepAt, if_pos hlt, Option.map_eq_none_iff] at h
    rw [if_pos hlt, h]
    exact Or.inl ⟨hlt, rfl, rfl⟩
  · rw [if_neg hlt]
    exact Or.inr ⟨Int.not_lt.mp hlt, rfl⟩

/-- Without a step left the other threads do not matter. -/
theorem head_of_no_step {cfg : Config} {s : RunState} (env : Env) (x x' : Input)
    (h : cfg.stepAt s.toControl = none) : head cfg env x s = head cfg env x' s := by
  rcases head_cases_none env x h with ⟨hlt, -, hx⟩ | ⟨hge, hx⟩
  · rcases head_cases_none env x' h with ⟨-, -, hx'⟩ | ⟨hge, -⟩
    · rw [hx, hx']
    · exact absurd hlt (Int.not_lt.mpr hge)
  · rcases head_cases_none env x' h with ⟨hlt, -⟩ | ⟨-, hx'⟩
    · exact absurd hlt (Int.not_lt.mpr hge)
    · rw [hx, hx']

theorem beginStep_move {cfg : Config} {env : Env} {x : Input} {step : WorkflowStep} {s : RunState}
    (hs : cfg.stepAt s.toControl = some step) (hx : x.Goes cfg) :
    HeadMove cfg x s.toControl (beginStep cfg env step (account cfg step) s).toControl := by
  unfold beginStep
  dsimp only
  rcases andThen_cases env _ _ (s.control Control.begun) with ⟨s', hs', h⟩ | ⟨e, h⟩
  · rw [h]
    split_ifs with ha
    · have hshow : (showStep cfg step s').toControl = s.toControl.begun :=
        (publish_toControl _ _ _).trans hs'
      unfold handoff
      dsimp only
      split_ifs with hc
      · rw [waitForResume_toControl, hshow]
        exact .handoffWaits hs hx ha hc
      · have hidx : (showStep cfg step s').stepIdx = s.stepIdx :=
          (congrArg Control.stepIdx hshow).trans rfl
        rw [hidx]
        rcases endHandoff_cases cfg env step (.int (s.stepIdx + 1)) (showStep cfg step s') with
          h' | ⟨e, h'⟩
        · rw [h', hshow]
          exact .handoffPassed hs hx ha (Bool.eq_false_iff.mpr hc)
        · rw [h', hshow]
          exact .handoffRaised hs hx ha (Bool.eq_false_iff.mpr hc) e
    · obtain ⟨r, hr, h' | ⟨e, h'⟩⟩ := normalStep_cases cfg env step s'
      · rw [h', hs']
        exact .ran hs hx ha hr
      · rw [h', hs']
        exact .callbackRaised hs hx ha hr e
  · rw [h]
    exact .monitorRaised hs hx e

/-- **A loop head does one of its moves.** -/
theorem head_move (cfg : Config) (env : Env) (x : Input) (s : RunState) :
    HeadMove cfg x s.toControl (head cfg env x s).toControl := by
  cases hs : cfg.stepAt s.toControl with
  | some step =>
    rw [head_of_stepAt env x hs]
    split_ifs with hx hp
    · exact .cancelled hs hx
    · rw [waitForResume_toControl]
      obtain ⟨hp, hc⟩ := Bool.and_eq_true_iff.mp hp
      exact .requested hs (Bool.eq_false_iff.mpr hx) hp hc
    · exact beginStep_move hs ⟨Bool.eq_false_iff.mpr hx, Bool.eq_false_iff.mpr hp⟩
  | none =>
    rcases head_cases_none env x hs with ⟨hlt, hget, h⟩ | ⟨hge, h⟩
    · rw [h]
      exact .noStep hlt hget
    · rw [h]
      exact .finished hge

/-- **A wake-up does one of its moves.** -/
theorem wake_move (cfg : Config) (env : Env) (p : Pause) (x : Input) (s : RunState) :
    WakeMove cfg p (x.resume.getD { action := .abort }) s.toControl
      (wake cfg env p x s).toControl := by
  unfold wake
  generalize x.resume.getD { action := .abort } = i
  dsimp only
  have hw : ((s.publish cfg fun id => Sessions.setRunning id).control
      (Control.woken p i)).toControl = s.toControl.woken p i := by
    rw [control_toControl, publish_toControl]
  generalize (s.publish cfg fun id => Sessions.setRunning id).control (Control.woken p i) = s' at hw ⊢
  have hidx : s'.stepIdx = s.stepIdx := (congrArg Control.stepIdx hw).trans rfl
  rw [hidx]
  cases hk : p.kind with
  | requested =>
    rw [control_toControl, hw]
    exact .requested hk
  | error =>
    rw [control_toControl, control_toControl, hw]
    exact .error hk
  | handoff =>
    dsimp only
    split_ifs with hi
    · rcases abortHandoff_cases cfg env p.step s' with h | ⟨e, h⟩
      · rw [h, hw]
        exact .aborted hk hi
      · rw [h, hw]
        exact .abortRaised hk hi e
    · have hi := Bool.eq_false_iff.mpr hi
      rcases endHandoff_cases cfg env p.step (applyResume i s.stepIdx) s' with h | ⟨e, h⟩
      · rw [h, hw]
        exact .handoff hk hi
      · rw [h, hw]
        exact .handoffRaised hk hi e

theorem next_of_awake {cfg : Config} {env : Env} {x : Input} {s : RunState} (hh : s.halt = none)
    (hw : s.waiting = none) : next cfg env x s = head cfg env x s := by
  rw [next, hh]
  dsimp only
  rw [hw]

theorem next_of_waiting {cfg : Config} {env : Env} {x : Input} {s : RunState} {p : Pause}
    (hh : s.halt = none) (hw : s.waiting = some p) : next cfg env x s = wake cfg env p x s := by
  rw [next, hh]
  dsimp only
  rw [hw]

/-- **Every move of the executor is one of the moves.** -/
theorem next_move (cfg : Config) (env : Env) (x : Input) (s : RunState) :
    Move cfg x s.toControl (next cfg env x s).toControl := by
  unfold next
  cases hh : s.halt with
  | some h => exact .halted hh
  | none =>
    cases hw : s.waiting with
    | none => exact .head hh hw (head_move cfg env x s)
    | some p => exact .wake hh hw (wake_move cfg env p x s)

/-! ## Runs -/

/-- At the first loop head the variables have their initial values. -/
theorem entry_toControl (cfg : Config) (env : Env) :
    (entry cfg env).toControl = {} ∨
      ∃ e, (entry cfg env).toControl = ({} : Control).stop (.notStarted e) := by
  unfold entry
  have h := exec_toControl env (setUp cfg) {}
  rcases hr : RunState.exec env (setUp cfg) {} with ⟨e | _ | info, s⟩ <;> rw [hr] at h
  · exact Or.inr ⟨e, congrArg (Control.stop (.notStarted e)) h⟩
  · exact Or.inl h
  · exact Or.inl ((publish_toControl _ _ _).trans h)

theorem execution_succ (cfg : Config) (env : Env) (σ : ℕ → RunState → Input) (n : ℕ) :
    execution cfg env σ (n + 1) =
      next cfg env (σ n (execution cfg env σ n)) (execution cfg env σ n) := rfl

/-- **Invariants of runs** whose moves all meet a condition `A`. -/
theorem execution_invariant {cfg : Config} {env : Env} {σ : ℕ → RunState → Input}
    {A : Input → Control → Prop} {P : Control → Prop}
    (hA : ∀ n, A (σ n (execution cfg env σ n)) (execution cfg env σ n).toControl) (init : P {})
    (notStarted : ∀ e, P (({} : Control).stop (.notStarted e)))
    (step : ∀ x c c', P c → A x c → Move cfg x c c' → P c') (n : ℕ) :
    P (execution cfg env σ n).toControl := by
  induction n with
  | zero =>
    rcases entry_toControl cfg env with h | ⟨e, h⟩
    · exact h ▸ init
    · exact h ▸ notStarted e
  | succ n ih => exact step _ _ _ ih (hA n) (next_move cfg env _ _)

/-! ## The result -/

theorem cleanup_toControl (cfg : Config) (env : Env) (steps : List WorkflowStep) (s : RunState) :
    (cleanup cfg env steps s).toControl = s.toControl := by
  induction steps generalizing s with
  | nil => rfl
  | cons step rest ih => exact ih _

theorem leave_toControl (cfg : Config) (env : Env) (s : RunState) :
    (leave cfg env s).toControl = s.toControl := by
  unfold leave
  dsimp only
  rw [exec_toControl, publish_toControl, cleanup_toControl]

/-- A run returns unless an exception left it. -/
theorem finish_returns (cfg : Config) (env : Env) {s : RunState}
    (hs : ∀ e, s.halt ≠ some (.notStarted e)) (hr : ∀ e, s.halt ≠ some (.raised e)) :
    finish cfg env s = (.ok (result env (leave cfg env s)), leave cfg env s) := by
  unfold finish
  split
  · rename_i e he
    exact absurd he (hs e)
  · rename_i e he
    exact absurd he (hr e)
  · rfl

theorem finish_finished (cfg : Config) (env : Env) {s : RunState} (h : s.halt = some .finished) :
    finish cfg env s = (.ok (result env (leave cfg env s)), leave cfg env s) := by
  apply finish_returns
  · rw [h]
    exact nofun
  · rw [h]
    exact nofun

/-- What a result returned by `finish` says. -/
theorem finish_ok {cfg : Config} {env : Env} {s s' : RunState} {res : ExecutionResult}
    (h : finish cfg env s = (.ok res, s')) :
    (∀ e, s.halt ≠ some (.raised e)) ∧ res.status = finalStatus s ∧ res.steps = s.results ∧
      res.passed = s.passed ∧ res.failed = s.failed := by
  have hc := leave_toControl cfg env s
  have hst : finalStatus (leave cfg env s) = finalStatus s := by
    unfold finalStatus
    rw [hc]
  unfold finish at h
  split at h
  · cases h
  · cases h
  · rename_i h1 h2
    cases h
    refine ⟨fun e he => h2 e he, hst, ?_, ?_, ?_⟩
    · exact congrArg Control.results hc
    · exact congrArg Control.passed hc
    · exact congrArg Control.failed hc

end ScoutEngine
