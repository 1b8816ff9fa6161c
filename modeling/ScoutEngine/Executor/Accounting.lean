import ScoutEngine.Executor.Retry

/-!
# The two counters

`passed` and `failed`, against the results of the run. A pass with a pending retry takes a failure
back, and a handoff that is aborted fails without being counted.

* `Control.passes`, `Control.failures`: the results by status.
* `Consumes`, `AbortsHandoff`: the moves that the failed count does not follow; `timesOf`: how many
  of them a run has made.
* `Balanced`: the counters and the results; **`Move.balanced`**, **`counters_balanced`**.
-/

set_option autoImplicit false

namespace ScoutEngine

namespace Control

/-- The passed results. -/
def passes (c : Control) : ℕ := c.results.countP fun r => r.status = .passed

/-- The failed results. -/
def failures (c : Control) : ℕ := c.results.countP fun r => r.status = .failed

/-- The results that a move has added. -/
def added (c c' : Control) : List StepResult := c'.results.drop c.results.length

end Control

/-- **The move is a pass that consumes a pending retry.** -/
def Consumes (c c' : Control) : Prop :=
  c.retrying = true ∧ c'.retrying = false ∧ ∃ r ∈ c.added c', r.status = .passed

instance (c c' : Control) : Decidable (Consumes c c') :=
  inferInstanceAs (Decidable (_ ∧ _ ∧ _))

/-- **The move aborts a handoff**: its pause is over, and its result has failed. -/
def AbortsHandoff (c c' : Control) : Prop :=
  (c.waiting.any fun p => p.kind = .handoff) = true ∧ ∃ r ∈ c.added c', r.status = .failed

instance (c c' : Control) : Decidable (AbortsHandoff c c') := inferInstanceAs (Decidable (_ ∧ _))

/-- How many of the first `n` moves are of a kind. -/
def timesOf [PyText] (P : Control → Control → Prop) [DecidableRel P] (cfg : Config) (env : Env)
    (σ : ℕ → RunState → Input) (n : ℕ) : ℕ :=
  (List.range n).countP fun k =>
    P (execution cfg env σ k).toControl (execution cfg env σ (k + 1)).toControl

/-- **The counters and the results**, after `m` retries that were consumed and `k` handoffs that
were aborted. -/
structure Balanced (m k : ℕ) (c : Control) : Prop where
  passed : c.passed = c.passes
  failed : (c.failures : ℤ) - c.failed = m + k
  nonneg : 0 ≤ c.failed
  pending : c.retrying = true → 1 ≤ c.failed
  le : c.failed ≤ c.failures

/-- A failure is to be decided about. -/
def Control.asksAboutError (c : Control) : Bool := c.waiting.any fun p => p.kind = .error

/-! ## One move -/

section Move

variable {c c' : Control} {m k : ℕ} {r : StepResult}

/-- The invariant: a pause after a failure comes with a failure that is counted. -/
structure BalanceInv (m k : ℕ) (c : Control) : Prop extends Balanced m k c where
  asked : c.asksAboutError = true → 1 ≤ c.failed

theorem BalanceInv.init : BalanceInv 0 0 {} := ⟨⟨rfl, rfl, le_rfl, nofun, le_rfl⟩, nofun⟩

/-- Nothing is recorded and nothing is counted. -/
theorem BalanceInv.of_same (h : BalanceInv m k c) (hr : c'.results = c.results)
    (hp : c'.passed = c.passed) (hf : c'.failed = c.failed)
    (hretry : c'.retrying = true → c.retrying = true ∨ c.asksAboutError = true)
    (hasked : c'.asksAboutError = true → c.asksAboutError = true) : BalanceInv m k c' := by
  obtain ⟨⟨h1, h2, h3, h4, h5⟩, h6⟩ := h
  refine ⟨⟨?_, ?_, ?_, fun hret => ?_, ?_⟩, fun hask => ?_⟩
  · rw [hp, Control.passes, hr]
    exact h1
  · rw [hf, Control.failures, hr]
    exact h2
  · rw [hf]
    exact h3
  · rw [hf]
    exact (hretry hret).elim h4 h6
  · rw [hf, Control.failures, hr]
    exact h5
  · rw [hf]
    exact h6 (hasked hask)

theorem counts_passed (hr : c'.results = c.results ++ [r]) (hs : r.status = .passed) :
    c'.passes = c.passes + 1 ∧ c'.failures = c.failures := by
  simp [Control.passes, Control.failures, hr, hs, List.countP_append]

theorem counts_failed (hr : c'.results = c.results ++ [r]) (hs : r.status = .failed) :
    c'.passes = c.passes ∧ c'.failures = c.failures + 1 := by
  simp [Control.passes, Control.failures, hr, hs, List.countP_append]

/-- A passed result is recorded and counted. -/
theorem BalanceInv.pass (h : BalanceInv m k c) (hr : c'.results = c.results ++ [r])
    (hs : r.status = .passed) (hp : c'.passed = c.passed + 1) (hf : c'.failed = c.failed)
    (hretry : c'.retrying = true → c.retrying = true) (hasked : c'.asksAboutError = false) :
    BalanceInv m k c' := by
  obtain ⟨⟨h1, h2, h3, h4, h5⟩, -⟩ := h
  obtain ⟨hpass, hfail⟩ := counts_passed hr hs
  refine ⟨⟨by omega, by omega, by omega, fun hret => ?_, by omega⟩, fun hask => ?_⟩
  · have := h4 (hretry hret)
    omega
  · rw [hasked] at hask
    cases hask

/-- A passed result is recorded and counted, and takes a failure back. -/
theorem BalanceInv.consume (h : BalanceInv m k c) (hr : c'.results = c.results ++ [r])
    (hs : r.status = .passed) (hp : c'.passed = c.passed + 1) (hpending : c.retrying = true)
    (hf : c'.failed = c.failed - 1) (hretry : c'.retrying = false)
    (hasked : c'.asksAboutError = false) : BalanceInv (m + 1) k c' := by
  obtain ⟨⟨h1, h2, h3, h4, h5⟩, -⟩ := h
  have hone := h4 hpending
  obtain ⟨hpass, hfail⟩ := counts_passed hr hs
  refine ⟨⟨by omega, by omega, by omega, fun hret => ?_, by omega⟩, fun hask => ?_⟩
  · rw [hretry] at hret
    cases hret
  · rw [hasked] at hask
    cases hask

/-- A failed result is recorded and counted. -/
theorem BalanceInv.fail (h : BalanceInv m k c) (hr : c'.results = c.results ++ [r])
    (hs : r.status = .failed) (hp : c'.passed = c.passed) (hf : c'.failed = c.failed + 1) :
    BalanceInv m k c' := by
  obtain ⟨⟨h1, h2, h3, h4, h5⟩, -⟩ := h
  obtain ⟨hpass, hfail⟩ := counts_failed hr hs
  exact ⟨⟨by omega, by omega, by omega, fun _ => by omega, by omega⟩, fun _ => by omega⟩

/-- A failed result is recorded and not counted. -/
theorem BalanceInv.abort (h : BalanceInv m k c) (hr : c'.results = c.results ++ [r])
    (hs : r.status = .failed) (hp : c'.passed = c.passed) (hf : c'.failed = c.failed)
    (hretry : c'.retrying = c.retrying) (hasked : c'.asksAboutError = false) :
    BalanceInv m (k + 1) c' := by
  obtain ⟨⟨h1, h2, h3, h4, h5⟩, -⟩ := h
  obtain ⟨hpass, hfail⟩ := counts_failed hr hs
  refine ⟨⟨by omega, by omega, by omega, fun hret => ?_, by omega⟩, fun hask => ?_⟩
  · have := h4 (hretry ▸ hret)
    omega
  · rw [hasked] at hask
    cases hask

/-! ## The kinds of moves -/

theorem added_of_same (hr : c'.results = c.results) : c.added c' = [] := by
  rw [Control.added, hr, List.drop_length]

theorem added_append (hr : c'.results = c.results ++ [r]) : c.added c' = [r] := by
  rw [Control.added, hr, List.drop_left]

theorem consumes_append (hr : c'.results = c.results ++ [r]) :
    Consumes c c' ↔ c.retrying = true ∧ c'.retrying = false ∧ r.status = .passed := by
  simp [Consumes, added_append hr]

theorem abortsHandoff_append (hr : c'.results = c.results ++ [r]) :
    AbortsHandoff c c' ↔
      (c.waiting.any fun p => p.kind = .handoff) = true ∧ r.status = .failed := by
  simp [AbortsHandoff, added_append hr]

theorem quiet_of_same (hr : c'.results = c.results) : ¬ Consumes c c' ∧ ¬ AbortsHandoff c c' := by
  simp [Consumes, AbortsHandoff, added_of_same hr]

/-- How the counters of a move go on. -/
def BalancedMove (c c' : Control) : Prop :=
  ∀ m k, BalanceInv m k c →
    BalanceInv (m + if Consumes c c' then 1 else 0) (k + if AbortsHandoff c c' then 1 else 0) c'

theorem BalancedMove.of_same (hr : c'.results = c.results) (hp : c'.passed = c.passed)
    (hf : c'.failed = c.failed)
    (hretry : c'.retrying = true → c.retrying = true ∨ c.asksAboutError = true)
    (hasked : c'.asksAboutError = true → c.asksAboutError = true) : BalancedMove c c' := by
  intro m k h
  obtain ⟨hc, ha⟩ := quiet_of_same hr
  rw [if_neg hc, if_neg ha]
  exact h.of_same hr hp hf hretry hasked

/-- A handoff that passes leaves a pending retry alone. -/
theorem BalancedMove.handoff (hr : c'.results = c.results ++ [r]) (hs : r.status = .passed)
    (hp : c'.passed = c.passed + 1) (hf : c'.failed = c.failed) (hretry : c'.retrying = c.retrying)
    (hasked : c'.asksAboutError = false) : BalancedMove c c' := by
  intro m k h
  have hc : ¬ Consumes c c' := by
    rw [consumes_append hr, hretry]
    simp_all
  have ha : ¬ AbortsHandoff c c' := by simp [abortsHandoff_append hr, hs]
  rw [if_neg hc, if_neg ha]
  exact h.pass hr hs hp hf (fun hret => hretry ▸ hret) hasked

theorem BalancedMove.abort (hr : c'.results = c.results ++ [r]) (hs : r.status = .failed)
    (hp : c'.passed = c.passed) (hf : c'.failed = c.failed) (hretry : c'.retrying = c.retrying)
    (hhandoff : (c.waiting.any fun p => p.kind = .handoff) = true)
    (hasked : c'.asksAboutError = false) : BalancedMove c c' := by
  intro m k h
  have hc : ¬ Consumes c c' := by simp [consumes_append hr, hs]
  have ha : AbortsHandoff c c' := (abortsHandoff_append hr).mpr ⟨hhandoff, hs⟩
  rw [if_neg hc, if_pos ha]
  exact h.abort hr hs hp hf hretry hasked

end Move

section Runs

variable [PyText] {cfg : Config} {x : Input} {c c' : Control}

/-- A step was executed. -/
theorem BalancedMove.ran (hw : c.waiting = none) (step : WorkflowStep) (r : StepResult) :
    BalancedMove c ((c.ran step r).account cfg step r) := by
  have hnew : ((c.ran step r).account cfg step r).results = c.results ++ [r] :=
    Control.results_ran cfg step r c
  intro m k h
  have ha : ¬ AbortsHandoff c ((c.ran step r).account cfg step r) := by
    simp [abortsHandoff_append hnew, hw]
  rw [if_neg ha]
  cases hs : r.status with
  | passed =>
    rw [Control.account_passed hs] at hnew ⊢
    have hp : ((c.ran step r).countPass.advance step r).passed = c.passed + 1 :=
      Control.advance_passed _ _ _
    have hf : ((c.ran step r).countPass.advance step r).failed =
        if c.retrying then c.failed - 1 else c.failed := Control.advance_failed _ _ _
    have hretry : ((c.ran step r).countPass.advance step r).retrying = false :=
      Control.advance_retrying _ _ _
    have hasked : ((c.ran step r).countPass.advance step r).asksAboutError = false := by
      rw [Control.asksAboutError, Control.advance_waiting]
      show (c.waiting.any _) = false
      rw [hw]
      rfl
    cases hc : c.retrying with
    | true =>
      have hcons : Consumes c ((c.ran step r).countPass.advance step r) :=
        (consumes_append hnew).mpr ⟨hc, hretry, hs⟩
      have hf' : ((c.ran step r).countPass.advance step r).failed = c.failed - 1 :=
        hf.trans (if_pos hc)
      rw [if_pos hcons]
      exact h.consume hnew hs hp hc hf' hretry hasked
    | false =>
      have hcons : ¬ Consumes c ((c.ran step r).countPass.advance step r) := by
        simp [consumes_append hnew, hc]
      have hf' : ((c.ran step r).countPass.advance step r).failed = c.failed :=
        hf.trans (if_neg (ne_true_of_eq_false hc))
      rw [if_neg hcons]
      refine h.pass hnew hs hp hf' (fun hret => ?_) hasked
      rw [hretry] at hret
      cases hret
  | failed =>
    have hcons : ¬ Consumes c ((c.ran step r).account cfg step r) := by
      simp [consumes_append hnew, hs]
    rw [if_neg hcons]
    rcases Control.account_failed cfg step (c.ran step r) hs with ⟨-, hk⟩ | ⟨-, ⟨-, hk⟩ | ⟨-, hk⟩⟩
    · rw [hk] at hnew ⊢
      exact h.fail hnew hs rfl rfl
    · rw [hk] at hnew ⊢
      exact h.fail hnew hs rfl rfl
    · rw [hk] at hnew ⊢
      exact h.fail hnew hs (Control.advance_passed _ _ _) (Control.advance_failed _ _ _)

/-- **A move keeps the counters and the results together**, unless an exception leaves the loop. -/
theorem Move.balanced (hm : Move cfg x c c') (hraised : ∀ e, c'.halt ≠ some (.raised e)) :
    BalancedMove c c' := by
  cases hm with
  | halted => exact .of_same rfl rfl rfl Or.inl id
  | head hh hw hm =>
    cases hm with
    | finished | cancelled => exact .of_same rfl rfl rfl Or.inl id
    | noStep => exact absurd rfl (hraised _)
    | monitorRaised _ _ e | handoffRaised _ _ _ _ e | callbackRaised _ _ _ _ e =>
      exact absurd rfl (hraised e)
    | requested | handoffWaits => exact .of_same rfl rfl rfl Or.inl nofun
    | handoffPassed =>
      refine .handoff (Control.goto_results _ _ _) rfl (Control.goto_passed _ _ _)
        (Control.goto_failed _ _ _) (Control.goto_retrying _ _ _) ?_
      rw [Control.asksAboutError, Control.goto_waiting]
      show (c.waiting.any _) = false
      rw [hw]
      rfl
    | @ran step r => exact .ran hw step r
  | @wake p _ hh hw hm =>
    generalize x.resume.getD { action := .abort } = i at hm
    cases hm with
    | requested =>
      refine .of_same (Control.goto_results _ _ _) (Control.goto_passed _ _ _)
        (Control.goto_failed _ _ _) (fun hret => Or.inl ?_) fun hask => ?_
      · rw [Control.goto_retrying] at hret
        exact hret
      · rw [Control.asksAboutError, Control.goto_waiting] at hask
        cases hask
    | error hk =>
      have hask : c.asksAboutError = true := by simp [Control.asksAboutError, hw, hk]
      exact .of_same (Control.goto_results _ _ _) (Control.goto_passed _ _ _)
        (Control.goto_failed _ _ _) (fun _ => Or.inr hask) fun _ => hask
    | handoff =>
      refine .handoff (Control.goto_results _ _ _) rfl (Control.goto_passed _ _ _)
        (Control.goto_failed _ _ _) (Control.goto_retrying _ _ _) ?_
      rw [Control.asksAboutError, Control.goto_waiting]
      rfl
    | handoffRaised _ _ e | abortRaised _ _ e => exact absurd rfl (hraised e)
    | aborted hk =>
      exact .abort rfl rfl rfl rfl rfl (by simp [hw, hk]) rfl

/-- **The counters and the results are balanced** in every state that an exception has not ended,
whatever pauses, retries, jumps, loops and cancels there were. -/
theorem counters_balanced (cfg : Config) (env : Env) (σ : ℕ → RunState → Input) (n : ℕ)
    (hraised : ∀ e, (execution cfg env σ n).halt ≠ some (.raised e)) :
    Balanced (timesOf Consumes cfg env σ n) (timesOf AbortsHandoff cfg env σ n)
      (execution cfg env σ n).toControl := by
  suffices h : BalanceInv (timesOf Consumes cfg env σ n) (timesOf AbortsHandoff cfg env σ n)
      (execution cfg env σ n).toControl from h.toBalanced
  induction n with
  | zero =>
    rcases entry_toControl cfg env with h | ⟨e, h⟩
    · rw [execution, h]
      exact .init
    · rw [execution, h]
      exact BalanceInv.init.of_same rfl rfl rfl Or.inl id
  | succ n ih =>
    have hm := next_move cfg env (σ n (execution cfg env σ n)) (execution cfg env σ n)
    have hbefore : ∀ e, (execution cfg env σ n).halt ≠ some (.raised e) := by
      intro e he
      refine hraised e ?_
      rw [execution_of_halt cfg env σ (by rw [he]; nofun) (Nat.le_succ n), he]
    have hstep := hm.balanced hraised _ _ (ih hbefore)
    rw [← execution_succ] at hstep
    unfold timesOf at hstep ⊢
    simpa [List.range_succ, List.countP_append, List.countP_singleton] using hstep

end Runs

/-! ## A retry that is consumed, and a handoff that is aborted -/

section Example

attribute [local instance] asciiText

/-- A step, a handoff and another step, with pauses on errors. -/
def openAndHandOver : Config where
  workflow :=
    { settings := { humanMode := false, pauseOnError := true }
      steps := [
        { order := 1, order_pos := WorkflowStep.order_one, name := "Open", action := .navigate },
        { order := 2, order_pos := WorkflowStep.order_two, name := "Clear", action := .clear },
        { order := 2, order_pos := WorkflowStep.order_two, name := "Look", action := .handoff }] }
  executionId := some "e"
  hasPauseQueue := true

/-- The first step fails, and its retry goes to the second one; the handoff is aborted. -/
def retryElsewhere : ℕ → RunState → Input
  | 1, _ => { resume := some { action := .retry } }
  | 2, _ => { pause := true }
  | 3, _ => { resume := some { action := .continue } }
  | _, _ => {}

theorem counters_balanced_retryElsewhere :
    (execution openAndHandOver offline retryElsewhere 7).failed = 0 ∧
    (execution openAndHandOver offline retryElsewhere 7).failures = 2 ∧
    Balanced 1 1 (execution openAndHandOver offline retryElsewhere 7).toControl := by
  have hhalt : (execution openAndHandOver offline retryElsewhere 7).halt = some .cancelled := by
    decide +kernel
  have hconsumed : timesOf Consumes openAndHandOver offline retryElsewhere 7 = 1 := by
    decide +kernel
  have haborted : timesOf AbortsHandoff openAndHandOver offline retryElsewhere 7 = 1 := by
    decide +kernel
  have h := counters_balanced openAndHandOver offline retryElsewhere 7 (by rw [hhalt]; nofun)
  rw [hconsumed, haborted] at h
  exact ⟨by decide +kernel, by decide +kernel, h⟩

end Example

end ScoutEngine
