import ScoutEngine.Executor.Trace
import ScoutEngine.Lib.Ledger

/-!
# Failures, retries and the final status

A failure that was resumed with `retry` is taken back from the failed count when a step passes
while `_retrying_after_pause` is set. The flag does not say which step that is.

* `Control.outcomes`: the results as a ledger of open failures; `RetryInv`: the failed count is at
  least the number of open failures, and a pending retry is about the last result.
* `Input.Steady`: a developer pause taken while a retry is pending does not move the run to another
  step.
* **`failures_retried`**: in a run with steady inputs, a completed result has every failure
  followed by a pass of the same step, and only the retried step takes a failure back.
* `failures_not_retried`: without this condition another step's pass hides the failure.
-/

set_option autoImplicit false

namespace ScoutEngine

open Ledger

/-! ## The results as a ledger -/

namespace Control

/-- The results as a ledger. -/
def outcomes (c : Control) : List (ℤ × Bool) := c.resultsAt.map fun p => (p.1, p.2.status = .passed)

/-- The last result is a failure of the step at the index, and that step is no handoff. -/
def LastFailed (cfg : Config) (c : Control) : Prop :=
  (∃ pre r, c.resultsAt = pre ++ [(c.stepIdx, r)] ∧ r.status = .failed) ∧
    ∃ raw, pyGet cfg.steps c.stepIdx = some raw ∧ raw.action ≠ .handoff

theorem outcomes_record (r : StepResult) (c : Control) :
    (c.record r).outcomes = c.outcomes ++ [(c.stepIdx, decide (r.status = .passed))] := by
  rw [outcomes, resultsAt_record, List.map_append]
  rfl

theorem opened_record_passed {r : StepResult} (h : r.status = .passed) (c : Control) :
    (opened (c.record r).outcomes).length ≤ (opened c.outcomes).length := by
  rw [outcomes_record, h]
  exact length_opened_pass_le _ _

theorem opened_record_failed {r : StepResult} (h : r.status = .failed) (c : Control) :
    (opened (c.record r).outcomes).length = (opened c.outcomes).length + 1 := by
  rw [outcomes_record, h]
  exact congrArg List.length (opened_fail _ _)

/-- A pass of the step that failed last closes its failure. -/
theorem opened_record_retried {cfg : Config} {r : StepResult} (h : r.status = .passed)
    {c : Control} (hl : c.LastFailed cfg) :
    (opened (c.record r).outcomes).length + 1 ≤ (opened c.outcomes).length := by
  obtain ⟨⟨pre, r₀, hr, hf⟩, -⟩ := hl
  have hmem : c.stepIdx ∈ opened c.outcomes := by
    have hm : (c.stepIdx, decide (r₀.status = .passed)) = (c.stepIdx, false) := by
      rw [hf]
      rfl
    rw [outcomes, hr, List.map_append, List.map_singleton, hm]
    exact mem_opened List.not_mem_nil
  rw [outcomes_record, h]
  exact length_opened_pass hmem

end Control

/-! ## The invariant -/

open Control

/-- **The invariant of the accounting.** A run that was cancelled or left by an exception has
results that were never counted. -/
structure RetryInv (cfg : Config) (c : Control) : Prop where
  results : c.results = c.resultsAt.map Prod.snd
  counted : c.halt ≠ some .cancelled → (∀ e, c.halt ≠ some (.raised e)) →
    ((opened c.outcomes).length : ℤ) ≤ c.failed
  pending : c.halt = none → (c.retrying = true ∨ ∃ p, c.waiting = some p ∧ p.kind = .error) →
    c.LastFailed cfg
  handoff : ∀ p, c.waiting = some p → p.kind = .handoff → c.retrying = false

/-- A developer pause taken while a retry is pending does not move the run to another step: it is
answered by a retry, an abort (also by timing out), or a jump to the same index. -/
def Input.Steady (x : Input) (c : Control) : Prop :=
  c.retrying = true → ∀ p, c.waiting = some p → p.kind = .requested →
    ∀ i j, x.resume = some i → (applyResume i c.stepIdx).index = some j → j = c.stepIdx

/-- The failed count goes down only when a step passes whose own failure was the last result. -/
def TakesBackOwn (cfg : Config) (c c' : Control) : Prop :=
  c'.failed < c.failed → c.LastFailed cfg ∧
    ∃ r, r.status = .passed ∧ c'.resultsAt = c.resultsAt ++ [(c.stepIdx, r)]

section Pieces

variable {cfg : Config} {c : Control}

theorem RetryInv.stop (h : RetryInv cfg c) (hh : c.halt = none) (k : Halt) :
    RetryInv cfg (c.stop k) where
  results := h.results
  counted _ _ := h.counted (by rw [hh]; nofun) (by rw [hh]; nofun)
  pending hn := nomatch hn
  handoff := h.handoff

theorem RetryInv.begun (h : RetryInv cfg c) : RetryInv cfg c.begun where
  results := by rw [resultsAt_begun]; exact h.results
  counted := by rw [outcomes, resultsAt_begun]; exact h.counted
  pending := by rw [LastFailed, resultsAt_begun]; exact h.pending
  handoff := h.handoff

/-- A pause that is not about a failure, taken where no retry is pending if it is a handoff. -/
theorem RetryInv.waitFor (h : RetryInv cfg c) {p : Pause} (hp : p.kind ≠ .error)
    (hr : p.kind = .handoff → c.retrying = false) : RetryInv cfg (c.waitFor p) where
  results := by rw [resultsAt_waitFor]; exact h.results
  counted := by rw [outcomes, resultsAt_waitFor]; exact h.counted
  pending hn hor := by
    rw [LastFailed, resultsAt_waitFor]
    refine h.pending hn (hor.imp_right ?_)
    rintro ⟨q, hq, hk⟩
    obtain rfl := Option.some.inj hq
    exact absurd hk hp
  handoff q hq hk := by
    obtain rfl := Option.some.inj hq
    exact hr hk

theorem RetryInv.woken (h : RetryInv cfg c) (p : Pause) (i : ResumeInstruction) :
    RetryInv cfg (c.woken p i) where
  results := by rw [resultsAt_woken]; exact h.results
  counted := by rw [outcomes, resultsAt_woken]; exact h.counted
  pending hn hor := by
    rw [LastFailed, resultsAt_woken]
    refine h.pending hn (Or.inl ?_)
    rcases hor with hr | ⟨q, hq, -⟩
    · exact hr
    · cases hq
  handoff q hq := nomatch hq

theorem RetryInv.passHandoff (h : RetryInv cfg c) (hh : c.halt = none) (hw : c.waiting = none)
    (hr : c.retrying = false) (step : WorkflowStep) :
    RetryInv cfg (c.passHandoff (handoffResult step)) where
  results := by
    change c.results ++ [_] = (c.record (handoffResult step)).resultsAt.map Prod.snd
    rw [resultsAt_record, List.map_append, h.results]
    rfl
  counted _ _ := by
    have h₀ := h.counted (by rw [hh]; nofun) (by rw [hh]; nofun)
    have h₁ := opened_record_passed (r := handoffResult step) rfl c
    change ((opened (c.record (handoffResult step)).outcomes).length : ℤ) ≤ c.failed
    omega
  pending _ hor := by
    rcases hor with hr' | ⟨p, hp, -⟩
    · exact absurd (hr.symm.trans hr') Bool.false_ne_true
    · exact absurd (hw.symm.trans hp) nofun
  handoff p hp := absurd (hw.symm.trans hp) nofun

/-- A jump that stays at its index while a retry is pending. -/
theorem RetryInv.goto (h : RetryInv cfg c) (hh : c.halt = none) (hw : c.waiting = none) (n : ℕ)
    {v : PyVal} (hv : c.retrying = true → ∀ j, v.index = some j → j = c.stepIdx) :
    RetryInv cfg (c.goto n v) := by
  rcases goto_cases n v c with ⟨i, hi, hg⟩ | ⟨-, k, hg, -⟩
  · rw [hg]
    exact
      { results := h.results
        counted := h.counted
        handoff := h.handoff
        pending := fun hn hor => by
          rcases hor with hr | ⟨p, hp, -⟩
          · have : c.setIdx i = c := by rw [hv hr i hi]; rfl
            rw [this]
            exact h.pending hh (Or.inl hr)
          · exact absurd (hw.symm.trans hp) nofun }
  · rw [hg]
    exact h.stop hh k

/-- A result that is not counted because the run was aborted or left by an exception. -/
theorem RetryInv.uncounted (h : RetryInv cfg c) {c' : Control} (r : StepResult)
    (hres : c'.results = c.results ++ [r]) (hat : c'.resultsAt = c.resultsAt ++ [(c.stepIdx, r)])
    (hk : c'.halt = some .cancelled ∨ ∃ e, c'.halt = some (.raised e))
    (hw : c'.waiting = none) : RetryInv cfg c' where
  results := by rw [hres, hat, List.map_append, h.results]; rfl
  counted h1 h2 := by
    rcases hk with hk | ⟨e, hk⟩
    · exact absurd hk h1
    · exact absurd hk (h2 e)
  pending hn := by
    rcases hk with hk | ⟨e, hk⟩
    · exact absurd (hn.symm.trans hk) nofun
    · exact absurd (hn.symm.trans hk) nofun
  handoff p hp := absurd (hw.symm.trans hp) nofun

theorem takesBackOwn_of_le {c' : Control} (h : c.failed ≤ c'.failed) : TakesBackOwn cfg c c' :=
  fun hlt => absurd h (Int.not_le.mpr hlt)

theorem takesBackOwn_goto {c' : Control} (h : c'.failed = c.failed) (v : PyVal) :
    TakesBackOwn cfg c (c'.goto cfg.steps.length v) := by
  refine takesBackOwn_of_le ?_
  rw [goto_failed, h]

theorem RetryInv.countPass (h : RetryInv cfg c) (hh : c.halt = none)
    {r : StepResult} (hr : r.status = .passed) {c' : Control} (hres : c'.results = c.results ++ [r])
    (hat : c'.resultsAt = (c.record r).resultsAt) (hwait : c'.waiting = none)
    (hretry : c'.retrying = false) (hfailed : c'.failed = if c.retrying then c.failed - 1 else c.failed) :
    RetryInv cfg c' ∧ TakesBackOwn cfg c c' := by
  have hat' : c'.resultsAt = c.resultsAt ++ [(c.stepIdx, r)] := hat.trans (resultsAt_record r c)
  have h₀ := h.counted (by rw [hh]; nofun) (by rw [hh]; nofun)
  refine ⟨⟨?_, fun _ _ => ?_, fun _ hor => ?_, fun p hp => ?_⟩, fun hlt => ?_⟩
  · rw [hres, hat', List.map_append, h.results]
    rfl
  · have hop : opened c'.outcomes = opened (c.record r).outcomes := by
      rw [outcomes, hat, outcomes]
    rw [hop, hfailed]
    cases hc : c.retrying with
    | false =>
      have := opened_record_passed hr c
      simp only [Bool.false_eq_true, if_false]
      omega
    | true =>
      have := opened_record_retried hr (h.pending hh (Or.inl hc))
      simp only [if_true]
      omega
  · rcases hor with hr' | ⟨p, hp, -⟩
    · exact absurd (hretry.symm.trans hr') Bool.false_ne_true
    · exact absurd (hwait.symm.trans hp) nofun
  · exact absurd (hwait.symm.trans hp) nofun
  · cases hc : c.retrying with
    | false =>
      rw [hfailed, hc] at hlt
      exact absurd hlt (Int.lt_irrefl _)
    | true => exact ⟨h.pending hh (Or.inl hc), r, hr, hat'⟩

theorem RetryInv.countFail (h : RetryInv cfg c) (hh : c.halt = none)
    (hraw : ∃ raw, pyGet cfg.steps c.stepIdx = some raw ∧ raw.action ≠ .handoff)
    {r : StepResult} (hr : r.status = .failed) {c' : Control} (hres : c'.results = c.results ++ [r])
    (hat : c'.resultsAt = (c.record r).resultsAt) (hretry : c'.retrying = false)
    (hwait : ∀ p, c'.waiting = some p → c'.stepIdx = c.stepIdx)
    (hfailed : c'.failed = c.failed + 1) : RetryInv cfg c' ∧ TakesBackOwn cfg c c' := by
  have hat' : c'.resultsAt = c.resultsAt ++ [(c.stepIdx, r)] := hat.trans (resultsAt_record r c)
  have h₀ := h.counted (by rw [hh]; nofun) (by rw [hh]; nofun)
  refine ⟨⟨?_, fun _ _ => ?_, fun _ hor => ?_, fun _ _ _ => hretry⟩, takesBackOwn_of_le ?_⟩
  · rw [hres, hat', List.map_append, h.results]
    rfl
  · have hop : opened c'.outcomes = opened (c.record r).outcomes := by
      rw [outcomes, hat, outcomes]
    have := opened_record_failed hr c
    rw [hop, hfailed]
    omega
  · rcases hor with hr' | ⟨p, hp, -⟩
    · exact absurd (hretry.symm.trans hr') Bool.false_ne_true
    · rw [LastFailed, hwait p hp]
      exact ⟨⟨c.resultsAt, r, hat', hr⟩, hraw⟩
  · omega

end Pieces

/-! ## Moves and runs -/

section Runs

variable [PyText]

theorem RetryInv.account {cfg : Config} {c : Control} (h : RetryInv cfg c) (hh : c.halt = none)
    (hw : c.waiting = none) {step : WorkflowStep} (hs : cfg.stepAt c = some step)
    (ha : step.action ≠ .handoff) (r : StepResult) :
    RetryInv cfg ((c.ran step r).account cfg step r) ∧
      TakesBackOwn cfg c ((c.ran step r).account cfg step r) := by
  obtain ⟨raw, hraw, rfl⟩ := cfg.stepAt_raw hs
  rw [resolveStepRuntime_action] at ha
  rw [ran, capture]
  generalize captured (resolveStepRuntime raw c.outputs) r (c.begun.record r).outputs = o
  have hat : (c.begun.record r).resultsAt = (c.record r).resultsAt := by
    rw [resultsAt_record, resultsAt_record, resultsAt_begun]
    rfl
  cases hst : r.status with
  | passed =>
    rw [account_passed hst]
    obtain ⟨i, l, o', h'⟩ := advance_eq (resolveStepRuntime raw c.outputs) r
      { c.begun.record r with outputs := o }.countPass
    rw [h']
    exact h.countPass hh hst rfl hat hw rfl rfl
  | failed =>
    rcases account_failed cfg (resolveStepRuntime raw c.outputs)
      { c.begun.record r with outputs := o } hst with ⟨-, h'⟩ | ⟨-, ⟨-, h'⟩ | ⟨-, h'⟩⟩
    · rw [h']
      refine h.countFail hh ⟨raw, hraw, ha⟩ hst rfl ?_ rfl (fun _ _ => rfl) rfl
      rw [resultsAt_waitFor]
      exact hat
    · rw [h']
      exact h.countFail hh ⟨raw, hraw, ha⟩ hst rfl hat rfl (fun _ _ => rfl) rfl
    · obtain ⟨i, l, o', h''⟩ := advance_eq (resolveStepRuntime raw c.outputs) r
        { c.begun.record r with outputs := o }.countFail
      rw [h', h'']
      exact h.countFail hh ⟨raw, hraw, ha⟩ hst rfl hat rfl
        (fun p hp => absurd (hw.symm.trans hp) nofun) rfl

/-- **One move keeps the invariant and takes back only the failure of the step that passes.** -/
theorem RetryInv.move {cfg : Config} {x : Input} {c c' : Control} (h : RetryInv cfg c)
    (hx : x.Steady c) (hm : Move cfg x c c') : RetryInv cfg c' ∧ TakesBackOwn cfg c c' := by
  cases hm with
  | halted hh => exact ⟨h, takesBackOwn_of_le le_rfl⟩
  | head hh hw hm =>
    -- the step of a pending retry failed before, so it is no handoff
    have hidle : ∀ {step}, cfg.stepAt c = some step → step.action = .handoff →
        c.retrying = false := by
      intro step hs ha
      cases hc : c.retrying with
      | false => rfl
      | true =>
        obtain ⟨raw, hraw, rfl⟩ := cfg.stepAt_raw hs
        obtain ⟨-, raw', hraw', hn⟩ := h.pending hh (Or.inl hc)
        obtain rfl := Option.some.inj (hraw.symm.trans hraw')
        exact absurd ((resolveStepRuntime_action raw c.outputs).symm.trans ha) hn
    cases hm with
    | finished | noStep | cancelled => exact ⟨h.stop hh _, takesBackOwn_of_le le_rfl⟩
    | requested => exact ⟨h.waitFor nofun nofun, takesBackOwn_of_le le_rfl⟩
    | monitorRaised => exact ⟨h.begun.stop hh _, takesBackOwn_of_le le_rfl⟩
    | handoffWaits hs _ ha =>
      exact ⟨h.begun.waitFor nofun fun _ => hidle hs ha, takesBackOwn_of_le le_rfl⟩
    | @handoffPassed step hs _ ha =>
      have hp := h.begun.passHandoff hh hw (hidle hs ha) step
      refine ⟨hp.goto hh hw _ fun hr => ?_, takesBackOwn_of_le le_rfl⟩
      exact absurd ((hidle hs ha).symm.trans hr) Bool.false_ne_true
    | @handoffRaised step hs _ ha =>
      exact ⟨(h.begun.passHandoff hh hw (hidle hs ha) step).stop hh _, takesBackOwn_of_le le_rfl⟩
    | ran hs _ ha hr => exact h.account hh hw hs ha _
    | @callbackRaised step r _ _ _ _ e =>
      refine ⟨h.uncounted r rfl ?_ (Or.inr ⟨e, rfl⟩) hw, takesBackOwn_of_le le_rfl⟩
      change (c.begun.record r).resultsAt = _
      rw [resultsAt_record, resultsAt_begun]
      rfl
  | @wake p _ hh hw hm =>
    have hwoken := h.woken p (x.resume.getD { action := .abort })
    cases hm with
    | requested hk =>
      refine ⟨hwoken.goto hh rfl _ fun hr j hj => ?_, ?_⟩
      · cases hres : x.resume with
        | none =>
          rw [hres] at hj
          cases hj
        | some i =>
          rw [hres] at hj
          exact hx hr p hw hk i j hres hj
      · refine takesBackOwn_goto ?_ _
        rfl
    | error hk =>
      have hlast := h.pending hh (Or.inr ⟨p, hw, hk⟩)
      generalize x.resume.getD { action := .abort } = i at hwoken ⊢
      have hset : RetryInv cfg ((c.woken p i).setRetrying i) :=
        { results := hwoken.results
          counted := hwoken.counted
          pending := fun _ _ => by
            rw [LastFailed, setRetrying]
            change (∃ pre r, (c.woken p i).resultsAt = _ ∧ _) ∧ _
            rw [resultsAt_woken]
            exact hlast
          handoff := fun q hq => nomatch hq }
      refine ⟨hset.goto hh rfl _ fun hr j hj => ?_, ?_⟩
      · have hact : i.action = .retry := of_decide_eq_true hr
        rw [applyResume, hact] at hj
        exact (Option.some.inj hj).symm
      · refine takesBackOwn_goto ?_ _
        rfl
    | handoff hk hi =>
      have hpass := hwoken.passHandoff hh rfl (h.handoff p hw hk) p.step
      refine ⟨hpass.goto hh rfl _ fun hr => ?_, ?_⟩
      · exact absurd ((h.handoff p hw hk).symm.trans hr) Bool.false_ne_true
      · refine takesBackOwn_goto ?_ _
        rfl
    | handoffRaised hk hi e =>
      exact ⟨(hwoken.passHandoff hh rfl (h.handoff p hw hk) p.step).stop hh _,
        takesBackOwn_of_le le_rfl⟩
    | aborted hk hi =>
      exact ⟨hwoken.uncounted _ rfl (resultsAt_record _ _) (Or.inl rfl) rfl,
        takesBackOwn_of_le le_rfl⟩
    | abortRaised hk hi e =>
      exact ⟨hwoken.uncounted _ rfl (resultsAt_record _ _) (Or.inr ⟨e, rfl⟩) rfl,
        takesBackOwn_of_le le_rfl⟩

/-- **In every run with steady inputs the invariant holds.** -/
theorem execution_retryInv {cfg : Config} {env : Env} {σ : ℕ → RunState → Input}
    (hσ : ∀ n, (σ n (execution cfg env σ n)).Steady (execution cfg env σ n).toControl) (n : ℕ) :
    RetryInv cfg (execution cfg env σ n).toControl := by
  have hinit : RetryInv cfg {} :=
    { results := rfl
      counted := fun _ _ => le_rfl
      pending := fun _ hor => by
        rcases hor with h | ⟨p, h, -⟩
        · exact absurd h Bool.false_ne_true
        · exact absurd h nofun
      handoff := fun p hp => absurd hp nofun }
  exact execution_invariant hσ hinit (fun e => hinit.stop rfl _)
    (fun x c c' h hx hm => (h.move hx hm).1) n

/-- What the final status of a run promises about its failures. -/
structure FailuresRetried (cfg : Config) (env : Env) (σ : ℕ → RunState → Input) : Prop where
  /-- In a completed result every failure is followed by a pass of the same step. -/
  completed : ∀ n res s', finish cfg env (execution cfg env σ n) = (.ok res, s') →
    res.status = .completed →
    res.steps = (execution cfg env σ n).resultsAt.map Prod.snd ∧
      ∀ pre i r rest, (execution cfg env σ n).resultsAt = pre ++ (i, r) :: rest →
        r.status = .failed → ∃ r', (i, r') ∈ rest ∧ r'.status = .passed
  /-- The failed count goes down only by the pass of the step whose failure came last. -/
  takesBackOwn : ∀ n, TakesBackOwn cfg (execution cfg env σ n).toControl
    (execution cfg env σ (n + 1)).toControl

/-- **Main result.** In a run in which no developer pause moves a pending retry to another step,
a completed result has retried every failure. -/
theorem failures_retried (cfg : Config) (env : Env) (σ : ℕ → RunState → Input)
    (hσ : ∀ n, (σ n (execution cfg env σ n)).Steady (execution cfg env σ n).toControl) :
    FailuresRetried cfg env σ where
  completed n res s' hf hst := by
    have hinv := execution_retryInv hσ n
    generalize execution cfg env σ n = s at hf hinv ⊢
    obtain ⟨hraised, hstatus, hsteps, -⟩ := finish_ok hf
    rw [hst] at hstatus
    unfold finalStatus at hstatus
    split_ifs at hstatus with hc hz
    have hcount := hinv.counted hc hraised
    have hopen : opened s.outcomes = [] := List.length_eq_zero_iff.mp (by omega)
    refine ⟨hsteps.trans hinv.results, fun pre i r rest hat hr => ?_⟩
    rw [outcomes, hat, List.map_append, List.map_cons, hr] at hopen
    obtain ⟨⟨j, r'⟩, hmem, heq⟩ := List.mem_map.mp (passed_later hopen)
    obtain ⟨rfl, hp⟩ := Prod.mk.inj heq
    exact ⟨r', hmem, of_decide_eq_true hp⟩
  takesBackOwn n := ((execution_retryInv hσ n).move (hσ n) (next_move cfg env _ _)).2

end Runs

/-! ## A hidden failure -/

section Example

attribute [local instance] asciiText

/-- Two steps, with pauses on errors. -/
def openThenClear : Config where
  workflow :=
    { settings := { humanMode := false, pauseOnError := true }
      steps := [
        { order := 1, order_pos := WorkflowStep.order_one, name := "Open", action := .navigate },
        { order := 2, order_pos := WorkflowStep.order_two, name := "Clear", action := .clear }] }
  executionId := some "e"
  hasPauseQueue := true

/-- A browser that cannot open any page. -/
def offline : Env where
  answer _ c :=
    match c with
    | .get _ => { result := .error ⟨.other, "offline"⟩ }
    | _ => { result := .ok .none }
  clock _ := 0

/-- The error pause is resumed with `retry`, a developer pause follows at once and is resumed with
`continue`. -/
def pauseBeforeRetry : ℕ → RunState → Input
  | 1, _ => { resume := some { action := .retry } }
  | 2, _ => { pause := true }
  | 3, _ => { resume := some { action := .continue } }
  | _, _ => {}

/-- A browser that is offline when it opens its first page. -/
def firstOffline : Env where
  answer calls c :=
    match c with
    | .get _ =>
      if calls.any fun p => p.1 matches .get _ then { result := .ok .none }
      else { result := .error ⟨.other, "offline"⟩ }
    | _ => { result := .ok .none }
  clock _ := 0

/-- The same with a developer pause that is resumed with `retry`. -/
def pauseWithinRetry : ℕ → RunState → Input
  | 1, _ | 3, _ => { resume := some { action := .retry } }
  | 2, _ => { pause := true }
  | _, _ => {}

theorem pauseWithinRetry_retries {n : ℕ} {s : RunState} {i : ResumeInstruction}
    (h : (pauseWithinRetry n s).resume = some i) : i.action = .retry := by
  unfold pauseWithinRetry at h
  split at h
  · exact Option.some.inj h ▸ rfl
  · exact Option.some.inj h ▸ rfl
  · cases h
  · cases h

/-- The failure is followed by two pauses and by its retry, and the run is completed. -/
theorem failures_retried_pausedRetry :
    (execution openThenClear firstOffline pauseWithinRetry 7).waits =
      [(0, .error), (0, .requested)] ∧
    (execution openThenClear firstOffline pauseWithinRetry 7).outcomes =
      [(0, false), (0, true), (1, true)] ∧
    finalStatus (execution openThenClear firstOffline pauseWithinRetry 7) = .completed ∧
    FailuresRetried openThenClear firstOffline pauseWithinRetry := by
  refine ⟨by decide +kernel, by decide +kernel, by decide +kernel, failures_retried _ _ _ ?_⟩
  intro n _ _ _ _ i j hi hj
  rw [applyResume, pauseWithinRetry_retries hi] at hj
  exact (Option.some.inj hj).symm

/-- **The pass of the second step hides the failure of the first.** -/
theorem failures_not_retried : ¬ FailuresRetried openThenClear offline pauseBeforeRetry := by
  intro h
  have hhalt : (execution openThenClear offline pauseBeforeRetry 6).halt = some .finished := by
    decide +kernel
  have hstatus : finalStatus (execution openThenClear offline pauseBeforeRetry 6) = .completed := by
    decide +kernel
  have hout : (execution openThenClear offline pauseBeforeRetry 6).outcomes =
      [(0, false), (1, true)] := by
    decide +kernel
  obtain ⟨⟨i, r⟩, rest, hat, hir, hrest⟩ := List.map_eq_cons_iff.mp hout
  obtain ⟨rfl, hr⟩ := Prod.mk.inj hir
  have hfin := finish_finished openThenClear offline hhalt
  obtain ⟨r', hmem, hr'⟩ := (h.completed 6 _ _ hfin ((finish_ok hfin).2.1.trans hstatus)).2
    [] 0 r rest hat (by
      cases hs : r.status with
      | passed => rw [hs] at hr; exact absurd hr nofun
      | failed => rfl)
  have hpass : (0, decide (r'.status = .passed)) ∈ [((1 : ℤ), true)] :=
    hrest ▸ List.mem_map_of_mem hmem
  rw [hr'] at hpass
  exact absurd hpass (by decide)

end Example

end ScoutEngine
