import ScoutEngine.Executor.Containment

/-!
# Pauses after failures

With `pause_on_error` a failed step pauses the run, and only the failed retry of a paused step is
left to the `on_error` policy. The program remembers the indices that have paused, for the whole
run, and not which execution is the retry.

* `asks`, `Control.asked`: the step whose retry was asked for, read off the records of a run.
* `PauseInv`, `PauseInv.move`: the indices remembered are those that paused, and a retry is asked
  for one of them.
* `Fails`, `EntersPause`, `LeftToPolicy`: a failed execution, and what follows it.
* **`pauses_iff`**: a failed execution is handled as it should iff, when its index has paused
  before, it is the retry asked for.
* `second_failure_not_paused`: the same step of a later iteration.
-/

set_option autoImplicit false

namespace ScoutEngine

open Control

/-! ## The retry asked for -/

/-- The step whose retry is asked for, after an event: a `retry` asks for it, and the next step that
begins ends it. -/
def asks (asked : Option ℤ) : Ev → Option ℤ
  | .begin _ _ => none
  | .resumed i .error instruction => if instruction.action = .retry then some i else none
  | _ => asked

/-- **The step whose retry was asked for** and has not begun. -/
def Control.asked (c : Control) : Option ℤ := c.trace.foldl asks none

section Records

variable (c : Control)

theorem asked_log (e : Ev) : (c.log e).asked = asks c.asked e := by
  rw [asked, log, List.foldl_append]
  rfl

@[simp] theorem asked_begun : c.begun.asked = none := asked_log c _

@[simp] theorem asked_waitFor (p : Pause) : (c.waitFor p).asked = c.asked :=
  asked_log { c with waiting := some p } _

@[simp] theorem asked_record (r : StepResult) : (c.record r).asked = c.asked :=
  asked_log { c with results := c.results ++ [r] } _

theorem asked_woken (p : Pause) (i : ResumeInstruction) :
    (c.woken p i).asked = asks c.asked (.resumed c.stepIdx p.kind i) :=
  asked_log { c with waiting := none } _

@[simp] theorem waits_begun : c.begun.waits = c.waits := by
  simp [waits, begun, log, List.filterMap_append]

@[simp] theorem waits_record (r : StepResult) : (c.record r).waits = c.waits := by
  simp [waits, record, log, List.filterMap_append]

@[simp] theorem waits_waitFor (p : Pause) :
    (c.waitFor p).waits = c.waits ++ [(c.stepIdx, p.kind)] := by
  simp [waits, waitFor, log, List.filterMap_append]

@[simp] theorem waits_woken (p : Pause) (i : ResumeInstruction) : (c.woken p i).waits = c.waits := by
  simp [waits, woken, log, List.filterMap_append]

end Records

/-! ## The invariant -/

/-- **What is remembered of the error pauses.** -/
structure PauseInv (c : Control) : Prop where
  paused : ∀ i, i ∈ c.paused ↔ (i, PauseKind.error) ∈ c.waits
  waiting : ∀ p, c.waiting = some p → p.kind = .error → (c.stepIdx, PauseKind.error) ∈ c.waits
  asked : ∀ i, c.asked = some i → (i, PauseKind.error) ∈ c.waits

section Invariant

variable {c c' : Control}

/-- Changes of other variables. -/
theorem PauseInv.of_eq (h : PauseInv c) (hp : c'.paused = c.paused) (ht : c'.trace = c.trace)
    (hw : c'.waiting = none) : PauseInv c' where
  paused i := by
    rw [hp, waits, ht]
    exact h.paused i
  waiting p hp := absurd (hw.symm.trans hp) nofun
  asked i hi := by
    rw [Control.asked, ht] at hi
    rw [waits, ht]
    exact h.asked i hi

theorem PauseInv.begun (h : PauseInv c) : PauseInv c.begun where
  paused i := by
    rw [waits_begun]
    exact h.paused i
  waiting p hp hk := by
    rw [waits_begun]
    exact h.waiting p hp hk
  asked i hi := by
    rw [asked_begun] at hi
    exact absurd hi nofun

theorem PauseInv.record (h : PauseInv c) (r : StepResult) : PauseInv (c.record r) where
  paused i := by
    rw [waits_record]
    exact h.paused i
  waiting p hp hk := by
    rw [waits_record]
    exact h.waiting p hp hk
  asked i hi := by
    rw [asked_record] at hi
    rw [waits_record]
    exact h.asked i hi

/-- A pause that is not about a failure. -/
theorem PauseInv.waitFor (h : PauseInv c) {p : Pause} (hk : p.kind ≠ .error) :
    PauseInv (c.waitFor p) where
  paused i := by
    have hne : (i, PauseKind.error) ≠ (c.stepIdx, p.kind) := fun h => hk (Prod.mk.inj h).2.symm
    simp only [waits_waitFor, List.mem_append, List.mem_singleton, hne, or_false]
    exact h.paused i
  waiting q hq hkq := by
    obtain rfl := Option.some.inj hq
    exact absurd hkq hk
  asked i hi := by
    rw [asked_waitFor] at hi
    rw [waits_waitFor]
    exact List.mem_append_left _ (h.asked i hi)

/-- A pause after a failure, which remembers its index. -/
theorem PauseInv.errorPause (h : PauseInv c) {p : Pause} (hk : p.kind = .error) :
    PauseInv (({ c with paused := insert c.stepIdx c.paused } : Control).waitFor p) where
  paused i := by
    have hw := waits_waitFor { c with paused := insert c.stepIdx c.paused } p
    rw [hw, hk]
    change i ∈ insert c.stepIdx c.paused ↔ (i, PauseKind.error) ∈ c.waits ++ [(c.stepIdx, .error)]
    rw [Finset.mem_insert, List.mem_append, List.mem_singleton, h.paused i, or_comm]
    simp only [Prod.mk.injEq, and_true]
  waiting _ _ _ := by
    rw [waits_waitFor, hk]
    exact List.mem_append_right _ (List.mem_singleton_self _)
  asked i hi := by
    rw [asked_waitFor] at hi
    rw [waits_waitFor]
    exact List.mem_append_left _ (h.asked i hi)

theorem PauseInv.woken (h : PauseInv c) {p : Pause} (hw : c.waiting = some p)
    (i : ResumeInstruction) : PauseInv (c.woken p i) where
  paused j := by
    rw [waits_woken]
    exact h.paused j
  waiting q hq := nomatch hq
  asked j hj := by
    rw [waits_woken]
    rw [asked_woken] at hj
    cases hk : p.kind with
    | error =>
      rw [hk, asks] at hj
      split_ifs at hj
      obtain rfl := Option.some.inj hj
      exact h.waiting p hw hk
    | requested | handoff =>
      rw [hk] at hj
      exact h.asked j hj

theorem PauseInv.goto (h : PauseInv c) (hw : c.waiting = none) (n : ℕ) (v : PyVal) :
    PauseInv (c.goto n v) := by
  obtain ⟨i, k, he⟩ := goto_eq n v c
  rw [he]
  exact h.of_eq rfl rfl hw

theorem PauseInv.advance (h : PauseInv c) (hw : c.waiting = none) (step : WorkflowStep)
    (r : StepResult) : PauseInv (c.advance step r) := by
  obtain ⟨i, l, o, he⟩ := advance_eq step r c
  rw [he]
  exact h.of_eq rfl rfl hw

/-- The accounting of a step. -/
theorem PauseInv.account (h : PauseInv c) (hw : c.waiting = none) (cfg : Config)
    (step : WorkflowStep) (r : StepResult) : PauseInv (c.account cfg step r) := by
  cases hr : r.status with
  | passed =>
    rw [account_passed hr]
    exact PauseInv.advance (c := c.countPass) (h.of_eq rfl rfl hw) hw step r
  | failed =>
    rcases account_failed cfg step c hr with ⟨-, he⟩ | ⟨-, ⟨-, he⟩ | ⟨-, he⟩⟩
    · rw [he]
      exact PauseInv.errorPause (c := c.countFail) (h.of_eq rfl rfl hw) rfl
    · rw [he]
      exact h.of_eq rfl rfl hw
    · rw [he]
      exact PauseInv.advance (c := c.countFail) (h.of_eq rfl rfl hw) hw step r

/-- **Every move keeps the invariant.** -/
theorem PauseInv.move [PyText] {cfg : Config} {x : Input} (h : PauseInv c) (hm : Move cfg x c c') :
    PauseInv c' := by
  cases hm with
  | halted => exact h
  | head _ hw hm =>
    have hran : ∀ step r, PauseInv (c.ran step r) := fun step r =>
      (h.begun.record r).of_eq rfl rfl hw
    cases hm with
    | finished | noStep | cancelled => exact h.of_eq rfl rfl hw
    | requested => exact h.waitFor nofun
    | monitorRaised => exact h.begun.of_eq rfl rfl hw
    | handoffWaits => exact h.begun.waitFor nofun
    | @handoffPassed step =>
      exact PauseInv.goto (c := c.begun.passHandoff _) ((h.begun.record _).of_eq rfl rfl hw) hw _ _
    | @handoffRaised step => exact (h.begun.record (handoffResult step)).of_eq rfl rfl hw
    | @ran step r => exact (hran step r).account hw cfg step r
    | @callbackRaised step r => exact (hran step r).of_eq rfl rfl hw
  | @wake p _ _ hw hm =>
    have hwoken := h.woken hw (x.resume.getD { action := .abort })
    cases hm with
    | requested => exact hwoken.goto rfl _ _
    | error => exact PauseInv.goto (c := (c.woken p _).setRetrying _) (hwoken.of_eq rfl rfl rfl) rfl _ _
    | handoff =>
      exact PauseInv.goto (c := (c.woken p _).passHandoff _) ((hwoken.record _).of_eq rfl rfl rfl)
        rfl _ _
    | handoffRaised => exact (hwoken.record (handoffResult p.step)).of_eq rfl rfl rfl
    | aborted | abortRaised => exact (hwoken.record (abortedResult p.step)).of_eq rfl rfl rfl

end Invariant

/-! ## Failures -/

section Runs

variable [PyText]

/-- **A step fails** in move `n` of a run, and its result is counted. -/
structure Fails (cfg : Config) (env : Env) (σ : ℕ → RunState → Input) (n : ℕ) : Prop where
  begun : AtStep cfg (σ n (execution cfg env σ n)) (execution cfg env σ n).toControl
  executed : ∃ step, cfg.stepAt (execution cfg env σ n).toControl = some step ∧
    step.action ≠ .handoff
  failed : ∃ r ∈ (execution cfg env σ (n + 1)).results.drop (execution cfg env σ n).results.length,
    r.status = .failed
  counted : ∀ e, (execution cfg env σ (n + 1)).halt ≠ some (.raised e)

/-- An exception left the loop. -/
def Halt.isRaised : Option Halt → Bool
  | some (.raised _) => true
  | _ => false

omit [PyText] in
theorem isRaised_iff (h : Option Halt) : Halt.isRaised h = false ↔ ∀ e, h ≠ some (.raised e) := by
  cases h with
  | none => exact ⟨fun _ _ => nofun, fun _ => rfl⟩
  | some k =>
    cases k with
    | raised e => exact ⟨fun h => absurd h Bool.noConfusion, fun h => absurd rfl (h e)⟩
    | _ => exact ⟨fun _ _ => nofun, fun _ => rfl⟩

instance (cfg : Config) (env : Env) (σ : ℕ → RunState → Input) (n : ℕ) :
    Decidable (Fails cfg env σ n) :=
  decidable_of_iff (AtStep cfg (σ n (execution cfg env σ n)) (execution cfg env σ n).toControl ∧
      (∃ step ∈ cfg.stepAt (execution cfg env σ n).toControl, step.action ≠ .handoff) ∧
      (∃ r ∈ (execution cfg env σ (n + 1)).results.drop (execution cfg env σ n).results.length,
        r.status = .failed) ∧
      Halt.isRaised (execution cfg env σ (n + 1)).halt = false)
    ⟨fun h => ⟨h.1, h.2.1, h.2.2.1, (isRaised_iff _).mp h.2.2.2⟩,
      fun h => ⟨h.begun, h.executed, h.failed, (isRaised_iff _).mpr h.counted⟩⟩

/-- The run pauses in the state `paused_error`. -/
def EntersPause (s' : RunState) : Prop :=
  s'.halt = none ∧ ∃ p, s'.waiting = some p ∧ p.kind = .error

/-- The `on_error` policy decides whether the run goes on. -/
def LeftToPolicy (cfg : Config) (s s' : RunState) : Prop :=
  s'.waiting = none ∧ ∃ step, cfg.stepAt s.toControl = some step ∧
    s'.halt = if cfg.policy step = .stop then some .stopped else none

/-- **The retry asked for**: the run is about to execute the step that a retry was asked for. -/
def Control.Retries (c : Control) : Prop := c.asked = some c.stepIdx

instance (c : Control) : Decidable c.Retries := inferInstanceAs (Decidable (_ = _))

/-- **What follows a failure** as the design has it: a pause, unless it is the retry asked for, which
is left to the policy. -/
structure RetryThenFail (cfg : Config) (s s' : RunState) : Prop where
  pauses : EntersPause s' ↔ ¬ s.Retries
  policy : LeftToPolicy cfg s s' ↔ s.Retries

variable {cfg : Config} {env : Env} {σ : ℕ → RunState → Input}

theorem pauseInv (cfg : Config) (env : Env) (σ : ℕ → RunState → Input) (n : ℕ) :
    PauseInv (execution cfg env σ n).toControl := by
  have h0 : PauseInv ({} : Control) :=
    ⟨fun i => ⟨fun h => absurd h (Finset.notMem_empty i), fun h => absurd h List.not_mem_nil⟩,
      fun p hp => absurd hp.symm (Option.some_ne_none p),
      fun i hi => absurd hi.symm (Option.some_ne_none i)⟩
  exact execution_invariant (A := fun _ _ => True) (fun _ => trivial) h0
    (fun e => h0.of_eq rfl rfl rfl) (fun _ _ _ h _ hm => h.move hm) n

/-- What a failed execution does: it pauses iff its index has not paused. -/
theorem Fails.cases {n : ℕ} (h : Fails cfg env σ n)
    (herror : cfg.workflow.settings.pauseOnError = true) (hpause : cfg.canPause = true) :
    ((execution cfg env σ n).stepIdx ∉ (execution cfg env σ n).paused ∧
        EntersPause (execution cfg env σ (n + 1))) ∨
      (execution cfg env σ n).stepIdx ∈ (execution cfg env σ n).paused ∧
        LeftToPolicy cfg (execution cfg env σ n) (execution cfg env σ (n + 1)) := by
  obtain ⟨step, hs, ha⟩ := h.executed
  obtain ⟨r, hr, hf⟩ := h.failed
  have hm := head_move cfg env (σ n (execution cfg env σ n)) (execution cfg env σ n)
  rw [← next_of_awake h.begun.running h.begun.awake, ← execution_succ] at hm
  obtain ⟨-, he⟩ := hm.ran_of_result hs ha hr h.counted
  have hhalt := hm.policy h.begun.running hs hr h.counted
  have hpauses : cfg.PausesAfterFailure (execution cfg env σ n).toControl ↔
      (execution cfg env σ n).stepIdx ∉ (execution cfg env σ n).paused :=
    ⟨fun h => h.2.2, fun h => ⟨herror, hpause, h⟩⟩
  rcases account_failed cfg step ((execution cfg env σ n).ran step r) hf with
    ⟨hp, h'⟩ | ⟨hp, h'⟩
  · refine Or.inl ⟨hpauses.mp hp, ?_, errorPause step r, ?_, rfl⟩
    · rw [hhalt, if_neg fun h => h.2.1 hp]
    · rw [he, h']
      rfl
  · refine Or.inr ⟨not_not.mp fun h => hp (hpauses.mpr h), ?_, step, hs, ?_⟩
    · rcases h' with ⟨-, h'⟩ | ⟨-, h'⟩
      · rw [he, h']
        exact h.begun.awake
      · rw [he, h', advance_waiting]
        exact h.begun.awake
    · rw [hhalt]
      by_cases hq : cfg.policy step = .stop
      · rw [if_pos hq, if_pos ⟨hf, hp, hq⟩]
      · rw [if_neg hq, if_neg fun h => hq h.2.2]

/-- **Main result.** A failed execution is handled as the design has it iff it is the retry asked
for, in case its index has paused before. -/
theorem pauses_iff (herror : cfg.workflow.settings.pauseOnError = true)
    (hpause : cfg.canPause = true) (n : ℕ) (h : Fails cfg env σ n) :
    RetryThenFail cfg (execution cfg env σ n) (execution cfg env σ (n + 1)) ↔
      (((execution cfg env σ n).stepIdx, PauseKind.error) ∈ (execution cfg env σ n).waits →
        (execution cfg env σ n).Retries) := by
  have hinv := pauseInv cfg env σ n
  have hpaused := hinv.paused (execution cfg env σ n).stepIdx
  have hasked := hinv.asked (execution cfg env σ n).stepIdx
  rcases h.cases herror hpause with ⟨hnot, henter⟩ | ⟨hmem, hleft⟩
  · have hwaits := fun hw => hnot (hpaused.mpr hw)
    have hretry : ¬ (execution cfg env σ n).Retries := fun hr => hwaits (hasked hr)
    refine ⟨fun _ hw => absurd hw hwaits, fun _ => ⟨⟨fun _ => hretry, fun _ => henter⟩, ?_⟩⟩
    refine ⟨fun hl => ?_, fun hr => absurd hr hretry⟩
    obtain ⟨-, p, hp, -⟩ := henter
    exact absurd (hl.1.symm.trans hp) nofun
  · have hwaits := hpaused.mp hmem
    have hnoPause : ¬ EntersPause (execution cfg env σ (n + 1)) := by
      rintro ⟨-, p, hp, -⟩
      exact absurd (hleft.1.symm.trans hp) nofun
    constructor
    · exact fun hr _ => not_not.mp fun hn => hnoPause (hr.pauses.mpr hn)
    · intro hw
      have hretry := hw hwaits
      exact ⟨⟨fun hp => absurd hp hnoPause, fun hn => absurd hretry hn⟩, fun _ => hretry,
        fun _ => hleft⟩

end Runs

/-! ## A failure in a later iteration -/

section Example

attribute [local instance] asciiText

/-- A loop over two items, in which a click fails. -/
def clickEach : Config where
  workflow :=
    { settings := { humanMode := false, onError := .continue, pauseOnError := true }
      steps := [
        { order := 1, order_pos := WorkflowStep.order_one, name := "Each", action := .loop
          value := some "[1, 2]", loopVar := some "x", loopSteps := some 2 },
        { order := 2, order_pos := WorkflowStep.order_two, name := "Open", action := .click },
        { order := 3, order_pos := WorkflowStep.order_three, name := "Clear", action := .clear }] }
  executionId := some "e"
  hasPauseQueue := true

/-- Every pause is answered by `continue`. -/
def continuing (_ : ℕ) (_ : RunState) : Input := { resume := some { action := .continue } }

/-- The click of the first iteration pauses the run. -/
theorem pauses_iff_first : Fails clickEach unclickable continuing 1 ∧
    (RetryThenFail clickEach (execution clickEach unclickable continuing 1)
        (execution clickEach unclickable continuing 2) ↔
      (((execution clickEach unclickable continuing 1).stepIdx, PauseKind.error) ∈
          (execution clickEach unclickable continuing 1).waits →
        (execution clickEach unclickable continuing 1).Retries)) := by
  have hf : Fails clickEach unclickable continuing 1 := by decide +kernel
  exact ⟨hf, pauses_iff rfl rfl 1 hf⟩

/-- **The click of the second iteration does not**, although no retry was asked for. -/
theorem second_failure_not_paused : Fails clickEach unclickable continuing 4 ∧
    (execution clickEach unclickable continuing 4).begins.map Prod.fst = [0, 1, 2] ∧
    ¬ RetryThenFail clickEach (execution clickEach unclickable continuing 4)
      (execution clickEach unclickable continuing 5) := by
  refine ⟨by decide +kernel, by decide +kernel, fun h => ?_⟩
  have hretry : ¬ (execution clickEach unclickable continuing 4).Retries := by decide +kernel
  obtain ⟨-, p, hp, -⟩ := h.pauses.mpr hretry
  have hnone : (execution clickEach unclickable continuing 5).waiting.isNone = true := by
    decide +kernel
  exact absurd ((Option.isNone_iff_eq_none.mp hnone).symm.trans hp) nofun

end Example

end ScoutEngine
