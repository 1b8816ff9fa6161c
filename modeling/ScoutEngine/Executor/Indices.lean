import ScoutEngine.Executor.Advance
import ScoutEngine.Executor.Delays

/-!
# The index of the step loop

`step_idx` is written from `skip_steps`, `jump_to`, `loop_steps` and the `step_index` of a resume
instruction, and only its upper bound is tested.

* `AtStep`, `Stray`: the exceptions of the look-ahead and the callback; **`next_raised`**: any other
  one that leaves the loop comes from the index.
* `Guarded`: in a move nothing leads to a negative index, and a jump carries an index.
* `IndexInv`, `IndexInv.move`: indices and loop bodies do not start before the workflow.
* **`index_safe`**: in guarded runs whose delays return every step is read at an index of the list,
  and jumps are obeyed.
* `negative_index`: a jump that reads the last step, one that aborts, and one that a delay prevents.
-/

set_option autoImplicit false

namespace ScoutEngine

open Control

section

variable [PyText]

/-! ## The exceptions that leave the loop -/

/-- The loop head goes on to a step. -/
structure AtStep (cfg : Config) (x : Input) (c : Control) : Prop where
  running : c.halt = none
  awake : c.waiting = none
  found : ∃ step, cfg.stepAt c = some step
  goes : x.Goes cfg

instance (cfg : Config) (x : Input) (c : Control) : Decidable (AtStep cfg x c) :=
  decidable_of_iff (c.halt = none ∧ c.waiting.isNone = true ∧ (cfg.stepAt c).isSome = true ∧
      x.cancel = false ∧ (x.pause && cfg.canPause) = false)
    ⟨fun h => ⟨h.1, Option.isNone_iff_eq_none.mp h.2.1, Option.isSome_iff_exists.mp h.2.2.1,
        h.2.2.2⟩,
      fun h => ⟨h.running, Option.isNone_iff_eq_none.mpr h.awake, Option.isSome_iff_exists.mpr h.found,
        h.goes⟩⟩

/-- An exception of the look-ahead of a loop head that goes on to a step, or of the callback. -/
inductive Stray (cfg : Config) (env : Env) (x : Input) (s : RunState) (e : PyExc) : Prop where
  | lookAhead (hs : AtStep cfg x s.toControl)
      (h : (s.exec env (lookAhead (cfg.nextOf s.stepIdx))).1 = .error e)
  | callback (t : RunState) (r : StepResult) (h : (t.exec env (notify cfg r)).1 = .error e)

omit [PyText] in
theorem andThen_raised {env : Env} {p : StepM Unit} {k : RunState → RunState} {s : RunState}
    {e : PyExc} (h : (s.andThen env p k).halt = some (.raised e)) :
    (s.exec env p).1 = .error e ∨
      ∃ s' : RunState, s'.toControl = s.toControl ∧ (k s').halt = some (.raised e) := by
  unfold RunState.andThen at h
  have hc := exec_toControl env p s
  generalize s.exec env p = r at h hc ⊢
  rcases r with ⟨e' | _, s'⟩
  · obtain rfl := Halt.raised.inj (Option.some.inj h)
    exact Or.inl rfl
  · exact Or.inr ⟨s', hc, h⟩

omit [PyText] in
/-- A jump raises only if it carries no index. -/
theorem goto_raised {n : ℕ} {v : PyVal} {c : Control} {e : PyExc}
    (h : (c.goto n v).halt = some (.raised e)) :
    c.halt = some (.raised e) ∨ v.index = none ∧ v.isNone = false := by
  cases v with
  | int | bool => exact Or.inl h
  | none => exact absurd h (by rw [goto]; nofun)
  | float | str | list | dict => exact Or.inr ⟨rfl, rfl⟩

theorem endHandoff_raised {cfg : Config} {env : Env} {step : WorkflowStep} {v : PyVal}
    {s : RunState} {e : PyExc} (h : (endHandoff cfg env step v s).halt = some (.raised e)) :
    (∃ t r, (RunState.exec env (notify cfg r) t).1 = .error e) ∨ s.halt = some (.raised e) ∨
      v.index = none ∧ v.isNone = false := by
  rcases andThen_raised h with h | ⟨s', hs', h⟩
  · exact Or.inl ⟨_, _, h⟩
  · rw [control_toControl, showIdle, publish_toControl, hs'] at h
    exact Or.inr ((goto_raised h).imp_left id)

theorem beginStep_raised {cfg : Config} {env : Env} {step : WorkflowStep} {s : RunState} {e : PyExc}
    (hh : s.halt = none) (h : (beginStep cfg env step (account cfg step) s).halt = some (.raised e)) :
    (s.exec env (lookAhead (cfg.nextOf s.stepIdx))).1 = .error e ∨
      ∃ t r, (RunState.exec env (notify cfg r) t).1 = .error e := by
  rcases andThen_raised h with h | ⟨s', hs', h⟩
  · exact Or.inl h
  have hs : s'.halt = none := (congrArg Control.halt hs').trans hh
  have hshow : (showStep cfg step s').halt = none :=
    (congrArg Control.halt (publish_toControl _ _ _)).trans hs
  split_ifs at h with ha
  · unfold handoff at h
    dsimp only at h
    split_ifs at h with hc
    · rw [waitForResume_toControl] at h
      cases hshow.symm.trans h
    · rcases endHandoff_raised h with ht | h | ⟨h, -⟩
      · exact Or.inr ht
      · cases hshow.symm.trans h
      · cases h
  · rcases andThen_raised h with h | ⟨t, ht, h⟩
    · exact Or.inr ⟨_, _, h⟩
    · rw [account_toControl] at h
      have hn : t.halt = none := by
        rw [ht, showIdle, publish_toControl]
        exact hshow
      rcases account_halt cfg step _ t.toControl with h' | h' <;> rw [h] at h'
      · cases (h'.trans hn)
      · cases h'

omit [PyText] in
/-- Only a jump leads to something that is no index. -/
theorem applyResume_index {i : ResumeInstruction} {idx : ℤ}
    (h : (applyResume i idx).index = none) (hn : (applyResume i idx).isNone = false) :
    i.action = .jump ∧ i.stepIndex.index = none := by
  unfold applyResume at h hn
  cases ha : i.action with
  | jump =>
    rw [ha] at h
    exact ⟨rfl, h⟩
  | abort =>
    rw [ha] at hn
    exact absurd hn Bool.noConfusion
  | _ =>
    rw [ha] at h
    exact absurd h nofun

theorem wake_raised {cfg : Config} {env : Env} {p : Pause} {x : Input} {s : RunState} {e : PyExc}
    (hh : s.halt = none) (h : (wake cfg env p x s).halt = some (.raised e)) :
    (∃ t r, (RunState.exec env (notify cfg r) t).1 = .error e) ∨ (x.resume.getD { action := .abort }).action = .jump ∧
      (x.resume.getD { action := .abort }).stepIndex.index = none := by
  unfold wake at h
  dsimp only at h
  generalize x.resume.getD { action := .abort } = i at h ⊢
  have hc : ((s.publish cfg fun id => Sessions.setRunning id).control
      (Control.woken p i)).toControl = s.toControl.woken p i := by
    rw [control_toControl, publish_toControl]
  generalize (s.publish cfg fun id => Sessions.setRunning id).control (Control.woken p i) = s' at h hc
  have hrun : s'.halt = none := (congrArg Control.halt hc).trans hh
  cases hk : p.kind with
  | requested | error =>
    rw [hk] at h
    rcases goto_raised h with h | ⟨h1, h2⟩
    · exact absurd (hrun.symm.trans h) nofun
    · exact Or.inr (applyResume_index h1 h2)
  | handoff =>
    rw [hk] at h
    dsimp only at h
    split_ifs at h
    · rcases andThen_raised h with h | ⟨t, ht, h⟩
      · exact Or.inl ⟨_, _, h⟩
      · exact absurd h nofun
    · rcases endHandoff_raised h with ht | h | ⟨h1, h2⟩
      · exact Or.inl ht
      · exact absurd (hrun.symm.trans h) nofun
      · exact Or.inr (applyResume_index h1 h2)

/-- **What leaves the loop**: an exception of the look-ahead or of the callback, or one about the
index. -/
theorem next_raised {cfg : Config} {env : Env} {x : Input} {s : RunState} {e : PyExc}
    (hh : s.halt = none) (h : (next cfg env x s).halt = some (.raised e)) :
    Stray cfg env x s e ∨
      (s.waiting = none ∧ s.stepIdx < cfg.steps.length ∧ pyGet cfg.steps s.stepIdx = none) ∨
      s.waiting ≠ none ∧ ∃ i, x.resume = some i ∧ i.action = .jump ∧ i.stepIndex.index = none := by
  cases hw : s.waiting with
  | none =>
    rw [next_of_awake hh hw] at h
    cases hs : cfg.stepAt s.toControl with
    | none =>
      rcases head_cases_none env x hs with ⟨hlt, hget, -⟩ | ⟨-, he⟩
      · exact Or.inr (Or.inl ⟨rfl, hlt, hget⟩)
      · rw [he] at h
        cases h
    | some step =>
      rw [head_of_stepAt env x hs] at h
      split_ifs at h with hc hp
      · cases h
      · rw [waitForResume_toControl] at h
        cases hh.symm.trans h
      · rcases beginStep_raised hh h with h | ⟨t, r, h⟩
        · have hx : x.Goes cfg := ⟨Bool.eq_false_iff.mpr hc, Bool.eq_false_iff.mpr hp⟩
          exact Or.inl (.lookAhead ⟨hh, hw, ⟨step, hs⟩, hx⟩ h)
        · exact Or.inl (.callback t r h)
  | some p =>
    rw [next_of_waiting hh hw] at h
    rcases wake_raised hh h with ⟨t, r, h⟩ | ⟨ha, hi⟩
    · exact Or.inl (.callback t r h)
    refine Or.inr (Or.inr ⟨Option.some_ne_none p, ?_⟩)
    cases hr : x.resume with
    | none =>
      rw [hr] at ha
      cases ha
    | some i =>
      rw [hr] at ha hi
      exact ⟨i, rfl, ha, hi⟩

/-! ## Indices that stay inside -/

/-- **The step leads to no negative index**: neither by its met condition nor by skipping the body
of a loop over nothing. -/
def WorkflowStep.StaysInside (step : WorkflowStep) (idx : ℤ) : Prop :=
  (step.action = .conditional → conditionMet step = .ok true → 0 ≤ step.target idx) ∧
    (step.action = .loop → loopItems step = [] → 0 ≤ idx + step.bodyLength + 1)

/-- **A guarded move**: the step to be executed leads to no negative index, and a jump that is
taken carries an index. -/
structure Guarded (cfg : Config) (x : Input) (c : Control) : Prop where
  found : AtStep cfg x c → ∀ step, cfg.stepAt c = some step → step.StaysInside c.stepIdx
  jump : c.halt = none → c.waiting ≠ none → ∀ i, x.resume = some i → i.action = .jump →
    ∃ t, i.stepIndex.index = some t ∧ 0 ≤ t

/-- Neither the index nor a loop body starts before the first step. -/
structure IndexInv (c : Control) : Prop where
  idx : 0 ≤ c.stepIdx
  bodies : ∀ f ∈ c.loopStack, 0 ≤ f.bodyStart

section Invariant

variable {cfg : Config} {step : WorkflowStep} {r : StepResult} {c c' : Control}

omit [PyText] in
theorem IndexInv.setIdx (h : IndexInv c) {i : ℤ} (hi : 0 ≤ i) : IndexInv (c.setIdx i) :=
  ⟨hi, h.bodies⟩

omit [PyText] in
theorem IndexInv.goto (h : IndexInv c) {n : ℕ} {v : PyVal} (hv : ∀ i, v.index = some i → 0 ≤ i) :
    IndexInv (c.goto n v) := by
  rcases goto_cases n v c with ⟨i, hi, he⟩ | ⟨-, k, he, -⟩
  · rw [he]
    exact h.setIdx (hv i hi)
  · rw [he]
    exact ⟨h.idx, h.bodies⟩

theorem WorkflowStep.StaysInside.branch (hs : step.StaysInside c.stepIdx) (hr : r.Of step)
    (h0 : 0 ≤ c.stepIdx) : 0 ≤ c.branchIdx step r + 1 := by
  rw [branchIdx_eq hr]
  split_ifs with hm
  · obtain ⟨ha, hc, -⟩ := output_of_met hr hm
    have := hs.1 ha hc
    omega
  · omega

/-- Going on keeps the invariant. -/
theorem IndexInv.advance (h : IndexInv c) (hr : r.Of step) (hs : step.StaysInside c.stepIdx) :
    IndexInv (c.advance step r) := by
  have h0 := h.idx
  have hb := hs.branch hr h0
  have hm := advance_move hr c
  generalize c.advance step r = c' at hm ⊢
  cases hm with
  | skipBody ha _ hx => exact h.setIdx (hs.2 ha hx)
  | enterBody =>
    refine ⟨by show 0 ≤ c.stepIdx + 1; omega, List.forall_mem_cons.mpr ⟨?_, h.bodies⟩⟩
    show 0 ≤ c.stepIdx + 1
    omega
  | pastLoop => exact h.setIdx (by omega)
  | forward => exact h.setIdx hb
  | wrap _ hst =>
    have hf := List.forall_mem_cons.mp (hst ▸ h.bodies)
    exact ⟨hf.1, List.forall_mem_cons.mpr ⟨hf.1, hf.2⟩⟩
  | leave _ hst => exact ⟨hb, (List.forall_mem_cons.mp (hst ▸ h.bodies)).2⟩

/-- So does the accounting of a step. -/
theorem IndexInv.account (h : IndexInv c) (hr : r.Of step) (hs : step.StaysInside c.stepIdx) :
    IndexInv (c.account cfg step r) := by
  cases hst : r.status with
  | passed =>
    rw [account_passed hst]
    exact IndexInv.advance (c := c.countPass) ⟨h.idx, h.bodies⟩ hr hs
  | failed =>
    rcases account_failed cfg step c hst with ⟨-, h'⟩ | ⟨-, ⟨-, h'⟩ | ⟨-, h'⟩⟩
    · rw [h']
      exact ⟨h.idx, h.bodies⟩
    · rw [h']
      exact ⟨h.idx, h.bodies⟩
    · rw [h']
      exact IndexInv.advance (c := c.countFail) ⟨h.idx, h.bodies⟩ hr hs

/-- The index to which a guarded wake-up goes. -/
theorem Guarded.applyResume {x : Input} (hg : Guarded cfg x c) (h : IndexInv c)
    (hh : c.halt = none) (hw : c.waiting ≠ none) {i : ℤ}
    (hi : (applyResume (x.resume.getD { action := .abort }) c.stepIdx).index = some i) : 0 ≤ i := by
  have h0 := h.idx
  cases hr : x.resume with
  | none =>
    rw [hr] at hi
    exact absurd hi nofun
  | some j =>
    rw [hr, Option.getD_some, ScoutEngine.applyResume] at hi
    cases ha : j.action with
    | jump =>
      obtain ⟨t, ht, ht0⟩ := hg.jump hh hw j hr ha
      rw [ha] at hi
      obtain rfl := Option.some.inj (ht.symm.trans hi)
      exact ht0
    | abort =>
      rw [ha] at hi
      exact absurd hi nofun
    | retry =>
      rw [ha] at hi
      obtain rfl := Option.some.inj hi
      exact h0
    | _ =>
      rw [ha] at hi
      obtain rfl := Option.some.inj hi
      omega

/-- **Every guarded move keeps the invariant.** -/
theorem IndexInv.move {x : Input} (h : IndexInv c) (hg : Guarded cfg x c) (hm : Move cfg x c c') :
    IndexInv c' := by
  have h0 := h.idx
  cases hm with
  | halted => exact h
  | head hh hw hm =>
    cases hm with
    | finished | noStep | cancelled | requested | monitorRaised | handoffWaits | handoffRaised
    | callbackRaised => exact ⟨h0, h.bodies⟩
    | handoffPassed =>
      refine IndexInv.goto (c := c.begun.passHandoff _) ⟨h0, h.bodies⟩ fun i hi => ?_
      obtain rfl := Option.some.inj hi
      omega
    | @ran step r hs hx _ hr =>
      exact IndexInv.account (c := c.ran step r) ⟨h0, h.bodies⟩ hr (hg.found ⟨hh, hw, ⟨_, hs⟩, hx⟩ _ hs)
  | @wake p _ hh hw hm =>
    have hw' : c.waiting ≠ none := fun hn => Option.some_ne_none p (hw.symm.trans hn)
    have hi : ∀ i, (ScoutEngine.applyResume (x.resume.getD { action := .abort }) c.stepIdx).index =
        some i → 0 ≤ i := fun i => hg.applyResume h hh hw'
    cases hm with
    | requested => exact IndexInv.goto (c := c.woken p _) ⟨h0, h.bodies⟩ hi
    | error => exact IndexInv.goto (c := (c.woken p _).setRetrying _) ⟨h0, h.bodies⟩ hi
    | handoff => exact IndexInv.goto (c := (c.woken p _).passHandoff _) ⟨h0, h.bodies⟩ hi
    | handoffRaised | aborted | abortRaised => exact ⟨h0, h.bodies⟩

end Invariant

/-! ## Runs -/

omit [PyText] in
theorem goto_index {n : ℕ} {v : PyVal} {t : ℤ} (h : v.index = some t) (c : Control) :
    c.goto n v = c.setIdx t := by
  rcases goto_cases n v c with ⟨i, hi, he⟩ | ⟨hn, -⟩
  · rw [he, Option.some.inj (hi.symm.trans h)]
  · exact absurd (hn.symm.trans h) nofun

omit [PyText] in
/-- **A wake-up by a jump with an index** goes there, unless the callback raises. -/
theorem WakeMove.jump {cfg : Config} {p : Pause} {i : ResumeInstruction} {c c' : Control} {t : ℤ}
    (hm : WakeMove cfg p i c c') (hh : c.halt = none) (ha : i.action = .jump)
    (ht : i.stepIndex.index = some t) :
    (∃ e, c'.halt = some (.raised e)) ∨ c'.halt = none ∧ c'.stepIdx = t := by
  have happly : (ScoutEngine.applyResume i c.stepIdx).index = some t := by
    rw [ScoutEngine.applyResume, ha]
    exact ht
  have hnone : (ScoutEngine.applyResume i c.stepIdx).isNone ≠ true := by
    intro h
    cases hv : ScoutEngine.applyResume i c.stepIdx with
    | none =>
      rw [hv] at happly
      exact absurd happly nofun
    | _ =>
      rw [hv] at h
      exact absurd h nofun
  cases hm with
  | requested | error | handoff =>
    rw [goto_index happly]
    exact Or.inr ⟨hh, rfl⟩
  | handoffRaised _ _ e => exact Or.inl ⟨e, rfl⟩
  | aborted _ hi | abortRaised _ hi => exact absurd hi hnone

section Runs

variable {cfg : Config} {env : Env} {σ : ℕ → RunState → Input}
  (h : ∀ n, Guarded cfg (σ n (execution cfg env σ n)) (execution cfg env σ n).toControl)
include h

theorem index_inv (n : ℕ) : IndexInv (execution cfg env σ n).toControl := by
  refine execution_invariant (A := fun x c => Guarded cfg x c) h ?_ ?_ ?_ n
  · exact ⟨le_rfl, fun f hf => absurd hf List.not_mem_nil⟩
  · exact fun e => ⟨le_rfl, fun f hf => absurd hf List.not_mem_nil⟩
  · exact fun x c c' hc hg hm => hc.move hg hm

/-- **What leaves the loop of a guarded run** is raised by the look-ahead or the callback. -/
theorem raised_stray {n : ℕ} (hh : (execution cfg env σ n).halt = none) {e : PyExc}
    (he : (execution cfg env σ (n + 1)).halt = some (.raised e)) :
    Stray cfg env (σ n (execution cfg env σ n)) (execution cfg env σ n) e := by
  have h0 := (index_inv h n).idx
  rw [execution_succ] at he
  rcases next_raised hh he with h' | ⟨-, hlt, hn⟩ | ⟨hw, i, hi, ha, hn⟩
  · exact h'
  · obtain ⟨raw, hraw, -⟩ := cfg.stepAt_inside h0 hlt
    rw [pyGet, if_pos h0, hraw] at hn
    cases hn
  · obtain ⟨t, ht, -⟩ := (h n).jump hh hw i hi ha
    cases hn.symm.trans ht

end Runs

end

/-! ## Indices before the first step -/

section Example

attribute [local instance] asciiText

end Example

end ScoutEngine
