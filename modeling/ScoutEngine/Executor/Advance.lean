import ScoutEngine.Executor.Moves

/-!
# From one step to the next

What the statements after a step do, in terms of the fields of the step.

* `WorkflowStep.target`, `Control.branchIdx`, `branchIdx_eq`: where a conditional leaves the index.
* `WorkflowStep.frame`, `startLoop_of`: the frame that a loop step pushes.
* `AdvanceMove`, **`advance_move`**: the six ways to the next loop head.
* `StepMove`, **`HeadMove.stepMove`**: what a step does in a run that goes on.
-/

set_option autoImplicit false

namespace ScoutEngine

/-- The number of steps of a loop body. -/
def WorkflowStep.bodyLength (step : WorkflowStep) : ℤ := step.loopSteps.getD 0

/-- The frame that a loop step at an index pushes. -/
def WorkflowStep.frame (step : WorkflowStep) (idx : ℤ) : LoopFrame where
  items := loopItems step
  currentIndex := 0
  loopVar := step.loopVar
  loopIndexVar := step.loopIndexVar
  bodyStart := idx + 1
  bodyEnd := idx + step.bodyLength

/-- The index to which a conditional step at an index leads when its condition is met. -/
def WorkflowStep.target (step : WorkflowStep) (idx : ℤ) : ℤ :=
  if step.skipSteps.getD 0 = 0 then step.jumpTo.getD (idx + 1) else idx + step.skipSteps.getD 0 + 1

/-- The result of a conditional step whose condition is met. -/
def StepResult.Met (r : StepResult) : Prop :=
  r.action = .conditional ∧ r.status = .passed ∧ (r.outputData.getKey "condition_met").truthy = true

instance (r : StepResult) : Decidable r.Met := inferInstanceAs (Decidable (_ ∧ _ ∧ _))

namespace Control

variable {step : WorkflowStep} {r : StepResult} {c : Control}

/-! ## Reading the output of a loop step -/

theorem loopData_truthy (step : WorkflowStep) : (loopData step).truthy = true := rfl

theorem listKey_items (step : WorkflowStep) : listKey (loopData step) "items" = loopItems step := rfl

theorem intKey_loopSteps (step : WorkflowStep) :
    intKey (loopData step) "loop_steps" = step.bodyLength := by
  unfold intKey WorkflowStep.bodyLength loopData
  cases step.loopSteps <;> rfl

theorem strKey_loopVar (step : WorkflowStep) : strKey (loopData step) "loop_var" = step.loopVar := by
  unfold strKey loopData
  cases step.loopVar <;> rfl

theorem strKey_loopIndexVar (step : WorkflowStep) :
    strKey (loopData step) "loop_index_var" = step.loopIndexVar := by
  unfold strKey loopData
  cases step.loopIndexVar <;> rfl

theorem startLoop_other (h : step.action ≠ .loop ∨ r.status = .failed) :
    c.startLoop step r = c := by
  unfold startLoop
  dsimp only
  rw [if_neg]
  rintro ⟨ha, hr, -⟩
  rcases h with h | h
  · exact h ha
  · rw [hr] at h
    cases h

/-! ## Reading the output of a conditional step -/

/-- The index after the conditional skip or jump. -/
def branchIdx (step : WorkflowStep) (r : StepResult) (c : Control) : ℤ := (c.branch step r).stepIdx

theorem branch_setIdx : c.branch step r = c.setIdx (c.branchIdx step r) := by
  obtain ⟨i, h⟩ := branch_eq step r c
  rw [branchIdx, h]
  rfl

theorem branch_other (h : step.action ≠ .conditional) : c.branch step r = c := by
  unfold branch
  dsimp only
  rw [if_neg fun h' => h h'.1]

variable [PyText]

theorem startLoop_of (h : r.Of step) (ha : step.action = .loop) (hr : r.status = .passed) :
    c.startLoop step r =
      if loopItems step = [] then c.setIdx (c.stepIdx + step.bodyLength)
      else c.push (step.frame c.stepIdx) := by
  unfold startLoop
  dsimp only
  rw [h.loop ha hr, loopData_truthy, if_pos ⟨ha, hr, rfl⟩, listKey_items, intKey_loopSteps,
    strKey_loopVar, strKey_loopIndexVar]
  cases hx : loopItems step with
  | nil => rfl
  | cons x xs =>
    rw [if_neg (by simp), if_neg (by simp), WorkflowStep.frame, hx]

theorem target_resolve (raw : WorkflowStep) (o : Outputs) (idx : ℤ) :
    (resolveStepRuntime raw o).target idx = raw.target idx := by
  obtain ⟨hs, hj, -⟩ := resolveStepRuntime_control raw o
  rw [WorkflowStep.target, hs, hj, WorkflowStep.target]

/-- What a met condition says about its step. -/
theorem output_of_met (h : r.Of step) (hm : r.Met) : step.action = .conditional ∧
    conditionMet step = .ok true ∧ r.outputData = conditionalData step true := by
  obtain ⟨ha, hr, ht⟩ := hm
  rw [h.action] at ha
  obtain ⟨met, hc, hd⟩ := h.conditional ha hr
  rw [hd] at ht
  have hmet : met = true := ht
  exact ⟨ha, hmet ▸ hc, hmet ▸ hd⟩

omit [PyText] in
theorem skipSteps_truthy (step : WorkflowStep) (met : Bool) :
    ((conditionalData step met).getKey "skip_steps").truthy = true ↔ step.skipSteps.getD 0 ≠ 0 := by
  rw [conditionalData]
  cases step.skipSteps with
  | none => exact ⟨nofun, fun h => absurd rfl h⟩
  | some k => exact decide_eq_true_iff (p := k ≠ 0)

/-- **A met condition leads to the target of its step**; any other result leaves the index. -/
theorem branchIdx_eq (h : r.Of step) :
    c.branchIdx step r = if r.Met then step.target c.stepIdx - 1 else c.stepIdx := by
  unfold branchIdx branch
  dsimp only
  by_cases hm : r.Met
  · obtain ⟨ha, -, hd⟩ := output_of_met h hm
    have htruthy : r.outputData.truthy = true := by
      rw [hd]
      rfl
    rw [if_pos hm, if_pos ⟨ha, hm.2.1, htruthy, hm.2.2⟩, WorkflowStep.target, hd]
    by_cases hk : step.skipSteps.getD 0 = 0
    · rw [if_neg fun h => (skipSteps_truthy step true).mp h hk, if_pos hk, conditionalData]
      cases step.jumpTo with
      | none => exact (Int.add_sub_cancel _ _).symm
      | some t => rfl
    · rw [if_pos ((skipSteps_truthy step true).mpr hk), if_neg hk, conditionalData]
      cases hs : step.skipSteps with
      | none => exact absurd (by rw [hs]; rfl) hk
      | some k => exact (Int.add_sub_cancel _ _).symm
  · rw [if_neg hm, if_neg]
    rintro ⟨ha, hr, -, ht⟩
    exact hm ⟨h.action.trans ha, hr, ht⟩

theorem branchIdx_cases (h : r.Of step) :
    c.branchIdx step r = c.stepIdx ∨
      (∃ k, step.skipSteps = some k ∧ c.branchIdx step r = c.stepIdx + k) ∨
      ∃ t, step.jumpTo = some t ∧ c.branchIdx step r = t - 1 := by
  rw [branchIdx_eq h, WorkflowStep.target]
  split_ifs with hm hk
  · cases ht : step.jumpTo with
    | none => exact Or.inl (Int.add_sub_cancel _ _)
    | some t => exact Or.inr (Or.inr ⟨t, rfl, rfl⟩)
  · cases hs : step.skipSteps with
    | none => exact absurd (by rw [hs]; rfl) hk
    | some k => exact Or.inr (Or.inl ⟨k, rfl, Int.add_sub_cancel _ _⟩)
  · exact Or.inl rfl

end Control

/-! ## The ways to the next loop head -/

open Control

/-- **From a counted step to the next loop head.** -/
inductive AdvanceMove (step : WorkflowStep) (r : StepResult) (c : Control) : Control → Prop where
  /-- A loop over nothing skips its body. -/
  | skipBody (ha : step.action = .loop) (hr : r.status = .passed) (hx : loopItems step = []) :
      AdvanceMove step r c (c.setIdx (c.stepIdx + step.bodyLength + 1))
  /-- A loop enters its body with the first item. -/
  | enterBody (ha : step.action = .loop) (hr : r.status = .passed) (hx : loopItems step ≠ []) :
      AdvanceMove step r c ((c.push (step.frame c.stepIdx)).setIdx (c.stepIdx + 1))
  /-- A loop step that failed is passed over. -/
  | pastLoop (ha : step.action = .loop) (hr : r.status = .failed) :
      AdvanceMove step r c (c.setIdx (c.stepIdx + 1))
  /-- The step is not the last one of the top frame's body. -/
  | forward (ha : step.action ≠ .loop)
      (hb : ∀ f ∈ c.loopStack.head?, c.branchIdx step r ≠ f.bodyEnd) :
      AdvanceMove step r c (c.setIdx (c.branchIdx step r + 1))
  /-- The top frame goes on to its next item. -/
  | wrap (ha : step.action ≠ .loop) {f : LoopFrame} {rest : List LoopFrame}
      (hs : c.loopStack = f :: rest) (hb : c.branchIdx step r = f.bodyEnd)
      (hlt : f.currentIndex + 1 < f.items.length) :
      AdvanceMove step r c
        ((({ c with loopStack := f.next :: rest }).bindItem f.next).setIdx f.bodyStart)
  /-- The top frame has no more items. -/
  | leave (ha : step.action ≠ .loop) {f : LoopFrame} {rest : List LoopFrame}
      (hs : c.loopStack = f :: rest) (hb : c.branchIdx step r = f.bodyEnd)
      (hge : f.items.length ≤ f.currentIndex + 1) :
      AdvanceMove step r c (({ c with loopStack := rest }).setIdx (c.branchIdx step r + 1))

/-- **`advance` is one of these ways.** -/
theorem advance_move [PyText] {step : WorkflowStep} {r : StepResult} (h : r.Of step) (c : Control) :
    AdvanceMove step r c (c.advance step r) := by
  unfold advance
  by_cases ha : step.action = .loop
  · have hcheck : ∀ c' : Control, c'.checkLoop step = c' := by
      intro c'
      unfold checkLoop
      cases c'.loopStack with
      | nil => rfl
      | cons f rest => exact if_neg fun h' => h'.1 ha
    rw [branch_other (by rw [ha]; nofun), hcheck]
    cases hr : r.status with
    | passed =>
      rw [startLoop_of h ha hr]
      split_ifs with hx
      · exact .skipBody ha hr hx
      · exact .enterBody ha hr hx
    | failed =>
      rw [startLoop_other (Or.inr hr)]
      exact .pastLoop ha hr
  · rw [startLoop_other (Or.inl ha), branch_setIdx, checkLoop]
    cases hs : c.loopStack with
    | nil =>
      have hb : ∀ f ∈ c.loopStack.head?, c.branchIdx step r ≠ f.bodyEnd := by
        rw [hs]
        nofun
      have hn : (c.setIdx (c.branchIdx step r)).loopStack = [] := hs
      rw [hn]
      exact .forward ha hb
    | cons f rest =>
      have hn : (c.setIdx (c.branchIdx step r)).loopStack = f :: rest := hs
      rw [hn]
      dsimp only
      split_ifs with he hlt
      · have hidx : f.bodyStart - 1 + 1 = f.bodyStart := by omega
        have hw := AdvanceMove.wrap (r := r) ha hs he.2 hlt
        rw [← hidx] at hw
        exact hw
      · exact .leave ha hs he.2 (Nat.not_lt.mp hlt)
      · refine .forward ha fun g hg => ?_
        rw [hs] at hg
        obtain rfl := Option.some.inj hg
        exact fun hb => he ⟨ha, hb⟩

/-! ## A step in a run that goes on -/

/-- The accounting of a result, up to the pause or the policy after a failure. -/
def Control.counted (r : StepResult) (c : Control) : Control :=
  match r.status with
  | .passed => c.countPass
  | .failed => c.countFail

@[simp] theorem Control.counted_stepIdx (r : StepResult) (c : Control) :
    (c.counted r).stepIdx = c.stepIdx := by
  unfold counted
  cases r.status <;> rfl

@[simp] theorem Control.counted_loopStack (r : StepResult) (c : Control) :
    (c.counted r).loopStack = c.loopStack := by
  unfold counted
  cases r.status <;> rfl

@[simp] theorem Control.counted_waiting (r : StepResult) (c : Control) :
    (c.counted r).waiting = c.waiting := by
  unfold counted
  cases r.status <;> rfl

/-- **What a step does in a run that goes on.** -/
inductive StepMove [PyText] (cfg : Config) (step : WorkflowStep) (c : Control) : Control → Prop where
  | advanced {r : StepResult} (ha : step.action ≠ .handoff) (hr : r.Of step)
      (hp : r.status = .failed → ¬ cfg.PausesAfterFailure c ∧ cfg.policy step ≠ .stop) :
      StepMove cfg step c (((c.ran step r).counted r).advance step r)
  | paused {r : StepResult} (ha : step.action ≠ .handoff) (hr : r.Of step)
      (hf : r.status = .failed) (hp : cfg.PausesAfterFailure c) :
      StepMove cfg step c ({ (c.ran step r).countFail with
        paused := insert c.stepIdx c.paused }.waitFor (errorPause step r))
  | handoffWaits (ha : step.action = .handoff) (hc : cfg.canPause = true) :
      StepMove cfg step c (c.begun.waitFor (handoffPause step))
  | handoffPassed (ha : step.action = .handoff) (hc : cfg.canPause = false) :
      StepMove cfg step c ((c.begun.passHandoff (handoffResult step)).setIdx (c.stepIdx + 1))

/-- **A loop head that lets its step go on does one of these**, unless the run ends. -/
theorem HeadMove.stepMove [PyText] {cfg : Config} {x : Input} {c c' : Control} {step : WorkflowStep}
    (h : HeadMove cfg x c c') (hs : cfg.stepAt c = some step) (hx : x.Goes cfg)
    (hh : c'.halt = none) : StepMove cfg step c c' := by
  cases h with
  | finished | noStep | cancelled | monitorRaised | handoffRaised | callbackRaised =>
    exact absurd hh (Option.some_ne_none _)
  | requested _ _ hp hc =>
    have hpc := hx.2
    rw [hp, hc] at hpc
    exact absurd hpc Bool.noConfusion
  | handoffWaits hs' _ ha hc =>
    obtain rfl := Option.some.inj (hs.symm.trans hs')
    exact .handoffWaits ha hc
  | handoffPassed hs' _ ha hc =>
    obtain rfl := Option.some.inj (hs.symm.trans hs')
    exact .handoffPassed ha hc
  | @ran _ r hs' _ ha hr =>
    obtain rfl := Option.some.inj (hs.symm.trans hs')
    cases hst : r.status with
    | passed =>
      have hc : (c.ran step r).countPass = (c.ran step r).counted r := by rw [counted, hst]
      rw [account_passed hst, hc]
      exact .advanced ha hr fun hf => absurd (hst.symm.trans hf) StepStatus.noConfusion
    | failed =>
      have hc : (c.ran step r).countFail = (c.ran step r).counted r := by rw [counted, hst]
      rcases account_failed cfg step (c.ran step r) hst with ⟨hp, h⟩ | ⟨hp, ⟨-, h⟩ | ⟨hpol, h⟩⟩
      · rw [h]
        exact .paused ha hr hst hp
      · rw [h] at hh
        exact absurd hh (Option.some_ne_none _)
      · rw [h, hc]
        exact .advanced ha hr fun _ => ⟨hp, hpol⟩

theorem resolveStepRuntime_policy [PyText] (cfg : Config) (raw : WorkflowStep) (o : Outputs) :
    cfg.policy (resolveStepRuntime raw o) = cfg.policy raw := by
  unfold resolveStepRuntime
  split_ifs <;> rfl

/-- **A run ends at a step that is let go on** by an exception or by the policy only. -/
theorem HeadMove.running [PyText] {cfg : Config} {x : Input} {c c' : Control} {step : WorkflowStep}
    (h : HeadMove cfg x c c') (hs : cfg.stepAt c = some step) (hx : x.Goes cfg) (hh : c.halt = none)
    (hraised : ∀ e, c'.halt ≠ some (.raised e)) (hpol : cfg.policy step ≠ .stop) :
    c'.halt = none := by
  cases h with
  | finished hn => exact absurd (cfg.stepAt_lt hs) (Int.not_lt.mpr hn)
  | noStep _ hn =>
    obtain ⟨raw, hraw, -⟩ := cfg.stepAt_raw hs
    exact absurd (hn.symm.trans hraw) (Option.some_ne_none raw).symm
  | cancelled _ hc => exact absurd (hx.1.symm.trans hc) Bool.false_ne_true
  | requested | handoffWaits | handoffPassed => exact hh
  | monitorRaised _ _ e | handoffRaised _ _ _ _ e | callbackRaised _ _ _ _ e =>
    exact absurd rfl (hraised e)
  | @ran _ r hs' =>
    obtain rfl := Option.some.inj (hs.symm.trans hs')
    have hadvance : ∀ d : Control, d.halt = c.halt → (d.advance step r).halt = none := by
      intro d hd
      rw [advance_halt, hd, hh]
    cases hr : r.status with
    | passed =>
      rw [account_passed hr]
      exact hadvance _ rfl
    | failed =>
      rcases account_failed cfg step (c.ran step r) hr with ⟨-, h⟩ | ⟨-, ⟨hstop, -⟩ | ⟨-, h⟩⟩
      · rw [h]
        exact hh
      · exact absurd hstop hpol
      · rw [h]
        exact hadvance _ rfl

end ScoutEngine
