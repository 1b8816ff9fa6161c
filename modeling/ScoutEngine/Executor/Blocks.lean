import ScoutEngine.Executor.Advance
import Mathlib.Data.Finset.Image

/-!
# A block of steps in its place

An include directive puts the steps of a fragment between other steps. Counts are relative and
loops are found by the index at which they were pushed, so a block whose control flow stays inside
runs in its place as it runs alone.

* `Config.block`, `Closed`: some consecutive steps of a workflow, and when none leads out of them.
* `Surroundings`, `Control.embed`, `RunState.embed`: what stands around the block.
* **`next_block`**: one move; **`moves_embed`**, **`block_runs`**: the run of the block.
-/

set_option autoImplicit false

namespace ScoutEngine

open Control

/-! ## Blocks -/

/-- The workflow that has only `m` steps of this one, from index `k` on. -/
def Config.block (cfg : Config) (k m : ℕ) : Config :=
  { cfg with workflow := { cfg.workflow with steps := (cfg.steps.drop k).take m } }

/-- **No step leads out of the steps**, other than behind the last one: conditionals skip and loops
count inside, and nothing jumps. -/
structure Closed (steps : List WorkflowStep) : Prop where
  noJump : ∀ step ∈ steps, step.action = .conditional → step.jumpTo = none
  skips : ∀ p ∈ steps.zipIdx, p.1.action = .conditional →
    0 ≤ p.2 + 1 + p.1.skipSteps.getD 0 ∧ p.2 + 1 + p.1.skipSteps.getD 0 ≤ steps.length
  loops : ∀ p ∈ steps.zipIdx, p.1.action = .loop →
    0 ≤ p.2 + 1 + p.1.loopSteps.getD 0 ∧ p.2 + 1 + p.1.loopSteps.getD 0 ≤ steps.length

/-- What stands around a block when it is entered: the steps before it, the open loops, the steps
that have paused and the record. -/
structure Surroundings where
  offset : ℕ
  stack : List LoopFrame
  paused : Finset ℤ
  trace : List Ev

/-- The frame of a loop that stands `k` steps later. -/
def LoopFrame.shift (k : ℕ) (f : LoopFrame) : LoopFrame :=
  { f with bodyStart := f.bodyStart + k, bodyEnd := f.bodyEnd + k }

/-- The event of a step that stands `k` steps later. -/
def Ev.shift (k : ℕ) : Ev → Ev
  | .begin idx outputs => .begin (idx + k) outputs
  | .result idx r => .result (idx + k) r
  | .waiting idx kind => .waiting (idx + k) kind
  | .resumed idx kind instruction => .resumed (idx + k) kind instruction

/-- **The variables of a run that is inside the block**, from those of the run of the block. -/
def Control.embed (o : Surroundings) (c : Control) : Control :=
  { c with
    stepIdx := c.stepIdx + o.offset
    paused := o.paused ∪ c.paused.image (· + (o.offset : ℤ))
    loopStack := c.loopStack.map (LoopFrame.shift o.offset) ++ o.stack
    trace := o.trace ++ c.trace.map (Ev.shift o.offset) }

/-- The same for the state of the run. -/
def RunState.embed (o : Surroundings) (s : RunState) : RunState := s.control (Control.embed o)

/-- The run is not about to jump. -/
def Input.NoJump (x : Input) : Prop := ∀ i ∈ x.resume, i.action ≠ .jump

/-- **The surroundings leave a block of `m` steps alone**: the innermost loop around it does not
end in it, and none of its steps has paused. -/
structure Surroundings.Apart (o : Surroundings) (m : ℕ) : Prop where
  loop : ∀ f ∈ o.stack.head?, f.bodyEnd + 1 < o.offset ∨ (o.offset + m : ℤ) ≤ f.bodyEnd
  paused : ∀ i ∈ o.paused, i < o.offset ∨ (o.offset + m : ℤ) ≤ i

/-! ## The pieces of a move -/

namespace Control

variable (o : Surroundings) (c : Control)

theorem embed_log (e : Ev) : (c.log e).embed o = (c.embed o).log (e.shift o.offset) := by
  simp [embed, log]

theorem embed_begun : c.begun.embed o = (c.embed o).begun := embed_log o c _

theorem embed_waitFor (p : Pause) : (c.waitFor p).embed o = (c.embed o).waitFor p :=
  embed_log o { c with waiting := some p } _

theorem embed_woken (p : Pause) (i : ResumeInstruction) :
    (c.woken p i).embed o = (c.embed o).woken p i := embed_log o { c with waiting := none } _

theorem embed_record (r : StepResult) : (c.record r).embed o = (c.embed o).record r :=
  embed_log o { c with results := c.results ++ [r] } _

theorem embed_passHandoff (r : StepResult) :
    (c.passHandoff r).embed o = (c.embed o).passHandoff r :=
  congrArg (fun c' : Control => { c' with passed := c.passed + 1 }) (embed_record o c r)

theorem embed_setIdx (i : ℤ) : (c.setIdx i).embed o = (c.embed o).setIdx (i + o.offset) := rfl

theorem embed_pausedAt (i : ℤ) : ({ c with paused := insert i c.paused } : Control).embed o =
    { c.embed o with paused := insert (i + (o.offset : ℤ)) (c.embed o).paused } := by
  simp [embed, Finset.image_insert, Finset.union_insert]

theorem embed_bindItem (f : LoopFrame) :
    (c.bindItem f).embed o = (c.embed o).bindItem (f.shift o.offset) := rfl

theorem embed_push (f : LoopFrame) : (c.push f).embed o = (c.embed o).push (f.shift o.offset) := rfl

theorem frame_shift (step : WorkflowStep) (i : ℤ) (k : ℕ) :
    (step.frame i).shift k = step.frame (i + k) := by
  simp only [WorkflowStep.frame, LoopFrame.shift]
  congr 1 <;> omega

/-- The iteration check, unless it ends the body of a loop around the block. -/
theorem embed_checkLoop {step : WorkflowStep}
    (ho : ∀ f ∈ o.stack.head?, step.action ≠ .loop → c.stepIdx + o.offset ≠ f.bodyEnd) :
    (c.checkLoop step).embed o = (c.embed o).checkLoop step := by
  cases hs : c.loopStack with
  | nil =>
    have hstack : (c.embed o).loopStack = o.stack := by simp [embed, hs]
    rw [checkLoop, hs, checkLoop, hstack]
    cases hst : o.stack with
    | nil => rfl
    | cons f rest =>
      have hne : ¬ (step.action ≠ .loop ∧ (c.embed o).stepIdx = f.bodyEnd) := fun h =>
        ho f (by rw [hst]; rfl) h.1 h.2
      exact (if_neg hne).symm
  | cons f rest =>
    have hstack : (c.embed o).loopStack =
        f.shift o.offset :: (rest.map (LoopFrame.shift o.offset) ++ o.stack) := by
      simp [embed, hs]
    have hiff : (c.embed o).stepIdx = (f.shift o.offset).bodyEnd ↔ c.stepIdx = f.bodyEnd :=
      add_left_inj (o.offset : ℤ)
    unfold checkLoop
    rw [hs, hstack]
    dsimp only
    simp only [hiff]
    by_cases hend : step.action ≠ .loop ∧ c.stepIdx = f.bodyEnd
    · rw [if_pos hend, if_pos hend]
      by_cases hlt : f.next.currentIndex < f.items.length
      · have hlt' : (f.shift o.offset).next.currentIndex < (f.shift o.offset).items.length := hlt
        rw [if_pos hlt, if_pos hlt', embed_bindItem]
        refine congrArg (bindItem (f.shift o.offset).next) ?_
        have hback : f.bodyStart - 1 + (o.offset : ℤ) = f.bodyStart + o.offset - 1 := by omega
        simp [embed, LoopFrame.shift, LoopFrame.next, hback]
      · have hlt' : ¬ (f.shift o.offset).next.currentIndex < (f.shift o.offset).items.length := hlt
        rw [if_neg hlt, if_neg hlt']
        rfl
    · rw [if_neg hend, if_neg hend]

section Step

variable [PyText] {step : WorkflowStep} {r : StepResult}

theorem embed_branch (h : r.Of step) (hj : step.action = .conditional → step.jumpTo = none) :
    (c.branch step r).embed o = (c.embed o).branch step r := by
  have hidx : (c.embed o).branchIdx step r = c.branchIdx step r + o.offset := by
    rw [branchIdx_eq h, branchIdx_eq h]
    split_ifs with hm
    · have hto := hj (output_of_met h hm).1
      unfold WorkflowStep.target
      rw [hto]
      simp only [embed, Option.getD_none]
      split_ifs <;> omega
    · rfl
  rw [branch_setIdx, embed_setIdx, branch_setIdx, hidx]

theorem embed_startLoop (h : r.Of step) :
    (c.startLoop step r).embed o = (c.embed o).startLoop step r := by
  by_cases ha : step.action = .loop ∧ r.status = .passed
  · rw [startLoop_of h ha.1 ha.2, startLoop_of h ha.1 ha.2]
    split_ifs
    · rw [embed_setIdx]
      simp only [embed]
      congr 1
      omega
    · rw [embed_push, frame_shift]
      rfl
  · have hno : step.action ≠ .loop ∨ r.status = .failed := by
      by_cases hl : step.action = .loop
      · refine Or.inr ?_
        cases hr : r.status with
        | failed => rfl
        | passed => exact absurd ⟨hl, hr⟩ ha
      · exact Or.inl hl
    rw [startLoop_other hno, startLoop_other hno]

/-- **Going on from a step.** -/
theorem embed_advance (h : r.Of step) (hj : step.action = .conditional → step.jumpTo = none)
    (ho : ∀ f ∈ o.stack.head?, step.action ≠ .loop →
      c.branchIdx step r + o.offset ≠ f.bodyEnd) :
    (c.advance step r).embed o = (c.embed o).advance step r := by
  have hcheck : (((c.branch step r).startLoop step r).checkLoop step).embed o =
      (((c.embed o).branch step r).startLoop step r).checkLoop step := by
    rw [← embed_branch o c h hj, ← embed_startLoop o _ h]
    refine embed_checkLoop o _ fun f hf ha => ?_
    rw [startLoop_other (Or.inl ha)]
    exact ho f hf ha
  unfold advance
  rw [← hcheck]
  simp only [embed]
  congr 1
  omega

end Step

end Control

namespace RunState

variable (o : Surroundings) (cfg : Config) (env : Env) (s : RunState)

theorem embed_publish (f : String → Sessions → Sessions) :
    (s.publish cfg f).embed o = (s.embed o).publish cfg f := by
  unfold publish
  split_ifs <;> rfl

theorem embed_control {f g : Control → Control}
    (h : (f s.toControl).embed o = g (s.toControl.embed o)) :
    (s.control f).embed o = (s.embed o).control g :=
  congrArg (fun c : Control => { s with toControl := c }) h

theorem embed_andThen {p : StepM Unit} {k : RunState → RunState} (k' : RunState → RunState)
    (h : ∀ s' : RunState, s'.toControl = s.toControl → (k s').embed o = k' (s'.embed o)) :
    (s.andThen env p k).embed o = (s.embed o).andThen env p k' := by
  have hexec : (s.embed o).exec env p = ((s.exec env p).1, (s.exec env p).2.embed o) := rfl
  have hsame : (s.exec env p).2.toControl = s.toControl := rfl
  unfold andThen
  rw [hexec]
  rcases hr : s.exec env p with ⟨e | _, s'⟩
  · rfl
  · rw [hr] at hsame
    exact h s' hsame

end RunState

section Steps

variable [PyText]

omit [PyText] in
/-- A step of a block is a step of the workflow. -/
theorem Config.block_get {cfg : Config} {k m : ℕ} {i : ℤ} (h0 : 0 ≤ i) (hm : i < m) :
    pyGet (cfg.block k m).steps i = pyGet cfg.steps (i + k) := by
  have hn : (i + k).toNat = k + i.toNat := by omega
  have hlt : i.toNat < m := by omega
  have hsteps : (cfg.block k m).steps = (cfg.steps.drop k).take m := rfl
  rw [pyGet, if_pos h0, pyGet, if_pos (by omega), hsteps, hn, List.getElem?_take_of_lt hlt,
    List.getElem?_drop]

omit [PyText] in
theorem Config.block_length {cfg : Config} {k m : ℕ} (hroom : k + m ≤ cfg.steps.length) :
    (cfg.block k m).steps.length = m := by
  have hsteps : (cfg.block k m).steps = (cfg.steps.drop k).take m := rfl
  rw [hsteps, List.length_take, List.length_drop]
  omega

variable {steps : List WorkflowStep} {raw : WorkflowStep} {c : Control} {r : StepResult}

omit [PyText] in
theorem mem_zipIdx_of_pyGet {i : ℤ} (h0 : 0 ≤ i) (h : pyGet steps i = some raw) :
    (raw, i.toNat) ∈ steps.zipIdx := by
  rw [pyGet, if_pos h0] at h
  exact List.mk_mem_zipIdx_iff_getElem?.mpr h

/-- A step of a closed block does not jump. -/
theorem Closed.noJump_resolve (h : Closed steps) {i : ℤ} (hraw : pyGet steps i = some raw)
    (outputs : Outputs) (ha : (resolveStepRuntime raw outputs).action = .conditional) :
    (resolveStepRuntime raw outputs).jumpTo = none := by
  rw [(resolveStepRuntime_control raw outputs).2.1]
  rw [resolveStepRuntime_action] at ha
  exact h.noJump raw (mem_of_pyGet hraw) ha

/-- **A step of a closed block leads to a step of the block, or behind the last one.** -/
theorem Closed.branch (h : Closed steps) (h0 : 0 ≤ c.stepIdx) {i : ℤ} (hi : i = c.stepIdx)
    (hraw : pyGet steps i = some raw) (hlt : i < steps.length) (outputs : Outputs)
    (hr : r.Of (resolveStepRuntime raw outputs)) :
    0 ≤ c.branchIdx (resolveStepRuntime raw outputs) r + 1 ∧
      c.branchIdx (resolveStepRuntime raw outputs) r + 1 ≤ steps.length := by
  subst hi
  have hn : ((c.stepIdx.toNat : ℕ) : ℤ) = c.stepIdx := Int.toNat_of_nonneg h0
  rw [branchIdx_eq hr]
  split_ifs with hm
  · have ha := (output_of_met hr hm).1
    have hto := h.noJump_resolve hraw outputs ha
    rw [resolveStepRuntime_action] at ha
    have hskip := h.skips _ (mem_zipIdx_of_pyGet h0 hraw) ha
    dsimp only at hskip
    rw [hn] at hskip
    rw [target_resolve, WorkflowStep.target]
    rw [(resolveStepRuntime_control raw outputs).2.1] at hto
    rw [hto, Option.getD_none]
    split_ifs with hk
    · omega
    · omega
  · omega

end Steps

section Moves

variable {o : Surroundings} {cfg : Config} {env : Env} {s : RunState} {k m : ℕ}

theorem embed_waitForResume (cfg : Config) (p : Pause) :
    (waitForResume cfg p s).embed o = waitForResume cfg p (s.embed o) := by
  unfold waitForResume
  rw [← s.embed_publish o cfg]
  exact RunState.embed_control o _ (embed_waitFor o _ p)

variable [PyText]

theorem embed_endHandoff (step : WorkflowStep) (i : ℤ) :
    (endHandoff (cfg.block k m) env step (.int i) s).embed o =
      endHandoff cfg env step (.int (i + o.offset)) (s.embed o) := by
  unfold endHandoff
  dsimp only
  rw [← RunState.embed_control o s (embed_passHandoff o _ (handoffResult step))]
  refine RunState.embed_andThen o env _ _ fun s' _ => ?_
  show ((showIdle cfg s').control (Control.setIdx i)).embed o = _
  rw [RunState.embed_control o _ (embed_setIdx o _ i), showIdle, RunState.embed_publish]
  rfl

theorem embed_abortHandoff (cfg : Config) (step : WorkflowStep) :
    (abortHandoff cfg env step s).embed o = abortHandoff cfg env step (s.embed o) := by
  unfold abortHandoff
  dsimp only
  rw [← RunState.embed_control o s (embed_record o _ (abortedResult step))]
  exact RunState.embed_andThen o env _ _ fun s' _ => rfl

theorem embed_handoff (step : WorkflowStep) :
    (handoff (cfg.block k m) env step s).embed o = handoff cfg env step (s.embed o) := by
  unfold handoff
  dsimp only
  have hshow : showStep (cfg.block k m) step s = showStep cfg step s := rfl
  have hidx : (showStep cfg step s).stepIdx = s.stepIdx :=
    congrArg Control.stepIdx (publish_toControl cfg _ s)
  have hidx' : (showStep cfg step (s.embed o)).stepIdx = s.stepIdx + o.offset :=
    congrArg Control.stepIdx (publish_toControl cfg _ (s.embed o))
  have hembed : (showStep cfg step s).embed o = showStep cfg step (s.embed o) :=
    RunState.embed_publish o cfg s _
  have hpause : (cfg.block k m).canPause = cfg.canPause := rfl
  rw [hshow, hpause, hidx, hidx']
  split_ifs
  · rw [← hembed]
    exact embed_waitForResume cfg _
  · rw [embed_endHandoff, hembed]
    congr 2
    omega

/-- **The accounting of a step of the block.** -/
theorem embed_account (hapart : o.Apart m) {step : WorkflowStep} {r : StepResult} (hr : r.Of step)
    (hj : step.action = .conditional → step.jumpTo = none) (h0 : 0 ≤ s.stepIdx)
    (hm : s.stepIdx < m) (hb : ∀ c : Control, c.stepIdx = s.stepIdx →
      0 ≤ c.branchIdx step r + 1 ∧ c.branchIdx step r + 1 ≤ m) :
    (account (cfg.block k m) step r s).embed o = account cfg step r (s.embed o) := by
  have hadvance : ∀ c : Control, c.stepIdx = s.stepIdx →
      (c.advance step r).embed o = (c.embed o).advance step r := by
    intro c hc
    refine embed_advance o c hr hj fun f hf _ => ?_
    have hbc := hb c hc
    have hloop := hapart.loop f hf
    omega
  unfold account
  cases hst : r.status with
  | passed =>
    exact RunState.embed_control o s (hadvance s.toControl.countPass rfl)
  | failed =>
    dsimp only
    have hpaused : (s.embed o).stepIdx ∉ (s.embed o).paused ↔ s.stepIdx ∉ s.paused := by
      show s.stepIdx + (o.offset : ℤ) ∉ o.paused ∪ s.paused.image (· + (o.offset : ℤ)) ↔ _
      have hout : s.stepIdx + (o.offset : ℤ) ∉ o.paused := fun hmem => by
        have := hapart.paused _ hmem
        omega
      simp [hout]
    by_cases hp : cfg.workflow.settings.pauseOnError ∧ cfg.canPause ∧ s.stepIdx ∉ s.paused
    · have hp' : cfg.workflow.settings.pauseOnError ∧ cfg.canPause ∧
          (s.embed o).stepIdx ∉ (s.embed o).paused := ⟨hp.1, hp.2.1, hpaused.mpr hp.2.2⟩
      refine ((congrArg (RunState.embed o) (if_pos hp)).trans ?_).trans (if_pos hp').symm
      refine (embed_waitForResume cfg _).trans ?_
      exact congrArg (waitForResume cfg (errorPause step r))
        (RunState.embed_control o _ (embed_pausedAt o _ _))
    · have hp' : ¬ (cfg.workflow.settings.pauseOnError ∧ cfg.canPause ∧
          (s.embed o).stepIdx ∉ (s.embed o).paused) := fun h =>
        hp ⟨h.1, h.2.1, hpaused.mp h.2.2⟩
      refine ((congrArg (RunState.embed o) (if_neg hp)).trans ?_).trans (if_neg hp').symm
      have hpolicy : (cfg.block k m).policy step = cfg.policy step := rfl
      rw [hpolicy]
      cases cfg.policy step with
      | stop => rfl
      | _ =>
        exact RunState.embed_control o _ (hadvance s.toControl.countFail rfl)

/-- **A step of the block that is executed.** -/
theorem embed_normalStep (hapart : o.Apart m) {step : WorkflowStep}
    (hj : step.action = .conditional → step.jumpTo = none) (h0 : 0 ≤ s.stepIdx)
    (hm : s.stepIdx < m) (hb : ∀ (c : Control) (r : StepResult), c.stepIdx = s.stepIdx →
      r.Of step → 0 ≤ c.branchIdx step r + 1 ∧ c.branchIdx step r + 1 ≤ m) :
    (normalStep (cfg.block k m) env step (account (cfg.block k m) step) s).embed o =
      normalStep cfg env step (account cfg step) (s.embed o) := by
  unfold normalStep
  dsimp only
  have hshow : showStep (cfg.block k m) step s = showStep cfg step s := rfl
  have hembed : (showStep cfg step s).embed o = showStep cfg step (s.embed o) :=
    RunState.embed_publish o cfg s _
  have hidx : (showStep cfg step s).stepIdx = s.stepIdx :=
    congrArg Control.stepIdx (publish_toControl cfg _ s)
  have hoptions : (cfg.block k m).options = cfg.options := rfl
  rw [hshow, ← hembed, hoptions]
  generalize showStep cfg step s = t at hidx
  have hexec : executeStep env cfg.options step (t.embed o).monitor (t.embed o).calls =
      executeStep env cfg.options step t.monitor t.calls := rfl
  have hout := executeStep_output env cfg.options step t.monitor t.calls
  rw [hexec]
  generalize executeStep env cfg.options step t.monitor t.calls = r at hout
  have hidle : ∀ u : RunState, (showIdle cfg u).embed o = showIdle cfg (u.embed o) :=
    fun u => RunState.embed_publish o cfg u _
  refine (RunState.embed_andThen o env _ (account cfg step r.1) fun u hu => ?_).trans ?_
  · have hui : u.stepIdx = s.stepIdx := by
      rw [hu, showIdle, publish_toControl]
      exact hidx
    refine embed_account hapart hout hj (hui ▸ h0) (hui ▸ hm) fun c hc => ?_
    exact hb c r.1 (hc.trans hui) hout
  · have hrecord : ((t.toControl.record r.1).capture step r.1).embed o =
        ((t.toControl.embed o).record r.1).capture step r.1 :=
      congrArg (Control.capture step r.1) (embed_record o t.toControl r.1)
    have hstate : (({ t with monitor := r.2.1, calls := r.2.2 } : RunState).control
        fun c => (c.record r.1).capture step r.1).embed o =
        ({ t.embed o with monitor := r.2.1, calls := r.2.2 } : RunState).control
          fun c => (c.record r.1).capture step r.1 :=
      RunState.embed_control o { t with monitor := r.2.1, calls := r.2.2 } hrecord
    rw [← hstate, ← hidle]
    rfl

/-- **The block stands in the workflow**: it is closed, and the step behind it is not waited for by
the look-ahead. -/
structure Config.Hosts (cfg : Config) (k m : ℕ) : Prop where
  room : k + m ≤ cfg.steps.length
  closed : Closed (cfg.block k m).steps
  noWait : ∀ step ∈ cfg.steps[k + m]?,
    step.action ≠ .waitForDownload ∧ step.action ≠ .waitForResponse

/-- The look-ahead at a step of the block. -/
theorem Config.Hosts.lookAhead (h : cfg.Hosts k m) {i : ℤ} (h0 : 0 ≤ i) (hm : i < m) :
    lookAhead ((cfg.block k m).nextOf i) = lookAhead (cfg.nextOf (i + k)) := by
  have hroom := h.room
  unfold Config.nextOf
  rw [Config.block_length hroom]
  by_cases hi : i + 1 < m
  · rw [if_pos hi, if_pos (by omega), Config.block_get (by omega) hi]
    congr 2
    omega
  · rw [if_neg hi]
    split_ifs with hlt
    · have hn : i + k + 1 = ((k + m : ℕ) : ℤ) := by omega
      have hget : pyGet cfg.steps (i + k + 1) = cfg.steps[k + m]? := by
        rw [pyGet, if_pos (by omega), hn, Int.toNat_natCast]
      rw [hget]
      cases hs : cfg.steps[k + m]? with
      | none => rfl
      | some step =>
        obtain ⟨hd, hr⟩ := h.noWait step hs
        exact (if_neg (not_or.mpr ⟨hd, hr⟩)).symm
    · rfl

/-- **A loop head at a step of the block.** -/
theorem embed_head (h : cfg.Hosts k m) (hapart : o.Apart m) (hk : o.offset = k) (x : Input)
    (h0 : 0 ≤ s.stepIdx) (hm : s.stepIdx < m) :
    (head (cfg.block k m) env x s).embed o = head cfg env x (s.embed o) := by
  have hroom := h.room
  have hlen := Config.block_length hroom
  have hidx : (s.embed o).stepIdx = s.stepIdx + k := by rw [← hk]; rfl
  have hget : pyGet (cfg.block k m).steps s.stepIdx = pyGet cfg.steps (s.embed o).stepIdx := by
    rw [hidx, Config.block_get h0 hm]
  unfold head
  rw [hlen, if_pos hm, if_pos (by rw [hidx]; omega), ← hget]
  cases hraw : pyGet (cfg.block k m).steps s.stepIdx with
  | none => rfl
  | some raw =>
    have hpause : (cfg.block k m).canPause = cfg.canPause := rfl
    have hout : (s.embed o).outputs = s.outputs := rfl
    dsimp only
    rw [hpause, hout]
    split_ifs
    · rfl
    · exact embed_waitForResume cfg _
    · unfold beginStep
      dsimp only
      have hlook := h.lookAhead h0 hm
      rw [← hidx] at hlook
      rw [← RunState.embed_control o s (embed_begun o s.toControl)]
      refine (RunState.embed_andThen o env _ _ fun s' hs' => ?_).trans
        (congrArg (fun p => ((s.control Control.begun).embed o).andThen env p _) hlook)
      have hi' : s'.stepIdx = s.stepIdx := (congrArg Control.stepIdx hs').trans rfl
      by_cases ha : (resolveStepRuntime raw s.outputs).action = .handoff
      · rw [if_pos ha, if_pos ha]
        exact embed_handoff _
      · rw [if_neg ha, if_neg ha]
        refine embed_normalStep hapart (h.closed.noJump_resolve hraw s.outputs) (hi' ▸ h0)
          (hi' ▸ hm) fun c r hc hr => ?_
        have hbranch := h.closed.branch (c := c) (by omega) (hc.trans hi').symm hraw
          (by rw [hlen]; exact hm) s.outputs hr
        rwa [hlen] at hbranch

omit [PyText] in
/-- Where a resume instruction that is no jump leads. -/
theorem applyResume_noJump {i : ResumeInstruction} (hi : i.action ≠ .jump) (idx : ℤ) (j : ℕ) :
    (applyResume i idx = .none ∧ applyResume i (idx + j) = .none) ∨
      ∃ n, applyResume i idx = .int n ∧ applyResume i (idx + j) = .int (n + j) := by
  unfold applyResume
  cases ha : i.action with
  | jump => exact absurd ha hi
  | abort => exact Or.inl ⟨rfl, rfl⟩
  | retry => exact Or.inr ⟨idx, rfl, rfl⟩
  | _ =>
    have hsucc : idx + j + 1 = idx + 1 + j := by omega
    exact Or.inr ⟨idx + 1, rfl, congrArg PyVal.int hsucc⟩

omit [PyText] in
/-- The end of a pause. -/
theorem embed_woken_state (o : Surroundings) (cfg : Config) (s : RunState) (p : Pause)
    (i : ResumeInstruction) :
    ((s.publish cfg fun id => Sessions.setRunning id).control (Control.woken p i)).embed o =
      ((s.embed o).publish cfg fun id => Sessions.setRunning id).control (Control.woken p i) := by
  rw [← RunState.embed_publish]
  exact RunState.embed_control o _ (embed_woken o _ p i)

/-- **A pause at a step of the block.** -/
theorem embed_wake (p : Pause) {x : Input} (hx : x.NoJump) :
    (wake (cfg.block k m) env p x s).embed o = wake cfg env p x (s.embed o) := by
  have hi : (x.resume.getD { action := .abort }).action ≠ .jump := by
    cases hr : x.resume with
    | none => exact nofun
    | some i => exact hx i hr
  unfold wake
  generalize x.resume.getD { action := .abort } = i at hi
  dsimp only
  have hwoken := embed_woken_state o cfg s p i
  have hstep : ∀ u : RunState, (u.control (Control.woken p i)).stepIdx = u.stepIdx := fun _ => rfl
  have hidx : ((s.publish cfg fun id => Sessions.setRunning id).control
      (Control.woken p i)).stepIdx = s.stepIdx := by
    rw [hstep, publish_toControl]
  have hsame : (s.publish (cfg.block k m) fun id => Sessions.setRunning id) =
      s.publish cfg fun id => Sessions.setRunning id := rfl
  rw [← hwoken, hsame]
  generalize (s.publish cfg fun id => Sessions.setRunning id).control (Control.woken p i) = u
    at hidx ⊢
  have hidx' : (u.embed o).stepIdx = u.stepIdx + o.offset := rfl
  rw [hidx']
  rcases applyResume_noJump hi u.stepIdx o.offset with ⟨hn, hn'⟩ | ⟨n, hn, hn'⟩
  · rw [hn, hn']
    cases p.kind with
    | requested => rfl
    | error => rfl
    | handoff => exact embed_abortHandoff cfg p.step
  · rw [hn, hn']
    cases p.kind with
    | requested => rfl
    | error => rfl
    | handoff => exact embed_endHandoff p.step n

/-- **One move of the run of the block is a move of the run around it.** -/
theorem next_block (h : cfg.Hosts k m) (hapart : o.Apart m) (hk : o.offset = k) {x : Input}
    (hx : x.NoJump) (h0 : 0 ≤ s.stepIdx) (hm : s.halt = none → s.waiting = none → s.stepIdx < m) :
    (next (cfg.block k m) env x s).embed o = next cfg env x (s.embed o) := by
  have hhalt : (s.embed o).halt = s.halt := rfl
  have hwait : (s.embed o).waiting = s.waiting := rfl
  unfold next
  rw [hhalt, hwait]
  cases hh : s.halt with
  | some e => rfl
  | none =>
    cases hw : s.waiting with
    | some p => exact embed_wake p hx
    | none => exact embed_head h hapart hk x h0 (hm hh hw)

end Moves

/-! ## The run of the block -/

/-- The moves of a run with these inputs, from a state on. -/
def moves [PyText] (cfg : Config) (env : Env) (x : ℕ → Input) (s : RunState) : ℕ → RunState
  | 0 => s
  | n + 1 => next cfg env (x n) (moves cfg env x s n)

/-- The run is at a loop head behind the last of `m` steps. -/
structure LeftBehind (m : ℕ) (c : Control) : Prop where
  halt : c.halt = none
  waiting : c.waiting = none
  idx : c.stepIdx = m

/-- **The run of a block stays in it**, and so do its loops. -/
structure InBlock (m : ℕ) (c : Control) : Prop where
  low : 0 ≤ c.stepIdx
  high : c.stepIdx ≤ m
  waits : c.waiting ≠ none → c.stepIdx < m
  bodies : ∀ f ∈ c.loopStack, 0 ≤ f.bodyStart ∧ f.bodyStart ≤ m

section Runs

variable {c c' : Control} {m : ℕ}

theorem InBlock.setIdx (h : InBlock m c) (hw : c.waiting = none) {i : ℤ} (h0 : 0 ≤ i)
    (hi : i ≤ m) : InBlock m (c.setIdx i) := ⟨h0, hi, fun h => absurd hw h, h.bodies⟩

variable [PyText] {cfg : Config} {raw : WorkflowStep} {r : StepResult}

/-- Going on keeps the invariant. -/
theorem InBlock.advance (h : InBlock cfg.steps.length c) (hclosed : Closed cfg.steps)
    (hw : c.waiting = none) {i : ℤ} (hi : i = c.stepIdx) (hraw : pyGet cfg.steps i = some raw)
    (hlt : i < cfg.steps.length) {outputs : Outputs} (hr : r.Of (resolveStepRuntime raw outputs)) :
    InBlock cfg.steps.length (c.advance (resolveStepRuntime raw outputs) r) := by
  have h0 := h.low
  have hb := hclosed.branch h0 hi hraw hlt outputs hr
  have hbody : (resolveStepRuntime raw outputs).action = .loop →
      0 ≤ c.stepIdx + (resolveStepRuntime raw outputs).bodyLength + 1 ∧
        c.stepIdx + (resolveStepRuntime raw outputs).bodyLength + 1 ≤ cfg.steps.length := by
    intro ha
    rw [resolveStepRuntime_action] at ha
    have hl := hclosed.loops _ (mem_zipIdx_of_pyGet (hi ▸ h0) hraw) ha
    rw [WorkflowStep.bodyLength, (resolveStepRuntime_control raw outputs).2.2]
    dsimp only at hl
    omega
  have hm := advance_move hr c
  generalize c.advance (resolveStepRuntime raw outputs) r = c' at hm ⊢
  cases hm with
  | skipBody ha => exact h.setIdx hw (hbody ha).1 (hbody ha).2
  | enterBody =>
    have hnext : 0 ≤ c.stepIdx + 1 ∧ c.stepIdx + 1 ≤ cfg.steps.length := by omega
    exact ⟨hnext.1, hnext.2, fun h => absurd hw h, List.forall_mem_cons.mpr ⟨hnext, h.bodies⟩⟩
  | pastLoop => exact h.setIdx hw (by omega) (by omega)
  | forward => exact h.setIdx hw hb.1 hb.2
  | wrap _ hst =>
    have hf := List.forall_mem_cons.mp (hst ▸ h.bodies)
    exact ⟨hf.1.1, hf.1.2, fun h => absurd hw h, List.forall_mem_cons.mpr ⟨hf.1, hf.2⟩⟩
  | leave _ hst =>
    have hf := List.forall_mem_cons.mp (hst ▸ h.bodies)
    exact ⟨hb.1, hb.2, fun h => absurd hw h, hf.2⟩

/-- So does the accounting of a step. -/
theorem InBlock.account (h : InBlock cfg.steps.length c) (hclosed : Closed cfg.steps)
    (hw : c.waiting = none) {i : ℤ} (hi : i = c.stepIdx) (hraw : pyGet cfg.steps i = some raw)
    (hlt : i < cfg.steps.length) {outputs : Outputs} (hr : r.Of (resolveStepRuntime raw outputs)) :
    InBlock cfg.steps.length (c.account cfg (resolveStepRuntime raw outputs) r) := by
  have hcount : ∀ d : Control, d.stepIdx = c.stepIdx → d.waiting = c.waiting →
      d.loopStack = c.loopStack →
        InBlock cfg.steps.length (d.advance (resolveStepRuntime raw outputs) r) := by
    intro d hdi hdw hdl
    have hd : InBlock cfg.steps.length d :=
      ⟨hdi ▸ h.low, hdi ▸ h.high, by rw [hdi, hdw]; exact h.waits, hdl ▸ h.bodies⟩
    exact hd.advance hclosed (hdw.trans hw) (hi.trans hdi.symm) hraw hlt hr
  cases hst : r.status with
  | passed =>
    rw [account_passed hst]
    exact hcount c.countPass rfl rfl rfl
  | failed =>
    rcases account_failed cfg (resolveStepRuntime raw outputs) c hst with
      ⟨-, h'⟩ | ⟨-, ⟨-, h'⟩ | ⟨-, h'⟩⟩
    · rw [h']
      exact ⟨h.low, h.high, fun _ => hi ▸ hlt, h.bodies⟩
    · rw [h']
      exact ⟨h.low, h.high, h.waits, h.bodies⟩
    · rw [h']
      exact hcount c.countFail rfl rfl rfl

omit [PyText] in
theorem InBlock.goto (h : InBlock m c) (hw : c.waiting = none) {n : ℕ} {v : PyVal}
    (hv : v = .none ∨ ∃ i, v = .int i ∧ 0 ≤ i ∧ i ≤ m) : InBlock m (c.goto n v) := by
  obtain rfl | ⟨i, rfl, h0, hi⟩ := hv
  · exact ⟨h.low, h.high, h.waits, h.bodies⟩
  · exact h.setIdx hw h0 hi

/-- **Every move that is no jump keeps the invariant.** -/
theorem InBlock.move {x : Input} (h : InBlock cfg.steps.length c) (hclosed : Closed cfg.steps)
    (hx : x.NoJump) (hm : Move cfg x c c') : InBlock cfg.steps.length c' := by
  have h0 := h.low
  have hhigh := h.high
  cases hm with
  | halted => exact h
  | head hh hw hm =>
    cases hm with
    | finished | noStep | cancelled | monitorRaised | handoffRaised | callbackRaised =>
      exact ⟨h0, hhigh, h.waits, h.bodies⟩
    | requested hs | handoffWaits hs =>
      exact ⟨h0, hhigh, fun _ => cfg.stepAt_lt hs, h.bodies⟩
    | handoffPassed hs =>
      have hlt := cfg.stepAt_lt hs
      refine InBlock.goto (c := c.begun.passHandoff _) ⟨h0, hhigh, h.waits, h.bodies⟩ hw
        (Or.inr ⟨_, rfl, by omega, by omega⟩)
    | @ran step r hs _ _ hr =>
      have hlt := cfg.stepAt_lt hs
      obtain ⟨raw, hraw, rfl⟩ := cfg.stepAt_raw hs
      exact InBlock.account (c := c.ran _ r) ⟨h0, hhigh, h.waits, h.bodies⟩ hclosed hw rfl hraw hlt
        hr
  | @wake p _ hh hw hm =>
    have hlt : c.stepIdx < cfg.steps.length := h.waits (by rw [hw]; exact Option.some_ne_none p)
    have hi : (x.resume.getD { action := .abort }).action ≠ .jump := by
      cases hr : x.resume with
      | none => exact nofun
      | some i => exact hx i hr
    have hto : applyResume (x.resume.getD { action := .abort }) c.stepIdx = .none ∨
        ∃ i, applyResume (x.resume.getD { action := .abort }) c.stepIdx = .int i ∧ 0 ≤ i ∧
          i ≤ cfg.steps.length := by
      unfold applyResume
      cases ha : (x.resume.getD { action := .abort }).action with
      | jump => exact absurd ha hi
      | abort => exact Or.inl rfl
      | retry => exact Or.inr ⟨_, rfl, h0, hhigh⟩
      | _ => exact Or.inr ⟨_, rfl, by omega, by omega⟩
    have hwoken : InBlock cfg.steps.length (c.woken p (x.resume.getD { action := .abort })) :=
      ⟨h0, hhigh, fun _ => hlt, h.bodies⟩
    cases hm with
    | requested => exact hwoken.goto rfl hto
    | error =>
      exact InBlock.goto (c := (c.woken p _).setRetrying _) ⟨h0, hhigh, fun _ => hlt, h.bodies⟩ rfl
        hto
    | handoff =>
      exact InBlock.goto (c := (c.woken p _).passHandoff _) ⟨h0, hhigh, fun _ => hlt, h.bodies⟩ rfl
        hto
    | handoffRaised | aborted | abortRaised => exact ⟨h0, hhigh, fun _ => hlt, h.bodies⟩

variable {env : Env} {k : ℕ} {o : Surroundings}

/-- **The run of a block in its place**: as long as the block has not been left behind, the run of
the workflow is that of the block. -/
theorem moves_embed (h : cfg.Hosts k m) (hapart : o.Apart m) (hk : o.offset = k) {x : ℕ → Input}
    {s : RunState} (hs : InBlock m s.toControl) {n : ℕ} (hx : ∀ j < n, (x j).NoJump)
    (hin : ∀ j < n, ¬ LeftBehind m (moves (cfg.block k m) env x s j).toControl) :
    InBlock m (moves (cfg.block k m) env x s n).toControl ∧
      moves cfg env x (s.embed o) n = (moves (cfg.block k m) env x s n).embed o := by
  have hlen := Config.block_length h.room
  induction n with
  | zero => exact ⟨hs, rfl⟩
  | succ n ih =>
    obtain ⟨hblock, hsame⟩ := ih (fun j hj => hx j (by omega)) fun j hj => hin j (by omega)
    have hleft := hin n (by omega)
    have hmove := next_move (cfg.block k m) env (x n) (moves (cfg.block k m) env x s n)
    refine ⟨?_, ?_⟩
    · have hmoved := InBlock.move (hlen.symm ▸ hblock) h.closed (hx n (by omega)) hmove
      rwa [hlen] at hmoved
    · show next cfg env (x n) (moves cfg env x (s.embed o) n) = _
      rw [hsame]
      refine (next_block h hapart hk (hx n (by omega)) hblock.low fun hh hw => ?_).symm
      have hne : (moves (cfg.block k m) env x s n).stepIdx ≠ m := fun hi => hleft ⟨hh, hw, hi⟩
      have hle := hblock.high
      omega

end Runs

/-! ## The run around it -/

/-- The state from which a block is run alone: the same browser, outputs and counts, at the first
step and without loops. -/
def RunState.alone (s : RunState) : RunState :=
  s.control fun c => { c with stepIdx := 0, paused := ∅, loopStack := [], trace := [] }

/-- What stands around a block that is entered here. -/
def Control.surroundings (c : Control) : Surroundings where
  offset := c.stepIdx.toNat
  stack := c.loopStack
  paused := c.paused
  trace := c.trace

/-- **The run enters a block** of `m` steps at index `k`. -/
structure Control.Enters (c : Control) (k m : ℕ) : Prop where
  halt : c.halt = none
  waiting : c.waiting = none
  idx : c.stepIdx = k
  apart : c.surroundings.Apart m

theorem RunState.embed_alone {s : RunState} {k m : ℕ} (h : s.toControl.Enters k m) :
    s.alone.embed s.toControl.surroundings = s := by
  have hi : ((s.stepIdx.toNat : ℕ) : ℤ) = s.stepIdx := by rw [h.idx, Int.toNat_natCast]
  unfold alone embed control Control.embed Control.surroundings
  simp only [hi, zero_add, List.map_nil, List.nil_append, Finset.image_empty, Finset.union_empty,
    List.append_nil]

section Place

variable [PyText] {cfg : Config} {env : Env} {σ : ℕ → RunState → Input} {n₀ n k m : ℕ}

/-- The inputs of a run from a move on. -/
def inputsFrom (cfg : Config) (env : Env) (σ : ℕ → RunState → Input) (n₀ j : ℕ) : Input :=
  σ (n₀ + j) (execution cfg env σ (n₀ + j))

theorem execution_moves (n₀ n : ℕ) : execution cfg env σ (n₀ + n) =
    moves cfg env (inputsFrom cfg env σ n₀) (execution cfg env σ n₀) n := by
  induction n with
  | zero => rfl
  | succ n ih =>
    rw [← Nat.add_assoc, execution_succ, moves, ← ih]
    rfl

/-- **Main result.** From the loop head at which a run enters a closed block of steps, it does what
the block does alone, until the block is left behind: with the same calls, results and outputs, and
with every index and loop shifted to the place of the block. -/
theorem block_runs (h : cfg.Hosts k m) (he : (execution cfg env σ n₀).toControl.Enters k m)
    (hx : ∀ j < n, (inputsFrom cfg env σ n₀ j).NoJump)
    (hin : ∀ j < n, ¬ LeftBehind m (moves (cfg.block k m) env (inputsFrom cfg env σ n₀)
      (execution cfg env σ n₀).alone j).toControl) :
    execution cfg env σ (n₀ + n) =
      (moves (cfg.block k m) env (inputsFrom cfg env σ n₀) (execution cfg env σ n₀).alone n).embed
        (execution cfg env σ n₀).toControl.surroundings := by
  have hstart : InBlock m (execution cfg env σ n₀).alone.toControl :=
    ⟨le_rfl, Int.natCast_nonneg m, fun hw => absurd he.waiting hw, nofun⟩
  have hk : (execution cfg env σ n₀).toControl.surroundings.offset = k := by
    rw [Control.surroundings, he.idx, Int.toNat_natCast]
  have hmoves := (moves_embed h he.apart hk hstart hx hin).2
  rw [RunState.embed_alone he] at hmoves
  exact (execution_moves n₀ n).trans hmoves

end Place

/-! ## A loop between two steps -/

section Example

attribute [local instance] asciiText

/-- A loop over two texts, with one step in its body, between other steps. -/
def loopBetween : Config where
  workflow :=
    { settings := { humanMode := false }
      steps := [
        { order := 1, order_pos := WorkflowStep.order_one, name := "Open", action := .navigate },
        { order := 2, order_pos := WorkflowStep.order_two, name := "Each", action := .loop
          value := some "[\"a\", \"b\"]", loopVar := some "x", loopSteps := some 1 },
        { order := 3, order_pos := WorkflowStep.order_three, name := "Clear", action := .clear },
        { order := 4, order_pos := WorkflowStep.order_four, name := "Close", action := .click }] }

/-- A browser that does everything and returns nothing. -/
def idleBrowser : Env where
  answer _ _ := { result := .ok .none }
  clock _ := 0

/-- The loop runs as it runs alone: three moves, and the run is at the last step. -/
theorem block_runs_loopBetween :
    execution loopBetween idleBrowser (fun _ _ => {}) (1 + 3) =
      (moves (loopBetween.block 1 2) idleBrowser
        (inputsFrom loopBetween idleBrowser (fun _ _ => {}) 1)
        (execution loopBetween idleBrowser (fun _ _ => {}) 1).alone 3).embed
          (execution loopBetween idleBrowser (fun _ _ => {}) 1).toControl.surroundings ∧
    (execution loopBetween idleBrowser (fun _ _ => {}) (1 + 3)).stepIdx = 3 := by
  have hleft : ∀ j < 3, (moves (loopBetween.block 1 2) idleBrowser
      (inputsFrom loopBetween idleBrowser (fun _ _ => {}) 1)
      (execution loopBetween idleBrowser (fun _ _ => {}) 1).alone j).stepIdx ≠ 2 := by
    decide +kernel
  refine ⟨block_runs ⟨by decide, ⟨by decide, by decide, by decide⟩, by decide⟩
    ⟨by decide +kernel, Option.isNone_iff_eq_none.mp (by decide +kernel), by decide +kernel,
      ⟨?_, by decide +kernel⟩⟩ (fun j _ => nofun) fun j hj h => hleft j hj h.idx, by decide +kernel⟩
  have hnil : (execution loopBetween idleBrowser (fun _ _ => {}) 1).loopStack.isEmpty = true := by
    decide +kernel
  intro f hf
  rw [Control.surroundings, List.isEmpty_iff.mp hnil] at hf
  cases hf

end Example

end ScoutEngine
