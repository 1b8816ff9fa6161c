import ScoutEngine.Executor.Advance
import ScoutEngine.Executor.Trace
import ScoutEngine.Lib.LoopStack

/-!
# Nested loops

What a workflow with properly nested loops means, for each item in order run the body once, and
when the step loop does that.

* `perform`: a main step, for itself; `structured`: the steps as a program with structured loops.
* `ProperlyNested`, `Smooth`: the workflows and the runs in question.
* `embed`, **`next_embed`**: a move of the executor is a step of the index machine.
* **`runs_structured_iff`**: the run is the structured one iff no loop that gets items has a body
  that ends in another loop or in a handoff.
* `loop_in_loop`: two nested loops that end at the same step.
-/

set_option autoImplicit false

namespace ScoutEngine

open LoopStack (Block Frame Machine)

/-! ## The structured program -/

/-- The state at an index and with a loop stack. -/
def RunState.at (s : RunState) (i : ℤ) (K : List LoopFrame) : RunState :=
  { s with stepIdx := i, loopStack := K }

namespace Config

/-- The length of the body of the loop that a step heads. -/
def loopBody (cfg : Config) (i : ℕ) : Option ℕ :=
  match cfg.steps[i]? with
  | some step => if step.action = .loop then some step.bodyLength.toNat else none
  | none => none

/-- The iteration check follows the step. -/
def checksLoop (cfg : Config) (i : ℕ) : Bool :=
  match cfg.steps[i]? with
  | some step => step.action ≠ .handoff
  | none => true

end Config

section Program

variable [PyText]

/-- A main step, for itself: with no loop in progress, and up to its accounting. -/
def perform (cfg : Config) (env : Env) (i : ℕ) (s : RunState) : RunState :=
  match cfg.stepAt (s.at i []).toControl with
  | some step =>
    beginStep cfg env step (fun _ => RunState.control Control.countPass) (s.at i [])
  | none => s

/-- The loop that a step heads, with its item list. -/
def loopAt (cfg : Config) (i : ℕ) (s : RunState) : LoopFrame :=
  match cfg.steps[i]? with
  | some raw => (resolveStepRuntime raw s.outputs).frame i
  | none => ⟨[], 0, none, none, 0, 0⟩

/-- The loop with its `j`-th item. -/
def LoopFrame.nth (f : LoopFrame) (j : ℕ) : LoopFrame := { f with currentIndex := j }

/-- **The workflow as a program with structured loops.** -/
def structured (cfg : Config) (env : Env) : Machine RunState LoopFrame where
  size := cfg.steps.length
  body := cfg.loopBody
  tested := cfg.checksLoop
  run := perform cfg env
  load := loopAt cfg
  count f := f.items.length
  bind f j s := s.control fun c => c.bindItem (f.nth j)

/-- **The workflows in question**: no conditional steps, and loops with a body, which lies inside
the workflow and inside the body of every loop that they stand in. -/
structure ProperlyNested (cfg : Config) : Prop where
  plain : ∀ step ∈ cfg.steps, step.action ≠ .conditional
  body : ∀ p ∈ cfg.steps.zipIdx, p.1.action = .loop →
    1 ≤ p.1.bodyLength ∧ p.2 + p.1.bodyLength < cfg.steps.length
  nested : ∀ p ∈ cfg.steps.zipIdx, p.1.action = .loop → ∀ q ∈ cfg.steps.zipIdx,
    q.1.action = .loop → p.2 < q.2 → q.2 ≤ p.2 + p.1.bodyLength →
      q.2 + q.1.bodyLength ≤ p.2 + p.1.bodyLength

/-- **The runs in question** go through such states: all steps pass, nothing is paused or
cancelled, and no exception leaves the loop. -/
structure RunState.Smooth (s : RunState) : Prop where
  passes : ∀ r ∈ s.results, r.status = .passed
  awake : s.waiting.isNone = true
  ends : s.halt = none ∨ s.halt = some .finished

instance (s : RunState) : Decidable s.Smooth :=
  decidable_of_iff ((∀ r ∈ s.results, r.status = .passed) ∧ s.waiting.isNone = true ∧
      (s.halt = none ∨ s.halt = some .finished))
    ⟨fun h => ⟨h.1, h.2.1, h.2.2⟩, fun h => ⟨h.passes, h.awake, h.ends⟩⟩

/-- **The run is the structured one**: it ends with an empty loop stack, and the steps that it has
begun are those of the structured program, in order and with the same variables. -/
def RunsStructured (cfg : Config) (env : Env) (σ : ℕ → RunState → Input) (b : Block) : Prop :=
  ∃ n, (execution cfg env σ n).halt = some .finished ∧
    (execution cfg env σ n).loopStack = [] ∧
      (execution cfg env σ n).begins = ((structured cfg env).exec b 0 (entry cfg env)).begins

end Program

/-! ## The layout -/

theorem loopBody_some {cfg : Config} {i m : ℕ} (h : cfg.loopBody i = some m) :
    ∃ step, (step, i) ∈ cfg.steps.zipIdx ∧ step.action = .loop ∧ m = step.bodyLength.toNat := by
  unfold Config.loopBody at h
  split at h
  · rename_i step hstep
    split_ifs at h with ha
    exact ⟨step, List.mk_mem_zipIdx_iff_getElem?.mpr hstep, ha, (Option.some.inj h).symm⟩
  · cases h

theorem ProperlyNested.machine [PyText] {cfg : Config} (h : ProperlyNested cfg) (env : Env) :
    (structured cfg env).Nested where
  pos l m _ hm := by
    obtain ⟨step, hstep, ha, rfl⟩ := loopBody_some hm
    have := h.body _ hstep ha
    dsimp only at this
    omega
  inside l m _ hm := by
    obtain ⟨step, hstep, ha, rfl⟩ := loopBody_some hm
    have := h.body _ hstep ha
    change l + _ < cfg.steps.length
    dsimp only at this
    omega
  nested l m x k _ hm hlx hx hk := by
    obtain ⟨step, hstep, ha, rfl⟩ := loopBody_some hm
    obtain ⟨inner, hinner, ha', rfl⟩ := loopBody_some hk
    have h1 := h.body _ hstep ha
    have h2 := h.body _ hinner ha'
    have h3 := h.nested _ hstep ha _ hinner ha' hlx (by dsimp only at *; omega)
    dsimp only at *
    omega

/-! ## One step, whatever the loop stack -/

section Frame

variable {cfg : Config} {env : Env} {i : ℤ} {K : List LoopFrame} {s : RunState}

/-- An exception left the step loop. -/
def RunState.Raised (s : RunState) : Prop := ∃ e, s.halt = some (.raised e)

theorem andThen_at (env : Env) (p : StepM Unit) (i : ℤ) (s : RunState) :
    (∃ s₁ : RunState, s₁.toControl = s.toControl ∧
        ∀ K k, (s.at i K).andThen env p k = k (s₁.at i K)) ∨
      ∀ K k, ((s.at i K).andThen env p k).Raised := by
  have hexec : ∀ K, (s.at i K).exec env p = ((s.exec env p).1, (s.exec env p).2.at i K) :=
    fun K => rfl
  rcases h : s.exec env p with ⟨e | _, s₁⟩
  · refine Or.inr fun K k => ⟨e, ?_⟩
    rw [RunState.andThen, hexec, h]
    rfl
  · refine Or.inl ⟨s₁, by rw [← exec_toControl env p s, h], fun K k => ?_⟩
    rw [RunState.andThen, hexec, h]

theorem publish_at (f : String → Sessions → Sessions) :
    (s.at i K).publish cfg f = (s.publish cfg f).at i K := by
  unfold RunState.publish
  split_ifs <;> rfl

variable [PyText]

/-- **A step that is executed does the same with every loop stack.** -/
theorem normalStep_at (cfg : Config) (env : Env) (step : WorkflowStep) (i : ℤ) (s : RunState) :
    (∃ (r : StepResult) (s₁ : RunState), r.Of step ∧ r ∈ s₁.results ∧ s₁.halt = s.halt ∧
        ∀ K after, normalStep cfg env step after (s.at i K) = after r (s₁.at i K)) ∨
      ∀ K after, (normalStep cfg env step after (s.at i K)).Raised := by
  let r := executeStep env cfg.options step (showStep cfg step s).monitor
    (showStep cfg step s).calls
  let s₀ : RunState := showIdle cfg ((({ showStep cfg step s with
    monitor := r.2.1, calls := r.2.2 }).at i []).control fun c => (c.record r.1).capture step r.1)
  have hs₀ : s₀.toControl = (((showStep cfg step s).at i []).toControl.record r.1).capture step r.1 :=
    publish_toControl _ _ _
  have hstep : ∀ K after, normalStep cfg env step after (s.at i K) =
      (s₀.at i K).andThen env (notify cfg r.1) (after r.1) := by
    intro K after
    unfold normalStep
    dsimp only
    rw [show showStep cfg step (s.at i K) = (showStep cfg step s).at i K from publish_at _,
      show s₀.at i K = showIdle cfg (RunState.at _ i K) from (publish_at _).symm]
    rfl
  have hshow : (showStep cfg step s).halt = s.halt :=
    congrArg Control.halt (publish_toControl _ _ _)
  rcases andThen_at env (notify cfg r.1) i s₀ with ⟨s₁, hs₁, h⟩ | h
  · refine Or.inl ⟨r.1, s₁, executeStep_output _ _ _ _ _, ?_, ?_, fun K after => ?_⟩
    · rw [hs₁, hs₀]
      exact List.mem_append_right _ List.mem_cons_self
    · rw [hs₁, hs₀]
      exact hshow
    · rw [hstep, h]
  · refine Or.inr fun K after => ?_
    rw [hstep]
    exact h K _

theorem handoff_at (hc : cfg.canPause = false) (env : Env) (step : WorkflowStep) (i : ℤ)
    (s : RunState) :
    (∃ s₁ : RunState, s₁.halt = s.halt ∧
        ∀ K, handoff cfg env step (s.at i K) = s₁.at (i + 1) K) ∨
      ∀ K, (handoff cfg env step (s.at i K)).Raised := by
  let s₀ : RunState :=
    ((showStep cfg step s).at i []).control (Control.passHandoff (handoffResult step))
  have hstep : ∀ K, handoff cfg env step (s.at i K) =
      (s₀.at i K).andThen env (notify cfg (handoffResult step)) fun s =>
        (showIdle cfg s).control (Control.goto cfg.steps.length (.int (i + 1))) := by
    intro K
    unfold handoff
    dsimp only
    rw [hc, show showStep cfg step (s.at i K) = (showStep cfg step s).at i K from publish_at _]
    rfl
  have hshow : (showStep cfg step s).halt = s.halt :=
    congrArg Control.halt (publish_toControl _ _ _)
  rcases andThen_at env (notify cfg (handoffResult step)) i s₀ with ⟨s₁, hs₁, h⟩ | h
  · refine Or.inl ⟨showIdle cfg s₁, ?_, fun K => ?_⟩
    · rw [showIdle, publish_toControl, hs₁]
      exact hshow
    · rw [hstep, h, show showIdle cfg (s₁.at i K) = (showIdle cfg s₁).at i K from publish_at _]
      rfl
  · refine Or.inr fun K => ?_
    rw [hstep]
    exact h K _

theorem handoff_waits (hc : cfg.canPause = true) (env : Env) (step : WorkflowStep) :
    (handoff cfg env step s).waiting = some (handoffPause step) := by
  unfold handoff
  dsimp only
  rw [if_pos hc, waitForResume_toControl]
  rfl

/-- The outcomes of a main step, for all loop stacks at once. -/
inductive Performed (cfg : Config) (env : Env) (step : WorkflowStep) (i : ℤ) (s : RunState) : Prop
    where
  | ran (ha : step.action ≠ .handoff) {r : StepResult} {s₁ : RunState} (hr : r.Of step)
      (hmem : r ∈ s₁.results) (hh : s₁.halt = s.halt)
      (h : ∀ K after, beginStep cfg env step after (s.at i K) = after r (s₁.at i K))
  | handedOff (ha : step.action = .handoff) {s₁ : RunState} (hh : s₁.halt = s.halt)
      (h : ∀ K after, beginStep cfg env step after (s.at i K) = s₁.at (i + 1) K)
  | waits (h : ∀ K after, (beginStep cfg env step after (s.at i K)).waiting ≠ none)
  | raised (h : ∀ K after, (beginStep cfg env step after (s.at i K)).Raised)

/-- **A main step does the same with every loop stack.** -/
theorem performed (cfg : Config) (env : Env) (step : WorkflowStep) (i : ℤ) (s : RunState) :
    Performed cfg env step i s := by
  let p := lookAhead (if i + 1 < cfg.steps.length then pyGet cfg.steps (i + 1) else none)
  let s₀ : RunState := (s.at i []).control Control.begun
  have hbegin : ∀ K after, beginStep cfg env step after (s.at i K) = (s₀.at i K).andThen env p
      (if step.action = .handoff then handoff cfg env step else normalStep cfg env step after) :=
    fun K after => rfl
  rcases andThen_at env p i s₀ with ⟨s₁, hs₁, h⟩ | h
  · have hh : s₁.halt = s.halt := by
      rw [hs₁]
      rfl
    by_cases ha : step.action = .handoff
    · have hstep : ∀ K after, beginStep cfg env step after (s.at i K) =
          handoff cfg env step (s₁.at i K) := by
        intro K after
        rw [hbegin, h, if_pos ha]
      cases hc : cfg.canPause with
      | true =>
        refine .waits fun K after => ?_
        rw [hstep, handoff_waits hc]
        exact Option.some_ne_none _
      | false =>
        rcases handoff_at hc env step i s₁ with ⟨s₂, hs₂, h'⟩ | h'
        · refine .handedOff ha (hs₂.trans hh) fun K after => ?_
          rw [hstep, h']
        · refine .raised fun K after => ?_
          rw [hstep]
          exact h' K
    · have hstep : ∀ K after, beginStep cfg env step after (s.at i K) =
          normalStep cfg env step after (s₁.at i K) := by
        intro K after
        rw [hbegin, h, if_neg ha]
      rcases normalStep_at cfg env step i s₁ with ⟨r, s₂, hr, hmem, hs₂, h'⟩ | h'
      · refine .ran ha hr hmem (hs₂.trans hh) fun K after => ?_
        rw [hstep, h']
      · refine .raised fun K after => ?_
        rw [hstep]
        exact h' K after
  · refine .raised fun K after => ?_
    rw [hbegin]
    exact h K _

end Frame

/-! ## The index machine -/

/-- A frame of the loop stack. -/
def toFrame (F : Frame LoopFrame) : LoopFrame :=
  { F.data.nth F.pos with bodyStart := F.first, bodyEnd := F.last }

/-- **The state of the executor** that a configuration of the index machine stands for. -/
def embed (γ : LoopStack.Config RunState LoopFrame) : RunState :=
  γ.state.at γ.idx (γ.stack.map toFrame)

section Machine

variable [PyText] {cfg : Config} {env : Env}

omit [PyText] in
theorem account_results (cfg : Config) (step : WorkflowStep) (r : StepResult) (s : RunState) :
    (account cfg step r s).results = s.results := by
  have hadv : ∀ c : Control, (c.advance step r).results = c.results := by
    intro c
    obtain ⟨i, l, o, h⟩ := Control.advance_eq step r c
    rw [h]
  rw [account_toControl]
  cases hr : r.status with
  | passed => rw [Control.account_passed hr, hadv]; rfl
  | failed =>
    rcases Control.account_failed cfg step s.toControl hr with ⟨-, h⟩ | ⟨-, ⟨-, h⟩ | ⟨-, h⟩⟩
    · rw [h]
      rfl
    · rw [h]
      rfl
    · rw [h, hadv]
      rfl

variable {i : ℕ} {K : List (Frame LoopFrame)} {s s₁ : RunState} {raw : WorkflowStep}
  {r : StepResult}

theorem structured_body (env : Env) (h : cfg.steps[i]? = some raw) : (structured cfg env).body i =
    if raw.action = .loop then some raw.bodyLength.toNat else none := by
  change cfg.loopBody i = _
  unfold Config.loopBody
  rw [h]

theorem structured_tested (env : Env) (h : cfg.steps[i]? = some raw) :
    (structured cfg env).tested i = decide (raw.action ≠ .handoff) := by
  change cfg.checksLoop i = _
  unfold Config.checksLoop
  rw [h]

theorem structured_load (env : Env) (s : RunState) (h : cfg.steps[i]? = some raw) :
    (structured cfg env).load i s = (resolveStepRuntime raw s.outputs).frame i := by
  change loopAt cfg i s = _
  unfold loopAt
  rw [h]

theorem resolveStepRuntime_bodyLength (raw : WorkflowStep) (o : Outputs) :
    (resolveStepRuntime raw o).bodyLength = raw.bodyLength := by
  rw [WorkflowStep.bodyLength, (resolveStepRuntime_control raw o).2.2, WorkflowStep.bodyLength]

/-- **Going on after a passed step is a step of the index machine.** -/
theorem advance_embed (hn : ProperlyNested cfg) (hraw : cfg.steps[i]? = some raw)
    (ha : raw.action ≠ .handoff) (hr : r.Of (resolveStepRuntime raw s.outputs))
    (hp : r.status = .passed)
    (hrun : (structured cfg env).run i s = (s₁.at i []).control Control.countPass) :
    ((s₁.at i (K.map toFrame)).control fun c =>
        c.countPass.advance (resolveStepRuntime raw s.outputs) r) =
      embed ((structured cfg env).step ⟨i, K, s⟩) := by
  obtain ⟨hi, hget⟩ := List.getElem?_eq_some_iff.mp hraw
  have hmem : raw ∈ cfg.steps := hget ▸ List.getElem_mem hi
  have hact := resolveStepRuntime_action raw s.outputs
  have hlen := resolveStepRuntime_bodyLength raw s.outputs
  have hload := structured_load env s hraw
  generalize resolveStepRuntime raw s.outputs = step at *
  have hbody := structured_body env hraw
  have hone : raw.action = .loop → 1 ≤ raw.bodyLength := fun hl =>
    (hn.body _ (List.mk_mem_zipIdx_iff_getElem?.mpr hraw) hl).1
  have htest : (structured cfg env).tested i = true := by
    rw [structured_tested env hraw, decide_eq_true ha]
  have hm := advance_move hr (s₁.at i (K.map toFrame)).toControl.countPass
  have hbranch : (s₁.at i (K.map toFrame)).toControl.countPass.branchIdx step r = i := by
    rw [Control.branchIdx, Control.branch_other (by rw [hact]; exact hn.plain raw hmem)]
    rfl
  change ({ s₁.at i (K.map toFrame) with
    toControl := (s₁.at i (K.map toFrame)).toControl.countPass.advance step r } : RunState) = _
  generalize (s₁.at i (K.map toFrame)).toControl.countPass.advance step r = c' at hm ⊢
  cases hm with
  | skipBody hl _ hx =>
    rw [hact] at hl
    have h1 := hone hl
    rw [if_pos hl] at hbody
    rw [Machine.step_skip hi hbody (by rw [hload]; exact List.length_eq_zero_iff.mpr hx), hrun]
    have hidx : ((i + raw.bodyLength.toNat + 1 : ℕ) : ℤ) = i + step.bodyLength + 1 := by omega
    rw [embed, hidx]
    rfl
  | enterBody hl _ hx =>
    rw [hact] at hl
    have h1 := hone hl
    rw [if_pos hl] at hbody
    rw [Machine.step_enter hi hbody (by rw [hload]; exact fun h0 => hx (List.length_eq_zero_iff.mp h0)),
      hrun, hload]
    have hlast : ((i + raw.bodyLength.toNat : ℕ) : ℤ) = i + step.bodyLength := by omega
    rw [embed, List.map_cons, toFrame]
    dsimp only
    rw [hlast]
    rfl
  | pastLoop _ hf =>
    rw [hp] at hf
    cases hf
  | forward hl hb =>
    rw [hact] at hl
    rw [if_neg hl] at hbody
    rw [hbranch] at hb ⊢
    rw [Machine.step_inside hi hbody fun F hF he => hb (toFrame F) ?_ (congrArg Nat.cast he), hrun]
    · rfl
    · change toFrame F ∈ (K.map toFrame).head?
      rw [List.head?_map, hF]
      rfl
  | @wrap hl f rest hs hb hlt =>
    rw [hact] at hl
    rw [if_neg hl] at hbody
    obtain ⟨F, K', rfl, rfl, rfl⟩ := List.map_eq_cons_iff.mp hs
    rw [hbranch] at hb
    have hlast : i + 1 = F.last + 1 := congrArg Nat.succ (Int.ofNat_inj.mp hb)
    have hmore : F.pos + 1 < (structured cfg env).count F.data := hlt
    rw [Machine.step_tested hi hbody htest, Machine.land, if_pos hlast, if_pos hmore, hrun]
    rfl
  | @leave hl f rest hs hb hge =>
    rw [hact] at hl
    rw [if_neg hl] at hbody
    obtain ⟨F, K', rfl, rfl, rfl⟩ := List.map_eq_cons_iff.mp hs
    rw [hbranch] at hb ⊢
    have hlast : i + 1 = F.last + 1 := congrArg Nat.succ (Int.ofNat_inj.mp hb)
    have hmore : ¬ F.pos + 1 < (structured cfg env).count F.data := Nat.not_lt.mpr hge
    rw [Machine.step_tested hi hbody htest, Machine.land, if_pos hlast, if_neg hmore, hrun]
    rfl

omit [PyText] in
theorem RunState.Smooth.not_waiting (h : s.Smooth) : s.waiting = none :=
  Option.isNone_iff_eq_none.mp h.awake

omit [PyText] in
theorem RunState.Smooth.not_halt (h : s.Smooth) {k : Halt} (hk : s.halt = some k) : k = .finished := by
  rcases h.ends with he | he
  · exact absurd (hk.symm.trans he) (Option.some_ne_none k)
  · exact Option.some.inj (hk.symm.trans he)

theorem stepAt_at (hraw : cfg.steps[i]? = some raw) (stack : List LoopFrame) :
    cfg.stepAt (s.at i stack).toControl = some (resolveStepRuntime raw s.outputs) := by
  obtain ⟨hi, -⟩ := List.getElem?_eq_some_iff.mp hraw
  have hget : pyGet cfg.steps (i : ℤ) = some raw := by
    rw [pyGet, if_pos (Int.natCast_nonneg i)]
    exact hraw
  change (if (i : ℤ) < cfg.steps.length then (pyGet cfg.steps (i : ℤ)).map _ else _) = _
  rw [if_pos (Int.ofNat_lt.mpr hi), hget]
  rfl

/-- A smooth move with a step left is the beginning of the step. -/
theorem next_at {x : Input} {stack : List LoopFrame} (hraw : cfg.steps[i]? = some raw)
    (hh : s.halt = none) (hw : s.waiting = none) (hs : (next cfg env x (s.at i stack)).Smooth) :
    next cfg env x (s.at i stack) = beginStep cfg env (resolveStepRuntime raw s.outputs)
      (account cfg (resolveStepRuntime raw s.outputs)) (s.at i stack) := by
  have hhead : next cfg env x (s.at i stack) = head cfg env x (s.at i stack) := next_of_awake hh hw
  rw [hhead, head_of_stepAt env x (stepAt_at hraw stack)] at hs ⊢
  split_ifs at hs ⊢
  · exact Halt.noConfusion (hs.not_halt (k := .cancelled) rfl)
  · exact absurd hs.not_waiting (by rw [waitForResume_toControl]; exact Option.some_ne_none _)
  · rfl

/-- **A smooth move with a step left is a step of the index machine.** -/
theorem next_embed (hn : ProperlyNested cfg) {γ : LoopStack.Config RunState LoopFrame} {x : Input}
    (hh : γ.state.halt = none) (hw : γ.state.waiting = none) (hi : γ.idx < cfg.steps.length)
    (hs : (next cfg env x (embed γ)).Smooth) :
    next cfg env x (embed γ) = embed ((structured cfg env).step γ) ∧
      (next cfg env x (embed γ)).halt = none := by
  obtain ⟨i, K, s⟩ := γ
  obtain ⟨raw, hraw⟩ : ∃ raw, cfg.steps[i]? = some raw := ⟨_, List.getElem?_eq_getElem hi⟩
  have hnext : next cfg env x (embed ⟨i, K, s⟩) =
      beginStep cfg env (resolveStepRuntime raw s.outputs)
        (account cfg (resolveStepRuntime raw s.outputs)) (s.at i (K.map toFrame)) :=
    next_at hraw hh hw hs
  have hrun : (structured cfg env).run i s = beginStep cfg env (resolveStepRuntime raw s.outputs)
      (fun _ => RunState.control Control.countPass) (s.at i []) := by
    change perform cfg env i s = _
    rw [perform, stepAt_at hraw]
  rw [hnext] at hs ⊢
  rcases performed cfg env (resolveStepRuntime raw s.outputs) i s with
    ⟨ha, hr, hmem, hs₁, h⟩ | ⟨ha, hs₁, h⟩ | h | h
  · rename_i r s₁
    rw [h] at hs hrun ⊢
    have hp : r.status = .passed := hs.passes r (by rw [account_results]; exact hmem)
    rw [resolveStepRuntime_action] at ha
    have hacc : account cfg (resolveStepRuntime raw s.outputs) r (s₁.at i (K.map toFrame)) =
        (s₁.at i (K.map toFrame)).control fun c =>
          c.countPass.advance (resolveStepRuntime raw s.outputs) r := by
      unfold account
      rw [hp]
    rw [hacc]
    refine ⟨advance_embed hn hraw ha hr hp hrun, ?_⟩
    obtain ⟨j, l, o, hadv⟩ := Control.advance_eq (resolveStepRuntime raw s.outputs) r
      (s₁.at i (K.map toFrame)).toControl.countPass
    rw [control_toControl, hadv]
    exact hs₁.trans hh
  · rename_i s₁
    rw [h] at hrun ⊢
    rw [resolveStepRuntime_action] at ha
    refine ⟨?_, hs₁.trans hh⟩
    have hbody := structured_body env hraw
    rw [if_neg (by rw [ha]; nofun)] at hbody
    have htest : (structured cfg env).tested i = false := by
      rw [structured_tested env hraw, ha]
      rfl
    rw [Machine.step_untested hi hbody htest, hrun]
    rfl
  · exact absurd hs.not_waiting (h _ _)
  · obtain ⟨e, he⟩ := h (K.map toFrame) (account cfg (resolveStepRuntime raw s.outputs))
    exact Halt.noConfusion (hs.not_halt he)

theorem next_embed_end {γ : LoopStack.Config RunState LoopFrame} (env : Env) (x : Input)
    (hh : γ.state.halt = none) (hw : γ.state.waiting = none) (hi : cfg.steps.length ≤ γ.idx) :
    next cfg env x (embed γ) = (embed γ).control (Control.stop .finished) := by
  have hhead : next cfg env x (embed γ) = head cfg env x (embed γ) := next_of_awake hh hw
  rw [hhead, head]
  exact if_neg (Int.not_lt.mpr (Int.ofNat_le.mpr hi))

end Machine

/-! ## Runs -/

section Runs

variable [PyText] {cfg : Config} {env : Env} {σ : ℕ → RunState → Input}

/-- The configuration of the index machine after `n` steps. -/
def indexRun (cfg : Config) (env : Env) (n : ℕ) : LoopStack.Config RunState LoopFrame :=
  (structured cfg env).step^[n] ⟨0, [], entry cfg env⟩

/-- **A smooth run is a run of the index machine**, up to its end. -/
theorem execution_embed (hn : ProperlyNested cfg) (hs : ∀ n, (execution cfg env σ n).Smooth)
    (n : ℕ) :
    (execution cfg env σ n).halt = none ∧ execution cfg env σ n = embed (indexRun cfg env n) ∨
      cfg.steps.length ≤ (indexRun cfg env n).idx ∧
        execution cfg env σ n = (embed (indexRun cfg env n)).control (Control.stop .finished) := by
  induction n with
  | zero =>
    left
    rcases entry_toControl cfg env with h | ⟨e, h⟩
    · refine ⟨congrArg Control.halt h, ?_⟩
      change entry cfg env = { entry cfg env with
        toControl := { (entry cfg env).toControl with stepIdx := 0, loopStack := [] } }
      have hc : ({ (entry cfg env).toControl with stepIdx := 0, loopStack := [] } : Control) =
          (entry cfg env).toControl := by rw [h]
      rw [hc]
    · exact Halt.noConfusion ((hs 0).not_halt (congrArg Control.halt h))
  | succ n ih =>
    have hiter : indexRun cfg env (n + 1) = (structured cfg env).step (indexRun cfg env n) :=
      Function.iterate_succ_apply' _ _ _
    have hmove := hs (n + 1)
    rw [execution_succ] at hmove ⊢
    rw [hiter]
    rcases ih with ⟨hh, he⟩ | ⟨hle, he⟩
    · have hw := (hs n).not_waiting
      rw [he] at hh hw hmove ⊢
      by_cases hi : (indexRun cfg env n).idx < cfg.steps.length
      · obtain ⟨h1, h2⟩ := next_embed hn hh hw hi hmove
        exact Or.inl ⟨h2, h1⟩
      · have hi := Nat.not_lt.mp hi
        right
        rw [Machine.step_of_size_le hi]
        exact ⟨hi, next_embed_end env _ hh hw hi⟩
    · right
      rw [Machine.step_of_size_le hle, he]
      exact ⟨hle, rfl⟩

/-- A run that was smooth up to its end is smooth. -/
theorem smooth_of_halt {N : ℕ} (hN : (execution cfg env σ N).halt ≠ none)
    (h : ∀ n < N + 1, (execution cfg env σ n).Smooth) (n : ℕ) : (execution cfg env σ n).Smooth := by
  by_cases hn : n < N + 1
  · exact h n hn
  · rw [execution_of_halt cfg env σ hN (by omega)]
    exact h N (Nat.lt_succ_self N)

/-- A run that has the index machine at its end comes to its own end. -/
theorem runsStructured_of_runs {b : Block} (hn : ProperlyNested cfg)
    (hs : ∀ n, (execution cfg env σ n).Smooth) {n : ℕ}
    (h : indexRun cfg env n =
      ⟨cfg.steps.length, [], (structured cfg env).exec b 0 (entry cfg env)⟩) :
    RunsStructured cfg env σ b := by
  rcases execution_embed hn hs n with ⟨hh, he⟩ | ⟨-, he⟩
  · refine ⟨n + 1, ?_⟩
    have hw := (hs n).not_waiting
    rw [he, h] at hh hw
    rw [execution_succ, he, h, next_embed_end env _ hh hw le_rfl]
    exact ⟨rfl, rfl, rfl⟩
  · refine ⟨n, ?_⟩
    rw [he, h]
    exact ⟨rfl, rfl, rfl⟩

/-- A run with a stuck frame does not end with an empty stack. -/
theorem not_runsStructured_of_stuck {b : Block} (hn : ProperlyNested cfg)
    (hs : ∀ n, (execution cfg env σ n).Smooth) {n : ℕ}
    (h : ∀ k, ((structured cfg env).step^[k] (indexRun cfg env n)).stack ≠ []) :
    ¬ RunsStructured cfg env σ b := by
  rintro ⟨N, hN, hstack, -⟩
  have hlast : execution cfg env σ (N + n) = execution cfg env σ N :=
    execution_of_halt cfg env σ (by rw [hN]; exact Option.some_ne_none _) (Nat.le_add_right N n)
  have hrun : indexRun cfg env (N + n) = (structured cfg env).step^[N] (indexRun cfg env n) :=
    Function.iterate_add_apply _ _ _ _
  have hmap : (execution cfg env σ (N + n)).loopStack =
      (indexRun cfg env (N + n)).stack.map toFrame := by
    rcases execution_embed hn hs (N + n) with ⟨-, he⟩ | ⟨-, he⟩
    · rw [he]
      rfl
    · rw [he]
      rfl
  rw [hlast, hstack, hrun] at hmap
  exact h N (List.map_eq_nil_iff.mp hmap.symm)

/-- **Main result.** A smooth run of a workflow with properly nested loops is the structured run,
and ends with an empty loop stack, iff no loop that gets items has a body that ends in another loop
or in a handoff. -/
theorem runs_structured_iff (cfg : Config) (env : Env) (σ : ℕ → RunState → Input)
    (hn : ProperlyNested cfg) (hs : ∀ n, (execution cfg env σ n).Smooth) :
    ∃ b : Block, b.LaidOut (structured cfg env) 0 ∧ b.size = cfg.steps.length ∧
      (RunsStructured cfg env σ b ↔ (structured cfg env).Safe b 0 (entry cfg env)) := by
  obtain ⟨b, hl, hsize⟩ := (hn.machine env).block
  change b.size = cfg.steps.length at hsize
  refine ⟨b, hl, hsize, ?_⟩
  have hfits : LoopStack.Fits (structured cfg env) b 0 [] := fun F hF => nomatch hF
  have hend : 0 + b.size ≤ (structured cfg env).size := by
    rw [hsize, Nat.zero_add]
    exact le_rfl
  rcases Machine.runs (s := entry cfg env) hl hend hfits with ⟨hsafe, n, hr⟩ | ⟨hsafe, ⟨n, hr⟩, hst⟩
  · rw [Nat.zero_add, hsize] at hr
    exact ⟨fun _ => hsafe, fun _ => runsStructured_of_runs hn hs hr⟩
  · refine ⟨fun h => absurd h (not_runsStructured_of_stuck hn hs (n := n) fun k => ?_),
      fun h => absurd h hsafe⟩
    rw [indexRun, hr]
    exact hst.iterate_ne_nil k

end Runs

/-! ## Two loops that end at the same step -/

section Example

attribute [local instance] asciiText

/-- A loop over two items around a loop over one, both up to the last step. -/
def loopsTogether : Config where
  workflow :=
    { settings := { humanMode := false }
      steps := [
        { order := 1, order_pos := WorkflowStep.order_one, name := "Outer", action := .loop
          value := some "[1, 2]", loopVar := some "x", loopSteps := some 2 },
        { order := 2, order_pos := WorkflowStep.order_two, name := "Inner", action := .loop
          value := some "[3]", loopVar := some "y", loopSteps := some 1 },
        { order := 3, order_pos := WorkflowStep.order_three, name := "Clear", action := .clear }] }

/-- A loop over two items around a loop over two, with a step after the inner one. -/
def loopsApart : Config where
  workflow :=
    { settings := { humanMode := false }
      steps := [
        { order := 1, order_pos := WorkflowStep.order_one, name := "Outer", action := .loop
          value := some "[1, 2]", loopVar := some "x", loopSteps := some 3 },
        { order := 2, order_pos := WorkflowStep.order_two, name := "Inner", action := .loop
          value := some "[3, 4]", loopVar := some "y", loopSteps := some 1 },
        { order := 3, order_pos := WorkflowStep.order_three, name := "Clear", action := .clear },
        { order := 4, order_pos := WorkflowStep.order_four, name := "Next", action := .clear }] }

/-- A browser in which everything works. -/
def working : Env where
  answer _ _ := { result := .ok .none }
  clock _ := 0

theorem runs_structured_iff_loopsApart :
    RunsStructured loopsApart working (fun _ _ => {})
      (.loop (.loop (.step .done) (.step .done)) .done) ∧
    ((structured loopsApart working).exec (.loop (.loop (.step .done) (.step .done)) .done) 0
      (entry loopsApart working)).begins.map Prod.fst = [0, 1, 2, 2, 3, 1, 2, 2, 3] := by
  obtain ⟨b, hl, hsize, hiff⟩ :=
    runs_structured_iff loopsApart working (fun _ _ => {}) ⟨by decide, by decide, by decide⟩
      (smooth_of_halt (N := 10) (by decide +kernel) (by decide +kernel))
  have hl' : (Block.loop (.loop (.step .done) (.step .done)) .done).LaidOut
      (structured loopsApart working) 0 :=
    ⟨rfl, by decide, ⟨rfl, by decide, ⟨rfl, trivial⟩, rfl, trivial⟩, trivial⟩
  obtain rfl := hl.unique hl' hsize
  exact ⟨hiff.mpr (by decide +kernel), by decide +kernel⟩

/-- **The outer loop runs its body for its first item only, and stays on the stack.** The
structured program runs it for both. -/
theorem loop_in_loop : ProperlyNested loopsTogether ∧
    (∀ n, (execution loopsTogether working (fun _ _ => {}) n).Smooth) ∧
      (∀ b, ¬ RunsStructured loopsTogether working (fun _ _ => {}) b) ∧
        ((execution loopsTogether working (fun _ _ => {}) 4).begins.map Prod.fst = [0, 1, 2]) ∧
          (((structured loopsTogether working).exec (.loop (.loop (.step .done) .done) .done) 0
            (entry loopsTogether working)).begins.map Prod.fst = [0, 1, 2, 1, 2]) := by
  have hhalt : (execution loopsTogether working (fun _ _ => {}) 4).halt ≠ none := by decide +kernel
  refine ⟨⟨by decide, by decide, by decide⟩, smooth_of_halt hhalt (by decide +kernel), fun b h => ?_,
    by decide +kernel, by decide +kernel⟩
  obtain ⟨N, hN, hstack, -⟩ := h
  have hlast : execution loopsTogether working (fun _ _ => {}) 4 =
      execution loopsTogether working (fun _ _ => {}) N := by
    have hN : (execution loopsTogether working (fun _ _ => {}) N).halt ≠ none := by
      rw [hN]
      exact Option.some_ne_none _
    rw [← execution_of_halt _ _ _ hhalt (Nat.le_add_right 4 N),
      ← execution_of_halt _ _ _ hN (Nat.le_add_left N 4)]
  have hlen : (execution loopsTogether working (fun _ _ => {}) 4).loopStack.length = 1 := by
    decide +kernel
  rw [hlast, hstack] at hlen
  exact absurd hlen (by decide)

end Example

end ScoutEngine
