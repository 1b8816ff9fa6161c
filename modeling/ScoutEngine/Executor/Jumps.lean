import ScoutEngine.Executor.Advance
import ScoutEngine.Executor.Trace

/-!
# Conditional jumps

A conditional step with `jump_to` sets the index to its target minus one. The iteration check of
the top frame sees this index before it is incremented, and the jump takes no frame off the stack.

* `LoopFrame.Contains`: an index in a loop body; `TakesJump`: a conditional step jumps; `Lands`:
  the jump arrives at its target, in the loops that contain it.
* **`lands_iff`**: a jump lands iff every loop in progress contains its target, or only the
  innermost one does not, in its last iteration and with the target right after its body.
* `jump_past_body`: a jump to the end of the workflow that goes back to the start of a loop body.
-/

set_option autoImplicit false

namespace ScoutEngine

open Control

/-- The body of the loop contains an index. -/
def LoopFrame.Contains (f : LoopFrame) (i : ℤ) : Prop := f.bodyStart ≤ i ∧ i ≤ f.bodyEnd

instance (f : LoopFrame) (i : ℤ) : Decidable (f.Contains i) :=
  inferInstanceAs (Decidable (_ ∧ _))

/-- A frame whose body ends right before an index does not contain it. -/
theorem LoopFrame.not_contains_of_end {f : LoopFrame} {t : ℤ} (h : t - 1 = f.bodyEnd) :
    ¬ f.Contains t := fun hc => by
  have := hc.2
  omega

/-- **The loops in progress let a jump to `t` pass**: they contain `t`, apart from an innermost loop
that is in its last iteration and ends right before `t`. -/
def Control.Passable (t : ℤ) (c : Control) : Prop :=
  ∀ f rest, c.loopStack = f :: rest → (∀ g ∈ rest, g.Contains t) ∧
    (f.Contains t ∨ f.bodyEnd + 1 = t ∧ f.items.length ≤ f.currentIndex + 1)

section Runs

variable [PyText]

/-- **A conditional step jumps to `t`** in move `n` of a run: it passes, its condition is met,
`skip_steps` is unset, and the run goes on. -/
structure TakesJump (cfg : Config) (env : Env) (σ : ℕ → RunState → Input) (n : ℕ) (t : ℤ) :
    Prop where
  running : (execution cfg env σ n).halt = none
  awake : (execution cfg env σ n).waiting = none
  step : ∃ step, cfg.stepAt (execution cfg env σ n).toControl = some step ∧
    step.action = .conditional ∧ step.skipSteps = none ∧ step.jumpTo = some t
  passes : ∃ r ∈ (execution cfg env σ (n + 1)).results.drop (execution cfg env σ n).results.length,
    r.status = .passed ∧ (r.outputData.getKey "condition_met").truthy = true
  goesOn : (execution cfg env σ (n + 1)).halt = none
  inside : 0 ≤ t ∧ t ≤ cfg.steps.length

instance (cfg : Config) (env : Env) (σ : ℕ → RunState → Input) (n : ℕ) (t : ℤ) :
    Decidable (TakesJump cfg env σ n t) :=
  decidable_of_iff ((execution cfg env σ n).halt = none ∧
      (execution cfg env σ n).waiting.isNone = true ∧
      (∃ step ∈ cfg.stepAt (execution cfg env σ n).toControl,
        step.action = .conditional ∧ step.skipSteps = none ∧ step.jumpTo = some t) ∧
      (∃ r ∈ (execution cfg env σ (n + 1)).results.drop (execution cfg env σ n).results.length,
        r.status = .passed ∧ (r.outputData.getKey "condition_met").truthy = true) ∧
      (execution cfg env σ (n + 1)).halt = none ∧ 0 ≤ t ∧ t ≤ cfg.steps.length)
    ⟨fun h => ⟨h.1, Option.isNone_iff_eq_none.mp h.2.1, h.2.2.1, h.2.2.2.1, h.2.2.2.2.1,
        h.2.2.2.2.2⟩,
      fun h => ⟨h.running, Option.isNone_iff_eq_none.mpr h.awake, h.step, h.passes, h.goesOn,
        h.inside⟩⟩

/-- **The jump of move `n` lands at `t`.** -/
structure Lands (cfg : Config) (env : Env) (σ : ℕ → RunState → Input) (n : ℕ) (t : ℤ) : Prop where
  idx : (execution cfg env σ (n + 1)).stepIdx = t
  /-- The next step executed is the one at `t`. -/
  next : t < cfg.steps.length → (σ (n + 1) (execution cfg env σ (n + 1))).Goes cfg →
    (execution cfg env σ (n + 2)).begins = (execution cfg env σ (n + 1)).begins ++
      [(t, (execution cfg env σ (n + 1)).outputs)]
  /-- A jump behind the last step ends the run. -/
  ends : t = cfg.steps.length → (execution cfg env σ (n + 2)).halt = some .finished
  /-- The loops in progress are those that contain `t`, where they were. -/
  loops : (execution cfg env σ (n + 1)).loopStack =
    (execution cfg env σ n).loopStack.filter (fun f => f.Contains t)

/-! ## The index after a jump -/

theorem branchIdx_jump {step : WorkflowStep} {r : StepResult} {c : Control} {t : ℤ}
    (h : r.Of step) (ha : step.action = .conditional) (hr : r.status = .passed)
    (hm : (r.outputData.getKey "condition_met").truthy = true) (hs : step.skipSteps = none)
    (ht : step.jumpTo = some t) : c.branchIdx step r = t - 1 := by
  rw [branchIdx_eq h, if_pos ⟨h.action.trans ha, hr, hm⟩, WorkflowStep.target, hs, ht]
  rfl

/-- **What the move of a jump does**: it runs the step, counts the pass and advances. -/
theorem TakesJump.move {cfg : Config} {env : Env} {σ : ℕ → RunState → Input} {n : ℕ} {t : ℤ}
    (h : TakesJump cfg env σ n t) : ∃ (step : WorkflowStep) (r : StepResult) (c : Control),
      c.loopStack = (execution cfg env σ n).loopStack ∧ c.branchIdx step r = t - 1 ∧
        step.action ≠ .loop ∧ (execution cfg env σ (n + 1)).waiting = none ∧
        AdvanceMove step r c (execution cfg env σ (n + 1)).toControl := by
  obtain ⟨step, hs, ha, hskip, hjump⟩ := h.step
  obtain ⟨r, hr, hp, hm⟩ := h.passes
  have hloop : step.action ≠ .loop := by
    rw [ha]
    exact Action.noConfusion
  have hhandoff : step.action ≠ .handoff := by
    rw [ha]
    exact Action.noConfusion
  have hmove := head_move cfg env (σ n (execution cfg env σ n)) (execution cfg env σ n)
  rw [← next_of_awake h.running h.awake, ← execution_succ] at hmove
  obtain ⟨hof, heq⟩ := hmove.ran_of_result hs hhandoff hr fun e he => by rw [h.goesOn] at he; cases he
  have hb := branchIdx_jump (c := ((execution cfg env σ n).ran step r).countPass) hof ha hp hm
    hskip hjump
  rw [heq, account_passed hp]
  refine ⟨step, r, ((execution cfg env σ n).ran step r).countPass, rfl, hb, hloop, ?_,
    advance_move hof _⟩
  exact (advance_waiting step r _).trans h.awake

/-- **A landed jump is followed by its target.** -/
theorem lands_of {cfg : Config} {env : Env} {σ : ℕ → RunState → Input} {n : ℕ} {t : ℤ}
    (h : TakesJump cfg env σ n t) (hw : (execution cfg env σ (n + 1)).waiting = none)
    (hi : (execution cfg env σ (n + 1)).stepIdx = t)
    (hl : (execution cfg env σ (n + 1)).loopStack =
      (execution cfg env σ n).loopStack.filter (fun f => f.Contains t)) :
    Lands cfg env σ n t where
  idx := hi
  next hlt hx := by
    obtain ⟨h0, -⟩ := h.inside
    obtain ⟨raw, -, hs⟩ := cfg.stepAt_inside (hi ▸ h0) (hi ▸ hlt)
    rw [execution_succ, next_of_awake h.goesOn hw, ← hi]
    exact (head_move cfg env _ _).begins_of_goes hs hx
  ends ht := by
    rw [execution_succ, next_of_awake h.goesOn hw, head, if_neg (by omega)]
    rfl
  loops := hl

omit [PyText] in
/-- **The iteration check lets a jump pass** iff the loops in progress do. -/
theorem AdvanceMove.passable_iff {step : WorkflowStep} {r : StepResult} {c c' : Control} {t : ℤ}
    (h : AdvanceMove step r c c') (ha : step.action ≠ .loop) (hb : c.branchIdx step r = t - 1) :
    (c'.stepIdx = t ∧ c'.loopStack = c.loopStack.filter (fun f => f.Contains t)) ↔
      c.Passable t := by
  unfold Control.Passable
  cases h with
  | skipBody ha' | enterBody ha' | pastLoop ha' => exact absurd ha' ha
  | forward _ hne =>
    constructor
    · rintro ⟨-, hl⟩ f rest hs
      have hall : ∀ g ∈ c.loopStack, g.Contains t := fun g hg =>
        of_decide_eq_true (List.filter_eq_self.mp hl.symm g hg)
      rw [hs] at hall
      exact ⟨fun g hg => hall g (List.mem_cons_of_mem f hg), Or.inl (hall f List.mem_cons_self)⟩
    · intro hp
      refine ⟨by change c.branchIdx step r + 1 = t; omega, (List.filter_eq_self.mpr ?_).symm⟩
      intro g (hg : g ∈ c.loopStack)
      refine decide_eq_true ?_
      cases hs : c.loopStack with
      | nil => simp [hs] at hg
      | cons f rest =>
        obtain ⟨hrest, hf | ⟨hend, -⟩⟩ := hp f rest hs
        · rw [hs] at hg
          rcases List.mem_cons.mp hg with rfl | hg
          · exact hf
          · exact hrest g hg
        · exact absurd (by omega) (hne f (by rw [hs]; rfl))
  | @wrap _ f rest hs he hlt =>
    have hnot : ¬ f.Contains t := LoopFrame.not_contains_of_end (hb ▸ he)
    constructor
    · rintro ⟨-, hl⟩
      have hlen := congrArg List.length hl
      rw [hs, List.filter_cons_of_neg (by simp [hnot])] at hlen
      have hle := List.length_filter_le (fun f : LoopFrame => decide (f.Contains t)) rest
      change rest.length + 1 = _ at hlen
      omega
    · intro hp
      obtain ⟨-, hf | ⟨-, hge⟩⟩ := hp f rest hs
      · exact absurd hf hnot
      · omega
  | @leave _ f rest hs he hge =>
    have hnot : ¬ f.Contains t := LoopFrame.not_contains_of_end (hb ▸ he)
    have hfilter : c.loopStack.filter (fun f => f.Contains t) =
        rest.filter (fun f => f.Contains t) := by
      rw [hs, List.filter_cons_of_neg (by simp [hnot])]
    rw [hfilter]
    constructor
    · rintro ⟨-, hl⟩ g rest' hs'
      obtain ⟨rfl, rfl⟩ := List.cons.inj (hs.symm.trans hs')
      refine ⟨fun g hg => of_decide_eq_true (List.filter_eq_self.mp hl.symm g hg), Or.inr ⟨?_, hge⟩⟩
      omega
    · intro hp
      refine ⟨by change c.branchIdx step r + 1 = t; omega, (List.filter_eq_self.mpr ?_).symm⟩
      exact fun g hg => decide_eq_true ((hp f rest hs).1 g hg)

/-- **Main result.** A conditional jump lands at its target iff every loop in progress contains the
target, or only the innermost one does not and the jump leaves it in its last iteration to the
step right after its body. -/
theorem lands_iff {cfg : Config} {env : Env} {σ : ℕ → RunState → Input} {n : ℕ} {t : ℤ}
    (h : TakesJump cfg env σ n t) :
    Lands cfg env σ n t ↔ (execution cfg env σ n).Passable t := by
  obtain ⟨step, r, c, hstack, hb, ha, hw, hmove⟩ := h.move
  have hiff := hmove.passable_iff ha hb
  unfold Control.Passable at hiff ⊢
  rw [← hstack, ← hiff]
  constructor
  · intro hl
    exact ⟨hl.idx, hstack ▸ hl.loops⟩
  · rintro ⟨hi, hl⟩
    exact lands_of h hw hi (hstack ▸ hl)

end Runs

/-! ## A jump past a loop body -/

section Example

attribute [local instance] asciiText

/-- A loop over two items whose body is a jump to the end of the workflow. -/
def breakOff : Config where
  workflow :=
    { settings := { humanMode := false }
      steps := [
        { order := 1, order_pos := WorkflowStep.order_one, name := "Each", action := .loop
          value := some "[1, 2]", loopVar := some "x", loopSteps := some 1 },
        { order := 2, order_pos := WorkflowStep.order_two, name := "Break", action := .conditional
          value := some "yes", jumpTo := some 2 }] }

/-- A browser that is never asked for anything. -/
def idle : Env where
  answer _ _ := { result := .ok .none }
  clock _ := 0

/-- In the last iteration the jump lands. -/
theorem lands_iff_last_iteration :
    TakesJump breakOff idle (fun _ _ => {}) 2 2 ∧ (Lands breakOff idle (fun _ _ => {}) 2 2 ↔
      (execution breakOff idle (fun _ _ => {}) 2).Passable 2) := by
  have h : TakesJump breakOff idle (fun _ _ => {}) 2 2 := by decide +kernel
  exact ⟨h, lands_iff h⟩

/-- **A jump behind the last step goes back to the start of the loop body.** -/
theorem jump_past_body :
    TakesJump breakOff idle (fun _ _ => {}) 1 2 ∧ ¬ Lands breakOff idle (fun _ _ => {}) 1 2 ∧
      (execution breakOff idle (fun _ _ => {}) 4).begins.map Prod.fst = [0, 1, 1] := by
  refine ⟨by decide +kernel, fun h => ?_, by decide +kernel⟩
  have hidx : (execution breakOff idle (fun _ _ => {}) 2).stepIdx = 1 := by decide +kernel
  rw [h.idx] at hidx
  exact absurd hidx (by decide)

end Example

end ScoutEngine
