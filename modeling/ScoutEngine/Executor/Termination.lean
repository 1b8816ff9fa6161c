import ScoutEngine.Executor.Advance
import ScoutEngine.Lib.LoopDescent
import Mathlib.Data.Finset.Card
import Mathlib.Data.Finset.Range

/-!
# Termination of the step loop

In a forward-only workflow the index goes back only to the start of the top frame's body. The
positions of the loop (index and frames) then descend, and moves that keep the position (taking an
error pause, resuming it with a retry) use up the indices that can still pause.

* `ForwardOnly`, `Input.Tame`: the hypotheses on the workflow and on the other threads.
* `Control.pos`, `Control.tick`: the position, and the counter for the moves that keep it.
* `LoopInv.advance`: going on is a step of the position.
* `HaltInv.move`, `HaltMove`: every move leaves the loop or descends.
* **`execution_halts`**: every such run leaves its loop.
-/

set_option autoImplicit false

namespace ScoutEngine

open LoopDescent

/-- Skips and bodies are not negative, and jumps go beyond their own step. -/
def ForwardOnly (steps : List WorkflowStep) : Prop :=
  ∀ e ∈ steps.zipIdx, (∀ k ∈ e.1.skipSteps, 0 ≤ k) ∧ (∀ k ∈ e.1.loopSteps, 0 ≤ k) ∧
    ∀ t ∈ e.1.jumpTo, (e.2 : ℤ) < t

instance (steps : List WorkflowStep) : Decidable (ForwardOnly steps) :=
  inferInstanceAs (Decidable (∀ e ∈ steps.zipIdx, _))

/-- No developer pause is requested and no resume instruction jumps: an error pause is answered
by a retry, a continue or an abort, a handoff by a continue or an abort. -/
structure Input.Tame (x : Input) (c : Control) : Prop where
  pause : x.pause = false
  error : ∀ p i, c.waiting = some p → p.kind = .error → x.resume = some i →
    i.action = .retry ∨ i.action = .continue ∨ i.action = .abort
  handoff : ∀ p i, c.waiting = some p → p.kind = .handoff → x.resume = some i →
    i.action = .continue ∨ i.action = .abort

theorem pyGet_natCast {α : Type} (xs : List α) {i : ℤ} (h : 0 ≤ i) : pyGet xs i = xs[i.toNat]? := by
  rw [pyGet, if_pos h]

theorem ForwardOnly.at {steps : List WorkflowStep} (h : ForwardOnly steps) {i : ℤ} (hi : 0 ≤ i)
    {raw : WorkflowStep} (hraw : pyGet steps i = some raw) :
    (∀ k ∈ raw.skipSteps, 0 ≤ k) ∧ (∀ k ∈ raw.loopSteps, 0 ≤ k) ∧ ∀ t ∈ raw.jumpTo, i < t := by
  rw [pyGet_natCast steps hi] at hraw
  have hmem : (raw, i.toNat) ∈ steps.zipIdx := List.mk_mem_zipIdx_iff_getElem?.mpr hraw
  obtain ⟨h1, h2, h3⟩ := h _ hmem
  refine ⟨h1, h2, fun t ht => ?_⟩
  have := h3 t ht
  dsimp only at this
  omega

/-! ## Positions -/

/-- A frame as start and repetitions left. -/
def LoopFrame.left (f : LoopFrame) : ℕ × ℕ :=
  (f.bodyStart.toNat, f.items.length - 1 - f.currentIndex)

/-- The position of the loop. -/
def Control.pos (c : Control) : Pos := ⟨c.stepIdx.toNat, c.loopStack.map LoopFrame.left⟩

/-- The indices below `n` that have not paused the run yet. -/
def Control.unpaused (n : ℕ) (c : Control) : Finset ℕ :=
  (Finset.range n).filter fun i => (i : ℤ) ∉ c.paused

/-- The counter for the moves that keep the position. -/
def Control.tick (n : ℕ) (c : Control) : ℕ :=
  3 * (c.unpaused n).card +
    match c.waiting with
    | none => 1
    | some p => if p.kind = .error then 2 else 0

/-- The frames start behind index `0`, in order. -/
structure LoopInv (c : Control) : Prop where
  idx : 0 ≤ c.stepIdx
  starts : ∀ f ∈ c.loopStack, 1 ≤ f.bodyStart
  ok : Ok c.pos

section Advance

variable {step : WorkflowStep} {r : StepResult} {c : Control}

theorem LoopInv.setIdx (h : LoopInv c) {j : ℤ} (hj : c.stepIdx < j) :
    LoopInv (c.setIdx j) ∧ Step c.pos (c.setIdx j).pos := by
  have h0 := h.idx
  have hlt : c.stepIdx.toNat < j.toNat := by omega
  have hstep : Step c.pos (c.setIdx j).pos := .forward hlt
  exact ⟨⟨h0.trans hj.le, h.starts, hstep.ok h.ok⟩, hstep⟩

/-- A forward-only step leaves the index where it is or moves it forward. -/
theorem le_branchIdx [PyText] (hr : r.Of step) (hs : ∀ k ∈ step.skipSteps, 0 ≤ k)
    (hj : ∀ t ∈ step.jumpTo, c.stepIdx < t) : c.stepIdx ≤ c.branchIdx step r := by
  rcases Control.branchIdx_cases (c := c) hr with h | ⟨k, hk, h⟩ | ⟨t, ht, h⟩
  · exact h.ge
  · have := hs k hk
    omega
  · have := hj t ht
    omega

theorem le_bodyLength (hl : ∀ k ∈ step.loopSteps, 0 ≤ k) : 0 ≤ step.bodyLength := by
  unfold WorkflowStep.bodyLength
  cases hk : step.loopSteps with
  | none => exact le_rfl
  | some k => exact hl k hk

/-- **Going on is a step of the position.** -/
theorem LoopInv.advance [PyText] (h : LoopInv c) (hr : r.Of step)
    (hs : ∀ k ∈ step.skipSteps, 0 ≤ k) (hl : ∀ k ∈ step.loopSteps, 0 ≤ k)
    (hj : ∀ t ∈ step.jumpTo, c.stepIdx < t) :
    LoopInv (c.advance step r) ∧ Step c.pos (c.advance step r).pos := by
  have hb := le_branchIdx hr hs hj
  have h0 := h.idx
  have hm := advance_move hr c
  generalize c.advance step r = c' at hm ⊢
  cases hm with
  | skipBody =>
    have hlen := le_bodyLength hl
    exact h.setIdx (by omega)
  | enterBody =>
    have hnat : (c.stepIdx + 1).toNat = c.stepIdx.toNat + 1 := by omega
    have hpos : ((c.push (step.frame c.stepIdx)).setIdx (c.stepIdx + 1)).pos =
        ⟨c.stepIdx.toNat + 1, (c.stepIdx.toNat + 1, (loopItems step).length - 1 - 0) ::
          c.loopStack.map LoopFrame.left⟩ := by
      rw [← hnat]
      rfl
    have hstep : Step c.pos ((c.push (step.frame c.stepIdx)).setIdx (c.stepIdx + 1)).pos := by
      rw [hpos]
      exact .enter
    refine ⟨⟨?_, List.forall_mem_cons.mpr ⟨?_, h.starts⟩, hstep.ok h.ok⟩, hstep⟩
    · show 0 ≤ c.stepIdx + 1
      omega
    · show 1 ≤ c.stepIdx + 1
      omega
  | pastLoop => exact h.setIdx (by omega)
  | forward => exact h.setIdx (by omega)
  | @wrap _ f rest hstk hbe hlt =>
    have hstarts := h.starts
    rw [hstk, List.forall_mem_cons] at hstarts
    obtain ⟨hf1, hrest⟩ := hstarts
    have hleft : f.left = (f.bodyStart.toNat, f.next.left.2 + 1) := by
      have : f.items.length - 1 - f.currentIndex = f.items.length - 1 - (f.currentIndex + 1) + 1 := by
        omega
      exact congrArg _ this
    have hpos : c.pos =
        ⟨c.stepIdx.toNat, (f.bodyStart.toNat, f.next.left.2 + 1) :: rest.map LoopFrame.left⟩ := by
      rw [Control.pos, hstk, List.map_cons, hleft]
    have hstep : Step c.pos
        ((({ c with loopStack := f.next :: rest }).bindItem f.next).setIdx f.bodyStart).pos := by
      rw [hpos]
      exact .wrap
    refine ⟨⟨?_, List.forall_mem_cons.mpr ⟨hf1, hrest⟩, hstep.ok h.ok⟩, hstep⟩
    show 0 ≤ f.bodyStart
    omega
  | @leave _ f rest hstk hbe hge =>
    have hleft : f.left = (f.bodyStart.toNat, 0) := by
      have : f.items.length - 1 - f.currentIndex = 0 := by omega
      exact congrArg _ this
    have hpos : c.pos = ⟨c.stepIdx.toNat, (f.bodyStart.toNat, 0) :: rest.map LoopFrame.left⟩ := by
      rw [Control.pos, hstk, List.map_cons, hleft]
    have hlt : c.stepIdx.toNat < (c.branchIdx step r + 1).toNat := by omega
    have hstep : Step c.pos
        (({ c with loopStack := rest }).setIdx (c.branchIdx step r + 1)).pos := by
      rw [hpos]
      exact .leave hlt
    refine ⟨⟨?_, ?_, hstep.ok h.ok⟩, hstep⟩
    · show 0 ≤ c.branchIdx step r + 1
      omega
    · exact fun g hg => h.starts g (hstk ▸ List.mem_cons_of_mem _ hg)

end Advance

/-! ## Moves -/

/-- **The invariant of a forward-only run.** A run that waits has a step left, and no developer
pause is in effect. -/
structure HaltInv (n : ℕ) (c : Control) : Prop where
  loop : c.halt = none → LoopInv c
  waiting : c.halt = none → ∀ p, c.waiting = some p → c.stepIdx < n ∧ p.kind ≠ .requested

/-- A move that keeps the invariant, and leaves the loop or descends. -/
structure HaltMove (n : ℕ) (c c' : Control) : Prop where
  inv : HaltInv n c'
  descends : c'.halt ≠ none ∨ Descent n (c'.pos, c'.tick n) (c.pos, c.tick n)

section Moves

variable {n : ℕ} {c c' : Control}

theorem HaltInv.of_halt (h : c.halt ≠ none) : HaltInv n c :=
  ⟨fun hh => absurd hh h, fun hh => absurd hh h⟩

theorem HaltInv.init : HaltInv n {} where
  loop _ :=
    { idx := le_rfl
      starts := fun _ hf => absurd hf List.not_mem_nil
      ok :=
        { sorted := List.Pairwise.nil
          pos := fun _ hf => absurd hf List.not_mem_nil
          le := fun _ hf => absurd hf List.not_mem_nil } }
  waiting _ _ hp := absurd hp (Option.some_ne_none _).symm

theorem HaltMove.of_halt (h : c'.halt ≠ none) : HaltMove n c c' :=
  ⟨.of_halt h, Or.inl h⟩

theorem HaltMove.of_step (hl : LoopInv c) (hn : c.stepIdx < n) (hl' : LoopInv c')
    (hs : Step c.pos c'.pos) (hw : c'.waiting = none) : HaltMove n c c' := by
  have h0 := hl.idx
  have hidx : c.stepIdx.toNat < n := by omega
  exact ⟨⟨fun _ => hl', fun _ p hp => absurd (hw.symm.trans hp) nofun⟩,
    Or.inr (Or.inl ⟨hl.ok, hidx, hs⟩)⟩

theorem HaltMove.of_tick (hl : LoopInv c') (hpos : c'.pos = c.pos) (ht : c'.tick n < c.tick n)
    (hw : ∀ p, c'.waiting = some p → c'.stepIdx < n ∧ p.kind ≠ .requested) :
    HaltMove n c c' :=
  ⟨⟨fun _ => hl, fun _ => hw⟩, Or.inr (Or.inr ⟨hpos, ht⟩)⟩

theorem card_unpaused_insert {i : ℤ} (h0 : 0 ≤ i) (hn : i < n) (hp : i ∉ c.paused)
    (hc : c'.paused = insert i c.paused) : (c'.unpaused n).card < (c.unpaused n).card := by
  refine Finset.card_lt_card ⟨fun j hj => ?_, fun hsub => ?_⟩
  · rw [Control.unpaused, Finset.mem_filter, hc, Finset.mem_insert, not_or] at hj
    exact Finset.mem_filter.mpr ⟨hj.1, hj.2.2⟩
  · have hi : ((i.toNat : ℕ) : ℤ) = i := Int.toNat_of_nonneg h0
    have hmem : i.toNat ∈ c.unpaused n := by
      refine Finset.mem_filter.mpr ⟨Finset.mem_range.mpr (by omega), ?_⟩
      rw [hi]
      exact hp
    have := (Finset.mem_filter.mp (hsub hmem)).2
    rw [hi, hc] at this
    exact this (Finset.mem_insert_self _ _)

theorem tick_errorPause {p : Pause} (hk : p.kind = .error) (h0 : 0 ≤ c.stepIdx)
    (hn : c.stepIdx < n) (hp : c.stepIdx ∉ c.paused) (hw : c.waiting = none)
    (hc : c'.paused = insert c.stepIdx c.paused) (hw' : c'.waiting = some p) :
    c'.tick n < c.tick n := by
  have := card_unpaused_insert h0 hn hp hc
  rw [Control.tick, Control.tick, hw, hw']
  dsimp only
  rw [if_pos hk]
  omega

theorem tick_handoffPause {p : Pause} (hk : p.kind = .handoff) (hw : c.waiting = none)
    (hc : c'.paused = c.paused) (hw' : c'.waiting = some p) : c'.tick n < c.tick n := by
  have hu : c'.unpaused n = c.unpaused n := by rw [Control.unpaused, Control.unpaused, hc]
  rw [Control.tick, Control.tick, hw, hw', hu]
  dsimp only
  rw [if_neg (by rw [hk]; nofun)]
  omega

theorem tick_woken {p : Pause} (hk : p.kind = .error) (hw : c.waiting = some p)
    (hc : c'.paused = c.paused) (hw' : c'.waiting = none) : c'.tick n < c.tick n := by
  have hu : c'.unpaused n = c.unpaused n := by rw [Control.unpaused, Control.unpaused, hc]
  rw [Control.tick, Control.tick, hw, hw', hu]
  dsimp only
  rw [if_pos hk]
  omega

theorem HaltMove.advance [PyText] {step : WorkflowStep} {r : StepResult} {c₁ : Control}
    (hl : LoopInv c) (hn : c.stepIdx < n) (hidx : c₁.stepIdx = c.stepIdx)
    (hstk : c₁.loopStack = c.loopStack) (hw : c₁.waiting = none) (hr : r.Of step)
    (hs : ∀ k ∈ step.skipSteps, 0 ≤ k) (hlo : ∀ k ∈ step.loopSteps, 0 ≤ k)
    (hj : ∀ t ∈ step.jumpTo, c.stepIdx < t) :
    HaltMove n c (c₁.advance step r) := by
  have hpos : c₁.pos = c.pos := by rw [Control.pos, Control.pos, hidx, hstk]
  have hl₁ : LoopInv c₁ := ⟨hidx ▸ hl.idx, hstk ▸ hl.starts, hpos ▸ hl.ok⟩
  obtain ⟨hl', hstep⟩ := hl₁.advance hr hs hlo (hidx ▸ hj)
  obtain ⟨i, l, o, h⟩ := Control.advance_eq step r c₁
  exact .of_step hl hn hl' (hpos ▸ hstep) (by rw [h]; exact hw)

theorem HaltMove.account [PyText] {cfg : Config} {step : WorkflowStep} {r : StepResult}
    (hfo : ForwardOnly cfg.steps) (hl : LoopInv c) (hw : c.waiting = none)
    (hs : cfg.stepAt c = some step) (hr : r.Of step) :
    HaltMove cfg.steps.length c ((c.ran step r).account cfg step r) := by
  have hn := cfg.stepAt_lt hs
  obtain ⟨raw, hraw, hstep⟩ := cfg.stepAt_raw hs
  obtain ⟨hskip, hloop, hjump⟩ := hfo.at hl.idx hraw
  obtain ⟨e1, e2, e3⟩ := resolveStepRuntime_control raw c.outputs
  rw [← hstep] at e1 e2 e3
  rw [← e1] at hskip
  rw [← e2] at hjump
  rw [← e3] at hloop
  cases hst : r.status with
  | passed =>
    rw [Control.account_passed hst]
    exact .advance hl hn rfl rfl hw hr hskip hloop hjump
  | failed =>
    rcases Control.account_failed cfg step (c.ran step r) hst with
      ⟨hp, h⟩ | ⟨-, ⟨-, h⟩ | ⟨-, h⟩⟩
    · rw [h]
      refine .of_tick ⟨hl.idx, hl.starts, hl.ok⟩ rfl
        (tick_errorPause rfl hl.idx hn hp.2.2 hw rfl rfl) fun q hq => ?_
      obtain rfl := Option.some.inj hq
      exact ⟨hn, PauseKind.noConfusion⟩
    · rw [h]
      exact .of_halt (Option.some_ne_none _)
    · rw [h]
      exact .advance hl hn rfl rfl hw hr hskip hloop hjump

/-- **Every move leaves the loop or descends.** -/
theorem HaltInv.move [PyText] {cfg : Config} {x : Input} (hfo : ForwardOnly cfg.steps)
    (h : HaltInv cfg.steps.length c) (hx : x.Tame c) (hm : Move cfg x c c') (hh : c.halt = none) :
    HaltMove cfg.steps.length c c' := by
  have hl := h.loop hh
  cases hm with
  | halted hsome => exact absurd (hh.symm.trans hsome) nofun
  | head _ hw hm =>
    cases hm with
    | finished | noStep | cancelled | monitorRaised | handoffRaised | callbackRaised =>
      exact .of_halt (Option.some_ne_none _)
    | requested _ _ hp => exact absurd (hx.pause.symm.trans hp) Bool.false_ne_true
    | handoffWaits hs =>
      refine .of_tick ⟨hl.idx, hl.starts, hl.ok⟩ rfl (tick_handoffPause rfl hw rfl rfl)
        fun q hq => ?_
      obtain rfl := Option.some.inj hq
      exact ⟨cfg.stepAt_lt hs, PauseKind.noConfusion⟩
    | @handoffPassed step hs =>
      have hl₁ : LoopInv (c.begun.passHandoff (handoffResult step)) := ⟨hl.idx, hl.starts, hl.ok⟩
      obtain ⟨hl', hstep⟩ := hl₁.setIdx (lt_add_one c.stepIdx)
      exact .of_step hl (cfg.stepAt_lt hs) hl' hstep hw
    | ran hs _ _ hr => exact .account hfo hl hw hs hr
  | @wake p _ _ hw hm =>
    obtain ⟨hn, hk⟩ := h.waiting hh p hw
    -- a wait ends with the instruction or, when it times out, with an abort
    have hact : (p.kind = .error → (x.resume.getD { action := .abort }).action = .retry ∨
        (x.resume.getD { action := .abort }).action = .continue ∨
        (x.resume.getD { action := .abort }).action = .abort) ∧
        (p.kind = .handoff → (x.resume.getD { action := .abort }).action = .continue ∨
        (x.resume.getD { action := .abort }).action = .abort) := by
      cases hres : x.resume with
      | none => exact ⟨fun _ => Or.inr (Or.inr rfl), fun _ => Or.inr rfl⟩
      | some i => exact ⟨fun hp => hx.error p i hw hp hres, fun hp => hx.handoff p i hw hp hres⟩
    generalize x.resume.getD { action := .abort } = i at hact hm
    cases hm with
    | requested hk' => exact absurd hk' hk
    | handoffRaised | aborted | abortRaised => exact .of_halt (Option.some_ne_none _)
    | error hk' =>
      have hl₁ : LoopInv ((c.woken p i).setRetrying i) := ⟨hl.idx, hl.starts, hl.ok⟩
      unfold applyResume
      rcases hact.1 hk' with ha | ha | ha
      · rw [ha]
        exact .of_tick hl₁ rfl (tick_woken hk' hw rfl rfl) fun q hq => (nomatch hq)
      · rw [ha]
        obtain ⟨hl', hstep⟩ := hl₁.setIdx (lt_add_one c.stepIdx)
        exact .of_step hl hn hl' hstep rfl
      · rw [ha]
        exact .of_halt (Option.some_ne_none _)
    | handoff hk' hi =>
      have hl₁ : LoopInv ((c.woken p i).passHandoff (handoffResult p.step)) :=
        ⟨hl.idx, hl.starts, hl.ok⟩
      unfold applyResume at hi ⊢
      rcases hact.2 hk' with ha | ha
      · rw [ha]
        obtain ⟨hl', hstep⟩ := hl₁.setIdx (lt_add_one c.stepIdx)
        exact .of_step hl hn hl' hstep rfl
      · rw [ha] at hi
        exact absurd hi nofun

end Moves

/-! ## Runs -/

/-- **Main result: the step loop terminates.** A forward-only workflow, with no developer pause
and no jump instruction, leaves its loop after finitely many moves, whatever the browser does. -/
theorem execution_halts [PyText] (cfg : Config) (env : Env) (σ : ℕ → RunState → Input)
    (hfo : ForwardOnly cfg.steps)
    (hσ : ∀ n, (σ n (execution cfg env σ n)).Tame (execution cfg env σ n).toControl) :
    ∃ n, (execution cfg env σ n).halt ≠ none := by
  by_contra hnone
  push Not at hnone
  have hinv : ∀ n, HaltInv cfg.steps.length (execution cfg env σ n).toControl := by
    intro n
    induction n with
    | zero =>
      rcases entry_toControl cfg env with h | ⟨e, h⟩
      · change HaltInv _ (entry cfg env).toControl
        rw [h]
        exact .init
      · change HaltInv _ (entry cfg env).toControl
        rw [h]
        exact .of_halt (Option.some_ne_none _)
    | succ n ih => exact (ih.move hfo (hσ n) (next_move cfg env _ _) (hnone n)).inv
  obtain ⟨_, ⟨n, rfl⟩, hmin⟩ := (wellFounded_descent cfg.steps.length).has_min
    (Set.range fun n => ((execution cfg env σ n).pos, (execution cfg env σ n).tick cfg.steps.length))
    ⟨_, 0, rfl⟩
  rcases ((hinv n).move hfo (hσ n) (next_move cfg env _ _) (hnone n)).descends with hh | hd
  · exact hh (hnone (n + 1))
  · exact hmin _ ⟨n + 1, rfl⟩ hd

section Example

attribute [local instance] asciiText

/-- A loop over two items, with a body that the browser fails. -/
def clearEach : Config where
  workflow :=
    { steps := [
        { order := 1, order_pos := WorkflowStep.order_one, name := "Each", action := .loop
          value := some "[1, 2]", loopVar := some "x", loopSteps := some 1 },
        { order := 2, order_pos := WorkflowStep.order_two, name := "Clear", action := .clear
          onError := some .continue }] }

/-- A browser that does nothing. -/
def broken : Env where
  answer _ _ := { result := .error ⟨.other, "broken"⟩ }
  clock _ := 0

theorem execution_halts_clearEach :
    ∃ n, (execution clearEach broken (fun _ _ => {}) n).halt ≠ none :=
  execution_halts _ _ _ (by decide) fun _ =>
    ⟨rfl, fun _ _ _ _ h => (nomatch h), fun _ _ _ _ h => (nomatch h)⟩

end Example

end ScoutEngine
