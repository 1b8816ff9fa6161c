import ScoutEngine.Executor.NestedLoops
import Mathlib.Algebra.BigOperators.Intervals

/-!
# The frames of the loop stack

A frame is followed from the move that pushes it, by its height on the loop stack. It is at the item
that its wraps have led to, however the run jumps in and out of its body.

* `Control.frameAt`: the frame at a height; `Wraps`: a move takes it to another item.
* `FrameMove`, **`Move.frame`**: the four things that a move does at a height.
* `Lives`, `wraps`: the life of a frame; `FrameKept`: what holds throughout.
* `LoopFrame.Bound`: the variables of a frame hold its current item; **`frames_kept`**.
-/

set_option autoImplicit false

namespace ScoutEngine

namespace Control

/-- The frame at a height of the loop stack, the lowest one first. -/
def frameAt (d : ℕ) (c : Control) : Option LoopFrame := c.loopStack.reverse[d]?

/-- The item that the frame at a height is at. -/
def itemAt (d : ℕ) (c : Control) : Option ℕ := (c.frameAt d).map LoopFrame.currentIndex

end Control

/-- **The move takes the frame at a height to another item.** -/
def Wraps (d : ℕ) (c c' : Control) : Prop :=
  (c.itemAt d).isSome ∧ (c'.itemAt d).isSome ∧ c.itemAt d ≠ c'.itemAt d

instance (d : ℕ) (c c' : Control) : Decidable (Wraps d c c') :=
  inferInstanceAs (Decidable (_ ∧ _ ∧ _))

/-- The variables of a frame hold its current item and the number of the item, which has the last
word when both have one name. -/
structure LoopFrame.Bound (f : LoopFrame) (o : Outputs) : Prop where
  item : f.loopIndexVar.getD "" = "" ∨ f.loopIndexVar ≠ f.loopVar →
    Dict.get f.loopVar o = f.items[f.currentIndex]?
  index : f.loopIndexVar.getD "" ≠ "" → Dict.get f.loopIndexVar o = some (.int f.currentIndex)

theorem LoopFrame.bound_bound {f : LoopFrame} (h : f.currentIndex < f.items.length) (o : Outputs) :
    f.Bound (Control.bound f o) := by
  unfold Control.bound
  rw [List.getElem?_eq_getElem h]
  dsimp only
  split_ifs with hi
  · exact ⟨fun _ => by rw [Dict.get_set_self, List.getElem?_eq_getElem h], fun hne => absurd hi hne⟩
  · refine ⟨fun hor => ?_, fun _ => Dict.get_set_self _ _ _⟩
    have hne : f.loopIndexVar ≠ f.loopVar := hor.resolve_left hi
    rw [Dict.get_set_ne hne, Dict.get_set_self, List.getElem?_eq_getElem h]

/-! ## Heights -/

section Heights

variable {c c' : Control} {f g : LoopFrame} {rest : List LoopFrame} {d : ℕ}

theorem frameAt_of_stack (h : c'.loopStack = c.loopStack) : c'.frameAt d = c.frameAt d := by
  rw [Control.frameAt, h, Control.frameAt]

theorem frameAt_cons (h : c.loopStack = f :: rest) :
    c.frameAt d = if d = rest.length then some f else rest.reverse[d]? := by
  rw [Control.frameAt, h, List.reverse_cons]
  split_ifs with hd
  · rw [hd]
    simp
  · rcases Nat.lt_or_gt_of_ne hd with hlt | hgt
    · rw [List.getElem?_append_left (by simpa using hlt)]
    · rw [List.getElem?_eq_none (by simp; omega), List.getElem?_eq_none (by simp; omega)]

theorem frameAt_height (rest : List LoopFrame) : rest.reverse[rest.length]? = none :=
  List.getElem?_eq_none (by simp)

end Heights

section Moves

variable [PyText] {cfg : Config} {x : Input} {c c' : Control}

/-- The step at the index of a loop head pushes a frame. -/
structure Pushes (cfg : Config) (c : Control) (raw : WorkflowStep) : Prop where
  step : pyGet cfg.steps c.stepIdx = some raw
  loop : raw.action = .loop
  nonempty : loopItems (resolveStepRuntime raw c.outputs) ≠ []

/-- **What a move does to the frame at a height.** -/
inductive FrameMove (cfg : Config) (d : ℕ) (c c' : Control) : Prop where
  | keeps (h : c'.frameAt d = c.frameAt d)
  | pushes {raw : WorkflowStep} (hp : Pushes cfg c raw) (h : c.frameAt d = none)
      (h' : c'.frameAt d = some ((resolveStepRuntime raw c.outputs).frame c.stepIdx))
  | wraps {f : LoopFrame} (h : c.frameAt d = some f) (h' : c'.frameAt d = some f.next)
      (hlt : f.next.currentIndex < f.next.items.length) (hb : f.next.Bound c'.outputs)
  | pops {f : LoopFrame} (h : c.frameAt d = some f) (h' : c'.frameAt d = none)

theorem FrameMove.of_push {raw : WorkflowStep} (hp : Pushes cfg c raw)
    (h : c'.loopStack = (resolveStepRuntime raw c.outputs).frame c.stepIdx :: c.loopStack) (d : ℕ) :
    FrameMove cfg d c c' := by
  have hat := frameAt_cons (d := d) h
  by_cases hd : d = c.loopStack.length
  · rw [if_pos hd] at hat
    refine .pushes hp ?_ hat
    rw [hd]
    exact frameAt_height c.loopStack
  · rw [if_neg hd] at hat
    exact .keeps hat

omit [PyText] in
theorem FrameMove.of_wrap [PyText] {f : LoopFrame} {rest : List LoopFrame}
    (hs : c.loopStack = f :: rest) (hs' : c'.loopStack = f.next :: rest)
    (hlt : f.next.currentIndex < f.next.items.length) (hb : f.next.Bound c'.outputs) (d : ℕ) :
    FrameMove cfg d c c' := by
  have hat := frameAt_cons (d := d) hs
  have hat' := frameAt_cons (d := d) hs'
  by_cases hd : d = rest.length
  · rw [if_pos hd] at hat hat'
    exact .wraps hat hat' hlt hb
  · rw [if_neg hd] at hat hat'
    exact .keeps (hat'.trans hat.symm)

theorem FrameMove.of_pop {f : LoopFrame} {rest : List LoopFrame} (hs : c.loopStack = f :: rest)
    (hs' : c'.loopStack = rest) (d : ℕ) : FrameMove cfg d c c' := by
  have hat := frameAt_cons (d := d) hs
  have hat' : c'.frameAt d = rest.reverse[d]? := by rw [Control.frameAt, hs']
  by_cases hd : d = rest.length
  · rw [if_pos hd] at hat
    rw [hd, frameAt_height] at hat'
    exact .pops hat (hd ▸ hat')
  · rw [if_neg hd] at hat
    exact .keeps (hat'.trans hat.symm)

/-- Going on from a step that was executed. -/
theorem AdvanceMove.frame {raw : WorkflowStep} {r : StepResult} {c₁ : Control}
    (h : AdvanceMove (resolveStepRuntime raw c.outputs) r c₁ c')
    (hraw : pyGet cfg.steps c.stepIdx = some raw) (hs : c₁.loopStack = c.loopStack)
    (hi : c₁.stepIdx = c.stepIdx) (d : ℕ) : FrameMove cfg d c c' := by
  cases h with
  | skipBody | pastLoop | forward => exact .keeps (frameAt_of_stack hs)
  | enterBody ha _ hx =>
    rw [resolveStepRuntime_action] at ha
    refine .of_push ⟨hraw, ha, hx⟩ ?_ d
    rw [← hs, ← hi]
    rfl
  | wrap _ hs' _ hlt => exact .of_wrap (hs.symm.trans hs') rfl hlt (LoopFrame.bound_bound hlt _) d
  | leave _ hs' => exact .of_pop (hs.symm.trans hs') rfl d

/-- **At every height a move does one of the four things.** -/
theorem Move.frame (h : Move cfg x c c') (d : ℕ) : FrameMove cfg d c c' := by
  cases h with
  | halted => exact .keeps rfl
  | head _ _ h =>
    cases h with
    | finished | noStep | cancelled | requested | monitorRaised | handoffWaits | handoffRaised |
      callbackRaised => exact .keeps rfl
    | handoffPassed => exact .keeps (frameAt_of_stack (Control.goto_loopStack _ _ _))
    | @ran _ r hs _ _ hr =>
      obtain ⟨raw, hraw, rfl⟩ := cfg.stepAt_raw hs
      cases hst : r.status with
      | passed =>
        rw [Control.account_passed hst]
        exact (advance_move hr (c.ran _ r).countPass).frame hraw rfl rfl d
      | failed =>
        rcases Control.account_failed cfg (resolveStepRuntime raw c.outputs) (c.ran _ r) hst with
          ⟨-, h⟩ | ⟨-, ⟨-, h⟩ | ⟨-, h⟩⟩
        · rw [h]
          exact .keeps rfl
        · rw [h]
          exact .keeps rfl
        · rw [h]
          exact (advance_move hr (c.ran _ r).countFail).frame hraw rfl rfl d
  | wake _ _ h =>
    cases h with
    | requested | error | handoff => exact .keeps (frameAt_of_stack (Control.goto_loopStack _ _ _))
    | handoffRaised | aborted | abortRaised => exact .keeps rfl

omit [PyText] in
/-- A move that leaves a frame alone is no wrap. -/
theorem FrameMove.not_wraps {d : ℕ} (h : c'.frameAt d = c.frameAt d) : ¬ Wraps d c c' := by
  rintro ⟨-, -, hne⟩
  rw [Control.itemAt, Control.itemAt, h] at hne
  exact hne rfl

omit [PyText] in
theorem FrameMove.wraps_next {d : ℕ} {f : LoopFrame} (h : c.frameAt d = some f)
    (h' : c'.frameAt d = some f.next) : Wraps d c c' := by
  simp [Wraps, Control.itemAt, h, h', LoopFrame.next]

/-- **A wrap goes on to the next item and binds it.** -/
theorem FrameMove.of_wraps {d : ℕ} (h : FrameMove cfg d c c') (hw : Wraps d c c') :
    ∃ f, c.frameAt d = some f ∧ c'.frameAt d = some f.next ∧
      f.next.currentIndex < f.next.items.length ∧ f.next.Bound c'.outputs := by
  cases h with
  | keeps h => exact absurd hw (FrameMove.not_wraps h)
  | @wraps f h h' hlt hb => exact ⟨f, h, h', hlt, hb⟩
  | pushes _ h =>
    have hsome := hw.1
    rw [Control.itemAt, h] at hsome
    cases hsome
  | pops _ h' =>
    have hsome := hw.2.1
    rw [Control.itemAt, h'] at hsome
    cases hsome

end Moves

/-! ## The life of a frame -/

section Runs

variable [PyText] {cfg : Config} {env : Env} {σ : ℕ → RunState → Input} {d k n : ℕ}

/-- How often the frame at a height wraps from move `k` on, before move `n`. -/
def wraps (cfg : Config) (env : Env) (σ : ℕ → RunState → Input) (d k n : ℕ) : ℕ :=
  ((Finset.Ico k n).filter fun j =>
    Wraps d (execution cfg env σ j).toControl (execution cfg env σ (j + 1)).toControl).card

/-- **The frame at a height was pushed in move `k`**, by the loop step at its index, and has not been
popped in the first `n` moves. -/
structure Lives (cfg : Config) (env : Env) (σ : ℕ → RunState → Input) (d k n : ℕ)
    (raw : WorkflowStep) : Prop where
  lt : k < n
  pushes : Pushes cfg (execution cfg env σ k).toControl raw
  fresh : (execution cfg env σ k).frameAt d = none
  alive : ∀ j, k < j → j ≤ n → ((execution cfg env σ j).frameAt d).isSome

/-- **What holds of a frame throughout its life.** -/
structure FrameKept (cfg : Config) (env : Env) (σ : ℕ → RunState → Input) (d n : ℕ)
    (f : LoopFrame) : Prop where
  nonempty : f.items ≠ []
  inside : f.currentIndex < f.items.length
  life : ∃ k raw, Lives cfg env σ d k n raw ∧
    f.bodyStart = (execution cfg env σ k).stepIdx + 1 ∧
    f.bodyEnd = (execution cfg env σ k).stepIdx + raw.loopSteps.getD 0 ∧
    f.currentIndex = wraps cfg env σ d (k + 1) n ∧
    wraps cfg env σ d (k + 1) n ≤ f.items.length - 1

theorem wraps_succ (h : k ≤ n) : wraps cfg env σ d k (n + 1) = wraps cfg env σ d k n +
    if Wraps d (execution cfg env σ n).toControl (execution cfg env σ (n + 1)).toControl
      then 1 else 0 := by
  unfold wraps
  rw [Finset.card_filter, Finset.card_filter, Finset.sum_Ico_succ_top h]

theorem Lives.succ {raw : WorkflowStep} (h : Lives cfg env σ d k n raw)
    (hs : ((execution cfg env σ (n + 1)).frameAt d).isSome) : Lives cfg env σ d k (n + 1) raw := by
  refine ⟨Nat.lt_succ_of_lt h.lt, h.pushes, h.fresh, fun j hj hle => ?_⟩
  rcases Nat.lt_or_ge j (n + 1) with hlt | hge
  · exact h.alive j hj (Nat.le_of_lt_succ hlt)
  · obtain rfl : j = n + 1 := by omega
    exact hs

/-- **Every frame is kept**, whatever the run does. -/
theorem frames_life (cfg : Config) (env : Env) (σ : ℕ → RunState → Input) (n : ℕ) :
    ∀ d f, (execution cfg env σ n).frameAt d = some f → ∃ k raw, Lives cfg env σ d k n raw ∧
      f = { (resolveStepRuntime raw (execution cfg env σ k).outputs).frame
        (execution cfg env σ k).stepIdx with currentIndex := wraps cfg env σ d (k + 1) n } ∧
      f.currentIndex < f.items.length := by
  induction n with
  | zero =>
    intro d f hf
    have hempty : (execution cfg env σ 0).loopStack = [] := by
      rcases entry_toControl cfg env with h | ⟨e, h⟩
      · exact congrArg Control.loopStack h
      · exact congrArg Control.loopStack h
    rw [Control.frameAt, hempty] at hf
    cases hf
  | succ n ih =>
    intro d f hf
    have hmove := (next_move cfg env (σ n (execution cfg env σ n)) (execution cfg env σ n)).frame d
    rw [← execution_succ] at hmove
    cases hmove with
    | keeps h =>
      obtain ⟨k, raw, hl, he, hlt⟩ := ih d f (h.symm.trans hf)
      refine ⟨k, raw, hl.succ (by rw [hf]; rfl), ?_, hlt⟩
      rw [wraps_succ hl.lt, if_neg (FrameMove.not_wraps h)]
      exact he
    | @pushes raw hp h h' =>
      obtain rfl := Option.some.inj (h'.symm.trans hf)
      refine ⟨n, raw, ⟨Nat.lt_succ_self n, hp, h, fun j hj hle => ?_⟩, ?_, ?_⟩
      · obtain rfl : j = n + 1 := by omega
        rw [hf]
        rfl
      · simp [wraps, WorkflowStep.frame]
      · exact List.length_pos_iff.mpr hp.nonempty
    | @wraps g h h' hlt hb =>
      obtain rfl := Option.some.inj (h'.symm.trans hf)
      obtain ⟨k, raw, hl, he, -⟩ := ih d g h
      refine ⟨k, raw, hl.succ (by rw [hf]; rfl), ?_, hlt⟩
      rw [wraps_succ hl.lt, if_pos (FrameMove.wraps_next h h'), he]
      rfl
    | pops _ h' => exact absurd (h'.symm.trans hf) (Option.some_ne_none f).symm

/-- **The frames of the loop stack.** In every state every frame has an item it is at, its body is the
one of the loop step that pushed it, it is at the item that its wraps have led to, and every wrap
binds the next item. -/
theorem frames_kept (cfg : Config) (env : Env) (σ : ℕ → RunState → Input) (n : ℕ) :
    (∀ d f, (execution cfg env σ n).frameAt d = some f → FrameKept cfg env σ d n f) ∧
    ∀ d, Wraps d (execution cfg env σ n).toControl (execution cfg env σ (n + 1)).toControl →
      ∃ f, (execution cfg env σ n).frameAt d = some f ∧
        (execution cfg env σ (n + 1)).frameAt d = some f.next ∧
        f.next.currentIndex < f.next.items.length ∧
        f.next.Bound (execution cfg env σ (n + 1)).outputs := by
  refine ⟨fun d f hf => ?_, fun d hw => ?_⟩
  · obtain ⟨k, raw, hl, he, hlt⟩ := frames_life cfg env σ n d f hf
    have hne : f.items ≠ [] := List.length_pos_iff.mp (Nat.zero_lt_of_lt hlt)
    have hidx : f.currentIndex = wraps cfg env σ d (k + 1) n := by rw [he]
    refine ⟨hne, hlt, k, raw, hl, ?_, ?_, hidx, by omega⟩
    · rw [he]
      rfl
    · rw [he]
      show _ + (resolveStepRuntime raw _).bodyLength = _
      rw [WorkflowStep.bodyLength, (resolveStepRuntime_control raw _).2.2]
  · have hmove := (next_move cfg env (σ n (execution cfg env σ n)) (execution cfg env σ n)).frame d
    rw [← execution_succ] at hmove
    exact hmove.of_wraps hw

end Runs

/-! ## Two loops over two items -/

section Example

attribute [local instance] asciiText

/-- A loop over two items whose body is one step. -/
def twoItems (loopVar loopIndexVar : String) : Config where
  workflow :=
    { settings := { humanMode := false }
      steps := [
        { order := 1, order_pos := WorkflowStep.order_one, name := "Each", action := .loop
          value := some "[7, 8]", loopVar := some loopVar, loopIndexVar := some loopIndexVar
          loopSteps := some 1 },
        { order := 2, order_pos := WorkflowStep.order_two, name := "Clear", action := .clear }] }

/-- The second item is bound, with its number. -/
theorem frames_kept_twoItems : ∃ f,
    (execution (twoItems "x" "i") working (fun _ _ => {}) 2).frameAt 0 = some f ∧
    f.currentIndex = 1 ∧
    f.Bound (execution (twoItems "x" "i") working (fun _ _ => {}) 2).outputs ∧
    FrameKept (twoItems "x" "i") working (fun _ _ => {}) 0 2 f := by
  have hw : Wraps 0 (execution (twoItems "x" "i") working (fun _ _ => {}) 1).toControl
      (execution (twoItems "x" "i") working (fun _ _ => {}) 2).toControl := by decide +kernel
  have hi : (execution (twoItems "x" "i") working (fun _ _ => {}) 2).itemAt 0 = some 1 := by
    decide +kernel
  obtain ⟨f, -, hf, -, hb⟩ := (frames_kept (twoItems "x" "i") working (fun _ _ => {}) 1).2 0 hw
  rw [Control.itemAt, hf] at hi
  exact ⟨f.next, hf, Option.some.inj hi, hb,
    (frames_kept (twoItems "x" "i") working (fun _ _ => {}) 2).1 0 f.next hf⟩

/-- **A loop whose two variables have one name** binds the number of the item, and not the item. -/
theorem wrap_twoItems_same :
    Wraps 0 (execution (twoItems "x" "x") working (fun _ _ => {}) 1).toControl
      (execution (twoItems "x" "x") working (fun _ _ => {}) 2).toControl ∧
    ∃ f, (execution (twoItems "x" "x") working (fun _ _ => {}) 2).frameAt 0 = some f ∧
      f.loopVar = some "x" ∧ f.items[f.currentIndex]? = some (.int 8) ∧
      Dict.get f.loopVar (execution (twoItems "x" "x") working (fun _ _ => {}) 2).outputs =
        some (.int 1) := by
  refine ⟨by decide +kernel, ?_⟩
  obtain ⟨f, hf, hv, hi⟩ : ∃ f, (execution (twoItems "x" "x") working (fun _ _ => {}) 2).frameAt 0 =
    some f ∧ f.loopVar = some "x" ∧ f.items[f.currentIndex]? = some (.int 8) := ⟨_, rfl, rfl, rfl⟩
  exact ⟨f, hf, hv, hi, by rw [hv]; rfl⟩

end Example

end ScoutEngine
