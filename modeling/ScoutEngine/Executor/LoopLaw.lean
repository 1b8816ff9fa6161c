import ScoutEngine.Executor.Advance
import ScoutEngine.Executor.Trace

/-!
# One loop

A loop step with items pushes a frame, and the steps of its body are executed until the iteration
check after the last of them pops it.

* `SimpleBody`: a loop body inside the workflow, without inner loops and with conditionals that
  only skip forward in it; `LoopStarts`: a loop step passes; `Inside`: its body has not been left.
* `Slips`: the last step of the body is left without the iteration check.
* `BodyMove`, **`body_move`**: a step of the body; **`body_run`**: the rest of the loop.
-/

set_option autoImplicit false

namespace ScoutEngine

open Control

/-! ## Bodies -/

/-- **The body `l + 1, ..., l + m` lies in the workflow**, has no loop, and its conditionals skip
forward to points of the body. -/
structure SimpleBody (cfg : Config) (l m : ℤ) : Prop where
  length : 1 ≤ m
  start : 0 ≤ l + 1
  inside : l + m < cfg.steps.length
  noLoop : ∀ p ∈ cfg.steps.zipIdx, l < p.2 → p.2 ≤ l + m → p.1.action ≠ .loop
  noJump : ∀ p ∈ cfg.steps.zipIdx, l < p.2 → p.2 ≤ l + m → p.1.action = .conditional →
    p.1.jumpTo = none
  forward : ∀ p ∈ cfg.steps.zipIdx, l < p.2 → p.2 ≤ l + m → p.1.action = .conditional →
    ∀ k ∈ p.1.skipSteps, 0 ≤ k ∧ p.2 + k ≤ l + m

section Runs

variable [PyText]

/-- The step at an index of a body. -/
theorem SimpleBody.stepAt {cfg : Config} {l m : ℤ} (h : SimpleBody cfg l m) {c : Control}
    (hl : l < c.stepIdx) (hm : c.stepIdx ≤ l + m) : ∃ raw, (raw, c.stepIdx.toNat) ∈ cfg.steps.zipIdx ∧
      cfg.stepAt c = some (resolveStepRuntime raw c.outputs) := by
  have hs := h.start
  have hi := h.inside
  obtain ⟨raw, hraw, hstep⟩ := cfg.stepAt_inside (c := c) (by omega) (by omega)
  exact ⟨raw, List.mk_mem_zipIdx_iff_getElem?.mpr hraw, hstep⟩

/-- A step of a body goes on inside the body or to its end. -/
theorem SimpleBody.branchIdx {cfg : Config} {l m : ℤ} (h : SimpleBody cfg l m) {c c₁ : Control}
    {step : WorkflowStep} {r : StepResult} (hs : cfg.stepAt c = some step) (hr : r.Of step)
    (hl : l < c.stepIdx) (hm : c.stepIdx ≤ l + m) (hc : c₁.stepIdx = c.stepIdx) :
    c.stepIdx ≤ c₁.branchIdx step r ∧ c₁.branchIdx step r ≤ l + m := by
  obtain ⟨raw, hmem, hstep⟩ := h.stepAt hl hm
  obtain rfl := Option.some.inj (hstep.symm.trans hs)
  have hs := h.start
  obtain ⟨hskip, hjump, -⟩ := resolveStepRuntime_control raw c.outputs
  by_cases ha : raw.action = .conditional
  · have hn : ((c.stepIdx.toNat : ℕ) : ℤ) = c.stepIdx := Int.toNat_of_nonneg (by omega)
    rcases branchIdx_cases (c := c₁) hr with hb | ⟨k, hk, hb⟩ | ⟨t, ht, -⟩
    · omega
    · obtain ⟨h0, hend⟩ := h.forward _ hmem (by omega) (by omega) ha k (hskip.symm.trans hk)
      rw [hn] at hend
      omega
    · rw [hjump, h.noJump _ hmem (by omega) (by omega) ha] at ht
      cases ht
  · rw [← resolveStepRuntime_action raw c.outputs] at ha
    have hb : c₁.branchIdx _ r = c₁.stepIdx := congrArg stepIdx (branch_other ha)
    omega

/-! ## A step of the body -/

/-- The run has not left the body `l + 1, ..., l + m` since move `n`. -/
def Inside (cfg : Config) (env : Env) (σ : ℕ → RunState → Input) (l m : ℤ) (n k : ℕ) : Prop :=
  ∀ j, n < j → j ≤ k → l < (execution cfg env σ j).stepIdx ∧ (execution cfg env σ j).stepIdx ≤ l + m

/-- **The run leaves the loop to itself**: while it is in the body, it is not cancelled or paused
by request, every pause is resumed with `continue`, and it goes on. -/
def LeftAlone (cfg : Config) (env : Env) (σ : ℕ → RunState → Input) (l m : ℤ) (n : ℕ) : Prop :=
  ∀ k, n < k → Inside cfg env σ l m n k → (σ k (execution cfg env σ k)).Goes cfg ∧
    ((execution cfg env σ k).waiting ≠ none →
      ∃ i, (σ k (execution cfg env σ k)).resume = some i ∧ i.action = .continue) ∧
    (execution cfg env σ (k + 1)).halt = none

/-- **The last step of the body slips past the iteration check** in move `k`: it is a handoff, or
its failure pauses the run. -/
def Slips (cfg : Config) (env : Env) (σ : ℕ → RunState → Input) (l m : ℤ) (k : ℕ) : Prop :=
  (execution cfg env σ k).waiting = none ∧ (execution cfg env σ k).stepIdx = l + m ∧
    ((∃ step, cfg.stepAt (execution cfg env σ k).toControl = some step ∧ step.action = .handoff) ∨
      (execution cfg env σ (k + 1)).waiting ≠ none)

/-- **What a step of the body does**, with a frame `f` on top of the stack `K`. -/
inductive BodyMove (f : LoopFrame) (K : List LoopFrame) (c : Control) (slips : Prop) :
    Control → Prop where
  /-- It goes on to a later step of the body. -/
  | on {c' : Control} (hlt : c.stepIdx < c'.stepIdx) (hle : c'.stepIdx ≤ f.bodyEnd)
      (hs : c'.loopStack = f :: K) (hn : ¬ slips) : BodyMove f K c slips c'
  /-- It goes on to the next item. -/
  | item {c' : Control} (hlt : f.currentIndex + 1 < f.items.length) (hi : c'.stepIdx = f.bodyStart)
      (hs : c'.loopStack = f.next :: K) (ho : ∃ o, c'.outputs = bound f.next o) (hn : ¬ slips) :
      BodyMove f K c slips c'
  /-- It leaves the loop. -/
  | leave {c' : Control} (hge : f.items.length ≤ f.currentIndex + 1)
      (hi : c'.stepIdx = f.bodyEnd + 1) (hs : c'.loopStack = K) (hn : ¬ slips) :
      BodyMove f K c slips c'
  /-- It leaves the body with its frame on the stack. -/
  | slip {c' : Control} (hi : c'.stepIdx = f.bodyEnd + 1) (hs : c'.loopStack = f :: K)
      (h : slips) : BodyMove f K c slips c'

omit [PyText] in
/-- The iteration check after a step of the body. -/
theorem AdvanceMove.bodyMove {step : WorkflowStep} {r : StepResult} {c c₁ c' : Control}
    {f : LoopFrame} {K : List LoopFrame} {slips : Prop} (h : AdvanceMove step r c₁ c')
    (ha : step.action ≠ .loop) (hs : c₁.loopStack = f :: K)
    (hb : c.stepIdx ≤ c₁.branchIdx step r ∧ c₁.branchIdx step r ≤ f.bodyEnd) (hn : ¬ slips) :
    BodyMove f K c slips c' := by
  cases h with
  | skipBody ha' | enterBody ha' | pastLoop ha' => exact absurd ha' ha
  | forward _ hne =>
    have hne' := hne f (by rw [hs]; rfl)
    refine .on ?_ ?_ hs hn
    · change c.stepIdx < c₁.branchIdx step r + 1
      omega
    · change c₁.branchIdx step r + 1 ≤ f.bodyEnd
      omega
  | wrap _ hs' he hlt =>
    obtain ⟨rfl, rfl⟩ := List.cons.inj (hs.symm.trans hs')
    exact .item hlt rfl rfl ⟨c₁.outputs, rfl⟩ hn
  | leave _ hs' he hge =>
    obtain ⟨rfl, rfl⟩ := List.cons.inj (hs.symm.trans hs')
    exact .leave hge (congrArg (· + 1) he) rfl hn

omit [PyText] in
/-- A pause that is resumed with `continue` goes on to the next index. -/
theorem WakeMove.continue {cfg : Config} {p : Pause} {i : ResumeInstruction} {c c' : Control}
    (h : WakeMove cfg p i c c') (hi : i.action = .continue) (hh : c'.halt = none) :
    c'.stepIdx = c.stepIdx + 1 ∧ c'.loopStack = c.loopStack := by
  have happly : applyResume i c.stepIdx = .int (c.stepIdx + 1) := by rw [applyResume, hi]
  cases h with
  | requested | error | handoff =>
    rw [happly]
    exact ⟨rfl, rfl⟩
  | handoffRaised | abortRaised | aborted => exact absurd hh (Option.some_ne_none _)

variable {cfg : Config} {env : Env} {σ : ℕ → RunState → Input} {l m : ℤ} {n k : ℕ}

theorem Inside.succ (h : Inside cfg env σ l m n k)
    (hi : (execution cfg env σ (k + 1)).stepIdx = (execution cfg env σ k).stepIdx) (hk : n < k) :
    Inside cfg env σ l m n (k + 1) := by
  intro j hj hjk
  rcases Nat.lt_or_ge j (k + 1) with hlt | hge
  · exact h j hj (by omega)
  · obtain rfl : j = k + 1 := by omega
    rw [hi]
    exact h k hk le_rfl

theorem Inside.lt {N : ℕ} (h : Inside cfg env σ l m n k) (hN : n < N)
    (hout : l + m < (execution cfg env σ N).stepIdx) : k < N := by
  by_contra hge
  have hm := (h N hN (Nat.not_lt.mp hge)).2
  omega

/-- A pause taken in the body is over in one more move. -/
theorem LeftAlone.resumed (ho : LeftAlone cfg env σ l m n) (hk : n < k) (hin : Inside cfg env σ l m n k)
    (hh : (execution cfg env σ k).halt = none) (hw : (execution cfg env σ k).waiting ≠ none) :
    (execution cfg env σ (k + 1)).halt = none ∧ (execution cfg env σ (k + 1)).waiting = none ∧
      (execution cfg env σ (k + 1)).begins = (execution cfg env σ k).begins ∧
      (execution cfg env σ (k + 1)).stepIdx = (execution cfg env σ k).stepIdx + 1 ∧
      (execution cfg env σ (k + 1)).loopStack = (execution cfg env σ k).loopStack := by
  obtain ⟨-, hres, hgo⟩ := ho k hk hin
  obtain ⟨i, hi, hact⟩ := hres hw
  obtain ⟨p, hp⟩ := Option.ne_none_iff_exists'.mp hw
  have hmove := wake_move cfg env p (σ k (execution cfg env σ k)) (execution cfg env σ k)
  rw [← next_of_waiting hh hp, ← execution_succ, hi] at hmove
  exact ⟨hgo, hmove.pauses.1, hmove.begins, hmove.continue hact hgo⟩

/-- **The step of the body begun at move `k` is over at `k'`**, after no pause or one. -/
structure BodyStep (cfg : Config) (env : Env) (σ : ℕ → RunState → Input) (l m : ℤ)
    (f : LoopFrame) (K : List LoopFrame) (k k' : ℕ) : Prop where
  lt : k < k'
  between : ∀ j, k < j → j < k' →
    (execution cfg env σ j).stepIdx = (execution cfg env σ k).stepIdx ∧
      (execution cfg env σ j).waiting ≠ none
  running : (execution cfg env σ k').halt = none
  awake : (execution cfg env σ k').waiting = none
  begins : (execution cfg env σ k').begins = (execution cfg env σ k).begins ++
    [((execution cfg env σ k).stepIdx, (execution cfg env σ k).outputs)]
  move : BodyMove f K (execution cfg env σ k).toControl (Slips cfg env σ l m k)
    (execution cfg env σ k').toControl

/-- A step of the body that pauses goes on to the next index, and past the end of the body with
the frame on the stack. -/
theorem bodyStep_of_pause (ho : LeftAlone cfg env σ l m n) (hk : n < k)
    (hin : Inside cfg env σ l m n k) (hw : (execution cfg env σ k).waiting = none)
    {f : LoopFrame} {K : List LoopFrame} (hs : (execution cfg env σ k).loopStack = f :: K)
    (hf : f.bodyEnd = l + m) (hh' : (execution cfg env σ (k + 1)).halt = none)
    (hw' : (execution cfg env σ (k + 1)).waiting ≠ none)
    (hi' : (execution cfg env σ (k + 1)).stepIdx = (execution cfg env σ k).stepIdx)
    (hs' : (execution cfg env σ (k + 1)).loopStack = (execution cfg env σ k).loopStack)
    (hb' : (execution cfg env σ (k + 1)).begins = (execution cfg env σ k).begins ++
      [((execution cfg env σ k).stepIdx, (execution cfg env σ k).outputs)]) :
    BodyStep cfg env σ l m f K k (k + 1 + 1) := by
  obtain ⟨hh, haw, hbegins, hidx, hstack⟩ := ho.resumed (by omega) (hin.succ hi' hk) hh' hw'
  rw [hi'] at hidx
  rw [hs', hs] at hstack
  have hm := (hin k hk le_rfl).2
  refine ⟨by omega, fun j hj hjk => ?_, hh, haw, hbegins.trans hb', ?_⟩
  · obtain rfl : j = k + 1 := by omega
    exact ⟨hi', hw'⟩
  · by_cases hlast : (execution cfg env σ k).stepIdx = l + m
    · exact .slip (by omega) hstack ⟨hw, hlast, Or.inr hw'⟩
    · exact .on (by omega) (by omega) hstack fun h => hlast h.2.1

/-- **A step of the body does one of the body moves.** -/
theorem exists_bodyStep (hb : SimpleBody cfg l m) (ho : LeftAlone cfg env σ l m n) (hk : n < k)
    (hin : Inside cfg env σ l m n k) (hh : (execution cfg env σ k).halt = none)
    (hw : (execution cfg env σ k).waiting = none) {f : LoopFrame} {K : List LoopFrame}
    (hs : (execution cfg env σ k).loopStack = f :: K) (hf : f.bodyEnd = l + m) :
    ∃ k', BodyStep cfg env σ l m f K k k' := by
  obtain ⟨hl, hm⟩ := hin k hk le_rfl
  obtain ⟨raw, hmem, hstep⟩ := hb.stepAt hl hm
  have hnoloop : (resolveStepRuntime raw (execution cfg env σ k).outputs).action ≠ .loop := by
    have hst := hb.start
    rw [resolveStepRuntime_action]
    exact hb.noLoop _ hmem (by omega) (by omega)
  generalize resolveStepRuntime raw _ = step at hstep hnoloop
  obtain ⟨hx, -, hgo⟩ := ho k hk hin
  have hhead := head_move cfg env (σ k (execution cfg env σ k)) (execution cfg env σ k)
  rw [← next_of_awake hh hw, ← execution_succ] at hhead
  have hbegins := hhead.begins_of_goes hstep hx
  have hmove := hhead.stepMove hstep hx hgo
  have hnow : ∀ j, k < j → j < k + 1 → (execution cfg env σ j).stepIdx =
      (execution cfg env σ k).stepIdx ∧ (execution cfg env σ j).waiting ≠ none := by
    intro j hj hjk
    omega
  have hpause := bodyStep_of_pause ho hk hin hw hs hf hgo
  generalize hc : (execution cfg env σ (k + 1)).toControl = c' at hmove
  cases hmove with
  | @advanced r ha hr =>
    have hawake : (execution cfg env σ (k + 1)).waiting = none := by
      rw [hc]
      exact (advance_waiting _ r _).trans ((counted_waiting r _).trans hw)
    have hcount := counted_stepIdx r ((execution cfg env σ k).ran step r)
    have hidx := hb.branchIdx hstep hr hl hm hcount
    rw [← hf] at hidx
    refine ⟨k + 1, by omega, hnow, hgo, hawake, hbegins, ?_⟩
    rw [hc]
    refine (advance_move hr _).bodyMove hnoloop ((counted_loopStack r _).trans hs) hidx ?_
    rintro ⟨-, -, ⟨step', hs', ha'⟩ | hw'⟩
    · obtain rfl := Option.some.inj (hstep.symm.trans hs')
      exact ha ha'
    · exact hw' hawake
  | paused ha hr hf' hp =>
    exact ⟨k + 1 + 1, hpause (by rw [hc]; exact Option.some_ne_none _) (by rw [hc]; rfl)
      (by rw [hc]; rfl) hbegins⟩
  | handoffWaits =>
    exact ⟨k + 1 + 1, hpause (by rw [hc]; exact Option.some_ne_none _) (by rw [hc]; rfl)
      (by rw [hc]; rfl) hbegins⟩
  | handoffPassed ha =>
    refine ⟨k + 1, by omega, hnow, hgo, by rw [hc]; exact hw, hbegins, ?_⟩
    rw [hc]
    by_cases hlast : (execution cfg env σ k).stepIdx = l + m
    · exact .slip (by rw [hf, ← hlast]; rfl) hs ⟨hw, hlast, Or.inl ⟨_, hstep, ha⟩⟩
    · refine .on ?_ ?_ hs fun h => hlast h.2.1
      · change _ < (execution cfg env σ k).stepIdx + 1
        omega
      · change (execution cfg env σ k).stepIdx + 1 ≤ _
        omega

/-! ## The rest of the loop -/

omit [PyText] in
/-- The outputs with which the step at `l + 1` begins. -/
def entered (l : ℤ) (B : List (ℤ × Outputs)) : List Outputs :=
  B.filterMap fun p => if p.1 = l + 1 then some p.2 else none

/-- **The further items of a frame**, each bound for one of the entries `E`. -/
structure Covers (f : LoopFrame) (E : List Outputs) : Prop where
  length : E.length + (f.currentIndex + 1) = f.items.length
  binds : ∀ t o, E[t]? = some o →
    ∃ o', o = bound { f with currentIndex := f.currentIndex + 1 + t } o'

/-- **The loop of frame `f` is left at `N`**, with the outputs `E` at its further entries: properly,
once for each item and with its frame popped, or by a slip, with its frame on the stack. -/
structure Rest (cfg : Config) (env : Env) (σ : ℕ → RunState → Input) (l m : ℤ) (f : LoopFrame)
    (K : List LoopFrame) (k N : ℕ) (E : List Outputs) : Prop where
  lt : k < N
  inside : ∀ j, k ≤ j → j < N →
    l < (execution cfg env σ j).stepIdx ∧ (execution cfg env σ j).stepIdx ≤ l + m
  running : (execution cfg env σ N).halt = none
  awake : (execution cfg env σ N).waiting = none
  idx : (execution cfg env σ N).stepIdx = l + m + 1
  begins : ∃ B, (execution cfg env σ N).begins = (execution cfg env σ k).begins ++
    ((execution cfg env σ k).stepIdx, (execution cfg env σ k).outputs) :: B ∧ entered l B = E
  ends : ((execution cfg env σ N).loopStack = K ∧ Covers f E ∧
      ∀ j, k ≤ j → j < N → ¬ Slips cfg env σ l m j) ∨
    (∃ g, (execution cfg env σ N).loopStack = g :: K) ∧
      ∃ j, k ≤ j ∧ j < N ∧ Slips cfg env σ l m j

omit [PyText] in
theorem entered_cons (l i : ℤ) (o : Outputs) (B : List (ℤ × Outputs)) :
    entered l ((i, o) :: B) = (if i = l + 1 then [o] else []) ++ entered l B := by
  unfold entered
  rw [List.filterMap_cons]
  split_ifs <;> rfl

omit [PyText] in
/-- The next item is bound for the first of the entries. -/
theorem Covers.item {f : LoopFrame} {E : List Outputs} {o : Outputs} (h : Covers f.next E)
    (ho : ∃ o', o = bound f.next o') : Covers f (o :: E) where
  length := by
    have hlen := h.length
    change E.length + (f.currentIndex + 1 + 1) = f.items.length at hlen
    change E.length + 1 + (f.currentIndex + 1) = f.items.length
    omega
  binds t o₁ ht := by
    cases t with
    | zero =>
      obtain rfl := Option.some.inj ht
      exact ho
    | succ t =>
      obtain ⟨o', ho'⟩ := h.binds t o₁ ht
      have hidx : f.next.currentIndex + 1 + t = f.currentIndex + 1 + (t + 1) := by
        change f.currentIndex + 1 + 1 + t = _
        omega
      rw [hidx] at ho'
      exact ⟨o', ho'⟩

section Step

variable {f : LoopFrame} {K : List LoopFrame} {k' : ℕ} (h : BodyStep cfg env σ l m f K k k')
include h

theorem BodyStep.inside
    (hbody : l < (execution cfg env σ k).stepIdx ∧ (execution cfg env σ k).stepIdx ≤ l + m) (j : ℕ)
    (hkj : k ≤ j) (hjk : j < k') :
    l < (execution cfg env σ j).stepIdx ∧ (execution cfg env σ j).stepIdx ≤ l + m := by
  rcases Nat.eq_or_lt_of_le hkj with rfl | hlt
  · exact hbody
  · rw [(h.between j hlt hjk).1]
    exact hbody

theorem BodyStep.not_slips (hn : ¬ Slips cfg env σ l m k) (j : ℕ) (hkj : k ≤ j) (hjk : j < k') :
    ¬ Slips cfg env σ l m j := by
  rcases Nat.eq_or_lt_of_le hkj with rfl | hlt
  · exact hn
  · exact fun hj => (h.between j hlt hjk).2 hj.1

theorem BodyStep.extend (hk : n < k) (hin : Inside cfg env σ l m n k)
    (hk' : l < (execution cfg env σ k').stepIdx ∧ (execution cfg env σ k').stepIdx ≤ l + m) :
    Inside cfg env σ l m n k' := by
  intro j hj hjk
  rcases Nat.lt_or_ge j k with hlt | hge
  · exact hin j hj hlt.le
  · rcases Nat.eq_or_lt_of_le hjk with rfl | hjk
    · exact hk'
    · exact h.inside (hin k hk le_rfl) j hge hjk

/-- A step of the body that does not slip, before the rest of the loop. -/
theorem Rest.cons {g : LoopFrame} {N : ℕ} {E E' : List Outputs}
    (hbody : l < (execution cfg env σ k).stepIdx ∧ (execution cfg env σ k).stepIdx ≤ l + m)
    (hn : ¬ Slips cfg env σ l m k) (hr : Rest cfg env σ l m g K k' N E)
    (hE : (if (execution cfg env σ k').stepIdx = l + 1 then
      [(execution cfg env σ k').outputs] else []) ++ E = E')
    (hcov : Covers g E → Covers f E') : Rest cfg env σ l m f K k N E' := by
  have hkk := h.lt
  have hkN := hr.lt
  obtain ⟨B, hB, hBE⟩ := hr.begins
  refine ⟨by omega, fun j hkj hjN => ?_, hr.running, hr.awake, hr.idx,
    ⟨((execution cfg env σ k').stepIdx, (execution cfg env σ k').outputs) :: B, ?_, ?_⟩, ?_⟩
  · rcases Nat.lt_or_ge j k' with hlt | hge
    · exact h.inside hbody j hkj hlt
    · exact hr.inside j hge hjN
  · rw [hB, h.begins, List.append_assoc, List.singleton_append]
  · rw [entered_cons, hBE, hE]
  · rcases hr.ends with ⟨hs, hE, hno⟩ | ⟨hs, j, hkj, hjN, hj⟩
    · refine Or.inl ⟨hs, hcov hE, fun j hkj hjN => ?_⟩
      rcases Nat.lt_or_ge j k' with hlt | hge
      · exact h.not_slips hn j hkj hlt
      · exact hno j hge hjN
    · exact Or.inr ⟨hs, j, by omega, hjN, hj⟩

end Step

/-- **The rest of a loop**, by recursion on the items left and on the steps of the body left. -/
theorem body_run {k : ℕ} (hb : SimpleBody cfg l m) (ho : LeftAlone cfg env σ l m n) (hk : n < k)
    (hin : Inside cfg env σ l m n k) (hh : (execution cfg env σ k).halt = none)
    (hw : (execution cfg env σ k).waiting = none) {f : LoopFrame} {K : List LoopFrame}
    (hs : (execution cfg env σ k).loopStack = f :: K) (hstart : f.bodyStart = l + 1)
    (hend : f.bodyEnd = l + m) (hcur : f.currentIndex < f.items.length) :
    ∃ N E, Rest cfg env σ l m f K k N E := by
  obtain ⟨k', h⟩ := exists_bodyStep hb ho hk hin hh hw hs hend
  have hbody := hin k hk le_rfl
  have hm := hb.length
  have hkk := h.lt
  have hlast : (execution cfg env σ k').stepIdx = f.bodyEnd + 1 →
      (execution cfg env σ k').stepIdx = l + m + 1 := fun hi => hi.trans (by rw [hend])
  cases h.move with
  | on hlt hle hs' hn =>
    have hin' := h.extend hk hin (by omega)
    obtain ⟨N, E, hr⟩ := body_run hb ho (by omega) hin' h.running h.awake hs' hstart hend hcur
    refine ⟨N, E, hr.cons h hbody hn ?_ id⟩
    rw [if_neg (by omega)]
    rfl
  | item hlt hi hs' hout hn =>
    have hin' := h.extend hk hin (by omega)
    obtain ⟨N, E, hr⟩ := body_run hb ho (by omega) hin' h.running h.awake hs' hstart hend hlt
    refine ⟨N, (execution cfg env σ k').outputs :: E, hr.cons h hbody hn ?_ fun hE => hE.item hout⟩
    rw [if_pos (hi.trans hstart)]
    rfl
  | leave hge hi hs' hn =>
    have hcov : Covers f [] := ⟨by rw [List.length_nil]; omega, nofun⟩
    exact ⟨k', [], hkk, h.inside hbody, h.running, h.awake, hlast hi, ⟨[], h.begins, rfl⟩,
      Or.inl ⟨hs', hcov, h.not_slips hn⟩⟩
  | slip hi hs' hslip =>
    exact ⟨k', [], hkk, h.inside hbody, h.running, h.awake, hlast hi, ⟨[], h.begins, rfl⟩,
      Or.inr ⟨⟨f, hs'⟩, k, le_rfl, hkk, hslip⟩⟩
termination_by (f.items.length - f.currentIndex, (l + m - (execution cfg env σ k).stepIdx).toNat)
decreasing_by
  · refine Prod.Lex.right _ ?_
    omega
  · refine Prod.Lex.left _ _ ?_
    change f.items.length - (f.currentIndex + 1) < f.items.length - f.currentIndex
    omega

/-! ## The whole loop -/

/-- **A loop step passes** in move `n` of a run, and the run goes on. -/
structure LoopStarts (cfg : Config) (env : Env) (σ : ℕ → RunState → Input) (n : ℕ)
    (step : WorkflowStep) : Prop where
  running : (execution cfg env σ n).halt = none
  awake : (execution cfg env σ n).waiting = none
  found : cfg.stepAt (execution cfg env σ n).toControl = some step
  loop : step.action = .loop
  passes : ∃ r ∈ (execution cfg env σ (n + 1)).results.drop (execution cfg env σ n).results.length,
    r.status = .passed
  goesOn : (execution cfg env σ (n + 1)).halt = none

/-- The outputs at the entries into the body of the loop begun at move `n`, up to move `N`. -/
def loopEntries (cfg : Config) (env : Env) (σ : ℕ → RunState → Input) (n N : ℕ) : List Outputs :=
  entered (execution cfg env σ n).stepIdx
    ((execution cfg env σ N).begins.drop (execution cfg env σ (n + 1)).begins.length)

/-- **The loop begun at move `n` runs over its items until `N`**: its body is entered once for each
item and left only then, to the step behind it and with the loop stack as it was. -/
structure LoopRuns (cfg : Config) (env : Env) (σ : ℕ → RunState → Input) (step : WorkflowStep)
    (n N : ℕ) : Prop where
  lt : n < N
  inside : ∀ k, n < k → k < N →
    (execution cfg env σ n).stepIdx < (execution cfg env σ k).stepIdx ∧
      (execution cfg env σ k).stepIdx ≤ (execution cfg env σ n).stepIdx + step.bodyLength
  entries : (loopEntries cfg env σ n N).length = (loopItems step).length
  leaves : (execution cfg env σ N).stepIdx =
    (execution cfg env σ n).stepIdx + step.bodyLength + 1
  stack : (execution cfg env σ N).loopStack = (execution cfg env σ n).loopStack

/-- What the loop step does. -/
theorem LoopStarts.move {step : WorkflowStep} (h : LoopStarts cfg env σ n step) :
    (execution cfg env σ (n + 1)).waiting = none ∧
      ((loopItems step = [] ∧ (execution cfg env σ (n + 1)).stepIdx =
          (execution cfg env σ n).stepIdx + step.bodyLength + 1 ∧
        (execution cfg env σ (n + 1)).loopStack = (execution cfg env σ n).loopStack) ∨
      (loopItems step ≠ [] ∧
        (execution cfg env σ (n + 1)).stepIdx = (execution cfg env σ n).stepIdx + 1 ∧
        (execution cfg env σ (n + 1)).loopStack =
          step.frame (execution cfg env σ n).stepIdx :: (execution cfg env σ n).loopStack ∧
        ∃ o, (execution cfg env σ (n + 1)).outputs =
          bound (step.frame (execution cfg env σ n).stepIdx) o)) := by
  have hhandoff : step.action ≠ .handoff := by
    rw [h.loop]
    exact Action.noConfusion
  obtain ⟨r, hr, hp⟩ := h.passes
  have hmove := head_move cfg env (σ n (execution cfg env σ n)) (execution cfg env σ n)
  rw [← next_of_awake h.running h.awake, ← execution_succ] at hmove
  obtain ⟨hof, heq⟩ := hmove.ran_of_result h.found hhandoff hr fun e he =>
    absurd (h.goesOn.symm.trans he) (Option.some_ne_none _).symm
  rw [account_passed hp] at heq
  have hadv := advance_move hof ((execution cfg env σ n).ran step r).countPass
  rw [heq]
  refine ⟨(advance_waiting step r _).trans h.awake, ?_⟩
  generalize advance step r ((execution cfg env σ n).ran step r).countPass = c' at hadv ⊢
  cases hadv with
  | skipBody _ _ hx => exact Or.inl ⟨hx, rfl, rfl⟩
  | enterBody _ _ hx => exact Or.inr ⟨hx, rfl, rfl, _, rfl⟩
  | pastLoop _ hf => exact absurd (hp.symm.trans hf) StepStatus.noConfusion
  | forward ha | wrap ha | leave ha => exact absurd h.loop ha

/-- **How a loop is left**: as it should, or by a slip and with its frame on the stack. -/
theorem LoopStarts.run {step : WorkflowStep} (h : LoopStarts cfg env σ n step)
    (hb : SimpleBody cfg (execution cfg env σ n).stepIdx step.bodyLength)
    (ho : LeftAlone cfg env σ (execution cfg env σ n).stepIdx step.bodyLength n) :
    ∃ N, n < N ∧
      (∀ k, n < k → k < N → (execution cfg env σ n).stepIdx < (execution cfg env σ k).stepIdx ∧
        (execution cfg env σ k).stepIdx ≤ (execution cfg env σ n).stepIdx + step.bodyLength) ∧
      (execution cfg env σ N).stepIdx = (execution cfg env σ n).stepIdx + step.bodyLength + 1 ∧
      ((LoopRuns cfg env σ step n N ∧
          (∀ k, n < k → k < N →
            ¬ Slips cfg env σ (execution cfg env σ n).stepIdx step.bodyLength k) ∧
          ∀ (j : ℕ) (o : Outputs), (loopEntries cfg env σ n N)[j]? = some o → ∃ o',
            o = bound { step.frame (execution cfg env σ n).stepIdx with currentIndex := j } o') ∨
        (execution cfg env σ N).loopStack ≠ (execution cfg env σ n).loopStack ∧
          ∃ k, n < k ∧ k < N ∧
            Slips cfg env σ (execution cfg env σ n).stepIdx step.bodyLength k) := by
  have hlen := hb.length
  obtain ⟨haw, ⟨hx, hi, hs⟩ | ⟨hx, hi, hs, hout⟩⟩ := h.move
  · have hent : loopEntries cfg env σ n (n + 1) = [] := by
      rw [loopEntries, List.drop_length]
      rfl
    have hnone : ∀ k, n < k → ¬ k < n + 1 := fun k hk => by omega
    refine ⟨n + 1, by omega, fun k hk hkn => absurd hkn (hnone k hk), hi, Or.inl ⟨?_,
      fun k hk hkn => absurd hkn (hnone k hk), fun j o hj => ?_⟩⟩
    · refine ⟨by omega, fun k hk hkn => absurd hkn (hnone k hk), ?_, hi, hs⟩
      rw [hent, hx]
      rfl
    · rw [hent] at hj
      cases hj
  · have hin : Inside cfg env σ (execution cfg env σ n).stepIdx step.bodyLength n (n + 1) := by
      intro j hj hjn
      obtain rfl : j = n + 1 := by omega
      rw [hi]
      omega
    have hpos : 0 < (loopItems step).length := List.length_pos_iff.mpr hx
    obtain ⟨N, E, hr⟩ := body_run hb ho (by omega) hin h.goesOn haw hs rfl rfl hpos
    have hlt := hr.lt
    obtain ⟨B, hB, hBE⟩ := hr.begins
    have hent : loopEntries cfg env σ n N = (execution cfg env σ (n + 1)).outputs :: E := by
      rw [loopEntries, hB, List.drop_left, entered_cons, hi, if_pos rfl, hBE]
      rfl
    refine ⟨N, by omega, fun k hk hkN => hr.inside k hk hkN, hr.idx, ?_⟩
    rcases hr.ends with ⟨hK, hcov, hno⟩ | ⟨⟨g, hg⟩, k, hk, hkN, hslip⟩
    · refine Or.inl ⟨⟨by omega, fun k hk hkN => hr.inside k hk hkN, ?_, hr.idx, hK⟩, hno, ?_⟩
      · rw [hent]
        exact hcov.length
      · rw [hent]
        intro j o hj
        cases j with
        | zero =>
          obtain rfl := Option.some.inj hj
          exact hout
        | succ j =>
          obtain ⟨o', ho'⟩ := hcov.binds j o hj
          have hidx : (step.frame (execution cfg env σ n).stepIdx).currentIndex + 1 + j = j + 1 := by
            change 0 + 1 + j = j + 1
            omega
          rw [hidx] at ho'
          exact ⟨o', ho'⟩
    · refine Or.inr ⟨fun hst => ?_, k, hk, hkN, hslip⟩
      have hl := congrArg List.length (hg.symm.trans hst)
      rw [List.length_cons] at hl
      omega

/-- **Main result.** In a run that leaves the loop to itself, the loop runs over its items iff no
execution of the last step of its body slips past the iteration check. -/
theorem loop_runs_iff {step : WorkflowStep} (h : LoopStarts cfg env σ n step)
    (hb : SimpleBody cfg (execution cfg env σ n).stepIdx step.bodyLength)
    (ho : LeftAlone cfg env σ (execution cfg env σ n).stepIdx step.bodyLength n) :
    (∃ N, LoopRuns cfg env σ step n N) ↔
      ∀ k, n < k → Inside cfg env σ (execution cfg env σ n).stepIdx step.bodyLength n k →
        ¬ Slips cfg env σ (execution cfg env σ n).stepIdx step.bodyLength k := by
  obtain ⟨N, hlt, hin, hidx, hend⟩ := h.run hb ho
  constructor
  · rintro ⟨N', hN'⟩
    have hidx' := hN'.leaves
    have heq : N' = N := by
      rcases Nat.lt_trichotomy N' N with h | h | h
      · have := (hin N' hN'.lt h).2
        omega
      · exact h
      · have := (hN'.inside N hlt h).2
        omega
    subst heq
    rcases hend with ⟨-, hno, -⟩ | ⟨hs, -⟩
    · exact fun k hk hkin => hno k hk (hkin.lt hlt (by omega))
    · exact absurd hN'.stack hs
  · intro hno
    rcases hend with ⟨hr, -⟩ | ⟨-, k, hk, hkN, hslip⟩
    · exact ⟨N, hr⟩
    · exact absurd hslip (hno k hk fun j hj hjk => hin j hj (Nat.lt_of_le_of_lt hjk hkN))

/-! ## A loop without pauses -/

/-- **Nothing comes between**: in the body the run is not cancelled, not paused, and no exception
leaves the step loop. -/
def Calm (cfg : Config) (env : Env) (σ : ℕ → RunState → Input) (l m : ℤ) (n : ℕ) : Prop :=
  ∀ k, n < k → Inside cfg env σ l m n k → (σ k (execution cfg env σ k)).Goes cfg ∧
    (execution cfg env σ (k + 1)).waiting = none ∧
    ∀ e, (execution cfg env σ (k + 1)).halt ≠ some (.raised e)

/-- A calm run whose steps are all passed over when they fail goes on. -/
theorem Calm.next_running (hc : Calm cfg env σ l m n) (hb : SimpleBody cfg l m)
    (hcont : ∀ p ∈ cfg.steps.zipIdx, l < p.2 → p.2 ≤ l + m → cfg.policy p.1 ≠ .stop) (hk : n < k)
    (hin : Inside cfg env σ l m n k) (hh : (execution cfg env σ k).halt = none)
    (hw : (execution cfg env σ k).waiting = none) : (execution cfg env σ (k + 1)).halt = none := by
  obtain ⟨hx, -, hraised⟩ := hc k hk hin
  obtain ⟨hl, hm⟩ := hin k hk le_rfl
  have hst := hb.start
  obtain ⟨raw, hmem, hstep⟩ := hb.stepAt hl hm
  have hhead := head_move cfg env (σ k (execution cfg env σ k)) (execution cfg env σ k)
  rw [← next_of_awake hh hw, ← execution_succ] at hhead
  refine hhead.running hstep hx hh hraised ?_
  rw [resolveStepRuntime_policy]
  exact hcont _ hmem (by omega) (by omega)

/-- A calm run is running and awake all through the body. -/
theorem Calm.running (hc : Calm cfg env σ l m n) (hb : SimpleBody cfg l m)
    (hcont : ∀ p ∈ cfg.steps.zipIdx, l < p.2 → p.2 ≤ l + m → cfg.policy p.1 ≠ .stop)
    (hh : (execution cfg env σ (n + 1)).halt = none)
    (hw : (execution cfg env σ (n + 1)).waiting = none) (hk : n < k)
    (hin : Inside cfg env σ l m n k) :
    (execution cfg env σ k).halt = none ∧ (execution cfg env σ k).waiting = none := by
  induction k, hk using Nat.le_induction with
  | base => exact ⟨hh, hw⟩
  | succ k hk ih =>
    have hin' : Inside cfg env σ l m n k := fun j hj hjk => hin j hj (Nat.le_succ_of_le hjk)
    obtain ⟨hh', hw'⟩ := ih hin'
    exact ⟨hc.next_running hb hcont hk hin' hh' hw', (hc k hk hin').2.1⟩

omit [PyText] in
/-- The loop variable holds the item, unless it is the index variable too. -/
theorem get_loopVar {f : LoopFrame}
    (hvw : f.loopIndexVar.getD "" = "" ∨ f.loopIndexVar ≠ f.loopVar) {x : PyVal}
    (hx : f.items[f.currentIndex]? = some x) (o : Outputs) :
    Dict.get f.loopVar (bound f o) = some x := by
  unfold bound
  simp only [hx]
  split_ifs with h
  · rw [Dict.get_set_self]
  · rw [Dict.get_set_ne (hvw.resolve_left h), Dict.get_set_self]

omit [PyText] in
/-- The index variable holds the index. -/
theorem get_loopIndexVar {f : LoopFrame} {w : String} (hw : f.loopIndexVar = some w) (hne : w ≠ "")
    (o : Outputs) : Dict.get (some w) (bound f o) = some (.int f.currentIndex) := by
  unfold bound
  simp only [hw, Option.getD_some, if_neg hne]
  rw [Dict.get_set_self]

/-- A loop whose body is left alone runs over its items, and binds each of them. -/
theorem Calm.loopRuns {step : WorkflowStep} (h : LoopStarts cfg env σ n step)
    (hb : SimpleBody cfg (execution cfg env σ n).stepIdx step.bodyLength)
    (hbody : ∀ p ∈ cfg.steps.zipIdx, (execution cfg env σ n).stepIdx < p.2 →
      p.2 ≤ (execution cfg env σ n).stepIdx + step.bodyLength →
      p.1.action ≠ .handoff ∧ cfg.policy p.1 = .continue)
    (hc : Calm cfg env σ (execution cfg env σ n).stepIdx step.bodyLength n) :
    ∃ N, LoopRuns cfg env σ step n N ∧
      ∀ (j : ℕ) (o : Outputs), (loopEntries cfg env σ n N)[j]? = some o → ∃ o',
        o = bound { step.frame (execution cfg env σ n).stepIdx with currentIndex := j } o' := by
  have hcont : ∀ p ∈ cfg.steps.zipIdx, (execution cfg env σ n).stepIdx < p.2 →
      p.2 ≤ (execution cfg env σ n).stepIdx + step.bodyLength → cfg.policy p.1 ≠ .stop := by
    intro p hp hl hm
    rw [(hbody p hp hl hm).2]
    exact OnError.noConfusion
  have hrun := fun k => hc.running (k := k) hb hcont h.goesOn h.move.1
  have ho : LeftAlone cfg env σ (execution cfg env σ n).stepIdx step.bodyLength n := by
    intro k hk hin
    obtain ⟨hh, hawake⟩ := hrun k hk hin
    exact ⟨(hc k hk hin).1, fun hne => absurd hawake hne, hc.next_running hb hcont hk hin hh hawake⟩
  obtain ⟨N, hlt, hin, -, ⟨hr, -, hbinds⟩ | ⟨-, k, hk, hkN, -, hidx, hslip⟩⟩ := h.run hb ho
  · exact ⟨N, hr, hbinds⟩
  · have hins : Inside cfg env σ (execution cfg env σ n).stepIdx step.bodyLength n k :=
      fun j hj hjk => hin j hj (Nat.lt_of_le_of_lt hjk hkN)
    rcases hslip with ⟨step', hs', ha'⟩ | hwait
    · obtain ⟨hl, hm⟩ := hins k hk le_rfl
      have hst := hb.start
      obtain ⟨raw, hmem, hstep⟩ := hb.stepAt hl hm
      obtain rfl := Option.some.inj (hstep.symm.trans hs')
      rw [resolveStepRuntime_action] at ha'
      exact absurd ha' (hbody _ hmem (by omega) (by omega)).1
    · exact absurd (hc k hk hins).2.1 hwait

/-- The item that an entry into the body binds. -/
theorem LoopRuns.item {step : WorkflowStep} {N j : ℕ} (h : LoopRuns cfg env σ step n N)
    {o : Outputs} (hj : (loopEntries cfg env σ n N)[j]? = some o) :
    ∃ x, (loopItems step)[j]? = some x := by
  have hjx : j < (loopItems step).length := by
    rw [← h.entries]
    exact (List.getElem?_eq_some_iff.mp hj).1
  exact ⟨_, List.getElem?_eq_getElem hjx⟩

/-- **Main result.** The body of a loop is entered once for each item, with the item and its
index in the loop variables; then the run goes on behind the body, with the loop stack as it was
before the loop. -/
theorem loop_law {step : WorkflowStep} (h : LoopStarts cfg env σ n step)
    (hb : SimpleBody cfg (execution cfg env σ n).stepIdx step.bodyLength)
    (hbody : ∀ p ∈ cfg.steps.zipIdx, (execution cfg env σ n).stepIdx < p.2 →
      p.2 ≤ (execution cfg env σ n).stepIdx + step.bodyLength →
      p.1.action ≠ .handoff ∧ cfg.policy p.1 = .continue)
    {v w : String} (hv : step.loopVar = some v) (hw : step.loopIndexVar = some w) (hne : w ≠ "")
    (hvw : v ≠ w) (hc : Calm cfg env σ (execution cfg env σ n).stepIdx step.bodyLength n) :
    ∃ N, LoopRuns cfg env σ step n N ∧
      ∀ (j : ℕ) (o : Outputs), (loopEntries cfg env σ n N)[j]? = some o →
        Dict.get (some v) o = (loopItems step)[j]? ∧ Dict.get (some w) o = some (.int j) := by
  obtain ⟨N, hr, hbinds⟩ := hc.loopRuns h hb hbody
  refine ⟨N, hr, fun j o hj => ?_⟩
  obtain ⟨o', rfl⟩ := hbinds j o hj
  obtain ⟨x, hx⟩ := hr.item hj
  have hne' : step.loopIndexVar ≠ step.loopVar := by
    rw [hw, hv, ne_eq, Option.some.injEq]
    exact hvw.symm
  have hvar := get_loopVar (f := { step.frame (execution cfg env σ n).stepIdx with
    currentIndex := j }) (Or.inr hne') hx o'
  rw [hx, ← hv]
  exact ⟨hvar, get_loopIndexVar hw hne o'⟩

end Runs

/-! ## Loops with a handoff -/

section Example

attribute [local instance] asciiText

/-- A loop over two items whose failing steps are passed over. -/
def clearBoth : Config where
  workflow :=
    { settings := { humanMode := false, onError := .continue }
      steps := [
        { order := 1, order_pos := WorkflowStep.order_one, name := "Each", action := .loop
          value := some "[7, 8]", loopVar := some "x", loopIndexVar := some "i"
          loopSteps := some 1 },
        { order := 2, order_pos := WorkflowStep.order_two, name := "Clear", action := .clear }] }

/-- A loop over two items whose body ends in a handoff. -/
def handoffLast : Config where
  workflow :=
    { settings := { humanMode := false }
      steps := [
        { order := 1, order_pos := WorkflowStep.order_one, name := "Each", action := .loop
          value := some "[7, 8]", loopVar := some "x", loopSteps := some 1 },
        { order := 2, order_pos := WorkflowStep.order_two, name := "Check", action := .handoff }] }

/-- A loop over two items whose body begins with a handoff. -/
def handoffFirst : Config where
  workflow :=
    { settings := { humanMode := false, onError := .continue }
      steps := [
        { order := 1, order_pos := WorkflowStep.order_one, name := "Each", action := .loop
          value := some "[7, 8]", loopVar := some "x", loopSteps := some 2 },
        { order := 2, order_pos := WorkflowStep.order_two, name := "Check", action := .handoff },
        { order := 3, order_pos := WorkflowStep.order_three, name := "Clear", action := .clear }] }

/-- A browser in which no field can be cleared. -/
def readOnly : Env where
  answer _ c :=
    match c with
    | .clear _ _ => { result := .error ⟨.other, "read-only"⟩ }
    | _ => { result := .ok .none }
  clock _ := 0

/-- Without other threads and pauses a run leaves its loops to themselves. -/
theorem leftAlone_of_undisturbed {cfg : Config} {env : Env} {l m : ℤ} {N : ℕ} (hN : 0 < N)
    (hout : l + m < (execution cfg env (fun _ _ => {}) N).stepIdx)
    (hgo : ∀ k < N, (execution cfg env (fun _ _ => {}) k).waiting.isNone = true ∧
      (execution cfg env (fun _ _ => {}) (k + 1)).halt = none) :
    LeftAlone cfg env (fun _ _ => {}) l m 0 := by
  intro k _ hin
  obtain ⟨hw, hh⟩ := hgo k (hin.lt hN hout)
  exact ⟨⟨rfl, rfl⟩, fun hne => absurd (Option.isNone_iff_eq_none.mp hw) hne, hh⟩

/-- The body of two items is entered twice, although its only step fails. -/
theorem loop_law_clearBoth : ∃ step, step.loopVar = some "x" ∧ step.loopIndexVar = some "i" ∧
    loopItems step = [.int 7, .int 8] ∧
    ∃ N, LoopRuns clearBoth readOnly (fun _ _ => {}) step 0 N ∧
      ∀ (j : ℕ) (o : Outputs), (loopEntries clearBoth readOnly (fun _ _ => {}) 0 N)[j]? = some o →
        Dict.get (some "x") o = (loopItems step)[j]? ∧ Dict.get (some "i") o = some (.int j) := by
  refine ⟨clearBoth.steps.head (by decide), by decide, by decide, rfl, ?_⟩
  refine loop_law ⟨by decide +kernel, Option.isNone_iff_eq_none.mp (by decide +kernel),
    by decide +kernel, by decide, by decide +kernel, by decide +kernel⟩
    ⟨by decide, by decide, by decide, by decide, by decide, by decide⟩ (by decide +kernel) rfl rfl
    (by decide) (by decide) fun k hk hin => ?_
  have hlt : k < 3 := hin.lt (by decide) (by decide +kernel)
  have hgo : ∀ k < 3, (execution clearBoth readOnly (fun _ _ => {}) (k + 1)).waiting.isNone = true ∧
      (execution clearBoth readOnly (fun _ _ => {}) (k + 1)).halt = none := by
    decide +kernel
  obtain ⟨hw, hh⟩ := hgo k hlt
  refine ⟨⟨rfl, rfl⟩, Option.isNone_iff_eq_none.mp hw, fun e he => ?_⟩
  exact absurd (hh.symm.trans he) (Option.some_ne_none _).symm

/-- A handoff that is not the last step of the body does no harm. -/
theorem loop_runs_iff_handoffFirst : ∃ step, step.loopSteps = some 2 ∧
    ((∃ N, LoopRuns handoffFirst readOnly (fun _ _ => {}) step 0 N) ↔
      ∀ k, 0 < k → Inside handoffFirst readOnly (fun _ _ => {}) 0 2 0 k →
        ¬ Slips handoffFirst readOnly (fun _ _ => {}) 0 2 k) := by
  refine ⟨handoffFirst.steps.head (by decide), by decide, ?_⟩
  refine loop_runs_iff ⟨by decide +kernel, Option.isNone_iff_eq_none.mp (by decide +kernel),
    by decide +kernel, by decide, by decide +kernel, by decide +kernel⟩
    ⟨by decide, by decide, by decide, by decide, by decide, by decide⟩ ?_
  exact leftAlone_of_undisturbed (N := 5) (by decide) (by decide +kernel) (by decide +kernel)

/-- **A loop whose body ends in a handoff runs it for its first item only**, and its frame stays on
the stack. -/
theorem loop_with_handoff_last : ∃ step, step.loopSteps = some 1 ∧
    loopItems step = [.int 7, .int 8] ∧
    LoopStarts handoffLast readOnly (fun _ _ => {}) 0 step ∧ SimpleBody handoffLast 0 1 ∧
    LeftAlone handoffLast readOnly (fun _ _ => {}) 0 1 0 ∧
    ¬ ∃ N, LoopRuns handoffLast readOnly (fun _ _ => {}) step 0 N := by
  refine ⟨handoffLast.steps.head (by decide), by decide, rfl,
    ⟨by decide +kernel, Option.isNone_iff_eq_none.mp (by decide +kernel),
      by decide +kernel, by decide, by decide +kernel, by decide +kernel⟩,
    ⟨by decide, by decide, by decide, by decide, by decide, by decide⟩, ?_, ?_⟩
  · exact leftAlone_of_undisturbed (N := 2) (by decide) (by decide +kernel) (by decide +kernel)
  · rintro ⟨N, hN⟩
    have hhalt : (execution handoffLast readOnly (fun _ _ => {}) 3).halt ≠ none := by decide +kernel
    have hstack : ∀ k < 4, 0 < k →
        (execution handoffLast readOnly (fun _ _ => {}) k).loopStack.length = 1 := by
      decide +kernel
    have hlen : (execution handoffLast readOnly (fun _ _ => {}) N).loopStack.length = 0 :=
      congrArg List.length hN.stack
    rcases Nat.lt_or_ge N 4 with hlt | hge
    · exact absurd ((hstack N hlt hN.lt).symm.trans hlen) (by decide)
    · rw [execution_of_halt _ _ _ hhalt (by omega : 3 ≤ N), hstack 3 (by decide) (by decide)] at hlen
      exact absurd hlen (by decide)

end Example

end ScoutEngine
