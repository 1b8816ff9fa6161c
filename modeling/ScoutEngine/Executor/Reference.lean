import ScoutEngine.Executor.Containment

/-!
# Runs without loops

A workflow without loop and handoff steps whose met conditionals move forward is executed from
front to back: each step after the one before, but for those that a conditional skips, until a
failure stops the run.

* `WorkflowStep.after`, `Config.StopsAfter`, `reference`: the recursive semantics over the list of
  steps, given the outcome of each step; `mem_reference_iff`: which steps it executes.
* `ForwardMove`, `HeadMove.forward`: the three moves of such a run.
* `ForwardInv`, `ForwardInv.step`: what holds at every loop head, and when the loop is left.
* **`forward_reference`**: such a run ends, and follows the reference semantics.
-/

set_option autoImplicit false

namespace ScoutEngine

open Control

/-! ## The reference semantics -/

/-- The index after a step that goes on. -/
def WorkflowStep.after (step : WorkflowStep) (i : ℤ) (r : StepResult) : ℤ :=
  if r.Met then step.target i else i + 1

/-- The step stops the run: it fails under the policy `stop`, or `retry`, which is the same. -/
def Config.StopsAfter (cfg : Config) (step : WorkflowStep) (r : StepResult) : Prop :=
  r.status = .failed ∧ cfg.policy step = .stop

instance (cfg : Config) (step : WorkflowStep) (r : StepResult) : Decidable (cfg.StopsAfter step r) :=
  inferInstanceAs (Decidable (_ ∧ _))

/-- **The reference semantics**: the results of the steps from index `i` on that are not before
`t`, when the step at each index has the outcome `out`. -/
def reference (cfg : Config) (out : ℤ → StepResult) :
    List WorkflowStep → ℤ → ℤ → List (ℤ × StepResult)
  | [], _, _ => []
  | step :: rest, i, t =>
    if i < t then reference cfg out rest (i + 1) t
    else if cfg.StopsAfter step (out i) then [(i, out i)]
    else (i, out i) :: reference cfg out rest (i + 1) (step.after i (out i))

section Semantics

variable (cfg : Config) (out : ℤ → StepResult)

/-- The steps before `t` are not executed. -/
theorem reference_drop (steps : List WorkflowStep) {i t : ℤ} (h : i ≤ t) :
    reference cfg out steps i t = reference cfg out (steps.drop (t - i).toNat) t t := by
  induction steps generalizing i with
  | nil => rw [List.drop_nil, reference, reference]
  | cons step rest ih =>
    by_cases hlt : i < t
    · have hn : (t - i).toNat = (t - (i + 1)).toNat + 1 := by omega
      rw [hn, List.drop_succ_cons, reference, if_pos hlt]
      exact ih (by omega)
    · have hit : i = t := by omega
      rw [hit, Int.sub_self]
      rfl

theorem mem_reference {steps : List WorkflowStep} {i t : ℤ} {p : ℤ × StepResult}
    (h : p ∈ reference cfg out steps i t) : i ≤ p.1 ∧ p.1 < i + steps.length ∧ t ≤ p.1 := by
  induction steps generalizing i t with
  | nil => exact absurd h List.not_mem_nil
  | cons step rest ih =>
    rw [List.length_cons]
    rw [reference] at h
    split_ifs at h with hlt hstop
    · have := ih h
      omega
    · obtain rfl := List.mem_singleton.mp h
      dsimp only
      omega
    · rcases List.mem_cons.mp h with rfl | h
      · dsimp only
        omega
      · have := ih h
        omega

/-- A step does not keep the one at `j` from being executed: it does not stop the run, and leads to
no later index. -/
def Config.LetsPass (cfg : Config) (step : WorkflowStep) (i : ℤ) (r : StepResult) (j : ℤ) : Prop :=
  ¬ (r.Met ∧ j < step.target i) ∧ ¬ cfg.StopsAfter step r

theorem letsPass_iff (step : WorkflowStep) {i j : ℤ} (r : StepResult) (h : i < j) :
    cfg.LetsPass step i r j ↔ step.after i r ≤ j ∧ ¬ cfg.StopsAfter step r := by
  unfold Config.LetsPass WorkflowStep.after
  by_cases hm : r.Met
  · simp only [hm, true_and, if_true, Int.not_lt]
  · simp only [hm, false_and, not_false_eq_true, if_false, true_and]
    constructor
    · exact fun hs => ⟨by omega, hs⟩
    · exact And.right

/-- The step of a result that the rest of a list has. -/
theorem getElem?_of_mem_rest {step : WorkflowStep} {rest : List WorkflowStep} {i t : ℤ}
    {p : ℤ × StepResult} (hp : p ∈ reference cfg out rest (i + 1) t) :
    (step :: rest)[(p.1 - i).toNat]? = rest[(p.1 - (i + 1)).toNat]? := by
  obtain ⟨hle, -⟩ := mem_reference cfg out hp
  have hn : (p.1 - i).toNat = (p.1 - (i + 1)).toNat + 1 := by omega
  rw [hn, List.getElem?_cons_succ]

/-- **Which steps are executed**: those that are let pass by every step executed before. -/
theorem mem_reference_iff (steps : List WorkflowStep) (i t : ℤ) {j : ℤ} (hj : i ≤ j)
    (hlen : j < i + steps.length) :
    j ∈ (reference cfg out steps i t).map Prod.fst ↔
      t ≤ j ∧ ∀ p ∈ reference cfg out steps i t, p.1 < j →
        ∀ step, steps[(p.1 - i).toNat]? = some step → cfg.LetsPass step p.1 p.2 j := by
  induction steps generalizing i t with
  | nil =>
    rw [List.length_nil] at hlen
    omega
  | cons step rest ih =>
    rw [List.length_cons] at hlen
    -- what follows the first step, in terms of the whole list
    have hrest : ∀ t', i < j → (j ∈ (reference cfg out rest (i + 1) t').map Prod.fst ↔
        t' ≤ j ∧ ∀ p ∈ reference cfg out rest (i + 1) t', p.1 < j →
          ∀ s, (step :: rest)[(p.1 - i).toNat]? = some s → cfg.LetsPass s p.1 p.2 j) := by
      intro t' hij
      rw [ih (i + 1) t' hij (by omega)]
      refine and_congr_right fun _ => forall₂_congr fun p hp => ?_
      rw [getElem?_of_mem_rest cfg out hp]
    have hfirst : (step :: rest)[(i - i).toNat]? = some step := by
      rw [Int.sub_self]
      rfl
    rw [reference]
    split_ifs with hlt hstop
    · by_cases hij : i < j
      · exact hrest t hij
      · constructor
        · intro hm
          obtain ⟨p, hp, rfl⟩ := List.mem_map.mp hm
          have := mem_reference cfg out hp
          omega
        · intro h
          omega
    · constructor
      · intro hm
        obtain rfl := List.mem_singleton.mp hm
        refine ⟨Int.not_lt.mp hlt, fun p hp hlt' => ?_⟩
        obtain rfl := List.mem_singleton.mp hp
        exact absurd hlt' (Int.lt_irrefl _)
      · rintro ⟨-, h⟩
        by_cases hij : i < j
        · exact absurd hstop (h _ (List.mem_singleton_self _) hij step hfirst).2
        · exact List.mem_singleton.mpr (by omega)
    · rw [List.map_cons, List.mem_cons]
      by_cases hij : i < j
      · rw [hrest _ hij, List.forall_mem_cons]
        constructor
        · rintro (h | ⟨hle, h⟩)
          · exact absurd h hij.ne'
          · refine ⟨by omega, fun _ s hs => ?_, h⟩
            obtain rfl := Option.some.inj (hfirst.symm.trans hs)
            exact (letsPass_iff cfg step (out i) hij).mpr ⟨hle, hstop⟩
        · rintro ⟨-, hone, h⟩
          exact Or.inr ⟨((letsPass_iff cfg step (out i) hij).mp (hone hij step hfirst)).1, h⟩
      · have hji : j = i := by omega
        refine ⟨fun _ => ⟨by omega, fun p hp hlt' => ?_⟩, fun _ => Or.inl hji⟩
        rcases List.mem_cons.mp hp with rfl | hp
        · exact absurd hlt' hij
        · have := mem_reference cfg out hp
          omega

end Semantics

section

variable [PyText]

/-! ## Moves -/

/-- There are no loop and no handoff steps. -/
def LoopFree (cfg : Config) : Prop :=
  ∀ step ∈ cfg.steps, step.action ≠ .loop ∧ step.action ≠ .handoff

instance (cfg : Config) : Decidable (LoopFree cfg) := inferInstanceAs (Decidable (∀ _ ∈ _, _))

/-- **The moves of a run without loops**: the end of the list, a failure that stops the run, and a
step that goes on. -/
inductive ForwardMove (cfg : Config) (c : Control) : Control → Prop where
  | finished (h : (cfg.steps.length : ℤ) ≤ c.stepIdx) : ForwardMove cfg c (c.stop .finished)
  | stopped {step : WorkflowStep} {r : StepResult} (hs : cfg.stepAt c = some step) (hr : r.Of step)
      (h : cfg.StopsAfter step r) : ForwardMove cfg c ((c.ran step r).countFail.stop .stopped)
  | went {step : WorkflowStep} {r : StepResult} (hs : cfg.stepAt c = some step) (hr : r.Of step)
      (h : ¬ cfg.StopsAfter step r) :
      ForwardMove cfg c (((c.ran step r).counted r).setIdx (step.after c.stepIdx r))

section Moves

variable {cfg : Config} {x : Input} {c c' : Control}

/-- Outside of loops a step leads to the index after it. -/
theorem advance_forward {step : WorkflowStep} {r : StepResult} (hr : r.Of step)
    (ha : step.action ≠ .loop) (hs : c.loopStack = []) :
    c.advance step r = c.setIdx (step.after c.stepIdx r) := by
  have hidx : c.branchIdx step r + 1 = step.after c.stepIdx r := by
    rw [branchIdx_eq hr, WorkflowStep.after]
    split_ifs
    · omega
    · rfl
  have hm := advance_move hr c
  generalize c.advance step r = c' at hm ⊢
  cases hm with
  | skipBody h | enterBody h | pastLoop h => exact absurd h ha
  | forward => rw [hidx]
  | wrap _ hst | leave _ hst => exact absurd (hs.symm.trans hst) (List.cons_ne_nil _ _).symm

/-- **The moves of a loop head** in such a run. -/
theorem HeadMove.forward (h : HeadMove cfg x c c') (hfree : LoopFree cfg) (hx : x.Goes cfg)
    (h0 : 0 ≤ c.stepIdx) (hstack : c.loopStack = []) (hw : c'.waiting = none)
    (hraised : ∀ e, c'.halt ≠ some (.raised e)) : ForwardMove cfg c c' := by
  cases h with
  | finished hn => exact .finished hn
  | noStep hlt hn =>
    obtain ⟨raw, hraw, -⟩ := cfg.stepAt_inside h0 hlt
    rw [pyGet, if_pos h0, hraw] at hn
    cases hn
  | cancelled _ hc => exact absurd (hx.1.symm.trans hc) Bool.false_ne_true
  | requested | handoffWaits => exact absurd hw (Option.some_ne_none _)
  | monitorRaised _ _ e | handoffRaised _ _ _ _ e | callbackRaised _ _ _ _ e =>
    exact absurd rfl (hraised e)
  | handoffPassed hs _ ha =>
    obtain ⟨raw, hraw, rfl⟩ := cfg.stepAt_mem hs
    rw [resolveStepRuntime_action] at ha
    exact absurd ha (hfree raw hraw).2
  | @ran step r hs _ _ hr =>
    have ha : step.action ≠ .loop := by
      obtain ⟨raw, hraw, rfl⟩ := cfg.stepAt_mem hs
      rw [resolveStepRuntime_action]
      exact (hfree raw hraw).1
    have hadvance : ((c.ran step r).counted r).advance step r =
        ((c.ran step r).counted r).setIdx (step.after c.stepIdx r) := by
      rw [advance_forward hr ha ((counted_loopStack r (c.ran step r)).trans hstack),
        counted_stepIdx]
      rfl
    cases hst : r.status with
    | passed =>
      have hc : (c.ran step r).countPass = (c.ran step r).counted r := by rw [counted, hst]
      rw [account_passed hst, hc, hadvance]
      exact .went hs hr fun h => StepStatus.noConfusion (hst.symm.trans h.1)
    | failed =>
      have hc : (c.ran step r).countFail = (c.ran step r).counted r := by rw [counted, hst]
      rcases account_failed cfg step (c.ran step r) hst with ⟨-, h⟩ | ⟨-, ⟨hq, h⟩ | ⟨hq, h⟩⟩
      · rw [h] at hw
        exact absurd hw (Option.some_ne_none _)
      · rw [h]
        exact .stopped hs hr ⟨hst, hq⟩
      · rw [h, hc, hadvance]
        exact .went hs hr fun h => hq h.2

end Moves

/-! ## The invariant -/

/-- **The records of a run without loops**: the results, of steps of the list in order, are counted. -/
structure Tallied (cfg : Config) (c : Control) : Prop where
  fresh : c.retrying = false
  sorted : (c.resultsAt.map Prod.fst).Pairwise (· < ·)
  own : ∀ p ∈ c.resultsAt, 0 ≤ p.1 ∧ ∃ raw o, (p.1, o) ∈ c.begins ∧
    cfg.steps[p.1.toNat]? = some raw ∧ p.2.Of (resolveStepRuntime raw o)
  passed : c.passed = c.resultsAt.countP fun p => p.2.status = .passed
  failed : c.failed = c.resultsAt.countP fun p => p.2.status = .failed

/-- The outcomes are those of the results so far. -/
def Control.Agrees (out : ℤ → StepResult) (c : Control) : Prop := ∀ p ∈ c.resultsAt, out p.1 = p.2

/-- **The invariant of the loop head**: what was executed is what the reference semantics executes
before the index. -/
structure ForwardInv (cfg : Config) (c : Control) : Prop where
  tallied : Tallied cfg c
  idx : 0 ≤ c.stepIdx
  alone : c.loopStack = []
  below : ∀ p ∈ c.resultsAt, p.1 < c.stepIdx
  follows : ∀ out, c.Agrees out → reference cfg out cfg.steps 0 0 =
    c.resultsAt ++ reference cfg out (cfg.steps.drop c.stepIdx.toNat) c.stepIdx c.stepIdx

/-- The run is left, and was executed as the reference semantics says. -/
structure ForwardEnd (cfg : Config) (c : Control) : Prop where
  halt : c.halt = some .finished ∨ c.halt = some .stopped
  tallied : Tallied cfg c
  follows : ∀ out, c.Agrees out → reference cfg out cfg.steps 0 0 = c.resultsAt

/-- The met conditionals among the results move forward. -/
def Control.MovesForward (cfg : Config) (c : Control) : Prop :=
  ∀ p ∈ c.resultsAt, ∀ raw, cfg.steps[p.1.toNat]? = some raw → p.2.Met → p.1 < raw.target p.1

section Invariant

variable {cfg : Config} {c c' : Control}

theorem resultsAt_counted (step : WorkflowStep) (r : StepResult) (c : Control) :
    ((c.ran step r).counted r).resultsAt = c.resultsAt ++ [(c.stepIdx, r)] := by
  rw [← resultsAt_ran step r c]
  unfold counted
  cases r.status <;> rfl

theorem begins_counted (step : WorkflowStep) (r : StepResult) (c : Control) :
    ((c.ran step r).counted r).begins = c.begins ++ [(c.stepIdx, c.outputs)] := by
  rw [← begins_ran step r c]
  unfold counted
  cases r.status <;> rfl

theorem counted_retrying (step : WorkflowStep) (r : StepResult) (c : Control) :
    ((c.ran step r).counted r).retrying = false := by
  unfold counted
  cases r.status <;> rfl

theorem counted_halt (step : WorkflowStep) (r : StepResult) (c : Control) :
    ((c.ran step r).counted r).halt = c.halt := by
  unfold counted
  cases r.status <;> rfl

theorem counted_passed (step : WorkflowStep) (r : StepResult) (c : Control) :
    ((c.ran step r).counted r).passed = c.passed + if r.status = .passed then 1 else 0 := by
  unfold counted
  cases r.status with
  | passed => rfl
  | failed => exact (Int.add_zero _).symm

/-- The pass of a retry is counted instead of the failure before it. -/
theorem counted_failed (step : WorkflowStep) (r : StepResult) {c : Control}
    (h : c.retrying = false) :
    ((c.ran step r).counted r).failed = c.failed + if r.status = .failed then 1 else 0 := by
  have hf : (c.ran step r).retrying = false := h
  unfold counted
  cases r.status with
  | passed =>
    change (if (c.ran step r).retrying then _ else c.failed) = c.failed + 0
    rw [hf, if_neg Bool.false_ne_true, Int.add_zero]
  | failed => rfl

theorem Tallied.stop (h : Tallied cfg c) (e : Halt) : Tallied cfg (c.stop e) :=
  ⟨h.fresh, h.sorted, h.own, h.passed, h.failed⟩

theorem Tallied.setIdx (h : Tallied cfg c) (i : ℤ) : Tallied cfg (c.setIdx i) :=
  ⟨h.fresh, h.sorted, h.own, h.passed, h.failed⟩

/-- The result of the step at the index is counted. -/
theorem Tallied.counted (h : Tallied cfg c) (h0 : 0 ≤ c.stepIdx)
    (hbelow : ∀ p ∈ c.resultsAt, p.1 < c.stepIdx) {step : WorkflowStep} {r : StepResult}
    (hs : cfg.stepAt c = some step) (hr : r.Of step) : Tallied cfg ((c.ran step r).counted r) := by
  have hres := resultsAt_counted step r c
  obtain ⟨raw, hraw, hstep⟩ := cfg.stepAt_raw hs
  rw [pyGet, if_pos h0] at hraw
  constructor
  · exact counted_retrying step r c
  · rw [hres, List.map_append, List.pairwise_append]
    refine ⟨h.sorted, List.pairwise_singleton _ _, fun i hi k hk => ?_⟩
    obtain ⟨p, hp, rfl⟩ := List.mem_map.mp hi
    obtain rfl := List.mem_singleton.mp hk
    exact hbelow p hp
  · intro p hp
    rw [begins_counted]
    rw [hres, List.mem_append, List.mem_singleton] at hp
    rcases hp with hp | rfl
    · obtain ⟨hp0, raw, o, hb, hrest⟩ := h.own p hp
      exact ⟨hp0, raw, o, List.mem_append_left _ hb, hrest⟩
    · exact ⟨h0, raw, c.outputs, List.mem_append_right _ (List.mem_singleton_self _), hraw,
        hstep ▸ hr⟩
  · rw [counted_passed, hres, List.countP_append, h.passed, List.countP_singleton]
    simp only [decide_eq_true_eq]
    split_ifs <;> rfl
  · rw [counted_failed step r h.fresh, hres, List.countP_append, h.failed, List.countP_singleton]
    simp only [decide_eq_true_eq]
    split_ifs <;> rfl

omit [PyText] in
/-- What the reference semantics does at the index. -/
theorem reference_here {raw : WorkflowStep} (out : ℤ → StepResult) {i : ℤ} (h0 : 0 ≤ i)
    (hraw : cfg.steps[i.toNat]? = some raw) (hf : ¬ cfg.StopsAfter raw (out i) →
      i < raw.after i (out i)) :
    reference cfg out (cfg.steps.drop i.toNat) i i = (i, out i) ::
      if cfg.StopsAfter raw (out i) then [] else
        reference cfg out (cfg.steps.drop (raw.after i (out i)).toNat) (raw.after i (out i))
          (raw.after i (out i)) := by
  obtain ⟨hlt, hget⟩ := List.getElem?_eq_some_iff.mp hraw
  rw [List.drop_eq_getElem_cons hlt, hget, reference, if_neg (Int.lt_irrefl i)]
  split_ifs with hstop
  · rfl
  · have hlt := hf hstop
    have hn : i.toNat + 1 + (raw.after i (out i) - (i + 1)).toNat = (raw.after i (out i)).toNat := by
      omega
    rw [reference_drop cfg out _ (by omega : i + 1 ≤ raw.after i (out i)), List.drop_drop, hn]

omit [PyText] in
theorem Control.Agrees.snoc {out : ℤ → StepResult} {i : ℤ} {r : StepResult} (h : c'.Agrees out)
    (hres : c'.resultsAt = c.resultsAt ++ [(i, r)]) : c.Agrees out ∧ out i = r := by
  unfold Agrees at h
  rw [hres] at h
  exact ⟨fun p hp => h p (List.mem_append_left _ hp),
    h (i, r) (List.mem_append_right _ (List.mem_singleton_self _))⟩

/-- Interpolation changes neither where a step leads nor whether it stops the run. -/
theorem after_resolve (raw : WorkflowStep) (o : Outputs) (i : ℤ) (r : StepResult) :
    (resolveStepRuntime raw o).after i r = raw.after i r := by
  rw [WorkflowStep.after, target_resolve, WorkflowStep.after]

theorem stopsAfter_resolve (raw : WorkflowStep) (o : Outputs) (r : StepResult) :
    cfg.StopsAfter (resolveStepRuntime raw o) r ↔ cfg.StopsAfter raw r := by
  rw [Config.StopsAfter, resolveStepRuntime_policy, Config.StopsAfter]

/-- **A move keeps the invariant**, or leaves the loop. -/
theorem ForwardInv.step (h : ForwardInv cfg c) (hm : ForwardMove cfg c c')
    (hf : c'.MovesForward cfg) (hh : c.halt = none) :
    (c'.halt = none ∧ c.stepIdx < c'.stepIdx ∧ c.stepIdx < cfg.steps.length ∧ ForwardInv cfg c') ∨
      ForwardEnd cfg c' := by
  have h0 := h.idx
  cases hm with
  | finished hn =>
    refine Or.inr ⟨Or.inl rfl, h.tallied.stop .finished, fun out ha => ?_⟩
    rw [h.follows out ha, List.drop_eq_nil_of_le (by omega), reference, List.append_nil]
    rfl
  | @stopped step r hs hr hstop =>
    have hcount : (c.ran step r).countFail = (c.ran step r).counted r := by rw [counted, hstop.1]
    have ht := h.tallied.counted h0 h.below hs hr
    have hres := resultsAt_counted step r c
    rw [hcount]
    refine Or.inr ⟨Or.inr rfl, ht.stop .stopped, fun out ha => ?_⟩
    obtain ⟨hc, hout⟩ := Control.Agrees.snoc ha hres
    obtain ⟨raw, hraw, rfl⟩ := cfg.stepAt_raw hs
    rw [pyGet, if_pos h0] at hraw
    rw [stopsAfter_resolve, ← hout] at hstop
    rw [h.follows out hc, reference_here out h0 hraw fun hn => absurd hstop hn, if_pos hstop, hout]
    exact hres.symm
  | @went step r hs hr hgo =>
    have ht := h.tallied.counted h0 h.below hs hr
    have hres := resultsAt_counted step r c
    obtain ⟨raw, hraw, rfl⟩ := cfg.stepAt_raw hs
    rw [pyGet, if_pos h0] at hraw
    rw [stopsAfter_resolve] at hgo
    have hlt : c.stepIdx < raw.after c.stepIdx r := by
      have hmem : (c.stepIdx, r) ∈ c.resultsAt ++ [(c.stepIdx, r)] :=
        List.mem_append_right _ (List.mem_singleton_self _)
      rw [← hres] at hmem
      unfold WorkflowStep.after
      split_ifs with hmet
      · exact hf _ hmem raw hraw hmet
      · exact Int.lt_succ _
    rw [after_resolve] at *
    refine Or.inl ⟨(counted_halt _ r c).trans hh, hlt, cfg.stepAt_lt hs, ht.setIdx _,
      h0.trans hlt.le, ?_, ?_, fun out ha => ?_⟩
    · exact (counted_loopStack r (c.ran _ r)).trans h.alone
    · intro p hp
      change p ∈ ((c.ran _ r).counted r).resultsAt at hp
      rw [hres, List.mem_append, List.mem_singleton] at hp
      rcases hp with hp | rfl
      · exact (h.below p hp).trans hlt
      · exact hlt
    · obtain ⟨hc, hout⟩ := Control.Agrees.snoc ha hres
      rw [← hout] at hgo hlt
      rw [h.follows out hc, reference_here out h0 hraw fun _ => hlt, if_neg hgo, hout]
      change _ = ((c.ran _ r).counted r).resultsAt ++ _
      rw [hres, List.append_assoc]
      rfl

end Invariant

/-! ## Runs -/

/-- **A run that nothing disturbs**: the set-up returns, nobody cancels or pauses, no failure pauses
the run, and neither a look-ahead nor the callback raises. -/
structure Steady (cfg : Config) (env : Env) (σ : ℕ → RunState → Input) : Prop where
  started : (entry cfg env).halt = none
  goes : ∀ n, (σ n (execution cfg env σ n)).Goes cfg
  unpaused : ∀ n, (execution cfg env σ n).waiting = none
  watches : ∀ n, AtStep cfg (σ n (execution cfg env σ n)) (execution cfg env σ n).toControl →
    WatchReturns cfg env (execution cfg env σ n)
  callback : CallbackReturns cfg env

/-- **A run follows the reference semantics** to the state `s`, in which its loop is left, and
returns `res` in the state `s'`. -/
structure FollowsReference (cfg : Config) (env : Env) (s s' : RunState) (res : ExecutionResult) :
    Prop where
  reference : ∃ out, s.resultsAt = ScoutEngine.reference cfg out cfg.steps 0 0
  increasing : (s.begins.map Prod.fst).Pairwise (· < ·)
  /-- A step is executed iff every step executed before it lets it pass. -/
  executed : ∀ j, j ∈ s.begins.map Prod.fst ↔ (0 ≤ j ∧ j < cfg.steps.length) ∧
    ∀ p ∈ s.resultsAt, p.1 < j → ∀ step, cfg.steps[p.1.toNat]? = some step →
      cfg.LetsPass step p.1 p.2 j
  /-- One result for each step executed, in order. -/
  results : res.steps = s.resultsAt.map Prod.snd ∧
    s.resultsAt.map Prod.fst = s.begins.map Prod.fst
  own : ∀ p ∈ s.resultsAt, ∃ raw o, (p.1, o) ∈ s.begins ∧ cfg.steps[p.1.toNat]? = some raw ∧
    p.2.Of (resolveStepRuntime raw o)
  passed : res.passed = res.steps.countP fun r => r.status = .passed
  failed : res.failed = res.steps.countP fun r => r.status = .failed
  completed : res.status = .completed ↔ ∀ r ∈ res.steps, r.status = .passed
  /-- The cleanup steps are attempted once each, in order, and the browser is released. -/
  released : Released cfg env s s'

section Runs

variable {cfg : Config} {env : Env} {σ : ℕ → RunState → Input}

/-- Nothing leaves the loop of a steady run. -/
theorem Steady.not_raised (h : Steady cfg env σ) {n : ℕ} (hh : (execution cfg env σ n).halt = none)
    (h0 : 0 ≤ (execution cfg env σ n).stepIdx) (e : PyExc) :
    (execution cfg env σ (n + 1)).halt ≠ some (.raised e) := by
  intro he
  rw [execution_succ] at he
  rcases next_raised hh he with hs | ⟨-, hlt, hn⟩ | ⟨hw, -⟩
  · cases hs with
    | lookAhead hs hl =>
      obtain ⟨u, hu⟩ := (lookAhead_returns_iff cfg env _).mpr (h.watches n hs)
      cases hu.symm.trans hl
    | callback t r hc => exact notify_returns h.callback t r e hc
  · obtain ⟨raw, hraw, -⟩ := cfg.stepAt_inside h0 hlt
    rw [pyGet, if_pos h0, hraw] at hn
    cases hn
  · exact hw (h.unpaused n)

/-- **A steady run without loops ends**, by induction on the steps that are left. -/
theorem exists_forwardEnd (hfree : LoopFree cfg) (h : Steady cfg env σ)
    (hf : ∀ n, (execution cfg env σ n).MovesForward cfg) (n : ℕ)
    (hh : (execution cfg env σ n).halt = none)
    (hinv : ForwardInv cfg (execution cfg env σ n).toControl) :
    ∃ N, ForwardEnd cfg (execution cfg env σ N).toControl := by
  induction hk : (cfg.steps.length - (execution cfg env σ n).stepIdx).toNat
    using Nat.strong_induction_on generalizing n with
  | h k ih =>
    have hm := head_move cfg env (σ n (execution cfg env σ n)) (execution cfg env σ n)
    rw [← next_of_awake hh (h.unpaused n), ← execution_succ] at hm
    have hfwd := hm.forward hfree (h.goes n) hinv.idx hinv.alone (h.unpaused (n + 1))
      (h.not_raised hh hinv.idx)
    rcases hinv.step hfwd (hf (n + 1)) hh with ⟨hh', hlt, hlen, hinv'⟩ | hend
    · exact ih _ (by omega) (n + 1) hh' hinv' rfl
    · exact ⟨n + 1, hend⟩

omit [PyText] in
/-- Outcomes for some results of different steps. -/
theorem exists_outcomes (L : List (ℤ × StepResult)) (h : (L.map Prod.fst).Pairwise (· < ·)) :
    ∃ out : ℤ → StepResult, ∀ p ∈ L, out p.1 = p.2 := by
  induction L with
  | nil => exact ⟨fun _ => ⟨1, "", .clear, .passed, 0, none, none, .none⟩,
      fun p hp => absurd hp List.not_mem_nil⟩
  | cons p L ih =>
    rw [List.map_cons, List.pairwise_cons] at h
    obtain ⟨out, hout⟩ := ih h.2
    refine ⟨fun i => if i = p.1 then p.2 else out i, List.forall_mem_cons.mpr ⟨if_pos rfl, ?_⟩⟩
    intro q hq
    have hlt := h.1 q.1 (List.mem_map_of_mem hq)
    exact (if_neg (by omega)).trans (hout q hq)

omit [PyText] in
/-- A run that was not cancelled is completed iff no step of it failed. -/
theorem finalStatus_completed {s : RunState} (hc : s.halt ≠ some .cancelled)
    (hf : s.failed = s.results.countP fun r => r.status = .failed) :
    finalStatus s = .completed ↔ ∀ r ∈ s.results, r.status = .passed := by
  have hzero : (s.results.countP fun r => decide (r.status = .failed)) = 0 ↔
      ∀ r ∈ s.results, r.status = .passed := by
    rw [List.countP_eq_zero]
    refine forall₂_congr fun r _ => ?_
    cases r.status <;> simp
  rw [finalStatus, if_neg hc, hf, ← hzero]
  split_ifs with h0
  · exact ⟨fun _ => by omega, fun _ => rfl⟩
  · exact ⟨nofun, fun h => absurd (by omega) h0⟩

/-- What the end of such a run says about its result. -/
theorem ForwardEnd.followsReference {N : ℕ}
    (hend : ForwardEnd cfg (execution cfg env σ N).toControl)
    (hpaired : (execution cfg env σ N).resultsAt.map Prod.fst =
      (execution cfg env σ N).begins.map Prod.fst) :
    FollowsReference cfg env (execution cfg env σ N) (leave cfg env (execution cfg env σ N))
      (result env (leave cfg env (execution cfg env σ N))) := by
  have ht := hend.tallied
  have hc := leave_toControl cfg env (execution cfg env σ N)
  have hresults : (leave cfg env (execution cfg env σ N)).results =
      (execution cfg env σ N).resultsAt.map Prod.snd :=
    (congrArg Control.results hc).trans (results_eq cfg env σ N)
  have hcount (q : StepStatus) : (leave cfg env (execution cfg env σ N)).results.countP
      (fun r => r.status = q) = (execution cfg env σ N).resultsAt.countP
      fun p => p.2.status = q := by
    rw [hresults, List.countP_map]
    rfl
  have hfailed : (leave cfg env (execution cfg env σ N)).failed =
      ((leave cfg env (execution cfg env σ N)).results.countP fun r => r.status = .failed) := by
    rw [hcount]
    exact (congrArg Control.failed hc).trans ht.failed
  have hpassed : (leave cfg env (execution cfg env σ N)).passed =
      ((leave cfg env (execution cfg env σ N)).results.countP fun r => r.status = .passed) := by
    rw [hcount]
    exact (congrArg Control.passed hc).trans ht.passed
  obtain ⟨out, hout⟩ := exists_outcomes _ ht.sorted
  have href := hend.follows out hout
  refine ⟨⟨out, href.symm⟩, hpaired ▸ ht.sorted, fun j => ?_, ⟨hresults, hpaired⟩,
    fun p hp => (ht.own p hp).2, hpassed, hfailed, ?_, ?_⟩
  · rw [← hpaired]
    have hiff := mem_reference_iff cfg out cfg.steps 0 0 (j := j)
    rw [href] at hiff
    simp only [Int.sub_zero, Int.zero_add] at hiff
    constructor
    · intro hj
      obtain ⟨p, hp, rfl⟩ := List.mem_map.mp hj
      obtain ⟨hp0, raw, o, -, hraw, -⟩ := ht.own p hp
      have hlt := (List.getElem?_eq_some_iff.mp hraw).1
      have hlen : p.1 < cfg.steps.length := by omega
      exact ⟨⟨hp0, hlen⟩, ((hiff hp0 hlen).mp hj).2⟩
    · rintro ⟨⟨hj0, hlen⟩, h⟩
      exact (hiff hj0 hlen).mpr ⟨hj0, h⟩
  · refine finalStatus_completed ?_ hfailed
    rw [hc]
    rcases hend.halt with h | h <;> simp [h]
  · exact leave_released (execution_calls cfg env σ N) fun hid => execution_sessions hid N

/-- **Main result.** A run of a workflow without loops whose met conditionals move forward, which
nothing disturbs, returns, and follows the reference semantics. -/
theorem forward_reference (hfree : LoopFree cfg) (h : Steady cfg env σ)
    (hf : ∀ n, (execution cfg env σ n).MovesForward cfg) :
    ∃ N res s', finish cfg env (execution cfg env σ N) = (.ok res, s') ∧
      FollowsReference cfg env (execution cfg env σ N) s' res := by
  have hstart : (entry cfg env).toControl = {} := by
    rcases entry_toControl cfg env with he | ⟨e, he⟩
    · exact he
    · cases (h.started.symm.trans (congrArg Control.halt he))
  have hinv : ForwardInv cfg (execution cfg env σ 0).toControl := by
    rw [execution, hstart]
    exact ⟨⟨rfl, List.Pairwise.nil, fun _ hp => absurd hp List.not_mem_nil, rfl, rfl⟩, le_rfl, rfl,
      fun _ hp => absurd hp List.not_mem_nil, fun _ _ => rfl⟩
  obtain ⟨N, hend⟩ := exists_forwardEnd hfree h hf 0 h.started hinv
  have hleft : (execution cfg env σ N).halt ≠ none := by
    rcases hend.halt with he | he
    · exact he ▸ Option.some_ne_none _
    · exact he ▸ Option.some_ne_none _
  have hno : ∀ m ≤ N, ∀ e, (execution cfg env σ m).halt ≠ some (.raised e) := by
    intro m hm e he
    rw [← execution_of_halt cfg env σ (he ▸ Option.some_ne_none _) hm] at he
    rcases hend.halt with h' | h'
    · cases (h'.symm.trans he)
    · cases (h'.symm.trans he)
  have hpaired := paired_of_not_raised hno
  rw [Control.Paired, owed_of_awake (awake_of_halt hleft), List.append_nil] at hpaired
  exact ⟨N, _, _, finish_returns cfg env (execution_started h.started N) (hno N le_rfl),
    hend.followsReference hpaired.symm⟩

end Runs

end

section Example

attribute [local instance] asciiText

/-- A condition that skips the step after it, a click that fails, and a cleanup step. -/
def skipOne : Config where
  workflow :=
    { settings := { humanMode := false, onError := .continue }
      steps := [
        { order := 1, order_pos := WorkflowStep.order_one, name := "Known?", action := .conditional
          value := some "yes", skipSteps := some 1 },
        { order := 2, order_pos := WorkflowStep.order_two, name := "Clear", action := .clear },
        { order := 3, order_pos := WorkflowStep.order_three, name := "Open", action := .click }]
      cleanupSteps := [{ order := 1, order_pos := WorkflowStep.order_one, name := "Log out",
                         action := .click }] }

/-- The run ends after the third move. -/
theorem skipOne_steady : Steady skipOne unclickable fun _ _ => {} where
  started := by decide +kernel
  goes _ := ⟨rfl, rfl⟩
  unpaused n := by
    have hleft : (execution skipOne unclickable (fun _ _ => {}) 3).halt ≠ none := by decide +kernel
    have hfirst : ∀ n < 3, (execution skipOne unclickable (fun _ _ => {}) n).waiting.isNone = true := by
      decide +kernel
    refine Option.isNone_iff_eq_none.mp ?_
    rcases Nat.lt_or_ge n 3 with hn | hn
    · exact hfirst n hn
    · rw [execution_of_halt skipOne unclickable _ hleft hn]
      decide +kernel
  watches _ _ := watchReturns_of_no_wait (by decide) _ _
  callback h := absurd h Bool.noConfusion

/-- The first and the third step are executed. -/
theorem forward_reference_skipOne : ∃ N res s',
    finish skipOne unclickable (execution skipOne unclickable (fun _ _ => {}) N) = (.ok res, s') ∧
      FollowsReference skipOne unclickable (execution skipOne unclickable (fun _ _ => {}) N) s' res := by
  refine forward_reference (by decide) skipOne_steady fun n p _ raw hraw _ => ?_
  have hmem := List.mem_of_getElem? hraw
  simp only [Config.steps, skipOne, List.mem_cons, List.not_mem_nil, or_false] at hmem
  rcases hmem with rfl | rfl | rfl
  · show p.1 < p.1 + 1 + 1
    omega
  · exact Int.lt_succ _
  · exact Int.lt_succ _

end Example

end ScoutEngine
