import ScoutEngine.Executor.Trace
import Mathlib.Data.Nat.Find

/-!
# Pausing and continuing

A developer pause is taken at the loop head, before the step at the index has run, and `continue`
goes to the next index. The step is skipped.

* `Reaction`, `pausing`: the other threads of a run, which answer developer pauses by `continue`.
* `SameRun`: two runs execute the same steps with the same statuses, counts, outputs and end.
* `Taken`: a pause request meets a loop head that has a step left.
* **`sameRun_iff`**: the run with pause requests is the same as the run without them iff no request
  is taken.
* `pause_skips_step`: a workflow of one step that is paused and continued executes nothing.
-/

set_option autoImplicit false

namespace ScoutEngine

open Control

/-! ## The two runs -/

/-- What the other threads do apart from pausing, as a function of the calls made and the results
so far: whether the cancel event is set, and what a handoff or an error pause gets. -/
structure Reaction where
  cancel : Calls → List StepResult → Bool
  answer : Calls → List StepResult → Option ResumeInstruction

/-- The inputs of a run in which the pause event is set at the moves `P`, and every developer pause
is answered by `continue`. -/
def pausing (ρ : Reaction) (P : ℕ → Bool) (n : ℕ) (s : RunState) : Input where
  cancel := ρ.cancel s.calls s.results
  pause := P n
  resume :=
    match s.waiting with
    | some p =>
      if p.kind = .requested then some { action := .continue } else ρ.answer s.calls s.results
    | none => none

/-- What a run leaves when it ends. -/
structure Summary where
  statuses : List StepStatus
  passed : ℤ
  failed : ℤ
  outputs : Outputs
  status : RunStatus

/-- The summary of a state. -/
def RunState.summary (s : RunState) : Summary where
  statuses := s.results.map (·.status)
  passed := s.passed
  failed := s.failed
  outputs := s.outputs
  status := finalStatus s

/-- Two runs execute the same steps with the same statuses, counts, outputs and final status. -/
structure SameRun (R R' : ℕ → RunState) : Prop where
  executed : ∀ (k : ℕ) (i : ℤ), (∃ n, ((R n).begins.map Prod.fst)[k]? = some i) ↔
    ∃ n, ((R' n).begins.map Prod.fst)[k]? = some i
  statuses : ∀ (k : ℕ) (st : StepStatus), (∃ n, ((R n).results.map (·.status))[k]? = some st) ↔
    ∃ n, ((R' n).results.map (·.status))[k]? = some st
  ends : ∀ v, (∃ n, (R n).halt ≠ none ∧ (R n).summary = v) ↔
    ∃ n, (R' n).halt ≠ none ∧ (R' n).summary = v

section Runs

variable [PyText] {cfg : Config} {env : Env} {ρ : Reaction} {P : ℕ → Bool}

/-- In the run without pause requests, the request pending at move `n` meets a loop head that has
a step left. -/
structure Taken (cfg : Config) (env : Env) (ρ : Reaction) (P : ℕ → Bool) (n : ℕ) : Prop where
  pause : P n = true
  canPause : cfg.canPause = true
  running : (execution cfg env (pausing ρ fun _ => false) n).halt = none
  awake : (execution cfg env (pausing ρ fun _ => false) n).waiting = none
  left : ∃ step, cfg.stepAt (execution cfg env (pausing ρ fun _ => false) n).toControl = some step
  goes : ρ.cancel (execution cfg env (pausing ρ fun _ => false) n).calls
    (execution cfg env (pausing ρ fun _ => false) n).results = false

/-! ## Without a taken request -/

/-- A request that meets no loop head with a step left changes nothing. -/
theorem next_pausing {n : ℕ} (h : ¬ Taken cfg env ρ P n) :
    next cfg env (pausing ρ P n (execution cfg env (pausing ρ fun _ => false) n))
        (execution cfg env (pausing ρ fun _ => false) n) =
      execution cfg env (pausing ρ fun _ => false) (n + 1) := by
  rw [execution_succ]
  generalize hs : execution cfg env (pausing ρ fun _ => false) n = s
  unfold next
  cases hh : s.halt with
  | some k => rfl
  | none =>
    cases hw : s.waiting with
    | some p => rfl
    | none =>
      dsimp only
      cases hstep : cfg.stepAt s.toControl with
      | none => exact head_of_no_step _ _ _ hstep
      | some step =>
        rw [head_of_stepAt _ _ hstep, head_of_stepAt _ _ hstep]
        by_cases hc : (pausing ρ P n s).cancel = true
        · have hc' : (pausing ρ (fun _ => false) n s).cancel = true := hc
          rw [if_pos hc, if_pos hc']
        · have hc' : ¬ (pausing ρ (fun _ => false) n s).cancel = true := hc
          have hp : ¬ ((pausing ρ P n s).pause && cfg.canPause) = true := by
            intro hp
            obtain ⟨hp, hcan⟩ := Bool.and_eq_true_iff.mp hp
            exact h ⟨hp, hcan, hs ▸ hh, hs ▸ hw, hs ▸ ⟨step, hstep⟩, hs ▸ Bool.eq_false_iff.mpr hc⟩
          have hp' : ¬ ((pausing ρ (fun _ => false) n s).pause && cfg.canPause) = true :=
            Bool.false_ne_true
          rw [if_neg hc, if_neg hc', if_neg hp, if_neg hp']

/-- Up to the first taken request the runs are equal. -/
theorem execution_pausing {n : ℕ} (h : ∀ m < n, ¬ Taken cfg env ρ P m) :
    execution cfg env (pausing ρ P) n = execution cfg env (pausing ρ fun _ => false) n := by
  induction n with
  | zero => rfl
  | succ n ih =>
    have hn := ih fun m hm => h m (Nat.lt_succ_of_lt hm)
    rw [execution_succ, hn]
    exact next_pausing (h n (Nat.lt_succ_self n))

/-! ## After a taken request -/

/-- The paused run is past index `i`: the step that it begins after the first `k` ones, if any, is
a later one. -/
def Past (k : ℕ) (i : ℤ) (c : Control) : Prop :=
  (c.begins.length = k ∧ (c.halt = none →
    (∃ p, c.waiting = some p ∧ p.kind = .requested ∧ i ≤ c.stepIdx) ∨
      c.waiting = none ∧ i < c.stepIdx)) ∨
    ∃ j o, c.begins[k]? = some (j, o) ∧ i < j

theorem Past.move {k : ℕ} {i : ℤ} {x : Input} {c c' : Control} (h : Past k i c)
    (hx : ∀ p, c.waiting = some p → p.kind = .requested → x.resume = some { action := .continue })
    (hm : Move cfg x c c') : Past k i c' := by
  rcases h with ⟨hk, hpos⟩ | ⟨j, o, hj, hij⟩
  · cases hm with
    | halted hh => exact Or.inl ⟨hk, fun hn => absurd (hn.symm.trans hh) nofun⟩
    | head hh hw hm =>
      have hi : i < c.stepIdx := by
        rcases hpos hh with ⟨p, hp, -⟩ | ⟨-, hi⟩
        · exact absurd (hw.symm.trans hp) nofun
        · exact hi
      rcases hm.begins with ⟨hb, hout | ⟨step, rfl⟩⟩ | hb
      · exact Or.inl ⟨hb ▸ hk, fun hn => absurd hn hout⟩
      · exact Or.inl ⟨hb ▸ hk, fun _ => Or.inl ⟨_, rfl, rfl, hi.le⟩⟩
      · refine Or.inr ⟨c.stepIdx, c.outputs, ?_, hi⟩
        rw [hb, ← hk, List.getElem?_concat_length]
    | @wake p _ hh hw hm =>
      rcases hpos hh with ⟨q, hq, hkind, hi⟩ | ⟨hn, -⟩
      · obtain rfl := Option.some.inj (hw.symm.trans hq)
        rw [hx p hw hkind] at hm
        cases hm with
        | requested =>
          refine Or.inl ⟨?_, fun _ => Or.inr ⟨rfl, ?_⟩⟩
          · rw [begins_goto, begins_woken, hk]
          · show i < c.stepIdx + 1
            omega
        | error hk' | handoff hk' | handoffRaised hk' | aborted hk' | abortRaised hk' =>
          exact absurd (hkind.symm.trans hk') nofun
      · exact absurd (hw.symm.trans hn) nofun
  · refine Or.inr ⟨j, o, ?_, hij⟩
    rcases hm.begins with hb | hb
    · rw [hb, hj]
    · rw [hb, List.getElem?_append_left (List.getElem?_eq_some_iff.mp hj).1, hj]

/-- From a taken request on, the paused run is past the index. -/
theorem past_of_taken {n : ℕ} (h : Taken cfg env ρ P n) (hmin : ∀ m < n, ¬ Taken cfg env ρ P m)
    {m : ℕ} (hm : n + 1 ≤ m) :
    Past (execution cfg env (pausing ρ fun _ => false) n).begins.length
      (execution cfg env (pausing ρ fun _ => false) n).stepIdx
      (execution cfg env (pausing ρ P) m).toControl := by
  induction m, hm using Nat.le_induction with
  | base =>
    rw [execution_succ, execution_pausing hmin]
    obtain ⟨hp, hc, hh, hw, ⟨step, hs⟩, hg⟩ := h
    generalize execution cfg env (pausing ρ fun _ => false) n = s at hh hw hs hg ⊢
    have hnext : next cfg env (pausing ρ P n s) s = waitForResume cfg (requestedPause step) s := by
      have hcancel : ¬ (pausing ρ P n s).cancel = true := Bool.eq_false_iff.mp hg
      have hpause : ((pausing ρ P n s).pause && cfg.canPause) = true :=
        Bool.and_eq_true_iff.mpr ⟨hp, hc⟩
      rw [next_of_awake hh hw, head_of_stepAt _ _ hs, if_neg hcancel, if_pos hpause]
    rw [hnext, waitForResume_toControl]
    exact Or.inl ⟨by rw [begins_waitFor], fun _ => Or.inl ⟨_, rfl, rfl, le_rfl⟩⟩
  | succ m _ ih =>
    refine ih.move (fun p hp hk => ?_) (next_move cfg env _ _)
    change (match (execution cfg env (pausing ρ P) m).waiting with
      | some p => _
      | none => _) = _
    rw [hp]
    exact if_pos hk

/-- The run without pause requests begins the step at the head. -/
theorem begins_of_taken {n : ℕ} (h : Taken cfg env ρ P n) :
    (execution cfg env (pausing ρ fun _ => false) (n + 1)).begins =
      (execution cfg env (pausing ρ fun _ => false) n).begins ++
        [((execution cfg env (pausing ρ fun _ => false) n).stepIdx,
          (execution cfg env (pausing ρ fun _ => false) n).outputs)] := by
  rw [execution_succ]
  obtain ⟨-, -, hh, hw, ⟨step, hs⟩, hg⟩ := h
  generalize execution cfg env (pausing ρ fun _ => false) n = s at hh hw hs hg ⊢
  rw [next_of_awake hh hw]
  exact (head_move cfg env _ s).begins_of_goes hs ⟨hg, rfl⟩

/-- **A taken request changes the run**: the step at the head is begun without it only. -/
theorem not_sameRun_of_taken (h : ∃ n, Taken cfg env ρ P n) :
    ¬ SameRun (execution cfg env (pausing ρ P))
      (execution cfg env (pausing ρ fun _ => false)) := by
  classical
  intro hsame
  have hn : Taken cfg env ρ P (Nat.find h) := Nat.find_spec h
  have hmin : ∀ m < Nat.find h, ¬ Taken cfg env ρ P m := fun m hm => Nat.find_min h hm
  generalize Nat.find h = n at hn hmin
  have hbegun : ((execution cfg env (pausing ρ fun _ => false) (n + 1)).begins.map Prod.fst)[
      (execution cfg env (pausing ρ fun _ => false) n).begins.length]? =
      some (execution cfg env (pausing ρ fun _ => false) n).stepIdx := by
    rw [begins_of_taken hn, List.getElem?_map, List.getElem?_concat_length]
    rfl
  obtain ⟨m, hm⟩ := (hsame.executed _ _).mpr ⟨n + 1, hbegun⟩
  rw [List.getElem?_map, Option.map_eq_some_iff] at hm
  obtain ⟨⟨i, o⟩, hio, hi⟩ := hm
  rcases Nat.lt_or_ge n m with hlt | hge
  · -- after the pause
    rcases past_of_taken hn hmin hlt with ⟨hk, -⟩ | ⟨j, o', hj, hij⟩
    · rw [← hk, List.getElem?_eq_none (Nat.le_refl _)] at hio
      cases hio
    · obtain rfl := (Prod.mk.inj (Option.some.inj (hio.symm.trans hj))).1
      exact absurd hi hij.ne'
  · -- before the pause
    have hle := (begins_mono cfg env (pausing ρ fun _ => false) hge).length_le
    rw [execution_pausing fun k hk => hmin k (Nat.lt_of_lt_of_le hk hge),
      List.getElem?_eq_none hle] at hio
    cases hio

/-- **Main result.** The run with pause requests, each answered by `continue`, is the same as the
run without them iff no request is pending at a loop head that has a step left. -/
theorem sameRun_iff (cfg : Config) (env : Env) (ρ : Reaction) (P : ℕ → Bool) :
    SameRun (execution cfg env (pausing ρ P)) (execution cfg env (pausing ρ fun _ => false)) ↔
      ∀ n, ¬ Taken cfg env ρ P n := by
  constructor
  · intro h n hn
    exact not_sameRun_of_taken ⟨n, hn⟩ h
  · intro h
    have heq : execution cfg env (pausing ρ P) = execution cfg env (pausing ρ fun _ => false) := by
      funext n
      exact execution_pausing fun m _ => h m
    rw [heq]
    exact ⟨fun _ _ => Iff.rfl, fun _ _ => Iff.rfl, fun _ => Iff.rfl⟩

end Runs

/-! ## A skipped step -/

section Example

attribute [local instance] asciiText

/-- One step, in an execution that can be paused. -/
def clearOnce : Config where
  workflow :=
    { steps := [{ order := 1, order_pos := WorkflowStep.order_one, name := "Clear",
                  action := .clear }] }
  executionId := some "e"
  hasPauseQueue := true

/-- A browser that does what it is told. -/
def obedient : Env where
  answer _ _ := { result := .ok .none }
  clock _ := 0

/-- Nobody cancels, and there is no other pause to answer. -/
def alone : Reaction where
  cancel _ _ := false
  answer _ _ := none

/-- **A pause requested before the only step, and continued, skips the step.** -/
theorem pause_skips_step :
    ¬ SameRun (execution clearOnce obedient (pausing alone fun n => n = 0))
      (execution clearOnce obedient (pausing alone fun _ => false)) := by
  refine not_sameRun_of_taken ⟨0, by decide, by decide +kernel, by decide +kernel, ?_, ?_, rfl⟩
  · exact Option.isNone_iff_eq_none.mp (by decide +kernel)
  · exact Option.isSome_iff_exists.mp (by decide +kernel)

end Example

end ScoutEngine
