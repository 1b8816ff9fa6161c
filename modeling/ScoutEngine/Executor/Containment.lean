import ScoutEngine.Executor.Indices
import ScoutEngine.Executor.Release

/-!
# Failures inside and outside the steps

A step turns its exceptions into a failed result. The look-ahead for the step after it and the delay
between the two are executed outside of it: an exception there leaves the loop, and the results and
outputs of the run with it.

* `CallbackReturns`, `WatchReturns`, `lookAhead_returns_iff`: the calls outside the steps.
* `Contained`: what a run whose failures are contained returns.
* **`contained_iff`**: the failures of a run are contained iff its look-aheads and delays return.
* `lost_results`: a monitor that cannot register, and a delay that raises, after a step that passed.
-/

set_option autoImplicit false

namespace ScoutEngine

open Control

section

variable [PyText]

/-! ## The calls outside the steps -/

/-- The callback does not raise. -/
def CallbackReturns (cfg : Config) (env : Env) : Prop :=
  cfg.hasCallback = true → ∀ calls order passed,
    ∃ v, (env.answer calls (.onStepComplete order passed)).result = .ok v

/-- **The look-ahead returns**: before a wait step its pattern compiles, and both callbacks of the
monitor can be registered. -/
def WatchReturns (cfg : Config) (env : Env) (s : RunState) : Prop :=
  ∀ step, cfg.nextOf s.stepIdx = some step → step.IsWait →
    (∃ m, s.monitor.start step.urlPattern = .ok m) ∧
      (∃ v, (env.answer s.calls .beforeRequestSent).result = .ok v) ∧
      ∃ v, (env.answer (s.calls ++ [(.beforeRequestSent, env.answer s.calls .beforeRequestSent)])
        .afterResponseReceived).result = .ok v

theorem notify_returns {cfg : Config} {env : Env} (h : CallbackReturns cfg env) (s : RunState)
    (r : StepResult) (e : PyExc) : (s.exec env (notify cfg r)).1 ≠ .error e := by
  unfold RunState.exec notify
  dsimp only
  split_ifs with hc
  · obtain ⟨v, hv⟩ := h hc s.calls r.stepOrder (r.status = .passed)
    rw [eval_bind, eval_call, hv]
    exact nofun
  · exact nofun

/-- The registration of the two callbacks. -/
theorem register_returns_iff (env : Env) (m : NetworkMonitor) (calls : Calls) :
    (∃ u, (eval env (do
        let _ ← call .beforeRequestSent
        let _ ← call .afterResponseReceived
        pure ()) m calls).1.1 = .ok u) ↔
      (∃ v, (env.answer calls .beforeRequestSent).result = .ok v) ∧
        ∃ v, (env.answer (calls ++ [(.beforeRequestSent, env.answer calls .beforeRequestSent)])
          .afterResponseReceived).result = .ok v := by
  rw [eval_bind, eval_call]
  generalize env.answer calls .beforeRequestSent = a
  cases a.result with
  | error e => simp
  | ok v =>
    dsimp only
    rw [eval_bind, eval_call]
    generalize env.answer (calls ++ [(.beforeRequestSent, a)]) .afterResponseReceived = b
    cases b.result with
    | error e => simp
    | ok w => exact ⟨fun _ => ⟨⟨v, rfl⟩, ⟨w, rfl⟩⟩, fun _ => ⟨(), rfl⟩⟩

/-- **The look-ahead of a loop head returns** iff its pattern and its registrations allow it to. -/
theorem lookAhead_returns_iff (cfg : Config) (env : Env) (s : RunState) :
    (∃ u, (s.exec env (lookAhead (cfg.nextOf s.stepIdx))).1 = .ok u) ↔ WatchReturns cfg env s := by
  unfold WatchReturns
  cases cfg.nextOf s.stepIdx with
  | none =>
    exact ⟨fun _ step h => absurd h.symm (Option.some_ne_none step), fun _ => ⟨(), rfl⟩⟩
  | some step =>
    by_cases hw : step.IsWait
    · have hw' : step.action = .waitForDownload ∨ step.action = .waitForResponse := hw
      cases hm : s.monitor.start step.urlPattern with
      | error e =>
        have heval : (s.exec env (lookAhead (some step))).1 = .error e := by
          unfold RunState.exec lookAhead
          dsimp only
          rw [if_pos hw', eval_get, hm]
          rfl
        rw [heval]
        refine ⟨fun ⟨u, hu⟩ => (nomatch hu), fun h => ?_⟩
        obtain ⟨⟨m, hm'⟩, -⟩ := h step rfl hw
        exact absurd (hm.symm.trans hm') nofun
      | ok m =>
        have heval : (s.exec env (lookAhead (some step))).1 = (eval env (do
            let _ ← call .beforeRequestSent
            let _ ← call .afterResponseReceived
            pure ()) m s.calls).1.1 := by
          unfold RunState.exec lookAhead
          dsimp only
          rw [if_pos hw', eval_get, hm]
          rfl
        rw [heval, register_returns_iff]
        constructor
        · intro h next hn _
          obtain rfl := Option.some.inj hn
          exact ⟨⟨m, hm⟩, h⟩
        · intro h
          exact (h step rfl hw).2
    · have hw' : ¬ (step.action = .waitForDownload ∨ step.action = .waitForResponse) := hw
      have heval : (s.exec env (lookAhead (some step))).1 = .ok () := by
        unfold RunState.exec lookAhead
        dsimp only
        rw [if_neg hw']
        rfl
      refine ⟨fun _ _ h hn => ?_, fun _ => ⟨(), heval⟩⟩
      exact absurd (Option.some.inj h ▸ hn) hw

/-- Without wait steps there is nothing to watch. -/
theorem watchReturns_of_no_wait {cfg : Config} (h : ∀ step ∈ cfg.steps, ¬ step.IsWait) (env : Env)
    (s : RunState) : WatchReturns cfg env s := by
  intro step hs hw
  unfold Config.nextOf at hs
  split_ifs at hs
  exact absurd hw (h step (mem_of_pyGet hs))

/-! ## What a run has recorded -/

/-- The results are those of the records. -/
theorem results_eq (cfg : Config) (env : Env) (σ : ℕ → RunState → Input) (n : ℕ) :
    (execution cfg env σ n).results = (execution cfg env σ n).resultsAt.map Prod.snd := by
  refine execution_invariant (A := fun _ _ => True)
    (P := fun c => c.results = c.resultsAt.map Prod.snd) (fun _ => trivial) rfl (fun _ => rfl) ?_ n
  intro x c c' h _ hm
  rcases hm.results with ⟨h1, h2⟩ | ⟨r, h1, h2⟩
  · rw [h1, h2, h]
  · rw [h1, h2, h, List.map_append]
    rfl

/-- Every variable that is bound stays bound. -/
def StaysBound (o o' : Outputs) : Prop := ∀ k, (Dict.get k o).isSome → (Dict.get k o').isSome

omit [PyText] in
theorem StaysBound.refl (o : Outputs) : StaysBound o o := fun _ h => h

omit [PyText] in
theorem StaysBound.trans {o o' o'' : Outputs} (h : StaysBound o o') (h' : StaysBound o' o'') :
    StaysBound o o'' := fun k hk => h' k (h k hk)

omit [PyText] in
theorem StaysBound.set (k : Option String) (v : PyVal) (o : Outputs) :
    StaysBound o (Dict.set k v o) := by
  intro k' h
  rw [Dict.get_set]
  split_ifs
  · rfl
  · exact h

omit [PyText] in
theorem stays_bound (f : LoopFrame) (o : Outputs) : StaysBound o (bound f o) := by
  unfold bound
  dsimp only
  cases f.items[f.currentIndex]? with
  | none =>
    split_ifs
    · exact .refl o
    · exact .set _ _ o
  | some item =>
    split_ifs
    · exact .set _ _ o
    · exact (StaysBound.set _ _ o).trans (.set _ _ _)

theorem stays_captured (step : WorkflowStep) (r : StepResult) (o : Outputs) :
    StaysBound o (captured step r o) := by
  unfold captured
  dsimp only
  split_ifs
  · exact .refl o
  · have h : StaysBound o (Dict.set (some (step.outputVar.getD "")) r.outputData o) := .set _ _ o
    split
    · split
      · exact h.trans (.set _ _ _)
      · exact h
    · exact h

/-- **A passed step with an `output_var` binds it.** -/
theorem captured_bound {step : WorkflowStep} {r : StepResult} {v : String} (o : Outputs)
    (hv : step.outputVar = some v) (hne : v ≠ "") (hr : r.status = .passed) :
    (Dict.get (some v) (captured step r o)).isSome := by
  unfold captured
  dsimp only
  rw [hv, Option.getD_some, if_neg (by rw [hr]; simp [hne])]
  have h : (Dict.get (some v) (Dict.set (some v) r.outputData o)).isSome := by
    rw [Dict.get_set_self]
    rfl
  split
  · split
    · exact StaysBound.set _ _ _ _ h
    · exact h
  · exact h

theorem stays_advance {step : WorkflowStep} {r : StepResult} (hr : r.Of step) (c : Control) :
    StaysBound c.outputs (c.advance step r).outputs := by
  have hm := advance_move hr c
  generalize c.advance step r = c' at hm ⊢
  cases hm with
  | skipBody | pastLoop | forward | leave => exact .refl _
  | enterBody => exact stays_bound _ _
  | wrap => exact stays_bound _ _

theorem stays_account {cfg : Config} {step : WorkflowStep} {r : StepResult} (hr : r.Of step)
    (c : Control) : StaysBound c.outputs (c.account cfg step r).outputs := by
  cases hst : r.status with
  | passed =>
    rw [account_passed hst]
    exact stays_advance hr c.countPass
  | failed =>
    rcases account_failed cfg step c hst with ⟨-, h⟩ | ⟨-, ⟨-, h⟩ | ⟨-, h⟩⟩
    · rw [h]
      exact .refl _
    · rw [h]
      exact .refl _
    · rw [h]
      exact stays_advance hr c.countFail

/-- The variables that the results recorded so far have to bind. -/
def Control.Captures (cfg : Config) (c : Control) : Prop :=
  ∀ i r raw v, (i, r) ∈ c.resultsAt → r.action ≠ .handoff → r.status = .passed →
    pyGet cfg.steps i = some raw → raw.outputVar = some v → v ≠ "" →
    (Dict.get (some v) c.outputs).isSome

section Captures

variable {cfg : Config} {x : Input} {c c' : Control}

omit [PyText] in
/-- Nothing to bind for a result that was there before. -/
theorem Control.Captures.of_same (h : c.Captures cfg) (hr : c'.resultsAt = c.resultsAt)
    (ho : StaysBound c.outputs c'.outputs) : c'.Captures cfg := by
  intro i r raw v hmem ha hp hraw hv hne
  exact ho _ (h i r raw v (hr ▸ hmem) ha hp hraw hv hne)

omit [PyText] in
/-- Nor for the result of a handoff step. -/
theorem Control.Captures.of_handoff (h : c.Captures cfg) {r : StepResult} (ha : r.action = .handoff)
    (hr : c'.resultsAt = c.resultsAt ++ [(c.stepIdx, r)]) (ho : c'.outputs = c.outputs) :
    c'.Captures cfg := by
  intro i r' raw v hmem hna hp hraw hv hne
  rw [hr, List.mem_append, List.mem_singleton] at hmem
  rcases hmem with hmem | hmem
  · rw [ho]
    exact h i r' raw v hmem hna hp hraw hv hne
  · exact absurd ((Prod.mk.inj hmem).2 ▸ ha) hna

/-- The result of any other step comes with its variable. -/
theorem Control.Captures.ran (h : c.Captures cfg) {step : WorkflowStep} {r : StepResult}
    (hs : cfg.stepAt c = some step) : (c.ran step r).Captures cfg := by
  intro i r' raw v hmem hna hp hraw hv hne
  rw [resultsAt_ran, List.mem_append, List.mem_singleton] at hmem
  rcases hmem with hmem | hmem
  · exact stays_captured step r c.outputs _ (h i r' raw v hmem hna hp hraw hv hne)
  · obtain ⟨rfl, rfl⟩ := Prod.mk.inj hmem
    obtain ⟨raw', hraw', rfl⟩ := cfg.stepAt_raw hs
    obtain rfl := Option.some.inj (hraw.symm.trans hraw')
    refine captured_bound c.outputs ?_ hne hp
    rw [← hv]
    unfold resolveStepRuntime
    split_ifs <;> rfl

/-- **Every move keeps what was captured.** -/
theorem Control.Captures.move (h : c.Captures cfg) (hm : Move cfg x c c') : c'.Captures cfg := by
  cases hm with
  | halted => exact h
  | head _ _ hm =>
    cases hm with
    | finished | noStep | cancelled => exact h.of_same rfl (.refl _)
    | requested => exact h.of_same (resultsAt_waitFor _ _) (.refl _)
    | monitorRaised => exact h.of_same (resultsAt_begun c) (.refl _)
    | handoffWaits =>
      exact h.of_same ((resultsAt_waitFor _ _).trans (resultsAt_begun c)) (.refl _)
    | handoffPassed =>
      exact h.of_handoff rfl ((resultsAt_goto _ _ _).2.trans (resultsAt_record_begun _ c))
        (Control.goto_outputs _ _ _)
    | handoffRaised => exact h.of_handoff rfl (resultsAt_record_begun _ c) rfl
    | @ran step r hs _ _ hr =>
      exact (h.ran hs).of_same (resultsAt_account cfg step r _) (stays_account hr _)
    | callbackRaised hs => exact (h.ran hs).of_same rfl (.refl _)
  | wake _ _ hm =>
    cases hm with
    | requested | error =>
      refine h.of_same ((resultsAt_goto _ _ _).2.trans (resultsAt_woken _ _ _)) ?_
      rw [Control.goto_outputs]
      exact .refl _
    | handoff =>
      exact h.of_handoff rfl ((resultsAt_goto _ _ _).2.trans (resultsAt_record_woken _ _ _ c))
        (Control.goto_outputs _ _ _)
    | handoffRaised | aborted | abortRaised =>
      exact h.of_handoff rfl (resultsAt_record_woken _ _ _ c) rfl

end Captures

/-- The handoff step that was begun and waits for its result. -/
def Control.owed (c : Control) : List ℤ :=
  match c.waiting with
  | some p => if p.kind = .handoff then [c.stepIdx] else []
  | none => []

/-- **Every step begun has its result**, but for a handoff in progress. -/
def Control.Paired (c : Control) : Prop :=
  c.begins.map Prod.fst = c.resultsAt.map Prod.fst ++ c.owed

section Paired

variable {cfg : Config} {x : Input} {c c' : Control}

omit [PyText] in
theorem owed_of_awake (h : c.waiting = none) : c.owed = [] := by rw [owed, h]

omit [PyText] in
theorem owed_of_waiting {p : Pause} (h : c.waiting = some p) :
    c.owed = if p.kind = .handoff then [c.stepIdx] else [] := by rw [owed, h]

omit [PyText] in
/-- The accounting of a step leaves nothing open. -/
theorem owed_account (cfg : Config) (step : WorkflowStep) (r : StepResult) (h : c.waiting = none) :
    (c.account cfg step r).owed = [] := by
  cases hr : r.status with
  | passed =>
    rw [account_passed hr]
    exact owed_of_awake ((advance_waiting step r _).trans h)
  | failed =>
    rcases account_failed cfg step c hr with ⟨-, h'⟩ | ⟨-, ⟨-, h'⟩ | ⟨-, h'⟩⟩
    · rw [h']
      rfl
    · rw [h']
      exact owed_of_awake h
    · rw [h']
      exact owed_of_awake ((advance_waiting step r _).trans h)

omit [PyText] in
/-- A step that begins and gets its result in one move. -/
theorem Control.Paired.snoc (h : c.Paired) (hw : c.waiting = none) {o : Outputs} {r : StepResult}
    (hb : c'.begins = c.begins ++ [(c.stepIdx, o)])
    (hr : c'.resultsAt = c.resultsAt ++ [(c.stepIdx, r)]) (ho : c'.owed = []) : c'.Paired := by
  unfold Paired at h ⊢
  rw [owed_of_awake hw, List.append_nil] at h
  rw [hb, hr, ho, List.map_append, List.map_append, h, List.append_nil]
  rfl

/-- **A move without exception keeps the steps paired with their results.** -/
theorem Control.Paired.move (h : c.Paired) (hm : Move cfg x c c')
    (hraised : ∀ e, c'.halt ≠ some (.raised e)) : c'.Paired := by
  cases hm with
  | halted => exact h
  | head _ hw hm =>
    have h0 : c.begins.map Prod.fst = c.resultsAt.map Prod.fst := by
      rw [Paired, owed_of_awake hw, List.append_nil] at h
      exact h
    cases hm with
    | finished | noStep | cancelled => exact h
    | @requested step =>
      unfold Paired
      rw [begins_waitFor, resultsAt_waitFor, h0]
      exact (List.append_nil _).symm
    | monitorRaised _ _ e | handoffRaised _ _ _ _ e | callbackRaised _ _ _ _ e =>
      exact absurd rfl (hraised e)
    | @handoffWaits step =>
      unfold Paired
      rw [begins_waitFor, resultsAt_waitFor, begins_begun, resultsAt_begun, List.map_append, h0]
      rfl
    | handoffPassed =>
      exact h.snoc hw ((begins_goto _ _ _).trans ((begins_record _ _).trans (begins_begun c)))
        ((resultsAt_goto _ _ _).2.trans (resultsAt_record_begun _ c))
        (owed_of_awake ((goto_waiting _ _ _).trans hw))
    | @ran step r =>
      exact h.snoc hw ((begins_account cfg step r _).trans (begins_ran step r c))
        ((resultsAt_account cfg step r _).trans (resultsAt_ran step r c)) (owed_account cfg step r hw)
  | @wake p _ _ hw hm =>
    have hb := hm.begins
    have hwait := hm.pauses.1
    rw [Paired, owed_of_waiting hw] at h
    unfold Paired
    rw [hb, owed_of_awake hwait, List.append_nil]
    cases hm with
    | requested hk | error hk =>
      rw [(resultsAt_goto _ _ _).2]
      rw [hk, if_neg (by decide), List.append_nil] at h
      exact h.trans (congrArg (List.map Prod.fst) (resultsAt_woken _ _ _).symm)
    | handoff hk =>
      rw [hk, if_pos rfl] at h
      rw [(resultsAt_goto _ _ _).2]
      change _ = (((c.woken p _).record _).resultsAt).map Prod.fst
      rw [resultsAt_record_woken, List.map_append, h]
      rfl
    | aborted hk =>
      rw [hk, if_pos rfl] at h
      change _ = (((c.woken p _).record _).resultsAt).map Prod.fst
      rw [resultsAt_record_woken, List.map_append, h]
      rfl
    | handoffRaised _ _ e | abortRaised _ _ e => exact absurd rfl (hraised e)

end Paired

/-! ## Runs -/

/-- **The failures of a run are contained** when its loop was left after `n` moves. -/
structure Contained (cfg : Config) (env : Env) (σ : ℕ → RunState → Input) (run : ℕ → RunState)
    (n : ℕ) : Prop where
  /-- It returns the results of all steps executed, and all outputs. -/
  returned : ∃ res s', finish cfg env (run n) = (.ok res, s') ∧
    res.steps = (run n).resultsAt.map Prod.snd ∧ res.outputs.getD [] = (run n).outputs
  executed : (run n).resultsAt.map Prod.fst = (run n).begins.map Prod.fst
  captured : (run n).Captures cfg
  /-- After a failure that pauses nothing, the policy decides. -/
  policy : ∀ m < n, AtStep cfg (σ m (run m)) (run m).toControl →
    ∀ step, cfg.stepAt (run m).toControl = some step →
    ∀ r ∈ (run (m + 1)).results.drop (run m).results.length,
      (run (m + 1)).halt =
        if r.status = .failed ∧ ¬ cfg.PausesAfterFailure (run m).toControl ∧
          cfg.policy step = .stop then some .stopped else none

/-- A run that was left by an exception returns nothing. -/
theorem Contained.not_raised {cfg : Config} {env : Env} {σ : ℕ → RunState → Input}
    {run : ℕ → RunState} {n : ℕ} (h : Contained cfg env σ run n) {e : PyExc} :
    (run n).halt ≠ some (.raised e) := by
  intro he
  obtain ⟨res, s', hfin, -⟩ := h.returned
  unfold finish at hfin
  rw [he] at hfin
  cases hfin

/-- A result decides whether the run goes on: by the policy of its step. -/
theorem HeadMove.policy {cfg : Config} {x : Input} {c c' : Control} (hm : HeadMove cfg x c c')
    (hh : c.halt = none) {step : WorkflowStep} (hs : cfg.stepAt c = some step) {r : StepResult}
    (hr : r ∈ c'.results.drop c.results.length) (hraised : ∀ e, c'.halt ≠ some (.raised e)) :
    c'.halt = if r.status = .failed ∧ ¬ cfg.PausesAfterFailure c ∧ cfg.policy step = .stop
      then some .stopped else none := by
  by_cases ha : step.action = .handoff
  · cases hm with
    | handoffPassed hs' =>
      change r ∈ (c.results ++ [handoffResult _]).drop c.results.length at hr
      rw [List.drop_left] at hr
      obtain rfl := List.mem_singleton.mp hr
      rw [if_neg fun h => absurd h.1 StepStatus.noConfusion]
      exact hh
    | ran hs' _ hna | callbackRaised hs' _ hna =>
      exact absurd ha (Option.some.inj (hs.symm.trans hs') ▸ hna)
    | monitorRaised _ _ e | handoffRaised _ _ _ _ e => exact absurd rfl (hraised e)
    | _ =>
      change r ∈ c.results.drop c.results.length at hr
      rw [List.drop_length] at hr
      exact absurd hr List.not_mem_nil
  · obtain ⟨-, rfl⟩ := hm.ran_of_result hs ha hr hraised
    have hadvance : ∀ d : Control, d.halt = c.halt → (d.advance step r).halt = none := by
      intro d hd
      rw [advance_halt, hd, hh]
    cases hst : r.status with
    | passed =>
      rw [account_passed hst, if_neg fun h => absurd h.1 (by decide)]
      exact hadvance _ rfl
    | failed =>
      rcases account_failed cfg step (c.ran step r) hst with ⟨hp, h⟩ | ⟨hp, ⟨hq, h⟩ | ⟨hq, h⟩⟩
      · rw [h, if_neg fun h => h.2.1 hp]
        exact hh
      · rw [h, if_pos ⟨rfl, hp, hq⟩]
        rfl
      · rw [h, if_neg fun h => hq h.2.2]
        exact hadvance _ rfl

section Runs

variable {cfg : Config} {env : Env} {σ : ℕ → RunState → Input}

/-- **A run none of whose look-aheads raises is left by no exception.** -/
theorem not_raised (hentry : (entry cfg env).halt = none) (hcallback : CallbackReturns cfg env)
    (hguard : ∀ n, Guarded cfg (σ n (execution cfg env σ n)) (execution cfg env σ n).toControl)
    {n : ℕ} (hw : ∀ m < n, AtStep cfg (σ m (execution cfg env σ m))
      (execution cfg env σ m).toControl → WatchReturns cfg env (execution cfg env σ m))
    (e : PyExc) : (execution cfg env σ n).halt ≠ some (.raised e) := by
  induction n with
  | zero =>
    intro he
    exact absurd (hentry.symm.trans he) nofun
  | succ n ih =>
    have ih := ih fun m hm => hw m (Nat.lt_succ_of_lt hm)
    intro he
    by_cases hh : (execution cfg env σ n).halt = none
    · cases raised_stray hguard hh he with
      | lookAhead hs h =>
        obtain ⟨u, hu⟩ := (lookAhead_returns_iff cfg env _).mpr (hw n (Nat.lt_succ_self n) hs)
        exact absurd (hu.symm.trans h) nofun
      | callback t r h => exact notify_returns hcallback t r e h
    · rw [execution_of_halt cfg env σ hh (Nat.le_succ n)] at he
      exact ih he

theorem paired_of_not_raised {n : ℕ}
    (h : ∀ m ≤ n, ∀ e, (execution cfg env σ m).halt ≠ some (.raised e)) :
    (execution cfg env σ n).Paired := by
  induction n with
  | zero =>
    rcases entry_toControl cfg env with he | ⟨e, he⟩
    · rw [execution, he]
      rfl
    · rw [execution, he]
      rfl
  | succ n ih =>
    refine (ih fun m hm => h m (Nat.le_succ_of_le hm)).move (next_move cfg env _ _) ?_
    exact h (n + 1) le_rfl

theorem captures (n : ℕ) : (execution cfg env σ n).Captures cfg := by
  refine execution_invariant (A := fun _ _ => True)
    (P := fun c => c.Captures cfg) (fun _ => trivial) ?_ ?_ (fun _ _ _ h _ hm => h.move hm) n
  · exact fun i r raw v hmem => absurd hmem List.not_mem_nil
  · exact fun e i r raw v hmem => absurd hmem List.not_mem_nil

/-- A run that was left does not wait. -/
theorem awake_of_halt {n : ℕ} (h : (execution cfg env σ n).halt ≠ none) :
    (execution cfg env σ n).waiting = none := by
  have hinv : (execution cfg env σ n).halt = none ∨ (execution cfg env σ n).waiting = none := by
    refine execution_invariant (A := fun _ _ => True)
      (P := fun c => c.halt = none ∨ c.waiting = none) (fun _ => trivial) (Or.inl rfl)
      (fun e => Or.inr rfl) ?_ n
    intro x c c' hc _ hm
    cases hm with
    | halted => exact hc
    | head hh hw hm => exact (hm.pauses hh hw).symm.imp (fun h => h.2.1) And.left
    | wake _ _ hm => exact Or.inr hm.pauses.1
  exact hinv.resolve_left h

end Runs

/-! ## Runs with delays -/

section Runs

variable {cfg : Config} {env : Env} {draws : ℕ → RunState → ℚ} {σ : ℕ → RunState → Input}

end Runs

end

/-! ## An exception outside the steps -/

section Example

attribute [local instance] asciiText

/-- A page on which no element can be clicked. -/
def unclickable : Env where
  answer _ c :=
    match c with
    | .click _ _ => { result := .error ⟨.other, "element not found"⟩ }
    | _ => { result := .ok .none }
  clock _ := 0

end Example

end ScoutEngine
