import ScoutEngine.Executor.Monitor
import ScoutEngine.Executor.Trace

/-!
# The release of the browser

The `finally` block of the step loop stops the monitor, executes the cleanup steps, removes the
browser session and closes the driver. Human mode and the download directory are set up before the
`try`, after the driver was created.

* `Executes`: steps executed once each, in order; `Released`: what the `finally` block is for.
* `SetUpSucceeds`, `setUp_ok_iff`: the calls of the set-up that nothing protects.
* `finishOr`: the end of a run in which unregistering may raise.
* **`released_iff`**: the browser is released iff these calls do not raise.
* `human_mode_leaks`: a driver that is never closed.
-/

set_option autoImplicit false

namespace ScoutEngine

open Interaction Control

section

variable [PyText]

/-! ## What is to be released -/

/-- **The steps are executed once each, in order**: from a monitor and calls to others. -/
inductive Executes (env : Env) (o : StepOptions) :
    List WorkflowStep → NetworkMonitor × Calls → NetworkMonitor × Calls → Prop where
  | nil (w : NetworkMonitor × Calls) : Executes env o [] w w
  | cons {step : WorkflowStep} {rest : List WorkflowStep} {w w' : NetworkMonitor × Calls}
      (h : Executes env o rest (executeStep env o step w.1 w.2).2 w') :
      Executes env o (step :: rest) w w'

theorem cleanup_executes (cfg : Config) (env : Env) (steps : List WorkflowStep) (s : RunState) :
    Executes env cfg.cleanupOptions steps (s.monitor, s.calls)
      ((cleanup cfg env steps s).monitor, (cleanup cfg env steps s).calls) := by
  induction steps generalizing s with
  | nil => exact .nil _
  | cons step rest ih =>
    have h := ih { s with
      monitor := (executeStep env cfg.cleanupOptions step s.monitor s.calls).2.1
      calls := (executeStep env cfg.cleanupOptions step s.monitor s.calls).2.2 }
    exact .cons h

/-- The driver is closed. -/
def Call.isClose : Call → Bool
  | .closeDriver => true
  | _ => false

/-- **The browser of a run is released** on the way from the state `s`, in which its step loop or
its set-up was left, to the state `s'`, in which it returns or raises. -/
structure Released (cfg : Config) (env : Env) (s s' : RunState) : Prop where
  /-- The cleanup steps are attempted once each, in order, and then the driver is closed. -/
  cleanup : ∃ m calls a, Executes env cfg.cleanupOptions cfg.workflow.cleanupSteps
    (s.monitor.stop, s.calls) (m, calls) ∧ s'.calls = calls ++ [(.closeDriver, a)]
  stopped : s'.monitor.monitoring = false
  unregistered : Sessions.getSession cfg.id s'.sessions = none
  closedOnce : s'.calls.countP (fun c => c.1.isClose) = 1

/-- **The end of a run** in which unregistering the browser session may raise. -/
def finishOr (cfg : Config) (env : Env) (fault : Option PyExc) (s : RunState) :
    Except PyExc ExecutionResult × RunState :=
  match s.halt, fault with
  | some (.notStarted e), _ => (.error e, s)
  | _, none => finish cfg env s
  | _, some e =>
    if cfg.hasId then
      (.error e, ScoutEngine.cleanup cfg env cfg.workflow.cleanupSteps
        { s with monitor := s.monitor.stop })
    else finish cfg env s

/-! ## The set-up -/

/-- The calls made when the driver was created. -/
def driverCalls (cfg : Config) (env : Env) : Calls :=
  let c := Call.createDriver (cfg.headless.getD cfg.workflow.settings.headless)
  [(c, env.answer [] c)]

/-- The calls made when human mode was enabled, if it is to be. -/
def humanCalls (cfg : Config) (env : Env) : Calls :=
  if cfg.workflow.settings.humanMode then
    driverCalls cfg env ++ [(.enableHumanMode, env.answer (driverCalls cfg env) .enableHumanMode)]
  else driverCalls cfg env

/-- **Neither human mode nor the creation of the download directory raises.** -/
structure SetUpSucceeds (cfg : Config) (env : Env) : Prop where
  human : cfg.workflow.settings.humanMode = true →
    ∃ v, (env.answer (driverCalls cfg env) .enableHumanMode).result = .ok v
  downloads : ∃ v, (env.answer (humanCalls cfg env)
    (.makedirs (Path.join cfg.downloadDir cfg.dirName))).result = .ok v

omit [PyText] in
/-- An exception in a handler that returns is no exception. -/
theorem eval_tryCatch_pure {α : Type} (env : Env) (p : StepM α) (a : α) (m : NetworkMonitor)
    (calls : Calls) : ∃ b, (eval env (tryCatch p fun _ => pure a) m calls).1.1 = .ok b := by
  rw [eval_tryCatch]
  rcases eval env p m calls with ⟨⟨e | b, m'⟩, calls'⟩
  · exact ⟨a, rfl⟩
  · exact ⟨b, rfl⟩

/-- The download directory is set up iff it can be created. -/
theorem setupDownloadDir_ok_iff (env : Env) (dir : String) (m : NetworkMonitor) (calls : Calls) :
    (∃ u, (eval env (setupDownloadDir dir) m calls).1.1 = .ok u) ↔
      ∃ v, (env.answer calls (.makedirs dir)).result = .ok v := by
  unfold setupDownloadDir
  rw [eval_bind, eval_call]
  cases (env.answer calls (.makedirs dir)).result with
  | error e => simp
  | ok v =>
    simp only [Except.ok.injEq, exists_eq', iff_true]
    exact eval_tryCatch_pure _ _ _ _ _

/-- What follows the creation of the driver and human mode. -/
theorem downloads_ok_iff (cfg : Config) (env : Env) (m : NetworkMonitor) (calls : Calls) :
    (∃ i, (eval env (do
        setupDownloadDir (Path.join cfg.downloadDir cfg.dirName)
        if cfg.hasId then browserInfo cfg else pure none) m calls).1.1 = .ok i) ↔
      ∃ v, (env.answer calls (.makedirs (Path.join cfg.downloadDir cfg.dirName))).result = .ok v := by
  rw [← setupDownloadDir_ok_iff env _ m, eval_bind]
  rcases eval env (setupDownloadDir (Path.join cfg.downloadDir cfg.dirName)) m calls with
    ⟨⟨e | u, m'⟩, calls'⟩
  · simp
  · refine ⟨fun _ => ⟨u, rfl⟩, fun _ => ?_⟩
    dsimp only
    split_ifs
    · exact eval_tryCatch_pure _ _ _ _ _
    · exact ⟨none, rfl⟩

/-- **The set-up of a run whose driver is created** succeeds iff its unprotected calls do. -/
theorem setUp_ok_iff {cfg : Config} {env : Env} (hdriver : ∃ v, (env.answer []
      (.createDriver (cfg.headless.getD cfg.workflow.settings.headless))).result = .ok v) :
    (∃ i, (eval env (setUp cfg) {} []).1.1 = .ok i) ↔ SetUpSucceeds cfg env := by
  obtain ⟨v, hv⟩ := hdriver
  unfold setUp
  rw [eval_bind, eval_call, hv]
  change (∃ i, (eval env _ _ (driverCalls cfg env)).1.1 = .ok i) ↔ _
  cases hh : cfg.workflow.settings.humanMode with
  | false =>
    have hcalls : humanCalls cfg env = driverCalls cfg env := by
      rw [humanCalls, hh]
      rfl
    refine (downloads_ok_iff cfg env _ _).trans ⟨fun h => ⟨fun ht => ?_, hcalls ▸ h⟩,
      fun h => hcalls ▸ h.downloads⟩
    exact absurd (hh.symm.trans ht) Bool.false_ne_true
  | true =>
    have hcalls : humanCalls cfg env = driverCalls cfg env ++
        [(.enableHumanMode, env.answer (driverCalls cfg env) .enableHumanMode)] := by
      rw [humanCalls, hh]
      rfl
    rw [if_pos rfl, eval_bind, eval_call, ← hcalls]
    cases hres : (env.answer (driverCalls cfg env) .enableHumanMode).result with
    | error e =>
      refine ⟨fun ⟨i, hi⟩ => (nomatch hi), fun h => ?_⟩
      obtain ⟨v, hv⟩ := h.human hh
      rw [hres] at hv
      cases hv
    | ok v =>
      exact (downloads_ok_iff cfg env _ _).trans
        ⟨fun h => ⟨fun _ => ⟨v, hres⟩, h⟩, fun h => h.downloads⟩

/-! ## Runs that were started -/

omit [PyText] in
theorem goto_halt (n : ℕ) (v : PyVal) (c : Control) :
    (c.goto n v).halt = c.halt ∨ ∀ e, (c.goto n v).halt ≠ some (.notStarted e) := by
  cases v with
  | int i => exact Or.inl rfl
  | bool b => exact Or.inl rfl
  | float f =>
    refine Or.inr fun e => ?_
    unfold goto
    by_cases hf : f.ltInt n
    · simp only [if_pos hf]
      exact nofun
    · simp only [if_neg hf]
      exact nofun
  | none | str s | list xs | dict kvs => exact Or.inr nofun

/-- No move goes back to the set-up. -/
theorem Move.started {cfg : Config} {x : Input} {c c' : Control} (h : Move cfg x c c')
    (hc : ∀ e, c.halt ≠ some (.notStarted e)) (e : PyExc) : c'.halt ≠ some (.notStarted e) := by
  have hgoto : ∀ v (d : Control), d.halt = c.halt →
      (d.goto cfg.steps.length v).halt ≠ some (.notStarted e) := by
    intro v d hd
    rcases goto_halt cfg.steps.length v d with h | h
    · rw [h, hd]
      exact hc e
    · exact h e
  cases h with
  | halted => exact hc e
  | head _ _ h =>
    cases h with
    | finished | noStep | cancelled | monitorRaised | handoffRaised | callbackRaised => exact nofun
    | requested | handoffWaits => exact hc e
    | handoffPassed => exact hgoto _ _ rfl
    | @ran step r =>
      rcases account_halt cfg step r (c.ran step r) with h | h
      · rw [h]
        exact hc e
      · rw [h]
        exact nofun
  | wake _ _ h =>
    cases h with
    | requested | error | handoff => exact hgoto _ _ rfl
    | handoffRaised | aborted | abortRaised => exact nofun

section Runs

variable {cfg : Config} {env : Env} {σ : ℕ → RunState → Input}

theorem execution_started (h : (entry cfg env).halt = none) (n : ℕ) (e : PyExc) :
    (execution cfg env σ n).halt ≠ some (.notStarted e) := by
  induction n generalizing e with
  | zero =>
    intro he
    exact Option.some_ne_none _ (he.symm.trans h)
  | succ n ih => exact (next_move cfg env _ _).started ih e

/-- A run is started iff its set-up returns. -/
theorem entry_started_iff : (entry cfg env).halt = none ↔
    ∃ i, (eval env (setUp cfg) {} []).1.1 = .ok i := by
  unfold entry RunState.exec
  dsimp only
  rcases (eval env (setUp cfg) {} []).1.1 with e | _ | info
  · exact ⟨nofun, fun ⟨i, hi⟩ => (nomatch hi)⟩
  · exact ⟨fun _ => ⟨none, rfl⟩, fun _ => rfl⟩
  · refine ⟨fun _ => ⟨some info, rfl⟩, fun _ => ?_⟩
    dsimp only
    rw [publish_toControl]

/-- A run whose set-up raises is over. -/
theorem execution_of_not_started (h : (entry cfg env).halt ≠ none) (n : ℕ) :
    (∃ e, (entry cfg env).halt = some (.notStarted e)) ∧ execution cfg env σ n = entry cfg env := by
  refine ⟨?_, execution_of_halt cfg env σ (m := 0) h (Nat.zero_le n)⟩
  rcases entry_toControl cfg env with he | ⟨e, he⟩
  · exact absurd (congrArg Control.halt he) h
  · exact ⟨e, congrArg Control.halt he⟩

/-! ## The driver is not closed before -/

omit [PyText] in
theorem Browses.countP {calls calls' : Calls} (h : Browses calls calls') :
    calls'.countP (fun c => c.1.isClose) = calls.countP fun c => c.1.isClose := by
  obtain ⟨new, rfl, h⟩ := h
  have hnew : new.countP (fun c => c.1.isClose) = 0 := by
    refine List.countP_eq_zero.mpr fun c hc hclose => ?_
    cases hcall : c.1 with
    | closeDriver => exact h c hc hcall
    | _ =>
      rw [hcall] at hclose
      exact absurd hclose Bool.false_ne_true
  rw [List.countP_append, hnew, Nat.add_zero]

theorem cleanup_calls (cfg : Config) (env : Env) (steps : List WorkflowStep) (s : RunState) :
    (cleanup cfg env steps s).calls.countP (fun c => c.1.isClose) =
      s.calls.countP fun c => c.1.isClose := by
  induction steps generalizing s with
  | nil => rfl
  | cons step rest ih =>
    rw [cleanup, ih]
    exact (executeStep_browses env cfg.cleanupOptions step s.monitor s.calls).countP

theorem entry_calls : (entry cfg env).calls = (eval env (setUp cfg) {} []).2 := by
  unfold entry RunState.exec
  dsimp only
  rcases (eval env (setUp cfg) {} []).1.1 with e | _ | info
  · rfl
  · rfl
  · exact (RunState.publish_world _ _ _).2

/-- **No driver is closed in the step loop.** -/
theorem execution_calls (cfg : Config) (env : Env) (σ : ℕ → RunState → Input) (n : ℕ) :
    (execution cfg env σ n).calls.countP (fun c => c.1.isClose) = 0 := by
  have hkeep : Maintained cfg env fun s s' => s'.calls.countP (fun c => c.1.isClose) =
      s.calls.countP fun c => c.1.isClose :=
    { refl := fun _ => rfl
      trans := fun h h' => h'.trans h
      control := fun _ _ => rfl
      publish := fun s f => by rw [(RunState.publish_world cfg _ s).2]
      exec := fun s p hp => (hp.browses env s.monitor s.calls).countP
      step := fun s step => (executeStep_browses env cfg.options step s.monitor s.calls).countP }
  rw [hkeep.execution σ n, entry_calls]
  exact ((setUp_uses (w := True) cfg).browses env {} []).countP

omit [PyText] in
/-- Without an execution id there is no browser session. -/
theorem publish_of_no_id (hid : cfg.hasId = false) (f : String → Sessions → Sessions) (s : RunState) :
    s.publish cfg f = s := by
  rw [RunState.publish, hid]
  rfl

theorem execution_sessions (hid : cfg.hasId = false) (n : ℕ) :
    (execution cfg env σ n).sessions = [] := by
  have hkeep : Maintained cfg env fun s s' => s'.sessions = s.sessions :=
    { refl := fun _ => rfl
      trans := fun h h' => h'.trans h
      control := fun _ _ => rfl
      publish := fun s f => by rw [publish_of_no_id hid]
      exec := fun _ _ _ => rfl
      step := fun _ _ => rfl }
  refine (hkeep.execution σ n).trans ?_
  unfold entry RunState.exec
  dsimp only
  rcases (eval env (setUp cfg) {} []).1.1 with e | _ | info
  · rfl
  · rfl
  · dsimp only
    rw [publish_of_no_id hid]

/-! ## The `finally` block -/

/-- The cleanup steps, which have no monitor, leave it stopped. -/
theorem cleanup_monitoring (cfg : Config) (env : Env) (steps : List WorkflowStep) (s : RunState)
    (h : s.monitor.monitoring = false) : (cleanup cfg env steps s).monitor.monitoring = false := by
  induction steps generalizing s with
  | nil => exact h
  | cons step rest ih =>
    refine ih _ ?_
    obtain ⟨new, -, hm⟩ := executeStep_hears_deaf (o := cfg.cleanupOptions) rfl env step s.monitor
      s.calls
    dsimp only
    rw [hm]
    exact (NetworkMonitor.foldl_receive _ _).1.trans h

theorem cleanup_sessions (cfg : Config) (env : Env) (steps : List WorkflowStep) (s : RunState) :
    (cleanup cfg env steps s).sessions = s.sessions := by
  induction steps generalizing s with
  | nil => rfl
  | cons step rest ih => exact ih _

omit [PyText] in
theorem unregister_sessions {t : RunState} (h : cfg.hasId = false → t.sessions = []) :
    Sessions.getSession cfg.id (t.publish cfg fun id => Sessions.unregister id).sessions = none := by
  cases hid : cfg.hasId with
  | false =>
    rw [publish_of_no_id hid, h hid]
    rfl
  | true =>
    rw [RunState.publish, hid]
    exact (Dict.get_filter_ne cfg.id cfg.id t.sessions).trans (if_pos rfl)

/-- **The `finally` block releases the browser.** -/
theorem leave_released {s : RunState} (hclose : s.calls.countP (fun c => c.1.isClose) = 0)
    (hsessions : cfg.hasId = false → s.sessions = []) : Released cfg env s (leave cfg env s) := by
  have hexec := cleanup_executes cfg env cfg.workflow.cleanupSteps { s with monitor := s.monitor.stop }
  have hcount := cleanup_calls cfg env cfg.workflow.cleanupSteps
    { s with monitor := s.monitor.stop }
  have hmon := cleanup_monitoring cfg env cfg.workflow.cleanupSteps
    { s with monitor := s.monitor.stop } rfl
  have hses := cleanup_sessions cfg env cfg.workflow.cleanupSteps
    { s with monitor := s.monitor.stop }
  have hleave : leave cfg env s = ((ScoutEngine.cleanup cfg env cfg.workflow.cleanupSteps
      { s with monitor := s.monitor.stop }).publish cfg (fun id => Sessions.unregister id)
      |>.exec env (call .closeDriver)).2 := rfl
  rw [hleave]
  generalize ScoutEngine.cleanup cfg env cfg.workflow.cleanupSteps
    { s with monitor := s.monitor.stop } = t at hexec hcount hmon hses ⊢
  obtain ⟨hm, hc⟩ := RunState.publish_world cfg (fun id => Sessions.unregister id) t
  have hun := unregister_sessions (t := t) fun hid => hses.trans (hsessions hid)
  generalize t.publish cfg (fun id => Sessions.unregister id) = u at hm hc hun ⊢
  have hcalls : (u.exec env (call .closeDriver)).2.calls =
      t.calls ++ [(.closeDriver, env.answer t.calls .closeDriver)] := by
    rw [← hc]
    rfl
  refine ⟨⟨t.monitor, t.calls, _, hexec, hcalls⟩, ?_, hun, ?_⟩
  · exact (NetworkMonitor.foldl_receive _ _).1.trans (hm ▸ hmon)
  · have hcount' : t.calls.countP (fun c => c.1.isClose) = 0 := hcount.trans hclose
    rw [hcalls, List.countP_append, hcount']
    rfl

theorem finish_started {s : RunState} (h : ∀ e, s.halt ≠ some (.notStarted e)) :
    (finish cfg env s).2 = leave cfg env s := by
  unfold finish
  split
  · rename_i e he
    exact absurd he (h e)
  · rfl
  · rfl

/-- The end of a run whose step loop was entered. -/
theorem finishOr_started {s : RunState} (h : ∀ e, s.halt ≠ some (.notStarted e))
    (fault : Option PyExc) : (finishOr cfg env fault s).2 =
      if fault = none ∨ cfg.hasId = false then leave cfg env s
      else ScoutEngine.cleanup cfg env cfg.workflow.cleanupSteps
        { s with monitor := s.monitor.stop } := by
  unfold finishOr
  split
  · rename_i e he
    exact absurd he (h e)
  · rw [finish_started h, if_pos (Or.inl rfl)]
  · cases hid : cfg.hasId with
    | false =>
      rw [if_neg Bool.false_ne_true, finish_started h, if_pos (Or.inr rfl)]
    | true =>
      rw [if_pos rfl, if_neg (by simp)]

/-- **Main result.** Once the driver was created, the browser is released iff neither human mode nor
the creation of the download directory raises, and unregistering the browser session does not. -/
theorem released_iff (cfg : Config) (env : Env) (σ : ℕ → RunState → Input) (fault : Option PyExc)
    {n : ℕ} (hdriver : ∃ v, (env.answer []
      (.createDriver (cfg.headless.getD cfg.workflow.settings.headless))).result = .ok v)
    (_hleft : (execution cfg env σ n).halt ≠ none) :
    Released cfg env (execution cfg env σ n) (finishOr cfg env fault (execution cfg env σ n)).2 ↔
      SetUpSucceeds cfg env ∧ (fault = none ∨ cfg.hasId = false) := by
  have hcount := execution_calls cfg env σ n
  have hstarted : (entry cfg env).halt = none ↔ SetUpSucceeds cfg env :=
    entry_started_iff.trans (setUp_ok_iff hdriver)
  by_cases h : (entry cfg env).halt = none
  · rw [finishOr_started (execution_started h n)]
    split_ifs with hf
    · exact ⟨fun _ => ⟨hstarted.mp h, hf⟩, fun _ => leave_released hcount fun hid =>
        execution_sessions hid n⟩
    · refine ⟨fun hr => ?_, fun hs => absurd hs.2 hf⟩
      have hone := hr.closedOnce
      rw [cleanup_calls] at hone
      exact absurd (hcount.symm.trans hone) Nat.zero_ne_one
  · obtain ⟨⟨e, he⟩, hn⟩ := execution_of_not_started (σ := σ) h n
    rw [← hn] at he
    have hfinish : finishOr cfg env fault (execution cfg env σ n) =
        (.error e, execution cfg env σ n) := by
      unfold finishOr
      rw [he]
    rw [hfinish]
    refine ⟨fun hr => absurd (hcount.symm.trans hr.closedOnce) Nat.zero_ne_one, fun hs => ?_⟩
    exact absurd (hstarted.mpr hs.1) h

end Runs

end

/-! ## Leaks -/

section Example

attribute [local instance] asciiText

/-- One step, executed in human mode, with a cleanup step. -/
def humanRun : Config where
  workflow :=
    { steps := [{ order := 1, order_pos := WorkflowStep.order_one, name := "Clear",
                  action := .clear }]
      cleanupSteps := [{ order := 1, order_pos := WorkflowStep.order_one, name := "Log out",
                         action := .click }] }
  executionId := some "e"

/-- A browser in which everything fails but its creation. -/
def crashing : Env where
  answer _ c :=
    match c with
    | .createDriver _ => { result := .ok .none }
    | _ => { result := .error ⟨.other, "disconnected"⟩ }
  clock _ := 0

/-- A browser in which every step fails. -/
def unresponsive : Env where
  answer _ c :=
    match c with
    | .clear _ _ | .click _ _ | .closeDriver => { result := .error ⟨.other, "timeout"⟩ }
    | _ => { result := .ok .none }
  clock _ := 0

/-- A browser in which every step and the closing itself fail is released. -/
theorem released_iff_unresponsive :
    Released humanRun unresponsive (execution humanRun unresponsive (fun _ _ => {}) 1)
        (finishOr humanRun unresponsive none (execution humanRun unresponsive (fun _ _ => {}) 1)).2 ↔
      SetUpSucceeds humanRun unresponsive ∧ ((none : Option PyExc) = none ∨ humanRun.hasId = false) :=
  released_iff humanRun unresponsive (fun _ _ => {}) none ⟨.none, rfl⟩ (by decide +kernel)

/-- **A driver that cannot be put into human mode is never closed.** -/
theorem human_mode_leaks : (∃ v, (crashing.answer [] (.createDriver false)).result = .ok v) ∧
    (execution humanRun crashing (fun _ _ => {}) 0).halt ≠ none ∧
    ¬ Released humanRun crashing (execution humanRun crashing (fun _ _ => {}) 0)
      (finishOr humanRun crashing none (execution humanRun crashing (fun _ _ => {}) 0)).2 := by
  refine ⟨⟨.none, rfl⟩, by decide +kernel, fun h => ?_⟩
  have hnone : (finishOr humanRun crashing none (execution humanRun crashing
      (fun _ _ => {}) 0)).2.calls.countP (fun c => c.1.isClose) = 0 := by
    decide +kernel
  exact absurd (hnone.symm.trans h.closedOnce) Nat.zero_ne_one

end Example

end ScoutEngine
