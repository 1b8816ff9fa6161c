import ScoutEngine.Executor.Control

/-!
# The step loop

`execute_workflow` as a machine that moves from one loop head, or one wait for a resume
instruction, to the next.

* `Config`: the arguments of `execute_workflow`; `RunState`: the variables and the outside world.
* `head`, `wake`, `next`: one move; `Input`: what the other threads contribute to it.
* `entry`: the set-up; `execution`: the state after `n` moves; `finish`: the `finally` block and
  the result.

A delay that returns leaves nothing behind; `Executor.Delays` has those whose `time.sleep` raises.
-/

set_option autoImplicit false

namespace ScoutEngine

open Interaction

variable [PyText]

/-! ## Configuration and state -/

/-- The arguments of `execute_workflow`. -/
structure Config where
  workflow : Workflow
  headless : Option Bool := none
  hasCallback : Bool := false
  downloadDir : String := "./downloads"
  executionId : Option String := none
  hasPauseQueue : Bool := false
  screenshotDir : String := ""

namespace Config

/-- The main steps. -/
abbrev steps (cfg : Config) : List WorkflowStep := cfg.workflow.steps

/-- The execution id, as text. -/
def id (cfg : Config) : String := cfg.executionId.getD ""

/-- `execution_id` is given. -/
def hasId (cfg : Config) : Bool := cfg.id ≠ ""

/-- `pause_queue and execution_id`. -/
def canPause (cfg : Config) : Bool := cfg.hasPauseQueue && cfg.hasId

/-- `execution_id or "default"`. -/
def dirName (cfg : Config) : String := if cfg.hasId then cfg.id else "default"

/-- The options of the main steps. -/
def options (cfg : Config) : StepOptions :=
  { defaultTimeout := cfg.workflow.settings.defaultTimeoutMs
    humanMode := cfg.workflow.settings.humanMode
    hasMonitor := true
    screenshotDir :=
      if cfg.screenshotDir = "" then none else some (Path.join cfg.screenshotDir cfg.dirName) }

/-- The options of the cleanup steps. -/
def cleanupOptions (cfg : Config) : StepOptions :=
  { cfg.options with hasMonitor := false, screenshotDir := none }

/-- The effective `on_error` policy, with `retry` turned into `stop`. -/
def policy (cfg : Config) (step : WorkflowStep) : OnError :=
  match step.onError.getD cfg.workflow.settings.onError with
  | .retry => .stop
  | p => p

/-- The step that the look-ahead at an index sees. -/
def nextOf (cfg : Config) (i : ℤ) : Option WorkflowStep :=
  if i + 1 < cfg.steps.length then pyGet cfg.steps (i + 1) else none

end Config

/-- **The state of a run**: the variables, the monitor, the session registry with every content it
has shown, and the calls made so far. -/
structure RunState extends Control where
  monitor : NetworkMonitor := {}
  sessions : Sessions := []
  published : List Sessions := []
  calls : Calls := []

namespace RunState

/-- Change the variables. -/
def control (f : Control → Control) (s : RunState) : RunState := { s with toControl := f s.toControl }

/-- Change the registry entry of this execution, if it has an id. -/
def publish (cfg : Config) (f : String → Sessions → Sessions) (s : RunState) : RunState :=
  if cfg.hasId then
    { s with sessions := f cfg.id s.sessions, published := s.published ++ [f cfg.id s.sessions] }
  else s

/-- Run a program of calls. -/
def exec {α : Type} (env : Env) (p : StepM α) (s : RunState) : Except PyExc α × RunState :=
  let r := eval env p s.monitor s.calls
  (r.1.1, { s with monitor := r.1.2, calls := r.2 })

/-- Run a program of calls and go on; an exception leaves the step loop. -/
def andThen (env : Env) (p : StepM Unit) (k : RunState → RunState) (s : RunState) : RunState :=
  match s.exec env p with
  | (.ok _, s) => k s
  | (.error e, s) => s.control (Control.stop (.raised e))

end RunState

open RunState

/-! ## Pieces of the loop body -/

/-- `_wait_for_resume`, up to its wait. -/
def waitForResume (cfg : Config) (p : Pause) (s : RunState) : RunState :=
  (s.publish cfg fun id => Sessions.setPaused id p.kind.state p.info).control (Control.waitFor p)

/-- `on_step_complete`. -/
def notify (cfg : Config) (r : StepResult) : StepM Unit := do
  if cfg.hasCallback then
    let _ ← call (.onStepComplete r.stepOrder (r.status = .passed))

/-- The network monitor look-ahead. -/
def lookAhead (nextStep : Option WorkflowStep) : StepM Unit := do
  match nextStep with
  | none => pure ()
  | some step =>
    if step.action = .waitForDownload ∨ step.action = .waitForResponse then
      let m ← get
      match m.start step.urlPattern with
      | .error e => throw e
      | .ok m =>
        set m
        let _ ← call .beforeRequestSent
        let _ ← call .afterResponseReceived

/-- Show the step in progress. -/
def showStep (cfg : Config) (step : WorkflowStep) : RunState → RunState :=
  RunState.publish cfg fun id => Sessions.updateStep id
    (some { stepOrder := step.order, stepName := step.name, action := step.action.name })

/-- Show that no step is in progress. -/
def showIdle (cfg : Config) : RunState → RunState :=
  RunState.publish cfg fun id => Sessions.updateStep id none

/-- The result of a handoff step. -/
def handoffResult (step : WorkflowStep) : StepResult :=
  { stepOrder := step.order, stepName := step.name, action := .handoff, status := .passed }

/-- The result of a handoff step that was aborted. -/
def abortedResult (step : WorkflowStep) : StepResult :=
  { handoffResult step with status := .failed, error := some "Aborted during handoff" }

/-- The rest of a handoff step, going to `newIdx`. -/
def endHandoff (cfg : Config) (env : Env) (step : WorkflowStep) (newIdx : PyVal) (s : RunState) :
    RunState :=
  let r := handoffResult step
  (s.control (Control.passHandoff r)).andThen env (notify cfg r) fun s =>
    (showIdle cfg s).control (Control.goto cfg.steps.length newIdx)

/-- The rest of a handoff step that was aborted. -/
def abortHandoff (cfg : Config) (env : Env) (step : WorkflowStep) (s : RunState) : RunState :=
  let r := abortedResult step
  (s.control (Control.record r)).andThen env (notify cfg r) fun s =>
    s.control (Control.stop .cancelled)

/-- The pause of a handoff step. -/
def handoffPause (step : WorkflowStep) : Pause :=
  let reason := if step.value.getD "" = "" then "Handoff to agent" else step.value.getD ""
  { kind := .handoff, step := step, reason := some reason }

/-- The pause after a failed step. -/
def errorPause (step : WorkflowStep) (r : StepResult) : Pause :=
  { kind := .error, step := step, reason := some "Step failed", error := r.error }

/-- The pause that `POST /pause` asks for. -/
def requestedPause (step : WorkflowStep) : Pause :=
  { kind := .requested, step := step, reason := some "Developer-requested pause" }

/-- A handoff step. -/
def handoff (cfg : Config) (env : Env) (step : WorkflowStep) (s : RunState) : RunState :=
  let s := showStep cfg step s
  if cfg.canPause then waitForResume cfg (handoffPause step) s
  else endHandoff cfg env step (.int (s.stepIdx + 1)) s

/-- The accounting of a result, and the pause or the policy after a failure. -/
def account (cfg : Config) (step : WorkflowStep) (r : StepResult) (s : RunState) : RunState :=
  match r.status with
  | .passed => s.control fun c => c.countPass.advance step r
  | .failed =>
    let s := s.control Control.countFail
    if cfg.workflow.settings.pauseOnError ∧ cfg.canPause ∧ s.stepIdx ∉ s.paused then
      waitForResume cfg (errorPause step r)
        (s.control fun c => { c with paused := insert c.stepIdx c.paused })
    else
      match cfg.policy step with
      | .stop => s.control (Control.stop .stopped)
      | _ => s.control (Control.advance step r)

/-- A step that is executed; `after` is what follows its result. -/
def normalStep (cfg : Config) (env : Env) (step : WorkflowStep)
    (after : StepResult → RunState → RunState) (s : RunState) : RunState :=
  let s := showStep cfg step s
  let r := executeStep env cfg.options step s.monitor s.calls
  let s := { s with monitor := r.2.1, calls := r.2.2 }
  let s := s.control fun c => (c.record r.1).capture step r.1
  (showIdle cfg s).andThen env (notify cfg r.1) (after r.1)

/-- A main step begins. -/
def beginStep (cfg : Config) (env : Env) (step : WorkflowStep)
    (after : StepResult → RunState → RunState) (s : RunState) : RunState :=
  let nextStep :=
    if s.stepIdx + 1 < cfg.steps.length then pyGet cfg.steps (s.stepIdx + 1) else none
  (s.control Control.begun).andThen env (lookAhead nextStep)
    (if step.action = .handoff then handoff cfg env step else normalStep cfg env step after)

/-! ## Moves -/

/-- What the other threads contribute to a move: whether the cancel event and the pause event are
set when the loop head looks at them, and what a wait gets (`none`: it times out). -/
structure Input where
  cancel : Bool := false
  pause : Bool := false
  resume : Option ResumeInstruction := none

/-- The loop head. -/
def head (cfg : Config) (env : Env) (x : Input) (s : RunState) : RunState :=
  if s.stepIdx < cfg.steps.length then
    match pyGet cfg.steps s.stepIdx with
    | none => s.control (Control.raised .indexError "list index out of range")
    | some raw =>
      let step := resolveStepRuntime raw s.outputs
      if x.cancel then s.control (Control.stop .cancelled)
      else if x.pause && cfg.canPause then waitForResume cfg (requestedPause step) s
      else beginStep cfg env step (account cfg step) s
  else s.control (Control.stop .finished)

/-- `_wait_for_resume` after its wait, and what its caller does next; a timeout aborts. -/
def wake (cfg : Config) (env : Env) (p : Pause) (x : Input) (s : RunState) : RunState :=
  let instruction := x.resume.getD { action := .abort }
  let s := (s.publish cfg fun id => Sessions.setRunning id).control (Control.woken p instruction)
  let newIdx := applyResume instruction s.stepIdx
  match p.kind with
  | .requested => s.control (Control.goto cfg.steps.length newIdx)
  | .handoff =>
    if newIdx.isNone then abortHandoff cfg env p.step s
    else endHandoff cfg env p.step newIdx s
  | .error =>
    (s.control (Control.setRetrying instruction)).control (Control.goto cfg.steps.length newIdx)

/-- **One move**: to the next loop head, to a wait, or out of the loop. -/
def next (cfg : Config) (env : Env) (x : Input) (s : RunState) : RunState :=
  match s.halt with
  | some _ => s
  | none =>
    match s.waiting with
    | some p => wake cfg env p x s
    | none => head cfg env x s

/-! ## Runs -/

/-- `_setup_download_dir`. -/
def setupDownloadDir (dir : String) : StepM Unit := do
  let _ ← call (.makedirs dir)
  tryCatch
    (do
      let path ← call (.realpath (some dir))
      let _ ← call (.cdp "Browser.setDownloadBehavior" [("behavior", .str "allowAndName"),
        ("downloadPath", path), ("eventsEnabled", .bool true)])
      pure ())
    fun _ => pure ()

/-- The connection info of the browser; a failure to read it is only logged. -/
def browserInfo (cfg : Config) : StepM (Option BrowserSessionInfo) :=
  tryCatch
    (do
      let host ← call (.browserAttr "config.host")
      let port ← call (.browserAttr "config.port")
      let ws ← call (.browserAttr "websocket_url")
      let base := "http://" ++ host.toStr ++ ":" ++ port.toStr
      pure (some
        { executionId := cfg.id, cdpHost := host, cdpPort := port, cdpWebsocketUrl := ws
          targetsUrl := base ++ "/json/list", devtoolsFrontendUrl := base }))
    fun _ => pure none

/-- What `_run_sync` does before its step loop. -/
def setUp (cfg : Config) : StepM (Option BrowserSessionInfo) := do
  let _ ← call (.createDriver (cfg.headless.getD cfg.workflow.settings.headless))
  if cfg.workflow.settings.humanMode then
    let _ ← call .enableHumanMode
  setupDownloadDir (Path.join cfg.downloadDir cfg.dirName)
  if cfg.hasId then browserInfo cfg else pure none

/-- The state at the first loop head. -/
def entry (cfg : Config) (env : Env) : RunState :=
  match RunState.exec env (setUp cfg) {} with
  | (.error e, s) => s.control (Control.stop (.notStarted e))
  | (.ok none, s) => s
  | (.ok (some info), s) => s.publish cfg fun id => Sessions.register id info

/-- **The state after `n` moves**; the other threads may react to everything that happened. -/
def execution (cfg : Config) (env : Env) (σ : ℕ → RunState → Input) : ℕ → RunState
  | 0 => entry cfg env
  | n + 1 => next cfg env (σ n (execution cfg env σ n)) (execution cfg env σ n)

/-- The status of an execution result. -/
inductive RunStatus where
  | completed | failed | cancelled
  deriving DecidableEq, Repr

/-- Result of executing an entire workflow. -/
structure ExecutionResult where
  status : RunStatus
  passed : ℤ := 0
  failed : ℤ := 0
  totalMs : ℕ := 0
  steps : List StepResult := []
  error : Option String := none
  outputs : Option Outputs := none

/-- The cleanup steps, one after the other. -/
def cleanup (cfg : Config) (env : Env) : List WorkflowStep → RunState → RunState
  | [], s => s
  | step :: rest, s =>
    let r := executeStep env cfg.cleanupOptions step s.monitor s.calls
    cleanup cfg env rest { s with monitor := r.2.1, calls := r.2.2 }

/-- The `finally` block. -/
def leave (cfg : Config) (env : Env) (s : RunState) : RunState :=
  let s := cleanup cfg env cfg.workflow.cleanupSteps { s with monitor := s.monitor.stop }
  let s := s.publish cfg fun id => Sessions.unregister id
  (s.exec env (call .closeDriver)).2

/-- The final status. -/
def finalStatus (s : RunState) : RunStatus :=
  if s.halt = some .cancelled then .cancelled else if s.failed = 0 then .completed else .failed

/-- The returned result. -/
def result (env : Env) (s : RunState) : ExecutionResult :=
  { status := finalStatus s
    passed := s.passed
    failed := s.failed
    totalMs := env.clock s.calls
    steps := s.results
    outputs := if s.outputs.isEmpty then none else some s.outputs }

/-- **What `execute_workflow` returns or raises** once its loop was left. -/
def finish (cfg : Config) (env : Env) (s : RunState) : Except PyExc ExecutionResult × RunState :=
  match s.halt with
  | some (.notStarted e) => (.error e, s)
  | some (.raised e) => (.error e, leave cfg env s)
  | _ => (.ok (result env (leave cfg env s)), leave cfg env s)

end ScoutEngine
