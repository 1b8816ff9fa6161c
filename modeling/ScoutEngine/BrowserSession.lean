import ScoutEngine.Value

/-!
# The browser-session registry

`services/browser_session.py`: the entry of an execution while its browser is alive. The time
stamps of the entries, which no function reads, are left out.

* `register`, `getSession`, `updateStep`, `setPaused`, `setRunning`, `unregister`.
* `get_alter`: an update touches the entry of its own execution only.
-/

set_option autoImplicit false

namespace ScoutEngine

/-- The states of a browser session. -/
inductive SessionState where
  | running | pausedHandoff | pausedError | pausedRequested
  deriving DecidableEq, Repr

/-- The name of a session state. -/
def SessionState.name : SessionState → String
  | running => "running"
  | pausedHandoff => "paused_handoff"
  | pausedError => "paused_error"
  | pausedRequested => "paused_requested"

/-- Live progress of the currently executing step. -/
structure StepProgress where
  stepOrder : ℕ
  stepName : String
  action : String
  deriving DecidableEq

/-- Context about the step where execution paused. -/
structure PausedStepInfo where
  stepOrder : ℕ
  stepName : String
  action : String
  reason : Option String := none
  error : Option String := none
  deriving DecidableEq

/-- CDP connection info for an in-flight browser session. -/
structure BrowserSessionInfo where
  executionId : String
  cdpHost : PyVal
  cdpPort : PyVal
  cdpWebsocketUrl : PyVal
  targetsUrl : String
  devtoolsFrontendUrl : String
  currentStep : Option StepProgress := none
  state : SessionState := .running
  pausedAtStep : Option PausedStepInfo := none

/-- The module-level `_registry`. -/
abbrev Sessions := Dict String BrowserSessionInfo

namespace Sessions

/-- Change the entry of an execution, if there is one. -/
def alter (id : String) (f : BrowserSessionInfo → BrowserSessionInfo) (r : Sessions) : Sessions :=
  match Dict.get id r with
  | some info => Dict.set id (f info) r
  | none => r

/-- `register`. -/
def register (id : String) (info : BrowserSessionInfo) (r : Sessions) : Sessions := Dict.set id info r

/-- `get_session`. -/
def getSession (id : String) (r : Sessions) : Option BrowserSessionInfo := Dict.get id r

/-- `update_step`. -/
def updateStep (id : String) (step : Option StepProgress) : Sessions → Sessions :=
  alter id fun info => { info with currentStep := step }

/-- `set_paused`. -/
def setPaused (id : String) (state : SessionState) (step : PausedStepInfo) : Sessions → Sessions :=
  alter id fun info => { info with state := state, pausedAtStep := some step, currentStep := none }

/-- `set_running`. -/
def setRunning (id : String) : Sessions → Sessions :=
  alter id fun info => { info with state := .running, pausedAtStep := none }

/-- `unregister`. -/
def unregister (id : String) (r : Sessions) : Sessions := r.filter (·.1 ≠ id)

theorem get_alter (id id' : String) (f : BrowserSessionInfo → BrowserSessionInfo) (r : Sessions) :
    getSession id' (alter id f r) =
      if id = id' then (getSession id' r).map f else getSession id' r := by
  unfold alter getSession
  cases h : Dict.get id r with
  | none =>
    split_ifs with hid
    · rw [← hid, h]
      rfl
    · rfl
  | some info =>
    dsimp only
    rw [Dict.get_set]
    split_ifs with hid
    · rw [← hid, h]
      rfl
    · rfl

end Sessions

end ScoutEngine
