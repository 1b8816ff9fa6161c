import ScoutEngine.Executor.Trace
import ScoutEngine.Lib.Transition

/-!
# One execution in the service

The request handlers, the background task, the executor thread and the database row of one
execution, as a transition system. Everything that happens between two points at which another
party can act is one action.

* `Row`, `commitColumn`: the row; a session commits the columns it changed.
* `Task`: where `_run_execution` is; `StopRequest`, `ResumeRequest`: where a request is.
* `Service`, `Act`, **`Service.step`**; `service`: the system.

The registries keep one entry for each execution id; here they are the entry of this execution.
-/

set_option autoImplicit false

namespace ScoutEngine

open Transition

/-! ## The row of an execution -/

/-- The status of an execution. -/
inductive Status where
  | pending | running | completed | failed | cancelled
  deriving DecidableEq, Repr

/-- The execution is over. -/
def Status.Final (st : Status) : Prop := st = .completed ∨ st = .failed ∨ st = .cancelled

instance (st : Status) : Decidable st.Final := inferInstanceAs (Decidable (_ ∨ _ ∨ _))

/-- The status that a result is stored with. -/
def RunStatus.status : RunStatus → Status
  | .completed => .completed
  | .failed => .failed
  | .cancelled => .cancelled

/-- A row of `executions`. -/
structure Row where
  status : Status := .pending
  passedSteps : ℤ := 0
  failedSteps : ℤ := 0
  errorMessage : Option String := none
  outputs : Option Outputs := none

/-- A column after a commit: it is written when it differs from what the session has read. -/
def commitColumn {α : Type} [DecidableEq α] (read new current : α) : α :=
  if new = read then current else new

/-- `execution.status = new` and a commit. -/
def Row.setStatus (read : Row) (new : Status) (current : Row) : Row :=
  { current with status := commitColumn read.status new current.status }

/-- `final_status` of `_run_execution`: a status that was read as `cancelled` stays. -/
def Row.finalStatus (read : Row) (res : ExecutionResult) : Status :=
  if read.status = .cancelled then read.status else res.status.status

/-- Session 2 of `_run_execution`. -/
def Row.store (read : Row) (res : ExecutionResult) (current : Row) : Row :=
  { status := commitColumn read.status (read.finalStatus res) current.status
    errorMessage :=
      commitColumn read.errorMessage
        (if read.status = .cancelled ∨ res.error.getD "" = "" then read.errorMessage else res.error)
        current.errorMessage
    passedSteps := commitColumn read.passedSteps res.passed current.passedSteps
    failedSteps := commitColumn read.failedSteps res.failed current.failedSteps
    outputs := if (res.outputs.getD []).isEmpty then current.outputs else res.outputs }

/-! ## The parties -/

/-- Where `_run_execution` is. -/
inductive Task where
  /-- `run_workflow` has not committed the row. -/
  | absent
  | scheduled
  /-- Session 1 has read the row. -/
  | marking (read : Row)
  | marked
  /-- The cancel event is registered. -/
  | cancellable
  /-- The pause handle is registered too. -/
  | ready
  /-- The executor thread runs. -/
  | running
  | returned (res : ExecutionResult)
  /-- The cancel event is unregistered. -/
  | closing (res : ExecutionResult)
  /-- The pause handle is unregistered too. -/
  | closed (res : ExecutionResult)
  /-- Session 2 has read the row. -/
  | writing (read : Row) (res : ExecutionResult)
  | done (finalStatus : Status)

/-- The step loop was left. -/
def Task.Over : Task → Prop
  | .returned _ | .closing _ | .closed _ | .writing _ _ | .done _ => True
  | _ => False

instance : (t : Task) → Decidable t.Over
  | .returned _ | .closing _ | .closed _ | .writing _ _ | .done _ => .isTrue trivial
  | .absent | .scheduled | .marking _ | .marked | .cancellable | .ready | .running => .isFalse id

/-- Where a stop request is. -/
inductive StopRequest where
  | sent
  /-- The row was read, and the execution can be stopped. -/
  | accepted (read : Row)
  /-- The cancel event was signalled, if there was one. -/
  | signalled (read : Row)
  | stopped
  | refused

/-- Where a resume request is. The pauses of a run are numbered. -/
inductive ResumeRequest where
  | sent
  /-- The queue was found. -/
  | found (instruction : ResumeInstruction)
  /-- The instruction is in the queue; it was put there during this pause. -/
  | acknowledged (during : Option ℕ)
  /-- A pause has taken it. -/
  | consumed (during : Option ℕ) (pause : ℕ)
  | refused

/-- What `_run_execution` is given, and the outside world. -/
structure Job where
  executionId : String
  named : executionId ≠ ""
  /-- `resolve_variables`: the resolved workflow or the text of the error. -/
  workflow : Except String Workflow
  downloadDir : String := "./downloads"
  screenshotDir : String := ""
  env : Env

/-- The call of `execute_workflow`. -/
def Job.config (J : Job) (w : Workflow) : Config where
  workflow := w
  downloadDir := J.downloadDir
  executionId := some J.executionId
  hasPauseQueue := true
  screenshotDir := J.screenshotDir

/-- **The state of the service**, as far as one execution is concerned. -/
structure Service where
  row : Option Row := none
  stepRows : List StepResult := []
  task : Task := .absent
  exec : RunState := {}
  /-- What the loop head saw of the cancel event, when it has looked but not gone on yet. -/
  checked : Option Bool := none
  /-- The registered cancel event, and whether it is set. -/
  cancelEvent : Option Bool := none
  /-- The registered pause event, and whether it is set. -/
  pauseEvent : Option Bool := none
  /-- The pause queue, which has one place. -/
  queue : Option (ℕ × ResumeInstruction) := none
  stops : ℕ → StopRequest := fun _ => .sent
  resumes : ℕ → ResumeRequest := fun _ => .sent

/-- What the parties do. -/
inductive Act where
  | runWorkflow
  | markRead | markCommit | registerCancel | registerPause | resolve
  | check | proceed | take | timeout | leave
  | unregisterCancel | unregisterPause | resultRead | resultCommit
  | stopRead (k : ℕ) | stopSignal (k : ℕ) | stopCommit (k : ℕ)
  | requestPause
  | resumeFind (k : ℕ) (instruction : ResumeInstruction) | resumePut (k : ℕ)

/-! ## Actions -/

namespace Service

/-- The step loop was left. -/
abbrev Over (s : Service) : Prop := s.task.Over

/-- The number of the pause in effect. -/
def pause (s : Service) : Option ℕ :=
  match s.task with
  | .running => if s.exec.waiting.isSome then some s.exec.pauses else none
  | _ => none

/-- `cancel` and `request_pause`: set the event, if one is registered. -/
def setEvent (e : Option Bool) : Option Bool := e.map fun _ => true

/-- The result of a run that did not return one. -/
def failedResult (error : String) : ExecutionResult := { status := .failed, error := some error }

/-- A stop request goes on. -/
def stopAt (s : Service) (k : ℕ) (r : StopRequest) : Service :=
  { s with stops := Function.update s.stops k r }

/-- A resume request goes on. -/
def resumeAt (s : Service) (k : ℕ) (r : ResumeRequest) : Service :=
  { s with resumes := Function.update s.resumes k r }

/-- A stop request reads the row. -/
def stopRead (s : Service) (k : ℕ) : Service :=
  match s.row with
  | none => s.stopAt k .refused
  | some row =>
    if row.status = .pending ∨ row.status = .running then s.stopAt k (.accepted row)
    else s.stopAt k .refused

/-- A resume request looks for the queue. -/
def resumeFind (s : Service) (k : ℕ) (instruction : ResumeInstruction) : Service :=
  s.resumeAt k (if s.pauseEvent.isSome then .found instruction else .refused)

variable [PyText]

/-- The loop head goes on: it takes a pause request, unless it was cancelled or no step is left. -/
def proceed (cfg : Config) (env : Env) (cancel : Bool) (s : Service) : Service :=
  { s with
    exec := next cfg env { cancel := cancel, pause := s.pauseEvent.getD false } s.exec
    checked := none
    pauseEvent :=
      if cancel ∨ cfg.stepAt s.exec.toControl = none then s.pauseEvent
      else s.pauseEvent.map fun _ => false }

/-- A wait is over, with an instruction of a request or without one. -/
def wakeUp (cfg : Config) (env : Env) (got : Option (ℕ × ResumeInstruction)) (s : Service) :
    Service :=
  let s' :=
    { s with
      exec := next cfg env { resume := got.map Prod.snd } s.exec
      queue := none }
  match got with
  | none => s'
  | some (k, _) =>
    s'.resumeAt k (.consumed
      (match s.resumes k with
      | .acknowledged during => during
      | _ => none) s.exec.pauses)

/-- `execute_workflow` returns or raises. -/
def leave (cfg : Config) (env : Env) (s : Service) : Service :=
  match finish cfg env s.exec with
  | (.ok res, exec) => { s with exec := exec, task := .returned res }
  | (.error e, exec) => { s with exec := exec, task := .returned (failedResult e.msg) }

/-- **What an action makes of a state in which it is enabled.** -/
def step (J : Job) (s : Service) : Act → Option Service
  | .runWorkflow =>
    match s.task with
    | .absent => some { s with row := some {}, task := .scheduled }
    | _ => none
  | .markRead =>
    match s.task, s.row with
    | .scheduled, some row => some { s with task := .marking row }
    | _, _ => none
  | .markCommit =>
    match s.task, s.row with
    | .marking read, some row =>
      some { s with row := some (read.setStatus .running row), task := .marked }
    | _, _ => none
  | .registerCancel =>
    match s.task with
    | .marked => some { s with cancelEvent := some false, task := .cancellable }
    | _ => none
  | .registerPause =>
    match s.task with
    | .cancellable => some { s with pauseEvent := some false, task := .ready }
    | _ => none
  | .resolve =>
    match s.task, J.workflow with
    | .ready, .ok w => some { s with exec := entry (J.config w) J.env, task := .running }
    | .ready, .error e => some { s with task := .returned (failedResult e) }
    | _, _ => none
  | .check =>
    match s.task, J.workflow, s.exec.halt, s.exec.waiting, s.checked with
    | .running, .ok w, none, none, none =>
      if (J.config w).stepAt s.exec.toControl = none then none
      else some { s with checked := some (s.cancelEvent.getD false) }
    | _, _, _, _, _ => none
  | .proceed =>
    match s.task, J.workflow, s.exec.halt, s.exec.waiting with
    | .running, .ok w, none, none =>
      match s.checked with
      | some cancel => some (s.proceed (J.config w) J.env cancel)
      | none =>
        if (J.config w).stepAt s.exec.toControl = none then
          some (s.proceed (J.config w) J.env false)
        else none
    | _, _, _, _ => none
  | .take =>
    match s.task, J.workflow, s.exec.halt, s.exec.waiting, s.queue with
    | .running, .ok w, none, some _, some got =>
      some (s.wakeUp (J.config w) J.env (some got))
    | _, _, _, _, _ => none
  | .timeout =>
    match s.task, J.workflow, s.exec.halt, s.exec.waiting, s.queue with
    | .running, .ok w, none, some _, none => some (s.wakeUp (J.config w) J.env none)
    | _, _, _, _, _ => none
  | .leave =>
    match s.task, J.workflow, s.exec.halt with
    | .running, .ok w, some _ => some (s.leave (J.config w) J.env)
    | _, _, _ => none
  | .unregisterCancel =>
    match s.task with
    | .returned res => some { s with cancelEvent := none, task := .closing res }
    | _ => none
  | .unregisterPause =>
    match s.task with
    | .closing res => some { s with pauseEvent := none, task := .closed res }
    | _ => none
  | .resultRead =>
    match s.task, s.row with
    | .closed res, some row => some { s with task := .writing row res }
    | _, _ => none
  | .resultCommit =>
    match s.task, s.row with
    | .writing read res, some row =>
      some
        { s with
          row := some (read.store res row)
          stepRows := res.steps
          task := .done (read.finalStatus res) }
    | _, _ => none
  | .stopRead k =>
    match s.stops k with
    | .sent => some (s.stopRead k)
    | _ => none
  | .stopSignal k =>
    match s.stops k with
    | .accepted read =>
      some ({ s with cancelEvent := setEvent s.cancelEvent }.stopAt k (.signalled read))
    | _ => none
  | .stopCommit k =>
    match s.stops k, s.row with
    | .signalled read, some row =>
      some ({ s with row := some (read.setStatus .cancelled row) }.stopAt k .stopped)
    | _, _ => none
  | .requestPause => some { s with pauseEvent := setEvent s.pauseEvent }
  | .resumeFind k instruction =>
    match s.resumes k with
    | .sent => some (s.resumeFind k instruction)
    | _ => none
  | .resumePut k =>
    match s.resumes k, s.queue with
    | .found instruction, none =>
      some ({ s with queue := some (k, instruction) }.resumeAt k (.acknowledged s.pause))
    | _, _ => none

end Service

/-- **One execution in the service.** -/
def service [PyText] (J : Job) : System Service Act where
  init := {}
  step := Service.step J

end ScoutEngine
