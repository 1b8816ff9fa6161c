import ScoutEngine.Api.Report
import ScoutEngine.Lib.ForeignKeys
import ScoutEngine.Schedules.Requests

/-!
# The whole database

The rows of workflows, schedules, executions and their steps, which refer to each other, and
everything that the service does to them at the same time: requests, firings of schedules and
background tasks. Each of them reads first and commits later, and finds out only then that a row it
has read is gone.

* `ExecutionRecord`, `Database`: the rows, and the statements on them with their foreign keys.
* `Pending`: a request between its first query and its commit; `TaskPhase`: where the task of an
  execution is; `Loss`: how it was lost.
* `Server`, `Server.query`, `Server.commit`, **`Server.advance`**; `databaseService`: the system.
-/

set_option autoImplicit false

namespace ScoutEngine

open Transition Table

/-! ## Rows -/

/-- A row of `executions`, with its foreign keys. -/
structure ExecutionRecord extends Execution where
  id : ℕ
  workflowId : ℕ
  scheduleId : Option ℕ := none

/-- Columns of a schedule after a commit. -/
def Schedule.commit (read new current : Schedule) : Schedule :=
  { id := current.id
    workflowId := current.workflowId
    name := commitColumn read.name new.name current.name
    cronExpression := commitColumn read.cronExpression new.cronExpression current.cronExpression
    timezone := commitColumn read.timezone new.timezone current.timezone
    enabled := commitColumn read.enabled new.enabled current.enabled
    vars := commitColumn read.vars new.vars current.vars
    lastRunAt := commitColumn read.lastRunAt new.lastRunAt current.lastRunAt
    nextRunAt := commitColumn read.nextRunAt new.nextRunAt current.nextRunAt }

/-- The commit of session 2, which has read `read`. -/
def Execution.store (read : Execution) (res : ExecutionResult) (now : ℕ) (current : Execution) :
    Execution :=
  { current with
    toRow := read.toRow.store res current.toRow
    finishedAt := commitColumn read.finishedAt (some now) current.finishedAt }

/-- The tables. A step has the id of its execution. -/
structure Database where
  workflows : List ℕ := []
  schedules : List Schedule := []
  executions : List ExecutionRecord := []
  steps : List (ℕ × ExecutionStep) := []

namespace Database

def scheduleIds (db : Database) : List ℕ := db.schedules.map Schedule.id

def executionIds (db : Database) : List ℕ := db.executions.map ExecutionRecord.id

def schedule (db : Database) (id : ℕ) : Option Schedule := db.schedules.find? (·.id = id)

def execution (db : Database) (id : ℕ) : Option ExecutionRecord := db.executions.find? (·.id = id)

/-- The steps of an execution. -/
def stepsOf (db : Database) (id : ℕ) : List ExecutionStep :=
  (db.steps.filter fun p => p.1 = id).map Prod.snd

/-! ### Statements -/

/-- Refused without the workflow. -/
def insertSchedule (row : Schedule) (db : Database) : Option Database :=
  if row.workflowId ∈ db.workflows then some { db with schedules := db.schedules ++ [row] }
  else none

/-- Refused without the workflow or the schedule. -/
def insertExecution (row : ExecutionRecord) (db : Database) : Option Database :=
  if row.workflowId ∈ db.workflows ∧ ∀ id ∈ row.scheduleId, id ∈ db.scheduleIds then
    some { db with executions := db.executions ++ [row] }
  else none

def updateSchedule (id : ℕ) (f : Schedule → Schedule) (db : Database) : Database :=
  { db with schedules := db.schedules.map fun row => if row.id = id then f row else row }

def updateExecution (id : ℕ) (f : Execution → Execution) (db : Database) : Database :=
  { db with
    executions := db.executions.map fun row =>
      if row.id = id then { row with toExecution := f row.toExecution } else row }

def insertSteps (id : ℕ) (rows : List ExecutionStep) (db : Database) : Database :=
  { db with steps := db.steps ++ rows.map fun row => (id, row) }

/-- The executions that a deleted schedule has created stay. -/
def deleteSchedule (id : ℕ) (db : Database) : Database :=
  { db with
    schedules := db.schedules.filter fun row => row.id ≠ id
    executions := setNull db.executions ExecutionRecord.scheduleId
      (fun row => { row with scheduleId := none }) (· ≠ id) }

/-- With the workflow go its schedules and executions, and with these their steps. -/
def deleteWorkflow (id : ℕ) (db : Database) : Database :=
  let schedules := cascade db.schedules (fun row => some row.workflowId) (· ≠ id)
  let executions := cascade db.executions (fun row => some row.workflowId) (· ≠ id)
  { workflows := db.workflows.filter (· ≠ id)
    schedules := schedules
    executions := setNull executions ExecutionRecord.scheduleId
      (fun row => { row with scheduleId := none }) (· ∈ schedules.map Schedule.id)
    steps := cascade db.steps (fun p => some p.1) (· ∈ executions.map ExecutionRecord.id) }

end Database

/-! ## The parties -/

/-- A request between its first query and its commit. -/
inductive Pending where
  | deleteWorkflow (id : ℕ)
  | createSchedule (row : Schedule)
  | updateSchedule (read new : Schedule)
  | deleteSchedule (id : ℕ)
  | runWorkflow (workflowId : ℕ)
  /-- A firing has read its schedule. -/
  | fire (read : Schedule)
  /-- It has read the workflow as well. -/
  | load (read : Schedule)
  | stop (id : ℕ) (read : Execution)

/-- How the task of an execution was lost. -/
inductive Loss where
  /-- A connection or the process broke down. -/
  | fault
  /-- The row was deleted. -/
  | rowGone
  /-- `compute_next_run` raised after the firing had committed the row. -/
  | nextRun
  /-- The schedule was deleted before the firing stored its times. -/
  | scheduleGone
  /-- The database refused the results: a value did not fit into its column. -/
  | refused
  deriving DecidableEq

/-- Where the task of an execution is. -/
inductive TaskPhase where
  | absent
  /-- `run_workflow` has committed the row. -/
  | submitted
  /-- `execute_scheduled_workflow` has committed the row. -/
  | fired (read : Schedule)
  /-- It is about to store the times of the schedule. -/
  | timing (read : Schedule)
  /-- `_run_execution` is called. -/
  | launched
  /-- Session 1 has read the row. -/
  | marking (read : Execution)
  | browsing
  | ended (res : ExecutionResult)
  /-- Session 2 has read the row. -/
  | storing (read : Execution) (res : ExecutionResult)
  | notifying (res : ExecutionResult) (payload : Option Payload)
  | done (res : ExecutionResult)
  | lost (reason : Loss)

/-- **The service**: the database, the requests on their way, the tasks of the executions, and the
webhooks sent. Ids are not used twice. -/
structure Server where
  db : Database := {}
  requests : ℕ → Option Pending := fun _ => none
  tasks : ℕ → TaskPhase := fun _ => .absent
  nextId : ℕ := 0
  posted : List (ℕ × Payload) := []

/-- The request, or the firing, that a client or the scheduler makes. -/
inductive ApiCall where
  | uploadWorkflow
  | deleteWorkflow (id : ℕ)
  | createSchedule (req : CreateScheduleRequest)
  | updateSchedule (id : ℕ) (req : UpdateScheduleRequest)
  | deleteSchedule (id : ℕ)
  | runWorkflow (workflowId : ℕ)
  | fire (scheduleId : ℕ)
  | stop (executionId : ℕ)

/-- What the outside world gives to a commit or to a task. -/
structure Moment where
  now : ℕ := 0
  /-- The number of steps, unless the workflow cannot be resolved or validated. -/
  totalSteps : Option ℕ := none
  callbackUrl : Option String := none
  res : ExecutionResult := { status := .failed }

namespace Server

variable [PyText]

/-! ## What they do -/

/-- The first query of a request; nothing is left to do when it answers with an error. -/
def query (make : TriggerMaker) (now : ℕ) (s : Server) : ApiCall → Option Pending
  | .uploadWorkflow => none
  | .deleteWorkflow id => if id ∈ s.db.workflows then some (.deleteWorkflow id) else none
  | .createSchedule req =>
    match req.row make { workflows := s.db.workflows } s.nextId now with
    | .ok row => some (.createSchedule row)
    | .error _ => none
  | .updateSchedule id req =>
    match s.db.schedule id with
    | none => none
    | some row =>
      match req.apply make row now with
      | .ok new => some (.updateSchedule row new)
      | .error _ => none
  | .deleteSchedule id => (s.db.schedule id).map fun _ => .deleteSchedule id
  | .runWorkflow workflowId =>
    if workflowId ∈ s.db.workflows then some (.runWorkflow workflowId) else none
  | .fire id =>
    match s.db.schedule id with
    | some row => if row.enabled then some (.fire row) else none
    | none => none
  | .stop id =>
    match s.db.execution id with
    | some row =>
      if row.status = .pending ∨ row.status = .running then some (.stop id row.toExecution)
      else none
    | none => none

omit [PyText] in
/-- The row of a new execution, and its task. A refused row is an error for the client only. -/
def create (workflowId : ℕ) (scheduleId : Option ℕ) (phase : TaskPhase) (m : Moment) (s : Server) :
    Server :=
  match m.totalSteps with
  | none => s
  | some totalSteps =>
    let row : ExecutionRecord :=
      { id := s.nextId
        workflowId := workflowId
        scheduleId := scheduleId
        totalSteps := totalSteps
        callbackUrl := m.callbackUrl }
    match s.db.insertExecution row with
    | none => s
    | some db =>
      { s with
        db := db
        tasks := Function.update s.tasks s.nextId phase
        nextId := s.nextId + 1 }

omit [PyText] in
/-- The commit of a request. One of a row that is gone changes nothing. -/
def commit (k : ℕ) (m : Moment) (s : Server) : Pending → Server
  | .deleteWorkflow id => { s with db := s.db.deleteWorkflow id }
  | .createSchedule row =>
    match s.db.insertSchedule { row with id := s.nextId } with
    | some db => { s with db := db, nextId := s.nextId + 1 }
    | none => s
  | .updateSchedule read new => { s with db := s.db.updateSchedule read.id (read.commit new) }
  | .deleteSchedule id => { s with db := s.db.deleteSchedule id }
  | .runWorkflow workflowId => s.create workflowId none .submitted m
  | .fire read =>
    if read.workflowId ∈ s.db.workflows then
      { s with requests := Function.update s.requests k (some (.load read)) }
    else s
  | .load read =>
    s.create read.workflowId (some read.id) (.fired read) { m with callbackUrl := none }
  | .stop id read => { s with db := s.db.updateExecution id (read.stop m.now) }

omit [PyText] in
/-- A task goes on. -/
def goto (e : ℕ) (phase : TaskPhase) (s : Server) : Server :=
  { s with tasks := Function.update s.tasks e phase }

/-- **What the task of an execution does next.** -/
def advance (make : TriggerMaker) (cfg : ReportConfig) (e : ℕ) (m : Moment) (s : Server) :
    TaskPhase → Option Server
  | .submitted =>
    if e ∈ s.db.executionIds then some (s.goto e .launched) else some (s.goto e (.lost .rowGone))
  | .fired read =>
    if e ∈ s.db.executionIds then some (s.goto e (.timing read))
    else some (s.goto e (.lost .rowGone))
  | .timing read =>
    match computeNextRun make read.cronExpression read.timezone m.now with
    | .error _ => some (s.goto e (.lost .nextRun))
    | .ok next =>
      if read.id ∈ s.db.scheduleIds then
        some (goto e .launched
          { s with
            db := s.db.updateSchedule read.id
              (read.commit { read with lastRunAt := some m.now, nextRunAt := next }) })
      else some (s.goto e (.lost .scheduleGone))
  | .launched =>
    match s.db.execution e with
    | some row => some (s.goto e (.marking row.toExecution))
    | none => some (s.goto e (.lost .rowGone))
  | .marking read =>
    if e ∈ s.db.executionIds then
      some (goto e .browsing { s with db := s.db.updateExecution e (read.mark m.now) })
    else some (s.goto e (.lost .rowGone))
  | .browsing => some (s.goto e (.ended m.res))
  | .ended res =>
    match s.db.execution e with
    | some row => some (s.goto e (.storing row.toExecution res))
    | none => some (s.goto e (.lost .rowGone))
  | .storing read res =>
    let rows := res.steps.map StepResult.row
    if e ∉ s.db.executionIds then some (s.goto e (.lost .rowGone))
    else if Committable cfg.columns (read.finish res m.now) rows then
      some (goto e (.notifying res (webhook cfg (toString e) read res m.now))
        { s with db := (s.db.updateExecution e (read.store res m.now)).insertSteps e rows })
    else some (s.goto e (.lost .refused))
  | .notifying res payload =>
    some (goto e (.done res) { s with posted := s.posted ++ payload.toList.map fun p => (e, p) })
  | .absent | .done _ | .lost _ => none

end Server

inductive ServerAct where
  /-- A request, in a place of its own, up to its first query. -/
  | call (k : ℕ) (c : ApiCall) (now : ℕ)
  | commit (k : ℕ) (m : Moment)
  | advance (e : ℕ) (m : Moment)
  /-- A connection or the process breaks down. -/
  | dropRequest (k : ℕ)
  | dropTask (e : ℕ)

variable [PyText]

def Server.step (make : TriggerMaker) (cfg : ReportConfig) (s : Server) : ServerAct → Option Server
  | .call k c now =>
    match c with
    | .uploadWorkflow =>
      some { s with
        db := { s.db with workflows := s.db.workflows ++ [s.nextId] }
        nextId := s.nextId + 1 }
    | c =>
      if s.requests k = none then
        some { s with requests := Function.update s.requests k (s.query make now c) }
      else none
  | .commit k m =>
    (s.requests k).map fun p =>
      Server.commit k m { s with requests := Function.update s.requests k none } p
  | .advance e m => s.advance make cfg e m (s.tasks e)
  | .dropRequest k => some { s with requests := Function.update s.requests k none }
  | .dropTask e =>
    match s.tasks e with
    | .absent | .done _ | .lost _ => none
    | .notifying res _ => some (s.goto e (.done res))
    | _ => some (s.goto e (.lost .fault))

/-- **The service in all its interleavings.** -/
def databaseService (make : TriggerMaker) (cfg : ReportConfig) : System Server ServerAct where
  init := {}
  step := Server.step make cfg

end ScoutEngine
