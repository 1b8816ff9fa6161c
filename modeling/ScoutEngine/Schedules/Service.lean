import ScoutEngine.Lib.Transition
import ScoutEngine.Schedules.Cron

/-!
# Schedules and their jobs

`api/schedules.py`, the rows that `api/workflows.py` adds and deletes, the jobs of
`services/scheduler.py` and the loader of `main.py`.

* `Schedule`, `CronJob`: a row and a job. The job store is in memory only.
* `TriggerMaker`, `computeNextRun`, `Schedules.addOrReplace`, `Schedules.removeJob`.
* `Schedules.create`, `update`, `delete`, `uploadWorkflow`, `deleteWorkflow`, `restart`: the
  operations, which fail with what the client is told.
* `scheduleService`: runs of operations that all succeed.
-/

set_option autoImplicit false

namespace ScoutEngine

open Transition

/-! ## Rows and jobs -/

/-- What the client of a failed operation is told. -/
structure ApiError where
  status : ℕ
  detail : String
  deriving DecidableEq

/-- An exception that no handler catches. -/
def uncaught {α : Type} : Except PyExc α → Except ApiError α :=
  Except.mapError fun _ => ⟨500, "Internal Server Error"⟩

theorem uncaught_ok {α : Type} {x : Except PyExc α} {a : α} : uncaught x = .ok a ↔ x = .ok a := by
  cases x <;> simp [uncaught, Except.mapError]

/-- A row of `schedules`; times are numbers. -/
structure Schedule where
  id : ℕ
  workflowId : ℕ
  name : String
  cronExpression : String
  timezone : String := "UTC"
  enabled : Bool := true
  vars : Option (Dict String String) := none
  lastRunAt : Option ℕ := none
  nextRunAt : Option ℕ := none

/-- What `add_or_replace_schedule` was told. -/
structure CronJob where
  cronExpression : String
  timezone : String
  deriving DecidableEq

/-- The job that a schedule should have. -/
def Schedule.job (row : Schedule) : CronJob := ⟨row.cronExpression, row.timezone⟩

/-- `CreateScheduleRequest`. -/
structure CreateScheduleRequest where
  workflowId : ℕ
  name : String
  cronExpression : String
  timezone : String := "UTC"
  enabled : Bool := true
  vars : Option (Dict String String) := none

/-- `UpdateScheduleRequest`. -/
structure UpdateScheduleRequest where
  name : Option String := none
  cronExpression : Option String := none
  timezone : Option String := none
  enabled : Option Bool := none
  vars : Option (Dict String String) := none

/-- `CronTrigger(timezone=timezone, **fields)`, as the function `get_next_fire_time(None, ·)`. -/
abbrev TriggerMaker := Dict String String → String → Except PyExc (ℕ → Option ℕ)

/-- The rows of `workflows` and `schedules`, and the job store of the scheduler. -/
structure Schedules where
  workflows : List ℕ := []
  rows : List Schedule := []
  jobs : ℕ → Option CronJob := fun _ => none

variable [PyText]

/-! ## The scheduler -/

/-- `compute_next_run`. -/
def computeNextRun (make : TriggerMaker) (cronExpression timezone : String) (now : ℕ) :
    Except PyExc (Option ℕ) := do
  let fields ← parseCronExpression cronExpression
  let trigger ← make fields timezone
  pure (trigger now)

/-- The `parse_cron_expression` of a handler, whose errors become answers. -/
def checkCron (cronExpression : String) : Except ApiError Unit :=
  match parseCronExpression cronExpression with
  | .ok _ => .ok ()
  | .error e => .error ⟨422, e.msg⟩

/-- `req.timezone or schedule.timezone`; an empty text is no time zone here, but is stored. -/
def UpdateScheduleRequest.timezoneOr (req : UpdateScheduleRequest) (row : Schedule) : String :=
  match req.timezone with
  | some tz => if tz = "" then row.timezone else tz
  | none => row.timezone

/-- The part of a request that is about the expression. -/
def UpdateScheduleRequest.applyCron (make : TriggerMaker) (req : UpdateScheduleRequest)
    (row : Schedule) (now : ℕ) : Except ApiError Schedule :=
  match req.cronExpression with
  | none => .ok row
  | some cron => do
    checkCron cron
    let next ← uncaught (computeNextRun make cron (req.timezoneOr row) now)
    pure { row with cronExpression := cron, nextRunAt := next }

/-- What a request leaves of a row. -/
def UpdateScheduleRequest.apply (make : TriggerMaker) (req : UpdateScheduleRequest)
    (row : Schedule) (now : ℕ) : Except ApiError Schedule := do
  let row ← req.applyCron make row now
  pure { row with
    name := req.name.getD row.name
    timezone := req.timezone.getD row.timezone
    enabled := req.enabled.getD row.enabled
    vars := req.vars.or row.vars }

namespace Schedules

/-- `add_or_replace_schedule`. -/
def addOrReplace (make : TriggerMaker) (s : Schedules) (row : Schedule) :
    Except PyExc Schedules := do
  let fields ← parseCronExpression row.cronExpression
  let _ ← make fields row.timezone
  pure { s with jobs := Function.update s.jobs row.id (some row.job) }

omit [PyText] in
/-- `remove_schedule_job`, which ignores that there is none. -/
def removeJob (s : Schedules) (id : ℕ) : Schedules :=
  { s with jobs := Function.update s.jobs id none }

/-- A new row, and its job. -/
def insert (make : TriggerMaker) (s : Schedules) (row : Schedule) : Except ApiError Schedules :=
  if ∃ old ∈ s.rows, old.id = row.id then .error ⟨500, "Internal Server Error"⟩
  else
    let s : Schedules := { s with rows := s.rows ++ [row] }
    if row.enabled then uncaught (s.addOrReplace make row) else .ok s

/-- `create_schedule`. -/
def create (make : TriggerMaker) (s : Schedules) (req : CreateScheduleRequest) (id now : ℕ) :
    Except ApiError Schedules := do
  checkCron req.cronExpression
  if req.workflowId ∈ s.workflows then
    let next ← uncaught (computeNextRun make req.cronExpression req.timezone now)
    s.insert make
      { id := id
        workflowId := req.workflowId
        name := req.name
        cronExpression := req.cronExpression
        timezone := req.timezone
        enabled := req.enabled
        vars := req.vars
        nextRunAt := next }
  else .error ⟨404, "Workflow not found"⟩

/-- `update_schedule`. -/
def update (make : TriggerMaker) (s : Schedules) (id : ℕ) (req : UpdateScheduleRequest) (now : ℕ) :
    Except ApiError Schedules :=
  match s.rows.find? (·.id = id) with
  | none => .error ⟨404, "Schedule not found"⟩
  | some old => do
    let row ← req.apply make old now
    let s : Schedules := { s with rows := s.rows.map fun r => if r.id = id then row else r }
    if row.enabled then uncaught (s.addOrReplace make row) else .ok (s.removeJob row.id)

omit [PyText] in
/-- `delete_schedule`. -/
def delete (s : Schedules) (id : ℕ) : Except ApiError Schedules :=
  match s.rows.find? (·.id = id) with
  | none => .error ⟨404, "Schedule not found"⟩
  | some _ => .ok ({ s with rows := s.rows.filter fun r => r.id ≠ id }.removeJob id)

omit [PyText] in
/-- `upload_workflow`. -/
def uploadWorkflow (s : Schedules) (id : ℕ) : Except ApiError Schedules :=
  if id ∈ s.workflows then .error ⟨500, "Internal Server Error"⟩
  else .ok { s with workflows := s.workflows ++ [id] }

omit [PyText] in
/-- `delete_workflow`. The database deletes the schedules of the workflow. -/
def deleteWorkflow (s : Schedules) (id : ℕ) : Except ApiError Schedules :=
  if id ∈ s.workflows then
    .ok { s with
      workflows := s.workflows.filter fun w => w ≠ id
      rows := s.rows.filter fun r => r.workflowId ≠ id }
  else .error ⟨404, "Workflow not found"⟩

/-- The loop of the loader. -/
def load (make : TriggerMaker) (s : Schedules) : List Schedule → Except PyExc Schedules
  | [] => .ok s
  | row :: rows => do load make (← s.addOrReplace make row) rows

/-- The service is started again: the job store is empty, and `lifespan` loads the enabled
schedules. -/
def restart (make : TriggerMaker) (s : Schedules) : Except ApiError Schedules :=
  uncaught (load make { s with jobs := fun _ => none } (s.rows.filter (·.enabled)))

end Schedules

/-! ## Runs -/

inductive ScheduleAct where
  | create (req : CreateScheduleRequest) (id now : ℕ)
  | update (id : ℕ) (req : UpdateScheduleRequest) (now : ℕ)
  | delete (id : ℕ)
  | uploadWorkflow (id : ℕ)
  | deleteWorkflow (id : ℕ)
  | restart

def Schedules.step (make : TriggerMaker) (s : Schedules) : ScheduleAct → Except ApiError Schedules
  | .create req id now => s.create make req id now
  | .update id req now => s.update make id req now
  | .delete id => s.delete id
  | .uploadWorkflow id => s.uploadWorkflow id
  | .deleteWorkflow id => s.deleteWorkflow id
  | .restart => s.restart make

/-- **Schedules under operations that succeed.** -/
def scheduleService (make : TriggerMaker) : System Schedules ScheduleAct where
  init := {}
  step s a := (s.step make a).toOption

end ScoutEngine
