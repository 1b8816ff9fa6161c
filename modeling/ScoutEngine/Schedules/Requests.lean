import ScoutEngine.Schedules.Jobs
import ScoutEngine.Schedules.Start

/-!
# Requests that may fail

`create_schedule` and `update_schedule` commit the row before they touch the job store, so that a
request can fail with its row already stored.

* `Faults`, `commitThen`, `checkThen`: the statements of a request that fail, and what comes after
  its checks.
* `Schedules.createSchedule`, `updateSchedule`, `answer`: the answer to a request, and what it leaves;
  **`answer_ok`**: a request that succeeds is a step of `scheduleService`.
* `Schedules.fire`, `reload`: a job fires; the service starts again.
* `requestService`: runs of requests that succeed or fail, of jobs and of restarts.
* `Accepts`: `CronTrigger` accepts an expression and a time zone; `createSchedule_cases`,
  `updateSchedule_cases`; **`rows_after`**: what an event leaves of the rows.
-/

set_option autoImplicit false

namespace ScoutEngine

open Transition

/-- Statements of a request that the database fails. -/
structure Faults where
  commit : Bool := false
  refresh : Bool := false

/-- The answer to an exception that no handler catches. -/
def internalError : ApiError := ⟨500, "Internal Server Error"⟩

/-- `db.commit()`, `db.refresh(schedule)`, and then the job store. -/
def commitThen (faults : Faults) (s s' : Schedules) (jobs : Schedules → Except PyExc Schedules) :
    Except ApiError Unit × Schedules :=
  if faults.commit then (.error internalError, s)
  else if faults.refresh then (.error internalError, s')
  else
    match jobs s' with
    | .ok s'' => (.ok (), s'')
    | .error _ => (.error internalError, s')

/-- A request that leaves the job store alone, or to an operation that ignores its errors. -/
def checkThen (faults : Faults) (s : Schedules) :
    Except ApiError Schedules → Except ApiError Unit × Schedules
  | .error e => (.error e, s)
  | .ok s' => commitThen faults s s' .ok

section Requests

variable [PyText]

/-- The row that `create_schedule` adds, after its checks. -/
def CreateScheduleRequest.row (make : TriggerMaker) (req : CreateScheduleRequest) (s : Schedules)
    (id now : ℕ) : Except ApiError Schedule := do
  checkCron req.cronExpression
  if req.workflowId ∈ s.workflows then
    let next ← uncaught (computeNextRun make req.cronExpression req.timezone now)
    pure
      { id := id
        workflowId := req.workflowId
        name := req.name
        cronExpression := req.cronExpression
        timezone := req.timezone
        enabled := req.enabled
        vars := req.vars
        nextRunAt := next }
  else .error ⟨404, "Workflow not found"⟩

namespace Schedules

/-- `create_schedule`. A repeated id is refused by the commit. -/
def createSchedule (make : TriggerMaker) (faults : Faults) (s : Schedules)
    (req : CreateScheduleRequest) (id now : ℕ) : Except ApiError Unit × Schedules :=
  match req.row make s id now with
  | .error e => (.error e, s)
  | .ok row =>
    if ∃ old ∈ s.rows, old.id = row.id then (.error internalError, s)
    else commitThen faults s { s with rows := s.rows ++ [row] } fun s =>
      if row.enabled then s.addOrReplace make row else .ok s

/-- `update_schedule`. -/
def updateSchedule (make : TriggerMaker) (faults : Faults) (s : Schedules) (id : ℕ)
    (req : UpdateScheduleRequest) (now : ℕ) : Except ApiError Unit × Schedules :=
  match s.rows.find? (·.id = id) with
  | none => (.error ⟨404, "Schedule not found"⟩, s)
  | some old =>
    match req.apply make old now with
    | .error e => (.error e, s)
    | .ok row =>
      commitThen faults s { s with rows := s.rows.map fun r => if r.id = id then row else r }
        fun s => if row.enabled then s.addOrReplace make row else .ok (s.removeJob row.id)

/-- The loop of the loader, up to the first exception. -/
def loadUntil (make : TriggerMaker) (s : Schedules) : List Schedule → Schedules
  | [] => s
  | row :: rows =>
    match s.addOrReplace make row with
    | .ok s' => loadUntil make s' rows
    | .error _ => s

/-- The service is started again; `lifespan` only logs an exception of its loader. -/
def reload (make : TriggerMaker) (s : Schedules) : Schedules :=
  loadUntil make { s with jobs := fun _ => none } (s.rows.filter (·.enabled))

/-- **The answer to a request, and what it leaves behind.** -/
def answer (make : TriggerMaker) (faults : Faults) (s : Schedules) :
    ScheduleAct → Except ApiError Unit × Schedules
  | .create req id now => s.createSchedule make faults req id now
  | .update id req now => s.updateSchedule make faults id req now
  | .restart => (.ok (), s.reload make)
  | .uploadWorkflow id => checkThen faults s (s.uploadWorkflow id)
  | .delete id => checkThen { faults with refresh := false } s (s.delete id)
  | .deleteWorkflow id => checkThen { faults with refresh := false } s (s.deleteWorkflow id)

/-- `execute_scheduled_workflow`, as far as the rows of `schedules` go. -/
def fire (validate : Validator) (make : TriggerMaker) (s : Schedules) (id : ℕ)
    (record : Option StoredJson) (now : ℕ) : Schedules :=
  match (executeScheduledWorkflow validate make (s.rows.find? (·.id = id)) record now).1 with
  | some row => { s with rows := s.rows.map fun r => if r.id = id then row else r }
  | none => s

end Schedules

/-! ## Runs -/

/-- The request creates or updates a schedule. -/
def ScheduleAct.WritesRow : ScheduleAct → Prop
  | .create .. | .update .. => True
  | _ => False

inductive ServiceEvent where
  | request (a : ScheduleAct) (faults : Faults)
  | fire (id : ℕ) (record : Option StoredJson) (now : ℕ)

/-- What an event leaves behind. -/
def Schedules.after (validate : Validator) (make : TriggerMaker) (s : Schedules) :
    ServiceEvent → Schedules
  | .request a faults => (s.answer make faults a).2
  | .fire id record now => s.fire validate make id record now

/-- **Schedules under requests that succeed or fail**, jobs that fire, and restarts. -/
def requestService (validate : Validator) (make : TriggerMaker) : System Schedules ServiceEvent where
  init := {}
  step s e := some (s.after validate make e)

/-! ## Requests that succeed -/

variable {make : TriggerMaker} {s s' : Schedules}

theorem CreateScheduleRequest.create_eq (req : CreateScheduleRequest) (id now : ℕ) :
    s.create make req id now = req.row make s id now >>= s.insert make := by
  unfold Schedules.create row
  cases checkCron req.cronExpression with
  | error e => rfl
  | ok _ =>
    by_cases hw : req.workflowId ∈ s.workflows
    · simp only [hw, if_true]
      cases uncaught (computeNextRun make req.cronExpression req.timezone now) with
      | error e => rfl
      | ok next => rfl
    · simp only [hw, if_false]
      rfl

omit [PyText] in
/-- The statements of a request all succeed, or one of them fails. -/
theorem commitThen_cases (faults : Faults) (s s' : Schedules)
    (jobs : Schedules → Except PyExc Schedules) :
    faults.commit = true ∧ commitThen faults s s' jobs = (.error internalError, s) ∨
    faults.commit = false ∧ (faults.refresh = true ∨ ∃ e, jobs s' = .error e) ∧
      commitThen faults s s' jobs = (.error internalError, s') ∨
    faults.commit = false ∧ faults.refresh = false ∧ ∃ s'', jobs s' = .ok s'' ∧
      commitThen faults s s' jobs = (.ok (), s'') := by
  unfold commitThen
  cases faults.commit with
  | true => exact .inl ⟨rfl, rfl⟩
  | false =>
    cases faults.refresh with
    | true => exact .inr (.inl ⟨rfl, .inl rfl, rfl⟩)
    | false =>
      cases hj : jobs s' with
      | ok s'' => exact .inr (.inr ⟨rfl, rfl, s'', rfl, rfl⟩)
      | error e => exact .inr (.inl ⟨rfl, .inr ⟨e, rfl⟩, rfl⟩)

omit [PyText] in
theorem commitThen_ok {faults : Faults} {s s' s'' : Schedules}
    {jobs : Schedules → Except PyExc Schedules}
    (h : commitThen faults s s' jobs = (.ok (), s'')) : jobs s' = .ok s'' := by
  rcases commitThen_cases faults s s' jobs with ⟨-, hc⟩ | ⟨-, -, hc⟩ | ⟨-, -, t, ht, hc⟩
  · rw [hc] at h
    cases h
  · rw [hc] at h
    cases h
  · rw [hc] at h
    cases h
    exact ht

omit [PyText] in
theorem checkThen_ok {faults : Faults} {s s' : Schedules} {x : Except ApiError Schedules}
    (h : checkThen faults s x = (.ok (), s')) : x = .ok s' := by
  cases x with
  | error e => cases h
  | ok t =>
    change commitThen faults s t .ok = _ at h
    rw [Except.ok.inj (commitThen_ok h)]

omit [PyText] in
/-- A row that is committed and cannot be read back. -/
theorem commitThen_unread {faults : Faults} (hcommit : faults.commit = false)
    (hrefresh : faults.refresh = true) (s s' : Schedules)
    (jobs : Schedules → Except PyExc Schedules) :
    commitThen faults s s' jobs = (.error internalError, s') := by
  unfold commitThen
  rw [hcommit, hrefresh]
  rfl

omit [PyText] in
/-- A row that is committed stays, whatever becomes of its job. -/
theorem commitThen_rows {faults : Faults} (hcommit : faults.commit = false) {s s' : Schedules}
    {jobs : Schedules → Except PyExc Schedules} (hj : ∀ t, jobs s' = .ok t → t.rows = s'.rows) :
    (commitThen faults s s' jobs).2.rows = s'.rows := by
  rcases commitThen_cases faults s s' jobs with ⟨hc, -⟩ | ⟨-, -, hc⟩ | ⟨-, -, t, ht, hc⟩
  · exact absurd (hcommit.symm.trans hc) Bool.false_ne_true
  · rw [hc]
  · rw [hc]
    exact hj t ht

theorem createSchedule_ok {faults : Faults} {req : CreateScheduleRequest} {id now : ℕ}
    (h : s.createSchedule make faults req id now = (.ok (), s')) :
    s.create make req id now = .ok s' := by
  rw [req.create_eq]
  unfold Schedules.createSchedule at h
  cases hr : req.row make s id now with
  | error e =>
    rw [hr] at h
    cases h
  | ok row =>
    rw [hr] at h
    dsimp only at h
    refine bind_ok.mpr ⟨row, rfl, ?_⟩
    unfold Schedules.insert
    by_cases hold : ∃ old ∈ s.rows, old.id = row.id
    · rw [if_pos hold] at h
      cases h
    · rw [if_neg hold] at h ⊢
      have hj := commitThen_ok h
      dsimp only
      split_ifs at hj ⊢
      · exact uncaught_ok.mpr hj
      · rw [Except.ok.inj hj]

theorem updateSchedule_ok {faults : Faults} {id now : ℕ} {req : UpdateScheduleRequest}
    (h : s.updateSchedule make faults id req now = (.ok (), s')) :
    s.update make id req now = .ok s' := by
  unfold Schedules.updateSchedule at h
  unfold Schedules.update
  cases hf : s.rows.find? (·.id = id) with
  | none =>
    rw [hf] at h
    cases h
  | some old =>
    rw [hf] at h
    dsimp only at h ⊢
    cases hr : req.apply make old now with
    | error e =>
      rw [hr] at h
      cases h
    | ok row =>
      rw [hr] at h
      refine bind_ok.mpr ⟨row, rfl, ?_⟩
      have hj := commitThen_ok h
      split_ifs at hj ⊢
      · exact uncaught_ok.mpr hj
      · rw [Except.ok.inj hj]

/-- **A request that succeeds is a step of `scheduleService`.** -/
theorem answer_ok {faults : Faults} {a : ScheduleAct} (ha : a ≠ .restart)
    (h : s.answer make faults a = (.ok (), s')) : s.step make a = .ok s' := by
  cases a with
  | create req id now =>
    change s.createSchedule make faults req id now = _ at h
    exact createSchedule_ok h
  | update id req now =>
    change s.updateSchedule make faults id req now = _ at h
    exact updateSchedule_ok h
  | delete id => exact checkThen_ok h
  | uploadWorkflow id => exact checkThen_ok h
  | deleteWorkflow id => exact checkThen_ok h
  | restart => exact absurd rfl ha

/-! ## What an event leaves -/

/-- `CronTrigger` accepts an expression and a time zone. -/
def Accepts (make : TriggerMaker) (cronExpression timezone : String) : Prop :=
  ∃ fields trigger, parseCronExpression cronExpression = .ok fields ∧
    make fields timezone = .ok trigger

variable {row : Schedule}

theorem accepts_of_next {cronExpression timezone : String} {now : ℕ} {next : Option ℕ}
    (h : computeNextRun make cronExpression timezone now = .ok next) :
    Accepts make cronExpression timezone := by
  obtain ⟨fields, hf, h⟩ := bind_ok.mp h
  obtain ⟨trigger, ht, -⟩ := bind_ok.mp h
  exact ⟨fields, trigger, hf, ht⟩

theorem addOrReplace_ok_iff :
    (∃ s', s.addOrReplace make row = .ok s') ↔ Accepts make row.cronExpression row.timezone := by
  constructor
  · rintro ⟨s', h⟩
    obtain ⟨fields, hf, h⟩ := bind_ok.mp h
    obtain ⟨trigger, ht, -⟩ := bind_ok.mp h
    exact ⟨fields, trigger, hf, ht⟩
  · rintro ⟨fields, trigger, hf, ht⟩
    exact ⟨_, bind_ok.mpr ⟨fields, hf, bind_ok.mpr ⟨trigger, ht, rfl⟩⟩⟩

/-- What `create_schedule` adds has a trigger. -/
theorem CreateScheduleRequest.row_ok {req : CreateScheduleRequest} {id now : ℕ}
    (h : req.row make s id now = .ok row) :
    row.id = id ∧ Accepts make row.cronExpression row.timezone := by
  unfold CreateScheduleRequest.row at h
  obtain ⟨-, -, h⟩ := bind_ok.mp h
  split_ifs at h
  obtain ⟨next, hn, h⟩ := bind_ok.mp h
  rw [← Except.ok.inj h]
  exact ⟨rfl, accepts_of_next (uncaught_ok.mp hn)⟩

theorem createSchedule_eq (faults : Faults) {req : CreateScheduleRequest} {id now : ℕ}
    (hrow : req.row make s id now = .ok row) (hnew : ∀ old ∈ s.rows, old.id ≠ row.id) :
    s.createSchedule make faults req id now =
      commitThen faults s { s with rows := s.rows ++ [row] } fun s =>
        if row.enabled then s.addOrReplace make row else .ok s := by
  unfold Schedules.createSchedule
  rw [hrow]
  exact if_neg fun ⟨old, hold, he⟩ => hnew old hold he

theorem updateSchedule_eq (faults : Faults) {id now : ℕ} {req : UpdateScheduleRequest}
    {old : Schedule} (hfind : s.rows.find? (·.id = id) = some old)
    (hrow : req.apply make old now = .ok row) :
    s.updateSchedule make faults id req now =
      commitThen faults s { s with rows := s.rows.map fun r => if r.id = id then row else r }
        fun s => if row.enabled then s.addOrReplace make row else .ok (s.removeJob row.id) := by
  unfold Schedules.updateSchedule
  rw [hfind]
  dsimp only
  rw [hrow]

theorem register_rows {t : Schedules}
    (h : (if row.enabled then s.addOrReplace make row else .ok s) = .ok t) : t.rows = s.rows := by
  split_ifs at h
  · rw [Schedules.addOrReplace_ok h]
  · rw [← Except.ok.inj h]

theorem sync_rows {t : Schedules}
    (h : (if row.enabled then s.addOrReplace make row else .ok (s.removeJob row.id)) = .ok t) :
    t.rows = s.rows := by
  split_ifs at h
  · rw [Schedules.addOrReplace_ok h]
  · rw [← Except.ok.inj h]
    rfl

/-- `create_schedule`: nothing is stored, or the row is, and then only `db.refresh` can fail. -/
theorem createSchedule_cases (faults : Faults) (req : CreateScheduleRequest) (id now : ℕ) :
    (s.createSchedule make faults req id now).2 = s ∨
    ∃ row, req.row make s id now = .ok row ∧ (∀ old ∈ s.rows, old.id ≠ id) ∧
      faults.commit = false ∧ (s.createSchedule make faults req id now).2.rows = s.rows ++ [row] ∧
      ((∃ e, (s.createSchedule make faults req id now).1 = .error e) → faults.refresh = true) := by
  cases hr : req.row make s id now with
  | error e =>
    unfold Schedules.createSchedule
    rw [hr]
    exact .inl rfl
  | ok row =>
    obtain ⟨hid, hacc⟩ := CreateScheduleRequest.row_ok hr
    by_cases hold : ∃ old ∈ s.rows, old.id = row.id
    · unfold Schedules.createSchedule
      rw [hr]
      exact .inl (congrArg Prod.snd (if_pos hold))
    · have hnew : ∀ old ∈ s.rows, old.id ≠ row.id := fun old ho he => hold ⟨old, ho, he⟩
      rw [createSchedule_eq faults hr hnew]
      rcases commitThen_cases faults s { s with rows := s.rows ++ [row] }
        (fun s => if row.enabled then s.addOrReplace make row else .ok s) with
        ⟨-, hc⟩ | ⟨hcommit, hfail, hc⟩ | ⟨hcommit, hrefresh, t, ht, hc⟩
      · rw [hc]
        exact .inl rfl
      · rw [hc]
        refine .inr ⟨row, rfl, hid ▸ hnew, hcommit, rfl, fun _ => ?_⟩
        refine hfail.resolve_right fun ⟨e, he⟩ => ?_
        split_ifs at he
        obtain ⟨t, ht⟩ := addOrReplace_ok_iff (s := { s with rows := s.rows ++ [row] }).mpr hacc
        cases ht.symm.trans he
      · rw [hc]
        exact .inr ⟨row, rfl, hid ▸ hnew, hcommit, register_rows ht, fun ⟨e, he⟩ => by cases he⟩

/-- `update_schedule`: nothing is stored, or the row is, and then `db.refresh` or the trigger can
fail. -/
theorem updateSchedule_cases (faults : Faults) (id : ℕ) (req : UpdateScheduleRequest) (now : ℕ) :
    (s.updateSchedule make faults id req now).2 = s ∨
    ∃ old row, s.rows.find? (·.id = id) = some old ∧ req.apply make old now = .ok row ∧
      faults.commit = false ∧ (s.updateSchedule make faults id req now).2.rows =
        (s.rows.map fun r => if r.id = id then row else r) ∧
      ∀ e, (s.updateSchedule make faults id req now).1 = .error e →
        (s.updateSchedule make faults id req now).2 =
          { s with rows := s.rows.map fun r => if r.id = id then row else r } ∧
        (faults.refresh = true ∨
          row.enabled = true ∧ ¬ Accepts make row.cronExpression row.timezone) := by
  cases hf : s.rows.find? (·.id = id) with
  | none =>
    unfold Schedules.updateSchedule
    rw [hf]
    exact .inl rfl
  | some old =>
    cases hr : req.apply make old now with
    | error e =>
      unfold Schedules.updateSchedule
      rw [hf]
      dsimp only
      rw [hr]
      exact .inl rfl
    | ok row =>
      rw [updateSchedule_eq faults hf hr]
      rcases commitThen_cases faults s
        { s with rows := s.rows.map fun r => if r.id = id then row else r }
        (fun s => if row.enabled then s.addOrReplace make row else .ok (s.removeJob row.id)) with
        ⟨-, hc⟩ | ⟨hcommit, hfail, hc⟩ | ⟨hcommit, hrefresh, t, ht, hc⟩
      · rw [hc]
        exact .inl rfl
      · rw [hc]
        refine .inr ⟨old, row, rfl, hr, hcommit, rfl, fun _ _ => ⟨rfl,
          hfail.imp_right fun ⟨e, he⟩ => ?_⟩⟩
        split_ifs at he with hen
        refine ⟨hen, fun hacc => ?_⟩
        obtain ⟨t, ht⟩ := addOrReplace_ok_iff.mpr hacc
        cases ht.symm.trans he
      · rw [hc]
        exact .inr ⟨old, row, rfl, hr, hcommit, sync_rows ht, fun e he => by cases he⟩

theorem loadUntil_rows {rows : List Schedule} (s : Schedules) :
    (Schedules.loadUntil make s rows).rows = s.rows := by
  induction rows generalizing s with
  | nil => rfl
  | cons row rows ih =>
    unfold Schedules.loadUntil
    cases h : s.addOrReplace make row with
    | ok s' =>
      dsimp only
      rw [ih, Schedules.addOrReplace_ok h]
    | error e => rfl

omit [PyText] in
theorem checkThen_rows {faults : Faults} {s : Schedules} {x : Except ApiError Schedules}
    (h : ∀ s', x = .ok s' → List.Sublist s'.rows s.rows) :
    List.Sublist (checkThen faults s x).2.rows s.rows := by
  cases x with
  | error e => exact List.Sublist.refl _
  | ok s' =>
    have hs := h s' rfl
    rcases commitThen_cases faults s s' .ok with ⟨-, hc⟩ | ⟨-, -, hc⟩ | ⟨-, -, t, ht, hc⟩
    · change List.Sublist (commitThen faults s s' .ok).2.rows s.rows
      rw [hc]
    · change List.Sublist (commitThen faults s s' .ok).2.rows s.rows
      rw [hc]
      exact hs
    · change List.Sublist (commitThen faults s s' .ok).2.rows s.rows
      rw [hc, ← Except.ok.inj ht]
      exact hs

/-- Other requests at most delete rows. -/
theorem answer_rows {faults : Faults} {a : ScheduleAct} (ha : ¬ a.WritesRow) :
    List.Sublist (s.answer make faults a).2.rows s.rows := by
  cases a with
  | create | update => exact absurd trivial ha
  | restart =>
    change List.Sublist (s.reload make).rows s.rows
    unfold Schedules.reload
    rw [loadUntil_rows]
  | uploadWorkflow id =>
    refine checkThen_rows fun s' h => ?_
    unfold Schedules.uploadWorkflow at h
    split_ifs at h
    rw [← Except.ok.inj h]
  | delete id =>
    refine checkThen_rows fun s' h => ?_
    unfold Schedules.delete at h
    cases hf : s.rows.find? (·.id = id) with
    | none =>
      rw [hf] at h
      cases h
    | some old =>
      rw [hf] at h
      rw [← Except.ok.inj h]
      exact List.filter_sublist
  | deleteWorkflow id =>
    refine checkThen_rows fun s' h => ?_
    unfold Schedules.deleteWorkflow at h
    split_ifs at h
    rw [← Except.ok.inj h]
    exact List.filter_sublist

/-- A job that fires changes the times of its row at most. -/
theorem executeScheduled_row {validate : Validator} {schedule : Option Schedule}
    {record : Option StoredJson} {now : ℕ} (h :
      (executeScheduledWorkflow validate make schedule record now).1 = some row) :
    ∃ old, schedule = some old ∧ (row = old ∨ ∃ next,
      computeNextRun make old.cronExpression old.timezone now = .ok next ∧
      row = { old with lastRunAt := some now, nextRunAt := next }) := by
  unfold executeScheduledWorkflow at h
  cases schedule with
  | none => cases h
  | some old =>
    refine ⟨old, rfl, ?_⟩
    dsimp only at h
    split_ifs at h
    · exact .inl (Option.some.inj h).symm
    · cases record with
      | none => exact .inl (Option.some.inj h).symm
      | some doc =>
        dsimp only at h
        cases hv : doc.validate validate with
        | error e =>
          rw [hv] at h
          exact .inl (Option.some.inj h).symm
        | ok workflow =>
          rw [hv] at h
          dsimp only at h
          cases hn : computeNextRun make old.cronExpression old.timezone now with
          | error e =>
            rw [hn] at h
            exact .inl (Option.some.inj h).symm
          | ok next =>
            rw [hn] at h
            exact .inr ⟨next, rfl, (Option.some.inj h).symm⟩

/-- **What an event leaves of the rows**: fewer rows, a new row, or another row in the place of the
one with its id. -/
inductive RowsAfter (make : TriggerMaker) (s : Schedules) : ServiceEvent → List Schedule → Prop where
  | fewer {ev : ServiceEvent} {rows : List Schedule} (h : List.Sublist rows s.rows) :
      RowsAfter make s ev rows
  | created {req : CreateScheduleRequest} {id now : ℕ} {faults : Faults} {row : Schedule}
      (hrow : req.row make s id now = .ok row) (hnew : ∀ old ∈ s.rows, old.id ≠ id) :
      RowsAfter make s (.request (.create req id now) faults) (s.rows ++ [row])
  | updated {req : UpdateScheduleRequest} {id now : ℕ} {faults : Faults} {old row : Schedule}
      (hfind : s.rows.find? (·.id = id) = some old) (hrow : req.apply make old now = .ok row)
      (hcommit : faults.commit = false) :
      RowsAfter make s (.request (.update id req now) faults)
        (s.rows.map fun r => if r.id = id then row else r)
  | fired {id now : ℕ} {record : Option StoredJson} {old row : Schedule}
      (hfind : s.rows.find? (·.id = id) = some old) (hrow : row = old ∨ ∃ next,
        computeNextRun make old.cronExpression old.timezone now = .ok next ∧
        row = { old with lastRunAt := some now, nextRunAt := next }) :
      RowsAfter make s (.fire id record now) (s.rows.map fun r => if r.id = id then row else r)

theorem rows_after (validate : Validator) (s : Schedules) (ev : ServiceEvent) :
    RowsAfter make s ev (s.after validate make ev).rows := by
  cases ev with
  | request a faults =>
    by_cases ha : a.WritesRow
    · cases a with
      | create req id now =>
        simp only [Schedules.after, Schedules.answer]
        rcases @createSchedule_cases _ make s faults req id now with
          h | ⟨row, hrow, hnew, -, hrows, -⟩
        · rw [h]
          exact .fewer (List.Sublist.refl _)
        · rw [hrows]
          exact .created hrow hnew
      | update id req now =>
        simp only [Schedules.after, Schedules.answer]
        rcases @updateSchedule_cases _ make s faults id req now with
          h | ⟨old, row, hfind, hrow, hcommit, hrows, -⟩
        · rw [h]
          exact .fewer (List.Sublist.refl _)
        · rw [hrows]
          exact .updated hfind hrow hcommit
      | _ => exact ha.elim
    · simp only [Schedules.after]
      exact .fewer (answer_rows ha)
  | fire id record now =>
    simp only [Schedules.after, Schedules.fire]
    cases hf : (executeScheduledWorkflow validate make (s.rows.find? (·.id = id)) record now).1 with
    | none => exact .fewer (List.Sublist.refl _)
    | some row =>
      obtain ⟨old, hfind, hrow⟩ := executeScheduled_row hf
      exact .fired hfind hrow

end Requests

end ScoutEngine
