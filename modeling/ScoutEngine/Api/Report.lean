import ScoutEngine.Api.Columns
import ScoutEngine.Api.Service
import ScoutEngine.Resolution

/-!
# What is left of a run

`_run_execution` with all columns that it writes: the row of the execution, the rows of its steps,
the two registries and the webhook. The database refuses a commit with a value that does not fit.

* `Execution`, `ExecutionStep`: the rows; `Committable`: session 2 can be committed.
* `runExecution`, built from `runOutcome`, `Execution.mark` and `Records.store`.
* **`reported_iff`**: without a stop, and in a database that refuses texts that are too long and
  nothing else, everything is left as the result says iff it is `Storable`.
* `stopHistory`: stops before session 2 reads the row; **`agrees_iff`**: when the webhook says what
  the row says.
-/

set_option autoImplicit false

namespace ScoutEngine

open Transition

/-! ## Rows -/

/-- A row of `executions`, with the columns that a session writes or the webhook reads. -/
structure Execution extends Row where
  startedAt : Option ℕ := none
  finishedAt : Option ℕ := none
  callbackUrl : Option String := none
  totalSteps : ℕ := 0

/-- A row of `execution_steps`. -/
structure ExecutionStep where
  stepOrder : ℕ
  stepName : String
  action : String
  status : String
  elapsedMs : ℕ
  errorMessage : Option String
  screenshotPath : Option String
  deriving DecidableEq

def StepStatus.name : StepStatus → String
  | passed => "passed"
  | failed => "failed"

/-- The row that stands for a result. -/
def StepResult.row (r : StepResult) : ExecutionStep :=
  { stepOrder := r.stepOrder
    stepName := r.stepName
    action := r.action.name
    status := r.status.name
    elapsedMs := r.elapsedMs
    errorMessage := r.error
    screenshotPath := r.screenshotPath }

/-- No text is longer than its column. -/
def ExecutionStep.Short (row : ExecutionStep) : Prop :=
  row.stepName.length ≤ 255 ∧ row.action.length ≤ 50 ∧ row.status.length ≤ 20 ∧
    row.screenshotPath.all (fun path => path.length ≤ 500) = true

/-- **Every column of the row holds its value.** -/
def ExecutionStep.Fits (columns : Columns) (row : ExecutionStep) : Prop :=
  row.Short ∧ columns.integer row.stepOrder = true ∧ columns.integer row.elapsedMs = true ∧
    columns.text row.stepName = true ∧ row.errorMessage.all columns.text = true ∧
      row.screenshotPath.all columns.text = true

/-- The columns that session 2 writes hold their values. -/
def Execution.Fits (columns : Columns) (row : Execution) : Prop :=
  columns.integer row.passedSteps = true ∧ columns.integer row.failedSteps = true ∧
    row.errorMessage.all columns.text = true ∧ row.outputs.all columns.json = true

/-- **The commit of session 2 is not refused.** -/
def Committable (columns : Columns) (row : Execution) (steps : List ExecutionStep) : Prop :=
  row.Fits columns ∧ ∀ step ∈ steps, step.Fits columns

instance (row : ExecutionStep) : Decidable row.Short := inferInstanceAs (Decidable (_ ∧ _))

instance (columns : Columns) (row : ExecutionStep) : Decidable (row.Fits columns) :=
  inferInstanceAs (Decidable (_ ∧ _))

instance (columns : Columns) (row : Execution) : Decidable (row.Fits columns) :=
  inferInstanceAs (Decidable (_ ∧ _))

instance (columns : Columns) (row : Execution) (steps : List ExecutionStep) :
    Decidable (Committable columns row steps) := inferInstanceAs (Decidable (_ ∧ _))

/-- **Every name has at most 255 characters, and every screenshot path at most 500.** -/
def Storable (steps : List StepResult) : Prop :=
  ∀ r ∈ steps, r.stepName.length ≤ 255 ∧ ∀ path, r.screenshotPath = some path → path.length ≤ 500

/-- The names of the actions and of the statuses are short. -/
theorem short_row_iff (r : StepResult) : r.row.Short ↔
    r.stepName.length ≤ 255 ∧ ∀ path, r.screenshotPath = some path → path.length ≤ 500 := by
  have haction : r.action.name.length ≤ 50 := by cases r.action <;> decide
  have hstatus : r.status.name.length ≤ 20 := by cases r.status <;> decide
  have hpath : r.screenshotPath.all (fun path => path.length ≤ 500) = true ↔
      ∀ path, r.screenshotPath = some path → path.length ≤ 500 := by
    cases r.screenshotPath <;> simp
  exact ⟨fun ⟨h1, _, _, h2⟩ => ⟨h1, hpath.mp h2⟩,
    fun ⟨h1, h2⟩ => ⟨h1, haction, hstatus, hpath.mpr h2⟩⟩

theorem all_lengthsOnly_text (text : Option String) :
    text.all Columns.lengthsOnly.text = true := by
  cases text <;> rfl

theorem fits_lengthsOnly_iff (row : ExecutionStep) :
    row.Fits Columns.lengthsOnly ↔ row.Short :=
  and_iff_left ⟨rfl, rfl, rfl, all_lengthsOnly_text _, all_lengthsOnly_text _⟩

theorem Execution.fits_lengthsOnly (row : Execution) : row.Fits Columns.lengthsOnly := by
  refine ⟨rfl, rfl, all_lengthsOnly_text _, ?_⟩
  cases row.outputs <;> rfl

/-- **Where nothing but the lengths counts**, the results are committed iff they are storable. -/
theorem committable_lengthsOnly_iff (row : Execution) (steps : List StepResult) :
    Committable Columns.lengthsOnly row (steps.map StepResult.row) ↔ Storable steps := by
  rw [Committable, and_iff_right row.fits_lengthsOnly, List.forall_mem_map]
  exact forall₂_congr fun r _ => (fits_lengthsOnly_iff _).trans (short_row_iff r)

/-! ## The sessions -/

namespace Execution

/-- Session 1, which has read `read`. -/
def mark (read : Execution) (now : ℕ) (current : Execution) : Execution :=
  { current with
    toRow := read.toRow.setStatus .running current.toRow
    startedAt := commitColumn read.startedAt (some now) current.startedAt }

/-- The commit of `stop_execution`, which has read `read`. -/
def stop (read : Execution) (now : ℕ) (current : Execution) : Execution :=
  { current with
    toRow := read.toRow.setStatus .cancelled current.toRow
    finishedAt := commitColumn read.finishedAt (some now) current.finishedAt }

/-- The row after session 2. -/
def finish (res : ExecutionResult) (now : ℕ) (read : Execution) : Execution :=
  { read with toRow := read.toRow.store res read.toRow, finishedAt := some now }

end Execution

/-- `settings.webhook_url`, `datetime.isoformat`, and the database. -/
structure ReportConfig where
  webhookUrl : String := ""
  isoformat : ℕ → String
  columns : Columns := .postgres

/-- With a database that refuses nothing but texts that are too long. -/
def ReportConfig.lengthsOnly (cfg : ReportConfig) : ReportConfig :=
  { cfg with columns := .lengthsOnly }

/-- What `send_webhook_callback` posts. -/
structure Payload where
  callbackUrl : String
  executionId : String
  status : Status
  stepsPassed : ℤ
  stepsFailed : ℤ
  errorMessage : Option String
  startedAt : String
  finishedAt : String
  durationMs : ℕ

/-- A time as the webhook shows it. -/
def ReportConfig.iso (cfg : ReportConfig) (time : Option ℕ) : String :=
  (time.map cfg.isoformat).getD ""

/-- The webhook after session 2, unless there is no address. -/
def webhook (cfg : ReportConfig) (executionId : String) (read : Execution) (res : ExecutionResult)
    (now : ℕ) : Option Payload :=
  let url := if read.callbackUrl.getD "" = "" then cfg.webhookUrl else read.callbackUrl.getD ""
  if url = "" then none
  else
    some
      { callbackUrl := url
        executionId := executionId
        status := read.toRow.finalStatus res
        stepsPassed := res.passed
        stepsFailed := res.failed
        errorMessage := res.error
        startedAt := cfg.iso read.startedAt
        finishedAt := cfg.iso (some now)
        durationMs := res.totalMs }

/-! ## `_run_execution` -/

/-- The rows of one execution, and the ids in the registries. -/
structure Records where
  row : Execution
  steps : List ExecutionStep := []
  cancels : List String := []
  pauses : List String := []

/-- How `_run_execution` ends. -/
inductive Ending where
  | sent (payload : Option Payload)
  /-- The commit of session 2 was refused, and nothing of it is left. -/
  | refused

namespace Records

/-- Session 2: one commit of everything. -/
def store (cfg : ReportConfig) (executionId : String) (res : ExecutionResult) (now : ℕ)
    (s : Records) : Records × Ending :=
  let rows := res.steps.map StepResult.row
  if Committable cfg.columns (s.row.finish res now) rows then
    ({ s with row := s.row.finish res now, steps := s.steps ++ rows },
      .sent (webhook cfg executionId s.row res now))
  else (s, .refused)

/-- The two `register` calls. -/
def register (executionId : String) (s : Records) : Records :=
  { s with cancels := executionId :: s.cancels, pauses := executionId :: s.pauses }

/-- The `finally` block. -/
def unregister (executionId : String) (s : Records) : Records :=
  { s with
    cancels := s.cancels.filter (· ≠ executionId)
    pauses := s.pauses.filter (· ≠ executionId) }

end Records

/-- `exec_result`: what `execute_workflow` returns, or a failure with the text of the exception. -/
def runOutcome [PyText] (env : Environs) (execute : Workflow → Except PyExc ExecutionResult)
    (workflow : DeclaredWorkflow) (overrides : Option (Dict String String)) : ExecutionResult :=
  match resolveVariables env workflow overrides with
  | .error e => Service.failedResult e.msg
  | .ok resolved =>
    match execute resolved with
    | .error e => Service.failedResult e.msg
    | .ok res => res

/-- **`_run_execution`**, when no stop comes. -/
def runExecution [PyText] (cfg : ReportConfig) (env : Environs)
    (execute : Workflow → Except PyExc ExecutionResult) (executionId : String)
    (workflow : DeclaredWorkflow) (overrides : Option (Dict String String)) (started finished : ℕ)
    (s : Records) : Records × Ending :=
  let s := { s with row := s.row.mark started s.row }.register executionId
  let res := runOutcome env execute workflow overrides
  (s.unregister executionId).store cfg executionId res finished

/-- **Everything is left as the result says.** -/
structure Reported (executionId : String) (res : ExecutionResult) (s s' : Records) : Prop where
  final : s'.row.status.Final
  status : s'.row.status = res.status.status
  passed : s'.row.passedSteps = res.passed
  failed : s'.row.failedSteps = res.failed
  steps : s'.steps = s.steps ++ res.steps.map StepResult.row
  cancels : executionId ∉ s'.cancels
  pauses : executionId ∉ s'.pauses

section Report

variable {cfg : ReportConfig} {executionId : String} {res : ExecutionResult} {s : Records}

theorem commitColumn_of_read {α : Type} [DecidableEq α] (read new : α) :
    commitColumn read new read = new := by
  unfold commitColumn
  split_ifs with h
  · exact h.symm
  · rfl

theorem Records.store_committed {now : ℕ}
    (h : Committable cfg.columns (s.row.finish res now) (res.steps.map StepResult.row)) :
    s.store cfg executionId res now =
      ({ s with row := s.row.finish res now, steps := s.steps ++ res.steps.map StepResult.row },
        .sent (webhook cfg executionId s.row res now)) :=
  if_pos h

theorem Records.store_refused {now : ℕ}
    (h : ¬ Committable cfg.columns (s.row.finish res now) (res.steps.map StepResult.row)) :
    s.store cfg executionId res now = (s, .refused) :=
  if_neg h

theorem RunStatus.final (st : RunStatus) : st.status.Final := by
  cases st <;> decide

theorem Records.not_mem_unregister (s : Records) (executionId : String) :
    executionId ∉ (s.unregister executionId).cancels ∧
      executionId ∉ (s.unregister executionId).pauses := by
  simp [Records.unregister]

section Run

variable [PyText] {env : Environs} {execute : Workflow → Except PyExc ExecutionResult}
  {workflow : DeclaredWorkflow} {overrides : Option (Dict String String)} {started finished : ℕ}

/-- A result that is refused leaves the row running. -/
theorem runExecution_refused
    (h : ¬ Committable cfg.columns
      ((s.row.mark started s.row).finish (runOutcome env execute workflow overrides) finished)
      ((runOutcome env execute workflow overrides).steps.map StepResult.row)) :
    (runExecution cfg env execute executionId workflow overrides started finished s).1.row.status =
      .running := by
  unfold runExecution
  dsimp only
  rw [Records.store_refused h]
  exact commitColumn_of_read _ _

/-- **Without a stop everything is left as the result says iff its commit is not refused.** -/
theorem reported_iff_committable :
    Reported executionId (runOutcome env execute workflow overrides) s
      (runExecution cfg env execute executionId workflow overrides started finished s).1 ↔
      Committable cfg.columns
        ((s.row.mark started s.row).finish (runOutcome env execute workflow overrides) finished)
        ((runOutcome env execute workflow overrides).steps.map StepResult.row) := by
  by_cases hfits : Committable cfg.columns
      ((s.row.mark started s.row).finish (runOutcome env execute workflow overrides) finished)
      ((runOutcome env execute workflow overrides).steps.map StepResult.row)
  · refine ⟨fun _ => hfits, fun _ => ?_⟩
    unfold runExecution
    dsimp only
    generalize runOutcome env execute workflow overrides = res at hfits ⊢
    rw [Records.store_committed hfits]
    obtain ⟨hcancels, hpauses⟩ := Records.not_mem_unregister
      (({ s with row := s.row.mark started s.row } : Records).register executionId) executionId
    have hrunning : (s.row.mark started s.row).status = .running := commitColumn_of_read _ _
    have hstatus : ((s.row.mark started s.row).finish res finished).status = res.status.status := by
      refine (commitColumn_of_read _ _).trans ?_
      unfold Row.finalStatus
      rw [if_neg]
      show (s.row.mark started s.row).status ≠ .cancelled
      rw [hrunning]
      decide
    refine ⟨?_, hstatus, commitColumn_of_read _ _, commitColumn_of_read _ _, rfl, hcancels, hpauses⟩
    show ((s.row.mark started s.row).finish res finished).status.Final
    rw [hstatus]
    exact res.status.final
  · refine ⟨fun h => absurd h.final ?_, fun h => absurd h hfits⟩
    rw [runExecution_refused hfits]
    decide

end Run

/-- **Main result.** Without a stop, and where nothing but the length of a text is refused, everything
is left as the result says iff its texts are not too long. -/
theorem reported_iff [PyText] (cfg : ReportConfig) (env : Environs)
    (execute : Workflow → Except PyExc ExecutionResult) (executionId : String)
    (workflow : DeclaredWorkflow) (overrides : Option (Dict String String)) (started finished : ℕ)
    (s : Records) :
    Reported executionId (runOutcome env execute workflow overrides) s
      (runExecution cfg.lengthsOnly env execute executionId workflow overrides started finished
        s).1 ↔
      Storable (runOutcome env execute workflow overrides).steps :=
  reported_iff_committable.trans (committable_lengthsOnly_iff _ _)

end Report

/-! ## A name that does not fit -/

section Example

attribute [local instance] asciiText

/-- One step with a name of 256 characters. -/
def longName : DeclaredWorkflow where
  settings := { humanMode := false }
  steps :=
    [{ order := 1, order_pos := WorkflowStep.order_one,
       name := String.ofList (List.replicate 256 'a'), action := .clear }]

/-- The executor in a browser in which everything works, over two moves. -/
def executeTwoMoves (w : Workflow) : Except PyExc ExecutionResult :=
  let cfg : Config := { workflow := w, executionId := some "e", hasPauseQueue := true }
  let env : Env := { answer := fun _ _ => { result := .ok .none }, clock := fun _ => 0 }
  (finish cfg env (execution cfg env (fun _ _ => {}) 2)).1

/-- A database that refuses nothing but texts that are too long. -/
def plainReport : ReportConfig := { isoformat := toString, columns := .lengthsOnly }

/-- **The run completes, and its row stays running.** -/
theorem left_running :
    (runOutcome noEnvirons executeTwoMoves longName none).status = .completed ∧
      (runExecution plainReport noEnvirons executeTwoMoves "e" longName none 1 2
        { row := {} }).1.row.status = .running ∧
      ¬ Reported "e" (runOutcome noEnvirons executeTwoMoves longName none) { row := {} }
        (runExecution plainReport noEnvirons executeTwoMoves "e" longName none 1 2
          { row := {} }).1 := by
  have hsteps : ¬ Storable (runOutcome noEnvirons executeTwoMoves longName none).steps := by
    intro h
    have hmem : ∃ r ∈ (runOutcome noEnvirons executeTwoMoves longName none).steps,
        r.stepName = String.ofList (List.replicate 256 'a') := ⟨_, List.mem_cons_self, rfl⟩
    obtain ⟨r, hr, hname⟩ := hmem
    have hlen := (h r hr).1
    rw [hname, String.length_ofList, List.length_replicate] at hlen
    exact absurd hlen (by decide)
  have hrun : (runExecution plainReport noEnvirons executeTwoMoves "e" longName none 1 2
      { row := {} }).1.row.status = .running :=
    runExecution_refused fun h => hsteps ((committable_lengthsOnly_iff _ _).mp h)
  refine ⟨rfl, hrun, fun h => absurd h.final ?_⟩
  rw [hrun]
  decide

end Example

/-! ## Stops before session 2 -/

/-- Where a stop request is. -/
inductive StopPhase where
  | sent
  | accepted (read : Execution)
  | stopped
  | refused

/-- Where session 1 is. -/
inductive MarkPhase where
  | scheduled
  | marking (read : Execution)
  | marked

/-- The row of an execution while session 1 and stop requests write it. -/
structure StopState where
  row : Execution
  phase : MarkPhase := .scheduled
  stops : ℕ → StopPhase := fun _ => .sent

inductive StopAct where
  | markRead
  | markCommit (now : ℕ)
  | stopRead (k : ℕ)
  | stopCommit (k now : ℕ)

def StopState.step (s : StopState) : StopAct → Option StopState
  | .markRead =>
    match s.phase with
    | .scheduled => some { s with phase := .marking s.row }
    | _ => none
  | .markCommit now =>
    match s.phase with
    | .marking read => some { s with row := read.mark now s.row, phase := .marked }
    | _ => none
  | .stopRead k =>
    match s.stops k with
    | .sent =>
      let answer := if s.row.status = .pending ∨ s.row.status = .running then .accepted s.row
        else .refused
      some { s with stops := Function.update s.stops k answer }
    | _ => none
  | .stopCommit k now =>
    match s.stops k with
    | .accepted read =>
      some { s with row := read.stop now s.row, stops := Function.update s.stops k .stopped }
    | _ => none

/-- **Session 1 and any number of stop requests**, from the row that `run_workflow` commits. -/
def stopHistory (callbackUrl : Option String) (totalSteps : ℕ) : System StopState StopAct where
  init := { row := { callbackUrl := callbackUrl, totalSteps := totalSteps } }
  step := StopState.step

/-- **The webhook says what the row says.** -/
structure Agrees (cfg : ReportConfig) (p : Payload) (row : Execution) : Prop where
  status : p.status = row.status
  passed : p.stepsPassed = row.passedSteps
  failed : p.stepsFailed = row.failedSteps
  error : p.errorMessage = row.errorMessage
  startedAt : p.startedAt = cfg.iso row.startedAt
  finishedAt : p.finishedAt = cfg.iso row.finishedAt

section Webhook

variable {cfg : ReportConfig} {executionId : String} {res : ExecutionResult} {now totalSteps : ℕ}
  {callbackUrl : Option String} {h : List (StopState × StopAct)} {s s' : StopState} {a : StopAct}

/-- Neither session 1 nor a stop writes the error. -/
theorem StopState.step_error (hs : s.step a = some s') :
    s'.row.errorMessage = s.row.errorMessage := by
  cases a with
  | markRead | markCommit | stopRead | stopCommit =>
    simp only [StopState.step] at hs
    split at hs
    · obtain rfl := Option.some.inj hs
      rfl
    · cases hs

theorem error_of_run (hr : (stopHistory callbackUrl totalSteps).Run h s) :
    s.row.errorMessage = none :=
  hr.always (P := fun s => s.row.errorMessage = none) rfl
    fun _ _ _ hi hs => (StopState.step_error hs).trans hi

theorem webhook_some {read : Execution} {p : Payload}
    (h : webhook cfg executionId read res now = some p) : ∃ url, p =
      { callbackUrl := url, executionId := executionId, status := read.toRow.finalStatus res
        stepsPassed := res.passed, stepsFailed := res.failed, errorMessage := res.error
        startedAt := cfg.iso read.startedAt, finishedAt := cfg.iso (some now)
        durationMs := res.totalMs } := by
  unfold webhook at h
  dsimp only at h
  split_ifs at h <;> exact ⟨_, (Option.some.inj h).symm⟩

/-- The error that session 2 commits. -/
theorem finish_error (read : Execution) (res : ExecutionResult) (now : ℕ) :
    (read.finish res now).errorMessage =
      if read.status = .cancelled ∨ res.error.getD "" = "" then read.errorMessage else res.error :=
  commitColumn_of_read _ _

theorem errorAgrees_iff {error : Option String} {cancelled : Prop} [Decidable cancelled] :
    (error = if cancelled ∨ error.getD "" = "" then none else error) ↔
      error = none ∨ error ≠ some "" ∧ ¬ cancelled := by
  cases error with
  | none => simp
  | some e => by_cases hc : cancelled <;> by_cases he : e = "" <;> simp [hc, he]

/-- **Main result.** Whatever stops were committed before session 2 reads the row, the webhook says
what the row says iff there is no error, or one with a text and no stop in the row. -/
theorem agrees_iff (hr : (stopHistory callbackUrl totalSteps).Run h s) {records records' : Records}
    (hrow : records.row = s.row) {p : Payload}
    (hsent : records.store cfg executionId res now = (records', .sent (some p))) :
    Agrees cfg p records'.row ↔
      res.error = none ∨ res.error ≠ some "" ∧ s.row.status ≠ .cancelled := by
  by_cases hfits : Committable cfg.columns (records.row.finish res now)
      (res.steps.map StepResult.row)
  · rw [Records.store_committed hfits, hrow] at hsent
    obtain ⟨rfl, hending⟩ := Prod.mk.inj hsent
    obtain ⟨url, rfl⟩ := webhook_some (Ending.sent.inj hending)
    have herror := finish_error s.row res now
    rw [error_of_run hr] at herror
    rw [← errorAgrees_iff, ← herror]
    exact ⟨fun h => h.error, fun h => ⟨(commitColumn_of_read _ _).symm,
      (commitColumn_of_read _ _).symm, (commitColumn_of_read _ _).symm, h, rfl, rfl⟩⟩
  · rw [Records.store_refused hfits] at hsent
    cases (Prod.mk.inj hsent).2

end Webhook

section Example

/-- The run has begun, and a stop is committed. -/
def stopActs : List StopAct := [.markRead, .markCommit 1, .stopRead 0, .stopCommit 0 2]

/-- What `execute_workflow` returns when it sees the stop after its first step. -/
def stoppedResult : ExecutionResult :=
  { status := .cancelled, passed := 1, totalMs := 40
    steps := [{ stepOrder := 1, stepName := "Open", action := .click, status := .passed
                elapsedMs := 30 }] }

/-- **A run is stopped, and returns**: the webhook and the row are told the same. -/
theorem agrees_iff_stopped : ∃ h s records' p,
    (stopHistory (some "http://localhost/hook") 2).Run h s ∧ s.row.status = .cancelled ∧
    ({ row := s.row } : Records).store { isoformat := toString } "e" stoppedResult 3 =
      (records', .sent (some p)) ∧ p.status = .cancelled ∧ p.stepsPassed = 1 ∧
    Agrees { isoformat := toString } p records'.row := by
  have he : (stopHistory (some "http://localhost/hook") 2).exec stopActs []
    (stopHistory (some "http://localhost/hook") 2).init = some (_, _) := rfl
  have hr := System.run_exec .init he
  refine ⟨_, _, _, _, hr, rfl, (Records.store_committed (by decide +kernel)).trans rfl, rfl, rfl, ?_⟩
  exact (agrees_iff hr rfl ((Records.store_committed (by decide +kernel)).trans rfl)).mpr (Or.inl rfl)

/-- **A run is stopped and then fails**: the webhook tells of an error, the row does not. -/
theorem webhook_error : ∃ h s records' p,
    (stopHistory (some "http://localhost/hook") 1).Run h s ∧
    ({ row := s.row } : Records).store { isoformat := toString } "e"
      (Service.failedResult "Chrome not found") 3 = (records', .sent (some p)) ∧
    p.errorMessage = some "Chrome not found" ∧ records'.row.errorMessage = none ∧
      ¬ Agrees { isoformat := toString } p records'.row := by
  have he : (stopHistory (some "http://localhost/hook") 1).exec stopActs []
    (stopHistory (some "http://localhost/hook") 1).init = some (_, _) := rfl
  have hr := System.run_exec .init he
  refine ⟨_, _, _, _, hr, (Records.store_committed (by decide +kernel)).trans rfl, rfl, rfl,
    fun h => ?_⟩
  have herror : some "Chrome not found" = none := h.error
  cases herror

end Example

end ScoutEngine
