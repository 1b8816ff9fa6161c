import ScoutEngine.Api.Report
import ScoutEngine.Lib.Table
import ScoutEngine.Schedules.Service

/-!
# The steps of an execution, read back

`get_execution` reads the rows that session 2 stored. They have no column for their place: the query
sorts them by `step_order`, which a loop repeats.

* `StepDetail`, `ExecutionDetail`, `Records.getExecution`; `shown`: the fields to compare.
* `InOrder`: the order numbers of the results ascend, and results with the same number are the same.
* **`steps_kept_iff`**: the steps come back as they were stored iff there are none, or they are
  committed and in order.
* `loop_reordered`: the results of a loop with two steps; an order number of more than 31 bits.
-/

set_option autoImplicit false

namespace ScoutEngine

open Table

/-! ## The answer -/

/-- A step as `get_execution` shows it. -/
structure StepDetail where
  stepOrder : ℕ
  stepName : String
  action : String
  status : String
  elapsedMs : ℕ
  errorMessage : Option String
  screenshotUrl : Option String

/-- An execution as `get_execution` shows it. -/
structure ExecutionDetail where
  id : String
  status : Status
  totalSteps : ℕ
  passedSteps : ℤ
  failedSteps : ℤ
  errorMessage : Option String
  callbackUrl : Option String
  outputs : Option Outputs
  startedAt : Option String
  finishedAt : Option String
  steps : List StepDetail

/-- `os.path.basename(path)`. -/
def Path.basename (path : String) : String :=
  String.ofList (path.toList.reverse.takeWhile (· ≠ '/')).reverse

def ExecutionStep.detail (executionId : String) (row : ExecutionStep) : StepDetail :=
  { stepOrder := row.stepOrder
    stepName := row.stepName
    action := row.action
    status := row.status
    elapsedMs := row.elapsedMs
    errorMessage := row.errorMessage
    screenshotUrl :=
      if row.screenshotPath.getD "" = "" then none
      else some ("/api/executions/" ++ executionId ++ "/artifacts/screenshot/" ++
        Path.basename (row.screenshotPath.getD "")) }

/-- **`get_execution`**, when the query of the steps is answered by these rows and the download
directory yields these outputs. -/
def Records.getExecution (cfg : ReportConfig) (executionId : String) (derived : Option Outputs)
    (answer : List ExecutionStep) (found : Option Records) : Except ApiError ExecutionDetail :=
  match found with
  | none => .error ⟨404, "Execution not found"⟩
  | some s =>
    let merged := Dict.update (s.row.outputs.getD []) (derived.getD [])
    .ok
      { id := executionId
        status := s.row.status
        totalSteps := s.row.totalSteps
        passedSteps := s.row.passedSteps
        failedSteps := s.row.failedSteps
        errorMessage := s.row.errorMessage
        callbackUrl := s.row.callbackUrl
        outputs := if merged.isEmpty then none else some merged
        startedAt := s.row.startedAt.map cfg.isoformat
        finishedAt := s.row.finishedAt.map cfg.isoformat
        steps := answer.map (ExecutionStep.detail executionId) }

/-! ## What is compared -/

/-- Order, name, action, status, elapsed time and error. -/
abbrev Shown := ℕ × String × String × String × ℕ × Option String

def StepDetail.shown (d : StepDetail) : Shown :=
  (d.stepOrder, d.stepName, d.action, d.status, d.elapsedMs, d.errorMessage)

def ExecutionStep.shown (row : ExecutionStep) : Shown :=
  (row.stepOrder, row.stepName, row.action, row.status, row.elapsedMs, row.errorMessage)

def StepResult.shown (r : StepResult) : Shown :=
  (r.stepOrder, r.stepName, r.action.name, r.status.name, r.elapsedMs, r.error)

/-- **The order numbers ascend, and results with the same number are told apart by nothing.** -/
def InOrder (steps : List StepResult) : Prop :=
  steps.Pairwise fun a b => a.stepOrder ≤ b.stepOrder ∧ (a.stepOrder = b.stepOrder →
    a.shown = b.shown)

instance (steps : List StepResult) : Decidable (InOrder steps) :=
  @List.instDecidablePairwise _ _ (fun _ _ => inferInstanceAs (Decidable (_ ∧ (_ → _)))) steps

/-- **The steps come back as they were stored**, whatever the database answers. -/
def StepsKept (cfg : ReportConfig) (executionId : String) (steps : List StepResult) (s : Records) :
    Prop :=
  ∀ derived answer detail, Ordered ExecutionStep.stepOrder s.steps answer →
    Records.getExecution cfg executionId derived answer (some s) = .ok detail →
      detail.steps.map StepDetail.shown = steps.map StepResult.shown

section RoundTrip

variable {cfg : ReportConfig} {executionId : String} {s : Records} {steps : List StepResult}

theorem shown_detail (rows : List ExecutionStep) :
    (rows.map (ExecutionStep.detail executionId)).map StepDetail.shown =
      rows.map ExecutionStep.shown := by
  rw [List.map_map]
  exact List.map_congr_left fun row _ => rfl

theorem shown_row (steps : List StepResult) :
    (steps.map StepResult.row).map ExecutionStep.shown = steps.map StepResult.shown := by
  rw [List.map_map]
  exact List.map_congr_left fun r _ => rfl

/-- `get_execution` changes no row and drops none. -/
theorem stepsKept_iff_answers : StepsKept cfg executionId steps s ↔
    ∀ answer, Ordered ExecutionStep.stepOrder s.steps answer →
      answer.map ExecutionStep.shown = steps.map StepResult.shown := by
  constructor
  · intro h answer hans
    have hsteps := h none answer _ hans rfl
    rwa [shown_detail] at hsteps
  · intro h derived answer detail hans hd
    rw [← Except.ok.inj hd]
    exact (shown_detail answer).trans (h answer hans)

/-- Results that are stored come back iff they are in order. -/
theorem stored_kept_iff (h : s.steps = steps.map StepResult.row) :
    StepsKept cfg executionId steps s ↔ InOrder steps := by
  rw [stepsKept_iff_answers, h, ← shown_row steps]
  have horder : ∀ r : ExecutionStep, r.shown.1 = r.stepOrder := fun _ => rfl
  refine (ordered_map_iff (g := Prod.fst) horder).trans ?_
  rw [List.pairwise_map]
  rfl

/-- Nothing is stored of results that are refused. -/
theorem kept_iff_of_none (h : s.steps = []) : StepsKept cfg executionId steps s ↔ steps = [] := by
  rw [stepsKept_iff_answers, h]
  constructor
  · intro hall
    exact List.map_eq_nil_iff.mp (hall [] ⟨.refl [], .nil⟩).symm
  · rintro rfl answer ⟨hperm, -⟩
    rw [List.nil_perm.mp hperm.symm]
    rfl

/-- Where nothing was stored, results come back iff there are none, or they are committed and in
order. -/
theorem store_kept_iff {found : Records} {res : ExecutionResult} {now : ℕ}
    (hnew : found.steps = []) :
    StepsKept cfg executionId res.steps (found.store cfg executionId res now).1 ↔
      res.steps = [] ∨
        Committable cfg.columns (found.row.finish res now) (res.steps.map StepResult.row) ∧
          InOrder res.steps := by
  by_cases hfits : Committable cfg.columns (found.row.finish res now) (res.steps.map StepResult.row)
  · rw [Records.store_committed hfits, and_iff_right hfits]
    have hsteps : found.steps ++ res.steps.map StepResult.row = res.steps.map StepResult.row := by
      rw [hnew, List.nil_append]
    refine (stored_kept_iff hsteps).trans ⟨Or.inr, fun h => h.elim (fun hnil => ?_) id⟩
    rw [hnil]
    exact .nil
  · rw [Records.store_refused hfits, kept_iff_of_none hnew]
    exact ⟨Or.inl, fun h => h.resolve_right fun h => hfits h.1⟩

/-- **Main result.** Session 2 finds an execution without steps, whatever stops have done to its
row. Its results come back as they were iff there are none, or they are committed and in order. -/
theorem steps_kept_iff [PyText] (cfg : ReportConfig) (env : Environs)
    (execute : Workflow → Except PyExc ExecutionResult) (executionId : String)
    (workflow : DeclaredWorkflow) (overrides : Option (Dict String String)) (finished : ℕ)
    {found : Records} (hnew : found.steps = []) :
    StepsKept cfg executionId (runOutcome env execute workflow overrides).steps
      (found.store cfg executionId (runOutcome env execute workflow overrides) finished).1 ↔
      (runOutcome env execute workflow overrides).steps = [] ∨
        Committable cfg.columns
          (found.row.finish (runOutcome env execute workflow overrides) finished)
          ((runOutcome env execute workflow overrides).steps.map StepResult.row) ∧
        InOrder (runOutcome env execute workflow overrides).steps :=
  store_kept_iff hnew

/-- So it is without a stop. -/
theorem runExecution_kept_iff [PyText] {env : Environs}
    {execute : Workflow → Except PyExc ExecutionResult} {workflow : DeclaredWorkflow}
    {overrides : Option (Dict String String)} {started finished : ℕ} {row : Execution} :
    StepsKept cfg executionId (runOutcome env execute workflow overrides).steps
      (runExecution cfg env execute executionId workflow overrides started finished
        { row := row }).1 ↔
      (runOutcome env execute workflow overrides).steps = [] ∨
        Committable cfg.columns
          ((row.mark started row).finish (runOutcome env execute workflow overrides) finished)
          ((runOutcome env execute workflow overrides).steps.map StepResult.row) ∧
        InOrder (runOutcome env execute workflow overrides).steps :=
  store_kept_iff rfl

end RoundTrip

/-! ## A loop -/

section Example

attribute [local instance] asciiText

/-- Two steps, one after the other. -/
def twoClears : DeclaredWorkflow where
  settings := { humanMode := false }
  steps :=
    [{ order := 1, order_pos := WorkflowStep.order_one, name := "Name", action := .clear },
      { order := 2, order_pos := WorkflowStep.order_two, name := "Town", action := .clear }]

/-- Two steps in a loop over two items. -/
def loopOfTwo : DeclaredWorkflow where
  settings := { humanMode := false }
  steps :=
    [{ order := 1, order_pos := WorkflowStep.order_one, name := "Each", action := .loop
       value := some "[7, 8]", loopVar := some "x", loopSteps := some 2 },
      { order := 2, order_pos := WorkflowStep.order_two, name := "Name", action := .clear },
      { order := 3, order_pos := WorkflowStep.order_three, name := "Town", action := .clear }]

/-- The executor in a browser in which everything works, over eight moves. -/
def executeEightMoves (w : Workflow) : Except PyExc ExecutionResult :=
  let cfg : Config := { workflow := w, executionId := some "e", hasPauseQueue := true }
  let env : Env := { answer := fun _ _ => { result := .ok .none }, clock := fun _ => 0 }
  (finish cfg env (execution cfg env (fun _ _ => {}) 8)).1

theorem steps_kept_iff_twoClears :
    (runOutcome noEnvirons executeEightMoves twoClears none).steps.map StepResult.stepOrder =
      [1, 2] ∧
    StepsKept { isoformat := toString } "e"
      (runOutcome noEnvirons executeEightMoves twoClears none).steps
      (({ row := {} } : Records).store { isoformat := toString } "e"
        (runOutcome noEnvirons executeEightMoves twoClears none) 2).1 :=
  ⟨by decide +kernel,
    (steps_kept_iff _ _ _ _ _ _ _ rfl).mpr (Or.inr ⟨by decide +kernel, by decide +kernel⟩)⟩

/-- One step, with the first number that no `Integer` column holds. -/
def hugeOrder : DeclaredWorkflow where
  settings := { humanMode := false }
  steps := [{ order := 2147483648, order_pos := by decide, name := "Name", action := .clear }]

/-- The run is completed with these order numbers, and its steps do not come back. -/
def LosesOrder (workflow : DeclaredWorkflow) (orders : List ℕ) : Prop :=
  (runOutcome noEnvirons executeEightMoves workflow none).status = .completed ∧
    (runOutcome noEnvirons executeEightMoves workflow none).steps.map StepResult.stepOrder =
      orders ∧
    ¬ StepsKept { isoformat := toString } "e"
      (runOutcome noEnvirons executeEightMoves workflow none).steps
      (runExecution { isoformat := toString } noEnvirons executeEightMoves "e" workflow none 1 2
        { row := {} }).1

/-- **The results of a loop are sorted by their numbers**: after the first visit to the first step
comes the second, in every answer of the database. A number that is too large is not stored. -/
theorem loop_reordered :
    LosesOrder loopOfTwo [1, 2, 3, 2, 3] ∧ LosesOrder hugeOrder [2147483648] := by
  refine ⟨⟨by decide +kernel, by decide +kernel, fun hkept => ?_⟩,
    by decide +kernel, by decide +kernel, fun hkept => ?_⟩
  · exact absurd (runExecution_kept_iff.mp hkept) (by decide +kernel)
  · exact absurd (runExecution_kept_iff.mp hkept) (by decide +kernel)

end Example

end ScoutEngine
