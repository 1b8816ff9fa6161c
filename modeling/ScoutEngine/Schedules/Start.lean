import ScoutEngine.Fragments
import ScoutEngine.Resolution
import ScoutEngine.Schedules.Service

/-!
# Two ways to start a run

`run_workflow`, for a request, and `execute_scheduled_workflow`, for a job that fires.

* `StoredJson`: what `workflow_json` may hold. `Workflow.model_validate` is not part of the
  repository and a parameter; `RequiresAction` is what the proofs use of it.
* `runWorkflow`, `executeScheduledWorkflow`, with their `StartOutcome`; `SameStart`.
* **`sameStart_iff`**: when the two agree.
-/

set_option autoImplicit false

namespace ScoutEngine

/-! ## Documents -/

/-- A stored `workflow_json`. -/
inductive StoredJson where
  | workflow (raw : RawWorkflow)
  /-- The steps are no list of objects, or the variables no object. -/
  | malformed

/-- `Workflow.model_validate`. -/
abbrev Validator := RawWorkflow → Except PyExc DeclaredWorkflow

/-- **A step without `action` is refused**: the field has no default. -/
def RequiresAction (validate : Validator) : Prop :=
  ∀ raw workflow, validate raw = .ok workflow →
    ∀ step ∈ raw.steps.getD [], Dict.has "action" step = true

namespace StoredJson

/-- Some step is an include directive. -/
def HasInclude : StoredJson → Prop
  | workflow raw => ∃ step ∈ raw.steps.getD [], isInclude step = true
  | malformed => False

def validate (validate : Validator) : StoredJson → Except PyExc DeclaredWorkflow
  | workflow raw => validate raw
  | malformed => .error ⟨.valueError, "validation error"⟩

end StoredJson

section Start

variable [PyText]

/-- `resolve_fragments`. It hands a malformed document on or raises an error; the validation refuses
it in either case. -/
def StoredJson.resolveFragments (db : FragmentStore) : StoredJson → Except PyExc StoredJson
  | workflow raw => do pure (workflow (← ScoutEngine.resolveFragments raw db))
  | malformed => .ok malformed

/-! ## The two ways -/

/-- What `_run_execution` is handed, and what the new row says. -/
structure Launch where
  workflow : DeclaredWorkflow
  overrides : Option (Dict String String)
  totalSteps : ℕ

inductive StartOutcome where
  /-- There is no such schedule, no such workflow, or the schedule is disabled. -/
  | skipped
  | rejected (detail : String)
  /-- There is a row for the execution, and no run. -/
  | stranded (totalSteps : ℕ) (detail : String)
  | launched (launch : Launch)

/-- `run_workflow`, for a request with these variables. -/
def runWorkflow (validate : Validator) (db : FragmentStore) (record : Option StoredJson)
    (vars : Dict String String) : StartOutcome :=
  match record with
  | none => .rejected "Workflow not found"
  | some doc =>
    match (do (← doc.resolveFragments db).validate validate) with
    | .error e => .rejected e.msg
    | .ok workflow =>
      .launched
        { workflow := workflow
          overrides := if vars = [] then none else some vars
          totalSteps := workflow.steps.length }

/-- `execute_scheduled_workflow`, with the schedule as it leaves it. -/
def executeScheduledWorkflow (validate : Validator) (make : TriggerMaker)
    (schedule : Option Schedule) (record : Option StoredJson) (now : ℕ) :
    Option Schedule × StartOutcome :=
  match schedule with
  | none => (none, .skipped)
  | some row =>
    if row.enabled = false then (row, .skipped)
    else
      match record with
      | none => (row, .skipped)
      | some doc =>
        match doc.validate validate with
        | .error e => (row, .rejected e.msg)
        | .ok workflow =>
          match computeNextRun make row.cronExpression row.timezone now with
          | .error e => (row, .stranded workflow.steps.length e.msg)
          | .ok next =>
            (some { row with lastRunAt := some now, nextRunAt := next },
              .launched
                { workflow := workflow
                  overrides := row.vars
                  totalSteps := workflow.steps.length })

/-- **Both reject the workflow, or both start the same run.** No overrides and empty ones are the
same. -/
def SameStart : StartOutcome → StartOutcome → Prop
  | .rejected _, .rejected _ => True
  | .launched a, .launched b => a.workflow = b.workflow ∧
      a.overrides.getD [] = b.overrides.getD [] ∧ a.totalSteps = b.totalSteps
  | _, _ => False

/-- The document can be expanded, and the expansion is a workflow. -/
def Expandable (validate : Validator) (db : FragmentStore) (doc : StoredJson) : Prop :=
  ∃ out workflow, doc.resolveFragments db = .ok out ∧ out.validate validate = .ok workflow

variable {validate : Validator} {make : TriggerMaker} {db : FragmentStore} {doc : StoredJson}

/-- Without a directive the expansion changes nothing. -/
theorem StoredJson.resolveFragments_of_not (h : ¬ doc.HasInclude) :
    doc.resolveFragments db = .ok doc := by
  cases doc with
  | malformed => rfl
  | workflow raw =>
    have hnone : (raw.steps.getD []).filter isInclude = [] := by
      rw [List.filter_eq_nil_iff]
      exact fun step hstep hi => h ⟨step, hstep, hi⟩
    have hraw : ScoutEngine.resolveFragments raw db = .ok raw := by
      unfold ScoutEngine.resolveFragments
      dsimp only
      rw [hnone]
      rfl
    unfold StoredJson.resolveFragments
    dsimp only
    rw [hraw]
    rfl

omit [PyText] in
/-- A document with a directive is refused as it stands. -/
theorem StoredJson.validate_of_hasInclude (hval : RequiresAction validate) (h : doc.HasInclude) :
    ∃ e, doc.validate validate = .error e := by
  cases doc with
  | malformed => exact absurd h id
  | workflow raw =>
    obtain ⟨step, hstep, hi⟩ := h
    cases hv : validate raw with
    | error e => exact ⟨e, hv⟩
    | ok workflow =>
      have haction := hval raw workflow hv step hstep
      rw [isInclude, haction, Bool.not_true, Bool.and_false] at hi
      cases hi

theorem runWorkflow_cases (validate : Validator) (db : FragmentStore) (doc : StoredJson)
    (vars : Dict String String) :
    (∃ out workflow, doc.resolveFragments db = .ok out ∧ out.validate validate = .ok workflow ∧
      runWorkflow validate db (some doc) vars = .launched
        ⟨workflow, if vars = [] then none else some vars, workflow.steps.length⟩) ∨
      ¬ Expandable validate db doc ∧
        ∃ detail, runWorkflow validate db (some doc) vars = .rejected detail := by
  unfold runWorkflow Expandable
  dsimp only
  cases hr : doc.resolveFragments db with
  | error e => exact Or.inr ⟨fun ⟨_, _, h, _⟩ => absurd h (by simp), e.msg, rfl⟩
  | ok out =>
    cases hv : out.validate validate with
    | error e =>
      refine Or.inr ⟨?_, e.msg, ?_⟩
      · rintro ⟨out', workflow, ho, hw⟩
        obtain rfl := Except.ok.inj ho
        rw [hv] at hw
        cases hw
      · show (match out.validate validate with | .error e => _ | .ok w => _) = _
        rw [hv]
    | ok workflow =>
      refine Or.inl ⟨out, workflow, rfl, hv, ?_⟩
      show (match out.validate validate with | .error e => _ | .ok w => _) = _
      rw [hv]

/-- **Main result.** The two ways agree iff the document cannot be expanded to a workflow, or has
no include directive and a time for its next run. -/
theorem sameStart_iff (hval : RequiresAction validate) (row : Schedule) (hen : row.enabled = true)
    (now : ℕ) :
    SameStart (runWorkflow validate db (some doc) (row.vars.getD []))
      (executeScheduledWorkflow validate make (some row) (some doc) now).2 ↔
      (Expandable validate db doc → ¬ doc.HasInclude ∧
        ∃ next, computeNextRun make row.cronExpression row.timezone now = .ok next) := by
  unfold executeScheduledWorkflow
  dsimp only
  rw [if_neg (by simp [hen])]
  rcases runWorkflow_cases validate db doc (row.vars.getD []) with
    ⟨out, workflow, hout, hw, hrun⟩ | ⟨hno, detail, hrun⟩
  · rw [hrun]
    have hexp : Expandable validate db doc := ⟨out, workflow, hout, hw⟩
    by_cases hinc : doc.HasInclude
    · obtain ⟨e, he⟩ := StoredJson.validate_of_hasInclude hval hinc
      rw [he]
      exact ⟨fun h => absurd h id, fun h => absurd hinc (h hexp).1⟩
    · obtain rfl := Except.ok.inj ((StoredJson.resolveFragments_of_not hinc).symm.trans hout)
      rw [hw]
      dsimp only
      cases hn : computeNextRun make row.cronExpression row.timezone now with
      | error e =>
        refine ⟨fun h => absurd h id, fun h => ?_⟩
        obtain ⟨_, next, hnext⟩ := h hexp
        cases hnext
      | ok next =>
        refine ⟨fun _ _ => ⟨hinc, next, rfl⟩, fun _ => ⟨rfl, ?_, rfl⟩⟩
        dsimp only
        split_ifs with hnil
        · exact hnil.symm
        · rfl
  · rw [hrun]
    refine ⟨fun _ h => absurd h hno, fun _ => ?_⟩
    have hrej : ∃ e, doc.validate validate = .error e := by
      by_cases hinc : doc.HasInclude
      · exact StoredJson.validate_of_hasInclude hval hinc
      · cases hv : doc.validate validate with
        | error e => exact ⟨e, rfl⟩
        | ok workflow =>
          exact absurd ⟨doc, workflow, StoredJson.resolveFragments_of_not hinc, hv⟩ hno
    obtain ⟨e, he⟩ := hrej
    rw [he]
    exact trivial

end Start

/-! ## A workflow that includes a fragment -/

section Example

attribute [local instance] asciiText

/-- The validation of a step that clears a field. -/
def validateClearStep (raw : RawStep) : Except PyExc WorkflowStep :=
  match Dict.get "order" raw, Dict.get "name" raw, Dict.get "action" raw with
  | some (.int n), some (.str name), some (.str "clear") =>
    if h : 1 ≤ n.toNat then
      .ok { order := n.toNat, order_pos := h, name := name, action := .clear }
    else .error ⟨.valueError, "Input should be greater than or equal to 1"⟩
  | _, _, _ => .error ⟨.valueError, "Field required"⟩

/-- The validation of workflows of such steps. -/
def validateClear : Validator := fun raw => do
  let steps ← (raw.steps.getD []).mapM validateClearStep
  match Dict.get "name" raw.other with
  | some (.str _) => pure { steps := steps }
  | _ => throw ⟨.valueError, "Field required"⟩

theorem has_action_of_clear {raw : RawStep} {step : WorkflowStep}
    (h : validateClearStep raw = .ok step) : Dict.has "action" raw = true := by
  unfold validateClearStep at h
  split at h
  · rename_i ha
    rw [Dict.has, ha]
    rfl
  · cases h

theorem requiresAction_clear : RequiresAction validateClear := by
  intro raw workflow h
  obtain ⟨steps, hsteps, -⟩ := bind_ok.mp h
  generalize raw.steps.getD [] = raws at hsteps ⊢
  induction raws generalizing steps with
  | nil => exact fun _ hstep => absurd hstep List.not_mem_nil
  | cons r rest ih =>
    rw [List.mapM_cons] at hsteps
    obtain ⟨s, hs, hrest⟩ := bind_ok.mp hsteps
    obtain ⟨ss, hss, -⟩ := bind_ok.mp hrest
    exact List.forall_mem_cons.mpr ⟨has_action_of_clear hs, ih ss hss⟩

/-- A stored fragment. -/
def loginStore : FragmentStore := fun id =>
  if id = "login" then
    some { steps := [[("order", .int 1), ("name", .str "Clear"), ("action", .str "clear")]] }
  else none

/-- A workflow with an include directive. -/
def includesLogin : StoredJson := .workflow
  { steps := some [[("include", .str "login")]]
    other := [("name", .str "Sign in")] }

def nightly : Schedule where
  id := 7
  workflowId := 1
  name := "Nightly"
  cronExpression := "0 6 * * *"

/-- Every trigger is accepted and fires in an hour. -/
def everyHour : TriggerMaker := fun _ _ => .ok fun now => some (now + 3600)

theorem sameStart_iff_login :
    SameStart (runWorkflow validateClear loginStore (some includesLogin) [])
      (executeScheduledWorkflow validateClear everyHour (some nightly) (some includesLogin) 0).2 ↔
      (Expandable validateClear loginStore includesLogin → ¬ includesLogin.HasInclude ∧
        ∃ next, computeNextRun everyHour nightly.cronExpression nightly.timezone 0 = .ok next) :=
  sameStart_iff requiresAction_clear nightly rfl 0

/-- **The request starts a run of one step; the schedule fails.** -/
theorem schedule_skips_fragments :
    (∃ launch, runWorkflow validateClear loginStore (some includesLogin) [] = .launched launch ∧
      launch.totalSteps = 1) ∧
    (executeScheduledWorkflow validateClear everyHour (some nightly) (some includesLogin) 0).2 =
      .rejected "Field required" ∧
    ¬ SameStart (runWorkflow validateClear loginStore (some includesLogin) [])
      (executeScheduledWorkflow validateClear everyHour (some nightly) (some includesLogin) 0).2 := by
  have hrun : runWorkflow validateClear loginStore (some includesLogin) [] = .launched _ := rfl
  have hsched : (executeScheduledWorkflow validateClear everyHour (some nightly)
      (some includesLogin) 0).2 = .rejected "Field required" := rfl
  refine ⟨⟨_, hrun, rfl⟩, hsched, ?_⟩
  rw [hrun, hsched]
  exact id

end Example

end ScoutEngine
