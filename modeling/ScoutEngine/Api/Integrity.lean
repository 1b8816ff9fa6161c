import ScoutEngine.Api.Database
import ScoutEngine.Api.Lifecycle

/-!
# Rows under deletion

What holds of the database while workflows and schedules are deleted under the requests and the
tasks that use them.

* `Database.Sound`: keys and references; one lemma for each statement.
* `Server.Advanced`, **`Server.advanced`**: what a task does next, said once.
* `TaskPhase.Keeps`: the row and the steps of an execution at each point of its task; `ServerInv`,
  **`ServerInv.step`**: the invariant of all runs.
* **`database_consistent`**: every state is consistent, and every unfinished execution has its task
  or has lost it.
* **`deleted_for_good`**: what is deleted does not come back, and what is not deleted stays.
-/

set_option autoImplicit false

namespace ScoutEngine

open Transition Table

/-! ## Keys and references -/

/-- **Keys are unique and used up, and every reference is to a row that is there.** The schedule of
an execution is one of its workflow. -/
structure Database.Sound (db : Database) (nextId : ℕ) : Prop where
  scheduleIds : db.scheduleIds.Nodup
  executionIds : db.executionIds.Nodup
  workflowsUsed : ∀ id ∈ db.workflows, id < nextId
  schedulesUsed : ∀ id ∈ db.scheduleIds, id < nextId
  executionsUsed : ∀ id ∈ db.executionIds, id < nextId
  scheduleWorkflow : Refers db.schedules (fun row => some row.workflowId) db.workflows
  executionWorkflow : Refers db.executions (fun row => some row.workflowId) db.workflows
  executionSchedule : Refers db.executions ExecutionRecord.scheduleId db.scheduleIds
  stepExecution : Refers db.steps (fun p => some p.1) db.executionIds
  sameWorkflow : ∀ row ∈ db.executions, ∀ schedule ∈ db.schedules,
    row.scheduleId = some schedule.id → schedule.workflowId = row.workflowId

namespace Database.Sound

variable {db db' : Database} {n : ℕ}

theorem init : Database.Sound {} 0 where
  scheduleIds := List.nodup_nil
  executionIds := List.nodup_nil
  workflowsUsed := List.forall_mem_nil _
  schedulesUsed := List.forall_mem_nil _
  executionsUsed := List.forall_mem_nil _
  scheduleWorkflow := List.forall_mem_nil _
  executionWorkflow := List.forall_mem_nil _
  executionSchedule := List.forall_mem_nil _
  stepExecution := List.forall_mem_nil _
  sameWorkflow := List.forall_mem_nil _

theorem insertWorkflow (h : db.Sound n) :
    Database.Sound { db with workflows := db.workflows ++ [n] } (n + 1) where
  scheduleIds := h.scheduleIds
  executionIds := h.executionIds
  workflowsUsed := by
    intro id hid
    rcases List.mem_append.mp hid with hid | hid
    · exact Nat.lt_succ_of_lt (h.workflowsUsed id hid)
    · rw [List.mem_singleton.mp hid]
      exact Nat.lt_succ_self n
  schedulesUsed := fun id hid => Nat.lt_succ_of_lt (h.schedulesUsed id hid)
  executionsUsed := fun id hid => Nat.lt_succ_of_lt (h.executionsUsed id hid)
  scheduleWorkflow := h.scheduleWorkflow.mono (List.subset_append_left _ _)
  executionWorkflow := h.executionWorkflow.mono (List.subset_append_left _ _)
  executionSchedule := h.executionSchedule
  stepExecution := h.stepExecution
  sameWorkflow := h.sameWorkflow

theorem insertSchedule (h : db.Sound n) {row : Schedule} (hid : row.id = n)
    (hins : db.insertSchedule row = some db') : db'.Sound (n + 1) := by
  unfold Database.insertSchedule at hins
  split_ifs at hins with hw
  obtain rfl := Option.some.inj hins
  have hnew : n ∉ db.scheduleIds := fun hn => lt_irrefl n (h.schedulesUsed n hn)
  have hids : ({ db with schedules := db.schedules ++ [row] } : Database).scheduleIds =
      db.scheduleIds ++ [n] := by
    rw [← hid]
    exact List.map_append
  exact
    { scheduleIds := by
        rw [hids, ← List.concat_eq_append]
        exact h.scheduleIds.concat hnew
      executionIds := h.executionIds
      workflowsUsed := fun id hid => Nat.lt_succ_of_lt (h.workflowsUsed id hid)
      schedulesUsed := by
        rw [hids]
        intro id hmem
        rcases List.mem_append.mp hmem with hmem | hmem
        · exact Nat.lt_succ_of_lt (h.schedulesUsed id hmem)
        · rw [List.mem_singleton.mp hmem]
          exact Nat.lt_succ_self n
      executionsUsed := fun id hid => Nat.lt_succ_of_lt (h.executionsUsed id hid)
      scheduleWorkflow := h.scheduleWorkflow.insert fun r hr k hk => by
        rw [List.mem_singleton.mp hr] at hk
        exact Option.some.inj hk ▸ hw
      executionWorkflow := h.executionWorkflow
      executionSchedule := h.executionSchedule.mono (hids ▸ List.subset_append_left _ _)
      stepExecution := h.stepExecution
      sameWorkflow := by
        intro e he schedule hs href
        rcases List.mem_append.mp hs with hs | hs
        · exact h.sameWorkflow e he schedule hs href
        · rw [List.mem_singleton.mp hs, hid] at href
          exact absurd (h.executionSchedule e he n href) hnew }

theorem insertExecution (h : db.Sound n) {row : ExecutionRecord} (hid : row.id = n)
    (hsame : ∀ schedule ∈ db.schedules, row.scheduleId = some schedule.id →
      schedule.workflowId = row.workflowId)
    (hins : db.insertExecution row = some db') : db'.Sound (n + 1) := by
  unfold Database.insertExecution at hins
  split_ifs at hins with hw
  obtain rfl := Option.some.inj hins
  have hnew : n ∉ db.executionIds := fun hn => lt_irrefl n (h.executionsUsed n hn)
  have hids : ({ db with executions := db.executions ++ [row] } : Database).executionIds =
      db.executionIds ++ [n] := by
    rw [← hid]
    exact List.map_append
  exact
    { scheduleIds := h.scheduleIds
      executionIds := by
        rw [hids, ← List.concat_eq_append]
        exact h.executionIds.concat hnew
      workflowsUsed := fun id hid => Nat.lt_succ_of_lt (h.workflowsUsed id hid)
      schedulesUsed := fun id hid => Nat.lt_succ_of_lt (h.schedulesUsed id hid)
      executionsUsed := by
        rw [hids]
        intro id hmem
        rcases List.mem_append.mp hmem with hmem | hmem
        · exact Nat.lt_succ_of_lt (h.executionsUsed id hmem)
        · rw [List.mem_singleton.mp hmem]
          exact Nat.lt_succ_self n
      scheduleWorkflow := h.scheduleWorkflow
      executionWorkflow := h.executionWorkflow.insert fun r hr k hk => by
        rw [List.mem_singleton.mp hr] at hk
        exact Option.some.inj hk ▸ hw.1
      executionSchedule := h.executionSchedule.insert fun r hr k hk => by
        rw [List.mem_singleton.mp hr] at hk
        exact hw.2 k hk
      stepExecution := h.stepExecution.mono (hids ▸ List.subset_append_left _ _)
      sameWorkflow := by
        intro e he schedule hs href
        rcases List.mem_append.mp he with he | he
        · exact h.sameWorkflow e he schedule hs href
        · rw [List.mem_singleton.mp he] at href ⊢
          exact hsame schedule hs href }

theorem updateSchedule (h : db.Sound n) (id : ℕ) {f : Schedule → Schedule}
    (hid : ∀ row, (f row).id = row.id) (hw : ∀ row, (f row).workflowId = row.workflowId) :
    (db.updateSchedule id f).Sound n := by
  have hkeep : ∀ row : Schedule, (if row.id = id then f row else row).id = row.id ∧
      (if row.id = id then f row else row).workflowId = row.workflowId := by
    intro row
    split_ifs
    · exact ⟨hid row, hw row⟩
    · exact ⟨rfl, rfl⟩
  have hids : (db.updateSchedule id f).scheduleIds = db.scheduleIds := by
    unfold Database.scheduleIds Database.updateSchedule
    rw [List.map_map]
    exact List.map_congr_left fun row _ => (hkeep row).1
  exact
    { scheduleIds := hids ▸ h.scheduleIds
      executionIds := h.executionIds
      workflowsUsed := h.workflowsUsed
      schedulesUsed := hids ▸ h.schedulesUsed
      executionsUsed := h.executionsUsed
      scheduleWorkflow := h.scheduleWorkflow.map fun row => congrArg some (hkeep row).2
      executionWorkflow := h.executionWorkflow
      executionSchedule := hids ▸ h.executionSchedule
      stepExecution := h.stepExecution
      sameWorkflow := by
        intro e he schedule hs href
        obtain ⟨old, hold, rfl⟩ := List.mem_map.mp hs
        rw [(hkeep old).1] at href
        rw [(hkeep old).2]
        exact h.sameWorkflow e he old hold href }

theorem updateExecution (h : db.Sound n) (id : ℕ) (f : Execution → Execution) :
    (db.updateExecution id f).Sound n := by
  have hkeep : ∀ row : ExecutionRecord,
      (if row.id = id then { row with toExecution := f row.toExecution } else row).id = row.id ∧
      (if row.id = id then { row with toExecution := f row.toExecution } else row).workflowId =
        row.workflowId ∧
      (if row.id = id then { row with toExecution := f row.toExecution } else row).scheduleId =
        row.scheduleId := by
    intro row
    split_ifs <;> exact ⟨rfl, rfl, rfl⟩
  have hids : (db.updateExecution id f).executionIds = db.executionIds := by
    unfold Database.executionIds Database.updateExecution
    rw [List.map_map]
    exact List.map_congr_left fun row _ => (hkeep row).1
  exact
    { scheduleIds := h.scheduleIds
      executionIds := hids ▸ h.executionIds
      workflowsUsed := h.workflowsUsed
      schedulesUsed := h.schedulesUsed
      executionsUsed := hids ▸ h.executionsUsed
      scheduleWorkflow := h.scheduleWorkflow
      executionWorkflow := h.executionWorkflow.map fun row => congrArg some (hkeep row).2.1
      executionSchedule := h.executionSchedule.map fun row => (hkeep row).2.2
      stepExecution := hids ▸ h.stepExecution
      sameWorkflow := by
        intro e he schedule hs href
        obtain ⟨old, hold, rfl⟩ := List.mem_map.mp he
        rw [(hkeep old).2.2] at href
        rw [(hkeep old).2.1]
        exact h.sameWorkflow old hold schedule hs href }

theorem insertSteps (h : db.Sound n) {id : ℕ} (hid : id ∈ db.executionIds)
    (rows : List ExecutionStep) : (db.insertSteps id rows).Sound n :=
  { h with
    stepExecution := h.stepExecution.insert fun p hp k hk => by
      obtain ⟨row, -, rfl⟩ := List.mem_map.mp hp
      exact Option.some.inj hk ▸ hid }

/-- What survives of the executions when schedules go. -/
theorem mem_setNull {rows : List ExecutionRecord} {survives : ℕ → Bool} {row' : ExecutionRecord}
    (h : row' ∈ setNull rows ExecutionRecord.scheduleId
      (fun row => { row with scheduleId := none }) survives) :
    ∃ row ∈ rows, row'.id = row.id ∧ row'.workflowId = row.workflowId ∧
      row'.toExecution = row.toExecution ∧
      (row'.scheduleId = row.scheduleId ∨ row'.scheduleId = none ∧
        ∃ id, row.scheduleId = some id ∧ survives id = false) := by
  obtain ⟨row, hrow, rfl⟩ := List.mem_map.mp h
  refine ⟨row, hrow, ?_⟩
  by_cases hall : row.scheduleId.all survives = true
  · rw [if_pos hall]
    exact ⟨rfl, rfl, rfl, Or.inl rfl⟩
  · rw [if_neg hall]
    refine ⟨rfl, rfl, rfl, Or.inr ⟨rfl, ?_⟩⟩
    cases hid : row.scheduleId with
    | none =>
      rw [hid] at hall
      exact absurd rfl hall
    | some id =>
      rw [hid] at hall
      exact ⟨id, rfl, Bool.eq_false_of_not_eq_true hall⟩

theorem setNull_ids (rows : List ExecutionRecord) (survives : ℕ → Bool) :
    (setNull rows ExecutionRecord.scheduleId (fun row => { row with scheduleId := none })
      survives).map ExecutionRecord.id = rows.map ExecutionRecord.id := by
  unfold setNull
  rw [List.map_map]
  refine List.map_congr_left fun row _ => ?_
  simp only [Function.comp_apply]
  split_ifs <;> rfl

theorem deleteSchedule (h : db.Sound n) (id : ℕ) : (db.deleteSchedule id).Sound n := by
  have hids : (db.deleteSchedule id).scheduleIds = db.scheduleIds.filter (· ≠ id) := by
    unfold Database.scheduleIds Database.deleteSchedule
    rw [List.filter_map]
    rfl
  have heids : (db.deleteSchedule id).executionIds = db.executionIds := setNull_ids _ _
  exact
    { scheduleIds := hids ▸ h.scheduleIds.filter _
      executionIds := heids ▸ h.executionIds
      workflowsUsed := h.workflowsUsed
      schedulesUsed := by
        rw [hids]
        exact fun i hi => h.schedulesUsed i (List.mem_of_mem_filter hi)
      executionsUsed := heids ▸ h.executionsUsed
      scheduleWorkflow := h.scheduleWorkflow.filter _
      executionWorkflow := by
        apply h.executionWorkflow.setNull_other
        exact fun _ => rfl
      executionSchedule := hids ▸ h.executionSchedule.setNull (fun _ => rfl) _
      stepExecution := heids ▸ h.stepExecution
      sameWorkflow := by
        intro e he schedule hs href
        obtain ⟨row, hrow, -, hw, -, hsched⟩ := mem_setNull he
        rw [hw]
        rcases hsched with hsched | hsched
        · exact h.sameWorkflow row hrow schedule (List.mem_of_mem_filter hs) (hsched ▸ href)
        · rw [hsched.1] at href
          cases href }

/-- The executions that survive the deletion of a workflow. -/
theorem mem_deleteWorkflow {id : ℕ} {row' : ExecutionRecord}
    (h : row' ∈ (db.deleteWorkflow id).executions) :
    ∃ row ∈ db.executions, row.workflowId ≠ id ∧ row'.id = row.id ∧
      row'.workflowId = row.workflowId ∧ row'.toExecution = row.toExecution ∧
      (row'.scheduleId = row.scheduleId ∨ row'.scheduleId = none ∧
        ∃ i, row.scheduleId = some i ∧ i ∉ (db.deleteWorkflow id).scheduleIds) := by
  obtain ⟨row, hrow, hid, hw, he, hsched⟩ := mem_setNull h
  obtain ⟨hmem, hne⟩ := mem_cascade.mp hrow
  refine ⟨row, hmem, of_decide_eq_true (hne _ rfl), hid, hw, he, hsched.imp_right fun hnull => ?_⟩
  obtain ⟨hnone, i, hi, hgone⟩ := hnull
  exact ⟨hnone, i, hi, of_decide_eq_false hgone⟩

theorem deleteWorkflow_executionIds (db : Database) (id : ℕ) :
    (db.deleteWorkflow id).executionIds = (cascade db.executions
      (fun row => some row.workflowId) (· ≠ id)).map ExecutionRecord.id := setNull_ids _ _

theorem deleteWorkflow (h : db.Sound n) (id : ℕ) : (db.deleteWorkflow id).Sound n where
  scheduleIds := h.scheduleIds.sublist (List.filter_sublist.map _)
  executionIds := by
    rw [deleteWorkflow_executionIds]
    exact h.executionIds.sublist (List.filter_sublist.map _)
  workflowsUsed := fun i hi => h.workflowsUsed i (List.mem_of_mem_filter hi)
  schedulesUsed := fun i hi => h.schedulesUsed i ((List.filter_sublist.map _).subset hi)
  executionsUsed := by
    rw [deleteWorkflow_executionIds]
    exact fun i hi => h.executionsUsed i ((List.filter_sublist.map _).subset hi)
  scheduleWorkflow := h.scheduleWorkflow.cascade _
  executionWorkflow := by
    apply (h.executionWorkflow.cascade _).setNull_other
    exact fun _ => rfl
  executionSchedule := by
    intro row' hrow' i hi
    have hmem : i ∈ db.scheduleIds.filter (· ∈ (db.deleteWorkflow id).scheduleIds) := by
      apply (h.executionSchedule.filter _).setNull _ _ row' hrow' i hi
      exact fun _ => rfl
    exact of_decide_eq_true (List.mem_filter.mp hmem).2
  stepExecution := by
    rw [deleteWorkflow_executionIds]
    intro p hp k hk
    obtain ⟨-, hall⟩ := mem_cascade.mp hp
    exact of_decide_eq_true (hall k hk)
  sameWorkflow := by
    intro row' hrow' schedule hs href
    obtain ⟨row, hrow, -, -, hw, -, hsched⟩ := mem_deleteWorkflow hrow'
    rw [hw]
    rcases hsched with hsched | ⟨hnone, -⟩
    · exact h.sameWorkflow row hrow schedule (List.mem_of_mem_filter hs) (hsched ▸ href)
    · rw [hnone] at href
      cases href

end Database.Sound

/-! ## The steps of an execution -/

namespace Database

variable {db : Database} {e : ℕ}

theorem stepsOf_insertSteps (rows : List ExecutionStep) :
    (db.insertSteps e rows).stepsOf e = db.stepsOf e ++ rows := by
  unfold stepsOf insertSteps
  rw [List.filter_append, List.map_append, List.filter_map]
  have hall : rows.filter ((fun p : ℕ × ExecutionStep => decide (p.1 = e)) ∘ fun row => (e, row)) =
      rows := List.filter_eq_self.mpr fun _ _ => decide_eq_true rfl
  rw [hall, List.map_map]
  exact congrArg _ (List.map_id rows)

theorem stepsOf_insertSteps_ne {e' : ℕ} (h : e' ≠ e) (rows : List ExecutionStep) :
    (db.insertSteps e rows).stepsOf e' = db.stepsOf e' := by
  unfold stepsOf insertSteps
  rw [List.filter_append, List.map_append, List.filter_map]
  have hnone : rows.filter ((fun p : ℕ × ExecutionStep => decide (p.1 = e')) ∘
      fun row => (e, row)) = [] :=
    List.filter_eq_nil_iff.mpr fun _ _ he => h (of_decide_eq_true he).symm
  rw [hnone]
  exact List.append_nil _

/-- The steps of an execution that stays are left alone. -/
theorem stepsOf_deleteWorkflow {id : ℕ} (h : e ∈ (db.deleteWorkflow id).executionIds) :
    (db.deleteWorkflow id).stepsOf e = db.stepsOf e := by
  rw [Sound.deleteWorkflow_executionIds] at h
  unfold stepsOf deleteWorkflow Table.cascade
  dsimp only
  rw [List.filter_filter]
  refine congrArg _ (List.filter_congr fun p _ => ?_)
  by_cases hp : p.1 = e
  · simp only [hp, decide_true, Bool.true_and, Option.all_some]
    exact decide_eq_true h
  · simp [hp]

/-- An execution that is not there has no steps. -/
theorem Sound.stepsOf_nil {n : ℕ} (h : db.Sound n) (he : e ∉ db.executionIds) :
    db.stepsOf e = [] := by
  unfold stepsOf
  rw [List.filter_eq_nil_iff.mpr, List.map_nil]
  intro p hp hpe
  exact he (h.stepExecution p hp e (congrArg some (of_decide_eq_true hpe)))

theorem Sound.execution_eq {n : ℕ} (h : db.Sound n) {row : ExecutionRecord} :
    db.execution e = some row ↔ row ∈ db.executions ∧ row.id = e := find_iff h.executionIds

/-- Only one row has the id of a row that is found. -/
theorem Sound.execution_unique {n : ℕ} (h : db.Sound n) {row row' : ExecutionRecord}
    (hfind : db.execution e = some row) (hmem : row' ∈ db.executions) (he : row'.id = e) :
    row' = row := by
  obtain ⟨hrow, hid⟩ := h.execution_eq.mp hfind
  exact List.inj_on_of_nodup_map h.executionIds hmem hrow (he.trans hid.symm)

theorem execution_eq_none : db.execution e = none ↔ e ∉ db.executionIds := by
  unfold execution executionIds
  rw [List.find?_eq_none, List.mem_map]
  simp

end Database

/-! ## The tasks -/

/-- **The row and the steps of an execution at each point of its task.** -/
def TaskPhase.Keeps : TaskPhase → Row → List ExecutionStep → Prop
  | .absent, _, _ => False
  | .marking read, row, steps => read.toRow.Waiting ∧ row.Waiting ∧ steps = []
  | .browsing, row, steps | .ended _, row, steps => row.Underway ∧ steps = []
  | .storing read _, row, steps =>
    read.toRow.Underway ∧ (read.status = .cancelled → row.status = .cancelled) ∧ row.Underway ∧
      steps = []
  | .notifying res _, row, steps | .done res, row, steps =>
    row.status.Final ∧ (∃ cancelled, row.Holds cancelled res) ∧ steps = res.steps.map StepResult.row
  | .lost .fault, row, steps => (row.Waiting ∨ row.Underway) ∧ steps = []
  | .lost .refused, row, steps => row.Underway ∧ steps = []
  | .lost .rowGone, _, _ => False
  | _, row, steps => row.Waiting ∧ steps = []

/-- The invariant of all runs. -/
structure ServerInv (s : Server) : Prop where
  sound : s.db.Sound s.nextId
  rows : ∀ row ∈ s.db.executions, (s.tasks row.id).Keeps row.toRow (s.db.stepsOf row.id)
  tasks : ∀ e, s.nextId ≤ e → s.tasks e = .absent
  reads : ∀ k read, s.requests k = some (.fire read) ∨ s.requests k = some (.load read) →
    read.id < s.nextId ∧ ∀ schedule ∈ s.db.schedules, schedule.id = read.id →
      schedule.workflowId = read.workflowId
  stops : ∀ k id read, s.requests k = some (.stop id read) → ¬ read.status.Final

/-- A stop cancels the row, wherever the task is. -/
theorem TaskPhase.Keeps.cancel {phase : TaskPhase} {row new : Row} {steps : List ExecutionStep}
    (h : phase.Keeps row steps) (hst : new.status = .cancelled) (hfresh : row.Fresh → new.Fresh)
    (hholds : ∀ c res, row.Holds c res → new.Holds c res) : phase.Keeps new steps := by
  cases phase with
  | absent => exact h.elim
  | submitted | fired | timing | launched => exact ⟨⟨Or.inr hst, hfresh h.1.2⟩, h.2⟩
  | marking read => exact ⟨h.1, ⟨Or.inr hst, hfresh h.2.1.2⟩, h.2.2⟩
  | browsing | ended => exact ⟨⟨Or.inr hst, hfresh h.1.2⟩, h.2⟩
  | storing read res => exact ⟨h.1, fun _ => hst, ⟨Or.inr hst, hfresh h.2.2.1.2⟩, h.2.2.2⟩
  | notifying res | done res =>
    obtain ⟨-, ⟨c, hc⟩, hsteps⟩ := h
    exact ⟨hst ▸ by decide, ⟨c, hholds c res hc⟩, hsteps⟩
  | lost reason =>
    cases reason with
    | fault =>
      exact ⟨h.1.imp (fun hw => ⟨Or.inr hst, hfresh hw.2⟩) fun hu => ⟨Or.inr hst, hfresh hu.2⟩, h.2⟩
    | rowGone => exact h.elim
    | nextRun | scheduleGone | refused => exact ⟨⟨Or.inr hst, hfresh h.1.2⟩, h.2⟩

/-! ## What a task does -/

/-- The result that the task of an execution has stored. -/
def TaskPhase.result : TaskPhase → Option ExecutionResult
  | .notifying res _ | .done res => some res
  | _ => none

/-- **What a task does next**: it goes on, writes its row, adds the steps, or is lost. -/
inductive Server.Advanced [PyText] (make : TriggerMaker) (cfg : ReportConfig) (e : ℕ) (m : Moment)
    (s : Server) : TaskPhase → Server → Prop where
  | gone {phase : TaskPhase} (hphase : phase ≠ .absent) (hres : phase.result = none)
      (hno : e ∉ s.db.executionIds) : Advanced make cfg e m s phase (s.goto e (.lost .rowGone))
  | submitted (hmem : e ∈ s.db.executionIds) :
      Advanced make cfg e m s .submitted (s.goto e .launched)
  | fired {read : Schedule} (hmem : e ∈ s.db.executionIds) :
      Advanced make cfg e m s (.fired read) (s.goto e (.timing read))
  | timed {read : Schedule} {next : Option ℕ}
      (hnext : computeNextRun make read.cronExpression read.timezone m.now = .ok next)
      (hmem : read.id ∈ s.db.scheduleIds) :
      Advanced make cfg e m s (.timing read)
        (Server.goto e .launched
          { s with
            db := s.db.updateSchedule read.id
              (read.commit { read with lastRunAt := some m.now, nextRunAt := next }) })
  | nextRun {read : Schedule} {err : PyExc}
      (hnext : computeNextRun make read.cronExpression read.timezone m.now = .error err) :
      Advanced make cfg e m s (.timing read) (s.goto e (.lost .nextRun))
  | scheduleGone {read : Schedule} (hno : read.id ∉ s.db.scheduleIds) :
      Advanced make cfg e m s (.timing read) (s.goto e (.lost .scheduleGone))
  | launched {row : ExecutionRecord} (hread : s.db.execution e = some row) :
      Advanced make cfg e m s .launched (s.goto e (.marking row.toExecution))
  | marked {read : Execution} (hmem : e ∈ s.db.executionIds) :
      Advanced make cfg e m s (.marking read)
        (Server.goto e .browsing { s with db := s.db.updateExecution e (read.mark m.now) })
  | browsed : Advanced make cfg e m s .browsing (s.goto e (.ended m.res))
  | ended {res : ExecutionResult} {row : ExecutionRecord} (hread : s.db.execution e = some row) :
      Advanced make cfg e m s (.ended res) (s.goto e (.storing row.toExecution res))
  | stored {read : Execution} {res : ExecutionResult} (hmem : e ∈ s.db.executionIds)
      (hfits : Committable cfg.columns (read.finish res m.now) (res.steps.map StepResult.row)) :
      Advanced make cfg e m s (.storing read res)
        (Server.goto e (.notifying res (webhook cfg (toString e) read res m.now))
          { s with
            db := (s.db.updateExecution e (read.store res m.now)).insertSteps e
              (res.steps.map StepResult.row) })
  | refused {read : Execution} {res : ExecutionResult} (hmem : e ∈ s.db.executionIds)
      (hfits : ¬ Committable cfg.columns (read.finish res m.now) (res.steps.map StepResult.row)) :
      Advanced make cfg e m s (.storing read res) (s.goto e (.lost .refused))
  | notified {res : ExecutionResult} {payload : Option Payload} :
      Advanced make cfg e m s (.notifying res payload)
        (Server.goto e (.done res)
          { s with posted := s.posted ++ payload.toList.map fun p => (e, p) })

/-- A step of a task is one of these. -/
theorem Server.advanced [PyText] {make : TriggerMaker} {cfg : ReportConfig} {e : ℕ} {m : Moment}
    {s s' : Server} {phase : TaskPhase} (hs : s.advance make cfg e m phase = some s') :
    s.Advanced make cfg e m phase s' := by
  cases phase with
  | absent | done | lost => cases hs
  | submitted =>
    simp only [Server.advance] at hs
    split_ifs at hs with hmem
    · rw [← Option.some.inj hs]
      exact .submitted hmem
    · rw [← Option.some.inj hs]
      exact .gone TaskPhase.noConfusion rfl hmem
  | fired read =>
    simp only [Server.advance] at hs
    split_ifs at hs with hmem
    · rw [← Option.some.inj hs]
      exact .fired hmem
    · rw [← Option.some.inj hs]
      exact .gone TaskPhase.noConfusion rfl hmem
  | timing read =>
    simp only [Server.advance] at hs
    split at hs
    · rename_i hnext
      rw [← Option.some.inj hs]
      exact .nextRun hnext
    · rename_i hnext
      split_ifs at hs with hmem
      · rw [← Option.some.inj hs]
        exact .timed hnext hmem
      · rw [← Option.some.inj hs]
        exact .scheduleGone hmem
  | launched =>
    simp only [Server.advance] at hs
    split at hs
    · rename_i hread
      rw [← Option.some.inj hs]
      exact .launched hread
    · rename_i hnone
      rw [← Option.some.inj hs]
      exact .gone TaskPhase.noConfusion rfl (Database.execution_eq_none.mp hnone)
  | marking read =>
    simp only [Server.advance] at hs
    split_ifs at hs with hmem
    · rw [← Option.some.inj hs]
      exact .marked hmem
    · rw [← Option.some.inj hs]
      exact .gone TaskPhase.noConfusion rfl hmem
  | browsing =>
    rw [← Option.some.inj hs]
    exact .browsed
  | ended res =>
    simp only [Server.advance] at hs
    split at hs
    · rename_i hread
      rw [← Option.some.inj hs]
      exact .ended hread
    · rename_i hnone
      rw [← Option.some.inj hs]
      exact .gone TaskPhase.noConfusion rfl (Database.execution_eq_none.mp hnone)
  | storing read res =>
    simp only [Server.advance] at hs
    split_ifs at hs with hmem hfits
    · rw [← Option.some.inj hs]
      exact .stored hmem hfits
    · rw [← Option.some.inj hs]
      exact .refused hmem hfits
    · rw [← Option.some.inj hs]
      exact .gone TaskPhase.noConfusion rfl hmem
  | notifying res payload =>
    rw [← Option.some.inj hs]
    exact .notified

/-! ## One step -/

namespace ServerInv

variable {s s' : Server} {e k : ℕ}

theorem init : ServerInv {} where
  sound := .init
  rows := List.forall_mem_nil _
  tasks := fun _ _ => rfl
  reads := by
    rintro k read (h | h) <;> cases h
  stops := fun _ _ _ h => by cases h

/-- A request goes on. -/
theorem setRequest (h : ServerInv s) (k : ℕ) {p : Option Pending}
    (hread : ∀ read, p = some (.fire read) ∨ p = some (.load read) → read.id < s.nextId ∧
      ∀ schedule ∈ s.db.schedules, schedule.id = read.id → schedule.workflowId = read.workflowId)
    (hstop : ∀ id read, p = some (.stop id read) → ¬ read.status.Final) :
    ServerInv { s with requests := Function.update s.requests k p } where
  sound := h.sound
  rows := h.rows
  tasks := h.tasks
  reads := by
    intro j read hj
    by_cases hjk : j = k
    · subst hjk
      simp only [Function.update_self] at hj
      exact hread read hj
    · simp only [Function.update_of_ne hjk] at hj
      exact h.reads j read hj
  stops := by
    intro j id read hj
    rcases update_cases hj with ⟨-, hp⟩ | ⟨-, hj⟩
    · exact hstop id read hp
    · exact h.stops j id read hj

theorem clearRequest (h : ServerInv s) (k : ℕ) :
    ServerInv { s with requests := Function.update s.requests k none } := by
  refine h.setRequest k ?_ fun id read hp => by cases hp
  rintro read (hp | hp) <;> cases hp

/-- **Statements that leave the executions and the workflows of schedules alone.** -/
theorem withDb (h : ServerInv s) {db : Database} {n : ℕ} (hn : s.nextId ≤ n) (hsound : db.Sound n)
    (hrows : ∀ row' ∈ db.executions, ∃ row ∈ s.db.executions, row'.id = row.id ∧
      row'.toExecution = row.toExecution ∧ db.stepsOf row.id = s.db.stepsOf row.id)
    (hschedules : ∀ sch' ∈ db.schedules, sch'.id < s.nextId → ∃ sch ∈ s.db.schedules,
      sch'.id = sch.id ∧ sch'.workflowId = sch.workflowId) :
    ServerInv { s with db := db, nextId := n } where
  sound := hsound
  rows := by
    intro row' hrow'
    obtain ⟨row, hrow, hid, he, hsteps⟩ := hrows row' hrow'
    have hkeep := h.rows row hrow
    rw [← hsteps, ← hid, ← he] at hkeep
    exact hkeep
  tasks := fun e he => h.tasks e (hn.trans he)
  reads := by
    intro j read hj
    obtain ⟨hlt, hsame⟩ := h.reads j read hj
    refine ⟨hlt.trans_le hn, fun sch' hsch' hid => ?_⟩
    obtain ⟨sch, hsch, hid', hw⟩ := hschedules sch' hsch' (hid ▸ hlt)
    rw [hw]
    exact hsame sch hsch (hid'.symm.trans hid)
  stops := h.stops

/-- **A task writes its row and its steps, and goes on.** -/
theorem put (h : ServerInv s) {phase : TaskPhase} {db : Database} (hlt : e < s.nextId)
    (hsound : db.Sound s.nextId)
    (hother : ∀ row ∈ db.executions, row.id ≠ e →
      row ∈ s.db.executions ∧ db.stepsOf row.id = s.db.stepsOf row.id)
    (hrow : ∀ row ∈ db.executions, row.id = e → phase.Keeps row.toRow (db.stepsOf e))
    (hschedules : ∀ sch' ∈ db.schedules, ∃ sch ∈ s.db.schedules,
      sch'.id = sch.id ∧ sch'.workflowId = sch.workflowId) :
    ServerInv (Server.goto e phase { s with db := db }) where
  sound := hsound
  rows := by
    intro row hmem
    unfold Server.goto
    dsimp only
    by_cases he : row.id = e
    · rw [he, Function.update_self]
      exact hrow row hmem he
    · obtain ⟨hold, hsteps⟩ := hother row hmem he
      rw [Function.update_of_ne he, hsteps]
      exact h.rows row hold
  tasks := by
    intro e' he'
    have hne : e' ≠ e := by
      rintro rfl
      exact absurd hlt (not_lt_of_ge he')
    exact (Function.update_of_ne hne _ _).trans (h.tasks e' he')
  reads := by
    intro j read hj
    obtain ⟨hread, hsame⟩ := h.reads j read hj
    refine ⟨hread, fun sch' hsch' hid => ?_⟩
    obtain ⟨sch, hsch, hid', hw⟩ := hschedules sch' hsch'
    exact hw.trans (hsame sch hsch (hid'.symm.trans hid))
  stops := h.stops

/-- A task goes on. -/
theorem goto (h : ServerInv s) {phase : TaskPhase} (hlt : e < s.nextId)
    (hrow : ∀ row ∈ s.db.executions, row.id = e → phase.Keeps row.toRow (s.db.stepsOf e)) :
    ServerInv (s.goto e phase) :=
  h.put hlt h.sound (fun _ hmem _ => ⟨hmem, rfl⟩) hrow fun sch hsch => ⟨sch, hsch, rfl, rfl⟩

/-- A task whose row is gone is lost. -/
theorem gone (h : ServerInv s) (hlt : e < s.nextId) (hno : e ∉ s.db.executionIds)
    (phase : TaskPhase) :
    ServerInv (s.goto e phase) :=
  h.goto hlt fun _ hmem he => absurd (he ▸ List.mem_map_of_mem hmem) hno

theorem mem_updateSchedule {db : Database} {id : ℕ} {f : Schedule → Schedule} {sch' : Schedule}
    (h : sch' ∈ (db.updateSchedule id f).schedules) (hid : ∀ row, (f row).id = row.id)
    (hw : ∀ row, (f row).workflowId = row.workflowId) :
    ∃ sch ∈ db.schedules, sch'.id = sch.id ∧ sch'.workflowId = sch.workflowId := by
  obtain ⟨sch, hsch, rfl⟩ := List.mem_map.mp h
  refine ⟨sch, hsch, ?_⟩
  split_ifs
  · exact ⟨hid sch, hw sch⟩
  · exact ⟨rfl, rfl⟩

/-- An updated row is one that was there. -/
theorem mem_updateExecution {db : Database} {f : Execution → Execution} {row' : ExecutionRecord}
    (h : row' ∈ (db.updateExecution e f).executions) : ∃ row ∈ db.executions, row'.id = row.id ∧
      row'.workflowId = row.workflowId ∧ row'.scheduleId = row.scheduleId ∧
      (row.id = e ∧ row'.toExecution = f row.toExecution ∨ row.id ≠ e ∧ row' = row) := by
  obtain ⟨row, hrow, rfl⟩ := List.mem_map.mp h
  refine ⟨row, hrow, ?_⟩
  split_ifs with he
  · exact ⟨rfl, rfl, rfl, Or.inl ⟨he, rfl⟩⟩
  · exact ⟨rfl, rfl, rfl, Or.inr ⟨he, rfl⟩⟩

/-- A task writes its row, and goes on. -/
theorem write (h : ServerInv s) {phase : TaskPhase} {f : Execution → Execution} (hlt : e < s.nextId)
    (hrow : ∀ row ∈ s.db.executions, row.id = e →
      phase.Keeps (f row.toExecution).toRow (s.db.stepsOf e)) :
    ServerInv (Server.goto e phase { s with db := s.db.updateExecution e f }) := by
  refine h.put hlt (h.sound.updateExecution e f) (fun row' hrow' hne => ?_)
    (fun row' hrow' he => ?_)
    fun sch hsch => ⟨sch, hsch, rfl, rfl⟩
  · obtain ⟨row, hmem, hid, -, -, hor⟩ := mem_updateExecution hrow'
    obtain ⟨-, rfl⟩ := hor.resolve_left fun hl => hne (hid.trans hl.1)
    exact ⟨hmem, rfl⟩
  · obtain ⟨row, hmem, hid, -, -, hor⟩ := mem_updateExecution hrow'
    obtain ⟨hrid, heq⟩ := hor.resolve_right fun hr => hr.1 (hid.symm.trans he)
    rw [heq]
    exact hrow row hmem hrid

/-- A task writes its row and adds its steps, and goes on. -/
theorem writeSteps (h : ServerInv s) {phase : TaskPhase} {f : Execution → Execution}
    {rows : List ExecutionStep} (hlt : e < s.nextId) (hmem : e ∈ s.db.executionIds)
    (hrow : ∀ row ∈ s.db.executions, row.id = e →
      phase.Keeps (f row.toExecution).toRow (s.db.stepsOf e ++ rows)) :
    ServerInv (Server.goto e phase
      { s with db := (s.db.updateExecution e f).insertSteps e rows }) := by
  have hids : e ∈ (s.db.updateExecution e f).executionIds := by
    obtain ⟨old, hold, rfl⟩ := List.mem_map.mp hmem
    refine List.mem_map.mpr ⟨_, List.mem_map_of_mem hold, ?_⟩
    rw [if_pos rfl]
  refine h.put hlt ((h.sound.updateExecution e f).insertSteps hids rows)
    (fun row' hrow' hne => ?_) (fun row' hrow' he => ?_) fun sch hsch => ⟨sch, hsch, rfl, rfl⟩
  · obtain ⟨row, hmem, hid, -, -, hor⟩ := mem_updateExecution hrow'
    obtain ⟨-, rfl⟩ := hor.resolve_left fun hl => hne (hid.trans hl.1)
    exact ⟨hmem, Database.stepsOf_insertSteps_ne hne rows⟩
  · obtain ⟨row, hmem, hid, -, -, hor⟩ := mem_updateExecution hrow'
    obtain ⟨hrid, heq⟩ := hor.resolve_right fun hr => hr.1 (hid.symm.trans he)
    rw [heq, Database.stepsOf_insertSteps]
    exact hrow row hmem hrid

/-- **A row is created, with its task.** -/
theorem create (h : ServerInv s) {workflowId : ℕ} {scheduleId : Option ℕ} {phase : TaskPhase}
    (m : Moment) (hphase : ∀ row : Row, row.Waiting → phase.Keeps row [])
    (hsame : ∀ schedule ∈ s.db.schedules, scheduleId = some schedule.id →
      schedule.workflowId = workflowId) :
    ServerInv (s.create workflowId scheduleId phase m) := by
  unfold Server.create
  cases m.totalSteps with
  | none => exact h
  | some totalSteps =>
    dsimp only
    split
    · exact h
    · rename_i db hins
      have hsound := h.sound.insertExecution rfl hsame hins
      have hno : s.nextId ∉ s.db.executionIds :=
        fun hmem => lt_irrefl _ (h.sound.executionsUsed _ hmem)
      unfold Database.insertExecution at hins
      split_ifs at hins
      obtain rfl := Option.some.inj hins
      exact
        { sound := hsound
          rows := by
            intro row hrow
            rcases List.mem_append.mp hrow with hrow | hrow
            · have hne : row.id ≠ s.nextId := fun he => hno (he ▸ List.mem_map_of_mem hrow)
              dsimp only
              rw [Function.update_of_ne hne]
              exact h.rows row hrow
            · rw [List.mem_singleton.mp hrow]
              have hsteps := h.sound.stepsOf_nil hno
              dsimp only
              rw [Function.update_self]
              refine (congrArg _ hsteps).mpr (hphase _ ?_)
              exact ⟨Or.inl rfl, rfl, rfl, rfl, rfl⟩
          tasks := by
            intro e he
            have hne : e ≠ s.nextId := Nat.ne_of_gt he
            exact (Function.update_of_ne hne _ _).trans (h.tasks e (Nat.le_of_succ_le he))
          reads := fun k read hk => (h.reads k read hk).imp_left Nat.lt_succ_of_lt
          stops := h.stops }

/-- The commit of a stop. -/
theorem stop (h : ServerInv s) {read : Execution} (hread : ¬ read.status.Final) (id now : ℕ) :
    ServerInv { s with db := s.db.updateExecution id (read.stop now) } where
  sound := h.sound.updateExecution id _
  rows := by
    intro row' hrow'
    obtain ⟨row, hmem, hid, -, -, hor⟩ := mem_updateExecution hrow'
    have hkeep := h.rows row hmem
    show (s.tasks row'.id).Keeps row'.toRow (s.db.stepsOf row'.id)
    rw [hid]
    rcases hor with ⟨-, heq⟩ | ⟨-, rfl⟩
    · have hne : Status.cancelled ≠ read.status := fun he => hread (by rw [← he]; decide)
      have hst : (read.stop now row.toExecution).status = .cancelled := commitColumn_of_ne hne _
      rw [heq]
      exact hkeep.cancel hst (fun hf => hf.setStatus .cancelled) fun c res hc =>
        ⟨hc.error, hc.passed, hc.failed, hc.outputs⟩
    · exact hkeep
  tasks := h.tasks
  reads := h.reads
  stops := h.stops

variable [PyText] {make : TriggerMaker} {cfg : ReportConfig}

/-- What a request has read when it is on its way. -/
def Sees (db : Database) : Pending → Prop
  | .fire read => read ∈ db.schedules
  | .load _ => False
  | .stop _ read => ¬ read.status.Final
  | _ => True

theorem query_sees {now : ℕ} {c : ApiCall} {p : Pending} (hp : s.query make now c = some p) :
    Sees s.db p := by
  cases c with
  | uploadWorkflow => cases hp
  | deleteWorkflow id | runWorkflow id =>
    simp only [Server.query] at hp
    split_ifs at hp
    rw [← Option.some.inj hp]
    trivial
  | createSchedule req =>
    simp only [Server.query] at hp
    split at hp
    · rw [← Option.some.inj hp]
      trivial
    · cases hp
  | updateSchedule id req =>
    simp only [Server.query] at hp
    split at hp
    · cases hp
    · split at hp
      · rw [← Option.some.inj hp]
        trivial
      · cases hp
  | deleteSchedule id =>
    obtain ⟨row, -, rfl⟩ := Option.map_eq_some_iff.mp hp
    trivial
  | fire id =>
    simp only [Server.query] at hp
    split at hp
    · rename_i row hrow
      split_ifs at hp
      rw [← Option.some.inj hp]
      exact List.mem_of_find?_eq_some hrow
    · cases hp
  | stop id =>
    simp only [Server.query] at hp
    split at hp
    · split_ifs at hp with hst
      rw [← Option.some.inj hp]
      show ¬ Status.Final _
      rcases hst with hst | hst
      · rw [hst]
        decide
      · rw [hst]
        decide
    · cases hp

/-- What the first query of a request leaves. -/
theorem query (h : ServerInv s) (now : ℕ) (c : ApiCall) (k : ℕ) :
    ServerInv { s with requests := Function.update s.requests k (s.query make now c) } := by
  refine h.setRequest k (fun read hp => ?_) fun id read hp => query_sees hp
  rcases hp with hp | hp
  · have hmem : read ∈ s.db.schedules := query_sees hp
    refine ⟨h.sound.schedulesUsed _ (List.mem_map_of_mem hmem), fun sch hsch hid => ?_⟩
    rw [List.inj_on_of_nodup_map h.sound.scheduleIds hsch hmem hid]
  · exact (query_sees hp).elim

omit [PyText] in
/-- **The commit of a request.** -/
theorem commit (h : ServerInv s) (k : ℕ) (m : Moment) {p : Pending} (hp : s.requests k = some p) :
    ServerInv (Server.commit k m { s with requests := Function.update s.requests k none } p) := by
  have hclear := h.clearRequest k
  cases p with
  | deleteWorkflow id =>
    refine hclear.withDb le_rfl (h.sound.deleteWorkflow id) (fun row' hrow' => ?_)
      fun sch' hsch' _ => ?_
    · obtain ⟨row, hrow, -, hid, -, he, -⟩ := Database.Sound.mem_deleteWorkflow hrow'
      refine ⟨row, hrow, hid, he, Database.stepsOf_deleteWorkflow ?_⟩
      rw [← hid]
      exact List.mem_map_of_mem hrow'
    · exact ⟨sch', List.mem_of_mem_filter hsch', rfl, rfl⟩
  | createSchedule row =>
    simp only [Server.commit]
    split
    · rename_i db hins
      have hsound := h.sound.insertSchedule rfl hins
      unfold Database.insertSchedule at hins
      split_ifs at hins
      obtain rfl := Option.some.inj hins
      refine hclear.withDb (Nat.le_succ _) hsound (fun row' hrow' => ⟨row', hrow', rfl, rfl, rfl⟩)
        fun sch' hsch' hlt => ?_
      rcases List.mem_append.mp hsch' with hold | hnew
      · exact ⟨sch', hold, rfl, rfl⟩
      · rw [List.mem_singleton.mp hnew] at hlt
        exact absurd hlt (lt_irrefl _)
    · exact hclear
  | updateSchedule read new =>
    refine hclear.withDb le_rfl (h.sound.updateSchedule read.id (fun _ => rfl) fun _ => rfl)
      (fun row' hrow' => ⟨row', hrow', rfl, rfl, rfl⟩) fun sch' hsch' _ => ?_
    obtain ⟨sch, hsch, hid, hw⟩ := mem_updateSchedule hsch' (fun _ => rfl) fun _ => rfl
    exact ⟨sch, hsch, hid, hw⟩
  | deleteSchedule id =>
    refine hclear.withDb le_rfl (h.sound.deleteSchedule id) (fun row' hrow' => ?_)
      fun sch' hsch' _ => ?_
    · obtain ⟨row, hrow, hid, -, he, -⟩ := Database.Sound.mem_setNull hrow'
      exact ⟨row, hrow, hid, he, rfl⟩
    · exact ⟨sch', List.mem_of_mem_filter hsch', rfl, rfl⟩
  | runWorkflow workflowId =>
    exact hclear.create m (fun row hw => ⟨hw, rfl⟩) fun sch _ hnone => by cases hnone
  | fire read =>
    simp only [Server.commit]
    split_ifs
    · refine hclear.setRequest k (fun read' hr => ?_) fun id read' hr => by cases hr
      rcases hr with hr | hr
      · cases hr
      · obtain rfl := Pending.load.inj (Option.some.inj hr)
        exact h.reads k read (Or.inl hp)
    · exact hclear
  | load read =>
    obtain ⟨-, hsame⟩ := h.reads k read (Or.inr hp)
    exact hclear.create _ (fun row hw => ⟨hw, rfl⟩) fun sch hsch hid =>
      hsame sch hsch (Option.some.inj hid).symm
  | stop id read => exact hclear.stop (h.stops k id read hp) id m.now

/-- **A step of a task.** -/
theorem advance (h : ServerInv s) (e : ℕ) (m : Moment)
    (hs : s.advance make cfg e m (s.tasks e) = some s') : ServerInv s' := by
  have hlt : s.tasks e ≠ .absent → e < s.nextId :=
    fun hne => lt_of_not_ge fun hge => hne (h.tasks e hge)
  have hrow : ∀ row ∈ s.db.executions, row.id = e →
      (s.tasks e).Keeps row.toRow (s.db.stepsOf e) := by
    rintro row hmem rfl
    exact h.rows row hmem
  have hm := Server.advanced hs
  generalize s.tasks e = phase at hm hlt hrow
  cases hm with
  | gone hphase _ hno => exact h.gone (hlt hphase) hno _
  | submitted | fired | nextRun | scheduleGone | browsed =>
    exact h.goto (hlt TaskPhase.noConfusion) hrow
  | @timed read =>
    exact h.put (hlt TaskPhase.noConfusion)
      (h.sound.updateSchedule read.id (fun _ => rfl) fun _ => rfl)
      (fun _ hmem _ => ⟨hmem, rfl⟩) hrow
      fun sch hsch => mem_updateSchedule hsch (fun _ => rfl) fun _ => rfl
  | launched hread =>
    refine h.goto (hlt TaskPhase.noConfusion) fun row hmem he => ?_
    obtain rfl := h.sound.execution_unique hread hmem he
    exact ⟨(hrow row hmem he).1, hrow row hmem he⟩
  | marked =>
    refine h.write (hlt TaskPhase.noConfusion) fun row hmem he => ?_
    obtain ⟨hread, hw, hsteps⟩ := hrow row hmem he
    exact ⟨⟨Or.inl (Row.setStatus_running hread.1 row.toRow), hw.2.setStatus .running⟩, hsteps⟩
  | ended hread =>
    refine h.goto (hlt TaskPhase.noConfusion) fun row hmem he => ?_
    obtain rfl := h.sound.execution_unique hread hmem he
    exact ⟨(hrow row hmem he).1, id, hrow row hmem he⟩
  | @stored _ res hmem =>
    refine h.writeSteps (hlt TaskPhase.noConfusion) hmem fun row hmem he => ?_
    obtain ⟨hread, hc, hu, hsteps⟩ := hrow row hmem he
    rw [hsteps, List.nil_append]
    exact ⟨hread.store hc, ⟨_, Row.Holds.store hread.2 hu.2 res⟩, rfl⟩
  | refused => exact h.goto (hlt TaskPhase.noConfusion) fun row hmem he => (hrow row hmem he).2.2
  | @notified res =>
    have hgoto : ServerInv (s.goto e (.done res)) := h.goto (hlt TaskPhase.noConfusion) hrow
    exact ⟨hgoto.sound, hgoto.rows, hgoto.tasks, hgoto.reads, hgoto.stops⟩

/-- A connection or the process breaks down under a task. -/
theorem dropTask (h : ServerInv s) (e : ℕ) (hs : s.step make cfg (.dropTask e) = some s') :
    ServerInv s' := by
  have hrow : ∀ row ∈ s.db.executions, row.id = e →
      (s.tasks e).Keeps row.toRow (s.db.stepsOf e) := by
    rintro row hmem rfl
    exact h.rows row hmem
  have hlt : s.tasks e ≠ .absent → e < s.nextId :=
    fun hne => lt_of_not_ge fun hge => hne (h.tasks e hge)
  simp only [Server.step] at hs
  generalize s.tasks e = phase at hs hlt hrow
  cases phase with
  | absent | done | lost => cases hs
  | notifying res payload =>
    rw [← Option.some.inj hs]
    exact h.goto (hlt TaskPhase.noConfusion) hrow
  | submitted | fired | timing | launched =>
    rw [← Option.some.inj hs]
    exact h.goto (hlt TaskPhase.noConfusion) fun row hmem he =>
      ⟨Or.inl (hrow row hmem he).1, (hrow row hmem he).2⟩
  | browsing | ended =>
    rw [← Option.some.inj hs]
    exact h.goto (hlt TaskPhase.noConfusion) fun row hmem he =>
      ⟨Or.inr (hrow row hmem he).1, (hrow row hmem he).2⟩
  | marking read =>
    rw [← Option.some.inj hs]
    exact h.goto (hlt TaskPhase.noConfusion) fun row hmem he =>
      ⟨Or.inl (hrow row hmem he).2.1, (hrow row hmem he).2.2⟩
  | storing read res =>
    rw [← Option.some.inj hs]
    exact h.goto (hlt TaskPhase.noConfusion) fun row hmem he =>
      ⟨Or.inr (hrow row hmem he).2.2.1, (hrow row hmem he).2.2.2⟩

/-- **One step keeps the invariant.** -/
theorem step (h : ServerInv s) {a : ServerAct} (hs : s.step make cfg a = some s') :
    ServerInv s' := by
  cases a with
  | call k c now =>
    cases c with
    | uploadWorkflow =>
      rw [← Option.some.inj hs]
      exact h.withDb (Nat.le_succ _) h.sound.insertWorkflow
        (fun row hrow => ⟨row, hrow, rfl, rfl, rfl⟩) fun sch hsch _ => ⟨sch, hsch, rfl, rfl⟩
    | _ =>
      simp only [Server.step] at hs
      split_ifs at hs
      rw [← Option.some.inj hs]
      exact h.query now _ k
  | commit k m =>
    obtain ⟨p, hp, rfl⟩ := Option.map_eq_some_iff.mp hs
    exact h.commit k m hp
  | advance e m => exact h.advance e m hs
  | dropRequest k =>
    rw [← Option.some.inj hs]
    exact h.clearRequest k
  | dropTask e => exact h.dropTask e hs

theorem run {hist : List (Server × ServerAct)} (hr : (databaseService make cfg).Run hist s) :
    ServerInv s :=
  hr.always .init fun _ _ _ hi hs => hi.step hs

end ServerInv

/-! ## What goes and what stays -/

/-- **What is gone stays gone, and an execution stays as long as its workflow.** It loses its
schedule only when that is deleted. -/
structure Database.Onward (db : Database) (n : ℕ) (db' : Database) (n' : ℕ) : Prop where
  next : n ≤ n'
  workflows : ∀ id < n, id ∉ db.workflows → id ∉ db'.workflows
  schedules : ∀ id < n, id ∉ db.scheduleIds → id ∉ db'.scheduleIds
  executions : ∀ id < n, id ∉ db.executionIds → id ∉ db'.executionIds
  kept : ∀ row ∈ db.executions, row.workflowId ∈ db'.workflows →
    ∃ row' ∈ db'.executions, row'.id = row.id ∧ row'.workflowId = row.workflowId ∧
      (row'.scheduleId = row.scheduleId ∨
        row'.scheduleId = none ∧ ∀ id, row.scheduleId = some id → id ∉ db'.scheduleIds)

namespace Database.Onward

variable {db db' db'' : Database} {n n' n'' : ℕ}

theorem refl (db : Database) (n : ℕ) : db.Onward n db n where
  next := le_rfl
  workflows := fun _ _ h => h
  schedules := fun _ _ h => h
  executions := fun _ _ h => h
  kept := fun row hrow _ => ⟨row, hrow, rfl, rfl, Or.inl rfl⟩

theorem trans (hs : db.Sound n) (h : db.Onward n db' n') (h' : db'.Onward n' db'' n'') :
    db.Onward n db'' n'' where
  next := h.next.trans h'.next
  workflows := fun id hid hno => h'.workflows id (hid.trans_le h.next) (h.workflows id hid hno)
  schedules := fun id hid hno => h'.schedules id (hid.trans_le h.next) (h.schedules id hid hno)
  executions := fun id hid hno => h'.executions id (hid.trans_le h.next) (h.executions id hid hno)
  kept := by
    intro row hrow hw
    have hlt : row.workflowId < n := hs.workflowsUsed _ (hs.executionWorkflow row hrow _ rfl)
    have hw' : row.workflowId ∈ db'.workflows :=
      by_contra fun hno => h'.workflows _ (hlt.trans_le h.next) hno hw
    obtain ⟨row', hrow', hid, hwid, hsched⟩ := h.kept row hrow hw'
    obtain ⟨row'', hrow'', hid', hwid', hsched'⟩ := h'.kept row' hrow' (hwid ▸ hw)
    refine ⟨row'', hrow'', hid'.trans hid, hwid'.trans hwid, ?_⟩
    rcases hsched with hsame | ⟨hnone, hgone⟩
    · rw [← hsame]
      exact hsched'
    · refine Or.inr ⟨?_, fun id hsome => ?_⟩
      · rcases hsched' with hsame | ⟨hnone', -⟩
        · exact hsame.trans hnone
        · exact hnone'
      · have hused := hs.schedulesUsed id (hs.executionSchedule row hrow id hsome)
        exact h'.schedules id (hused.trans_le h.next) (hgone id hsome)

theorem insertWorkflow (db : Database) (n : ℕ) :
    db.Onward n { db with workflows := db.workflows ++ [n] } (n + 1) :=
  { refl db n with
    next := Nat.le_succ n
    workflows := by
      intro id hlt hno hmem
      rcases List.mem_append.mp hmem with hmem | hmem
      · exact hno hmem
      · exact absurd (List.mem_singleton.mp hmem) (Nat.ne_of_lt hlt)
    kept := fun row hrow _ => ⟨row, hrow, rfl, rfl, Or.inl rfl⟩ }

theorem insertSchedule {row : Schedule} (hid : row.id = n)
    (hins : db.insertSchedule row = some db') : db.Onward n db' (n + 1) := by
  unfold Database.insertSchedule at hins
  split_ifs at hins
  obtain rfl := Option.some.inj hins
  refine { refl db n with
    next := Nat.le_succ n
    schedules := fun id hlt hno hmem => ?_
    kept := fun row hrow _ => ⟨row, hrow, rfl, rfl, Or.inl rfl⟩ }
  obtain ⟨r, hr, rfl⟩ := List.mem_map.mp hmem
  rcases List.mem_append.mp hr with hr | hr
  · exact hno (List.mem_map_of_mem hr)
  · rw [List.mem_singleton.mp hr, hid] at hlt
    exact lt_irrefl n hlt

theorem insertExecution {row : ExecutionRecord} (hid : row.id = n)
    (hins : db.insertExecution row = some db') : db.Onward n db' (n + 1) := by
  unfold Database.insertExecution at hins
  split_ifs at hins
  obtain rfl := Option.some.inj hins
  refine { refl db n with
    next := Nat.le_succ n
    executions := fun id hlt hno hmem => ?_
    kept := fun row hrow _ => ⟨row, List.mem_append_left _ hrow, rfl, rfl, Or.inl rfl⟩ }
  obtain ⟨r, hr, rfl⟩ := List.mem_map.mp hmem
  rcases List.mem_append.mp hr with hr | hr
  · exact hno (List.mem_map_of_mem hr)
  · rw [List.mem_singleton.mp hr, hid] at hlt
    exact lt_irrefl n hlt

theorem updateSchedule (db : Database) (n id : ℕ) {f : Schedule → Schedule}
    (hid : ∀ row, (f row).id = row.id) : db.Onward n (db.updateSchedule id f) n :=
  { refl db n with
    schedules := by
      intro i _ hno hmem
      obtain ⟨sch', hsch', rfl⟩ := List.mem_map.mp hmem
      obtain ⟨sch, hsch, rfl⟩ := List.mem_map.mp hsch'
      refine hno ?_
      split_ifs
      · rw [hid]
        exact List.mem_map_of_mem hsch
      · exact List.mem_map_of_mem hsch
    kept := fun row hrow _ => ⟨row, hrow, rfl, rfl, Or.inl rfl⟩ }

theorem updateExecution (db : Database) (n e : ℕ) (f : Execution → Execution) :
    db.Onward n (db.updateExecution e f) n :=
  { refl db n with
    executions := by
      intro i _ hno hmem
      obtain ⟨row', hrow', rfl⟩ := List.mem_map.mp hmem
      obtain ⟨row, hrow, hid, -⟩ := ServerInv.mem_updateExecution hrow'
      rw [hid] at hno
      exact hno (List.mem_map_of_mem hrow)
    kept := by
      intro row hrow _
      refine ⟨_, List.mem_map_of_mem hrow, ?_⟩
      split_ifs <;> exact ⟨rfl, rfl, Or.inl rfl⟩ }

theorem deleteSchedule (db : Database) (n id : ℕ) : db.Onward n (db.deleteSchedule id) n :=
  { refl db n with
    schedules := fun i _ hno hmem => hno ((List.filter_sublist.map _).subset hmem)
    executions := by
      intro i _ hno hmem
      have hids : (db.deleteSchedule id).executionIds = db.executionIds :=
        Database.Sound.setNull_ids _ _
      exact hno (hids ▸ hmem)
    kept := by
      intro row hrow _
      refine ⟨_, List.mem_map_of_mem hrow, ?_⟩
      split_ifs with hall
      · exact ⟨rfl, rfl, Or.inl rfl⟩
      · refine ⟨rfl, rfl, Or.inr ⟨rfl, fun i hi hmem => hall ?_⟩⟩
        obtain ⟨sch, hsch, rfl⟩ := List.mem_map.mp hmem
        rw [hi]
        exact (List.mem_filter.mp hsch).2 }

theorem deleteWorkflow (db : Database) (n id : ℕ) : db.Onward n (db.deleteWorkflow id) n where
  next := le_rfl
  workflows := fun i _ hno hmem => hno (List.mem_of_mem_filter hmem)
  schedules := fun i _ hno hmem => hno ((List.filter_sublist.map _).subset hmem)
  executions := by
    intro i _ hno hmem
    rw [Database.Sound.deleteWorkflow_executionIds] at hmem
    exact hno ((List.filter_sublist.map _).subset hmem)
  kept := by
    intro row hrow hw
    have hsurvives : row ∈ cascade db.executions (fun row => some row.workflowId) (· ≠ id) :=
      mem_cascade.mpr ⟨hrow, fun k hk => Option.some.inj hk ▸ (List.mem_filter.mp hw).2⟩
    refine ⟨_, List.mem_map_of_mem hsurvives, ?_⟩
    split_ifs with hall
    · exact ⟨rfl, rfl, Or.inl rfl⟩
    · refine ⟨rfl, rfl, Or.inr ⟨rfl, fun i hi hmem => hall ?_⟩⟩
      rw [hi]
      exact decide_eq_true hmem

end Database.Onward

/-- **What a step leaves of rows and results.** -/
structure Server.Onward (s s' : Server) : Prop where
  sound : s.db.Sound s.nextId
  rows : s.db.Onward s.nextId s'.db s'.nextId
  stored : ∀ e res, (s.tasks e).result = some res → (s'.tasks e).result = some res
  done : ∀ e res, s.tasks e = .done res → s'.tasks e = .done res
  nothing : ∀ e < s.nextId, e ∉ s.db.executionIds → (s.tasks e).result = none →
    (s'.tasks e).result = none

theorem Server.Onward.trans {s s' s'' : Server} (h : s.Onward s') (h' : s'.Onward s'') :
    s.Onward s'' where
  sound := h.sound
  rows := h.rows.trans h.sound h'.rows
  stored := fun e res hres => h'.stored e res (h.stored e res hres)
  done := fun e res he => h'.done e res (h.done e res he)
  nothing := fun e he hno hres => h'.nothing e (he.trans_le h.rows.next)
    (h.rows.executions e he hno) (h.nothing e he hno hres)

namespace ServerInv

variable {s s' : Server} {e : ℕ}

/-- Rows that are written while no task stores a result. -/
theorem onward_of_tasks (h : ServerInv s) (hrows : s.db.Onward s.nextId s'.db s'.nextId)
    (htasks : ∀ e, s'.tasks e = s.tasks e ∨
      (s.tasks e).result = none ∧ (s'.tasks e).result = none) :
    s.Onward s' where
  sound := h.sound
  rows := hrows
  stored := by
    intro e res hres
    rcases htasks e with he | ⟨hnone, -⟩
    · rwa [he]
    · rw [hnone] at hres
      cases hres
  done := by
    intro e res hdone
    rcases htasks e with he | ⟨hnone, -⟩
    · rwa [he]
    · rw [hdone] at hnone
      cases hnone
  nothing := by
    intro e _ _ hres
    rcases htasks e with he | ⟨-, hnone⟩
    · rwa [he]
    · exact hnone

theorem onward_create (h : ServerInv s) (workflowId : ℕ) (scheduleId : Option ℕ) {phase : TaskPhase}
    (m : Moment) (hphase : phase.result = none) :
    s.Onward (s.create workflowId scheduleId phase m) := by
  have hself : s.Onward s := h.onward_of_tasks (.refl _ _) fun e => Or.inl rfl
  unfold Server.create
  cases m.totalSteps with
  | none => exact hself
  | some totalSteps =>
    dsimp only
    split
    · exact hself
    · rename_i db hins
      refine h.onward_of_tasks (.insertExecution rfl hins) fun e => ?_
      dsimp only
      by_cases he : e = s.nextId
      · subst he
        rw [Function.update_self, h.tasks _ le_rfl]
        exact Or.inr ⟨rfl, hphase⟩
      · rw [Function.update_of_ne he]
        exact Or.inl rfl

/-- A task goes on without a result. -/
theorem onward_goto (h : ServerInv s) {db : Database} {phase : TaskPhase}
    (hrows : s.db.Onward s.nextId db s.nextId) (hold : (s.tasks e).result = none)
    (hnew : phase.result = none) : s.Onward (Server.goto e phase { s with db := db }) := by
  refine h.onward_of_tasks hrows fun e' => ?_
  unfold Server.goto
  dsimp only
  by_cases he : e' = e
  · subst he
    rw [Function.update_self]
    exact Or.inr ⟨hold, hnew⟩
  · rw [Function.update_of_ne he]
    exact Or.inl rfl

/-- A task stores its result, or keeps it. -/
theorem onward_result (h : ServerInv s) {db : Database} {phase : TaskPhase} {res : ExecutionResult}
    (hrows : s.db.Onward s.nextId db s.nextId) (hnew : phase.result = some res)
    (hnot : ∀ res, s.tasks e ≠ .done res)
    (hold : (s.tasks e).result = some res ∨
      e ∈ s.db.executionIds ∧ (s.tasks e).result = none) :
    s.Onward (Server.goto e phase { s with db := db }) where
  sound := h.sound
  rows := hrows
  stored := by
    intro e' res' hres
    unfold Server.goto
    dsimp only
    by_cases he : e' = e
    · subst he
      rw [Function.update_self]
      rcases hold with hold | ⟨-, hnone⟩
      · exact hnew.trans (hold.symm.trans hres)
      · rw [hnone] at hres
        cases hres
    · rwa [Function.update_of_ne he]
  done := by
    intro e' res' hdone
    unfold Server.goto
    dsimp only
    have he : e' ≠ e := by
      rintro rfl
      exact hnot res' hdone
    rwa [Function.update_of_ne he]
  nothing := by
    intro e' _ hno hres
    unfold Server.goto
    dsimp only
    by_cases he : e' = e
    · subst he
      rcases hold with hold | ⟨hmem, -⟩
      · rw [hold] at hres
        cases hres
      · exact absurd hmem hno
    · rwa [Function.update_of_ne he]

theorem onward_commit (h : ServerInv s) (k : ℕ) (m : Moment) (p : Pending) :
    s.Onward (Server.commit k m { s with requests := Function.update s.requests k none } p) := by
  have hself : s.Onward { s with requests := Function.update s.requests k none } :=
    h.onward_of_tasks (.refl _ _) fun e => Or.inl rfl
  cases p with
  | deleteWorkflow id => exact h.onward_of_tasks (.deleteWorkflow _ _ id) fun e => Or.inl rfl
  | createSchedule row =>
    simp only [Server.commit]
    split
    · rename_i db hins
      exact h.onward_of_tasks (.insertSchedule rfl hins) fun e => Or.inl rfl
    · exact hself
  | updateSchedule read new =>
    exact h.onward_of_tasks (.updateSchedule _ _ _ fun _ => rfl) fun e => Or.inl rfl
  | deleteSchedule id => exact h.onward_of_tasks (.deleteSchedule _ _ id) fun e => Or.inl rfl
  | runWorkflow workflowId =>
    exact hself.trans ((h.clearRequest k).onward_create workflowId none m rfl)
  | fire read =>
    simp only [Server.commit]
    split_ifs
    · exact h.onward_of_tasks (.refl _ _) fun e => Or.inl rfl
    · exact hself
  | load read =>
    exact hself.trans ((h.clearRequest k).onward_create read.workflowId (some read.id) _ rfl)
  | stop id read => exact h.onward_of_tasks (.updateExecution _ _ id _) fun e => Or.inl rfl

variable [PyText] {make : TriggerMaker} {cfg : ReportConfig}

theorem onward_advance (h : ServerInv s) (e : ℕ) (m : Moment)
    (hs : s.advance make cfg e m (s.tasks e) = some s') : s.Onward s' := by
  have hm := Server.advanced hs
  generalize hphase : s.tasks e = phase at hm
  have hgoto : ∀ {db : Database} {new : TaskPhase}, s.db.Onward s.nextId db s.nextId →
      phase.result = none → new.result = none → s.Onward (Server.goto e new { s with db := db }) :=
    fun hdb hold hnew => h.onward_goto hdb (hphase ▸ hold) hnew
  cases hm with
  | gone _ hres => exact hgoto (.refl _ _) hres rfl
  | submitted | fired | nextRun | scheduleGone | launched | browsed | ended | refused =>
    exact hgoto (.refl _ _) rfl rfl
  | timed => exact hgoto (.updateSchedule _ _ _ fun _ => rfl) rfl rfl
  | marked => exact hgoto (.updateExecution _ _ e _) rfl rfl
  | @stored read res hmem =>
    have hrows : s.db.Onward s.nextId ((s.db.updateExecution e (read.store res m.now)).insertSteps
        e (res.steps.map StepResult.row)) s.nextId :=
      { Database.Onward.updateExecution s.db s.nextId e (read.store res m.now) with }
    refine h.onward_result hrows rfl (fun _ hdone => ?_) (Or.inr ⟨hmem, hphase ▸ rfl⟩)
    cases hphase.symm.trans hdone
  | @notified res payload =>
    have hnot : ∀ res, s.tasks e ≠ .done res := fun _ hdone => by cases hphase.symm.trans hdone
    have honward : s.Onward (s.goto e (.done res)) :=
      h.onward_result (.refl _ _) rfl hnot (Or.inl (hphase ▸ rfl))
    exact ⟨honward.sound, honward.rows, honward.stored, honward.done, honward.nothing⟩

/-- **One step leaves the rows and results that it should.** -/
theorem onward (h : ServerInv s) {a : ServerAct} (hs : s.step make cfg a = some s') :
    s.Onward s' := by
  cases a with
  | call k c now =>
    cases c with
    | uploadWorkflow =>
      rw [← Option.some.inj hs]
      exact h.onward_of_tasks (.insertWorkflow _ _) fun e => Or.inl rfl
    | _ =>
      simp only [Server.step] at hs
      split_ifs at hs
      rw [← Option.some.inj hs]
      exact h.onward_of_tasks (.refl _ _) fun e => Or.inl rfl
  | commit k m =>
    obtain ⟨p, -, rfl⟩ := Option.map_eq_some_iff.mp hs
    exact h.onward_commit k m p
  | advance e m => exact h.onward_advance e m hs
  | dropRequest k =>
    rw [← Option.some.inj hs]
    exact h.onward_of_tasks (.refl _ _) fun e => Or.inl rfl
  | dropTask e =>
    simp only [Server.step] at hs
    cases hphase : s.tasks e with
    | absent | done | lost =>
      rw [hphase] at hs
      cases hs
    | notifying res payload =>
      rw [hphase] at hs
      rw [← Option.some.inj hs]
      refine h.onward_result (.refl _ _) rfl (fun _ hdone => ?_) (Or.inl (hphase ▸ rfl))
      cases hphase.symm.trans hdone
    | _ =>
      rw [hphase] at hs
      rw [← Option.some.inj hs]
      exact h.onward_goto (.refl _ _) (hphase ▸ rfl) rfl

end ServerInv

/-! ## Webhooks -/

section Runs

variable [PyText] {make : TriggerMaker} {cfg : ReportConfig} {s s' : Server} {a : ServerAct}
  {hist : List (Server × ServerAct)}

/-- A webhook is sent by a task that then is done. -/
theorem Server.posted_step (hs : s.step make cfg a = some s') : s'.posted = s.posted ∨
    ∃ e res payload, s.tasks e = .notifying res payload ∧ s'.tasks e = .done res ∧
      s'.posted = s.posted ++ payload.toList.map fun p => (e, p) := by
  have hcreate : ∀ (t : Server) (w : ℕ) (sch : Option ℕ) (phase : TaskPhase) (m : Moment),
      (t.create w sch phase m).posted = t.posted := by
    intro t w sch phase m
    unfold Server.create
    cases m.totalSteps with
    | none => rfl
    | some n =>
      dsimp only
      split <;> rfl
  cases a with
  | call k c now =>
    cases c with
    | uploadWorkflow =>
      rw [← Option.some.inj hs]
      exact Or.inl rfl
    | _ =>
      simp only [Server.step] at hs
      split_ifs at hs
      rw [← Option.some.inj hs]
      exact Or.inl rfl
  | commit k m =>
    obtain ⟨p, -, rfl⟩ := Option.map_eq_some_iff.mp hs
    refine Or.inl ?_
    cases p with
    | runWorkflow | load => exact hcreate _ _ _ _ _
    | createSchedule =>
      simp only [Server.commit]
      split <;> rfl
    | fire =>
      simp only [Server.commit]
      split_ifs <;> rfl
    | _ => rfl
  | advance e m =>
    have hm := Server.advanced hs
    generalize hphase : s.tasks e = phase at hm
    cases hm with
    | notified => exact Or.inr ⟨e, _, _, hphase, Function.update_self .., rfl⟩
    | _ => exact Or.inl rfl
  | dropRequest k =>
    rw [← Option.some.inj hs]
    exact Or.inl rfl
  | dropTask e =>
    simp only [Server.step] at hs
    cases hphase : s.tasks e with
    | absent | done | lost =>
      rw [hphase] at hs
      cases hs
    | _ =>
      rw [hphase] at hs
      rw [← Option.some.inj hs]
      exact Or.inl rfl

/-- **Each webhook is that of an execution that is done**, and there is one at most. -/
structure Server.PostedOnce (s : Server) : Prop where
  once : (s.posted.map Prod.fst).Nodup
  done : ∀ p ∈ s.posted, ∃ res, s.tasks p.1 = .done res

theorem Server.PostedOnce.step (hp : s.PostedOnce) (h : ServerInv s)
    (hs : s.step make cfg a = some s') : s'.PostedOnce := by
  have honward := h.onward hs
  have hold : ∀ p ∈ s.posted, ∃ res, s'.tasks p.1 = .done res := by
    intro p hmem
    obtain ⟨res, hres⟩ := hp.done p hmem
    exact ⟨res, honward.done _ _ hres⟩
  rcases Server.posted_step hs with hsame | ⟨e, res, payload, hphase, hdone, hadd⟩
  · exact ⟨hsame ▸ hp.once, hsame ▸ hold⟩
  · have hnew : e ∉ s.posted.map Prod.fst := by
      intro hmem
      obtain ⟨p, hp', rfl⟩ := List.mem_map.mp hmem
      obtain ⟨res', hres'⟩ := hp.done p hp'
      cases hphase.symm.trans hres'
    cases payload with
    | none =>
      rw [Option.toList_none, List.map_nil, List.append_nil] at hadd
      exact ⟨hadd ▸ hp.once, hadd ▸ hold⟩
    | some payload =>
      rw [Option.toList_some, List.map_singleton] at hadd
      refine ⟨?_, ?_⟩
      · rw [hadd, List.map_append, List.map_singleton, ← List.concat_eq_append]
        exact hp.once.concat hnew
      · rw [hadd]
        intro p hmem
        rcases List.mem_append.mp hmem with hmem | hmem
        · exact hold p hmem
        · rw [List.mem_singleton.mp hmem]
          exact ⟨res, hdone⟩

/-! ## Main results -/

/-- Session 1 of the task is still to come, or the task was lost before it: with a breakdown, or in
a firing. -/
def TaskPhase.Before : TaskPhase → Prop
  | .submitted | .fired _ | .timing _ | .launched | .marking _ => True
  | .lost reason => reason = .fault ∨ reason = .nextRun ∨ reason = .scheduleGone
  | _ => False

/-- The task is between its sessions or in the second one, or it was lost there: with a breakdown,
or because its result was refused. -/
def TaskPhase.Between : TaskPhase → Prop
  | .browsing | .ended _ | .storing _ _ => True
  | .lost reason => reason = .fault ∨ reason = .refused
  | _ => False

/-- **A state that the tables should be in.** -/
structure Server.Consistent (s : Server) : Prop where
  sound : s.db.Sound s.nextId
  pending : ∀ row ∈ s.db.executions, row.status = .pending → (s.tasks row.id).Before
  running : ∀ row ∈ s.db.executions, row.status = .running → (s.tasks row.id).Between
  /-- An execution has no steps, or those of its result, which its row holds. -/
  stored : ∀ row ∈ s.db.executions,
    (s.tasks row.id).result = none ∧ s.db.stepsOf row.id = [] ∨
      ∃ res, (s.tasks row.id).result = some res ∧ row.status.Final ∧
        (∃ cancelled, row.toRow.Holds cancelled res) ∧
        s.db.stepsOf row.id = res.steps.map StepResult.row
  posted : s.PostedOnce

omit [PyText] in
theorem ServerInv.consistent (h : ServerInv s) (hp : s.PostedOnce) : s.Consistent where
  sound := h.sound
  pending := by
    intro row hrow hst
    have hkeep := h.rows row hrow
    have hnot : ¬ row.toRow.Underway := by
      rintro ⟨hr | hr, -⟩ <;> cases hst.symm.trans hr
    have hfin : ¬ row.status.Final := by
      rw [hst]
      decide
    generalize s.tasks row.id = phase at hkeep ⊢
    cases phase with
    | absent => exact hkeep.elim
    | submitted | fired | timing | launched | marking => trivial
    | browsing | ended => exact absurd hkeep.1 hnot
    | storing => exact absurd hkeep.2.2.1 hnot
    | notifying | done => exact absurd hkeep.1 hfin
    | lost reason =>
      cases reason with
      | fault => exact Or.inl rfl
      | rowGone => exact hkeep.elim
      | nextRun => exact Or.inr (Or.inl rfl)
      | scheduleGone => exact Or.inr (Or.inr rfl)
      | refused => exact absurd hkeep.1 hnot
  running := by
    intro row hrow hst
    have hkeep := h.rows row hrow
    have hnot : ¬ row.toRow.Waiting := by
      rintro ⟨hr | hr, -⟩ <;> cases hst.symm.trans hr
    have hfin : ¬ row.status.Final := by
      rw [hst]
      decide
    generalize s.tasks row.id = phase at hkeep ⊢
    cases phase with
    | absent => exact hkeep.elim
    | submitted | fired | timing | launched => exact absurd hkeep.1 hnot
    | marking => exact absurd hkeep.2.1 hnot
    | browsing | ended | storing => trivial
    | notifying | done => exact absurd hkeep.1 hfin
    | lost reason =>
      cases reason with
      | fault => exact Or.inl rfl
      | rowGone => exact hkeep.elim
      | nextRun | scheduleGone => exact absurd hkeep.1 hnot
      | refused => exact Or.inr rfl
  stored := by
    intro row hrow
    have hkeep := h.rows row hrow
    generalize s.tasks row.id = phase at hkeep ⊢
    cases phase with
    | absent => exact hkeep.elim
    | submitted | fired | timing | launched | browsing | ended => exact Or.inl ⟨rfl, hkeep.2⟩
    | marking => exact Or.inl ⟨rfl, hkeep.2.2⟩
    | storing => exact Or.inl ⟨rfl, hkeep.2.2.2⟩
    | lost reason =>
      cases reason with
      | rowGone => exact hkeep.elim
      | fault | nextRun | scheduleGone | refused => exact Or.inl ⟨rfl, hkeep.2⟩
    | notifying res | done res => exact Or.inr ⟨res, rfl, hkeep.1, hkeep.2.1, hkeep.2.2⟩
  posted := hp

theorem consistent_of_run (hr : (databaseService make cfg).Run hist s) : s.Consistent := by
  have hinit : ServerInv {} ∧ Server.PostedOnce {} :=
    ⟨.init, List.nodup_nil, List.forall_mem_nil _⟩
  have hstep : ∀ (s : Server) (a : ServerAct) (s' : Server), ServerInv s ∧ s.PostedOnce →
      s.step make cfg a = some s' → ServerInv s' ∧ s'.PostedOnce :=
    fun s a s' hi hs => ⟨hi.1.step hs, hi.2.step hi.1 hs⟩
  obtain ⟨hinv, hposted⟩ := hr.always hinit hstep
  exact hinv.consistent hposted

/-- **Main result.** Whatever requests, firings, deletions, stops and breakdowns come in any order:
keys and references are right, the steps of an execution are stored all at once with its result, and
an execution that is not over has its task, unless that was lost. -/
theorem database_consistent (make : TriggerMaker) (cfg : ReportConfig)
    {hist : List (Server × ServerAct)} {s : Server} (hr : (databaseService make cfg).Run hist s) :
    s.Consistent := consistent_of_run hr

/-- **What is gone stays gone, and what is not deleted stays.** -/
structure Server.Lasting (s s' : Server) : Prop where
  workflows : ∀ id < s.nextId, id ∉ s.db.workflows → id ∉ s'.db.workflows ∧
    (∀ row ∈ s'.db.schedules, row.workflowId ≠ id) ∧ ∀ row ∈ s'.db.executions, row.workflowId ≠ id
  schedules : ∀ id < s.nextId, id ∉ s.db.scheduleIds → id ∉ s'.db.scheduleIds ∧
    ∀ row ∈ s'.db.executions, row.scheduleId ≠ some id
  /-- A deleted execution gets no steps, and no webhook is sent if it had no result. -/
  executions : ∀ e < s.nextId, e ∉ s.db.executionIds → e ∉ s'.db.executionIds ∧
    s'.db.stepsOf e = [] ∧ ((s.tasks e).result = none → e ∉ s'.posted.map Prod.fst)
  kept : ∀ row ∈ s.db.executions, row.workflowId ∈ s'.db.workflows →
    ∃ row' ∈ s'.db.executions, row'.id = row.id ∧ row'.workflowId = row.workflowId ∧
      (row'.scheduleId = row.scheduleId ∨
        row'.scheduleId = none ∧ ∀ id, row.scheduleId = some id → id ∉ s'.db.scheduleIds)

/-- **Main result.** From every state of a run to its end. -/
theorem deleted_for_good (make : TriggerMaker) (cfg : ReportConfig)
    {hist : List (Server × ServerAct)} {s : Server} (hr : (databaseService make cfg).Run hist s) :
    ∀ e ∈ hist, e.1.Lasting s := by
  intro e he
  have honward : e.1.Onward s := hr.kept (R := Server.Onward) (fun _ _ _ => Server.Onward.trans)
    (fun h s a s' hr hs => (ServerInv.run hr).onward hs) e he
  have hend := consistent_of_run hr
  exact
    { workflows := by
        intro id hlt hno
        have hgone := honward.rows.workflows id hlt hno
        refine ⟨hgone, fun row hrow hw => hgone ?_, fun row hrow hw => hgone ?_⟩
        · exact hend.sound.scheduleWorkflow row hrow id (congrArg some hw)
        · exact hend.sound.executionWorkflow row hrow id (congrArg some hw)
      schedules := by
        intro id hlt hno
        have hgone := honward.rows.schedules id hlt hno
        exact ⟨hgone, fun row hrow hs => hgone (hend.sound.executionSchedule row hrow id hs)⟩
      executions := by
        intro i hlt hno
        have hgone := honward.rows.executions i hlt hno
        refine ⟨hgone, hend.sound.stepsOf_nil hgone, fun hres hmem => ?_⟩
        obtain ⟨p, hp, rfl⟩ := List.mem_map.mp hmem
        obtain ⟨res, hdone⟩ := hend.posted.done p hp
        have hnone := honward.nothing p.1 hlt hno hres
        rw [hdone] at hnone
        cases hnone
      kept := honward.rows.kept }

end Runs

section Example

attribute [local instance] asciiText

/-- Every trigger fires once more. -/
def onceMore : TriggerMaker := fun _ _ => .ok fun now => some (now + 1)

/-- A workflow is uploaded, started, and deleted while session 1 has read the row. -/
def deletedWhileRead : List ServerAct :=
  [.call 0 .uploadWorkflow 0, .call 0 (.runWorkflow 0) 0, .commit 0 { totalSteps := some 1 },
    .advance 1 {}, .advance 1 {}, .call 0 (.deleteWorkflow 0) 0, .commit 0 {}, .advance 1 {}]

theorem database_consistent_deleted : ∃ hist s,
    (databaseService onceMore { isoformat := toString }).Run hist s ∧ s.db.executions = [] ∧
    s.tasks 1 = .lost .rowGone ∧ s.Consistent := by
  have he : (databaseService onceMore { isoformat := toString }).exec deletedWhileRead [] {} =
    some (_, _) := rfl
  have hr := Transition.System.run_exec .init he
  exact ⟨_, _, hr, rfl, rfl, database_consistent onceMore { isoformat := toString } hr⟩

theorem deleted_for_good_deleted : ∃ hist s, ∃ e ∈ hist,
    (databaseService onceMore { isoformat := toString }).Run hist s ∧
    1 ∈ e.1.db.executionIds ∧ 1 ∉ s.db.executionIds ∧ e.1.Lasting s := by
  have he : (databaseService onceMore { isoformat := toString }).exec deletedWhileRead [] {} =
    some (_, _) := rfl
  have hr := Transition.System.run_exec .init he
  exact ⟨_, _, _, List.mem_cons_of_mem _ List.mem_cons_self, hr, by decide, by decide,
    deleted_for_good onceMore { isoformat := toString } hr _
      (List.mem_cons_of_mem _ List.mem_cons_self)⟩

end Example

end ScoutEngine
