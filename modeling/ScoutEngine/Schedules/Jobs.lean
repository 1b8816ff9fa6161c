import ScoutEngine.Lib.Table
import ScoutEngine.Schedules.Service
import Mathlib.Data.List.Nodup

/-!
# Jobs for enabled schedules

* `InSync`: the jobs are those of the enabled schedules; `Careful`: an operation deletes no
  workflow with an enabled schedule.
* `InSync.create`, `update`, `delete`, `cascade`: what keeps the two stores in sync.
* `Schedules.Moved`, `step_moved`: what an operation does.
* **`inSync_iff`**: jobs and schedules are in sync in every state of a run iff every operation of
  the run is careful.
-/

set_option autoImplicit false

namespace ScoutEngine

open Transition

/-- **There is a job exactly for every enabled schedule**, with its expression and its time zone. -/
def InSync (s : Schedules) : Prop :=
  ∀ id job, s.jobs id = some job ↔ ∃ row ∈ s.rows, row.id = id ∧ row.enabled = true ∧ row.job = job

/-- The operation deletes no workflow with an enabled schedule. -/
def Careful (s : Schedules) : ScheduleAct → Prop
  | .deleteWorkflow id => ∀ row ∈ s.rows, row.workflowId = id → row.enabled = false
  | _ => True

/-! ## Rows and jobs -/

section Stores

variable {s s' : Schedules}

theorem InSync.eq_none (h : InSync s) {id : ℕ} (hno : ∀ row ∈ s.rows, row.id ≠ id) :
    s.jobs id = none := by
  rw [Option.eq_none_iff_forall_ne_some]
  intro job hjob
  obtain ⟨row, hrow, hid, -⟩ := (h id job).mp hjob
  exact hno row hrow hid

/-- A row with a new id, and its job if it is enabled. -/
theorem InSync.create (h : InSync s) {row : Schedule} (hnew : ∀ old ∈ s.rows, old.id ≠ row.id)
    (hrows : s'.rows = s.rows ++ [row])
    (hjobs : s'.jobs = if row.enabled then Function.update s.jobs row.id (some row.job)
      else s.jobs) : InSync s' := by
  intro id job
  have hsplit : (∃ r ∈ s'.rows, r.id = id ∧ r.enabled = true ∧ r.job = job) ↔
      s.jobs id = some job ∨ row.id = id ∧ row.enabled = true ∧ row.job = job := by
    rw [h id job, hrows]
    simp only [List.mem_append, List.mem_singleton, or_and_right, exists_or, exists_eq_left]
  rw [hsplit, hjobs]
  by_cases he : row.id = id
  · have hnone : s.jobs id = none := h.eq_none fun r hr => he ▸ hnew r hr
    split_ifs with hen
    · simp [← he, hen, he.symm ▸ hnone]
    · simp [hen]
  · split_ifs
    · rw [Function.update_of_ne (Ne.symm he)]
      simp [he]
    · simp [he]

/-- Another row in the place of the one with its id, and its job if it is enabled. -/
theorem InSync.update (h : InSync s) {old row : Schedule} (hold : old ∈ s.rows)
    (hid : old.id = row.id) (hrows : s'.rows = s.rows.map fun r => if r.id = row.id then row else r)
    (hjobs : s'.jobs = Function.update s.jobs row.id (if row.enabled then some row.job else none)) :
    InSync s' := by
  intro id job
  rw [hrows, hjobs]
  by_cases he : id = row.id
  · subst he
    rw [Function.update_self]
    constructor
    · intro hjob
      split_ifs at hjob with hen
      exact ⟨row, List.mem_map.mpr ⟨old, hold, if_pos hid⟩, rfl, hen, Option.some.inj hjob⟩
    · rintro ⟨r', hr', hrid, hren, hrjob⟩
      obtain ⟨r, -, rfl⟩ := List.mem_map.mp hr'
      split_ifs at hrid hren hrjob with hr
      · rw [if_pos hren, hrjob]
      · exact absurd hrid hr
  · rw [Function.update_of_ne he, h id job]
    constructor
    · rintro ⟨r, hr, hrid, hrest⟩
      exact ⟨r, List.mem_map.mpr ⟨r, hr, if_neg (hrid ▸ he)⟩, hrid, hrest⟩
    · rintro ⟨r', hr', hrid, hrest⟩
      obtain ⟨r, hr, rfl⟩ := List.mem_map.mp hr'
      split_ifs at hrid hrest with hd
      · exact absurd hrid.symm he
      · exact ⟨r, hr, hrid, hrest⟩

/-- A row is deleted, and its job. -/
theorem InSync.delete (h : InSync s) {d : ℕ} (hrows : s'.rows = s.rows.filter fun r => r.id ≠ d)
    (hjobs : s'.jobs = Function.update s.jobs d none) : InSync s' := by
  intro id job
  rw [hrows, hjobs]
  by_cases he : id = d
  · subst he
    rw [Function.update_self]
    constructor
    · nofun
    · rintro ⟨row, hrow, hid, -⟩
      exact absurd hid (of_decide_eq_true (List.mem_filter.mp hrow).2)
  · rw [Function.update_of_ne he, h id job]
    refine exists_congr fun row => ?_
    rw [List.mem_filter]
    constructor
    · exact fun ⟨hrow, hr, hr'⟩ => ⟨⟨hrow, decide_eq_true (hr ▸ he)⟩, hr, hr'⟩
    · exact fun ⟨⟨hrow, _⟩, hr⟩ => ⟨hrow, hr⟩

/-- Rows that are not enabled are deleted. -/
theorem InSync.cascade (h : InSync s) {w : ℕ}
    (hc : ∀ row ∈ s.rows, row.workflowId = w → row.enabled = false)
    (hrows : s'.rows = s.rows.filter fun r => r.workflowId ≠ w) (hjobs : s'.jobs = s.jobs) :
    InSync s' := by
  intro id job
  rw [hrows, hjobs, h id job]
  refine exists_congr fun row => ?_
  rw [List.mem_filter]
  constructor
  · rintro ⟨hrow, hid, hen, hjob⟩
    refine ⟨⟨hrow, decide_eq_true fun hw => ?_⟩, hid, hen, hjob⟩
    rw [hc row hrow hw] at hen
    cases hen
  · exact fun ⟨⟨hrow, _⟩, hr⟩ => ⟨hrow, hr⟩

end Stores

section Moves

variable [PyText] {make : TriggerMaker} {s s' : Schedules} {a : ScheduleAct}

/-! ## Operations -/

/-- **The operations that succeed.** -/
inductive Schedules.Moved (make : TriggerMaker) (s : Schedules) : ScheduleAct → Schedules → Prop where
  | create {req : CreateScheduleRequest} {id now : ℕ} {row : Schedule} {s' : Schedules}
      (hid : row.id = id) (hnew : ∀ old ∈ s.rows, old.id ≠ id) (hrows : s'.rows = s.rows ++ [row])
      (hjobs : s'.jobs = if row.enabled then Function.update s.jobs id (some row.job) else s.jobs) :
      Moved make s (.create req id now) s'
  | update {id now : ℕ} {req : UpdateScheduleRequest} {old row : Schedule} {s' : Schedules}
      (hold : old ∈ s.rows) (hid : old.id = id) (hid' : row.id = id)
      (hrows : s'.rows = s.rows.map fun r => if r.id = id then row else r)
      (hjobs : s'.jobs = Function.update s.jobs id (if row.enabled then some row.job else none)) :
      Moved make s (.update id req now) s'
  | delete {id : ℕ} {s' : Schedules} (hrows : s'.rows = s.rows.filter fun r => r.id ≠ id)
      (hjobs : s'.jobs = Function.update s.jobs id none) : Moved make s (.delete id) s'
  | uploadWorkflow {id : ℕ} {s' : Schedules} (hrows : s'.rows = s.rows) (hjobs : s'.jobs = s.jobs) :
      Moved make s (.uploadWorkflow id) s'
  | deleteWorkflow {id : ℕ} {s' : Schedules}
      (hrows : s'.rows = s.rows.filter fun r => r.workflowId ≠ id) (hjobs : s'.jobs = s.jobs) :
      Moved make s (.deleteWorkflow id) s'
  | restart {s' : Schedules} (hrows : s'.rows = s.rows)
      (hload : Schedules.load make { s with jobs := fun _ => none } (s.rows.filter (·.enabled)) =
        .ok s') : Moved make s .restart s'

theorem Schedules.addOrReplace_ok {row : Schedule} (h : s.addOrReplace make row = .ok s') :
    s' = { s with jobs := Function.update s.jobs row.id (some row.job) } := by
  obtain ⟨_, -, h⟩ := bind_ok.mp h
  obtain ⟨_, -, h⟩ := bind_ok.mp h
  exact (Except.ok.inj h).symm

/-- **What an update makes of a row**: only a request with a cron expression moves the next run. -/
theorem UpdateScheduleRequest.apply_ok {req : UpdateScheduleRequest} {old row : Schedule} {now : ℕ}
    (h : req.apply make old now = .ok row) : ∃ next,
      row = { old with
        name := req.name.getD old.name
        cronExpression := req.cronExpression.getD old.cronExpression
        timezone := req.timezone.getD old.timezone
        enabled := req.enabled.getD old.enabled
        vars := req.vars.or old.vars
        nextRunAt := next } ∧
      (req.cronExpression = none ∧ next = old.nextRunAt ∨
        ∃ cron, req.cronExpression = some cron ∧
          computeNextRun make cron (req.timezoneOr old) now = .ok next) := by
  unfold apply applyCron at h
  obtain ⟨mid, hmid, h⟩ := bind_ok.mp h
  obtain rfl := Except.ok.inj h
  cases hc : req.cronExpression with
  | none =>
    rw [hc] at hmid
    obtain rfl := Except.ok.inj hmid
    exact ⟨_, rfl, .inl ⟨rfl, rfl⟩⟩
  | some cron =>
    rw [hc] at hmid
    obtain ⟨-, -, hmid⟩ := bind_ok.mp hmid
    obtain ⟨next, hn, hmid⟩ := bind_ok.mp hmid
    obtain rfl := Except.ok.inj hmid
    exact ⟨next, rfl, .inr ⟨cron, rfl, uncaught_ok.mp hn⟩⟩

theorem UpdateScheduleRequest.apply_id {req : UpdateScheduleRequest} {old row : Schedule} {now : ℕ}
    (h : req.apply make old now = .ok row) : row.id = old.id := by
  obtain ⟨next, rfl, -⟩ := apply_ok h
  rfl

theorem Schedules.load_rows {rows : List Schedule} (h : Schedules.load make s rows = .ok s') :
    s'.rows = s.rows := by
  induction rows generalizing s with
  | nil => exact congrArg Schedules.rows (Except.ok.inj h).symm
  | cons row rows ih =>
    obtain ⟨mid, hmid, h⟩ := bind_ok.mp h
    rw [ih h, addOrReplace_ok hmid]

/-- **An operation that succeeds is one of these.** -/
theorem Schedules.step_moved (h : (scheduleService make).step s a = some s') :
    s.Moved make a s' := by
  replace h : s.step make a = .ok s' := by
    simp only [scheduleService] at h
    cases hs : s.step make a with
    | error e => rw [hs] at h; cases h
    | ok t => rw [hs] at h; exact congrArg Except.ok (Option.some.inj h)
  cases a with
  | create req id now =>
    obtain ⟨_, -, h⟩ := bind_ok.mp h
    split_ifs at h
    obtain ⟨_, -, h⟩ := bind_ok.mp h
    unfold insert at h
    split_ifs at h with hnew hen
    · obtain rfl := addOrReplace_ok (uncaught_ok.mp h)
      exact .create rfl (fun old hold hid => hnew ⟨old, hold, hid⟩) rfl (if_pos hen).symm
    · obtain rfl := Except.ok.inj h
      exact .create rfl (fun old hold hid => hnew ⟨old, hold, hid⟩) rfl (if_neg hen).symm
  | update id req now =>
    simp only [step, update] at h
    split at h
    · cases h
    · rename_i old hfind
      have hid : old.id = id := Table.key_of_find hfind
      obtain ⟨row, hrow, h⟩ := bind_ok.mp h
      have hid' : row.id = id := (UpdateScheduleRequest.apply_id hrow).trans hid
      split_ifs at h with hen
      · obtain rfl := addOrReplace_ok (uncaught_ok.mp h)
        refine .update (List.mem_of_find?_eq_some hfind) hid hid' rfl ?_
        rw [if_pos hen, hid']
      · obtain rfl := Except.ok.inj h
        refine .update (List.mem_of_find?_eq_some hfind) hid hid' rfl ?_
        rw [if_neg hen, ← hid']
        rfl
  | delete id =>
    simp only [step, delete] at h
    split at h
    · cases h
    · obtain rfl := Except.ok.inj h
      exact .delete rfl rfl
  | uploadWorkflow id =>
    simp only [step, uploadWorkflow] at h
    split_ifs at h
    obtain rfl := Except.ok.inj h
    exact .uploadWorkflow rfl rfl
  | deleteWorkflow id =>
    simp only [step, deleteWorkflow] at h
    split_ifs at h
    obtain rfl := Except.ok.inj h
    exact .deleteWorkflow rfl rfl
  | restart =>
    have hload := uncaught_ok.mp h
    have hrows := load_rows hload
    exact .restart hrows hload

/-! ## Both stores -/

/-- The rows have their ids to themselves. -/
theorem Schedules.Moved.nodup (hm : s.Moved make a s') (h : (s.rows.map Schedule.id).Nodup) :
    (s'.rows.map Schedule.id).Nodup := by
  cases hm with
  | @create req id now row _ hid hnew hrows =>
    rw [hrows]
    exact Table.nodup_insert h fun old hold he => hnew old hold (he.trans hid)
  | @update id now req old row _ _ _ hid' hrows =>
    rw [hrows]
    refine Table.nodup_update h fun r => ?_
    split_ifs with hr
    · exact hid'.trans hr.symm
    · rfl
  | delete hrows | deleteWorkflow hrows =>
    rw [hrows]
    exact Table.nodup_delete h _
  | uploadWorkflow hrows | restart hrows =>
    rw [hrows]
    exact h

/-- The jobs after the loader. -/
theorem Schedules.load_jobs {rows : List Schedule} (h : Schedules.load make s rows = .ok s')
    (hnodup : (rows.map Schedule.id).Nodup) (id : ℕ) (job : CronJob) :
    s'.jobs id = some job ↔ (∃ row ∈ rows, row.id = id ∧ row.job = job) ∨
      (∀ row ∈ rows, row.id ≠ id) ∧ s.jobs id = some job := by
  induction rows generalizing s with
  | nil =>
    obtain rfl := Except.ok.inj h
    simp
  | cons row rows ih =>
    obtain ⟨mid, hmid, h⟩ := bind_ok.mp h
    obtain rfl := addOrReplace_ok hmid
    obtain ⟨hrow, hrows⟩ := List.nodup_cons.mp hnodup
    rw [ih h hrows]
    by_cases hid : row.id = id
    · subst hid
      have hno : ∀ r ∈ rows, r.id ≠ row.id := fun r hr he =>
        hrow (he ▸ List.mem_map_of_mem hr)
      have hnone : ¬ ∃ r ∈ rows, r.id = row.id ∧ r.job = job := fun ⟨r, hr, he, _⟩ => hno r hr he
      dsimp only
      rw [Function.update_self]
      constructor
      · rintro (hex | ⟨-, hjob⟩)
        · exact absurd hex hnone
        · exact Or.inl ⟨row, List.mem_cons_self, rfl, Option.some.inj hjob⟩
      · rintro (⟨r, hr, he, hjob⟩ | ⟨hall, -⟩)
        · rcases List.mem_cons.mp hr with rfl | hr
          · exact Or.inr ⟨hno, congrArg some hjob⟩
          · exact absurd he (hno r hr)
        · exact absurd rfl (hall row List.mem_cons_self)
    · simp [Function.update_of_ne (Ne.symm hid), hid]

theorem InSync.restart (hnodup : (s.rows.map Schedule.id).Nodup) (hrows : s'.rows = s.rows)
    (hload : Schedules.load make { s with jobs := fun _ => none } (s.rows.filter (·.enabled)) =
      .ok s') : InSync s' := by
  intro id job
  rw [Schedules.load_jobs hload (Table.nodup_delete hnodup _), hrows]
  simp only [List.mem_filter, reduceCtorEq, and_false, or_false]
  refine exists_congr fun row => ?_
  tauto

/-- **A careful operation keeps the two stores in sync.** -/
theorem InSync.move (h : InSync s) (hnodup : (s.rows.map Schedule.id).Nodup) (hc : Careful s a)
    (hm : s.Moved make a s') : InSync s' := by
  cases hm with
  | create hid hnew hrows hjobs =>
    subst hid
    exact h.create hnew hrows hjobs
  | update hold hid hid' hrows hjobs =>
    subst hid'
    exact h.update hold hid hrows hjobs
  | delete hrows hjobs => exact h.delete hrows hjobs
  | uploadWorkflow hrows hjobs =>
    intro id job
    rw [hrows, hjobs]
    exact h id job
  | deleteWorkflow hrows hjobs => exact h.cascade hc hrows hjobs
  | restart hrows hload => exact InSync.restart hnodup hrows hload

/-- An operation after which the two stores are in sync is careful, if they were before. -/
theorem InSync.careful (h : InSync s) (hnodup : (s.rows.map Schedule.id).Nodup)
    (hm : s.Moved make a s') (h' : InSync s') : Careful s a := by
  cases hm with
  | @deleteWorkflow w _ hrows hjobs =>
    intro row hrow hw
    by_contra hen
    have hjob := (h row.id row.job).mpr ⟨row, hrow, rfl, Bool.not_eq_false _ ▸ hen, rfl⟩
    rw [← hjobs] at hjob
    obtain ⟨row', hrow', hid, -⟩ := (h' row.id row.job).mp hjob
    rw [hrows, List.mem_filter] at hrow'
    obtain rfl := List.inj_on_of_nodup_map hnodup hrow'.1 hrow hid
    exact of_decide_eq_true hrow'.2 hw
  | _ => exact trivial

end Moves

/-! ## Runs -/

section Runs

variable [PyText] {make : TriggerMaker} {h : List (Schedules × ScheduleAct)} {s : Schedules}

theorem nodup_of_run (hr : (scheduleService make).Run h s) : (s.rows.map Schedule.id).Nodup :=
  hr.always (P := fun s => (s.rows.map Schedule.id).Nodup) List.nodup_nil
    fun _ _ _ hi hs => (Schedules.step_moved hs).nodup hi

theorem inSync_of_careful (hr : (scheduleService make).Run h s)
    (hc : ∀ e ∈ h, Careful e.1 e.2) : InSync s := by
  induction hr with
  | init => exact fun id job => ⟨nofun, fun ⟨_, hrow, _⟩ => absurd hrow List.not_mem_nil⟩
  | step hr hs ih =>
    rw [List.forall_mem_cons] at hc
    exact (ih hc.2).move (nodup_of_run hr) hc.1 (Schedules.step_moved hs)

/-- **Main result.** There is a job exactly for every enabled schedule, in every state of a run, iff
no operation of the run deletes a workflow with an enabled schedule. -/
theorem inSync_iff (hr : (scheduleService make).Run h s) :
    ((∀ e ∈ h, InSync e.1) ∧ InSync s) ↔ ∀ e ∈ h, Careful e.1 e.2 := by
  constructor
  · rintro ⟨hpassed, hend⟩
    induction hr with
    | init => exact fun _ he => absurd he List.not_mem_nil
    | step hr hs ih =>
      rw [List.forall_mem_cons] at hpassed ⊢
      exact ⟨hpassed.1.careful (nodup_of_run hr) (Schedules.step_moved hs) hend,
        ih hpassed.2 hpassed.1⟩
  · intro hc
    refine ⟨fun e he => ?_, inSync_of_careful hr hc⟩
    obtain ⟨h', hr', hsuf⟩ := hr.of_mem he
    exact inSync_of_careful hr' fun e' he' => hc e' (hsuf.mem he')

end Runs

/-! ## A job that is left -/

section Example

attribute [local instance] asciiText

/-- Every trigger is accepted and fires in a minute. -/
def everyMinute : TriggerMaker := fun _ _ => .ok fun now => some (now + 60)

/-- A daily schedule. -/
def daily : CreateScheduleRequest where
  workflowId := 1
  name := "Daily"
  cronExpression := "0 6 * * *"

theorem inSync_iff_daily : ∃ h s, (scheduleService everyMinute).Run h s ∧
    s.rows.length = 1 ∧ s.jobs 7 = some ⟨"0 7 * * *", "UTC"⟩ ∧
    (((∀ e ∈ h, InSync e.1) ∧ InSync s) ↔ ∀ e ∈ h, Careful e.1 e.2) := by
  have he : (scheduleService everyMinute).exec [.uploadWorkflow 1, .create daily 7 0,
    .update 7 { cronExpression := some "0 7 * * *" } 60, .restart] [] {} = some (_, _) := rfl
  have hr := System.run_exec .init he
  exact ⟨_, _, hr, rfl, rfl, inSync_iff hr⟩

/-- **A workflow is deleted, and the job of its schedule stays.** -/
theorem job_left : ∃ h s, (scheduleService everyMinute).Run h s ∧
    s.rows.length = 0 ∧ s.jobs 7 = some ⟨"0 6 * * *", "UTC"⟩ ∧ ¬ InSync s := by
  have he : (scheduleService everyMinute).exec [.uploadWorkflow 1, .create daily 7 0,
    .deleteWorkflow 1] [] {} = some (_, _) := rfl
  have hr := System.run_exec .init he
  refine ⟨_, _, hr, rfl, rfl, fun hsync => ?_⟩
  obtain ⟨row, hrow, -⟩ := (hsync 7 ⟨"0 6 * * *", "UTC"⟩).mp rfl
  exact absurd hrow List.not_mem_nil

end Example

end ScoutEngine
