import ScoutEngine.Schedules.Requests

/-!
# Requests that fail

* `AllAccepted`: `CronTrigger` accepts every enabled row.
* `LeavesAlone`: a failed request leaves rows and jobs as they were; `Loads`: the loader registers
  every enabled schedule; `loads_iff`.
* `Sound`: the condition on a request; `Sound.leavesAlone`, `AllAccepted.after`, `sound_of`.
* **`harmless_iff`**: failed requests do no harm, in any state of a run, iff every request is sound.
* `timezone_stored`: a time zone that does not exist is stored.
-/

set_option autoImplicit false

namespace ScoutEngine

open Transition

section Theory

variable [PyText]

/-! ## The loader -/

/-- Every enabled row has a trigger. -/
def AllAccepted (make : TriggerMaker) (rows : List Schedule) : Prop :=
  ∀ row ∈ rows, row.enabled = true → Accepts make row.cronExpression row.timezone

variable {make : TriggerMaker} {s s' : Schedules} {row : Schedule}

theorem load_ok_iff {rows : List Schedule} : (∃ s', Schedules.load make s rows = .ok s') ↔
    ∀ row ∈ rows, Accepts make row.cronExpression row.timezone := by
  induction rows generalizing s with
  | nil => exact ⟨fun _ row hrow => absurd hrow List.not_mem_nil, fun _ => ⟨s, rfl⟩⟩
  | cons row rows ih =>
    rw [List.forall_mem_cons]
    constructor
    · rintro ⟨s', h⟩
      obtain ⟨mid, hmid, h⟩ := bind_ok.mp h
      exact ⟨addOrReplace_ok_iff.mp ⟨mid, hmid⟩, ih.mp ⟨s', h⟩⟩
    · rintro ⟨hrow, hrows⟩
      obtain ⟨mid, hmid⟩ := addOrReplace_ok_iff (s := s).mpr hrow
      obtain ⟨s', h⟩ := ih (s := mid).mpr hrows
      exact ⟨s', bind_ok.mpr ⟨mid, hmid, h⟩⟩

/-- **A restart loads every enabled schedule**: the loader raises nothing, and there is the job of
each of them afterwards. -/
def Loads (make : TriggerMaker) (s : Schedules) : Prop :=
  ∃ s', s.restart make = .ok s' ∧ ∀ row ∈ s.rows, row.enabled = true →
    s'.jobs row.id = some row.job

theorem loads_iff (hnodup : (s.rows.map Schedule.id).Nodup) :
    Loads make s ↔ AllAccepted make s.rows := by
  have hload : (∃ s', s.restart make = .ok s') ↔ AllAccepted make s.rows := by
    unfold Schedules.restart AllAccepted
    simp only [uncaught_ok, load_ok_iff, List.mem_filter, and_imp]
  rw [← hload]
  refine ⟨fun ⟨s', h, _⟩ => ⟨s', h⟩, fun ⟨s', h⟩ => ⟨s', h, fun row hrow hen => ?_⟩⟩
  have hkeys := Table.nodup_delete hnodup (fun row => row.enabled)
  exact (Schedules.load_jobs (uncaught_ok.mp h) hkeys row.id row.job).mpr
    (.inl ⟨row, List.mem_filter.mpr ⟨hrow, hen⟩, rfl, rfl⟩)

/-! ## Requests -/

/-- **A failed request leaves rows and jobs as they were.** -/
def LeavesAlone (make : TriggerMaker) (s : Schedules) : ServiceEvent → Prop
  | .request a faults => a.WritesRow → ∀ e, (s.answer make faults a).1 = .error e →
      (s.answer make faults a).2 = s
  | .fire .. => True

/-- **A sound request.** When a row is committed it can be read back, unless it is what it was, and
`CronTrigger` accepts the expression and the time zone that an enabled row is left with. -/
def Sound (make : TriggerMaker) (s : Schedules) : ServiceEvent → Prop
  | .request (.create req id now) faults => ∀ row, req.row make s id now = .ok row →
      (∀ old ∈ s.rows, old.id ≠ id) → faults.commit = false → faults.refresh = false
  | .request (.update id req now) faults => ∀ old row, s.rows.find? (·.id = id) = some old →
      req.apply make old now = .ok row → faults.commit = false →
        (faults.refresh = true → row = old) ∧
        (req.enabled.getD old.enabled = true →
          Accepts make (req.cronExpression.getD old.cronExpression)
            (req.timezone.getD old.timezone))
  | _ => True

theorem UpdateScheduleRequest.apply_fields {req : UpdateScheduleRequest} {old : Schedule} {now : ℕ}
    (h : req.apply make old now = .ok row) : row.enabled = req.enabled.getD old.enabled ∧
      row.cronExpression = req.cronExpression.getD old.cronExpression ∧
      row.timezone = req.timezone.getD old.timezone := by
  obtain ⟨next, rfl, -⟩ := UpdateScheduleRequest.apply_ok h
  exact ⟨rfl, rfl, rfl⟩

/-- **The rows keep their ids to themselves.** -/
theorem RowsAfter.nodup {ev : ServiceEvent} {rows : List Schedule} (h : RowsAfter make s ev rows)
    (hnodup : (s.rows.map Schedule.id).Nodup) : (rows.map Schedule.id).Nodup := by
  have hput : ∀ {id : ℕ} {old row : Schedule}, s.rows.find? (·.id = id) = some old →
      row.id = old.id → ((s.rows.map fun r => if r.id = id then row else r).map Schedule.id).Nodup :=
    fun {id old row} hfind hrow => Table.nodup_update hnodup fun r => by
      split_ifs with hr
      · exact (hrow.trans (Table.key_of_find hfind)).trans hr.symm
      · rfl
  cases h with
  | fewer h => exact hnodup.sublist (h.map _)
  | created hrow hnew =>
    obtain ⟨hid, -⟩ := CreateScheduleRequest.row_ok hrow
    exact Table.nodup_insert hnodup fun old hold he => hnew old hold (he.trans hid)
  | updated hfind hrow => exact hput hfind (UpdateScheduleRequest.apply_id hrow)
  | fired hfind hrow =>
    rcases hrow with rfl | ⟨next, -, rfl⟩
    · exact hput hfind rfl
    · exact hput hfind rfl

/-- **A sound event leaves rows that `CronTrigger` accepts.** -/
theorem AllAccepted.after {ev : ServiceEvent} {rows : List Schedule} (h : AllAccepted make s.rows)
    (hsound : Sound make s ev) (hrows : RowsAfter make s ev rows) : AllAccepted make rows := by
  have hput : ∀ {id : ℕ} {row : Schedule}, (row.enabled = true →
      Accepts make row.cronExpression row.timezone) →
        AllAccepted make (s.rows.map fun r => if r.id = id then row else r) := by
    intro id row hrow r' hr' hen
    obtain ⟨r, hr, rfl⟩ := List.mem_map.mp hr'
    split_ifs at hen ⊢
    · exact hrow hen
    · exact h r hr hen
  cases hrows with
  | fewer hsub => exact fun row hrow hen => h row (hsub.subset hrow) hen
  | created hrow hnew =>
    intro row' hrow' hen
    rcases List.mem_append.mp hrow' with hrow' | hrow'
    · exact h row' hrow' hen
    · rw [List.mem_singleton.mp hrow']
      exact (CreateScheduleRequest.row_ok hrow).2
  | updated hfind hrow hcommit =>
    obtain ⟨hen, hcron, hzone⟩ := UpdateScheduleRequest.apply_fields hrow
    refine hput ?_
    rw [hen, hcron, hzone]
    exact (hsound _ _ hfind hrow hcommit).2
  | fired hfind hrow =>
    have hold := h _ (List.mem_of_find?_eq_some hfind)
    rcases hrow with rfl | ⟨next, -, rfl⟩
    · exact hput hold
    · exact hput hold

/-- **A sound request that fails leaves rows and jobs as they were.** -/
theorem Sound.leavesAlone {ev : ServiceEvent} (hsound : Sound make s ev)
    (hnodup : (s.rows.map Schedule.id).Nodup) : LeavesAlone make s ev := by
  cases ev with
  | fire => exact trivial
  | request a faults =>
    intro ha e he
    cases a with
    | create req id now =>
      simp only [Schedules.answer] at he ⊢
      rcases @createSchedule_cases _ make s faults req id now with
        h | ⟨row, hrow, hnew, hcommit, -, hfail⟩
      · exact h
      · have hrefresh := hsound row hrow hnew hcommit
        exact absurd (hrefresh.symm.trans (hfail ⟨e, he⟩)) Bool.false_ne_true
    | update id req now =>
      simp only [Schedules.answer] at he ⊢
      rcases @updateSchedule_cases _ make s faults id req now with
        h | ⟨old, row, hfind, hrow, hcommit, -, hfail⟩
      · exact h
      · obtain ⟨hsame, hacc⟩ := hsound old row hfind hrow hcommit
        obtain ⟨hleft, hrefresh | ⟨hen, hno⟩⟩ := hfail e he
        · rw [hleft, hsame hrefresh, Table.map_same hnodup hfind]
        · obtain ⟨hen', hcron, hzone⟩ := UpdateScheduleRequest.apply_fields hrow
          rw [hcron, hzone] at hno
          exact absurd (hacc (hen'.symm.trans hen)) hno
    | _ => exact ha.elim

/-- The other way round: an event is sound if it leaves everything alone when it fails, and rows
that `CronTrigger` accepts. -/
theorem sound_of {validate : Validator} {ev : ServiceEvent}
    (hnodup : (s.rows.map Schedule.id).Nodup) (halone : LeavesAlone make s ev)
    (hacc : AllAccepted make (s.after validate make ev).rows) : Sound make s ev := by
  cases ev with
  | fire => exact trivial
  | request a faults =>
    cases a with
    | create req id now =>
      intro row hrow hnew hcommit
      obtain ⟨hid, -⟩ := CreateScheduleRequest.row_ok hrow
      refine Bool.eq_false_iff.mpr fun hrefresh => ?_
      have ha := createSchedule_eq faults hrow fun old hold he => hnew old hold (he.trans hid)
      rw [commitThen_unread hcommit hrefresh] at ha
      have hsame := halone trivial internalError (congrArg Prod.fst ha)
      have hlen := congrArg (fun t : Schedules => t.rows.length) ((congrArg Prod.snd ha).symm.trans hsame)
      simp at hlen
    | update id req now =>
      intro old row hfind hrow hcommit
      have hu := updateSchedule_eq faults hfind hrow
      refine ⟨fun hrefresh => ?_, fun hen => ?_⟩
      · rw [commitThen_unread hcommit hrefresh] at hu
        have hsame := halone trivial internalError (congrArg Prod.fst hu)
        have hmem : row ∈ s.rows.map fun r => if r.id = id then row else r :=
          List.mem_map.mpr ⟨old, List.mem_of_find?_eq_some hfind, if_pos (Table.key_of_find hfind)⟩
        have hrows := congrArg Schedules.rows ((congrArg Prod.snd hu).symm.trans hsame)
        dsimp only at hrows
        rw [hrows] at hmem
        exact List.inj_on_of_nodup_map hnodup hmem (List.mem_of_find?_eq_some hfind)
          (UpdateScheduleRequest.apply_id hrow)
      · obtain ⟨hen', hcron, hzone⟩ := UpdateScheduleRequest.apply_fields hrow
        rw [← hcron, ← hzone]
        refine hacc row ?_ (hen'.trans hen)
        simp only [Schedules.after, Schedules.answer]
        rw [hu, commitThen_rows hcommit fun t ht => sync_rows ht]
        exact List.mem_map.mpr ⟨old, List.mem_of_find?_eq_some hfind, if_pos (Table.key_of_find hfind)⟩
    | _ => exact trivial

/-! ## Runs -/

variable {validate : Validator} {h : List (Schedules × ServiceEvent)}

theorem requests_nodup (hr : (requestService validate make).Run h s) :
    (s.rows.map Schedule.id).Nodup :=
  hr.always (P := fun s => (s.rows.map Schedule.id).Nodup) List.nodup_nil fun s ev s' hi hs => by
    rw [← Option.some.inj hs]
    exact (rows_after validate s ev).nodup hi

/-- **Failed requests do no harm in a run**: each leaves rows and jobs as they were, and in every
state a restart loads every enabled schedule. -/
structure Harmless (make : TriggerMaker) (h : List (Schedules × ServiceEvent)) (s : Schedules) :
    Prop where
  alone : ∀ e ∈ h, LeavesAlone make e.1 e.2
  passed : ∀ e ∈ h, Loads make e.1
  reached : Loads make s

theorem allAccepted_of_sound (hr : (requestService validate make).Run h s)
    (hc : ∀ e ∈ h, Sound make e.1 e.2) : AllAccepted make s.rows :=
  hr.invariant (P := fun s => AllAccepted make s.rows)
    (fun row hrow => absurd hrow List.not_mem_nil)
    (fun s ev s' hi (hs : Sound make s ev) hstep => by
      rw [← Option.some.inj hstep]
      exact hi.after hs (rows_after validate s ev)) hc

/-- **Main result.** Failed requests do no harm, in any state of a run, iff every request of the run
is sound. -/
theorem harmless_iff (hr : (requestService validate make).Run h s) :
    Harmless make h s ↔ ∀ e ∈ h, Sound make e.1 e.2 := by
  constructor
  · rintro ⟨halone, hpassed, hend⟩
    induction hr with
    | init => exact fun _ he => absurd he List.not_mem_nil
    | @step h s s' ev hr hs ih =>
      rw [List.forall_mem_cons] at halone hpassed ⊢
      have hnodup := requests_nodup hr
      have hacc := (loads_iff (requests_nodup (hr.step hs))).mp hend
      rw [← Option.some.inj hs] at hacc
      exact ⟨sound_of hnodup halone.1 hacc, ih halone.2 hpassed.2 hpassed.1⟩
  · intro hc
    have hloads : ∀ {h' s'}, (requestService validate make).Run h' s' →
        (∀ e ∈ h', Sound make e.1 e.2) → Loads make s' := fun hr' hc' =>
      (loads_iff (requests_nodup hr')).mpr (allAccepted_of_sound hr' hc')
    refine ⟨fun e he => ?_, fun e he => ?_, hloads hr hc⟩
    · obtain ⟨h', hr', -⟩ := hr.of_mem he
      exact (hc e he).leavesAlone (requests_nodup hr')
    · obtain ⟨h', hr', hsuf⟩ := hr.of_mem he
      exact hloads hr' fun e' he' => hc e' (hsuf.mem he')

end Theory

/-! ## A time zone that does not exist -/

section Example

attribute [local instance] asciiText

/-- Six o'clock of a time zone, in seconds after midnight UTC. -/
def sixOClock (timezone : String) : Option ℕ :=
  if timezone = "UTC" then some 21600 else if timezone = "Etc/GMT-1" then some 18000 else none

/-- The trigger of `0 6 * * *`. -/
def atSix : TriggerMaker := fun _ timezone =>
  match sixOClock timezone with
  | some six => .ok fun now => some (six + 86400 * ((now - six + 86399) / 86400))
  | none => .error ⟨.keyError, timezone⟩

/-- No job fires here. -/
def idleValidator : Validator := fun _ => .error ⟨.valueError, "validation error"⟩

/-- A daily schedule gets this time zone. -/
def moveDaily (timezone : String) : List ServiceEvent :=
  [.request (.uploadWorkflow 1) {}, .request (.create daily 7 0) {},
    .request (.update 7 { timezone := some timezone } 60) {}]

theorem harmless_iff_moveDaily : ∃ h s, (requestService idleValidator atSix).Run h s ∧
    s.jobs 7 = some ⟨"0 6 * * *", "Etc/GMT-1"⟩ ∧
    (Harmless atSix h s ↔ ∀ e ∈ h, Sound atSix e.1 e.2) := by
  have he : (requestService idleValidator atSix).exec (moveDaily "Etc/GMT-1") [] {} =
      some (_, _) := rfl
  have hr := System.run_exec .init he
  exact ⟨_, _, hr, rfl, harmless_iff hr⟩

/-- **A time zone that does not exist is stored**, although the request fails, and stops the loader
at the next start. -/
theorem timezone_stored : ∃ h s, (requestService idleValidator atSix).Run h s ∧
    s.jobs 7 = some ⟨"0 6 * * *", "UTC"⟩ ∧ ¬ (∀ e ∈ h, LeavesAlone atSix e.1 e.2) ∧
    ¬ Loads atSix s := by
  have he : (requestService idleValidator atSix).exec (moveDaily "Mars/Base") [] {} =
      some (_, _) := rfl
  have hr := System.run_exec .init he
  refine ⟨_, _, hr, rfl, fun halone => ?_, fun hloads => ?_⟩
  · have hsame := halone _ List.mem_cons_self trivial internalError rfl
    have hzone := congrArg (fun s : Schedules => s.rows.map Schedule.timezone) hsame
    exact absurd hzone (by decide)
  · obtain ⟨s', hs', -⟩ := hloads
    cases hs'

end Example

end ScoutEngine
