import ScoutEngine.Schedules.Failures

/-!
# The next run of a schedule

`next_run_at` is computed when a schedule is created, when its expression is updated and when its
job fires.

* `NextRunCurrent`: the stored time was computed for the expression and the time zone of the row.
* `KeepsZone`: an update changes the time zone together with the expression or not at all.
* `NextRunCurrent.apply`: what an update does to the stored time; **`next_run_current`**.
* `timezone_alone`: the time zone is updated, and the next run is not.
-/

set_option autoImplicit false

namespace ScoutEngine

open Transition

section Theory

variable [PyText]

/-- **`next_run_at` is a value that `compute_next_run` returned** for the expression and the time
zone of the row. -/
def NextRunCurrent (make : TriggerMaker) (row : Schedule) : Prop :=
  ∃ now, computeNextRun make row.cronExpression row.timezone now = .ok row.nextRunAt

omit [PyText] in
/-- An update that sets another time zone sets the expression too, and the time zone is a text that
is not empty. -/
def KeepsZone (s : Schedules) : ServiceEvent → Prop
  | .request (.update id req _) _ => ∀ old, s.rows.find? (·.id = id) = some old →
      ∀ timezone, req.timezone = some timezone →
        timezone = old.timezone ∨ req.cronExpression.isSome = true ∧ timezone ≠ ""
  | _ => True

variable {make : TriggerMaker} {s : Schedules} {old row : Schedule}

/-! ## The three writers -/

theorem CreateScheduleRequest.row_current {req : CreateScheduleRequest} {id now : ℕ}
    (h : req.row make s id now = .ok row) : NextRunCurrent make row := by
  unfold CreateScheduleRequest.row at h
  obtain ⟨-, -, h⟩ := bind_ok.mp h
  split_ifs at h
  obtain ⟨next, hn, h⟩ := bind_ok.mp h
  rw [← Except.ok.inj h]
  exact ⟨now, uncaught_ok.mp hn⟩

/-- **An update that keeps the time zone, or sets it with the expression, leaves the next run
current.** -/
theorem NextRunCurrent.apply {req : UpdateScheduleRequest} {now : ℕ}
    (hcur : NextRunCurrent make old) (h : req.apply make old now = .ok row)
    (hzone : ∀ timezone, req.timezone = some timezone →
      timezone = old.timezone ∨ req.cronExpression.isSome = true ∧ timezone ≠ "") :
    NextRunCurrent make row := by
  unfold NextRunCurrent at hcur
  obtain ⟨next, rfl, hnext⟩ := UpdateScheduleRequest.apply_ok h
  show ∃ start, computeNextRun make (req.cronExpression.getD old.cronExpression)
    (req.timezone.getD old.timezone) start = .ok next
  obtain ⟨hnone, rfl⟩ | ⟨cron, hsome, hnext⟩ := hnext
  · have hsame : req.timezone.getD old.timezone = old.timezone := by
      cases hz : req.timezone with
      | none => rfl
      | some timezone =>
        refine (hzone timezone hz).resolve_right fun ⟨hcr, _⟩ => ?_
        rw [hnone] at hcr
        cases hcr
    rw [hnone, hsame]
    exact hcur
  · have hsame : req.timezoneOr old = req.timezone.getD old.timezone := by
      unfold UpdateScheduleRequest.timezoneOr
      cases hz : req.timezone with
      | none => rfl
      | some timezone =>
        dsimp only [Option.getD_some]
        rcases hzone timezone hz with rfl | ⟨-, hne⟩
        · exact ite_self _
        · exact if_neg hne
    rw [hsome, ← hsame]
    exact ⟨now, hnext⟩

/-! ## Runs -/

theorem nextRunCurrent_after {ev : ServiceEvent} {rows : List Schedule}
    (h : ∀ row ∈ s.rows, NextRunCurrent make row) (hzone : KeepsZone s ev)
    (hrows : RowsAfter make s ev rows) : ∀ row ∈ rows, NextRunCurrent make row := by
  have hput : ∀ {id : ℕ} {row : Schedule}, NextRunCurrent make row →
      ∀ r' ∈ s.rows.map fun r => if r.id = id then row else r, NextRunCurrent make r' := by
    intro id row hrow r' hr'
    obtain ⟨r, hr, rfl⟩ := List.mem_map.mp hr'
    split_ifs
    · exact hrow
    · exact h r hr
  cases hrows with
  | fewer hsub => exact fun row hrow => h row (hsub.subset hrow)
  | created hrow hnew =>
    intro row' hrow'
    rcases List.mem_append.mp hrow' with hrow' | hrow'
    · exact h row' hrow'
    · rw [List.mem_singleton.mp hrow']
      exact CreateScheduleRequest.row_current hrow
  | updated hfind hrow =>
    exact hput ((h _ (List.mem_of_find?_eq_some hfind)).apply hrow (hzone _ hfind))
  | fired hfind hrow =>
    rcases hrow with rfl | ⟨next, hnext, rfl⟩
    · exact hput (h _ (List.mem_of_find?_eq_some hfind))
    · exact hput ⟨_, hnext⟩

/-- **Main result.** In every state of a run whose updates change no time zone alone, the next run
of each schedule was computed for its expression and its time zone. -/
theorem next_run_current {validate : Validator} {h : List (Schedules × ServiceEvent)}
    (hr : (requestService validate make).Run h s) (hc : ∀ e ∈ h, KeepsZone e.1 e.2) :
    ∀ row ∈ s.rows, NextRunCurrent make row :=
  hr.invariant (P := fun s => ∀ row ∈ s.rows, NextRunCurrent make row)
    (fun row hrow => absurd hrow List.not_mem_nil)
    (fun s ev s' hi (hzone : KeepsZone s ev) hstep => by
      rw [← Option.some.inj hstep]
      exact nextRunCurrent_after hi hzone (rows_after validate s ev)) hc

end Theory

/-! ## A time zone alone -/

section Example

attribute [local instance] asciiText

/-- Every request of the run succeeds. -/
def Succeeds (make : TriggerMaker) (e : Schedules × ServiceEvent) : Prop :=
  match e.2 with
  | .request a faults => (e.1.answer make faults a).1 = .ok ()
  | .fire .. => True

/-- A daily schedule gets another time zone, with its expression. -/
def moveDailyWhole : List ServiceEvent :=
  [.request (.uploadWorkflow 1) {}, .request (.create daily 7 0) {},
    .request (.update 7 { timezone := some "Etc/GMT-1", cronExpression := some "0 6 * * *" } 60) {}]

theorem next_run_current_moveDailyWhole : ∃ h s, (requestService idleValidator atSix).Run h s ∧
    s.jobs 7 = some ⟨"0 6 * * *", "Etc/GMT-1"⟩ ∧
    (∀ e ∈ h, KeepsZone e.1 e.2) ∧ ∀ row ∈ s.rows, NextRunCurrent atSix row := by
  have he : (requestService idleValidator atSix).exec moveDailyWhole [] {} = some (_, _) := rfl
  have hr := System.run_exec .init he
  refine ⟨_, _, hr, rfl, (and_iff_left_of_imp (next_run_current hr)).mpr ?_⟩
  refine List.forall_mem_cons.mpr ⟨fun old _ timezone hz => .inr ⟨rfl, ?_⟩,
    List.forall_mem_cons.mpr ⟨trivial, List.forall_mem_cons.mpr ⟨trivial, ?_⟩⟩⟩
  · rw [← Option.some.inj hz]
    decide
  · exact fun _ hn => absurd hn List.not_mem_nil

/-- **The time zone is updated alone**: the next run is still that of the old time zone. -/
theorem timezone_alone : ∃ h s, (requestService idleValidator atSix).Run h s ∧
    (∀ e ∈ h, Succeeds atSix e) ∧ ∃ row ∈ s.rows, row.timezone = "Etc/GMT-1" ∧
      row.nextRunAt = some 21600 ∧ ¬ NextRunCurrent atSix row := by
  have he : (requestService idleValidator atSix).exec (moveDaily "Etc/GMT-1") [] {} =
      some (_, _) := rfl
  have hr := System.run_exec .init he
  refine ⟨_, _, hr, ?_, _, List.mem_cons_self, rfl, rfl, ?_⟩
  · refine List.forall_mem_cons.mpr ⟨rfl, List.forall_mem_cons.mpr ⟨rfl,
      List.forall_mem_cons.mpr ⟨rfl, fun _ hn => absurd hn List.not_mem_nil⟩⟩⟩
  · rintro ⟨now, hnow⟩
    have hsix : some (18000 + 86400 * ((now - 18000 + 86399) / 86400)) = some 21600 :=
      Except.ok.inj hnow
    have := Option.some.inj hsix
    omega

end Example

end ScoutEngine
