import ScoutEngine.Api.FinalStatus

/-!
# The life of an execution

Which statuses the row of an execution goes through when stop requests come at any time, and what
stays for good.

* `Commits`: what each action may make of the committed status.
* `Commit`, `Act.commit`, `Task.Behind`: the three commits that are made once.
* `LifeInv`, **`LifeInv.move`**: one action keeps the invariant and follows the course.
* **`lifecycle`**: every run follows the course.
* `Row.Holds`, `LateStop`, `Service.Settled`, **`result_kept`**: what session 2 has stored stays.
-/

set_option autoImplicit false

namespace ScoutEngine

open Transition

/-! ## The course -/

/-- **What an action may make of the status.** The request creates a pending row, session 1 marks it
as running, session 2 ends it, and a stop cancels it; nothing else touches it. -/
def Commits (old new : Option Status) : Act → Prop
  | .runWorkflow => old = none ∧ new = some .pending
  | .markCommit => (old = some .pending ∨ old = some .cancelled) ∧ new = some .running
  | .resultCommit => (old = some .running ∨ old = some .cancelled) ∧ ∃ st, new = some st ∧ st.Final
  | .stopCommit _ => (∃ st, old = some st) ∧ new = some .cancelled
  | _ => new = old

/-- The commits that create, mark and end an execution. -/
inductive Commit where
  | created | marked | ended
  deriving DecidableEq

/-- The commit that an action makes. -/
def Act.commit : Act → Option Commit
  | .runWorkflow => some .created
  | .markCommit => some .marked
  | .resultCommit => some .ended
  | _ => none

/-- The task is past the commit. -/
def Task.Behind : Task → Commit → Prop
  | .absent, _ => False
  | .scheduled, c | .marking _, c => c = .created
  | .done _, _ => True
  | _, c => c ≠ .ended

instance : (t : Task) → (c : Commit) → Decidable (t.Behind c)
  | .absent, _ => .isFalse id
  | .scheduled, c | .marking _, c => inferInstanceAs (Decidable (c = .created))
  | .done _, _ => .isTrue trivial
  | .marked, c | .cancellable, c | .ready, c | .running, c | .returned _, c | .closing _, c
  | .closed _, c | .writing _ _, c => inferInstanceAs (Decidable (c ≠ .ended))

/-- No result was stored. -/
structure Row.Fresh (r : Row) : Prop where
  error : r.errorMessage = none
  passed : r.passedSteps = 0
  failed : r.failedSteps = 0
  outputs : r.outputs = none

/-- Before session 1 has committed. -/
def Row.Waiting (r : Row) : Prop := (r.status = .pending ∨ r.status = .cancelled) ∧ r.Fresh

/-- Between the two sessions. -/
def Row.Underway (r : Row) : Prop := (r.status = .running ∨ r.status = .cancelled) ∧ r.Fresh

/-- The row at each point of the background task. -/
def TaskRow (row : Option Row) : Task → Prop
  | .absent => row = none
  | .scheduled => ∃ r, row = some r ∧ r.Waiting
  | .marking read => read.Waiting ∧ ∃ r, row = some r ∧ r.Waiting
  | .writing read _ => read.Underway ∧ ∃ r, row = some r ∧ r.Underway ∧
      (read.status = .cancelled → r.status = .cancelled)
  | .done _ => ∃ r, row = some r ∧ r.status.Final
  | _ => ∃ r, row = some r ∧ r.Underway

/-- **The invariant of all runs.** -/
structure LifeInv (s : Service) : Prop where
  read : ∀ k row, s.stops k = .accepted row ∨ s.stops k = .signalled row → ¬ row.status.Final
  task : TaskRow s.row s.task

section Steps

variable {s s' : Service}

theorem LifeInv.init : LifeInv {} where
  read := fun _ _ h => by rcases h with h | h <;> cases h
  task := rfl

/-- An action that leaves the row and the stops alone. -/
theorem LifeInv.goto (h : LifeInv s) (hst : s'.stops = s.stops) (ht : TaskRow s'.row s'.task) :
    LifeInv s' := ⟨by rw [hst]; exact h.read, ht⟩

theorem LifeInv.update (h : LifeInv s) {k : ℕ} {r : StopRequest}
    (hst : s'.stops = Function.update s.stops k r) (ht : TaskRow s'.row s'.task)
    (hread : ∀ row, r = .accepted row ∨ r = .signalled row → ¬ row.status.Final) : LifeInv s' := by
  refine ⟨?_, ht⟩
  rw [hst]
  exact (Function.forall_update_iff s.stops fun _ r' =>
    ∀ row, r' = .accepted row ∨ r' = .signalled row → ¬ row.status.Final).mpr
      ⟨hread, fun j _ => h.read j⟩

theorem Row.Fresh.setStatus {read current : Row} (h : current.Fresh) (st : Status) :
    (read.setStatus st current).Fresh := ⟨h.error, h.passed, h.failed, h.outputs⟩

/-- A stop cancels the row, wherever the task is. -/
theorem TaskRow.cancel {row new : Row} {t : Task} (h : TaskRow (some row) t)
    (hst : new.status = .cancelled) (hfresh : row.Fresh → new.Fresh) : TaskRow (some new) t := by
  cases t with
  | absent => cases h
  | scheduled =>
    obtain ⟨r, hr, hw⟩ := h
    obtain rfl := Option.some.inj hr
    exact ⟨new, rfl, Or.inr hst, hfresh hw.2⟩
  | marking read =>
    obtain ⟨hread, r, hr, hw⟩ := h
    obtain rfl := Option.some.inj hr
    exact ⟨hread, new, rfl, Or.inr hst, hfresh hw.2⟩
  | writing read res =>
    obtain ⟨hread, r, hr, hw, -⟩ := h
    obtain rfl := Option.some.inj hr
    exact ⟨hread, new, rfl, ⟨Or.inr hst, hfresh hw.2⟩, fun _ => hst⟩
  | done st => exact ⟨new, rfl, hst ▸ by decide⟩
  | _ =>
    obtain ⟨r, hr, hw⟩ := h
    obtain rfl := Option.some.inj hr
    exact ⟨new, rfl, Or.inr hst, hfresh hw.2⟩

theorem LifeInv.setStatus_cancelled {k : ℕ} {read : Row} (h : LifeInv s)
    (hk : s.stops k = .signalled read) (current : Row) :
    (read.setStatus .cancelled current).status = .cancelled :=
  commitColumn_of_ne (fun he => h.read k read (Or.inr hk) (by rw [← he]; decide)) current.status

/-- **Session 2 ends the execution.** -/
theorem Row.Underway.store {read row : Row} {res : ExecutionResult} (hread : read.Underway)
    (hc : read.status = .cancelled → row.status = .cancelled) :
    (read.store res row).status.Final := by
  show (commitColumn read.status (read.finalStatus res) row.status).Final
  rcases hread.1 with hst | hst
  · rw [commitColumn_of_ne (Row.finalStatus_ne hst res)]
    exact read.finalStatus_final res
  · have hfin : read.finalStatus res = read.status := if_pos hst
    rw [hfin, commitColumn_self, hc hst]
    decide

end Steps

section Moves

variable [PyText] {J : Job} {s s' : Service} {a : Act}

/-- **One action keeps the invariant and follows the course.** -/
theorem LifeInv.move (h : LifeInv s) (hm : s.Moved J a s') :
    LifeInv s' ∧ Commits s.status s'.status a := by
  have hrow := h.task
  cases hm with
  | runWorkflow ht =>
    rw [ht] at hrow
    have hnone : s.row = none := hrow
    refine ⟨h.goto rfl ⟨{}, rfl, Or.inl rfl, rfl, rfl, rfl, rfl⟩, ?_, rfl⟩
    rw [Service.status, hnone]
    rfl
  | @markRead row ht hr =>
    rw [ht] at hrow
    obtain ⟨r, hr', hw⟩ := hrow
    obtain rfl := Option.some.inj (hr.symm.trans hr')
    exact ⟨h.goto rfl ⟨hw, row, hr, hw⟩, rfl⟩
  | @markCommit read row ht hr =>
    rw [ht] at hrow
    obtain ⟨hread, r, hr', hw⟩ := hrow
    obtain rfl := Option.some.inj (hr.symm.trans hr')
    have hstatus := Row.setStatus_running hread.1 row
    refine ⟨h.goto rfl ⟨_, rfl, Or.inl hstatus, hw.2.setStatus .running⟩, ?_, congrArg some hstatus⟩
    rw [Service.status_of hr]
    exact hw.1.imp (congrArg some) (congrArg some)
  | registerCancel ht | registerPause ht | start ht | unresolved ht | unregisterCancel ht
  | unregisterPause ht =>
    rw [ht] at hrow
    exact ⟨h.goto rfl hrow, rfl⟩
  | check | proceed | requestPause => exact ⟨h.goto rfl hrow, rfl⟩
  | take | timeout =>
    obtain ⟨resumes, hs⟩ := Service.wakeUp_eq (J.config _) J.env _ s
    rw [hs]
    exact ⟨h.goto rfl hrow, rfl⟩
  | leave ht =>
    obtain ⟨exec, res, -, hs⟩ := Service.leave_eq (J.config _) J.env s
    rw [ht] at hrow
    rw [hs]
    exact ⟨h.goto rfl hrow, rfl⟩
  | @resultRead res row ht hr =>
    rw [ht] at hrow
    obtain ⟨r, hr', hw⟩ := hrow
    obtain rfl := Option.some.inj (hr.symm.trans hr')
    exact ⟨h.goto rfl ⟨hw, row, hr, hw, id⟩, rfl⟩
  | @resultCommit read row res ht hr =>
    rw [ht] at hrow
    obtain ⟨hread, r, hr', hw, hc⟩ := hrow
    obtain rfl := Option.some.inj (hr.symm.trans hr')
    have hfin : (read.store res row).status.Final := hread.store hc
    refine ⟨h.goto rfl ⟨_, rfl, hfin⟩, ?_, _, rfl, hfin⟩
    rw [Service.status_of hr]
    exact hw.1.imp (congrArg some) (congrArg some)
  | @stopRead k hk =>
    rcases s.stopRead_eq k with hs | ⟨row, hst, hs⟩
    · rw [hs]
      refine ⟨h.update rfl hrow fun _ hr => ?_, rfl⟩
      rcases hr with hr | hr <;> cases hr
    · rw [hs]
      refine ⟨h.update rfl hrow fun row' hr => ?_, rfl⟩
      rcases hr with hr | hr
      · exact StopRequest.accepted.inj hr ▸ hst
      · cases hr
  | @stopSignal k read hk =>
    refine ⟨h.update rfl hrow fun row hr => ?_, rfl⟩
    rcases hr with hr | hr
    · cases hr
    · exact StopRequest.signalled.inj hr ▸ h.read k read (Or.inl hk)
  | @stopCommit k read row hk hr =>
    have hst := h.setStatus_cancelled hk row
    rw [hr] at hrow
    refine ⟨h.update rfl (hrow.cancel hst fun hf => hf.setStatus .cancelled) fun _ hr => ?_,
      ⟨_, Service.status_of hr⟩, congrArg some hst⟩
    rcases hr with hr | hr <;> cases hr
  | resumeFind | resumePut => exact ⟨h.goto rfl hrow, rfl⟩

/-- **The task passes a commit by making it.** -/
theorem behind_move (hm : s.Moved J a s') (c : Commit) :
    (s'.task.Behind c ↔ s.task.Behind c ∨ a.commit = some c) ∧
      (a.commit = some c → ¬ s.task.Behind c) := by
  cases hm with
  | take | timeout =>
    obtain ⟨resumes, hs⟩ := Service.wakeUp_eq (J.config _) J.env _ s
    rw [hs]
    exact ⟨(or_iff_left nofun).symm, nofun⟩
  | @leave _ _ ht =>
    obtain ⟨exec, res, -, hs⟩ := Service.leave_eq (J.config _) J.env s
    rw [hs, ht]
    exact ⟨(or_iff_left nofun).symm, nofun⟩
  | @stopRead k hk =>
    rcases s.stopRead_eq k with hs | ⟨row, hst, hs⟩ <;> rw [hs]
    · exact ⟨(or_iff_left nofun).symm, nofun⟩
    · exact ⟨(or_iff_left nofun).symm, nofun⟩
  | runWorkflow ht | markRead ht | markCommit ht | registerCancel ht | registerPause ht | start ht
  | unresolved ht | unregisterCancel ht | unregisterPause ht | resultRead ht | resultCommit ht =>
    rw [ht]
    cases c <;> simp [Task.Behind, Act.commit]
  | _ => exact ⟨(or_iff_left nofun).symm, nofun⟩

end Moves

/-! ## Runs -/

section Runs

variable [PyText] {J : Job} {h : List (Service × Act)} {s : Service}

theorem LifeInv.run (hr : (service J).Run h s) : LifeInv s :=
  hr.always .init fun _ _ _ hs hstep => (hs.move (Service.step_moved hstep)).1

/-- A commit was made once if the task is past it, and not at all otherwise. -/
theorem countP_commit (hr : (service J).Run h s) (c : Commit) :
    h.countP (fun e => e.2.commit = some c) = if s.task.Behind c then 1 else 0 := by
  induction hr with
  | init => cases c <;> rfl
  | @step h s s' a hr hs ih =>
    have hb := behind_move (Service.step_moved hs) c
    rw [List.countP_cons, ih]
    by_cases ha : a.commit = some c
    · rw [if_neg (hb.2 ha), if_pos (hb.1.mpr (Or.inr ha)), if_pos (decide_eq_true ha)]
    · have hsame : s'.task.Behind c ↔ s.task.Behind c := hb.1.trans (or_iff_left ha)
      simp only [ha, hsame, decide_false, Bool.false_eq_true, if_false, Nat.add_zero]

/-- **Main result.** Every run follows the course, and an execution is created, marked as running
and ended at most once: exactly once as soon as its task is past that point. -/
theorem lifecycle (J : Job) {h : List (Service × Act)} {s : Service} (hr : (service J).Run h s) :
    (∀ e ∈ h, ∀ s', e.1.step J e.2 = some s' → Commits e.1.status s'.status e.2) ∧
      ∀ c, h.countP (fun e => e.2.commit = some c) = if s.task.Behind c then 1 else 0 := by
  refine ⟨fun e he s' hs => ?_, countP_commit hr⟩
  obtain ⟨h', hr', -⟩ := hr.of_mem he
  exact ((LifeInv.run hr').move (Service.step_moved hs)).2

end Runs

/-! ## What is stored -/

/-- **The row holds a result.** -/
structure Row.Holds (r : Row) (cancelled : Bool) (res : ExecutionResult) : Prop where
  error : r.errorMessage = if cancelled ∨ res.error.getD "" = "" then none else res.error
  passed : r.passedSteps = res.passed
  failed : r.failedSteps = res.failed
  outputs : r.outputs = if (res.outputs.getD []).isEmpty then none else res.outputs

/-- The execution has ended with a status, and the row holds the result. -/
structure Service.Ended (s : Service) (read : Row) (res : ExecutionResult) : Prop where
  task : s.task = .done (read.finalStatus res)
  steps : s.stepRows = res.steps
  row : ∃ r, s.row = some r ∧ r.Holds (read.status = .cancelled) res ∧
    (r.status = read.finalStatus res ∨ r.status = .cancelled)

/-- The stop has read the execution, and is still to commit. -/
def StopRequest.InFlight : StopRequest → Prop
  | accepted _ | signalled _ => True
  | sent | stopped | refused => False

/-- **A late stop**: it read the execution before session 2 committed, and commits after it. -/
structure LateStop (before after : List (Service × Act)) (k : ℕ) : Prop where
  read : ∃ e ∈ before, e.2 = .stopRead k
  commit : ∃ e ∈ after, e.2 = .stopCommit k

/-- **No writer is left**: the execution has ended, and no stop has read it before. -/
structure Service.Settled (s : Service) : Prop where
  task : ∃ st, s.task = .done st
  stops : ∀ k, (∀ read, s.stops k ≠ .accepted read) ∧ ∀ read, s.stops k ≠ .signalled read

theorem StopRequest.not_inFlight {r : StopRequest} :
    ¬ r.InFlight ↔ (∀ read, r ≠ .accepted read) ∧ ∀ read, r ≠ .signalled read := by
  cases r <;> simp [InFlight]

/-- A column that was not written before. -/
theorem commitColumn_same {α : Type} [DecidableEq α] (c new : α) : commitColumn c new c = new := by
  unfold commitColumn
  split_ifs with h
  · exact h.symm
  · rfl

theorem Row.Holds.store {read row : Row} (hread : read.Fresh) (hrow : row.Fresh)
    (res : ExecutionResult) : (read.store res row).Holds (read.status = .cancelled) res where
  error := by
    show commitColumn read.errorMessage _ row.errorMessage = _
    rw [hread.error, hrow.error, commitColumn_same]
    simp only [decide_eq_true_eq]
  passed := by
    show commitColumn read.passedSteps res.passed row.passedSteps = _
    rw [hread.passed, hrow.passed, commitColumn_same]
  failed := by
    show commitColumn read.failedSteps res.failed row.failedSteps = _
    rw [hread.failed, hrow.failed, commitColumn_same]
  outputs := by
    show (if (res.outputs.getD []).isEmpty then row.outputs else res.outputs) = _
    rw [hrow.outputs]

theorem Row.Holds.setStatus {read row : Row} {c : Bool} {res : ExecutionResult} (h : row.Holds c res)
    (st : Status) : (read.setStatus st row).Holds c res := ⟨h.error, h.passed, h.failed, h.outputs⟩

section Stored

variable [PyText] {J : Job} {s s' : Service} {a : Act}

/-- The status that session 2 commits. -/
theorem Service.status_of_commit {read : Row} {res : ExecutionResult} (h : LifeInv s)
    (ht : s.task = .writing read res) (hm : s.Moved J .resultCommit s') :
    s'.status = some (read.finalStatus res) := by
  have hrow := h.task
  rw [ht] at hrow
  obtain ⟨hread, row, hr, hw, hc⟩ := hrow
  cases hm with
  | @resultCommit read' row' res' ht' hr' =>
    obtain ⟨rfl, rfl⟩ := Task.writing.inj (ht.symm.trans ht')
    obtain rfl := Option.some.inj (hr.symm.trans hr')
    refine congrArg some (?_ : commitColumn read.status (read.finalStatus res) row.status = _)
    rcases hread.1 with hst | hst
    · exact commitColumn_of_ne (Row.finalStatus_ne hst res) _
    · have hfin : read.finalStatus res = read.status := if_pos hst
      rw [hfin, commitColumn_self, hst, hc hst]

/-- What session 2 leaves. -/
theorem Service.Ended.of_commit {read : Row} {res : ExecutionResult} (h : LifeInv s)
    (ht : s.task = .writing read res) (hm : s.Moved J .resultCommit s') : s'.Ended read res := by
  have hst := Service.status_of_commit h ht hm
  have hrow := h.task
  rw [ht] at hrow
  obtain ⟨hread, row, hr, hw, -⟩ := hrow
  cases hm with
  | @resultCommit read' row' res' ht' hr' =>
    obtain ⟨rfl, rfl⟩ := Task.writing.inj (ht.symm.trans ht')
    obtain rfl := Option.some.inj (hr.symm.trans hr')
    exact ⟨rfl, rfl, _, rfl, .store hread.2 hw.2 res, Or.inl (Option.some.inj hst)⟩

/-- **After the end** only the commit of a stop touches the row, and nothing touches the steps. -/
theorem Service.Moved.of_done {st : Status} (hm : s.Moved J a s') (ht : s.task = .done st) :
    s'.task = s.task ∧ s'.stepRows = s.stepRows ∧
      (s'.row = s.row ∨ ∃ k read row, a = .stopCommit k ∧ s.stops k = .signalled read ∧
        s.row = some row ∧ s'.row = some (read.setStatus .cancelled row)) := by
  cases hm with
  | runWorkflow hd | markRead hd | markCommit hd | registerCancel hd | registerPause hd | start hd
  | unresolved hd | check hd | proceed hd | take hd | timeout hd | leave hd | unregisterCancel hd
  | unregisterPause hd | resultRead hd | resultCommit hd => cases hd.symm.trans ht
  | @stopRead k =>
    rcases s.stopRead_eq k with hs | ⟨_, -, hs⟩ <;> rw [hs] <;> exact ⟨rfl, rfl, Or.inl rfl⟩
  | stopCommit hk hr => exact ⟨rfl, rfl, Or.inr ⟨_, _, _, rfl, hk, hr, rfl⟩⟩
  | _ => exact ⟨rfl, rfl, Or.inl rfl⟩

/-- Only a stop that read the execution before it ended touches the row. -/
theorem Service.Ended.move {read : Row} {res : ExecutionResult} (h : LifeInv s)
    (he : s.Ended read res) (hm : s.Moved J a s') : s'.Ended read res := by
  obtain ⟨row, hr, hholds, hst⟩ := he.row
  obtain ⟨htask, hsteps, hrow⟩ := hm.of_done he.task
  refine ⟨htask.trans he.task, hsteps.trans he.steps, ?_⟩
  rcases hrow with hrow | ⟨k, read', row', -, hk, hr', hrow⟩
  · exact ⟨row, hrow.trans hr, hholds, hst⟩
  · obtain rfl := Option.some.inj (hr.symm.trans hr')
    exact ⟨_, hrow, hholds.setStatus .cancelled, Or.inr (h.setStatus_cancelled hk row)⟩

/-- Only a stop changes the status of an execution that has ended. -/
theorem Service.status_of_done {st : Status} (ht : s.task = .done st) (hm : s.Moved J a s')
    (ha : ∀ k, a ≠ .stopCommit k) : s'.status = s.status := by
  rcases (hm.of_done ht).2.2 with hrow | ⟨k, _, _, hk, -⟩
  · exact congrArg (Option.map Row.status) hrow
  · exact absurd hk (ha k)

omit [PyText] in
/-- A stop of an execution that is over is refused. -/
theorem Service.stopRead_final {row : Row} (hr : s.row = some row) (hf : row.status.Final)
    (k : ℕ) : s.stopRead k = s.stopAt k .refused := by
  unfold Service.stopRead
  rw [hr]
  refine if_neg fun hst => ?_
  rcases hst with hst | hst <;> rw [hst] at hf <;> exact absurd hf (by decide)

omit [PyText] in
theorem Service.inFlight_stopAt {k j : ℕ} {r : StopRequest}
    (hf : ((s.stopAt j r).stops k).InFlight) : (s.stops k).InFlight ∨ k = j ∧ r.InFlight := by
  rcases update_cases (f := s.stops) (w := (s.stopAt j r).stops k) rfl with ⟨hk, he⟩ | ⟨-, he⟩
  · exact Or.inr ⟨hk, he ▸ hf⟩
  · exact Or.inl (he ▸ hf)

/-- A stop gets into flight by reading an execution that is not over. -/
theorem Service.Moved.inFlight {k : ℕ} (hm : s.Moved J a s') (hf : (s'.stops k).InFlight) :
    (s.stops k).InFlight ∨ a = .stopRead k ∧ ∀ row, s.row = some row → ¬ row.status.Final := by
  cases hm with
  | @stopRead j =>
    by_cases hfin : ∃ row, s.row = some row ∧ row.status.Final
    · obtain ⟨row, hr, hfin⟩ := hfin
      rw [Service.stopRead_final hr hfin] at hf
      exact Or.inl ((Service.inFlight_stopAt hf).resolve_right fun h => h.2)
    · rcases s.stopRead_eq j with hs | ⟨_, -, hs⟩
      · rw [hs] at hf
        exact Or.inl ((Service.inFlight_stopAt hf).resolve_right fun h => h.2)
      · rw [hs] at hf
        rcases Service.inFlight_stopAt hf with hf | ⟨rfl, -⟩
        · exact Or.inl hf
        · exact Or.inr ⟨rfl, fun row hr hf => hfin ⟨row, hr, hf⟩⟩
  | @stopSignal j read hk =>
    rcases Service.inFlight_stopAt hf with hf | ⟨rfl, -⟩
    · exact Or.inl hf
    · exact Or.inl (by rw [hk]; exact trivial)
  | stopCommit => exact Or.inl ((Service.inFlight_stopAt hf).resolve_right fun h => h.2)
  | leave =>
    obtain ⟨exec, res, -, hs⟩ := Service.leave_eq (J.config _) J.env s
    rw [hs] at hf
    exact Or.inl hf
  | _ => exact Or.inl hf

/-- Without a writer the row stays as it is. -/
theorem Service.Settled.move (h : LifeInv s) (hs : s.Settled) (hm : s.Moved J a s') :
    s'.Settled ∧ s'.row = s.row := by
  have hquiet : ∀ k, ¬ (s.stops k).InFlight := fun k => StopRequest.not_inFlight.mpr (hs.stops k)
  obtain ⟨st, ht⟩ := hs.task
  obtain ⟨htask, -, hrow⟩ := hm.of_done ht
  have hover := h.task
  rw [ht] at hover
  obtain ⟨row, hr, hfin⟩ := hover
  refine ⟨⟨⟨st, htask.trans ht⟩, fun k => StopRequest.not_inFlight.mp fun hf => ?_⟩, ?_⟩
  · rcases hm.inFlight hf with hf | ⟨-, hopen⟩
    · exact hquiet k hf
    · exact hopen row hr hfin
  · refine hrow.resolve_right ?_
    rintro ⟨k, read, _, -, hk, -⟩
    exact hquiet k (by rw [hk]; trivial)

/-- **The row is settled** from the first state without a writer on. -/
theorem Service.Settled.row_kept {h : List (Service × Act)} (hr : (service J).Run h s) :
    ∀ e ∈ h, e.1.Settled → s.row = e.1.row := by
  intro e he hset
  refine (hr.kept (R := fun s s' => s.Settled → s'.Settled ∧ s'.row = s.row) ?_ ?_ e he hset).2
  · intro s s' s'' h₁ h₂ hs
    exact ⟨(h₂ (h₁ hs).1).1, (h₂ (h₁ hs).1).2.trans (h₁ hs).2⟩
  · intro h s a s' hr hstep hs
    exact hs.move (LifeInv.run hr) (Service.step_moved hstep)

/-- **What is in flight has read.** -/
theorem Service.read_of_inFlight {h : List (Service × Act)} (hr : (service J).Run h s) {k : ℕ}
    (hf : (s.stops k).InFlight) : ∃ e ∈ h, e.2 = .stopRead k := by
  induction hr with
  | init => exact hf.elim
  | @step h s s' a hr hs ih =>
    rcases (Service.step_moved hs).inFlight hf with hf | ⟨ha, -⟩
    · obtain ⟨e, he, hread⟩ := ih hf
      exact ⟨e, List.mem_cons_of_mem _ he, hread⟩
    · exact ⟨_, List.mem_cons_self, ha⟩

/-- The result stays. -/
theorem Service.Ended.of_run {h₁ h₂ : List (Service × Act)} {s₁ : Service} {read : Row}
    {res : ExecutionResult} (ht : s₁.task = .writing read res)
    (hr : (service J).Run (h₂ ++ (s₁, .resultCommit) :: h₁) s) : s.Ended read res := by
  obtain ⟨s₂, hr₂⟩ := hr.exists_of_append
  cases hr₂ with
  | step hr₁ hs =>
    have hinv := LifeInv.run hr₁
    have hm : s₁.Moved J .resultCommit s₂ := Service.step_moved hs
    have hstart : LifeInv s₂ ∧ s₂.Ended read res := ⟨(hinv.move hm).1, .of_commit hinv ht hm⟩
    have hkeep : ∀ s a s', LifeInv s ∧ s.Ended read res → True → (service J).step s a = some s' →
        LifeInv s' ∧ s'.Ended read res := fun s a s' hi _ hstep =>
      ⟨(hi.1.move (Service.step_moved hstep)).1, hi.2.move hi.1 (Service.step_moved hstep)⟩
    exact ((hr₁.step hs).from_state hr hstart hkeep fun _ _ => trivial).2

/-- **Only a late stop changes the status**; by induction on what comes after session 2. -/
theorem Service.Ended.status_of_run {h₁ h₂ : List (Service × Act)} {s₁ : Service} {read : Row}
    {res : ExecutionResult} (ht : s₁.task = .writing read res)
    (hr : (service J).Run (h₂ ++ (s₁, .resultCommit) :: h₁) s) :
    (∀ k, (s.stops k).InFlight → ∃ e ∈ h₁, e.2 = .stopRead k) ∧
      (s.status = some (read.finalStatus res) ∨
        s.status = some .cancelled ∧ ∃ k, LateStop h₁ h₂ k) := by
  induction h₂ generalizing s with
  | nil =>
    cases hr with
    | step hr₁ hs =>
      have hm : s₁.Moved J .resultCommit s := Service.step_moved hs
      refine ⟨fun k hf => ?_, Or.inl (Service.status_of_commit (LifeInv.run hr₁) ht hm)⟩
      exact Service.read_of_inFlight hr₁ ((hm.inFlight hf).resolve_right fun h => by cases h.1)
  | cons e h₂ ih =>
    obtain ⟨s', a⟩ := e
    cases hr with
    | step hr' hs =>
      obtain ⟨hread, hst⟩ := ih hr'
      have hm : s'.Moved J a s := Service.step_moved hs
      have htask := (Service.Ended.of_run ht hr').task
      have hrow := (LifeInv.run hr').task
      rw [htask] at hrow
      obtain ⟨row, hr, hfin⟩ := hrow
      refine ⟨fun k hf => ?_, ?_⟩
      · exact hread k ((hm.inFlight hf).resolve_right fun h => h.2 row hr hfin)
      by_cases ha : ∃ k, a = .stopCommit k
      · obtain ⟨k, rfl⟩ := ha
        refine Or.inr ⟨((LifeInv.run hr').move hm).2.2, k, ?_, _, List.mem_cons_self, rfl⟩
        cases hm with
        | stopCommit hk => exact hread k (by rw [hk]; exact trivial)
      · rw [Service.status_of_done htask hm fun k hk => ha ⟨k, hk⟩]
        exact hst.imp_right fun h => ⟨h.1, h.2.imp fun k hk =>
          ⟨hk.read, hk.commit.imp fun e he => ⟨List.mem_cons_of_mem _ he.1, he.2⟩⟩⟩

/-- **Main result.** Whatever stop, pause and resume requests come after session 2 has committed: the
steps, the counters, the error and the outputs of its result stay, and so does the status, unless a
late stop commits; once no such stop is left, the row does not change any more. -/
theorem result_kept (J : Job) {h₁ h₂ : List (Service × Act)} {s₁ s : Service} {read : Row}
    {res : ExecutionResult} (ht : s₁.task = .writing read res)
    (hr : (service J).Run (h₂ ++ (s₁, .resultCommit) :: h₁) s) :
    s.Ended read res ∧
      (s.status = some (read.finalStatus res) ∨
        s.status = some .cancelled ∧ ∃ k, LateStop h₁ h₂ k) ∧
      ∀ e ∈ h₂, e.1.Settled → s.row = e.1.row :=
  ⟨.of_run ht hr, (Service.Ended.status_of_run ht hr).2,
    fun e he => Service.Settled.row_kept hr e (List.mem_append_left _ he)⟩

end Stored

section Example

attribute [local instance] asciiText

theorem lifecycle_unresolvable : ∃ h s, (service unresolvable).Run h s ∧
    s.status = some .failed ∧
    (∀ e ∈ h, ∀ s', e.1.step unresolvable e.2 = some s' → Commits e.1.status s'.status e.2) ∧
      ∀ c, h.countP (fun e => e.2.commit = some c) = if s.task.Behind c then 1 else 0 := by
  have he : (service unresolvable).exec [.runWorkflow, .markRead, .stopRead 0, .stopSignal 0,
    .stopCommit 0, .markCommit, .registerCancel, .registerPause, .resolve, .unregisterCancel,
    .unregisterPause, .resultRead, .resultCommit] [] {} = some (_, _) := rfl
  have hr := Transition.System.run_exec .init he
  exact ⟨_, _, hr, rfl, lifecycle unresolvable hr⟩

/-- The run of `unresolvable`: a stop that has read the execution commits after its end, and another
one comes too late. -/
theorem result_kept_unresolvable : ∃ h₁ h₂ s₁ s read res,
    s₁.task = .writing read res ∧
    (service unresolvable).Run (h₂ ++ (s₁, .resultCommit) :: h₁) s ∧
    read.finalStatus res = .failed ∧ s.status = some .cancelled ∧ s.stops 1 = .refused ∧
    s.Ended read res ∧
      (s.status = some (read.finalStatus res) ∨
        s.status = some .cancelled ∧ ∃ k, LateStop h₁ h₂ k) ∧
      ∀ e ∈ h₂, e.1.Settled → s.row = e.1.row := by
  have he : (service unresolvable).exec [.runWorkflow, .markRead, .markCommit, .registerCancel,
    .registerPause, .stopRead 0, .resolve, .unregisterCancel, .unregisterPause, .resultRead] [] {} =
      some (_, _) := rfl
  have hr₁ := Transition.System.run_exec .init he
  have hs := hr₁.step (a := .resultCommit) rfl
  have hr := ((hs.step (a := .stopSignal 0) rfl).step (a := .stopCommit 0) rfl).step
    (a := .stopRead 1) rfl
  exact ⟨_, [_, _, _], _, _, { status := .running }, Service.failedResult "Unresolved variables: x",
    rfl, hr, rfl, rfl, rfl, @result_kept _ unresolvable _ [_, _, _] _ _ _ _ rfl hr⟩

end Example

end ScoutEngine
