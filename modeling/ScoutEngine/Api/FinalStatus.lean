import ScoutEngine.Api.Moves

/-!
# The final status of an execution

Three writers share the status column: session 1 of the background task, which writes `running`
whatever it has read, session 2, which keeps a `cancelled` that it has read, and the stop requests,
which have read an execution that was not over.

* `Lasting`: no commit changes a status that is final, and a stopped execution stays cancelled.
* `Orderly`: which commits may follow which.
* `StatusInv`, `StatusInv.move`: the invariant of the runs whose commits are orderly.
* **`lasting_iff`**: a run is lasting iff all its commits are orderly.
* `stop_before_start`: a stop of a pending execution that is overwritten.
-/

set_option autoImplicit false

namespace ScoutEngine

open Transition

/-- The committed status. -/
def Service.status (s : Service) : Option Status := s.row.map Row.status

/-- A stop request returned success. -/
def Service.Stopped (s : Service) : Prop := ∃ k, s.stops k = .stopped

/-- **A final status lasts**: no action changes it, and a stopped execution stays cancelled. -/
structure Lasting [PyText] (J : Job) (h : List (Service × Act)) (s : Service) : Prop where
  kept : ∀ e ∈ h, ∀ s', e.1.step J e.2 = some s' → ∀ st, e.1.status = some st → st.Final →
    s'.status = some st
  stopped : s.Stopped → s.status = some .cancelled

/-- **Which commits are orderly.** Session 1 commits before every stop. A completed or failed
result and a stop do not both commit after having read an execution that was not over. -/
def Orderly (s : Service) : Act → Prop
  | .markCommit => ¬ s.Stopped
  | .resultCommit => ∀ read res, s.task = .writing read res →
      read.finalStatus res = .cancelled ∨ ¬ s.Stopped
  | .stopCommit _ => ∀ st, s.task = .done st → st = .cancelled
  | _ => True

/-! ## What the commits write -/

theorem commitColumn_of_ne {α : Type} [DecidableEq α] {read new : α} (h : new ≠ read)
    (current : α) : commitColumn read new current = new := if_neg h

theorem commitColumn_self {α : Type} [DecidableEq α] (read current : α) :
    commitColumn read read current = current := if_pos rfl

theorem RunStatus.status_final (st : RunStatus) : st.status.Final := by
  cases st <;> decide

theorem Row.finalStatus_final (read : Row) (res : ExecutionResult) :
    (read.finalStatus res).Final := by
  unfold Row.finalStatus
  split_ifs with h
  · rw [h]
    decide
  · exact res.status.status_final

theorem Row.finalStatus_ne {read : Row} (h : read.status = .running) (res : ExecutionResult) :
    read.finalStatus res ≠ read.status := by
  intro he
  have hf := read.finalStatus_final res
  rw [he, h] at hf
  exact absurd hf (by decide)

theorem Row.setStatus_running {read : Row} (h : read.status = .pending ∨ read.status = .cancelled)
    (current : Row) : (read.setStatus .running current).status = .running := by
  refine commitColumn_of_ne (fun he => ?_) current.status
  rcases h with h | h <;> rw [h] at he <;> cases he

/-! ## The invariant -/

/-- The committed status at each point of the background task. -/
def TaskStatus (st : Option Status) (stopped : Prop) : Task → Prop
  | .absent => st = none
  | .scheduled => st = some .pending ∨ stopped
  | .marking read =>
    (read.status = .pending ∨ read.status = .cancelled) ∧ (st = some .pending ∨ stopped)
  | .writing read _ => read.status = .running ∧ (st = some .running ∨ stopped) ∨
      read.status = .cancelled ∧ stopped
  | .done final => st = some final ∧ final.Final
  | _ => st = some .running ∨ stopped

/-- **The invariant of orderly runs.** -/
structure StatusInv (s : Service) : Prop where
  stopped : s.Stopped → s.status = some .cancelled
  read : ∀ k row, s.stops k = .accepted row ∨ s.stops k = .signalled row → ¬ row.status.Final
  task : TaskStatus s.status s.Stopped s.task

section Invariant

variable {s s' : Service}

theorem StatusInv.init : StatusInv {} where
  stopped := fun ⟨_, h⟩ => nomatch h
  read := fun _ _ h => by rcases h with h | h <;> cases h
  task := rfl

theorem Service.status_of {row : Row} (hr : s.row = some row) : s.status = some row.status :=
  congrArg (Option.map Row.status) hr

theorem Service.status_congr (hr : s'.row = s.row) : s'.status = s.status :=
  congrArg (Option.map Row.status) hr

theorem Service.stopped_congr (hst : s'.stops = s.stops) : s'.Stopped ↔ s.Stopped := by
  unfold Stopped
  rw [hst]

theorem StatusInv.goto (h : StatusInv s) (hr : s'.row = s.row) (hst : s'.stops = s.stops)
    (ht : TaskStatus s.status s.Stopped s'.task) : StatusInv s' := by
  have hstatus := Service.status_congr hr
  have hstopped := Service.stopped_congr hst
  refine ⟨fun hs => hstatus.trans (h.stopped (hstopped.mp hs)), ?_, ?_⟩
  · rw [hst]
    exact h.read
  · rw [hstatus, propext hstopped]
    exact ht

/-- An action on other parts of the state. -/
theorem StatusInv.frame (h : StatusInv s) (hr : s'.row = s.row) (hst : s'.stops = s.stops)
    (ht : s'.task = s.task) : StatusInv s' :=
  h.goto hr hst (ht ▸ h.task)

/-- A request that has not returned success does not count. -/
theorem stopped_update {k : ℕ} {r : StopRequest} {stops : ℕ → StopRequest}
    (hk : stops k ≠ .stopped) (hr : r ≠ .stopped) :
    (∃ j, Function.update stops k r j = .stopped) ↔ ∃ j, stops j = .stopped := by
  rw [Function.exists_update_iff stops (p := fun _ r' => r' = .stopped)]
  constructor
  · rintro (h | ⟨j, -, hj⟩)
    · exact absurd h hr
    · exact ⟨j, hj⟩
  · rintro ⟨j, hj⟩
    have hjk : j ≠ k := by
      rintro rfl
      exact hk hj
    exact Or.inr ⟨j, hjk, hj⟩

theorem StatusInv.update (h : StatusInv s) {k : ℕ} {r : StopRequest} (hr : s'.row = s.row)
    (ht : s'.task = s.task) (hst : s'.stops = Function.update s.stops k r)
    (hk : s.stops k ≠ .stopped) (hne : r ≠ .stopped)
    (hread : ∀ row, r = .accepted row ∨ r = .signalled row → ¬ row.status.Final) :
    StatusInv s' := by
  have hstatus := Service.status_congr hr
  have hstopped : s'.Stopped ↔ s.Stopped := by
    unfold Service.Stopped
    rw [hst]
    exact stopped_update hk hne
  refine ⟨fun hs => hstatus.trans (h.stopped (hstopped.mp hs)), ?_, ?_⟩
  · rw [hst]
    exact (Function.forall_update_iff s.stops fun _ r' =>
      ∀ row, r' = .accepted row ∨ r' = .signalled row → ¬ row.status.Final).mpr
        ⟨hread, fun j _ => h.read j⟩
  · rw [hstatus, propext hstopped, ht]
    exact h.task

theorem StatusInv.stopRead (h : StatusInv s) {k : ℕ} (hk : s.stops k = .sent) :
    StatusInv (s.stopRead k) := by
  have hk : s.stops k ≠ .stopped := by
    rw [hk]
    nofun
  rcases s.stopRead_eq k with hs | ⟨row, hrow, hs⟩
  · rw [hs]
    exact h.update rfl rfl rfl hk nofun fun _ hr => by rcases hr with hr | hr <;> cases hr
  · rw [hs]
    refine h.update rfl rfl rfl hk nofun fun row' hr => ?_
    rcases hr with hr | hr
    · obtain rfl := StopRequest.accepted.inj hr
      exact hrow
    · cases hr

theorem StatusInv.setStatus_cancelled {k : ℕ} {read : Row} (h : StatusInv s)
    (hk : s.stops k = .signalled read) (current : Row) :
    (read.setStatus .cancelled current).status = .cancelled := by
  refine commitColumn_of_ne (fun he => ?_) current.status
  exact h.read k read (Or.inr hk) (he ▸ by decide)

/-- A status that is final before session 2 has committed is `cancelled`. -/
theorem StatusInv.cancelled_of_final (h : StatusInv s) {st : Status} (hst : s.status = some st)
    (hf : st.Final) (hd : ∀ final, s.task ≠ .done final) : st = .cancelled := by
  have hstop : s.Stopped → st = .cancelled := fun hs =>
    Option.some.inj (hst.symm.trans (h.stopped hs))
  have hnot : ∀ st' : Status, ¬ st'.Final → s.status ≠ some st' := by
    intro st' hn hs
    obtain rfl := Option.some.inj (hst.symm.trans hs)
    exact hn hf
  have ht := h.task
  cases hts : s.task with
  | absent =>
    rw [hts] at ht
    exact absurd (hst.symm.trans ht) (Option.some_ne_none _)
  | scheduled =>
    rw [hts] at ht
    exact hstop (ht.resolve_left (hnot _ (by decide)))
  | marking read =>
    rw [hts] at ht
    exact hstop (ht.2.resolve_left (hnot _ (by decide)))
  | writing read res =>
    rw [hts] at ht
    rcases ht with ⟨-, ht⟩ | ⟨-, ht⟩
    · exact hstop (ht.resolve_left (hnot _ (by decide)))
    · exact hstop ht
  | done final => exact absurd hts (hd final)
  | _ =>
    rw [hts] at ht
    exact hstop (ht.resolve_left (hnot _ (by decide)))

end Invariant

/-! ## Moves -/

section Moves

variable [PyText] {J : Job} {s s' : Service} {a : Act}

omit [PyText] in
theorem StatusInv.stopCommit {k : ℕ} {read row : Row} (h : StatusInv s)
    (hk : s.stops k = .signalled read) (hr : s.row = some row)
    (hok : ∀ st, s.task = .done st → st = .cancelled) :
    StatusInv ({ s with row := some (read.setStatus .cancelled row) }.stopAt k .stopped) ∧
      Service.status ({ s with row := some (read.setStatus .cancelled row) }.stopAt k .stopped) =
        some .cancelled := by
  have hstatus : Service.status
      ({ s with row := some (read.setStatus .cancelled row) }.stopAt k .stopped) =
        some .cancelled := congrArg some (h.setStatus_cancelled hk row)
  have hstopped : Service.Stopped
      ({ s with row := some (read.setStatus .cancelled row) }.stopAt k .stopped) :=
    ⟨k, Function.update_self _ _ _⟩
  refine ⟨⟨fun _ => hstatus, ?_, ?_⟩, hstatus⟩
  · refine (Function.forall_update_iff s.stops fun _ r' =>
      ∀ row, r' = .accepted row ∨ r' = .signalled row → ¬ row.status.Final).mpr
        ⟨fun _ hr' => ?_, fun j _ => h.read j⟩
    rcases hr' with hr' | hr' <;> cases hr'
  · have ht := h.task
    rw [hstatus]
    change TaskStatus _ _ s.task
    cases hts : s.task with
    | absent =>
      rw [hts] at ht
      exact absurd ((Service.status_of hr).symm.trans ht) (Option.some_ne_none _)
    | marking =>
      rw [hts] at ht
      exact ⟨ht.1, Or.inr hstopped⟩
    | writing =>
      rw [hts] at ht
      exact ht.imp (And.imp_right fun _ => Or.inr hstopped) (And.imp_right fun _ => hstopped)
    | done st =>
      obtain rfl := hok st hts
      exact ⟨rfl, by decide⟩
    | _ => exact Or.inr hstopped

omit [PyText] in
theorem StatusInv.resultCommit {read row : Row} {res : ExecutionResult} (h : StatusInv s)
    (ht : s.task = .writing read res) (hr : s.row = some row)
    (hok : read.finalStatus res = .cancelled ∨ ¬ s.Stopped) :
    (read.store res row).status = read.finalStatus res ∧
      (s.Stopped → read.finalStatus res = .cancelled) := by
  have hts := h.task
  rw [ht] at hts
  refine ⟨?_, fun hs => hok.resolve_right (not_not_intro hs)⟩
  change commitColumn read.status (read.finalStatus res) row.status = _
  rcases hts with ⟨hread, -⟩ | ⟨hread, hs⟩
  · exact commitColumn_of_ne (Row.finalStatus_ne hread res) _
  · have hfin : read.finalStatus res = read.status := if_pos hread
    rw [hfin, commitColumn_self, hread]
    exact Option.some.inj ((Service.status_of hr).symm.trans (h.stopped hs))

/-- **An orderly action keeps the invariant and a final status.** -/
theorem StatusInv.move (h : StatusInv s) (hok : Orderly s a) (hm : s.Moved J a s') :
    StatusInv s' ∧ ∀ st, s.status = some st → st.Final → s'.status = some st := by
  have hts := h.task
  have hkept : s'.row = s.row → ∀ st, s.status = some st → st.Final → s'.status = some st :=
    fun hr st hst _ => (Service.status_congr hr).trans hst
  cases hm with
  | runWorkflow ht =>
    rw [ht] at hts
    have hno : ¬ s.Stopped := fun hs =>
      absurd ((h.stopped hs).symm.trans hts) (Option.some_ne_none _)
    refine ⟨⟨fun hs => absurd hs hno, h.read, Or.inl rfl⟩, fun st hst => ?_⟩
    exact absurd (hst.symm.trans hts) (Option.some_ne_none _)
  | @markRead row ht hr =>
    rw [ht] at hts
    have hsome := Service.status_of hr
    refine ⟨h.goto rfl rfl ⟨?_, hts⟩, hkept rfl⟩
    rcases hts with hp | hs
    · exact Or.inl (Option.some.inj (hsome.symm.trans hp))
    · exact Or.inr (Option.some.inj (hsome.symm.trans (h.stopped hs)))
  | @markCommit read row ht hr =>
    rw [ht] at hts
    have hno : ¬ s.Stopped := hok
    have hstatus := Row.setStatus_running hts.1 row
    refine ⟨⟨fun hs => absurd hs hno, h.read, Or.inl (congrArg some hstatus)⟩, fun st hst hf => ?_⟩
    obtain rfl := Option.some.inj (hst.symm.trans (hts.2.resolve_right hno))
    exact absurd hf (by decide)
  | registerCancel ht | registerPause ht | start ht | unresolved ht | unregisterCancel ht
  | unregisterPause ht =>
    rw [ht] at hts
    exact ⟨h.goto rfl rfl hts, hkept rfl⟩
  | check | proceed | requestPause => exact ⟨h.frame rfl rfl rfl, hkept rfl⟩
  | take | timeout =>
    obtain ⟨resumes, hs⟩ := Service.wakeUp_eq (J.config _) J.env _ s
    rw [hs]
    exact ⟨h.frame rfl rfl rfl, hkept rfl⟩
  | leave ht =>
    obtain ⟨exec, res, -, hs⟩ := Service.leave_eq (J.config _) J.env s
    rw [ht] at hts
    refine ⟨?_, hkept (by rw [hs])⟩
    rw [hs]
    exact h.goto rfl rfl hts
  | @resultRead res row ht hr =>
    rw [ht] at hts
    have hsome := Service.status_of hr
    refine ⟨h.goto rfl rfl ?_, hkept rfl⟩
    by_cases hs : s.Stopped
    · exact Or.inr ⟨Option.some.inj (hsome.symm.trans (h.stopped hs)), hs⟩
    · have hrun := hts.resolve_right hs
      exact Or.inl ⟨Option.some.inj (hsome.symm.trans hrun), hts⟩
  | @resultCommit read row res ht hr =>
    obtain ⟨hstatus, hstop⟩ := h.resultCommit ht hr (hok read res ht)
    refine ⟨⟨fun hs => ?_, h.read, congrArg some hstatus, read.finalStatus_final res⟩,
      fun st hst hf => ?_⟩
    · exact congrArg some (hstatus.trans (hstop hs))
    · obtain rfl := h.cancelled_of_final hst hf (by rw [ht]; nofun)
      have hs : s.Stopped := by
        rw [ht] at hts
        rcases hts with ⟨-, hrun | hs⟩ | ⟨-, hs⟩
        · exact absurd (Option.some.inj (hst.symm.trans hrun)) (by decide)
        · exact hs
        · exact hs
      exact congrArg some (hstatus.trans (hstop hs))
  | @stopRead k hk =>
    refine ⟨h.stopRead hk, hkept ?_⟩
    rcases s.stopRead_eq k with hs | ⟨row, -, hs⟩ <;> rw [hs] <;> rfl
  | @stopSignal k read hk =>
    refine ⟨h.update rfl rfl rfl (by rw [hk]; nofun) nofun fun row hrow => ?_, hkept rfl⟩
    rcases hrow with hrow | hrow
    · cases hrow
    · obtain rfl := StopRequest.signalled.inj hrow
      exact h.read k _ (Or.inl hk)
  | stopCommit hk hr =>
    obtain ⟨hinv, hstatus⟩ := h.stopCommit hk hr hok
    refine ⟨hinv, fun st hst hf => ?_⟩
    by_cases hd : ∃ final, s.task = .done final
    · obtain ⟨final, hd⟩ := hd
      rw [hd] at hts
      obtain rfl := hok final hd
      exact hstatus.trans (hts.1.symm.trans hst)
    · obtain rfl := h.cancelled_of_final hst hf fun final hfinal => hd ⟨final, hfinal⟩
      exact hstatus
  | resumeFind | resumePut => exact ⟨h.frame rfl rfl rfl, hkept rfl⟩

/-- **An action that keeps a final status is orderly.** -/
theorem StatusInv.orderly (h : StatusInv s) (hm : s.Moved J a s')
    (hk : ∀ st, s.status = some st → st.Final → s'.status = some st) : Orderly s a := by
  have hts := h.task
  cases hm with
  | @markCommit read row ht hr =>
    intro hs
    rw [ht] at hts
    have hstatus := Row.setStatus_running hts.1 row
    have hc := hk .cancelled (h.stopped hs) (by decide)
    exact absurd (hstatus.symm.trans (Option.some.inj hc)) (by decide)
  | @resultCommit read row res ht hr =>
    intro read' res' ht'
    obtain ⟨rfl, rfl⟩ := Task.writing.inj (ht.symm.trans ht')
    by_contra hn
    rw [not_or, not_not] at hn
    have hc := Option.some.inj (hk .cancelled (h.stopped hn.2) (by decide))
    rw [ht] at hts
    rcases hts with ⟨hread, -⟩ | ⟨hread, -⟩
    · have hne := Row.finalStatus_ne hread res
      exact hn.1 ((commitColumn_of_ne hne row.status).symm.trans hc)
    · exact hn.1 ((if_pos hread).trans hread)
  | @stopCommit k read row hsk hr =>
    intro st hd
    rw [hd] at hts
    have hc := Option.some.inj (hk st hts.1 hts.2)
    exact hc.symm.trans (h.setStatus_cancelled hsk row)
  | _ => exact trivial

end Moves

/-! ## Runs -/

section Runs

variable [PyText] {J : Job} {h : List (Service × Act)} {s : Service}

theorem statusInv_of_orderly (hr : (service J).Run h s) (hok : ∀ e ∈ h, Orderly e.1 e.2) :
    StatusInv s :=
  hr.invariant .init
    (fun _ _ _ hs ho hstep => (hs.move ho (Service.step_moved hstep)).1) hok

theorem orderly_of_kept (hr : (service J).Run h s)
    (hk : ∀ e ∈ h, ∀ s', e.1.step J e.2 = some s' → ∀ st, e.1.status = some st → st.Final →
      s'.status = some st) : ∀ e ∈ h, Orderly e.1 e.2 := by
  induction hr with
  | init => exact fun _ he => absurd he List.not_mem_nil
  | @step h s s' a hr hs ih =>
    rw [List.forall_mem_cons] at hk ⊢
    have hok := ih hk.2
    exact ⟨(statusInv_of_orderly hr hok).orderly (Service.step_moved hs) (hk.1 s' hs), hok⟩

/-- **Main result.** A final status lasts through a run iff all commits of the run are orderly. -/
theorem lasting_iff (J : Job) {h : List (Service × Act)} {s : Service}
    (hr : (service J).Run h s) : Lasting J h s ↔ ∀ e ∈ h, Orderly e.1 e.2 := by
  constructor
  · exact fun hl => orderly_of_kept hr hl.kept
  · intro hok
    refine ⟨fun e he s' hs => ?_, (statusInv_of_orderly hr hok).stopped⟩
    have hinv : StatusInv e.1 := hr.invariant_passed .init
      (fun _ _ _ hi ho hst => (hi.move ho (Service.step_moved hst)).1) hok e he
    exact (hinv.move (hok e he) (Service.step_moved hs)).2

end Runs

/-! ## A stop that is overwritten -/

section Example

attribute [local instance] asciiText

/-- An execution whose variables cannot be resolved. -/
def unresolvable : Job where
  executionId := "e"
  named := by decide
  workflow := .error "Unresolved variables: x"
  env := { answer := fun _ _ => { result := .ok .none }, clock := fun _ => 0 }

/-- A stop between the sessions lasts. -/
theorem lasting_iff_unresolvable : ∃ h s, (service unresolvable).Run h s ∧
    s.stops 0 = .stopped ∧ s.status = some .cancelled ∧ Lasting unresolvable h s := by
  have he : (service unresolvable).exec [.runWorkflow, .markRead, .markCommit, .registerCancel,
    .registerPause, .stopRead 0, .stopSignal 0, .stopCommit 0, .resolve, .unregisterCancel,
    .unregisterPause, .resultRead, .resultCommit] [] {} = some (_, _) := rfl
  have hr := Transition.System.run_exec .init he
  refine ⟨_, _, hr, rfl, rfl, (lasting_iff unresolvable hr).mpr ?_⟩
  simp only [List.forall_mem_cons]
  refine ⟨fun read res ht => Or.inl ?_, trivial, trivial, trivial, trivial, fun st ht => ?_, trivial,
    trivial, trivial, trivial, ?_, trivial, trivial, List.forall_mem_nil _⟩
  · obtain ⟨rfl, rfl⟩ := Task.writing.inj ht
    rfl
  · cases ht
  · rintro ⟨k, hk⟩
    cases hk

/-- **A pending execution is stopped, and session 1 marks it as running.** -/
theorem stop_before_start : ∃ h s, (service unresolvable).Run h s ∧
    s.stops 0 = .stopped ∧ s.status = some .running ∧ ¬ Lasting unresolvable h s := by
  have he : (service unresolvable).exec [.runWorkflow, .stopRead 0, .stopSignal 0, .stopCommit 0,
    .markRead, .markCommit] [] {} = some (_, _) := rfl
  have hr := Transition.System.run_exec .init he
  refine ⟨_, _, hr, rfl, rfl, fun hl => ?_⟩
  have hc : some Status.running = some Status.cancelled := hl.stopped ⟨0, rfl⟩
  exact absurd hc (by decide)

end Example

end ScoutEngine
