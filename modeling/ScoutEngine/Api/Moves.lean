import ScoutEngine.Api.Service

/-!
# What one action does to the service

* `Service.Moved`, **`step_moved`**: the actions, each with what it needs and what it makes of the
  state. Invariants of the service are proved by cases on them.
* `stopRead_eq`, `wakeUp_eq`, `leave_eq`: what the longer ones leave alone.
-/

set_option autoImplicit false

namespace ScoutEngine

theorem Job.canPause (J : Job) (w : Workflow) : (J.config w).canPause = true := by
  have hid : (J.config w).hasId = true := decide_eq_true J.named
  exact (Bool.true_and _).trans hid

namespace Service

variable {s s' : Service}

theorem not_over {t : Task} (ht : s.task = t) (h : ¬ t.Over) : ¬ s.Over := by
  rw [Over, ht]
  exact h

theorem over_congr (ht : s'.task = s.task) : s'.Over ↔ s.Over := by
  rw [Over, Over, ht]

theorem stopRead_eq (s : Service) (k : ℕ) :
    s.stopRead k = s.stopAt k .refused ∨
      ∃ row, ¬ row.status.Final ∧ s.stopRead k = s.stopAt k (.accepted row) := by
  unfold stopRead
  split
  · exact Or.inl rfl
  · rename_i row _
    split_ifs with hst
    · refine Or.inr ⟨row, ?_, rfl⟩
      rcases hst with hst | hst <;> rw [hst] <;> decide
    · exact Or.inl rfl

end Service

variable [PyText]

/-- **The actions.** -/
inductive Service.Moved (J : Job) (s : Service) : Act → Service → Prop where
  | runWorkflow (ht : s.task = .absent) :
      Moved J s .runWorkflow { s with row := some {}, task := .scheduled }
  | markRead {row : Row} (ht : s.task = .scheduled) (hr : s.row = some row) :
      Moved J s .markRead { s with task := .marking row }
  | markCommit {read row : Row} (ht : s.task = .marking read) (hr : s.row = some row) :
      Moved J s .markCommit { s with row := some (read.setStatus .running row), task := .marked }
  | registerCancel (ht : s.task = .marked) :
      Moved J s .registerCancel { s with cancelEvent := some false, task := .cancellable }
  | registerPause (ht : s.task = .cancellable) :
      Moved J s .registerPause { s with pauseEvent := some false, task := .ready }
  | start {w : Workflow} (ht : s.task = .ready) (hw : J.workflow = .ok w) :
      Moved J s .resolve { s with exec := entry (J.config w) J.env, task := .running }
  | unresolved {e : String} (ht : s.task = .ready) (hw : J.workflow = .error e) :
      Moved J s .resolve { s with task := .returned (failedResult e) }
  | check {w : Workflow} (ht : s.task = .running) (hw : J.workflow = .ok w)
      (hh : s.exec.halt = none) (hp : s.exec.waiting = none) (hc : s.checked = none)
      (hs : (J.config w).stepAt s.exec.toControl ≠ none) :
      Moved J s .check { s with checked := some (s.cancelEvent.getD false) }
  | proceed {w : Workflow} {cancel : Bool} (ht : s.task = .running) (hw : J.workflow = .ok w)
      (hh : s.exec.halt = none) (hp : s.exec.waiting = none)
      (hc : s.checked = some cancel ∨
        s.checked = none ∧ (J.config w).stepAt s.exec.toControl = none) :
      Moved J s .proceed (s.proceed (J.config w) J.env cancel)
  | take {w : Workflow} {p : Pause} {got : ℕ × ResumeInstruction} (ht : s.task = .running)
      (hw : J.workflow = .ok w) (hh : s.exec.halt = none) (hp : s.exec.waiting = some p)
      (hq : s.queue = some got) :
      Moved J s .take (s.wakeUp (J.config w) J.env (some got))
  | timeout {w : Workflow} {p : Pause} (ht : s.task = .running) (hw : J.workflow = .ok w)
      (hh : s.exec.halt = none) (hp : s.exec.waiting = some p) (hq : s.queue = none) :
      Moved J s .timeout (s.wakeUp (J.config w) J.env none)
  | leave {w : Workflow} {h : Halt} (ht : s.task = .running) (hw : J.workflow = .ok w)
      (hh : s.exec.halt = some h) : Moved J s .leave (s.leave (J.config w) J.env)
  | unregisterCancel {res : ExecutionResult} (ht : s.task = .returned res) :
      Moved J s .unregisterCancel { s with cancelEvent := none, task := .closing res }
  | unregisterPause {res : ExecutionResult} (ht : s.task = .closing res) :
      Moved J s .unregisterPause { s with pauseEvent := none, task := .closed res }
  | resultRead {res : ExecutionResult} {row : Row} (ht : s.task = .closed res)
      (hr : s.row = some row) : Moved J s .resultRead { s with task := .writing row res }
  | resultCommit {read row : Row} {res : ExecutionResult} (ht : s.task = .writing read res)
      (hr : s.row = some row) :
      Moved J s .resultCommit
        { s with
          row := some (read.store res row)
          stepRows := res.steps
          task := .done (read.finalStatus res) }
  | stopRead {k : ℕ} (hk : s.stops k = .sent) : Moved J s (.stopRead k) (s.stopRead k)
  | stopSignal {k : ℕ} {read : Row} (hk : s.stops k = .accepted read) :
      Moved J s (.stopSignal k)
        ({ s with cancelEvent := setEvent s.cancelEvent }.stopAt k (.signalled read))
  | stopCommit {k : ℕ} {read row : Row} (hk : s.stops k = .signalled read) (hr : s.row = some row) :
      Moved J s (.stopCommit k)
        ({ s with row := some (read.setStatus .cancelled row) }.stopAt k .stopped)
  | requestPause : Moved J s .requestPause { s with pauseEvent := setEvent s.pauseEvent }
  | resumeFind {k : ℕ} {i : ResumeInstruction} (hk : s.resumes k = .sent) :
      Moved J s (.resumeFind k i) (s.resumeFind k i)
  | resumePut {k : ℕ} {i : ResumeInstruction} (hk : s.resumes k = .found i)
      (hq : s.queue = none) :
      Moved J s (.resumePut k) ({ s with queue := some (k, i) }.resumeAt k (.acknowledged s.pause))

/-- **An action that is taken is one of these.** -/
theorem Service.step_moved {J : Job} {s s' : Service} {a : Act} (h : s.step J a = some s') :
    s.Moved J a s' := by
  cases a with
  | runWorkflow =>
    simp only [step] at h
    split at h
    · obtain rfl := Option.some.inj h
      exact .runWorkflow ‹_›
    · cases h
  | markRead =>
    simp only [step] at h
    split at h
    · obtain rfl := Option.some.inj h
      exact .markRead ‹_› ‹_›
    · cases h
  | markCommit =>
    simp only [step] at h
    split at h
    · obtain rfl := Option.some.inj h
      exact .markCommit ‹_› ‹_›
    · cases h
  | registerCancel =>
    simp only [step] at h
    split at h
    · obtain rfl := Option.some.inj h
      exact .registerCancel ‹_›
    · cases h
  | registerPause =>
    simp only [step] at h
    split at h
    · obtain rfl := Option.some.inj h
      exact .registerPause ‹_›
    · cases h
  | resolve =>
    simp only [step] at h
    split at h
    · obtain rfl := Option.some.inj h
      exact .start ‹_› ‹_›
    · obtain rfl := Option.some.inj h
      exact .unresolved ‹_› ‹_›
    · cases h
  | check =>
    simp only [step] at h
    split at h
    · split_ifs at h with hs
      obtain rfl := Option.some.inj h
      exact .check ‹_› ‹_› ‹_› ‹_› ‹_› hs
    · cases h
  | proceed =>
    simp only [step] at h
    split at h
    · split at h
      · obtain rfl := Option.some.inj h
        exact .proceed ‹_› ‹_› ‹_› ‹_› (Or.inl ‹_›)
      · split_ifs at h with hs
        obtain rfl := Option.some.inj h
        exact .proceed ‹_› ‹_› ‹_› ‹_› (Or.inr ⟨‹_›, hs⟩)
    · cases h
  | take =>
    simp only [step] at h
    split at h
    · obtain rfl := Option.some.inj h
      exact .take ‹_› ‹_› ‹_› ‹_› ‹_›
    · cases h
  | timeout =>
    simp only [step] at h
    split at h
    · obtain rfl := Option.some.inj h
      exact .timeout ‹_› ‹_› ‹_› ‹_› ‹_›
    · cases h
  | leave =>
    simp only [step] at h
    split at h
    · obtain rfl := Option.some.inj h
      exact .leave ‹_› ‹_› ‹_›
    · cases h
  | unregisterCancel =>
    simp only [step] at h
    split at h
    · obtain rfl := Option.some.inj h
      exact .unregisterCancel ‹_›
    · cases h
  | unregisterPause =>
    simp only [step] at h
    split at h
    · obtain rfl := Option.some.inj h
      exact .unregisterPause ‹_›
    · cases h
  | resultRead =>
    simp only [step] at h
    split at h
    · obtain rfl := Option.some.inj h
      exact .resultRead ‹_› ‹_›
    · cases h
  | resultCommit =>
    simp only [step] at h
    split at h
    · obtain rfl := Option.some.inj h
      exact .resultCommit ‹_› ‹_›
    · cases h
  | stopRead k =>
    simp only [step] at h
    split at h
    · obtain rfl := Option.some.inj h
      exact .stopRead ‹_›
    · cases h
  | stopSignal k =>
    simp only [step] at h
    split at h
    · obtain rfl := Option.some.inj h
      exact .stopSignal ‹_›
    · cases h
  | stopCommit k =>
    simp only [step] at h
    split at h
    · obtain rfl := Option.some.inj h
      exact .stopCommit ‹_› ‹_›
    · cases h
  | requestPause =>
    obtain rfl := Option.some.inj h
    exact .requestPause
  | resumeFind k i =>
    simp only [step] at h
    split at h
    · obtain rfl := Option.some.inj h
      exact .resumeFind ‹_›
    · cases h
  | resumePut k =>
    simp only [step] at h
    split at h
    · obtain rfl := Option.some.inj h
      exact .resumePut ‹_› ‹_›
    · cases h

namespace Service

theorem wakeUp_eq (cfg : Config) (env : Env) (got : Option (ℕ × ResumeInstruction)) (s : Service) :
    ∃ resumes, s.wakeUp cfg env got =
      { s with
        exec := next cfg env { resume := got.map Prod.snd } s.exec
        queue := none
        resumes := resumes } := by
  cases got <;> exact ⟨_, rfl⟩

theorem leave_eq (cfg : Config) (env : Env) (s : Service) :
    ∃ exec res, exec.toControl = s.exec.toControl ∧
      s.leave cfg env = { s with exec := exec, task := .returned res } := by
  have hfin : (finish cfg env s.exec).2.toControl = s.exec.toControl := by
    unfold finish
    split
    · rfl
    · exact leave_toControl cfg env s.exec
    · exact leave_toControl cfg env s.exec
  unfold leave
  split <;> rename_i h <;> rw [h] at hfin <;> exact ⟨_, _, hfin, rfl⟩

end Service

end ScoutEngine
