import ScoutEngine.Executor.Programs
import Mathlib.Data.List.Intervals

/-!
# What the monitor receives

Only the look-ahead and the two wait steps touch the network monitor themselves. Everything else
that a run does leaves it to the callbacks: the monitor is afterwards what the messages of the new
calls have made of it.

* `messages`, `Hears`, `Receives`: the messages of some calls, and a program that only receives.
* `awaits`, `WaitEnds`, **`executeStep_hears`**: a wait step stops the monitor when its wait ends
  and only receives when it fails before; `executeStep_hears_deaf`: so does a step without monitor.
* `handed`: the state that the look-ahead leaves.
* **`beginStep_hears`**: once the look-ahead is over a step only receives, unless it is a wait step
  whose wait ends.
-/

set_option autoImplicit false

namespace ScoutEngine

open Interaction

/-! ## Programs -/

/-- The messages that arrived during some calls. -/
def messages (calls : Calls) : List NetMsg := calls.flatMap fun c => c.2.delivered

section

variable [PyText]

/-- From one state of the monitor and the calls to another one by receiving messages only. -/
def Hears (m : NetworkMonitor) (calls : Calls) (m' : NetworkMonitor) (calls' : Calls) : Prop :=
  ∃ new : Calls, calls' = calls ++ new ∧ m' = (messages new).foldl NetworkMonitor.receive m

theorem Hears.refl (m : NetworkMonitor) (calls : Calls) : Hears m calls m calls :=
  ⟨[], (List.append_nil _).symm, rfl⟩

theorem Hears.trans {m m' m'' : NetworkMonitor} {calls calls' calls'' : Calls}
    (h : Hears m calls m' calls') (h' : Hears m' calls' m'' calls'') : Hears m calls m'' calls'' := by
  obtain ⟨new, rfl, rfl⟩ := h
  obtain ⟨new', rfl, rfl⟩ := h'
  refine ⟨new ++ new', List.append_assoc _ _ _, ?_⟩
  unfold messages
  rw [List.flatMap_append, List.foldl_append]

/-- A program that leaves the monitor to the callbacks. -/
def Receives {α : Type} (p : StepM α) : Prop :=
  ∀ env m calls, Hears m calls (eval env p m calls).1.2 (eval env p m calls).2

namespace Receives

theorem pure {α : Type} (a : α) : Receives (Pure.pure a : StepM α) := fun _ m calls => .refl m calls

theorem throw {α : Type} (e : PyExc) : Receives (MonadExcept.throw e : StepM α) :=
  fun _ m calls => .refl m calls

theorem call (c : Call) : Receives (ScoutEngine.call c) := fun env _ calls =>
  ⟨[(c, env.answer calls c)], rfl, by rw [messages, List.flatMap_singleton]; rfl⟩

theorem get : Receives (MonadState.get : StepM NetworkMonitor) := fun _ m calls => .refl m calls

theorem bind {α β : Type} {p : StepM α} {f : α → StepM β} (hp : Receives p)
    (hf : ∀ a, Receives (f a)) : Receives (p >>= f) := by
  intro env m calls
  rw [eval_bind]
  have h := hp env m calls
  generalize eval env p m calls = r at h ⊢
  rcases r with ⟨⟨_ | a, m'⟩, calls'⟩
  · exact h
  · exact h.trans (hf a env m' calls')

theorem tryCatch {α : Type} {p : StepM α} {f : PyExc → StepM α} (hp : Receives p)
    (hf : ∀ e, Receives (f e)) : Receives (MonadExcept.tryCatch p f) := by
  intro env m calls
  have h := hp env m calls
  rw [eval_tryCatch]
  generalize eval env p m calls = r at h ⊢
  rcases r with ⟨⟨e | a, m'⟩, calls'⟩
  · exact h.trans (hf e env m' calls')
  · exact h

end Receives

/-- **A program that does not write the monitor only receives.** -/
theorem Uses.receives {α : Type} {p : StepM α} (h : Uses False p) : Receives p := by
  induction h with
  | pure a => exact .pure a
  | throw e => exact .throw e
  | call => exact .call _
  | get => exact .get
  | set h | modify h => exact h.elim
  | bind _ _ ihp ihf => exact .bind ihp ihf
  | tryCatch _ _ ihp ihf => exact .tryCatch ihp ihf

/-! ## The waits -/

/-- The wait of `wait_for_response`. -/
def awaitResponse (pattern : Option String) (timeout : ℕ) : StepM Bool := do
  let rounds ← call (.pollRounds timeout)
  pollResponse pattern (match rounds with | .int n => n.toNat | _ => 0)

/-- The wait of a wait step, up to the point where the step stops the monitor. -/
def awaits (o : StepOptions) (step : WorkflowStep) : StepM Unit := do
  let timeout := if step.timeoutMs.getD 0 = 0 then o.defaultTimeout else step.timeoutMs.getD 0
  match step.action with
  | .waitForDownload =>
    let _ ← call (.waitDownload timeout)
  | .waitForResponse =>
    let _ ← awaitResponse step.urlPattern timeout
  | _ => pure ()

/-- The wait of a step comes to its end: its iframe is found and its wait does not raise. -/
def WaitEnds (env : Env) (o : StepOptions) (step : WorkflowStep) (m : NetworkMonitor)
    (calls : Calls) : Prop :=
  (eval env (resolveTarget step.frameContext >>= fun _ => awaits o step) m calls).1.1 = .ok ()

theorem awaitResponse_receives (pattern : Option String) (timeout : ℕ) :
    Receives (awaitResponse pattern timeout) :=
  .bind (.call _) fun _ => (pollResponse_uses _ _).receives

/-- A wait step: the monitor must be active, then comes the wait, then the monitor is stopped. -/
theorem runAction_wait (o : StepOptions) (step : WorkflowStep) (target : Target) (h : step.IsWait) :
    ∃ (β : Type) (w : StepM β) (after : β → StepM PyVal) (msg : String),
      runAction o step target = (requireMonitor o msg >>= fun _ => w >>= after) ∧
        awaits o step = (w >>= fun _ => pure ()) ∧ Receives w := by
  unfold runAction awaits
  rcases h with h | h
  · simp only [h, waitForDownload, bind_assoc]
    exact ⟨_, _, _, _, rfl, rfl, .call _⟩
  · simp only [h, waitForResponse, bind_assoc]
    refine ⟨_, awaitResponse _ _, ?after, ?msg, ?_, rfl, awaitResponse_receives _ _⟩
    case inr =>
      simp only [awaitResponse, bind_assoc]
      rfl

omit [PyText] in
theorem requireMonitor_eval (env : Env) (o : StepOptions) (msg : String) (m : NetworkMonitor)
    (calls : Calls) : (∃ e, eval env (requireMonitor o msg) m calls = ((.error e, m), calls)) ∨
      eval env (requireMonitor o msg) m calls = ((.ok (), m), calls) := by
  by_cases h : (!o.hasMonitor || !m.monitoring) = true
  · refine Or.inl ⟨⟨.runtimeError, msg⟩, ?_⟩
    change eval env (if (!o.hasMonitor || !m.monitoring) = true then raise .runtimeError msg
      else pure ()) m calls = _
    rw [if_pos h]
    rfl
  · refine Or.inr ?_
    change eval env (if (!o.hasMonitor || !m.monitoring) = true then raise .runtimeError msg
      else pure ()) m calls = _
    rw [if_neg h]
    rfl

/-- **An action only receives**, unless it is a wait that comes to its end. -/
theorem action_hears {env : Env} {o : StepOptions} {step : WorkflowStep} {m : NetworkMonitor}
    {calls : Calls} (h : step.IsWait → ¬ WaitEnds env o step m calls) :
    Hears m calls (eval env (resolveTarget step.frameContext >>= runAction o step) m calls).1.2
      (eval env (resolveTarget step.frameContext >>= runAction o step) m calls).2 := by
  by_cases hw : step.IsWait
  · have hends := h hw
    unfold WaitEnds at hends
    have ht := (resolveTarget_uses step.frameContext).receives env m calls
    rw [eval_bind] at hends ⊢
    generalize eval env (resolveTarget step.frameContext) m calls = r at ht hends ⊢
    rcases r with ⟨⟨_ | target, m'⟩, calls'⟩
    · exact ht
    · obtain ⟨β, w, after, msg, hrun, hawaits, hrec⟩ := runAction_wait o step target hw
      refine ht.trans ?_
      dsimp only at hends ⊢
      rw [hrun, eval_bind]
      rcases requireMonitor_eval env o msg m' calls' with ⟨e, hm⟩ | hm
      · rw [hm]
        exact .refl _ _
      · have hwait := hrec env m' calls'
        rw [hm]
        dsimp only
        rw [hawaits, eval_bind] at hends
        rw [eval_bind]
        generalize eval env w m' calls' = r at hwait hends ⊢
        rcases r with ⟨⟨_ | b, m''⟩, calls''⟩
        · exact hwait
        · exact absurd rfl hends
  · exact (resolveTarget_uses _).receives.bind
      (fun target => (runAction_uses o step target fun h => absurd h hw).receives)
      env m calls

/-- A step receives what its action and its screenshot receive. -/
theorem executeStep_hears_of_action {env : Env} {o : StepOptions} {step : WorkflowStep}
    {m : NetworkMonitor} {calls : Calls} (ha : Hears m calls
      (eval env (resolveTarget step.frameContext >>= runAction o step) m calls).1.2
      (eval env (resolveTarget step.frameContext >>= runAction o step) m calls).2) :
    Hears m calls (executeStep env o step m calls).2.1 (executeStep env o step m calls).2.2 := by
  unfold executeStep stepBody
  unfold eval at ha
  dsimp only
  rw [StateT.run_bind, run_bind]
  generalize run env.answer
    (((resolveTarget step.frameContext >>= runAction o step).run).run m) calls = r at ha ⊢
  obtain ⟨⟨out, m'⟩, calls'⟩ := r
  refine ha.trans ?_
  have hs := (screenshot_uses o step).receives env m' calls'
  unfold eval at hs
  dsimp only
  rw [StateT.run_bind, run_bind]
  exact hs

/-- **A step only receives**, unless it is a wait that comes to its end. -/
theorem executeStep_hears {env : Env} {o : StepOptions} {step : WorkflowStep} {m : NetworkMonitor}
    {calls : Calls} (h : step.IsWait → ¬ WaitEnds env o step m calls) :
    Hears m calls (executeStep env o step m calls).2.1 (executeStep env o step m calls).2.2 :=
  executeStep_hears_of_action (action_hears h)

/-- **A step without a monitor only receives.** -/
theorem executeStep_hears_deaf {o : StepOptions} (h : o.hasMonitor = false) (env : Env)
    (step : WorkflowStep) (m : NetworkMonitor) (calls : Calls) :
    Hears m calls (executeStep env o step m calls).2.1 (executeStep env o step m calls).2.2 := by
  have hact : Uses False (resolveTarget step.frameContext >>= runAction o step) :=
    .bind (resolveTarget_uses _) fun target => runAction_uses o step target fun _ ho =>
      Bool.false_ne_true (h.symm.trans ho)
  exact executeStep_hears_of_action (hact.receives env m calls)

/-! ## Moves -/

namespace RunState

/-- From one state of a run to another one by receiving messages only. -/
def Hears (s s' : RunState) : Prop := ScoutEngine.Hears s.monitor s.calls s'.monitor s'.calls

theorem Hears.refl (s : RunState) : s.Hears s := ScoutEngine.Hears.refl _ _

theorem Hears.trans {s s' s'' : RunState} (h : s.Hears s') (h' : s'.Hears s'') : s.Hears s'' :=
  ScoutEngine.Hears.trans h h'

omit [PyText] in
theorem publish_world (cfg : Config) (f : String → Sessions → Sessions) (s : RunState) :
    (s.publish cfg f).monitor = s.monitor ∧ (s.publish cfg f).calls = s.calls := by
  unfold publish
  split_ifs <;> exact ⟨rfl, rfl⟩

theorem Hears.publish {s s' : RunState} (h : s.Hears s') (cfg : Config)
    (f : String → Sessions → Sessions) : s.Hears (s'.publish cfg f) := by
  obtain ⟨hm, hc⟩ := publish_world cfg f s'
  unfold Hears
  rw [hm, hc]
  exact h

theorem Hears.control {s s' : RunState} (h : s.Hears s') (f : Control → Control) :
    s.Hears (s'.control f) := h

theorem andThen_hears {s s' : RunState} {env : Env} {p : StepM Unit} {k : RunState → RunState}
    (hs : s.Hears (s'.exec env p).2) (hk : s.Hears (k (s'.exec env p).2)) :
    s.Hears (s'.andThen env p k) := by
  unfold RunState.andThen
  generalize s'.exec env p = r at hs hk ⊢
  rcases r with ⟨e | _, s''⟩
  · exact hs.control _
  · exact hk

theorem Hears.andThen {s s' : RunState} (h : s.Hears s') (env : Env) {p : StepM Unit}
    (hp : Receives p) {k : RunState → RunState} (hk : ∀ s'', s.Hears s'' → s.Hears (k s'')) :
    s.Hears (s'.andThen env p k) :=
  have hs : s.Hears (s'.exec env p).2 := h.trans (hp env s'.monitor s'.calls)
  andThen_hears hs (hk _ hs)

end RunState

open RunState

section Moves

variable {cfg : Config} {env : Env} {s s' : RunState}

theorem waitForResume_hears (h : s.Hears s') (p : Pause) : s.Hears (waitForResume cfg p s') :=
  (h.publish cfg _).control _

theorem endHandoff_hears (h : s.Hears s') (step : WorkflowStep) (v : PyVal) :
    s.Hears (endHandoff cfg env step v s') :=
  (h.control _).andThen env (notify_uses _ _).receives fun _ h => (h.publish cfg _).control _

theorem abortHandoff_hears (h : s.Hears s') (step : WorkflowStep) :
    s.Hears (abortHandoff cfg env step s') :=
  (h.control _).andThen env (notify_uses _ _).receives fun _ h => h.control _

theorem handoff_hears (h : s.Hears s') (step : WorkflowStep) :
    s.Hears (handoff cfg env step s') := by
  unfold handoff
  dsimp only
  split_ifs
  · exact waitForResume_hears (h.publish cfg _) _
  · exact endHandoff_hears (h.publish cfg _) _ _

theorem account_hears (h : s.Hears s') (step : WorkflowStep) (r : StepResult) :
    s.Hears (account cfg step r s') := by
  unfold account
  cases r.status with
  | passed => exact h.control _
  | failed =>
    dsimp only
    split_ifs
    · exact waitForResume_hears ((h.control _).control _) _
    · cases cfg.policy step <;> exact (h.control _).control _

theorem wake_hears (h : s.Hears s') (p : Pause) (x : Input) : s.Hears (wake cfg env p x s') := by
  unfold wake
  dsimp only
  have hw := (h.publish cfg fun id => Sessions.setRunning id).control
    (Control.woken p (x.resume.getD { action := .abort }))
  cases p.kind with
  | requested => exact hw.control _
  | error => exact (hw.control _).control _
  | handoff =>
    dsimp only
    split_ifs
    · exact abortHandoff_hears hw _
    · exact endHandoff_hears hw _ _

theorem normalStep_hears (h : s.Hears s') {step : WorkflowStep}
    (hw : step.IsWait → ¬ WaitEnds env cfg.options step s'.monitor s'.calls) :
    s.Hears (normalStep cfg env step (account cfg step) s') := by
  obtain ⟨hm, hc⟩ : (showStep cfg step s').monitor = s'.monitor ∧
      (showStep cfg step s').calls = s'.calls := publish_world _ _ _
  have hs : s.Hears (showStep cfg step s') := h.publish cfg _
  unfold normalStep
  dsimp only
  rw [← hm, ← hc] at hw
  have hr := ScoutEngine.Hears.trans hs (executeStep_hears hw)
  refine Hears.andThen ?_ env (notify_uses _ _).receives fun _ h => account_hears h _ _
  apply Hears.publish
  exact hr

/-! ## The look-ahead -/

/-- The state when a step is executed: the look-ahead is over. -/
def handed (cfg : Config) (env : Env) (s : RunState) : RunState :=
  ((s.control Control.begun).exec env (lookAhead (cfg.nextOf s.stepIdx))).2

/-- Before any step but a wait step the look-ahead does nothing. -/
theorem handed_of_not_wait (h : ∀ step, cfg.nextOf s.stepIdx = some step → ¬ step.IsWait) :
    handed cfg env s = s.control Control.begun := by
  unfold handed
  cases hn : cfg.nextOf s.stepIdx with
  | none => rfl
  | some step =>
    have hw : ¬ (step.action = .waitForDownload ∨ step.action = .waitForResponse) := h step hn
    unfold lookAhead
    dsimp only
    rw [if_neg hw]
    rfl

/-- Before a wait step the look-ahead starts the monitor for it, or raises. -/
theorem lookAhead_wait (env : Env) {step : WorkflowStep} (hw : step.IsWait) (m : NetworkMonitor)
    (calls : Calls) : (∃ e, (eval env (lookAhead (some step)) m calls).1.1 = .error e) ∨
      ∃ m₁, m.start step.urlPattern = .ok m₁ ∧
        ScoutEngine.Hears m₁ calls (eval env (lookAhead (some step)) m calls).1.2
          (eval env (lookAhead (some step)) m calls).2 := by
  have hw : step.action = .waitForDownload ∨ step.action = .waitForResponse := hw
  cases hm : m.start step.urlPattern with
  | error e =>
    refine Or.inl ⟨e, ?_⟩
    unfold lookAhead
    dsimp only
    rw [if_pos hw]
    rw [eval_get, hm]
    rfl
  | ok m₁ =>
    refine Or.inr ⟨m₁, rfl, ?_⟩
    have heval : eval env (lookAhead (some step)) m calls = eval env (do
        let _ ← call .beforeRequestSent
        let _ ← call .afterResponseReceived
        pure ()) m₁ calls := by
      unfold lookAhead
      dsimp only
      rw [if_pos hw]
      rw [eval_get, hm]
      rfl
    have h : Receives (do
        let _ ← call .beforeRequestSent
        let _ ← call .afterResponseReceived
        pure ()) := .bind (.call _) fun _ => .bind (.call _) fun _ => .pure _
    rw [heval]
    exact h env m₁ calls

/-- **A step only receives once its look-ahead is over**, unless it is a wait that comes to its
end. -/
theorem beginStep_hears {step : WorkflowStep}
    (hw : step.IsWait → ¬ WaitEnds env cfg.options step (handed cfg env s).monitor
      (handed cfg env s).calls) :
    (handed cfg env s).Hears (beginStep cfg env step (account cfg step) s) := by
  unfold beginStep
  dsimp only
  refine andThen_hears (.refl _) ?_
  by_cases ha : step.action = .handoff
  · rw [if_pos ha]
    exact handoff_hears (.refl _) _
  · rw [if_neg ha]
    exact normalStep_hears (.refl _) hw

/-- **A step before a wait step**: the look-ahead starts the monitor for the wait step, and the
step only receives after that, unless the run is left. -/
theorem beginStep_before_wait (env : Env) {step next : WorkflowStep}
    (hn : cfg.nextOf s.stepIdx = some next) (hw : next.IsWait) (hnw : ¬ step.IsWait) :
    (beginStep cfg env step (account cfg step) s).halt ≠ none ∨
      ∃ m₁, s.monitor.start next.urlPattern = .ok m₁ ∧
        ScoutEngine.Hears m₁ s.calls (beginStep cfg env step (account cfg step) s).monitor
          (beginStep cfg env step (account cfg step) s).calls := by
  have hexec : (s.control Control.begun).exec env (lookAhead (cfg.nextOf s.stepIdx)) =
      ((eval env (lookAhead (some next)) s.monitor s.calls).1.1, handed cfg env s) := by
    unfold handed
    rw [hn]
    rfl
  rcases lookAhead_wait env hw s.monitor s.calls with ⟨e, he⟩ | ⟨m₁, hm₁, hl⟩
  · refine Or.inl ?_
    rw [he] at hexec
    change ((s.control Control.begun).andThen env (lookAhead (cfg.nextOf s.stepIdx)) _).halt ≠ none
    unfold RunState.andThen
    rw [hexec]
    exact nofun
  · refine Or.inr ⟨m₁, hm₁, ?_⟩
    have hh : (handed cfg env s).monitor = (eval env (lookAhead (some next)) s.monitor s.calls).1.2 ∧
        (handed cfg env s).calls = (eval env (lookAhead (some next)) s.monitor s.calls).2 := by
      unfold handed
      rw [hn]
      exact ⟨rfl, rfl⟩
    rw [← hh.1, ← hh.2] at hl
    exact hl.trans (beginStep_hears fun h => absurd h hnw)

end Moves

end

end ScoutEngine
