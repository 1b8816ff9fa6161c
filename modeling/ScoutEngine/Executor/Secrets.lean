import ScoutEngine.Executor.Moves

/-!
# Secrets

Two runs of workflows that differ in the values of `fill_secret` steps only, in an environment that
does not look at the texts these steps type.

* `SameCall`, `StepAlike`, `WorkflowAlike`: what may differ; `StepResult.untimed`: a result without
  its time.
* `StepMatch`, `stepBody_match`, **`executeStep_alike`**: one step.
* `ControlAlike`, `RunAlike`: two states; `next_alike`: a move keeps them alike.
* **`secrets_stay_inside`**: results, registry and calls do not depend on the secrets.
-/

set_option autoImplicit false

namespace ScoutEngine

open Interaction

/-! ## What may differ -/

/-- Calls that differ at most in the text that a `fill_secret` step types. -/
inductive SameCall : Call → Call → Prop where
  | refl (c : Call) : SameCall c c
  | secret (target : Target) (selector t₁ t₂ : Option String) :
      SameCall (.typeText target selector t₁ true) (.typeText target selector t₂ true)

/-- Steps that differ at most in the value of a `fill_secret` step; the two values are equally long
and have no `${` in them. -/
inductive StepAlike : WorkflowStep → WorkflowStep → Prop where
  | refl (s : WorkflowStep) : StepAlike s s
  | secret (s : WorkflowStep) (t₁ t₂ : String) (ha : s.action = .fillSecret)
      (hlen : t₁.length = t₂.length) (h₁ : containsStr "$\x7b" t₁ = false)
      (h₂ : containsStr "$\x7b" t₂ = false) :
      StepAlike { s with value := some t₁ } { s with value := some t₂ }

/-- Workflows that differ at most in the values of their `fill_secret` steps. -/
structure WorkflowAlike (w₁ w₂ : Workflow) : Prop where
  settings : w₂.settings = w₁.settings
  steps : List.Forall₂ StepAlike w₁.steps w₂.steps
  cleanupSteps : List.Forall₂ StepAlike w₁.cleanupSteps w₂.cleanupSteps

/-- A step result without its time. -/
def StepResult.untimed (r : StepResult) : StepResult := { r with elapsedMs := 0 }

/-- An execution result without its times. -/
def ExecutionResult.untimed (r : ExecutionResult) : ExecutionResult :=
  { r with totalMs := 0, steps := r.steps.map StepResult.untimed }

theorem StepAlike.eq {s₁ s₂ : WorkflowStep} (h : StepAlike s₁ s₂) :
    s₂ = { s₁ with value := s₂.value } := by
  cases h <;> rfl

theorem StepAlike.eq_of_action {s₁ s₂ : WorkflowStep} (h : StepAlike s₁ s₂)
    (ha : s₁.action ≠ .fillSecret) : s₂ = s₁ := by
  cases h with
  | refl => rfl
  | secret s t₁ t₂ ha' => exact absurd ha' ha

/-- Interpolation keeps steps alike: the secrets have no tokens. -/
theorem StepAlike.resolve [PyText] {s₁ s₂ : WorkflowStep} (h : StepAlike s₁ s₂) (o : Outputs) :
    StepAlike (resolveStepRuntime s₁ o) (resolveStepRuntime s₂ o) := by
  cases h with
  | refl => exact .refl _
  | secret s t₁ t₂ ha hlen h₁ h₂ =>
    unfold resolveStepRuntime
    split_ifs
    · exact .secret s t₁ t₂ ha hlen h₁ h₂
    · have key : ∀ t : String, containsStr "$\x7b" t = false →
          WorkflowStep.mapText (substitute o.text) { s with value := some t } =
            { s.mapText (substitute o.text) with value := some t } := by
        intro t ht
        unfold WorkflowStep.mapText
        rw [Option.map_some, substitute_of_no_token _ ht]
      rw [key t₁ h₁, key t₂ h₂]
      exact .secret _ t₁ t₂ ha hlen h₁ h₂

/-! ## One step -/

/-- Programs that make the same calls, apart from secrets, and end alike. -/
def StepMatch {α : Type} (p₁ p₂ : StepM α) : Prop :=
  ∀ m, Match SameCall Eq (p₁.run.run m) (p₂.run.run m)

theorem StepMatch.refl {α : Type} (p : StepM α) : StepMatch p p := fun _ =>
  Match.refl SameCall.refl (fun _ => rfl) _

theorem StepMatch.bind {α β : Type} {p₁ p₂ : StepM α} {f₁ f₂ : α → StepM β} (hp : StepMatch p₁ p₂)
    (hf : ∀ a, StepMatch (f₁ a) (f₂ a)) : StepMatch (p₁ >>= f₁) (p₂ >>= f₂) := by
  intro m
  rw [ExceptT.run_bind, ExceptT.run_bind, StateT.run_bind, StateT.run_bind]
  refine Match.bind (hp m) ?_
  rintro ⟨e | a, m'⟩ _ rfl
  · exact Match.refl SameCall.refl (fun _ => rfl) _
  · exact hf a m'

section Step

variable [PyText]

theorem StepMatch.call {c₁ c₂ : Call} (h : SameCall c₁ c₂) :
    StepMatch (call c₁) (call c₂) := fun _ =>
  .ask h fun _ => .ret rfl

/-- The `fill_secret` action puts out the number of characters only. -/
theorem fillSecret_match (target : Target) (s : WorkflowStep) {t₁ t₂ : String}
    (hlen : t₁.length = t₂.length) :
    StepMatch (fillSecret target { s with value := some t₁ })
      (fillSecret target { s with value := some t₂ }) := by
  have htype : StepMatch
      (do
        let _ ← ScoutEngine.call (.typeText target s.selector (some t₁) true)
        pure (PyVal.dict [("chars_typed", .int t₁.length)]))
      (do
        let _ ← ScoutEngine.call (.typeText target s.selector (some t₂) true)
        pure (PyVal.dict [("chars_typed", .int t₂.length)])) := by
    rw [hlen]
    exact .bind (.call (.secret _ _ _ _)) fun _ => .refl _
  unfold fillSecret
  dsimp only [Option.getD_some]
  split_ifs
  · exact .bind (.refl _) fun _ => htype
  · exact htype

/-- **A step and its screenshot.** -/
theorem stepBody_match (o : StepOptions) {s₁ s₂ : WorkflowStep} (h : StepAlike s₁ s₂)
    (m : NetworkMonitor) :
    Match SameCall Eq ((stepBody o s₁).run m) ((stepBody o s₂).run m) := by
  cases h with
  | refl => exact Match.refl SameCall.refl (fun _ => rfl) _
  | secret s t₁ t₂ ha hlen _ _ =>
    have haction : ∀ (target : Target) (t : String),
        runAction o { s with value := some t } target =
          fillSecret target { s with value := some t } := by
      intro target t
      unfold runAction
      dsimp only
      rw [ha]
    have hrun : StepMatch
        (resolveTarget s.frameContext >>= runAction o { s with value := some t₁ })
        (resolveTarget s.frameContext >>= runAction o { s with value := some t₂ }) := by
      refine .bind (.refl _) fun target => ?_
      rw [haction, haction]
      exact fillSecret_match target s hlen
    unfold stepBody
    rw [StateT.run_bind, StateT.run_bind]
    refine Match.bind (hrun m) ?_
    rintro ⟨out, m'⟩ _ rfl
    exact Match.refl SameCall.refl (fun _ => rfl) _

/-- **A step leaves alike what it leaves**, apart from its time. -/
theorem executeStep_alike {env : Env} (henv : Blind SameCall env.answer) (o : StepOptions)
    {s₁ s₂ : WorkflowStep} (h : StepAlike s₁ s₂) (m : NetworkMonitor) {calls₁ calls₂ : Calls}
    (hc : SameHistory SameCall calls₁ calls₂) :
    (executeStep env o s₁ m calls₁).1.untimed = (executeStep env o s₂ m calls₂).1.untimed ∧
      (executeStep env o s₁ m calls₁).2.1 = (executeStep env o s₂ m calls₂).2.1 ∧
        SameHistory SameCall (executeStep env o s₁ m calls₁).2.2
          (executeStep env o s₂ m calls₂).2.2 := by
  obtain ⟨hr, hh⟩ := (stepBody_match o h m).run henv hc
  unfold executeStep
  dsimp only
  rw [hr, h.eq]
  exact ⟨rfl, rfl, by rw [← h.eq]; exact hh⟩

end Step

/-! ## The variables -/

/-- Pauses of alike steps, for the same reason. -/
structure PauseAlike (p₁ p₂ : Pause) : Prop where
  step : StepAlike p₁.step p₂.step
  rest : p₂ = { p₁ with step := p₂.step }

/-- Other results, another pause and another trace. -/
def Control.over (R : List StepResult) (W : Option Pause) (T : List Ev) (c : Control) : Control :=
  { c with results := R, waiting := W, trace := T }

/-- Variables that agree apart from the times of the results, the step of a pause and the trace. -/
structure ControlAlike (c₁ c₂ : Control) : Prop where
  results : c₁.results.map StepResult.untimed = c₂.results.map StepResult.untimed
  waiting : Option.Rel PauseAlike c₁.waiting c₂.waiting
  rest : ∃ R W T, c₂ = c₁.over R W T

/-- What neither reads nor writes the results, the pause and the trace. -/
def Passive (f : Control → Control) : Prop :=
  ∀ R W T c, f (Control.over R W T c) = Control.over R W T (f c)

namespace Passive

theorem goto (n : ℕ) (v : PyVal) : Passive (Control.goto n v) := by
  intro R W T c
  cases v with
  | float f =>
    unfold Control.goto
    by_cases hf : f.ltInt n
    · simp only [if_pos hf]
      rfl
    · simp only [if_neg hf]
      rfl
  | _ => rfl

theorem branch (step : WorkflowStep) (r : StepResult) : Passive (Control.branch step r) := by
  intro R W T c
  unfold Control.branch
  dsimp only
  split_ifs
  · rfl
  · cases r.outputData.getKey "jump_to" <;> rfl
  · rfl

theorem startLoop (step : WorkflowStep) (r : StepResult) : Passive (Control.startLoop step r) := by
  intro R W T c
  unfold Control.startLoop
  dsimp only
  split_ifs
  · rfl
  · rfl
  · rfl

theorem checkLoop (step : WorkflowStep) : Passive (Control.checkLoop step) := by
  intro R W T c
  have hs : (Control.over R W T c).loopStack = c.loopStack := rfl
  unfold Control.checkLoop
  rw [hs]
  cases c.loopStack with
  | nil => rfl
  | cons f rest =>
    dsimp only
    have hi : (Control.over R W T c).stepIdx = c.stepIdx := rfl
    rw [hi]
    split_ifs
    · rfl
    · rfl
    · rfl

theorem advance (step : WorkflowStep) (r : StepResult) : Passive (Control.advance step r) := by
  intro R W T c
  unfold Control.advance
  rw [branch, startLoop, checkLoop]
  rfl

end Passive

namespace ControlAlike

variable {c₁ c₂ : Control}

theorem map (h : ControlAlike c₁ c₂) {f : Control → Control} (hf : Passive f) :
    ControlAlike (f c₁) (f c₂) := by
  obtain ⟨hr, hw, R, W, T, rfl⟩ := h
  have hfix : f c₁ = Control.over c₁.results c₁.waiting c₁.trace (f c₁) :=
    hf c₁.results c₁.waiting c₁.trace c₁
  rw [hf]
  refine ⟨?_, ?_, R, W, T, rfl⟩
  · rw [hfix]
    exact hr
  · rw [hfix]
    exact hw

theorem reads (h : ControlAlike c₁ c₂) {α : Type} {g : Control → α}
    (hg : ∀ R W T c, g (Control.over R W T c) = g c) : g c₂ = g c₁ := by
  obtain ⟨-, -, R, W, T, rfl⟩ := h
  exact hg R W T c₁

theorem stepIdx (h : ControlAlike c₁ c₂) : c₂.stepIdx = c₁.stepIdx := h.reads fun _ _ _ _ => rfl

theorem outputs (h : ControlAlike c₁ c₂) : c₂.outputs = c₁.outputs := h.reads fun _ _ _ _ => rfl

theorem halt (h : ControlAlike c₁ c₂) : c₂.halt = c₁.halt := h.reads fun _ _ _ _ => rfl

theorem failed (h : ControlAlike c₁ c₂) : c₂.failed = c₁.failed := h.reads fun _ _ _ _ => rfl

theorem passed (h : ControlAlike c₁ c₂) : c₂.passed = c₁.passed := h.reads fun _ _ _ _ => rfl

theorem paused (h : ControlAlike c₁ c₂) : c₂.paused = c₁.paused := h.reads fun _ _ _ _ => rfl

theorem log (h : ControlAlike c₁ c₂) (e₁ e₂ : Ev) : ControlAlike (c₁.log e₁) (c₂.log e₂) := by
  obtain ⟨hr, hw, R, W, T, rfl⟩ := h
  exact ⟨hr, hw, R, W, _, rfl⟩

theorem record (h : ControlAlike c₁ c₂) {r₁ r₂ : StepResult} (hr : r₁.untimed = r₂.untimed) :
    ControlAlike (c₁.record r₁) (c₂.record r₂) := by
  obtain ⟨hrs, hw, R, W, T, rfl⟩ := h
  refine ⟨?_, hw, _, W, _, rfl⟩
  show (c₁.results ++ [r₁]).map _ = (R ++ [r₂]).map _
  rw [List.map_append, List.map_append, List.map_singleton, List.map_singleton, hr]
  exact congrArg (· ++ _) hrs

theorem waitFor (h : ControlAlike c₁ c₂) {p₁ p₂ : Pause} (hp : PauseAlike p₁ p₂) :
    ControlAlike (c₁.waitFor p₁) (c₂.waitFor p₂) := by
  obtain ⟨hr, -, R, W, T, rfl⟩ := h
  exact ⟨hr, .some hp, R, _, _, rfl⟩

theorem woken (h : ControlAlike c₁ c₂) (p₁ p₂ : Pause) (i : ResumeInstruction) :
    ControlAlike (c₁.woken p₁ i) (c₂.woken p₂ i) := by
  obtain ⟨hr, -, R, W, T, rfl⟩ := h
  exact ⟨hr, .none, R, _, _, rfl⟩

theorem passHandoff (h : ControlAlike c₁ c₂) {r₁ r₂ : StepResult} (hr : r₁.untimed = r₂.untimed) :
    ControlAlike (c₁.passHandoff r₁) (c₂.passHandoff r₂) := by
  have hpass : Passive fun c => { c with passed := c.passed + 1 } := fun _ _ _ _ => rfl
  exact (h.record hr).map hpass

end ControlAlike

/-! ## States -/

/-- **States that agree apart from the times and the texts that were typed in secret.** -/
structure RunAlike (s₁ s₂ : RunState) : Prop where
  control : ControlAlike s₁.toControl s₂.toControl
  monitor : s₁.monitor = s₂.monitor
  sessions : s₁.sessions = s₂.sessions
  published : s₁.published = s₂.published
  calls : SameHistory SameCall s₁.calls s₂.calls

/-- The arguments of a run, for another workflow. -/
def Config.withWorkflow (cfg : Config) (w : Workflow) : Config := { cfg with workflow := w }

namespace RunAlike

variable {s₁ s₂ : RunState}

theorem mapControl (h : RunAlike s₁ s₂) {f₁ f₂ : Control → Control}
    (hf : ControlAlike (f₁ s₁.toControl) (f₂ s₂.toControl)) :
    RunAlike (s₁.control f₁) (s₂.control f₂) :=
  ⟨hf, h.monitor, h.sessions, h.published, h.calls⟩

theorem passive (h : RunAlike s₁ s₂) {f : Control → Control} (hf : Passive f) :
    RunAlike (s₁.control f) (s₂.control f) := h.mapControl (h.control.map hf)

theorem stop (h : RunAlike s₁ s₂) (k : Halt) :
    RunAlike (s₁.control (Control.stop k)) (s₂.control (Control.stop k)) :=
  h.passive fun _ _ _ _ => rfl

theorem stepIdx (h : RunAlike s₁ s₂) : s₂.stepIdx = s₁.stepIdx := h.control.stepIdx

theorem outputs (h : RunAlike s₁ s₂) : s₂.outputs = s₁.outputs := h.control.outputs

theorem halt (h : RunAlike s₁ s₂) : s₂.halt = s₁.halt := h.control.halt

theorem publish (h : RunAlike s₁ s₂) (cfg : Config) (w : Workflow)
    (f : String → Sessions → Sessions) :
    RunAlike (s₁.publish cfg f) (s₂.publish (cfg.withWorkflow w) f) := by
  unfold RunState.publish
  show RunAlike _ (if cfg.hasId then _ else _)
  split_ifs
  · refine ⟨h.control, h.monitor, ?_, ?_, h.calls⟩
    · exact congrArg (f cfg.id) h.sessions
    · show s₁.published ++ [f cfg.id s₁.sessions] = s₂.published ++ [f cfg.id s₂.sessions]
      rw [h.published, h.sessions]
  · exact h

theorem exec (h : RunAlike s₁ s₂) {env : Env} (henv : Blind SameCall env.answer) {α : Type}
    (p : StepM α) : (s₁.exec env p).1 = (s₂.exec env p).1 ∧
      RunAlike (s₁.exec env p).2 (s₂.exec env p).2 := by
  obtain ⟨hr, hh⟩ := (StepMatch.refl p s₁.monitor).run henv h.calls
  have hp : (p.run.run s₂.monitor) = (p.run.run s₁.monitor) := by rw [h.monitor]
  unfold RunState.exec eval
  dsimp only
  rw [hp]
  exact ⟨congrArg Prod.fst hr, h.control, congrArg Prod.snd hr, h.sessions, h.published, hh⟩

theorem andThen (h : RunAlike s₁ s₂) {env : Env} (henv : Blind SameCall env.answer) (p : StepM Unit)
    {k₁ k₂ : RunState → RunState}
    (hk : ∀ {t₁ t₂ : RunState}, RunAlike t₁ t₂ → RunAlike (k₁ t₁) (k₂ t₂)) :
    RunAlike (s₁.andThen env p k₁) (s₂.andThen env p k₂) := by
  obtain ⟨hr, hs⟩ := h.exec henv p
  unfold RunState.andThen
  rcases h₁ : s₁.exec env p with ⟨e | _, t₁⟩ <;> rcases h₂ : s₂.exec env p with ⟨e' | _, t₂⟩ <;>
    rw [h₁, h₂] at hr hs
  · cases hr
    exact hs.stop _
  · cases hr
  · cases hr
  · exact hk hs

end RunAlike

/-! ## Moves -/

section Moves

variable [PyText] {cfg : Config} {w : Workflow} {env : Env} {s₁ s₂ : RunState}
  {step₁ step₂ : WorkflowStep}

omit [PyText] in
theorem waitForResume_alike (h : RunAlike s₁ s₂) {p₁ p₂ : Pause} (hp : PauseAlike p₁ p₂) :
    RunAlike (waitForResume cfg p₁ s₁) (waitForResume (cfg.withWorkflow w) p₂ s₂) := by
  have hinfo : p₂.info = p₁.info := by
    rw [hp.rest]
    unfold Pause.info
    dsimp only
    rw [hp.step.eq]
  have hkind : p₂.kind = p₁.kind := by rw [hp.rest]
  unfold waitForResume
  rw [hinfo, hkind]
  have hpub := h.publish cfg w fun id => Sessions.setPaused id p₁.kind.state p₁.info
  exact hpub.mapControl (hpub.control.waitFor hp)

omit [PyText] in
theorem showStep_alike (h : RunAlike s₁ s₂) (hstep : StepAlike step₁ step₂) :
    RunAlike (showStep cfg step₁ s₁) (showStep (cfg.withWorkflow w) step₂ s₂) := by
  rw [hstep.eq]
  exact h.publish cfg w _

omit [PyText] in
theorem WorkflowAlike.length_eq (hw : WorkflowAlike cfg.workflow w) :
    (cfg.withWorkflow w).steps.length = cfg.steps.length := hw.steps.length_eq.symm

omit [PyText] in
theorem WorkflowAlike.settings_eq (hw : WorkflowAlike cfg.workflow w) :
    (cfg.withWorkflow w).workflow.settings = cfg.workflow.settings := hw.settings

theorem endHandoff_alike (henv : Blind SameCall env.answer) (hw : WorkflowAlike cfg.workflow w)
    (h : RunAlike s₁ s₂) (hstep : StepAlike step₁ step₂) (v : PyVal) :
    RunAlike (endHandoff cfg env step₁ v s₁)
      (endHandoff (cfg.withWorkflow w) env step₂ v s₂) := by
  unfold endHandoff
  dsimp only
  rw [hw.length_eq, hstep.eq]
  refine (h.mapControl (h.control.passHandoff rfl)).andThen henv _ fun ht => ?_
  exact (ht.publish cfg w _).passive (.goto _ v)

theorem abortHandoff_alike (henv : Blind SameCall env.answer) (h : RunAlike s₁ s₂)
    (hstep : StepAlike step₁ step₂) :
    RunAlike (abortHandoff cfg env step₁ s₁)
      (abortHandoff (cfg.withWorkflow w) env step₂ s₂) := by
  rw [hstep.eq]
  exact (h.mapControl (h.control.record rfl)).andThen henv _ fun ht => ht.stop _

theorem handoff_alike (henv : Blind SameCall env.answer) (hw : WorkflowAlike cfg.workflow w)
    (h : RunAlike s₁ s₂) (step : WorkflowStep) :
    RunAlike (handoff cfg env step s₁) (handoff (cfg.withWorkflow w) env step s₂) := by
  have hshow : RunAlike (showStep cfg step s₁) (showStep (cfg.withWorkflow w) step s₂) :=
    showStep_alike h (.refl step)
  unfold handoff
  show RunAlike _ (if cfg.canPause then _ else _)
  dsimp only
  rw [hshow.stepIdx]
  split_ifs
  · exact waitForResume_alike hshow ⟨.refl step, rfl⟩
  · exact endHandoff_alike henv hw hshow (.refl step) _

omit [PyText] in
/-- What follows a step reads its action, and the status and the output of its result. -/
theorem advance_alike (hstep : StepAlike step₁ step₂) {r₁ r₂ : StepResult}
    (hr : r₁.untimed = r₂.untimed) (c : Control) : c.advance step₂ r₂ = c.advance step₁ r₁ := by
  have haction : step₂.action = step₁.action := by rw [hstep.eq]
  have hstatus : r₂.status = r₁.status := (congrArg StepResult.status hr).symm
  have hdata : r₂.outputData = r₁.outputData := (congrArg StepResult.outputData hr).symm
  unfold Control.advance Control.branch Control.startLoop Control.checkLoop
  rw [haction, hstatus, hdata]

theorem capture_alike (hstep : StepAlike step₁ step₂) {r₁ r₂ : StepResult}
    (hr : r₁.untimed = r₂.untimed) (c : Control) : c.capture step₂ r₂ = c.capture step₁ r₁ := by
  have haction : step₂.action = step₁.action := by rw [hstep.eq]
  have houtput : step₂.outputVar = step₁.outputVar := by rw [hstep.eq]
  have hstatus : r₂.status = r₁.status := (congrArg StepResult.status hr).symm
  have hdata : r₂.outputData = r₁.outputData := (congrArg StepResult.outputData hr).symm
  unfold Control.capture Control.captured
  rw [haction, houtput, hstatus, hdata]

theorem notify_alike {r₁ r₂ : StepResult} (hr : r₁.untimed = r₂.untimed) :
    notify (cfg.withWorkflow w) r₂ = notify cfg r₁ := by
  have horder : r₂.stepOrder = r₁.stepOrder := (congrArg StepResult.stepOrder hr).symm
  have hstatus : r₂.status = r₁.status := (congrArg StepResult.status hr).symm
  have hcallback : (cfg.withWorkflow w).hasCallback = cfg.hasCallback := rfl
  unfold notify
  rw [horder, hstatus, hcallback]

omit [PyText] in
theorem account_alike (hw : WorkflowAlike cfg.workflow w) (h : RunAlike s₁ s₂)
    (hstep : StepAlike step₁ step₂) {r₁ r₂ : StepResult} (hr : r₁.untimed = r₂.untimed) :
    RunAlike (account cfg step₁ r₁ s₁) (account (cfg.withWorkflow w) step₂ r₂ s₂) := by
  have hadv := advance_alike hstep hr
  have hstatus : r₂.status = r₁.status := (congrArg StepResult.status hr).symm
  have herror : r₂.error = r₁.error := (congrArg StepResult.error hr).symm
  have hpolicy : (cfg.withWorkflow w).policy step₂ = cfg.policy step₁ := by
    unfold Config.policy
    rw [hw.settings_eq, hstep.eq]
  have hcount : Passive Control.countPass := fun _ _ _ _ => rfl
  have hfail : Passive Control.countFail := fun _ _ _ _ => rfl
  have hf := h.passive hfail
  have hcan : (cfg.withWorkflow w).canPause = cfg.canPause := rfl
  unfold account
  rw [hstatus, hpolicy, hw.settings_eq, hcan]
  cases r₁.status with
  | passed =>
    refine h.mapControl ?_
    rw [hadv]
    exact (h.control.map hcount).map (.advance step₁ r₁)
  | failed =>
    dsimp only
    rw [hf.stepIdx, hf.control.paused]
    split_ifs
    · have hpaused : Passive fun c => { c with paused := insert c.stepIdx c.paused } :=
        fun _ _ _ _ => rfl
      refine waitForResume_alike (hf.passive hpaused) ⟨hstep, ?_⟩
      unfold errorPause
      rw [herror]
    · cases cfg.policy step₁ with
      | stop => exact hf.stop _
      | «continue» =>
        refine hf.mapControl ?_
        rw [hadv]
        exact hf.control.map (.advance step₁ r₁)
      | retry =>
        refine hf.mapControl ?_
        rw [hadv]
        exact hf.control.map (.advance step₁ r₁)

theorem normalStep_alike (henv : Blind SameCall env.answer) (hw : WorkflowAlike cfg.workflow w)
    (h : RunAlike s₁ s₂) (hstep : StepAlike step₁ step₂) :
    RunAlike (normalStep cfg env step₁ (account cfg step₁) s₁)
      (normalStep (cfg.withWorkflow w) env step₂ (account (cfg.withWorkflow w) step₂) s₂) := by
  have hshow : RunAlike (showStep cfg step₁ s₁) (showStep (cfg.withWorkflow w) step₂ s₂) :=
    showStep_alike h hstep
  have hoptions : (cfg.withWorkflow w).options = cfg.options := by
    unfold Config.options
    rw [hw.settings_eq]
    rfl
  obtain ⟨hr, hm, hc⟩ :=
    executeStep_alike henv cfg.options hstep (showStep cfg step₁ s₁).monitor hshow.calls
  unfold normalStep
  dsimp only
  rw [hoptions, ← hshow.monitor]
  generalize executeStep env cfg.options step₁ (showStep cfg step₁ s₁).monitor
    (showStep cfg step₁ s₁).calls = r₁ at hr hm hc ⊢
  generalize executeStep env cfg.options step₂ (showStep cfg step₁ s₁).monitor
    (showStep (cfg.withWorkflow w) step₂ s₂).calls = r₂ at hr hm hc ⊢
  have hpassive : Passive (Control.capture step₁ r₁.1) := fun _ _ _ _ => rfl
  have hran : RunAlike { showStep cfg step₁ s₁ with monitor := r₁.2.1, calls := r₁.2.2 }
      { showStep (cfg.withWorkflow w) step₂ s₂ with monitor := r₂.2.1, calls := r₂.2.2 } :=
    ⟨hshow.control, hm, hshow.sessions, hshow.published, hc⟩
  rw [notify_alike hr]
  have hrec : ControlAlike
      (((showStep cfg step₁ s₁).toControl.record r₁.1).capture step₁ r₁.1)
      (((showStep (cfg.withWorkflow w) step₂ s₂).toControl.record r₂.1).capture step₂ r₂.1) := by
    rw [capture_alike hstep hr]
    exact (hshow.control.record hr).map hpassive
  exact ((hran.mapControl hrec).publish cfg w _).andThen henv _ fun ht => account_alike hw ht hstep hr

omit [PyText] in
theorem pyGet_alike {l₁ l₂ : List WorkflowStep} (h : List.Forall₂ StepAlike l₁ l₂) (i : ℤ) :
    Option.Rel StepAlike (pyGet l₁ i) (pyGet l₂ i) := by
  have hget : ∀ n : ℕ, Option.Rel StepAlike l₁[n]? l₂[n]? := by
    induction h with
    | nil => exact fun _ => .none
    | cons hab _ ih =>
      intro n
      cases n with
      | zero => exact .some hab
      | succ n => exact ih n
  unfold pyGet
  rw [← h.length_eq]
  split_ifs
  · exact hget _
  · exact hget _
  · exact .none

theorem lookAhead_alike {n₁ n₂ : Option WorkflowStep} (h : Option.Rel StepAlike n₁ n₂) :
    lookAhead n₂ = lookAhead n₁ := by
  cases h with
  | none => rfl
  | some h =>
    rw [h.eq]
    rfl

theorem beginStep_alike (henv : Blind SameCall env.answer) (hw : WorkflowAlike cfg.workflow w)
    (h : RunAlike s₁ s₂) (hstep : StepAlike step₁ step₂) :
    RunAlike (beginStep cfg env step₁ (account cfg step₁) s₁)
      (beginStep (cfg.withWorkflow w) env step₂ (account (cfg.withWorkflow w) step₂) s₂) := by
  have hnext : Option.Rel StepAlike
      (if s₁.stepIdx + 1 < cfg.steps.length then pyGet cfg.steps (s₁.stepIdx + 1) else none)
      (if s₁.stepIdx + 1 < cfg.steps.length then
        pyGet (cfg.withWorkflow w).steps (s₁.stepIdx + 1) else none) := by
    split_ifs
    · exact pyGet_alike hw.steps _
    · exact .none
  have haction : step₂.action = step₁.action := by rw [hstep.eq]
  unfold beginStep
  dsimp only
  rw [hw.length_eq, h.stepIdx, lookAhead_alike hnext, haction]
  refine (h.mapControl (h.control.log _ _)).andThen henv _ fun ht => ?_
  split_ifs with ha
  · rw [hstep.eq_of_action (by rw [ha]; exact nofun)]
    exact handoff_alike henv hw ht step₁
  · exact normalStep_alike henv hw ht hstep

/-- **A loop head.** -/
theorem head_alike (henv : Blind SameCall env.answer) (hw : WorkflowAlike cfg.workflow w)
    (h : RunAlike s₁ s₂) (x : Input) :
    RunAlike (head cfg env x s₁) (head (cfg.withWorkflow w) env x s₂) := by
  have hcan : (cfg.withWorkflow w).canPause = cfg.canPause := rfl
  unfold head
  rw [hw.length_eq, h.stepIdx, h.outputs, hcan]
  by_cases hlt : s₁.stepIdx < cfg.steps.length
  · have hget : Option.Rel StepAlike (pyGet cfg.steps s₁.stepIdx)
        (pyGet (cfg.withWorkflow w).steps s₁.stepIdx) := pyGet_alike hw.steps _
    rw [if_pos hlt, if_pos hlt]
    generalize pyGet cfg.steps s₁.stepIdx = raw₁ at hget ⊢
    generalize pyGet (cfg.withWorkflow w).steps s₁.stepIdx = raw₂ at hget ⊢
    cases hget with
    | none => exact h.stop _
    | some hraw =>
      have hstep := hraw.resolve s₁.outputs
      dsimp only
      split_ifs
      · exact h.stop _
      · exact waitForResume_alike h ⟨hstep, rfl⟩
      · exact beginStep_alike henv hw h hstep
  · rw [if_neg hlt, if_neg hlt]
    exact h.stop _

/-- **A wake-up.** -/
theorem wake_alike (henv : Blind SameCall env.answer) (hw : WorkflowAlike cfg.workflow w)
    (h : RunAlike s₁ s₂) {p₁ p₂ : Pause} (hp : PauseAlike p₁ p₂) (x : Input) :
    RunAlike (wake cfg env p₁ x s₁) (wake (cfg.withWorkflow w) env p₂ x s₂) := by
  have hkind : p₂.kind = p₁.kind := by rw [hp.rest]
  have hpub := h.publish cfg w fun id => Sessions.setRunning id
  unfold wake
  generalize x.resume.getD { action := .abort } = i
  have hwoken := hpub.mapControl (hpub.control.woken p₁ p₂ i)
  dsimp only
  rw [hw.length_eq, hkind, hwoken.stepIdx]
  generalize (s₁.publish cfg fun id => Sessions.setRunning id).control (Control.woken p₁ i) = t₁
    at hwoken ⊢
  generalize (s₂.publish (cfg.withWorkflow w) fun id => Sessions.setRunning id).control
    (Control.woken p₂ i) = t₂ at hwoken ⊢
  cases p₁.kind with
  | requested => exact hwoken.passive (.goto _ _)
  | handoff =>
    dsimp only
    split_ifs
    · exact abortHandoff_alike henv hwoken hp.step
    · exact endHandoff_alike henv hw hwoken hp.step _
  | error =>
    have hretrying : Passive (Control.setRetrying i) := fun _ _ _ _ => rfl
    exact (hwoken.passive hretrying).passive (.goto _ _)

/-- **A move keeps alike states alike.** -/
theorem next_alike (henv : Blind SameCall env.answer) (hw : WorkflowAlike cfg.workflow w)
    (h : RunAlike s₁ s₂) (x : Input) :
    RunAlike (next cfg env x s₁) (next (cfg.withWorkflow w) env x s₂) := by
  have hwait := h.control.waiting
  unfold next
  rw [h.halt]
  cases s₁.halt with
  | some k => exact h
  | none =>
    dsimp only
    generalize s₁.waiting = p₁ at hwait ⊢
    generalize s₂.waiting = p₂ at hwait ⊢
    cases hwait with
    | none => exact head_alike henv hw h x
    | some hp => exact wake_alike henv hw h hp x

/-! ## Runs -/

omit [PyText] in
theorem RunAlike.refl (s : RunState) : RunAlike s s := by
  have hwait : ∀ p : Option Pause, Option.Rel PauseAlike p p
    | none => .none
    | some p => .some ⟨.refl p.step, rfl⟩
  have hcalls : ∀ calls : Calls, SameHistory SameCall calls calls := fun calls =>
    List.forall₂_same.mpr fun _ _ => ⟨.refl _, rfl⟩
  exact ⟨⟨rfl, hwait _, s.results, s.waiting, s.trace, rfl⟩, rfl, rfl, rfl, hcalls _⟩

theorem entry_alike (hw : WorkflowAlike cfg.workflow w) :
    RunAlike (entry cfg env) (entry (cfg.withWorkflow w) env) := by
  have hsetUp : setUp (cfg.withWorkflow w) = setUp cfg := by
    unfold setUp
    rw [hw.settings_eq]
    rfl
  have heq : entry (cfg.withWorkflow w) env = entry cfg env := by
    unfold entry
    rw [hsetUp]
    rfl
  rw [heq]
  exact .refl _

/-- **Runs with the same events stay alike.** -/
theorem execution_alike (henv : Blind SameCall env.answer) (hw : WorkflowAlike cfg.workflow w)
    (x : ℕ → Input) (n : ℕ) :
    RunAlike (execution cfg env (fun i _ => x i) n)
      (execution (cfg.withWorkflow w) env (fun i _ => x i) n) := by
  induction n with
  | zero => exact entry_alike hw
  | succ n ih => exact next_alike henv hw ih (x n)

theorem cleanup_alike (henv : Blind SameCall env.answer) (hw : WorkflowAlike cfg.workflow w)
    {steps₁ steps₂ : List WorkflowStep} (hsteps : List.Forall₂ StepAlike steps₁ steps₂) :
    ∀ {s₁ s₂ : RunState}, RunAlike s₁ s₂ →
      RunAlike (cleanup cfg env steps₁ s₁) (cleanup (cfg.withWorkflow w) env steps₂ s₂) := by
  have hoptions : (cfg.withWorkflow w).cleanupOptions = cfg.cleanupOptions := by
    unfold Config.cleanupOptions Config.options
    rw [hw.settings_eq]
  induction hsteps with
  | nil => exact fun h => h
  | cons hstep _ ih =>
    intro s₁ s₂ h
    obtain ⟨-, hm, hc⟩ := executeStep_alike henv cfg.cleanupOptions hstep s₁.monitor h.calls
    unfold cleanup
    dsimp only
    rw [hoptions, ← h.monitor]
    exact ih ⟨h.control, hm, h.sessions, h.published, hc⟩

theorem leave_alike (henv : Blind SameCall env.answer) (hw : WorkflowAlike cfg.workflow w)
    (h : RunAlike s₁ s₂) : RunAlike (leave cfg env s₁) (leave (cfg.withWorkflow w) env s₂) := by
  have hstop : RunAlike { s₁ with monitor := s₁.monitor.stop }
      { s₂ with monitor := s₂.monitor.stop } :=
    ⟨h.control, congrArg NetworkMonitor.stop h.monitor, h.sessions, h.published, h.calls⟩
  have hclean := cleanup_alike henv hw hw.cleanupSteps hstop
  exact ((hclean.publish cfg w _).exec henv _).2

omit [PyText] in
theorem result_alike (h : RunAlike s₁ s₂) :
    (result env s₁).untimed = (result env s₂).untimed := by
  unfold result ExecutionResult.untimed finalStatus
  dsimp only
  rw [h.halt, h.control.failed, h.control.passed, h.outputs, h.control.results]

theorem finish_alike (henv : Blind SameCall env.answer) (hw : WorkflowAlike cfg.workflow w)
    (h : RunAlike s₁ s₂) :
    (finish cfg env s₁).1.map ExecutionResult.untimed =
        (finish (cfg.withWorkflow w) env s₂).1.map ExecutionResult.untimed ∧
      RunAlike (finish cfg env s₁).2 (finish (cfg.withWorkflow w) env s₂).2 := by
  have hleave := leave_alike henv hw h
  unfold finish
  rw [h.halt]
  split
  · exact ⟨rfl, h⟩
  · exact ⟨rfl, hleave⟩
  · exact ⟨congrArg Except.ok (result_alike hleave), hleave⟩

/-- **Runs that look the same from outside**: the registry and every content it has had, and the
calls apart from the texts typed in secret. -/
structure LooksAlike (s₁ s₂ : RunState) : Prop where
  sessions : s₁.sessions = s₂.sessions
  published : s₁.published = s₂.published
  calls : SameHistory SameCall s₁.calls s₂.calls

omit [PyText] in
theorem RunAlike.looks (h : RunAlike s₁ s₂) : LooksAlike s₁ s₂ := ⟨h.sessions, h.published, h.calls⟩

/-- **Secrets stay inside.** In an environment that does not look at the texts typed by
`fill_secret` steps, the results, the registry and the calls do not depend on them. -/
theorem secrets_stay_inside (cfg : Config) (w : Workflow) (env : Env)
    (henv : Blind SameCall env.answer) (hw : WorkflowAlike cfg.workflow w) (x : ℕ → Input) (n : ℕ) :
    let run₁ := execution cfg env (fun i _ => x i) n
    let run₂ := execution (cfg.withWorkflow w) env (fun i _ => x i) n
    run₁.halt = run₂.halt ∧ LooksAlike run₁ run₂ ∧
      (finish cfg env run₁).1.map ExecutionResult.untimed =
        (finish (cfg.withWorkflow w) env run₂).1.map ExecutionResult.untimed ∧
      LooksAlike (finish cfg env run₁).2 (finish (cfg.withWorkflow w) env run₂).2 := by
  intro run₁ run₂
  have h : RunAlike run₁ run₂ := execution_alike henv hw x n
  obtain ⟨hres, hfin⟩ := finish_alike henv hw h
  exact ⟨h.halt.symm, h.looks, hres, hfin.looks⟩

end Moves

section Example

attribute [local instance] asciiText

/-- A step that types a password. -/
def passwordStep : WorkflowStep where
  order := 1
  order_pos := WorkflowStep.order_one
  name := "Password"
  action := .fillSecret
  selector := some "#password"
  outputVar := some "typed"

/-- A login with this password. -/
def login (password : String) : Config where
  workflow := { steps := [{ passwordStep with value := some password }] }

/-- A page that takes any password. -/
def loginPage : Env where
  answer _ _ := { result := .ok .none }
  clock calls := calls.length

theorem secrets_stay_inside_login :
    LooksAlike (execution (login "hunter2") loginPage (fun _ _ => {}) 2)
      (execution (login "letmein") loginPage (fun _ _ => {}) 2) := by
  have hw : WorkflowAlike (login "hunter2").workflow (login "letmein").workflow :=
    ⟨rfl, .cons (.secret passwordStep "hunter2" "letmein" rfl (by decide +kernel)
      (by decide +kernel) (by decide +kernel)) .nil, .nil⟩
  have hlogin : (login "hunter2").withWorkflow (login "letmein").workflow = login "letmein" := rfl
  have h := secrets_stay_inside (login "hunter2") (login "letmein").workflow loginPage
    (fun _ _ _ _ _ _ => rfl) hw (fun _ => {}) 2
  rw [hlogin] at h
  exact h.2.1

end Example

end ScoutEngine
