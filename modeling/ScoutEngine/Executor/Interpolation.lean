import ScoutEngine.Executor.Monitor
import ScoutEngine.Passes
import ScoutEngine.Resolution

/-!
# Interpolation

The declared variables are interpolated before a run, in ten fields of the main steps and of the
cleanup steps, and the outputs before a main step begins, in the same fields. The frame context and
the method, the header names and the header values of a request are interpolated at neither time,
and the outputs in no cleanup step and not in the URL pattern that the look-ahead hands over.

* `StepField`, `WorkflowStep.strings`, `handedFields`; **`executeStep_only`**: the calls of a step
  depend on no string but those it hands over and those it looks at itself.
* `Trace`, `Trace.pass`; `declaredTrace_of`, `runtimeTrace_of`: the strings of a step, with the
  tokens of the template that they still hold.
* `Interpolated`, `Avoids`; **`interpolated_iff`**: interpolation is complete in a run iff the
  fields that are left out hold no token that is bound.
* `frame_left`: a declared variable in a frame context is handed to the driver as a token.
-/

set_option autoImplicit false

namespace ScoutEngine

open Interaction

open Template (Seg Mixed)

/-! ## What a step hands over -/

/-- The strings of a step that an action can hand over. -/
inductive StepField where
  | text (k : TextField)
  | frameContext | method | headerNames | headerValues
  deriving DecidableEq

/-- The strings of a field. -/
def WorkflowStep.strings (s : WorkflowStep) : StepField → List String
  | .text k => (s.text k).toList
  | .frameContext => s.frameContext.toList
  | .method => s.method.toList
  | .headerNames => (s.headers.getD []).map Prod.fst
  | .headerValues => (s.headers.getD []).map Prod.snd

section Handed

variable [PyText]

/-- The fields that a step hands to the driver, the HTTP client, the file system or the monitor. -/
def handedFields (o : StepOptions) (s : WorkflowStep) : List StepField :=
  .frameContext ::
    match s.action with
    | .navigate | .navigateNewTab | .pressKey | .runJs => [.text .value]
    | .click =>
      if s.selector.getD "" ≠ "" ∧ selectorTargetsIframe (s.selector.getD "") then []
      else [.text .selector]
    | .clear | .hover => [.text .selector]
    | .type | .select | .fillSecret | .uploadFile => [.text .selector, .text .value]
    | .wait => if s.selector.getD "" ≠ "" then [.text .selector] else []
    | .waitForResponse => if o.hasMonitor then [.text .urlPattern] else []
    | .extract => if s.outputVar.getD "" = "" then [] else [.text .value]
    | .httpRequest =>
      [.method, .text .value, .headerNames, .headerValues, .text .body, .text .auth]
    | .fileOp =>
      match s.operation with
      | some "mkdir" => [.text .destination]
      | some "copy" => [.text .source, .text .destination]
      | some "write" => [.text .destination, .text .content]
      | some "glob" => [.text .pattern, .text .source]
      | some "list" => [.text .source]
      | _ => []
    | .scroll | .waitForDownload | .conditional | .loop | .handoff => []

/-- The fields that an action only looks at itself: a direction or a number, and the selector of a
click on an iframe. -/
def looksAt (s : WorkflowStep) : List StepField :=
  match s.action with
  | .scroll | .wait => [.text .value]
  | .click => [.text .selector]
  | _ => []

/-- The step without the strings of other fields. -/
def WorkflowStep.only (fields : List StepField) (s : WorkflowStep) : WorkflowStep :=
  let keep (k : TextField) (t : Option String) := if .text k ∈ fields then t else none
  { s with
    selector := keep .selector s.selector
    value := keep .value s.value
    urlPattern := keep .urlPattern s.urlPattern
    auth := keep .auth s.auth
    source := keep .source s.source
    destination := keep .destination s.destination
    content := keep .content s.content
    body := keep .body s.body
    compareTo := keep .compareTo s.compareTo
    pattern := keep .pattern s.pattern
    frameContext := if .frameContext ∈ fields then s.frameContext else none
    method := if .method ∈ fields then s.method else none
    headers := if .headerNames ∈ fields ∨ .headerValues ∈ fields then s.headers else none }

/-- Without a monitor the wait for a response raises before it looks at its pattern. -/
theorem waitForResponse_deaf {o : StepOptions} (h : o.hasMonitor = false)
    (pattern pattern' : Option String) (timeout : ℕ) :
    waitForResponse o pattern timeout = waitForResponse o pattern' timeout := by
  unfold waitForResponse
  rw [requireMonitor_deaf h, raise_bind, raise_bind]

theorem runAction_only (o : StepOptions) (s : WorkflowStep) (target : Target)
    (h : s.action ≠ .conditional ∧ s.action ≠ .loop) :
    runAction o (s.only (handedFields o s ++ looksAt s)) target = runAction o s target := by
  unfold runAction
  cases ha : s.action with
  | conditional => exact absurd ha h.1
  | loop => exact absurd ha h.2
  | fileOp =>
    simp only [WorkflowStep.only, handedFields, looksAt, ha, fileOp]
    split <;> simp_all
  | click => simp [WorkflowStep.only, looksAt, ha]
  | wait =>
    by_cases hs : s.selector.getD "" = ""
    · cases hsel : s.selector <;> simp_all [WorkflowStep.only, handedFields, looksAt, wait]
    · simp [WorkflowStep.only, handedFields, looksAt, ha, hs, wait]
  | extract =>
    by_cases hv : s.outputVar.getD "" = "" <;>
      simp [WorkflowStep.only, handedFields, looksAt, ha, hv]
  | waitForResponse =>
    cases ho : o.hasMonitor with
    | true => simp [WorkflowStep.only, handedFields, looksAt, ha, ho]
    | false =>
      simp only [WorkflowStep.only, ha]
      rw [waitForResponse_deaf ho]
  | fillSecret => simp [WorkflowStep.only, handedFields, looksAt, ha, fillSecret]
  | uploadFile => simp [WorkflowStep.only, handedFields, looksAt, ha, uploadFile]
  | httpRequest => simp [WorkflowStep.only, handedFields, looksAt, ha, httpRequest]
  | _ => simp [WorkflowStep.only, handedFields, looksAt, ha]

/-- A conditional or a loop makes no call. -/
theorem runAction_silent (env : Env) (o : StepOptions) {s : WorkflowStep} (target : Target)
    (m : NetworkMonitor) (calls : Calls) (h : s.action = .conditional ∨ s.action = .loop) :
    ∃ out, eval env (runAction o s target) m calls = ((out, m), calls) := by
  unfold runAction
  rcases h with h | h
  · simp only [h]
    cases conditionMet s with
    | ok met => exact ⟨_, rfl⟩
    | error e => exact ⟨_, rfl⟩
  · simp only [h]
    exact ⟨_, rfl⟩

theorem executeStep_silent (env : Env) (o : StepOptions) {s : WorkflowStep} (m : NetworkMonitor)
    (calls : Calls) (h : s.action = .conditional ∨ s.action = .loop) :
    (executeStep env o s m calls).2 =
      let r := eval env (resolveTarget s.frameContext) m calls
      let r' := eval env (screenshot o s) r.1.2 r.2
      (r'.1.2, r'.2) := by
  have hact : (eval env (resolveTarget s.frameContext >>= runAction o s) m calls).1.2 =
      (eval env (resolveTarget s.frameContext) m calls).1.2 ∧
      (eval env (resolveTarget s.frameContext >>= runAction o s) m calls).2 =
        (eval env (resolveTarget s.frameContext) m calls).2 := by
    rw [eval_bind]
    rcases eval env (resolveTarget s.frameContext) m calls with ⟨⟨_ | target, m'⟩, calls'⟩
    · exact ⟨rfl, rfl⟩
    · obtain ⟨out, hout⟩ := runAction_silent env o target m' calls' h
      dsimp only
      rw [hout]
      exact ⟨rfl, rfl⟩
  dsimp only
  rw [← hact.1, ← hact.2]
  unfold executeStep stepBody eval
  dsimp only
  rw [StateT.run_bind, run_bind]
  rcases run env.answer
    (((resolveTarget s.frameContext >>= runAction o s).run).run m) calls with ⟨⟨out, m'⟩, calls'⟩
  dsimp only
  rw [StateT.run_bind, run_bind]
  rfl

/-- **A step makes the same calls without the strings that it neither hands over nor looks at.** -/
theorem executeStep_only (env : Env) (o : StepOptions) (s : WorkflowStep) (m : NetworkMonitor)
    (calls : Calls) : (executeStep env o (s.only (handedFields o s ++ looksAt s)) m calls).2 =
      (executeStep env o s m calls).2 := by
  have hframe : (s.only (handedFields o s ++ looksAt s)).frameContext = s.frameContext := by
    simp [WorkflowStep.only, handedFields]
  by_cases h : s.action = .conditional ∨ s.action = .loop
  · have h' : (s.only (handedFields o s ++ looksAt s)).action = .conditional ∨
        (s.only (handedFields o s ++ looksAt s)).action = .loop := h
    rw [executeStep_silent env o m calls h, executeStep_silent env o m calls h', hframe]
    rfl
  · have hbody : stepBody o (s.only (handedFields o s ++ looksAt s)) = stepBody o s := by
      have hrun := fun target => runAction_only o s target (not_or.mp h)
      unfold stepBody
      rw [hframe, funext hrun]
      rfl
    unfold executeStep
    rw [hbody]

end Handed

/-! ## What is left of the template -/

/-- The strings of a step, field by field, each with the tokens of its template that it still
holds. -/
abbrev Trace := StepField → List Mixed

/-- The fields that are interpolated. -/
def StepField.Interpolated : StepField → Prop
  | .text _ => True
  | .frameContext | .method | .headerNames | .headerValues => False

section Traces

variable [PyText]

/-- The strings of a template, with all their tokens. -/
def WorkflowStep.trace (s : WorkflowStep) : Trace := fun f =>
  (s.strings f).map fun t => Mixed.ofSegs (Template.scan PyText.isWord t.toList)

namespace Trace

/-- What an interpolation leaves. -/
def pass (values : String → Option String) (T : Trace) : Trace
  | .text k => (T (.text k)).map (Mixed.pass PyText.isWord (tokenEnv values))
  | f => T f

/-- These are the strings of the step. -/
structure Of (T : Trace) (s : WorkflowStep) : Prop where
  valid : ∀ f, ∀ m ∈ T f, m.Valid PyText.isWord
  strings : ∀ f, s.strings f = (T f).map fun m => String.ofList m.render

/-- **An interpolation of the ten fields leaves these strings.** -/
theorem Of.pass {T : Trace} {s s' : WorkflowStep} {values : String → Option String} (h : T.Of s)
    (htext : ∀ k, s'.text k = (s.text k).map (varSub values))
    (hrest : s'.frameContext = s.frameContext ∧ s'.method = s.method ∧ s'.headers = s.headers) :
    (T.pass values).Of s' := by
  obtain ⟨hframe, hmethod, hheaders⟩ := hrest
  refine ⟨fun f m hm => ?_, fun f => ?_⟩
  · cases f with
    | text k =>
      obtain ⟨m', hm', rfl⟩ := List.mem_map.mp hm
      exact (h.valid _ m' hm').pass _
    | _ => exact h.valid _ m hm
  · have hf := h.strings f
    cases f with
    | text k =>
      have hvar : ∀ m ∈ T (.text k), varSub values (String.ofList m.render) =
          String.ofList (m.pass PyText.isWord (tokenEnv values)).render := by
        intro m hm
        rw [← String.toList_inj, toList_varSub, String.toList_ofList, String.toList_ofList]
        exact Mixed.sub_render_pass isWord_dollar isWord_brace (h.valid _ m hm) _
      calc s'.strings (.text k) = (s.strings (.text k)).map (varSub values) := by
            simp only [WorkflowStep.strings, htext, Option.toList_map]
        _ = (T (.text k)).map fun m => varSub values (String.ofList m.render) := by
            rw [hf, List.map_map]
            rfl
        _ = (T.pass values (.text k)).map fun m => String.ofList m.render := by
            rw [List.map_congr_left hvar, Trace.pass, List.map_map]
            rfl
    | frameContext =>
      rw [WorkflowStep.strings, hframe]
      exact hf
    | method =>
      rw [WorkflowStep.strings, hmethod]
      exact hf
    | headerNames | headerValues =>
      rw [WorkflowStep.strings, hheaders]
      exact hf

/-- A string of the field still holds a token of its template. -/
def Open (T : Trace) (f : StepField) (w : List Char) : Prop := ∃ m ∈ T f, w ∈ m.names

theorem of_trace (s : WorkflowStep) : s.trace.Of s where
  valid f m hm := by
    obtain ⟨t, -, rfl⟩ := List.mem_map.mp hm
    exact Mixed.valid_ofSegs fun w hw => Template.isName_of_mem_scan _ hw
  strings f := by
    rw [WorkflowStep.trace, List.map_map]
    refine ((List.map_congr_left fun t _ => ?_).trans (List.map_id _)).symm
    show String.ofList (Mixed.ofSegs _).render = t
    rw [Template.render_ofSegs_scan, String.ofList_toList]

theorem open_trace {s : WorkflowStep} {f : StepField} {w : List Char} :
    s.trace.Open f w ↔ ∃ t ∈ s.strings f, Seg.tok w ∈ Template.scan PyText.isWord t.toList := by
  simp [Open, WorkflowStep.trace, Mixed.mem_names_ofSegs]

/-- **An interpolation closes the tokens that it binds**, in the interpolated fields. -/
theorem open_pass {T : Trace} {values : String → Option String} {f : StepField} {w : List Char} :
    (T.pass values).Open f w ↔
      T.Open f w ∧ (f.Interpolated → values (String.ofList w) = none) := by
  cases f with
  | text k =>
    have hpass : ∀ m : Mixed, w ∈ (m.pass PyText.isWord (tokenEnv values)).names ↔
        w ∈ m.names ∧ values (String.ofList w) = none := by
      intro m
      simp [tokenEnv]
    constructor
    · rintro ⟨m', hm', hw⟩
      obtain ⟨m, hm, rfl⟩ := List.mem_map.mp hm'
      exact ⟨⟨m, hm, ((hpass m).mp hw).1⟩, fun _ => ((hpass m).mp hw).2⟩
    · rintro ⟨⟨m, hm, hw⟩, hv⟩
      exact ⟨_, List.mem_map_of_mem hm, (hpass m).mpr ⟨hw, hv trivial⟩⟩
  | _ => simp [Open, pass, StepField.Interpolated]

end Trace

end Traces

/-! ## Bound tokens -/

section Bound

variable [PyText]

/-- The name of a declared variable. -/
def Declared (dw : DeclaredWorkflow) (w : List Char) : Prop :=
  (Dict.get (String.ofList w) dw.vars).isSome = true

/-- The name of a declared variable or of an output. -/
def Bound (dw : DeclaredWorkflow) (outputs : Outputs) (w : List Char) : Prop :=
  Declared dw w ∨ (Dict.get (some (String.ofList w)) outputs).isSome = true

/-- The tokens of a template in some fields. -/
def WorkflowStep.HasToken (raw : WorkflowStep) (f : StepField) (w : List Char) : Prop :=
  ∃ t ∈ raw.strings f, Seg.tok w ∈ Template.scan PyText.isWord t.toList

/-- The trace of a step after the declared variables were interpolated. -/
def WorkflowStep.declaredTrace (raw : WorkflowStep) (values : Dict String String) : Trace :=
  raw.trace.pass (lookup values)

/-- The trace after the outputs were interpolated too. -/
def WorkflowStep.runtimeTrace (raw : WorkflowStep) (values : Dict String String)
    (outputs : Outputs) : Trace := (raw.declaredTrace values).pass outputs.text

/-- A step has this trace, and no token of its template in these fields is bound. -/
structure Trace.Complete (T : Trace) (s : WorkflowStep) (fields : List StepField)
    (bound : List Char → Prop) : Prop where
  of : T.Of s
  closed : ∀ f ∈ fields, ∀ w, T.Open f w → ¬ bound w

omit [PyText] in
theorem mapText_rest (s : WorkflowStep) (f : String → String) :
    (s.mapText f).frameContext = s.frameContext ∧ (s.mapText f).method = s.method ∧
      (s.mapText f).headers = s.headers := ⟨rfl, rfl, rfl⟩

theorem declaredTrace_of (raw : WorkflowStep) (values : Dict String String) :
    (raw.declaredTrace values).Of (resolveStep raw values) :=
  (Trace.of_trace raw).pass (text_resolveStep raw values) (mapText_rest raw _)

theorem runtimeTrace_of (raw : WorkflowStep) (values : Dict String String) (outputs : Outputs) :
    (raw.runtimeTrace values outputs).Of
      (resolveStepRuntime (resolveStep raw values) outputs) := by
  refine (declaredTrace_of raw values).pass (text_resolveStepRuntime _ outputs) ?_
  unfold resolveStepRuntime
  split_ifs
  · exact ⟨rfl, rfl, rfl⟩
  · exact mapText_rest _ _

variable {E : Environs} {dw : DeclaredWorkflow} {overrides : Option (Dict String String)}
  {values : Dict String String} {outputs : Outputs} {raw : WorkflowStep} {f : StepField}

omit [PyText] in
theorem declared_iff (hv : resolvedValues E dw overrides = .ok values) (w : List Char) :
    Declared dw w ↔ lookup values (String.ofList w) ≠ none := by
  rw [Declared, ← resolvedValues_keys hv, Option.isSome_iff_ne_none]

/-- **Before the outputs are interpolated**, the bound tokens are closed iff they are declared and
stand in interpolated fields. -/
theorem closed_declared (hv : resolvedValues E dw overrides = .ok values) :
    (∀ w, (raw.declaredTrace values).Open f w → ¬ Bound dw outputs w) ↔
      ∀ w, raw.HasToken f w → Bound dw outputs w → f.Interpolated ∧ Declared dw w := by
  have hopen : ∀ w, (raw.declaredTrace values).Open f w ↔
      raw.HasToken f w ∧ (f.Interpolated → ¬ Declared dw w) := by
    intro w
    rw [WorkflowStep.declaredTrace, Trace.open_pass, Trace.open_trace, declared_iff hv, not_not]
    rfl
  refine forall_congr' fun w => ?_
  rw [hopen]
  tauto

/-- **After it**, they are closed iff they stand in interpolated fields. -/
theorem closed_runtime (hv : resolvedValues E dw overrides = .ok values) :
    (∀ w, (raw.runtimeTrace values outputs).Open f w → ¬ Bound dw outputs w) ↔
      ∀ w, raw.HasToken f w → Bound dw outputs w → f.Interpolated := by
  have hopen : ∀ w, (raw.runtimeTrace values outputs).Open f w ↔
      raw.HasToken f w ∧ (f.Interpolated → ¬ Bound dw outputs w) := by
    intro w
    rw [WorkflowStep.runtimeTrace, WorkflowStep.declaredTrace, Trace.open_pass, Trace.open_pass,
      Trace.open_trace, Bound, declared_iff hv, Outputs.text, Option.map_eq_none_iff,
      Option.isSome_iff_ne_none]
    unfold WorkflowStep.HasToken
    tauto
  refine forall_congr' fun w => ?_
  rw [hopen]
  tauto

end Bound

/-! ## Runs -/

section Runs

variable [PyText]

/-- **Interpolation is complete in a run**: the strings handed over by the main steps when they
begin, by the look-ahead, and by the cleanup steps when the loop was left, hold no token of the
template that is bound at that moment. -/
structure Interpolated (dw : DeclaredWorkflow) (values : Dict String String) (cfg : Config)
    (env : Env) (σ : ℕ → RunState → Input) : Prop where
  main : ∀ n step (raw : WorkflowStep),
    Begins cfg (σ n (execution cfg env σ n)) (execution cfg env σ n) step →
    step.action ≠ .handoff → pyGet dw.steps (execution cfg env σ n).stepIdx = some raw →
      (raw.runtimeTrace values (execution cfg env σ n).outputs).Complete step
        (handedFields cfg.options step) (Bound dw (execution cfg env σ n).outputs)
  lookAhead : ∀ n step (raw next : WorkflowStep),
    Begins cfg (σ n (execution cfg env σ n)) (execution cfg env σ n) step →
    cfg.nextOf (execution cfg env σ n).stepIdx = some next → next.IsWait →
    pyGet dw.steps ((execution cfg env σ n).stepIdx + 1) = some raw →
      (raw.declaredTrace values).Complete next [.text .urlPattern]
        (Bound dw (execution cfg env σ n).outputs)
  cleanup : ∀ n h, (execution cfg env σ n).halt = some h → (∀ e, h ≠ .notStarted e) →
    ∀ (i : ℕ) (raw step : WorkflowStep), dw.cleanupSteps[i]? = some raw →
      cfg.workflow.cleanupSteps[i]? = some step →
      (raw.declaredTrace values).Complete step (handedFields cfg.cleanupOptions step)
        (Bound dw (execution cfg env σ n).outputs)

/-- **The fields that are left out hold no bound token**: in a main step the frame context, the
method, the header names and the header values that it hands over; in the URL pattern that the
look-ahead hands over, and in the interpolated fields that a cleanup step hands over, the bound
tokens are declared variables. -/
structure Avoids (dw : DeclaredWorkflow) (cfg : Config) (env : Env) (σ : ℕ → RunState → Input) :
    Prop where
  main : ∀ n step (raw : WorkflowStep),
    Begins cfg (σ n (execution cfg env σ n)) (execution cfg env σ n) step →
    step.action ≠ .handoff → pyGet dw.steps (execution cfg env σ n).stepIdx = some raw →
      ∀ f ∈ handedFields cfg.options step, ∀ w, raw.HasToken f w →
        Bound dw (execution cfg env σ n).outputs w → f.Interpolated
  lookAhead : ∀ n step (raw next : WorkflowStep),
    Begins cfg (σ n (execution cfg env σ n)) (execution cfg env σ n) step →
    cfg.nextOf (execution cfg env σ n).stepIdx = some next → next.IsWait →
    pyGet dw.steps ((execution cfg env σ n).stepIdx + 1) = some raw →
      ∀ w, raw.HasToken (.text .urlPattern) w →
        Bound dw (execution cfg env σ n).outputs w → Declared dw w
  cleanup : ∀ n h, (execution cfg env σ n).halt = some h → (∀ e, h ≠ .notStarted e) →
    ∀ (i : ℕ) (raw step : WorkflowStep), dw.cleanupSteps[i]? = some raw →
      cfg.workflow.cleanupSteps[i]? = some step →
      ∀ f ∈ handedFields cfg.cleanupOptions step, ∀ w, raw.HasToken f w →
        Bound dw (execution cfg env σ n).outputs w → f.Interpolated ∧ Declared dw w

omit [PyText] in
theorem pyGet_map {α β : Type} (f : α → β) (xs : List α) (i : ℤ) :
    pyGet (xs.map f) i = (pyGet xs i).map f := by
  unfold pyGet
  split_ifs <;> simp_all

variable {E : Environs} {dw : DeclaredWorkflow} {overrides : Option (Dict String String)}
  {values : Dict String String} {cfg : Config}

/-- A main step is a step of the workflow, resolved at both times. -/
theorem begins_resolved (hsteps : cfg.workflow.steps = dw.steps.map (resolveStep · values))
    {x : Input} {s : RunState} {step raw : WorkflowStep} (hb : Begins cfg x s step)
    (hraw : pyGet dw.steps s.stepIdx = some raw) :
    step = resolveStepRuntime (resolveStep raw values) s.outputs := by
  obtain ⟨raw', hget, rfl⟩ := cfg.stepAt_raw hb.step
  have hget' : pyGet cfg.workflow.steps s.stepIdx = some raw' := hget
  rw [hsteps, pyGet_map, hraw] at hget'
  rw [← Option.some.inj hget']

theorem nextOf_resolved (hsteps : cfg.workflow.steps = dw.steps.map (resolveStep · values))
    {i : ℤ} {next raw : WorkflowStep} (hn : cfg.nextOf i = some next)
    (hraw : pyGet dw.steps (i + 1) = some raw) : next = resolveStep raw values := by
  unfold Config.nextOf at hn
  split_ifs at hn
  have hget : pyGet cfg.workflow.steps (i + 1) = some next := hn
  rw [hsteps, pyGet_map, hraw] at hget
  exact (Option.some.inj hget).symm

/-- **Main result.** Interpolation is complete in a run iff the fields that are left out hold no
token that is bound. -/
theorem interpolated_iff (E : Environs) (dw : DeclaredWorkflow)
    (overrides : Option (Dict String String)) (values : Dict String String) (cfg : Config)
    (env : Env) (σ : ℕ → RunState → Input)
    (hv : resolvedValues E dw overrides = .ok values)
    (hw : resolveVariables E dw overrides = .ok cfg.workflow) :
    Interpolated dw values cfg env σ ↔ Avoids dw cfg env σ := by
  obtain ⟨values', hv', hsteps, hcleanup⟩ := resolveVariables_ok hw
  obtain rfl := Except.ok.inj (hv.symm.trans hv')
  constructor
  · intro h
    refine ⟨fun n step raw hb hne hraw f hf => ?_,
      fun n step raw next hb hn hwait hraw w ht hbd => ?_,
      fun n k hk hne i raw step hraw hstep f hf => ?_⟩
    · exact (closed_runtime hv).mp ((h.main n step raw hb hne hraw).closed f hf)
    · have hclosed := (h.lookAhead n step raw next hb hn hwait hraw).closed (.text .urlPattern)
        List.mem_cons_self
      exact ((closed_declared hv).mp hclosed w ht hbd).2
    · exact (closed_declared hv).mp ((h.cleanup n k hk hne i raw step hraw hstep).closed f hf)
  · intro h
    refine ⟨fun n step raw hb hne hraw => ⟨?_, fun f hf => ?_⟩,
      fun n step raw next hb hn hwait hraw => ⟨?_, fun f hf => ?_⟩,
      fun n k hk hne i raw step hraw hstep => ⟨?_, fun f hf => ?_⟩⟩
    · rw [begins_resolved hsteps hb hraw]
      exact runtimeTrace_of raw values _
    · exact (closed_runtime hv).mpr (h.main n step raw hb hne hraw f hf)
    · rw [nextOf_resolved hsteps hn hraw]
      exact declaredTrace_of raw values
    · obtain rfl := List.mem_singleton.mp hf
      exact (closed_declared hv).mpr fun w ht hbd =>
        ⟨trivial, h.lookAhead n step raw next hb hn hwait hraw w ht hbd⟩
    · rw [hcleanup, List.getElem?_map, hraw] at hstep
      rw [← Option.some.inj hstep]
      exact declaredTrace_of raw values
    · exact (closed_declared hv).mpr (h.cleanup n k hk hne i raw step hraw hstep f hf)

end Runs

/-! ## A frame context -/

section Example

attribute [local instance] asciiText

/-- Open a page of the declared site. -/
def openSite : WorkflowStep :=
  { order := 1, order_pos := WorkflowStep.order_one, name := "Open", action := .navigate,
    value := some "$\x7bSITE\x7d/export" }

/-- Click in the declared frame. -/
def clickFramed : WorkflowStep :=
  { order := 1, order_pos := WorkflowStep.order_one, name := "Click", action := .click,
    selector := some "#go", frameContext := some "$\x7bFRAME\x7d" }

/-- One page. -/
def onePage : DeclaredWorkflow where
  steps := [openSite]
  vars := [("SITE", { default := "https://example.com" })]

/-- One click. -/
def oneClick : DeclaredWorkflow where
  steps := [clickFramed]
  vars := [("FRAME", { default := "#main" })]

/-- A workflow with its variables interpolated. -/
def DeclaredWorkflow.withValues (dw : DeclaredWorkflow) (values : Dict String String) : Config where
  workflow :=
    { dw.toWorkflow with
      steps := dw.steps.map (resolveStep · values)
      cleanupSteps := dw.cleanupSteps.map (resolveStep · values) }

/-- The values of the page. -/
def siteValues : Dict String String := [("SITE", "https://example.com")]

/-- The values of the click. -/
def frameValues : Dict String String := [("FRAME", "#main")]

theorem openSite_raw {i : ℤ} {raw : WorkflowStep} (h : pyGet onePage.steps i = some raw) :
    raw = openSite := by
  unfold pyGet at h
  split_ifs at h
  all_goals exact List.mem_singleton.mp (List.mem_of_getElem? h)

theorem onePage_avoids : Avoids onePage (onePage.withValues siteValues) downloading undisturbed where
  main n step raw _ _ hraw f _ w ht _ := by
    obtain rfl := openSite_raw hraw
    cases f with
    | text k => exact trivial
    | _ =>
      obtain ⟨t, ht, -⟩ := ht
      cases ht
  lookAhead n step raw next _ _ _ hraw w ht _ := by
    obtain rfl := openSite_raw hraw
    obtain ⟨t, ht, -⟩ := ht
    cases ht
  cleanup n h _ _ i raw step hraw _ := by cases hraw

/-- A page of a declared site. -/
theorem interpolated_onePage :
    Interpolated onePage siteValues (onePage.withValues siteValues) downloading undisturbed :=
  (interpolated_iff noEnvirons onePage none siteValues (onePage.withValues siteValues) downloading
    undisturbed rfl rfl).mpr onePage_avoids

/-- **A declared variable in a frame context is handed to the driver as a token.** -/
theorem frame_left : resolvedValues noEnvirons oneClick none = .ok frameValues ∧
    resolveVariables noEnvirons oneClick none = .ok (oneClick.withValues frameValues).workflow ∧
    ¬ Interpolated oneClick frameValues (oneClick.withValues frameValues) downloading
      undisturbed := by
  have hv : resolvedValues noEnvirons oneClick none = .ok frameValues := rfl
  refine ⟨hv, rfl, fun h => ?_⟩
  obtain ⟨step, hb, hp⟩ := exists_begins (oneClick.withValues frameValues) {}
    (execution (oneClick.withValues frameValues) downloading undisturbed 0)
    (fun step => step.action == .click) (by decide +kernel) (by decide +kernel) (by decide +kernel)
    ⟨rfl, rfl⟩
  have hclick : step.action = .click := eq_of_beq hp
  have hclosed := (h.main 0 step clickFramed hb (by rw [hclick]; decide) rfl).closed .frameContext
    List.mem_cons_self
  have htok : clickFramed.HasToken .frameContext "FRAME".toList :=
    ⟨"$\x7bFRAME\x7d", List.mem_singleton_self _, by decide +kernel⟩
  exact (closed_runtime hv).mp hclosed _ htok (.inl rfl)

end Example

end ScoutEngine
