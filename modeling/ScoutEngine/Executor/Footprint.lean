import ScoutEngine.Executor.Pictures
import ScoutEngine.Lib.Questions

/-!
# What a run touches

The files that a run reads and writes on the host, and the requests that it sends from there.

* `HostEffect`, `Call.effects`: what a call does outside the browser.
* `WorkflowStep.declares`, `Config.owns`: what a step asks for, and what every run does.
* `Makes`: programs whose calls all have a property; `runAction_makes`, `executeStep_makes`.
* `Accounted`, **`footprint`**: everything that a run touches is its own, or a step that began or a
  cleanup step has asked for it.
-/

set_option autoImplicit false

namespace ScoutEngine

open Interaction

/-! ## Effects -/

/-- What is done on the host. -/
inductive HostEffect where
  | reads (path : Option String)
  | writes (path : Option String)
  | searches (pattern root : Option String)
  | requests (method : String) (url : Option String)
  deriving DecidableEq

/-- What a call does on the host; the browser's own traffic is not counted. -/
def Call.effects : Call → List HostEffect
  | .makedirs path => [.writes path]
  | .copyFile source destination => [.reads source, .writes destination]
  | .writeFile path _ => [.writes path]
  | .writePng path _ => [.writes path]
  | .glob pattern root => [.searches pattern root]
  | .listdir path => [.reads path]
  | .upload file => [.reads file]
  | .realpath path => [.reads path]
  | .httpRequest method url _ _ _ _ => [.requests method url]
  | _ => []

section

variable [PyText]

/-- **What a step asks for.** -/
def WorkflowStep.declares (step : WorkflowStep) : List HostEffect :=
  match step.action with
  | .fileOp =>
    match step.operation with
    | some "mkdir" => [.writes step.destination]
    | some "copy" => [.reads step.source, .writes step.destination]
    | some "write" => [.writes (step.destination.map Path.dirname), .writes step.destination]
    | some "glob" => [.searches step.pattern step.source]
    | some "list" => [.reads step.source]
    | _ => []
  | .uploadFile => [.reads step.value]
  | .httpRequest =>
    [.requests (PyText.upper (if step.method.getD "" = "" then "GET" else step.method.getD ""))
      step.value]
  | _ => []

end

/-- The directory and the files of the pictures. -/
def StepOptions.Pictures (o : StepOptions) (e : HostEffect) : Prop :=
  ∃ dir, o.screenshotDir = some dir ∧
    (e = .writes (some dir) ∨ ∃ order action, e = .writes (some (Path.join dir (shotName order action))))

/-- **What every run does**: it has a directory for its downloads and one for its pictures. -/
def Config.Owns (cfg : Config) (e : HostEffect) : Prop :=
  e = .writes (some (Path.join cfg.downloadDir cfg.dirName)) ∨
    e = .reads (some (Path.join cfg.downloadDir cfg.dirName)) ∨ cfg.options.Pictures e

/-! ## Programs -/

/-- **Programs whose calls all have a property**, whatever they are answered. -/
def Makes {α : Type} (P : Call → Prop) (p : StepM α) : Prop := ∀ m, (p.run.run m).Asks P

namespace Makes

variable {α β : Type} {P R : Call → Prop}

theorem mono {p : StepM α} (h : Makes P p) (hPR : ∀ c, P c → R c) : Makes R p :=
  fun m => (h m).mono hPR

theorem pure (a : α) : Makes P (Pure.pure a : StepM α) := fun _ => trivial

theorem throw (e : PyExc) : Makes P (MonadExcept.throw e : StepM α) := fun _ => trivial

theorem raise (kind : ExcKind) (msg : String) : Makes P (ScoutEngine.raise kind msg : StepM α) :=
  throw _

theorem get : Makes P (MonadState.get : StepM NetworkMonitor) := fun _ => trivial

theorem set (m : NetworkMonitor) : Makes P (MonadStateOf.set m : StepM PUnit) := fun _ => trivial

theorem modify (f : NetworkMonitor → NetworkMonitor) : Makes P (modify f : StepM PUnit) :=
  fun _ => trivial

theorem call [PyText] {c : Call} (h : P c) : Makes P (ScoutEngine.call c) :=
  fun _ => ⟨h, fun _ => trivial⟩

theorem bind {p : StepM α} {f : α → StepM β} (hp : Makes P p) (hf : ∀ a, Makes P (f a)) :
    Makes P (p >>= f) := by
  intro m
  rw [ExceptT.run_bind, StateT.run_bind]
  refine (hp m).bind fun r => ?_
  rcases r with ⟨e | a, m'⟩
  · trivial
  · exact hf a m'

theorem tryCatch {p : StepM α} {f : PyExc → StepM α} (hp : Makes P p) (hf : ∀ e, Makes P (f e)) :
    Makes P (MonadExcept.tryCatch p f) := by
  intro m
  show ((p.run.run m) >>= _).Asks P
  refine (hp m).bind fun r => ?_
  rcases r with ⟨e | a, m'⟩
  · exact hf e m'
  · trivial

theorem ite {c : Prop} [Decidable c] {p q : StepM α} (hp : Makes P p) (hq : Makes P q) :
    Makes P (if c then p else q) := by
  split_ifs
  · exact hp
  · exact hq

end Makes

/-- The call does nothing else on the host. -/
def Call.Within (D : HostEffect → Prop) (c : Call) : Prop := ∀ e ∈ c.effects, D e

section Parts

variable {P : Call → Prop}

theorem liftExcept_makes [PyText] {α : Type} (r : Except PyExc α) : Makes P (scroll.liftExcept r) := by
  cases r with
  | ok a => exact .pure a
  | error e => exact .throw e

theorem item_makes [PyText] (v : PyVal) (key : String) : Makes P (item v key) := by
  unfold item
  split
  · split
    · exact .pure _
    · exact .raise _ _
  · exact .raise _ _
  · exact .raise _ _
  · exact .raise _ _

theorem requireMonitor_makes (o : StepOptions) (msg : String) : Makes P (requireMonitor o msg) :=
  .bind .get fun _ => .ite (.raise _ _) (.pure _)

/-- What needs a path runs with the path. -/
theorem needPath_makes {α : Type} {path : Option String} {f : String → StepM α}
    (h : ∀ p, path = some p → Makes P (f p)) : Makes P (needPath path >>= f) := by
  cases path with
  | none => exact .throw _
  | some p => exact h p rfl

theorem listing_makes (source : Option String) (entries : List String) :
    Makes P (listing source entries) :=
  .ite (.bind (.pure _) fun _ => .pure _) (needPath_makes fun _ _ => .pure _)

end Parts

section Actions

variable [PyText] {D : HostEffect → Prop}

/-- A call to the browser. -/
theorem Makes.quiet {c : Call} (h : c.effects = []) : Makes (Call.Within D) (ScoutEngine.call c) :=
  .call fun _ he => absurd (h ▸ he) List.not_mem_nil

theorem Makes.quietly {α : Type} {c : Call} (h : c.effects = []) (a : α) :
    Makes (Call.Within D) (do
      let _ ← ScoutEngine.call c
      Pure.pure a) :=
  .bind (.quiet h) fun _ => .pure _

theorem Makes.listed {c : Call} {es : List HostEffect} (h : c.effects = es) (hD : ∀ e ∈ es, D e) :
    Makes (Call.Within D) (ScoutEngine.call c) := .call fun e he => hD e (h ▸ he)

theorem resolveTarget_makes (frameContext : Option String) :
    Makes (Call.Within D) (resolveTarget frameContext) := by
  have hparts : ∀ (parts : List String) (target : Target),
      Makes (Call.Within D) (resolveParts target parts) := by
    intro parts
    induction parts with
    | nil => exact fun _ => .pure _
    | cons part parts ih =>
      refine fun target => .bind (.quiet rfl) fun v => ?_
      cases v with
      | none => exact .raise _ _
      | _ => exact ih _
  unfold resolveTarget
  cases frameContext with
  | none => exact .pure _
  | some f => exact .ite (.pure _) (hparts _ _)

theorem pressKey_makes (value : Option String) : Makes (Call.Within D) (pressKey value) := by
  cases value with
  | none => exact .raise _ _
  | some v => exact .bind (.quiet rfl) fun _ => .quietly rfl _

theorem scroll_makes (target : Target) (value : Option String) :
    Makes (Call.Within D) (scroll target value) := by
  have hrun : ∀ script, Makes (Call.Within D) (do
      let _ ← call (.runJs target script)
      pure ()) := fun _ => .quietly rfl _
  unfold scroll
  dsimp only
  refine .ite (hrun _) (.ite (hrun _) ?_)
  exact .ite (.bind (.pure _) fun _ => hrun _) (.ite (.bind (.pure _) fun _ => hrun _)
    (.bind (liftExcept_makes _) fun _ => hrun _))

theorem hover_makes (selector : Option String) : Makes (Call.Within D) (hover selector) := by
  refine .bind (.quiet rfl) fun pos => .ite ?_ (.raise _ _)
  exact .bind (item_makes _ _) fun _ => .bind (item_makes _ _) fun _ => .quietly rfl _

theorem wait_makes (target : Target) (step : WorkflowStep) (timeout : ℕ) :
    Makes (Call.Within D) (wait target step timeout) := by
  unfold wait
  refine .ite (.quietly rfl _) (.ite ?_ (.quietly rfl _))
  exact .bind (liftExcept_makes _) fun _ => .quietly rfl _

theorem waitForDownload_makes (o : StepOptions) (timeout : ℕ) :
    Makes (Call.Within D) (waitForDownload o timeout) := by
  refine .bind (requireMonitor_makes _ _) fun _ => .bind (.quiet rfl) fun _ => ?_
  exact .bind .get fun m => .bind (.set _) fun _ => .ite (.raise _ _) (.pure _)

theorem waitForResponse_makes (o : StepOptions) (pattern : Option String) (timeout : ℕ) :
    Makes (Call.Within D) (waitForResponse o pattern timeout) := by
  have hpoll : ∀ n, Makes (Call.Within D) (pollResponse pattern n) := by
    intro n
    induction n with
    | zero => exact .pure _
    | succ n ih =>
      refine .bind .get fun m => .bind (liftExcept_makes _) fun found => ?_
      exact .ite (.bind (.quiet rfl) fun _ => ih) (.pure _)
  refine .bind (requireMonitor_makes _ _) fun _ => .bind (.quiet rfl) fun _ => ?_
  exact .bind (hpoll _) fun _ => .bind (.modify _) fun _ => .ite (.raise _ _) (.pure _)

theorem fillSecret_makes (target : Target) (step : WorkflowStep) :
    Makes (Call.Within D) (fillSecret target step) := by
  unfold fillSecret
  exact .ite (.bind (.quiet rfl) fun _ => .quietly rfl _) (.quietly rfl _)

theorem uploadFile_makes (target : Target) (step : WorkflowStep) (h : D (.reads step.value)) :
    Makes (Call.Within D) (uploadFile target step) := by
  have hread : ∀ e ∈ [HostEffect.reads step.value], D e := List.forall_mem_singleton.mpr h
  unfold uploadFile
  refine .bind (.quiet rfl) fun _ => .bind (.quiet rfl) fun supported => .ite ?_ ?_
  · exact .bind (.listed rfl hread) fun _ => .pure _
  · refine .bind (.quiet rfl) fun _ => .bind (.quiet rfl) fun nodeId => ?_
    split
    · exact .bind (.raise _ _) fun _ => .pure _
    · exact .bind (.listed rfl hread) fun _ => .quietly rfl _

theorem httpRequest_makes (step : WorkflowStep) (h : ∀ e ∈ step.declares, D e)
    (ha : step.action = .httpRequest) : Makes (Call.Within D) (httpRequest step) := by
  unfold WorkflowStep.declares at h
  rw [ha] at h
  refine .bind (.listed rfl h) fun _ => .bind (.tryCatch (.quiet rfl) fun e => ?_) fun _ => ?_
  · exact .ite (.quiet rfl) (.throw _)
  · exact .bind (.quiet rfl) fun _ => .bind (.quiet rfl) fun _ => .pure _

/-- **A file operation** does what its step declares. -/
theorem fileOp_makes (step : WorkflowStep) (h : ∀ e ∈ step.declares, D e)
    (ha : step.action = .fileOp) : Makes (Call.Within D) (fileOp step) := by
  unfold WorkflowStep.declares at h
  rw [ha] at h
  dsimp only at h
  unfold fileOp
  split
  · rename_i hop
    rw [hop] at h
    refine needPath_makes fun path hd => ?_
    rw [hd] at h
    exact .bind (.listed rfl h) fun _ => .pure _
  · rename_i hop
    rw [hop] at h
    exact .bind (.listed rfl h) fun _ => .pure _
  · rename_i hop
    rw [hop] at h
    refine needPath_makes fun path hd => ?_
    rw [hd] at h
    obtain ⟨hdir, hfile⟩ := List.forall_mem_cons.mp h
    exact .bind (.listed rfl (List.forall_mem_singleton.mpr hdir)) fun _ =>
      .bind (.listed rfl hfile) fun _ => .pure _
  · rename_i hop
    rw [hop] at h
    exact .bind (.listed rfl h) fun _ => listing_makes _ _
  · rename_i hop
    rw [hop] at h
    exact .bind (.listed rfl h) fun _ => listing_makes _ _
  · exact .raise _ _

/-- **An action** does what its step declares. -/
theorem runAction_makes (o : StepOptions) (step : WorkflowStep) (target : Target)
    (h : ∀ e ∈ step.declares, D e) : Makes (Call.Within D) (runAction o step target) := by
  unfold runAction
  dsimp only
  cases ha : step.action with
  | waitForDownload => exact .bind (waitForDownload_makes _ _) fun _ => .pure _
  | waitForResponse => exact .bind (waitForResponse_makes _ _ _) fun _ => .pure _
  | click => exact .ite (.raise _ _) (.quietly rfl _)
  | type => exact .ite (.bind (.quiet rfl) fun _ => .quietly rfl _) (.quietly rfl _)
  | scroll => exact .bind (scroll_makes _ _) fun _ => .pure _
  | wait => exact .bind (wait_makes _ _ _) fun _ => .pure _
  | pressKey => exact .bind (pressKey_makes _) fun _ => .pure _
  | hover => exact .bind (hover_makes _) fun _ => .pure _
  | extract => exact .ite (.raise _ _) (.quiet rfl)
  | conditional =>
    cases conditionMet step with
    | ok met => exact .pure _
    | error e => exact .throw e
  | loop => exact .pure _
  | fillSecret => exact fillSecret_makes _ _
  | uploadFile =>
    unfold WorkflowStep.declares at h
    rw [ha] at h
    exact uploadFile_makes _ _ (List.forall_mem_singleton.mp h)
  | httpRequest => exact httpRequest_makes step h ha
  | fileOp => exact fileOp_makes step h ha
  | handoff => exact .raise _ _
  | _ => exact .bind (.quiet rfl) fun _ => .pure _

theorem screenshot_makes (o : StepOptions) (step : WorkflowStep) (h : ∀ e, o.Pictures e → D e) :
    Makes (Call.Within D) (screenshot o step) := by
  unfold screenshot
  cases ho : o.screenshotDir with
  | none => exact .pure _
  | some dir =>
    have hdir : ∀ e ∈ [HostEffect.writes (some dir)], D e :=
      List.forall_mem_singleton.mpr (h _ ⟨dir, ho, Or.inl rfl⟩)
    have hfile : ∀ e ∈ [HostEffect.writes (some (Path.join dir (shotName step.order step.action)))],
        D e := List.forall_mem_singleton.mpr (h _ ⟨dir, ho, Or.inr ⟨_, _, rfl⟩⟩)
    refine .tryCatch (.bind (.listed rfl hdir) fun _ => .bind (.quiet rfl) fun data => ?_)
      fun _ => .pure _
    exact .bind (.listed rfl hfile) fun _ => .pure _

/-- More calls, each of which does nothing else on the host. -/
def Grows (D : HostEffect → Prop) (calls calls' : Calls) : Prop :=
  ∀ c ∈ calls', c ∈ calls ∨ c.1.Within D

omit [PyText] in
theorem Makes.grows {α : Type} {p : StepM α} (h : Makes (Call.Within D) p) (env : Env)
    (m : NetworkMonitor) (calls : Calls) : Grows D calls (eval env p m calls).2 :=
  (h m).run env.answer calls

/-- **A step** does what it declares, and takes its picture. -/
theorem executeStep_grows (env : Env) (o : StepOptions) (step : WorkflowStep) (m : NetworkMonitor)
    (calls : Calls) (h : ∀ e ∈ step.declares, D e) (hshot : ∀ e, o.Pictures e → D e) :
    Grows D calls (executeStep env o step m calls).2.2 := by
  have hact : Makes (Call.Within D) (resolveTarget step.frameContext >>= runAction o step) :=
    .bind (resolveTarget_makes _) fun _ => runAction_makes _ _ _ h
  have hbody : ((stepBody o step).run m).Asks (Call.Within D) := by
    refine (hact m).bind fun r => ?_
    exact (screenshot_makes o step hshot r.2).bind fun _ => trivial
  exact hbody.run env.answer calls

/-! ## The other programs -/

theorem notify_makes (cfg : Config) (r : StepResult) : Makes (Call.Within D) (notify cfg r) :=
  .ite (.bind (.quiet rfl) fun _ => .pure _) (.pure _)

theorem lookAhead_makes (nextStep : Option WorkflowStep) :
    Makes (Call.Within D) (lookAhead nextStep) := by
  unfold lookAhead
  cases nextStep with
  | none => exact .pure _
  | some step =>
    refine .ite (.bind .get fun m => ?_) (.pure _)
    cases m.start step.urlPattern with
    | error e => exact .throw e
    | ok m =>
      exact .bind (.set m) fun _ => .bind (.quiet rfl) fun _ => .bind (.quiet rfl) fun _ => .pure _

theorem setUp_makes (cfg : Config) (h : ∀ e, cfg.Owns e → D e) :
    Makes (Call.Within D) (setUp cfg) := by
  have hdir : Makes (Call.Within D) (setupDownloadDir (Path.join cfg.downloadDir cfg.dirName)) := by
    have hwrite := List.forall_mem_singleton.mpr (h _ (Or.inl rfl))
    have hread := List.forall_mem_singleton.mpr (h _ (Or.inr (Or.inl rfl)))
    refine .bind (.listed rfl hwrite) fun _ => .tryCatch ?_ fun _ => .pure _
    exact .bind (.listed rfl hread) fun _ => .bind (.quiet rfl) fun _ => .pure _
  have hinfo : Makes (Call.Within D) (browserInfo cfg) :=
    .tryCatch (.bind (.quiet rfl) fun _ => .bind (.quiet rfl) fun _ => .bind (.quiet rfl) fun _ =>
      .pure _) fun _ => .pure _
  unfold setUp
  refine .bind (.quiet rfl) fun _ => .ite ?_ ?_
  · exact .bind (.quiet rfl) fun _ => .bind hdir fun _ => .ite hinfo (.pure _)
  · exact .bind hdir fun _ => .ite hinfo (.pure _)

end Actions

/-! ## Moves -/

/-- **A reason for what is done**: it is done by every run, or a step that began declares it, as it
was interpolated then. -/
def Accounted [PyText] (cfg : Config) (begun : List (ℤ × Outputs)) (e : HostEffect) : Prop :=
  cfg.Owns e ∨ ∃ b ∈ begun, ∃ raw, pyGet cfg.steps b.1 = some raw ∧
    e ∈ (resolveStepRuntime raw b.2).declares

section Moves

open RunState

variable [PyText] {cfg : Config} {env : Env} {D D' : HostEffect → Prop} {s s' : RunState}
  {calls calls' calls'' : Calls}

omit [PyText] in
theorem Grows.refl (calls : Calls) : Grows D calls calls := fun _ hc => Or.inl hc

omit [PyText] in
theorem Grows.trans (h : Grows D calls calls') (h' : Grows D calls' calls'') :
    Grows D calls calls'' := fun c hc => (h' c hc).elim (h c) Or.inr

omit [PyText] in
theorem Grows.of_eq (h : calls' = calls) : Grows D calls calls' := fun _ hc => Or.inl (h ▸ hc)

omit [PyText] in
theorem andThen_grows {p : StepM Unit} (hp : Makes (Call.Within D) p) {k : RunState → RunState}
    (hk : ∀ s, Grows D s.calls (k s).calls) (s : RunState) :
    Grows D s.calls (s.andThen env p k).calls := by
  have he : Grows D s.calls (s.exec env p).2.calls := hp.grows env s.monitor s.calls
  unfold RunState.andThen
  generalize s.exec env p = r at he ⊢
  rcases r with ⟨e | _, s'⟩
  · exact he
  · exact he.trans (hk s')

omit [PyText] in
theorem waitForResume_calls (cfg : Config) (p : Pause) (s : RunState) :
    (waitForResume cfg p s).calls = s.calls := (publish_world cfg _ s).2

theorem endHandoff_grows (step : WorkflowStep) (v : PyVal) (s : RunState) :
    Grows D s.calls (endHandoff cfg env step v s).calls := by
  have hk : ∀ s : RunState, Grows D s.calls
      ((showIdle cfg s).control (Control.goto cfg.steps.length v)).calls := fun s =>
    .of_eq (publish_world cfg _ s).2
  exact andThen_grows (notify_makes _ _) hk (s.control (Control.passHandoff (handoffResult step)))

theorem abortHandoff_grows (step : WorkflowStep) (s : RunState) :
    Grows D s.calls (abortHandoff cfg env step s).calls :=
  andThen_grows (k := fun s => s.control (Control.stop .cancelled)) (notify_makes _ _)
    (fun s => .refl s.calls) (s.control (Control.record (abortedResult step)))

theorem handoff_grows (step : WorkflowStep) (s : RunState) :
    Grows D s.calls (handoff cfg env step s).calls := by
  have hshow : (showStep cfg step s).calls = s.calls := (publish_world cfg _ s).2
  unfold handoff
  dsimp only
  split_ifs
  · exact .of_eq ((waitForResume_calls cfg _ _).trans hshow)
  · exact hshow ▸ endHandoff_grows step _ _

omit [PyText] in
theorem account_calls (cfg : Config) (step : WorkflowStep) (r : StepResult) (s : RunState) :
    (account cfg step r s).calls = s.calls := by
  unfold account
  cases r.status with
  | passed => rfl
  | failed =>
    dsimp only
    split_ifs
    · exact waitForResume_calls cfg _ _
    · cases cfg.policy step <;> rfl

theorem normalStep_grows {step : WorkflowStep} (h : ∀ e ∈ step.declares, D e)
    (hshot : ∀ e, cfg.options.Pictures e → D e) (s : RunState) :
    Grows D s.calls (normalStep cfg env step (account cfg step) s).calls := by
  obtain ⟨hm, hc⟩ : (showStep cfg step s).monitor = s.monitor ∧
      (showStep cfg step s).calls = s.calls := publish_world _ _ _
  have hstep := executeStep_grows env cfg.options step s.monitor s.calls h hshot
  unfold normalStep
  dsimp only
  rw [hm, hc]
  generalize executeStep env cfg.options step s.monitor s.calls = r at hstep ⊢
  have hidle : ∀ t : RunState, t.calls = r.2.2 → Grows D r.2.2 (showIdle cfg t).calls :=
    fun t ht => .of_eq ((publish_world cfg _ t).2.trans ht)
  refine hstep.trans (Grows.trans (hidle _ ?_) (andThen_grows (notify_makes _ _)
    (fun s => .of_eq (account_calls cfg step r.1 s)) _))
  rfl

theorem beginStep_grows {step : WorkflowStep} (h : ∀ e ∈ step.declares, D e)
    (hshot : ∀ e, cfg.options.Pictures e → D e) (s : RunState) :
    Grows D s.calls (beginStep cfg env step (account cfg step) s).calls := by
  refine andThen_grows (lookAhead_makes _) (fun s => ?_) (s.control Control.begun)
  split_ifs
  · exact handoff_grows step s
  · exact normalStep_grows h hshot s

theorem wake_grows (p : Pause) (x : Input) (s : RunState) :
    Grows D s.calls (wake cfg env p x s).calls := by
  have hrun : (s.publish cfg fun id => Sessions.setRunning id).calls = s.calls :=
    (publish_world cfg _ s).2
  unfold wake
  generalize x.resume.getD { action := .abort } = i
  dsimp only
  cases p.kind with
  | requested | error => exact .of_eq hrun
  | handoff =>
    dsimp only
    split_ifs
    · exact hrun ▸ abortHandoff_grows p.step _
    · exact hrun ▸ endHandoff_grows p.step _ _

/-- **What a move does has a reason** in what has begun then. -/
theorem next_grows (x : Input) (s : RunState) :
    Grows (Accounted cfg (next cfg env x s).begins) s.calls (next cfg env x s).calls := by
  cases hh : s.halt with
  | some k =>
    have hsame : next cfg env x s = s := by
      unfold next
      rw [hh]
    rw [hsame]
    exact .refl _
  | none =>
    cases hw : s.waiting with
    | some p =>
      rw [next_of_waiting hh hw]
      exact wake_grows p x s
    | none =>
      rw [next_of_awake hh hw]
      cases hs : cfg.stepAt s.toControl with
      | none =>
        rcases head_cases_none env x hs with ⟨-, -, h⟩ | ⟨-, h⟩
        · rw [h]
          exact .refl _
        · rw [h]
          exact .refl _
      | some step =>
        have hmove := head_move cfg env x s
        rw [head_of_stepAt env x hs] at hmove ⊢
        split_ifs at hmove ⊢ with hx hp
        · exact .refl _
        · exact .of_eq (waitForResume_calls cfg _ _)
        · have hgoes : x.Goes cfg := ⟨Bool.eq_false_iff.mpr hx, Bool.eq_false_iff.mpr hp⟩
          have hbegins := hmove.begins_of_goes hs hgoes
          obtain ⟨raw, hraw, rfl⟩ := cfg.stepAt_raw hs
          refine beginStep_grows (fun e he => Or.inr ?_) (fun e he => Or.inl (Or.inr (Or.inr he))) s
          refine ⟨(s.stepIdx, s.outputs), ?_, raw, hraw, he⟩
          rw [hbegins]
          exact List.mem_append_right _ (List.mem_singleton.mpr rfl)

end Moves

/-! ## Runs -/

/-- **The footprint of a run**: everything done is done by every run, or is declared by a step that
began, as it was interpolated then, or by a cleanup step. -/
def Footprint [PyText] (cfg : Config) (begun : List (ℤ × Outputs)) (calls : Calls) : Prop :=
  ∀ c ∈ calls, c.1.Within fun e =>
    Accounted cfg begun e ∨ ∃ step ∈ cfg.workflow.cleanupSteps, e ∈ step.declares

section Runs

open RunState

variable [PyText] {cfg : Config} {D : HostEffect → Prop}

theorem Accounted.mono {bs bs' : List (ℤ × Outputs)} (h : bs <+: bs') {e : HostEffect}
    (he : Accounted cfg bs e) : Accounted cfg bs' e :=
  he.imp_right fun ⟨b, hb, hraw⟩ => ⟨b, h.subset hb, hraw⟩

theorem entry_grows (cfg : Config) (env : Env) : Grows cfg.Owns [] (entry cfg env).calls := by
  have h : Grows cfg.Owns [] (RunState.exec env (setUp cfg) {}).2.calls :=
    (setUp_makes cfg fun _ he => he).grows env {} []
  unfold entry
  generalize RunState.exec env (setUp cfg) {} = r at h ⊢
  rcases r with ⟨e | _ | info, s⟩
  · exact h
  · exact h
  · exact h.trans (.of_eq (publish_world cfg _ s).2)

/-- In every state of every run, what was done has a reason. -/
theorem execution_accounted (cfg : Config) (env : Env) (σ : ℕ → RunState → Input) (n : ℕ) :
    Grows (Accounted cfg (execution cfg env σ n).begins) [] (execution cfg env σ n).calls := by
  induction n with
  | zero =>
    intro c hc
    exact (entry_grows cfg env c hc).imp_right fun h e he => Or.inl (h e he)
  | succ n ih =>
    have hmono := begins_mono cfg env σ (Nat.le_succ n)
    intro c hc
    rcases next_grows (σ n (execution cfg env σ n)) (execution cfg env σ n) c hc with hold | hnew
    · exact (ih c hold).imp_right fun h e he => (h e he).mono hmono
    · exact Or.inr hnew

theorem cleanup_grows (cfg : Config) (env : Env) (steps : List WorkflowStep) (s : RunState)
    (h : ∀ step ∈ steps, ∀ e ∈ step.declares, D e) :
    Grows D s.calls (cleanup cfg env steps s).calls := by
  induction steps generalizing s with
  | nil => exact .refl _
  | cons step rest ih =>
    rw [List.forall_mem_cons] at h
    have hshot : ∀ e, cfg.cleanupOptions.Pictures e → D e := fun e ⟨_, hdir, _⟩ => by cases hdir
    exact (executeStep_grows env cfg.cleanupOptions step s.monitor s.calls h.1 hshot).trans
      (ih _ h.2)

theorem leave_grows (cfg : Config) (env : Env) (s : RunState)
    (h : ∀ step ∈ cfg.workflow.cleanupSteps, ∀ e ∈ step.declares, D e) :
    Grows D s.calls (leave cfg env s).calls := by
  have hclean := cleanup_grows cfg env cfg.workflow.cleanupSteps
    { s with monitor := s.monitor.stop } h
  unfold leave
  dsimp only
  have hclose : ∀ t : RunState, Grows D t.calls (t.exec env (call .closeDriver)).2.calls := fun t =>
    (Makes.quiet (c := .closeDriver) rfl).grows env t.monitor t.calls
  have hunregister : ∀ t : RunState,
      Grows D t.calls (t.publish cfg fun id => Sessions.unregister id).calls := fun t =>
    .of_eq (publish_world cfg _ t).2
  exact hclean.trans ((hunregister _).trans (hclose _))

theorem finish_grows (cfg : Config) (env : Env) (s : RunState)
    (h : ∀ step ∈ cfg.workflow.cleanupSteps, ∀ e ∈ step.declares, D e) :
    Grows D s.calls (finish cfg env s).2.calls := by
  unfold finish
  split
  · exact .refl _
  · exact leave_grows cfg env s h
  · exact leave_grows cfg env s h

/-- **Main result.** Whatever the steps, the answers of the outside world and the other threads do:
up to its end a run reads, writes and requests nothing on the host but its own directories and what
a step that began, or a cleanup step, has asked for. -/
theorem footprint (cfg : Config) (env : Env) (σ : ℕ → RunState → Input) (n : ℕ) :
    Footprint cfg (execution cfg env σ n).begins
      (finish cfg env (execution cfg env σ n)).2.calls := by
  intro c hc
  have hfinish := finish_grows (D := fun e => ∃ step ∈ cfg.workflow.cleanupSteps, e ∈ step.declares)
    cfg env (execution cfg env σ n) fun step hs e he => ⟨step, hs, he⟩
  rcases hfinish c hc with hrun | hclean
  · have h := (execution_accounted cfg env σ n c hrun).resolve_left List.not_mem_nil
    exact fun e he => Or.inl (h e he)
  · exact fun e he => Or.inr (hclean e he)

end Runs

/-! ## Two executions -/

/-- The file of a path that a call writes. -/
def Call.Writes (c : Call) (path : String) : Prop := .writes (some path) ∈ c.effects

/-- A workflow without steps that touch the host. -/
def Workflow.Confined (w : Workflow) : Prop :=
  ∀ step ∈ w.steps ++ w.cleanupSteps,
    step.action ≠ .fileOp ∧ step.action ≠ .uploadFile ∧ step.action ≠ .httpRequest

section Paths

/-- The last part of a path is determined by it. -/
theorem split_last {p q x y : List Char} (hx : '/' ∉ x) (hy : '/' ∉ y)
    (hp : p = [] ∨ p.getLast? = some '/') (hq : q = [] ∨ q.getLast? = some '/')
    (h : p ++ x = q ++ y) : p = q ∧ x = y := by
  have hlast : ∀ {p q x y : List Char}, '/' ∉ x → (q = [] ∨ q.getLast? = some '/') →
      ∀ a, q = p ++ a → x = a ++ y → a = [] := by
    intro p q x y hx hq a hqa hxa
    by_contra hne
    obtain ⟨b, c, rfl⟩ := List.eq_nil_or_concat a |>.resolve_left hne
    rcases hq with rfl | hq
    · simp at hqa
    · have hc : c = '/' := by
        rw [hqa, List.concat_eq_append, ← List.append_assoc, List.getLast?_append] at hq
        simpa using hq
      refine hx ?_
      rw [hxa, hc]
      simp
  rcases List.append_eq_append_iff.mp h with ⟨a, hqa, hxa⟩ | ⟨a, hpa, hya⟩
  · obtain rfl := hlast hx hq a hqa hxa
    exact ⟨by simpa using hqa.symm, by simpa using hxa⟩
  · obtain rfl := hlast hy hp a hpa hya
    exact ⟨by simpa using hpa, by simpa using hya.symm⟩

/-- The name of a file or directory. -/
def IsName (name : String) : Prop := name ≠ "" ∧ '/' ∉ name.toList

theorem toList_join_name {a b : String} (hb : IsName b) :
    ∃ p, (Path.join a b).toList = p ++ b.toList ∧ (p = [] ∨ p.getLast? = some '/') := by
  have hhead : b.toList.head? ≠ some '/' := fun h =>
    hb.2 (List.mem_of_mem_head? h)
  unfold Path.join
  rw [if_neg hhead]
  split_ifs with ha
  · refine ⟨a.toList, String.toList_append, ha.imp_left fun h => ?_⟩
    rw [h]
    rfl
  · refine ⟨a.toList ++ ['/'], ?_, Or.inr (by simp)⟩
    rw [String.toList_append, String.toList_append]
    rfl

/-- Two joins agree only on the same name. -/
theorem join_name_inj {a a' b b' : String} (hb : IsName b) (hb' : IsName b')
    (h : Path.join a b = Path.join a' b') : b = b' := by
  obtain ⟨p, hp, hp'⟩ := toList_join_name (a := a) hb
  obtain ⟨q, hq, hq'⟩ := toList_join_name (a := a') hb'
  have heq : p ++ b.toList = q ++ b'.toList := by rw [← hp, ← hq, h]
  exact String.toList_inj.mp (split_last hb.2 hb'.2 hp' hq' heq).2

theorem toList_join_join {a b c : String} (hb : IsName b) (hc : IsName c) :
    (Path.join (Path.join a b) c).toList = (Path.join a b).toList ++ ['/'] ++ c.toList := by
  obtain ⟨p, hp, -⟩ := toList_join_name (a := a) hb
  have hne : b.toList ≠ [] := fun h => hb.1 (String.toList_inj.mp h)
  have hempty : Path.join a b ≠ "" := by
    intro h
    rw [h] at hp
    exact hne (List.append_eq_nil_iff.mp hp.symm).2
  have hlast : (Path.join a b).toList.getLast? ≠ some '/' := by
    rw [hp, List.getLast?_append_of_ne_nil _ hne]
    exact fun h => hb.2 (List.mem_of_getLast? h)
  have hhead : c.toList.head? ≠ some '/' := fun h => hc.2 (List.mem_of_mem_head? h)
  rw [Path.join, if_neg hhead, if_neg (not_or.mpr ⟨hempty, hlast⟩), String.toList_append,
    String.toList_append]
  rfl

/-- Files of one directory each, of directories of different names. -/
theorem join_join_inj {a b b' c c' : String} (hb : IsName b) (hb' : IsName b') (hc : IsName c)
    (hc' : IsName c') (h : Path.join (Path.join a b) c = Path.join (Path.join a b') c') : b = b' := by
  have heq := congrArg String.toList h
  rw [toList_join_join hb hc, toList_join_join hb' hc'] at heq
  have hdir := (split_last hc.2 hc'.2 (Or.inr (by simp)) (Or.inr (by simp)) heq).1
  exact join_name_inj hb hb' (String.toList_inj.mp (List.append_cancel_right hdir))

theorem shotName_isName (order : ℕ) (action : Action) :
    IsName (shotName order action) ∧ '.' ∈ (shotName order action).toList := by
  have hdot : '.' ∈ (shotName order action).toList := by simp [shotName]
  refine ⟨⟨fun h => ?_, fun h => ?_⟩, hdot⟩
  · rw [h] at hdot
    cases hdot
  · unfold shotName at h
    rw [String.toList_append, String.toList_append, String.toList_append] at h
    have hpad : '/' ∉ (pad3 order).toList := by
      rw [toList_pad3]
      intro hmem
      rcases List.mem_append.mp hmem with hz | hd
      · exact absurd (List.eq_of_mem_replicate hz) (by decide)
      · exact absurd (Json.isDigit_toDigits _ _ hd) (by decide)
    have hname : '/' ∉ action.name.toList := by cases action <;> decide
    simp only [List.mem_append] at h
    rcases h with ((h | h) | h) | h
    · exact hpad h
    · exact absurd h (by decide)
    · exact hname h
    · exact absurd h (by decide)

end Paths

section Disjoint

variable [PyText]

theorem declares_of_confined {step : WorkflowStep}
    (h : step.action ≠ .fileOp ∧ step.action ≠ .uploadFile ∧ step.action ≠ .httpRequest) :
    step.declares = [] := by
  unfold WorkflowStep.declares
  cases ha : step.action <;> first | rfl | exact absurd ha (by tauto)

/-- What a confined run writes. -/
theorem Footprint.writes {cfg : Config} {begun : List (ℤ × Outputs)} {calls : Calls}
    (h : Footprint cfg begun calls) (hw : cfg.workflow.Confined) {c : Call × Answer} (hc : c ∈ calls)
    {path : String} (hp : c.1.Writes path) :
    path = Path.join cfg.downloadDir cfg.dirName ∨ path = Path.join cfg.screenshotDir cfg.dirName ∨
      ∃ name, IsName name ∧ '.' ∈ name.toList ∧
        path = Path.join (Path.join cfg.screenshotDir cfg.dirName) name := by
  rcases h c hc _ hp with (hown | ⟨b, -, raw, hraw, hd⟩) | ⟨step, hs, hd⟩
  · rcases hown with hdl | hread | ⟨dir, hdir, hshot⟩
    · exact Or.inl (Option.some.inj (HostEffect.writes.inj hdl))
    · cases hread
    · have hdir' : dir = Path.join cfg.screenshotDir cfg.dirName := by
        simp only [Config.options] at hdir
        split_ifs at hdir
        exact (Option.some.inj hdir).symm
      subst hdir'
      rcases hshot with hd | ⟨order, action, hf⟩
      · exact Or.inr (Or.inl (Option.some.inj (HostEffect.writes.inj hd)))
      · obtain ⟨hname, hdot⟩ := shotName_isName order action
        exact Or.inr (Or.inr ⟨_, hname, hdot, Option.some.inj (HostEffect.writes.inj hf)⟩)
  · have hconf := hw raw (List.mem_append_left _ (mem_of_pyGet hraw))
    rw [← resolveStepRuntime_action raw b.2] at hconf
    rw [declares_of_confined hconf] at hd
    cases hd
  · rw [declares_of_confined (hw step (List.mem_append_right _ hs))] at hd
    cases hd

/-- **Main result.** Two executions of workflows without file, upload and request steps never write
the same path, whatever they do: their ids keep them apart. -/
theorem writes_disjoint {cfg cfg' : Config} (env env' : Env) (σ σ' : ℕ → RunState → Input)
    (n n' : ℕ) (hw : cfg.workflow.Confined) (hw' : cfg'.workflow.Confined)
    (hdl : cfg'.downloadDir = cfg.downloadDir) (hss : cfg'.screenshotDir = cfg.screenshotDir)
    (hid : IsName cfg.dirName ∧ '.' ∉ cfg.dirName.toList)
    (hid' : IsName cfg'.dirName ∧ '.' ∉ cfg'.dirName.toList) (hne : cfg.dirName ≠ cfg'.dirName) :
    ∀ c ∈ (finish cfg env (execution cfg env σ n)).2.calls,
      ∀ c' ∈ (finish cfg' env' (execution cfg' env' σ' n')).2.calls, ∀ path,
        c.1.Writes path → ¬ c'.1.Writes path := by
  intro c hc c' hc' path hp hp'
  have h := (footprint cfg env σ n).writes hw hc hp
  have h' := (footprint cfg' env' σ' n').writes hw' hc' hp'
  rw [hdl, hss] at h'
  have hdot : ∀ {a a' name name' : String}, IsName name → '.' ∉ name.toList → IsName name' →
      '.' ∈ name'.toList → Path.join a name ≠ Path.join a' name' := by
    intro a a' name name' h1 h2 h3 h4 heq
    obtain rfl := join_name_inj h1 h3 heq
    exact h2 h4
  rcases h with rfl | rfl | ⟨name, hname, hd, rfl⟩
  · rcases h' with h' | h' | ⟨name', hname', hd', h'⟩
    · exact hne (join_name_inj hid.1 hid'.1 h')
    · exact hne (join_name_inj hid.1 hid'.1 h')
    · exact hdot hid.1 hid.2 hname' hd' h'
  · rcases h' with h' | h' | ⟨name', hname', hd', h'⟩
    · exact hne (join_name_inj hid.1 hid'.1 h')
    · exact hne (join_name_inj hid.1 hid'.1 h')
    · exact hdot hid.1 hid.2 hname' hd' h'
  · rcases h' with h' | h' | ⟨name', hname', hd', h'⟩
    · exact hdot hid'.1 hid'.2 hname hd h'.symm
    · exact hdot hid'.1 hid'.2 hname hd h'.symm
    · exact hne (join_join_inj hid.1 hid'.1 hname hname' h')

end Disjoint

/-! ## Two visits -/

section Example

attribute [local instance] asciiText

/-- One step with a picture, under an id. -/
def visitAs (id : String) : Config where
  workflow :=
    { settings := { humanMode := false }
      steps := [
        { order := 1, order_pos := WorkflowStep.order_one, name := "Open", action := .navigate }] }
  executionId := some id
  screenshotDir := "./screenshots"

/-- A world in which every call succeeds. -/
def answersNone : Env where
  answer _ _ := { result := .ok .none }
  clock _ := 0

theorem visitAs_confined (id : String) : (visitAs id).workflow.Confined := by
  intro step hs
  obtain rfl := List.mem_singleton.mp hs
  exact ⟨nofun, nofun, nofun⟩

theorem writes_disjoint_visitAs :
    ((finish (visitAs "a") answersNone (execution (visitAs "a") answersNone (fun _ _ => {}) 2)).2.calls.any
      fun c => c.1.effects.contains (.writes (some "./screenshots/a/001_navigate.png"))) = true ∧
    ∀ c ∈ (finish (visitAs "a") answersNone (execution (visitAs "a") answersNone (fun _ _ => {}) 2)).2.calls,
      ∀ c' ∈ (finish (visitAs "b") answersNone (execution (visitAs "b") answersNone (fun _ _ => {}) 2)).2.calls,
        ∀ path, c.1.Writes path → ¬ c'.1.Writes path := by
  refine ⟨by decide +kernel, ?_⟩
  exact writes_disjoint answersNone answersNone _ _ 2 2 (visitAs_confined "a") (visitAs_confined "b") rfl rfl
    ⟨⟨by decide, by decide⟩, by decide⟩ ⟨⟨by decide, by decide⟩, by decide⟩ (by decide)

end Example

end ScoutEngine
