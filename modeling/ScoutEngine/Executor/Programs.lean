import ScoutEngine.Executor.Loop

/-!
# What the programs of the executor use

The programs that the step loop runs are made of calls, exceptions and accesses to the network
monitor. None of them closes the driver, and only the look-ahead and the wait steps write the
monitor.

* `Uses`: such programs; `Browses`, **`Uses.browses`**: the calls that they make.
* `Acts`: such programs that write no picture either; `Acts.pictures_eval`.
* `resolveTarget_acts`, `WorkflowStep.IsWait`, **`runAction_acts`**, `screenshot_uses`,
  `notify_acts`, `lookAhead_acts`, `setUp_acts`.
* **`executeStep_browses`**: the calls of a step.
* `Maintained`, **`Maintained.next`**: a relation that every piece of a move keeps is kept by the move.
-/

set_option autoImplicit false

namespace ScoutEngine

open Interaction

variable [PyText]

/-- **Programs that do not close the driver**, and write the network monitor only if `w`. -/
inductive Uses (w : Prop) : {α : Type} → StepM α → Prop where
  | pure {α : Type} (a : α) : Uses w (Pure.pure a : StepM α)
  | throw {α : Type} (e : PyExc) : Uses w (MonadExcept.throw e : StepM α)
  | call {c : Call} (h : c ≠ .closeDriver) : Uses w (ScoutEngine.call c)
  | get : Uses w (MonadState.get : StepM NetworkMonitor)
  | set (h : w) (m : NetworkMonitor) : Uses w (MonadStateOf.set m : StepM PUnit)
  | modify (h : w) (f : NetworkMonitor → NetworkMonitor) : Uses w (modify f : StepM PUnit)
  | bind {α β : Type} {p : StepM α} {f : α → StepM β} (hp : Uses w p) (hf : ∀ a, Uses w (f a)) :
      Uses w (p >>= f)
  | tryCatch {α : Type} {p : StepM α} {f : PyExc → StepM α} (hp : Uses w p)
      (hf : ∀ e, Uses w (f e)) : Uses w (MonadExcept.tryCatch p f)

namespace Uses

variable {w : Prop} {α : Type}

theorem raise (kind : ExcKind) (msg : String) : Uses w (ScoutEngine.raise kind msg : StepM α) :=
  throw _

theorem ite {c : Prop} [Decidable c] {p q : StepM α} (hp : Uses w p) (hq : Uses w q) :
    Uses w (if c then p else q) := by
  split_ifs
  · exact hp
  · exact hq

end Uses

/-- More calls, none of which closes the driver. -/
def Browses (calls calls' : Calls) : Prop :=
  ∃ new : Calls, calls' = calls ++ new ∧ ∀ c ∈ new, c.1 ≠ .closeDriver

omit [PyText] in
theorem Browses.refl (calls : Calls) : Browses calls calls :=
  ⟨[], (List.append_nil _).symm, fun _ hc => absurd hc List.not_mem_nil⟩

omit [PyText] in
theorem Browses.trans {calls calls' calls'' : Calls} (h : Browses calls calls')
    (h' : Browses calls' calls'') : Browses calls calls'' := by
  obtain ⟨new, rfl, hn⟩ := h
  obtain ⟨new', rfl, hn'⟩ := h'
  refine ⟨new ++ new', List.append_assoc _ _ _, fun c hc => ?_⟩
  exact (List.mem_append.mp hc).elim (hn c) (hn' c)

theorem eval_call (env : Env) (c : Call) (m : NetworkMonitor) (calls : Calls) :
    eval env (call c) m calls = (((env.answer calls c).result,
      (env.answer calls c).delivered.foldl NetworkMonitor.receive m),
        calls ++ [(c, env.answer calls c)]) := rfl

/-- **Such programs do not close the driver.** -/
theorem Uses.browses {w : Prop} {α : Type} {p : StepM α} (h : Uses w p) (env : Env)
    (m : NetworkMonitor) (calls : Calls) : Browses calls (eval env p m calls).2 := by
  induction h generalizing m calls with
  | pure | throw | get | set | modify => exact .refl calls
  | @call c h =>
    rw [eval_call]
    refine ⟨[(c, env.answer calls c)], rfl, fun d hd => ?_⟩
    obtain rfl := List.mem_singleton.mp hd
    exact h
  | bind _ _ ihp ihf =>
    rw [eval_bind]
    have hp := ihp m calls
    generalize eval env _ m calls = r at hp ⊢
    rcases r with ⟨⟨_ | a, m'⟩, calls'⟩
    · exact hp
    · exact hp.trans (ihf a m' calls')
  | tryCatch _ _ ihp ihf =>
    rw [eval_tryCatch]
    have hp := ihp m calls
    generalize eval env _ m calls = r at hp ⊢
    rcases r with ⟨⟨e | a, m'⟩, calls'⟩
    · exact hp.trans (ihf e m' calls')
    · exact hp

/-! ## Programs without pictures -/

/-- The path that a call writes a picture to. -/
def Call.picturePath : Call → Option String
  | .writePng path _ => some path
  | _ => none

/-- **Programs that neither close the driver nor write a picture**, and write the network monitor
only if `w`. -/
inductive Acts (w : Prop) : {α : Type} → StepM α → Prop where
  | pure {α : Type} (a : α) : Acts w (Pure.pure a : StepM α)
  | throw {α : Type} (e : PyExc) : Acts w (MonadExcept.throw e : StepM α)
  | call {c : Call} (h : c ≠ .closeDriver) (hp : c.picturePath = none) : Acts w (ScoutEngine.call c)
  | get : Acts w (MonadState.get : StepM NetworkMonitor)
  | set (h : w) (m : NetworkMonitor) : Acts w (MonadStateOf.set m : StepM PUnit)
  | modify (h : w) (f : NetworkMonitor → NetworkMonitor) : Acts w (modify f : StepM PUnit)
  | bind {α β : Type} {p : StepM α} {f : α → StepM β} (hp : Acts w p) (hf : ∀ a, Acts w (f a)) :
      Acts w (p >>= f)
  | tryCatch {α : Type} {p : StepM α} {f : PyExc → StepM α} (hp : Acts w p)
      (hf : ∀ e, Acts w (f e)) : Acts w (MonadExcept.tryCatch p f)

/-- The paths that pictures were written to, in order. -/
def pictures (calls : Calls) : List String := calls.filterMap fun c => c.1.picturePath

namespace Acts

variable {w : Prop} {α : Type}

theorem raise (kind : ExcKind) (msg : String) : Acts w (ScoutEngine.raise kind msg : StepM α) :=
  throw _

theorem ite {c : Prop} [Decidable c] {p q : StepM α} (hp : Acts w p) (hq : Acts w q) :
    Acts w (if c then p else q) := by
  split_ifs
  · exact hp
  · exact hq

theorem uses {p : StepM α} (h : Acts w p) : Uses w p := by
  induction h with
  | pure a => exact .pure a
  | throw e => exact .throw e
  | call h => exact .call h
  | get => exact .get
  | set h m => exact .set h m
  | modify h f => exact .modify h f
  | bind _ _ ihp ihf => exact .bind ihp ihf
  | tryCatch _ _ ihp ihf => exact .tryCatch ihp ihf

/-- **Such programs write no picture.** -/
theorem pictures_eval {p : StepM α} (h : Acts w p) (env : Env) (m : NetworkMonitor)
    (calls : Calls) : pictures (eval env p m calls).2 = pictures calls := by
  induction h generalizing m calls with
  | pure | throw | get | set | modify => rfl
  | @call c _ hp =>
    rw [eval_call]
    unfold pictures
    simp [List.filterMap_append, hp]
  | bind _ _ ihp ihf =>
    rw [eval_bind]
    have hp := ihp m calls
    generalize eval env _ m calls = r at hp ⊢
    rcases r with ⟨⟨_ | a, m'⟩, calls'⟩
    · exact hp
    · exact (ihf a m' calls').trans hp
  | tryCatch _ _ ihp ihf =>
    rw [eval_tryCatch]
    have hp := ihp m calls
    generalize eval env _ m calls = r at hp ⊢
    rcases r with ⟨⟨e | a, m'⟩, calls'⟩
    · exact (ihf e m' calls').trans hp
    · exact hp

end Acts

/-! ## The actions -/

variable {w : Prop}

theorem liftExcept_acts {α : Type} (r : Except PyExc α) :
    Acts w (scroll.liftExcept r) := by
  cases r with
  | ok a => exact .pure a
  | error e => exact .throw e

theorem resolveParts_acts (parts : List String) (target : Target) :
    Acts w (resolveParts target parts) := by
  induction parts generalizing target with
  | nil => exact .pure _
  | cons part parts ih =>
    refine .bind (.call nofun rfl) fun v => ?_
    cases v with
    | none => exact .raise _ _
    | _ => exact ih _

theorem resolveTarget_acts (frameContext : Option String) :
    Acts w (resolveTarget frameContext) := by
  unfold resolveTarget
  cases frameContext with
  | none => exact .pure _
  | some f => exact .ite (.pure _) (resolveParts_acts _ _)

theorem pressKey_acts (value : Option String) : Acts w (pressKey value) := by
  cases value with
  | none => exact .raise _ _
  | some v => exact .bind (.call nofun rfl) fun _ => .bind (.call nofun rfl) fun _ => .pure _

theorem scroll_acts (target : Target) (value : Option String) :
    Acts w (scroll target value) := by
  have hrun : ∀ script, Acts w (do
      let _ ← call (.runJs target script)
      pure ()) := fun _ => .bind (.call nofun rfl) fun _ => .pure _
  unfold scroll
  dsimp only
  refine .ite (hrun _) (.ite (hrun _) ?_)
  exact .ite (.bind (.pure _) fun _ => hrun _) (.ite (.bind (.pure _) fun _ => hrun _)
    (.bind (liftExcept_acts _) fun _ => hrun _))

theorem item_acts (v : PyVal) (key : String) : Acts w (item v key) := by
  cases v with
  | dict kvs =>
    unfold item
    dsimp only
    cases Dict.get key kvs with
    | some w => exact .pure w
    | none => exact .raise _ _
  | _ => exact .raise _ _

theorem hover_acts (selector : Option String) : Acts w (hover selector) := by
  refine .bind (.call nofun rfl) fun pos => .ite ?_ (.raise _ _)
  exact .bind (item_acts _ _) fun _ => .bind (item_acts _ _) fun _ =>
    .bind (.call nofun rfl) fun _ => .pure _

theorem wait_acts (target : Target) (step : WorkflowStep) (timeout : ℕ) :
    Acts w (wait target step timeout) := by
  unfold wait
  refine .ite (.bind (.call nofun rfl) fun _ => .pure _) (.ite ?_ (.bind (.call nofun rfl) fun _ => .pure _))
  exact .bind (liftExcept_acts _) fun _ => .bind (.call nofun rfl) fun _ => .pure _

theorem fillSecret_acts (target : Target) (step : WorkflowStep) :
    Acts w (fillSecret target step) := by
  unfold fillSecret
  exact .ite (.bind (.call nofun rfl) fun _ => .bind (.call nofun rfl) fun _ => .pure _)
    (.bind (.call nofun rfl) fun _ => .pure _)

theorem uploadFile_acts (target : Target) (step : WorkflowStep) :
    Acts w (uploadFile target step) := by
  unfold uploadFile
  refine .bind (.call nofun rfl) fun _ => .bind (.call nofun rfl) fun supported => ?_
  refine .ite (.bind (.call nofun rfl) fun _ => .pure _) (.bind (.call nofun rfl) fun _ => .bind (.call nofun rfl) ?_)
  intro nodeId
  cases nodeId with
  | none => exact .bind (.raise _ _) fun _ => .pure _
  | _ => exact .bind (.call nofun rfl) fun _ => .bind (.call nofun rfl) fun _ => .pure _

theorem httpRequest_acts (step : WorkflowStep) : Acts w (httpRequest step) := by
  unfold httpRequest
  refine .bind (.call nofun rfl) fun _ => .bind (.tryCatch (.call nofun rfl) fun e => .ite (.call nofun rfl) (.throw _)) ?_
  exact fun _ => .bind (.call nofun rfl) fun _ => .bind (.call nofun rfl) fun _ => .pure _

theorem needPath_acts (path : Option String) : Acts w (needPath path) := by
  cases path with
  | none => exact .raise _ _
  | some p => exact .pure p

theorem listing_acts (source : Option String) (entries : List String) :
    Acts w (listing source entries) := by
  unfold listing
  exact .ite (.bind (.pure _) fun _ => .pure _) (.bind (needPath_acts _) fun _ => .pure _)

theorem fileOp_acts (step : WorkflowStep) : Acts w (fileOp step) := by
  unfold fileOp
  split
  · exact .bind (needPath_acts _) fun _ => .bind (.call nofun rfl) fun _ => .pure _
  · exact .bind (.call nofun rfl) fun _ => .pure _
  · exact .bind (needPath_acts _) fun _ => .bind (.call nofun rfl) fun _ => .bind (.call nofun rfl) fun _ =>
      .pure _
  · exact .bind (.call nofun rfl) fun _ => listing_acts _ _
  · exact .bind (.call nofun rfl) fun _ => listing_acts _ _
  · exact .raise _ _

/-- A wait step. -/
def WorkflowStep.IsWait (step : WorkflowStep) : Prop :=
  step.action = .waitForDownload ∨ step.action = .waitForResponse

instance (step : WorkflowStep) : Decidable step.IsWait := inferInstanceAs (Decidable (_ ∨ _))

omit [PyText] in
theorem raise_bind {α β : Type} (kind : ExcKind) (msg : String) (f : α → StepM β) :
    raise kind msg >>= f = raise kind msg := rfl

omit [PyText] in
/-- Without a monitor the check for an active one raises. -/
theorem requireMonitor_deaf {o : StepOptions} (h : o.hasMonitor = false) (msg : String) :
    requireMonitor o msg = raise .runtimeError msg := by
  unfold requireMonitor
  rw [h]
  rfl

theorem requireMonitor_acts (o : StepOptions) (msg : String) : Acts w (requireMonitor o msg) :=
  .bind .get fun _ => .ite (.raise _ _) (.pure _)

theorem pollResponse_acts (pattern : Option String) (n : ℕ) : Acts w (pollResponse pattern n) := by
  induction n with
  | zero => exact .pure _
  | succ n ih =>
    refine .bind .get fun m => .bind (liftExcept_acts _) fun found => ?_
    exact .ite (.bind (.call nofun rfl) fun _ => ih) (.pure _)

/-- A wait for a download writes the monitor if there is one. -/
theorem waitForDownload_acts {o : StepOptions} (timeout : ℕ) (h : o.hasMonitor = true → w) :
    Acts w (waitForDownload o timeout) := by
  unfold waitForDownload
  cases ho : o.hasMonitor with
  | false =>
    rw [requireMonitor_deaf ho, raise_bind]
    exact .raise _ _
  | true =>
    refine .bind (requireMonitor_acts _ _) fun _ => .bind (.call nofun rfl) fun _ => ?_
    exact .bind .get fun m => .bind (.set (h ho) _) fun _ => .ite (.raise _ _) (.pure _)

/-- So does a wait for a response. -/
theorem waitForResponse_acts {o : StepOptions} (pattern : Option String) (timeout : ℕ)
    (h : o.hasMonitor = true → w) : Acts w (waitForResponse o pattern timeout) := by
  unfold waitForResponse
  cases ho : o.hasMonitor with
  | false =>
    rw [requireMonitor_deaf ho, raise_bind]
    exact .raise _ _
  | true =>
    refine .bind (requireMonitor_acts _ _) fun _ => .bind (.call nofun rfl) fun _ => ?_
    refine .bind (pollResponse_acts _ _) fun _ => .bind (.modify (h ho) _) fun _ => ?_
    exact .ite (.raise _ _) (.pure _)

/-- **The actions** write the monitor only in a wait step that has one. -/
theorem runAction_acts (o : StepOptions) (step : WorkflowStep) (target : Target)
    (h : step.IsWait → o.hasMonitor = true → w) : Acts w (runAction o step target) := by
  unfold runAction
  dsimp only
  cases ha : step.action with
  | waitForDownload => exact .bind (waitForDownload_acts _ (h (Or.inl ha))) fun _ => .pure _
  | waitForResponse => exact .bind (waitForResponse_acts _ _ (h (Or.inr ha))) fun _ => .pure _
  | click => exact .ite (.raise _ _) (.bind (.call nofun rfl) fun _ => .pure _)
  | type =>
    exact .ite (.bind (.call nofun rfl) fun _ => .bind (.call nofun rfl) fun _ => .pure _)
      (.bind (.call nofun rfl) fun _ => .pure _)
  | scroll => exact .bind (scroll_acts _ _) fun _ => .pure _
  | wait => exact .bind (wait_acts _ _ _) fun _ => .pure _
  | pressKey => exact .bind (pressKey_acts _) fun _ => .pure _
  | hover => exact .bind (hover_acts _) fun _ => .pure _
  | extract => exact .ite (.raise _ _) (.call nofun rfl)
  | conditional =>
    cases conditionMet step with
    | ok met => exact .pure _
    | error e => exact .throw e
  | loop => exact .pure _
  | fillSecret => exact fillSecret_acts _ _
  | uploadFile => exact uploadFile_acts _ _
  | httpRequest => exact httpRequest_acts _
  | fileOp => exact fileOp_acts _
  | handoff => exact .raise _ _
  | _ => exact .bind (.call nofun rfl) fun _ => .pure _

/-! ## Steps -/

theorem resolveTarget_uses (frameContext : Option String) : Uses w (resolveTarget frameContext) :=
  (resolveTarget_acts frameContext).uses

theorem runAction_uses (o : StepOptions) (step : WorkflowStep) (target : Target)
    (h : step.IsWait → o.hasMonitor = true → w) : Uses w (runAction o step target) :=
  (runAction_acts o step target h).uses

theorem pollResponse_uses (pattern : Option String) (n : ℕ) : Uses w (pollResponse pattern n) :=
  (pollResponse_acts pattern n).uses

theorem screenshot_uses (o : StepOptions) (step : WorkflowStep) : Uses w (screenshot o step) := by
  unfold screenshot
  cases o.screenshotDir with
  | none => exact .pure _
  | some dir =>
    refine .tryCatch (.bind (.call nofun) fun _ => .bind (.call nofun) fun data => ?_)
      fun _ => .pure _
    exact .bind (.call nofun) fun _ => .pure _

/-- **A step does not close the driver.** -/
theorem executeStep_browses (env : Env) (o : StepOptions) (step : WorkflowStep) (m : NetworkMonitor)
    (calls : Calls) : Browses calls (executeStep env o step m calls).2.2 := by
  have hact : Uses True (resolveTarget step.frameContext >>= runAction o step) :=
    .bind (resolveTarget_uses _) fun _ => runAction_uses _ _ _ fun _ _ => trivial
  have hbrowse := hact.browses env m calls
  unfold executeStep stepBody
  unfold eval at hbrowse
  dsimp only
  rw [StateT.run_bind, run_bind]
  generalize run env.answer
    (((resolveTarget step.frameContext >>= runAction o step).run).run m) calls = r at hbrowse ⊢
  obtain ⟨⟨out, m'⟩, calls'⟩ := r
  refine hbrowse.trans ?_
  have hshot := (screenshot_uses (w := True) o step).browses env m' calls'
  unfold eval at hshot
  dsimp only
  rw [StateT.run_bind, run_bind]
  exact hshot

/-! ## The other programs -/

theorem notify_acts (cfg : Config) (r : StepResult) : Acts w (notify cfg r) :=
  .ite (.bind (.call nofun rfl) fun _ => .pure _) (.pure _)

theorem lookAhead_acts (nextStep : Option WorkflowStep) : Acts True (lookAhead nextStep) := by
  unfold lookAhead
  cases nextStep with
  | none => exact .pure _
  | some step =>
    refine .ite (.bind .get fun m => ?_) (.pure _)
    cases m.start step.urlPattern with
    | error e => exact .throw e
    | ok m =>
      refine .bind (.set trivial m) fun _ => .bind (.call nofun rfl) fun _ => ?_
      exact .bind (.call nofun rfl) fun _ => .pure _

theorem setUp_acts (cfg : Config) : Acts w (setUp cfg) := by
  have hdir : Acts w (setupDownloadDir (Path.join cfg.downloadDir cfg.dirName)) :=
    .bind (.call nofun rfl) fun _ => .tryCatch
      (.bind (.call nofun rfl) fun _ => .bind (.call nofun rfl) fun _ => .pure _) fun _ => .pure _
  have hinfo : Acts w (browserInfo cfg) :=
    .tryCatch (.bind (.call nofun rfl) fun _ => .bind (.call nofun rfl) fun _ =>
      .bind (.call nofun rfl) fun _ => .pure _) fun _ => .pure _
  unfold setUp
  refine .bind (.call nofun rfl) fun _ => .ite ?_ ?_
  · exact .bind (.call nofun rfl) fun _ => .bind hdir fun _ => .ite hinfo (.pure _)
  · exact .bind hdir fun _ => .ite hinfo (.pure _)

theorem notify_uses (cfg : Config) (r : StepResult) : Uses w (notify cfg r) :=
  (notify_acts cfg r).uses

theorem lookAhead_uses (nextStep : Option WorkflowStep) : Uses True (lookAhead nextStep) :=
  (lookAhead_acts nextStep).uses

theorem setUp_uses (cfg : Config) : Uses w (setUp cfg) := (setUp_acts cfg).uses

/-! ## Moves -/

/-- **A relation of states that every piece of a move keeps**: changes of the variables and of the
registry entry of the execution, the programs, and the steps. -/
structure Maintained (cfg : Config) (env : Env) (R : RunState → RunState → Prop) : Prop where
  refl : ∀ s, R s s
  trans : ∀ {s s' s''}, R s s' → R s' s'' → R s s''
  control : ∀ s f, R s (s.control f)
  publish : ∀ s f, R s (s.publish cfg fun id => Sessions.alter id f)
  exec : ∀ s (p : StepM Unit), Uses True p → R s (s.exec env p).2
  step : ∀ s step, R s { s with
    monitor := (executeStep env cfg.options step s.monitor s.calls).2.1
    calls := (executeStep env cfg.options step s.monitor s.calls).2.2 }

namespace Maintained

variable {cfg : Config} {env : Env} {R : RunState → RunState → Prop} (h : Maintained cfg env R)
include h

theorem andThen {p : StepM Unit} (hp : Uses True p) {k : RunState → RunState}
    (hk : ∀ s, R s (k s)) (s : RunState) : R s (s.andThen env p k) := by
  have he := h.exec s p hp
  unfold RunState.andThen
  generalize s.exec env p = r at he ⊢
  rcases r with ⟨e | _, s'⟩
  · exact h.trans he (h.control _ _)
  · exact h.trans he (hk _)

theorem waitForResume (p : Pause) (s : RunState) : R s (waitForResume cfg p s) :=
  h.trans (h.publish _ _) (h.control _ _)

theorem endHandoff (step : WorkflowStep) (v : PyVal) (s : RunState) :
    R s (endHandoff cfg env step v s) :=
  h.trans (h.control _ _) (h.andThen (notify_uses _ _)
    (fun _ => h.trans (h.publish _ _) (h.control _ _)) _)

theorem abortHandoff (step : WorkflowStep) (s : RunState) : R s (abortHandoff cfg env step s) :=
  h.trans (h.control _ _) (h.andThen (notify_uses _ _) (fun _ => h.control _ _) _)

theorem showStep (step : WorkflowStep) (s : RunState) : R s (showStep cfg step s) := h.publish s _

theorem handoff (step : WorkflowStep) (s : RunState) : R s (handoff cfg env step s) := by
  unfold ScoutEngine.handoff
  dsimp only
  refine h.trans (h.showStep step s) ?_
  split_ifs
  · exact h.waitForResume _ _
  · exact h.endHandoff _ _ _

theorem account (step : WorkflowStep) (r : StepResult) (s : RunState) :
    R s (account cfg step r s) := by
  unfold ScoutEngine.account
  cases r.status with
  | passed => exact h.control _ _
  | failed =>
    dsimp only
    refine h.trans (h.control s Control.countFail) ?_
    split_ifs
    · exact h.trans (h.control _ _) (h.waitForResume _ _)
    · cases cfg.policy step <;> exact h.control _ _

theorem normalStep (step : WorkflowStep) (s : RunState) :
    R s (normalStep cfg env step (ScoutEngine.account cfg step) s) := by
  unfold ScoutEngine.normalStep
  dsimp only
  refine h.trans (h.showStep step s) (h.trans (h.step _ step) ?_)
  exact h.trans (h.trans (h.control _ _) (h.publish _ _))
    (h.andThen (notify_uses _ _) (fun _ => h.account _ _ _) _)

theorem beginStep (step : WorkflowStep) (s : RunState) :
    R s (beginStep cfg env step (ScoutEngine.account cfg step) s) := by
  refine h.trans (h.control s Control.begun) (h.andThen (lookAhead_uses _) (fun s => ?_) _)
  split_ifs
  · exact h.handoff _ _
  · exact h.normalStep _ _

theorem head (x : Input) (s : RunState) : R s (head cfg env x s) := by
  unfold ScoutEngine.head
  by_cases hlt : s.stepIdx < cfg.steps.length
  · rw [if_pos hlt]
    cases pyGet cfg.steps s.stepIdx with
    | none => exact h.control _ _
    | some raw =>
      dsimp only
      split_ifs
      · exact h.control _ _
      · exact h.waitForResume _ _
      · exact h.beginStep _ _
  · rw [if_neg hlt]
    exact h.control _ _

theorem wake (p : Pause) (x : Input) (s : RunState) : R s (wake cfg env p x s) := by
  have hrun : R s (s.publish cfg fun id => Sessions.setRunning id) := h.publish s _
  unfold ScoutEngine.wake
  generalize x.resume.getD { action := .abort } = i
  dsimp only
  refine h.trans hrun (h.trans (h.control _ (Control.woken p i)) ?_)
  cases p.kind with
  | requested => exact h.control _ _
  | error => exact h.trans (h.control _ _) (h.control _ _)
  | handoff =>
    dsimp only
    split_ifs
    · exact h.abortHandoff _ _
    · exact h.endHandoff _ _ _

/-- **A move keeps the relation.** -/
theorem next (x : Input) (s : RunState) : R s (next cfg env x s) := by
  unfold ScoutEngine.next
  cases s.halt with
  | some k => exact h.refl s
  | none =>
    cases s.waiting with
    | some p => exact h.wake p x s
    | none => exact h.head x s

/-- **So does a run.** -/
theorem execution (σ : ℕ → RunState → Input) (n : ℕ) :
    R (entry cfg env) (execution cfg env σ n) := by
  induction n with
  | zero => exact h.refl _
  | succ n ih => exact h.trans ih (h.next _ _)

end Maintained

end ScoutEngine
