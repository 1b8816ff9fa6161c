import ScoutEngine.Executor.Trace
import ScoutEngine.Executor.Messages
import ScoutEngine.Json.Numbers

/-!
# The pictures of a run

The file of a picture is named by the order number and the action of its step.

* `shotName`, `StepOptions.shotPath`; **`shotPath_inj`**: different numbers or actions, different
  files.
* `Draws`: what a program writes and how it ends; `screenshot_draws`, **`executeStep_shot`**.
* `Adds`, **`next_adds`**: what a move adds to the results and to the pictures.
* `PicturesKept`: each recorded path is that of one result, and its picture is the last one written
  there; **`pictures_kept_iff`**: so it is iff every step whose picture is written finds no recorded
  picture of its number and action; `leave_pictures`.
* `loop_overwrites`: a loop takes the picture of its body twice.
-/

set_option autoImplicit false

namespace ScoutEngine

open Interaction

/-! ## File names -/

/-- The name of a screenshot. -/
def shotName (order : ℕ) (action : Action) : String := pad3 order ++ "_" ++ action.name ++ ".png"

theorem Action.name_injective : Function.Injective Action.name := by
  let all : List Action :=
    [.navigate, .navigateNewTab, .click, .type, .select, .scroll, .wait, .waitForDownload,
      .waitForResponse, .pressKey, .hover, .clear, .runJs, .handoff, .extract, .conditional, .loop,
      .fillSecret, .uploadFile, .httpRequest, .fileOp]
  have hall : ∀ a, a ∈ all := fun a => by cases a <;> decide
  have hnodup : (all.map Action.name).Nodup := by decide +kernel
  exact fun a b h => List.inj_on_of_nodup_map hnodup (hall a) (hall b) h

theorem toList_pad3 (n : ℕ) : (pad3 n).toList =
    List.replicate (3 - (toString n).length) '0' ++ Nat.toDigits 10 n := by
  unfold pad3
  rw [String.toList_append, String.toList_ofList, Json.toList_toString]

theorem pad3_injective : Function.Injective pad3 := by
  intro m n h
  have hvalue : ∀ k, Json.natOf (pad3 k).toList = k := by
    intro k
    rw [toList_pad3, Json.natOf_append, Json.natOf_zeros, Json.natOf_toDigits, zero_mul, zero_add]
  rw [← hvalue m, h, hvalue n]

theorem digits_shotName (order : ℕ) (action : Action) :
    (shotName order action).toList.takeWhile Char.isDigit = (pad3 order).toList := by
  have hdigits : ∀ c ∈ (pad3 order).toList, c.isDigit = true := by
    intro c hc
    rw [toList_pad3] at hc
    exact (List.mem_append.mp hc).elim (Json.isDigit_zeros _ c) (Json.isDigit_toDigits _ c)
  have hsplit : (shotName order action).toList =
      (pad3 order).toList ++ '_' :: (action.name ++ ".png").toList := by
    simp [shotName, String.toList_append]
  rw [hsplit]
  refine Json.takeWhile_digits hdigits fun c hc => ?_
  rw [← Option.some.inj hc]
  rfl

/-- **Different numbers or actions have different names.** -/
theorem shotName_inj {m n : ℕ} {a b : Action} (h : shotName m a = shotName n b) :
    m = n ∧ a = b := by
  have hpad : pad3 m = pad3 n := by
    rw [← String.toList_inj, ← digits_shotName m a, h, digits_shotName]
  refine ⟨pad3_injective hpad, Action.name_injective ?_⟩
  unfold shotName at h
  rw [hpad] at h
  exact (String.append_right_inj _).mp ((String.append_left_inj _).mp h)

theorem head_shotName (order : ℕ) (action : Action) :
    (shotName order action).toList.head? ≠ some '/' := by
  intro hhead
  have hdigits := digits_shotName order action
  rw [List.eq_cons_of_mem_head? hhead, List.takeWhile_cons_of_neg (by decide), toList_pad3] at hdigits
  exact Nat.toDigits_ne_nil (List.append_eq_nil_iff.mp hdigits.symm).2

theorem join_shotName_inj {dir : String} {m n : ℕ} {a b : Action}
    (h : Path.join dir (shotName m a) = Path.join dir (shotName n b)) : m = n ∧ a = b := by
  unfold Path.join at h
  rw [if_neg (head_shotName m a), if_neg (head_shotName n b)] at h
  refine shotName_inj ?_
  split_ifs at h
  · exact (String.append_right_inj _).mp h
  · exact (String.append_right_inj _).mp h

section

variable [PyText]

/-- The file of a picture, if there is a directory for it. -/
def StepOptions.shotPath (o : StepOptions) (order : ℕ) (action : Action) : Option String :=
  o.screenshotDir.map fun dir => Path.join dir (shotName order action)

omit [PyText] in
/-- **Different numbers or actions have different files.** -/
theorem StepOptions.shotPath_inj {o : StepOptions} {m n : ℕ} {a b : Action} {path : String}
    (h : o.shotPath m a = some path) (h' : o.shotPath n b = some path) : m = n ∧ a = b := by
  obtain ⟨dir, hdir, rfl⟩ := Option.map_eq_some_iff.mp h
  obtain ⟨dir', hdir', heq⟩ := Option.map_eq_some_iff.mp h'
  obtain rfl := Option.some.inj (hdir.symm.trans hdir')
  exact join_shotName_inj heq.symm

/-! ## Programs -/

/-- **What a program writes and how it ends** satisfy `Q`, whatever it is answered. -/
def Draws {α : Type} (p : StepM α) (Q : Except PyExc α → List String → Prop) : Prop :=
  ∀ env m calls, ∃ ps, pictures (eval env p m calls).2 = pictures calls ++ ps ∧
    Q (eval env p m calls).1.1 ps

namespace Draws

variable {α β : Type} {Q : Except PyExc β → List String → Prop}

omit [PyText] in
theorem pure {a : β} (h : Q (.ok a) []) : Draws (Pure.pure a) Q := fun _ _ _ =>
  ⟨[], (List.append_nil _).symm, h⟩

theorem call (c : Call) : Draws (ScoutEngine.call c) fun _ ps => ps = c.picturePath.toList := by
  intro env m calls
  refine ⟨_, ?_, rfl⟩
  rw [eval_call]
  unfold pictures
  rw [List.filterMap_append]
  cases hp : c.picturePath <;> simp [hp]

omit [PyText] in
theorem bind {p : StepM α} {f : α → StepM β} {R : Except PyExc α → List String → Prop}
    (hp : Draws p R) (herror : ∀ e ps, R (.error e) ps → Q (.error e) ps)
    (hok : ∀ a ps, R (.ok a) ps → Draws (f a) fun out ps' => Q out (ps ++ ps')) :
    Draws (p >>= f) Q := by
  intro env m calls
  obtain ⟨ps, hps, hR⟩ := hp env m calls
  rw [eval_bind]
  generalize eval env p m calls = r at hps hR ⊢
  rcases r with ⟨⟨e | a, m'⟩, calls'⟩
  · exact ⟨ps, hps, herror e ps hR⟩
  · obtain ⟨ps', hps', hQ⟩ := hok a ps hR env m' calls'
    refine ⟨ps ++ ps', ?_, hQ⟩
    rw [← List.append_assoc, ← hps]
    exact hps'

omit [PyText] in
theorem tryCatch {p : StepM β} {f : PyExc → StepM β} {R : Except PyExc β → List String → Prop}
    (hp : Draws p R) (hok : ∀ a ps, R (.ok a) ps → Q (.ok a) ps)
    (herror : ∀ e ps, R (.error e) ps → Draws (f e) fun out ps' => Q out (ps ++ ps')) :
    Draws (MonadExcept.tryCatch p f) Q := by
  intro env m calls
  obtain ⟨ps, hps, hR⟩ := hp env m calls
  rw [eval_tryCatch]
  generalize eval env p m calls = r at hps hR ⊢
  rcases r with ⟨⟨e | a, m'⟩, calls'⟩
  · obtain ⟨ps', hps', hQ⟩ := herror e ps hR env m' calls'
    refine ⟨ps ++ ps', ?_, hQ⟩
    rw [← List.append_assoc, ← hps]
    exact hps'
  · exact ⟨ps, hps, hok a ps hR⟩

end Draws

/-! ## Steps -/

/-- **The picture of a step**: none is written, or one to the file of the step, and then its path
may be recorded. -/
inductive Shot (file recorded : Option String) : List String → Prop where
  | none (h : recorded = none) : Shot file recorded []
  | written {path : String} (hfile : file = some path) (h : recorded = none ∨ recorded = some path) :
      Shot file recorded [path]

/-- What is left when a picture is taken or the attempt fails. After a failure the file may have
been written, but its path is not recorded. -/
def ShotTaken (path : String) : Except PyExc (Option String) → List String → Prop
  | .ok shot, ps => shot = some path ∧ ps = [path]
  | .error _, ps => ps = [] ∨ ps = [path]

theorem capture_draws (dir path : String) (decode : PyVal → PyVal) :
    Draws (do
        let _ ← call (.makedirs dir)
        let data ← call (.cdp "Page.captureScreenshot" [("format", .str "png")])
        let _ ← call (.writePng path (decode data))
        pure (some path)) (ShotTaken path) := by
  refine .bind (.call _) (fun _ _ h => .inl h) fun _ dirs hdirs => ?_
  obtain rfl : dirs = [] := hdirs
  refine .bind (.call _) (fun _ _ h => .inl h) fun data shots hshots => ?_
  obtain rfl : shots = [] := hshots
  refine .bind (.call _) (fun _ _ h => .inr h) fun _ written hwritten => .pure ?_
  obtain rfl : written = [path] := hwritten
  exact ⟨rfl, rfl⟩

/-- **Taking a picture.** -/
theorem screenshot_draws (o : StepOptions) (step : WorkflowStep) :
    Draws (screenshot o step) fun out ps =>
      Shot (o.shotPath step.order step.action) out.toOption.join ps := by
  unfold screenshot StepOptions.shotPath
  cases o.screenshotDir with
  | none => exact .pure (.none rfl)
  | some dir =>
    refine .tryCatch (capture_draws dir _ _) (fun shot ps h => ?_) fun e ps h => .pure ?_
    · obtain ⟨rfl, rfl⟩ := h
      exact .written rfl (.inr rfl)
    · rw [List.append_nil]
      rcases h with rfl | rfl
      · exact .none rfl
      · exact .written rfl (.inl rfl)

/-- **A step** takes its picture after its action. -/
theorem executeStep_shot (env : Env) (o : StepOptions) (step : WorkflowStep) (m : NetworkMonitor)
    (calls : Calls) : ∃ ps,
      pictures (executeStep env o step m calls).2.2 = pictures calls ++ ps ∧
      Shot (o.shotPath step.order step.action) (executeStep env o step m calls).1.screenshotPath
        ps := by
  have hact : Acts True (resolveTarget step.frameContext >>= runAction o step) :=
    .bind (resolveTarget_acts _) fun _ => runAction_acts _ _ _ fun _ _ => trivial
  have hquiet := hact.pictures_eval env m calls
  unfold executeStep stepBody
  unfold eval at hquiet
  dsimp only
  rw [StateT.run_bind, run_bind]
  generalize run env.answer
    (((resolveTarget step.frameContext >>= runAction o step).run).run m) calls = r at hquiet ⊢
  obtain ⟨⟨out, m'⟩, calls'⟩ := r
  dsimp only at hquiet ⊢
  obtain ⟨ps, hps, hshot⟩ := screenshot_draws o step env m' calls'
  rw [hquiet] at hps
  refine ⟨ps, ?_, ?_⟩
  · rw [← hps, StateT.run_bind, run_bind]
    rfl
  · rw [StateT.run_bind, run_bind]
    exact hshot

/-! ## Moves -/

/-- These results and pictures were added to `s`. -/
structure RunState.Since (s : RunState) (rs : List StepResult) (ps : List String) (s' : RunState) :
    Prop where
  results : s'.results = s.results ++ rs
  shots : pictures s'.calls = pictures s.calls ++ ps

namespace RunState

variable {cfg : Config} {env : Env} {s s' : RunState} {rs : List StepResult} {ps : List String}

omit [PyText] in
theorem Since.refl (s : RunState) : s.Since [] [] s :=
  ⟨(List.append_nil _).symm, (List.append_nil _).symm⟩

omit [PyText] in
theorem Since.control (h : s.Since rs ps s') {f : Control → Control}
    (hf : ∀ c, (f c).results = c.results) : s.Since rs ps (s'.control f) :=
  ⟨(hf _).trans h.results, h.shots⟩

omit [PyText] in
theorem Since.record (h : s.Since rs ps s') (r : StepResult) :
    s.Since (rs ++ [r]) ps (s'.control (Control.record r)) :=
  ⟨(congrArg (· ++ [r]) h.results).trans (List.append_assoc _ _ _), h.shots⟩

omit [PyText] in
theorem Since.publish (h : s.Since rs ps s') (cfg : Config) (f : String → Sessions → Sessions) :
    s.Since rs ps (s'.publish cfg f) := by
  unfold RunState.publish
  split_ifs
  · exact ⟨h.results, h.shots⟩
  · exact h

theorem Since.andThen (h : s.Since rs ps s') {p : StepM Unit} (hp : Acts True p)
    {k : RunState → RunState} {P : RunState → Prop} (hk : ∀ s'', s.Since rs ps s'' → P (k s''))
    (hstop : ∀ s'', s.Since rs ps s'' → P s'') : P (s'.andThen env p k) := by
  have hexec : s.Since rs ps (s'.exec env p).2 :=
    ⟨h.results, (hp.pictures_eval env s'.monitor s'.calls).trans h.shots⟩
  unfold RunState.andThen
  generalize s'.exec env p = r at hexec ⊢
  rcases r with ⟨e | _, s''⟩
  · exact hstop _ (hexec.control fun _ => rfl)
  · exact hk _ hexec

end RunState

open RunState

section Pieces

variable {cfg : Config} {env : Env} {s s' : RunState} {rs : List StepResult} {ps : List String}

omit [PyText] in
theorem waitForResume_since (h : s.Since rs ps s') (p : Pause) :
    s.Since rs ps (waitForResume cfg p s') := (h.publish cfg _).control fun _ => rfl

omit [PyText] in
theorem goto_since (h : s.Since rs ps s') (n : ℕ) (v : PyVal) :
    s.Since rs ps (s'.control (Control.goto n v)) :=
  h.control fun c => (Control.resultsAt_goto n v c).1

theorem endHandoff_since (h : s.Since rs ps s') (step : WorkflowStep) (v : PyVal) :
    s.Since (rs ++ [handoffResult step]) ps (endHandoff cfg env step v s') := by
  have hpass : s.Since (rs ++ [handoffResult step]) ps
      (s'.control (Control.passHandoff (handoffResult step))) :=
    ⟨(h.record (handoffResult step)).results, h.shots⟩
  exact hpass.andThen (notify_acts _ _) (fun _ h => goto_since (h.publish cfg _) _ _) fun _ h => h

theorem abortHandoff_since (h : s.Since rs ps s') (step : WorkflowStep) :
    s.Since (rs ++ [abortedResult step]) ps (abortHandoff cfg env step s') :=
  (h.record (abortedResult step)).andThen (notify_acts _ _) (fun _ h => h.control fun _ => rfl)
    fun _ h => h

omit [PyText] in
theorem account_since (h : s.Since rs ps s') (step : WorkflowStep) (r : StepResult) :
    s.Since rs ps (account cfg step r s') := by
  have hresults : (account cfg step r s').results = s'.results := by
    rw [account_toControl, Control.results_account]
  have hcalls : (account cfg step r s').calls = s'.calls := by
    unfold account
    cases r.status with
    | passed => rfl
    | failed =>
      dsimp only
      split_ifs
      · exact (publish_world _ _ _).2
      · cases cfg.policy step <;> rfl
  exact ⟨hresults.trans h.results, (congrArg pictures hcalls).trans h.shots⟩

end Pieces

/-- **What a move adds**: results without a picture, or the result and the picture of the step at
the index. -/
inductive Adds (cfg : Config) (s s' : RunState) : Prop where
  | unseen {rs : List StepResult} (hrs : ∀ r ∈ rs, r.screenshotPath = none)
      (h : s.Since rs [] s') : Adds cfg s s'
  | ran {step : WorkflowStep} {r : StepResult} {ps : List String}
      (hstep : cfg.stepAt s.toControl = some step) (horder : r.stepOrder = step.order)
      (haction : r.action = step.action)
      (hshot : Shot (cfg.options.shotPath step.order step.action) r.screenshotPath ps)
      (h : s.Since [r] ps s') : Adds cfg s s'

section Adds

variable {cfg : Config} {env : Env} {s s' : RunState}

theorem Adds.nothing (h : s.Since [] [] s') : Adds cfg s s' :=
  .unseen (fun _ hr => absurd hr List.not_mem_nil) h

theorem handoff_adds (h : s.Since [] [] s') (step : WorkflowStep) :
    Adds cfg s (handoff cfg env step s') := by
  have hshow : s.Since [] [] (showStep cfg step s') := h.publish cfg _
  unfold handoff
  dsimp only
  split_ifs
  · exact .nothing (waitForResume_since hshow _)
  · exact .unseen (by simp [handoffResult]) (endHandoff_since hshow step _)

theorem normalStep_adds (h : s.Since [] [] s') {step : WorkflowStep}
    (hstep : cfg.stepAt s.toControl = some step) :
    Adds cfg s (normalStep cfg env step (account cfg step) s') := by
  have hshow : s.Since [] [] (showStep cfg step s') := h.publish cfg _
  unfold normalStep
  dsimp only
  obtain ⟨ps, hps, hshot⟩ := executeStep_shot env cfg.options step (showStep cfg step s').monitor
    (showStep cfg step s').calls
  have hof := executeStep_output env cfg.options step (showStep cfg step s').monitor
    (showStep cfg step s').calls
  generalize executeStep env cfg.options step (showStep cfg step s').monitor
    (showStep cfg step s').calls = out at hps hshot hof ⊢
  have hran : s.Since [out.1] ps (({ showStep cfg step s' with
      monitor := out.2.1, calls := out.2.2 }).control fun c => (c.record out.1).capture step out.1) := by
    refine ⟨?_, ?_⟩
    · exact congrArg (· ++ [out.1]) (hshow.results.trans (List.append_nil _))
    · rw [← List.append_nil (pictures s.calls), ← hshow.shots]
      exact hps
  exact (hran.publish cfg _).andThen (notify_acts _ _)
    (fun _ h => .ran hstep hof.order hof.action hshot (account_since h _ _))
    fun _ h => .ran hstep hof.order hof.action hshot h

theorem beginStep_adds {step : WorkflowStep} (hstep : cfg.stepAt s.toControl = some step) :
    Adds cfg s (beginStep cfg env step (account cfg step) s) := by
  have hbegun : s.Since [] [] (s.control Control.begun) := (Since.refl s).control fun _ => rfl
  refine hbegun.andThen (lookAhead_acts _) (fun _ h => ?_) fun _ h => .nothing h
  split_ifs
  · exact handoff_adds h step
  · exact normalStep_adds h hstep

theorem head_adds (cfg : Config) (env : Env) (x : Input) (s : RunState) :
    Adds cfg s (head cfg env x s) := by
  cases hs : cfg.stepAt s.toControl with
  | some step =>
    rw [head_of_stepAt env x hs]
    split_ifs
    · exact .nothing ((Since.refl s).control fun _ => rfl)
    · exact .nothing (waitForResume_since (Since.refl s) _)
    · exact beginStep_adds hs
  | none =>
    rcases head_cases_none env x hs with ⟨-, -, h⟩ | ⟨-, h⟩
    · rw [h]
      exact .nothing ((Since.refl s).control fun _ => rfl)
    · rw [h]
      exact .nothing ((Since.refl s).control fun _ => rfl)

theorem wake_adds (cfg : Config) (env : Env) (p : Pause) (x : Input) (s : RunState) :
    Adds cfg s (wake cfg env p x s) := by
  unfold wake
  generalize x.resume.getD { action := .abort } = i
  dsimp only
  have hw : s.Since [] [] ((s.publish cfg fun id => Sessions.setRunning id).control
      (Control.woken p i)) := ((Since.refl s).publish cfg _).control fun _ => rfl
  cases p.kind with
  | requested => exact .nothing (goto_since hw _ _)
  | error =>
    exact .nothing (goto_since (hw.control (f := Control.setRetrying i) fun _ => rfl) _ _)
  | handoff =>
    dsimp only
    split_ifs
    · exact .unseen (by simp [abortedResult, handoffResult]) (abortHandoff_since hw p.step)
    · exact .unseen (by simp [handoffResult]) (endHandoff_since hw p.step _)

/-- **A move adds results without a picture, or one result with its picture.** -/
theorem next_adds (cfg : Config) (env : Env) (x : Input) (s : RunState) :
    Adds cfg s (next cfg env x s) := by
  unfold next
  cases s.halt with
  | some _ => exact .nothing (Since.refl s)
  | none =>
    cases s.waiting with
    | some p => exact wake_adds cfg env p x s
    | none => exact head_adds cfg env x s

end Adds

/-! ## Runs -/

section Runs

variable (cfg : Config) (env : Env) (σ : ℕ → RunState → Input)

/-- The results that a move records. -/
def recordedBy (k : ℕ) : List StepResult :=
  (execution cfg env σ (k + 1)).results.drop (execution cfg env σ k).results.length

/-- **The pictures are kept**: no two results have the same path, and the last picture that was
written to a recorded path is the one of the move that recorded it. -/
structure PicturesKept (n : ℕ) : Prop where
  apart : (execution cfg env σ n).results.Pairwise fun a b => ∀ path,
    a.screenshotPath = some path → b.screenshotPath ≠ some path
  last : ∀ k < n, ∀ r ∈ recordedBy cfg env σ k, ∀ path, r.screenshotPath = some path →
    ∃ later, pictures (execution cfg env σ n).calls =
      pictures (execution cfg env σ k).calls ++ path :: later ∧ path ∉ later

/-- If a move writes a picture, no result with a picture has the number and the action of its
step. -/
def NewPicture (k : ℕ) : Prop :=
  pictures (execution cfg env σ (k + 1)).calls ≠ pictures (execution cfg env σ k).calls →
    ∀ step, cfg.stepAt (execution cfg env σ k).toControl = some step →
      ∀ r ∈ (execution cfg env σ k).results, r.screenshotPath.isSome = true →
        ¬ (r.stepOrder = step.order ∧ r.action = step.action)

variable {cfg env σ} {n k : ℕ} {r : StepResult} {path : String}

theorem recordedBy_eq {rs : List StepResult}
    (h : (execution cfg env σ (k + 1)).results = (execution cfg env σ k).results ++ rs) :
    recordedBy cfg env σ k = rs := by
  unfold recordedBy
  rw [h, List.drop_left]

theorem results_succ (k : ℕ) : (execution cfg env σ (k + 1)).results =
    (execution cfg env σ k).results ++ recordedBy cfg env σ k := by
  cases next_adds cfg env (σ k (execution cfg env σ k)) (execution cfg env σ k) with
  | unseen _ h | ran _ _ _ _ h => rw [recordedBy_eq h.results, execution_succ, h.results]

theorem entry_results (cfg : Config) (env : Env) : (entry cfg env).results = [] := by
  rcases entry_toControl cfg env with h | ⟨e, h⟩ <;> exact congrArg Control.results h

theorem recorded_of_mem (h : r ∈ (execution cfg env σ n).results) :
    ∃ k < n, r ∈ recordedBy cfg env σ k := by
  induction n with
  | zero =>
    rw [execution, entry_results] at h
    exact absurd h List.not_mem_nil
  | succ n ih =>
    rw [results_succ] at h
    rcases List.mem_append.mp h with h | h
    · obtain ⟨k, hk, hr⟩ := ih h
      exact ⟨k, by omega, hr⟩
    · exact ⟨n, by omega, h⟩

theorem mem_of_recorded (h : r ∈ recordedBy cfg env σ k) (hk : k < n) :
    r ∈ (execution cfg env σ n).results := by
  induction n with
  | zero => omega
  | succ n ih =>
    rw [results_succ, List.mem_append]
    by_cases hn : k = n
    · subst hn
      exact Or.inr h
    · exact Or.inl (ih (by omega))

/-- **A recorded picture** is the one that the move writes, to the file of its step. -/
theorem recorded_spec (h : r ∈ recordedBy cfg env σ k) (hpath : r.screenshotPath = some path) :
    cfg.options.shotPath r.stepOrder r.action = some path ∧
      pictures (execution cfg env σ (k + 1)).calls =
        pictures (execution cfg env σ k).calls ++ [path] := by
  cases next_adds cfg env (σ k (execution cfg env σ k)) (execution cfg env σ k) with
  | unseen hrs hadd =>
    rw [recordedBy_eq hadd.results] at h
    exact absurd (hpath.symm.trans (hrs r h)) (Option.some_ne_none path)
  | @ran step r' ps hstep horder haction hshot hadd =>
    rw [recordedBy_eq hadd.results, List.mem_singleton] at h
    subst h
    rw [horder, haction]
    have hshots := hadd.shots
    rw [hpath] at hshot
    cases hshot with
    | none h => exact absurd h (Option.some_ne_none path)
    | @written path' hfile h =>
      obtain rfl := Option.some.inj (h.resolve_left (Option.some_ne_none path))
      exact ⟨hfile, hshots⟩

/-- A move that writes a picture writes one, to the file of the step at the index. -/
theorem written_spec (h : pictures (execution cfg env σ (k + 1)).calls ≠
    pictures (execution cfg env σ k).calls) : ∃ step path,
      cfg.stepAt (execution cfg env σ k).toControl = some step ∧
      cfg.options.shotPath step.order step.action = some path ∧
      pictures (execution cfg env σ (k + 1)).calls =
        pictures (execution cfg env σ k).calls ++ [path] := by
  cases next_adds cfg env (σ k (execution cfg env σ k)) (execution cfg env σ k) with
  | unseen hrs hadd => exact absurd (hadd.shots.trans (List.append_nil _)) h
  | ran hstep horder haction hshot hadd =>
    cases hshot with
    | none _ => exact absurd (hadd.shots.trans (List.append_nil _)) h
    | written hfile _ => exact ⟨_, _, hstep, hfile, hadd.shots⟩

theorem pictures_mono {m : ℕ} (h : m ≤ n) : pictures (execution cfg env σ m).calls <+:
    pictures (execution cfg env σ n).calls := by
  induction n, h using Nat.le_induction with
  | base => exact List.prefix_rfl
  | succ n _ ih =>
    refine ih.trans ?_
    cases next_adds cfg env (σ n (execution cfg env σ n)) (execution cfg env σ n) with
    | unseen _ h | ran _ _ _ _ h => exact ⟨_, h.shots.symm⟩

theorem file_of_mem (h : r ∈ (execution cfg env σ n).results) (hpath : r.screenshotPath = some path) :
    cfg.options.shotPath r.stepOrder r.action = some path := by
  obtain ⟨k, -, hr⟩ := recorded_of_mem h
  exact (recorded_spec hr hpath).1

/-- A new picture goes to a file that no result has. -/
theorem NewPicture.path_ne (h : NewPicture cfg env σ n) {path' : String}
    (hgrown : pictures (execution cfg env σ (n + 1)).calls =
      pictures (execution cfg env σ n).calls ++ [path'])
    (hr : r ∈ (execution cfg env σ n).results) (hpath : r.screenshotPath = some path) :
    path ≠ path' := by
  rintro rfl
  have hne : pictures (execution cfg env σ (n + 1)).calls ≠
      pictures (execution cfg env σ n).calls := by
    rw [hgrown]
    simp
  obtain ⟨step, file, hstep, hfile, hfiles⟩ := written_spec hne
  rw [hgrown, List.append_cancel_left_eq, List.singleton_inj] at hfiles
  subst hfiles
  refine h hne step hstep r hr ?_ (StepOptions.shotPath_inj (file_of_mem hr hpath) hfile)
  rw [hpath]
  rfl

/-- The results of one move have no path in common. -/
theorem recordedBy_apart (k : ℕ) : (recordedBy cfg env σ k).Pairwise fun a b => ∀ path,
    a.screenshotPath = some path → b.screenshotPath ≠ some path := by
  cases next_adds cfg env (σ k (execution cfg env σ k)) (execution cfg env σ k) with
  | unseen hrs h =>
    rw [recordedBy_eq h.results]
    refine List.pairwise_of_forall_mem_list fun a ha b hb path hpath => ?_
    exact absurd (hpath.symm.trans (hrs a ha)) (Option.some_ne_none path)
  | ran _ _ _ _ h =>
    rw [recordedBy_eq h.results]
    exact List.pairwise_singleton _ _

theorem PicturesKept.succ (hkept : PicturesKept cfg env σ n) (hnew : NewPicture cfg env σ n) :
    PicturesKept cfg env σ (n + 1) where
  apart := by
    rw [results_succ, List.pairwise_append]
    refine ⟨hkept.apart, recordedBy_apart n, fun a ha b hb path hpa hpb => ?_⟩
    exact hnew.path_ne (recorded_spec hb hpb).2 ha hpa rfl
  last k hk r hr path hpath := by
    by_cases hn : k = n
    · subst hn
      exact ⟨[], (recorded_spec hr hpath).2, List.not_mem_nil⟩
    · have hlt : k < n := by omega
      obtain ⟨later, hlater, hnot⟩ := hkept.last k hlt r hr path hpath
      by_cases hsame : pictures (execution cfg env σ (n + 1)).calls =
          pictures (execution cfg env σ n).calls
      · exact ⟨later, hsame.trans hlater, hnot⟩
      · obtain ⟨step, path', -, -, hgrown⟩ := written_spec hsame
        refine ⟨later ++ [path'], ?_, fun hmem => ?_⟩
        · rw [hgrown, hlater]
          simp
        · refine (List.mem_append.mp hmem).elim hnot fun hmem => ?_
          exact hnew.path_ne hgrown (mem_of_recorded hr hlt) hpath (List.mem_singleton.mp hmem)

/-- **Main result.** The pictures of a run are kept iff every move that writes one finds no picture
of the number and the action of its step. -/
theorem pictures_kept_iff (cfg : Config) (env : Env) (σ : ℕ → RunState → Input) (n : ℕ) :
    PicturesKept cfg env σ n ↔ ∀ k < n, NewPicture cfg env σ k := by
  constructor
  · intro hkept k hk hgrown step hstep r hr hsome hsame
    obtain ⟨path, hpath⟩ := Option.isSome_iff_exists.mp hsome
    obtain ⟨step', file, hstep', hfile, hfiles⟩ := written_spec hgrown
    obtain rfl := Option.some.inj (hstep.symm.trans hstep')
    have hown := file_of_mem hr hpath
    rw [hsame.1, hsame.2, hfile] at hown
    obtain rfl := Option.some.inj hown
    obtain ⟨j, hj, hrj⟩ := recorded_of_mem hr
    obtain ⟨later, hlater, hnot⟩ := hkept.last j (by omega) r hrj file hpath
    have hbefore : pictures (execution cfg env σ (j + 1)).calls <+:
        pictures (execution cfg env σ k).calls := pictures_mono (Nat.succ_le_of_lt hj)
    have hafter : pictures (execution cfg env σ (k + 1)).calls <+:
        pictures (execution cfg env σ n).calls := pictures_mono (Nat.succ_le_of_lt hk)
    obtain ⟨between, hbetween⟩ := hbefore
    obtain ⟨rest, hrest⟩ := hafter
    rw [← hrest, hfiles, ← hbetween, (recorded_spec hrj hpath).2] at hlater
    have hagain : between ++ file :: rest = later := by simpa using hlater
    refine hnot ?_
    rw [← hagain]
    simp
  · intro hnew
    induction n with
    | zero => exact ⟨by rw [execution, entry_results]; exact .nil, fun k hk => by omega⟩
    | succ n ih => exact (ih fun k hk => hnew k (by omega)).succ (hnew n (by omega))

end Runs

/-! ## After the loop -/

theorem cleanup_pictures (cfg : Config) (env : Env) (steps : List WorkflowStep) (s : RunState) :
    pictures (cleanup cfg env steps s).calls = pictures s.calls := by
  induction steps generalizing s with
  | nil => rfl
  | cons step rest ih =>
    obtain ⟨ps, hps, hshot⟩ := executeStep_shot env cfg.cleanupOptions step s.monitor s.calls
    cases hshot with
    | none _ => exact (ih _).trans (hps.trans (List.append_nil _))
    | written hfile _ => cases hfile

/-- **The `finally` block writes no picture.** -/
theorem leave_pictures (cfg : Config) (env : Env) (s : RunState) :
    pictures (leave cfg env s).calls = pictures s.calls := by
  unfold leave
  dsimp only
  generalize ht : cleanup cfg env cfg.workflow.cleanupSteps _ = t
  have hclean : pictures t.calls = pictures s.calls := by
    rw [← ht, cleanup_pictures]
  have hpublish := (publish_world cfg (fun id => Sessions.unregister id) t).2
  refine Eq.trans ?_ hclean
  rw [← hpublish]
  unfold RunState.exec pictures
  rw [eval_call, List.filterMap_append]
  exact List.append_nil _

end

/-! ## A loop with pictures -/

section Example

attribute [local instance] asciiText

/-- A loop over two items that clears a field. -/
def clearPictured : Config where
  workflow :=
    { settings := { humanMode := false }
      steps := [
        { order := 1, order_pos := WorkflowStep.order_one, name := "Each", action := .loop
          value := some "[7, 8]", loopVar := some "x", loopSteps := some 1 },
        { order := 2, order_pos := WorkflowStep.order_two, name := "Clear", action := .clear }] }
  executionId := some "e"
  screenshotDir := "shots"

/-- A browser in which everything works. -/
def quietBrowser : Env := { answer := fun _ _ => { result := .ok .none }, clock := fun _ => 0 }

/-- **A loop overwrites the pictures of its body**: both visits to the step have one file. -/
theorem loop_overwrites :
    (execution clearPictured quietBrowser (fun _ _ => {}) 4).halt = some .finished ∧
    (execution clearPictured quietBrowser (fun _ _ => {}) 4).results.map StepResult.screenshotPath =
      [some "shots/e/001_loop.png", some "shots/e/002_clear.png", some "shots/e/002_clear.png"] ∧
    ¬ PicturesKept clearPictured quietBrowser (fun _ _ => {}) 4 := by
  have hpaths : (execution clearPictured quietBrowser (fun _ _ => {}) 4).results.map
      StepResult.screenshotPath =
      [some "shots/e/001_loop.png", some "shots/e/002_clear.png", some "shots/e/002_clear.png"] := by
    decide +kernel
  refine ⟨by decide +kernel, hpaths, fun hkept => ?_⟩
  have hapart : ((execution clearPictured quietBrowser (fun _ _ => {}) 4).results.map
      StepResult.screenshotPath).Pairwise fun a b => ∀ path, a = some path → b ≠ some path :=
    List.pairwise_map.mpr hkept.apart
  rw [hpaths] at hapart
  have htail := (List.pairwise_cons.mp (List.pairwise_cons.mp hapart).2).1
  exact htail _ List.mem_cons_self _ rfl rfl

end Example

end ScoutEngine
