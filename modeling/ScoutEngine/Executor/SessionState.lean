import ScoutEngine.Executor.Release
import ScoutEngine.Executor.Retry

/-!
# The session state and the pauses

What the registry shows about a run, against what the run does. Every content that the registry ever
had is looked at, those between two loop heads included.

* `Shows`: the entry of a run that waits in a pause, or in none.
* `PausesAtStep`, **`Move.pausesAtStep`**: a pause is one of the step at the index.
* `Tracked`: the present content and all the past ones; `Tracked.publish`, `Tracked.wait`,
  **`next_tracked`**.
* **`session_follows_pauses`**.
-/

set_option autoImplicit false

namespace ScoutEngine

open Control

/-- **The entry of a run that waits in the pause `p`**, or in none. -/
def Shows (cfg : Config) (p : Option Pause) (r : Sessions) : Prop :=
  ∃ info, Sessions.getSession cfg.id r = some info ∧
    info.state = (p.map fun p => p.kind.state).getD .running ∧
    info.pausedAtStep = p.map Pause.info ∧ (p ≠ none → info.currentStep = none)

/-! ## The step that paused -/

section Steps

variable [PyText] {cfg : Config} {x : Input} {c c' : Control}

/-- A run that waits does so at its step. -/
def PausesAtStep (cfg : Config) (c : Control) : Prop :=
  ∀ p, c.waiting = some p → cfg.stepAt c = some p.step

omit [PyText] in
theorem PausesAtStep.of_awake [PyText] (h : c.waiting = none) : PausesAtStep cfg c := by
  intro p hp
  rw [h] at hp
  cases hp

/-- A pause at the step of a loop head. -/
theorem PausesAtStep.of_wait {step : WorkflowStep} (hs : cfg.stepAt c = some step) {p : Pause}
    (hp : p.step = step) (hc : c'.stepIdx = c.stepIdx) (ho : c'.outputs = c.outputs)
    (hw : c'.waiting = some p) : PausesAtStep cfg c' := by
  intro q hq
  obtain rfl := Option.some.inj (hw.symm.trans hq)
  rw [hp, ← hs, Config.stepAt, Config.stepAt, hc, ho]

/-- **A move pauses at the step at its index.** -/
theorem Move.pausesAtStep (hm : Move cfg x c c') (h : PausesAtStep cfg c) :
    PausesAtStep cfg c' := by
  cases hm with
  | halted => exact h
  | head _ hw hm =>
    cases hm with
    | finished | noStep | cancelled | monitorRaised | handoffRaised | callbackRaised =>
      exact .of_awake hw
    | requested hs => exact .of_wait hs rfl rfl rfl rfl
    | handoffWaits hs => exact .of_wait hs rfl rfl rfl rfl
    | handoffPassed => exact .of_awake ((Control.goto_waiting _ _ _).trans hw)
    | @ran step r hs =>
      cases hst : r.status with
      | passed =>
        rw [account_passed hst]
        exact .of_awake ((Control.advance_waiting _ _ _).trans hw)
      | failed =>
        rcases account_failed cfg step (c.ran step r) hst with ⟨-, hk⟩ | ⟨-, ⟨-, hk⟩ | ⟨-, hk⟩⟩
        · have ho : captured step r c.outputs = c.outputs := by simp [captured, hst]
          rw [hk]
          exact .of_wait hs rfl rfl ho rfl
        · rw [hk]
          exact .of_awake hw
        · rw [hk]
          exact .of_awake ((Control.advance_waiting _ _ _).trans hw)
  | wake _ hw hm =>
    cases hm with
    | requested | error | handoff => exact .of_awake (Control.goto_waiting _ _ _)
    | handoffRaised | aborted | abortRaised => exact .of_awake rfl

end Steps

/-! ## The registry -/

/-- **The registry content of a run and all its past contents.** The entry shows the pause of the run;
a past content showed none, unless it is one of the numbers in `W`. -/
structure Tracked (cfg : Config) (W : ℕ → Prop) (s : RunState) : Prop where
  now : Shows cfg s.waiting s.sessions
  only : ∀ id, id ≠ cfg.id → Sessions.getSession id s.sessions = none
  past : ∀ j r, s.published[j]? = some r → Shows cfg none r ∨ W (j + 1)

section Pieces

variable {cfg : Config} {W : ℕ → Prop} {s : RunState}

/-- An update of the entry. -/
theorem Shows.alter {p q : Option Pause} {f : BrowserSessionInfo → BrowserSessionInfo}
    {r : Sessions}
    (h : Shows cfg p r)
    (hstate : ∀ info : BrowserSessionInfo,
      info.state = (p.map fun p => p.kind.state).getD .running →
      (f info).state = (q.map fun q => q.kind.state).getD .running)
    (hpaused : ∀ info : BrowserSessionInfo, info.pausedAtStep = p.map Pause.info →
      (f info).pausedAtStep = q.map Pause.info)
    (hstep : q ≠ none → ∀ info : BrowserSessionInfo, (f info).currentStep = none) :
    Shows cfg q (Sessions.alter cfg.id f r) := by
  obtain ⟨info, hget, hst, hp, -⟩ := h
  refine ⟨f info, ?_, hstate info hst, hpaused info hp, fun hq => hstep hq info⟩
  rw [Sessions.get_alter, if_pos rfl, hget]
  rfl

theorem Shows.updateStep {r : Sessions} (step : Option StepProgress) (h : Shows cfg none r) :
    Shows cfg none (Sessions.updateStep cfg.id step r) :=
  h.alter (fun _ h => h) (fun _ h => h) nofun

theorem Shows.setRunning {r : Sessions} {p : Option Pause} (h : Shows cfg p r) :
    Shows cfg none (Sessions.setRunning cfg.id r) :=
  h.alter (fun _ _ => rfl) (fun _ _ => rfl) nofun

theorem Shows.setPaused {r : Sessions} (p : Pause) (h : Shows cfg none r) :
    Shows cfg (some p) (Sessions.setPaused cfg.id p.kind.state p.info r) :=
  h.alter (fun _ _ => rfl) (fun _ _ => rfl) fun _ _ => rfl

theorem only_alter {f : BrowserSessionInfo → BrowserSessionInfo} {r : Sessions}
    (h : ∀ id, id ≠ cfg.id → Sessions.getSession id r = none) :
    ∀ id, id ≠ cfg.id → Sessions.getSession id (Sessions.alter cfg.id f r) = none := by
  intro id hid
  rw [Sessions.get_alter, if_neg (Ne.symm hid)]
  exact h id hid

theorem publish_of_id (hid : cfg.hasId = true) (f : String → Sessions → Sessions) :
    s.publish cfg f = { s with
      sessions := f cfg.id s.sessions, published := s.published ++ [f cfg.id s.sessions] } :=
  if_pos hid

theorem getElem?_snoc {α : Type} {xs : List α} {a b : α} {j : ℕ} (h : (xs ++ [a])[j]? = some b) :
    xs[j]? = some b ∨ j = xs.length ∧ a = b := by
  rcases Nat.lt_trichotomy j xs.length with hlt | rfl | hgt
  · rw [List.getElem?_append_left hlt] at h
    exact Or.inl h
  · rw [List.getElem?_append_right le_rfl, Nat.sub_self] at h
    exact Or.inr ⟨rfl, Option.some.inj h⟩
  · rw [List.getElem?_eq_none (by simp; omega)] at h
    cases h

/-- An update that shows a run without a pause. -/
theorem Tracked.publish (h : Tracked cfg W s) (hid : cfg.hasId = true)
    {f : BrowserSessionInfo → BrowserSessionInfo}
    (hf : Shows cfg none (Sessions.alter cfg.id f s.sessions)) {g : Control → Control}
    (hg : (g s.toControl).waiting = none) :
    Tracked cfg W ((s.publish cfg fun id => Sessions.alter id f).control g) := by
  rw [publish_of_id hid]
  refine ⟨?_, only_alter h.only, fun j r hj => ?_⟩
  · show Shows cfg (g s.toControl).waiting _
    rw [hg]
    exact hf
  · rcases getElem?_snoc hj with h' | ⟨-, rfl⟩
    · exact h.past j r h'
    · exact Or.inl hf

/-- Whatever leaves the wait and the registry alone. -/
theorem Tracked.congr {s' : RunState} (h : Tracked cfg W s) (hw : s'.waiting = s.waiting)
    (hs : s'.sessions = s.sessions) (hp : s'.published = s.published) : Tracked cfg W s' := by
  refine ⟨?_, ?_, ?_⟩
  · rw [hw, hs]
    exact h.now
  · rw [hs]
    exact h.only
  · rw [hp]
    exact h.past

/-- A change of the variables that leaves the wait alone. -/
theorem Tracked.control (h : Tracked cfg W s) {f : Control → Control}
    (hf : (f s.toControl).waiting = s.waiting) : Tracked cfg W (s.control f) := h.congr hf rfl rfl

theorem Tracked.updateStep (h : Tracked cfg W s) (hid : cfg.hasId = true)
    (hw : s.waiting = none) (step : Option StepProgress) :
    Tracked cfg W (s.publish cfg fun id => Sessions.updateStep id step) := by
  have hnow := h.now
  rw [hw] at hnow
  exact h.publish hid (hnow.updateStep step) (g := id) hw

/-- The contents at which a run has waited, up to a state. -/
def Waited (W : ℕ → Prop) (s : RunState) (k : ℕ) : Prop :=
  W k ∨ s.waiting ≠ none ∧ s.published.length = k

/-- **The registry follows the run to a state.** -/
def Follows (cfg : Config) (W : ℕ → Prop) (s : RunState) : Prop := Tracked cfg (Waited W s) s

theorem Tracked.follows (h : Tracked cfg W s) : Follows cfg W s :=
  ⟨h.now, h.only, fun j r hj => (h.past j r hj).imp_right Or.inl⟩

/-- **A pause takes effect.** -/
theorem Tracked.wait (h : Tracked cfg W s) (hid : cfg.hasId = true) (hw : s.waiting = none)
    (p : Pause) : Follows cfg W (waitForResume cfg p s) := by
  have hnow := h.now
  rw [hw] at hnow
  unfold waitForResume
  rw [publish_of_id hid]
  refine ⟨hnow.setPaused p, only_alter h.only, fun j r hj => ?_⟩
  rcases getElem?_snoc hj with h' | ⟨rfl, -⟩
  · exact (h.past j r h').imp_right Or.inl
  · refine Or.inr (Or.inr ⟨Option.some_ne_none p, ?_⟩)
    exact List.length_append.trans rfl

variable [PyText] {env : Env} {x : Input}

omit [PyText] in
/-- A program of calls, and what follows it. -/
theorem Tracked.andThen (h : Tracked cfg W s) (p : StepM Unit) {k : RunState → RunState}
    (hk : ∀ s' : RunState, s'.toControl = s.toControl → Tracked cfg W s' → Follows cfg W (k s')) :
    Follows cfg W (s.andThen env p k) := by
  unfold RunState.andThen
  have hexec : Tracked cfg W (s.exec env p).2 := h.congr rfl rfl rfl
  have hc : (s.exec env p).2.toControl = s.toControl := rfl
  rcases hr : s.exec env p with ⟨e | _, s'⟩
  · rw [hr] at hexec
    have hstop : Tracked cfg W (s'.control (Control.stop (.raised e))) := hexec.control rfl
    exact hstop.follows
  · rw [hr] at hexec hc
    exact hk s' hc hexec

/-- A handoff that is over. -/
theorem Tracked.endHandoff (h : Tracked cfg W s) (hid : cfg.hasId = true) (hw : s.waiting = none)
    (step : WorkflowStep) (v : PyVal) : Follows cfg W (endHandoff cfg env step v s) := by
  have hpass : Tracked cfg W (s.control (Control.passHandoff (handoffResult step))) := h.control rfl
  refine hpass.andThen _ fun s' hs' h' => ?_
  have hw' : s'.waiting = none := (congrArg Control.waiting hs').trans hw
  have hidle := h'.updateStep hid hw' none
  have hgoto := hidle.control (f := Control.goto cfg.steps.length v) (Control.goto_waiting _ _ _)
  exact hgoto.follows

theorem Tracked.abortHandoff (h : Tracked cfg W s) (step : WorkflowStep) :
    Follows cfg W (abortHandoff cfg env step s) := by
  have hrec : Tracked cfg W (s.control (Control.record (abortedResult step))) := h.control rfl
  refine hrec.andThen _ fun s' _ h' => ?_
  have hstop : Tracked cfg W (s'.control (Control.stop .cancelled)) := h'.control rfl
  exact hstop.follows

omit [PyText] in
/-- The step in progress is shown. -/
theorem Tracked.showStep (h : Tracked cfg W s) (hid : cfg.hasId = true) (hw : s.waiting = none)
    (step : WorkflowStep) : Tracked cfg W (showStep cfg step s) ∧
      (showStep cfg step s).waiting = none :=
  ⟨h.updateStep hid hw _, (congrArg Control.waiting (publish_toControl _ _ _)).trans hw⟩

theorem Tracked.handoff (h : Tracked cfg W s) (hid : cfg.hasId = true) (hw : s.waiting = none)
    (step : WorkflowStep) : Follows cfg W (handoff cfg env step s) := by
  have ⟨hshow, hw'⟩ := h.showStep hid hw step
  unfold ScoutEngine.handoff
  dsimp only
  split_ifs
  · exact hshow.wait hid hw' _
  · exact hshow.endHandoff hid hw' _ _

omit [PyText] in
/-- The accounting of a result. -/
theorem Tracked.account (h : Tracked cfg W s) (hid : cfg.hasId = true) (hw : s.waiting = none)
    (step : WorkflowStep) (r : StepResult) : Follows cfg W (account cfg step r s) := by
  unfold ScoutEngine.account
  have hfail : Tracked cfg W (s.control Control.countFail) := h.control rfl
  cases r.status with
  | passed =>
    refine Tracked.follows (h.control ?_)
    exact Control.advance_waiting _ _ _
  | failed =>
    dsimp only
    split_ifs
    · have hpaused : Tracked cfg W ((s.control Control.countFail).control fun c =>
          { c with paused := insert c.stepIdx c.paused }) := hfail.control rfl
      exact hpaused.wait hid hw _
    · cases cfg.policy step with
      | stop =>
        refine Tracked.follows (hfail.control ?_)
        rfl
      | «continue» | retry =>
        refine Tracked.follows (hfail.control ?_)
        exact Control.advance_waiting _ _ _

/-- A step that is executed. -/
theorem Tracked.normalStep (h : Tracked cfg W s) (hid : cfg.hasId = true) (hw : s.waiting = none)
    (step : WorkflowStep) :
    Follows cfg W (normalStep cfg env step (ScoutEngine.account cfg step) s) := by
  have ⟨hshow, hw'⟩ := h.showStep hid hw step
  unfold ScoutEngine.normalStep
  dsimp only
  generalize executeStep env cfg.options step (ScoutEngine.showStep cfg step s).monitor
    (ScoutEngine.showStep cfg step s).calls = r
  have hran : Tracked cfg W ({ ScoutEngine.showStep cfg step s with
      monitor := r.2.1, calls := r.2.2 }.control fun c => (c.record r.1).capture step r.1) :=
    hshow.congr rfl rfl rfl
  have hidle := hran.updateStep hid hw' none
  refine hidle.andThen _ fun s' hs' h' => h'.account hid ?_ step r.1
  rw [hs']
  exact (congrArg Control.waiting (publish_toControl _ _ _)).trans hw'

/-- The loop head. -/
theorem Tracked.head (h : Tracked cfg W s) (hid : cfg.hasId = true) (hw : s.waiting = none) :
    Follows cfg W (head cfg env x s) := by
  have hstop : ∀ k, Follows cfg W (s.control (Control.stop k)) := by
    intro k
    have hk : Tracked cfg W (s.control (Control.stop k)) := h.control rfl
    exact hk.follows
  cases hs : cfg.stepAt s.toControl with
  | none =>
    rcases head_cases_none env x hs with ⟨-, -, he⟩ | ⟨-, he⟩
    · rw [he]
      exact hstop _
    · rw [he]
      exact hstop _
  | some step =>
    rw [head_of_stepAt env x hs]
    split_ifs
    · exact hstop _
    · exact h.wait hid hw _
    · have hbegun : Tracked cfg W (s.control Control.begun) := h.control rfl
      refine hbegun.andThen _ fun s' hs' h' => ?_
      have hw' : s'.waiting = none := (congrArg Control.waiting hs').trans hw
      split_ifs
      · exact h'.handoff hid hw' _
      · exact h'.normalStep hid hw' _

/-- A wake-up. -/
theorem Tracked.wake (h : Tracked cfg W s) (hid : cfg.hasId = true) (p : Pause) :
    Follows cfg W (wake cfg env p x s) := by
  unfold ScoutEngine.wake
  dsimp only
  generalize x.resume.getD { action := .abort } = i
  have hwoken : Tracked cfg W ((s.publish cfg fun id => Sessions.setRunning id).control
      (Control.woken p i)) := h.publish hid h.now.setRunning rfl
  generalize hs' : (s.publish cfg fun id => Sessions.setRunning id).control (Control.woken p i) =
    s' at hwoken ⊢
  have hw' : s'.waiting = none := by
    rw [← hs']
    rfl
  split
  · refine Tracked.follows (hwoken.control ?_)
    exact Control.goto_waiting _ _ _
  · split_ifs
    · exact hwoken.abortHandoff _
    · exact hwoken.endHandoff hid hw' _ _
  · have hset : Tracked cfg W (s'.control (Control.setRetrying i)) := hwoken.control rfl
    refine Tracked.follows (hset.control ?_)
    exact Control.goto_waiting _ _ _

/-- **The registry follows every move.** -/
theorem next_follows (h : Tracked cfg W s) (hid : cfg.hasId = true) :
    Follows cfg W (next cfg env x s) := by
  unfold next
  cases s.halt with
  | some k => exact h.follows
  | none =>
    cases hw : s.waiting with
    | some p => exact h.wake hid p
    | none => exact h.head hid hw

end Pieces

/-! ## Runs -/

section Runs

variable [PyText] {cfg : Config} {env : Env} {σ : ℕ → RunState → Input}

/-- **What the entry of a run says**, against the variables of the run. -/
structure EntryFollows (cfg : Config) (c : Control) (info : BrowserSessionInfo) : Prop where
  state : info.state ≠ .running ↔ c.waiting ≠ none
  paused : info.pausedAtStep ≠ none ↔ c.waiting ≠ none
  step : ∀ p, c.waiting = some p → info.state = p.kind.state ∧ info.pausedAtStep = some p.info ∧
    cfg.stepAt c = some p.step
  idle : c.waiting ≠ none → info.currentStep = none

theorem Shows.entryFollows {c : Control} {r : Sessions} (h : Shows cfg c.waiting r)
    (hs : PausesAtStep cfg c) :
    ∃ info, Sessions.getSession cfg.id r = some info ∧ EntryFollows cfg c info := by
  obtain ⟨info, hget, hst, hp, hc⟩ := h
  refine ⟨info, hget, ?_⟩
  cases hw : c.waiting with
  | none =>
    rw [hw] at hst hp
    refine ⟨?_, ?_, ?_, ?_⟩
    · simp [hw, hst]
    · simp [hw, hp]
    · simp [hw]
    · simp [hw]
  | some p =>
    rw [hw] at hst hp
    have hne : p.kind.state ≠ .running := by cases p.kind <;> exact nofun
    refine ⟨?_, ?_, fun q hq => ?_, hc⟩
    · simp [hw, hst, hne]
    · simp [hw, hp]
    · obtain rfl := Option.some.inj (hw.symm.trans hq)
      exact ⟨hst, hp, hs p hw⟩

/-- What a program of calls returns, it returns with a property. -/
def Returns {α : Type} (env : Env) (P : α → Prop) (p : StepM α) : Prop :=
  ∀ m calls a, (eval env p m calls).1.1 = .ok a → P a

omit [PyText] in
theorem Returns.pure {α : Type} {P : α → Prop} {a : α} (h : P a) :
    Returns env P (Pure.pure a : StepM α) := by
  intro m calls b hb
  obtain rfl : a = b := Except.ok.inj hb
  exact h

omit [PyText] in
theorem Returns.bind {α β : Type} {P : β → Prop} {p : StepM α} {f : α → StepM β}
    (h : ∀ a, Returns env P (f a)) : Returns env P (p >>= f) := by
  intro m calls b hb
  rw [eval_bind] at hb
  rcases hr : eval env p m calls with ⟨⟨e | a, m'⟩, calls'⟩ <;> rw [hr] at hb
  · cases hb
  · exact h a m' calls' b hb

omit [PyText] in
theorem Returns.tryCatch {α : Type} {P : α → Prop} {p : StepM α} {f : PyExc → StepM α}
    (h : Returns env P p) (hf : ∀ e, Returns env P (f e)) :
    Returns env P (MonadExcept.tryCatch p f) := by
  intro m calls b hb
  rw [eval_tryCatch] at hb
  have hp := h m calls
  rcases hr : eval env p m calls with ⟨⟨e | a, m'⟩, calls'⟩ <;> rw [hr] at hb hp
  · exact hf e m' calls' b hb
  · exact hp b hb

/-- A browser is registered as running, under the id of its run. -/
def RegistersRunning (info : Option BrowserSessionInfo) : Prop :=
  ∀ i ∈ info, i.state = .running ∧ i.pausedAtStep = none

theorem browserInfo_running (cfg : Config) : Returns env RegistersRunning (browserInfo cfg) := by
  refine .tryCatch (.bind fun _ => .bind fun _ => .bind fun _ => .pure ?_) fun _ => .pure nofun
  rintro i ⟨⟩
  exact ⟨rfl, rfl⟩

theorem setUp_running (cfg : Config) : Returns env RegistersRunning (setUp cfg) := by
  refine .bind fun _ => ?_
  dsimp only
  split_ifs
  · exact .bind fun _ => .bind fun _ => browserInfo_running cfg
  · exact .bind fun _ => .bind fun _ => .pure nofun
  · exact .bind fun _ => browserInfo_running cfg
  · exact .bind fun _ => .pure nofun

/-- **A run begins as running.** -/
theorem entry_tracked (hreg : (Sessions.getSession cfg.id (entry cfg env).sessions).isSome) :
    cfg.hasId = true ∧ (entry cfg env).halt = none ∧
      Tracked cfg (fun _ => False) (entry cfg env) := by
  have hs : ∀ s : RunState, s = (RunState.exec env (setUp cfg) {}).2 → s.sessions = [] ∧
      s.published = [] ∧ s.halt = none ∧ s.waiting = none := by
    rintro s rfl
    exact ⟨rfl, rfl, rfl, rfl⟩
  have hrunning : Returns env RegistersRunning (setUp cfg) := setUp_running cfg
  have hinfo := hrunning {} []
  have hexec : (RunState.exec env (setUp cfg) {}).1 = (eval env (setUp cfg) {} []).1.1 := rfl
  rw [← hexec] at hinfo
  unfold entry at hreg ⊢
  rcases hr : RunState.exec env (setUp cfg) {} with ⟨e | _ | info, s⟩ <;> rw [hr] at hreg hs hinfo
  · obtain ⟨h, -⟩ := hs s rfl
    change (Sessions.getSession cfg.id s.sessions).isSome = true at hreg
    rw [h] at hreg
    cases hreg
  · obtain ⟨h, -⟩ := hs s rfl
    change (Sessions.getSession cfg.id s.sessions).isSome = true at hreg
    rw [h] at hreg
    cases hreg
  · obtain ⟨h, hp, hh, hw⟩ := hs s rfl
    obtain ⟨hst, hpa⟩ := hinfo (some info) rfl info rfl
    have hid : cfg.hasId = true := by
      by_contra hid
      change (Sessions.getSession cfg.id (s.publish cfg _).sessions).isSome = true at hreg
      rw [RunState.publish, if_neg hid, h] at hreg
      cases hreg
    have hshows : Shows cfg none (Sessions.register cfg.id info s.sessions) :=
      ⟨info, Dict.get_set_self _ _ _, hst, hpa, by simp⟩
    dsimp only
    rw [publish_of_id hid]
    refine ⟨hid, hh, ?_, fun id hne => ?_, fun j r hj => ?_⟩
    · rw [hw]
      exact hshows
    · show Dict.get id (Dict.set cfg.id info s.sessions) = none
      rw [Dict.get_set_ne (Ne.symm hne), h]
      rfl
    · rw [hp] at hj
      rcases getElem?_snoc hj with hnil | ⟨-, rfl⟩
      · cases hnil
      · exact Or.inl hshows

/-- The `finally` block leaves no entry. -/
theorem leave_sessions (hid : cfg.hasId = true) {W : ℕ → Prop} {s : RunState}
    (h : Tracked cfg W s) :
    (leave cfg env s).sessions = [] := by
  refine Dict.eq_nil_of_get fun id => ?_
  unfold leave
  dsimp only
  rw [publish_of_id hid]
  show Dict.get id
    ((cleanup cfg env _ { s with monitor := s.monitor.stop }).sessions.filter _) = none
  rw [cleanup_sessions, Dict.get_filter_ne]
  split_ifs with he
  · rfl
  · exact h.only id (Ne.symm he)

/-- The contents at which a run has waited in its first `n` moves. -/
def waitedBy (cfg : Config) (env : Env) (σ : ℕ → RunState → Input) (n k : ℕ) : Prop :=
  ∃ m ≤ n, (execution cfg env σ m).waiting ≠ none ∧ (execution cfg env σ m).published.length = k

theorem execution_tracked (σ : ℕ → RunState → Input) (hid : cfg.hasId = true)
    (h : Tracked cfg (fun _ => False) (entry cfg env)) (n : ℕ) :
    Tracked cfg (waitedBy cfg env σ n) (execution cfg env σ n) := by
  induction n with
  | zero => exact ⟨h.now, h.only, fun j r hj => (h.past j r hj).imp_right False.elim⟩
  | succ n ih =>
    have hnext : Follows cfg (waitedBy cfg env σ n) (execution cfg env σ (n + 1)) := by
      rw [execution_succ]
      exact next_follows ih hid
    refine ⟨hnext.now, hnext.only, fun j r hj => (hnext.past j r hj).imp_right ?_⟩
    rintro (⟨m, hm, hw⟩ | hw)
    · exact ⟨m, Nat.le_succ_of_le hm, hw⟩
    · exact ⟨n + 1, le_rfl, hw⟩

/-- **The session of a run follows its pauses.** In every state the entry is paused iff the run waits
for a resume instruction, and then shows the step that paused and no step in progress; every content
that the registry ever had showed a running browser, unless the run waited right after it. When the
run is over, no entry remains. -/
theorem session_follows_pauses (cfg : Config) (env : Env) (σ : ℕ → RunState → Input)
    (hreg : (Sessions.getSession cfg.id (entry cfg env).sessions).isSome) (n : ℕ) :
    (∃ info, Sessions.getSession cfg.id (execution cfg env σ n).sessions = some info ∧
      EntryFollows cfg (execution cfg env σ n).toControl info) ∧
    (∀ j r, (execution cfg env σ n).published[j]? = some r →
      (∃ info, Sessions.getSession cfg.id r = some info ∧ info.state = .running ∧
        info.pausedAtStep = none) ∨
      ∃ m ≤ n, (execution cfg env σ m).waiting ≠ none ∧
        (execution cfg env σ m).published.length = j + 1) ∧
    ((execution cfg env σ n).halt ≠ none →
      (finish cfg env (execution cfg env σ n)).2.sessions = []) := by
  obtain ⟨hid, hh, hentry⟩ := entry_tracked hreg
  have htrack := execution_tracked σ hid hentry n
  have hsteps : PausesAtStep cfg (execution cfg env σ n).toControl := by
    refine execution_invariant (A := fun _ _ => True) (fun _ => trivial) (.of_awake rfl)
      (fun _ => .of_awake rfl) (fun x c c' h _ hm => hm.pausesAtStep h) n
  refine ⟨htrack.now.entryFollows hsteps, fun j r hj => ?_, fun _ => ?_⟩
  · refine (htrack.past j r hj).imp_left ?_
    rintro ⟨info, hget, hst, hp, -⟩
    exact ⟨info, hget, hst, hp⟩
  · rw [finish_started (execution_started hh n)]
    exact leave_sessions hid htrack

end Runs

/-! ## A handoff that is aborted -/

section Example

attribute [local instance] asciiText

/-- A handoff. -/
def lookOnly : Config where
  workflow :=
    { settings := { humanMode := false }
      steps := [{ order := 1, order_pos := WorkflowStep.order_one, name := "Look"
                  action := .handoff, value := some "Look at this" }] }
  executionId := some "e"
  hasPauseQueue := true

/-- The handoff is shown while the run waits, and nothing is shown after the abort. -/
theorem session_follows_pauses_lookOnly :
    (∃ info, Sessions.getSession "e" (execution lookOnly offline (fun _ _ => {}) 1).sessions =
      some info ∧ info.state = .pausedHandoff ∧ info.currentStep = none ∧
      info.pausedAtStep = some { stepOrder := 1, stepName := "Look", action := "handoff"
                                 reason := some "Look at this" }) ∧
    (finish lookOnly offline (execution lookOnly offline (fun _ _ => {}) 2)).2.sessions = [] := by
  have hreg : (Sessions.getSession lookOnly.id
      (entry lookOnly offline).sessions).isSome = true := by
    decide +kernel
  have hhalt : (execution lookOnly offline (fun _ _ => {}) 2).halt ≠ none := by decide +kernel
  obtain ⟨p, hp, hk, hi⟩ : ∃ p, (execution lookOnly offline (fun _ _ => {}) 1).waiting = some p ∧
      p.kind = .handoff ∧ p.info = { stepOrder := 1, stepName := "Look", action := "handoff"
                                     reason := some "Look at this" } := ⟨_, rfl, rfl, rfl⟩
  have hpaused := session_follows_pauses lookOnly offline (fun _ _ => {}) hreg 1
  have hover := session_follows_pauses lookOnly offline (fun _ _ => {}) hreg 2
  refine ⟨?_, hover.2.2 hhalt⟩
  obtain ⟨⟨info, hget, hf⟩, -⟩ := hpaused
  obtain ⟨hst, hpa, -⟩ := hf.step p hp
  exact ⟨info, hget, hst.trans (congrArg PauseKind.state hk), hf.idle (by rw [hp]; nofun),
    hpa.trans (congrArg some hi)⟩

end Example

end ScoutEngine
