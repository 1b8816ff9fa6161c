import ScoutEngine.Executor.Messages
import ScoutEngine.Executor.Moves

/-!
# The look-ahead of the network monitor

When a step begins and the next one in the workflow is a wait step, the monitor is started for the
latter. A wait step stops the monitor when its wait is over.

* `listening`: runs in which messages arrive at any time; `heard`: the messages between two moves.
* `Begins`, `Attempt`: a step begins; the wait step after a step begins right after it, or again
  because its failed attempt is retried.
* `Watches`, `Attentive`: the monitor is active and has kept what passed its filter.
* **`attentive`**: in a run in which no wait step begins just before another one and no wait that
  timed out is retried, the monitor is attentive at every attempt.
* `second_wait_deaf`: of two wait steps in a row the second one begins with the monitor stopped.
-/

set_option autoImplicit false

namespace ScoutEngine

/-! ## What the monitor keeps -/

section Watches

variable [PyText]

namespace NetworkMonitor

/-- A response that passes the filter. -/
def passes (m : NetworkMonitor) : NetMsg → Bool
  | .request .. => false
  | .response _ url _ _ => m.captures url

/-- The event that stands for a response. -/
def Logged : NetMsg → NetworkEvent → Prop
  | .request .., _ => False
  | .response _ url status headers, e =>
    e.status = status ∧ (url ≠ "" → e.url = url) ∧
      e.triggeredDownload = (contentDisposition headers ≠ "" &&
        containsStr "attachment" (PyText.lower (contentDisposition headers)))

/-- The monitor was started with a pattern, is active, and its events are those of all the
responses among the messages that pass its filter. -/
structure Watches (pattern : Option String) (heard : List NetMsg) (m : NetworkMonitor) : Prop where
  active : m.monitoring = true
  filter : ∃ m₀ m₁ : NetworkMonitor, m₀.start pattern = .ok m₁ ∧ m.urlPattern = m₁.urlPattern
  kept : List.Forall₂ Logged (heard.filter m.passes) m.events

theorem receive_fields (m : NetworkMonitor) (msg : NetMsg) :
    (m.receive msg).monitoring = m.monitoring ∧ (m.receive msg).urlPattern = m.urlPattern := by
  cases msg with
  | request id url method =>
    unfold receive onRequest
    dsimp only
    split_ifs <;> exact ⟨rfl, rfl⟩
  | response id url status headers =>
    unfold receive onResponse
    dsimp only
    split_ifs <;> exact ⟨rfl, rfl⟩

theorem passes_receive (m : NetworkMonitor) (msg : NetMsg) : (m.receive msg).passes = m.passes := by
  obtain ⟨hm, hp⟩ := receive_fields m msg
  funext msg'
  cases msg' with
  | request => rfl
  | response =>
    unfold passes captures
    rw [hm, hp]

/-- A message adds its event, if it is a response that passes the filter. -/
theorem receive_events (m : NetworkMonitor) (msg : NetMsg) :
    ∃ es, (m.receive msg).events = m.events ++ es ∧
      List.Forall₂ Logged ([msg].filter m.passes) es := by
  cases msg with
  | request id url method =>
    refine ⟨[], ?_, .nil⟩
    unfold receive onRequest
    dsimp only
    split_ifs <;> exact (List.append_nil _).symm
  | response id url status headers =>
    unfold receive onResponse
    dsimp only
    by_cases h : m.captures url = true
    · have hp : m.passes (.response id url status headers) = true := h
      rw [if_pos h, List.filter_cons_of_pos hp]
      exact ⟨_, rfl, .cons ⟨rfl, fun hu => if_pos hu, rfl⟩ .nil⟩
    · have hp : ¬ m.passes (.response id url status headers) = true := h
      rw [if_neg h, List.filter_cons_of_neg hp]
      exact ⟨[], (List.append_nil _).symm, .nil⟩

theorem foldl_receive (msgs : List NetMsg) (m : NetworkMonitor) :
    (msgs.foldl receive m).monitoring = m.monitoring ∧
      (msgs.foldl receive m).urlPattern = m.urlPattern ∧
      (msgs.foldl receive m).passes = m.passes ∧
      ∃ es, (msgs.foldl receive m).events = m.events ++ es ∧
        List.Forall₂ Logged (msgs.filter m.passes) es := by
  induction msgs generalizing m with
  | nil => exact ⟨rfl, rfl, rfl, [], (List.append_nil _).symm, .nil⟩
  | cons msg msgs ih =>
    obtain ⟨hm, hu, hp, es, hes, hkept⟩ := ih (m.receive msg)
    obtain ⟨hm', hu'⟩ := receive_fields m msg
    obtain ⟨es', hes', hkept'⟩ := receive_events m msg
    rw [passes_receive] at hp hkept
    refine ⟨hm.trans hm', hu.trans hu', hp, es' ++ es, ?_, ?_⟩
    · rw [List.foldl_cons, hes, hes', List.append_assoc]
    · rw [← List.singleton_append, List.filter_append]
      exact List.rel_append hkept' hkept

/-- **A started monitor that only receives is watching.** -/
theorem watches_of_start {pattern : Option String} {m₀ m₁ : NetworkMonitor}
    (h : m₀.start pattern = .ok m₁) (msgs : List NetMsg) :
    (msgs.foldl receive m₁).Watches pattern msgs := by
  obtain ⟨hact, hev⟩ : m₁.monitoring = true ∧ m₁.events = [] := by
    unfold start at h
    cases pattern with
    | none =>
      cases h
      exact ⟨rfl, rfl⟩
    | some p =>
      dsimp only at h
      split_ifs at h
      · cases h
        exact ⟨rfl, rfl⟩
      · obtain ⟨filter, -, hf⟩ := bind_ok.mp h
        cases hf
        exact ⟨rfl, rfl⟩
  obtain ⟨hm, hu, hp, es, hes, hkept⟩ := foldl_receive msgs m₁
  refine ⟨hm.trans hact, ⟨m₀, m₁, h, hu⟩, ?_⟩
  rw [hp, hes, hev]
  exact hkept

end NetworkMonitor

end Watches

/-! ## Runs -/

section Runs

variable [PyText]

/-- The callbacks receive messages. -/
def RunState.hear (msgs : List NetMsg) (s : RunState) : RunState :=
  { s with monitor := msgs.foldl NetworkMonitor.receive s.monitor }

/-- A move begins a step. -/
structure Begins (cfg : Config) (x : Input) (s : RunState) (step : WorkflowStep) : Prop where
  running : s.halt = none
  awake : s.waiting = none
  step : cfg.stepAt s.toControl = some step
  goes : x.Goes cfg

/-- A move resumes the pause of a failed step by `retry`. -/
structure Retries (x : Input) (s : RunState) : Prop where
  running : s.halt = none
  waiting : ∃ p, s.waiting = some p ∧ p.kind = .error
  retry : ∃ i, x.resume = some i ∧ i.action = .retry

theorem next_of_begins {cfg : Config} (env : Env) {x : Input} {s : RunState} {step : WorkflowStep}
    (h : Begins cfg x s step) : next cfg env x s = beginStep cfg env step (account cfg step) s := by
  have hx : ¬ x.cancel = true := Bool.eq_false_iff.mp h.goes.1
  have hp : ¬ (x.pause && cfg.canPause) = true := Bool.eq_false_iff.mp h.goes.2
  rw [next_of_awake h.running h.awake, head_of_stepAt env x h.step, if_neg hx, if_neg hp]

/-- **A move that begins no step only receives.** -/
theorem next_hears {cfg : Config} {env : Env} {x : Input} {s : RunState}
    (h : ∀ step, ¬ Begins cfg x s step) : s.Hears (next cfg env x s) := by
  unfold next
  cases hh : s.halt with
  | some k => exact .refl s
  | none =>
    cases hw : s.waiting with
    | some p => exact wake_hears (.refl s) p x
    | none =>
      dsimp only
      cases hs : cfg.stepAt s.toControl with
      | none =>
        rcases head_cases_none env x hs with ⟨-, -, h⟩ | ⟨-, h⟩
        · rw [h]
          exact .refl s
        · rw [h]
          exact .refl s
      | some step =>
        rw [head_of_stepAt env x hs]
        split_ifs with hx hp
        · exact .refl s
        · exact waitForResume_hears (.refl s) _
        · exact absurd ⟨hh, hw, hs, Bool.eq_false_iff.mpr hx, Bool.eq_false_iff.mpr hp⟩ (h step)

section

variable (cfg : Config) (env : Env) (σ : ℕ → RunState → Input) (δ : ℕ → List NetMsg)

/-- **The state after `n` moves** when the messages `δ n` arrive after move `n`. -/
def listening : ℕ → RunState
  | 0 => entry cfg env
  | n + 1 => (next cfg env (σ n (listening n)) (listening n)).hear (δ n)

/-- Without such messages these are the runs of the executor. -/
theorem listening_nil (n : ℕ) :
    listening cfg env σ (fun _ => []) n = execution cfg env σ n := by
  induction n with
  | zero => rfl
  | succ n ih =>
    rw [execution_succ, ← ih]
    rfl

/-- The messages that arrive during a move and after it. -/
def heardAt (n : ℕ) : List NetMsg :=
  messages ((next cfg env (σ n (listening cfg env σ δ n)) (listening cfg env σ δ n)).calls.drop
    (listening cfg env σ δ n).calls.length) ++ δ n

/-- The messages from one move to another. -/
def heard (m n : ℕ) : List NetMsg := (List.Ico m n).flatMap (heardAt cfg env σ δ)

/-- At a move of the run a step begins. -/
def BeginsAt (n : ℕ) (step : WorkflowStep) : Prop :=
  Begins cfg (σ n (listening cfg env σ δ n)) (listening cfg env σ δ n) step

/-- No step begins strictly between two moves. -/
def Quiet (m n : ℕ) : Prop := ∀ k, m < k → k < n → ∀ step, ¬ BeginsAt cfg env σ δ k step

/-- The wait step after the step that began at move `n₁` begins at move `n`: right after that step,
or again because its attempt failed and was retried. -/
inductive Attempt (n₁ : ℕ) : ℕ → Prop where
  | first {n : ℕ} {step₁ step : WorkflowStep} (before : BeginsAt cfg env σ δ n₁ step₁)
      (hn : BeginsAt cfg env σ δ n step) (wait : step.IsWait)
      (next : (listening cfg env σ δ n).stepIdx = (listening cfg env σ δ n₁).stepIdx + 1)
      (lt : n₁ < n) (quiet : Quiet cfg env σ δ n₁ n) : Attempt n₁ n
  | again {m k n : ℕ} {step : WorkflowStep} (attempt : Attempt n₁ m)
      (hn : BeginsAt cfg env σ δ n step)
      (same : (listening cfg env σ δ n).stepIdx = (listening cfg env σ δ m).stepIdx)
      (mk : m < k) (kn : k < n)
      (retries : Retries (σ k (listening cfg env σ δ k)) (listening cfg env σ δ k))
      (quiet : Quiet cfg env σ δ m n) : Attempt n₁ n

/-- When the wait step of an attempt begins, and when it is executed, the monitor is active with
its filter and has kept what passed it since the step before began. -/
def Attentive (n₁ n : ℕ) : Prop :=
  ∃ step, cfg.nextOf (listening cfg env σ δ n₁).stepIdx = some step ∧
    (listening cfg env σ δ n).monitor.Watches step.urlPattern (heard cfg env σ δ n₁ n) ∧
    (handed cfg env (listening cfg env σ δ n)).monitor.Watches step.urlPattern
      (heard cfg env σ δ n₁ n)

/-- No wait step begins just before another one, and no wait step whose wait came to its end, so
that it timed out, is retried. -/
structure WaitsApart : Prop where
  apart : ∀ n step, BeginsAt cfg env σ δ n step → step.IsWait →
    ∀ next, cfg.nextOf (listening cfg env σ δ n).stepIdx = some next → ¬ next.IsWait
  retried : ∀ m k step, BeginsAt cfg env σ δ m step → step.IsWait → m < k →
    Quiet cfg env σ δ m k → Retries (σ k (listening cfg env σ δ k)) (listening cfg env σ δ k) →
      ¬ WaitEnds env cfg.options step (handed cfg env (listening cfg env σ δ m)).monitor
        (handed cfg env (listening cfg env σ δ m)).calls

end

/-! ## Between the begins -/

variable {cfg : Config} {env : Env} {σ : ℕ → RunState → Input} {δ : ℕ → List NetMsg}

theorem heard_succ {m n : ℕ} (h : m ≤ n) :
    heard cfg env σ δ m (n + 1) = heard cfg env σ δ m n ++ heardAt cfg env σ δ n := by
  unfold heard
  rw [List.Ico.succ_top h, List.flatMap_append, List.flatMap_singleton]

/-- What a move and the messages after it make of the monitor. -/
theorem listening_monitor {n : ℕ} {m : NetworkMonitor}
    (h : Hears m (listening cfg env σ δ n).calls
      (next cfg env (σ n (listening cfg env σ δ n)) (listening cfg env σ δ n)).monitor
      (next cfg env (σ n (listening cfg env σ δ n)) (listening cfg env σ δ n)).calls) :
    (listening cfg env σ δ (n + 1)).monitor =
      (heardAt cfg env σ δ n).foldl NetworkMonitor.receive m := by
  obtain ⟨new, hc, hm⟩ := h
  change (δ n).foldl NetworkMonitor.receive (next cfg env _ _).monitor = _
  rw [heardAt, hc, List.drop_left, hm, List.foldl_append]

/-- The monitor has only received since it was `m₁` at move `n₁`. -/
def Tracks (cfg : Config) (env : Env) (σ : ℕ → RunState → Input) (δ : ℕ → List NetMsg) (n₁ : ℕ)
    (m₁ : NetworkMonitor) (n : ℕ) : Prop :=
  (listening cfg env σ δ n).monitor = (heard cfg env σ δ n₁ n).foldl NetworkMonitor.receive m₁

theorem Tracks.succ {n₁ n : ℕ} {m₁ : NetworkMonitor} (ht : Tracks cfg env σ δ n₁ m₁ n)
    (hle : n₁ ≤ n) (h : (listening cfg env σ δ n).Hears
      (next cfg env (σ n (listening cfg env σ δ n)) (listening cfg env σ δ n))) :
    Tracks cfg env σ δ n₁ m₁ (n + 1) := by
  unfold Tracks
  rw [listening_monitor h, heard_succ hle, List.foldl_append, ← ht]

/-- As long as no step begins, it goes on receiving. -/
theorem Tracks.quiet {n₁ m n : ℕ} {m₁ : NetworkMonitor} (ht : Tracks cfg env σ δ n₁ m₁ (m + 1))
    (hle : n₁ ≤ m) (hmn : m + 1 ≤ n) (hq : Quiet cfg env σ δ m n) : Tracks cfg env σ δ n₁ m₁ n := by
  induction n, hmn using Nat.le_induction with
  | base => exact ht
  | succ n hmn ih =>
    have hq' : Quiet cfg env σ δ m n := fun k hk hkn => hq k hk (Nat.lt_succ_of_lt hkn)
    exact (ih hq').succ (by omega) (next_hears (hq n hmn (Nat.lt_succ_self n)))

/-- A run that was left stays left. -/
theorem listening_halt {m n : ℕ} (h : m ≤ n) (hm : (listening cfg env σ δ m).halt ≠ none) :
    (listening cfg env σ δ n).halt ≠ none := by
  induction n, h using Nat.le_induction with
  | base => exact hm
  | succ n _ ih =>
    change (next cfg env (σ n (listening cfg env σ δ n)) (listening cfg env σ δ n)).halt ≠ none
    unfold next
    cases hh : (listening cfg env σ δ n).halt with
    | none => exact absurd hh ih
    | some k => exact fun h => absurd (hh.symm.trans h) nofun

/-! ## The begins -/

/-- A step before a wait step that begins later: the monitor was started for it. -/
theorem Tracks.first {n₁ n : ℕ} {step₁ step : WorkflowStep} (hb : BeginsAt cfg env σ δ n₁ step₁)
    (hnw : ¬ step₁.IsWait) (hn : cfg.nextOf (listening cfg env σ δ n₁).stepIdx = some step)
    (hw : step.IsWait) (hlt : n₁ < n) (hgo : (listening cfg env σ δ n).halt = none) :
    ∃ m₁, (listening cfg env σ δ n₁).monitor.start step.urlPattern = .ok m₁ ∧
      Tracks cfg env σ δ n₁ m₁ (n₁ + 1) := by
  have hnext := next_of_begins env hb
  rcases beginStep_before_wait env hn hw hnw with hhalt | ⟨m₁, hm₁, hh⟩
  · rw [← hnext] at hhalt
    exact absurd hgo (listening_halt (m := n₁ + 1) hlt hhalt)
  · rw [← hnext] at hh
    refine ⟨m₁, hm₁, ?_⟩
    unfold Tracks
    rw [listening_monitor hh, heard_succ le_rfl, heard, List.Ico.self_empty]
    rfl

/-- A wait step that is not just before another one, and whose wait does not come to its end, only
receives. -/
theorem Tracks.wait {n₁ n : ℕ} {m₁ : NetworkMonitor} {step : WorkflowStep}
    (ht : Tracks cfg env σ δ n₁ m₁ n) (hle : n₁ ≤ n) (hb : BeginsAt cfg env σ δ n step)
    (hapart : ∀ next, cfg.nextOf (listening cfg env σ δ n).stepIdx = some next → ¬ next.IsWait)
    (hends : ¬ WaitEnds env cfg.options step (handed cfg env (listening cfg env σ δ n)).monitor
      (handed cfg env (listening cfg env σ δ n)).calls) : Tracks cfg env σ δ n₁ m₁ (n + 1) := by
  refine ht.succ hle ?_
  have hh : (handed cfg env (listening cfg env σ δ n)).Hears (beginStep cfg env step
      (account cfg step) (listening cfg env σ δ n)) := beginStep_hears fun _ => hends
  rw [handed_of_not_wait hapart] at hh
  rw [next_of_begins env hb]
  exact hh

theorem BeginsAt.nextOf {m n : ℕ} {step : WorkflowStep} (h : BeginsAt cfg env σ δ n step)
    (hidx : (listening cfg env σ δ n).stepIdx = (listening cfg env σ δ m).stepIdx + 1) :
    ∃ raw, cfg.nextOf (listening cfg env σ δ m).stepIdx = some raw ∧ raw.action = step.action := by
  obtain ⟨raw, hraw, rfl⟩ := cfg.stepAt_raw h.step
  have hlt := cfg.stepAt_lt h.step
  refine ⟨raw, ?_, (resolveStepRuntime_action raw _).symm⟩
  unfold Config.nextOf
  rw [← hidx, if_pos hlt, hraw]

/-- The steps of two begins at one index are the same up to interpolation. -/
theorem BeginsAt.action {m n : ℕ} {step step' : WorkflowStep} (h : BeginsAt cfg env σ δ n step)
    (h' : BeginsAt cfg env σ δ m step')
    (hidx : (listening cfg env σ δ n).stepIdx = (listening cfg env σ δ m).stepIdx) :
    step.action = step'.action := by
  obtain ⟨raw, hraw, rfl⟩ := cfg.stepAt_raw h.step
  obtain ⟨raw', hraw', rfl⟩ := cfg.stepAt_raw h'.step
  rw [hidx, hraw'] at hraw
  rw [resolveStepRuntime_action, resolveStepRuntime_action, Option.some.inj hraw]

theorem Attempt.begins {n₁ n : ℕ} (h : Attempt cfg env σ δ n₁ n) :
    n₁ < n ∧ ∃ step, BeginsAt cfg env σ δ n step ∧ step.IsWait := by
  induction h with
  | first _ hn hw _ hlt _ => exact ⟨hlt, _, hn, hw⟩
  | again _ hn hsame hmk hkn _ _ ih =>
    obtain ⟨hlt, step', hm, hw⟩ := ih
    refine ⟨hlt.trans (hmk.trans hkn), _, hn, ?_⟩
    unfold WorkflowStep.IsWait
    rw [hn.action hm hsame]
    exact hw

/-- **The monitor has only received** since it was started for the wait step of the attempt. -/
theorem Attempt.tracks {n₁ n : ℕ} (hc : WaitsApart cfg env σ δ) (h : Attempt cfg env σ δ n₁ n) :
    ∃ step m₁, cfg.nextOf (listening cfg env σ δ n₁).stepIdx = some step ∧
      (listening cfg env σ δ n₁).monitor.start step.urlPattern = .ok m₁ ∧
      Tracks cfg env σ δ n₁ m₁ n := by
  induction h with
  | @first n step₁ step hb hn hw hidx hlt hq =>
    obtain ⟨raw, hnext, ha⟩ := hn.nextOf hidx
    have hraw : raw.IsWait := by
      unfold WorkflowStep.IsWait
      rw [ha]
      exact hw
    have hnw : ¬ step₁.IsWait := fun h => hc.apart n₁ step₁ hb h raw hnext hraw
    obtain ⟨m₁, hm₁, ht⟩ := Tracks.first hb hnw hnext hraw hlt hn.running
    exact ⟨raw, m₁, hnext, hm₁, ht.quiet le_rfl hlt hq⟩
  | @again m k n step hatt hn hsame hmk hkn hr hq ih =>
    obtain ⟨raw, m₁, hnext, hm₁, ht⟩ := ih
    obtain ⟨hlt, step', hm, hw⟩ := hatt.begins
    have hq' : Quiet cfg env σ δ m k := fun j hj hjk => hq j hj (hjk.trans hkn)
    have hends := hc.retried m k step' hm hw hmk hq' hr
    have ht' := ht.wait hlt.le hm (hc.apart m step' hm hw) hends
    exact ⟨raw, m₁, hnext, hm₁, ht'.quiet hlt.le (hmk.trans hkn) hq⟩

/-- **Main result.** In a run in which no wait step begins just before another one, and no wait
step that timed out is retried, the monitor is attentive at every attempt of a wait step. -/
theorem attentive (cfg : Config) (env : Env) (σ : ℕ → RunState → Input) (δ : ℕ → List NetMsg)
    (hc : WaitsApart cfg env σ δ) (n₁ n : ℕ) (h : Attempt cfg env σ δ n₁ n) :
    Attentive cfg env σ δ n₁ n := by
  obtain ⟨raw, m₁, hnext, hm₁, ht⟩ := h.tracks hc
  obtain ⟨-, step, hn, hw⟩ := h.begins
  have hwatch := NetworkMonitor.watches_of_start hm₁ (heard cfg env σ δ n₁ n)
  have hm : (listening cfg env σ δ n).monitor.Watches raw.urlPattern (heard cfg env σ δ n₁ n) := by
    rw [ht]
    exact hwatch
  refine ⟨raw, hnext, hm, ?_⟩
  rw [handed_of_not_wait (hc.apart n step hn hw)]
  exact hm

end Runs

/-! ## Wait steps in a row -/

section Example

attribute [local instance] asciiText

/-- Open a page. -/
def openPage : WorkflowStep :=
  { order := 1, order_pos := WorkflowStep.order_one, name := "Open", action := .navigate,
    value := some "https://example.com/export" }

/-- Wait for the download it triggers. -/
def awaitFile : WorkflowStep :=
  { order := 2, order_pos := WorkflowStep.order_two, name := "File", action := .waitForDownload }

/-- Wait for the response after it. -/
def awaitReply : WorkflowStep :=
  { order := 3, order_pos := WorkflowStep.order_three, name := "Reply", action := .waitForResponse }

/-- A browser that downloads a file when somebody waits for it. -/
def downloading : Env where
  answer _ c :=
    match c with
    | .waitDownload _ =>
      { result := .ok .none
        delivered := [.response "1" "https://example.com/a.csv" (.int 200)
          [("content-disposition", "attachment")]] }
    | _ => { result := .ok .none }
  clock _ := 0

/-- One wait step after a page. -/
def oneWait : Config where
  workflow := { steps := [openPage, awaitFile] }

/-- Two wait steps after a page. -/
def twoWaits : Config where
  workflow := { steps := [openPage, awaitFile, awaitReply] }

/-- Nobody interferes with the run. -/
def undisturbed : ℕ → RunState → Input := fun _ _ => {}

/-- Nothing arrives between the moves. -/
def silent : ℕ → List NetMsg := fun _ => []

theorem exists_begins (cfg : Config) (x : Input) (s : RunState) (p : WorkflowStep → Bool)
    (hh : s.halt = none) (hw : s.waiting.isNone = true)
    (hs : (cfg.stepAt s.toControl).any p = true) (hx : x.Goes cfg) :
    ∃ step, Begins cfg x s step ∧ p step = true := by
  obtain ⟨step, hstep, hp⟩ := (Option.any_eq_true _ _).mp hs
  exact ⟨step, ⟨hh, Option.isNone_iff_eq_none.mp hw, hstep, hx⟩, hp⟩

/-- The step that begins at a state and the one after it are not both wait steps. -/
def apartAt (cfg : Config) (s : RunState) : Bool :=
  ((cfg.stepAt s.toControl).all fun step => !decide step.IsWait) ||
    (cfg.nextOf s.stepIdx).all fun next => !decide next.IsWait

/-- In an undisturbed run nothing is retried; when it is over no step begins any more. -/
theorem waitsApart_of_halt {cfg : Config} {env : Env} (N : ℕ)
    (hhalt : (listening cfg env undisturbed silent N).halt ≠ none)
    (h : ∀ n < N, apartAt cfg (listening cfg env undisturbed silent n) = true) :
    WaitsApart cfg env undisturbed silent := by
  refine ⟨fun n step hb hw next hn hnw => ?_, fun m k step _ _ _ _ hr => ?_⟩
  · by_cases hlt : n < N
    · have hat := h n hlt
      unfold apartAt at hat
      rw [hb.step, hn, Option.all_some, Option.all_some, decide_eq_true hw, decide_eq_true hnw] at hat
      exact absurd hat Bool.false_ne_true
    · exact absurd hb.running (listening_halt (Nat.le_of_not_lt hlt) hhalt)
  · obtain ⟨i, hi, -⟩ := hr.retry
    cases hi

theorem oneWait_apart : WaitsApart oneWait downloading undisturbed silent :=
  waitsApart_of_halt 3 (by decide +kernel) (by decide +kernel)

theorem oneWait_attempt : Attempt oneWait downloading undisturbed silent 0 1 := by
  obtain ⟨step₁, h₁, -⟩ := exists_begins oneWait {}
    (listening oneWait downloading undisturbed silent 0) (fun _ => true) (by decide +kernel)
    (by decide +kernel) (by decide +kernel) ⟨rfl, rfl⟩
  obtain ⟨step, h, hw⟩ := exists_begins oneWait {}
    (listening oneWait downloading undisturbed silent 1) (fun step => decide step.IsWait)
    (by decide +kernel) (by decide +kernel) (by decide +kernel) ⟨rfl, rfl⟩
  exact .first h₁ h (of_decide_eq_true hw) (by decide +kernel) (by decide) fun k hk hk' => by omega

/-- A page and a wait step. -/
theorem attentive_oneWait : WaitsApart oneWait downloading undisturbed silent ∧
    Attempt oneWait downloading undisturbed silent 0 1 ∧
    Attentive oneWait downloading undisturbed silent 0 1 :=
  ⟨oneWait_apart, oneWait_attempt,
    attentive oneWait downloading undisturbed silent oneWait_apart 0 1 oneWait_attempt⟩

/-- **Of two wait steps in a row the second one begins with the monitor stopped.** -/
theorem second_wait_deaf : ¬ ∀ n₁ n, Attempt twoWaits downloading undisturbed silent n₁ n →
    Attentive twoWaits downloading undisturbed silent n₁ n := by
  intro h
  obtain ⟨step₁, h₁, -⟩ := exists_begins twoWaits {}
    (listening twoWaits downloading undisturbed silent 1) (fun _ => true) (by decide +kernel)
    (by decide +kernel) (by decide +kernel) ⟨rfl, rfl⟩
  obtain ⟨step, h₂, hw⟩ := exists_begins twoWaits {}
    (listening twoWaits downloading undisturbed silent 2) (fun step => decide step.IsWait)
    (by decide +kernel) (by decide +kernel) (by decide +kernel) ⟨rfl, rfl⟩
  obtain ⟨_, -, hwatch, -⟩ := h 1 2 (.first h₁ h₂ (of_decide_eq_true hw) (by decide +kernel)
    (by decide) fun k hk hk' => by omega)
  have hdeaf : (listening twoWaits downloading undisturbed silent 2).monitor.monitoring = false := by
    decide +kernel
  exact absurd (hwatch.active.symm.trans hdeaf) Bool.noConfusion

end Example

end ScoutEngine
