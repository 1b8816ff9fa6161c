import ScoutEngine.Executor.Monitor

/-!
# The two readings of a wait step's pattern

The look-ahead starts the monitor with the `url_pattern` of the next step as the workflow has it,
and the wait step asks for the captured responses with the `url_pattern` that the step outputs have
been put into.

* `Matches`, `Admits`: a pattern accepts a URL; what the callbacks let through.
* `Sifted`: whatever the monitor holds went through its filter; every message keeps that.
* `Answers`, `Returned`, `Answered`: the responses that the wait step is about, and that its query
  returns them.
* `Covered`: the pattern as written accepts what the pattern of the query accepts.
* **`answered_iff`**: the query returns every response that it is about iff the pattern as written
  covers it; `covered_of_unchanged`.
* `token_never_captured`: a pattern with a token for a step output captures nothing.
-/

set_option autoImplicit false

namespace ScoutEngine

section Theory

variable [PyText]

namespace NetworkMonitor

/-! ## Filters -/

/-- A URL pattern accepts a URL; no pattern and the empty one accept all. -/
def Matches (pattern : Option String) (url : String) : Prop :=
  ∀ p, pattern = some p → p ≠ "" → ∃ search, PyText.compile p = .ok search ∧ search url = true

/-- What the callbacks of a monitor started with a pattern let through: no traffic of the browser
itself, and nothing that the pattern rejects. -/
def Admits (pattern : Option String) (url : String) : Prop :=
  isInternal url = false ∧ Matches pattern url

/-- The test of the callbacks, but for the monitor being active. -/
def admits (m : NetworkMonitor) (url : String) : Bool := !isInternal url && m.urlPattern.all (· url)

omit [PyText] in
theorem captures_eq (m : NetworkMonitor) (url : String) :
    m.captures url = (m.monitoring && m.admits url) := by
  unfold captures admits
  rw [Bool.and_assoc]

/-- The filter of a monitor is the pattern that it was started with. -/
theorem admits_iff {pattern : Option String} {m₀ m₁ m : NetworkMonitor}
    (h : m₀.start pattern = .ok m₁) (hm : m.urlPattern = m₁.urlPattern) (url : String) :
    m.admits url = true ↔ Admits pattern url := by
  unfold admits Admits
  rw [hm, Bool.and_eq_true, Bool.not_eq_true']
  refine and_congr_right fun _ => ?_
  unfold start at h
  cases pattern with
  | none =>
    cases h
    exact ⟨fun _ p hp => (Option.some_ne_none p hp.symm).elim, fun _ => rfl⟩
  | some p =>
    dsimp only at h
    split_ifs at h with hp
    · cases h
      exact ⟨fun _ q hq hne => absurd ((Option.some.inj hq).symm.trans hp) hne, fun _ => rfl⟩
    · obtain ⟨filter, hf, hm₁⟩ := bind_ok.mp h
      cases hm₁
      cases hc : PyText.compile p with
      | error e =>
        rw [hc] at hf
        cases hf
      | ok search =>
        rw [hc] at hf
        cases hf
        constructor
        · intro hs q hq _
          cases hq
          exact ⟨search, hc, hs⟩
        · intro hall
          obtain ⟨search', hc', hs⟩ := hall p rfl hp
          cases hc.symm.trans hc'
          exact hs

/-! ## The query -/

theorem mem_query {pattern : Option String} {m : NetworkMonitor} {e : NetworkEvent}
    (he : e ∈ m.events) (h : Matches pattern e.url) :
    ∃ es, m.query pattern = .ok es ∧ e ∈ es := by
  unfold query
  cases pattern with
  | none => exact ⟨_, rfl, he⟩
  | some p =>
    dsimp only
    split_ifs with hp
    · exact ⟨_, rfl, he⟩
    · obtain ⟨search, hc, hs⟩ := h p rfl hp
      rw [hc]
      exact ⟨_, rfl, List.mem_filter.mpr ⟨he, hs⟩⟩

theorem mem_events_of_query {pattern : Option String} {m : NetworkMonitor} {e : NetworkEvent}
    {es : List NetworkEvent} (h : m.query pattern = .ok es) (he : e ∈ es) : e ∈ m.events := by
  unfold query at h
  cases pattern with
  | none =>
    cases h
    exact he
  | some p =>
    dsimp only at h
    split_ifs at h with hp
    · cases h
      exact he
    · cases hc : PyText.compile p with
      | error e =>
        rw [hc] at h
        cases h
      | ok search =>
        rw [hc] at h
        cases h
        exact List.mem_of_mem_filter he

/-! ## What the monitor holds -/

/-- The URLs of the captured responses and of the pending requests went through the filter. -/
structure Sifted (m : NetworkMonitor) : Prop where
  events : ∀ e ∈ m.events, m.admits e.url = true
  pending : ∀ r ∈ m.pendingRequests, m.admits r.2.1 = true

theorem start_empty {pattern : Option String} {m₀ m₁ : NetworkMonitor}
    (h : m₀.start pattern = .ok m₁) : m₁.events = [] ∧ m₁.pendingRequests = [] := by
  unfold start at h
  cases pattern with
  | none =>
    cases h
    exact ⟨rfl, rfl⟩
  | some p =>
    dsimp only at h
    split_ifs at h
    · cases h
      exact ⟨rfl, rfl⟩
    · obtain ⟨filter, -, hf⟩ := bind_ok.mp h
      cases hf
      exact ⟨rfl, rfl⟩

theorem sifted_start {pattern : Option String} {m₀ m₁ : NetworkMonitor}
    (h : m₀.start pattern = .ok m₁) : m₁.Sifted := by
  obtain ⟨he, hp⟩ : m₁.events = [] ∧ m₁.pendingRequests = [] := start_empty h
  refine ⟨?_, ?_⟩
  · rw [he]
    exact fun e he => absurd he List.not_mem_nil
  · rw [hp]
    exact fun r hr => absurd hr List.not_mem_nil

theorem admits_receive (m : NetworkMonitor) (msg : NetMsg) : (m.receive msg).admits = m.admits := by
  unfold admits
  rw [(receive_fields m msg).2]

/-- **Every message keeps the monitor sifted.** -/
theorem Sifted.receive {m : NetworkMonitor} (h : m.Sifted) (msg : NetMsg) :
    (m.receive msg).Sifted := by
  suffices hs : (∀ e ∈ (m.receive msg).events, m.admits e.url = true) ∧
      ∀ r ∈ (m.receive msg).pendingRequests, m.admits r.2.1 = true by
    refine ⟨?_, ?_⟩
    · rw [admits_receive]
      exact hs.1
    · rw [admits_receive]
      exact hs.2
  have hadmit : ∀ url, m.captures url = true → m.admits url = true := fun url hc => by
    rw [captures_eq, Bool.and_eq_true] at hc
    exact hc.2
  cases msg with
  | request id url method =>
    unfold NetworkMonitor.receive onRequest
    dsimp only
    split_ifs with hc
    · refine ⟨h.events, fun r hr => ?_⟩
      rcases Dict.mem_set hr with rfl | hr
      · exact hadmit url hc
      · exact h.pending r hr
    · exact ⟨h.events, h.pending⟩
  | response id url status headers =>
    unfold NetworkMonitor.receive onResponse
    dsimp only
    by_cases hc : m.captures url = true
    · rw [if_pos hc]
      refine ⟨fun e he => ?_, fun r hr => h.pending r (List.mem_of_mem_filter hr)⟩
      rcases List.mem_append.mp he with he | he
      · exact h.events e he
      · rw [List.mem_singleton.mp he]
        dsimp only
        by_cases hu : url = ""
        · rw [if_neg (not_not_intro hu)]
          -- the URL of the request, which went through the same filter
          cases hg : Dict.get id m.pendingRequests with
          | none =>
            rw [hu] at hc
            exact hadmit _ hc
          | some known => exact h.pending (id, known) (Dict.mem_of_get hg)
        · rw [if_pos hu]
          exact hadmit url hc
    · rw [if_neg hc]
      exact ⟨h.events, h.pending⟩

theorem Sifted.foldl {m : NetworkMonitor} (h : m.Sifted) (msgs : List NetMsg) :
    (msgs.foldl NetworkMonitor.receive m).Sifted := by
  induction msgs generalizing m with
  | nil => exact h
  | cons msg msgs ih => exact ih (h.receive msg)

/-! ## Responses -/

/-- A response whose URL a pattern accepts. -/
def Answers (pattern : Option String) : NetMsg → Prop
  | .request .. => False
  | .response _ url _ _ => url ≠ "" ∧ Matches pattern url

/-- A response that the callbacks of a monitor started with a pattern let through. -/
def Covers (pattern : Option String) : NetMsg → Prop
  | .request .. => False
  | .response _ url _ _ => Admits pattern url

/-- A query returns the event that stands for a response. -/
def Returned (m : NetworkMonitor) (pattern : Option String) (msg : NetMsg) : Prop :=
  ∃ es, m.query pattern = .ok es ∧ ∃ e ∈ es, Logged msg e

theorem exists_logged {msgs : List NetMsg} {es : List NetworkEvent} {msg : NetMsg}
    (h : List.Forall₂ Logged msgs es) (hmem : msg ∈ msgs) : ∃ e ∈ es, Logged msg e := by
  induction h with
  | nil => exact absurd hmem List.not_mem_nil
  | cons hlog _ ih =>
    rcases List.mem_cons.mp hmem with rfl | hmem
    · exact ⟨_, List.mem_cons_self, hlog⟩
    · obtain ⟨e, he, hlog⟩ := ih hmem
      exact ⟨e, List.mem_cons_of_mem _ he, hlog⟩

/-- **A response is returned iff it was let through.** -/
theorem returned_iff {raw pattern : Option String} {m₀ m₁ : NetworkMonitor}
    (h : m₀.start raw = .ok m₁) {msgs : List NetMsg} {msg : NetMsg} (hmem : msg ∈ msgs)
    (ha : Answers pattern msg) :
    (msgs.foldl receive m₁).Returned pattern msg ↔ Covers raw msg := by
  have hwatch := watches_of_start h msgs
  have hsifted := (sifted_start h).foldl msgs
  have hfilter := admits_iff (m := msgs.foldl receive m₁) h (foldl_receive msgs m₁).2.1
  generalize msgs.foldl receive m₁ = m at hwatch hsifted hfilter ⊢
  cases msg with
  | request => exact ha.elim
  | response id url status headers =>
    obtain ⟨hu, hmatch⟩ := ha
    change _ ↔ Admits raw url
    rw [← hfilter url]
    constructor
    · rintro ⟨es, hq, e, he, hlog⟩
      rw [← hlog.2.1 hu]
      exact hsifted.events e (mem_events_of_query hq he)
    · intro hadm
      have hpass : m.passes (.response id url status headers) = true := by
        change m.captures url = true
        rw [captures_eq, hwatch.active, hadm, Bool.and_true]
      obtain ⟨e, he, hlog⟩ := exists_logged hwatch.kept (List.mem_filter.mpr ⟨hmem, hpass⟩)
      have hmatch' : Matches pattern e.url := by
        rw [hlog.2.1 hu]
        exact hmatch
      obtain ⟨es, hq, hes⟩ := mem_query he hmatch'
      exact ⟨es, hq, e, hes, hlog⟩

end NetworkMonitor

/-! ## Runs -/

section

variable (cfg : Config) (env : Env) (σ : ℕ → RunState → Input) (δ : ℕ → List NetMsg)

/-- At an attempt of a wait step its query returns, whenever it is made, every response with a URL
that its pattern accepts and that was delivered since the step before began. -/
def Answered (n₁ n : ℕ) : Prop :=
  ∀ step, BeginsAt cfg env σ δ n step → ∀ msg ∈ heard cfg env σ δ n₁ n,
    NetworkMonitor.Answers step.urlPattern msg → ∀ later : List NetMsg,
      (later.foldl NetworkMonitor.receive
        (handed cfg env (listening cfg env σ δ n)).monitor).Returned step.urlPattern msg

/-- Every such response is one of the page, not of the browser itself, and has a URL that the
pattern accepts before the step outputs are put into it. -/
def Covered (n₁ n : ℕ) : Prop :=
  ∀ raw step, cfg.nextOf (listening cfg env σ δ n₁).stepIdx = some raw →
    BeginsAt cfg env σ δ n step → ∀ msg ∈ heard cfg env σ δ n₁ n,
      NetworkMonitor.Answers step.urlPattern msg → NetworkMonitor.Covers raw.urlPattern msg

end

/-- **Main result.** In a run in which no wait step begins just before another one, and no wait
step that timed out is retried: at every attempt the query returns what it is about iff the pattern
as written covers it. -/
theorem answered_iff (cfg : Config) (env : Env) (σ : ℕ → RunState → Input) (δ : ℕ → List NetMsg)
    (hc : WaitsApart cfg env σ δ) (n₁ n : ℕ) (h : Attempt cfg env σ δ n₁ n) :
    Answered cfg env σ δ n₁ n ↔ Covered cfg env σ δ n₁ n := by
  obtain ⟨raw, m₁, hnext, hm₁, ht⟩ := h.tracks hc
  obtain ⟨-, step₀, hn₀, hw₀⟩ := h.begins
  have hmonitor : ∀ later : List NetMsg, later.foldl NetworkMonitor.receive
      (handed cfg env (listening cfg env σ δ n)).monitor =
        (heard cfg env σ δ n₁ n ++ later).foldl NetworkMonitor.receive m₁ := fun later => by
    rw [handed_of_not_wait (hc.apart n step₀ hn₀ hw₀), List.foldl_append, ← ht]
    rfl
  have hreturned : ∀ (pattern : Option String) (later : List NetMsg),
      ∀ msg ∈ heard cfg env σ δ n₁ n, NetworkMonitor.Answers pattern msg →
        ((later.foldl NetworkMonitor.receive
          (handed cfg env (listening cfg env σ δ n)).monitor).Returned pattern msg ↔
            NetworkMonitor.Covers raw.urlPattern msg) := fun pattern later msg hmem ha => by
    rw [hmonitor later]
    exact NetworkMonitor.returned_iff hm₁ (List.mem_append_left _ hmem) ha
  constructor
  · intro hans raw' step hraw hstep msg hmem ha
    obtain rfl := Option.some.inj (hnext.symm.trans hraw)
    exact (hreturned _ [] msg hmem ha).mp (hans step hstep msg hmem ha [])
  · intro hcov step hstep msg hmem ha later
    exact (hreturned _ later msg hmem ha).mpr (hcov raw step hnext hstep msg hmem ha)

/-- A pattern that the step outputs leave as it is covers the responses of the page. -/
theorem covered_of_unchanged {cfg : Config} {env : Env} {σ : ℕ → RunState → Input}
    {δ : ℕ → List NetMsg} {n₁ n : ℕ}
    (h : ∀ raw step, cfg.nextOf (listening cfg env σ δ n₁).stepIdx = some raw →
      BeginsAt cfg env σ δ n step → step.urlPattern = raw.urlPattern)
    (hpage : ∀ id url status headers, NetMsg.response id url status headers ∈
      heard cfg env σ δ n₁ n → NetworkMonitor.isInternal url = false) :
    Covered cfg env σ δ n₁ n := by
  intro raw step hraw hstep msg hmem ha
  rw [h raw step hraw hstep] at ha
  cases msg with
  | request => exact ha.elim
  | response id url status headers => exact ⟨hpage id url status headers hmem, ha.2⟩

end Theory

/-! ## A token for a step output -/

section Example

attribute [local instance] asciiText

/-- Read an order number. -/
def readOrder : WorkflowStep :=
  { order := 1, order_pos := WorkflowStep.order_one, name := "Order", action := .extract,
    value := some "return document.title", outputVar := some "id" }

/-- Open the page of the orders. -/
def openOrders : WorkflowStep :=
  { order := 2, order_pos := WorkflowStep.order_two, name := "Open", action := .navigate,
    value := some "https://example.com" }

/-- Wait for the response about that order. -/
def awaitOrder : WorkflowStep :=
  { order := 3, order_pos := WorkflowStep.order_three, name := "Reply", action := .waitForResponse,
    urlPattern := some "orders/${id}" }

/-- Wait for a response about any order. -/
def awaitOrders : WorkflowStep := { awaitOrder with urlPattern := some "orders/" }

/-- The response about the order. -/
def orderReply : NetMsg := .response "1" "https://example.com/orders/42" (.int 200) []

/-- A browser that shows order 42 and whose page asks for it. -/
def orderShop : Env where
  answer _ c :=
    match c with
    | .runJs .. => { result := .ok (.str "42") }
    | .get _ => { result := .ok .none, delivered := [orderReply] }
    | .pollRounds _ => { result := .ok (.int 2) }
    | _ => { result := .ok .none }
  clock _ := 0

/-- Wait for the order that was read. -/
def readThenWait : Config where
  workflow := { steps := [readOrder, openOrders, awaitOrder] }

/-- Wait for any order. -/
def openThenWait : Config where
  workflow := { steps := [readOrder, openOrders, awaitOrders] }

/-- Any order: the pattern is the same for both readings. -/
theorem answered_openThenWait : WaitsApart openThenWait orderShop undisturbed silent ∧
    Attempt openThenWait orderShop undisturbed silent 1 2 ∧
    Answered openThenWait orderShop undisturbed silent 1 2 := by
  have hc : WaitsApart openThenWait orderShop undisturbed silent :=
    waitsApart_of_halt 4 (by decide +kernel) (by decide +kernel)
  have hheard : heard openThenWait orderShop undisturbed silent 1 2 = [orderReply] := rfl
  have hnext : openThenWait.nextOf (listening openThenWait orderShop undisturbed silent 1).stepIdx =
      some awaitOrders := rfl
  obtain ⟨step₁, h₁, -⟩ := exists_begins openThenWait {}
    (listening openThenWait orderShop undisturbed silent 1) (fun _ => true) (by decide +kernel)
    (by decide +kernel) (by decide +kernel) ⟨rfl, rfl⟩
  obtain ⟨step, h, hp⟩ := exists_begins openThenWait {}
    (listening openThenWait orderShop undisturbed silent 2)
    (fun step => decide step.IsWait && step.urlPattern == some "orders/")
    (by decide +kernel) (by decide +kernel) (by decide +kernel) ⟨rfl, rfl⟩
  rw [Bool.and_eq_true, decide_eq_true_iff, beq_iff_eq] at hp
  have hatt : Attempt openThenWait orderShop undisturbed silent 1 2 :=
    .first h₁ h hp.1 (by decide +kernel) (by decide) fun k hk hk' => by omega
  refine ⟨hc, hatt, (answered_iff openThenWait orderShop undisturbed silent hc 1 2 hatt).mpr
    (covered_of_unchanged (fun raw step' hraw hstep => ?_) fun id url status headers hmem => ?_)⟩
  · obtain rfl := Option.some.inj (hnext.symm.trans hraw)
    obtain rfl := Option.some.inj (h.step.symm.trans hstep.step)
    exact hp.2
  · rw [hheard] at hmem
    cases List.mem_singleton.mp hmem
    decide

/-- **The look-ahead filters with the token itself**: the response about the order that was read is
not captured. -/
theorem token_never_captured : WaitsApart readThenWait orderShop undisturbed silent ∧
    ¬ ∀ n₁ n, Attempt readThenWait orderShop undisturbed silent n₁ n →
      Answered readThenWait orderShop undisturbed silent n₁ n := by
  refine ⟨waitsApart_of_halt 3 (by decide +kernel) (by decide +kernel), fun hall => ?_⟩
  obtain ⟨step₁, h₁, -⟩ := exists_begins readThenWait {}
    (listening readThenWait orderShop undisturbed silent 1) (fun _ => true) (by decide +kernel)
    (by decide +kernel) (by decide +kernel) ⟨rfl, rfl⟩
  obtain ⟨step, h, hp⟩ := exists_begins readThenWait {}
    (listening readThenWait orderShop undisturbed silent 2)
    (fun step => decide step.IsWait && step.urlPattern == some "orders/42")
    (by decide +kernel) (by decide +kernel) (by decide +kernel) ⟨rfl, rfl⟩
  rw [Bool.and_eq_true, decide_eq_true_iff, beq_iff_eq] at hp
  have hatt : Attempt readThenWait orderShop undisturbed silent 1 2 :=
    .first h₁ h hp.1 (by decide +kernel) (by decide) fun k hk hk' => by omega
  have hheard : heard readThenWait orderShop undisturbed silent 1 2 = [orderReply] := rfl
  have hans : NetworkMonitor.Answers step.urlPattern orderReply := by
    rw [hp.2]
    refine ⟨by decide, fun p hp _ => ⟨_, rfl, ?_⟩⟩
    obtain rfl := Option.some.inj hp
    decide +kernel
  have hmem : orderReply ∈ heard readThenWait orderShop undisturbed silent 1 2 := by
    rw [hheard]
    exact List.mem_cons_self
  obtain ⟨es, hq, e, he, -⟩ := hall 1 2 hatt step h orderReply hmem hans []
  have hnone : (handed readThenWait orderShop
      (listening readThenWait orderShop undisturbed silent 2)).monitor.events = [] :=
    List.isEmpty_iff.mp (by decide +kernel)
  have hev := NetworkMonitor.mem_events_of_query hq he
  rw [List.foldl_nil, hnone] at hev
  exact absurd hev List.not_mem_nil

end Example

end ScoutEngine
