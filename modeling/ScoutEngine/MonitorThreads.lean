import ScoutEngine.NetworkMonitor
import ScoutEngine.Lib.Transition

/-!
# The network monitor and its threads

The executor thread starts, stops and waits; the websocket thread runs the callbacks. Each read and
write of a flag and each block under the lock is an action of its own, and any number of callbacks
may be on their way.

* `MainPhase`, `Callback`, `MonitorState`, `MonitorAct`, **`monitorThreads`**: the transitions.
* `exec_start`, `exec_response`: without interleaving it is the sequential monitor.
* `Callback.signals`: a callback that will set the download flag; `undisturbedStart`: none is on its
  way when a start empties the list, and the flag is down.
* `MainMove`, `CallMove`: what an action can do.
* `MonitorInv`, **`flag_has_event`**; `woken_without_event`: a late callback.
-/

set_option autoImplicit false

namespace ScoutEngine

open Transition

/-! ## The threads -/

/-- Where the executor thread is: outside, inside `start`, or inside `wait_for_download`. -/
inductive MainPhase where
  | idle
  /-- `_url_pattern` is set. -/
  | patternSet
  /-- `_monitoring` is set. -/
  | active
  /-- `_download_event` is cleared. -/
  | flagCleared
  /-- `_events` and `_pending_requests` are cleared. -/
  | emptied
  | waiting
  /-- The wait returned because the flag was set. -/
  | woken
  | expired
  deriving DecidableEq

/-- A start is in progress. -/
def MainPhase.starting : MainPhase → Bool
  | patternSet | active | flagCleared | emptied => true
  | _ => false

/-- How far a callback is. -/
inductive CallbackPhase where
  /-- It has read `_monitoring`. -/
  | checked
  /-- It has read `_url_pattern`, which is set, and reads it again to search the URL. -/
  | matching
  /-- The URL has passed. -/
  | accepted
  /-- The request has been popped and the event is made. -/
  | made (event : NetworkEvent)
  /-- The event of a download has been appended. -/
  | appended

/-- A callback on its way, and how often the list had been emptied when its message arrived. -/
structure Callback where
  msg : NetMsg
  epoch : ℕ
  phase : CallbackPhase

/-- **The fields of the monitor and the threads.** Every event has the number of the start after
which its response arrived. -/
structure MonitorState where
  events : List (ℕ × NetworkEvent) := []
  monitoring : Bool := false
  urlPattern : Option (String → Bool) := none
  downloadEvent : Bool := false
  pendingRequests : Dict String (String × String) := []
  /-- How often the list has been emptied. -/
  epoch : ℕ := 0
  registered : Bool := false
  main : MainPhase := .idle
  calls : Dict ℕ Callback := []

inductive MonitorAct where
  | beginStart (urlPattern : Option String)
  | setMonitoring
  | clearFlag
  | clearEvents
  | register
  | stop
  | wait
  | wake
  | timeout
  /-- The locked read of `wait_for_download`. -/
  | read
  | arrive (k : ℕ) (msg : NetMsg)
  | filter (k : ℕ)
  | search (k : ℕ)
  /-- The locked write of `_on_request`. -/
  | store (k : ℕ)
  | pop (k : ℕ)
  | append (k : ℕ)
  | signal (k : ℕ)

/-- The URL of a message. -/
def NetMsg.url : NetMsg → String
  | request _ url _ | response _ url _ _ => url

namespace MonitorState

/-- The fields of the monitor. -/
def monitor (s : MonitorState) : NetworkMonitor :=
  { events := s.events.map Prod.snd
    monitoring := s.monitoring
    urlPattern := s.urlPattern
    downloadEvent := s.downloadEvent
    pendingRequests := s.pendingRequests }

/-- The executor thread goes on. -/
def goOn (p : MainPhase) (s : MonitorState) : MonitorState := { s with main := p }

/-- A callback goes on. -/
def put (k : ℕ) (c : Callback) (p : CallbackPhase) (s : MonitorState) : MonitorState :=
  { s with calls := Dict.set k { c with phase := p } s.calls }

/-- A callback returns. -/
def drop (k : ℕ) (s : MonitorState) : MonitorState := { s with calls := s.calls.filter (·.1 ≠ k) }

variable [PyText]

/-- The compiled pattern of `start`; a bad pattern raises. -/
def compilePattern (urlPattern : Option String) : Except PyExc (Option (String → Bool)) :=
  match urlPattern with
  | some p => if p = "" then pure none else (PyText.compile p).map some
  | none => pure none

/-- What an action of the executor thread does. -/
def mainStep (s : MonitorState) : MainPhase → MonitorAct → Option MonitorState
  | .idle, .beginStart urlPattern =>
    match compilePattern urlPattern with
    | .ok filter => some ({ s with urlPattern := filter }.goOn .patternSet)
    | .error _ => some s
  | .patternSet, .setMonitoring => some ({ s with monitoring := true }.goOn .active)
  | .active, .clearFlag => some ({ s with downloadEvent := false }.goOn .flagCleared)
  | .flagCleared, .clearEvents =>
    some ({ s with events := [], pendingRequests := [], epoch := s.epoch + 1 }.goOn .emptied)
  | .emptied, .register => some ({ s with registered := true }.goOn .idle)
  | .idle, .stop => some { s with monitoring := false }
  | .idle, .wait => some (s.goOn .waiting)
  | .waiting, .wake => if s.downloadEvent then some (s.goOn .woken) else none
  | .waiting, .timeout => some (s.goOn .expired)
  | .woken, .read | .expired, .read => some (s.goOn .idle)
  | _, _ => none

/-- What the next action of a callback does. -/
def callStep (s : MonitorState) (k : ℕ) (c : Callback) : MonitorAct → Option MonitorState
  | .filter _ =>
    match c.phase with
    | .checked =>
      if NetworkMonitor.isInternal c.msg.url then some (s.drop k)
      else some (s.put k c (if s.urlPattern.isSome then .matching else .accepted))
    | _ => none
  | .search _ =>
    match c.phase with
    | .matching =>
      -- Without a pattern the second read raises an `AttributeError`.
      some (if s.urlPattern.any (· c.msg.url) then s.put k c .accepted else s.drop k)
    | _ => none
  | .store _ =>
    match c.phase, c.msg with
    | .accepted, .request id url method =>
      some ({ s with pendingRequests := Dict.set id (url, method) s.pendingRequests }.drop k)
    | _, _ => none
  | .pop _ =>
    match c.phase, c.msg with
    | .accepted, .response id url status headers =>
      some ({ s with pendingRequests := s.pendingRequests.filter (·.1 ≠ id) }.put k c
        (.made (NetworkMonitor.responseEvent (Dict.get id s.pendingRequests) url status headers)))
    | _, _ => none
  | .append _ =>
    match c.phase with
    | .made event =>
      let s := { s with events := s.events ++ [(c.epoch, event)] }
      some (if event.triggeredDownload then s.put k c .appended else s.drop k)
    | _ => none
  | .signal _ =>
    match c.phase with
    | .appended => some ({ s with downloadEvent := true }.drop k)
    | _ => none
  | _ => none

/-- **One action.** -/
def step (s : MonitorState) : MonitorAct → Option MonitorState
  | .arrive k msg =>
    if s.registered = false ∨ Dict.has k s.calls then none
    else if s.monitoring then some (s.put k ⟨msg, s.epoch, .checked⟩ .checked)
    else some s
  | .filter k => (Dict.get k s.calls).bind fun c => s.callStep k c (.filter k)
  | .search k => (Dict.get k s.calls).bind fun c => s.callStep k c (.search k)
  | .store k => (Dict.get k s.calls).bind fun c => s.callStep k c (.store k)
  | .pop k => (Dict.get k s.calls).bind fun c => s.callStep k c (.pop k)
  | .append k => (Dict.get k s.calls).bind fun c => s.callStep k c (.append k)
  | .signal k => (Dict.get k s.calls).bind fun c => s.callStep k c (.signal k)
  | a => s.mainStep s.main a

end MonitorState

/-- **The two threads**, from a new monitor. -/
def monitorThreads [PyText] : System MonitorState MonitorAct where
  init := {}
  step := MonitorState.step

section Theory

variable [PyText] {s s' : MonitorState} {a : MonitorAct} {k : ℕ} {c : Callback}

/-! ## One thread alone -/

theorem start_eq (urlPattern : Option String) (m : NetworkMonitor) :
    m.start urlPattern = (MonitorState.compilePattern urlPattern).map fun filter =>
      { m with
        urlPattern := filter, monitoring := true, downloadEvent := false, events := []
        pendingRequests := [] } := by
  unfold NetworkMonitor.start MonitorState.compilePattern
  cases urlPattern with
  | none => rfl
  | some p =>
    dsimp only
    split_ifs
    · rfl
    · cases PyText.compile p <;> rfl

/-- **A start that nobody interleaves with** is the sequential one. -/
theorem exec_start {urlPattern : Option String} {m : NetworkMonitor} (hs : s.main = .idle)
    (hm : s.monitor.start urlPattern = .ok m) : ∃ h s',
    monitorThreads.exec
      [.beginStart urlPattern, .setMonitoring, .clearFlag, .clearEvents, .register] [] s =
        some (h, s') ∧ s'.monitor = m ∧ s'.main = .idle := by
  rw [start_eq] at hm
  cases hc : MonitorState.compilePattern urlPattern with
  | error e =>
    rw [hc] at hm
    cases hm
  | ok filter =>
    rw [hc] at hm
    obtain rfl := Except.ok.inj hm
    simp [System.exec, monitorThreads, MonitorState.step, MonitorState.mainStep, hs, hc,
      MonitorState.goOn, MonitorState.monitor]

/-- **A callback that nobody interleaves with** is the sequential one. -/
theorem exec_response {id url : String} {status : PyVal} {headers : Dict String String}
    (hreg : s.registered = true) (hk : Dict.has k s.calls = false) : ∃ as h s',
    monitorThreads.exec (.arrive k (.response id url status headers) :: as) [] s = some (h, s') ∧
      s'.monitor = s.monitor.onResponse id url status headers ∧ s'.main = s.main := by
  rw [NetworkMonitor.onResponse_eq, NetworkMonitor.captures]
  cases hm : s.monitoring with
  | false =>
    refine ⟨[], ?_⟩
    simp [System.exec, monitorThreads, MonitorState.step, MonitorState.monitor, hreg, hk, hm]
  | true =>
    cases hi : NetworkMonitor.isInternal url with
    | true =>
      refine ⟨[.filter k], ?_⟩
      simp [System.exec, monitorThreads, MonitorState.step, MonitorState.callStep,
        MonitorState.put, MonitorState.drop, MonitorState.monitor, NetMsg.url, hreg, hk, hm, hi]
    | false =>
      cases hpattern : s.urlPattern with
      | none =>
        cases hd : NetworkMonitor.isDownload headers with
        | false =>
          refine ⟨[.filter k, .pop k, .append k], ?_⟩
          simp [System.exec, monitorThreads, MonitorState.step, MonitorState.callStep,
            MonitorState.put, MonitorState.drop, MonitorState.monitor, NetMsg.url, hreg, hk, hm, hi,
            hpattern, NetworkMonitor.responseEvent, hd]
        | true =>
          refine ⟨[.filter k, .pop k, .append k, .signal k], ?_⟩
          simp [System.exec, monitorThreads, MonitorState.step, MonitorState.callStep,
            MonitorState.put, MonitorState.drop, MonitorState.monitor, NetMsg.url, hreg, hk, hm, hi,
            hpattern, NetworkMonitor.responseEvent, hd]
      | some f =>
        cases hf : f url with
        | false =>
          refine ⟨[.filter k, .search k], ?_⟩
          simp [System.exec, monitorThreads, MonitorState.step, MonitorState.callStep,
            MonitorState.put, MonitorState.drop, MonitorState.monitor, NetMsg.url, hreg, hk, hm, hi,
            hpattern, hf]
        | true =>
          cases hd : NetworkMonitor.isDownload headers with
          | false =>
            refine ⟨[.filter k, .search k, .pop k, .append k], ?_⟩
            simp [System.exec, monitorThreads, MonitorState.step, MonitorState.callStep,
              MonitorState.put, MonitorState.drop, MonitorState.monitor, NetMsg.url, hreg, hk, hm,
              hi, hpattern, hf, NetworkMonitor.responseEvent, hd]
          | true =>
            refine ⟨[.filter k, .search k, .pop k, .append k, .signal k], ?_⟩
            simp [System.exec, monitorThreads, MonitorState.step, MonitorState.callStep,
              MonitorState.put, MonitorState.drop, MonitorState.monitor, NetMsg.url, hreg, hk, hm,
              hi, hpattern, hf, NetworkMonitor.responseEvent, hd]

/-! ## Late callbacks -/

/-- **The callback will set the download flag**, unless the URL pattern changes before. -/
def Callback.signals (s : MonitorState) (c : Callback) : Bool :=
  match c.phase, c.msg with
  | .checked, .response _ url _ headers =>
    NetworkMonitor.isDownload headers && !NetworkMonitor.isInternal url && s.urlPattern.all (· url)
  | .matching, .response _ url _ headers =>
    NetworkMonitor.isDownload headers && s.urlPattern.any (· url)
  | .accepted, .response _ _ _ headers => NetworkMonitor.isDownload headers
  | .checked, .request _ _ _ | .matching, .request _ _ _ | .accepted, .request _ _ _ => false
  | .made event, _ => event.triggeredDownload
  | .appended, _ => true

/-- **No callback comes late**: when a start empties the list, the flag is down and no callback that
will set it is on its way. -/
def undisturbedStart (s : MonitorState) : MonitorAct → Bool
  | .clearEvents => !s.downloadEvent && s.calls.all fun p => !p.2.signals s
  | _ => true

/-- The list has a download whose response arrived after the last start had emptied it. -/
def MonitorState.HasDownload (s : MonitorState) : Prop :=
  ∃ e ∈ s.events, e.1 = s.epoch ∧ e.2.triggeredDownload = true

/-- No start is before its clearing of the list. -/
def MainPhase.settled : MainPhase → Bool
  | patternSet | active | flagCleared => false
  | _ => true

/-- **The flag and the callbacks that will set it** come with a download, once the list is
cleared. -/
structure MonitorInv (s : MonitorState) : Prop where
  flag : s.main.settled = true → s.downloadEvent = true → s.HasDownload
  stale : s.main.settled = true → ∀ p ∈ s.calls, p.2.epoch ≠ s.epoch → p.2.signals s = false
  fresh : s.main.settled = true → ∀ p ∈ s.calls, p.2.epoch = s.epoch → p.2.phase = .appended →
    s.HasDownload
  woken : s.main = .woken → s.downloadEvent = true

theorem MonitorInv.init : MonitorInv {} := ⟨nofun, nofun, nofun, nofun⟩

theorem signals_congr (h : s'.urlPattern = s.urlPattern) (c : Callback) :
    c.signals s' = c.signals s := by
  unfold Callback.signals
  rw [h]

omit [PyText] in
theorem MonitorState.HasDownload.mono (h : s.HasDownload) (hepoch : s'.epoch = s.epoch)
    (hevents : ∀ e ∈ s.events, e ∈ s'.events) : s'.HasDownload := by
  obtain ⟨e, he, hep, hd⟩ := h
  exact ⟨e, hevents e he, hep.trans hepoch.symm, hd⟩

/-- What the executor thread can do. -/
inductive MainMove (s : MonitorState) : MonitorAct → MonitorState → Prop where
  | refused {p : Option String} {e : PyExc} (hm : s.main = .idle)
      (hp : MonitorState.compilePattern p = .error e) : MainMove s (.beginStart p) s
  | begun {p : Option String} {filter : Option (String → Bool)} (hm : s.main = .idle)
      (hp : MonitorState.compilePattern p = .ok filter) :
      MainMove s (.beginStart p) ({ s with urlPattern := filter }.goOn .patternSet)
  | activated (hm : s.main = .patternSet) :
      MainMove s .setMonitoring ({ s with monitoring := true }.goOn .active)
  | flagCleared (hm : s.main = .active) :
      MainMove s .clearFlag ({ s with downloadEvent := false }.goOn .flagCleared)
  | emptied (hm : s.main = .flagCleared) : MainMove s .clearEvents
      ({ s with events := [], pendingRequests := [], epoch := s.epoch + 1 }.goOn .emptied)
  | registered (hm : s.main = .emptied) :
      MainMove s .register ({ s with registered := true }.goOn .idle)
  | stopped (hm : s.main = .idle) : MainMove s .stop { s with monitoring := false }
  | waits (hm : s.main = .idle) : MainMove s .wait (s.goOn .waiting)
  | woken (hm : s.main = .waiting) (hf : s.downloadEvent = true) : MainMove s .wake (s.goOn .woken)
  | expired (hm : s.main = .waiting) : MainMove s .timeout (s.goOn .expired)
  | read (hm : s.main = .woken ∨ s.main = .expired) : MainMove s .read (s.goOn .idle)

theorem MonitorState.mainStep_move (hs : s.mainStep s.main a = some s') : MainMove s a s' := by
  unfold MonitorState.mainStep at hs
  split at hs
  · rename_i hm
    split at hs
    · rename_i hp
      obtain rfl := Option.some.inj hs
      exact .begun hm hp
    · rename_i hp
      obtain rfl := Option.some.inj hs
      exact .refused hm hp
  · rename_i hm
    obtain rfl := Option.some.inj hs
    exact .activated hm
  · rename_i hm
    obtain rfl := Option.some.inj hs
    exact .flagCleared hm
  · rename_i hm
    obtain rfl := Option.some.inj hs
    exact .emptied hm
  · rename_i hm
    obtain rfl := Option.some.inj hs
    exact .registered hm
  · rename_i hm
    obtain rfl := Option.some.inj hs
    exact .stopped hm
  · rename_i hm
    obtain rfl := Option.some.inj hs
    exact .waits hm
  · rename_i hm
    split_ifs at hs with hf
    obtain rfl := Option.some.inj hs
    exact .woken hm hf
  · rename_i hm
    obtain rfl := Option.some.inj hs
    exact .expired hm
  · rename_i hm
    obtain rfl := Option.some.inj hs
    exact .read (.inl hm)
  · rename_i hm
    obtain rfl := Option.some.inj hs
    exact .read (.inr hm)
  · cases hs

/-- What a callback can do next. -/
inductive CallMove (s : MonitorState) (k : ℕ) (c : Callback) : MonitorState → Prop where
  | internal (hp : c.phase = .checked) (hurl : NetworkMonitor.isInternal c.msg.url = true) :
      CallMove s k c (s.drop k)
  | checked (hp : c.phase = .checked) (hurl : NetworkMonitor.isInternal c.msg.url = false) :
      CallMove s k c (s.put k c (if s.urlPattern.isSome then .matching else .accepted))
  | matched (hp : c.phase = .matching) (hurl : s.urlPattern.any (· c.msg.url) = true) :
      CallMove s k c (s.put k c .accepted)
  | unmatched (hp : c.phase = .matching) (hurl : ¬ s.urlPattern.any (· c.msg.url) = true) :
      CallMove s k c (s.drop k)
  | stored {id url method : String} (hp : c.phase = .accepted)
      (hmsg : c.msg = .request id url method) : CallMove s k c
        ({ s with pendingRequests := Dict.set id (url, method) s.pendingRequests }.drop k)
  | popped {id url : String} {status : PyVal} {headers : Dict String String}
      (hp : c.phase = .accepted) (hmsg : c.msg = .response id url status headers) : CallMove s k c
        ({ s with pendingRequests := s.pendingRequests.filter (·.1 ≠ id) }.put k c
          (.made (NetworkMonitor.responseEvent (Dict.get id s.pendingRequests) url status headers)))
  | appended {event : NetworkEvent} (hp : c.phase = .made event) : CallMove s k c
      (if event.triggeredDownload then
        { s with events := s.events ++ [(c.epoch, event)] }.put k c .appended
      else { s with events := s.events ++ [(c.epoch, event)] }.drop k)
  | signalled (hp : c.phase = .appended) :
      CallMove s k c ({ s with downloadEvent := true }.drop k)

theorem MonitorState.callStep_move (hs : s.callStep k c a = some s') : CallMove s k c s' := by
  unfold MonitorState.callStep at hs
  split at hs
  · split at hs
    · rename_i hp
      cases hurl : NetworkMonitor.isInternal c.msg.url with
      | true =>
        rw [hurl] at hs
        obtain rfl := Option.some.inj hs
        exact .internal hp hurl
      | false =>
        rw [hurl] at hs
        obtain rfl := Option.some.inj hs
        exact .checked hp hurl
    · cases hs
  · split at hs
    · rename_i hp
      obtain rfl := Option.some.inj hs
      split_ifs with hurl
      · exact .matched hp hurl
      · exact .unmatched hp hurl
    · cases hs
  · split at hs
    · rename_i hp hmsg
      obtain rfl := Option.some.inj hs
      exact .stored hp hmsg
    · cases hs
  · split at hs
    · rename_i hp hmsg
      obtain rfl := Option.some.inj hs
      exact .popped hp hmsg
    · cases hs
  · split at hs
    · rename_i hp
      obtain rfl := Option.some.inj hs
      exact .appended hp
    · cases hs
  · split at hs
    · rename_i hp
      obtain rfl := Option.some.inj hs
      exact .signalled hp
    · cases hs
  · cases hs

/-- The executor thread goes on without touching what the callbacks share. -/
theorem MonitorInv.goOn (h : MonitorInv s) {p : MainPhase} (hp : p.settled = true →
      s.main.settled = true) (hwoken : p = .woken → s.downloadEvent = true) :
    MonitorInv (s.goOn p) :=
  ⟨fun hs => h.flag (hp hs), fun hs => h.stale (hp hs), fun hs => h.fresh (hp hs), hwoken⟩

/-- A start that has not yet cleared the list has nothing to keep. -/
theorem MonitorInv.of_starting (hs : s.main.settled = false) : MonitorInv s := by
  refine ⟨fun h => ?_, fun h => ?_, fun h => ?_, fun h => ?_⟩
  · exact absurd (hs.symm.trans h) Bool.false_ne_true
  · exact absurd (hs.symm.trans h) Bool.false_ne_true
  · exact absurd (hs.symm.trans h) Bool.false_ne_true
  · rw [h] at hs
    cases hs

/-- **The executor thread keeps the invariant**, if no callback comes late. -/
theorem MonitorInv.mainStep (h : MonitorInv s) (hs : s.mainStep s.main a = some s')
    (hok : undisturbedStart s a = true) : MonitorInv s' := by
  cases MonitorState.mainStep_move hs with
  | refused => exact h
  | begun | activated | flagCleared => exact .of_starting rfl
  | emptied =>
    simp only [undisturbedStart, Bool.and_eq_true, Bool.not_eq_true', List.all_eq_true] at hok
    have hquiet : ∀ p ∈ s.calls, p.2.signals s = false := hok.2
    refine ⟨fun _ hf => ?_, fun _ p hp _ => (signals_congr rfl p.2).trans (hquiet p hp),
      fun _ p hp _ hap => ?_, nofun⟩
    · exact absurd (hok.1.symm.trans hf) Bool.false_ne_true
    · have hsig : p.2.signals s = true := by simp [Callback.signals, hap]
      exact absurd ((hquiet p hp).symm.trans hsig) Bool.false_ne_true
  | registered hm =>
    have hsettled : s.main.settled = true := by rw [hm]; rfl
    exact ⟨fun _ => h.flag hsettled, fun _ => h.stale hsettled, fun _ => h.fresh hsettled, nofun⟩
  | stopped => exact ⟨h.flag, h.stale, h.fresh, h.woken⟩
  | waits hm | expired hm => exact h.goOn (fun _ => by rw [hm]; rfl) nofun
  | woken hm hf => exact h.goOn (fun _ => by rw [hm]; rfl) fun _ => hf
  | read hm => exact h.goOn (fun _ => by rcases hm with hm | hm <;> rw [hm] <;> rfl) nofun

/-- **A callback goes on**: the list and the flag only grow, and what becomes of the callback is in
order. -/
theorem MonitorInv.callback (h : MonitorInv s) (hmain : s'.main = s.main)
    (hepoch : s'.epoch = s.epoch) (hpattern : s'.urlPattern = s.urlPattern)
    (hevents : ∀ e ∈ s.events, e ∈ s'.events)
    (hflag : s.downloadEvent = true → s'.downloadEvent = true)
    (hset : s.main.settled = true → s'.downloadEvent = true →
      s.downloadEvent = true ∨ s'.HasDownload)
    (hcalls : s.main.settled = true → ∀ p ∈ s'.calls, p ∈ s.calls ∨
      (p.2.epoch ≠ s.epoch → p.2.signals s = false) ∧
        (p.2.epoch = s.epoch → p.2.phase = .appended → s'.HasDownload)) : MonitorInv s' := by
  refine ⟨fun hs hf => ?_, fun hs p hp hep => ?_, fun hs p hp hep hap => ?_, fun hw => ?_⟩
  · rw [hmain] at hs
    rcases hset hs hf with hold | hnew
    · exact (h.flag hs hold).mono hepoch hevents
    · exact hnew
  · rw [hmain] at hs
    rw [hepoch] at hep
    rw [signals_congr hpattern]
    rcases hcalls hs p hp with hold | ⟨hstale, -⟩
    · exact h.stale hs p hold hep
    · exact hstale hep
  · rw [hmain] at hs
    rw [hepoch] at hep
    rcases hcalls hs p hp with hold | ⟨-, hfresh⟩
    · exact (h.fresh hs p hold hep hap).mono hepoch hevents
    · exact hfresh hep hap
  · exact hflag (h.woken (hmain.symm.trans hw))

theorem MonitorInv.arrive {msg : NetMsg} (h : MonitorInv s) :
    MonitorInv (s.put k ⟨msg, s.epoch, .checked⟩ .checked) := by
  refine h.callback rfl rfl rfl (fun _ he => he) id (fun _ => Or.inl) fun _ p hp => ?_
  rcases Dict.mem_set hp with rfl | hold
  · exact Or.inr ⟨fun hne => absurd rfl hne, fun _ hap => nomatch hap⟩
  · exact Or.inl hold

/-- A callback returns, after a change that leaves the list and the flag alone. -/
theorem MonitorInv.drop (h : MonitorInv s) {pending : Dict String (String × String)} :
    MonitorInv ({ s with pendingRequests := pending }.drop k) :=
  h.callback rfl rfl rfl (fun _ he => he) id (fun _ => Or.inl) fun _ _ hp =>
    Or.inl (List.mem_of_mem_filter hp)

/-- A callback goes on, after a change that leaves the list and the flag alone. -/
theorem MonitorInv.put (h : MonitorInv s) {pending : Dict String (String × String)}
    {phase : CallbackPhase} (hc : (k, c) ∈ s.calls) (hphase : phase ≠ .appended)
    (hsignals : c.signals s = false → Callback.signals s { c with phase := phase } = false) :
    MonitorInv ({ s with pendingRequests := pending }.put k c phase) := by
  refine h.callback rfl rfl rfl (fun _ he => he) id (fun _ => Or.inl) fun hs p hp => ?_
  rcases Dict.mem_set hp with rfl | hold
  · exact Or.inr ⟨fun hne => hsignals (h.stale hs (k, c) hc hne), fun _ hap => absurd hap hphase⟩
  · exact Or.inl hold

theorem MonitorInv.filter (h : MonitorInv s) (hc : (k, c) ∈ s.calls) (hp : c.phase = .checked)
    (hurl : NetworkMonitor.isInternal c.msg.url = false) :
    MonitorInv (s.put k c (if s.urlPattern.isSome then .matching else .accepted)) := by
  refine h.put hc (by split_ifs <;> nofun) fun hsig => ?_
  obtain ⟨msg, epoch, phase⟩ := c
  obtain rfl : phase = .checked := hp
  cases msg with
  | request => cases s.urlPattern <;> rfl
  | response _ url _ headers =>
    have hurl' : NetworkMonitor.isInternal url = false := hurl
    cases hpattern : s.urlPattern <;> simpa [Callback.signals, hurl', hpattern] using hsig

theorem MonitorInv.search (h : MonitorInv s) (hc : (k, c) ∈ s.calls) (hp : c.phase = .matching)
    (hurl : s.urlPattern.any (· c.msg.url) = true) : MonitorInv (s.put k c .accepted) := by
  refine h.put hc nofun fun hsig => ?_
  obtain ⟨msg, epoch, phase⟩ := c
  obtain rfl : phase = .matching := hp
  cases msg with
  | request => rfl
  | response _ url _ headers =>
    have hurl' : s.urlPattern.any (· url) = true := hurl
    simpa [Callback.signals, hurl'] using hsig

/-- The event of a callback is appended. -/
theorem MonitorInv.append (h : MonitorInv s) {event : NetworkEvent} (hc : (k, c) ∈ s.calls)
    (hp : c.phase = .made event) : MonitorInv
      (if event.triggeredDownload then
        { s with events := s.events ++ [(c.epoch, event)] }.put k c .appended
      else { s with events := s.events ++ [(c.epoch, event)] }.drop k) := by
  have hsig : c.signals s = event.triggeredDownload := by
    unfold Callback.signals
    rw [hp]
  split_ifs with hd
  · refine h.callback rfl rfl rfl (fun e he => List.mem_append_left _ he) id (fun _ => Or.inl)
      fun hs p hp => ?_
    rcases Dict.mem_set hp with rfl | hold
    · refine Or.inr ⟨fun hne => ?_, fun hep _ => ?_⟩
      · have hfalse := h.stale hs (k, c) hc hne
        exact absurd (hfalse.symm.trans (hsig.trans hd)) Bool.false_ne_true
      · exact ⟨(c.epoch, event), List.mem_append_right _ List.mem_cons_self, hep, hd⟩
    · exact Or.inl hold
  · exact h.callback rfl rfl rfl (fun e he => List.mem_append_left _ he) id (fun _ => Or.inl)
      fun _ p hp => Or.inl (List.mem_of_mem_filter hp)

/-- The flag is set. -/
theorem MonitorInv.signal (h : MonitorInv s) (hc : (k, c) ∈ s.calls) (hp : c.phase = .appended) :
    MonitorInv ({ s with downloadEvent := true }.drop k) := by
  refine h.callback rfl rfl rfl (fun _ he => he) (fun _ => rfl) (fun hs _ => Or.inr ?_)
    fun _ p hp => Or.inl (List.mem_of_mem_filter hp)
  have hsig : c.signals s = true := by
    unfold Callback.signals
    rw [hp]
  by_cases hep : c.epoch = s.epoch
  · exact (h.fresh hs (k, c) hc hep hp).mono rfl fun _ he => he
  · exact absurd ((h.stale hs (k, c) hc hep).symm.trans hsig) Bool.false_ne_true

/-- **A callback keeps the invariant.** -/
theorem MonitorInv.callStep (h : MonitorInv s) (hc : (k, c) ∈ s.calls)
    (hs : s.callStep k c a = some s') : MonitorInv s' := by
  cases MonitorState.callStep_move hs with
  | internal | unmatched | stored => exact h.drop
  | checked hp hurl => exact h.filter hc hp hurl
  | matched hp hurl => exact h.search hc hp hurl
  | popped hp hmsg =>
    refine h.put hc nofun fun hsig => ?_
    unfold Callback.signals at hsig
    rw [hp, hmsg] at hsig
    exact hsig
  | appended hp => exact h.append hc hp
  | signalled hp => exact h.signal hc hp

/-- **Every action keeps the invariant**, if no callback comes late. -/
theorem MonitorInv.step (h : MonitorInv s) (hok : undisturbedStart s a = true)
    (hs : s.step a = some s') : MonitorInv s' := by
  have hcall : ∀ k a, ((Dict.get k s.calls).bind fun c => s.callStep k c a) = some s' →
      MonitorInv s' := by
    intro k a hs
    obtain ⟨c, hc, hs⟩ := Option.bind_eq_some_iff.mp hs
    exact h.callStep (Dict.mem_of_get hc) hs
  cases a with
  | arrive k msg =>
    unfold MonitorState.step at hs
    dsimp only at hs
    split_ifs at hs
    · obtain rfl := Option.some.inj hs
      exact h.arrive
    · obtain rfl := Option.some.inj hs
      exact h
  | filter k | search k | store k | pop k | append k | signal k => exact hcall _ _ hs
  | _ => exact h.mainStep hs hok

/-! ## Runs -/

/-- **The flag comes with a download.** In every state of every run in which no callback comes late
at a start: if no start is in progress and the flag is set, the list has a download whose response
arrived after the last start had emptied it, and a wait that was woken returns some event. -/
theorem flag_has_event {h : List (MonitorState × MonitorAct)} (hr : monitorThreads.Run h s)
    (hok : ∀ e ∈ h, undisturbedStart e.1 e.2 = true) :
    (s.main.starting = false → s.downloadEvent = true → s.HasDownload) ∧
      (s.main = .woken → s.monitor.downloads ≠ []) := by
  have hinv : MonitorInv s := hr.invariant .init (fun _ _ _ hi ho hs => hi.step ho hs) hok
  have hflag : s.main.starting = false → s.downloadEvent = true → s.HasDownload := by
    intro hm hf
    refine hinv.flag ?_ hf
    cases hmain : s.main <;> rw [hmain] at hm <;> first | rfl | cases hm
  refine ⟨hflag, fun hw => ?_⟩
  obtain ⟨e, he, -, hd⟩ := hflag (by rw [hw]; rfl) (hinv.woken hw)
  have hmem : e.2 ∈ s.monitor.downloads :=
    List.mem_filter.mpr ⟨List.mem_map_of_mem he, hd⟩
  exact List.ne_nil_of_mem hmem

end Theory

/-! ## A download before and after a restart -/

section Example

attribute [local instance] asciiText

/-- The answer to a click on an export button. -/
def exportResponse : NetMsg :=
  .response "r1" "https://example.com/export" (.int 200)
    [("content-disposition", "attachment; filename=\"report.csv\"")]

/-- A start without a pattern. -/
def startActs : List MonitorAct :=
  [.beginStart none, .setMonitoring, .clearFlag, .clearEvents, .register]

/-- A restart, a download, and a wait that the flag wakes. -/
theorem flag_has_event_restart : ∃ h s, monitorThreads.Run h s ∧ s.main = .woken ∧
    s.HasDownload ∧ s.monitor.downloads ≠ [] := by
  obtain ⟨h, s, hr, hp⟩ := monitorThreads.exists_run
    (startActs ++ startActs ++ [.wait, .arrive 1 exportResponse, .filter 1, .pop 1, .append 1,
      .signal 1, .wake])
    (fun h s => h.all (fun e => undisturbedStart e.1 e.2) && decide (s.main = .woken) &&
      s.downloadEvent) (by decide +kernel)
  simp only [Bool.and_eq_true, List.all_eq_true, decide_eq_true_eq] at hp
  obtain ⟨⟨hok, hmain⟩, hf⟩ := hp
  obtain ⟨hflag, hwoken⟩ := flag_has_event hr hok
  exact ⟨h, s, hr, hmain, hflag (by rw [hmain]; rfl) hf, hwoken hmain⟩

/-- **A late callback.** The response comes before a restart and its event is appended; the restart
clears the flag and the list; then the callback sets the flag, and the wait is woken with an empty
list. -/
theorem woken_without_event : ∃ h s, monitorThreads.Run h s ∧ s.main = .woken ∧
    s.downloadEvent = true ∧ ¬ s.HasDownload ∧ s.monitor.downloads = [] := by
  obtain ⟨h, s, hr, hp⟩ := monitorThreads.exists_run
    (startActs ++ [.arrive 1 exportResponse, .filter 1, .pop 1, .append 1] ++ startActs ++
      [.signal 1, .wait, .wake])
    (fun _ s => decide (s.main = .woken) && s.downloadEvent && s.events.isEmpty) (by decide +kernel)
  simp only [Bool.and_eq_true, decide_eq_true_eq, List.isEmpty_iff] at hp
  obtain ⟨⟨hmain, hf⟩, hevents⟩ := hp
  refine ⟨h, s, hr, hmain, hf, ?_, ?_⟩
  · rintro ⟨e, he, -⟩
    rw [hevents] at he
    cases he
  · simp [NetworkMonitor.downloads, MonitorState.monitor, hevents]

end Example

end ScoutEngine
