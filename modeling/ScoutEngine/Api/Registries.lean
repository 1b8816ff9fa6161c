import ScoutEngine.Executor.Release
import ScoutEngine.Lib.Registry
import ScoutEngine.Lib.Transition

/-!
# Many executions in the service

The registries are shared by all executions: `cancellation._registry`, `pause._pause_requested` and
`pause._registry`, and `browser_session._registry`. The background tasks and their executor threads
fill and empty them, and requests look their objects up. One access under a lock, or to one object,
is one action.

* `Stage`, `Thread`, `Place`: where a task and its executor thread are; `TaskAct`, **`Place.after`**:
  what they do next. Every `await` and every call of others may raise.
* `Request`, `RequestAct`: a request looks an object up, and uses it in a later action.
* `Host`, `HostAct`, **`Host.step`**; `host`: the system.
* `Place.Goes`, `Host.step_cases`: what an action can do; `Host.Asks`, `Host.Minds`: what it leaves
  alone.
* `Took`, `took_iff`: what a task has done, by how far it has come; **`interrupted`**.
* `Host.Held`, **`held`**: what the registries hold, by how far the tasks have come.
* **`registered`**: the same, by what the tasks have done.
-/

set_option autoImplicit false

namespace ScoutEngine

open Transition

/-! ## Tasks -/

/-- Where `_run_execution` is. -/
inductive Stage where
  | absent
  | scheduled
  /-- Session 1 has raised. -/
  | abandoned
  /-- The cancel event is registered. -/
  | cancellable
  /-- The pause handle is registered too; the `try` block begins. -/
  | ready
  /-- It awaits the executor thread. -/
  | awaiting
  /-- The `finally` block begins. -/
  | leaving
  /-- The cancel event is unregistered. -/
  | closing
  /-- The pause handle is unregistered too. -/
  | closed
  /-- Session 2 and the callback are over, too. -/
  | ended
  deriving DecidableEq, Repr

/-- Where `_run_sync` is. -/
inductive Thread where
  | idle
  /-- The browser is set up. -/
  | starting
  /-- Its `try` block. -/
  | looping
  /-- The browser session is unregistered, the driver not closed. -/
  | unlisted
  | over
  deriving DecidableEq, Repr

/-- Where a task and its executor thread are. -/
structure Place where
  stage : Stage := .absent
  thread : Thread := .idle
  deriving DecidableEq, Repr

/-- What a task and its executor thread do. -/
inductive TaskAct where
  | submit
  /-- Session 1 raises. -/
  | fail
  | registerCancel | registerPause
  /-- `resolve_variables` raises, or the task is cancelled before its thread starts. -/
  | quit
  | start
  /-- The driver, human mode or the download directory raises. -/
  | setUpFails
  /-- The step loop begins; the browser session is registered if its addresses could be read. -/
  | enterLoop (info : Option BrowserSessionInfo)
  /-- `update_step`, `set_paused` or `set_running`. -/
  | alterSession (f : BrowserSessionInfo → BrowserSessionInfo)
  /-- `pause_requested.clear()`. -/
  | takePause
  /-- `pause_queue.get()`. -/
  | takeInstruction
  /-- The step loop is left, by an exception or not, and the session unregistered. -/
  | unlist
  | closeDriver
  /-- `execute_workflow` returns or raises. -/
  | join
  /-- The task is cancelled: the `await` raises, the executor thread goes on. -/
  | interrupt
  | unregisterCancel | unregisterPause
  /-- Session 2 and the callback are over; either may raise. -/
  | finish

/-- **Where a task goes**, if it can do this. -/
def Place.after : Place → TaskAct → Option Place
  | ⟨.absent, th⟩, .submit => some ⟨.scheduled, th⟩
  | ⟨.scheduled, th⟩, .fail => some ⟨.abandoned, th⟩
  | ⟨.scheduled, th⟩, .registerCancel => some ⟨.cancellable, th⟩
  | ⟨.cancellable, th⟩, .registerPause => some ⟨.ready, th⟩
  | ⟨.ready, .idle⟩, .quit => some ⟨.leaving, .idle⟩
  | ⟨.ready, .idle⟩, .start => some ⟨.awaiting, .starting⟩
  | ⟨st, .starting⟩, .setUpFails => some ⟨st, .over⟩
  | ⟨st, .starting⟩, .enterLoop _ => some ⟨st, .looping⟩
  | ⟨st, .looping⟩, .alterSession _ => some ⟨st, .looping⟩
  | ⟨st, .looping⟩, .takePause => some ⟨st, .looping⟩
  | ⟨st, .looping⟩, .takeInstruction => some ⟨st, .looping⟩
  | ⟨st, .looping⟩, .unlist => some ⟨st, .unlisted⟩
  | ⟨st, .unlisted⟩, .closeDriver => some ⟨st, .over⟩
  | ⟨.awaiting, .over⟩, .join => some ⟨.leaving, .over⟩
  | ⟨.awaiting, th⟩, .interrupt => some ⟨.leaving, th⟩
  | ⟨.leaving, th⟩, .unregisterCancel => some ⟨.closing, th⟩
  | ⟨.closing, th⟩, .unregisterPause => some ⟨.closed, th⟩
  | ⟨.closed, th⟩, .finish => some ⟨.ended, th⟩
  | _, _ => none

/-- The objects that a task holds: `cancel_event`, `pause_requested` and `pause_queue`. -/
structure Handles where
  cancel : ℕ := 0
  pause : ℕ := 0
  queue : ℕ := 0

/-! ## Requests -/

/-- Where a request is: it may hold an object that it has looked up for an id. -/
inductive Request where
  | sent
  | cancelling (id : String) (event : ℕ)
  | pausing (id : String) (event : ℕ)
  | resuming (id : String) (queue : ℕ) (instruction : ResumeInstruction)
  | done

/-- What a request does; a stop request signals the cancel event between its two accesses to the
database. -/
inductive RequestAct where
  | cancelFind (id : String) | cancelSet
  | pauseFind (id : String) | pauseSet
  | resumeFind (id : String) (instruction : ResumeInstruction) | resumePut
  | getSession (id : String)

/-- `cancel`, with the event that was looked up. -/
def Request.cancel (id : String) : Option ℕ → Request
  | some r => .cancelling id r
  | none => .done

/-- `request_pause`, with the event that was looked up. -/
def Request.requestPause (id : String) : Option ℕ → Request
  | some r => .pausing id r
  | none => .done

/-- `resume`, with the queue that was looked up. -/
def Request.resume (id : String) (i : ResumeInstruction) : Option ℕ → Request
  | some r => .resuming id r i
  | none => .done

/-- The execution that a request names, or whose object it has looked up. -/
def RequestAct.addressee (x : Request) : RequestAct → Option String
  | .cancelFind id | .pauseFind id | .resumeFind id _ | .getSession id => some id
  | .cancelSet | .pauseSet | .resumePut =>
    match x with
    | .cancelling id _ | .pausing id _ | .resuming id _ _ => some id
    | .sent | .done => none

/-! ## The service -/

/-- **The registries, the tasks and the requests.** -/
structure Host where
  cancels : Registry String Bool := {}
  pauses : Registry String Bool := {}
  /-- The queues have one place. -/
  queues : Registry String (Option ResumeInstruction) := {}
  sessions : Sessions := []
  place : String → Place := fun _ => {}
  handles : String → Handles := fun _ => {}
  requests : ℕ → Request := fun _ => .sent

/-- An action of the task of an execution, or of a request. -/
inductive HostAct where
  | task (id : String) (t : TaskAct)
  | request (k : ℕ) (q : RequestAct)

namespace Host

/-- What a task does to the registries; an empty queue blocks. -/
def effect (s : Host) (id : String) : TaskAct → Option Host
  | .registerCancel => some { s with
      cancels := s.cancels.register id false
      handles := Function.update s.handles id
        { s.handles id with cancel := s.cancels.objects.length } }
  | .registerPause => some { s with
      pauses := s.pauses.register id false
      queues := s.queues.register id none
      handles := Function.update s.handles id
        { s.handles id with pause := s.pauses.objects.length, queue := s.queues.objects.length } }
  | .enterLoop (some info) => some { s with sessions := s.sessions.register id info }
  | .alterSession f => some { s with sessions := s.sessions.alter id f }
  | .takePause => some { s with pauses := s.pauses.write (s.handles id).pause false }
  | .takeInstruction =>
    match s.queues.objects[(s.handles id).queue]? with
    | some (some _) => some { s with queues := s.queues.write (s.handles id).queue none }
    | _ => none
  | .unlist => some { s with sessions := s.sessions.unregister id }
  | .unregisterCancel => some { s with cancels := s.cancels.unregister id }
  | .unregisterPause => some { s with
      pauses := s.pauses.unregister id
      queues := s.queues.unregister id }
  | _ => some s

/-- A request goes on. -/
def requestAt (s : Host) (k : ℕ) (q : Request) : Host :=
  { s with requests := Function.update s.requests k q }

/-- What a request does; a full queue blocks. -/
def handle (s : Host) (k : ℕ) : Request → RequestAct → Option Host
  | .sent, .cancelFind id => some (s.requestAt k (.cancel id (s.cancels.find id)))
  | .cancelling _ r, .cancelSet =>
    some ({ s with cancels := s.cancels.write r true }.requestAt k .done)
  | .sent, .pauseFind id => some (s.requestAt k (.requestPause id (s.pauses.find id)))
  | .pausing _ r, .pauseSet =>
    some ({ s with pauses := s.pauses.write r true }.requestAt k .done)
  | .sent, .resumeFind id i => some (s.requestAt k (.resume id i (s.queues.find id)))
  | .resuming _ r i, .resumePut =>
    match s.queues.objects[r]? with
    | some none => some ({ s with queues := s.queues.write r (some i) }.requestAt k .done)
    | _ => none
  | .sent, .getSession _ => some (s.requestAt k .done)
  | _, _ => none

/-- **What an action makes of a state** in which it is enabled. -/
def step (s : Host) : HostAct → Option Host
  | .task id t =>
    match (s.place id).after t, s.effect id t with
    | some p, some s' => some { s' with place := Function.update s.place id p }
    | _, _ => none
  | .request k q => s.handle k (s.requests k) q

/-- The execution that an action is addressed to. -/
def addressee (s : Host) : HostAct → Option String
  | .task id _ => some id
  | .request k q => q.addressee (s.requests k)

end Host

/-- **The service**: any number of executions and requests. -/
def host : System Host HostAct where
  init := {}
  step := Host.step

/-! ## What an action can do -/

/-- `Place.after` as a relation. -/
inductive Place.Goes : Place → TaskAct → Place → Prop
  | submit {th : Thread} : Goes ⟨.absent, th⟩ .submit ⟨.scheduled, th⟩
  | fail {th : Thread} : Goes ⟨.scheduled, th⟩ .fail ⟨.abandoned, th⟩
  | registerCancel {th : Thread} : Goes ⟨.scheduled, th⟩ .registerCancel ⟨.cancellable, th⟩
  | registerPause {th : Thread} : Goes ⟨.cancellable, th⟩ .registerPause ⟨.ready, th⟩
  | quit : Goes ⟨.ready, .idle⟩ .quit ⟨.leaving, .idle⟩
  | start : Goes ⟨.ready, .idle⟩ .start ⟨.awaiting, .starting⟩
  | setUpFails {st : Stage} : Goes ⟨st, .starting⟩ .setUpFails ⟨st, .over⟩
  | enterLoop {st : Stage} (info : Option BrowserSessionInfo) :
      Goes ⟨st, .starting⟩ (.enterLoop info) ⟨st, .looping⟩
  | alterSession {st : Stage} (f : BrowserSessionInfo → BrowserSessionInfo) :
      Goes ⟨st, .looping⟩ (.alterSession f) ⟨st, .looping⟩
  | takePause {st : Stage} : Goes ⟨st, .looping⟩ .takePause ⟨st, .looping⟩
  | takeInstruction {st : Stage} : Goes ⟨st, .looping⟩ .takeInstruction ⟨st, .looping⟩
  | unlist {st : Stage} : Goes ⟨st, .looping⟩ .unlist ⟨st, .unlisted⟩
  | closeDriver {st : Stage} : Goes ⟨st, .unlisted⟩ .closeDriver ⟨st, .over⟩
  | join : Goes ⟨.awaiting, .over⟩ .join ⟨.leaving, .over⟩
  | interrupt {th : Thread} : Goes ⟨.awaiting, th⟩ .interrupt ⟨.leaving, th⟩
  | unregisterCancel {th : Thread} : Goes ⟨.leaving, th⟩ .unregisterCancel ⟨.closing, th⟩
  | unregisterPause {th : Thread} : Goes ⟨.closing, th⟩ .unregisterPause ⟨.closed, th⟩
  | finish {th : Thread} : Goes ⟨.closed, th⟩ .finish ⟨.ended, th⟩

theorem Place.after_goes {p p' : Place} {t : TaskAct} (h : p.after t = some p') : Goes p t p' := by
  unfold Place.after at h
  split at h <;> cases h
  case h_1 => exact .submit
  all_goals constructor

theorem Place.Goes.after {p p' : Place} {t : TaskAct} (h : Goes p t p') :
    p.after t = some p' := by
  cases h with
  | @setUpFails st | @enterLoop st | @alterSession st | @takePause st | @takeInstruction st
  | @unlist st | @closeDriver st => cases st <;> rfl
  | @interrupt th | @unregisterCancel th | @unregisterPause th | @finish th => cases th <;> rfl
  | _ => rfl

namespace Host

variable {s s' : Host} {a : HostAct}

/-- **What an action can do**: a task goes on, or a request does. -/
theorem step_cases (h : s.step a = some s') :
    (∃ id t p s₁, a = .task id t ∧ (s.place id).Goes t p ∧ s.effect id t = some s₁ ∧
      s' = { s₁ with place := Function.update s.place id p }) ∨
    ∃ k q, a = .request k q ∧ s.handle k (s.requests k) q = some s' := by
  cases a with
  | task id t =>
    rw [step] at h
    split at h
    · rename_i p s₁ hp he
      exact Or.inl ⟨id, t, p, s₁, rfl, Place.after_goes hp, he, (Option.some.inj h).symm⟩
    · cases h
  | request k q => exact Or.inr ⟨k, q, rfl, h⟩

/-- A task can go on. -/
theorem step_task {id : String} {t : TaskAct} {p : Place} {s₁ : Host} (hg : (s.place id).Goes t p)
    (he : s.effect id t = some s₁) : s.step (.task id t) =
      some { s₁ with place := Function.update s.place id p } := by
  rw [step, hg.after, he]

/-- A request touches neither the tasks nor what is registered. -/
structure Asks (s s' : Host) : Prop where
  cancels : ∀ id, s'.cancels.find id = s.cancels.find id
  pauses : ∀ id, s'.pauses.find id = s.pauses.find id
  queues : ∀ id, s'.queues.find id = s.queues.find id
  sessions : s'.sessions = s.sessions
  place : s'.place = s.place
  handles : s'.handles = s.handles

theorem handle_asks {k : ℕ} {q : RequestAct} {x : Request} (h : s.handle k x q = some s') :
    Asks s s' := by
  unfold handle at h
  split at h
  case h_6 =>
    split at h <;> cases h
    exact ⟨fun _ => rfl, fun _ => rfl, fun _ => rfl, rfl, rfl, rfl⟩
  all_goals cases h
  all_goals exact ⟨fun _ => rfl, fun _ => rfl, fun _ => rfl, rfl, rfl, rfl⟩

/-- A task touches its own entries only. -/
structure Minds (id : String) (s s' : Host) : Prop where
  cancels : ∀ id', id ≠ id' → s'.cancels.find id' = s.cancels.find id'
  pauses : ∀ id', id ≠ id' → s'.pauses.find id' = s.pauses.find id'
  queues : ∀ id', id ≠ id' → s'.queues.find id' = s.queues.find id'
  sessions : ∀ id', id ≠ id' →
    Sessions.getSession id' s'.sessions = Sessions.getSession id' s.sessions
  handles : ∀ id', id ≠ id' → s'.handles id' = s.handles id'
  place : s'.place = s.place
  requests : s'.requests = s.requests

theorem Minds.refl (id : String) (s : Host) : Minds id s s :=
  ⟨fun _ _ => rfl, fun _ _ => rfl, fun _ _ => rfl, fun _ _ => rfl, fun _ _ => rfl, rfl, rfl⟩

theorem effect_minds {id : String} {t : TaskAct} (h : s.effect id t = some s') : Minds id s s' := by
  cases t with
  | registerCancel =>
    cases h
    refine { Minds.refl id s with cancels := fun id' hid => ?_, handles := fun id' hid => ?_ }
    · exact (Registry.find_register ..).trans (if_neg hid)
    · exact Function.update_of_ne hid.symm _ _
  | registerPause =>
    cases h
    refine { Minds.refl id s with
      pauses := fun id' hid => ?_, queues := fun id' hid => ?_, handles := fun id' hid => ?_ }
    · exact (Registry.find_register ..).trans (if_neg hid)
    · exact (Registry.find_register ..).trans (if_neg hid)
    · exact Function.update_of_ne hid.symm _ _
  | enterLoop info =>
    cases info with
    | none =>
      cases h
      exact .refl id s
    | some info =>
      cases h
      exact { Minds.refl id s with sessions := fun id' hid => Dict.get_set_ne hid _ _ }
  | alterSession f =>
    cases h
    refine { Minds.refl id s with sessions := fun id' hid => ?_ }
    exact (Sessions.get_alter id id' f s.sessions).trans (if_neg hid)
  | takeInstruction =>
    rw [effect] at h
    split at h <;> cases h
    exact { Minds.refl id s with }
  | unlist =>
    cases h
    refine { Minds.refl id s with sessions := fun id' hid => ?_ }
    exact (Dict.get_filter_ne id id' s.sessions).trans (if_neg hid)
  | unregisterCancel =>
    cases h
    refine { Minds.refl id s with cancels := fun id' hid => ?_ }
    exact (Registry.find_unregister ..).trans (if_neg hid)
  | unregisterPause =>
    cases h
    refine { Minds.refl id s with pauses := fun id' hid => ?_, queues := fun id' hid => ?_ }
    · exact (Registry.find_unregister ..).trans (if_neg hid)
    · exact (Registry.find_unregister ..).trans (if_neg hid)
  | takePause =>
    cases h
    exact { Minds.refl id s with }
  | submit | fail | quit | start | setUpFails | closeDriver | join | interrupt | finish =>
    cases h
    exact .refl id s

/-- An action moves the task of its own execution only. -/
theorem place_cases (h : s.step a = some s') (id : String) :
    (∃ t, a = .task id t ∧ (s.place id).Goes t (s'.place id)) ∨
      (∀ t, a ≠ .task id t) ∧ s'.place id = s.place id := by
  obtain ⟨id₀, t, p, s₁, rfl, hg, -, rfl⟩ | ⟨k, q, rfl, hh⟩ := step_cases h
  · by_cases hid : id = id₀
    · subst hid
      refine Or.inl ⟨t, rfl, ?_⟩
      dsimp only
      rwa [Function.update_self]
    · refine Or.inr ⟨fun t' ht' => hid ?_, Function.update_of_ne hid _ _⟩
      cases ht'
      rfl
  · exact Or.inr ⟨fun t => nofun, congrFun (handle_asks hh).place id⟩

end Host

/-! ## What has happened -/

/-- In the run `h`, the task of `id` has done `t`. -/
def Took (h : List (Host × HostAct)) (id : String) (t : TaskAct) : Prop :=
  HostAct.task id t ∈ h.map Prod.snd

/-- How far a task has come. -/
def Stage.rank : Stage → ℕ
  | .absent => 0
  | .scheduled | .abandoned => 1
  | .cancellable => 2
  | .ready => 3
  | .awaiting => 4
  | .leaving => 5
  | .closing => 6
  | .closed => 7
  | .ended => 8

namespace Place.Goes

variable {p p' : Place} {t : TaskAct}

theorem rank_registerCancel (hg : p.Goes t p') :
    2 ≤ p'.stage.rank ↔ 2 ≤ p.stage.rank ∨ t = .registerCancel := by
  cases hg <;> simp [Stage.rank]

theorem rank_registerPause (hg : p.Goes t p') :
    3 ≤ p'.stage.rank ↔ 3 ≤ p.stage.rank ∨ t = .registerPause := by
  cases hg <;> simp [Stage.rank]

theorem rank_unregisterCancel (hg : p.Goes t p') :
    6 ≤ p'.stage.rank ↔ 6 ≤ p.stage.rank ∨ t = .unregisterCancel := by
  cases hg <;> simp [Stage.rank]

theorem rank_unregisterPause (hg : p.Goes t p') :
    7 ≤ p'.stage.rank ↔ 7 ≤ p.stage.rank ∨ t = .unregisterPause := by
  cases hg <;> simp [Stage.rank]
end Place.Goes

section Runs

variable {h : List (Host × HostAct)} {s : Host} {t₀ : TaskAct}

/-- What only `t₀` brings about holds only after it. -/
theorem took_of {P : Place → Prop} (init : ¬ P {})
    (step : ∀ p t p', p.Goes t p' → P p' → P p ∨ t = t₀) (hr : host.Run h s) {id : String}
    (hp : P (s.place id)) : Took h id t₀ := by
  induction hr with
  | init => exact absurd hp init
  | @step h s s' a hr hs ih =>
    rcases Host.place_cases hs id with ⟨t, rfl, hg⟩ | ⟨-, heq⟩
    · rcases step _ _ _ hg hp with hp | rfl
      · exact List.mem_cons_of_mem _ (ih hp)
      · exact List.mem_cons_self
    · exact List.mem_cons_of_mem _ (ih (heq ▸ hp))

/-- What `t₀` brings about, and nothing ends, holds after it. -/
theorem of_took {P : Place → Prop} (step : ∀ p t p', p.Goes t p' → P p ∨ t = t₀ → P p')
    (hr : host.Run h s) {id : String} (ht : Took h id t₀) : P (s.place id) := by
  induction hr with
  | init => exact absurd ht List.not_mem_nil
  | @step h s s' a hr hs ih =>
    rcases Host.place_cases hs id with ⟨t, rfl, hg⟩ | ⟨hne, heq⟩
    · rcases List.mem_cons.mp ht with heq | ht
      · cases heq
        exact step _ _ _ hg (Or.inr rfl)
      · exact step _ _ _ hg (Or.inl (ih ht))
    · rcases List.mem_cons.mp ht with ht | ht
      · exact absurd ht.symm (hne t₀)
      · rw [heq]
        exact ih ht

/-- **A task has done `t₀` iff it has come as far.** -/
theorem took_iff {n : ℕ} (hn : 0 < n) (step : ∀ (p : Place) t (p' : Place), p.Goes t p' →
      (n ≤ p'.stage.rank ↔ n ≤ p.stage.rank ∨ t = t₀)) (hr : host.Run h s) (id : String) :
    Took h id t₀ ↔ n ≤ (s.place id).stage.rank :=
  ⟨of_took (P := fun p => n ≤ p.stage.rank) (fun p t p' hg => (step p t p' hg).mpr) hr,
    took_of (P := fun p => n ≤ p.stage.rank) (Nat.not_le.mpr hn)
      (fun p t p' hg => (step p t p' hg).mp) hr⟩

theorem took_registerCancel (hr : host.Run h s) (id : String) :
    Took h id .registerCancel ↔ 2 ≤ (s.place id).stage.rank :=
  took_iff (by decide) (fun _ _ _ hg => hg.rank_registerCancel) hr id

theorem took_registerPause (hr : host.Run h s) (id : String) :
    Took h id .registerPause ↔ 3 ≤ (s.place id).stage.rank :=
  took_iff (by decide) (fun _ _ _ hg => hg.rank_registerPause) hr id

theorem took_unregisterCancel (hr : host.Run h s) (id : String) :
    Took h id .unregisterCancel ↔ 6 ≤ (s.place id).stage.rank :=
  took_iff (by decide) (fun _ _ _ hg => hg.rank_unregisterCancel) hr id

theorem took_unregisterPause (hr : host.Run h s) (id : String) :
    Took h id .unregisterPause ↔ 7 ≤ (s.place id).stage.rank :=
  took_iff (by decide) (fun _ _ _ hg => hg.rank_unregisterPause) hr id

/-- A task that has done nothing is absent. -/
theorem place_of_idle (hr : host.Run h s) {id : String} (hid : ∀ t, ¬ Took h id t) :
    s.place id = {} := by
  induction hr with
  | init => rfl
  | @step h s s' a hr hs ih =>
    rcases Host.place_cases hs id with ⟨t, rfl, -⟩ | ⟨-, heq⟩
    · exact absurd List.mem_cons_self (hid t)
    · rw [heq]
      exact ih fun t ht => hid t (List.mem_cons_of_mem _ ht)

/-- The executor thread is started after both registrations. -/
theorem rank_of_thread (hr : host.Run h s) (id : String) (ht : (s.place id).thread ≠ .idle) :
    4 ≤ (s.place id).stage.rank := by
  refine hr.always (P := fun s => (s.place id).thread ≠ .idle → 4 ≤ (s.place id).stage.rank)
    (fun ht => absurd rfl ht) (fun s a s' hp hs => ?_) ht
  rcases Host.place_cases hs id with ⟨t, -, hg⟩ | ⟨-, heq⟩
  · generalize s.place id = p, s'.place id = p' at hp hg
    cases hg <;> simp_all [Stage.rank]
  · rwa [heq]

/-- **Only a task that was cancelled leaves its thread.** -/
theorem interrupted (hr : host.Run h s) (id : String) (hrank : 5 ≤ (s.place id).stage.rank)
    (hthread : (s.place id).thread ≠ .idle) (hover : (s.place id).thread ≠ .over) :
    Took h id .interrupt := by
  refine took_of (P := fun p => 5 ≤ p.stage.rank ∧ p.thread ≠ .idle ∧ p.thread ≠ .over) ?_
    ?_ hr ⟨hrank, hthread, hover⟩
  · exact fun hp => absurd hp.1 (by decide)
  · intro p t p' hg hp
    cases hg <;> simp_all [Stage.rank]

end Runs

/-! ## What the registries hold -/

namespace Host

/-- Registered as `r` from one rank on and before another. -/
def Spanned (n m : ℕ) (x : Option ℕ) (k r : ℕ) : Prop :=
  x = if n ≤ k ∧ k < m then some r else none

/-- **What the registries hold of an execution.** -/
structure Held (s : Host) (id : String) : Prop where
  cancel : Spanned 2 6 (s.cancels.find id) (s.place id).stage.rank (s.handles id).cancel
  pause : Spanned 3 7 (s.pauses.find id) (s.place id).stage.rank (s.handles id).pause
  queue : Spanned 3 7 (s.queues.find id) (s.place id).stage.rank (s.handles id).queue
  session : (Sessions.getSession id s.sessions).isSome → (s.place id).thread = .looping

variable {s s₁ s' : Host} {a : HostAct} {id : String} {t : TaskAct}

theorem effect_cancels (he : s.effect id t = some s₁) :
    (t = .registerCancel ∧ s₁.cancels.find id = some (s₁.handles id).cancel) ∨
    (t = .unregisterCancel ∧ s₁.cancels.find id = none) ∨
    (t ≠ .registerCancel ∧ t ≠ .unregisterCancel ∧ s₁.cancels.find id = s.cancels.find id ∧
      (s₁.handles id).cancel = (s.handles id).cancel) := by
  cases t with
  | registerCancel =>
    cases he
    simp [Registry.find_register]
  | unregisterCancel =>
    cases he
    simp [Registry.find_unregister]
  | enterLoop info => cases info <;> cases he <;> simp
  | takeInstruction =>
    rw [effect] at he
    split at he <;> cases he
    simp
  | _ =>
    cases he
    simp

theorem effect_pauses (he : s.effect id t = some s₁) :
    (t = .registerPause ∧ s₁.pauses.find id = some (s₁.handles id).pause ∧
      s₁.queues.find id = some (s₁.handles id).queue) ∨
    (t ≠ .registerPause ∧ (s₁.handles id).pause = (s.handles id).pause ∧
      (s₁.handles id).queue = (s.handles id).queue ∧
      ((t = .unregisterPause ∧ s₁.pauses.find id = none ∧ s₁.queues.find id = none) ∨
        (t ≠ .unregisterPause ∧ s₁.pauses.find id = s.pauses.find id ∧
          s₁.queues.find id = s.queues.find id))) := by
  cases t with
  | registerPause =>
    cases he
    simp [Registry.find_register]
  | unregisterPause =>
    cases he
    simp [Registry.find_unregister]
  | enterLoop info => cases info <;> cases he <;> simp
  | takeInstruction =>
    rw [effect] at he
    split at he <;> cases he
    simp
  | _ =>
    cases he
    simp

/-- The session of an execution is there only while its thread is in its step loop. -/
theorem effect_session {p : Place} (hg : (s.place id).Goes t p) (he : s.effect id t = some s₁)
    (h : (Sessions.getSession id s.sessions).isSome → (s.place id).thread = .looping) :
    (Sessions.getSession id s₁.sessions).isSome → p.thread = .looping := by
  generalize s.place id = q at hg h
  cases hg with
  | enterLoop | alterSession | takePause | takeInstruction => exact fun _ => rfl
  | unlist =>
    cases he
    intro hs
    have hnone : Sessions.getSession id (s.sessions.unregister id) = none :=
      (Dict.get_filter_ne id id s.sessions).trans (if_pos rfl)
    rw [hnone] at hs
    cases hs
  | start | setUpFails | closeDriver =>
    cases he
    exact fun hs => nomatch h hs
  | _ =>
    cases he
    exact fun hs => h hs

theorem Spanned.go {n m k k' : ℕ} {x x' : Option ℕ} {r r' : ℕ} (h : Spanned n m x k r)
    (hk : (n ≤ k' ↔ n ≤ k) ∧ (m ≤ k' ↔ m ≤ k)) (hx : x' = x ∧ r' = r) :
    Spanned n m x' k' r' := by
  obtain ⟨rfl, rfl⟩ := hx
  have hiff : n ≤ k' ∧ k' < m ↔ n ≤ k ∧ k < m := by omega
  unfold Spanned
  rw [if_congr hiff rfl rfl]
  exact h

theorem Spanned.some {n m k r : ℕ} (hk : n ≤ k ∧ k < m) : Spanned n m (some r) k r :=
  (if_pos hk).symm

theorem Spanned.none {n m k r : ℕ} (hk : m ≤ k) : Spanned n m none k r :=
  (if_neg fun h => absurd h.2 (Nat.not_lt.mpr hk)).symm

/-- A task keeps what the registries hold of it. -/
theorem Held.go {p : Place} (h : s.Held id) (hg : (s.place id).Goes t p)
    (he : s.effect id t = some s₁) :
    Held { s₁ with place := Function.update s.place id p } id := by
  have hsession := effect_session hg he h.session
  obtain ⟨hc, hp, hq, -⟩ := h
  have h2 := hg.rank_registerCancel
  have h3 := hg.rank_registerPause
  have h6 := hg.rank_unregisterCancel
  have h7 := hg.rank_unregisterPause
  have hcancel : Spanned 2 6 (s₁.cancels.find id) p.stage.rank (s₁.handles id).cancel := by
    obtain ⟨rfl, hfind⟩ | ⟨rfl, hfind⟩ | ⟨ht, ht', hsame⟩ := effect_cancels he
    · rw [hfind]
      refine .some ?_
      generalize s.place id = q at hg
      cases hg
      simp [Stage.rank]
    · rw [hfind]
      exact .none (h6.mpr (Or.inr rfl))
    · simp only [ht, ht', or_false] at h2 h6
      exact hc.go ⟨h2, h6⟩ hsame
  have hpause : Spanned 3 7 (s₁.pauses.find id) p.stage.rank (s₁.handles id).pause ∧
      Spanned 3 7 (s₁.queues.find id) p.stage.rank (s₁.handles id).queue := by
    obtain ⟨rfl, hfind, hfind'⟩ | ⟨ht, hhp, hhq, ⟨rfl, hfind, hfind'⟩ | ⟨ht', hfp, hfq⟩⟩ :=
      effect_pauses he
    · rw [hfind, hfind']
      have hk : 3 ≤ p.stage.rank ∧ p.stage.rank < 7 := by
        generalize s.place id = q at hg
        cases hg
        simp [Stage.rank]
      exact ⟨.some hk, .some hk⟩
    · rw [hfind, hfind']
      have hk := h7.mpr (Or.inr rfl)
      exact ⟨.none hk, .none hk⟩
    · simp only [ht, ht', or_false] at h3 h7
      exact ⟨hp.go ⟨h3, h7⟩ ⟨hfp, hhp⟩, hq.go ⟨h3, h7⟩ ⟨hfq, hhq⟩⟩
  constructor <;> dsimp only <;> rw [Function.update_self]
  · exact hcancel
  · exact hpause.1
  · exact hpause.2
  · exact hsession

/-- **Every action keeps what the registries hold of every execution.** -/
theorem Held.step (h : ∀ id, s.Held id) (hs : s.step a = some s') (id : String) : s'.Held id := by
  obtain ⟨id₀, t, p, s₁, -, hg, he, rfl⟩ | ⟨k, q, -, hh⟩ := step_cases hs
  · by_cases hid : id₀ = id
    · subst hid
      exact (h id₀).go hg he
    · obtain ⟨hc, hp, hq, hses⟩ := h id
      have hm := effect_minds he
      constructor <;> dsimp only <;> rw [Function.update_of_ne (Ne.symm hid)]
      · rw [hm.cancels id hid, hm.handles id hid]
        exact hc
      · rw [hm.pauses id hid, hm.handles id hid]
        exact hp
      · rw [hm.queues id hid, hm.handles id hid]
        exact hq
      · rw [hm.sessions id hid]
        exact hses
  · obtain ⟨hc, hp, hq, hses⟩ := h id
    have hm := handle_asks hh
    constructor
    · rw [hm.cancels, hm.handles, hm.place]
      exact hc
    · rw [hm.pauses, hm.handles, hm.place]
      exact hp
    · rw [hm.queues, hm.handles, hm.place]
      exact hq
    · rw [hm.sessions, hm.place]
      exact hses

theorem Spanned.isSome_iff {n m k r : ℕ} {x : Option ℕ} (h : Spanned n m x k r) :
    x.isSome ↔ n ≤ k ∧ ¬ m ≤ k := by
  rw [h, Nat.not_le]
  split_ifs with hk <;> simp [hk]

/-- **An execution is registered** from its registrations to the end of its task; its browser
session is, from both registrations to the end of its thread, and to the end of its task unless
this was cancelled. -/
structure Registered (h : List (Host × HostAct)) (s : Host) (id : String) : Prop where
  cancel : (s.cancels.find id).isSome ↔
    Took h id .registerCancel ∧ ¬ Took h id .unregisterCancel
  pause : (s.pauses.find id).isSome ↔ Took h id .registerPause ∧ ¬ Took h id .unregisterPause
  queue : (s.queues.find id).isSome ↔ Took h id .registerPause ∧ ¬ Took h id .unregisterPause
  session : (Sessions.getSession id s.sessions).isSome →
    (s.place id).thread = .looping ∧ Took h id .registerCancel ∧ Took h id .registerPause ∧
      (¬ Took h id .interrupt → ¬ Took h id .unregisterCancel ∧ ¬ Took h id .unregisterPause)

end Host

section Runs

variable {h : List (Host × HostAct)} {s : Host}

theorem held (hr : host.Run h s) : ∀ id, s.Held id :=
  hr.always (P := fun s => ∀ id, s.Held id) (fun _ => ⟨rfl, rfl, rfl, nofun⟩)
    fun _ _ _ h hs => Host.Held.step h hs


theorem registered (hr : host.Run h s) (id : String) : s.Registered h id := by
  obtain ⟨hc, hp, hq, hs⟩ := held hr id
  constructor
  · rw [took_registerCancel hr, took_unregisterCancel hr]
    exact hc.isSome_iff
  · rw [took_registerPause hr, took_unregisterPause hr]
    exact hp.isSome_iff
  · rw [took_registerPause hr, took_unregisterPause hr]
    exact hq.isSome_iff
  · intro hsome
    have hloop := hs hsome
    have hidle : (s.place id).thread ≠ .idle := by
      rw [hloop]
      exact nofun
    have hover : (s.place id).thread ≠ .over := by
      rw [hloop]
      exact nofun
    have hrank := rank_of_thread hr id hidle
    rw [took_registerCancel hr, took_registerPause hr, took_unregisterCancel hr,
      took_unregisterPause hr]
    refine ⟨hloop, by omega, by omega, fun hnot => ?_⟩
    have hlt : (s.place id).stage.rank < 5 := by
      by_contra hge
      exact hnot (interrupted hr id (Nat.not_lt.mp hge) hidle hover)
    omega

end Runs

end ScoutEngine
