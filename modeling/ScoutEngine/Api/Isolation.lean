import ScoutEngine.Api.Registries

/-!
# Executions are isolated

* `Owners`, `Host.Owning`: whose objects the tasks and requests hold; `Host.Reaches`: what an action
  for an execution may change; `owning`.
* `Host.Agrees`, `Host.Empty`, `Stage.Over`; **`registries_isolated`**.
* `session_outlives_task`: a task that is cancelled leaves its thread, and its browser session.
* **`host_runs_executor`**: the executor of one execution is one of the tasks.
-/

set_option autoImplicit false

namespace ScoutEngine

open Transition

/-! ## Whose objects are in use -/

/-- The executions that the objects belong to. -/
structure Owners where
  cancel : ℕ → Option String
  pause : ℕ → Option String
  queue : ℕ → Option String

/-- These owners have objects that the others have. -/
structure Owners.Extends (o' o : Owners) : Prop where
  cancel : ∀ r id, o.cancel r = some id → o'.cancel r = some id
  pause : ∀ r id, o.pause r = some id → o'.pause r = some id
  queue : ∀ r id, o.queue r = some id → o'.queue r = some id

/-- The object that a request has looked up belongs to the execution that it names. -/
def Request.Owned (o : Owners) : Request → Prop
  | .cancelling id r => o.cancel r = some id
  | .pausing id r => o.pause r = some id
  | .resuming id r _ => o.queue r = some id
  | .sent | .done => True

theorem Owners.Extends.owned {o o' : Owners} (h : o'.Extends o) {x : Request} (hx : x.Owned o) :
    x.Owned o' := by
  cases x with
  | cancelling id r => exact h.cancel r id hx
  | pausing id r => exact h.pause r id hx
  | resuming id r i => exact h.queue r id hx
  | sent | done => trivial

namespace Host

/-- **Every object that a task or a request holds belongs to its execution.** -/
structure Owning (o : Owners) (s : Host) : Prop where
  cancels : Registry.Owned o.cancel s.cancels
  pauses : Registry.Owned o.pause s.pauses
  queues : Registry.Owned o.queue s.queues
  pause : ∀ id, 3 ≤ (s.place id).stage.rank → o.pause (s.handles id).pause = some id
  queue : ∀ id, 3 ≤ (s.place id).stage.rank → o.queue (s.handles id).queue = some id
  requests : ∀ k, (s.requests k).Owned o

/-- **What an action for `id` may change.** -/
structure Reaches (o : Owners) (id : String) (s s' : Host) : Prop where
  cancels : Registry.Change o.cancel id s.cancels s'.cancels
  pauses : Registry.Change o.pause id s.pauses s'.pauses
  queues : Registry.Change o.queue id s.queues s'.queues
  sessions : ∀ id', id ≠ id' →
    Sessions.getSession id' s'.sessions = Sessions.getSession id' s.sessions

variable {o : Owners} {s s₁ s' : Host} {a : HostAct} {id : String} {t : TaskAct}

theorem Reaches.refl (o : Owners) (id : String) (s : Host) : Reaches o id s s :=
  ⟨.same, .same, .same, fun _ _ => rfl⟩

/-- A task changes its own entries and objects only. -/
theorem Owning.effect_reaches (h : Owning o s) (hrank : (s.place id).thread ≠ .idle →
      4 ≤ (s.place id).stage.rank) {p : Place} (hg : (s.place id).Goes t p)
    (he : s.effect id t = some s₁) : Reaches o id s s₁ := by
  have hsessions := (effect_minds he).sessions
  have hpause := h.pause id
  have hqueue := h.queue id
  generalize s.place id = q at hg hrank hpause hqueue
  cases hg with
  | registerCancel =>
    cases he
    exact { Reaches.refl o id s with cancels := .register false }
  | registerPause =>
    cases he
    exact { Reaches.refl o id s with pauses := .register false, queues := .register none }
  | enterLoop info =>
    cases info <;> cases he <;> exact { Reaches.refl o id s with sessions := hsessions }
  | alterSession | unlist =>
    cases he
    exact { Reaches.refl o id s with sessions := hsessions }
  | takePause =>
    cases he
    have hr := hpause (by have := hrank nofun; omega)
    exact { Reaches.refl o id s with pauses := .write hr false }
  | takeInstruction =>
    rw [effect] at he
    split at he <;> cases he
    have hr := hqueue (by have := hrank nofun; omega)
    exact { Reaches.refl o id s with queues := .write hr none }
  | unregisterCancel =>
    cases he
    exact { Reaches.refl o id s with cancels := .unregister }
  | unregisterPause =>
    cases he
    exact { Reaches.refl o id s with pauses := .unregister, queues := .unregister }
  | _ =>
    cases he
    exact .refl o id s

theorem Owning.cancel_owned (h : Owning o s) (id : String) :
    (Request.cancel id (s.cancels.find id)).Owned o := by
  cases hf : s.cancels.find id with
  | none => trivial
  | some r => exact h.cancels.find id r hf

theorem Owning.requestPause_owned (h : Owning o s) (id : String) :
    (Request.requestPause id (s.pauses.find id)).Owned o := by
  cases hf : s.pauses.find id with
  | none => trivial
  | some r => exact h.pauses.find id r hf

theorem Owning.resume_owned (h : Owning o s) (id : String) (i : ResumeInstruction) :
    (Request.resume id i (s.queues.find id)).Owned o := by
  cases hf : s.queues.find id with
  | none => trivial
  | some r => exact h.queues.find id r hf

/-- A request changes objects of the execution that it names only, and holds no others. -/
theorem Owning.handle_reaches (h : Owning o s) {k : ℕ} {q : RequestAct}
    (hh : s.handle k (s.requests k) q = some s') :
    (∃ id, s.addressee (.request k q) = some id ∧ Reaches o id s s') ∧
      ∀ k', (s'.requests k').Owned o := by
  have hstay : ∀ {x : Request}, x.Owned o →
      ∀ k', (Function.update s.requests k x k').Owned o := by
    intro x hx k'
    by_cases hk : k' = k
    · rw [hk, Function.update_self]
      exact hx
    · rw [Function.update_of_ne hk]
      exact h.requests k'
  have hk := h.requests k
  change (∃ id, q.addressee (s.requests k) = some id ∧ _) ∧ _
  generalize s.requests k = x at hh hk
  unfold handle at hh
  split at hh
  case h_1 id =>
    cases hh
    exact ⟨⟨id, rfl, { Reaches.refl o id s with }⟩, hstay (h.cancel_owned id)⟩
  case h_2 id r =>
    cases hh
    exact ⟨⟨id, rfl, { Reaches.refl o id s with cancels := .write hk true }⟩, hstay trivial⟩
  case h_3 id =>
    cases hh
    exact ⟨⟨id, rfl, { Reaches.refl o id s with }⟩, hstay (h.requestPause_owned id)⟩
  case h_4 id r =>
    cases hh
    exact ⟨⟨id, rfl, { Reaches.refl o id s with pauses := .write hk true }⟩, hstay trivial⟩
  case h_5 id i =>
    cases hh
    exact ⟨⟨id, rfl, { Reaches.refl o id s with }⟩, hstay (h.resume_owned id i)⟩
  case h_6 id r i =>
    split at hh <;> cases hh
    exact ⟨⟨id, rfl, { Reaches.refl o id s with queues := .write hk (some i) }⟩, hstay trivial⟩
  case h_7 id =>
    cases hh
    exact ⟨⟨id, rfl, { Reaches.refl o id s with }⟩, hstay trivial⟩
  case h_8 => cases hh

/-- A task that holds its pause handle has held it, or has just registered it. -/
theorem pause_registered (hs : s.step a = some s') (id : String)
    (hk : 3 ≤ (s'.place id).stage.rank) :
    (3 ≤ (s.place id).stage.rank ∧ (s'.handles id).pause = (s.handles id).pause ∧
      (s'.handles id).queue = (s.handles id).queue) ∨
    (s'.pauses.find id = some (s'.handles id).pause ∧
      s'.queues.find id = some (s'.handles id).queue) := by
  obtain ⟨id₀, t, p, s₁, -, hg, he, rfl⟩ | ⟨k, q, -, hh⟩ := step_cases hs
  · by_cases hid : id₀ = id
    · subst hid
      dsimp only at hk ⊢
      rw [Function.update_self] at hk
      obtain ⟨-, hfind⟩ | ⟨ht, hp, hq, -⟩ := effect_pauses he
      · exact Or.inr hfind
      · exact Or.inl ⟨(hg.rank_registerPause.mp hk).resolve_right ht, hp, hq⟩
    · dsimp only at hk ⊢
      rw [Function.update_of_ne (Ne.symm hid)] at hk
      rw [(effect_minds he).handles id hid]
      exact Or.inl ⟨hk, rfl, rfl⟩
  · have hm := handle_asks hh
    rw [hm.place] at hk
    rw [hm.handles]
    exact Or.inl ⟨hk, rfl, rfl⟩

/-- **Every action is addressed to one execution**, whose entries and objects alone it changes. -/
theorem Owning.step_reaches (h : Owning o s) (hrank : ∀ id, (s.place id).thread ≠ .idle →
      4 ≤ (s.place id).stage.rank) (hs : s.step a = some s') :
    (∃ id, s.addressee a = some id ∧ Reaches o id s s') ∧
      ∀ k, (s'.requests k).Owned o := by
  obtain ⟨id, t, p, s₁, rfl, hg, he, rfl⟩ | ⟨k, q, rfl, hh⟩ := step_cases hs
  · have hr := h.effect_reaches (hrank id) hg he
    refine ⟨⟨id, rfl, { hr with }⟩, ?_⟩
    change ∀ k, (s₁.requests k).Owned o
    rw [(effect_minds he).requests]
    exact h.requests
  · exact h.handle_reaches hh

/-- **Every action keeps the objects with their executions.** -/
theorem Owning.step (h : Owning o s) (hrank : ∀ id, (s.place id).thread ≠ .idle →
    4 ≤ (s.place id).stage.rank) (hs : s.step a = some s') : ∃ o', Owning o' s' := by
  obtain ⟨⟨id, -, hr⟩, hreq⟩ := h.step_reaches hrank hs
  obtain ⟨oc, hc, hext⟩ := hr.cancels.owned h.cancels
  obtain ⟨op, hp, hextp⟩ := hr.pauses.owned h.pauses
  obtain ⟨oq, hq, hextq⟩ := hr.queues.owned h.queues
  have hext : Owners.Extends ⟨oc, op, oq⟩ o := ⟨hext, hextp, hextq⟩
  refine ⟨⟨oc, op, oq⟩, hc, hp, hq, fun id hk => ?_, fun id hk => ?_, fun k => hext.owned (hreq k)⟩
  · obtain ⟨hk, hsame, -⟩ | ⟨hfind, -⟩ := pause_registered hs id hk
    · rw [hsame]
      exact hextp _ _ (h.pause id hk)
    · exact hp.find id _ hfind
  · obtain ⟨hk, -, hsame⟩ | ⟨-, hfind⟩ := pause_registered hs id hk
    · rw [hsame]
      exact hextq _ _ (h.queue id hk)
    · exact hq.find id _ hfind

end Host

theorem owning {h : List (Host × HostAct)} {s : Host} (hr : host.Run h s) : ∃ o, s.Owning o := by
  induction hr with
  | init =>
    have hnone : ∀ {σ : Type}, Registry.Owned (fun _ => none) ({} : Registry String σ) :=
      ⟨nofun, fun _ _ => rfl⟩
    exact ⟨⟨fun _ => none, fun _ => none, fun _ => none⟩, hnone, hnone, hnone, nofun, nofun,
      fun _ => trivial⟩
  | step hr hs ih =>
    obtain ⟨o, ho⟩ := ih
    exact ho.step (rank_of_thread hr) hs

/-! ## Isolation -/

namespace Host

/-- What the registries hold of `id` is the same. -/
structure Agrees (id : String) (s s' : Host) : Prop where
  cancel : s'.cancels.entry id = s.cancels.entry id
  pause : s'.pauses.entry id = s.pauses.entry id
  queue : s'.queues.entry id = s.queues.entry id
  session : Sessions.getSession id s'.sessions = Sessions.getSession id s.sessions

end Host

/-- The task is over, or was never there. -/
def Stage.Over (st : Stage) : Prop := st = .absent ∨ st = .abandoned ∨ st = .ended

theorem Stage.Over.rank {st : Stage} (h : st.Over) : st.rank ≤ 1 ∨ st.rank = 8 := by
  rcases h with rfl | rfl | rfl <;> simp [Stage.rank]

section Runs

variable {h : List (Host × HostAct)} {s : Host}

/-- What is registered from one rank on and before another is empty once all tasks are over. -/
theorem Host.Spanned.empty {n m : ℕ} {σ : Type} {R : Registry String σ} {k : String → ℕ}
    {r : String → ℕ} (h : ∀ id, Host.Spanned n m (R.find id) (k id) (r id)) (hn : 1 < n)
    (hm : m ≤ 8) (hk : ∀ id, k id ≤ 1 ∨ k id = 8) : R.entries = [] := by
  refine Dict.eq_nil_of_get fun id => (h id).trans (if_neg fun hin => ?_)
  have hid := hk id
  omega

/-- A task that is over, and whose thread is if it was cancelled, has no browser session. -/
theorem session_none (hr : host.Run h s) {id : String} (hover : (s.place id).stage.Over)
    (hthread : Took h id .interrupt → (s.place id).thread = .over) :
    Sessions.getSession id s.sessions = none := by
  by_contra hne
  obtain ⟨hloop, hc, -, hcalm⟩ := (registered hr id).session (Option.isSome_iff_ne_none.mpr hne)
  have hi : ¬ Took h id .interrupt := by
    intro hi
    rw [hthread hi] at hloop
    cases hloop
  have hrank := hover.rank
  rw [took_registerCancel hr] at hc
  have hun := (hcalm hi).1
  rw [took_unregisterCancel hr] at hun
  omega

/-- **Main result.** In every run, an action leaves the entries of the executions that it is not
addressed to as they are, and an execution is registered while its task is. When all tasks are over
the registries are empty, that of the browser sessions when the tasks that were cancelled have no
threads either. -/
theorem registries_isolated (hr : host.Run h s) :
    (∀ a s', host.step s a = some s' → ∀ id, s.addressee a ≠ some id → s.Agrees id s') ∧
    (∀ id, s.Registered h id) ∧
    ((∀ id, (s.place id).stage.Over) →
      s.cancels.entries = [] ∧ s.pauses.entries = [] ∧ s.queues.entries = [] ∧
      ((∀ id, Took h id .interrupt → (s.place id).thread = .over) → s.sessions = [])) := by
  refine ⟨fun a s' hs id hid => ?_, registered hr, fun hover => ?_⟩
  · obtain ⟨o, ho⟩ := owning hr
    obtain ⟨⟨id₀, haddr, hreach⟩, -⟩ := ho.step_reaches (rank_of_thread hr) hs
    have hne : id₀ ≠ id := by
      rintro rfl
      exact hid haddr
    exact ⟨hreach.cancels.entry ho.cancels hne, hreach.pauses.entry ho.pauses hne,
      hreach.queues.entry ho.queues hne, hreach.sessions id hne⟩
  · have hrank : ∀ id, (s.place id).stage.rank ≤ 1 ∨ (s.place id).stage.rank = 8 :=
      fun id => (hover id).rank
    have hheld := held hr
    exact ⟨Host.Spanned.empty (fun id => (hheld id).cancel) (by decide) (by decide) hrank,
      Host.Spanned.empty (fun id => (hheld id).pause) (by decide) (by decide) hrank,
      Host.Spanned.empty (fun id => (hheld id).queue) (by decide) (by decide) hrank,
      fun hthread => Dict.eq_nil_of_get fun id => session_none hr (hover id) (hthread id)⟩

end Runs

section Example

/-- Two executions: the task of the first is cancelled while its executor thread runs, the driver of
the second cannot be created. A stop request for the first and a resume request for the second come
in between. -/
def twoTasks : List HostAct :=
  let info : BrowserSessionInfo :=
    { executionId := "a", cdpHost := .str "127.0.0.1", cdpPort := .int 9222,
      cdpWebsocketUrl := .str "ws://127.0.0.1:9222",
      targetsUrl := "http://127.0.0.1:9222/json/list",
      devtoolsFrontendUrl := "http://127.0.0.1:9222" }
  [.task "a" .submit, .task "b" .submit, .task "a" .registerCancel, .task "b" .registerCancel,
    .task "b" .registerPause, .task "a" .registerPause, .request 0 (.cancelFind "a"),
    .task "a" .start, .task "b" .start, .task "a" (.enterLoop (some info)), .task "b" .setUpFails,
    .task "a" .interrupt, .request 0 .cancelSet, .task "b" .join, .task "a" .unregisterCancel,
    .task "b" .unregisterCancel, .request 1 (.resumeFind "b" { action := .retry }),
    .task "a" .unregisterPause, .task "b" .unregisterPause, .request 1 .resumePut,
    .task "a" .finish, .task "b" .finish]

/-- The executor thread of the first ends, too. -/
def twoThreads : List HostAct := twoTasks ++ [.task "a" .unlist, .task "a" .closeDriver]

theorem named {id : String} {t : TaskAct} (h : HostAct.task id t ∈ twoThreads) :
    id = "a" ∨ id = "b" := by
  simp only [twoThreads, twoTasks, List.cons_append, List.nil_append, List.mem_cons,
    List.not_mem_nil, or_false, HostAct.task.injEq, reduceCtorEq, false_or] at h
  tauto

section Named

variable {as : List HostAct} (has : as <+: twoThreads) {h : List (Host × HostAct)} {s : Host}
  (he : host.exec as [] host.init = some (h, s))
include has he

theorem took_named {id : String} {t : TaskAct} (ht : Took h id t) : id = "a" ∨ id = "b" := by
  rw [Took, System.exec_actions he, List.map_nil, List.append_nil, List.mem_reverse] at ht
  exact named (has.subset ht)

/-- All tasks are over if these two are. -/
theorem over_of_named (ha : (s.place "a").stage.Over) (hb : (s.place "b").stage.Over)
    (id : String) : (s.place id).stage.Over := by
  by_cases hid : id = "a" ∨ id = "b"
  · rcases hid with rfl | rfl
    · exact ha
    · exact hb
  · rw [place_of_idle (System.run_exec .init he) fun t ht => hid (took_named has he ht)]
    exact Or.inl rfl

end Named

/-- Both tasks and threads end. -/
theorem registries_isolated_twoThreads : ∃ h s, host.exec twoThreads [] host.init = some (h, s) ∧
    s.Registered h "a" ∧ s.cancels.entries = [] ∧ s.pauses.entries = [] ∧ s.queues.entries = [] ∧
      s.sessions = [] := by
  obtain ⟨⟨h, s⟩, he, hp⟩ := (Option.any_eq_true (fun r : List (Host × HostAct) × Host =>
      decide (r.2.place "a" = ⟨.ended, .over⟩ ∧ r.2.place "b" = ⟨.ended, .over⟩))
    (host.exec twoThreads [] host.init)).mp (by decide +kernel)
  obtain ⟨ha, hb⟩ := of_decide_eq_true hp
  obtain ⟨-, hreg, hempty⟩ := registries_isolated (System.run_exec .init he)
  have hover := over_of_named List.prefix_rfl he (ha ▸ Or.inr (Or.inr rfl))
    (hb ▸ Or.inr (Or.inr rfl))
  obtain ⟨hc, hp, hq, hs⟩ := hempty hover
  refine ⟨h, s, he, hreg "a", hc, hp, hq, hs fun id ht => ?_⟩
  rcases took_named List.prefix_rfl he ht with rfl | rfl
  · exact congrArg Place.thread ha
  · exact congrArg Place.thread hb

/-- **A browser session outlives its task**, which was cancelled. -/
theorem session_outlives_task : ∃ h s, host.exec twoTasks [] host.init = some (h, s) ∧
    host.Run h s ∧ (∀ id, (s.place id).stage.Over) ∧ Took h "a" .unregisterCancel ∧
      Took h "a" .unregisterPause ∧ (Sessions.getSession "a" s.sessions).isSome := by
  obtain ⟨⟨h, s⟩, he, hp⟩ := (Option.any_eq_true (fun r : List (Host × HostAct) × Host =>
      decide ((r.2.place "a").stage = .ended ∧ (r.2.place "b").stage = .ended ∧
        (Sessions.getSession "a" r.2.sessions).isSome))
    (host.exec twoTasks [] host.init)).mp (by decide +kernel)
  obtain ⟨ha, hb, hs⟩ := of_decide_eq_true hp
  have hr := System.run_exec .init he
  have hrank : (s.place "a").stage.rank = 8 := congrArg Stage.rank ha
  refine ⟨h, s, he, hr, over_of_named (List.prefix_append ..) he (Or.inr (Or.inr ha))
    (Or.inr (Or.inr hb)), ?_, ?_, hs⟩
  · exact (took_unregisterCancel hr "a").mpr (by omega)
  · exact (took_unregisterPause hr "a").mpr (by omega)

end Example

/-! ## The executor is a task -/

namespace Host

/-- The task of an execution works. -/
def Works (id : String) : Host → Host → Prop :=
  Relation.ReflTransGen fun s s' => ∃ t, s.step (.task id t) = some s'

section Executor

variable [PyText] {cfg : Config} {env : Env} {σ : ℕ → RunState → Input} {st : Stage} {s : Host}

/-- The thread of an execution is in its step loop, and its browser session is that of the run. -/
structure Shows (s : Host) (id : String) (st : Stage) (r : RunState) : Prop where
  place : s.place id = ⟨st, .looping⟩
  session : Sessions.getSession id s.sessions = Sessions.getSession id r.sessions

/-- The task of an execution can follow a part of its run. -/
def Follows (cfg : Config) (st : Stage) (r r' : RunState) : Prop :=
  ∀ s : Host, s.Shows cfg.id st r → ∃ s', Works cfg.id s s' ∧ s'.Shows cfg.id st r'

omit [PyText] in
theorem follows_of_sessions {r r' : RunState} (h : r'.sessions = r.sessions) :
    Follows cfg st r r' := by
  intro s hs
  refine ⟨s, .refl, hs.place, ?_⟩
  rw [h]
  exact hs.session

omit [PyText] in
theorem follows_alter (r : RunState) (f : BrowserSessionInfo → BrowserSessionInfo) :
    Follows cfg st r (r.publish cfg fun id => Sessions.alter id f) := by
  cases hid : cfg.hasId with
  | false => exact follows_of_sessions (by rw [publish_of_no_id hid])
  | true =>
    intro s hs
    have hg : (s.place cfg.id).Goes (.alterSession f) ⟨st, .looping⟩ := by
      rw [hs.place]
      exact .alterSession f
    refine ⟨_, .single ⟨_, step_task hg rfl⟩, Function.update_self .., ?_⟩
    rw [RunState.publish, hid]
    dsimp only [if_true]
    rw [Sessions.get_alter, if_pos rfl, hs.session]
    exact ((Sessions.get_alter cfg.id cfg.id f r.sessions).trans (if_pos rfl)).symm

/-- **The step loop of the executor is one of a task.** -/
theorem follows_maintained (cfg : Config) (env : Env) (st : Stage) :
    Maintained cfg env (Follows cfg st) where
  refl _ s hs := ⟨s, .refl, hs⟩
  trans h h' s hs := by
    obtain ⟨s₁, hw, hs₁⟩ := h s hs
    obtain ⟨s₂, hw', hs₂⟩ := h' s₁ hs₁
    exact ⟨s₂, hw.trans hw', hs₂⟩
  control _ _ := follows_of_sessions rfl
  publish r f := follows_alter r f
  exec _ _ _ := follows_of_sessions rfl
  step _ _ := follows_of_sessions rfl

omit [PyText] in
/-- A step of the task from a place that is known. -/
theorem works_step {s₁ : Host} {id : String} {t : TaskAct} {p p' : Place} (hp : s.place id = p)
    (hg : p.Goes t p') (he : s.effect id t = some s₁) :
    Works id s { s₁ with place := Function.update s.place id p' } :=
  .single ⟨t, step_task (hp ▸ hg) he⟩

/-- A run whose set-up raises has no browser session. -/
theorem entry_sessions (h : (entry cfg env).halt ≠ none) : (entry cfg env).sessions = [] := by
  unfold entry RunState.exec at h ⊢
  dsimp only at h ⊢
  generalize (eval env (setUp cfg) {} []).1.1 = r at h ⊢
  rcases r with e | _ | info
  · rfl
  · exact absurd rfl h
  · refine absurd ?_ h
    dsimp only
    rw [publish_toControl]

/-- The task of an execution can follow its run to every state of it. -/
theorem execution_shown (n : ℕ) (hid : cfg.hasId = true) (hhalt : (entry cfg env).halt = none)
    (hs : s.place cfg.id = ⟨st, .starting⟩)
    (hnone : Sessions.getSession cfg.id s.sessions = none) :
    ∃ s', Works cfg.id s s' ∧ s'.Shows cfg.id st (execution cfg env σ n) := by
  have hentry : ∃ s', Works cfg.id s s' ∧ s'.Shows cfg.id st (entry cfg env) := by
    unfold entry RunState.exec at hhalt ⊢
    dsimp only at hhalt ⊢
    generalize (eval env (setUp cfg) {} []).1.1 = r at hhalt ⊢
    rcases r with e | _ | info
    · cases hhalt
    · exact ⟨_, works_step hs (.enterLoop none) rfl, Function.update_self .., hnone⟩
    · refine ⟨_, works_step hs (.enterLoop (some info)) rfl, Function.update_self .., ?_⟩
      dsimp only
      rw [RunState.publish, hid]
      exact (Dict.get_set_self cfg.id info s.sessions).trans
        (Dict.get_set_self cfg.id info []).symm
  obtain ⟨s₁, hw, hs₁⟩ := hentry
  obtain ⟨s', hw', hs'⟩ := (follows_maintained cfg env st).execution σ n s₁ hs₁
  exact ⟨s', hw.trans hw', hs'⟩

/-- **The executor of one execution is one of the tasks**: from the start of its thread its task
can come to the end of its thread with the browser session that the run leaves. -/
theorem host_runs_executor {h : List (Host × HostAct)} (hr : host.Run h s) (n : ℕ)
    (hid : cfg.hasId = true) (hs : s.place cfg.id = ⟨st, .starting⟩) :
    ∃ s', Works cfg.id s s' ∧ s'.place cfg.id = ⟨st, .over⟩ ∧
      Sessions.getSession cfg.id s'.sessions =
        Sessions.getSession cfg.id (finish cfg env (execution cfg env σ n)).2.sessions := by
  have hnone : Sessions.getSession cfg.id s.sessions = none := by
    by_contra hne
    have hloop := (held hr cfg.id).session (Option.isSome_iff_ne_none.mpr hne)
    rw [hs] at hloop
    cases hloop
  by_cases hhalt : (entry cfg env).halt = none
  · obtain ⟨s₁, hw, hs₁⟩ := execution_shown (σ := σ) n hid hhalt hs hnone
    obtain ⟨s₂, hun, hs₂, hnone₂⟩ : ∃ s₂, Works cfg.id s₁ s₂ ∧ s₂.place cfg.id = ⟨st, .unlisted⟩ ∧
        Sessions.getSession cfg.id s₂.sessions = none :=
      ⟨_, works_step hs₁.place .unlist rfl, Function.update_self ..,
        (Dict.get_filter_ne cfg.id cfg.id s₁.sessions).trans (if_pos rfl)⟩
    refine ⟨_, (hw.trans hun).trans (works_step hs₂ .closeDriver rfl), Function.update_self .., ?_⟩
    rw [finish_started (execution_started hhalt n)]
    have hleave : Released cfg env (execution cfg env σ n) (leave cfg env (execution cfg env σ n)) :=
      leave_released (execution_calls cfg env σ n) fun h => execution_sessions h n
    exact hnone₂.trans hleave.unregistered.symm
  · obtain ⟨⟨e, he⟩, hn⟩ := execution_of_not_started (σ := σ) hhalt n
    refine ⟨_, works_step hs .setUpFails rfl, Function.update_self .., hnone.trans ?_⟩
    rw [hn, finish, he]
    dsimp only
    rw [entry_sessions hhalt]
    rfl

end Executor

end Host

end ScoutEngine
