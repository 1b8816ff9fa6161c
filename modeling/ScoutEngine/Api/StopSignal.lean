import ScoutEngine.Api.FinalStatus

/-!
# After a stop

A stop request signals the cancel event of the execution, which exists while the background task
runs the step loop, and the loop head looks at it before every step.

* `Prompt`: a stop signals a registered event, unless the step loop was left, and does not return
  while the executor is between the look at the event and the step.
* `StopInv`, `StopInv.move`: the invariant of the runs whose actions are prompt.
* **`no_begin_after_stop`**: in these runs no main step begins after a stop has returned success.
* `begin_after_stop`: a stop of a pending execution, whose signal is lost.
-/

set_option autoImplicit false

namespace ScoutEngine

open Transition

/-- **Which stops are prompt.** -/
def Prompt (s : Service) : Act → Prop
  | .stopSignal _ => s.cancelEvent.isSome = true ∨ s.Over
  | .stopCommit _ => s.checked = some false → s.pauseEvent = some true
  | _ => True

instance (s : Service) : (a : Act) → Decidable (Prompt s a)
  | .stopSignal _ => inferInstanceAs (Decidable (_ ∨ _))
  | .stopCommit _ => inferInstanceAs (Decidable (_ → _))
  | .runWorkflow | .markRead | .markCommit | .registerCancel | .registerPause | .resolve | .check
  | .proceed | .take | .timeout | .leave | .unregisterCancel | .unregisterPause | .resultRead
  | .resultCommit | .stopRead _ | .requestPause | .resumeFind _ _ | .resumePut _ => .isTrue trivial

/-- The stop request has signalled. -/
def StopRequest.Signalled : StopRequest → Prop
  | .signalled _ | .stopped => True
  | _ => False

/-- The step loop was not entered yet, and the cancel event is not registered. -/
def Service.Early (s : Service) : Prop :=
  match s.task with
  | .absent | .scheduled | .marking _ | .marked => True
  | _ => False

theorem Service.Early.not_entered {s : Service} (h : s.Early) : s.task ≠ .running ∧ ¬ s.Over := by
  refine ⟨fun ht => ?_, fun ho => ?_⟩
  · rw [Service.Early, ht] at h
    exact h
  · unfold Service.Early at h
    rw [Service.Over] at ho
    cases ht : s.task <;> rw [ht] at h ho <;> first | exact h | exact ho

/-- **The invariant of prompt runs.** -/
structure StopInv (s : Service) : Prop where
  signalled : ∀ k, (s.stops k).Signalled → s.cancelEvent = some true ∨ s.Over
  early : s.Early → s.cancelEvent = none
  checked : s.checked ≠ none → s.task = .running ∨ s.Over
  passed : s.task = .running → s.Stopped → s.checked = some false → s.pauseEvent = some true
  fresh : s.task = .running ∨ s.Over ∨ s.exec.begins = []

section Invariant

variable [PyText] {J : Job} {s s' : Service} {a : Act}

theorem entry_begins (cfg : Config) (env : Env) : (entry cfg env).begins = [] := by
  rcases entry_toControl cfg env with h | ⟨e, h⟩ <;> rw [h] <;> rfl

/-- **After a stop has returned, no action begins a step.** -/
theorem StopInv.begins (h : StopInv s) (hs : s.Stopped) (hm : s.Moved J a s') :
    s'.exec.begins = s.exec.begins := by
  cases hm with
  | start ht hw =>
    have hfresh := (h.fresh.resolve_left (ht.trans_ne nofun)).resolve_left (Service.not_over ht id)
    rw [hfresh]
    exact entry_begins _ _
  | @proceed w cancel ht hw hh hp hc =>
    refine next_begins_head hh hp ?_
    rcases hc with hc | ⟨-, hc⟩
    · cases cancel with
      | true => exact Or.inr fun hx => Bool.noConfusion hx.1
      | false =>
        have hpe := h.passed ht hs hc
        refine Or.inr fun hx => ?_
        have hx := hx.2
        rw [hpe, J.canPause] at hx
        exact absurd hx (by decide)
    · exact Or.inl hc
  | take ht hw hh hp | timeout ht hw hh hp =>
    obtain ⟨resumes, hs⟩ := Service.wakeUp_eq (J.config _) J.env _ s
    rw [hs]
    exact next_begins_wake hh hp
  | leave =>
    obtain ⟨exec, res, he, hs⟩ := Service.leave_eq (J.config _) J.env s
    rw [hs]
    exact congrArg Control.begins he
  | @stopRead k => rcases s.stopRead_eq k with hs | ⟨row, -, hs⟩ <;> rw [hs] <;> rfl
  | _ => rfl

omit [PyText] in
theorem StopInv.init : StopInv {} where
  signalled _ hk := hk.elim
  early _ := rfl
  checked hc := absurd rfl hc
  passed ht := nomatch ht
  fresh := Or.inr (Or.inr rfl)

omit [PyText] in
/-- An action that touches neither the requests nor the look at the event. -/
theorem StopInv.frame (h : StopInv s) (hst : s'.stops = s.stops) (ht : s'.task = s.task)
    (hc : s'.cancelEvent = s.cancelEvent) (hch : s'.checked = s.checked)
    (hp : s.pauseEvent = some true → s'.pauseEvent = some true)
    (hb : s.exec.begins = [] → s'.exec.begins = []) : StopInv s' := by
  have hover := Service.over_congr ht
  refine ⟨fun k hk => ?_, fun he => ?_, fun hch' => ?_, fun ht' hs hch' => ?_, ?_⟩
  · rw [hc, hover]
    rw [hst] at hk
    exact h.signalled k hk
  · rw [hc]
    unfold Service.Early at he
    rw [ht] at he
    exact h.early he
  · rw [ht, hover]
    rw [hch] at hch'
    exact h.checked hch'
  · have hs := (Service.stopped_congr hst).mp hs
    exact hp (h.passed (ht.symm.trans ht') hs (hch.symm.trans hch'))
  · rw [ht, hover]
    exact h.fresh.imp_right (Or.imp_right hb)

omit [PyText] in
/-- Before the step loop nothing was looked at and no step was begun. -/
theorem StopInv.unentered (h : StopInv s) (ht : s.task ≠ .running) (ho : ¬ s.Over) :
    s.checked = none ∧ s.exec.begins = [] := by
  refine ⟨?_, (h.fresh.resolve_left ht).resolve_left ho⟩
  by_contra hne
  exact (h.checked hne).elim ht ho

omit [PyText] in
theorem StopInv.before (h : StopInv s) (ht : s.Early) (hst : s'.stops = s.stops)
    (hch : s'.checked = s.checked) (hb : s'.exec = s.exec)
    (hc : s'.Early → s'.cancelEvent = s.cancelEvent) (hn : s'.task ≠ .running) : StopInv s' := by
  have hearly := ht.not_entered
  obtain ⟨hchecked, hbegins⟩ := h.unentered hearly.1 hearly.2
  have hno : ∀ k, ¬ (s.stops k).Signalled := fun k hk => by
    rcases h.signalled k hk with hk | hk
    · rw [h.early ht] at hk
      cases hk
    · exact hearly.2 hk
  refine ⟨fun k hk => ?_, fun he => (hc he).trans (h.early ht), fun hch' => ?_,
    fun ht' => absurd ht' hn, ?_⟩
  · rw [hst] at hk
    exact absurd hk (hno k)
  · exact absurd (hch.trans hchecked) hch'
  · rw [hb]
    exact Or.inr (Or.inr hbegins)

omit [PyText] in
/-- Behind the step loop there is nothing to keep. -/
theorem StopInv.over (h : s'.Over) : StopInv s' := by
  have hearly : ¬ s'.Early ∧ s'.task ≠ .running :=
    ⟨fun he => he.not_entered.2 h, fun ht => Service.not_over ht id h⟩
  exact ⟨fun _ _ => Or.inr h, fun he => absurd he hearly.1, fun _ => Or.inr h,
    fun ht => absurd ht hearly.2, Or.inr (Or.inl h)⟩

omit [PyText] in
theorem StopInv.stopAt (h : StopInv s) {k : ℕ} {r : StopRequest} (hk : s.stops k ≠ .stopped)
    (hne : r ≠ .stopped) (hst : s'.stops = Function.update s.stops k r) (ht : s'.task = s.task)
    (hch : s'.checked = s.checked) (hp : s'.pauseEvent = s.pauseEvent) (he : s'.exec = s.exec)
    (hearly : s.cancelEvent = none → s'.cancelEvent = none)
    (hsig : s.cancelEvent = some true → s'.cancelEvent = some true)
    (hr : r.Signalled → s'.cancelEvent = some true ∨ s.Over) : StopInv s' := by
  have hover := Service.over_congr ht
  have hstopped : s'.Stopped ↔ s.Stopped := by
    unfold Service.Stopped
    rw [hst]
    exact stopped_update hk hne
  refine ⟨fun j hj => ?_, fun hE => ?_, fun hc => ?_, fun ht' hs hc => ?_, ?_⟩
  · rw [hover]
    rw [hst] at hj
    refine (Function.forall_update_iff s.stops fun _ r' =>
      r'.Signalled → s'.cancelEvent = some true ∨ s.Over).mpr ⟨hr, fun j _ hj => ?_⟩ j hj
    exact (h.signalled j hj).imp_left hsig
  · unfold Service.Early at hE
    rw [ht] at hE
    exact hearly (h.early hE)
  · rw [ht, hover]
    rw [hch] at hc
    exact h.checked hc
  · rw [hp]
    exact h.passed (ht.symm.trans ht') (hstopped.mp hs) (hch.symm.trans hc)
  · rw [ht, hover, he]
    exact h.fresh

/-- **A prompt action keeps the invariant.** -/
theorem StopInv.move (h : StopInv s) (hok : Prompt s a) (hm : s.Moved J a s') : StopInv s' := by
  cases hm with
  | runWorkflow ht | markRead ht | markCommit ht =>
    have he : s.Early := by
      unfold Service.Early
      rw [ht]
      trivial
    exact h.before he rfl rfl rfl (fun _ => rfl) nofun
  | registerCancel ht =>
    have he : s.Early := by
      unfold Service.Early
      rw [ht]
      trivial
    exact h.before he rfl rfl rfl (fun he => he.elim) nofun
  | registerPause ht =>
    have hover : ¬ s.Over := Service.not_over ht id
    obtain ⟨hc, hb⟩ := h.unentered (ht.trans_ne nofun) hover
    exact ⟨fun k hk => Or.inl ((h.signalled k hk).resolve_right hover), fun he => he.elim,
      fun hne => absurd hc hne, fun ht => (nomatch ht), Or.inr (Or.inr hb)⟩
  | start ht hw =>
    have hover : ¬ s.Over := Service.not_over ht id
    obtain ⟨hc, -⟩ := h.unentered (ht.trans_ne nofun) hover
    exact ⟨fun k hk => Or.inl ((h.signalled k hk).resolve_right hover), fun he => he.elim,
      fun _ => Or.inl rfl, fun _ _ hch => absurd (hc.symm.trans hch) nofun, Or.inl rfl⟩
  | unresolved | unregisterCancel | unregisterPause | resultRead | resultCommit =>
    exact .over trivial
  | leave =>
    obtain ⟨exec, res, -, hs⟩ := Service.leave_eq (J.config _) J.env s
    rw [hs]
    exact .over trivial
  | check ht hw hh hp hc hs =>
    have hover : ¬ s.Over := Service.not_over ht id
    refine ⟨h.signalled, h.early, fun _ => Or.inl ht, fun _ hstop hch => ?_, h.fresh⟩
    -- the event is set, so the look at it did not let the step pass
    obtain ⟨k, hk⟩ := hstop
    have hk : (s.stops k).Signalled := by
      rw [show s.stops k = .stopped from hk]
      trivial
    have hev := (h.signalled k hk).resolve_right hover
    change some (s.cancelEvent.getD false) = some false at hch
    rw [hev] at hch
    exact Bool.noConfusion (Option.some.inj hch)
  | proceed ht =>
    exact ⟨h.signalled, h.early, fun hne => absurd rfl hne, fun _ _ hch => (nomatch hch), Or.inl ht⟩
  | take ht hw hh hp | timeout ht hw hh hp =>
    obtain ⟨resumes, hs⟩ := Service.wakeUp_eq (J.config _) J.env _ s
    rw [hs]
    exact h.frame rfl rfl rfl rfl id fun hb => (next_begins_wake hh hp).trans hb
  | @stopRead k hk =>
    have hne : s.stops k ≠ .stopped := by
      rw [hk]
      nofun
    rcases s.stopRead_eq k with hs | ⟨row, -, hs⟩ <;> rw [hs]
    · exact h.stopAt (r := .refused) hne nofun rfl rfl rfl rfl rfl id id fun hr => hr.elim
    · exact h.stopAt (r := .accepted row) hne nofun rfl rfl rfl rfl rfl id id fun hr => hr.elim
  | @stopSignal k read hk =>
    have hne : s.stops k ≠ .stopped := by
      rw [hk]
      nofun
    have hset : ∀ b, s.cancelEvent = some b → Service.setEvent s.cancelEvent = some true := by
      intro b hb
      rw [hb]
      rfl
    refine h.stopAt (r := .signalled read) hne nofun rfl rfl rfl rfl rfl (fun hn => ?_) (hset true)
      fun _ => ?_
    · change Service.setEvent s.cancelEvent = none
      rw [hn]
      rfl
    · rcases hok with hsome | hover
      · obtain ⟨b, hb⟩ := Option.isSome_iff_exists.mp hsome
        exact Or.inl (hset b hb)
      · exact Or.inr hover
  | @stopCommit k read row hk hr =>
    refine ⟨(Function.forall_update_iff s.stops fun _ r' =>
      r'.Signalled → s.cancelEvent = some true ∨ s.Over).mpr ⟨fun _ => ?_, fun j _ => h.signalled j⟩,
      h.early, h.checked, fun _ _ hch => hok hch, h.fresh⟩
    refine h.signalled k ?_
    rw [hk]
    trivial
  | requestPause =>
    refine h.frame rfl rfl rfl rfl (fun hp => ?_) id
    change Service.setEvent s.pauseEvent = some true
    rw [hp]
    rfl
  | resumeFind | resumePut => exact h.frame rfl rfl rfl rfl id id

end Invariant

/-! ## Runs -/

/-- **Main result: after a stop has returned success no main step begins**, in every run whose
stops are prompt. -/
theorem no_begin_after_stop [PyText] (J : Job) {h : List (Service × Act)} {s : Service}
    (hr : (service J).Run h s) (hok : ∀ e ∈ h, Prompt e.1 e.2) :
    ∀ e ∈ h, e.1.Stopped → ∀ s', e.1.step J e.2 = some s' →
      s'.exec.begins = e.1.exec.begins := by
  intro e he hs s' hstep
  have hinv : StopInv e.1 := hr.invariant_passed .init
    (fun _ _ _ hi ho hst => hi.move ho (Service.step_moved hst)) hok e he
  exact hinv.begins hs (Service.step_moved hstep)

/-! ## A lost signal -/

section Example

attribute [local instance] asciiText

/-- Two steps, in a browser in which everything works. -/
def clearTwice : Job where
  executionId := "e"
  named := unresolvable.named
  workflow := .ok
    { settings := { humanMode := false }
      steps := [{ order := 1, order_pos := WorkflowStep.order_one, name := "Clear", action := .clear },
        { order := 2, order_pos := WorkflowStep.order_two, name := "Clear again", action := .clear }] }
  env := { answer := fun _ _ => { result := .ok .none }, clock := fun _ => 0 }

/-- The first step is done, the execution is stopped, and the second step does not begin. -/
theorem no_begin_after_stop_clearTwice : ∃ h s, (service clearTwice).Run h s ∧
    s.exec.begins.length = 1 ∧ (∀ e ∈ h, e.1.Stopped → ∀ s', e.1.step clearTwice e.2 = some s' →
      s'.exec.begins = e.1.exec.begins) := by
  obtain ⟨h, s, hr, hp⟩ := Transition.System.exists_run (M := service clearTwice)
    [.runWorkflow, .markRead, .markCommit, .registerCancel, .registerPause, .resolve, .check,
      .proceed, .stopRead 0, .stopSignal 0, .stopCommit 0, .check, .proceed, .leave]
    (fun h s => h.all (fun e => decide (Prompt e.1 e.2)) && s.exec.begins.length == 1)
    (by decide +kernel)
  rw [Bool.and_eq_true, List.all_eq_true, beq_iff_eq] at hp
  exact ⟨h, s, hr, hp.2, no_begin_after_stop clearTwice hr fun e he => of_decide_eq_true (hp.1 e he)⟩

/-- **A pending execution is stopped before its cancel event exists, and its steps begin.** -/
theorem begin_after_stop : ∃ h s, (service clearTwice).Run h s ∧
    ∃ e ∈ h, e.1.Stopped ∧ e.1.step clearTwice e.2 = some s ∧ s.exec.begins ≠ e.1.exec.begins := by
  obtain ⟨h, s, hr, hp⟩ := Transition.System.exists_run (M := service clearTwice)
    [.runWorkflow, .stopRead 0, .stopSignal 0, .stopCommit 0, .markRead, .markCommit,
      .registerCancel, .registerPause, .resolve, .check, .proceed]
    (fun h s => match h with
      | [] => false
      | e :: _ => (match e.1.stops 0 with | .stopped => true | _ => false) &&
        s.exec.begins.length != e.1.exec.begins.length)
    (by decide +kernel)
  cases hr with
  | init => cases hp
  | @step h s₁ _ a hr hs =>
    rw [Bool.and_eq_true, bne_iff_ne] at hp
    refine ⟨_, s, hr.step hs, (s₁, a), List.mem_cons_self, ⟨0, ?_⟩, hs, fun he => hp.2 (congrArg _ he)⟩
    dsimp only at hp ⊢
    cases hst : s₁.stops 0 <;> rw [hst] at hp <;> first | rfl | exact absurd hp.1 Bool.false_ne_true

end Example

end ScoutEngine
