import ScoutEngine.Api.StopSignal

/-!
# Resume instructions

`POST /resume` puts an instruction into the queue of the execution, which has one place and which
the executor reads only while a pause is in effect.

* `Delivered`: every acknowledged instruction is for the pause in effect when it was put, is taken
  by that pause, and finds its place in the queue.
* `Answers`: a resume request comes while a pause is in effect that nobody else answers, and no
  pause times out under a request that has found the queue.
* `QueueInv`, `QueueInv.move`: the invariant of the runs whose actions are such answers.
* **`resumes_delivered`**: in these runs every state is `Delivered`.
* `resume_before_pause`: an instruction that is acknowledged before any pause.
-/

set_option autoImplicit false

namespace ScoutEngine

open Transition

/-- The instruction of a request was acknowledged during a pause. -/
def Service.Accepted (s : Service) (k p : ℕ) : Prop :=
  s.resumes k = .acknowledged (some p) ∨ ∃ q, s.resumes k = .consumed (some p) q

/-- **What became of the resume requests.** -/
structure Delivered [PyText] (J : Job) (s : Service) : Prop where
  /-- The queue has a place for every instruction about to be put. -/
  room : ∀ k i, s.resumes k = .found i → s.queue = none
  /-- An acknowledged instruction was put during the pause in effect, whose executor does nothing
  else than take it. -/
  waits : ∀ k d, s.resumes k = .acknowledged d → ∃ p, d = some p ∧ s.pause = some p ∧
    (∃ s', s.step J .take = some s' ∧ s'.resumes k = .consumed (some p) p) ∧
      ∀ a, a = .check ∨ a = .proceed ∨ a = .timeout ∨ a = .leave → s.step J a = none
  /-- A pause takes what was put while it was in effect. -/
  own : ∀ k d p, s.resumes k = .consumed d p → d = some p
  once : ∀ k k' p, s.Accepted k p → s.Accepted k' p → k = k'

/-- **Which resume requests answer a pause.** -/
def Answers (s : Service) : Act → Prop
  | .resumeFind _ _ => s.pauseEvent = none ∨
      s.pause ≠ none ∧ s.queue = none ∧ ∀ k i, s.resumes k ≠ .found i
  | .timeout => ∀ k i, s.resumes k ≠ .found i
  | _ => True

/-- **The invariant of the runs with answers only.** -/
structure QueueInv (J : Job) (s : Service) : Prop where
  found : ∀ k i, s.resumes k = .found i → s.queue = none ∧
    (∀ j i', s.resumes j = .found i' → j = k) ∧ ∃ p, s.pause = some p ∧ ∀ j, ¬ s.Accepted j p
  acknowledged : ∀ k d, s.resumes k = .acknowledged d → ∃ p i, d = some p ∧ s.pause = some p ∧
    s.queue = some (k, i)
  queued : ∀ k i, s.queue = some (k, i) → ∃ d, s.resumes k = .acknowledged d
  consumed : ∀ k d q, s.resumes k = .consumed d q → d = some q ∧ q ≤ s.exec.pauses ∧
    s.pause ≠ some q ∧ (s.task = .running ∨ s.Over)
  once : ∀ k k' p, s.Accepted k p → s.Accepted k' p → k = k'
  awake : s.task = .running → s.exec.waiting ≠ none → s.exec.halt = none
  resolved : s.task = .running → ∃ w, J.workflow = .ok w

section Invariant

variable {J : Job} {s s' : Service} {a : Act}

theorem pause_eq_some {p : ℕ} (h : s.pause = some p) :
    s.task = .running ∧ s.exec.waiting.isSome = true ∧ p = s.exec.pauses := by
  unfold Service.pause at h
  split at h
  · rename_i ht
    split_ifs at h with hw
    exact ⟨ht, hw, (Option.some.inj h).symm⟩
  · cases h

theorem pause_of_not_running (h : s.task ≠ .running) : s.pause = none := by
  unfold Service.pause
  split
  · exact absurd ‹_› h
  · rfl

theorem pause_of_awake (h : s.exec.waiting = none) : s.pause = none := by
  unfold Service.pause
  rw [h]
  split <;> rfl

theorem pause_of_waiting (ht : s.task = .running) (hw : s.exec.waiting ≠ none) :
    s.pause = some s.exec.pauses := by
  unfold Service.pause
  rw [ht]
  exact if_pos (Option.isSome_iff_ne_none.mpr hw)

theorem QueueInv.init : QueueInv J {} where
  found _ _ h := nomatch h
  acknowledged _ _ h := nomatch h
  queued _ _ h := nomatch h
  consumed _ _ _ h := nomatch h
  once _ _ _ h := by rcases h with h | ⟨_, h⟩ <;> cases h
  awake h := nomatch h
  resolved h := nomatch h

/-- When no pause is in effect nothing is in the queue or about to be put there. -/
theorem QueueInv.quiet (h : QueueInv J s) (hp : s.pause = none) :
    s.queue = none ∧ (∀ k i, s.resumes k ≠ .found i) ∧ ∀ k d, s.resumes k ≠ .acknowledged d := by
  have hack : ∀ k d, s.resumes k ≠ .acknowledged d := fun k d hk => by
    obtain ⟨p, i, -, hp', -⟩ := h.acknowledged k d hk
    exact Option.some_ne_none p (hp'.symm.trans hp)
  refine ⟨?_, fun k i hk => ?_, hack⟩
  · cases hq : s.queue with
    | none => rfl
    | some got =>
      obtain ⟨d, hd⟩ := h.queued got.1 got.2 hq
      exact absurd hd (hack _ _)
  · obtain ⟨-, -, p, hp', -⟩ := h.found k i hk
    exact Option.some_ne_none p (hp'.symm.trans hp)

/-- An action that touches neither the requests nor the executor. -/
theorem QueueInv.frame (h : QueueInv J s) (hr : s'.resumes = s.resumes) (hq : s'.queue = s.queue)
    (ht : s'.task = s.task) (he : s'.exec = s.exec) : QueueInv J s' := by
  have hp : s'.pause = s.pause := by
    unfold Service.pause
    rw [ht, he]
  have hacc : ∀ k p, s'.Accepted k p ↔ s.Accepted k p := fun k p => by
    unfold Service.Accepted
    rw [hr]
  obtain ⟨h1, h2, h3, h4, h5, h6, h7⟩ := h
  constructor
  · simpa only [hr, hq, hp, hacc] using h1
  · simpa only [hr, hq, hp] using h2
  · simpa only [hr, hq] using h3
  · rw [hr, he, hp, ht]
    simpa only [Service.Over, ht] using h4
  · simpa only [hacc] using h5
  · rw [ht, he]
    exact h6
  · rw [ht]
    exact h7

theorem QueueInv.quietly (h : QueueInv J s) (hp : s.pause = none) (hr : s'.resumes = s.resumes)
    (hq : s'.queue = s.queue)
    (hc : ∀ k d q, s.resumes k = .consumed d q → q ≤ s'.exec.pauses ∧ s'.pause ≠ some q ∧
      (s'.task = .running ∨ s'.Over))
    (ha : s'.task = .running → s'.exec.waiting ≠ none → s'.exec.halt = none)
    (hw : s'.task = .running → ∃ w, J.workflow = .ok w) : QueueInv J s' := by
  obtain ⟨hq0, hf0, ha0⟩ := h.quiet hp
  refine ⟨fun k i hk => ?_, fun k d hk => ?_, fun k i hk => ?_, fun k d q hk => ?_,
    fun k k' p hk hk' => ?_, ha, hw⟩
  · rw [hr] at hk
    exact absurd hk (hf0 k i)
  · rw [hr] at hk
    exact absurd hk (ha0 k d)
  · rw [hq, hq0] at hk
    cases hk
  · rw [hr] at hk
    exact ⟨(h.consumed k d q hk).1, hc k d q hk⟩
  · unfold Service.Accepted at hk hk'
    rw [hr] at hk hk'
    exact h.once k k' p hk hk'

theorem resumes_cases {k j : ℕ} {r t : ResumeRequest}
    (hs : s'.resumes = Function.update s.resumes k r) (hj : s'.resumes j = t) :
    j = k ∧ r = t ∨ j ≠ k ∧ s.resumes j = t := by
  rw [hs] at hj
  exact update_cases hj

theorem accepted_cases {k j p : ℕ} {r : ResumeRequest}
    (hs : s'.resumes = Function.update s.resumes k r) (hj : s'.Accepted j p) :
    j = k ∧ (r = .acknowledged (some p) ∨ ∃ q, r = .consumed (some p) q) ∨
      j ≠ k ∧ s.Accepted j p := by
  rcases hj with hj | ⟨q, hj⟩
  · rcases resumes_cases hs hj with ⟨hjk, hr⟩ | ⟨hjk, hj⟩
    · exact Or.inl ⟨hjk, Or.inl hr⟩
    · exact Or.inr ⟨hjk, Or.inl hj⟩
  · rcases resumes_cases hs hj with ⟨hjk, hr⟩ | ⟨hjk, hj⟩
    · exact Or.inl ⟨hjk, Or.inr ⟨q, hr⟩⟩
    · exact Or.inr ⟨hjk, Or.inr ⟨q, hj⟩⟩

theorem QueueInv.resumeFind (h : QueueInv J s) {k : ℕ} {i : ResumeInstruction}
    (hok : Answers s (.resumeFind k i)) (hk : s.resumes k = .sent) :
    QueueInv J (s.resumeFind k i) := by
  obtain ⟨r, hr, hres⟩ : ∃ r, (r = .refused ∨ s.pauseEvent ≠ none ∧ r = .found i) ∧
      (s.resumeFind k i).resumes = Function.update s.resumes k r := by
    refine ⟨_, ?_, rfl⟩
    cases s.pauseEvent with
    | none => exact Or.inl rfl
    | some => exact Or.inr ⟨nofun, rfl⟩
  have hacc : ∀ j p, (s.resumeFind k i).Accepted j p → s.Accepted j p := by
    intro j p hj
    rcases accepted_cases hres hj with ⟨-, hj | ⟨q, hj⟩⟩ | ⟨-, hj⟩
    · rcases hr with rfl | ⟨-, rfl⟩ <;> cases hj
    · rcases hr with rfl | ⟨-, rfl⟩ <;> cases hj
    · exact hj
  -- the pause in effect is new to the requests: what was put during it is in the queue or was taken
  have hfresh : s.queue = none → ∀ p, s.pause = some p → ∀ j, ¬ s.Accepted j p := by
    intro hq p hp j hj
    rcases hj with hj | ⟨q, hj⟩
    · obtain ⟨_, _, -, -, hq'⟩ := h.acknowledged j _ hj
      exact Option.some_ne_none _ (hq'.symm.trans hq)
    · obtain ⟨hd, -, hp', -⟩ := h.consumed j _ q hj
      exact hp' (hp.trans hd)
  refine ⟨fun j i' hj => ?_, fun j d hj => ?_, fun j i' hj => ?_, fun j d q hj => ?_,
    fun j j' p hj hj' => h.once j j' p (hacc j p hj) (hacc j' p hj'), h.awake, h.resolved⟩
  · rcases hr with rfl | ⟨hsome, rfl⟩
    · rcases resumes_cases hres hj with ⟨-, hj⟩ | ⟨-, hj⟩
      · cases hj
      · obtain ⟨hq, honly, p, hp, hno⟩ := h.found j i' hj
        refine ⟨hq, fun j' i'' hj' => ?_, p, hp, fun j' hj' => hno j' (hacc j' p hj')⟩
        rcases resumes_cases hres hj' with ⟨-, hj'⟩ | ⟨-, hj'⟩
        · cases hj'
        · exact honly j' i'' hj'
    · obtain ⟨hp, hq, hf⟩ := hok.resolve_left hsome
      obtain ⟨p, hp⟩ := Option.ne_none_iff_exists'.mp hp
      have honly : ∀ j' i'', (s.resumeFind k i).resumes j' = .found i'' → j' = k := by
        intro j' i'' hj'
        rcases resumes_cases hres hj' with ⟨hjk, -⟩ | ⟨-, hj'⟩
        · exact hjk
        · exact absurd hj' (hf j' i'')
      obtain rfl := honly j i' hj
      exact ⟨hq, honly, p, hp, fun j' hj' => hfresh hq p hp j' (hacc j' p hj')⟩
  · rcases resumes_cases hres hj with ⟨-, hj⟩ | ⟨-, hj⟩
    · rcases hr with rfl | ⟨-, rfl⟩ <;> cases hj
    · exact h.acknowledged j d hj
  · obtain ⟨d, hd⟩ := h.queued j i' hj
    have hjk : j ≠ k := by
      rintro rfl
      exact ResumeRequest.noConfusion (hk.symm.trans hd)
    exact ⟨d, (congrFun hres j).trans ((Function.update_of_ne hjk _ _).trans hd)⟩
  · rcases resumes_cases hres hj with ⟨-, hj⟩ | ⟨-, hj⟩
    · rcases hr with rfl | ⟨-, rfl⟩ <;> cases hj
    · exact h.consumed j d q hj

theorem QueueInv.resumePut (h : QueueInv J s) {k : ℕ} {i : ResumeInstruction}
    (hk : s.resumes k = .found i) :
    QueueInv J ({ s with queue := some (k, i) }.resumeAt k (.acknowledged s.pause)) := by
  obtain ⟨hq, honly, p, hp, hno⟩ := h.found k i hk
  generalize hs' : ({ s with queue := some (k, i) } : Service).resumeAt k (.acknowledged s.pause) = s'
  have hres : s'.resumes = Function.update s.resumes k (.acknowledged (some p)) := by
    rw [← hs', ← hp]
    rfl
  have hrest : s'.queue = some (k, i) ∧ s'.pause = s.pause ∧ s'.exec = s.exec ∧ s'.task = s.task := by
    rw [← hs']
    exact ⟨rfl, rfl, rfl, rfl⟩
  obtain ⟨hq', hp', he', ht'⟩ := hrest
  have hself : s'.resumes k = .acknowledged (some p) := by rw [hres, Function.update_self]
  -- an instruction for the pause in effect is the one that was put
  have hk' : ∀ j r, s'.Accepted j r → j = k ∧ r = p ∨ j ≠ k ∧ s.Accepted j r := by
    intro j r hj
    rcases accepted_cases hres hj with ⟨hjk, hr | ⟨q, hr⟩⟩ | hj
    · exact Or.inl ⟨hjk, (Option.some.inj (ResumeRequest.acknowledged.inj hr)).symm⟩
    · cases hr
    · exact Or.inr hj
  refine ⟨fun j i' hj => ?_, fun j d hj => ?_, fun j i' hj => ?_, fun j d q hj => ?_,
    fun j j' r hj hj' => ?_, ?_, ?_⟩
  · rcases resumes_cases hres hj with ⟨-, hj⟩ | ⟨hjk, hj⟩
    · cases hj
    · exact absurd (honly j i' hj) hjk
  · rcases resumes_cases hres hj with ⟨rfl, hd⟩ | ⟨-, hj⟩
    · obtain rfl := ResumeRequest.acknowledged.inj hd
      exact ⟨p, i, rfl, hp'.trans hp, hq'⟩
    · obtain ⟨_, _, -, -, hq''⟩ := h.acknowledged j d hj
      exact absurd (hq''.symm.trans hq) (Option.some_ne_none _)
  · obtain ⟨rfl, -⟩ := Prod.mk.inj (Option.some.inj (hq'.symm.trans hj))
    exact ⟨_, hself⟩
  · rcases resumes_cases hres hj with ⟨-, hj⟩ | ⟨-, hj⟩
    · cases hj
    · rw [he', hp', Service.over_congr ht', ht']
      exact h.consumed j d q hj
  · rcases hk' j r hj with ⟨rfl, rfl⟩ | ⟨hjk, hj⟩ <;> rcases hk' j' r hj' with ⟨rfl, hr⟩ | ⟨hjk', hj'⟩
    · rfl
    · exact absurd hj' (hno j')
    · exact absurd (hr ▸ hj) (hno j)
    · exact h.once j j' r hj hj'
  · rw [ht', he']
    exact h.awake
  · rw [ht']
    exact h.resolved

/-- The background task goes on before the step loop. -/
theorem QueueInv.early (h : QueueInv J s) {t : Task} (ht : s.task = t) (hr : t ≠ .running)
    (ho : ¬ t.Over) (hres : s'.resumes = s.resumes) (hq : s'.queue = s.queue)
    (ha : s'.task = .running → s'.exec.waiting ≠ none → s'.exec.halt = none)
    (hw : s'.task = .running → ∃ w, J.workflow = .ok w) : QueueInv J s' := by
  have hr : s.task ≠ .running := ht.trans_ne hr
  refine h.quietly (pause_of_not_running hr) hres hq (fun k d q hk => ?_) ha hw
  exact absurd (h.consumed k d q hk).2.2.2 (not_or.mpr ⟨hr, Service.not_over ht ho⟩)

section Moves

variable [PyText]

theorem next_wake (cfg : Config) (env : Env) (x : Input) {s : RunState} {p : Pause}
    (hh : s.halt = none) (hw : s.waiting = some p) :
    (next cfg env x s).waiting = none ∧ (next cfg env x s).pauses = s.pauses := by
  rw [next_of_waiting hh hw]
  exact (wake_move cfg env p x s).pauses

theorem QueueInv.take (h : QueueInv J s) (cfg : Config) (env : Env) {p : Pause}
    {got : ℕ × ResumeInstruction} (ht : s.task = .running) (hh : s.exec.halt = none)
    (hp : s.exec.waiting = some p) (hq : s.queue = some got) :
    QueueInv J (s.wakeUp cfg env (some got)) ∧
      (s.wakeUp cfg env (some got)).resumes got.1 = .consumed (some s.exec.pauses) s.exec.pauses := by
  obtain ⟨k, i⟩ := got
  obtain ⟨d, hd⟩ := h.queued k i hq
  obtain ⟨n, i', rfl, hn, -⟩ := h.acknowledged k d hd
  obtain ⟨-, -, rfl⟩ := pause_eq_some hn
  obtain ⟨hw', hpauses⟩ := next_wake cfg env { resume := some i } hh hp
  generalize hs' : s.wakeUp cfg env (some (k, i)) = s'
  have hres : s'.resumes =
      Function.update s.resumes k (.consumed (some s.exec.pauses) s.exec.pauses) := by
    rw [← hs', Service.wakeUp, hd]
    rfl
  have hrest : s'.queue = none ∧ s'.task = .running ∧ s'.exec.waiting = none ∧
      s'.exec.pauses = s.exec.pauses := by
    rw [← hs']
    exact ⟨rfl, ht, hw', hpauses⟩
  obtain ⟨hq', ht', hw', hpauses⟩ := hrest
  have hpause : s'.pause = none := pause_of_awake hw'
  have hack : ∀ j d, s'.resumes j ≠ .acknowledged d := by
    intro j d hj
    rcases resumes_cases hres hj with ⟨-, hj⟩ | ⟨hjk, hj⟩
    · cases hj
    · obtain ⟨_, _, -, -, hq''⟩ := h.acknowledged j d hj
      exact hjk (Prod.mk.inj (Option.some.inj (hq''.symm.trans hq))).1
  have hacc : ∀ j r, s'.Accepted j r → s.Accepted j r := by
    intro j r hj
    rcases accepted_cases hres hj with ⟨rfl, hj | ⟨q, hj⟩⟩ | ⟨-, hj⟩
    · cases hj
    · obtain ⟨hr, -⟩ := ResumeRequest.consumed.inj hj
      exact Or.inl (hr ▸ hd)
    · exact hj
  have hself : s'.resumes k = .consumed (some s.exec.pauses) s.exec.pauses := by
    rw [hres, Function.update_self]
  refine ⟨⟨fun j i'' hj => ?_, fun j d hj => absurd hj (hack j d), fun j i'' hj => ?_,
    fun j d q hj => ?_, fun j j' r hj hj' => h.once j j' r (hacc j r hj) (hacc j' r hj'),
    fun _ hne => absurd hw' hne, fun _ => h.resolved ht⟩, hself⟩
  · rcases resumes_cases hres hj with ⟨-, hj⟩ | ⟨-, hj⟩
    · cases hj
    · exact absurd (hq.symm.trans (h.found j i'' hj).1) (Option.some_ne_none _)
  · exact absurd (hj.symm.trans hq') (Option.some_ne_none _)
  · rw [hpauses, hpause]
    rcases resumes_cases hres hj with ⟨-, hj⟩ | ⟨-, hj⟩
    · obtain ⟨hd', rfl⟩ := ResumeRequest.consumed.inj hj
      exact ⟨hd'.symm, le_rfl, Option.some_ne_none _ ∘ Eq.symm, Or.inl ht'⟩
    · obtain ⟨h1, h2, -, -⟩ := h.consumed j d q hj
      exact ⟨h1, h2, Option.some_ne_none _ ∘ Eq.symm, Or.inl ht'⟩

theorem QueueInv.timeout (h : QueueInv J s) {cfg : Config} {env : Env} {p : Pause}
    (hok : ∀ k i, s.resumes k ≠ .found i) (ht : s.task = .running) (hh : s.exec.halt = none)
    (hp : s.exec.waiting = some p) (hq : s.queue = none) : QueueInv J (s.wakeUp cfg env none) := by
  obtain ⟨hw', hpauses⟩ := next_wake cfg env {} hh hp
  have hpause : (s.wakeUp cfg env none).pause = none := pause_of_awake hw'
  refine ⟨fun k i hk => absurd hk (hok k i), fun k d hk => ?_, fun k i hk => (nomatch hk),
    fun k d q hk => ?_, h.once, fun _ hne => absurd hw' hne, fun _ => h.resolved ht⟩
  · obtain ⟨_, _, -, -, hq'⟩ := h.acknowledged k d hk
    exact absurd (hq'.symm.trans hq) (Option.some_ne_none _)
  · obtain ⟨h1, h2, -, -⟩ := h.consumed k d q hk
    rw [hpause]
    exact ⟨h1, h2.trans hpauses.ge, Option.some_ne_none _ ∘ Eq.symm, Or.inl ht⟩

/-- **An answer keeps the invariant.** -/
theorem QueueInv.move (h : QueueInv J s) (hok : Answers s a) (hm : s.Moved J a s') :
    QueueInv J s' := by
  cases hm with
  | runWorkflow ht | markRead ht | markCommit ht | registerCancel ht | registerPause ht
  | unresolved ht => exact h.early ht nofun id rfl rfl nofun nofun
  | @start w ht hw =>
    refine h.early ht nofun id rfl rfl (fun _ hne => ?_) fun _ => ⟨w, hw⟩
    rcases entry_toControl (J.config w) J.env with he | ⟨e, he⟩
    · exact absurd (congrArg Control.waiting he) hne
    · exact absurd (congrArg Control.waiting he) hne
  | @proceed w cancel ht hw hh hp =>
    have hmove := (head_move (J.config w) J.env { cancel := cancel, pause := s.pauseEvent.getD false }
      s.exec).pauses hh hp
    rw [← next_of_awake hh hp] at hmove
    change ((s.proceed (J.config w) J.env cancel).exec.waiting = none ∧
      (s.proceed (J.config w) J.env cancel).exec.pauses = s.exec.pauses) ∨
        (s.proceed (J.config w) J.env cancel).exec.waiting ≠ none ∧
          (s.proceed (J.config w) J.env cancel).exec.halt = none ∧
            (s.proceed (J.config w) J.env cancel).exec.pauses = s.exec.pauses + 1 at hmove
    refine h.quietly (pause_of_awake hp) rfl rfl (fun k d q hk => ?_) (fun _ hne => ?_)
      fun _ => ⟨w, hw⟩
    · have hle := (h.consumed k d q hk).2.1
      rcases hmove with ⟨hw', hpauses⟩ | ⟨hw', -, hpauses⟩
      · rw [pause_of_awake hw', hpauses]
        exact ⟨hle, Option.some_ne_none _ ∘ Eq.symm, Or.inl ht⟩
      · rw [pause_of_waiting (s := s.proceed (J.config w) J.env cancel) ht hw', hpauses]
        refine ⟨Nat.le_succ_of_le hle, fun he => ?_, Or.inl ht⟩
        have := Option.some.inj he
        omega
    · rcases hmove with ⟨hw', -⟩ | ⟨-, hh', -⟩
      · exact absurd hw' hne
      · exact hh'
  | take ht hw hh hp hq => exact (h.take _ _ ht hh hp hq).1
  | timeout ht hw hh hp hq => exact h.timeout hok ht hh hp hq
  | @leave w k ht hw hh =>
    obtain ⟨exec, res, he, hs⟩ := Service.leave_eq (J.config w) J.env s
    have hawake : s.exec.waiting = none := by
      by_contra hne
      exact Option.some_ne_none k (hh.symm.trans (h.awake ht hne))
    rw [hs]
    exact h.quietly (pause_of_awake hawake) rfl rfl
      (fun k d q hk => ⟨(h.consumed k d q hk).2.1.trans (congrArg Control.pauses he).ge,
        Option.some_ne_none _ ∘ Eq.symm, Or.inr trivial⟩) nofun nofun
  | unregisterCancel ht | unregisterPause ht | resultRead ht | resultCommit ht =>
    exact h.quietly (pause_of_not_running (ht.trans_ne nofun)) rfl rfl
      (fun k d q hk => ⟨(h.consumed k d q hk).2.1, Option.some_ne_none _ ∘ Eq.symm, Or.inr trivial⟩)
      nofun nofun
  | check | stopSignal | stopCommit | requestPause => exact h.frame rfl rfl rfl rfl
  | @stopRead k =>
    rcases s.stopRead_eq k with hs | ⟨row, -, hs⟩ <;> rw [hs] <;> exact h.frame rfl rfl rfl rfl
  | resumeFind hk => exact h.resumeFind hok hk
  | resumePut hk => exact h.resumePut hk

/-- The executor of a pause whose queue is not empty takes the instruction. -/
theorem QueueInv.waits (h : QueueInv J s) {k : ℕ} {d : Option ℕ}
    (hk : s.resumes k = .acknowledged d) : ∃ p, d = some p ∧ s.pause = some p ∧
      (∃ s', s.step J .take = some s' ∧ s'.resumes k = .consumed (some p) p) ∧
        ∀ a, a = .check ∨ a = .proceed ∨ a = .timeout ∨ a = .leave → s.step J a = none := by
  obtain ⟨p, i, rfl, hp, hq⟩ := h.acknowledged k d hk
  obtain ⟨ht, hwait, rfl⟩ := pause_eq_some hp
  obtain ⟨q, hwait⟩ := Option.isSome_iff_exists.mp hwait
  have hh := h.awake ht (by rw [hwait]; exact Option.some_ne_none q)
  obtain ⟨w, hw⟩ := h.resolved ht
  refine ⟨_, rfl, hp, ⟨_, ?_, (h.take (J.config w) J.env ht hh hwait hq).2⟩,
    fun a ha => ?_⟩
  · simp only [Service.step, ht, hw, hh, hwait, hq]
  · rcases ha with rfl | rfl | rfl | rfl <;> simp only [Service.step, ht, hw, hh, hwait, hq]

theorem QueueInv.delivered (h : QueueInv J s) : Delivered J s where
  room k i hk := (h.found k i hk).1
  waits _ _ hk := h.waits hk
  own k d p hk := (h.consumed k d p hk).1
  once := h.once

end Moves

end Invariant

/-! ## Runs -/

/-- **Main result: every acknowledged instruction is delivered**, in every run in which resume
requests only answer pauses. -/
theorem resumes_delivered [PyText] (J : Job) {h : List (Service × Act)} {s : Service}
    (hr : (service J).Run h s) (hok : ∀ e ∈ h, Answers e.1 e.2) : Delivered J s :=
  QueueInv.delivered (hr.invariant .init
    (fun _ _ _ hi ho hst => hi.move ho (Service.step_moved hst)) hok)

/-! ## An instruction that comes too early -/

section Example

attribute [local instance] asciiText

/-- A workflow of one handoff step. -/
def handOver : Job where
  executionId := "e"
  named := unresolvable.named
  workflow := .ok
    { settings := { humanMode := false }
      steps := [{ order := 1, order_pos := WorkflowStep.order_one, name := "Hand over",
                  action := .handoff }] }
  env := { answer := fun _ _ => { result := .ok .none }, clock := fun _ => 0 }

theorem resumes_delivered_handOver : ∃ h s, (service handOver).Run h s ∧
    s.resumes 0 = .consumed (some 1) 1 ∧ Delivered handOver s := by
  have he : (service handOver).exec [.runWorkflow, .markRead, .markCommit, .registerCancel,
    .registerPause, .resolve, .check, .proceed, .resumeFind 0 { action := .continue },
    .resumePut 0, .take] [] {} = some (_, _) := rfl
  have hr := Transition.System.run_exec .init he
  refine ⟨_, _, hr, rfl, resumes_delivered handOver hr ?_⟩
  simp only [List.forall_mem_cons]
  exact ⟨trivial, trivial,
    Or.inr ⟨Option.some_ne_none _, rfl, fun _ _ => ResumeRequest.noConfusion⟩, trivial, trivial,
    trivial, trivial, trivial, trivial, trivial, trivial, fun _ he => absurd he List.not_mem_nil⟩

/-- **An instruction is acknowledged before any pause, and the first pause takes it.** -/
theorem resume_before_pause : ∃ h s, (service handOver).Run h s ∧
    s.resumes 0 = .consumed none 1 ∧ ¬ Delivered handOver s := by
  have he : (service handOver).exec [.runWorkflow, .markRead, .markCommit, .registerCancel,
    .registerPause, .resolve, .resumeFind 0 { action := .continue }, .resumePut 0, .check, .proceed,
    .take] [] {} = some (_, _) := rfl
  refine ⟨_, _, Transition.System.run_exec .init he, rfl, fun hd => ?_⟩
  have hown : (none : Option ℕ) = some 1 := hd.own 0 none 1 rfl
  exact absurd hown (Option.some_ne_none 1 ∘ Eq.symm)

end Example

end ScoutEngine
