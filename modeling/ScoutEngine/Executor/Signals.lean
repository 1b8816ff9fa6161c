import ScoutEngine.Executor.Trace
import ScoutEngine.Lib.Transition

/-!
# The executor and its signals

The executor thread and the threads that set its cancel event, set its pause event and put resume
instructions into its queue, as a transition system. The looks of a loop head at the two events and
the clearing of the pause event are actions of their own; what follows looks at neither event up to
the next loop head or wait.

* `Signals`, `Sig`, `Signals.step`, `signals`; `Signals.Moved`, `step_moved`: the system.
* `Signals.execution`: the executor of a run is in a state of an `execution`.
* `CancelInv`, `HeadInv`, `PauseInv`: what is kept once an event is set.
* **`signals_honoured`**: the signals are honoured at every loop head.
-/

set_option autoImplicit false

namespace ScoutEngine

open Transition

/-! ## The system -/

/-- How far a loop head has come. -/
inductive Look where
  | top
  /-- It has looked at the cancel event. -/
  | cancel (seen : Bool)
  /-- The cancel event was not set, and it has looked at the pause event. -/
  | pause (seen : Bool)
  /-- The pause event was set, and it has cleared it. -/
  | cleared
  deriving DecidableEq

/-- The executor thread, its two events and its queue. -/
structure Signals where
  exec : RunState
  look : Look := .top
  cancel : Bool := false
  pause : Bool := false
  queue : List ResumeInstruction := []

/-- What the threads do. -/
inductive Sig where
  | setCancel | setPause
  | put (instruction : ResumeInstruction)
  | readCancel | readPause | clearPause | go
  /-- The wait of a pause gets an instruction of the queue, or it times out. -/
  | take | timeout

namespace Signals

/-- The executor is at a loop head. -/
def AtHead (s : Signals) : Prop := s.exec.halt = none ∧ s.exec.waiting.isNone = true

instance (s : Signals) : Decidable s.AtHead := inferInstanceAs (Decidable (_ ∧ _))

variable [PyText]

/-- The rest of the loop head and of the loop body. -/
def move (cfg : Config) (env : Env) (x : Input) (s : Signals) : Signals :=
  { s with exec := next cfg env x s.exec, look := .top }

/-- **What an action makes of a state in which it is enabled.** -/
def step (cfg : Config) (env : Env) (s : Signals) : Sig → Option Signals
  | .setCancel => some { s with cancel := true }
  | .setPause => some { s with pause := true }
  | .put i => some { s with queue := s.queue ++ [i] }
  | .readCancel =>
    if s.AtHead ∧ s.look = .top ∧ (cfg.stepAt s.exec.toControl).isSome then
      some { s with look := .cancel s.cancel }
    else none
  | .readPause =>
    if s.AtHead ∧ s.look = .cancel false then some { s with look := .pause s.pause } else none
  | .clearPause =>
    if s.AtHead ∧ s.look = .pause true then some { s with pause := false, look := .cleared }
    else none
  | .go =>
    if s.AtHead then
      match s.look with
      | .top => if (cfg.stepAt s.exec.toControl).isNone then some (s.move cfg env {}) else none
      | .cancel true => some (s.move cfg env { cancel := true })
      | .cancel false => none
      | .pause false => some (s.move cfg env {})
      | .pause true => none
      | .cleared => some (s.move cfg env { pause := true })
    else none
  | .take =>
    match s.exec.halt, s.exec.waiting, s.queue with
    | none, some _, i :: rest => some { s.move cfg env { resume := some i } with queue := rest }
    | _, _, _ => none
  | .timeout =>
    match s.exec.halt, s.exec.waiting, s.queue with
    | none, some _, [] => some (s.move cfg env {})
    | _, _, _ => none

end Signals

/-- **The executor with its signals.** -/
def signals [PyText] (cfg : Config) (env : Env) : System Signals Sig where
  init := { exec := entry cfg env }
  step := Signals.step cfg env

/-! ## The actions -/

section Moves

variable [PyText] {cfg : Config} {env : Env} {s s' : Signals} {a : Sig}

/-- **The actions.** -/
inductive Signals.Moved (cfg : Config) (env : Env) (s : Signals) : Sig → Signals → Prop where
  | setCancel : Moved cfg env s .setCancel { s with cancel := true }
  | setPause : Moved cfg env s .setPause { s with pause := true }
  | put (i : ResumeInstruction) : Moved cfg env s (.put i) { s with queue := s.queue ++ [i] }
  | readCancel (hl : s.look = .top) (hh : s.exec.halt = none) (hw : s.exec.waiting = none)
      (hs : cfg.stepAt s.exec.toControl ≠ none) :
      Moved cfg env s .readCancel { s with look := .cancel s.cancel }
  | readPause (hl : s.look = .cancel false) (hh : s.exec.halt = none)
      (hw : s.exec.waiting = none) : Moved cfg env s .readPause { s with look := .pause s.pause }
  | clearPause (hl : s.look = .pause true) (hh : s.exec.halt = none) (hw : s.exec.waiting = none) :
      Moved cfg env s .clearPause { s with pause := false, look := .cleared }
  | ends (hl : s.look = .top) (hh : s.exec.halt = none) (hw : s.exec.waiting = none)
      (hs : cfg.stepAt s.exec.toControl = none) : Moved cfg env s .go (s.move cfg env {})
  | cancelled (hl : s.look = .cancel true) (hh : s.exec.halt = none)
      (hw : s.exec.waiting = none) : Moved cfg env s .go (s.move cfg env { cancel := true })
  | begins (hl : s.look = .pause false) (hh : s.exec.halt = none) (hw : s.exec.waiting = none) :
      Moved cfg env s .go (s.move cfg env {})
  | pauses (hl : s.look = .cleared) (hh : s.exec.halt = none) (hw : s.exec.waiting = none) :
      Moved cfg env s .go (s.move cfg env { pause := true })
  | take {p : Pause} {i : ResumeInstruction} {rest : List ResumeInstruction}
      (hh : s.exec.halt = none) (hw : s.exec.waiting = some p) (hq : s.queue = i :: rest) :
      Moved cfg env s .take { s.move cfg env { resume := some i } with queue := rest }
  | timeout {p : Pause} (hh : s.exec.halt = none) (hw : s.exec.waiting = some p)
      (hq : s.queue = []) : Moved cfg env s .timeout (s.move cfg env {})

theorem Signals.step_moved (h : s.step cfg env a = some s') : s.Moved cfg env a s' := by
  cases a with
  | setCancel =>
    obtain rfl := Option.some.inj h
    exact .setCancel
  | setPause =>
    obtain rfl := Option.some.inj h
    exact .setPause
  | put i =>
    obtain rfl := Option.some.inj h
    exact .put i
  | readCancel =>
    obtain ⟨⟨⟨hh, hw⟩, hl, hs⟩, he⟩ := Option.ite_none_right_eq_some.mp h
    obtain rfl := Option.some.inj he
    exact .readCancel hl hh (Option.isNone_iff_eq_none.mp hw) (Option.isSome_iff_ne_none.mp hs)
  | readPause =>
    obtain ⟨⟨⟨hh, hw⟩, hl⟩, he⟩ := Option.ite_none_right_eq_some.mp h
    obtain rfl := Option.some.inj he
    exact .readPause hl hh (Option.isNone_iff_eq_none.mp hw)
  | clearPause =>
    obtain ⟨⟨⟨hh, hw⟩, hl⟩, he⟩ := Option.ite_none_right_eq_some.mp h
    obtain rfl := Option.some.inj he
    exact .clearPause hl hh (Option.isNone_iff_eq_none.mp hw)
  | go =>
    obtain ⟨⟨hh, hw⟩, h⟩ := Option.ite_none_right_eq_some.mp h
    have hw := Option.isNone_iff_eq_none.mp hw
    cases hl : s.look with
    | top =>
      rw [hl] at h
      obtain ⟨hs, he⟩ := Option.ite_none_right_eq_some.mp h
      obtain rfl := Option.some.inj he
      exact .ends hl hh hw (Option.isNone_iff_eq_none.mp hs)
    | cancel seen =>
      rw [hl] at h
      cases seen with
      | true =>
        obtain rfl := Option.some.inj h
        exact .cancelled hl hh hw
      | false => cases h
    | pause seen =>
      rw [hl] at h
      cases seen with
      | false =>
        obtain rfl := Option.some.inj h
        exact .begins hl hh hw
      | true => cases h
    | cleared =>
      rw [hl] at h
      obtain rfl := Option.some.inj h
      exact .pauses hl hh hw
  | take =>
    simp only [step] at h
    split at h
    · obtain rfl := Option.some.inj h
      exact .take ‹_› ‹_› ‹_›
    · cases h
  | timeout =>
    simp only [step] at h
    split at h
    · obtain rfl := Option.some.inj h
      exact .timeout ‹_› ‹_› ‹_›
    · cases h

/-! ## The executor's part -/

theorem next_begins_le (cfg : Config) (env : Env) (x : Input) (s : RunState) :
    (next cfg env x s).begins.length ≤ s.begins.length + 1 := by
  rcases (next_move cfg env x s).begins with h | h
  · rw [h]
    omega
  · simp [h]

/-- A loop head without a step left leaves the loop. -/
theorem next_of_no_step {x : Input} {s : RunState} (hh : s.halt = none) (hw : s.waiting = none)
    (hs : cfg.stepAt s.toControl = none) : (next cfg env x s).halt ≠ none := by
  rw [next_of_awake hh hw]
  rcases head_cases_none env x hs with ⟨-, -, h⟩ | ⟨-, h⟩
  · rw [h]
    exact Option.some_ne_none _
  · rw [h]
    exact Option.some_ne_none _

/-- A loop head with a step left and the cancel event set leaves the loop as cancelled. -/
theorem next_of_cancel {x : Input} {s : RunState} (hh : s.halt = none) (hw : s.waiting = none)
    (hs : cfg.stepAt s.toControl ≠ none) (hx : x.cancel = true) :
    (next cfg env x s).halt = some .cancelled := by
  obtain ⟨step, hstep⟩ := Option.ne_none_iff_exists'.mp hs
  rw [next_of_awake hh hw, head_of_stepAt env x hstep, if_pos hx]
  rfl

/-- A loop head with the pause event set waits, or leaves the loop. -/
theorem next_of_pause {x : Input} {s : RunState} (hh : s.halt = none) (hw : s.waiting = none)
    (hx : (x.pause && cfg.canPause) = true) :
    (next cfg env x s).waiting ≠ none ∨ (next cfg env x s).halt ≠ none := by
  by_cases hs : cfg.stepAt s.toControl = none
  · exact Or.inr (next_of_no_step hh hw hs)
  · obtain ⟨step, hstep⟩ := Option.ne_none_iff_exists'.mp hs
    rw [next_of_awake hh hw, head_of_stepAt env x hstep, if_pos hx]
    by_cases hc : x.cancel = true
    · rw [if_pos hc]
      exact Or.inr nofun
    · rw [if_neg hc, waitForResume_toControl]
      exact Or.inl nofun

/-- A wait that times out leaves the loop. -/
theorem next_of_timeout {x : Input} {s : RunState} {p : Pause} (hh : s.halt = none)
    (hw : s.waiting = some p) (hx : x.resume = none) : (next cfg env x s).halt ≠ none := by
  rw [next_of_waiting hh hw]
  have hm := wake_move cfg env p x s
  rw [hx] at hm
  generalize (wake cfg env p x s).toControl = c at hm ⊢
  cases hm with
  | requested | error | handoffRaised | aborted | abortRaised => exact nofun
  | handoff _ hi => exact Bool.noConfusion (show true = false from hi)

end Moves

/-! ## Once an event is set -/

section Invariants

variable [PyText] {cfg : Config} {env : Env} {s s' : Signals} {a : Sig} {k : ℕ}

/-- The steps that a loop head begins before it looks at the cancel event again. -/
def Look.uncancelled : Look → ℕ
  | .top | .cancel true => 0
  | .cancel false | .pause _ | .cleared => 1

/-- The steps that it begins before it looks at the pause event again. -/
def Look.unpaused : Look → ℕ
  | .pause false => 1
  | _ => 0

omit [PyText] in
theorem Look.uncancelled_le (l : Look) : l.uncancelled ≤ 1 := by
  cases l with
  | cancel seen => cases seen <;> decide
  | _ => simp [uncancelled]

omit [PyText] in
theorem Look.unpaused_le (l : Look) : l.unpaused ≤ 1 := by
  cases l with
  | pause seen => cases seen <;> decide
  | _ => simp [unpaused]

/-- **With the cancel event set, no action adds to the steps begun and about to begin.** -/
theorem Signals.Moved.uncancelled (hm : s.Moved cfg env a s') (hc : s.cancel = true) :
    s'.exec.begins.length + s'.look.uncancelled ≤ s.exec.begins.length + s.look.uncancelled := by
  cases hm with
  | setCancel | setPause | put => exact le_rfl
  | readCancel hl => simp [hl, hc, Look.uncancelled]
  | readPause hl | clearPause hl => simp [hl, Look.uncancelled]
  | ends hl hh hw hs =>
    have hn : (next cfg env {} s.exec).begins = s.exec.begins :=
      next_begins_head hh hw (Or.inl hs)
    simp [Signals.move, hn, Look.uncancelled]
  | cancelled hl hh hw =>
    have hn : (next cfg env { cancel := true } s.exec).begins = s.exec.begins :=
      next_begins_head hh hw (Or.inr fun hx => Bool.noConfusion hx.1)
    simp [Signals.move, hn, Look.uncancelled]
  | begins hl | pauses hl =>
    have hn := next_begins_le cfg env
    simp [Signals.move, hl, hn, Look.uncancelled]
  | take hh hw | timeout hh hw =>
    have hn : ∀ x, (next cfg env x s.exec).begins = s.exec.begins := fun x => next_begins_wake hh hw
    simp [Signals.move, hn, Look.uncancelled]

/-- Nobody clears the cancel event. -/
theorem Signals.Moved.cancel_mono (hm : s.Moved cfg env a s') (hc : s.cancel = true) :
    s'.cancel = true := by
  cases hm with
  | setCancel => rfl
  | _ => exact hc

/-- A pause request is pending, or it is being honoured, or the loop was left. -/
def Signals.Held (s : Signals) : Prop :=
  s.pause = true ∨ s.look = .cleared ∨ s.exec.waiting ≠ none ∨ s.exec.halt ≠ none

omit [PyText] in
theorem Signals.Held.pause_eq (h : s.Held) (hl : s.look ≠ .cleared) (hh : s.exec.halt = none)
    (hw : s.exec.waiting = none) : s.pause = true := by
  rcases h with h | h | h | h
  · exact h
  · exact absurd h hl
  · exact absurd hw h
  · exact absurd hh h

/-- **With a pause request held, no action but the taking of an instruction adds to the steps begun
and about to begin.** -/
theorem Signals.Moved.unpaused (hm : s.Moved cfg env a s') (hcan : cfg.canPause = true)
    (h : s.Held) (ha : a ≠ .take) : s'.Held ∧
      s'.exec.begins.length + s'.look.unpaused ≤ s.exec.begins.length + s.look.unpaused := by
  cases hm with
  | setCancel | put => exact ⟨h, le_rfl⟩
  | setPause => exact ⟨Or.inl rfl, le_rfl⟩
  | readCancel hl hh hw =>
    exact ⟨Or.inl (h.pause_eq (by simp [hl]) hh hw), by simp [Look.unpaused]⟩
  | readPause hl hh hw =>
    have hp := h.pause_eq (by simp [hl]) hh hw
    exact ⟨Or.inl hp, by simp [hp, Look.unpaused]⟩
  | clearPause hl => exact ⟨Or.inr (Or.inl rfl), by simp [Look.unpaused]⟩
  | ends hl hh hw hs =>
    have hn : (next cfg env {} s.exec).begins = s.exec.begins :=
      next_begins_head hh hw (Or.inl hs)
    refine ⟨Or.inr (Or.inr (Or.inr (next_of_no_step hh hw hs))), ?_⟩
    simp [Signals.move, hn, Look.unpaused]
  | cancelled hl hh hw =>
    have hn : (next cfg env { cancel := true } s.exec).begins = s.exec.begins :=
      next_begins_head hh hw (Or.inr fun hx => Bool.noConfusion hx.1)
    exact ⟨Or.inl (h.pause_eq (by simp [hl]) hh hw), by simp [Signals.move, hn, Look.unpaused]⟩
  | begins hl hh hw =>
    have hn := next_begins_le cfg env
    exact ⟨Or.inl (h.pause_eq (by simp [hl]) hh hw), by simp [Signals.move, hl, hn, Look.unpaused]⟩
  | pauses hl hh hw =>
    have hx : (({ pause := true } : Input).pause && cfg.canPause) = true := by simp [hcan]
    have hn : (next cfg env { pause := true } s.exec).begins = s.exec.begins :=
      next_begins_head hh hw (Or.inr fun hg => Bool.noConfusion (hg.2.symm.trans hx))
    exact ⟨Or.inr (Or.inr (next_of_pause hh hw hx)), by simp [Signals.move, hn, Look.unpaused]⟩
  | take => exact absurd rfl ha
  | timeout hh hw =>
    refine ⟨Or.inr (Or.inr (Or.inr (next_of_timeout hh hw rfl))), ?_⟩
    have hn : (next cfg env {} s.exec).begins = s.exec.begins := next_begins_wake hh hw
    simp [Signals.move, hn, Look.unpaused]

/-- The cancel event is set at a loop head with a step left that has not looked past it, or the loop
was left there. -/
structure HeadInv (cfg : Config) (begun : List (ℤ × Outputs)) (s : Signals) : Prop where
  begun : s.exec.begins = begun
  set : s.cancel = true
  head : s.exec.halt = some .cancelled ∨
    (s.exec.halt = none ∧ s.exec.waiting = none ∧ cfg.stepAt s.exec.toControl ≠ none) ∧
      s.look.uncancelled = 0

theorem HeadInv.move {begun : List (ℤ × Outputs)} (h : HeadInv cfg begun s)
    (hm : s.Moved cfg env a s') : HeadInv cfg begun s' := by
  have hn : s.exec.halt = none → s.exec.waiting = none ∧
      cfg.stepAt s.exec.toControl ≠ none ∧ s.look.uncancelled = 0 := by
    intro hh
    rcases h.head with hc | ⟨⟨-, hw, hs⟩, hl⟩
    · exact absurd (hh.symm.trans hc) nofun
    · exact ⟨hw, hs, hl⟩
  cases hm with
  | setCancel => exact ⟨h.begun, rfl, h.head⟩
  | setPause | put => exact ⟨h.begun, h.set, h.head⟩
  | readCancel hl hh hw hs =>
    refine ⟨h.begun, h.set, Or.inr ⟨⟨hh, hw, hs⟩, ?_⟩⟩
    simp [h.set, Look.uncancelled]
  | readPause hl hh | clearPause hl hh | begins hl hh | pauses hl hh =>
    have hu := (hn hh).2.2
    simp [hl, Look.uncancelled] at hu
  | ends hl hh hw hs => exact absurd hs (hn hh).2.1
  | cancelled hl hh hw =>
    refine ⟨?_, h.set, Or.inl (next_of_cancel hh hw (hn hh).2.1 rfl)⟩
    exact (next_begins_head hh hw (Or.inr fun hx => Bool.noConfusion hx.1)).trans h.begun
  | take hh hw | timeout hh hw => exact absurd ((hn hh).1.symm.trans hw) nofun

end Invariants

/-! ## Runs -/

section Runs

variable [PyText]

/-- `execute_workflow` returns with the status `cancelled`. -/
def Signals.Cancelled (cfg : Config) (env : Env) (s : Signals) : Prop :=
  ∃ res, (finish cfg env s.exec).1 = .ok res ∧ res.status = .cancelled

/-- The loop head is reached with a step left to run. -/
def Signals.Reached (cfg : Config) (s : Signals) : Prop :=
  s.AtHead ∧ s.look = .top ∧ cfg.stepAt s.exec.toControl ≠ none

theorem cancelled_of_halt {cfg : Config} {env : Env} {s : Signals}
    (h : s.exec.halt = some .cancelled) : s.Cancelled cfg env := by
  have hf : finish cfg env s.exec =
      (.ok (result env (leave cfg env s.exec)), leave cfg env s.exec) := by
    unfold finish
    rw [h]
  refine ⟨_, congrArg Prod.fst hf, ?_⟩
  rw [(finish_ok hf).2.1, finalStatus, if_pos h]

/-- The loop head goes on to the cancellation, whatever the other threads did meanwhile. -/
theorem HeadInv.progress {cfg : Config} {env : Env} {begun : List (ℤ × Outputs)}
    {h : List (Signals × Sig)} {s : Signals} (hi : HeadInv cfg begun s)
    (hr : (signals cfg env).Run h s) : ∃ h' s', (signals cfg env).Run (h' ++ h) s' ∧
      h'.length ≤ 2 ∧ s'.exec.halt = some .cancelled := by
  rcases hi.head with hc | ⟨⟨hh, hw, hs⟩, hl⟩
  · exact ⟨[], s, hr, Nat.zero_le 2, hc⟩
  · have hhead : s.AtHead := ⟨hh, Option.isNone_iff_eq_none.mpr hw⟩
    have hgo : ∀ t : Signals, t.exec = s.exec → t.look = .cancel true →
        (signals cfg env).step t .go = some (t.move cfg env { cancel := true }) := by
      intro t he ht
      have hhead' : t.AtHead := by
        unfold Signals.AtHead
        rw [he]
        exact hhead
      show (if t.AtHead then _ else none) = _
      rw [if_pos hhead', ht]
    cases hlook : s.look with
    | top =>
      have hread : (signals cfg env).step s .readCancel = some { s with look := .cancel true } := by
        show (if s.AtHead ∧ s.look = .top ∧ (cfg.stepAt s.exec.toControl).isSome = true then _
          else none) = _
        rw [if_pos ⟨hhead, hlook, Option.isSome_iff_ne_none.mpr hs⟩, hi.set]
      exact ⟨[_, _], _, (hr.step hread).step (hgo _ rfl rfl), le_rfl, next_of_cancel hh hw hs rfl⟩
    | cancel seen =>
      cases seen with
      | true => exact ⟨[_], _, hr.step (hgo s rfl hlook), by simp, next_of_cancel hh hw hs rfl⟩
      | false => simp [hlook, Look.uncancelled] at hl
    | _ => simp [hlook, Look.uncancelled] at hl

/-- **Main result.** From a moment on at which the cancel event is set, at most one more step
begins; from a loop head on that is reached so with a step left, none begins, and the run ends as
cancelled, which the executor is at most two actions away from. From a moment on at which the pause
event is set, at most one more step begins before an instruction is taken. -/
theorem signals_honoured (cfg : Config) (env : Env) {h₁ h₂ : List (Signals × Sig)} {s₁ s : Signals}
    (hr₁ : (signals cfg env).Run h₁ s₁) (hr : (signals cfg env).Run (h₂ ++ h₁) s) :
    (s₁.cancel = true → s.exec.begins.length ≤ s₁.exec.begins.length + 1) ∧
      (s₁.cancel = true → s₁.Reached cfg → s.exec.begins = s₁.exec.begins ∧
        (s.exec.halt ≠ none → s.Cancelled cfg env) ∧
        ∃ h₃ s', (signals cfg env).Run (h₃ ++ (h₂ ++ h₁)) s' ∧ h₃.length ≤ 2 ∧
          s'.exec.halt ≠ none ∧ s'.Cancelled cfg env) ∧
      (cfg.canPause = true → s₁.pause = true → (∀ e ∈ h₂, e.2 ≠ .take) →
        s.exec.begins.length ≤ s₁.exec.begins.length + 1) := by
  refine ⟨fun hc => ?_, fun hc hhead => ?_, fun hcan hp htake => ?_⟩
  · have hinv : s.cancel = true ∧ s.exec.begins.length + s.look.uncancelled ≤
        s₁.exec.begins.length + s₁.look.uncancelled := by
      refine hr₁.from_state (P := fun t => t.cancel = true ∧ t.exec.begins.length +
        t.look.uncancelled ≤ s₁.exec.begins.length + s₁.look.uncancelled) hr ⟨hc, le_rfl⟩
        (fun t a t' ht (_ : True) hs => ?_) fun _ _ => trivial
      have hm := Signals.step_moved hs
      exact ⟨hm.cancel_mono ht.1, (hm.uncancelled ht.1).trans ht.2⟩
    have hle := s₁.look.uncancelled_le
    omega
  · obtain ⟨⟨hh, hw⟩, hl, hs⟩ := hhead
    have hstart : HeadInv cfg s₁.exec.begins s₁ := by
      refine ⟨rfl, hc, Or.inr ⟨⟨hh, Option.isNone_iff_eq_none.mp hw, hs⟩, ?_⟩⟩
      rw [hl]
      rfl
    have hinv : HeadInv cfg s₁.exec.begins s :=
      hr₁.from_state hr hstart (fun t a t' ht (_ : True) hs => ht.move (Signals.step_moved hs))
        fun _ _ => trivial
    obtain ⟨h₃, s', hr', hlen, hend⟩ := hinv.progress hr
    refine ⟨hinv.begun, fun hne => ?_, h₃, s', hr', hlen, hend.trans_ne nofun,
      cancelled_of_halt hend⟩
    exact cancelled_of_halt (hinv.head.resolve_right fun hrun => hne hrun.1.1)
  · have hinv : s.Held ∧ s.exec.begins.length + s.look.unpaused ≤
        s₁.exec.begins.length + s₁.look.unpaused := by
      refine hr₁.from_state (P := fun t => t.Held ∧ t.exec.begins.length + t.look.unpaused ≤
        s₁.exec.begins.length + s₁.look.unpaused) hr ⟨Or.inl hp, le_rfl⟩
        (fun t a t' ht (ha : a ≠ .take) hs => ?_) htake
      obtain ⟨hheld, hle⟩ := (Signals.step_moved hs).unpaused hcan ht.1 ha
      exact ⟨hheld, hle.trans ht.2⟩
    have hle := s₁.look.unpaused_le
    omega

/-! ## The runs of the executor -/

theorem execution_congr {cfg : Config} {env : Env} {σ σ' : ℕ → RunState → Input} {n : ℕ}
    (h : ∀ k < n, σ k = σ' k) : execution cfg env σ n = execution cfg env σ' n := by
  induction n with
  | zero => rfl
  | succ n ih =>
    rw [execution_succ, execution_succ, ih fun k hk => h k (Nat.lt_succ_of_lt hk),
      h n (Nat.lt_succ_self n)]

theorem Signals.Moved.exec {cfg : Config} {env : Env} {s s' : Signals} {a : Sig}
    (hm : s.Moved cfg env a s') : s'.exec = s.exec ∨ ∃ x, s'.exec = next cfg env x s.exec := by
  cases hm with
  | ends | cancelled | begins | pauses | take | timeout => exact Or.inr ⟨_, rfl⟩
  | _ => exact Or.inl rfl

/-- **The executor of a run is in a state of an execution**, with the inputs that it has read. -/
theorem Signals.execution {cfg : Config} {env : Env} {h : List (Signals × Sig)} {s : Signals}
    (hr : (signals cfg env).Run h s) : ∃ σ n, s.exec = execution cfg env σ n := by
  induction hr with
  | init => exact ⟨fun _ _ => {}, 0, rfl⟩
  | @step h s s' a _ hs ih =>
    obtain ⟨σ, n, hn⟩ := ih
    rcases (Signals.step_moved hs).exec with he | ⟨x, he⟩
    · exact ⟨σ, n, he.trans hn⟩
    · refine ⟨fun k => if k < n then σ k else fun _ => x, n + 1, ?_⟩
      have hcongr : ScoutEngine.execution cfg env (fun k => if k < n then σ k else fun _ => x) n =
          ScoutEngine.execution cfg env σ n := execution_congr fun k hk => if_pos hk
      rw [he, hn, execution_succ, hcongr, if_neg (Nat.lt_irrefl n)]

end Runs

/-! ## A cancelled and paused run -/

section Example

attribute [local instance] asciiText

/-- Two steps, in an execution that can be paused. -/
def clearPair : Config where
  workflow :=
    { steps := [{ order := 1, order_pos := WorkflowStep.order_one, name := "Clear", action := .clear },
        { order := 2, order_pos := WorkflowStep.order_two, name := "Clear", action := .clear }] }
  executionId := some "e"
  hasPauseQueue := true

/-- A browser in which everything works. -/
def compliant : Env where
  answer _ _ := { result := .ok .none }
  clock _ := 0

/-- Both events are set after the first step, and the second one does not begin. -/
theorem signals_honoured_clearPair : ∃ h s, (signals clearPair compliant).Run h s ∧
    s.exec.begins.length = 1 ∧ s.pause = true ∧ s.cancel = true ∧ s.Reached clearPair ∧
    ∃ h' s', (signals clearPair compliant).Run (h' ++ h) s' ∧ h'.length ≤ 2 ∧
      s'.Cancelled clearPair compliant := by
  obtain ⟨h, s, hr, hp⟩ := System.exists_run (M := signals clearPair compliant)
    [.readCancel, .readPause, .go, .setPause, .setCancel]
    (fun _ s => s.exec.begins.length == 1 && s.pause && s.cancel && decide (s.AtHead ∧ s.look = .top ∧
      (clearPair.stepAt s.exec.toControl).isSome = true)) (by decide +kernel)
  simp only [Bool.and_eq_true, beq_iff_eq, decide_eq_true_eq] at hp
  obtain ⟨⟨⟨hb, hpause⟩, hc⟩, hhead, hl, hs⟩ := hp
  have hreached : s.Reached clearPair := ⟨hhead, hl, Option.isSome_iff_ne_none.mp hs⟩
  have hsame : (signals clearPair compliant).Run ([] ++ h) s := hr
  obtain ⟨-, hcancel, -⟩ := signals_honoured clearPair compliant hr hsame
  obtain ⟨-, -, h', s', hr', hlen, -, hend⟩ := hcancel hc hreached
  exact ⟨h, s, hr, hb, hpause, hc, hreached, h', s', hr', hlen, hend⟩

end Example

end ScoutEngine
