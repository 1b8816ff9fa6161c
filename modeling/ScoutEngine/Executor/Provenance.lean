import ScoutEngine.Executor.Advance
import ScoutEngine.Executor.Trace
import ScoutEngine.Lib.LastWrite
import Mathlib.Logic.Relation

/-!
# Where the outputs come from

The outputs that a run reports and interpolates, against the results that it recorded.

* `Update`, **`Move.updates`**: a move is a sequence of updates of the trace, the outputs and the
  loop stack; everything else follows from this.
* `Source`, `Explained`, **`outputs_explained`**: every value was put there by a passed result.
* `StepResult.leaves`, `Config.writes`, `Ev.reads`, **`last_writes`**: under a name that no loop
  binds, every step sees the last value written, and so does the reader of the outputs.
-/

set_option autoImplicit false

namespace ScoutEngine

open LastWrite

variable [PyText]

/-! ## Updates -/

omit [PyText] in
/-- An event that neither reads nor writes outputs. -/
def Ev.Silent : Ev → Prop
  | .waiting _ _ | .resumed _ _ _ => True
  | .result _ r => r.action = .handoff ∨ r.status = .failed
  | .begin _ _ => False

/-- **What a part of a move does to the outputs**, and what it records. -/
inductive Update (cfg : Config) (c c' : Control) : Prop where
  | same (ht : c'.trace = c.trace) (ho : c'.outputs = c.outputs) (hl : c'.loopStack = c.loopStack)
  | silent {e : Ev} (he : e.Silent) (ht : c'.trace = c.trace ++ [e]) (ho : c'.outputs = c.outputs)
      (hl : c'.loopStack = c.loopStack)
  | begun (ht : c'.trace = c.trace ++ [.begin c.stepIdx c.outputs]) (ho : c'.outputs = c.outputs)
      (hl : c'.loopStack = c.loopStack)
  | ran {raw : WorkflowStep} {r : StepResult} (hraw : pyGet cfg.steps c.stepIdx = some raw)
      (ha : raw.action ≠ .handoff) (hr : r.action = raw.action)
      (ht : c'.trace = c.trace ++ [.result c.stepIdx r])
      (ho : c'.outputs = Control.captured raw r c.outputs) (hl : c'.loopStack = c.loopStack)
  | entered {raw : WorkflowStep} {r : StepResult} {idx : ℤ} {f : LoopFrame}
      (hraw : pyGet cfg.steps idx = some raw) (ha : raw.action = .loop)
      (hmem : Ev.result idx r ∈ c.trace) (hp : r.status = .passed)
      (hi : r.outputData.getKey "items" = .list f.items) (hne : f.items ≠ [])
      (h0 : f.currentIndex = 0) (hv : f.loopVar = raw.loopVar) (hx : f.loopIndexVar = raw.loopIndexVar)
      (ht : c'.trace = c.trace) (ho : c'.outputs = Control.bound f c.outputs)
      (hl : c'.loopStack = f :: c.loopStack)
  | wrapped {f : LoopFrame} {rest : List LoopFrame} (hs : c.loopStack = f :: rest)
      (hlt : f.next.currentIndex < f.items.length) (ht : c'.trace = c.trace)
      (ho : c'.outputs = Control.bound f.next c.outputs) (hl : c'.loopStack = f.next :: rest)
  | left {f : LoopFrame} (hs : c.loopStack = f :: c'.loopStack) (ht : c'.trace = c.trace)
      (ho : c'.outputs = c.outputs)

/-- A sequence of updates. -/
def Updates (cfg : Config) : Control → Control → Prop := Relation.ReflTransGen (Update cfg)

section Updates

variable {cfg : Config} {c c' : Control} {raw : WorkflowStep} {r : StepResult}

/-- The rest of the variables does not matter. -/
theorem Updates.congr {d : Control} (h : Updates cfg c c') (ht : d.trace = c'.trace)
    (ho : d.outputs = c'.outputs) (hl : d.loopStack = c'.loopStack) : Updates cfg c d :=
  h.tail (.same ht ho hl)

theorem Updates.silent {e : Ev} (he : e.Silent) (ht : c'.trace = c.trace ++ [e])
    (ho : c'.outputs = c.outputs) (hl : c'.loopStack = c.loopStack) : Updates cfg c c' :=
  .single (.silent he ht ho hl)

theorem Updates.begun (cfg : Config) (c : Control) : Updates cfg c c.begun :=
  .single (.begun rfl rfl rfl)

theorem Updates.stop (h : Updates cfg c c') (k : Halt) : Updates cfg c (c'.stop k) :=
  h.congr rfl rfl rfl

theorem Updates.goto (h : Updates cfg c c') (n : ℕ) (v : PyVal) : Updates cfg c (c'.goto n v) := by
  obtain ⟨i, k, hg⟩ := Control.goto_eq n v c'
  rw [hg]
  exact h.congr rfl rfl rfl

theorem Updates.waitFor (h : Updates cfg c c') (p : Pause) : Updates cfg c (c'.waitFor p) :=
  h.tail (.silent (e := .waiting c'.stepIdx p.kind) trivial rfl rfl rfl)

theorem Updates.woken (cfg : Config) (c : Control) (p : Pause) (i : ResumeInstruction) :
    Updates cfg c (c.woken p i) :=
  .silent (e := .resumed c.stepIdx p.kind i) trivial rfl rfl rfl

/-- The result of a handoff. -/
theorem Updates.record (h : Updates cfg c c') (hr : r.action = .handoff) :
    Updates cfg c (c'.record r) :=
  h.tail (.silent (e := .result c'.stepIdx r) (Or.inl hr) rfl rfl rfl)

theorem Updates.passHandoff (h : Updates cfg c c') (step : WorkflowStep) :
    Updates cfg c (c'.passHandoff (handoffResult step)) :=
  (h.record (r := handoffResult step) rfl).congr rfl rfl rfl

/-- The fields that decide about outputs are not interpolated. -/
theorem resolveStepRuntime_names (raw : WorkflowStep) (o : Outputs) :
    (resolveStepRuntime raw o).outputVar = raw.outputVar ∧
      (resolveStepRuntime raw o).loopVar = raw.loopVar ∧
      (resolveStepRuntime raw o).loopIndexVar = raw.loopIndexVar := by
  unfold resolveStepRuntime
  split_ifs <;> exact ⟨rfl, rfl, rfl⟩

theorem captured_resolve (raw : WorkflowStep) (r : StepResult) (o o' : Outputs) :
    Control.captured (resolveStepRuntime raw o) r o' = Control.captured raw r o' := by
  unfold Control.captured
  rw [(resolveStepRuntime_names raw o).1, resolveStepRuntime_action]

/-- **A step is executed**: it sees the outputs, and then its result is recorded and captured. -/
theorem Updates.ran (hraw : pyGet cfg.steps c.stepIdx = some raw) (ha : raw.action ≠ .handoff)
    (hr : r.Of (resolveStepRuntime raw c.outputs)) :
    Updates cfg c (c.ran (resolveStepRuntime raw c.outputs) r) := by
  have haction : r.action = raw.action := hr.action.trans (resolveStepRuntime_action raw c.outputs)
  refine (Updates.begun cfg c).tail (.ran hraw ha haction rfl ?_ rfl)
  exact captured_resolve raw r c.outputs c.outputs

/-- Going on after a recorded result. -/
theorem Updates.advance (h : Updates cfg c c') {step : WorkflowStep} {o : Outputs}
    (hraw : pyGet cfg.steps c'.stepIdx = some raw) (hstep : step = resolveStepRuntime raw o)
    (hr : r.Of step) (hmem : Ev.result c'.stepIdx r ∈ c'.trace) :
    Updates cfg c (c'.advance step r) := by
  obtain ⟨-, hv, hx⟩ := resolveStepRuntime_names raw o
  have haction := resolveStepRuntime_action raw o
  rw [← hstep] at hv hx haction
  have hm := advance_move hr c'
  generalize c'.advance step r = d at hm ⊢
  cases hm with
  | skipBody | pastLoop | forward => exact h.congr rfl rfl rfl
  | enterBody ha hp hne =>
    have hi : r.outputData.getKey "items" = .list (loopItems step) := by
      rw [hr.loop ha hp]
      rfl
    exact h.tail (.entered (f := step.frame c'.stepIdx) hraw (haction ▸ ha) hmem hp hi hne rfl hv hx
      rfl rfl rfl)
  | wrap _ hs _ hlt => exact h.tail (.wrapped hs hlt rfl rfl rfl)
  | leave _ hs => exact h.tail (.left hs rfl rfl)

/-- The accounting of a recorded result. -/
theorem Updates.account (h : Updates cfg c c') {step : WorkflowStep} {o : Outputs}
    (hraw : pyGet cfg.steps c'.stepIdx = some raw) (hstep : step = resolveStepRuntime raw o)
    (hr : r.Of step) (hmem : Ev.result c'.stepIdx r ∈ c'.trace) :
    Updates cfg c (c'.account cfg step r) := by
  cases hs : r.status with
  | passed =>
    rw [Control.account_passed hs]
    have hpass : Updates cfg c c'.countPass := h.congr rfl rfl rfl
    exact hpass.advance hraw hstep hr hmem
  | failed =>
    have hfail : Updates cfg c c'.countFail := h.congr rfl rfl rfl
    rcases Control.account_failed cfg step c' hs with ⟨-, hk⟩ | ⟨-, ⟨-, hk⟩ | ⟨-, hk⟩⟩
    · rw [hk]
      apply Updates.waitFor
      exact hfail.congr rfl rfl rfl
    · rw [hk]
      exact hfail.stop _
    · rw [hk]
      exact hfail.advance hraw hstep hr hmem

/-- **A move is a sequence of updates.** -/
theorem Move.updates {x : Input} (hm : Move cfg x c c') : Updates cfg c c' := by
  have hrefl : Updates cfg c c := .refl
  cases hm with
  | halted => exact hrefl
  | head _ _ hm =>
    cases hm with
    | finished | noStep | cancelled => exact hrefl.stop _
    | requested => exact hrefl.waitFor _
    | monitorRaised => exact (Updates.begun cfg c).stop _
    | handoffWaits => exact (Updates.begun cfg c).waitFor _
    | handoffPassed => exact ((Updates.begun cfg c).passHandoff _).goto _ _
    | handoffRaised => exact ((Updates.begun cfg c).passHandoff _).stop _
    | @ran step r hs _ ha hr =>
      obtain ⟨raw, hraw, rfl⟩ := cfg.stepAt_raw hs
      have ha' : raw.action ≠ .handoff := resolveStepRuntime_action raw c.outputs ▸ ha
      refine (Updates.ran hraw ha' hr).account hraw rfl hr ?_
      exact List.mem_append_right _ (List.mem_singleton.mpr rfl)
    | @callbackRaised step r hs _ ha hr e =>
      obtain ⟨raw, hraw, rfl⟩ := cfg.stepAt_raw hs
      have ha' : raw.action ≠ .handoff := resolveStepRuntime_action raw c.outputs ▸ ha
      exact (Updates.ran hraw ha' hr).stop _
  | @wake p _ _ _ hm =>
    generalize x.resume.getD { action := .abort } = i at hm
    have hwoken := Updates.woken cfg c p i
    cases hm with
    | requested => exact hwoken.goto _ _
    | error =>
      have hset : Updates cfg c ((c.woken p i).setRetrying i) := hwoken.congr rfl rfl rfl
      exact hset.goto _ _
    | handoff => exact (hwoken.passHandoff _).goto _ _
    | handoffRaised => exact (hwoken.passHandoff _).stop _
    | aborted | abortRaised => exact (hwoken.record (r := abortedResult p.step) rfl).stop _

/-- **What every update keeps holds in every state of every run.** -/
theorem updates_invariant {P : Control → Prop} (init : P {})
    (stopped : ∀ k, P (({} : Control).stop k)) (step : ∀ c c', P c → Update cfg c c' → P c')
    (env : Env) (σ : ℕ → RunState → Input) (n : ℕ) : P (execution cfg env σ n).toControl := by
  refine execution_invariant (A := fun _ _ => True) (fun _ => trivial) init (fun e => stopped _)
    (fun x c c' hc _ hm => ?_) n
  have hu := hm.updates
  clear hm
  induction hu with
  | refl => exact hc
  | tail _ hu ih => exact step _ _ ih hu

end Updates

/-! ## Every value has a source -/

/-- **Where a value comes from**: a passed result that was recorded. -/
inductive Source (cfg : Config) (t : List Ev) : Option String → PyVal → Prop
  | captured {idx : ℤ} {raw : WorkflowStep} {r : StepResult} {name : String}
      (hraw : pyGet cfg.steps idx = some raw) (hmem : Ev.result idx r ∈ t)
      (hp : r.status = .passed) (ho : raw.outputVar = some name) (hne : name ≠ "") :
      Source cfg t (some name) r.outputData
  /-- The text of a response's body. -/
  | body {idx : ℤ} {raw : WorkflowStep} {r : StepResult} {name : String} {kvs : Dict String PyVal}
      {body : PyVal} (hraw : pyGet cfg.steps idx = some raw) (hmem : Ev.result idx r ∈ t)
      (hp : r.status = .passed) (ho : raw.outputVar = some name) (hne : name ≠ "")
      (ha : raw.action = .httpRequest) (hd : r.outputData = .dict kvs)
      (hb : Dict.get "body" kvs = some body) :
      Source cfg t (some (name ++ "_body")) (.str (Control.bodyText body))
  /-- An item of a loop. -/
  | item {idx : ℤ} {raw : WorkflowStep} {r : StepResult} {items : List PyVal} {v : PyVal}
      (hraw : pyGet cfg.steps idx = some raw) (hmem : Ev.result idx r ∈ t)
      (hp : r.status = .passed) (ha : raw.action = .loop)
      (hi : r.outputData.getKey "items" = .list items) (hv : v ∈ items) :
      Source cfg t raw.loopVar v
  /-- The number of an item of a loop. -/
  | index {idx : ℤ} {raw : WorkflowStep} {r : StepResult} {items : List PyVal} {i : ℕ}
      (hraw : pyGet cfg.steps idx = some raw) (hmem : Ev.result idx r ∈ t)
      (hp : r.status = .passed) (ha : raw.action = .loop)
      (hi : r.outputData.getKey "items" = .list items) (hlt : i < items.length)
      (hx : raw.loopIndexVar.getD "" ≠ "") : Source cfg t raw.loopIndexVar (.int i)

/-- A frame was pushed for a passed result of a loop step. -/
structure LoopFrame.From (cfg : Config) (t : List Ev) (f : LoopFrame) : Prop where
  inside : f.currentIndex < f.items.length
  pushed : ∃ idx raw r, pyGet cfg.steps idx = some raw ∧ Ev.result idx r ∈ t ∧ r.status = .passed ∧
    raw.action = .loop ∧ r.outputData.getKey "items" = .list f.items ∧ f.loopVar = raw.loopVar ∧
    f.loopIndexVar = raw.loopIndexVar

/-- **Every value and every frame has a source.** -/
structure Explained (cfg : Config) (c : Control) : Prop where
  outputs : ∀ e ∈ c.outputs, Source cfg c.trace e.1 e.2
  frames : ∀ f ∈ c.loopStack, f.From cfg c.trace

section Explained

variable {cfg : Config} {c c' : Control} {t t' : List Ev} {k : Option String} {v : PyVal}

theorem Source.mono (h : Source cfg t k v) (hsub : t ⊆ t') : Source cfg t' k v := by
  cases h with
  | captured hraw hmem hp ho hne => exact .captured hraw (hsub hmem) hp ho hne
  | body hraw hmem hp ho hne ha hd hb => exact .body hraw (hsub hmem) hp ho hne ha hd hb
  | item hraw hmem hp ha hi hv => exact .item hraw (hsub hmem) hp ha hi hv
  | index hraw hmem hp ha hi hlt hx => exact .index hraw (hsub hmem) hp ha hi hlt hx

omit [PyText] in
theorem LoopFrame.From.mono {f : LoopFrame} (h : f.From cfg t) (hsub : t ⊆ t') : f.From cfg t' := by
  obtain ⟨hlt, idx, raw, r, hraw, hmem, h⟩ := h
  exact ⟨hlt, idx, raw, r, hraw, hsub hmem, h⟩

omit [PyText] in
theorem LoopFrame.From.next {f : LoopFrame} (h : f.From cfg t)
    (hlt : f.next.currentIndex < f.items.length) : f.next.From cfg t := ⟨hlt, h.pushed⟩

/-- The variables of a frame are bound from its items. -/
theorem Source.bound {f : LoopFrame} {o : Outputs} (h : f.From cfg t)
    (ho : ∀ e ∈ o, Source cfg t e.1 e.2) : ∀ e ∈ Control.bound f o, Source cfg t e.1 e.2 := by
  obtain ⟨hlt, idx, raw, r, hraw, hmem, hp, ha, hi, hv, hx⟩ := h
  have hitem : ∀ e ∈ Dict.set f.loopVar f.items[f.currentIndex] o, Source cfg t e.1 e.2 := by
    intro e he
    rcases Dict.mem_set he with rfl | he
    · rw [hv]
      exact .item hraw hmem hp ha hi (List.getElem_mem hlt)
    · exact ho e he
  unfold Control.bound
  rw [List.getElem?_eq_getElem hlt]
  dsimp only
  split_ifs with hn
  · exact hitem
  · intro e he
    rcases Dict.mem_set he with rfl | he
    · rw [hx] at hn ⊢
      exact .index hraw hmem hp ha hi hlt hn
    · exact hitem e he

/-- A captured result. -/
theorem Source.capture {idx : ℤ} {raw : WorkflowStep} {r : StepResult} {o : Outputs}
    (hraw : pyGet cfg.steps idx = some raw) (hmem : Ev.result idx r ∈ t)
    (ho : ∀ e ∈ o, Source cfg t e.1 e.2) :
    ∀ e ∈ Control.captured raw r o, Source cfg t e.1 e.2 := by
  unfold Control.captured
  dsimp only
  split_ifs with h
  · exact ho
  · rw [not_or] at h
    obtain ⟨hne, hp⟩ := h
    have hp : r.status = .passed := by
      cases hs : r.status with
      | passed => rfl
      | failed => exact absurd hs hp
    have hname : raw.outputVar = some (raw.outputVar.getD "") := by
      cases hv : raw.outputVar with
      | none => rw [hv] at hne; exact absurd rfl hne
      | some v => rfl
    have hdata : ∀ e ∈ Dict.set (some (raw.outputVar.getD "")) r.outputData o,
        Source cfg t e.1 e.2 := by
      intro e he
      rcases Dict.mem_set he with rfl | he
      · exact .captured hraw hmem hp hname hne
      · exact ho e he
    split
    · rename_i kvs ha hd
      split
      · rename_i body hb
        intro e he
        rcases Dict.mem_set he with rfl | he
        · exact .body hraw hmem hp hname hne ha hd hb
        · exact hdata e he
      · exact hdata
    · exact hdata

theorem Explained.update (h : Explained cfg c) (hu : Update cfg c c') : Explained cfg c' := by
  have hgrow : ∀ e, c'.trace = c.trace ++ [e] → c.trace ⊆ c'.trace := fun e ht =>
    ht ▸ List.subset_append_left _ _
  have hkeep : c.trace ⊆ c'.trace → c'.outputs = c.outputs → c'.loopStack = c.loopStack →
      Explained cfg c' := fun hsub ho hl =>
    ⟨ho ▸ fun e he => (h.outputs e he).mono hsub, hl ▸ fun f hf => (h.frames f hf).mono hsub⟩
  cases hu with
  | same ht ho hl => exact hkeep (ht ▸ List.Subset.refl _) ho hl
  | silent _ ht ho hl => exact hkeep (hgrow _ ht) ho hl
  | begun ht ho hl => exact hkeep (hgrow _ ht) ho hl
  | @ran raw r hraw _ _ ht ho hl =>
    have hsub := hgrow _ ht
    refine ⟨?_, hl ▸ fun f hf => (h.frames f hf).mono hsub⟩
    rw [ho]
    refine Source.capture hraw ?_ fun e he => (h.outputs e he).mono hsub
    rw [ht]
    exact List.mem_append_right _ (List.mem_singleton.mpr rfl)
  | entered hraw ha hmem hp hi hne h0 hv hx ht ho hl =>
    have hfrom : LoopFrame.From cfg c.trace _ :=
      ⟨h0 ▸ List.length_pos_iff.mpr hne, _, _, _, hraw, hmem, hp, ha, hi, hv, hx⟩
    refine ⟨?_, ?_⟩
    · rw [ho, ht]
      exact Source.bound hfrom h.outputs
    · rw [hl, ht]
      exact List.forall_mem_cons.mpr ⟨hfrom, h.frames⟩
  | wrapped hs hlt ht ho hl =>
    have hframes := h.frames
    rw [hs, List.forall_mem_cons] at hframes
    have hfrom := hframes.1.next hlt
    refine ⟨?_, ?_⟩
    · rw [ho, ht]
      exact Source.bound hfrom h.outputs
    · rw [hl, ht]
      exact List.forall_mem_cons.mpr ⟨hfrom, hframes.2⟩
  | left hs ht ho =>
    have hframes := h.frames
    rw [hs, List.forall_mem_cons] at hframes
    exact ⟨by rw [ho, ht]; exact h.outputs, by rw [ht]; exact hframes.2⟩

/-- **Main result.** Whatever the steps, pauses, jumps and loops: every value among the outputs, at
every moment of every run, is the data of a recorded passed result under the output variable of its
step, the text of the body in it, or an item of a passed loop or its number. -/
theorem outputs_explained (cfg : Config) (env : Env) (σ : ℕ → RunState → Input) (n : ℕ) :
    Explained cfg (execution cfg env σ n).toControl :=
  updates_invariant ⟨List.forall_mem_nil _, List.forall_mem_nil _⟩
    (fun _ => ⟨List.forall_mem_nil _, List.forall_mem_nil _⟩) (fun _ _ => .update) env σ n

end Explained

/-! ## The last write is seen -/

/-- **What a result leaves under a name**: its data under the output variable of its step, and the
text of the body of a response under the name with `_body`. A handoff leaves nothing. -/
def StepResult.leaves (raw : WorkflowStep) (r : StepResult) (k : String) : Option PyVal :=
  let name := raw.outputVar.getD ""
  if name = "" ∨ r.status = .failed ∨ r.action = .handoff then none
  else if k = name then some r.outputData
  else
    match r.outputData with
    | .dict kvs =>
      if r.action = .httpRequest ∧ k = name ++ "_body" then
        (Dict.get "body" kvs).map fun body => .str (Control.bodyText body)
      else none
    | _ => none

/-- What an event writes. -/
def Config.writes (cfg : Config) : Ev → String → Option PyVal
  | .result idx r, k => (pyGet cfg.steps idx).bind fun raw => r.leaves raw k
  | _, _ => none

omit [PyText] in
/-- What an event sees. -/
def Ev.reads : Ev → Option (String → Option PyVal)
  | .begin _ o => some fun k => Dict.get (some k) o
  | _ => none

omit [PyText] in
/-- The names that no loop step binds. -/
def Config.unlooped (cfg : Config) : Set String :=
  {k | ∀ raw ∈ cfg.steps, raw.action = .loop → raw.loopVar ≠ some k ∧ raw.loopIndexVar ≠ some k}

/-- **The last writes are seen**, by the steps and in the outputs. -/
structure SeesLastWrites (cfg : Config) (c : Control) : Prop where
  seen : Consistent cfg.writes Ev.reads cfg.unlooped c.trace
  outputs : Set.EqOn (fun k => Dict.get (some k) c.outputs) (store cfg.writes c.trace) cfg.unlooped

/-- The invariant: no frame binds one of the names. -/
structure LastWriteInv (cfg : Config) (c : Control) : Prop extends SeesLastWrites cfg c where
  frames : ∀ f ∈ c.loopStack, ∀ k ∈ cfg.unlooped, f.loopVar ≠ some k ∧ f.loopIndexVar ≠ some k

section LastWrites

variable {cfg : Config} {c c' : Control}

omit [PyText] in
theorem name_ne_body (name : String) : name ++ "_body" ≠ name := by
  intro h
  have hl := congrArg String.length h
  rw [String.length_append] at hl
  have hb : "_body".length = 5 := by decide
  omega

/-- **The capture of a result leaves what it leaves.** -/
theorem get_captured {raw : WorkflowStep} {r : StepResult} (ha : raw.action ≠ .handoff)
    (hr : r.action = raw.action) (o : Outputs) (k : String) :
    Dict.get (some k) (Control.captured raw r o) = (r.leaves raw k).or (Dict.get (some k) o) := by
  unfold Control.captured StepResult.leaves
  dsimp only
  rw [hr]
  by_cases hn : raw.outputVar.getD "" = ""
  · rw [if_pos (Or.inl hn), if_pos (Or.inl hn)]
    rfl
  · by_cases hs : r.status = .failed
    · rw [if_pos (Or.inr hs), if_pos (Or.inr (Or.inl hs))]
      rfl
    · rw [if_neg (by simp [hn, hs]), if_neg (by simp [hn, hs, ha])]
      generalize raw.outputVar.getD "" = name
      have hset : ∀ d, Dict.get (some k) (Dict.set (some name) d o) =
          if k = name then some d else Dict.get (some k) o := by
        intro d
        rw [Dict.get_set]
        simp only [Option.some.injEq, eq_comm]
      split
      · rename_i kvs hhttp hd
        rw [hd]
        dsimp only
        cases hb : Dict.get "body" kvs with
        | none =>
          rw [hset]
          split_ifs <;> rfl
        | some body =>
          dsimp only
          rw [Dict.get_set, hset]
          by_cases hk : k = name
          · have hne : some (name ++ "_body") ≠ some k := by
              rw [hk, ne_eq, Option.some.injEq]
              exact name_ne_body name
            rw [if_neg hne, if_pos hk, if_pos hk]
            rfl
          · rw [if_neg hk, if_neg hk]
            by_cases hbody : k = name ++ "_body"
            · rw [if_pos (congrArg some hbody.symm), if_pos ⟨hhttp, hbody⟩]
              rfl
            · rw [if_neg fun he => hbody (Option.some.inj he).symm, if_neg fun he => hbody he.2]
              rfl
      · rename_i hother
        rw [hset]
        by_cases hk : k = name
        · rw [if_pos hk, if_pos hk]
          rfl
        · rw [if_neg hk, if_neg hk]
          split
          · rename_i kvs hd
            rw [if_neg fun he => hother kvs he.1 hd]
            rfl
          · rfl

omit [PyText] in
/-- A frame binds other names only. -/
theorem get_bound {f : LoopFrame} {k : String} (hv : f.loopVar ≠ some k)
    (hx : f.loopIndexVar ≠ some k) (o : Outputs) :
    Dict.get (some k) (Control.bound f o) = Dict.get (some k) o := by
  unfold Control.bound
  dsimp only
  split_ifs
  · cases f.items[f.currentIndex]? with
    | none => rfl
    | some item => exact Dict.get_set_ne hv item o
  · rw [Dict.get_set_ne hx]
    cases f.items[f.currentIndex]? with
    | none => rfl
    | some item => exact Dict.get_set_ne hv item o

theorem Ev.Silent.writes {e : Ev} (he : e.Silent) (cfg : Config) (k : String) :
    cfg.writes e k = none := by
  cases e with
  | result idx r =>
    show (pyGet cfg.steps idx).bind _ = none
    cases pyGet cfg.steps idx with
    | none => rfl
    | some raw => exact if_pos (Or.inr (he.symm))
  | begin => cases he
  | waiting => rfl
  | resumed => rfl

omit [PyText] in
theorem Ev.Silent.reads {e : Ev} (he : e.Silent) : e.reads = none := by
  cases e with
  | begin => cases he
  | _ => rfl

/-- Only names of loops are touched. -/
theorem LastWriteInv.of_names (h : LastWriteInv cfg c) (ht : c'.trace = c.trace)
    (ho : ∀ k ∈ cfg.unlooped, Dict.get (some k) c'.outputs = Dict.get (some k) c.outputs)
    (hl : ∀ f ∈ c'.loopStack, ∀ k ∈ cfg.unlooped, f.loopVar ≠ some k ∧ f.loopIndexVar ≠ some k) :
    LastWriteInv cfg c' := by
  refine ⟨⟨ht ▸ h.seen, fun k hk => ?_⟩, hl⟩
  rw [ht]
  exact (ho k hk).trans (h.outputs hk)

theorem LastWriteInv.update (h : LastWriteInv cfg c) (hu : Update cfg c c') :
    LastWriteInv cfg c' := by
  cases hu with
  | same ht ho hl => exact h.of_names ht (fun k _ => by rw [ho]) (hl ▸ h.frames)
  | silent he ht ho hl =>
    refine ⟨⟨?_, fun k hk => ?_⟩, hl ▸ h.frames⟩
    · rw [ht]
      exact h.seen.append_of_none he.reads
    · rw [ht, store_of_silent _ (he.writes cfg k), ho]
      exact h.outputs hk
  | begun ht ho hl =>
    refine ⟨⟨?_, fun k hk => ?_⟩, hl ▸ h.frames⟩
    · rw [ht]
      refine h.seen.append fun o hr => ?_
      obtain rfl := Option.some.inj hr
      exact h.outputs
    · rw [ht, store_of_silent _ rfl, ho]
      exact h.outputs hk
  | @ran raw r hraw ha hr ht ho hl =>
    refine ⟨⟨?_, fun k hk => ?_⟩, hl ▸ h.frames⟩
    · rw [ht]
      exact h.seen.append_of_none rfl
    · have hw : cfg.writes (.result c.stepIdx r) k = r.leaves raw k := by
        show (pyGet cfg.steps c.stepIdx).bind _ = _
        rw [hraw]
        rfl
      show Dict.get (some k) c'.outputs = _
      rw [ho, get_captured ha hr, ht, store_append, after, hw]
      exact congrArg _ (h.outputs hk)
  | @entered raw r idx f hraw ha _ _ _ _ _ hv hx ht ho hl =>
    have hf : ∀ k ∈ cfg.unlooped, f.loopVar ≠ some k ∧ f.loopIndexVar ≠ some k := by
      intro k hk
      rw [hv, hx]
      exact hk raw (mem_of_pyGet hraw) ha
    refine h.of_names ht (fun k hk => ?_) ?_
    · rw [ho]
      exact get_bound (hf k hk).1 (hf k hk).2 _
    · rw [hl]
      exact List.forall_mem_cons.mpr ⟨hf, h.frames⟩
  | @wrapped f rest hs _ ht ho hl =>
    have hframes := h.frames
    rw [hs, List.forall_mem_cons] at hframes
    refine h.of_names ht (fun k hk => ?_) ?_
    · rw [ho]
      exact get_bound (f := f.next) (hframes.1 k hk).1 (hframes.1 k hk).2 _
    · rw [hl]
      exact List.forall_mem_cons.mpr hframes
  | left hs ht ho =>
    have hframes := h.frames
    rw [hs, List.forall_mem_cons] at hframes
    exact h.of_names ht (fun k _ => by rw [ho]) hframes.2

/-- **Main result.** Whatever the steps, pauses, retries, jumps and loops: under a name that no loop
step binds, every step that begins sees what the last result before it left there, and the outputs
hold what the last result of all left there. -/
theorem last_writes (cfg : Config) (env : Env) (σ : ℕ → RunState → Input) (n : ℕ) :
    SeesLastWrites cfg (execution cfg env σ n).toControl := by
  have hstart : LastWriteInv cfg {} :=
    ⟨⟨consistent_nil, fun _ _ => rfl⟩, List.forall_mem_nil _⟩
  have h : LastWriteInv cfg (execution cfg env σ n).toControl :=
    updates_invariant hstart
      (fun _ => ⟨⟨consistent_nil, fun _ _ => rfl⟩, List.forall_mem_nil _⟩) (fun _ _ => .update)
      env σ n
  exact h.toSeesLastWrites

end LastWrites

end ScoutEngine
