import ScoutEngine.Executor.Step
import ScoutEngine.BrowserSession
import Mathlib.Data.Finset.Insert

/-!
# The variables of the step loop

What `_run_sync` keeps between the steps of a run, and how its statements change it. Nothing here
touches the outside world.

* `Control`: the local variables, the runtime context, the pause in effect and how the loop ended.
  `trace` records the steps begun, the results and the pauses; the program does not read it.
* `applyResume`, `goto`: resume instructions.
* `Control.capture`, `Control.branch`, `Control.startLoop`, `Control.checkLoop`, `Control.advance`:
  what happens after a step; `advance_eq`, `goto_cases`, and a lemma
  a field: what they leave alone.
-/

set_option autoImplicit false

namespace ScoutEngine

/-! ## Pauses and resume instructions -/

/-- The actions of a resume instruction. -/
inductive ResumeAction where
  | retry | continue | abort | jump
  | other (name : String)
  deriving DecidableEq

/-- Instruction sent to a paused executor thread. -/
structure ResumeInstruction where
  action : ResumeAction
  /-- Whatever the request body carried; only `jump` reads it. -/
  stepIndex : PyVal := .none

/-- Why the executor waits. -/
inductive PauseKind where
  | requested | handoff | error
  deriving DecidableEq, Repr

/-- The session state of a pause. -/
def PauseKind.state : PauseKind → SessionState
  | requested => .pausedRequested
  | handoff => .pausedHandoff
  | error => .pausedError

/-- A call of `_wait_for_resume`. -/
structure Pause where
  kind : PauseKind
  step : WorkflowStep
  reason : Option String := none
  error : Option String := none

/-- What the registry shows about a pause. -/
def Pause.info (p : Pause) : PausedStepInfo :=
  { stepOrder := p.step.order
    stepName := p.step.name
    action := p.step.action.name
    reason := p.reason
    error := p.error }

/-- The new index of `_apply_resume`; `None` for an abort, and whatever a `jump` carries. -/
def applyResume (instruction : ResumeInstruction) (currentIdx : ℤ) : PyVal :=
  match instruction.action with
  | .retry => .int currentIdx
  | .continue => .int (currentIdx + 1)
  | .abort => .none
  | .jump => instruction.stepIndex
  | .other _ => .int (currentIdx + 1)

/-! ## The variables -/

/-- State for a single loop iteration. -/
structure LoopFrame where
  items : List PyVal
  currentIndex : ℕ
  loopVar : Option String
  loopIndexVar : Option String
  bodyStart : ℤ
  bodyEnd : ℤ

/-- The frame at its next item. -/
def LoopFrame.next (f : LoopFrame) : LoopFrame := { f with currentIndex := f.currentIndex + 1 }

/-- What a run records. -/
inductive Ev where
  /-- A main step begins, with these outputs to interpolate. -/
  | begin (idx : ℤ) (outputs : Outputs)
  | result (idx : ℤ) (r : StepResult)
  | waiting (idx : ℤ) (kind : PauseKind)
  | resumed (idx : ℤ) (kind : PauseKind) (instruction : ResumeInstruction)

/-- How the step loop was left. -/
inductive Halt where
  /-- The index ran past the last step. -/
  | finished
  /-- The `on_error` policy stopped the run. -/
  | stopped
  | cancelled
  /-- An exception left the step loop. -/
  | raised (e : PyExc)
  /-- The set-up raised, before the step loop was entered. -/
  | notStarted (e : PyExc)
  deriving DecidableEq

/-- **The variables of a run.** The top of the loop stack is its head. -/
structure Control where
  stepIdx : ℤ := 0
  /-- `_retrying_after_pause`. -/
  retrying : Bool := false
  /-- `_paused_step_indices`. -/
  paused : Finset ℤ := ∅
  results : List StepResult := []
  passed : ℤ := 0
  failed : ℤ := 0
  outputs : Outputs := []
  loopStack : List LoopFrame := []
  waiting : Option Pause := none
  halt : Option Halt := none
  trace : List Ev := []

/-- `xs[i]` with a negative index counted from the end. -/
def pyGet {α : Type} (xs : List α) (i : ℤ) : Option α :=
  if 0 ≤ i then xs[i.toNat]? else if -i ≤ xs.length then xs[xs.length - (-i).toNat]? else none

/-- The list index that a value stands for. -/
def PyVal.index : PyVal → Option ℤ
  | .int i => some i
  | .bool b => some (if b then 1 else 0)
  | _ => .none

/-- The name of a value's class. -/
def PyVal.className : PyVal → String
  | .none => "NoneType"
  | .bool _ => "bool"
  | .int _ => "int"
  | .float _ => "float"
  | .str _ => "str"
  | .list _ => "list"
  | .dict _ => "dict"

namespace Control

/-- Record an event. -/
def log (e : Ev) (c : Control) : Control := { c with trace := c.trace ++ [e] }

/-- A main step begins. -/
def begun (c : Control) : Control := c.log (.begin c.stepIdx c.outputs)

/-- A pause takes effect. -/
def waitFor (p : Pause) (c : Control) : Control :=
  ({ c with waiting := some p }).log (.waiting c.stepIdx p.kind)

/-- A pause is over. -/
def woken (p : Pause) (instruction : ResumeInstruction) (c : Control) : Control :=
  ({ c with waiting := none }).log (.resumed c.stepIdx p.kind instruction)

/-- Remember whether a failed step is retried. -/
def setRetrying (instruction : ResumeInstruction) (c : Control) : Control :=
  { c with retrying := instruction.action = .retry }

/-- Leave the step loop. -/
def stop (h : Halt) (c : Control) : Control := { c with halt := some h }

/-- Leave the step loop by an exception. -/
def raised (kind : ExcKind) (msg : String) : Control → Control := stop (.raised ⟨kind, msg⟩)

/-- `step_idx = i`. -/
def setIdx (i : ℤ) (c : Control) : Control := { c with stepIdx := i }

/-- `step_idx = v`, and the test and the indexing of the loop head when `v` is no integer;
`None` was turned into a cancellation before. -/
def goto (stepCount : ℕ) (v : PyVal) (c : Control) : Control :=
  match v with
  | .none => c.stop .cancelled
  | .int i => c.setIdx i
  | .bool b => c.setIdx (if b then 1 else 0)
  | .float f =>
    if f.ltInt stepCount then
      c.raised .typeError "list indices must be integers or slices, not float"
    else c.stop .finished
  | v => c.raised .typeError
      ("'<' not supported between instances of '" ++ v.className ++ "' and 'int'")

/-- Append a result. -/
def record (r : StepResult) (c : Control) : Control :=
  ({ c with results := c.results ++ [r] }).log (.result c.stepIdx r)

/-- Append the result of a handoff step and count it. -/
def passHandoff (r : StepResult) (c : Control) : Control :=
  { c.record r with passed := c.passed + 1 }

section Capture

variable [PyText]

/-- The text stored under `{output_var}_body`. -/
def bodyText (body : PyVal) : String :=
  match body with
  | .dict _ | .list _ => Json.dumps body
  | v => v.toStr

/-- The outputs after the capture of `output_var`. -/
def captured (step : WorkflowStep) (r : StepResult) (o : Outputs) : Outputs :=
  let name := step.outputVar.getD ""
  if name = "" ∨ r.status = .failed then o
  else
    let o := Dict.set (some name) r.outputData o
    match step.action, r.outputData with
    | .httpRequest, .dict kvs =>
      match Dict.get "body" kvs with
      | some body => Dict.set (some (name ++ "_body")) (.str (bodyText body)) o
      | none => o
    | _, _ => o

/-- The capture of `output_var`. -/
def capture (step : WorkflowStep) (r : StepResult) (c : Control) : Control :=
  { c with outputs := captured step r c.outputs }

end Capture

/-! ## After a step -/

/-- The accounting of a passed step: a pending retry takes back the counted failure. -/
def countPass (c : Control) : Control :=
  { c with
    passed := c.passed + 1
    failed := if c.retrying then c.failed - 1 else c.failed
    retrying := false }

/-- The accounting of a failed step. -/
def countFail (c : Control) : Control := { c with retrying := false, failed := c.failed + 1 }

/-- The integer under a key of `output_data`. -/
def intKey (od : PyVal) (key : String) : ℤ :=
  match od.getKey key with
  | .int i => i
  | _ => 0

/-- The text under a key of `output_data`. -/
def strKey (od : PyVal) (key : String) : Option String :=
  match od.getKey key with
  | .str s => some s
  | _ => none

/-- The list under a key of `output_data`. -/
def listKey (od : PyVal) (key : String) : List PyVal :=
  match od.getKey key with
  | .list xs => xs
  | _ => []

/-- The conditional skip or jump. -/
def branch (step : WorkflowStep) (r : StepResult) (c : Control) : Control :=
  let od := r.outputData
  if step.action = .conditional ∧ r.status = .passed ∧ od.truthy ∧
      (od.getKey "condition_met").truthy then
    if (od.getKey "skip_steps").truthy then
      { c with stepIdx := c.stepIdx + intKey od "skip_steps" }
    else
      match od.getKey "jump_to" with
      | .none => c
      | _ => { c with stepIdx := intKey od "jump_to" - 1 }
  else c

/-- The outputs once the variables of a frame hold its current item. -/
def bound (f : LoopFrame) (o : Outputs) : Outputs :=
  let o := match f.items[f.currentIndex]? with
    | some item => Dict.set f.loopVar item o
    | none => o
  if f.loopIndexVar.getD "" = "" then o else Dict.set f.loopIndexVar (.int f.currentIndex) o

/-- Bind the variables of a frame to its current item. -/
def bindItem (f : LoopFrame) (c : Control) : Control := { c with outputs := bound f c.outputs }

/-- Push a frame and bind its first item. -/
def push (f : LoopFrame) (c : Control) : Control :=
  ({ c with loopStack := f :: c.loopStack }).bindItem f

/-- Loop initiation: an empty list skips the body, any other pushes a frame. -/
def startLoop (step : WorkflowStep) (r : StepResult) (c : Control) : Control :=
  let od := r.outputData
  if step.action = .loop ∧ r.status = .passed ∧ od.truthy then
    let loopSteps := intKey od "loop_steps"
    let items := listKey od "items"
    if items.isEmpty then { c with stepIdx := c.stepIdx + loopSteps }
    else
      let f : LoopFrame :=
        { items := items
          currentIndex := 0
          loopVar := strKey od "loop_var"
          loopIndexVar := strKey od "loop_index_var"
          bodyStart := c.stepIdx + 1
          bodyEnd := c.stepIdx + loopSteps }
      c.push f
  else c

/-- The iteration check of the top frame. -/
def checkLoop (step : WorkflowStep) (c : Control) : Control :=
  match c.loopStack with
  | [] => c
  | f :: rest =>
    if step.action ≠ .loop ∧ c.stepIdx = f.bodyEnd then
      if f.next.currentIndex < f.items.length then
        ({ c with loopStack := f.next :: rest, stepIdx := f.bodyStart - 1 }).bindItem f.next
      else { c with loopStack := rest }
    else c

/-- **From a counted step to the next loop head.** -/
def advance (step : WorkflowStep) (r : StepResult) (c : Control) : Control :=
  let c := ((c.branch step r).startLoop step r).checkLoop step
  { c with stepIdx := c.stepIdx + 1 }

/-! ## What the pieces leave alone -/

/-- A jump sets the index, or it leaves the loop. -/
theorem goto_cases (n : ℕ) (v : PyVal) (c : Control) :
    (∃ i, v.index = some i ∧ c.goto n v = c.setIdx i) ∨
      v.index = none ∧ ∃ h, c.goto n v = c.stop h ∧ h ≠ .stopped := by
  cases v with
  | int i => exact Or.inl ⟨i, rfl, rfl⟩
  | bool b => exact Or.inl ⟨_, rfl, rfl⟩
  | float f =>
    refine Or.inr ⟨rfl, ?_⟩
    unfold goto
    by_cases hf : f.ltInt n
    · simp only [if_pos hf]
      exact ⟨_, rfl, nofun⟩
    · simp only [if_neg hf]
      exact ⟨_, rfl, nofun⟩
  | none => exact Or.inr ⟨rfl, _, rfl, nofun⟩
  | str s => exact Or.inr ⟨rfl, _, rfl, nofun⟩
  | list xs => exact Or.inr ⟨rfl, _, rfl, nofun⟩
  | dict kvs => exact Or.inr ⟨rfl, _, rfl, nofun⟩

theorem goto_eq (n : ℕ) (v : PyVal) (c : Control) :
    ∃ i k, c.goto n v = { c with stepIdx := i, halt := k } := by
  rcases goto_cases n v c with ⟨i, -, h⟩ | ⟨-, k, h, -⟩
  · exact ⟨_, _, h⟩
  · exact ⟨_, _, h⟩

theorem branch_eq (step : WorkflowStep) (r : StepResult) (c : Control) :
    ∃ i, c.branch step r = c.setIdx i := by
  unfold branch
  dsimp only
  split_ifs
  · exact ⟨_, rfl⟩
  · split
    · exact ⟨_, rfl⟩
    · exact ⟨_, rfl⟩
  · exact ⟨_, rfl⟩

theorem startLoop_eq (step : WorkflowStep) (r : StepResult) (c : Control) :
    ∃ i l o, c.startLoop step r = { c with stepIdx := i, loopStack := l, outputs := o } := by
  unfold startLoop
  dsimp only
  split_ifs
  · exact ⟨_, _, _, rfl⟩
  · exact ⟨_, _, _, rfl⟩
  · exact ⟨_, _, _, rfl⟩

theorem checkLoop_eq (step : WorkflowStep) (c : Control) :
    ∃ i l o, c.checkLoop step = { c with stepIdx := i, loopStack := l, outputs := o } := by
  unfold checkLoop
  cases c.loopStack with
  | nil => exact ⟨_, _, _, rfl⟩
  | cons f rest =>
    dsimp only
    split_ifs
    · exact ⟨_, _, _, rfl⟩
    · exact ⟨_, _, _, rfl⟩
    · exact ⟨_, _, _, rfl⟩

/-- **Going on changes the index, the loop stack and the outputs only.** -/
theorem advance_eq (step : WorkflowStep) (r : StepResult) (c : Control) :
    ∃ i l o, c.advance step r = { c with stepIdx := i, loopStack := l, outputs := o } := by
  unfold advance
  obtain ⟨i₁, h₁⟩ := branch_eq step r c
  rw [h₁]
  obtain ⟨i₂, l₂, o₂, h₂⟩ := startLoop_eq step r (c.setIdx i₁)
  rw [h₂]
  obtain ⟨i₃, l₃, o₃, h₃⟩ := checkLoop_eq step
    { c.setIdx i₁ with stepIdx := i₂, loopStack := l₂, outputs := o₂ }
  rw [h₃]
  exact ⟨_, _, _, rfl⟩

/-! ### Field by field -/

@[simp] theorem goto_retrying (n : ℕ) (v : PyVal) (c : Control) :
    (c.goto n v).retrying = c.retrying := by
  obtain ⟨i, k, h⟩ := goto_eq n v c
  rw [h]

@[simp] theorem goto_results (n : ℕ) (v : PyVal) (c : Control) :
    (c.goto n v).results = c.results := by
  obtain ⟨i, k, h⟩ := goto_eq n v c
  rw [h]

@[simp] theorem goto_passed (n : ℕ) (v : PyVal) (c : Control) :
    (c.goto n v).passed = c.passed := by
  obtain ⟨i, k, h⟩ := goto_eq n v c
  rw [h]

@[simp] theorem goto_failed (n : ℕ) (v : PyVal) (c : Control) :
    (c.goto n v).failed = c.failed := by
  obtain ⟨i, k, h⟩ := goto_eq n v c
  rw [h]

@[simp] theorem goto_outputs (n : ℕ) (v : PyVal) (c : Control) :
    (c.goto n v).outputs = c.outputs := by
  obtain ⟨i, k, h⟩ := goto_eq n v c
  rw [h]

@[simp] theorem goto_loopStack (n : ℕ) (v : PyVal) (c : Control) :
    (c.goto n v).loopStack = c.loopStack := by
  obtain ⟨i, k, h⟩ := goto_eq n v c
  rw [h]

@[simp] theorem goto_waiting (n : ℕ) (v : PyVal) (c : Control) :
    (c.goto n v).waiting = c.waiting := by
  obtain ⟨i, k, h⟩ := goto_eq n v c
  rw [h]

@[simp] theorem goto_trace (n : ℕ) (v : PyVal) (c : Control) :
    (c.goto n v).trace = c.trace := by
  obtain ⟨i, k, h⟩ := goto_eq n v c
  rw [h]

@[simp] theorem advance_retrying (step : WorkflowStep) (r : StepResult) (c : Control) :
    (c.advance step r).retrying = c.retrying := by
  obtain ⟨i, l, o, h⟩ := advance_eq step r c
  rw [h]

@[simp] theorem advance_results (step : WorkflowStep) (r : StepResult) (c : Control) :
    (c.advance step r).results = c.results := by
  obtain ⟨i, l, o, h⟩ := advance_eq step r c
  rw [h]

@[simp] theorem advance_passed (step : WorkflowStep) (r : StepResult) (c : Control) :
    (c.advance step r).passed = c.passed := by
  obtain ⟨i, l, o, h⟩ := advance_eq step r c
  rw [h]

@[simp] theorem advance_failed (step : WorkflowStep) (r : StepResult) (c : Control) :
    (c.advance step r).failed = c.failed := by
  obtain ⟨i, l, o, h⟩ := advance_eq step r c
  rw [h]

@[simp] theorem advance_waiting (step : WorkflowStep) (r : StepResult) (c : Control) :
    (c.advance step r).waiting = c.waiting := by
  obtain ⟨i, l, o, h⟩ := advance_eq step r c
  rw [h]

@[simp] theorem advance_halt (step : WorkflowStep) (r : StepResult) (c : Control) :
    (c.advance step r).halt = c.halt := by
  obtain ⟨i, l, o, h⟩ := advance_eq step r c
  rw [h]

@[simp] theorem advance_trace (step : WorkflowStep) (r : StepResult) (c : Control) :
    (c.advance step r).trace = c.trace := by
  obtain ⟨i, l, o, h⟩ := advance_eq step r c
  rw [h]

end Control

end ScoutEngine
