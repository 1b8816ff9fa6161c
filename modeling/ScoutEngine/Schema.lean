import ScoutEngine.Value

/-!
# The workflow schema

* `Action`, `OnError`, `WorkflowStep`, `WorkflowSettings`, `Workflow`: the validated models. A
  positive `order` is part of the type of a step, and a timeout or delay is a natural number.
* `TextField`: the ten fields of a step in which `${...}` tokens are replaced;
  `WorkflowStep.mapText`.
-/

set_option autoImplicit false

namespace ScoutEngine

/-- The actions of a step. -/
inductive Action where
  | navigate | navigateNewTab | click | type | select | scroll | wait
  | waitForDownload | waitForResponse
  | pressKey | hover | clear | runJs | handoff
  | extract | conditional | loop | fillSecret
  | uploadFile | httpRequest | fileOp
  deriving DecidableEq, Repr

/-- The JSON name of an action. -/
def Action.name : Action → String
  | navigate => "navigate"
  | navigateNewTab => "navigate_new_tab"
  | click => "click"
  | type => "type"
  | select => "select"
  | scroll => "scroll"
  | wait => "wait"
  | waitForDownload => "wait_for_download"
  | waitForResponse => "wait_for_response"
  | pressKey => "press_key"
  | hover => "hover"
  | clear => "clear"
  | runJs => "run_js"
  | handoff => "handoff"
  | extract => "extract"
  | conditional => "conditional"
  | loop => "loop"
  | fillSecret => "fill_secret"
  | uploadFile => "upload_file"
  | httpRequest => "http_request"
  | fileOp => "file_op"

/-- What to do when a step fails. -/
inductive OnError where
  | stop | continue | retry
  deriving DecidableEq, Repr

/-- A single step in a workflow sequence. -/
structure WorkflowStep where
  order : ℕ
  name : String
  action : Action
  selector : Option String := none
  value : Option String := none
  frameContext : Option String := none
  onError : Option OnError := none
  timeoutMs : Option ℕ := none
  clearFirst : Option Bool := none
  urlPattern : Option String := none
  method : Option String := none
  outputVar : Option String := none
  condition : Option String := none
  compareTo : Option String := none
  skipSteps : Option ℤ := none
  jumpTo : Option ℤ := none
  loopVar : Option String := none
  loopIndexVar : Option String := none
  loopSteps : Option ℤ := none
  operation : Option String := none
  source : Option String := none
  destination : Option String := none
  content : Option String := none
  pattern : Option String := none
  headers : Option (Dict String String) := none
  body : Option String := none
  auth : Option String := none
  order_pos : 1 ≤ order := by decide
  deriving DecidableEq

theorem WorkflowStep.order_one : 1 ≤ 1 := le_rfl

theorem WorkflowStep.order_two : 1 ≤ 2 := Nat.le_succ 1

theorem WorkflowStep.order_three : 1 ≤ 3 := Nat.le_add_left 1 2

theorem WorkflowStep.order_four : 1 ≤ 4 := Nat.le_add_left 1 3

/-- Global execution settings for a workflow. -/
structure WorkflowSettings where
  headless : Bool := false
  humanMode : Bool := true
  defaultTimeoutMs : ℕ := 30000
  stepDelayMs : ℕ := 500
  onError : OnError := .stop
  pauseOnError : Bool := false
  deriving DecidableEq

/-- A workflow, as the executor reads it. -/
structure Workflow where
  settings : WorkflowSettings := {}
  steps : List WorkflowStep := []
  cleanupSteps : List WorkflowStep := []

/-- The fields of a step that take part in interpolation. -/
inductive TextField where
  | selector | value | urlPattern | auth | source | destination | content | body | compareTo
  | pattern
  deriving DecidableEq

/-- The JSON name of an interpolated field. -/
def TextField.name : TextField → String
  | selector => "selector"
  | value => "value"
  | urlPattern => "url_pattern"
  | auth => "auth"
  | source => "source"
  | destination => "destination"
  | content => "content"
  | body => "body"
  | compareTo => "compare_to"
  | pattern => "pattern"

namespace WorkflowStep

/-- The text of an interpolated field. -/
def text (s : WorkflowStep) : TextField → Option String
  | .selector => s.selector
  | .value => s.value
  | .urlPattern => s.urlPattern
  | .auth => s.auth
  | .source => s.source
  | .destination => s.destination
  | .content => s.content
  | .body => s.body
  | .compareTo => s.compareTo
  | .pattern => s.pattern

/-- Rewrite the text of every interpolated field that is present. -/
def mapText (f : String → String) (s : WorkflowStep) : WorkflowStep :=
  { s with
    selector := s.selector.map f
    value := s.value.map f
    urlPattern := s.urlPattern.map f
    auth := s.auth.map f
    source := s.source.map f
    destination := s.destination.map f
    content := s.content.map f
    body := s.body.map f
    compareTo := s.compareTo.map f
    pattern := s.pattern.map f }

theorem text_mapText (f : String → String) (s : WorkflowStep) (k : TextField) :
    (s.mapText f).text k = (s.text k).map f := by
  cases k <;> rfl

end WorkflowStep

end ScoutEngine
