import ScoutEngine.Executor.World
import ScoutEngine.Variables
import ScoutEngine.Json

/-!
# Executing one step

`_execute_step_sync`: the twenty-one actions as programs of calls, the screenshot, and the result.

* `resolveTarget`, `selectorTargetsIframe`: iframe chains and the check of the click action.
* `conditionMet`, `conditionalData`, `loopItems`, `loopData`: the control-flow actions, which only
  compute the `output_data` that the step loop reads.
* `runAction`: the `match` over the actions; `screenshot`; `executeStep`.
* **`executeStep_output`**: a passed conditional or loop step has exactly this `output_data`.
-/

set_option autoImplicit false

namespace ScoutEngine

open Interaction

/-! ## Results -/

/-- The status of a step result. -/
inductive StepStatus where
  | passed | failed
  deriving DecidableEq, Repr

/-- Result of executing a single workflow step. -/
structure StepResult where
  stepOrder : ℕ
  stepName : String
  action : Action
  status : StepStatus
  elapsedMs : ℕ := 0
  error : Option String := none
  screenshotPath : Option String := none
  outputData : PyVal := .none

/-- How `_execute_step_sync` is called: the options shared by the steps of a run. -/
structure StepOptions where
  defaultTimeout : ℕ
  humanMode : Bool
  /-- Cleanup steps run without a monitor. -/
  hasMonitor : Bool
  screenshotDir : Option String

variable [PyText]

/-! ## Targets -/

/-- The remaining selectors of an iframe chain. -/
def resolveParts : Target → List String → StepM Target
  | target, [] => pure target
  | target, part :: parts => do
    match ← call (.selectIframe target part) with
    | .none => raise .valueError ("Iframe not found: " ++ part)
    | _ => resolveParts (target ++ [part]) parts

/-- `_resolve_target`. -/
def resolveTarget (frameContext : Option String) : StepM Target :=
  match frameContext with
  | none => pure []
  | some f => if f = "" then pure [] else resolveParts [] ((splitStr ">>>" f).map strip)

/-- The characters that `re.IGNORECASE` matches with a letter of `iframe`. -/
def matchesLetter (l c : Char) : Bool :=
  c.toLower == l || (l == 'i' && (c == '\u0130' || c == '\u0131'))

/-- `_selector_targets_iframe`. -/
def selectorTargetsIframe (selector : String) : Bool :=
  let isSep (c : Char) : Bool := PyText.isSpace c || c == '>' || c == '+' || c == '~'
  let final := ((strip selector).toList.reverse.takeWhile fun c => !isSep c).reverse
  let letters := "iframe".toList
  letters.length ≤ final.length &&
    (letters.zip final).all (fun p => matchesLetter p.1 p.2) &&
    match final.drop letters.length with
    | [] => true
    | c :: _ => c ∈ ['#', '.', '[', ':', '(']

/-! ## Keyboard, scrolling, hovering -/

/-- `_KEY_MAP`: the CDP key, code and key code of the named keys. -/
def keyMap : Dict String (String × String × ℤ) :=
  [("enter", "Enter", "Enter", 13), ("tab", "Tab", "Tab", 9), ("escape", "Escape", "Escape", 27),
    ("space", " ", "Space", 32), ("backspace", "Backspace", "Backspace", 8),
    ("delete", "Delete", "Delete", 46), ("arrowup", "ArrowUp", "ArrowUp", 38),
    ("arrowdown", "ArrowDown", "ArrowDown", 40), ("arrowleft", "ArrowLeft", "ArrowLeft", 37),
    ("arrowright", "ArrowRight", "ArrowRight", 39), ("home", "Home", "Home", 36),
    ("end", "End", "End", 35), ("pageup", "PageUp", "PageUp", 33),
    ("pagedown", "PageDown", "PageDown", 34)]

/-- One key event. -/
def keyEvent (type key code : String) (keyCode : ℤ) : Call :=
  .cdp "Input.dispatchKeyEvent" [("type", .str type), ("key", .str key), ("code", .str code),
    ("windowsVirtualKeyCode", .int keyCode)]

/-- The `press_key` action. -/
def pressKey (value : Option String) : StepM Unit := do
  match value with
  | none => raise .attributeError "'NoneType' object has no attribute 'lower'"
  | some v =>
    let (key, code, keyCode) :=
      (Dict.get (PyText.lower v) keyMap).getD (v, "Key" ++ PyText.upper v, 0)
    let _ ← call (keyEvent "keyDown" key code keyCode)
    let _ ← call (keyEvent "keyUp" key code keyCode)

/-- The `scroll` action. -/
def scroll (target : Target) (value : Option String) : StepM Unit := do
  let v := value.getD ""
  let lowered := PyText.lower (strip v)
  if lowered = "top" then
    let _ ← call (.runJs target (some "window.scrollTo(0, 0)"))
  else if lowered = "bottom" then
    let _ ← call (.runJs target (some "window.scrollTo(0, document.body.scrollHeight)"))
  else
    let amount : ℤ ←
      if v = "" ∨ lowered = "down" then pure 500
      else if lowered = "up" then pure (-500)
      else liftExcept (pyInt v)
    let _ ← call (.runJs target
      (some ("window.scrollBy(0, " ++ Json.dumps (.int amount) ++ ")")))
where
  /-- Raise what the computation raises. -/
  liftExcept {α : Type} : Except PyExc α → StepM α
    | .ok a => pure a
    | .error e => throw e

/-- The script that finds the centre of an element. -/
def hoverScript (selector : Option String) : String :=
  "const el = document.querySelector(" ++ Json.dumps (.ofStr? selector) ++
    ");if (!el) return null;const rect = el.getBoundingClientRect();" ++
    "return \x7bx: rect.x + rect.width/2, y: rect.y + rect.height/2\x7d;"

/-- An optional text inside a message. -/
def shown (text : Option String) : String := text.getD "None"

/-- `v[key]`. -/
def item (v : PyVal) (key : String) : StepM PyVal :=
  match v with
  | .dict kvs =>
    match Dict.get key kvs with
    | some w => pure w
    | none => raise .keyError (PyVal.reprStr key)
  | .str _ => raise .typeError "string indices must be integers, not 'str'"
  | .list _ => raise .typeError "list indices must be integers or slices, not str"
  | _ => raise .typeError "object is not subscriptable"

/-- The `hover` action. -/
def hover (selector : Option String) : StepM Unit := do
  let pos ← call (.runJs [] (some (hoverScript selector)))
  if pos.truthy then
    let x ← item pos "x"
    let y ← item pos "y"
    let _ ← call (.cdp "Input.dispatchMouseEvent" [("type", .str "mouseMoved"), ("x", x), ("y", y)])
  else raise .valueError ("Element not found for hover: " ++ shown selector)

/-! ## Waiting -/

/-- The `wait` action. -/
def wait (target : Target) (step : WorkflowStep) (timeout : ℕ) : StepM Unit := do
  if step.selector.getD "" ≠ "" then
    let _ ← call (.waitForElement target (step.selector.getD "") timeout)
  else if step.value.getD "" ≠ "" then
    let ms ← scroll.liftExcept (pyInt (step.value.getD ""))
    let _ ← call (.sleep ms)
  else
    let _ ← call (.sleep 1000)

/-- The monitor must be there and active. -/
def requireMonitor (o : StepOptions) (msg : String) : StepM Unit := do
  let m ← get
  if !o.hasMonitor || !m.monitoring then raise .runtimeError msg

/-- The `wait_for_download` action. -/
def waitForDownload (o : StepOptions) (timeout : ℕ) : StepM Unit := do
  requireMonitor o ("wait_for_download requires network monitoring to be active. " ++
    "Ensure a click/navigate/download-trigger step immediately precedes this step.")
  let _ ← call (.waitDownload timeout)
  let m ← get
  set m.stop
  if m.downloads.isEmpty then
    raise .timeoutError ("No download detected within " ++ toString timeout ++ "ms")

/-- The polling loop of `wait_for_response`, for the rounds that the deadline allows. -/
def pollResponse (pattern : Option String) : ℕ → StepM Bool
  | 0 => pure false
  | n + 1 => do
    let m ← get
    let found ← scroll.liftExcept (m.query pattern)
    if found.isEmpty then
      let _ ← call (.sleep 500)
      pollResponse pattern n
    else pure true

/-- The `wait_for_response` action. -/
def waitForResponse (o : StepOptions) (pattern : Option String) (timeout : ℕ) : StepM Unit := do
  requireMonitor o ("wait_for_response requires network monitoring to be active. " ++
    "Ensure a click/navigate step immediately precedes this step.")
  let rounds ← call (.pollRounds timeout)
  let found ← pollResponse pattern (match rounds with | .int n => n.toNat | _ => 0)
  modify NetworkMonitor.stop
  if !found then
    raise .timeoutError ("No response matching '" ++ shown pattern ++ "' within " ++
      toString timeout ++ "ms")

/-! ## Control flow -/

/-- The texts that count as false. -/
def falsyText (value : Option String) : Bool :=
  match value with
  | none => true
  | some v => PyText.lower v ∈ ["", "false", "null", "0"]

/-- The condition of a `conditional` step. -/
def conditionMet (step : WorkflowStep) : Except PyExc Bool :=
  let cond := if step.condition.getD "" = "" then "truthy" else step.condition.getD ""
  let val := shown step.value
  let arg := shown step.compareTo
  if cond = "truthy" then .ok !(falsyText step.value)
  else if cond = "falsy" then .ok (falsyText step.value)
  else if cond = "equals" then .ok (val = arg)
  else if cond = "contains" then .ok (containsStr arg val)
  else if cond = "matches" then (PyText.compile arg).map fun search => search val
  else .error ⟨.valueError, "Unknown condition: " ++ cond⟩

/-- `output_data` of a `conditional` step. -/
def conditionalData (step : WorkflowStep) (met : Bool) : PyVal :=
  .dict [("condition_met", .bool met), ("skip_steps", .ofInt? step.skipSteps),
    ("jump_to", .ofInt? step.jumpTo)]

/-- The items of a `loop` step: the JSON list in its value, or one item, or none. -/
def loopItems (step : WorkflowStep) : List PyVal :=
  match step.value with
  | none => []
  | some v =>
    match Json.loads v with
    | none => []
    | some (.list xs) => xs
    | some .none => []
    | some item => [item]

/-- `output_data` of a `loop` step. -/
def loopData (step : WorkflowStep) : PyVal :=
  .dict [("items", .list (loopItems step)), ("loop_var", .ofStr? step.loopVar),
    ("loop_index_var", .ofStr? step.loopIndexVar), ("loop_steps", .ofInt? step.loopSteps)]

/-! ## Secrets, uploads, HTTP, files -/

/-- The `fill_secret` action: only the number of characters is put out. -/
def fillSecret (target : Target) (step : WorkflowStep) : StepM PyVal := do
  if step.clearFirst.getD false then
    let _ ← call (.clear target step.selector)
  let _ ← call (.typeText target step.selector step.value true)
  pure (.dict [("chars_typed", .int (step.value.getD "").length)])

/-- The `upload_file` action. -/
def uploadFile (target : Target) (step : WorkflowStep) : StepM PyVal := do
  let _ ← call (.selectElement target step.selector)
  let supported ← call .uploadSupported
  if supported.truthy then
    let _ ← call (.upload step.value)
  else
    let _ ← call (.cdp "DOM.getDocument" [("depth", .int 0)])
    let nodeId ← call (.runJs []
      (some ("return document.querySelector(" ++ Json.dumps (.ofStr? step.selector) ++ ")")))
    match nodeId with
    | .none => raise .valueError ("File input not found: " ++ shown step.selector)
    | _ =>
      let path ← call (.realpath step.value)
      let _ ← call (.cdp "DOM.setFileInputFiles" [("files", .list [path]), ("objectId", nodeId)])
  pure (.dict [("file", .ofStr? step.value)])

/-- The credentials of an `auth` field `basic:user:password`. -/
def basicAuth (auth : Option String) : Option (String × String) :=
  match auth with
  | some a =>
    if "basic:".toList.isPrefixOf a.toList then
      match splitMax ':' 2 a.toList with
      | [_, user, password] => some (user, password)
      | _ => none
    else none
  | none => none

/-- The `http_request` action. -/
def httpRequest (step : WorkflowStep) : StepM PyVal := do
  let given := step.method.getD ""
  let method := PyText.upper (if given = "" then "GET" else given)
  let timeout := if step.timeoutMs.getD 0 = 0 then 30000 else step.timeoutMs.getD 0
  let _ ← call (.httpRequest method step.value (step.headers.getD []) step.body
    (basicAuth step.auth) timeout)
  let body ← tryCatch (call .respJson) fun e =>
    if e.kind = .valueError ∨ e.kind = .typeError then call (.respAttr "text") else throw e
  let status ← call (.respAttr "status_code")
  let headers ← call (.respAttr "headers")
  pure (.dict [("status_code", status), ("body", body), ("headers", headers)])

/-- A path argument that must be text. -/
def needPath (path : Option String) : StepM String :=
  match path with
  | some p => pure p
  | none => raise .typeError "expected str, bytes or os.PathLike object, not NoneType"

/-- The names in a listing, as texts. -/
def names (v : PyVal) : List String :=
  match v with
  | .list xs => xs.map PyVal.toStr
  | _ => []

/-- `file_op`'s listing: the names under `source`, as a JSON list of paths. -/
def listing (source : Option String) (entries : List String) : StepM PyVal := do
  let dir ← if entries.isEmpty then pure (source.getD "") else needPath source
  pure (.str (Json.dumps (.list (entries.map fun e => .str (Path.join dir e)))))

/-- The `file_op` action. -/
def fileOp (step : WorkflowStep) : StepM PyVal :=
  match step.operation with
  | some "mkdir" => do
    let path ← needPath step.destination
    let _ ← call (.makedirs path)
    pure (.ofStr? step.destination)
  | some "copy" => do
    let _ ← call (.copyFile step.source step.destination)
    pure (.ofStr? step.destination)
  | some "write" => do
    let path ← needPath step.destination
    let _ ← call (.makedirs (Path.dirname path))
    let _ ← call (.writeFile path (step.content.getD ""))
    pure (.ofStr? step.destination)
  | some "glob" => do
    let found ← call (.glob step.pattern step.source)
    listing step.source (names found)
  | some "list" => do
    let found ← call (.listdir step.source)
    listing step.source ((names found).mergeSort (· ≤ ·))
  | op => raise .valueError ("Unknown file_op operation: " ++ shown op)

/-! ## The step -/

/-- The `match` over the actions: what the step puts out. -/
def runAction (o : StepOptions) (step : WorkflowStep) (target : Target) : StepM PyVal := do
  let timeout := if step.timeoutMs.getD 0 = 0 then o.defaultTimeout else step.timeoutMs.getD 0
  match step.action with
  | .navigate => let _ ← call (.get step.value); pure .none
  | .navigateNewTab => let _ ← call (.openLinkInNewTab step.value); pure .none
  | .click =>
    if step.selector.getD "" ≠ "" ∧ selectorTargetsIframe (step.selector.getD "") then
      raise .valueError ("Cannot click an <iframe> directly (selector: " ++ shown step.selector ++
        "). Use frame_context to interact with iframe content.")
    else
      let _ ← call (.click target step.selector)
      pure .none
  | .type =>
    if step.clearFirst.getD false then
      let _ ← call (.clear target step.selector)
    let _ ← call (.typeText target step.selector step.value false)
    pure .none
  | .select => let _ ← call (.selectOption target step.selector step.value); pure .none
  | .scroll => scroll target step.value; pure .none
  | .wait => wait target step timeout; pure .none
  | .waitForDownload => waitForDownload o timeout; pure .none
  | .waitForResponse => waitForResponse o step.urlPattern timeout; pure .none
  | .pressKey => pressKey step.value; pure .none
  | .hover => hover step.selector; pure .none
  | .clear => let _ ← call (.clear target step.selector); pure .none
  | .runJs =>
    let ret ← call (.runJs target step.value)
    pure (if step.outputVar.getD "" ≠ "" then ret else .none)
  | .extract =>
    if step.outputVar.getD "" = "" then
      raise .valueError "extract action requires output_var field"
    else call (.runJs target step.value)
  | .conditional =>
    match conditionMet step with
    | .ok met => pure (conditionalData step met)
    | .error e => throw e
  | .loop => pure (loopData step)
  | .fillSecret => fillSecret target step
  | .uploadFile => uploadFile target step
  | .httpRequest => httpRequest step
  | .fileOp => fileOp step
  | .handoff => raise .valueError ("Unknown action: " ++ step.action.name)

/-- The three-digit order in a screenshot's name. -/
def pad3 (n : ℕ) : String :=
  String.ofList (List.replicate (3 - (toString n).length) '0') ++ toString n

/-- The screenshot after a step; a failure to take it is only logged. -/
def screenshot (o : StepOptions) (step : WorkflowStep) : StepM (Option String) :=
  match o.screenshotDir with
  | none => pure none
  | some dir => tryCatch
      (do
        let _ ← call (.makedirs dir)
        let path := Path.join dir (pad3 step.order ++ "_" ++ step.action.name ++ ".png")
        let data ← call (.cdp "Page.captureScreenshot" [("format", .str "png")])
        let _ ← call (.writePng path (match data with | .list (d :: _) => d | d => d))
        pure (some path))
      fun _ => pure none

/-- What a step leaves before its time is read: output or exception, and the screenshot. -/
def stepBody (o : StepOptions) (step : WorkflowStep) :
    StateT NetworkMonitor (Prog Call Answer) (Except PyExc PyVal × Option String) := do
  let out ← (resolveTarget step.frameContext >>= runAction o step).run
  let shot ← (screenshot o step).run
  pure (out, shot.toOption.join)

/-- The result made from what the step left. -/
def stepResult (step : WorkflowStep) (body : Except PyExc PyVal × Option String) (elapsed : ℕ) :
    StepResult :=
  { stepOrder := step.order
    stepName := step.name
    action := step.action
    status := match body.1 with | .ok _ => .passed | .error _ => .failed
    elapsedMs := elapsed
    error := match body.1 with | .ok _ => none | .error e => some e.msg
    screenshotPath := body.2
    outputData := match body.1 with | .ok v => v | .error _ => .none }

/-- **`_execute_step_sync`** against an environment: the result, the monitor and the calls. -/
def executeStep (env : Env) (o : StepOptions) (step : WorkflowStep) (m : NetworkMonitor)
    (calls : Calls) : StepResult × NetworkMonitor × Calls :=
  let r := run env.answer ((stepBody o step).run m) calls
  (stepResult step r.1.1 (env.clock r.2), r.1.2, r.2)

/-! ## What a result says about its step -/

/-- The part of a result that its step decides. -/
structure StepResult.Of (step : WorkflowStep) (r : StepResult) : Prop where
  order : r.stepOrder = step.order
  name : r.stepName = step.name
  action : r.action = step.action
  conditional : step.action = .conditional → r.status = .passed →
    ∃ met, conditionMet step = .ok met ∧ r.outputData = conditionalData step met
  loop : step.action = .loop → r.status = .passed → r.outputData = loopData step

theorem stepBody_out (env : Env) (o : StepOptions) (step : WorkflowStep) (m : NetworkMonitor)
    (calls : Calls) : (run env.answer ((stepBody o step).run m) calls).1.1.1 =
      (eval env (resolveTarget step.frameContext >>= runAction o step) m calls).1.1 := by
  unfold stepBody eval
  rw [StateT.run_bind, run_bind]
  rcases run env.answer (((resolveTarget step.frameContext >>= runAction o step).run).run m) calls
    with ⟨⟨out, m'⟩, calls'⟩
  dsimp only
  rw [StateT.run_bind, run_bind]
  rfl

theorem eval_action_ok {env : Env} {o : StepOptions} {step : WorkflowStep} {m : NetworkMonitor}
    {calls : Calls} {v : PyVal}
    (h : (eval env (resolveTarget step.frameContext >>= runAction o step) m calls).1.1 = .ok v) :
    ∃ target m' calls', (eval env (runAction o step target) m' calls').1.1 = .ok v := by
  rw [eval_bind] at h
  rcases hr : eval env (resolveTarget step.frameContext) m calls with ⟨⟨_ | target, m'⟩, calls'⟩
  · rw [hr] at h
    cases h
  · rw [hr] at h
    exact ⟨target, m', calls', h⟩

/-- **A passed conditional or loop step puts out what its fields say.** -/
theorem executeStep_output (env : Env) (o : StepOptions) (step : WorkflowStep) (m : NetworkMonitor)
    (calls : Calls) : (executeStep env o step m calls).1.Of step := by
  have hb := stepBody_out env o step m calls
  unfold executeStep
  rcases hr : run env.answer ((stepBody o step).run m) calls with ⟨⟨⟨out, shot⟩, m'⟩, calls'⟩
  rw [hr] at hb
  dsimp only at hb ⊢
  cases out with
  | error e => exact ⟨rfl, rfl, rfl, fun _ hp => (nomatch hp), fun _ hp => (nomatch hp)⟩
  | ok v =>
    obtain ⟨target, m', calls', hv⟩ := eval_action_ok hb.symm
    refine ⟨rfl, rfl, rfl, fun ha _ => ?_, fun ha _ => ?_⟩
    · unfold runAction at hv
      rw [ha] at hv
      cases hc : conditionMet step with
      | error e =>
        simp only [hc] at hv
        cases hv
      | ok met =>
        simp only [hc] at hv
        cases hv
        exact ⟨met, rfl, rfl⟩
    · unfold runAction at hv
      rw [ha] at hv
      cases hv
      rfl

end ScoutEngine
