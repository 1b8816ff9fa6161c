import ScoutEngine.NetworkMonitor
import ScoutEngine.Schema
import ScoutEngine.Lib.Interaction
import Mathlib.Control.Monad.Basic

/-!
# The outside world of the executor

Everything a run does to the browser, the HTTP client and the file system is a `Call`; the world
answers it with a value or an exception, and with the network messages that the monitor's
callbacks received meanwhile.

* `Call`, `Answer`, `Env`: the calls, their answers, and what gives them.
* `StepM`: programs of calls that may raise and that change the network monitor; `call`, `eval`,
  `eval_bind`.
* `Path`: `os.path.join` and `os.path.dirname`.
-/

set_option autoImplicit false

namespace ScoutEngine

open Interaction

/-- The driver (`[]`), or the iframe reached from it through a chain of selectors. -/
abbrev Target := List String

/-- A call to the browser, the HTTP client, the file system or the clock. -/
inductive Call where
  | createDriver (headless : Bool)
  | enableHumanMode
  | closeDriver
  | browserAttr (name : String)
  | selectIframe (target : Target) (selector : String)
  | get (url : Option String)
  | openLinkInNewTab (url : Option String)
  | click (target : Target) (selector : Option String)
  | clear (target : Target) (selector : Option String)
  /-- `secret` records that a `fill_secret` step types the text. -/
  | typeText (target : Target) (selector text : Option String) (secret : Bool)
  | selectOption (target : Target) (selector value : Option String)
  | runJs (target : Target) (script : Option String)
  | waitForElement (target : Target) (selector : String) (timeoutMs : ℕ)
  | selectElement (target : Target) (selector : Option String)
  | uploadSupported
  | upload (file : Option String)
  | cdp (command : String) (params : List (String × PyVal))
  | beforeRequestSent
  | afterResponseReceived
  | sleep (ms : ℤ)
  /-- How often the polling loop of `wait_for_response` runs before its deadline. -/
  | pollRounds (timeoutMs : ℕ)
  | waitDownload (timeoutMs : ℕ)
  | httpRequest (method : String) (url : Option String) (headers : Dict String String)
      (body : Option String) (auth : Option (String × String)) (timeoutMs : ℕ)
  | respJson
  | respAttr (name : String)
  | makedirs (path : String)
  | copyFile (source destination : Option String)
  | writeFile (path content : String)
  | glob (pattern root : Option String)
  | listdir (path : Option String)
  | realpath (path : Option String)
  | writePng (path : String) (data : PyVal)
  | onStepComplete (order : ℕ) (passed : Bool)

/-- What a call returns or raises, and the network messages that arrived during it. -/
structure Answer where
  result : Except PyExc PyVal
  delivered : List NetMsg := []

/-- The calls made so far with their answers. -/
abbrev Calls := History Call Answer

/-- **The environment of a run**: the answers to the calls, and the clock. -/
structure Env where
  answer : Oracle Call Answer
  /-- Elapsed or monotonic time, read after the given calls. -/
  clock : Calls → ℕ

/-- Programs of calls that may raise; the monitor keeps its state when they do. -/
abbrev StepM := ExceptT PyExc (StateT NetworkMonitor (Prog Call Answer))

section

variable [PyText]

/-- Make one call. -/
def call (c : Call) : StepM PyVal :=
  ExceptT.mk fun m => Prog.ask c fun a =>
    .ret (a.result, a.delivered.foldl NetworkMonitor.receive m)

end

/-- Run a program of calls: what it returns or raises, the monitor and the calls. -/
def eval {α : Type} (env : Env) (p : StepM α) (m : NetworkMonitor) (calls : Calls) :
    (Except PyExc α × NetworkMonitor) × Calls :=
  run env.answer (p.run.run m) calls

/-- An exception ends a program; otherwise the rest runs where the first part stopped. -/
theorem eval_bind {α β : Type} (env : Env) (p : StepM α) (f : α → StepM β) (m : NetworkMonitor)
    (calls : Calls) : eval env (p >>= f) m calls =
      match eval env p m calls with
      | ((.ok a, m'), calls') => eval env (f a) m' calls'
      | ((.error e, m'), calls') => ((.error e, m'), calls') := by
  unfold eval
  rw [ExceptT.run_bind, StateT.run_bind, run_bind]
  rcases run env.answer (p.run.run m) calls with ⟨⟨_ | a, m'⟩, calls'⟩
  · rfl
  · rfl

/-- A handler runs where the program raised. -/
theorem eval_tryCatch {α : Type} (env : Env) (p : StepM α) (f : PyExc → StepM α)
    (m : NetworkMonitor) (calls : Calls) : eval env (tryCatch p f) m calls =
      match eval env p m calls with
      | ((.ok a, m'), calls') => ((.ok a, m'), calls')
      | ((.error e, m'), calls') => eval env (f e) m' calls' := by
  change run env.answer ((p.run.run m) >>= _) calls = _
  rw [run_bind]
  unfold eval
  rcases run env.answer (p.run.run m) calls with ⟨⟨_ | a, m'⟩, calls'⟩
  · rfl
  · rfl

/-- To read the monitor is no call. -/
theorem eval_get {α : Type} (env : Env) (f : NetworkMonitor → StepM α) (m : NetworkMonitor)
    (calls : Calls) : eval env (get >>= f) m calls = eval env (f m) m calls := rfl

/-- Raise an exception. -/
def raise {α : Type} (kind : ExcKind) (msg : String) : StepM α := throw ⟨kind, msg⟩

/-! ## Paths -/

namespace Path

/-- `os.path.join(a, b)`. -/
def join (a b : String) : String :=
  if b.toList.head? = some '/' then b
  else if a = "" ∨ a.toList.getLast? = some '/' then a ++ b
  else a ++ "/" ++ b

/-- `os.path.dirname(path)`. -/
def dirname (path : String) : String :=
  let head := (path.toList.reverse.dropWhile (· ≠ '/')).reverse
  if head.all (· = '/') then String.ofList head
  else String.ofList (head.reverse.dropWhile (· = '/')).reverse

end Path

end ScoutEngine
