import ScoutEngine.Schedules.Start
import ScoutEngine.Json.Limits

/-!
# The body of a run request

`POST /api/workflows/{id}/run` reads an optional JSON body. What the JSON reader or its model refuses
is passed over, and the run is started with defaults.

* `RunWorkflowRequest`, `readBody`, **`submitRun`**: the request with its body. `model_validate` is
  not part of the repository and a parameter; `ReadsFields` is what it documents.
* `Gives`: what a JSON document gives; `Faithful`: the run that is started uses exactly that.
* **`faithful_iff`**; `parameters_dropped`: a number among the variables.
-/

set_option autoImplicit false

namespace ScoutEngine

/-! ## Bodies -/

/-- Optional request body for POST /api/workflows/{id}/run. -/
structure RunWorkflowRequest where
  vars : Dict String String := []
  callbackUrl : Option String := none
  deriving DecidableEq

/-- `RunWorkflowRequest.model_validate`. -/
abbrev RequestValidator := PyVal → Except PyExc RunWorkflowRequest

/-- A JSON object of texts. -/
def PyVal.textMap : PyVal → Option (Dict String String)
  | .dict kvs => kvs.mapM fun p => match p.2 with
    | .str v => some (p.1, v)
    | _ => Option.none
  | _ => Option.none

/-- The `variables` of an object: a map from texts to texts, or nothing. -/
def GivesVars (kvs : Dict String PyVal) (vars : Dict String String) : Prop :=
  Dict.get "variables" kvs = none ∧ vars = [] ∨
    ∃ v, Dict.get "variables" kvs = some v ∧ v.textMap = some vars

/-- The `callback_url` of an object: a text, null or nothing. -/
def GivesUrl (kvs : Dict String PyVal) (url : Option String) : Prop :=
  (Dict.get "callback_url" kvs = none ∨ Dict.get "callback_url" kvs = some .none) ∧ url = none ∨
    ∃ s, Dict.get "callback_url" kvs = some (.str s) ∧ url = some s

/-- An object whose fields have their types. -/
inductive HasFields : PyVal → RunWorkflowRequest → Prop where
  | mk {kvs : Dict String PyVal} {vars : Dict String String} {url : Option String}
      (hvars : GivesVars kvs vars) (hurl : GivesUrl kvs url) : HasFields (.dict kvs) ⟨vars, url⟩

/-- **The validation of a model with two optional fields**: it reads the fields of an object, passes
over all others, converts no number to a text, and raises for everything else. -/
structure ReadsFields (validate : RequestValidator) : Prop where
  accepts : ∀ raw r, HasFields raw r → validate raw = .ok r
  refuses : ∀ raw, (¬ ∃ r, HasFields raw r) → ∃ e, validate raw = .error e

/-- **What a JSON document gives**: the fields of an object, and nothing if it is empty (null, false,
zero, or an empty text, list or object). -/
inductive Gives : PyVal → RunWorkflowRequest → Prop where
  | nothing {raw : PyVal} (h : raw.truthy = false) : Gives raw {}
  | fields {raw : PyVal} {r : RunWorkflowRequest} (h : HasFields raw r) : Gives raw r

/-! ## Requests -/

section Requests

variable [PyText]

/-- The body that `run_workflow` goes on with; what is no JSON, what the interpreter cannot read and
what is refused is passed over. -/
def readBody (limits : Json.Limits) (validate : RequestValidator) (text : String) :
    RunWorkflowRequest :=
  match Json.read limits text with
  | none => {}
  | some raw =>
    if raw.truthy then
      match validate raw with
      | .ok body => body
      | .error _ => {}
    else {}

/-- The new row and its background task. -/
structure Submission where
  launch : Launch
  callbackUrl : Option String

/-- **`run_workflow`**: it raises before the row is created, or launches the run. -/
def submitRun (limits : Json.Limits) (validateBody : RequestValidator) (validate : Validator)
    (db : FragmentStore) (record : Option StoredJson) (text : String) : Except String Submission :=
  let body := readBody limits validateBody text
  match runWorkflow validate db record body.vars with
  | .launched launch => .ok { launch := launch, callbackUrl := body.callbackUrl }
  | .rejected detail | .stranded _ detail => .error detail
  | .skipped => .error "Workflow not found"

/-- **The run uses exactly what the body gives**, if it is started. -/
def Faithful (raw : PyVal) : Except String Submission → Prop
  | .error _ => True
  | .ok submission => ∃ r, Gives raw r ∧ submission.launch.overrides.getD [] = r.vars ∧
      (∀ env, resolveVariables env submission.launch.workflow submission.launch.overrides =
        resolveVariables env submission.launch.workflow (some r.vars)) ∧
      submission.callbackUrl = r.callbackUrl

variable {limits : Json.Limits} {validateBody : RequestValidator} {validate : Validator}
  {db : FragmentStore} {doc : StoredJson} {text : String} {raw : PyVal} {r : RunWorkflowRequest}

omit [PyText] in
/-- An empty object gives nothing. -/
theorem HasFields.of_empty (h : HasFields raw r) (hraw : raw.truthy = false) : r = {} := by
  cases h with
  | @mk kvs vars url hvars hurl =>
    obtain rfl : kvs = [] := by simpa [PyVal.truthy] using hraw
    have hnone : ∀ k, Dict.get k ([] : Dict String PyVal) = none := fun _ => rfl
    obtain rfl : vars = [] := by simpa [GivesVars, hnone] using hvars
    obtain rfl : url = none := by simpa [GivesUrl, hnone] using hurl
    rfl

omit [PyText] in
/-- **What a body gives is read**, within the limits of the reader. -/
theorem readBody_of_gives (hval : ReadsFields validateBody) (hraw : Json.loads text = some raw)
    (h : Gives raw r) (hr : Json.Within limits text ∨ r = {}) :
    readBody limits validateBody text = r := by
  unfold readBody
  by_cases hw : Json.Within limits text
  · rw [Json.read_eq_some.mpr ⟨hw, hraw⟩]
    dsimp only
    cases h with
    | nothing h => rw [if_neg (ne_true_of_eq_false h)]
    | fields h =>
      split_ifs with ht
      · rw [hval.accepts raw r h]
      · exact (h.of_empty (Bool.eq_false_iff.mpr ht)).symm
  · rw [Json.read, if_neg hw]
    exact (hr.resolve_left hw).symm

omit [PyText] in
/-- A body that the interpreter cannot read gives nothing. -/
theorem readBody_of_not_within (hw : ¬ Json.Within limits text) :
    readBody limits validateBody text = {} := by
  rw [readBody, Json.read, if_neg hw]

/-- **A request is refused or its run uses exactly what the body gives**, for every JSON document,
iff the workflow cannot be expanded, or the document is empty or an object with well-formed fields
and, unless it gives nothing, within the limits of the reader. -/
theorem faithful_iff (hval : ReadsFields validateBody) (hraw : Json.loads text = some raw) :
    Faithful raw (submitRun limits validateBody validate db (some doc) text) ↔
      (Expandable validate db doc →
        ∃ r, Gives raw r ∧ (Json.Within limits text ∨ r = {})) := by
  unfold submitRun
  dsimp only
  rcases runWorkflow_cases validate db doc (readBody limits validateBody text).vars with
    ⟨out, workflow, hout, hw, hrun⟩ | ⟨hno, detail, hrun⟩
  · rw [hrun]
    constructor
    · rintro ⟨r, hr, hvars, -, hurl⟩ -
      refine ⟨r, hr, or_iff_not_imp_left.mpr fun hwithin => ?_⟩
      rw [readBody_of_not_within hwithin] at hvars hurl
      obtain ⟨vars, url⟩ := r
      exact congrArg₂ RunWorkflowRequest.mk hvars.symm hurl.symm
    · intro h
      obtain ⟨r, hr, hlim⟩ := h ⟨out, workflow, hout, hw⟩
      have hbody := readBody_of_gives hval hraw hr hlim
      have hover : (if (readBody limits validateBody text).vars = [] then none
          else some (readBody limits validateBody text).vars).getD [] = r.vars := by
        rw [hbody]
        split_ifs with hnil
        · exact hnil.symm
        · rfl
      refine ⟨r, hr, hover, fun env => ?_, congrArg RunWorkflowRequest.callbackUrl hbody⟩
      unfold resolveVariables
      rw [hover]
      rfl
  · rw [hrun]
    exact iff_of_true trivial fun h => absurd h hno

end Requests

/-! ## A number among the variables -/

section Example

attribute [local instance] asciiText

/-- The variables among the fields of an object. -/
def readVars (kvs : Dict String PyVal) : Option (Dict String String) :=
  match Dict.get "variables" kvs with
  | none => some []
  | some v => v.textMap

/-- The URL among the fields of an object. -/
def readUrl (kvs : Dict String PyVal) : Option (Option String) :=
  match Dict.get "callback_url" kvs with
  | none | some .none => some none
  | some (.str url) => some (some url)
  | some _ => none

/-- The two fields, read one after the other. -/
def validateFields : RequestValidator := fun raw =>
  match raw with
  | .dict kvs =>
    match readVars kvs, readUrl kvs with
    | some vars, some url => .ok ⟨vars, url⟩
    | _, _ => .error ⟨.valueError, "Input should be a valid string"⟩
  | _ => .error ⟨.valueError, "Input should be a valid dictionary"⟩

theorem readVars_iff (kvs : Dict String PyVal) (vars : Dict String String) :
    readVars kvs = some vars ↔ GivesVars kvs vars := by
  unfold readVars GivesVars
  cases Dict.get "variables" kvs with
  | none => simp [eq_comm]
  | some v => simp

theorem readUrl_iff (kvs : Dict String PyVal) (url : Option String) :
    readUrl kvs = some url ↔ GivesUrl kvs url := by
  unfold readUrl GivesUrl
  cases Dict.get "callback_url" kvs with
  | none => simp [eq_comm]
  | some v => cases v <;> simp [eq_comm]

theorem readsFields_validateFields : ReadsFields validateFields where
  accepts raw r h := by
    cases h with
    | mk hvars hurl =>
      unfold validateFields
      simp only [(readVars_iff _ _).mpr hvars, (readUrl_iff _ _).mpr hurl]
  refuses raw h := by
    unfold validateFields
    cases raw with
    | dict kvs =>
      dsimp only
      cases hv : readVars kvs with
      | none => exact ⟨_, rfl⟩
      | some vars =>
        cases hu : readUrl kvs with
        | none => exact ⟨_, rfl⟩
        | some url => exact absurd ⟨_, .mk ((readVars_iff _ _).mp hv) ((readUrl_iff _ _).mp hu)⟩ h
    | _ => exact ⟨_, rfl⟩

/-- A workflow of one step. -/
def clearWorkflow : StoredJson :=
  .workflow
    { steps := some [[("order", .int 1), ("name", .str "Clear"), ("action", .str "clear")]]
      other := [("name", .str "Clear a field")] }

/-- The default limits, for a stack of a thousand calls. -/
def defaultLimits : Json.Limits := ⟨4300, 900⟩

/-- Overrides and a URL that are well-formed. -/
def exportBody : String :=
  "\x7b\"variables\": \x7b\"count\": \"5\"\x7d, \"callback_url\": \"https://caller/done\"\x7d"

/-- The count is a number. -/
def numberBody : String :=
  "\x7b\"variables\": \x7b\"count\": 5\x7d, \"callback_url\": \"https://caller/done\"\x7d"

/-- The fields of a text. -/
def fieldsOf (text : String) : Option (Option (Dict String String) × Option (Option String)) :=
  match Json.loads text with
  | some (.dict kvs) => some (readVars kvs, readUrl kvs)
  | _ => none

theorem fieldsOf_some {text : String} {vars : Option (Dict String String)}
    {url : Option (Option String)} (h : fieldsOf text = some (vars, url)) :
    ∃ kvs, Json.loads text = some (.dict kvs) ∧ readVars kvs = vars ∧ readUrl kvs = url := by
  unfold fieldsOf at h
  split at h
  · rename_i kvs hkvs
    obtain ⟨rfl, rfl⟩ := Prod.mk.inj (Option.some.inj h)
    exact ⟨kvs, hkvs, rfl, rfl⟩
  · cases h

theorem faithful_iff_exportBody : ∃ raw, Json.loads exportBody = some raw ∧
    Faithful raw (submitRun defaultLimits validateFields validateClear loginStore
      (some clearWorkflow) exportBody) := by
  have hfields : fieldsOf exportBody = some (some [("count", "5")],
      some (some "https://caller/done")) := by decide +kernel
  obtain ⟨kvs, hraw, hvars, hurl⟩ := fieldsOf_some hfields
  refine ⟨_, hraw, (faithful_iff readsFields_validateFields hraw).mpr fun _ => ?_⟩
  refine ⟨_, .fields (.mk ((readVars_iff _ _).mp hvars) ((readUrl_iff _ _).mp hurl)), .inl ?_⟩
  decide +kernel

/-- **The URL and all variables are dropped**, and the run is started. -/
theorem parameters_dropped : ∃ kvs submission, Json.loads numberBody = some (.dict kvs) ∧
    Dict.get "callback_url" kvs = some (.str "https://caller/done") ∧
    submitRun defaultLimits validateFields validateClear loginStore (some clearWorkflow)
      numberBody = .ok submission ∧ submission.callbackUrl = none ∧ submission.launch.overrides = none ∧
    ¬ Faithful (.dict kvs) (.ok submission) := by
  have hfields : fieldsOf numberBody = some (none, some (some "https://caller/done")) := by
    decide +kernel
  have hbody : readBody defaultLimits validateFields numberBody = {} := by decide +kernel
  obtain ⟨kvs, hraw, hvars, hurl⟩ := fieldsOf_some hfields
  obtain ⟨-, hnull⟩ | ⟨url, hget, hsome⟩ := (readUrl_iff _ _).mp hurl
  · cases hnull
  obtain ⟨submission, hrun, hnone, hover⟩ : ∃ submission,
      submitRun defaultLimits validateFields validateClear loginStore (some clearWorkflow)
        numberBody = .ok submission ∧ submission.callbackUrl = none ∧ submission.launch.overrides = none := by
    unfold submitRun
    rw [hbody]
    exact ⟨_, rfl, rfl, rfl⟩
  refine ⟨kvs, submission, hraw, ?_, hrun, hnone, hover, ?_⟩
  · rw [hget, ← Option.some.inj hsome]
  · rintro ⟨r, hr, -⟩
    cases hr with
    | nothing h =>
      obtain rfl : kvs = [] := by simpa [PyVal.truthy] using h
      cases hget
    | fields h =>
      cases h with
      | mk hgives _ =>
        rw [(readVars_iff _ _).mpr hgives] at hvars
        cases hvars

end Example

end ScoutEngine
