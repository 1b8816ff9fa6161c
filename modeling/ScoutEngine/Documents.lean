import ScoutEngine.Json.Written
import ScoutEngine.Lib.Record
import ScoutEngine.Schedules.Start

/-!
# Workflow documents

The models of the schema as descriptions of their fields, which read a workflow from an object
(`model_validate`) and write it to one (`model_dump`).

* `Pydantic`: how the validation library reads numbers and booleans; a parameter.
* `VariableDocument`, `StepDocument`, `SourceDocument`, `WorkflowDocument`,
  `UploadWorkflowRequest`: the data of the models, with the fields that nothing but the schema uses.
* `workflowModel`: all models, by their fields.
* `uploadWorkflow`; `documentValidator`; **`run_of_upload`**: what is run is what was uploaded.
-/

set_option autoImplicit false

namespace ScoutEngine

open Record

/-! ## Values as documents -/

/-- A value without floats in which every dictionary holds every key once. -/
inductive PyVal.Exact : PyVal → Prop
  | none : Exact .none
  | bool (b : Bool) : Exact (.bool b)
  | int (i : ℤ) : Exact (.int i)
  | str (s : String) : Exact (.str s)
  | list {xs : List PyVal} (h : ∀ x ∈ xs, Exact x) : Exact (.list xs)
  | dict {kvs : List (String × PyVal)} (keys : (kvs.map Prod.fst).Nodup)
    (h : ∀ p ∈ kvs, Exact p.2) : Exact (.dict kvs)

theorem PyVal.Exact.distinctKeys {v : PyVal} (h : v.Exact) : v.DistinctKeys := by
  induction v using PyVal.induct with
  | none => exact .none
  | bool b => exact .bool b
  | int i => exact .int i
  | float f => cases h
  | str s => exact .str s
  | list xs ih =>
    cases h with
    | list h => exact .list fun x hx => ih x hx (h x hx)
  | dict kvs ih =>
    cases h with
    | dict keys h => exact .dict keys fun p hp => ih p hp (h p hp)

/-- Lists that are the same element by element are equal if the elements of one are exact. -/
theorem forall₂_eq {α : Type} {S : α → α → Prop} {xs ys : List α} (h : List.Forall₂ S xs ys)
    (heq : ∀ y ∈ ys, ∀ x, S x y → x = y) : xs = ys := by
  induction h with
  | nil => rfl
  | cons hxy _ ih =>
    rw [List.forall_mem_cons] at heq
    rw [heq.1 _ hxy, ih heq.2]

/-- **Without floats the same value is an equal one.** -/
theorem PyVal.Same.eq_of_exact {v w : PyVal} (hw : w.Exact) (h : v.Same w) : v = w := by
  induction w using PyVal.induct generalizing v with
  | none => cases h; rfl
  | bool b => cases h; rfl
  | int i => cases h; rfl
  | float f => cases hw
  | str s => cases h; rfl
  | list ys ih =>
    cases hw with
    | list hw =>
      cases h with
      | list h => rw [forall₂_eq h fun y hy x hx => ih y hy (hw y hy) hx]
  | dict lws ih =>
    cases hw with
    | dict keys hw =>
      cases h with
      | dict hkeys h =>
        congr 1
        have hlen := h.length_eq
        have hget := (List.forall₂_iff_get.mp h).2
        refine List.ext_getElem hlen fun i h₁ h₂ => Prod.ext ?_ ?_
        · have hk := List.getElem_of_eq hkeys (by rwa [List.length_map])
          rwa [List.getElem_map, List.getElem_map] at hk
        · exact ih _ (List.getElem_mem h₂) (hw _ (List.getElem_mem h₂)) (hget i h₁ h₂)

instance : Document PyVal where
  null := .none
  list := .list
  dict := .dict
  isNull := PyVal.isNone
  asList
    | .list vs => some vs
    | _ => none
  asDict
    | .dict d => some d
    | _ => none
  In := PyVal.DistinctKeys
  Out := PyVal.Exact
  isNull_null := rfl
  isNull_list _ := rfl
  isNull_dict _ := rfl
  asList_list _ := rfl
  asDict_dict _ := rfl
  in_list {v vs} hv h := by
    cases v with
    | list xs =>
      obtain rfl := Option.some.inj h
      cases hv with
      | list hv => exact hv
    | _ => cases h
  in_dict {v d} hv h := by
    cases v with
    | dict kvs =>
      obtain rfl := Option.some.inj h
      cases hv with
      | dict keys hv => exact ⟨keys, hv⟩
    | _ => cases h
  out_null := .none
  out_list := .list
  out_dict := .dict

/-! ## Scalars -/

/-- **What the validation library contributes**: how a value becomes a number or a boolean. A number
or a boolean itself is read as it is. -/
class Pydantic where
  readInt : PyVal → Option ℤ
  readBool : PyVal → Option Bool
  readInt_int : ∀ i, readInt (.int i) = some i
  readBool_bool : ∀ b, readBool (.bool b) = some b

/-- `str`: nothing is converted to a text. -/
def textField : FieldType PyVal String where
  read
    | .str s => some s
    | _ => none
  write := .str
  read_write _ := rfl
  out _ _ := .str _

/-- `Literal[...]`: the texts of the values of an enumeration. -/
def literalField {α : Type} (all : List α) (name : α → String)
    (hall : ∀ a, all.find? (fun b => name b == name a) = some a) : FieldType PyVal α :=
  textField.via (fun s => all.find? fun b => name b == s) name hall fun h => by
    simpa using List.find?_some h

section Scalars

variable [Pydantic]

/-- `int`. -/
def intField : FieldType PyVal ℤ where
  read := Pydantic.readInt
  write := .int
  read_write := Pydantic.readInt_int
  out _ _ := .int _

/-- `bool`. -/
def boolField : FieldType PyVal Bool where
  read := Pydantic.readBool
  write := .bool
  read_write := Pydantic.readBool_bool
  out _ _ := .bool _

/-- `int = Field(ge=0)`. -/
def natField : FieldType PyVal ℕ :=
  intField.via (fun i => if 0 ≤ i then some i.toNat else none) (fun n => (n : ℤ))
    (fun n => if_pos (Int.natCast_nonneg n)) fun {i n} h => by
      split_ifs at h with hi
      obtain rfl := Option.some.inj h
      exact Int.toNat_of_nonneg hi

/-- `int = Field(ge=1)`. -/
def positiveField : FieldType PyVal {n : ℕ // 1 ≤ n} :=
  natField.via (fun n => if h : 1 ≤ n then some ⟨n, h⟩ else none) Subtype.val
    (fun n => dif_pos n.2) fun {n m} h => by
      split_ifs at h with hn
      rw [← Option.some.inj h]

end Scalars

/-- `str | None`. -/
def textOption : FieldType PyVal (Option String) := textField.optional fun _ => rfl

/-- `dict[str, str] | None`. -/
def textsOption : FieldType PyVal (Option (Dict String String)) :=
  textField.mapOf.optional fun _ => rfl

/-! ## The models -/

/-- The types of a declared variable. -/
inductive VariableType where
  | credential | string | url
  deriving DecidableEq

def VariableType.name : VariableType → String
  | credential => "credential"
  | string => "string"
  | url => "url"

/-- The JSON name of a failure policy. -/
def OnError.name : OnError → String
  | .stop => "stop"
  | .continue => "continue"
  | .retry => "retry"

/-- `WorkflowVariable`. -/
structure VariableDocument extends WorkflowVariable where
  type : VariableType := .string
  description : String := ""

/-- `WorkflowStep`. -/
structure StepDocument extends WorkflowStep where
  filenamePattern : Option String := none
  downloadDir : Option String := none
  «include» : Option String := none

/-- `WorkflowSource`. -/
structure SourceDocument where
  tool : String := "scout"
  sessionId : String := ""

/-- `Workflow`. -/
structure WorkflowDocument where
  schemaVersion : String := "1.0"
  name : String
  description : String := ""
  created : String
  source : SourceDocument := {}
  vars : Dict String VariableDocument := []
  settings : WorkflowSettings := {}
  steps : List StepDocument := []
  cleanupSteps : List StepDocument := []

/-- `UploadWorkflowRequest`. -/
structure UploadWorkflowRequest where
  workflow : WorkflowDocument

def typeField : FieldType PyVal VariableType :=
  literalField [.credential, .string, .url] VariableType.name fun a => by cases a <;> rfl

def onErrorField : FieldType PyVal OnError :=
  literalField [.stop, .continue, .retry] OnError.name fun a => by cases a <;> rfl

/-- The actions that a step may have, in the order of the schema. -/
def Action.all : List Action :=
  [.navigate, .navigateNewTab, .click, .type, .select, .scroll, .wait, .waitForDownload,
    .waitForResponse, .pressKey, .hover, .clear, .runJs, .handoff, .extract, .conditional, .loop,
    .fillSecret, .uploadFile, .httpRequest, .fileOp]

def actionField : FieldType PyVal Action :=
  literalField Action.all Action.name fun a => by cases a <;> rfl

section Models

variable [Pydantic]

/-- `WorkflowVariable`. -/
def variableModel : Model PyVal VariableDocument where
  fields :=
    .withDefault "type" typeField .string (.str _) <|
    .withDefault "default" textField "" (.str _) <|
    .withDefault "description" textField "" (.str _) .nil
  names_nodup := (by decide : ["type", "default", "description"].Nodup)
  tuple :=
    { toFun v := (v.type, v.default, v.description, ())
      invFun g := { type := g.1, default := g.2.1, description := g.2.2.1 }
      left_inv _ := rfl
      right_inv _ := rfl }
  forbid := true

/-- `WorkflowSettings`. -/
def settingsModel : Model PyVal WorkflowSettings where
  fields :=
    .withDefault "headless" boolField false (.bool _) <|
    .withDefault "human_mode" boolField true (.bool _) <|
    .withDefault "default_timeout_ms" natField 30000 (.int _) <|
    .withDefault "step_delay_ms" natField 500 (.int _) <|
    .withDefault "on_error" onErrorField .stop (.str _) <|
    .withDefault "pause_on_error" boolField false (.bool _) .nil
  names_nodup := (by decide : ["headless", "human_mode", "default_timeout_ms", "step_delay_ms",
      "on_error", "pause_on_error"].Nodup)
  tuple :=
    { toFun s := (s.headless, s.humanMode, s.defaultTimeoutMs, s.stepDelayMs, s.onError,
        s.pauseOnError, ())
      invFun g :=
        { headless := g.1, humanMode := g.2.1, defaultTimeoutMs := g.2.2.1
          stepDelayMs := g.2.2.2.1, onError := g.2.2.2.2.1, pauseOnError := g.2.2.2.2.2.1 }
      left_inv _ := rfl
      right_inv _ := rfl }
  forbid := true

/-- `WorkflowStep`. -/
def stepModel : Model PyVal StepDocument where
  fields :=
    .required "order" positiveField <|
    .required "name" textField <|
    .required "action" actionField <|
    .withDefault "selector" textOption none .none <|
    .withDefault "value" textOption none .none <|
    .withDefault "frame_context" textOption none .none <|
    .withDefault "on_error" (onErrorField.optional fun _ => rfl) none .none <|
    .withDefault "timeout_ms" (natField.optional fun _ => rfl) none .none <|
    .withDefault "clear_first" (boolField.optional fun _ => rfl) none .none <|
    .withDefault "filename_pattern" textOption none .none <|
    .withDefault "download_dir" textOption none .none <|
    .withDefault "url_pattern" textOption none .none <|
    .withDefault "method" textOption none .none <|
    .withDefault "output_var" textOption none .none <|
    .withDefault "condition" textOption none .none <|
    .withDefault "compare_to" textOption none .none <|
    .withDefault "skip_steps" (intField.optional fun _ => rfl) none .none <|
    .withDefault "jump_to" (intField.optional fun _ => rfl) none .none <|
    .withDefault "loop_var" textOption none .none <|
    .withDefault "loop_index_var" textOption none .none <|
    .withDefault "loop_steps" (intField.optional fun _ => rfl) none .none <|
    .withDefault "operation" textOption none .none <|
    .withDefault "source" textOption none .none <|
    .withDefault "destination" textOption none .none <|
    .withDefault "content" textOption none .none <|
    .withDefault "pattern" textOption none .none <|
    .withDefault "headers" textsOption none .none <|
    .withDefault "body" textOption none .none <|
    .withDefault "auth" textOption none .none <|
    .withDefault "include" textOption none .none .nil
  names_nodup := (by decide : ["order", "name", "action", "selector", "value", "frame_context",
      "on_error", "timeout_ms", "clear_first", "filename_pattern", "download_dir", "url_pattern",
      "method", "output_var", "condition", "compare_to", "skip_steps", "jump_to", "loop_var",
      "loop_index_var", "loop_steps", "operation", "source", "destination", "content", "pattern",
      "headers", "body", "auth", "include"].Nodup)
  tuple :=
    { toFun s := (⟨s.order, s.order_pos⟩, s.name, s.action, s.selector, s.value, s.frameContext,
        s.onError, s.timeoutMs, s.clearFirst, s.filenamePattern, s.downloadDir, s.urlPattern,
        s.method, s.outputVar, s.condition, s.compareTo, s.skipSteps, s.jumpTo, s.loopVar,
        s.loopIndexVar, s.loopSteps, s.operation, s.source, s.destination, s.content, s.pattern,
        s.headers, s.body, s.auth, s.include, ())
      invFun := fun (order, name, action, selector, value, frameContext, onError, timeoutMs,
          clearFirst, filenamePattern, downloadDir, urlPattern, method, outputVar, condition,
          compareTo, skipSteps, jumpTo, loopVar, loopIndexVar, loopSteps, operation, source,
          destination, content, pattern, headers, body, auth, inc, _) =>
        { order := order.1, order_pos := order.2, name, action, selector, value, frameContext,
          onError, timeoutMs, clearFirst, filenamePattern, downloadDir, urlPattern, method,
          outputVar, condition, compareTo, skipSteps, jumpTo, loopVar, loopIndexVar, loopSteps,
          operation, source, destination, content, pattern, headers, body, auth, «include» := inc }
      left_inv _ := rfl
      right_inv _ := rfl }
  forbid := true

/-- `WorkflowSource`. -/
def sourceModel : Model PyVal SourceDocument where
  fields :=
    .withDefault "tool" textField "scout" (.str _) <|
    .withDefault "session_id" textField "" (.str _) .nil
  names_nodup := (by decide : ["tool", "session_id"].Nodup)
  tuple :=
    { toFun s := (s.tool, s.sessionId, ())
      invFun g := { tool := g.1, sessionId := g.2.1 }
      left_inv _ := rfl
      right_inv _ := rfl }
  forbid := true

omit [Pydantic] in
theorem exact_source : Document.Out (sourceModel.type.write {}) :=
  .dict (by decide) (List.forall_mem_cons.mpr ⟨.str _, List.forall_mem_singleton.mpr (.str _)⟩)

/-- An empty object gives the default settings. -/
theorem exact_settings : Document.Out (settingsModel.type.write {}) :=
  settingsModel.type.out (v := .dict []) (.dict List.nodup_nil nofun)
    ((settingsModel.read_iff).mpr ⟨[], rfl, fun _ => nofun, rfl, rfl, rfl, rfl, rfl, rfl, trivial⟩)

/-- `Workflow`, validated at the time `now`. -/
def workflowModel (now : String) : Model PyVal WorkflowDocument where
  fields :=
    .withDefault "schema_version" textField "1.0" (.str _) <|
    .required "name" textField <|
    .withDefault "description" textField "" (.str _) <|
    .withDefault "created" textField now (.str _) <|
    .withDefault "source" sourceModel.type {} exact_source <|
    .withDefault "variables" variableModel.type.mapOf [] (.dict List.nodup_nil nofun) <|
    .withDefault "settings" settingsModel.type {} exact_settings <|
    .withDefault "steps" stepModel.type.listOf [] (.list nofun) <|
    .withDefault "cleanup_steps" stepModel.type.listOf [] (.list nofun) .nil
  names_nodup := (by decide : ["schema_version", "name", "description", "created", "source",
      "variables", "settings", "steps", "cleanup_steps"].Nodup)
  tuple :=
    { toFun w := (w.schemaVersion, w.name, w.description, w.created, w.source, w.vars, w.settings,
        w.steps, w.cleanupSteps, ())
      invFun := fun (schemaVersion, name, description, created, source, vars, settings, steps,
          cleanupSteps, _) =>
        { schemaVersion, name, description, created, source, vars, settings, steps, cleanupSteps }
      left_inv _ := rfl
      right_inv _ := rfl }
  forbid := true

/-- `UploadWorkflowRequest`, in which other keys are passed over. -/
def uploadModel (now : String) : Model PyVal UploadWorkflowRequest where
  fields := .required "workflow" (workflowModel now).type .nil
  names_nodup := (by decide : ["workflow"].Nodup)
  tuple :=
    { toFun r := (r.workflow, ())
      invFun g := { workflow := g.1 }
      left_inv _ := rfl
      right_inv _ := rfl }
  forbid := false

end Models

/-! ## Stored documents -/

/-- The objects of a list. -/
def rawSteps (v : PyVal) : Option (List RawStep) :=
  match v with
  | .list vs => vs.mapM Document.asDict
  | _ => none

/-- A document as `resolve_fragments` takes it apart. -/
def storedJson : PyVal → StoredJson
  | .dict kvs =>
    match (Dict.get "steps" kvs).mapM rawSteps,
      (Dict.get "variables" kvs).mapM Document.asDict with
    | some steps, some vars => .workflow
        { steps := steps, vars := vars
          other := kvs.filter fun p => p.1 ≠ "steps" ∧ p.1 ≠ "variables" }
    | _, _ => .malformed
  | _ => .malformed

/-- The object that is validated after the expansion. -/
def RawWorkflow.object (raw : RawWorkflow) : PyVal :=
  .dict ((raw.steps.map fun steps => ("steps", .list (steps.map .dict))).toList ++
    (raw.vars.map fun vars => ("variables", .dict vars)).toList ++ raw.other)

/-- The part of a workflow that a run reads. -/
def WorkflowDocument.declared (w : WorkflowDocument) : DeclaredWorkflow where
  settings := w.settings
  steps := w.steps.map StepDocument.toWorkflowStep
  cleanupSteps := w.cleanupSteps.map StepDocument.toWorkflowStep
  vars := w.vars.map fun p => (p.1, p.2.toWorkflowVariable)

/-- The row of a new workflow; the last column holds JSON. -/
structure WorkflowRow where
  name : String
  description : String
  schemaVersion : String
  workflowJson : String

/-- `record.workflow_json`. -/
def WorkflowRow.document (row : WorkflowRow) : StoredJson :=
  match Json.loads row.workflowJson with
  | some v => storedJson v
  | none => .malformed

theorem mem_of_mapM {α β : Type} {f : α → Option β} {xs : List α} {ys : List β}
    (h : xs.mapM f = some ys) : ∀ x ∈ xs, ∃ y ∈ ys, f x = some y := by
  induction xs generalizing ys with
  | nil => exact fun x hx => absurd hx List.not_mem_nil
  | cons x xs ih =>
    rw [List.mapM_cons] at h
    obtain ⟨y, hy, h⟩ := Option.bind_eq_some_iff.mp h
    obtain ⟨ys, hys, h⟩ := Option.bind_eq_some_iff.mp h
    obtain rfl := Option.some.inj h
    refine List.forall_mem_cons.mpr ⟨⟨y, List.mem_cons_self, hy⟩, fun z hz => ?_⟩
    obtain ⟨w, hw, hf⟩ := ih hys z hz
    exact ⟨w, List.mem_cons_of_mem _ hw, hf⟩

section Upload

variable [Pydantic]

/-- `model_dump`; the time matters only for what is read. -/
def WorkflowDocument.dump (w : WorkflowDocument) : PyVal := (workflowModel "").type.write w

/-- `Workflow.model_validate`, at the time `now`. -/
def documentValidator (now : String) : Validator := fun raw =>
  match (workflowModel now).type.read raw.object with
  | some w => .ok w.declared
  | none => .error ⟨.valueError, "validation error"⟩

/-- `UploadWorkflowRequest.model_validate` of the body of a request. -/
def readUpload (now body : String) : Option UploadWorkflowRequest :=
  (Json.loads body).bind (uploadModel now).type.read

/-- `upload_workflow`: the new row; a body that is refused is answered by an error. -/
def uploadWorkflow (now body : String) : Option WorkflowRow :=
  (readUpload now body).map fun r =>
    { name := r.workflow.name
      description := r.workflow.description
      schemaVersion := r.workflow.schemaVersion
      workflowJson := Json.dumps r.workflow.dump }

/-! ## Steps -/

/-- **A step that is read has an action.** -/
theorem has_action {v : PyVal} {s : StepDocument} (h : stepModel.type.read v = some s) :
    ∃ d, v = .dict d ∧ Dict.get "action" d = some (.str s.action.name) := by
  obtain ⟨d, hd, -, hreads⟩ := stepModel.read_iff.mp h
  have haction : fieldValue "action" actionField none d = some s.action := hreads.2.2.1
  cases v with
  | dict kvs =>
    obtain rfl := Option.some.inj hd
    refine ⟨kvs, rfl, ?_⟩
    unfold fieldValue at haction
    cases hg : Dict.get "action" kvs with
    | none =>
      rw [hg] at haction
      cases haction
    | some v =>
      rw [hg] at haction
      obtain ⟨t, ht, hfind⟩ := Option.bind_eq_some_iff.mp haction
      have hname : s.action.name = t := by simpa using List.find?_some hfind
      cases v with
      | str u =>
        obtain rfl := Option.some.inj ht
        rw [hname]
      | _ => cases ht
  | _ => cases hd

/-- **The validation refuses a step without `action`**, so that a stored directive is not run. -/
theorem requiresAction_document (now : String) : RequiresAction (documentValidator now) := by
  intro raw workflow h step hstep
  unfold documentValidator at h
  cases hr : (workflowModel now).type.read raw.object with
  | none =>
    rw [hr] at h
    cases h
  | some w =>
    obtain ⟨d, hd, -, hreads⟩ := (workflowModel now).read_iff.mp hr
    obtain rfl := Option.some.inj hd
    have hsteps : fieldValue "steps" stepModel.type.listOf (some []) _ = some w.steps :=
      hreads.2.2.2.2.2.2.2.1
    cases hraw : raw.steps with
    | none =>
      rw [hraw] at hstep
      exact absurd hstep List.not_mem_nil
    | some steps =>
      rw [hraw, Option.getD_some] at hstep
      rw [hraw] at hsteps
      have hread : (steps.map PyVal.dict).mapM stepModel.type.read = some w.steps := hsteps
      obtain ⟨s, -, hs⟩ := mem_of_mapM hread _ (List.mem_map_of_mem hstep)
      obtain ⟨e, he, haction⟩ := has_action hs
      obtain rfl := PyVal.dict.inj he
      rw [Dict.has, haction]
      rfl

/-! ## The stored document -/

omit [Pydantic] in
theorem mapM_dict (ds : List RawStep) :
    (ds.map PyVal.dict).mapM Document.asDict = some ds := by
  induction ds with
  | nil => rfl
  | cons d ds ih =>
    rw [List.map_cons, List.mapM_cons, ih]
    rfl

omit [Pydantic] in
theorem eq_of_rawSteps {v : PyVal} {steps : List RawStep} (h : rawSteps v = some steps) :
    v = .list (steps.map .dict) := by
  cases v with
  | list vs =>
    have hvs : vs.mapM Document.asDict = some steps := h
    congr 1
    induction vs generalizing steps with
    | nil =>
      obtain rfl : [] = steps := Option.some.inj hvs
      rfl
    | cons v vs ih =>
      rw [List.mapM_cons] at hvs
      obtain ⟨d, hd, hvs⟩ := Option.bind_eq_some_iff.mp hvs
      obtain ⟨ds, hds, hvs⟩ := Option.bind_eq_some_iff.mp hvs
      obtain rfl := Option.some.inj hvs
      cases v with
      | dict kvs =>
        obtain rfl := Option.some.inj hd
        rw [List.map_cons, ← ih hds hds]
      | _ => cases hd
  | _ => cases h

omit [Pydantic] in
theorem eq_of_asDict {v : PyVal} {d : Dict String PyVal} (h : Document.asDict v = some d) :
    v = .dict d := by
  cases v with
  | dict kvs => exact congrArg PyVal.dict (Option.some.inj h)
  | _ => cases h

omit [Pydantic] in
/-- The item under a key is read and written again. -/
theorem item_of_mapM {α : Type} {f : PyVal → Option α} {g : α → PyVal}
    (hfg : ∀ {v a}, f v = some a → v = g a) {o : Option PyVal} {r : Option α}
    (h : o.mapM f = some r) (k : String) :
    (r.map fun a => (k, g a)).toList = (o.map fun v => (k, v)).toList := by
  cases o with
  | none =>
    obtain rfl : none = r := Option.some.inj h
    rfl
  | some v =>
    obtain ⟨a, ha, hr⟩ := Option.map_eq_some_iff.mp h
    rw [← hr, hfg ha]
    rfl

omit [Pydantic] in
theorem get_item (k k' : String) (o : Option PyVal) :
    Dict.get k' (o.map fun v => (k, v)).toList = if k = k' then o else none := by
  cases o with
  | none => exact (ite_self none).symm
  | some v => rfl

omit [Pydantic] in
/-- **What was taken apart has the same items.** -/
theorem get_object {kvs : Dict String PyVal} {raw : RawWorkflow}
    (h : storedJson (.dict kvs) = .workflow raw) : ∃ d, raw.object = .dict d ∧
      (∀ k, Dict.get k d = Dict.get k kvs) ∧ ∀ p ∈ d, p.1 ∈ kvs.map Prod.fst := by
  unfold storedJson at h
  dsimp only at h
  split at h
  case h_2 => cases h
  rename_i steps vars hsteps hvars
  obtain rfl := StoredJson.workflow.inj h
  refine ⟨_, rfl, fun k => ?_, fun p hp => ?_⟩
  · rw [item_of_mapM eq_of_rawSteps hsteps, item_of_mapM eq_of_asDict hvars, Dict.get_append,
      Dict.get_append, get_item, get_item]
    have hother : Dict.get k (kvs.filter fun p => p.1 ≠ "steps" ∧ p.1 ≠ "variables") =
        if "steps" = k ∨ "variables" = k then none else Dict.get k kvs := by
      have hfilter : (kvs.filter fun p => p.1 ≠ "steps" ∧ p.1 ≠ "variables") =
          (kvs.filter (·.1 ≠ "variables")).filter (·.1 ≠ "steps") := by
        rw [List.filter_filter]
        congr 1
        funext p
        exact Bool.decide_and _ _
      rw [hfilter, Dict.get_filter_ne, Dict.get_filter_ne]
      by_cases h1 : "steps" = k <;> by_cases h2 : "variables" = k <;> simp [h1, h2]
    rw [hother]
    by_cases h1 : "steps" = k
    · subst h1
      cases Dict.get "steps" kvs <;> simp
    · by_cases h2 : "variables" = k
      · subst h2
        cases Dict.get "variables" kvs <;> simp
      · simp [h1, h2]
  · have hget : Dict.has p.1 kvs = true ∨ p ∈ kvs := by
      rw [item_of_mapM eq_of_rawSteps hsteps, item_of_mapM eq_of_asDict hvars, List.mem_append,
        List.mem_append] at hp
      rcases hp with (hp | hp) | hp
      · obtain ⟨v, hv, rfl⟩ := Option.map_eq_some_iff.mp (Option.mem_toList.mp hp)
        exact Or.inl (by rw [Dict.has, hv]; rfl)
      · obtain ⟨v, hv, rfl⟩ := Option.map_eq_some_iff.mp (Option.mem_toList.mp hp)
        exact Or.inl (by rw [Dict.has, hv]; rfl)
      · exact Or.inr (List.mem_filter.mp hp).1
    rcases hget with hget | hmem
    · exact Dict.has_iff.mp hget
    · exact List.mem_map_of_mem hmem

omit [Pydantic] in
theorem storedJson_dict {kvs : Dict String PyVal} {steps : Option (List RawStep)}
    {vars : Option (Dict String PyVal)} (hsteps : (Dict.get "steps" kvs).mapM rawSteps = some steps)
    (hvars : (Dict.get "variables" kvs).mapM Document.asDict = some vars) :
    ∃ raw, storedJson (.dict kvs) = .workflow raw := by
  unfold storedJson
  dsimp only
  rw [hsteps, hvars]
  exact ⟨_, rfl⟩

/-- **A dumped workflow is taken apart and read again as it was.** -/
theorem read_stored (now : String) (w : WorkflowDocument) :
    ∃ raw, storedJson w.dump = .workflow raw ∧
      (workflowModel now).type.read raw.object = some w := by
  have hsteps : rawSteps (stepModel.type.listOf.write w.steps) =
      some (w.steps.map fun s => stepModel.fields.write (stepModel.tuple s)) := by
    have hmap : w.steps.map stepModel.type.write =
        (w.steps.map fun s => stepModel.fields.write (stepModel.tuple s)).map .dict := by
      rw [List.map_map]
      rfl
    show (w.steps.map stepModel.type.write).mapM Document.asDict = _
    rw [hmap, mapM_dict]
  have hget : (Dict.get "steps" ((workflowModel "").fields.write
      ((workflowModel "").tuple w))).mapM rawSteps =
        some (some (w.steps.map fun s => stepModel.fields.write (stepModel.tuple s))) :=
    congrArg (Option.map some) hsteps
  have hvars : (Dict.get "variables" ((workflowModel "").fields.write
      ((workflowModel "").tuple w))).mapM Document.asDict =
        some (some (w.vars.map variableModel.type.writeItem)) := rfl
  obtain ⟨raw, hraw⟩ : ∃ raw, storedJson w.dump = .workflow raw := storedJson_dict hget hvars
  refine ⟨raw, hraw, ?_⟩
  obtain ⟨d, hd, hget, hkeys⟩ := get_object hraw
  have hnames : ((workflowModel "").fields.write ((workflowModel "").tuple w)).map Prod.fst =
      (workflowModel now).fields.names := (workflowModel "").fields.names_write _
  refine (workflowModel now).read_iff.mpr
    ⟨d, by rw [hd]; rfl, fun _ p hp => hnames ▸ hkeys p hp, ?_⟩
  refine (workflowModel now).fields.reads_of_get fun p hp => ?_
  rw [hget]
  exact Dict.get_of_mem (by rw [hnames]; exact (workflowModel now).names_nodup) hp

/-- **The stored JSON is the document that was uploaded.** -/
theorem loads_upload {now body : String} {r : UploadWorkflowRequest}
    (h : readUpload now body = some r) : Json.loads (Json.dumps r.workflow.dump) =
      some r.workflow.dump := by
  obtain ⟨v, hv, hread⟩ := Option.bind_eq_some_iff.mp h
  have hout : PyVal.Exact (.dict [("workflow", r.workflow.dump)]) :=
    (uploadModel now).type.out (Json.distinctKeys_of_loads hv) hread
  have hexact : r.workflow.dump.Exact := by
    cases hout with
    | dict keys hout => exact hout _ (List.mem_singleton.mpr rfl)
  obtain ⟨w, hw, hs⟩ := Json.loads_dumps hexact.distinctKeys
  rw [hw, hs.eq_of_exact hexact]

variable [PyText]

/-- **The stored workflow is the uploaded one**: the row holds its JSON, and what is read from the
row at any time has every field of the upload. -/
structure StoredAs (row : WorkflowRow) (w : WorkflowDocument) (raw : RawWorkflow) : Prop where
  json : Json.loads row.workflowJson = some w.dump
  document : row.document = .workflow raw
  read : ∀ later, (workflowModel later).type.read raw.object = some w

omit [PyText] in
theorem StoredAs.validate {row : WorkflowRow} {w : WorkflowDocument} {raw : RawWorkflow}
    (h : StoredAs row w raw) (later : String) :
    (StoredJson.workflow raw).validate (documentValidator later) = .ok w.declared := by
  show documentValidator later raw = _
  unfold documentValidator
  rw [h.read later]

omit [PyText] in
/-- What was validated before it was stored has no directive. -/
theorem StoredAs.not_hasInclude {row : WorkflowRow} {w : WorkflowDocument} {raw : RawWorkflow}
    (h : StoredAs row w raw) : ¬ (StoredJson.workflow raw).HasInclude := by
  intro hinc
  obtain ⟨e, he⟩ := StoredJson.validate_of_hasInclude (requiresAction_document "") hinc
  rw [h.validate] at he
  cases he

omit [PyText] in
theorem storedAs_upload {now body : String} {row : WorkflowRow}
    (h : uploadWorkflow now body = some row) :
    ∃ r raw, readUpload now body = some r ∧ StoredAs row r.workflow raw := by
  obtain ⟨r, hr, rfl⟩ := Option.map_eq_some_iff.mp h
  obtain ⟨raw, hraw, -⟩ := read_stored "" r.workflow
  refine ⟨r, raw, hr, loads_upload hr, ?_, fun later => ?_⟩
  · unfold WorkflowRow.document
    dsimp only
    rw [loads_upload hr]
    exact hraw
  · obtain ⟨raw', hraw', hread⟩ := read_stored later r.workflow
    obtain rfl := StoredJson.workflow.inj (hraw.symm.trans hraw')
    exact hread

/-- **Main result.** An uploaded workflow that was accepted is stored as it was uploaded, is not
rejected later, and what is run is what was uploaded: for every request and every schedule that
fires, and whatever fragments are stored by then. -/
theorem run_of_upload {now body : String} {row : WorkflowRow}
    (h : uploadWorkflow now body = some row) :
    ∃ r raw, readUpload now body = some r ∧ StoredAs row r.workflow raw ∧
      (∀ (later : String) (db : FragmentStore) (vars : Dict String String),
        runWorkflow (documentValidator later) db (some row.document) vars = .launched
          ⟨r.workflow.declared, if vars = [] then none else some vars, r.workflow.steps.length⟩) ∧
      ∀ (later : String) (make : TriggerMaker) (schedule : Schedule) (time : ℕ),
        schedule.enabled = true →
        (executeScheduledWorkflow (documentValidator later) make (some schedule)
            (some row.document) time).2 =
          match computeNextRun make schedule.cronExpression schedule.timezone time with
          | .ok _ => .launched ⟨r.workflow.declared, schedule.vars, r.workflow.steps.length⟩
          | .error e => .stranded r.workflow.steps.length e.msg := by
  obtain ⟨r, raw, hr, hstored⟩ := storedAs_upload h
  have hlen : r.workflow.declared.steps.length = r.workflow.steps.length := List.length_map _
  refine ⟨r, raw, hr, hstored, fun later db vars => ?_, fun later make schedule time hen => ?_⟩
  · rw [hstored.document]
    unfold runWorkflow
    dsimp only
    have hrun : (Except.ok (StoredJson.workflow raw) >>= fun d =>
        StoredJson.validate (documentValidator later) d) = .ok r.workflow.declared :=
      hstored.validate later
    rw [StoredJson.resolveFragments_of_not hstored.not_hasInclude, hrun]
    dsimp only
    rw [hlen]
  · rw [hstored.document]
    unfold executeScheduledWorkflow
    dsimp only
    rw [if_neg (by simp [hen]), hstored.validate later]
    dsimp only
    rw [hlen]
    cases computeNextRun make schedule.cronExpression schedule.timezone time <;> rfl

end Upload

/-! ## One upload -/

section Example

attribute [local instance] asciiText

/-- Numbers and booleans, and nothing else, are read as such. -/
@[reducible] def strictPydantic : Pydantic where
  readInt
    | .int i => some i
    | _ => none
  readBool
    | .bool b => some b
    | _ => none
  readInt_int _ := rfl
  readBool_bool _ := rfl

attribute [local instance] strictPydantic

/-- A workflow with one step. -/
def oneStepBody : String :=
  "\x7b\"workflow\": \x7b\"name\": \"w\", \"steps\": [\x7b\"order\": 1, \"name\": \"Go\", " ++
    "\"action\": \"navigate\"\x7d]\x7d\x7d"

/-- It is accepted, and run. -/
theorem run_of_upload_oneStep : ∃ row r raw, uploadWorkflow "" oneStepBody = some row ∧
    readUpload "" oneStepBody = some r ∧ StoredAs row r.workflow raw ∧
    runWorkflow (documentValidator "") (fun _ => none) (some row.document) [] =
      .launched ⟨r.workflow.declared, none, r.workflow.steps.length⟩ := by
  have haccepted : (uploadWorkflow "" oneStepBody).isSome = true := by decide +kernel
  obtain ⟨row, hrow⟩ := Option.isSome_iff_exists.mp haccepted
  obtain ⟨r, raw, hr, hstored, hrun, -⟩ := run_of_upload hrow
  exact ⟨row, r, raw, hrow, hr, hstored, hrun "" (fun _ => none) []⟩

end Example

end ScoutEngine
