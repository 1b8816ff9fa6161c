import ScoutEngine.VariableSpec
import ScoutEngine.Schedules.Start

/-!
# Variables of included fragments

An include directive puts its values into the steps of the fragment; the declarations of the
fragment join those of the workflow all the same, and `resolve_variables` asks for a value for each
of them.

* `fragmentDeclarations`: the declarations that the directives of a workflow add, in their order.
* `mem_resolveFragments`: which of them are in the result, the last one of a name.
* `ReadsDeclarations`, `Supplied`, `FindsValue`: what validation reads, the claim on the inputs, and
  that a declared name has a value.
* **`bound_iff`**: when `resolve_variables` accepts a workflow with includes;
  `included_value_asked_for`: a value in the directive does not count.
-/

set_option autoImplicit false

namespace ScoutEngine

section Theory

variable [PyText]

/-! ## Declarations -/

/-- The declarations that an include directive adds. -/
def addedBy (db : FragmentStore) (step : RawStep) : Dict String PyVal :=
  if isInclude step then
    match includeId step with
    | .ok id => ((db id).bind (·.vars)).getD []
    | .error _ => []
  else []

/-- The declarations that the directives of a workflow add, in their order. -/
def fragmentDeclarations (db : FragmentStore) (steps : List RawStep) : Dict String PyVal :=
  steps.flatMap (addedBy db)

theorem expandSteps_merged {db : FragmentStore} {steps resolved resolved' : List RawStep}
    {merged merged' : Dict String PyVal}
    (h : expandSteps db steps resolved merged = .ok (resolved', merged')) :
    merged' = Dict.update merged (fragmentDeclarations db steps) := by
  induction steps generalizing resolved merged with
  | nil =>
    cases h
    rfl
  | cons step rest ih =>
    unfold fragmentDeclarations addedBy
    unfold expandSteps at h
    rw [List.flatMap_cons]
    split_ifs at h ⊢ with hi
    · obtain ⟨id, hid, h⟩ := bind_ok.mp h
      cases hdb : db id with
      | none =>
        rw [hdb] at h
        cases h
      | some fragment =>
        rw [hdb] at h
        obtain ⟨included, -, h⟩ := bind_ok.mp h
        rw [ih h, hid]
        dsimp only
        rw [hdb]
        exact (List.foldl_append).symm
    · exact ih h

omit [PyText] in
theorem mem_declare {declared merged : Dict String PyVal} (hm : (merged.map Prod.fst).Nodup)
    {p : String × PyVal} :
    p ∈ declare declared merged ↔ p ∈ declared ∨ p ∈ merged ∧ Dict.has p.1 declared = false := by
  induction merged generalizing declared with
  | nil => simp [declare]
  | cons q rest ih =>
    rw [List.map_cons, List.nodup_cons] at hm
    change p ∈ declare (if Dict.has q.1 declared then declared else Dict.set q.1 q.2 declared) rest ↔ _
    rw [ih hm.2, List.mem_cons]
    by_cases hq : Dict.has q.1 declared = true
    · rw [if_pos hq]
      refine or_congr_right (and_congr_left fun hp => ⟨.inr, fun h => h.resolve_left ?_⟩)
      rintro rfl
      exact Bool.false_ne_true (hp.symm.trans hq)
    · have hnew : q.1 ∉ declared.map Prod.fst := fun hmem => hq (Dict.has_iff.mpr hmem)
      rw [if_neg hq, Dict.set_of_not_mem hnew, List.mem_append, List.mem_singleton, or_assoc]
      refine or_congr_right ?_
      constructor
      · rintro (rfl | ⟨hp, hhas⟩)
        · exact ⟨.inl rfl, Bool.eq_false_iff.mpr hq⟩
        · refine ⟨.inr hp, Bool.eq_false_iff.mpr fun h => ?_⟩
          have hmem := Dict.has_iff.mp h
          refine Bool.false_ne_true (hhas.symm.trans (Dict.has_iff.mpr ?_))
          rw [List.map_append]
          exact List.mem_append_left _ hmem
      · rintro ⟨rfl | hp, hhas⟩
        · exact .inl rfl
        · refine .inr ⟨hp, Bool.eq_false_iff.mpr fun h => ?_⟩
          have hmem := Dict.has_iff.mp h
          rw [List.map_append, List.mem_append] at hmem
          rcases hmem with hmem | hmem
          · exact Bool.false_ne_true (hhas.symm.trans (Dict.has_iff.mpr hmem))
          · have heq : p.1 = q.1 := List.mem_singleton.mp hmem
            exact hm.1 (heq ▸ List.mem_map_of_mem (f := Prod.fst) hp)

omit [PyText] in
theorem nodup_declare {declared : Dict String PyVal} (h : (declared.map Prod.fst).Nodup)
    (merged : Dict String PyVal) : ((declare declared merged).map Prod.fst).Nodup := by
  induction merged generalizing declared with
  | nil => exact h
  | cons p rest ih =>
    refine ih ?_
    dsimp only
    split_ifs
    · exact h
    · exact Dict.nodup_set h p.1 p.2

omit [PyText] in
/-- Without directives nothing is added. -/
theorem fragmentDeclarations_nil {db : FragmentStore} {steps : List RawStep}
    (h : steps.filter isInclude = []) : fragmentDeclarations db steps = [] := by
  refine List.flatMap_eq_nil_iff.mpr fun step hs => ?_
  have hi : ¬ isInclude step = true := fun hi => by
    have hmem := List.mem_filter.mpr ⟨hs, hi⟩
    rw [h] at hmem
    exact absurd hmem List.not_mem_nil
  exact if_neg hi

omit [PyText] in
theorem filter_nil_of_mapM {steps : List RawStep}
    (h : (steps.filter isInclude).mapM includeId = .ok []) : steps.filter isInclude = [] := by
  cases hf : steps.filter isInclude with
  | nil => rfl
  | cons step rest =>
    rw [hf, List.mapM_cons] at h
    obtain ⟨id, -, h⟩ := bind_ok.mp h
    obtain ⟨ids, -, h⟩ := bind_ok.mp h
    cases h

/-- What `resolve_fragments` makes of the variables. -/
theorem resolveFragments_vars {raw out : RawWorkflow} {db : FragmentStore}
    (h : resolveFragments raw db = .ok out) :
    out.vars.getD [] = declare (raw.vars.getD [])
      (Dict.update [] (fragmentDeclarations db (raw.steps.getD []))) := by
  unfold resolveFragments at h
  dsimp only at h
  obtain ⟨ids, hids, h⟩ := bind_ok.mp h
  split_ifs at h with hnil hmissing
  · cases h
    rw [hnil] at hids
    rw [fragmentDeclarations_nil (filter_nil_of_mapM hids)]
    rfl
  · obtain ⟨⟨resolved, merged⟩, hexp, h⟩ := bind_ok.mp h
    cases h
    rw [← expandSteps_merged hexp]
    dsimp only
    split_ifs with hempty
    · rw [List.isEmpty_iff.mp hempty]
      rfl
    · rfl

/-- **The declarations of the result**: those of the workflow, and of each other name the last one
that a directive adds. -/
theorem mem_resolveFragments {raw out : RawWorkflow} {db : FragmentStore}
    (h : resolveFragments raw db = .ok out) {p : String × PyVal} :
    p ∈ out.vars.getD [] ↔ p ∈ raw.vars.getD [] ∨
      Dict.get p.1 (fragmentDeclarations db (raw.steps.getD [])).reverse = some p.2 ∧
        Dict.has p.1 (raw.vars.getD []) = false := by
  have hnodup : ((Dict.update ([] : Dict String PyVal)
      (fragmentDeclarations db (raw.steps.getD []))).map Prod.fst).Nodup :=
    Dict.nodup_update (d := []) List.nodup_nil _
  rw [resolveFragments_vars h, mem_declare hnodup]
  refine or_congr_right (and_congr_left fun _ => ?_)
  have hget := Dict.get_update p.1 ([] : Dict String PyVal)
    (fragmentDeclarations db (raw.steps.getD []))
  rw [show Dict.get p.1 ([] : Dict String PyVal) = none from rfl, Option.or_none] at hget
  rw [← hget]
  exact ⟨Dict.get_of_mem hnodup, Dict.mem_of_get⟩

/-! ## Values -/

/-- The default of a raw declaration. -/
def rawDefault (declaration : PyVal) : String :=
  match declaration.getKey "default" with
  | .str text => text
  | _ => ""

/-- A declaration as validation reads it. -/
def readVariable (declaration : PyVal) : WorkflowVariable := ⟨rawDefault declaration⟩

/-- **Validation keeps the declarations**, with their defaults. -/
def ReadsDeclarations (validate : Validator) : Prop :=
  ∀ raw workflow, validate raw = .ok workflow →
    workflow.vars = (raw.vars.getD []).map fun p => (p.1, readVariable p.2)

section

variable (environ vault : String → Option String) (overrides : Option (Dict String String))

/-- A declared name has a value: an override, the environment or a non-empty default, and if this is
a reference, the vault has the secret. -/
def FindsValue (name : String) (var : WorkflowVariable) : Prop :=
  ¬ Missing environ (overrides.getD []) (name, var) ∧
    opened vault (chosen environ (overrides.getD []) name var) ≠ none

/-- `resolve_variables` raises `UnresolvedVariableError`. -/
def RaisesUnresolved (workflow : DeclaredWorkflow) : Prop :=
  ∃ names, resolveVariables (.ofMaps environ vault) workflow overrides =
    .error (unresolvedVariables names)

/-- **The inputs supply every variable**: each variable of an included fragment has a value in every
directive that includes the fragment, or finds one; each variable of the workflow finds one. -/
structure Supplied (db : FragmentStore) (raw : RawWorkflow) : Prop where
  included : ∀ step ∈ raw.steps.getD [], isInclude step = true →
    ∀ id fragment, includeId step = .ok id → db id = some fragment →
      ∀ p ∈ fragment.vars.getD [],
        (∀ step' ∈ raw.steps.getD [], isInclude step' = true → includeId step' = .ok id →
          ∃ values, varOverrides step' = .dict values ∧ Dict.has p.1 values = true) ∨
        FindsValue environ vault overrides p.1 (readVariable p.2)
  own : ∀ p ∈ raw.vars.getD [], FindsValue environ vault overrides p.1 (readVariable p.2)

/-- Each name that the fragments declare and the workflow does not finds a value with its last
declaration. -/
def FragmentsFind (db : FragmentStore) (raw : RawWorkflow) : Prop :=
  ∀ name declaration,
    Dict.get name (fragmentDeclarations db (raw.steps.getD [])).reverse = some declaration →
      Dict.has name (raw.vars.getD []) = false →
        FindsValue environ vault overrides name (readVariable declaration)

end

variable {environ vault : String → Option String} {overrides : Option (Dict String String)}

/-- It raises no other exception. -/
theorem raisesUnresolved_iff_error {workflow : DeclaredWorkflow} :
    RaisesUnresolved environ vault overrides workflow ↔
      ∃ e, resolveVariables (.ofMaps environ vault) workflow overrides = .error e := by
  refine ⟨fun ⟨names, h⟩ => ⟨_, h⟩, fun ⟨e, h⟩ => ?_⟩
  unfold RaisesUnresolved
  rw [h]
  rw [resolveVariables_eq] at h
  split_ifs at h
  · obtain ⟨e', he'⟩ := bind_pure_error.mp ⟨e, h⟩
    rw [he'] at h
    cases h
    obtain ⟨names, rfl⟩ := resolveVault_raises he'
    exact ⟨names, rfl⟩
  · cases h
    exact ⟨_, rfl⟩

/-- **`resolve_variables` raises `UnresolvedVariableError` iff a declared name finds no value.** -/
theorem raisesUnresolved_iff {workflow : DeclaredWorkflow}
    (hkeys : (workflow.vars.map Prod.fst).Nodup) :
    RaisesUnresolved environ vault overrides workflow ↔
      ∃ p ∈ workflow.vars, ¬ FindsValue environ vault overrides p.1 p.2 := by
  rw [raisesUnresolved_iff_error, resolveVariables_eq]
  by_cases hno : missingNames environ (overrides.getD []) workflow.vars = []
  · rw [if_pos hno, bind_pure_error, resolveVault_error_iff, lacking_iff hkeys hno]
    refine exists_congr fun p => and_congr_right fun hp => ?_
    exact ⟨fun h hf => hf.2 h, fun h => not_not.mp fun hne => h ⟨not_missing hno hp, hne⟩⟩
  · rw [if_neg hno]
    obtain ⟨name, hname⟩ := List.exists_mem_of_ne_nil _ hno
    obtain ⟨p, hp, -⟩ := List.mem_map.mp hname
    obtain ⟨hp, hm⟩ := List.mem_filter.mp hp
    exact ⟨fun _ => ⟨p, hp, fun hf => hf.1 (of_decide_eq_true hm)⟩, fun _ => ⟨_, rfl⟩⟩

/-- **Main result.** On inputs that supply every variable, the workflow that `resolve_fragments`
makes is accepted iff the names that only fragments declare find a value with their last
declaration. -/
theorem bound_iff (environ vault : String → Option String)
    (overrides : Option (Dict String String)) (validate : Validator)
    (hreads : ReadsDeclarations validate) (db : FragmentStore) (raw out : RawWorkflow)
    (workflow : DeclaredWorkflow) (hkeys : ((raw.vars.getD []).map Prod.fst).Nodup)
    (hout : resolveFragments raw db = .ok out) (hvalid : validate out = .ok workflow)
    (hsupplied : Supplied environ vault overrides db raw) :
    ¬ RaisesUnresolved environ vault overrides workflow ↔
      FragmentsFind environ vault overrides db raw := by
  have hvars := hreads out workflow hvalid
  have hnodup : (workflow.vars.map Prod.fst).Nodup := by
    rw [hvars, List.map_map, resolveFragments_vars hout]
    exact nodup_declare hkeys _
  rw [raisesUnresolved_iff hnodup, hvars]
  constructor
  · intro h name declaration hlast hnew
    by_contra hf
    refine h ⟨(name, readVariable declaration), List.mem_map.mpr ⟨(name, declaration), ?_, rfl⟩, hf⟩
    exact (mem_resolveFragments hout).mpr (.inr ⟨hlast, hnew⟩)
  · rintro h ⟨q, hq, hf⟩
    obtain ⟨p, hp, rfl⟩ := List.mem_map.mp hq
    rcases (mem_resolveFragments hout).mp hp with hown | ⟨hlast, hnew⟩
    · exact hf (hsupplied.own p hown)
    · exact hf (h p.1 p.2 hlast hnew)

end Theory

/-! ## A login -/

section Example

attribute [local instance] asciiText

/-- The fragment of a login, with this default for its user. -/
def userFragment (default : String) : WorkflowFragment where
  steps := [typeToken]
  vars := some [("A", .dict [("type", .str "credential"), ("default", .str default)])]

/-- Only the login is stored. -/
def userStore (default : String) : FragmentStore := fun id =>
  if id = "login" then some (userFragment default) else none

/-- A workflow that includes the login for this user. -/
def includeUser : RawWorkflow where
  steps := some [[("include", .str "login"), ("variables", .dict [("A", .str "admin")])]]
  other := [("name", .str "Sign in")]

/-- What `resolve_fragments` makes of it. -/
def includedUser (default : String) : RawWorkflow where
  steps := some [[("order", .int 1), ("name", .str "Type"), ("action", .str "type"),
    ("value", .str "admin!")]]
  vars := (userFragment default).vars
  other := [("name", .str "Sign in")]

/-- The validation, as far as such a workflow goes. -/
def validateUser : Validator := fun raw =>
  match Dict.get "name" raw.other with
  | some (.str _) => .ok
    { steps := [typeText "admin!"]
      vars := (raw.vars.getD []).map fun p => (p.1, readVariable p.2) }
  | _ => .error ⟨.valueError, "Field required"⟩

/-- The validated workflow. -/
def validUser (default : String) : DeclaredWorkflow where
  steps := [typeText "admin!"]
  vars := [("A", ⟨default⟩)]

theorem readsDeclarations_user : ReadsDeclarations validateUser := by
  intro raw workflow h
  unfold validateUser at h
  split at h
  · cases h
    rfl
  · cases h

theorem supplied_includeUser (default : String) :
    Supplied (fun _ => none) (fun _ => none) none (userStore default) includeUser where
  included step hstep hi id fragment hid hdb p hp := by
    obtain rfl := List.mem_singleton.mp hstep
    obtain rfl : "login" = id := Except.ok.inj hid
    obtain rfl : userFragment default = fragment := Option.some.inj hdb
    obtain rfl := List.mem_singleton.mp hp
    refine .inl fun step' hstep' _ _ => ?_
    obtain rfl := List.mem_singleton.mp hstep'
    exact ⟨[("A", .str "admin")], rfl, rfl⟩
  own p hp := absurd hp List.not_mem_nil

/-- A fragment with a default is accepted. -/
theorem bound_iff_guest : resolveFragments includeUser (userStore "guest") =
      .ok (includedUser "guest") ∧
    ¬ RaisesUnresolved (fun _ => none) (fun _ => none) none (validUser "guest") := by
  refine ⟨rfl, (bound_iff (fun _ => none) (fun _ => none) none validateUser
    readsDeclarations_user (userStore "guest") includeUser (includedUser "guest")
    (validUser "guest") List.nodup_nil rfl rfl (supplied_includeUser "guest")).mpr ?_⟩
  intro name declaration hlast _
  obtain ⟨hname, hdecl⟩ := Prod.mk.inj (List.mem_singleton.mp (Dict.mem_of_get hlast))
  rw [hname, hdecl]
  exact ⟨by decide, by decide⟩

/-- **A value in the include directive does not count**: `resolve_variables` asks for it again. -/
theorem included_value_asked_for : ReadsDeclarations validateUser ∧
    Supplied (fun _ => none) (fun _ => none) none (userStore "") includeUser ∧
    resolveFragments includeUser (userStore "") = .ok (includedUser "") ∧
    validateUser (includedUser "") = .ok (validUser "") ∧
    RaisesUnresolved (fun _ => none) (fun _ => none) none (validUser "") :=
  ⟨readsDeclarations_user, supplied_includeUser "", rfl, rfl, ["A"], rfl⟩

end Example

end ScoutEngine
