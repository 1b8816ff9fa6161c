import ScoutEngine.Passes
import ScoutEngine.Resolution

/-!
# The specification of `resolve_variables`

What the declared variables of a workflow stand for, said without the two loops of the code.

* `missingNames`, `chosen`, `opened`, `meaning`: the names without a value, the value by precedence,
  the secret behind a reference, and the two together.
* `Interpolated`: a step whose ten fields went through one pass of replacement.
* `resolveValues_unresolved`, `get_resolveValues`, `resolveVault_error_iff`, `get_resolveVault`: the
  two loops.
* **`resolveVariables_spec`**: the code meets the specification.
-/

set_option autoImplicit false

namespace ScoutEngine

/-! ## The specification -/

section Spec

variable (environ : String → Option String) (vault : String → Option String)

/-- An environment and a vault that are partial maps. -/
def Environs.ofMaps [PyText] : Environs where
  environ := environ
  vault name := match vault name with
    | some secret => .ok secret
    | none => .error ⟨.keyError, PyVal.reprStr name⟩

variable (overrides : Dict String String)

/-- A declared variable has no override, no environment entry and an empty default. -/
def Missing (p : String × WorkflowVariable) : Prop :=
  Dict.get p.1 overrides = none ∧ environ p.1 = none ∧ p.2.default = ""

instance (p : String × WorkflowVariable) : Decidable (Missing environ overrides p) :=
  inferInstanceAs (Decidable (_ ∧ _ ∧ _))

/-- The names that no value can be found for, in the order of their declarations. -/
def missingNames (vars : Dict String WorkflowVariable) : List String :=
  (vars.filter fun p => Missing environ overrides p).map Prod.fst

/-- The value by precedence: override, environment, default. -/
def chosen (name : String) (var : WorkflowVariable) : String :=
  ((Dict.get name overrides).or (environ name)).getD var.default

/-- What a value stands for: `vault:NAME` for a secret, any other text for itself. -/
def opened (value : String) : Option String :=
  if "vault:".toList.isPrefixOf value.toList then
    vault (String.ofList (value.toList.drop "vault:".length))
  else some value

/-- What a declared name stands for. -/
def meaning (vars : Dict String WorkflowVariable) (name : String) : Option String :=
  (Dict.get name vars).bind fun var => opened vault (chosen environ overrides name var)

end Spec

/-- The step without the texts of the ten interpolated fields. -/
def WorkflowStep.withoutTexts (s : WorkflowStep) : WorkflowStep :=
  { s with
    selector := none, value := none, urlPattern := none, auth := none, source := none
    destination := none, content := none, body := none, compareTo := none, pattern := none }

/-- **A step is interpolated**: in each of the ten fields the bound tokens are replaced in one pass
from left to right, and everything else is as it was. -/
structure Interpolates [PyText] (values : String → Option String) (s s' : WorkflowStep) : Prop where
  texts : ∀ k : TextField, Option.Rel (fun t t' : String =>
    Template.Replaced PyText.isWord (tokenEnv values) t.toList t'.toList) (s.text k) (s'.text k)
  rest : s'.withoutTexts = s.withoutTexts

/-- **The specification of `resolve_variables`.** -/
structure MeetsSpec [PyText] (environ vault : String → Option String) (workflow : DeclaredWorkflow)
    (overrides : Option (Dict String String)) : Prop where
  /-- Names without a value are all reported, in the order of their declarations. -/
  missing : missingNames environ (overrides.getD []) workflow.vars ≠ [] →
    resolveVariables (.ofMaps environ vault) workflow overrides =
      .error (unresolvedVariables (missingNames environ (overrides.getD []) workflow.vars))
  /-- Otherwise only a reference to a secret that the vault lacks is an error. -/
  lacking : missingNames environ (overrides.getD []) workflow.vars = [] →
    ((∃ e, resolveVariables (.ofMaps environ vault) workflow overrides = .error e) ↔
      ∃ p ∈ workflow.vars, ∃ name, chosen environ (overrides.getD []) p.1 p.2 = "vault:" ++ name ∧
        vault name = none)
  /-- Otherwise the steps are interpolated with what the declared names stand for. -/
  resolved : ∀ w, resolveVariables (.ofMaps environ vault) workflow overrides = .ok w →
    w.settings = workflow.settings ∧
      List.Forall₂ (Interpolates (meaning environ vault (overrides.getD []) workflow.vars))
        workflow.steps w.steps ∧
      List.Forall₂ (Interpolates (meaning environ vault (overrides.getD []) workflow.vars))
        workflow.cleanupSteps w.cleanupSteps
  /-- Overrides for other names have no effect. -/
  undeclared : ∀ overrides' : Option (Dict String String),
    (∀ name, Dict.has name workflow.vars = true →
      Dict.get name (overrides'.getD []) = Dict.get name (overrides.getD [])) →
    resolveVariables (.ofMaps environ vault) workflow overrides' =
      resolveVariables (.ofMaps environ vault) workflow overrides

/-! ## The first loop -/

section Loops

variable {environ vault : String → Option String} {overrides : Dict String String}

theorem variableValue_eq [PyText] (name : String) (var : WorkflowVariable) :
    variableValue (.ofMaps environ vault) overrides name var =
      if Missing environ overrides (name, var) then none
      else some (chosen environ overrides name var) := by
  have henv : (Environs.ofMaps environ vault).environ = environ := rfl
  unfold variableValue
  rw [henv]
  by_cases hm : Missing environ overrides (name, var)
  · rw [if_pos hm]
    obtain ⟨ho, he, hd⟩ := hm
    dsimp only at ho he hd
    rw [ho, he]
    exact if_pos hd
  · rw [if_neg hm]
    unfold chosen
    cases ho : Dict.get name overrides with
    | some value => rfl
    | none =>
      cases he : environ name with
      | some value => rfl
      | none => exact if_neg fun hd => hm ⟨ho, he, hd⟩

/-- The names that the first loop reports. -/
theorem resolveValues_unresolved [PyText] (vars : Dict String WorkflowVariable)
    (values : Dict String String) (unresolved : List String) :
    (resolveValues (.ofMaps environ vault) overrides vars values unresolved).2 =
      unresolved ++ missingNames environ overrides vars := by
  induction vars generalizing values unresolved with
  | nil => exact (List.append_nil _).symm
  | cons p rest ih =>
    obtain ⟨name, var⟩ := p
    unfold resolveValues missingNames
    rw [variableValue_eq, List.filter_cons]
    by_cases hm : Missing environ overrides (name, var)
    · rw [if_pos hm, if_pos (decide_eq_true hm)]
      dsimp only
      rw [ih, List.append_assoc]
      rfl
    · rw [if_neg hm, if_neg (fun h => hm (of_decide_eq_true h))]
      exact ih _ _

theorem not_missing {vars : Dict String WorkflowVariable} {p : String × WorkflowVariable}
    (hno : missingNames environ overrides vars = []) (hp : p ∈ vars) :
    ¬ Missing environ overrides p := fun hm => by
  have hmem : p ∈ vars.filter fun p => Missing environ overrides p :=
    List.mem_filter.mpr ⟨hp, decide_eq_true hm⟩
  exact List.ne_nil_of_mem (List.mem_map_of_mem hmem) hno

/-- The values that the first loop finds. -/
theorem get_resolveValues [PyText] {vars : Dict String WorkflowVariable}
    (hkeys : (vars.map Prod.fst).Nodup) (values : Dict String String) (unresolved : List String)
    (name : String) :
    Dict.get name (resolveValues (.ofMaps environ vault) overrides vars values unresolved).1 =
      ((Dict.get name vars).bind fun var =>
        variableValue (.ofMaps environ vault) overrides name var).or (Dict.get name values) := by
  induction vars generalizing values unresolved with
  | nil => rfl
  | cons p rest ih =>
    obtain ⟨n, var⟩ := p
    rw [List.map_cons, List.nodup_cons] at hkeys
    have hget : n = name → Dict.get name rest = none := fun hn =>
      Option.eq_none_iff_forall_ne_some.mpr fun v hv => by
        have hmem := List.mem_map_of_mem (f := Prod.fst) (Dict.mem_of_get hv)
        exact hkeys.1 (hn ▸ hmem)
    unfold resolveValues
    cases hv : variableValue (.ofMaps environ vault) overrides n var with
    | none =>
      dsimp only
      rw [ih hkeys.2, Dict.get]
      split_ifs with hn
      · rw [hget hn, Option.bind_some, ← hn, hv]
        rfl
      · rfl
    | some value =>
      dsimp only
      rw [ih hkeys.2, Dict.get, Dict.get_set]
      split_ifs with hn
      · rw [hget hn, Option.bind_some, ← hn, hv]
        rfl
      · rfl

/-- What the first loop finds are the chosen values. -/
theorem mem_resolveValues [PyText] {vars : Dict String WorkflowVariable}
    {values : Dict String String} {unresolved : List String} {p : String × String}
    (h : p ∈ (resolveValues (.ofMaps environ vault) overrides vars values unresolved).1) :
    p ∈ values ∨ ∃ var, (p.1, var) ∈ vars ∧ p.2 = chosen environ overrides p.1 var := by
  induction vars generalizing values unresolved with
  | nil => exact .inl h
  | cons q rest ih =>
    obtain ⟨n, var⟩ := q
    unfold resolveValues at h
    rw [variableValue_eq] at h
    split_ifs at h with hm
    · rcases ih h with hp | ⟨var', hvar, hp⟩
      · exact .inl hp
      · exact .inr ⟨var', List.mem_cons_of_mem _ hvar, hp⟩
    · rcases ih h with hp | ⟨var', hvar, hp⟩
      · rcases Dict.mem_set hp with rfl | hp
        · exact .inr ⟨var, List.mem_cons_self, rfl⟩
        · exact .inl hp
      · exact .inr ⟨var', List.mem_cons_of_mem _ hvar, hp⟩

/-! ## The second loop -/

theorem drop_vault (name : List Char) : ("vault:".toList ++ name).drop "vault:".length = name :=
  List.drop_left' rfl

theorem opened_eq_none {value : String} :
    opened vault value = none ↔ ∃ name, value = "vault:" ++ name ∧ vault name = none := by
  unfold opened
  constructor
  · intro h
    split_ifs at h with hp
    obtain ⟨name, hname⟩ := List.isPrefixOf_iff_prefix.mp hp
    rw [← hname, drop_vault] at h
    refine ⟨String.ofList name, ?_, h⟩
    apply String.toList_inj.mp
    have hlist : (String.ofList name).toList = name := String.toList_ofList
    rw [String.toList_append, hlist, hname]
  · rintro ⟨name, rfl, h⟩
    have hp : "vault:".toList.isPrefixOf ("vault:" ++ name).toList = true := by
      rw [List.isPrefixOf_iff_prefix, String.toList_append]
      exact List.prefix_append _ _
    rw [if_pos hp, String.toList_append, drop_vault, String.ofList_toList]
    exact h

/-- A value is opened, or `UnresolvedVariableError` is raised. -/
theorem resolveVault_cons [PyText] (name value : String) (rest : Dict String String) :
    resolveVault (.ofMaps environ vault) ((name, value) :: rest) =
      match opened vault value with
      | some v => resolveVault (.ofMaps environ vault) rest >>= fun rest => pure ((name, v) :: rest)
      | none => .error (unresolvedVariables
          [String.ofList (value.toList.drop "vault:".length)]) := by
  unfold opened
  conv_lhs => unfold resolveVault
  split_ifs with hp
  · unfold resolveVaultReference
    have hv : (Environs.ofMaps environ vault).vault =
        fun name => match vault name with
          | some secret => .ok secret
          | none => .error ⟨.keyError, PyVal.reprStr name⟩ := rfl
    rw [hv]
    dsimp only
    cases vault (String.ofList (value.toList.drop "vault:".length)) with
    | some v => rfl
    | none => rfl
  · rfl

theorem bind_pure_error {ε α β : Type} {x : Except ε α} {f : α → β} :
    (∃ e, (x >>= fun a => pure (f a)) = .error e) ↔ ∃ e, x = .error e := by
  cases x with
  | error e => exact ⟨fun _ => ⟨e, rfl⟩, fun _ => ⟨e, rfl⟩⟩
  | ok a => simp [bind, Except.bind, pure, Except.pure]

theorem resolveVault_error_iff [PyText] {values : Dict String String} :
    (∃ e, resolveVault (.ofMaps environ vault) values = .error e) ↔
      ∃ p ∈ values, opened vault p.2 = none := by
  induction values with
  | nil =>
    constructor
    · rintro ⟨e, he⟩
      cases he
    · rintro ⟨p, hp, -⟩
      exact absurd hp List.not_mem_nil
  | cons p rest ih =>
    obtain ⟨n, value⟩ := p
    rw [resolveVault_cons]
    cases ho : opened vault value with
    | none =>
      constructor
      · exact fun _ => ⟨(n, value), List.mem_cons_self, ho⟩
      · exact fun _ => ⟨_, rfl⟩
    | some v =>
      refine bind_pure_error.trans (ih.trans ⟨?_, ?_⟩)
      · rintro ⟨q, hq, hn⟩
        exact ⟨q, List.mem_cons_of_mem _ hq, hn⟩
      · rintro ⟨q, hq, hn⟩
        rcases List.mem_cons.mp hq with rfl | hq
        · exact absurd (ho.symm.trans hn) (Option.some_ne_none v)
        · exact ⟨q, hq, hn⟩

/-- The second loop raises nothing but `UnresolvedVariableError`. -/
theorem resolveVault_raises [PyText] {values : Dict String String} {e : PyExc}
    (h : resolveVault (.ofMaps environ vault) values = .error e) :
    ∃ names, e = unresolvedVariables names := by
  induction values with
  | nil => cases h
  | cons p rest ih =>
    obtain ⟨name, value⟩ := p
    rw [resolveVault_cons] at h
    cases ho : opened vault value with
    | none =>
      rw [ho] at h
      cases h
      exact ⟨_, rfl⟩
    | some v =>
      rw [ho] at h
      cases hr : resolveVault (.ofMaps environ vault) rest with
      | error e' =>
        rw [hr] at h
        cases h
        exact ih hr
      | ok rest' =>
        rw [hr] at h
        cases h

theorem get_resolveVault [PyText] {values values' : Dict String String}
    (h : resolveVault (.ofMaps environ vault) values = .ok values') (name : String) :
    Dict.get name values' = (Dict.get name values).bind (opened vault) := by
  induction values generalizing values' with
  | nil =>
    cases h
    rfl
  | cons p rest ih =>
    obtain ⟨n, value⟩ := p
    rw [resolveVault_cons] at h
    cases ho : opened vault value with
    | none =>
      rw [ho] at h
      cases h
    | some v =>
      rw [ho] at h
      obtain ⟨rest', hr, h⟩ := bind_ok.mp h
      cases h
      rw [Dict.get, Dict.get]
      split_ifs
      · exact ho.symm
      · exact ih hr

end Loops

/-! ## The function -/

section Function

variable [PyText] {environ vault : String → Option String}

/-- `resolve_variables`, by what the two loops do. -/
theorem resolveVariables_eq (workflow : DeclaredWorkflow)
    (overrides : Option (Dict String String)) :
    resolveVariables (.ofMaps environ vault) workflow overrides =
      if missingNames environ (overrides.getD []) workflow.vars = [] then
        resolveVault (.ofMaps environ vault) (resolveValues (.ofMaps environ vault)
          (overrides.getD []) workflow.vars [] []).1 >>= fun values =>
            pure { workflow.toWorkflow with
              steps := workflow.steps.map (resolveStep · values)
              cleanupSteps := workflow.cleanupSteps.map (resolveStep · values) }
      else .error (unresolvedVariables
        (missingNames environ (overrides.getD []) workflow.vars)) := by
  have hun : (resolveValues (.ofMaps environ vault) (overrides.getD []) workflow.vars [] []).2 =
      missingNames environ (overrides.getD []) workflow.vars :=
    resolveValues_unresolved workflow.vars [] []
  unfold resolveVariables
  rw [← hun]
  rcases resolveValues (.ofMaps environ vault) (overrides.getD []) workflow.vars [] [] with
    ⟨values, _ | ⟨u, us⟩⟩
  · rfl
  · rfl

/-- When every name has a value, the declared names are chosen, and no others. -/
theorem get_chosen {overrides : Dict String String} {vars : Dict String WorkflowVariable}
    (hkeys : (vars.map Prod.fst).Nodup) (hno : missingNames environ overrides vars = [])
    (name : String) :
    Dict.get name (resolveValues (.ofMaps environ vault) overrides vars [] []).1 =
      (Dict.get name vars).map (chosen environ overrides name) := by
  rw [get_resolveValues hkeys]
  cases hg : Dict.get name vars with
  | none => rfl
  | some var =>
    rw [Option.bind_some, variableValue_eq, if_neg (not_missing hno (Dict.mem_of_get hg))]
    rfl

/-- What the second loop stumbles over, among the declarations. -/
theorem lacking_iff {overrides : Dict String String} {vars : Dict String WorkflowVariable}
    (hkeys : (vars.map Prod.fst).Nodup) (hno : missingNames environ overrides vars = []) :
    (∃ p ∈ (resolveValues (.ofMaps environ vault) overrides vars [] []).1,
        opened vault p.2 = none) ↔
      ∃ p ∈ vars, opened vault (chosen environ overrides p.1 p.2) = none := by
  constructor
  · rintro ⟨p, hp, hn⟩
    rcases mem_resolveValues hp with hp | ⟨var, hvar, hchosen⟩
    · exact absurd hp List.not_mem_nil
    · rw [hchosen] at hn
      exact ⟨(p.1, var), hvar, hn⟩
  · rintro ⟨⟨name, var⟩, hp, hn⟩
    have hget := @get_chosen _ environ vault _ _ hkeys hno name
    rw [Dict.get_of_mem hkeys hp] at hget
    exact ⟨(name, chosen environ overrides name var), Dict.mem_of_get hget, hn⟩

theorem resolveStep_interpolates {values : Dict String String} {f : String → Option String}
    (h : ∀ name, Dict.get name values = f name) (step : WorkflowStep) :
    Interpolates f step (resolveStep step values) where
  texts k := by
    obtain rfl := funext h
    rw [text_resolveStep]
    cases step.text k with
    | none => exact .none
    | some t => exact .some ((Template.replaced_iff isWord_brace).mpr (toList_varSub _ t))
  rest := rfl

theorem interpolates_map {values : Dict String String} {f : String → Option String}
    (h : ∀ name, Dict.get name values = f name) (steps : List WorkflowStep) :
    List.Forall₂ (Interpolates f) steps (steps.map (resolveStep · values)) :=
  List.forall₂_map_right_iff.mpr
    (List.forall₂_same.mpr fun step _ => resolveStep_interpolates h step)

omit [PyText] in
/-- The first loop looks at the overrides of declared names only. -/
theorem resolveValues_congr {env : Environs} {overrides overrides' : Dict String String}
    {vars : Dict String WorkflowVariable}
    (h : ∀ p ∈ vars, Dict.get p.1 overrides' = Dict.get p.1 overrides)
    (values : Dict String String) (unresolved : List String) :
    resolveValues env overrides' vars values unresolved =
      resolveValues env overrides vars values unresolved := by
  induction vars generalizing values unresolved with
  | nil => rfl
  | cons p rest ih =>
    obtain ⟨name, var⟩ := p
    have hv : variableValue env overrides' name var = variableValue env overrides name var := by
      unfold variableValue
      rw [h (name, var) List.mem_cons_self]
    have hrest := ih fun q hq => h q (List.mem_cons_of_mem _ hq)
    unfold resolveValues
    rw [hv]
    cases variableValue env overrides name var with
    | none => exact hrest _ _
    | some value => exact hrest _ _

/-- **Main result.** `resolve_variables` meets its specification. -/
theorem resolveVariables_spec (environ vault : String → Option String)
    (workflow : DeclaredWorkflow) (overrides : Option (Dict String String))
    (hkeys : (workflow.vars.map Prod.fst).Nodup) :
    MeetsSpec environ vault workflow overrides where
  missing h := by rw [resolveVariables_eq, if_neg h]
  lacking h := by
    rw [resolveVariables_eq, if_pos h, bind_pure_error, resolveVault_error_iff, lacking_iff hkeys h]
    simp only [opened_eq_none]
  resolved w h := by
    rw [resolveVariables_eq] at h
    split_ifs at h with hno
    obtain ⟨values, hv, hw⟩ := bind_ok.mp h
    cases hw
    have hvalues : ∀ name, Dict.get name values =
        meaning environ vault (overrides.getD []) workflow.vars name := fun name => by
      rw [get_resolveVault hv, get_chosen hkeys hno, Option.bind_map]
      rfl
    exact ⟨rfl, interpolates_map hvalues _, interpolates_map hvalues _⟩
  undeclared overrides' h := by
    have hdeclared : ∀ p ∈ workflow.vars,
        Dict.get p.1 (overrides'.getD []) = Dict.get p.1 (overrides.getD []) := fun p hp => by
      refine h p.1 ?_
      unfold Dict.has
      rw [Dict.get_of_mem hkeys hp]
      rfl
    unfold resolveVariables
    rw [resolveValues_congr hdeclared]

end Function

/-! ## A variable and its override -/

section Example

attribute [local instance] asciiText

/-- One page of a declared site, whose address is in the vault. -/
def vaultPage : DeclaredWorkflow where
  steps := [typeText "${SITE}/export"]
  vars := [("SITE", { default := "https://example.com" })]

theorem resolveVariables_spec_vaultPage :
    MeetsSpec (fun _ => none) (fun name => if name = "site" then some "https://a.test" else none)
      vaultPage (some [("SITE", "vault:site")]) :=
  resolveVariables_spec _ _ _ _ (by decide)

end Example

end ScoutEngine
