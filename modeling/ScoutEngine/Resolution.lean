import ScoutEngine.Variables

/-!
# Declared variables

`resolve_variables`: the declared variables of a workflow get their values before a run.

* `WorkflowVariable`, `DeclaredWorkflow`: a validated workflow with its declarations.
* `Environs`: the process environment and the secret vault, which are not part of the repository.
* `resolveValues`, `resolveVault`, **`resolveVariables`**.
* `resolvedValues`, `resolvedValues_keys`: the values, which the declared names have.
-/

set_option autoImplicit false

namespace ScoutEngine

/-- A declared variable. -/
structure WorkflowVariable where
  default : String := ""

/-- A validated workflow, with its declared variables. -/
structure DeclaredWorkflow extends Workflow where
  vars : Dict String WorkflowVariable := []

/-- `os.environ`, and `CredentialResolver.get`. -/
structure Environs where
  environ : String → Option String
  vault : String → Except PyExc String

/-- No environment variable is set, and the vault is empty. -/
def noEnvirons : Environs where
  environ := fun _ => none
  vault := fun _ => .error ⟨.keyError, ""⟩

/-- `UnresolvedVariableError`. -/
def unresolvedVariables (names : List String) : PyExc :=
  ⟨.other, "Unresolved variables: " ++ ", ".intercalate names⟩

/-- The value of a declared variable: an override, the environment, the default. -/
def variableValue (env : Environs) (overrides : Dict String String) (name : String)
    (var : WorkflowVariable) : Option String :=
  match Dict.get name overrides with
  | some value => some value
  | none =>
    match env.environ name with
    | some value => some value
    | none => if var.default = "" then none else some var.default

/-- The loop over the declarations, with `resolved_values` and `unresolved`. -/
def resolveValues (env : Environs) (overrides : Dict String String) :
    Dict String WorkflowVariable → Dict String String → List String →
      Dict String String × List String
  | [], values, unresolved => (values, unresolved)
  | (name, var) :: rest, values, unresolved =>
    match variableValue env overrides name var with
    | some value => resolveValues env overrides rest (Dict.set name value values) unresolved
    | none => resolveValues env overrides rest values (unresolved ++ [name])

/-- `_resolve_vault_reference`. -/
def resolveVaultReference (env : Environs) (value : String) : Except PyExc String :=
  let name := String.ofList (value.toList.drop "vault:".length)
  match env.vault name with
  | .ok secret => .ok secret
  | .error e => if e.kind = .keyError then .error (unresolvedVariables [name]) else .error e

/-- The loop over the values that are references to the vault. -/
def resolveVault (env : Environs) : Dict String String → Except PyExc (Dict String String)
  | [] => .ok []
  | (name, value) :: rest => do
    let value ←
      if "vault:".toList.isPrefixOf value.toList then resolveVaultReference env value else pure value
    let rest ← resolveVault env rest
    pure ((name, value) :: rest)

/-- **`resolve_variables`.** -/
def resolveVariables [PyText] (env : Environs) (workflow : DeclaredWorkflow)
    (overrides : Option (Dict String String)) : Except PyExc Workflow :=
  match resolveValues env (overrides.getD []) workflow.vars [] [] with
  | (values, []) => do
    let values ← resolveVault env values
    pure { workflow.toWorkflow with
      steps := workflow.steps.map (resolveStep · values)
      cleanupSteps := workflow.cleanupSteps.map (resolveStep · values) }
  | (_, unresolved) => .error (unresolvedVariables unresolved)

/-! ## The values -/

/-- The values of the declared variables, with the references to the vault resolved. -/
def resolvedValues (env : Environs) (workflow : DeclaredWorkflow)
    (overrides : Option (Dict String String)) : Except PyExc (Dict String String) :=
  match resolveValues env (overrides.getD []) workflow.vars [] [] with
  | (values, []) => resolveVault env values
  | (_, unresolved) => .error (unresolvedVariables unresolved)

theorem resolveVariables_ok [PyText] {env : Environs} {workflow : DeclaredWorkflow}
    {overrides : Option (Dict String String)} {w : Workflow}
    (h : resolveVariables env workflow overrides = .ok w) :
    ∃ values, resolvedValues env workflow overrides = .ok values ∧
      w.steps = workflow.steps.map (resolveStep · values) ∧
      w.cleanupSteps = workflow.cleanupSteps.map (resolveStep · values) := by
  unfold resolveVariables at h
  unfold resolvedValues
  generalize resolveValues env (overrides.getD []) workflow.vars [] [] = r at h ⊢
  rcases r with ⟨values, _ | ⟨u, us⟩⟩
  · obtain ⟨values', hv, hw⟩ := bind_ok.mp h
    cases hw
    exact ⟨values', hv, rfl, rfl⟩
  · cases h

/-- Without an unresolved variable, every declared name has a value. -/
theorem resolveValues_keys {env : Environs} {overrides : Dict String String}
    {vars : Dict String WorkflowVariable} {values values' : Dict String String}
    {unresolved : List String}
    (h : resolveValues env overrides vars values unresolved = (values', [])) (name : String) :
    unresolved = [] ∧ (Dict.get name values').isSome =
      ((Dict.get name values).isSome || (Dict.get name vars).isSome) := by
  induction vars generalizing values unresolved with
  | nil =>
    obtain ⟨rfl, rfl⟩ := Prod.mk.inj h
    simp [Dict.get]
  | cons p rest ih =>
    obtain ⟨n, var⟩ := p
    unfold resolveValues at h
    cases hv : variableValue env overrides n var with
    | none =>
      rw [hv] at h
      exact absurd (ih h).1 (by simp)
    | some value =>
      rw [hv] at h
      obtain ⟨hun, hkeys⟩ := ih h
      refine ⟨hun, hkeys.trans ?_⟩
      rw [Dict.get_set, Dict.get]
      by_cases hn : n = name <;> simp [hn]

theorem resolveVault_keys {env : Environs} {values values' : Dict String String}
    (h : resolveVault env values = .ok values') (name : String) :
    (Dict.get name values').isSome = (Dict.get name values).isSome := by
  induction values generalizing values' with
  | nil =>
    cases h
    rfl
  | cons p rest ih =>
    obtain ⟨n, value⟩ := p
    have hrest : ∃ value' rest', resolveVault env rest = .ok rest' ∧
        values' = (n, value') :: rest' := by
      unfold resolveVault at h
      split_ifs at h
      all_goals
        obtain ⟨value', -, h⟩ := bind_ok.mp h
        obtain ⟨rest', hr, h⟩ := bind_ok.mp h
        cases h
        exact ⟨value', rest', hr, rfl⟩
    obtain ⟨value', rest', hr, rfl⟩ := hrest
    rw [Dict.get, Dict.get, apply_ite Option.isSome, apply_ite Option.isSome, ih hr]
    rfl

/-- **The names that have a value are the declared ones.** -/
theorem resolvedValues_keys {env : Environs} {workflow : DeclaredWorkflow}
    {overrides : Option (Dict String String)} {values : Dict String String}
    (h : resolvedValues env workflow overrides = .ok values) (name : String) :
    (Dict.get name values).isSome = (Dict.get name workflow.vars).isSome := by
  unfold resolvedValues at h
  rcases hr : resolveValues env (overrides.getD []) workflow.vars [] [] with ⟨values', _ | ⟨u, us⟩⟩
  · rw [hr] at h
    rw [resolveVault_keys h, (resolveValues_keys hr name).2]
    rfl
  · rw [hr] at h
    cases h

end ScoutEngine
