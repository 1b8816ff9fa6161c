import ScoutEngine.Schema
import ScoutEngine.Lib.Template

/-!
# Variable substitution

* `substitute`: `_VAR_PATTERN.sub`, the one regular-expression pass that all three substitutions
  of the engine share; `substitute_eq`: the test for `${` in front of it changes nothing.
* `resolveStep`: declared variables, before the run.
* `resolveStepRuntime`: step outputs, before each step; `Outputs.text`: `str` of an output.
-/

set_option autoImplicit false

namespace ScoutEngine

variable [PyText]

/-- Outputs by name; the key is `None` for a loop without a `loop_var`. -/
abbrev Outputs := Dict (Option String) PyVal

/-- Replace the tokens `${NAME}` that `values` binds. -/
def varSub (values : String → Option String) (t : String) : String :=
  String.ofList (Template.sub PyText.isWord
    (fun w => (values (String.ofList w)).map String.toList) t.toList)

/-- Substitution in a field: only texts that contain `${` are scanned. -/
def substitute (values : String → Option String) (t : String) : String :=
  if t ≠ "" ∧ containsStr "$\x7b" t then varSub values t else t

/-- `_resolve_step`. -/
def resolveStep (step : WorkflowStep) (values : Dict String String) : WorkflowStep :=
  step.mapText (substitute fun name => Dict.get name values)

/-- The text that stands for an output. -/
def Outputs.text (outputs : Outputs) (name : String) : Option String :=
  (Dict.get (some name) outputs).map PyVal.toStr

/-- `resolve_step_runtime`. -/
def resolveStepRuntime (step : WorkflowStep) (outputs : Outputs) : WorkflowStep :=
  if outputs = [] then step else step.mapText (substitute outputs.text)

/-! ## The test for `${` -/

theorem not_mem_scan {t : String} (h : containsStr "$\x7b" t = false) (w : List Char) :
    Template.Seg.tok w ∉ Template.scan PyText.isWord t.toList := by
  intro hw
  have hsub : "$\x7b".toList <:+: t.toList :=
    (List.prefix_append ['$', '{'] (w ++ ['}'])).isInfix.trans (Template.infix_of_mem_scan _ hw)
  exact absurd (h.symm.trans ((containsStr_iff _ _).mpr hsub)) Bool.false_ne_true

theorem substitute_of_no_token (values : String → Option String) {t : String}
    (h : containsStr "$\x7b" t = false) : substitute values t = t := by
  rw [substitute, if_neg]
  rintro ⟨-, hc⟩
  exact absurd (h.symm.trans hc) Bool.false_ne_true

theorem varSub_none (t : String) : varSub (fun _ => none) t = t := by
  show String.ofList (Template.sub PyText.isWord (fun _ => none) t.toList) = t
  rw [Template.sub_of_unbound fun _ _ => rfl, String.ofList_toList]

/-- **The test for `${` changes nothing.** -/
theorem substitute_eq (values : String → Option String) (t : String) :
    substitute values t = varSub values t := by
  unfold substitute
  split_ifs with h
  · rfl
  · have hc : containsStr "$\x7b" t = false := by
      by_cases ht : t = ""
      · rw [ht]
        rfl
      · exact Bool.eq_false_iff.mpr fun hc => h ⟨ht, hc⟩
    rw [varSub, Template.sub_of_unbound fun w hw => absurd hw (not_mem_scan hc w),
      String.ofList_toList]

end ScoutEngine
