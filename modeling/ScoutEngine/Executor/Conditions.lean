import ScoutEngine.Executor.StoredLists

/-!
# Conditions on stored values

A conditional step on `${x}` reads the text that stands for the value stored under `x`. The texts of
the values that count as false are those that the condition knows, except for `None`.

* `PyVal.Counts`: the values that count as true; `lower_mem_falsy`: the letter case of the words.
* `counts_iff_text`: the value against its text.
* `Meets`, `ConditionsFollow`; **`conditions_follow_iff`**; `stored_null_is_met`.
-/

set_option autoImplicit false

namespace ScoutEngine

/-- A text is a word, in any letter case. -/
def InAnyCase (s w : String) : Prop := s.toList.map Char.toLower = w.toList

/-- **The value counts as true.** -/
def PyVal.Counts (v : PyVal) : Prop :=
  v ≠ .none ∧ v ≠ .bool false ∧ v ≠ .int 0 ∧ v ≠ .str "" ∧
    ∀ s, v = .str s → ∀ w ∈ ["false", "null", "0"], ¬ InAnyCase s w

/-- Null, booleans, integers and texts. -/
def PyVal.Plain : PyVal → Prop
  | .none | .bool _ | .int _ | .str _ => True
  | _ => False

section Theory

variable [PyText]

/-! ## The words -/

theorem lower_eq_iff {s w : String}
    (hw : w.toList.all (fun c => c.toNat < 128 && c != 'k') = true) :
    PyText.lower s = w ↔ InAnyCase s w := by
  have hascii : ∀ c ∈ w.toList, c.toNat < 128 ∧ c ≠ 'k' := by
    simpa [List.all_eq_true] using hw
  constructor
  · intro h
    have hs := PyText.ascii_of_lower s (by rwa [h])
    rw [PyText.lower_ascii s hs] at h
    rw [InAnyCase, ← h, String.toList_ofList]
  · intro h
    have hs : ∀ c ∈ s.toList, c.toNat < 128 := by
      intro c hc
      have hmem : c.toLower ∈ w.toList := h ▸ List.mem_map_of_mem hc
      exact ascii_of_toLower (hascii _ hmem).1
    rw [PyText.lower_ascii s hs, h, String.ofList_toList]

/-- The texts that count as false. -/
theorem falsyText_iff (s : String) :
    falsyText (some s) = true ↔ s = "" ∨ ∃ w ∈ ["false", "null", "0"], InAnyCase s w := by
  have hempty : PyText.lower s = "" ↔ s = "" := by
    rw [lower_eq_iff (by decide), InAnyCase]
    simp
  have hword : ∀ w ∈ ["false", "null", "0"], (PyText.lower s = w ↔ InAnyCase s w) := by
    intro w hw
    refine lower_eq_iff ?_
    simp only [List.mem_cons, List.not_mem_nil, or_false] at hw
    rcases hw with rfl | rfl | rfl <;> decide
  simp only [falsyText, List.mem_cons, decide_eq_true_eq, List.not_mem_nil, or_false] at hword ⊢
  simp only [forall_eq_or_imp, forall_eq] at hword
  simp [hempty, hword.1, hword.2.1, hword.2.2]

theorem toList_toStr_int (i : ℤ) : (PyVal.toStr (.int i)).toList =
    (if decide (i < 0) then ['-'] else []) ++ Nat.toDigits 10 i.natAbs := Json.shown_int i

omit [PyText] in
theorem toLower_of_digit {c : Char} (h : c = '-' ∨ c.isDigit = true) : c.toLower = c := by
  unfold Char.toLower
  rw [dif_neg]
  rintro ⟨h1, -⟩
  rcases h with rfl | hd
  · exact absurd h1 (by decide)
  · have hle : c.toNat ≤ 57 := (Char.isDigit_iff_toNat.mp hd).2
    have hge : 65 ≤ c.toNat := h1
    omega

theorem mem_toStr_int {i : ℤ} {c : Char} (hc : c ∈ (PyVal.toStr (.int i)).toList) :
    c = '-' ∨ c.isDigit = true := by
  rw [toList_toStr_int, List.mem_append] at hc
  rcases hc with hc | hc
  · split_ifs at hc
    · exact Or.inl (List.mem_singleton.mp hc)
    · cases hc
  · exact Or.inr (Json.isDigit_toDigits _ c hc)

theorem inAnyCase_int (i : ℤ) (w : String) :
    InAnyCase (PyVal.toStr (.int i)) w ↔ PyVal.toStr (.int i) = w := by
  have hmap : (PyVal.toStr (.int i)).toList.map Char.toLower = (PyVal.toStr (.int i)).toList := by
    rw [List.map_congr_left fun c hc => toLower_of_digit (mem_toStr_int hc), List.map_id']
  rw [InAnyCase, hmap, String.toList_inj]

theorem toStr_eq_zero {i : ℤ} (h : PyVal.toStr (.int i) = "0") : i = 0 := by
  have hlist := toList_toStr_int i
  rw [h] at hlist
  by_cases hneg : i < 0
  · rw [if_pos (by simpa using hneg)] at hlist
    cases hlist
  · rw [if_neg (by simpa using hneg), List.nil_append] at hlist
    have hnat := Json.natOf_toDigits i.natAbs
    rw [← hlist] at hnat
    exact Int.natAbs_eq_zero.mp hnat.symm

/-- The text of an integer counts as false only for zero. -/
theorem falsyText_int (i : ℤ) : falsyText (some (PyVal.toStr (.int i))) = true ↔ i = 0 := by
  rw [falsyText_iff]
  have hletter : 'l' ∉ (PyVal.toStr (.int i)).toList := fun h => by
    rcases mem_toStr_int h with h | h
    · exact absurd h (by decide)
    · exact absurd h (by decide)
  constructor
  · rintro (h | ⟨w, hw, h⟩)
    · have hlist := toList_toStr_int i
      rw [h] at hlist
      exact absurd (List.append_eq_nil_iff.mp hlist.symm).2 Nat.toDigits_ne_nil
    · rw [inAnyCase_int] at h
      simp only [List.mem_cons, List.not_mem_nil, or_false] at hw
      rcases hw with rfl | rfl | rfl
      · exact absurd (by decide) (h ▸ hletter)
      · exact absurd (by decide) (h ▸ hletter)
      · exact toStr_eq_zero h
  · rintro rfl
    refine Or.inr ⟨"0", by decide, (inAnyCase_int 0 "0").mpr ?_⟩
    rfl

/-! ## Conditions -/

/-- **The text of a value counts as false iff the value does**, unless it is null. -/
theorem counts_iff_text {v : PyVal} (hv : v.Plain) (hnull : v ≠ .none) :
    falsyText (some v.toStr) = true ↔ ¬ v.Counts := by
  cases v with
  | none => exact absurd rfl hnull
  | bool b =>
    have htext : (PyVal.bool b).toStr = if b then "True" else "False" := by
      rw [PyVal.toStr, PyVal.repr]
      simp
    rw [falsyText_iff, htext]
    cases b with
    | false =>
      have hword : InAnyCase "False" "false" := by
        show "False".toList.map Char.toLower = "false".toList
        decide
      exact iff_of_true (Or.inr ⟨"false", by decide, hword⟩) fun h => h.2.1 rfl
    | true =>
      have hcounts : (PyVal.bool true).Counts := by simp [PyVal.Counts]
      refine iff_of_false ?_ fun h => h hcounts
      show ¬ ("True" = "" ∨ ∃ w ∈ ["false", "null", "0"],
        "True".toList.map Char.toLower = w.toList)
      decide
  | int i =>
    rw [falsyText_int, PyVal.Counts]
    simp
  | str s =>
    rw [PyVal.toStr, falsyText_iff, PyVal.Counts]
    simp only [ne_eq, reduceCtorEq, not_false_eq_true, PyVal.str.injEq, true_and, forall_eq']
    constructor
    · rintro (h | ⟨w, hw, h⟩) ⟨hne, hall⟩
      · exact hne h
      · exact hall w hw h
    · intro h
      by_contra hno
      exact h ⟨fun he => hno (Or.inl he), fun w hw hc => hno (Or.inr ⟨w, hw, hc⟩)⟩
  | float f | list xs | dict kvs => exact absurd hv id

/-- The condition of a step is `truthy`. -/
def WorkflowStep.AsksTruthy (step : WorkflowStep) : Prop :=
  step.condition.getD "" = "" ∨ step.condition = some "truthy"

/-- The condition of a step is `falsy`. -/
def WorkflowStep.AsksFalsy (step : WorkflowStep) : Prop := step.condition = some "falsy"

/-- **The condition of a step has an outcome**, and the result of the step says so if it passes. -/
def Meets (step : WorkflowStep) (met : Bool) : Prop :=
  conditionMet step = .ok met ∧
  ∀ (env : Env) (o : StepOptions) (m : NetworkMonitor) (calls : Calls),
    (executeStep env o step m calls).1.status = .passed →
      (executeStep env o step m calls).1.outputData.getKey "condition_met" = .bool met

theorem meets_of {step : WorkflowStep} (ha : step.action = .conditional) {met : Bool}
    (h : conditionMet step = .ok met) : Meets step met := by
  refine ⟨h, fun env o m calls hp => ?_⟩
  obtain ⟨met', hmet, hout⟩ := (executeStep_output env o step m calls).conditional ha hp
  obtain rfl := Except.ok.inj (h.symm.trans hmet)
  rw [hout]
  rfl

/-- **Every conditional step on `${x}` follows the value** stored under `x`. -/
def ConditionsFollow (outputs : Outputs) (x : String) (v : PyVal) : Prop :=
  ∀ raw : WorkflowStep, raw.action = .conditional → raw.value = some (tokenText x) →
    (raw.AsksTruthy → ∃ met, Meets (resolveStepRuntime raw outputs) met ∧ (met = true ↔ v.Counts)) ∧
    (raw.AsksFalsy → ∃ met, Meets (resolveStepRuntime raw outputs) met ∧ (met = true ↔ ¬ v.Counts))

/-- What a conditional step on `${x}` finds. -/
theorem conditionMet_stored (raw : WorkflowStep) {x : String} {outputs : Outputs} {v : PyVal}
    (hval : raw.value = some (tokenText x)) (hx : Template.IsName PyText.isWord x.toList)
    (hget : Dict.get (some x) outputs = some v) :
    (raw.AsksTruthy →
      conditionMet (resolveStepRuntime raw outputs) = .ok !(falsyText (some v.toStr))) ∧
    (raw.AsksFalsy →
      conditionMet (resolveStepRuntime raw outputs) = .ok (falsyText (some v.toStr))) := by
  have hne : outputs ≠ [] := by
    rintro rfl
    cases hget
  have htext : outputs.text x = some v.toStr := by
    rw [Outputs.text, hget]
    rfl
  have hvalue : (resolveStepRuntime raw outputs).value = some v.toStr := by
    rw [resolveStepRuntime, if_neg hne]
    show raw.value.map (substitute outputs.text) = _
    rw [hval, Option.map_some, substitute_token hx htext]
  have hcond : (resolveStepRuntime raw outputs).condition = raw.condition := by
    rw [resolveStepRuntime, if_neg hne]
    rfl
  unfold conditionMet
  rw [hvalue, hcond]
  constructor
  · rintro (h | h)
    · simp [h]
    · simp [h]
  · intro h
    rw [WorkflowStep.AsksFalsy] at h
    simp [h]

/-- **Conditions follow a stored value iff it is not null.** -/
theorem conditions_follow_iff {outputs : Outputs} {x : String} {v : PyVal}
    (hx : Template.IsName PyText.isWord x.toList) (hget : Dict.get (some x) outputs = some v)
    (hv : v.Plain) : ConditionsFollow outputs x v ↔ v ≠ .none := by
  constructor
  · rintro h rfl
    -- the text of null is `None`, which no condition takes for false
    have hnone : falsyText (some (PyVal.toStr .none)) = false := by
      have htext : PyVal.none.toStr = "None" := by
        rw [PyVal.toStr, PyVal.repr]
        simp
      rw [htext, Bool.eq_false_iff, ne_eq, falsyText_iff]
      show ¬ ("None" = "" ∨ ∃ w ∈ ["false", "null", "0"],
        "None".toList.map Char.toLower = w.toList)
      decide
    let raw : WorkflowStep := { order := 1, order_pos := WorkflowStep.order_one, name := x
                                action := .conditional, value := some (tokenText x) }
    obtain ⟨met, hmeets, hmet⟩ := (h raw rfl rfl).1 (Or.inl rfl)
    have hcond := (conditionMet_stored raw rfl hx hget).1 (Or.inl rfl)
    rw [hnone] at hcond
    obtain rfl := Except.ok.inj (hmeets.1.symm.trans hcond)
    exact (hmet.mp rfl).1 rfl
  · intro hnull raw ha hval
    obtain ⟨htruthy, hfalsy⟩ := conditionMet_stored raw hval hx hget
    have hcounts := counts_iff_text hv hnull
    have ha' : (resolveStepRuntime raw outputs).action = .conditional := by
      rw [resolveStepRuntime_action, ha]
    refine ⟨fun hc => ⟨_, meets_of ha' (htruthy hc), ?_⟩,
      fun hc => ⟨_, meets_of ha' (hfalsy hc), ?_⟩⟩
    · rw [Bool.not_eq_true', Bool.eq_false_iff, ne_eq, hcounts, not_not]
    · exact hcounts

end Theory

/-! ## A stored null -/

section Example

attribute [local instance] asciiText

/-- A step that is skipped to when the output has a value. -/
def ifStored (condition : String) : WorkflowStep where
  order := 1
  order_pos := WorkflowStep.order_one
  name := "If stored"
  action := .conditional
  value := some (tokenText "x")
  condition := some condition
  skipSteps := some 1

theorem isName_x : Template.IsName PyText.isWord "x".toList :=
  ⟨by decide, List.all_eq_true.mp (by decide +kernel)⟩

/-- Zero counts as false, and so does its text. -/
theorem conditions_follow_zero : ConditionsFollow [(some "x", .int 0)] "x" (.int 0) := by
  have hget : Dict.get (some "x") [(some "x", PyVal.int 0)] = some (.int 0) := rfl
  have hplain : (PyVal.int 0).Plain := trivial
  exact (conditions_follow_iff isName_x hget hplain).mpr nofun

/-- **A stored null is taken for a value.** -/
theorem stored_null_is_met :
    conditionMet (resolveStepRuntime (ifStored "truthy") [(some "x", .none)]) = .ok true ∧
      conditionMet (resolveStepRuntime (ifStored "falsy") [(some "x", .none)]) = .ok false ∧
      ¬ PyVal.none.Counts := by
  have hget : Dict.get (some "x") [(some "x", PyVal.none)] = some .none := rfl
  have htruthy := (conditionMet_stored (ifStored "truthy") rfl isName_x hget).1 (Or.inr rfl)
  have hfalsy := (conditionMet_stored (ifStored "falsy") rfl isName_x hget).2 rfl
  exact ⟨htruthy, hfalsy, fun h => h.1 rfl⟩

end Example

end ScoutEngine
