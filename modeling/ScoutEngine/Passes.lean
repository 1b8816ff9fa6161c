import ScoutEngine.Fragments

/-!
# Three substitution passes

The tokens of a field are replaced by the include directive, then by the declared variables, and
then, before the step begins, by the outputs. Each pass scans the whole field, with the texts that
the passes before it have inserted.

* `fieldText`: the three passes; `simultaneous`: every token at once, by the first map that binds
  it; `Undisturbed`: no token inside the closed text is bound by a later pass.
* `fieldText_eq`; `text_resolveStepRuntime`, `text_resolveStep`, `get_substituteVariables_text`:
  the passes are those of the engine.
* **`text_simultaneous`**; `inserted_token`: a value that is a token of the next pass.
-/

set_option autoImplicit false

namespace ScoutEngine

open Template (Seg Mixed)

section Passes

variable [PyText]

/-- What an include directive binds. -/
abbrev lookup (values : Dict String String) (name : String) : Option String := Dict.get name values

/-- A map of texts, as an assignment of characters to the names of tokens. -/
def tokenEnv (values : String → Option String) : Template.Env := fun w =>
  (values (String.ofList w)).map String.toList

/-- **The text of a field after the three passes**, one after the other. -/
def fieldText (included declared : Dict String String) (outputs : Outputs) (t : String) : String :=
  varSub outputs.text (varSub (lookup declared) (varSub (lookup included) t))

/-- **The simultaneous substitution**: the value of the include directive first, else that of the
declared variable, else the text of the output, else the token. -/
def simultaneous (included declared : Dict String String) (outputs : Outputs) (t : String) :
    String :=
  varSub (fun name => (lookup included name).or ((lookup declared name).or (outputs.text name))) t

/-- **No later pass disturbs the closed text**: where the include directive has closed tokens, and
then the declared variables, the text around and in between contains no token that the next pass
binds. -/
def Undisturbed (included declared : Dict String String) (outputs : Outputs) (t : String) : Prop :=
  Template.Settled PyText.isWord [tokenEnv (lookup declared), tokenEnv outputs.text]
    ((Mixed.ofSegs (Template.scan PyText.isWord t.toList)).fill (tokenEnv (lookup included)))

instance (included declared : Dict String String) (outputs : Outputs) (t : String) :
    Decidable (Undisturbed included declared outputs t) :=
  inferInstanceAs (Decidable (Template.Settled ..))

theorem isWord_dollar : PyText.isWord '$' = false := PyText.isWord_ascii '$' (by decide)

theorem isWord_brace : PyText.isWord '\x7d' = false := PyText.isWord_ascii '\x7d' (by decide)

theorem toList_varSub (values : String → Option String) (t : String) :
    (varSub values t).toList = Template.sub PyText.isWord (tokenEnv values) t.toList := by
  rw [varSub, String.toList_ofList]
  rfl

omit [PyText] in
theorem firstOf_tokenEnv (f g h : String → Option String) :
    Template.firstOf [tokenEnv f, tokenEnv g, tokenEnv h] =
      tokenEnv fun name => (f name).or ((g name).or (h name)) := by
  funext w
  show (tokenEnv f w).or ((tokenEnv g w).or ((tokenEnv h w).or none)) = _
  unfold tokenEnv
  dsimp only
  cases f (String.ofList w) <;> cases g (String.ofList w) <;> cases h (String.ofList w) <;> rfl

/-- **The three passes are the simultaneous substitution** of an undisturbed text. -/
theorem fieldText_eq {included declared : Dict String String} {outputs : Outputs} {t : String}
    (h : Undisturbed included declared outputs t) :
    fieldText included declared outputs t = simultaneous included declared outputs t := by
  have key := Template.passes_eq_sub isWord_dollar isWord_brace (tokenEnv (lookup included))
    [tokenEnv (lookup declared), tokenEnv outputs.text] t.toList h
  rw [firstOf_tokenEnv, Template.passes_cons, Template.passes_cons, Template.passes_cons,
    Template.passes_nil] at key
  have hlist : (fieldText included declared outputs t).toList =
      (simultaneous included declared outputs t).toList := by
    rw [fieldText, simultaneous, toList_varSub, toList_varSub, toList_varSub, toList_varSub]
    exact key
  exact String.toList_inj.mp hlist

/-! ## The passes over a step -/

/-- The pass before a step, in its field: without outputs nothing is to be replaced. -/
theorem text_resolveStepRuntime (step : WorkflowStep) (outputs : Outputs) (k : TextField) :
    (resolveStepRuntime step outputs).text k = (step.text k).map (varSub outputs.text) := by
  unfold resolveStepRuntime
  split_ifs with h
  · have hnone : outputs.text = fun _ => none := by
      rw [h]
      rfl
    rw [hnone, funext varSub_none]
    exact Option.map_id'.symm ▸ rfl
  · rw [WorkflowStep.text_mapText, funext (substitute_eq outputs.text)]

theorem text_resolveStep (step : WorkflowStep) (declared : Dict String String) (k : TextField) :
    (resolveStep step declared).text k = (step.text k).map (varSub (lookup declared)) := by
  rw [resolveStep, WorkflowStep.text_mapText, funext (substitute_eq _)]

theorem get_substituteVariables_text {included : Dict String String} {raw : RawStep} {key t : String}
    (h : Dict.get key raw = some (.str t)) :
    Dict.get key (substituteVariables included raw) = some (.str (varSub (lookup included) t)) := by
  rw [get_substituteVariables, h, ← substitute_eq]
  rfl

/-- **What becomes of a field**: it goes through the three passes one after the other, and when no
later pass disturbs what the earlier ones have closed, this is the simultaneous substitution. -/
theorem text_simultaneous (included declared : Dict String String) (outputs : Outputs)
    {raw : RawStep} {step : WorkflowStep} {k : TextField} {t : String}
    (hraw : Dict.get k.name raw = some (.str t))
    (hstep : Validated (substituteVariables included raw) step) :
    (resolveStepRuntime (resolveStep step declared) outputs).text k =
        some (fieldText included declared outputs t) ∧
      (Undisturbed included declared outputs t →
        (resolveStepRuntime (resolveStep step declared) outputs).text k =
          some (simultaneous included declared outputs t)) := by
  have htext : (resolveStepRuntime (resolveStep step declared) outputs).text k =
      some (fieldText included declared outputs t) := by
    rw [text_resolveStepRuntime, text_resolveStep,
      hstep.text k _ (get_substituteVariables_text hraw)]
    rfl
  exact ⟨htext, fun h => htext.trans (congrArg some (fieldText_eq h))⟩

end Passes

section Example

attribute [local instance] asciiText

/-- A step that types a text. -/
def typeRaw (t : String) : RawStep :=
  [("order", .int 1), ("name", .str "Type"), ("action", .str "type"), ("value", .str t)]

/-- The step as the validation reads it. -/
def typeText (t : String) : WorkflowStep :=
  { order := 1, order_pos := WorkflowStep.order_one, name := "Type", action := .type,
    value := some t }

theorem validated_typeText {included : Dict String String} {t t' : String}
    (h : substitute (fun name => Dict.get name included) t = t') :
    Validated (substituteVariables included (typeRaw t)) (typeText t') := by
  have hname : substitute (fun name => Dict.get name included) "Type" = "Type" :=
    if_neg (by decide +kernel)
  have haction : substitute (fun name => Dict.get name included) "type" = "type" :=
    if_neg (by decide +kernel)
  have hraw : substituteVariables included (typeRaw t) = typeRaw t' := by
    simp only [substituteVariables, typeRaw, List.map_cons, List.map_nil, hname, haction, h]
  rw [hraw]
  refine ⟨rfl, fun k s hs => ?_, ?_, ?_, ?_⟩
  · cases k
    case value => exact congrArg some (PyVal.str.inj (Option.some.inj hs))
    all_goals exact absurd hs.symm (Option.some_ne_none _)
  · intro v hv; exact Option.some.inj hv
  · intro v hv; exact Option.some.inj hv
  · intro v hv; exact Option.some.inj hv

/-- Each pass replaces one token, and the last one stays. -/
theorem text_simultaneous_threePasses :
    (resolveStepRuntime (resolveStep (typeText "x-${B}-${C}-${D}") [("B", "y")])
        [(some "C", .str "z")]).text .value =
      some (simultaneous [("A", "x")] [("B", "y")] [(some "C", .str "z")]
        "${A}-${B}-${C}-${D}") ∧
    simultaneous [("A", "x")] [("B", "y")] [(some "C", .str "z")]
      "${A}-${B}-${C}-${D}" = "x-y-z-${D}" := by
  have hraw : Dict.get TextField.value.name (typeRaw "${A}-${B}-${C}-${D}") =
      some (.str "${A}-${B}-${C}-${D}") := rfl
  refine ⟨(text_simultaneous _ _ _ hraw (validated_typeText (by decide +kernel))).2 ?_, ?_⟩
  · decide +kernel
  · decide +kernel

/-- A step that types a token. -/
def typeToken : RawStep := typeRaw "$\x7bA\x7d!"

/-- **The value of an include directive is scanned for declared variables.** -/
theorem inserted_token : Dict.get "value" typeToken = some (.str "$\x7bA\x7d!") ∧
    Validated (substituteVariables [("A", "$\x7bB\x7d")] typeToken) (typeText "$\x7bB\x7d!") ∧
      (resolveStepRuntime (resolveStep (typeText "$\x7bB\x7d!") [("B", "y")]) []).text .value =
        some "y!" ∧
      simultaneous [("A", "$\x7bB\x7d")] [("B", "y")] [] "$\x7bA\x7d!" = "$\x7bB\x7d!" := by
  refine ⟨rfl, validated_typeText (by decide +kernel), ?_, ?_⟩
  · decide +kernel
  · decide +kernel

end Example

end ScoutEngine
