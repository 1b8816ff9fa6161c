import ScoutEngine.Executor.LoopLaw
import ScoutEngine.Json.Shown
import ScoutEngine.Passes

/-!
# Loops over stored lists

A loop over `${v}` reads the text that interpolation writes for the list stored under `v`. The text
is Python notation and the loop reads JSON; what JSON refuses is an empty loop that passes.

* `tokenText`, `substitute_token`; **`loopItems_stored`**: the items are the stored list or none.
* `StepResult.Yields`, `PlainLoop`, `Visits`; **`visits_stored_iff`**.
* `stored_names_lost`: a list of names is skipped.
-/

set_option autoImplicit false

namespace ScoutEngine

section Theory

variable [PyText]

/-! ## The items of a reference -/

/-- The token `${v}`. -/
def tokenText (v : String) : String := "$\x7b" ++ v ++ "\x7d"

theorem substitute_token {v : String} (hv : Template.IsName PyText.isWord v.toList)
    {values : String → Option String} {t : String} (ht : values v = some t) :
    substitute values (tokenText v) = t := by
  have htext : (tokenText v).toList = Template.hole v.toList ++ [] := by
    simp [tokenText, Template.hole]
  have hscan : Template.scan PyText.isWord (tokenText v).toList = [.tok v.toList] := by
    rw [htext, Template.scan_hole isWord_brace hv]
    rfl
  have hsub : (varSub values (tokenText v)).toList = t.toList := by
    rw [toList_varSub, Template.sub, hscan]
    simp [Template.Seg.text, tokenEnv, ht]
  rw [substitute_eq]
  exact String.toList_inj.mp hsub

/-- **The items of a loop over a stored list** are that list, if it is well shown, and else none. -/
theorem loopItems_stored {raw : WorkflowStep} {v : String} {outputs : Outputs} {xs : List PyVal}
    (hval : raw.value = some (tokenText v)) (hv : Template.IsName PyText.isWord v.toList)
    (hget : Dict.get (some v) outputs = some (.list xs)) (hd : ∀ x ∈ xs, x.DistinctKeys) :
    ((∀ x ∈ xs, x.WellShown) ∧
        List.Forall₂ PyVal.Same (loopItems (resolveStepRuntime raw outputs)) xs) ∨
      (¬ (∀ x ∈ xs, x.WellShown) ∧ loopItems (resolveStepRuntime raw outputs) = []) := by
  have hne : outputs ≠ [] := by
    rintro rfl
    cases hget
  have htext : outputs.text v = some (PyVal.repr (.list xs)) := by
    rw [Outputs.text, hget]
    rfl
  have hvalue : (resolveStepRuntime raw outputs).value = some (PyVal.repr (.list xs)) := by
    rw [resolveStepRuntime, if_neg hne]
    show raw.value.map (substitute outputs.text) = _
    rw [hval, Option.map_some, substitute_token hv htext]
  have hiff : (PyVal.list xs).WellShown ↔ ∀ x ∈ xs, x.WellShown := by
    refine ⟨fun h => ?_, .list⟩
    cases h
    assumption
  unfold loopItems
  rw [hvalue]
  obtain ⟨hw, w, hload, hs⟩ | ⟨hw, hload⟩ := Json.loads_repr (.list hd)
  · cases hs with
    | list hs =>
      refine Or.inl ⟨hiff.mp hw, ?_⟩
      simp only [hload]
      exact hs
  · refine Or.inr ⟨fun h => hw (hiff.mpr h), ?_⟩
    simp only [hload]

/-! ## Loops -/

/-- **The result yields the list**: its items are the elements of the list, in order. -/
def StepResult.Yields (r : StepResult) (xs : List PyVal) : Prop :=
  ∃ items, r.outputData.getKey "items" = .list items ∧ List.Forall₂ PyVal.Same items xs

/-- A loop step passes, its body has only plain steps, and nothing comes between. -/
structure PlainLoop (cfg : Config) (env : Env) (σ : ℕ → RunState → Input) (n : ℕ)
    (step : WorkflowStep) : Prop where
  starts : LoopStarts cfg env σ n step
  body : SimpleBody cfg (execution cfg env σ n).stepIdx step.bodyLength
  plain : ∀ p ∈ cfg.steps.zipIdx, (execution cfg env σ n).stepIdx < p.2 →
    p.2 ≤ (execution cfg env σ n).stepIdx + step.bodyLength →
    p.1.action ≠ .handoff ∧ cfg.policy p.1 = .continue
  vars : step.loopIndexVar.getD "" = "" ∨ step.loopIndexVar ≠ step.loopVar
  calm : Calm cfg env σ (execution cfg env σ n).stepIdx step.bodyLength n

/-- **The loop visits the list**: its body is entered once for each element, in order, with the
element in the loop variable. -/
def Visits (cfg : Config) (env : Env) (σ : ℕ → RunState → Input) (n : ℕ) (step : WorkflowStep)
    (xs : List PyVal) : Prop :=
  ∃ N, LoopRuns cfg env σ step n N ∧ List.Forall₂
    (fun (o : Outputs) x => ∃ y, Dict.get step.loopVar o = some y ∧ y.Same x)
    (loopEntries cfg env σ n N) xs

variable {cfg : Config} {env : Env} {σ : ℕ → RunState → Input} {n : ℕ} {step : WorkflowStep}
  {xs : List PyVal}

/-- A plain loop visits its items. -/
theorem PlainLoop.visits (h : PlainLoop cfg env σ n step)
    (hxs : List.Forall₂ PyVal.Same (loopItems step) xs) : Visits cfg env σ n step xs := by
  obtain ⟨N, hr, hbinds⟩ := h.calm.loopRuns h.starts h.body h.plain
  refine ⟨N, hr, List.forall₂_iff_get.mpr ⟨hr.entries.trans hxs.length_eq, fun j hj hjx => ?_⟩⟩
  have hentry : (loopEntries cfg env σ n N)[j]? = some (loopEntries cfg env σ n N)[j] :=
    List.getElem?_eq_getElem hj
  obtain ⟨o', ho'⟩ := hbinds j _ hentry
  obtain ⟨y, hy⟩ := hr.item hentry
  have hvar := get_loopVar (f := { step.frame (execution cfg env σ n).stepIdx with
    currentIndex := j }) h.vars hy o'
  rw [← ho'] at hvar
  obtain ⟨hjy, hget⟩ := List.getElem?_eq_some_iff.mp hy
  refine ⟨y, hvar, ?_⟩
  rw [← hget]
  exact (List.forall₂_iff_get.mp hxs).2 j hjy hjx

/-- A loop without items visits only the empty list. -/
theorem Visits.nil (h : Visits cfg env σ n step xs) (hnone : loopItems step = []) : xs = [] := by
  obtain ⟨N, hr, hxs⟩ := h
  have hlen := hr.entries
  rw [hnone, List.length_nil] at hlen
  exact List.length_eq_zero_iff.mp (hxs.length_eq.symm.trans hlen)

/-- **Main result.** A loop over the list stored under `v` yields and visits that list iff every
element is well shown. -/
theorem visits_stored_iff {raw : WorkflowStep} {v : String} {outputs : Outputs}
    (ha : raw.action = .loop) (hval : raw.value = some (tokenText v))
    (hv : Template.IsName PyText.isWord v.toList)
    (hget : Dict.get (some v) outputs = some (.list xs)) (hd : ∀ x ∈ xs, x.DistinctKeys) :
    (∀ (env : Env) (o : StepOptions) (m : NetworkMonitor) (calls : Calls),
      (executeStep env o (resolveStepRuntime raw outputs) m calls).1.status = .passed →
      ((executeStep env o (resolveStepRuntime raw outputs) m calls).1.Yields xs ↔
        ∀ x ∈ xs, x.WellShown)) ∧
    ∀ (cfg : Config) (env : Env) (σ : ℕ → RunState → Input) (n : ℕ),
      (execution cfg env σ n).outputs = outputs →
      PlainLoop cfg env σ n (resolveStepRuntime raw outputs) →
      (Visits cfg env σ n (resolveStepRuntime raw outputs) xs ↔ ∀ x ∈ xs, x.WellShown) := by
  have hitems := loopItems_stored hval hv hget hd
  have hempty : xs = [] → ∀ x ∈ xs, x.WellShown := by
    rintro rfl x hx
    cases hx
  constructor
  · intro env o m calls hp
    have hout := (executeStep_output env o (resolveStepRuntime raw outputs) m calls).loop
      (by rw [resolveStepRuntime_action, ha]) hp
    have hkey : (executeStep env o (resolveStepRuntime raw outputs) m calls).1.outputData.getKey
        "items" = .list (loopItems (resolveStepRuntime raw outputs)) := by
      rw [hout]
      rfl
    constructor
    · rintro ⟨items, hi, hs⟩
      obtain rfl := PyVal.list.inj (hkey.symm.trans hi)
      rcases hitems with ⟨hw, -⟩ | ⟨-, hnone⟩
      · exact hw
      · rw [hnone] at hs
        cases hs
        exact hempty rfl
    · intro hw
      rcases hitems with ⟨-, hs⟩ | ⟨hno, -⟩
      · exact ⟨_, hkey, hs⟩
      · exact absurd hw hno
  · intro cfg env σ n _ hloop
    constructor
    · intro hvis
      rcases hitems with ⟨hw, -⟩ | ⟨-, hnone⟩
      · exact hw
      · exact hempty (hvis.nil hnone)
    · intro hw
      rcases hitems with ⟨-, hs⟩ | ⟨hno, -⟩
      · exact hloop.visits hs
      · exact absurd hw hno

end Theory

/-! ## A stored list of names -/

section Example

attribute [local instance] asciiText

/-- A script returns a list, and a loop goes over it. -/
def storedLoop : Config where
  workflow :=
    { settings := { humanMode := false, onError := .continue }
      steps := [
        { order := 1, order_pos := WorkflowStep.order_one, name := "Read", action := .runJs
          value := some "list()", outputVar := some "found" },
        { order := 2, order_pos := WorkflowStep.order_two, name := "Each", action := .loop
          value := some (tokenText "found"), loopVar := some "x", loopSteps := some 1 },
        { order := 3, order_pos := WorkflowStep.order_three, name := "Clear", action := .clear }] }

/-- A browser in which every script returns this list. -/
def returning (xs : List PyVal) : Env where
  answer _ c :=
    match c with
    | .runJs _ _ => { result := .ok (.list xs) }
    | _ => { result := .ok .none }
  clock _ := 0

theorem isName_found : Template.IsName PyText.isWord "found".toList :=
  ⟨by decide, List.all_eq_true.mp (by decide)⟩

/-- The step that a run of `storedLoop` executes second. -/
def eachFound (xs : List PyVal) : WorkflowStep :=
  resolveStepRuntime storedLoop.steps[1]
    (execution storedLoop (returning xs) (fun _ _ => {}) 1).outputs

/-- A number and a text with an apostrophe. -/
def sevenAndIts : List PyVal := [.int 7, .str "it's"]

theorem distinctKeys_sevenAndIts : ∀ x ∈ sevenAndIts, x.DistinctKeys :=
  List.forall_mem_cons.mpr ⟨.int 7, List.forall_mem_singleton.mpr (.str _)⟩

theorem wellShown_sevenAndIts : ∀ x ∈ sevenAndIts, x.WellShown :=
  List.forall_mem_cons.mpr ⟨.int 7, List.forall_mem_singleton.mpr (.str (by decide +kernel))⟩

theorem plain_sevenAndIts : PlainLoop storedLoop (returning sevenAndIts) (fun _ _ => {}) 1
    (eachFound sevenAndIts) := by
  refine ⟨⟨by decide +kernel, Option.isNone_iff_eq_none.mp (by decide +kernel), rfl, rfl,
    by decide +kernel, by decide +kernel⟩, ⟨by decide +kernel, by decide +kernel, by decide +kernel,
    by decide +kernel, by decide +kernel, by decide +kernel⟩, by decide +kernel,
    Or.inl (by decide +kernel), fun k hk hin => ?_⟩
  have hlt : k < 4 := hin.lt (by decide) (by decide +kernel)
  have hgo : ∀ k < 4, (execution storedLoop (returning sevenAndIts) (fun _ _ => {})
        (k + 1)).waiting.isNone = true ∧
      (execution storedLoop (returning sevenAndIts) (fun _ _ => {}) (k + 1)).halt = none := by
    decide +kernel
  obtain ⟨hw, hh⟩ := hgo k hlt
  refine ⟨⟨rfl, rfl⟩, Option.isNone_iff_eq_none.mp hw, fun e he => ?_⟩
  exact absurd (hh.symm.trans he) (Option.some_ne_none _).symm

/-- A loop over a number and a text with an apostrophe visits both. -/
theorem visits_stored_iff_sevenAndIts : sevenAndIts = [.int 7, .str "it's"] ∧
    (executeStep (returning sevenAndIts) ⟨1000, false, false, none⟩ (eachFound sevenAndIts) {}
      []).1.Yields sevenAndIts ∧
    Visits storedLoop (returning sevenAndIts) (fun _ _ => {}) 1 (eachFound sevenAndIts)
      sevenAndIts := by
  have hget : Dict.get (some "found")
      (execution storedLoop (returning sevenAndIts) (fun _ _ => {}) 1).outputs =
      some (.list sevenAndIts) := rfl
  have h := visits_stored_iff (by decide : storedLoop.steps[1].action = .loop) rfl isName_found hget
    distinctKeys_sevenAndIts
  refine ⟨rfl, (h.1 _ _ _ _ ?_).mpr wellShown_sevenAndIts, (h.2 storedLoop (returning sevenAndIts)
    (fun _ _ => {}) 1 rfl plain_sevenAndIts).mpr wellShown_sevenAndIts⟩
  decide +kernel

/-- **A loop over a list of names visits nothing**: `['Ann']` is no JSON, and the loop passes with
no items. -/
theorem stored_names_lost :
    Dict.get (some "found")
        (execution storedLoop (returning [.str "Ann"]) (fun _ _ => {}) 1).outputs =
      some (.list [.str "Ann"]) ∧
    LoopStarts storedLoop (returning [.str "Ann"]) (fun _ _ => {}) 1 (eachFound [.str "Ann"]) ∧
    loopItems (eachFound [.str "Ann"]) = [] ∧
    (execution storedLoop (returning [.str "Ann"]) (fun _ _ => {}) 2).stepIdx = 3 ∧
    ¬ Visits storedLoop (returning [.str "Ann"]) (fun _ _ => {}) 1 (eachFound [.str "Ann"])
      [.str "Ann"] := by
  have hnone : loopItems (eachFound [.str "Ann"]) = [] :=
    List.isEmpty_iff.mp (by decide +kernel)
  refine ⟨rfl, ⟨by decide +kernel, Option.isNone_iff_eq_none.mp (by decide +kernel), rfl, rfl,
    by decide +kernel, by decide +kernel⟩, hnone, by decide +kernel, fun h => ?_⟩
  exact List.cons_ne_nil _ _ (h.nil hnone)

end Example

end ScoutEngine
