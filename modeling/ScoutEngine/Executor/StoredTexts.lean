import ScoutEngine.Executor.Programs
import ScoutEngine.Executor.StoredLists
import ScoutEngine.Json.Written

/-!
# Loops over stored texts

What a step stores as JSON text, a loop over `${name}` reads back in full: the body of an HTTP
response, and the paths that `file_op` lists. Stored as a list, the same data may be lost.

* `Learned`: what a call of the step returned.
* `ReadsText`, `readsText_dumps`: a loop over a stored text visits the list written in it.
* `BodyStored`, `ListingStored`: what an `http_request` or a `file_op` step leaves.
* **`response_visited`**, **`listing_visited`**.
-/

set_option autoImplicit false

namespace ScoutEngine

open Interaction Control

/-- Between two histories the call was made, and it returned the value. -/
def Learned (env : Env) (calls calls' : Calls) (c : Call) (v : PyVal) : Prop :=
  ∃ before, calls <+: before ∧ before ++ [(c, env.answer before c)] <+: calls' ∧
    (env.answer before c).result = .ok v

theorem Learned.widen {env : Env} {calls calls₁ calls₂ calls' : Calls} {c : Call} {v : PyVal}
    (h : Learned env calls₁ calls₂ c v) (h₁ : calls <+: calls₁) (h₂ : calls₂ <+: calls') :
    Learned env calls calls' c v := by
  obtain ⟨before, hb, ha, hv⟩ := h
  exact ⟨before, h₁.trans hb, ha.trans h₂, hv⟩

section Theory

variable [PyText]

/-! ## What a step puts out -/

/-- A call that returns. -/
theorem eval_call_ok {env : Env} {c : Call} {m m' : NetworkMonitor} {calls calls' : Calls}
    {v : PyVal} (h : eval env (call c) m calls = ((.ok v, m'), calls')) :
    calls' = calls ++ [(c, env.answer calls c)] ∧ (env.answer calls c).result = .ok v := by
  rw [eval_call] at h
  exact ⟨(Prod.mk.inj h).2.symm, (Prod.mk.inj (Prod.mk.inj h).1).1⟩

theorem learned_call {env : Env} {c : Call} {m m' : NetworkMonitor} {calls calls' : Calls}
    {v : PyVal} (h : eval env (call c) m calls = ((.ok v, m'), calls')) :
    Learned env calls calls' c v := by
  obtain ⟨rfl, hv⟩ := eval_call_ok h
  exact ⟨calls, List.prefix_rfl, List.prefix_rfl, hv⟩

omit [PyText] in
/-- A sequence that ends without an exception. -/
theorem eval_bind_ok {α β : Type} {env : Env} {p : StepM α} {f : α → StepM β}
    {m m' : NetworkMonitor} {calls calls' : Calls} {b : β}
    (h : eval env (p >>= f) m calls = ((.ok b, m'), calls')) :
    ∃ a m₁ calls₁, eval env p m calls = ((.ok a, m₁), calls₁) ∧
      eval env (f a) m₁ calls₁ = ((.ok b, m'), calls') := by
  rw [eval_bind] at h
  rcases hp : eval env p m calls with ⟨⟨e | a, m₁⟩, calls₁⟩
  · rw [hp] at h
    cases (Prod.mk.inj (Prod.mk.inj h).1).1
  · rw [hp] at h
    exact ⟨a, m₁, calls₁, rfl, h⟩

theorem eval_prefix {α : Type} {env : Env} {p : StepM α} (hp : Uses True p) {m : NetworkMonitor}
    {calls : Calls} {r : (Except PyExc α × NetworkMonitor) × Calls} (h : eval env p m calls = r) :
    calls <+: r.2 := by
  obtain ⟨new, hnew, -⟩ := hp.browses env m calls
  exact ⟨new, hnew.symm.trans (congrArg Prod.snd h)⟩

theorem prefix_call {env : Env} {c : Call} {m : NetworkMonitor} {calls : Calls}
    {r : (Except PyExc PyVal × NetworkMonitor) × Calls} (h : eval env (call c) m calls = r) :
    calls <+: r.2 := by
  subst h
  exact List.prefix_append _ _

/-- **What a passed step puts out** is what its action returned, between its other calls. -/
theorem executeStep_passed {env : Env} {o : StepOptions} {step : WorkflowStep} {m : NetworkMonitor}
    {calls : Calls} (h : (executeStep env o step m calls).1.status = .passed) :
    ∃ target m₁ calls₁ m₂ calls₂, calls <+: calls₁ ∧
      eval env (runAction o step target) m₁ calls₁ =
        ((.ok (executeStep env o step m calls).1.outputData, m₂), calls₂) ∧
      calls₂ <+: (executeStep env o step m calls).2.2 := by
  rcases hr : eval env (resolveTarget step.frameContext >>= runAction o step) m calls with
    ⟨⟨out, m'⟩, calls'⟩
  have hstep : executeStep env o step m calls =
      (let s := eval env (screenshot o step) m' calls'
       (stepResult step (out, s.1.1.toOption.join) (env.clock s.2), s.1.2, s.2)) := by
    have hrun : run env.answer
        (((resolveTarget step.frameContext >>= runAction o step).run).run m) calls =
          ((out, m'), calls') := hr
    unfold executeStep stepBody
    dsimp only
    rw [StateT.run_bind, run_bind, hrun]
    dsimp only
    rw [StateT.run_bind, run_bind]
    rfl
  rw [hstep] at h ⊢
  dsimp only at h ⊢
  cases out with
  | error e => cases h
  | ok v =>
    obtain ⟨target, m₁, calls₁, htarget, haction⟩ := eval_bind_ok hr
    exact ⟨target, m₁, calls₁, m', calls', eval_prefix (resolveTarget_uses _) htarget, haction,
      eval_prefix (screenshot_uses o step) rfl⟩

/-! ## Loops over texts -/

/-- **A loop over the text yields and visits the list**, wherever the text is stored under the
name. -/
def ReadsText (raw : WorkflowStep) (name text : String) (xs : List PyVal) : Prop :=
  ∀ outputs : Outputs, Dict.get (some name) outputs = some (.str text) →
    (∀ (env : Env) (o : StepOptions) (m : NetworkMonitor) (calls : Calls),
      (executeStep env o (resolveStepRuntime raw outputs) m calls).1.status = .passed →
      (executeStep env o (resolveStepRuntime raw outputs) m calls).1.Yields xs) ∧
    ∀ (cfg : Config) (env : Env) (σ : ℕ → RunState → Input) (n : ℕ),
      (execution cfg env σ n).outputs = outputs →
      PlainLoop cfg env σ n (resolveStepRuntime raw outputs) →
      Visits cfg env σ n (resolveStepRuntime raw outputs) xs

theorem readsText_dumps {raw : WorkflowStep} {name : String} {xs : List PyVal}
    (ha : raw.action = .loop) (hval : raw.value = some (tokenText name))
    (hname : Template.IsName PyText.isWord name.toList) (hd : ∀ x ∈ xs, x.DistinctKeys) :
    ReadsText raw name (Json.dumps (.list xs)) xs := by
  intro outputs hget
  have hne : outputs ≠ [] := by
    rintro rfl
    cases hget
  have htext : outputs.text name = some (Json.dumps (.list xs)) := by
    rw [Outputs.text, hget]
    rfl
  have hvalue : (resolveStepRuntime raw outputs).value = some (Json.dumps (.list xs)) := by
    rw [resolveStepRuntime, if_neg hne]
    show raw.value.map (substitute outputs.text) = _
    rw [hval, Option.map_some, substitute_token hname htext]
  have hitems : List.Forall₂ PyVal.Same (loopItems (resolveStepRuntime raw outputs)) xs := by
    obtain ⟨w, hload, hs⟩ := Json.loads_dumps (.list hd)
    unfold loopItems
    rw [hvalue]
    cases hs with
    | list hs =>
      simp only [hload]
      exact hs
  refine ⟨fun env o m calls hp => ⟨_, ?_, hitems⟩, fun cfg env σ n _ hloop => hloop.visits hitems⟩
  rw [(executeStep_output env o (resolveStepRuntime raw outputs) m calls).loop
    (by rw [resolveStepRuntime_action, ha]) hp]
  rfl

/-! ## Responses -/

theorem isName_body {v : String} (h : Template.IsName PyText.isWord v.toList) :
    Template.IsName PyText.isWord (v ++ "_body").toList := by
  have hbody : "_body".toList.all
      (fun c => c.toNat < 128 && (c.isAlphanum || c == '_')) = true := by decide
  rw [String.toList_append]
  refine ⟨List.append_ne_nil_of_left_ne_nil h.1 _, fun c hc => ?_⟩
  rcases List.mem_append.mp hc with hc | hc
  · exact h.2 c hc
  · have hword := List.all_eq_true.mp hbody c hc
    rw [Bool.and_eq_true, decide_eq_true_eq] at hword
    rw [PyText.isWord_ascii c hword.1]
    exact hword.2

/-- The body of a response is what `json()` returns, or the text if that is refused. -/
theorem httpRequest_body {env : Env} {step : WorkflowStep} {m m' : NetworkMonitor}
    {calls calls' : Calls} {v : PyVal}
    (h : eval env (httpRequest step) m calls = ((.ok v, m'), calls')) :
    ∃ kvs body, v = .dict kvs ∧ Dict.get "body" kvs = some body ∧
      (Learned env calls calls' .respJson body ∨
        Learned env calls calls' (.respAttr "text") body) := by
  unfold httpRequest at h
  dsimp only at h
  obtain ⟨_, m₁, calls₁, hreq, h⟩ := eval_bind_ok h
  obtain ⟨body, m₂, calls₂, hbody, h⟩ := eval_bind_ok h
  obtain ⟨status, m₃, calls₃, hstatus, h⟩ := eval_bind_ok h
  obtain ⟨headers, m₄, calls₄, hheaders, h⟩ := eval_bind_ok h
  obtain ⟨rfl, rfl⟩ : PyVal.dict [("status_code", status), ("body", body), ("headers", headers)] =
      v ∧ calls₄ = calls' :=
    ⟨Except.ok.inj (Prod.mk.inj (Prod.mk.inj h).1).1, (Prod.mk.inj h).2⟩
  have h₁ : calls <+: calls₁ := prefix_call hreq
  have h₄ : calls₂ <+: calls₄ :=
    (prefix_call hstatus).trans (prefix_call hheaders)
  refine ⟨_, body, rfl, rfl, ?_⟩
  rw [eval_tryCatch] at hbody
  rcases hj : eval env (call .respJson) m₁ calls₁ with ⟨⟨e | b, m'⟩, calls'⟩
  · rw [hj] at hbody
    dsimp only at hbody
    have h' : calls₁ <+: calls' := prefix_call hj
    split_ifs at hbody with he
    · exact Or.inr ((learned_call hbody).widen (h₁.trans h') h₄)
    · cases (Prod.mk.inj (Prod.mk.inj hbody).1).1
  · rw [hj] at hbody
    obtain ⟨rfl, rfl⟩ : b = body ∧ calls' = calls₂ :=
      ⟨Except.ok.inj (Prod.mk.inj (Prod.mk.inj hbody).1).1, (Prod.mk.inj hbody).2⟩
    exact Or.inl ((learned_call hj).widen h₁ h₄)

/-- **The body of a response is stored as a text that is read back**: an object or a list as a
whole, and a list by a loop over the name. -/
structure BodyStored (env : Env) (calls calls' : Calls) (name : String) (outputs : Outputs)
    (body : PyVal) : Prop where
  learned : Learned env calls calls' .respJson body ∨
    Learned env calls calls' (.respAttr "text") body
  stored : Dict.get (some name) outputs = some (.str (bodyText body))
  readBack : body.DistinctKeys → (∃ kvs, body = .dict kvs) ∨ (∃ xs, body = .list xs) →
    ∃ w, Json.loads (bodyText body) = some w ∧ w.Same body
  visited : ∀ xs, body = .list xs → (∀ x ∈ xs, x.DistinctKeys) → ∀ raw : WorkflowStep,
    raw.action = .loop → raw.value = some (tokenText name) → ReadsText raw name (bodyText body) xs

theorem stores_output {step : WorkflowStep} {r : StepResult} {v : String}
    (hv : step.outputVar = some v) (hname : Template.IsName PyText.isWord v.toList) (hp : r.status = .passed) :
    ¬ (step.outputVar.getD "" = "" ∨ r.status = .failed) := by
  rw [hv, Option.getD_some]
  rintro (h | h)
  · exact hname.1 (by rw [h]; rfl)
  · rw [hp] at h
    cases h

/-- **Main result.** A passed `http_request` step with `output_var` stores the body of the response
under `{output_var}_body`, and nothing of it is lost there. -/
theorem response_visited {env : Env} {o : StepOptions} {step : WorkflowStep} {m : NetworkMonitor}
    {calls : Calls} {v : String} (ha : step.action = .httpRequest) (hv : step.outputVar = some v)
    (hname : Template.IsName PyText.isWord v.toList)
    (hp : (executeStep env o step m calls).1.status = .passed) (outputs : Outputs) :
    ∃ body, BodyStored env calls (executeStep env o step m calls).2.2 (v ++ "_body")
      (captured step (executeStep env o step m calls).1 outputs) body := by
  obtain ⟨target, m₁, calls₁, m₂, calls₂, h₁, haction, h₂⟩ := executeStep_passed hp
  have hhttp : eval env (httpRequest step) m₁ calls₁ =
      ((.ok (executeStep env o step m calls).1.outputData, m₂), calls₂) := by
    unfold runAction at haction
    rw [ha] at haction
    exact haction
  obtain ⟨kvs, body, hout, hbody, hlearned⟩ := httpRequest_body hhttp
  refine ⟨body, hlearned.imp (Learned.widen · h₁ h₂) (Learned.widen · h₁ h₂), ?_, ?_, ?_⟩
  · unfold captured
    dsimp only
    rw [if_neg (stores_output hv hname hp), hv, ha, hout]
    simp only [hbody]
    exact Dict.get_set_self _ _ _
  · rintro hd (⟨kvs, rfl⟩ | ⟨xs, rfl⟩)
    · exact Json.loads_dumps hd
    · exact Json.loads_dumps hd
  · rintro xs rfl hd raw hloop hval
    exact readsText_dumps hloop hval (isName_body hname) hd

/-! ## Listings -/

/-- The call by which `file_op` finds the names. -/
def WorkflowStep.listingCall (step : WorkflowStep) : Call :=
  if step.operation = some "list" then .listdir step.source else .glob step.pattern step.source

/-- The paths of the names that were found. -/
def WorkflowStep.listed (step : WorkflowStep) (found : PyVal) : List String :=
  (if step.operation = some "list" then (names found).mergeSort (· ≤ ·) else names found).map
    (Path.join (step.source.getD ""))

omit [PyText] in
theorem listing_text {env : Env} {source : Option String} {entries : List String}
    {m m' : NetworkMonitor} {calls calls' : Calls} {v : PyVal}
    (h : eval env (listing source entries) m calls = ((.ok v, m'), calls')) :
    calls' = calls ∧
      v = .str (Json.dumps (.list (entries.map fun e => .str (Path.join (source.getD "") e)))) := by
  unfold listing at h
  dsimp only at h
  have hpure : ∀ {dir : String} {m₁ : NetworkMonitor} {calls₁ : Calls},
      eval env (pure (.str (Json.dumps (.list (entries.map fun e => .str (Path.join dir e))))))
        m₁ calls₁ = ((.ok v, m'), calls') → calls₁ = calls' ∧
          .str (Json.dumps (.list (entries.map fun e => .str (Path.join dir e)))) = v := fun h =>
    ⟨(Prod.mk.inj h).2, Except.ok.inj (Prod.mk.inj (Prod.mk.inj h).1).1⟩
  split_ifs at h with hempty
  · obtain ⟨rfl, rfl⟩ := hpure h
    exact ⟨rfl, rfl⟩
  · cases source with
    | none => cases (Prod.mk.inj (Prod.mk.inj h).1).1
    | some s =>
      obtain ⟨rfl, rfl⟩ := hpure h
      exact ⟨rfl, rfl⟩

/-- A listing puts out the paths of the names that the file system returned. -/
theorem fileOp_listed {env : Env} {step : WorkflowStep} {m m' : NetworkMonitor}
    {calls calls' : Calls} {v : PyVal}
    (hop : step.operation = some "list" ∨ step.operation = some "glob")
    (h : eval env (fileOp step) m calls = ((.ok v, m'), calls')) :
    ∃ found, Learned env calls calls' step.listingCall found ∧
      v = .str (Json.dumps (.list ((step.listed found).map .str))) := by
  have hfound : ∃ found m₁ calls₁, eval env (call step.listingCall) m calls =
      ((.ok found, m₁), calls₁) ∧ eval env (listing step.source
        (if step.operation = some "list" then (names found).mergeSort (· ≤ ·) else names found))
          m₁ calls₁ = ((.ok v, m'), calls') := by
    unfold fileOp at h
    unfold WorkflowStep.listingCall
    rcases hop with hop | hop
    · rw [hop] at h
      rw [hop, if_pos rfl]
      simp only [if_pos]
      exact eval_bind_ok h
    · have hne : ¬ (some "glob" = some "list") := by decide
      rw [hop] at h
      rw [hop, if_neg hne]
      simp only [if_neg hne]
      exact eval_bind_ok h
  obtain ⟨found, m₁, calls₁, hcall, hlist⟩ := hfound
  obtain ⟨rfl, rfl⟩ := listing_text hlist
  refine ⟨found, learned_call hcall, ?_⟩
  rw [WorkflowStep.listed, List.map_map]
  rfl

/-- **The listing is stored as a text**, and a loop over the name visits the paths in order. -/
structure ListingStored (env : Env) (calls calls' : Calls) (step : WorkflowStep) (name : String)
    (outputs : Outputs) (found : PyVal) : Prop where
  learned : Learned env calls calls' step.listingCall found
  stored : Dict.get (some name) outputs =
    some (.str (Json.dumps (.list ((step.listed found).map .str))))
  visited : ∀ raw : WorkflowStep, raw.action = .loop → raw.value = some (tokenText name) →
    ReadsText raw name (Json.dumps (.list ((step.listed found).map .str)))
      ((step.listed found).map .str)

/-- **Main result.** A passed `file_op` step that lists names stores their paths under its
`output_var`, to be visited one by one. -/
theorem listing_visited {env : Env} {o : StepOptions} {step : WorkflowStep} {m : NetworkMonitor}
    {calls : Calls} {v : String} (ha : step.action = .fileOp)
    (hop : step.operation = some "list" ∨ step.operation = some "glob")
    (hv : step.outputVar = some v) (hname : Template.IsName PyText.isWord v.toList)
    (hp : (executeStep env o step m calls).1.status = .passed) (outputs : Outputs) :
    ∃ found, ListingStored env calls (executeStep env o step m calls).2.2 step v
      (captured step (executeStep env o step m calls).1 outputs) found := by
  obtain ⟨target, m₁, calls₁, m₂, calls₂, h₁, haction, h₂⟩ := executeStep_passed hp
  have hfile : eval env (fileOp step) m₁ calls₁ =
      ((.ok (executeStep env o step m calls).1.outputData, m₂), calls₂) := by
    unfold runAction at haction
    rw [ha] at haction
    exact haction
  obtain ⟨found, hlearned, hout⟩ := fileOp_listed hop hfile
  refine ⟨found, hlearned.widen h₁ h₂, ?_, fun raw hloop hval => ?_⟩
  · unfold captured
    dsimp only
    rw [if_neg (stores_output hv hname hp), hv, ha, hout]
    exact Dict.get_set_self _ _ _
  · refine readsText_dumps hloop hval hname fun x hx => ?_
    obtain ⟨s, -, rfl⟩ := List.mem_map.mp hx
    exact .str s

end Theory

/-! ## A response and a directory -/

section Example

attribute [local instance] asciiText

/-- A request that returns a list of names, and a directory with two files. -/
def twoNames : Env where
  answer _ c :=
    match c with
    | .respJson => { result := .ok (.list [.str "Ann", .str "it's"]) }
    | .glob _ _ => { result := .ok (.list [.str "b.csv", .str "it's.csv"]) }
    | _ => { result := .ok .none }
  clock _ := 0

/-- Fetch the names. -/
def fetchNames : WorkflowStep :=
  { order := 1, order_pos := WorkflowStep.order_one, name := "Fetch", action := .httpRequest
    value := some "https://host/names", outputVar := some "found" }

/-- Find the files. -/
def findFiles : WorkflowStep :=
  { order := 1, order_pos := WorkflowStep.order_one, name := "Find", action := .fileOp
    operation := some "glob", pattern := some "*.csv", source := some "in"
    outputVar := some "found" }

/-- The names of the response are visited. -/
theorem response_visited_names : ∃ body, BodyStored twoNames []
    (executeStep twoNames ⟨1000, false, false, none⟩ fetchNames {} []).2.2 ("found" ++ "_body")
    (captured fetchNames (executeStep twoNames ⟨1000, false, false, none⟩ fetchNames {} []).1 [])
    body :=
  response_visited rfl rfl isName_found (by decide +kernel) []

/-- The two files are visited. -/
theorem listing_visited_files : ∃ found, ListingStored twoNames []
    (executeStep twoNames ⟨1000, false, false, none⟩ findFiles {} []).2.2 findFiles "found"
    (captured findFiles (executeStep twoNames ⟨1000, false, false, none⟩ findFiles {} []).1 [])
    found :=
  listing_visited rfl (Or.inr rfl) rfl isName_found (by decide +kernel) []

end Example

end ScoutEngine
