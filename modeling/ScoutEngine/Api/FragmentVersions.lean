import ScoutEngine.Lib.Transition
import Mathlib.Data.Fintype.Card

/-!
# Versions of a fragment

`POST /api/fragments`, by requests that read and commit in any order. The version is counted in the
memory of a request, between its read and its commit, and reported after another read.

* `FragmentRow`, `CreateFragmentRequest`, `UpsertPhase`: a row, a body and the state of a request.
* `FragmentDb`, `UpsertAct`, **`upserts`**: the requests as a transition system.
* `undisturbedCommit`: nobody commits between the read, the commit and the second read of a request.
* `Counted`, **`versions_counted`**: each success counts once.
* `update_lost`: two requests that read the same version.

The id and the time stamps of a row, which decide nothing, are left out. `Doc` stands for the JSON
documents, up to `==`.
-/

set_option autoImplicit false

namespace ScoutEngine

open Transition

/-! ## Requests -/

/-- A row of `workflow_fragments` with its version, by its `fragment_id`. -/
structure FragmentRow (Doc : Type) where
  name : String
  description : Option String
  vars : Option Doc
  steps : Doc
  version : ℕ := 1

/-- Request body for creating/updating a fragment. -/
structure CreateFragmentRequest (Doc : Type) where
  fragmentId : String
  name : String
  description : Option String := none
  vars : Option Doc := none
  steps : Doc

/-- How far a request is; it holds the object that its session has loaded or made. -/
inductive UpsertPhase (Doc : Type) where
  | arrived
  /-- `scalar_one_or_none` has returned. -/
  | selected (existing : Option (FragmentRow Doc))
  | committed (fragment : FragmentRow Doc)
  | answered (fragment : FragmentRow Doc)
  | failed

section Model

variable {Doc ι : Type} [DecidableEq Doc] [DecidableEq ι]

/-- A column after an `UPDATE`, which sets it only if the assignment changed what was loaded. -/
def written {α : Type} [DecidableEq α] (loaded assigned stored : α) : α :=
  if assigned = loaded then stored else assigned

namespace CreateFragmentRequest

/-- The object with the assigned attributes. -/
def assign (body : CreateFragmentRequest Doc) (existing : FragmentRow Doc) :
    FragmentRow Doc :=
  { name := body.name
    description := body.description
    vars := body.vars
    steps := body.steps
    version := existing.version + 1 }

/-- The stored row after the `UPDATE`. -/
def update (body : CreateFragmentRequest Doc) (existing stored : FragmentRow Doc) :
    FragmentRow Doc :=
  let fragment := body.assign existing
  { name := written existing.name fragment.name stored.name
    description := written existing.description fragment.description stored.description
    vars := written existing.vars fragment.vars stored.vars
    steps := written existing.steps fragment.steps stored.steps
    version := written existing.version fragment.version stored.version }

/-- A new row. -/
def create (body : CreateFragmentRequest Doc) : FragmentRow Doc :=
  { name := body.name
    description := body.description
    vars := body.vars
    steps := body.steps }

theorem version_update (body : CreateFragmentRequest Doc) (existing stored : FragmentRow Doc) :
    (body.update existing stored).version = existing.version + 1 :=
  if_neg (Nat.succ_ne_self existing.version)

end CreateFragmentRequest

/-- The table, and the requests. -/
structure FragmentDb (Doc ι : Type) where
  rows : String → Option (FragmentRow Doc)
  calls : ι → UpsertPhase Doc := fun _ => .arrived

/-- What a request does next, or that it fails there. -/
inductive UpsertAct (ι : Type) where
  | select (i : ι)
  | commit (i : ι)
  | refresh (i : ι)
  | fail (i : ι)

namespace FragmentDb

/-- A request goes on. -/
def put (i : ι) (p : UpsertPhase Doc) (s : FragmentDb Doc ι) : FragmentDb Doc ι :=
  { s with calls := Function.update s.calls i p }

/-- A row is stored. -/
def store (id : String) (row : FragmentRow Doc) (s : FragmentDb Doc ι) : FragmentDb Doc ι :=
  { s with rows := Function.update s.rows id (some row) }

/-- **One action of `create_or_update_fragment`.** An update of a row that is gone and an insertion
of one that is there fail. -/
def step (bodies : ι → CreateFragmentRequest Doc) (s : FragmentDb Doc ι) :
    UpsertAct ι → Option (FragmentDb Doc ι)
  | .select i =>
    match s.calls i with
    | .arrived => some (s.put i (.selected (s.rows (bodies i).fragmentId)))
    | _ => none
  | .commit i =>
    let id := (bodies i).fragmentId
    match s.calls i, s.rows id with
    | .selected (some existing), some stored =>
      some ((s.store id ((bodies i).update existing stored)).put i
        (.committed ((bodies i).assign existing)))
    | .selected none, none =>
      some ((s.store id (bodies i).create).put i (.committed (bodies i).create))
    | .selected _, _ => some (s.put i .failed)
    | _, _ => none
  | .refresh i =>
    match s.calls i, s.rows (bodies i).fragmentId with
    | .committed _, some stored => some (s.put i (.answered stored))
    | .committed _, none => some (s.put i .failed)
    | _, _ => none
  | .fail i =>
    match s.calls i with
    | .answered _ | .failed => none
    | _ => some (s.put i .failed)

end FragmentDb

/-- **The requests with these bodies**, on a table. -/
def upserts (bodies : ι → CreateFragmentRequest Doc)
    (rows : String → Option (FragmentRow Doc)) : System (FragmentDb Doc ι) (UpsertAct ι) where
  init := { rows := rows }
  step := FragmentDb.step bodies

/-- **Nobody is in between**: a request commits the successor of the stored version, it reads again
the version that it committed, and does not fail there. -/
def undisturbedCommit (bodies : ι → CreateFragmentRequest Doc) (s : FragmentDb Doc ι) :
    UpsertAct ι → Bool
  | .select _ => true
  | .commit i =>
    match s.calls i, s.rows (bodies i).fragmentId with
    | .selected (some existing), some stored => stored.version = existing.version
    | _, _ => true
  | .refresh i =>
    match s.calls i, s.rows (bodies i).fragmentId with
    | .committed fragment, some stored => stored.version = fragment.version
    | _, _ => true
  | .fail i =>
    match s.calls i with
    | .committed _ => false
    | _ => true

/-! ## What is counted -/

/-- The version that a request reports if it succeeds. -/
def UpsertPhase.reported : UpsertPhase Doc → Option ℕ
  | .answered fragment => some fragment.version
  | _ => none

/-- The version that a request has committed. -/
def UpsertPhase.version : UpsertPhase Doc → Option ℕ
  | .committed fragment | .answered fragment => some fragment.version
  | _ => none

/-- The request is between its commit and its answer. -/
def UpsertPhase.unanswered : UpsertPhase Doc → Bool
  | .committed _ => true
  | _ => false

variable [Fintype ι]

/-- How many requests for a fragment have succeeded. -/
def FragmentDb.successes (bodies : ι → CreateFragmentRequest Doc) (s : FragmentDb Doc ι)
    (id : String) : ℕ :=
  (Finset.univ.filter fun i => (bodies i).fragmentId = id ∧ (s.calls i).reported.isSome).card

/-- **Each success counts once**: when all requests for the fragment are over, its version has grown
by the number of successes, and no two of them report the same version. -/
structure Counted (bodies : ι → CreateFragmentRequest Doc) (s : FragmentDb Doc ι) (id : String)
    (start : ℕ) : Prop where
  version : (∀ i, (bodies i).fragmentId = id → (s.calls i).unanswered = false) →
    ∃ row, s.rows id = some row ∧ row.version = start + s.successes bodies id
  distinct : ∀ i j, i ≠ j → (bodies i).fragmentId = id → (bodies j).fragmentId = id →
    ∀ v, (s.calls i).reported = some v → (s.calls j).reported ≠ some v

/-! ## One action -/

variable {bodies : ι → CreateFragmentRequest Doc} {s s' : FragmentDb Doc ι} {a : UpsertAct ι}
  {id : String} {start : ℕ}

omit [DecidableEq Doc] [Fintype ι] in
theorem upsert_calls (i j : ι) (p : UpsertPhase Doc) (s : FragmentDb Doc ι) :
    (s.put i p).calls j = if j = i then p else s.calls j := by
  simp [FragmentDb.put, Function.update_apply]

omit [DecidableEq Doc] [DecidableEq ι] [Fintype ι] in
theorem store_rows (id id' : String) (row : FragmentRow Doc) (s : FragmentDb Doc ι) :
    (s.store id row).rows id' = if id' = id then some row else s.rows id' := by
  simp [FragmentDb.store, Function.update_apply]

/-- **What an undisturbed action does to the version of a fragment** that is there. -/
inductive VersionMove (bodies : ι → CreateFragmentRequest Doc) (id : String)
    (s s' : FragmentDb Doc ι) : Prop where
  | same (hrow : s'.rows id = s.rows id)
      (hv : ∀ j, (bodies j).fragmentId = id → (s'.calls j).version = (s.calls j).version)
  | counted {i : ι} (row row' : FragmentRow Doc) (hi : (bodies i).fragmentId = id)
      (hrow : s.rows id = some row) (hrow' : s'.rows id = some row')
      (hnew : row'.version = row.version + 1) (hold : (s.calls i).version = none)
      (hv : (s'.calls i).version = some row'.version)
      (hother : ∀ j, j ≠ i → s'.calls j = s.calls j)

omit [DecidableEq Doc] [Fintype ι] in
/-- A request goes on without a commit. -/
theorem VersionMove.put {i : ι} {p : UpsertPhase Doc} (hp : p.version = (s.calls i).version) :
    VersionMove bodies id s (s.put i p) := by
  refine .same rfl fun j _ => ?_
  rw [upsert_calls]
  split_ifs with hj
  · rw [hj, hp]
  · rfl

omit [DecidableEq Doc] [Fintype ι] in
/-- Another fragment is written. -/
theorem VersionMove.other {i : ι} {p : UpsertPhase Doc} {row : FragmentRow Doc}
    (hi : (bodies i).fragmentId ≠ id) :
    VersionMove bodies id s ((s.store (bodies i).fragmentId row).put i p) := by
  refine .same ?_ fun j hj => ?_
  · show (s.store _ row).rows id = _
    rw [store_rows, if_neg (Ne.symm hi)]
  · rw [upsert_calls, if_neg]
    · rfl
    · rintro rfl
      exact hi hj

omit [Fintype ι] in
theorem FragmentDb.step_commit {i : ι} (hs : s.step bodies (.commit i) = some s')
    (hok : undisturbedCommit bodies s (.commit i) = true) (hsome : (s.rows id).isSome) :
    VersionMove bodies id s s' := by
  unfold FragmentDb.step at hs
  unfold undisturbedCommit at hok
  dsimp only at hs hok
  cases hc : s.calls i with
  | arrived | committed f | answered f | failed =>
    rw [hc] at hs
    cases hs
  | selected existing =>
    have hold : (s.calls i).version = none := by rw [hc]; rfl
    rw [hc] at hs hok
    cases hrow : s.rows (bodies i).fragmentId with
    | none =>
      have hi : (bodies i).fragmentId ≠ id := by
        rintro rfl
        rw [hrow] at hsome
        cases hsome
      rw [hrow] at hs
      cases existing with
      | none =>
        obtain rfl := Option.some.inj hs
        exact .other hi
      | some existing =>
        obtain rfl := Option.some.inj hs
        exact .put hold.symm
    | some stored =>
      rw [hrow] at hs hok
      cases existing with
      | none =>
        obtain rfl := Option.some.inj hs
        exact .put hold.symm
      | some existing =>
        obtain rfl := Option.some.inj hs
        by_cases hi : (bodies i).fragmentId = id
        · have hver : stored.version = existing.version := of_decide_eq_true hok
          refine .counted stored ((bodies i).update existing stored) hi
            (hi ▸ hrow) ?_ ?_ hold ?_ fun j hj => ?_
          · show (s.store _ _).rows id = _
            rw [store_rows, if_pos hi.symm]
          · rw [CreateFragmentRequest.version_update, hver]
          · rw [upsert_calls, if_pos rfl, CreateFragmentRequest.version_update]
            rfl
          · rw [upsert_calls, if_neg hj]
            rfl
        · exact .other hi

omit [Fintype ι] in
/-- **An undisturbed action does one of the two.** -/
theorem FragmentDb.step_move (hs : s.step bodies a = some s')
    (hok : undisturbedCommit bodies s a = true) (hsome : (s.rows id).isSome) :
    VersionMove bodies id s s' := by
  cases a with
  | commit i => exact FragmentDb.step_commit hs hok hsome
  | select i =>
    unfold FragmentDb.step at hs
    dsimp only at hs
    split at hs
    · rename_i hc
      obtain rfl := Option.some.inj hs
      exact .put (by rw [hc]; rfl)
    · cases hs
  | refresh i =>
    unfold FragmentDb.step at hs
    unfold undisturbedCommit at hok
    dsimp only at hs hok
    cases hc : s.calls i with
    | arrived | selected f | answered f | failed =>
      rw [hc] at hs
      cases hs
    | committed fragment =>
      rw [hc] at hs hok
      cases hrow : s.rows (bodies i).fragmentId with
      | some stored =>
        rw [hrow] at hs hok
        obtain rfl := Option.some.inj hs
        have hver : stored.version = fragment.version := of_decide_eq_true hok
        refine .put ?_
        rw [hc]
        exact congrArg some hver
      | none =>
        rw [hrow] at hs
        obtain rfl := Option.some.inj hs
        refine .same rfl fun j hj => ?_
        rw [upsert_calls, if_neg]
        rintro rfl
        rw [hj] at hrow
        rw [hrow] at hsome
        cases hsome
  | fail i =>
    unfold FragmentDb.step at hs
    unfold undisturbedCommit at hok
    dsimp only at hs hok
    cases hc : s.calls i with
    | answered f | failed =>
      rw [hc] at hs
      cases hs
    | committed f =>
      rw [hc] at hok
      cases hok
    | arrived | selected f =>
      rw [hc] at hs
      obtain rfl := Option.some.inj hs
      exact .put (by rw [hc]; rfl)

/-! ## Runs -/

/-- The versions that requests for a fragment have committed are counted, and lie apart. -/
structure VersionInv (bodies : ι → CreateFragmentRequest Doc) (id : String) (start : ℕ)
    (s : FragmentDb Doc ι) : Prop where
  row : ∃ row, s.rows id = some row ∧ row.version = start +
      (Finset.univ.filter fun i => (bodies i).fragmentId = id ∧ (s.calls i).version.isSome).card ∧
    ∀ i, (bodies i).fragmentId = id → ∀ v ∈ (s.calls i).version, v ≤ row.version
  apart : ∀ i j, i ≠ j → (bodies i).fragmentId = id → (bodies j).fragmentId = id →
    ∀ v ∈ (s.calls i).version, v ∉ (s.calls j).version

omit [DecidableEq Doc] [DecidableEq ι] in
theorem VersionInv.init {rows : String → Option (FragmentRow Doc)} {row : FragmentRow Doc}
    (h : rows id = some row) : VersionInv bodies id row.version { rows := rows } := by
  refine ⟨⟨row, h, ?_, nofun⟩, nofun⟩
  simp [UpsertPhase.version]

omit [DecidableEq Doc] in
/-- **One action keeps the count.** -/
theorem VersionInv.move (h : VersionInv bodies id start s) (hm : VersionMove bodies id s s') :
    VersionInv bodies id start s' := by
  obtain ⟨⟨row, hrow, hcount, hle⟩, hapart⟩ := h
  cases hm with
  | same hrow' hv =>
    refine ⟨⟨row, hrow'.trans hrow, ?_, fun i hi v hvi => ?_⟩, fun i j hij hi hj v hvi hvj => ?_⟩
    · rw [hcount]
      congr 2
      refine Finset.filter_congr fun i _ => and_congr_right fun hi => ?_
      rw [hv i hi]
    · rw [hv i hi] at hvi
      exact hle i hi v hvi
    · rw [hv i hi] at hvi
      rw [hv j hj] at hvj
      exact hapart i j hij hi hj v hvi hvj
  | @counted i stored row' hi hstored hrow' hnew hold hv hother =>
    obtain rfl := Option.some.inj (hrow.symm.trans hstored)
    -- the others have committed older versions
    have hold_le : ∀ j, j ≠ i → (bodies j).fragmentId = id → ∀ v ∈ (s'.calls j).version,
        v < row'.version := by
      intro j hji hj v hvj
      rw [hother j hji] at hvj
      have := hle j hj v hvj
      omega
    have hset : (Finset.univ.filter fun j => (bodies j).fragmentId = id ∧
        (s'.calls j).version.isSome) = insert i (Finset.univ.filter fun j =>
          (bodies j).fragmentId = id ∧ (s.calls j).version.isSome) := by
      ext j
      by_cases hji : j = i
      · simp [hji, hi, hv]
      · simp [hji, hother j hji]
    refine ⟨⟨row', hrow', ?_, fun j hj v hvj => ?_⟩, fun j k hjk hj hk v hvj hvk => ?_⟩
    · rw [hset, Finset.card_insert_of_notMem (by simp [hold]), hnew, hcount]
      omega
    · by_cases hji : j = i
      · rw [hji, hv, Option.mem_some_iff] at hvj
        exact hvj.ge
      · exact (hold_le j hji hj v hvj).le
    · by_cases hji : j = i
      · rw [hji, hv, Option.mem_some_iff] at hvj
        have := hold_le k (fun hki => hjk (hji.trans hki.symm)) hk v hvk
        omega
      · by_cases hki : k = i
        · rw [hki, hv, Option.mem_some_iff] at hvk
          have := hold_le j hji hj v hvj
          omega
        · rw [hother j hji] at hvj
          rw [hother k hki] at hvk
          exact hapart j k hjk hj hk v hvj hvk

omit [DecidableEq Doc] [DecidableEq ι] in
/-- When all requests are over, what was committed was reported. -/
theorem VersionInv.counted (h : VersionInv bodies id start s) : Counted bodies s id start := by
  obtain ⟨⟨row, hrow, hcount, -⟩, hapart⟩ := h
  have hreported : ∀ i v, (s.calls i).reported = some v → (s.calls i).version = some v := by
    intro i v hv
    cases hc : s.calls i with
    | answered f =>
      rw [hc] at hv
      exact hv
    | _ =>
      rw [hc] at hv
      cases hv
  refine ⟨fun hover => ⟨row, hrow, ?_⟩, fun i j hij hi hj v hvi hvj => ?_⟩
  · rw [hcount, FragmentDb.successes]
    congr 2
    refine Finset.filter_congr fun i _ => and_congr_right fun hi => ?_
    have hnot := hover i hi
    cases hc : s.calls i with
    | committed f =>
      rw [hc] at hnot
      cases hnot
    | _ => rfl
  · exact hapart i j hij hi hj v (hreported i v hvi) (hreported j v hvj)

/-- **Versions are counted while nobody is in between.** In every state of every run of requests
whose actions are undisturbed, the successes for a fragment that was there at the start are counted
once each. -/
theorem versions_counted (bodies : ι → CreateFragmentRequest Doc)
    {rows : String → Option (FragmentRow Doc)} {row : FragmentRow Doc} (hrow : rows id = some row)
    {h : List (FragmentDb Doc ι × UpsertAct ι)} (hr : (upserts bodies rows).Run h s)
    (hok : ∀ e ∈ h, undisturbedCommit bodies e.1 e.2 = true) : Counted bodies s id row.version := by
  have hstep : ∀ t a t', VersionInv bodies id row.version t → undisturbedCommit bodies t a = true →
      (upserts bodies rows).step t a = some t' → VersionInv bodies id row.version t' := by
    intro t a t' hinv hok hs
    obtain ⟨stored, hstored, -⟩ := hinv.row
    exact hinv.move (FragmentDb.step_move hs hok (by rw [hstored]; rfl))
  exact (hr.invariant (.init hrow) hstep hok).counted

end Model

/-! ## Two requests -/

section Example

/-- The login steps, by two authors. -/
def loginBody (author : Bool) : CreateFragmentRequest String where
  fragmentId := "login"
  name := if author then "Login" else "bC Login"
  steps := "[]"

/-- The login steps in their first version. -/
def loginRows : String → Option (FragmentRow String) := fun id =>
  if id = "login" then some { name := "Login", description := none, vars := none, steps := "[]" }
  else none

/-- One after the other. -/
theorem versions_counted_login : ∃ h s, (upserts loginBody loginRows).Run h s ∧
    (s.calls true).reported = some 2 ∧ (s.calls false).reported = some 3 ∧
    Counted loginBody s "login" 1 := by
  obtain ⟨h, s, hr, hp⟩ := System.exists_run (M := upserts loginBody loginRows)
    [.select true, .commit true, .refresh true, .select false, .commit false, .refresh false]
    (fun h s => h.all (fun e => undisturbedCommit loginBody e.1 e.2) &&
      ((s.calls true).reported = some 2 && (s.calls false).reported = some 3)) (by decide +kernel)
  simp only [Bool.and_eq_true, decide_eq_true_eq, List.all_eq_true] at hp
  exact ⟨h, s, hr, hp.2.1, hp.2.2,
    versions_counted loginBody (rfl : loginRows "login" = some _) hr hp.1⟩

/-- **An update is lost**: both read the first version, and both report the second. -/
theorem update_lost : ∃ h s row, (upserts loginBody loginRows).Run h s ∧
    (s.calls true).reported = some 2 ∧ (s.calls false).reported = some 2 ∧
    s.successes loginBody "login" = 2 ∧ s.rows "login" = some row ∧ row.version ≠ 1 + 2 := by
  obtain ⟨h, s, hr, hp⟩ := System.exists_run (M := upserts loginBody loginRows)
    [.select true, .select false, .commit true, .commit false, .refresh true, .refresh false]
    (fun _ s => (s.calls true).reported = some 2 && (s.calls false).reported = some 2 &&
      (s.successes loginBody "login" = 2 && (s.rows "login").map FragmentRow.version = some 2))
    (by decide +kernel)
  simp only [Bool.and_eq_true, decide_eq_true_eq, Option.map_eq_some_iff] at hp
  obtain ⟨⟨h1, h2⟩, h3, row, hrow, hv⟩ := hp
  exact ⟨h, s, row, hr, h1, h2, h3, hrow, by omega⟩

end Example

end ScoutEngine
