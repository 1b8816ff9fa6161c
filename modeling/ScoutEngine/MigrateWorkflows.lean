import ScoutEngine.Lib.Table
import Mathlib.Data.List.Perm.Basic

/-!
# Workflows are copied to the shared server

The script copies the workflows that the server is missing. It is not a transaction: a run that
breaks down leaves what it has inserted, and is run again.

* `LocalWorkflow`, `StoredWorkflow`, `rowState`, `toCopy`: the rows, and which of them are copied.
* `insertAll`, **`migrateMain`**: a run, with the insertion before which the connection breaks down.
* `MigrationCall`, `runCalls`: runs one after the other.
* `Migrated`: what any runs leave; **`migration_resumes`**: a copy that was broken off can always be
  finished iff the rows to copy have different names.
-/

set_option autoImplicit false

namespace ScoutEngine

variable {Doc : Type}

/-! ## The script -/

/-- A row of `workflows` on the server. -/
structure StoredWorkflow (Doc : Type) where
  id : ℕ
  name : String
  description : String
  schemaVersion : String
  workflowJson : Doc
  createdAt : ℕ
  updatedAt : ℕ

/-- A row of `workflows` on localhost. -/
structure LocalWorkflow (Doc : Type) where
  id : ℕ
  name : String
  description : String
  schemaVersion : String
  workflowJson : Doc
  createdAt : ℕ
  updatedAt : Option ℕ

/-- The row that the query returns, with `COALESCE(updated_at, created_at)`. -/
def LocalWorkflow.fetched (row : LocalWorkflow Doc) : StoredWorkflow Doc :=
  { id := row.id
    name := row.name
    description := row.description
    schemaVersion := row.schemaVersion
    workflowJson := row.workflowJson
    createdAt := row.createdAt
    updatedAt := row.updatedAt.getD row.createdAt }

def haveIds (remote : List (StoredWorkflow Doc)) : List ℕ := remote.map StoredWorkflow.id

def haveNames (remote : List (StoredWorkflow Doc)) : List String := remote.map StoredWorkflow.name

/-- What is printed about a row. -/
inductive RowState where
  | already
  | nameExists
  | copy
  deriving DecidableEq

def RowState.text : RowState → String
  | .already => "already on remote"
  | .nameExists => "NAME EXISTS with different id — skipping, resolve by hand"
  | .copy => "copy"

def rowState (remote : List (StoredWorkflow Doc)) (row : StoredWorkflow Doc) : RowState :=
  if row.id ∈ haveIds remote then .already
  else if row.name ∈ haveNames remote then .nameExists
  else .copy

def missing (src remote : List (StoredWorkflow Doc)) : List (StoredWorkflow Doc) :=
  src.filter fun row => row.id ∉ haveIds remote

def toCopy (src remote : List (StoredWorkflow Doc)) : List (StoredWorkflow Doc) :=
  (missing src remote).filter fun row => row.name ∉ haveNames remote

/-- The insertions, each committed by itself, up to the one before which the connection breaks down
or that the primary key refuses. -/
def insertAll : Option ℕ → List (StoredWorkflow Doc) → List (StoredWorkflow Doc) →
    Bool × List (StoredWorkflow Doc)
  | _, [], remote => (true, remote)
  | breaks, row :: rows, remote =>
    if breaks = some 0 ∨ row.id ∈ haveIds remote then (false, remote)
    else insertAll (breaks.map (· - 1)) rows (remote ++ [row])

/-- How a run ends. -/
inductive MigrationExit where
  /-- The server is not at the same alembic head. -/
  | refused
  | dryRun (toCopy : ℕ)
  | copied (count total : ℕ)
  | raised
  deriving DecidableEq

/-- The exit status of the process. -/
def MigrationExit.code : MigrationExit → ℕ
  | .refused | .raised => 1
  | .dryRun _ | .copied _ _ => 0

structure MigrationResult (Doc : Type) where
  exit : MigrationExit
  lines : List (ℕ × String × String)
  remote : List (StoredWorkflow Doc)

/-- **The script**, once it is connected, with the alembic versions of both sides. -/
def migrateMain (apply : Bool) (sv dv : Option String) (rows : List (LocalWorkflow Doc))
    (breaks : Option ℕ) (remote : List (StoredWorkflow Doc)) : MigrationResult Doc :=
  if dv ≠ sv then { exit := .refused, lines := [], remote := remote }
  else
    let src := rows.map LocalWorkflow.fetched
    let lines := src.map fun row => (row.id, row.name, (rowState remote row).text)
    let copies := toCopy src remote
    if apply = false then { exit := .dryRun copies.length, lines := lines, remote := remote }
    else
      let inserted := insertAll breaks copies remote
      { exit := if inserted.1 then .copied copies.length inserted.2.length else .raised
        lines := lines
        remote := inserted.2 }

/-! ## Runs one after the other -/

/-- The table on localhost. -/
structure LocalTable (Doc : Type) where
  rows : List (LocalWorkflow Doc)
  key : (rows.map LocalWorkflow.id).Nodup

/-- The table on the server. -/
structure RemoteTable (Doc : Type) where
  rows : List (StoredWorkflow Doc)
  key : (haveIds rows).Nodup

/-- A call of the script. The rows come in any order. -/
structure MigrationCall (here : LocalTable Doc) where
  apply : Bool
  sv : Option String
  dv : Option String
  rows : List (LocalWorkflow Doc)
  breaks : Option ℕ
  fetch : rows.Perm here.rows

def MigrationCall.run {here : LocalTable Doc} (call : MigrationCall here)
    (remote : List (StoredWorkflow Doc)) : MigrationResult Doc :=
  migrateMain call.apply call.sv call.dv call.rows call.breaks remote

def runCalls {here : LocalTable Doc} (calls : List (MigrationCall here))
    (remote : List (StoredWorkflow Doc)) : List (StoredWorkflow Doc) :=
  calls.foldl (fun remote call => (call.run remote).remote) remote

/-- The rows to copy. -/
def LocalTable.toCopy (here : LocalTable Doc) (remote : List (StoredWorkflow Doc)) :
    List (StoredWorkflow Doc) :=
  ScoutEngine.toCopy (here.rows.map LocalWorkflow.fetched) remote

/-! ## The rows to copy -/

section Plan

variable {src remote new : List (StoredWorkflow Doc)} {row : StoredWorkflow Doc}

theorem mem_toCopy : row ∈ toCopy src remote ↔
    row ∈ src ∧ row.id ∉ haveIds remote ∧ row.name ∉ haveNames remote := by
  unfold toCopy missing
  rw [List.mem_filter, List.mem_filter]
  simp only [decide_eq_true_eq, and_assoc]

/-- **What is printed is what is copied.** -/
theorem toCopy_eq : toCopy src remote = src.filter fun row => rowState remote row = .copy := by
  unfold toCopy missing
  rw [List.filter_filter]
  refine List.filter_congr fun row _ => ?_
  unfold rowState
  by_cases hid : row.id ∈ haveIds remote
  · simp [hid]
  · by_cases hname : row.name ∈ haveNames remote <;> simp [hid, hname]

/-- Rows are copied by their ids and names only. -/
theorem mem_toCopy_append : row ∈ toCopy src (remote ++ new) ↔
    row ∈ toCopy src remote ∧ row.id ∉ haveIds new ∧ row.name ∉ haveNames new := by
  rw [mem_toCopy, mem_toCopy]
  unfold haveIds haveNames
  rw [List.map_append, List.map_append, List.mem_append, List.mem_append]
  grind

theorem toCopy_ids (hkey : (haveIds src).Nodup) : (haveIds (toCopy src remote)).Nodup :=
  Table.nodup_delete (Table.nodup_delete hkey _) _

/-! ## The insertions -/

variable {rows : List (StoredWorkflow Doc)}

/-- **Some of the rows are inserted**, from the first on, and the ids stay apart. -/
theorem insertAll_prefix (breaks : Option ℕ) (rows remote : List (StoredWorkflow Doc)) :
    ∃ new, new <+: rows ∧ (insertAll breaks rows remote).2 = remote ++ new ∧
      ((haveIds remote).Nodup → (haveIds (remote ++ new)).Nodup) := by
  induction rows generalizing breaks remote with
  | nil =>
    refine ⟨[], List.prefix_rfl, (List.append_nil _).symm, fun hkey => ?_⟩
    rw [List.append_nil]
    exact hkey
  | cons row rows ih =>
    unfold insertAll
    split_ifs with hstop
    · refine ⟨[], List.nil_prefix, (List.append_nil _).symm, fun hkey => ?_⟩
      rw [List.append_nil]
      exact hkey
    · obtain ⟨new, hpre, hrows, hkey⟩ := ih (breaks.map (· - 1)) (remote ++ [row])
      rw [List.append_assoc, List.singleton_append] at hrows hkey
      refine ⟨row :: new, List.cons_prefix_cons.mpr ⟨rfl, hpre⟩, hrows, fun hold => hkey ?_⟩
      refine Table.nodup_insert hold fun old hmem he => hstop (Or.inr ?_)
      exact List.mem_map.mpr ⟨old, hmem, he⟩

/-- **All of them are inserted**, if no connection breaks down. -/
theorem insertAll_none (hkey : (haveIds (remote ++ rows)).Nodup) :
    insertAll none rows remote = (true, remote ++ rows) := by
  induction rows generalizing remote with
  | nil => rw [insertAll, List.append_nil]
  | cons row rows ih =>
    have hnew : row.id ∉ haveIds remote := by
      intro hmem
      unfold haveIds at hkey hmem
      rw [List.map_append, List.nodup_append] at hkey
      exact hkey.2.2 _ hmem _ (List.mem_map_of_mem List.mem_cons_self) rfl
    have hrest : remote ++ row :: rows = remote ++ [row] ++ rows := by
      rw [List.append_assoc, List.singleton_append]
    rw [insertAll, if_neg (by simp [hnew]), Option.map_none, ih (hrest ▸ hkey), ← hrest]

/-- Only the first one is inserted. -/
theorem insertAll_one (hnew : row.id ∉ haveIds remote) :
    (insertAll (some 1) (row :: rows) remote).2 = remote ++ [row] := by
  rw [insertAll, if_neg (by simp [hnew])]
  cases rows with
  | nil => rfl
  | cons _ _ =>
    have hstop : Option.map (fun n => n - 1) (some 1) = some 0 := rfl
    rw [insertAll, if_pos (Or.inl hstop)]

end Plan

/-! ## Runs -/

/-- **What any runs leave**: the rows of the server are untouched, and rows to copy are added as
they are. -/
structure Migrated (here : LocalTable Doc) (remote t : List (StoredWorkflow Doc)) : Prop where
  kept : remote <+: t
  copies : ∀ row ∈ t, row ∈ remote ∨ row ∈ here.toCopy remote
  key : (haveIds t).Nodup

/-- The call writes, the versions agree, and nothing breaks down. -/
structure MigrationCall.Complete {here : LocalTable Doc} (call : MigrationCall here) : Prop where
  apply : call.apply = true
  version : call.dv = call.sv
  breaks : call.breaks = none

section Calls

variable {here : LocalTable Doc} {remote t t' : List (StoredWorkflow Doc)}
  {call : MigrationCall here} {row : StoredWorkflow Doc}

theorem LocalTable.fetched_ids (here : LocalTable Doc) :
    (haveIds (here.rows.map LocalWorkflow.fetched)).Nodup := by
  unfold haveIds
  rw [List.map_map]
  exact here.key

theorem MigrationCall.fetched (call : MigrationCall here) :
    (call.rows.map LocalWorkflow.fetched).Perm (here.rows.map LocalWorkflow.fetched) :=
  call.fetch.map _

/-- The order of the rows does not decide which are copied. -/
theorem MigrationCall.toCopy_perm (call : MigrationCall here)
    (remote : List (StoredWorkflow Doc)) :
    (ScoutEngine.toCopy (call.rows.map LocalWorkflow.fetched) remote).Perm (here.toCopy remote) :=
  (call.fetched.filter _).filter _

theorem LocalTable.mem_toCopy : row ∈ here.toCopy remote ↔
    row ∈ here.rows.map LocalWorkflow.fetched ∧ row.id ∉ haveIds remote ∧
      row.name ∉ haveNames remote :=
  ScoutEngine.mem_toCopy

/-- Less is left to copy. -/
theorem LocalTable.toCopy_anti (hsub : remote <+: t) (hrow : row ∈ here.toCopy t) :
    row ∈ here.toCopy remote := by
  obtain ⟨new, rfl⟩ := hsub
  exact (mem_toCopy_append.mp hrow).1

theorem Migrated.refl (hkey : (haveIds remote).Nodup) : Migrated here remote remote where
  kept := List.prefix_rfl
  copies := fun _ hrow => Or.inl hrow
  key := hkey

theorem Migrated.trans (h : Migrated here remote t) (h' : Migrated here t t') :
    Migrated here remote t' where
  kept := h.kept.trans h'.kept
  copies := by
    intro row hrow
    cases h'.copies row hrow with
    | inl hrow => exact h.copies row hrow
    | inr hrow => exact Or.inr (LocalTable.toCopy_anti h.kept hrow)
  key := h'.key

/-- **One run.** -/
theorem MigrationCall.migrated (call : MigrationCall here) (hkey : (haveIds remote).Nodup) :
    Migrated here remote (call.run remote).remote := by
  unfold MigrationCall.run migrateMain
  split_ifs with hversion happly
  · exact .refl hkey
  · exact .refl hkey
  · obtain ⟨new, hpre, hrows, hnew⟩ := insertAll_prefix call.breaks
      (toCopy (call.rows.map LocalWorkflow.fetched) remote) remote
    dsimp only
    rw [hrows]
    refine ⟨List.prefix_append _ _, fun row hrow => ?_, hnew hkey⟩
    cases List.mem_append.mp hrow with
    | inl hrow => exact Or.inl hrow
    | inr hrow => exact Or.inr ((call.toCopy_perm remote).mem_iff.mp (hpre.subset hrow))

/-- **Any runs.** -/
theorem runCalls_migrated (calls : List (MigrationCall here)) (hkey : (haveIds remote).Nodup) :
    Migrated here remote (runCalls calls remote) := by
  induction calls generalizing remote with
  | nil => exact .refl hkey
  | cons call calls ih =>
    have hfirst := call.migrated hkey
    exact hfirst.trans (ih hfirst.key)

/-- **A complete run.** -/
theorem MigrationCall.Complete.run (hc : call.Complete) (hkey : (haveIds remote).Nodup) :
    (call.run remote).exit.code = 0 ∧
      (call.run remote).remote.Perm (remote ++ here.toCopy remote) := by
  have hperm := call.toCopy_perm remote
  have hcopies :
      (haveIds (remote ++ toCopy (call.rows.map LocalWorkflow.fetched) remote)).Nodup := by
    have hids : (haveIds (toCopy (call.rows.map LocalWorkflow.fetched) remote)).Nodup :=
      toCopy_ids ((call.fetched.map _).nodup_iff.mpr here.fetched_ids)
    unfold haveIds at hids hkey ⊢
    rw [List.map_append, List.nodup_append]
    refine ⟨hkey, hids, fun id hold id' hnew he => ?_⟩
    obtain ⟨row, hrow, rfl⟩ := List.mem_map.mp hnew
    exact (mem_toCopy.mp hrow).2.1 (he ▸ hold)
  unfold MigrationCall.run migrateMain
  rw [if_neg (not_not.mpr hc.version), hc.apply, hc.breaks]
  dsimp only
  rw [if_neg Bool.true_eq_false.mp, insertAll_none hcopies]
  exact ⟨rfl, hperm.append_left remote⟩

/-- Every row is there after a complete run, or its name is, and nothing is left to copy. -/
theorem MigrationCall.Complete.toCopy_eq_nil (hc : call.Complete) (hkey : (haveIds remote).Nodup) :
    here.toCopy (call.run remote).remote = [] := by
  rw [List.eq_nil_iff_forall_not_mem]
  intro row hrow
  have hold := LocalTable.toCopy_anti (call.migrated hkey).kept hrow
  have hthere : row ∈ (call.run remote).remote :=
    (hc.run hkey).2.mem_iff.mpr (List.mem_append_right _ hold)
  exact (LocalTable.mem_toCopy.mp hrow).2.1 (List.mem_map_of_mem hthere)

/-- When nothing is left to copy, nothing is copied. -/
theorem runCalls_same (calls : List (MigrationCall here)) (hkey : (haveIds remote).Nodup)
    (hnone : here.toCopy remote = []) : runCalls calls remote = remote := by
  obtain ⟨⟨new, hnew⟩, hcopies, hids⟩ := runCalls_migrated calls hkey
  rw [← hnew] at hcopies hids ⊢
  cases new with
  | nil => exact List.append_nil _
  | cons row new =>
    exfalso
    have hmem := hcopies row (List.mem_append_right _ List.mem_cons_self)
    rw [hnone, or_iff_left List.not_mem_nil] at hmem
    unfold haveIds at hids
    rw [List.map_append, List.nodup_append] at hids
    exact hids.2.2 _ (List.mem_map_of_mem hmem) _ (List.mem_map_of_mem List.mem_cons_self) rfl

/-! ## Runs that are broken off -/

theorem Migrated.nodup (h : Migrated here remote t) : t.Nodup := List.Nodup.of_map _ h.key

/-- What was copied has an id and a name of its own, so that nothing else is kept from being
copied. -/
theorem Migrated.toCopy_of_not_mem (h : Migrated here remote t)
    (hnames : (haveNames (here.toCopy remote)).Nodup) (hrow : row ∈ here.toCopy remote)
    (hnot : row ∉ t) : row ∈ here.toCopy t := by
  obtain ⟨new, rfl⟩ := h.kept
  have hnew : ∀ other ∈ new, other ∈ here.toCopy remote := by
    intro other hother
    refine (h.copies other (List.mem_append_right _ hother)).resolve_left fun hold => ?_
    have hids := h.key
    unfold haveIds at hids
    rw [List.map_append, List.nodup_append] at hids
    exact hids.2.2 _ (List.mem_map_of_mem hold) _ (List.mem_map_of_mem hother) rfl
  have hids : (haveIds (here.toCopy remote)).Nodup := toCopy_ids here.fetched_ids
  refine mem_toCopy_append.mpr ⟨hrow, fun hid => hnot ?_, fun hname => hnot ?_⟩
  · obtain ⟨other, hother, he⟩ := List.mem_map.mp hid
    rw [← List.inj_on_of_nodup_map hids (hnew other hother) hrow he]
    exact List.mem_append_right _ hother
  · obtain ⟨other, hother, he⟩ := List.mem_map.mp hname
    rw [← List.inj_on_of_nodup_map hnames (hnew other hother) hrow he]
    exact List.mem_append_right _ hother

/-- **A copy that was broken off is finished.** -/
theorem MigrationCall.Complete.finishes (hc : call.Complete) (h : Migrated here remote t)
    (hnames : (haveNames (here.toCopy remote)).Nodup) (hkey : (haveIds remote).Nodup) :
    (call.run t).remote.Perm (remote ++ here.toCopy remote) := by
  have hall : (haveIds (remote ++ here.toCopy remote)).Nodup :=
    ((hc.run hkey).2.map _).nodup_iff.mp (call.migrated hkey).key
  refine (List.perm_ext_iff_of_nodup (call.migrated h.key).nodup (List.Nodup.of_map _ hall)).mpr
    fun row => ?_
  rw [(hc.run h.key).2.mem_iff, List.mem_append, List.mem_append]
  constructor
  · intro hrow
    cases hrow with
    | inl hrow => exact h.copies row hrow
    | inr hrow => exact Or.inr (LocalTable.toCopy_anti h.kept hrow)
  · intro hrow
    by_cases ht : row ∈ t
    · exact Or.inl ht
    · cases hrow with
      | inl hrow => exact Or.inl (h.kept.subset hrow)
      | inr hrow => exact Or.inr (h.toCopy_of_not_mem hnames hrow ht)

/-- The run that has inserted one row when the connection breaks down, and that row comes first. -/
def LocalTable.brokenAfter (here : LocalTable Doc) (pre post : List (LocalWorkflow Doc))
    (row : LocalWorkflow Doc) (hrows : here.rows = pre ++ row :: post) : MigrationCall here where
  apply := true
  sv := none
  dv := none
  rows := row :: (pre ++ post)
  breaks := some 1
  fetch := hrows ▸ List.perm_middle.symm

theorem LocalTable.brokenAfter_run {pre post : List (LocalWorkflow Doc)} {row : LocalWorkflow Doc}
    (hrows : here.rows = pre ++ row :: post) (hcopy : row.fetched ∈ here.toCopy remote) :
    ((here.brokenAfter pre post row hrows).run remote).remote = remote ++ [row.fetched] := by
  obtain ⟨-, hid, hname⟩ := LocalTable.mem_toCopy.mp hcopy
  have hfirst : ScoutEngine.toCopy (row.fetched :: (pre ++ post).map LocalWorkflow.fetched) remote =
      row.fetched :: ScoutEngine.toCopy ((pre ++ post).map LocalWorkflow.fetched) remote := by
    unfold ScoutEngine.toCopy missing
    rw [List.filter_cons_of_pos (by simpa using hid),
      List.filter_cons_of_pos (by simpa using hname)]
  show (migrateMain true none none (row :: (pre ++ post)) (some 1) remote).remote = _
  unfold migrateMain
  rw [if_neg (not_not.mpr rfl)]
  dsimp only
  rw [if_neg Bool.true_eq_false.mp, List.map_cons, hfirst]
  exact insertAll_one hid

/-- A row that has the name of another one is not copied after it. -/
theorem not_mem_of_name {other : StoredWorkflow Doc} (hc : call.Complete)
    (hkey : (haveIds (remote ++ [other])).Nodup) (hrow : row ∈ here.toCopy remote)
    (hne : row ≠ other) (hname : row.name = other.name) :
    row ∉ (call.run (remote ++ [other])).remote := by
  rw [(hc.run hkey).2.mem_iff, List.mem_append, List.mem_append, List.mem_singleton]
  rintro ((hold | hsame) | hcopy)
  · exact (LocalTable.mem_toCopy.mp hrow).2.1 (List.mem_map_of_mem hold)
  · exact hne hsame
  · exact (mem_toCopy_append.mp hcopy).2.2 (List.mem_singleton.mpr hname)

end Calls

/-- **The law of the script.** -/
structure MigrationLaw (here : LocalTable Doc) (remote : List (StoredWorkflow Doc)) : Prop where
  safe : ∀ calls : List (MigrationCall here), Migrated here remote (runCalls calls remote)
  /-- A complete run succeeds, whatever was broken off before, and leaves nothing to do. -/
  ends : ∀ (calls : List (MigrationCall here)) (last : MigrationCall here), last.Complete →
    let result := last.run (runCalls calls remote)
    result.exit.code = 0 ∧
      (∀ row ∈ here.rows, row.id ∈ haveIds result.remote ∨ row.name ∈ haveNames result.remote) ∧
      ∀ more : List (MigrationCall here), runCalls more result.remote = result.remote
  resumes : (∀ (calls : List (MigrationCall here)) (last : MigrationCall here), last.Complete →
      (last.run (runCalls calls remote)).remote.Perm (remote ++ here.toCopy remote)) ↔
    (haveNames (here.toCopy remote)).Nodup

/-- **Main result.** Whatever the calls of the script do and wherever they break down, the server
loses nothing, and gets rows to copy only; and they can always be finished iff the rows to copy have
different names. -/
theorem migration_resumes (here : LocalTable Doc) (there : RemoteTable Doc) :
    MigrationLaw here there.rows where
  safe := fun calls => runCalls_migrated calls there.key
  ends := by
    intro calls last hc result
    have hkey := (runCalls_migrated calls there.key).key
    have hnone := hc.toCopy_eq_nil hkey
    refine ⟨(hc.run hkey).1, fun row hrow => ?_, fun more => ?_⟩
    · by_contra hnot
      rw [not_or] at hnot
      have hmem : row.fetched ∈ here.toCopy result.remote :=
        LocalTable.mem_toCopy.mpr ⟨List.mem_map_of_mem hrow, hnot.1, hnot.2⟩
      rw [hnone] at hmem
      exact List.not_mem_nil hmem
    · exact runCalls_same more (last.migrated hkey).key hnone
  resumes := by
    constructor
    · intro hall
      refine List.Nodup.map_on (fun row hrow other hother hname => ?_)
        (List.Nodup.of_map _ (toCopy_ids here.fetched_ids))
      by_contra hne
      -- the run that breaks down after `other` keeps `row` from being copied
      obtain ⟨found, hfound, rfl⟩ := List.mem_map.mp (LocalTable.mem_toCopy.mp hother).1
      obtain ⟨pre, post, hrows⟩ := List.append_of_mem hfound
      let broken := here.brokenAfter pre post found hrows
      let last : MigrationCall here := ⟨true, none, none, here.rows, none, List.Perm.refl _⟩
      have hbroken : (broken.run there.rows).remote = there.rows ++ [found.fetched] :=
        LocalTable.brokenAfter_run hrows hother
      have hkey : (haveIds (there.rows ++ [found.fetched])).Nodup :=
        hbroken ▸ (broken.migrated there.key).key
      have hlast : last.Complete := ⟨rfl, rfl, rfl⟩
      have hend := hall [broken] last hlast
      have hruns : runCalls [broken] there.rows = there.rows ++ [found.fetched] := hbroken
      rw [hruns] at hend
      exact not_mem_of_name hlast hkey hrow hne hname
        (hend.mem_iff.mpr (List.mem_append_right _ hrow))
    · intro hnames calls last hc
      exact hc.finishes (runCalls_migrated calls there.key) hnames there.key

end ScoutEngine
