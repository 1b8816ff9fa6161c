import ScoutEngine.Lib.Transition
import Mathlib.Data.Int.Notation
import Mathlib.Algebra.Order.Ring.Int

/-!
# Directories of executions

Executions make directories that are named by their ids, and `cleanup_old_artifacts` removes those
of the rows that are old enough.

* `ArtifactRow`, `ArtifactConfig`, `Artifacts`; `Artifacts.cleanupOldArtifacts`.
* `artifactService`: executions, workflow deletions and cleanups.
* `Cleaned`: what a cleanup should do; `Traceable`: old directories have rows.
* **`cleaned_iff`**: every cleanup of a run does that iff it finds every old directory traceable;
  `traceable_of_kept`: it does while no workflow with directories is deleted.
-/

set_option autoImplicit false

namespace ScoutEngine

open Transition

/-! ## The two stores -/

/-- A row of `executions`, with the columns that the cleanup is about. -/
structure ArtifactRow where
  id : ℕ
  workflowId : ℕ
  createdAt : ℤ

/-- `settings.screenshot_dir` and `settings.download_dir`. -/
structure ArtifactConfig where
  screenshotDir : String := ""
  downloadDir : String := "./downloads"

/-- The directories that hold the directories of executions. -/
def ArtifactConfig.baseDirs (cfg : ArtifactConfig) : List String :=
  [cfg.screenshotDir, cfg.downloadDir]

/-- The rows, and the directories on disk by base and execution. -/
structure Artifacts where
  workflows : List ℕ := []
  rows : List ArtifactRow := []
  dirs : List (String × ℕ) := []
  /-- When an execution was created. The database forgets this with the row. -/
  born : ℕ → Option ℤ := fun _ => none

/-- `datetime.now() - timedelta(days=retention_days)`, in seconds. -/
def cutoff (now retentionDays : ℤ) : ℤ := now - retentionDays * 86400

/-- `shutil.rmtree` of a directory that is there, with the number of directories removed. -/
def removeDir (dir : String × ℕ) (found : List (String × ℕ) × ℕ) : List (String × ℕ) × ℕ :=
  if dir ∈ found.1 then (found.1.filter (· ≠ dir), found.2 + 1) else found

/-- The loop over the old executions and the two directories. -/
def removeDirs (baseDirs : List String) (oldIds : List ℕ) (found : List (String × ℕ) × ℕ) :
    List (String × ℕ) × ℕ :=
  oldIds.foldl (fun found id => baseDirs.foldl (fun found base => removeDir (base, id) found) found)
    found

namespace Artifacts

/-- `select(Execution.id).where(Execution.created_at < cutoff)`. -/
def oldIds (s : Artifacts) (limit : ℤ) : List ℕ :=
  (s.rows.filter (·.createdAt < limit)).map ArtifactRow.id

/-- `cleanup_old_artifacts`, with the number that it returns. -/
def cleanupOldArtifacts (cfg : ArtifactConfig) (now retentionDays : ℤ) (s : Artifacts) :
    Artifacts × ℕ :=
  let oldIds := s.oldIds (cutoff now retentionDays)
  if oldIds = [] then (s, 0)
  else
    let r := removeDirs cfg.baseDirs oldIds (s.dirs, 0)
    ({ s with dirs := r.1 }, r.2)

end Artifacts

inductive ArtifactAct where
  | uploadWorkflow (id : ℕ)
  | deleteWorkflow (id : ℕ)
  /-- A row for an execution. -/
  | runWorkflow (id workflowId : ℕ) (now : ℤ)
  /-- An execution makes its directory. -/
  | makeDir (base : String) (id : ℕ)
  | cleanup (now retentionDays : ℤ)

def Artifacts.step (cfg : ArtifactConfig) (s : Artifacts) : ArtifactAct → Option Artifacts
  | .uploadWorkflow id =>
    if id ∈ s.workflows then none else some { s with workflows := id :: s.workflows }
  | .deleteWorkflow id =>
    if id ∈ s.workflows then
      some { s with
        workflows := s.workflows.filter (· ≠ id)
        rows := s.rows.filter fun row => row.workflowId ≠ id }
    else none
  | .runWorkflow id workflowId now =>
    if workflowId ∈ s.workflows ∧ s.born id = none then
      some { s with
        rows := ⟨id, workflowId, now⟩ :: s.rows
        born := Function.update s.born id (some now) }
    else none
  | .makeDir base id =>
    if base ∈ cfg.baseDirs ∧ s.born id ≠ none then
      some { s with dirs := if (base, id) ∈ s.dirs then s.dirs else (base, id) :: s.dirs }
    else none
  | .cleanup now retentionDays => some (s.cleanupOldArtifacts cfg now retentionDays).1

/-- **Executions, workflow deletions and cleanups**, in any order. -/
def artifactService (cfg : ArtifactConfig) : System Artifacts ArtifactAct where
  init := {}
  step := Artifacts.step cfg

/-! ## What a cleanup should do -/

/-- The execution was created before the limit. -/
def Artifacts.Old (s : Artifacts) (limit : ℤ) (id : ℕ) : Prop := ∃ t, s.born id = some t ∧ t < limit

/-- **No directory of an old execution is left, and none of another execution is removed.** -/
structure Cleaned (cfg : ArtifactConfig) (limit : ℤ) (s s' : Artifacts) : Prop where
  removed : ∀ dir ∈ s'.dirs, dir.1 ∈ cfg.baseDirs → ¬ s.Old limit dir.2
  kept : ∀ dir ∈ s.dirs, ¬ s.Old limit dir.2 → dir ∈ s'.dirs

/-- The cleanup finds a row for every directory of an old execution. -/
def Traceable (cfg : ArtifactConfig) (s : Artifacts) : ArtifactAct → Prop
  | .cleanup now retentionDays => ∀ dir ∈ s.dirs, dir.1 ∈ cfg.baseDirs →
      s.Old (cutoff now retentionDays) dir.2 → ∃ row ∈ s.rows, row.id = dir.2
  | _ => True

section Cleanup

variable {cfg : ArtifactConfig} {s s' : Artifacts} {a : ArtifactAct} {limit now days : ℤ}

/-! ## The loops -/

theorem mem_removeDir {dir d : String × ℕ} {found : List (String × ℕ) × ℕ} :
    d ∈ (removeDir dir found).1 ↔ d ∈ found.1 ∧ d ≠ dir := by
  unfold removeDir
  split_ifs with h
  · simp
  · exact ⟨fun hd => ⟨hd, fun he => h (he ▸ hd)⟩, And.left⟩

theorem mem_foldl_removeDir {id : ℕ} {bases : List String} {d : String × ℕ}
    {found : List (String × ℕ) × ℕ} :
    d ∈ (bases.foldl (fun found base => removeDir (base, id) found) found).1 ↔
      d ∈ found.1 ∧ ¬ (d.1 ∈ bases ∧ d.2 = id) := by
  induction bases generalizing found with
  | nil => simp
  | cons base bases ih =>
    rw [List.foldl_cons, ih, mem_removeDir]
    obtain ⟨b, i⟩ := d
    simp only [List.mem_cons, ne_eq, Prod.mk.injEq]
    tauto

theorem mem_removeDirs {bases : List String} {ids : List ℕ} {d : String × ℕ}
    {found : List (String × ℕ) × ℕ} :
    d ∈ (removeDirs bases ids found).1 ↔ d ∈ found.1 ∧ ¬ (d.1 ∈ bases ∧ d.2 ∈ ids) := by
  induction ids generalizing found with
  | nil => simp [removeDirs]
  | cons id ids ih =>
    rw [removeDirs, List.foldl_cons, ← removeDirs, ih, mem_foldl_removeDir, List.mem_cons]
    tauto

/-- **What a cleanup leaves.** -/
theorem mem_cleanup {d : String × ℕ} : d ∈ (s.cleanupOldArtifacts cfg now days).1.dirs ↔
    d ∈ s.dirs ∧ ¬ (d.1 ∈ cfg.baseDirs ∧ d.2 ∈ s.oldIds (cutoff now days)) := by
  unfold Artifacts.cleanupOldArtifacts
  dsimp only
  split_ifs with h
  · simp [h]
  · exact mem_removeDirs

/-! ## Rows and births -/

/-- A row tells when its execution was created. -/
def BirthsKnown (s : Artifacts) : Prop := ∀ row ∈ s.rows, s.born row.id = some row.createdAt

theorem BirthsKnown.step (h : BirthsKnown s) (hs : s.step cfg a = some s') : BirthsKnown s' := by
  cases a with
  | uploadWorkflow id =>
    simp only [Artifacts.step] at hs
    split_ifs at hs
    obtain rfl := Option.some.inj hs
    exact h
  | deleteWorkflow id =>
    simp only [Artifacts.step] at hs
    split_ifs at hs
    obtain rfl := Option.some.inj hs
    exact fun row hrow => h row (List.mem_filter.mp hrow).1
  | runWorkflow id workflowId now =>
    simp only [Artifacts.step] at hs
    split_ifs at hs with hnew
    obtain rfl := Option.some.inj hs
    intro row hrow
    rcases List.mem_cons.mp hrow with rfl | hrow
    · exact Function.update_self _ _ _
    · have hborn := h row hrow
      refine (Function.update_of_ne (fun he => ?_) _ _).trans hborn
      rw [he, hnew.2] at hborn
      cases hborn
  | makeDir base id =>
    simp only [Artifacts.step] at hs
    split_ifs at hs <;> exact Option.some.inj hs ▸ h
  | cleanup now days =>
    obtain rfl := Option.some.inj hs
    unfold Artifacts.cleanupOldArtifacts
    dsimp only
    split_ifs <;> exact h

/-- The rows of old executions. -/
theorem mem_oldIds (h : BirthsKnown s) {id : ℕ} :
    id ∈ s.oldIds limit ↔ s.Old limit id ∧ ∃ row ∈ s.rows, row.id = id := by
  simp only [Artifacts.oldIds, List.mem_map, List.mem_filter, decide_eq_true_iff]
  constructor
  · rintro ⟨row, ⟨hrow, hlt⟩, rfl⟩
    exact ⟨⟨_, h row hrow, hlt⟩, row, hrow, rfl⟩
  · rintro ⟨⟨t, ht, hlt⟩, row, hrow, rfl⟩
    obtain rfl := Option.some.inj ((h row hrow).symm.trans ht)
    exact ⟨row, ⟨hrow, hlt⟩, rfl⟩

/-- A cleanup removes exactly the old directories that are traceable. -/
theorem cleaned_iff_traceable (h : BirthsKnown s) :
    Cleaned cfg (cutoff now days) s (s.cleanupOldArtifacts cfg now days).1 ↔
      Traceable cfg s (.cleanup now days) := by
  constructor
  · intro hc dir hdir hbase hold
    by_contra hno
    refine hc.removed dir (mem_cleanup.mpr ⟨hdir, fun hrem => hno ?_⟩) hbase hold
    exact ((mem_oldIds h).mp hrem.2).2
  · intro ht
    refine ⟨fun dir hdir hbase hold => ?_, fun dir hdir hold => ?_⟩
    · obtain ⟨hdir, hrem⟩ := mem_cleanup.mp hdir
      exact hrem ⟨hbase, (mem_oldIds h).mpr ⟨hold, ht dir hdir hbase hold⟩⟩
    · exact mem_cleanup.mpr ⟨hdir, fun hrem => hold ((mem_oldIds h).mp hrem.2).1⟩

end Cleanup

/-! ## Runs -/

section Runs

variable {cfg : ArtifactConfig} {h : List (Artifacts × ArtifactAct)} {s : Artifacts}

theorem birthsKnown_of_run (hr : (artifactService cfg).Run h s) : ∀ e ∈ h, BirthsKnown e.1 :=
  hr.invariant_passed (P := BirthsKnown) (fun _ hrow => absurd hrow List.not_mem_nil)
    (fun _ _ _ hi (_ : True) hs => hi.step hs) fun _ _ => trivial

/-- **Main result.** Every cleanup of a run removes the directories of the executions created before
its limit, and no others, iff it finds rows for all of these. -/
theorem cleaned_iff (hr : (artifactService cfg).Run h s) :
    (∀ e ∈ h, ∀ now days, e.2 = .cleanup now days →
      Cleaned cfg (cutoff now days) e.1 (e.1.cleanupOldArtifacts cfg now days).1) ↔
      ∀ e ∈ h, Traceable cfg e.1 e.2 := by
  constructor
  · intro hc e he
    cases ha : e.2 with
    | cleanup now days => exact (cleaned_iff_traceable (birthsKnown_of_run hr e he)).mp (hc e he _ _ ha)
    | _ => exact trivial
  · intro ht e he now days ha
    have hte := ht e he
    rw [ha] at hte
    exact (cleaned_iff_traceable (birthsKnown_of_run hr e he)).mpr hte

/-! ## Workflows that are kept -/

/-- The operation deletes no workflow with an execution that has a directory, and makes no directory
for an execution without a row. -/
def Kept (s : Artifacts) : ArtifactAct → Prop
  | .deleteWorkflow id => ∀ row ∈ s.rows, row.workflowId = id → ∀ dir ∈ s.dirs, dir.2 ≠ row.id
  | .makeDir _ id => ∃ row ∈ s.rows, row.id = id
  | _ => True

/-- Every directory has a row. -/
def AllTraced (s : Artifacts) : Prop := ∀ dir ∈ s.dirs, ∃ row ∈ s.rows, row.id = dir.2

theorem AllTraced.step {s' : Artifacts} {a : ArtifactAct} (ht : AllTraced s) (hk : Kept s a)
    (hs : s.step cfg a = some s') : AllTraced s' := by
  cases a with
  | uploadWorkflow id =>
    simp only [Artifacts.step] at hs
    split_ifs at hs
    obtain rfl := Option.some.inj hs
    exact ht
  | deleteWorkflow id =>
    simp only [Artifacts.step] at hs
    split_ifs at hs
    obtain rfl := Option.some.inj hs
    intro dir hdir
    obtain ⟨row, hrow, hid⟩ := ht dir hdir
    refine ⟨row, List.mem_filter.mpr ⟨hrow, decide_eq_true fun hw => ?_⟩, hid⟩
    exact hk row hrow hw dir hdir hid.symm
  | runWorkflow id workflowId now =>
    simp only [Artifacts.step] at hs
    split_ifs at hs
    obtain rfl := Option.some.inj hs
    intro dir hdir
    obtain ⟨row, hrow, hid⟩ := ht dir hdir
    exact ⟨row, List.mem_cons_of_mem _ hrow, hid⟩
  | makeDir base id =>
    simp only [Artifacts.step] at hs
    split_ifs at hs
    · obtain rfl := Option.some.inj hs
      exact ht
    · obtain rfl := Option.some.inj hs
      exact List.forall_mem_cons.mpr ⟨hk, ht⟩
  | cleanup now days =>
    obtain rfl := Option.some.inj hs
    intro dir hdir
    obtain ⟨row, hrow, hid⟩ := ht dir (mem_cleanup.mp hdir).1
    refine ⟨row, ?_, hid⟩
    unfold Artifacts.cleanupOldArtifacts
    dsimp only
    split_ifs <;> exact hrow

/-- **While no workflow with directories is deleted, every directory is traceable.** -/
theorem traceable_of_kept (hr : (artifactService cfg).Run h s) (hk : ∀ e ∈ h, Kept e.1 e.2) :
    ∀ e ∈ h, Traceable cfg e.1 e.2 := by
  have ht := hr.invariant_passed (P := AllTraced) (fun _ hdir => absurd hdir List.not_mem_nil)
    (fun _ _ _ hi ho hs => hi.step ho hs) hk
  intro e he
  cases ha : e.2 with
  | cleanup => exact fun dir hdir _ _ => ht e he dir hdir
  | _ => exact trivial

end Runs

/-! ## A directory that is forgotten -/

section Example

/-- A cleanup after sixty days, with a retention of thirty. -/
def sixtyDays : ArtifactAct := .cleanup (60 * 86400) 30

theorem cleaned_iff_sixtyDays : ∃ h s, (artifactService {}).Run h s ∧
    s.dirs = [("./downloads", 2)] ∧
    ((∀ e ∈ h, ∀ now days, e.2 = .cleanup now days →
      Cleaned {} (cutoff now days) e.1 (e.1.cleanupOldArtifacts {} now days).1) ↔
      ∀ e ∈ h, Traceable {} e.1 e.2) := by
  have he : (artifactService {}).exec [.uploadWorkflow 1, .runWorkflow 1 1 0,
    .makeDir "./downloads" 1, .runWorkflow 2 1 (59 * 86400), .makeDir "./downloads" 2, sixtyDays] []
    {} = some (_, _) := rfl
  have hr := System.run_exec .init he
  exact ⟨_, _, hr, by decide, cleaned_iff hr⟩

/-- **The workflow is deleted, and no cleanup finds the directory of its execution.** -/
theorem directory_left : ∃ h s, (artifactService {}).Run h s ∧
    ("./downloads", 1) ∈ (s.cleanupOldArtifacts {} (60 * 86400) 30).1.dirs ∧
    s.Old (cutoff (60 * 86400) 30) 1 ∧
      ¬ Cleaned {} (cutoff (60 * 86400) 30) s (s.cleanupOldArtifacts {} (60 * 86400) 30).1 := by
  have he : (artifactService {}).exec [.uploadWorkflow 1, .runWorkflow 1 1 0,
    .makeDir "./downloads" 1, .deleteWorkflow 1] [] {} = some (_, _) := rfl
  have hr := System.run_exec .init he
  have hold : ∃ t, (some (0 : ℤ)) = some t ∧ t < cutoff (60 * 86400) 30 := ⟨0, rfl, by decide⟩
  refine ⟨_, _, hr, by decide, hold, fun hc => ?_⟩
  exact hc.removed ("./downloads", 1) (by decide) (by decide) hold

end Example

end ScoutEngine
