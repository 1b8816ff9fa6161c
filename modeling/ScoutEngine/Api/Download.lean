import ScoutEngine.Api.Artifacts
import ScoutEngine.Executor.World
import ScoutEngine.Lib.Paths
import ScoutEngine.Schedules.Service

/-!
# Downloads of artifacts

`download_artifact` compares absolute paths as texts, to keep a file name inside the directory of
its execution.

* `Uuid.str`, `realpath`, `downloadArtifact`.
* `ServedInside`: what is served is a file below the directory of the execution; `FileBeside`: the file
  name leads to a file beside it.
* **`served_inside_iff`**: what is served is contained iff the file name leads to no file beside.
* `sibling_served`: a file in a directory whose name begins with the id.
-/

set_option autoImplicit false

namespace ScoutEngine

open Paths

/-! ## The request -/

/-- A working directory. -/
abbrev Directory := { dir : List Name // ∀ name ∈ dir, Proper name }

/-- An execution id. -/
structure Uuid where
  int : Fin (2 ^ 128)

/-- The 32 hexadecimal digits of an id. -/
def Uuid.hex (u : Uuid) : List Char :=
  (List.range 32).map fun i => (u.int / 16 ^ (31 - i) % 16 : ℕ).digitChar

/-- `str(uuid)`: the digits in five groups. -/
def Uuid.str (u : Uuid) : String :=
  String.ofList (u.hex.take 8 ++ '-' :: (u.hex.drop 8).take 4 ++ '-' :: (u.hex.drop 12).take 4 ++
    '-' :: (u.hex.drop 16).take 4 ++ '-' :: u.hex.drop 20)

/-- `os.path.realpath` in a working directory, without symbolic links. -/
def realpath (cwd : Directory) (path : String) : Except PyExc String :=
  if '\x00' ∈ path.toList then .error ⟨.valueError, "embedded null byte"⟩
  else .ok (String.ofList (render (resolve cwd.1 path.toList)))

/-- The directory of an artifact type. -/
def ArtifactConfig.baseDir (cfg : ArtifactConfig) (artifactType : String) : Option String :=
  if artifactType = "screenshot" then some cfg.screenshotDir
  else if artifactType = "download" then some cfg.downloadDir
  else none

/-- **`download_artifact`**: the path that is served, or the error. -/
def downloadArtifact (cfg : ArtifactConfig) (cwd : Directory) (kind : List Name → Option Kind)
    (executionId : Uuid) (artifactType filename : String) : Except ApiError String :=
  match cfg.baseDir artifactType with
  | none => .error ⟨400, "Invalid artifact type. Must be 'screenshot' or 'download'."⟩
  | some baseDir => do
    let filepath := Path.join (Path.join baseDir executionId.str) filename
    let realFilepath ← uncaught (realpath cwd filepath)
    let allowedPrefix ← uncaught (realpath cwd (Path.join baseDir executionId.str))
    if ¬ allowedPrefix.toList <+: realFilepath.toList then .error ⟨400, "Invalid filename."⟩
    else if isFile kind cwd.1 filepath.toList = false then .error ⟨404, "Artifact not found."⟩
    else .ok filepath

/-- The directory of an execution. -/
def execDir (cwd : Directory) (baseDir : String) (executionId : Uuid) : List Name :=
  resolve cwd.1 (Path.join baseDir executionId.str).toList

section

variable (cfg : ArtifactConfig) (cwd : Directory) (kind : List Name → Option Kind)
  (executionId : Uuid) (artifactType filename : String)

/-- **What is served is contained**: a regular file below the directory of the execution. -/
def ServedInside : Prop :=
  ∀ baseDir path, cfg.baseDir artifactType = some baseDir →
    downloadArtifact cfg cwd kind executionId artifactType filename = .ok path →
      kind (resolve cwd.1 path.toList) = some .file ∧ ∃ rest, rest ≠ [] ∧
        resolve cwd.1 path.toList = execDir cwd baseDir executionId ++ rest

/-- **The file name leads to a regular file beside the directory**: an entry of the base directory,
or one below it, whose name begins with the id but is longer; or a file in place of the directory. -/
def FileBeside : Prop :=
  ∃ baseDir, cfg.baseDir artifactType = some baseDir ∧
    '\x00' ∉ baseDir.toList ∧ '\x00' ∉ filename.toList ∧
    isFile kind cwd.1 (Path.join (Path.join baseDir executionId.str) filename).toList = true ∧
    ∃ name rest, resolve (execDir cwd baseDir executionId) filename.toList =
        resolve cwd.1 baseDir.toList ++ name :: rest ∧
      executionId.str.toList <+: name ∧ (name = executionId.str.toList → rest = [])

end

/-! ## Paths -/

theorem toList_join (a b : String) :
    (Path.join a b).toList = Paths.join a.toList b.toList := by
  unfold Path.join Paths.join IsAbsolute
  simp only [String.toList_eq_nil_iff]
  split_ifs
  · rfl
  · exact String.toList_append
  · simp [String.toList_append]

/-- An id is made of hexadecimal digits and hyphens. -/
theorem mem_str {u : Uuid} {c : Char} (h : c ∈ u.str.toList) :
    c = '-' ∨ ∃ k < 16, c = Nat.digitChar k := by
  have hhex : ∀ c ∈ u.hex, ∃ k < 16, c = Nat.digitChar k := by
    intro c hc
    obtain ⟨i, -, rfl⟩ := List.mem_map.mp hc
    exact ⟨_, Nat.mod_lt _ (by decide), rfl⟩
  have hparts : c = '-' ∨ c ∈ u.hex := by
    unfold Uuid.str at h
    rw [String.toList_ofList] at h
    simp only [List.mem_append, List.mem_cons] at h
    grind [List.mem_of_mem_take, List.mem_of_mem_drop]
  exact hparts.imp_right (hhex c)

theorem not_mem_str (u : Uuid) {c : Char} (hhyphen : c ≠ '-')
    (hc : ∀ k < 16, c ≠ Nat.digitChar k) : c ∉ u.str.toList := by
  intro h
  rcases mem_str h with h | ⟨k, hk, h⟩
  · exact hhyphen h
  · exact hc k hk h

/-- **An id is a proper name, and no dot name.** -/
theorem str_proper (u : Uuid) : Proper u.str.toList ∧ '.' ∉ u.str.toList := by
  have hne : '-' ∈ u.str.toList := by simp [Uuid.str]
  exact ⟨⟨List.ne_nil_of_mem hne, not_mem_str u (by decide) (by decide)⟩,
    not_mem_str u (by decide) (by decide)⟩

theorem execDir_eq (cwd : Directory) (baseDir : String) (u : Uuid) :
    execDir cwd baseDir u = resolve cwd.1 baseDir.toList ++ [u.str.toList] := by
  obtain ⟨hproper, hdot⟩ := str_proper u
  unfold execDir
  rw [toList_join, resolve_join]
  refine resolve_name hproper (fun h => hdot ?_) (fun h => hdot ?_) _
  · rw [h]
    exact List.mem_cons_self
  · rw [h]
    exact List.mem_cons_self

/-- The path of a request is followed from the directory of the execution. -/
theorem resolve_filepath (cwd : Directory) (baseDir filename : String) (u : Uuid) :
    resolve cwd.1 (Path.join (Path.join baseDir u.str) filename).toList =
      resolve (execDir cwd baseDir u) filename.toList := by
  rw [toList_join, resolve_join]
  rfl

theorem mem_join {a b : List Char} {c : Char} (hc : c ≠ '/') :
    c ∈ Paths.join a b ↔ c ∈ b ∨ c ∈ a ∧ ¬ IsAbsolute b := by
  unfold Paths.join
  split_ifs with habs
  · simp [habs]
  · simp [habs, or_comm]
  · simp [habs, hc, or_comm]

/-- Both paths can be resolved iff neither the base directory nor the file name has a zero byte. -/
theorem zero_free_iff (baseDir filename : String) (u : Uuid) :
    ('\x00' ∉ (Path.join (Path.join baseDir u.str) filename).toList ∧
      '\x00' ∉ (Path.join baseDir u.str).toList) ↔
      '\x00' ∉ baseDir.toList ∧ '\x00' ∉ filename.toList := by
  have hid : '\x00' ∉ u.str.toList := not_mem_str u (by decide) (by decide)
  have hrel : ¬ IsAbsolute u.str.toList := fun h =>
    (str_proper u).1.2 (List.mem_of_mem_head? h)
  have hslash : '\x00' ≠ '/' := by decide
  generalize '\x00' = c at hid hslash ⊢
  rw [toList_join, toList_join, mem_join hslash, mem_join hslash]
  by_cases hbase : c ∈ baseDir.toList
  · simp [hbase, hrel]
  · simp [hbase, hid]

/-! ## What is served -/

section Served

variable {cfg : ArtifactConfig} {cwd : Directory} {kind : List Name → Option Kind}
  {executionId : Uuid} {artifactType filename baseDir path : String}

theorem realpath_ok {p real : String} : realpath cwd p = .ok real ↔
    '\x00' ∉ p.toList ∧ real = String.ofList (render (resolve cwd.1 p.toList)) := by
  unfold realpath
  by_cases h : '\x00' ∈ p.toList
  · simp [h]
  · simp [h, eq_comm]

/-- The guard compares an entry with the directory of the execution. -/
theorem guard_iff (cwd : Directory) (baseDir filename : String) (u : Uuid) :
    render (execDir cwd baseDir u) <+: render (resolve (execDir cwd baseDir u) filename.toList) ↔
      ∃ name rest, resolve (execDir cwd baseDir u) filename.toList =
        resolve cwd.1 baseDir.toList ++ name :: rest ∧ u.str.toList <+: name := by
  have hbase := resolve_proper cwd.2 baseDir.toList
  have hexec : ∀ name ∈ execDir cwd baseDir u, Proper name :=
    resolve_proper cwd.2 (Path.join baseDir u.str).toList
  have htarget := resolve_proper hexec filename.toList
  generalize resolve (execDir cwd baseDir u) filename.toList = target at htarget ⊢
  rw [execDir_eq]
  exact render_prefix_iff htarget hbase (str_proper u).1

/-- **What is served**: a regular file under a name that begins with the id. -/
theorem downloadArtifact_ok (hbase : cfg.baseDir artifactType = some baseDir) :
    downloadArtifact cfg cwd kind executionId artifactType filename = .ok path ↔
      path = Path.join (Path.join baseDir executionId.str) filename ∧
      ('\x00' ∉ baseDir.toList ∧ '\x00' ∉ filename.toList) ∧
      (∃ name rest, resolve (execDir cwd baseDir executionId) filename.toList =
        resolve cwd.1 baseDir.toList ++ name :: rest ∧ executionId.str.toList <+: name) ∧
      isFile kind cwd.1 (Path.join (Path.join baseDir executionId.str) filename).toList = true := by
  have hrel := resolve_filepath cwd baseDir filename executionId
  unfold downloadArtifact
  rw [hbase, ← guard_iff, ← zero_free_iff baseDir filename executionId]
  simp only [bind_ok, uncaught_ok, realpath_ok, hrel]
  constructor
  · rintro ⟨real, ⟨hzero, rfl⟩, allowed, ⟨hzero', rfl⟩, h⟩
    rw [String.toList_ofList, String.toList_ofList] at h
    split_ifs at h with hguard hfile
    exact ⟨(Except.ok.inj h).symm, ⟨hzero, hzero'⟩, hguard, Bool.not_eq_false _ ▸ hfile⟩
  · rintro ⟨rfl, ⟨hzero, hzero'⟩, hguard, hfile⟩
    refine ⟨_, ⟨hzero, rfl⟩, _, ⟨hzero', rfl⟩, ?_⟩
    rw [String.toList_ofList, String.toList_ofList, hfile]
    exact if_neg (not_not_intro hguard)

/-- **Main result.** What is served is contained iff the file name leads to no regular file beside
the directory of the execution. -/
theorem served_inside_iff (cfg : ArtifactConfig) (cwd : Directory) (kind : List Name → Option Kind)
    (executionId : Uuid) (artifactType filename : String) :
    ServedInside cfg cwd kind executionId artifactType filename ↔
      ¬ FileBeside cfg cwd kind executionId artifactType filename := by
  constructor
  · rintro hcontained ⟨baseDir, hbase, hzero, hzero', hfile, name, rest, htarget, hpre, hlast⟩
    have hserved := (downloadArtifact_ok hbase).mpr
      ⟨rfl, ⟨hzero, hzero'⟩, ⟨name, rest, htarget, hpre⟩, hfile⟩
    obtain ⟨-, rest', hne, hinside⟩ := hcontained baseDir _ hbase hserved
    rw [resolve_filepath, htarget, execDir_eq, List.append_assoc, List.append_cancel_left_eq,
      List.singleton_append] at hinside
    obtain ⟨hname, hrest⟩ := List.cons.inj hinside
    exact hne (hrest.symm.trans (hlast hname))
  · intro hno baseDir path hbase hserved
    obtain ⟨rfl, ⟨hzero, hzero'⟩, ⟨name, rest, htarget, hpre⟩, hfile⟩ :=
      (downloadArtifact_ok hbase).mp hserved
    refine ⟨isFile_kind hfile, rest, ?_⟩
    have hinside : name = executionId.str.toList ∧ rest ≠ [] := by
      by_contra h
      exact hno ⟨baseDir, hbase, hzero, hzero', hfile, name, rest, htarget, hpre,
        fun hname => by_contra fun hrest => h ⟨hname, hrest⟩⟩
    obtain ⟨rfl, hrest⟩ := hinside
    refine ⟨hrest, ?_⟩
    rw [resolve_filepath, htarget, execDir_eq, List.append_assoc, List.singleton_append]

end Served

/-! ## A directory with a longer name -/

section Example

/-- Screenshots are kept in `/srv/shots`. -/
def shotsConfig : ArtifactConfig where
  screenshotDir := "/srv/shots"

/-- The first id. -/
def firstId : Uuid := ⟨0⟩

/-- Every directory that is looked for is there, and so is every picture `a.png`. -/
def picturesEverywhere (entry : List Name) : Option Kind :=
  if entry.getLast? = some "a.png".toList then some .file else some .directory

/-- A picture in a directory whose name begins with the first id. -/
def oldPicture : String := "../00000000-0000-0000-0000-000000000000-old/a.png"

/-- **A file of another directory is served**: the name of its directory begins with the id. -/
theorem sibling_served :
    firstId.str = "00000000-0000-0000-0000-000000000000" ∧
    downloadArtifact shotsConfig ⟨[], by simp⟩ picturesEverywhere firstId "screenshot" oldPicture =
      .ok ("/srv/shots/00000000-0000-0000-0000-000000000000/" ++ oldPicture) ∧
    ¬ ServedInside shotsConfig ⟨[], by simp⟩ picturesEverywhere firstId "screenshot" oldPicture := by
  have hserved : downloadArtifact shotsConfig ⟨[], by simp⟩ picturesEverywhere firstId "screenshot"
      oldPicture = .ok ("/srv/shots/00000000-0000-0000-0000-000000000000/" ++ oldPicture) := rfl
  refine ⟨rfl, hserved, fun hcontained => ?_⟩
  obtain ⟨-, rest, -, hinside⟩ := hcontained "/srv/shots" _ rfl hserved
  have hprefix : execDir ⟨[], by simp⟩ "/srv/shots" firstId <+:
      resolve [] ("/srv/shots/00000000-0000-0000-0000-000000000000/" ++ oldPicture).toList :=
    ⟨rest, hinside.symm⟩
  exact absurd hprefix (by decide +kernel)

end Example

end ScoutEngine
