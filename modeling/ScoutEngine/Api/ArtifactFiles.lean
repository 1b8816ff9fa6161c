import ScoutEngine.Api.Download
import ScoutEngine.Lib.FileTree
import Mathlib.Data.List.Sort
import Mathlib.Data.String.Basic

/-!
# The files of an execution

`list_artifacts` lists the directories of an execution that `download_artifact` serves files from.

* `Artifact`, `collectArtifacts`.
* **`artifacts_faithful`**: each listed artifact is served, and what is served from the directory
  itself is listed.
-/

set_option autoImplicit false

namespace ScoutEngine

open Paths

/-! ## The file system -/

/-- A working directory as `download_artifact` has it. -/
def workingDirectory {fs : FileSystem} (cwd : fs.Cwd) : Directory :=
  ⟨cwd.1, fun name hname => (cwd.plain name hname).1⟩

/-- `os.path.isdir(path)`. -/
def isdir (fs : FileSystem) (cwd : fs.Cwd) (path : String) : Bool :=
  '\x00' ∉ path.toList && isDirectory fs.kind cwd.1 path.toList

/-- `os.path.isfile(path)`. -/
def isfile (fs : FileSystem) (cwd : fs.Cwd) (path : String) : Bool :=
  '\x00' ∉ path.toList && isFile fs.kind cwd.1 path.toList

/-- `os.listdir(path)` of a directory. -/
def listdir (fs : FileSystem) (cwd : fs.Cwd) (path : String) : List String :=
  (fs.listdir (resolve cwd.1 path.toList)).map String.ofList

/-- `os.path.getsize(path)` of a file. -/
def getsize (fs : FileSystem) (cwd : fs.Cwd) (path : String) : ℕ :=
  fs.size (resolve cwd.1 path.toList)

/-! ## The listing -/

structure Artifact where
  filename : String
  type : String
  sizeBytes : ℕ
  url : String

def artifactUrl (executionId artifactType f : String) : String :=
  "/api/executions/" ++ executionId ++ "/artifacts/" ++ artifactType ++ "/" ++ f

/-- One round of the loop in `_collect_artifacts`. -/
def artifactsIn (fs : FileSystem) (cwd : fs.Cwd) (executionId artifactType baseDir : String) :
    List Artifact :=
  let execDir := Path.join baseDir executionId
  if isdir fs cwd execDir then
    ((listdir fs cwd execDir).mergeSort fun a b => a ≤ b).filterMap fun f =>
      let filepath := Path.join execDir f
      if isfile fs cwd filepath then
        some
          { filename := f
            type := artifactType
            sizeBytes := getsize fs cwd filepath
            url := artifactUrl executionId artifactType f }
      else none
  else []

/-- `_collect_artifacts`. -/
def collectArtifacts (cfg : ArtifactConfig) (fs : FileSystem) (cwd : fs.Cwd)
    (executionId : String) : List Artifact :=
  artifactsIn fs cwd executionId "screenshot" cfg.screenshotDir ++
    artifactsIn fs cwd executionId "download" cfg.downloadDir

/-- What `list_artifacts` answers. -/
structure ArtifactList where
  executionId : String
  artifacts : List Artifact

def listArtifacts (cfg : ArtifactConfig) (fs : FileSystem) (cwd : fs.Cwd) (executionId : Uuid) :
    ArtifactList :=
  { executionId := executionId.str
    artifacts := collectArtifacts cfg fs cwd executionId.str }

/-! ## What is listed -/

section Listing

variable {cfg : ArtifactConfig} {fs : FileSystem} {cwd : fs.Cwd} {u : Uuid}
  {artifactType baseDir filename path : String} {name : Name} {a : Artifact}

/-- The artifact of a name. -/
def artifactOf (fs : FileSystem) (cwd : fs.Cwd) (u : Uuid) (artifactType baseDir : String)
    (name : Name) : Artifact where
  filename := String.ofList name
  type := artifactType
  sizeBytes := fs.size (execDir (workingDirectory cwd) baseDir u ++ [name])
  url := artifactUrl u.str artifactType (String.ofList name)

theorem join_str_ne (baseDir : String) (u : Uuid) : (Path.join baseDir u.str).toList ≠ [] := by
  have hrel : ¬ IsAbsolute u.str.toList := fun h => (str_proper u).1.2 (List.mem_of_mem_head? h)
  have hne := (str_proper u).1.1
  rw [toList_join, Paths.join, if_neg hrel]
  split_ifs <;> simp [hne]

theorem resolve_plain_name (h : Plain name) (dir : List Name) : resolve dir name = dir ++ [name] :=
  resolve_name h.1 h.2.1 h.2.2 dir

/-- A name in the directory of an execution. -/
theorem resolve_execDir_name (h : Plain name) :
    resolve cwd.1 (Path.join (Path.join baseDir u.str) (String.ofList name)).toList =
      execDir (workingDirectory cwd) baseDir u ++ [name] := by
  rw [toList_join, resolve_join, String.toList_ofList, resolve_plain_name h]
  rfl

/-- A relative path in the directory of an execution. -/
theorem isFile_execDir (hrel : ¬ IsAbsolute filename.toList) :
    isFile fs.kind cwd.1 (Path.join (Path.join baseDir u.str) filename).toList = true ↔
      isDirectory fs.kind cwd.1 (Path.join baseDir u.str).toList = true ∧
        isFile fs.kind (execDir (workingDirectory cwd) baseDir u) filename.toList = true := by
  rw [toList_join, isFile_join (join_str_ne baseDir u) hrel]
  rfl

/-- In a directory that is there, a name that can be listed is that of a regular file iff it is. -/
theorem isfile_name (hdir : isdir fs cwd (Path.join baseDir u.str) = true)
    (hname : Plain name ∧ '\x00' ∉ name) :
    isfile fs cwd (Path.join (Path.join baseDir u.str) (String.ofList name)) = true ↔
      fs.kind (execDir (workingDirectory cwd) baseDir u ++ [name]) = some .file := by
  have hrel : ¬ IsAbsolute (String.ofList name).toList := by
    rw [String.toList_ofList]
    exact fun h => hname.1.1.2 (List.mem_of_mem_head? h)
  obtain ⟨hzero, hthere⟩ := (Bool.and_eq_true _ _).mp hdir
  have hkind : fs.kind (execDir (workingDirectory cwd) baseDir u) = some .directory :=
    (isDirectory_iff.mp hthere).2.2
  have hfree : '\x00' ∉ (Path.join (Path.join baseDir u.str) (String.ofList name)).toList := by
    rw [toList_join, mem_join (by decide), String.toList_ofList]
    exact not_or_intro hname.2 fun h => of_decide_eq_true hzero h.1
  unfold isfile
  rw [decide_eq_true hfree, Bool.true_and, isFile_execDir hrel, String.toList_ofList,
    isFile_name hname.1.1.2, enter_plain_name hname.1]
  exact ⟨fun h => h.2.2, fun h => ⟨hthere, hkind, h⟩⟩

/-- **What one directory lists**: its regular files. -/
theorem mem_artifactsIn : a ∈ artifactsIn fs cwd u.str artifactType baseDir ↔
    isdir fs cwd (Path.join baseDir u.str) = true ∧
      ∃ name, fs.kind (execDir (workingDirectory cwd) baseDir u ++ [name]) = some .file ∧
        a = artifactOf fs cwd u artifactType baseDir name := by
  unfold artifactsIn
  dsimp only
  by_cases hdir : isdir fs cwd (Path.join baseDir u.str) = true
  · rw [if_pos hdir, List.mem_filterMap]
    have hof : ∀ name, Plain name → ({
        filename := String.ofList name
        type := artifactType
        sizeBytes := getsize fs cwd (Path.join (Path.join baseDir u.str) (String.ofList name))
        url := artifactUrl u.str artifactType (String.ofList name) } : Artifact) =
        artifactOf fs cwd u artifactType baseDir name := by
      intro name hplain
      rw [getsize, resolve_execDir_name hplain]
      rfl
    constructor
    · rintro ⟨f, hf, ha⟩
      rw [List.mem_mergeSort] at hf
      obtain ⟨name, hname, rfl⟩ := List.mem_map.mp hf
      have hplain := fs.plain_name hname
      split_ifs at ha with hfile
      refine ⟨hdir, name, (isfile_name hdir hplain).mp hfile, ?_⟩
      rw [← hof name hplain.1]
      exact (Option.some.inj ha).symm
    · rintro ⟨-, name, hkind, rfl⟩
      have hsome : fs.kind (execDir (workingDirectory cwd) baseDir u ++ [name]) ≠ none := by
        rw [hkind]
        exact Option.some_ne_none _
      have hlisted := (fs.mem_listdir _ _).mpr hsome
      have hplain := fs.plain_name hlisted
      refine ⟨String.ofList name, ?_, ?_⟩
      · exact List.mem_mergeSort.mpr (List.mem_map_of_mem hlisted)
      · rw [if_pos ((isfile_name hdir hplain).mpr hkind), hof name hplain.1]
  · rw [if_neg hdir]
    exact iff_of_false List.not_mem_nil fun h => hdir h.1

/-- The names of a directory are listed in their order. -/
theorem artifactsIn_sorted (fs : FileSystem) (cwd : fs.Cwd)
    (executionId artifactType baseDir : String) :
    (artifactsIn fs cwd executionId artifactType baseDir).Pairwise fun a b =>
      a.filename < b.filename := by
  unfold artifactsIn
  dsimp only
  split_ifs
  · have hnodup : (listdir fs cwd (Path.join baseDir executionId)).Nodup :=
      (fs.nodup_listdir _).map fun _ _ h => String.ofList_injective h
    generalize listdir fs cwd (Path.join baseDir executionId) = names at hnodup
    have hsorted : (names.mergeSort fun a b => a ≤ b).Pairwise fun a b => a ≤ b :=
      (List.pairwise_mergeSort (fun a b c hab hbc => by simp_all; exact hab.trans hbc)
        (fun a b => by simpa using le_total a b) names).imp of_decide_eq_true
    have hapart : (names.mergeSort fun a b => a ≤ b).Nodup :=
      (List.mergeSort_perm _ _).nodup_iff.mpr hnodup
    refine (hsorted.and hapart).filterMap _ fun a b hab x hx y hy => ?_
    have hx' : x.filename = a := by
      split_ifs at hx
      exact congrArg Artifact.filename (Option.some.inj hx).symm
    have hy' : y.filename = b := by
      split_ifs at hy
      exact congrArg Artifact.filename (Option.some.inj hy).symm
    rw [hx', hy']
    exact lt_of_le_of_ne hab.1 hab.2
  · exact List.Pairwise.nil

theorem mem_collectArtifacts : a ∈ collectArtifacts cfg fs cwd u.str ↔
    ∃ artifactType baseDir, cfg.baseDir artifactType = some baseDir ∧
      a ∈ artifactsIn fs cwd u.str artifactType baseDir := by
  unfold collectArtifacts
  rw [List.mem_append]
  constructor
  · rintro (h | h)
    · exact ⟨"screenshot", _, rfl, h⟩
    · exact ⟨"download", _, rfl, h⟩
  · rintro ⟨artifactType, baseDir, hbase, h⟩
    unfold ArtifactConfig.baseDir at hbase
    split_ifs at hbase with hshot hdown
    · obtain rfl := Option.some.inj hbase
      exact Or.inl (hshot ▸ h)
    · obtain rfl := Option.some.inj hbase
      exact Or.inr (hdown ▸ h)

/-! ## What is served -/

/-- **What is served under a relative name**: a regular file in the directory, if that is there. -/
theorem served_relative (hbase : cfg.baseDir artifactType = some baseDir)
    (hrel : ¬ IsAbsolute filename.toList) :
    downloadArtifact cfg (workingDirectory cwd) fs.kind u artifactType filename = .ok path ↔
      path = Path.join (Path.join baseDir u.str) filename ∧ '\x00' ∉ filename.toList ∧
      (∃ name rest, resolve (execDir (workingDirectory cwd) baseDir u) filename.toList =
        resolve cwd.1 baseDir.toList ++ name :: rest ∧ u.str.toList <+: name) ∧
      isdir fs cwd (Path.join baseDir u.str) = true ∧
      isFile fs.kind (execDir (workingDirectory cwd) baseDir u) filename.toList = true := by
  have hzero : '\x00' ∉ (Path.join baseDir u.str).toList ↔ '\x00' ∉ baseDir.toList := by
    have hid : '\x00' ∉ u.str.toList := not_mem_str u (by decide) (by decide)
    have hid' : ¬ IsAbsolute u.str.toList := fun h => (str_proper u).1.2 (List.mem_of_mem_head? h)
    rw [toList_join, mem_join (by decide)]
    simp [hid, hid']
  have hdir : isdir fs cwd (Path.join baseDir u.str) = true ↔ '\x00' ∉ baseDir.toList ∧
      isDirectory fs.kind cwd.1 (Path.join baseDir u.str).toList = true := by
    rw [isdir, Bool.and_eq_true, decide_eq_true_iff, hzero]
  rw [downloadArtifact_ok hbase, hdir]
  have hfile : isFile fs.kind (workingDirectory cwd).1
        (Path.join (Path.join baseDir u.str) filename).toList = true ↔ _ := isFile_execDir hrel
  rw [hfile]
  constructor
  · rintro ⟨hpath, ⟨hz, hz'⟩, hguard, hthere, hf⟩
    exact ⟨hpath, hz', hguard, ⟨hz, hthere⟩, hf⟩
  · rintro ⟨hpath, hz', hguard, ⟨hz, hthere⟩, hf⟩
    exact ⟨hpath, ⟨hz, hz'⟩, hguard, hthere, hf⟩

/-- **The listing and the downloads agree.** -/
structure ListingServed (cfg : ArtifactConfig) (fs : FileSystem) (cwd : fs.Cwd) (u : Uuid)
    (artifacts : List Artifact) : Prop where
  /-- What is listed is served, under its type and name, with its size. -/
  served : ∀ a ∈ artifacts, a.url = artifactUrl u.str a.type a.filename ∧
    ∃ path, downloadArtifact cfg (workingDirectory cwd) fs.kind u a.type a.filename = .ok path ∧
      fs.kind (resolve cwd.1 path.toList) = some .file ∧ a.sizeBytes = getsize fs cwd path
  /-- What is served under a relative name, from the directory itself, is listed. -/
  listed : ∀ artifactType baseDir filename path name, cfg.baseDir artifactType = some baseDir →
    ¬ IsAbsolute filename.toList →
    downloadArtifact cfg (workingDirectory cwd) fs.kind u artifactType filename = .ok path →
    resolve cwd.1 path.toList = execDir (workingDirectory cwd) baseDir u ++ [name] →
      ∃ a ∈ artifacts, a.type = artifactType ∧ a.filename = String.ofList name ∧
        a.sizeBytes = getsize fs cwd path
  /-- Screenshots come first, and each file once, in the order of the names. -/
  sorted : artifacts.Pairwise fun a b => a.type = "screenshot" ∧ b.type = "download" ∨
    a.type = b.type ∧ a.filename < b.filename

theorem type_of_mem {executionId : String}
    (h : a ∈ artifactsIn fs cwd executionId artifactType baseDir) : a.type = artifactType := by
  unfold artifactsIn at h
  dsimp only at h
  split_ifs at h
  · obtain ⟨f, -, ha⟩ := List.mem_filterMap.mp h
    split_ifs at ha
    exact congrArg Artifact.type (Option.some.inj ha).symm
  · cases h

/-- **Main result.** Whatever directories and files there are, symbolic links apart, and wherever the
server runs. -/
theorem artifacts_faithful (cfg : ArtifactConfig) (fs : FileSystem) (cwd : fs.Cwd)
    (executionId : Uuid) :
    ListingServed cfg fs cwd executionId (listArtifacts cfg fs cwd executionId).artifacts where
  served := by
    intro a ha
    obtain ⟨artifactType, baseDir, hbase, hin⟩ := mem_collectArtifacts.mp ha
    obtain ⟨hdir, name, hkind, rfl⟩ := mem_artifactsIn.mp hin
    have hsome : fs.kind (execDir (workingDirectory cwd) baseDir executionId ++ [name]) ≠ none := by
      rw [hkind]
      exact Option.some_ne_none _
    have hplain := fs.plain_name ((fs.mem_listdir _ _).mpr hsome)
    have hexec : fs.kind (execDir (workingDirectory cwd) baseDir executionId) = some .directory :=
      (isDirectory_iff.mp ((Bool.and_eq_true _ _).mp hdir).2).2.2
    have hresolve : resolve cwd.1 (Path.join (Path.join baseDir executionId.str)
        (String.ofList name)).toList = _ := resolve_execDir_name hplain.1
    have hrel : ¬ IsAbsolute (String.ofList name).toList := by
      rw [String.toList_ofList]
      exact fun h => hplain.1.1.2 (List.mem_of_mem_head? h)
    refine ⟨rfl, Path.join (Path.join baseDir executionId.str) (String.ofList name), ?_, ?_, ?_⟩
    · refine (served_relative hbase hrel).mpr ⟨rfl, ?_, ?_, hdir, ?_⟩
      · rw [String.toList_ofList]
        exact hplain.2
      · refine ⟨executionId.str.toList, [name], ?_, List.prefix_rfl⟩
        rw [String.toList_ofList, resolve_plain_name hplain.1, execDir_eq, List.append_assoc]
        rfl
      · rw [String.toList_ofList, isFile_name hplain.1.1.2, enter_plain_name hplain.1]
        exact ⟨hexec, hkind⟩
    · rw [hresolve]
      exact hkind
    · rw [getsize, hresolve, artifactOf]
  listed := by
    intro artifactType baseDir filename path name hbase hrel hserved hresolve
    obtain ⟨rfl, -, -, hdir, hfile⟩ := (served_relative hbase hrel).mp hserved
    have hkind : fs.kind (execDir (workingDirectory cwd) baseDir executionId ++ [name]) =
        some .file := by
      have hthere : resolve cwd.1 (Path.join (Path.join baseDir executionId.str) filename).toList =
          resolve (execDir (workingDirectory cwd) baseDir executionId) filename.toList :=
        resolve_filepath (workingDirectory cwd) baseDir filename executionId
      rw [← hresolve, hthere]
      exact (isFile_iff.mp hfile).2
    refine ⟨artifactOf fs cwd executionId artifactType baseDir name, ?_, rfl, rfl, ?_⟩
    · exact mem_collectArtifacts.mpr
        ⟨artifactType, baseDir, hbase, mem_artifactsIn.mpr ⟨hdir, name, hkind, rfl⟩⟩
    · rw [getsize, hresolve, artifactOf]
  sorted := by
    have hsorted : ∀ artifactType baseDir,
        (artifactsIn fs cwd executionId.str artifactType baseDir).Pairwise fun a b =>
          a.type = "screenshot" ∧ b.type = "download" ∨
            a.type = b.type ∧ a.filename < b.filename := by
      intro artifactType baseDir
      refine (artifactsIn_sorted fs cwd executionId.str artifactType baseDir).imp_of_mem ?_
      intro a b ha hb hlt
      exact Or.inr ⟨(type_of_mem ha).trans (type_of_mem hb).symm, hlt⟩
    refine List.pairwise_append.mpr ⟨hsorted _ _, hsorted _ _, fun a ha b hb => ?_⟩
    exact Or.inl ⟨type_of_mem ha, type_of_mem hb⟩

end Listing

end ScoutEngine
