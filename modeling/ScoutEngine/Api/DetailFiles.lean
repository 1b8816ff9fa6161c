import ScoutEngine.Api.ArtifactFiles
import ScoutEngine.Api.Detail
import ScoutEngine.Executor.Footprint

/-!
# The files that an execution is shown with

`get_execution` derives outputs from the download directory, and links the steps to their
screenshots.

* `deriveOutputs`; `Downloaded`: a regular file in the download directory; `Contract`: what the
  consumer of the outputs relies on.
* **`deriveOutputs_spec`**: there are outputs iff there is a file, and they keep the contract;
  **`outputs_answered`**: so they are answered.
* `Linked`: a link to a recorded picture; `ShownWithPictures`; **`screenshot_links`**: the steps of a
  run are stored, read back and linked to their pictures.
-/

set_option autoImplicit false

namespace ScoutEngine

open Paths Table

/-! ## Outputs from the download directory -/

/-- `os.path.getmtime(path)` of a file. -/
def getmtime (fs : FileSystem) (cwd : fs.Cwd) (path : String) : ℚ :=
  fs.mtime (resolve cwd.1 path.toList)

/-- `f.endswith(".crdownload")`. -/
def Unfinished (f : List Char) : Prop := ".crdownload".toList <:+ f

instance (f : List Char) : Decidable (Unfinished f) :=
  inferInstanceAs (Decidable (".crdownload".toList <:+ f))

/-- `_derive_outputs`. -/
def deriveOutputs (cfg : ArtifactConfig) (fs : FileSystem) (cwd : fs.Cwd) (executionId : String) :
    Option Outputs :=
  let execDir := String.ofList (abspath cwd.1 (Path.join cfg.downloadDir executionId).toList)
  if isdir fs cwd execDir = false then none
  else
    let files := ((listdir fs cwd execDir).map (Path.join execDir)).filter (isfile fs cwd)
    if files = [] then none
    else
      let files := files.mergeSort fun a b => getmtime fs cwd a ≤ getmtime fs cwd b
      let finalized := files.filter fun f => ¬ Unfinished f.toList
      let chosen := (if finalized = [] then files else finalized).getLastD ""
      some
        [(some "file_path", .str chosen),
          (some "download_files", .list (files.map fun f => .str (Path.basename f)))]

section Derived

variable (cfg : ArtifactConfig) (fs : FileSystem) (cwd : fs.Cwd) (u : Uuid)

/-- The download directory of an execution. -/
def downloadsOf : List Name := execDir (workingDirectory cwd) cfg.downloadDir u

/-- A regular file in the download directory. -/
def Downloaded (name : Name) : Prop := fs.kind (downloadsOf cfg fs cwd u ++ [name]) = some .file

instance (name : Name) : Decidable (Downloaded cfg fs cwd u name) :=
  inferInstanceAs (Decidable (fs.kind (downloadsOf cfg fs cwd u ++ [name]) = some .file))

/-- The name is preferred: it is that of a finalized file, or there is none. -/
def Preferred (names : List Name) (name : Name) : Prop :=
  ¬ Unfinished name ∨ ∀ n ∈ names, Unfinished n

/-- **The contract of the outputs**, with the path and the names that they consist of. -/
structure Contract (path : String) (names : List Name) : Prop where
  files : ∀ name, name ∈ names ↔ Downloaded cfg fs cwd u name
  nodup : names.Nodup
  byTime : names.Pairwise fun a b =>
    fs.mtime (downloadsOf cfg fs cwd u ++ [a]) ≤ fs.mtime (downloadsOf cfg fs cwd u ++ [b])
  absolute : IsAbsolute path.toList
  /-- The path is that of the newest of the preferred files, in every working directory. -/
  chosen : ∃ name ∈ names, Preferred names name ∧
    (∀ n ∈ names, Preferred names n → fs.mtime (downloadsOf cfg fs cwd u ++ [n]) ≤
      fs.mtime (downloadsOf cfg fs cwd u ++ [name])) ∧
    ∀ dir, resolve dir path.toList = downloadsOf cfg fs cwd u ++ [name] ∧
      isFile fs.kind dir path.toList = true

end Derived

section Spec

variable (cfg : ArtifactConfig) (fs : FileSystem) (cwd : fs.Cwd) (u : Uuid)

/-- The directory as `_derive_outputs` names it. -/
def downloadPath : String := String.ofList (abspath cwd.1 (Path.join cfg.downloadDir u.str).toList)

/-- The path of a name in the download directory. -/
def downloadFile (name : Name) : String :=
  Path.join (downloadPath cfg fs cwd u) (String.ofList name)

/-- The names of the files, the newest last. -/
def downloadNames : List Name :=
  ((fs.listdir (downloadsOf cfg fs cwd u)).filter fun n =>
      fs.kind (downloadsOf cfg fs cwd u ++ [n]) = some .file).mergeSort
    fun a b =>
      fs.mtime (downloadsOf cfg fs cwd u ++ [a]) ≤ fs.mtime (downloadsOf cfg fs cwd u ++ [b])

theorem downloadsOf_plain : ∀ name ∈ downloadsOf cfg fs cwd u, Plain name :=
  resolve_plain cwd.plain _

theorem downloadPath_canonical :
    Canonical (downloadPath cfg fs cwd u).toList (downloadsOf cfg fs cwd u) := by
  rw [downloadPath, String.toList_ofList]
  exact abspath_canonical cwd.plain _

theorem downloadFile_canonical {name : Name} (h : Proper name) :
    Canonical (downloadFile cfg fs cwd u name).toList (downloadsOf cfg fs cwd u ++ [name]) := by
  rw [downloadFile, toList_join, String.toList_ofList]
  exact (downloadPath_canonical cfg fs cwd u).snoc (downloadsOf_plain cfg fs cwd u) h

variable {cfg fs cwd u} {name : Name}

/-- What follows the last slash. -/
theorem basename_slash {path : String} {init : List Char} (h : path.toList = init ++ '/' :: name)
    (hname : '/' ∉ name) : Path.basename path = String.ofList name := by
  have hrev : path.toList.reverse = name.reverse ++ '/' :: init.reverse := by simp [h]
  have hall : ∀ c ∈ name.reverse, decide (c ≠ '/') = true := by
    intro c hc
    refine decide_eq_true fun he => hname ?_
    rw [← he]
    exact List.mem_reverse.mp hc
  have hstop : ('/' :: init.reverse).takeWhile (fun c => decide (c ≠ '/')) = [] :=
    List.takeWhile_cons_of_neg (by decide)
  rw [Path.basename, hrev, List.takeWhile_append_of_pos hall, hstop, List.append_nil,
    List.reverse_reverse]

theorem isdir_downloadPath : isdir fs cwd (downloadPath cfg fs cwd u) = true ↔
    fs.kind (downloadsOf cfg fs cwd u) = some .directory := by
  have hpath := downloadPath_canonical cfg fs cwd u
  have hdir := hpath.isDirectory_iff fs.tree (downloadsOf_plain cfg fs cwd u) cwd.1
  rw [isdir, Bool.and_eq_true, hdir, decide_eq_true_iff]
  refine ⟨And.right, fun hkind => ⟨fs.zero_free hpath ?_, hkind⟩⟩
  rw [hkind]
  exact Option.some_ne_none _

theorem plain_snoc (h : Plain name) : ∀ n ∈ downloadsOf cfg fs cwd u ++ [name], Plain n := by
  intro n hn
  rcases List.mem_append.mp hn with hn | hn
  · exact downloadsOf_plain cfg fs cwd u n hn
  · rwa [List.mem_singleton.mp hn]

theorem isfile_downloadFile (h : Plain name) :
    isfile fs cwd (downloadFile cfg fs cwd u name) = true ↔ Downloaded cfg fs cwd u name := by
  have hpath := downloadFile_canonical cfg fs cwd u h.1
  have hfile := hpath.isFile_iff fs.tree (plain_snoc h) cwd.1
  rw [isfile, Bool.and_eq_true, hfile, decide_eq_true_iff]
  refine ⟨And.right, fun hkind => ⟨fs.zero_free hpath ?_, hkind⟩⟩
  rw [hkind]
  exact Option.some_ne_none _

theorem getmtime_downloadFile (h : Plain name) : getmtime fs cwd (downloadFile cfg fs cwd u name) =
    fs.mtime (downloadsOf cfg fs cwd u ++ [name]) := by
  rw [getmtime, (downloadFile_canonical cfg fs cwd u h.1).resolve_eq (plain_snoc h)]

theorem basename_downloadFile (h : Plain name) :
    Path.basename (downloadFile cfg fs cwd u name) = String.ofList name := by
  obtain ⟨init, hpath⟩ := (downloadFile_canonical cfg fs cwd u h.1).exists_last
  exact basename_slash hpath h.1.2

theorem unfinished_downloadFile (h : Plain name) :
    Unfinished (downloadFile cfg fs cwd u name).toList ↔ Unfinished name := by
  obtain ⟨init, hpath⟩ := (downloadFile_canonical cfg fs cwd u h.1).exists_last
  rw [hpath]
  exact suffix_slash_iff (by decide)

theorem mem_downloadNames : name ∈ downloadNames cfg fs cwd u ↔ Downloaded cfg fs cwd u name := by
  unfold downloadNames
  rw [List.mem_mergeSort, List.mem_filter, decide_eq_true_iff, fs.mem_listdir]
  refine ⟨And.right, fun h => ⟨?_, h⟩⟩
  rw [h]
  exact Option.some_ne_none _

theorem plain_of_downloaded (h : Downloaded cfg fs cwd u name) : Plain name := by
  refine (fs.plain_name ((fs.mem_listdir (downloadsOf cfg fs cwd u) name).mpr ?_)).1
  rw [h]
  exact Option.some_ne_none _

/-- The files that are found, the newest last. -/
theorem files_eq (cfg : ArtifactConfig) (fs : FileSystem) (cwd : fs.Cwd) (u : Uuid) :
    (((listdir fs cwd (downloadPath cfg fs cwd u)).map
      (Path.join (downloadPath cfg fs cwd u))).filter (isfile fs cwd)).mergeSort
        (fun a b => getmtime fs cwd a ≤ getmtime fs cwd b) =
      (downloadNames cfg fs cwd u).map (downloadFile cfg fs cwd u) := by
  have hresolve :=
    (downloadPath_canonical cfg fs cwd u).resolve_eq (downloadsOf_plain cfg fs cwd u) cwd.1
  have hfound : ((listdir fs cwd (downloadPath cfg fs cwd u)).map
      (Path.join (downloadPath cfg fs cwd u))).filter (isfile fs cwd) =
      ((fs.listdir (downloadsOf cfg fs cwd u)).filter fun n =>
          fs.kind (downloadsOf cfg fs cwd u ++ [n]) = some .file).map
        (downloadFile cfg fs cwd u) := by
    rw [listdir, hresolve, List.map_map, List.filter_map]
    refine congrArg _ (List.filter_congr fun n hn => ?_)
    rw [Bool.eq_iff_iff, decide_eq_true_iff]
    exact isfile_downloadFile (fs.plain_name hn).1
  rw [hfound, downloadNames]
  refine (List.map_mergeSort fun a ha b hb => ?_).symm
  have hplain : ∀ n ∈ (fs.listdir (downloadsOf cfg fs cwd u)).filter fun n =>
      fs.kind (downloadsOf cfg fs cwd u ++ [n]) = some .file, Plain n :=
    fun n hn => (fs.plain_name (List.mem_filter.mp hn).1).1
  rw [getmtime_downloadFile (hplain a ha), getmtime_downloadFile (hplain b hb)]

/-- In a list that ascends by a key, the last one has the greatest. -/
theorem le_getLast {α : Type} {key : α → ℚ} {l : List α} (h : l.Pairwise fun a b => key a ≤ key b)
    (hne : l ≠ []) : ∀ a ∈ l, key a ≤ key (l.getLast hne) := by
  intro a ha
  have hsplit := List.dropLast_append_getLast hne
  rw [← hsplit] at h ha
  rcases List.mem_append.mp ha with hinit | hlast
  · exact (List.pairwise_append.mp h).2.2 a hinit _ (List.mem_singleton.mpr rfl)
  · rw [List.mem_singleton.mp hlast]

theorem downloadNames_sorted (cfg : ArtifactConfig) (fs : FileSystem) (cwd : fs.Cwd) (u : Uuid) :
    (downloadNames cfg fs cwd u).Pairwise fun a b =>
      fs.mtime (downloadsOf cfg fs cwd u ++ [a]) ≤ fs.mtime (downloadsOf cfg fs cwd u ++ [b]) := by
  refine (List.pairwise_mergeSort (fun a b c hab hbc => ?_) (fun a b => ?_) _).imp of_decide_eq_true
  · exact decide_eq_true ((of_decide_eq_true hab).trans (of_decide_eq_true hbc))
  · simpa using le_total (fs.mtime (downloadsOf cfg fs cwd u ++ [a])) _

/-- The names that are chosen from. -/
def chosenFrom (names : List Name) : List Name :=
  if names.filter (fun n => ¬ Unfinished n) = [] then names
  else names.filter fun n => ¬ Unfinished n

theorem mem_chosenFrom {names : List Name} : name ∈ chosenFrom names ↔
    name ∈ names ∧ Preferred names name := by
  unfold chosenFrom Preferred
  split_ifs with h
  · have hall : ∀ n ∈ names, Unfinished n := by
      intro n hn
      have hnot := List.filter_eq_nil_iff.mp h n hn
      simpa using hnot
    exact ⟨fun hn => ⟨hn, Or.inr hall⟩, And.left⟩
  · rw [List.mem_filter, decide_eq_true_iff]
    refine and_congr_right fun _ => ⟨Or.inl, fun hor => hor.resolve_right fun hall => h ?_⟩
    exact List.filter_eq_nil_iff.mpr fun n hn => by simpa using hall n hn

/-- The outputs that a path and names make. -/
def outputsOf (path : String) (names : List Name) : Outputs :=
  [(some "file_path", .str path),
    (some "download_files", .list (names.map fun n => .str (String.ofList n)))]

theorem chosenFrom_ne_nil {names : List Name} (h : names ≠ []) : chosenFrom names ≠ [] := by
  unfold chosenFrom
  split_ifs with hall
  · exact h
  · exact hall

/-- The last of the preferred files. -/
theorem getLastD_chosen (h : ∀ n ∈ downloadNames cfg fs cwd u, Plain n)
    (hne : downloadNames cfg fs cwd u ≠ []) :
    (if ((downloadNames cfg fs cwd u).map (downloadFile cfg fs cwd u)).filter
          (fun f => ¬ Unfinished f.toList) = [] then
        (downloadNames cfg fs cwd u).map (downloadFile cfg fs cwd u)
      else ((downloadNames cfg fs cwd u).map (downloadFile cfg fs cwd u)).filter
          (fun f => ¬ Unfinished f.toList)).getLastD "" =
      downloadFile cfg fs cwd u
        ((chosenFrom (downloadNames cfg fs cwd u)).getLast (chosenFrom_ne_nil hne)) := by
  have hfilter : ((downloadNames cfg fs cwd u).map (downloadFile cfg fs cwd u)).filter
      (fun f => ¬ Unfinished f.toList) =
      ((downloadNames cfg fs cwd u).filter fun n => ¬ Unfinished n).map
        (downloadFile cfg fs cwd u) := by
    rw [List.filter_map]
    refine congrArg _ (List.filter_congr fun n hn => ?_)
    rw [Bool.eq_iff_iff, decide_eq_true_iff]
    simp only [Function.comp_apply, decide_eq_true_iff]
    exact not_congr (unfinished_downloadFile (h n hn))
  have hmap : (if ((downloadNames cfg fs cwd u).map (downloadFile cfg fs cwd u)).filter
          (fun f => ¬ Unfinished f.toList) = [] then
        (downloadNames cfg fs cwd u).map (downloadFile cfg fs cwd u)
      else ((downloadNames cfg fs cwd u).map (downloadFile cfg fs cwd u)).filter
          (fun f => ¬ Unfinished f.toList)) =
      (chosenFrom (downloadNames cfg fs cwd u)).map (downloadFile cfg fs cwd u) := by
    rw [hfilter, chosenFrom]
    simp only [List.map_eq_nil_iff]
    split_ifs <;> rfl
  rw [hmap, List.getLastD_eq_getLast?, List.getLast?_map,
    List.getLast?_eq_getLast_of_ne_nil (chosenFrom_ne_nil hne)]
  rfl

/-- What is chosen keeps the contract. -/
theorem contract_chosen (hne : downloadNames cfg fs cwd u ≠ []) :
    Contract cfg fs cwd u (downloadFile cfg fs cwd u
      ((chosenFrom (downloadNames cfg fs cwd u)).getLast (chosenFrom_ne_nil hne)))
      (downloadNames cfg fs cwd u) := by
  have hlast := List.getLast_mem (chosenFrom_ne_nil hne)
  have hsorted : (chosenFrom (downloadNames cfg fs cwd u)).Pairwise fun a b =>
      fs.mtime (downloadsOf cfg fs cwd u ++ [a]) ≤ fs.mtime (downloadsOf cfg fs cwd u ++ [b]) := by
    unfold chosenFrom
    split_ifs
    · exact downloadNames_sorted cfg fs cwd u
    · exact (downloadNames_sorted cfg fs cwd u).filter _
  have hnewest := le_getLast hsorted (chosenFrom_ne_nil hne)
  generalize (chosenFrom (downloadNames cfg fs cwd u)).getLast (chosenFrom_ne_nil hne) = name
    at hlast hnewest ⊢
  obtain ⟨hmem, hpref⟩ := mem_chosenFrom.mp hlast
  have hdown := mem_downloadNames.mp hmem
  have hplain := plain_of_downloaded hdown
  have hpath := downloadFile_canonical cfg fs cwd u hplain.1
  exact
    { files := fun name => mem_downloadNames
      nodup := (List.mergeSort_perm _ _).nodup_iff.mpr ((fs.nodup_listdir _).filter _)
      byTime := downloadNames_sorted cfg fs cwd u
      absolute := hpath.isAbsolute
      chosen := ⟨name, hmem, hpref, fun n hn hp => hnewest n (mem_chosenFrom.mpr ⟨hn, hp⟩),
        fun dir => ⟨hpath.resolve_eq (plain_snoc hplain) dir,
          (hpath.isFile_iff fs.tree (plain_snoc hplain) dir).mpr hdown⟩⟩ }

/-- **There are outputs iff there is a file, and they keep the contract.** -/
theorem deriveOutputs_spec (cfg : ArtifactConfig) (fs : FileSystem) (cwd : fs.Cwd) (u : Uuid) :
    (deriveOutputs cfg fs cwd u.str = none ∧ ∀ name, ¬ Downloaded cfg fs cwd u name) ∨
      ∃ path names, deriveOutputs cfg fs cwd u.str = some (outputsOf path names) ∧
        Contract cfg fs cwd u path names := by
  have hfiles := files_eq cfg fs cwd u
  have hplain : ∀ n ∈ downloadNames cfg fs cwd u, Plain n :=
    fun n hn => plain_of_downloaded (mem_downloadNames.mp hn)
  have hpath : String.ofList (abspath cwd.1 (Path.join cfg.downloadDir u.str).toList) =
      downloadPath cfg fs cwd u := rfl
  unfold deriveOutputs
  dsimp only
  rw [hpath]
  by_cases hthere : isdir fs cwd (downloadPath cfg fs cwd u) = true
  · have hopen : ¬ isdir fs cwd (downloadPath cfg fs cwd u) = false := by
      rw [hthere]
      exact Bool.noConfusion
    rw [if_neg hopen]
    generalize ((listdir fs cwd (downloadPath cfg fs cwd u)).map
      (Path.join (downloadPath cfg fs cwd u))).filter (isfile fs cwd) = found at hfiles ⊢
    by_cases hnil : found = []
    · refine Or.inl ⟨if_pos hnil, fun name hdown => ?_⟩
      rw [hnil, List.mergeSort_nil] at hfiles
      have hmem := mem_downloadNames.mpr hdown
      rw [List.map_eq_nil_iff.mp hfiles.symm] at hmem
      cases hmem
    · have hne : downloadNames cfg fs cwd u ≠ [] := by
        intro hn
        rw [hn, List.map_nil] at hfiles
        have hperm := List.mergeSort_perm found fun a b => getmtime fs cwd a ≤ getmtime fs cwd b
        rw [hfiles] at hperm
        exact hnil hperm.symm.eq_nil
      refine Or.inr ⟨_, downloadNames cfg fs cwd u, ?_, contract_chosen hne⟩
      rw [if_neg hnil, hfiles, getLastD_chosen hplain hne, List.map_map]
      have hnames : (downloadNames cfg fs cwd u).map
          ((fun f => PyVal.str (Path.basename f)) ∘ downloadFile cfg fs cwd u) =
          (downloadNames cfg fs cwd u).map fun n => PyVal.str (String.ofList n) :=
        List.map_congr_left fun n hn => congrArg PyVal.str (basename_downloadFile (hplain n hn))
      rw [hnames]
      rfl
  · refine Or.inl ⟨if_pos (Bool.eq_false_of_not_eq_true hthere), fun name hdown => ?_⟩
    refine hthere (isdir_downloadPath.mpr (fs.tree.parent _ name ?_))
    rw [show fs.kind _ = some Kind.file from hdown]
    exact Option.some_ne_none _

end Spec

/-- **What is answered when nothing was downloaded, and else.** -/
structure OutputsAnswered (cfg : ArtifactConfig) (fs : FileSystem) (cwd : fs.Cwd) (u : Uuid)
    (stored : Outputs) (answered : Option Outputs) : Prop where
  /-- Without a file, what the run stored. -/
  absent : (∀ name, ¬ Downloaded cfg fs cwd u name) →
    answered = if stored.isEmpty then none else some stored
  /-- A file wins its two keys, and only these. -/
  present : (∃ name, Downloaded cfg fs cwd u name) → ∃ outputs path names, answered = some outputs ∧
    Contract cfg fs cwd u path names ∧ Dict.get (some "file_path") outputs = some (.str path) ∧
    Dict.get (some "download_files") outputs =
      some (.list (names.map fun n => .str (String.ofList n))) ∧
    ∀ k, k ≠ some "file_path" → k ≠ some "download_files" → Dict.get k outputs = Dict.get k stored

theorem get_outputsOf (k : Option String) (path : String) (names : List Name) (stored : Outputs) :
    Dict.get k (Dict.update stored (outputsOf path names)) =
      if some "download_files" = k then some (.list (names.map fun n => .str (String.ofList n)))
      else if some "file_path" = k then some (.str path) else Dict.get k stored := by
  have hupdate : Dict.update stored (outputsOf path names) = Dict.set (some "download_files")
      (.list (names.map fun n => .str (String.ofList n)))
      (Dict.set (some "file_path") (.str path) stored) := rfl
  rw [hupdate, Dict.get_set, Dict.get_set]

theorem update_outputsOf_isEmpty (path : String) (names : List Name) (stored : Outputs) :
    (Dict.update stored (outputsOf path names)).isEmpty = false := by
  have hget := get_outputsOf (some "file_path") path names stored
  cases hmerged : Dict.update stored (outputsOf path names) with
  | nil =>
    rw [hmerged] at hget
    cases hget
  | cons p rest => rfl

/-- **Main result.** The outputs of `get_execution`, whatever the run stored. -/
theorem outputs_answered (rcfg : ReportConfig) (cfg : ArtifactConfig) (fs : FileSystem)
    (cwd : fs.Cwd) (u : Uuid) (answer : List ExecutionStep) (s : Records) :
    ∃ detail, Records.getExecution rcfg u.str (deriveOutputs cfg fs cwd u.str) answer (some s) =
        .ok detail ∧
      OutputsAnswered cfg fs cwd u (s.row.outputs.getD []) detail.outputs := by
  refine ⟨_, rfl, ?_⟩
  rcases deriveOutputs_spec cfg fs cwd u with ⟨hnone, hno⟩ | ⟨path, names, hsome, hcontract⟩
  · rw [hnone]
    refine ⟨fun _ => rfl, fun hyes => ?_⟩
    obtain ⟨name, hdown⟩ := hyes
    exact absurd hdown (hno name)
  · rw [hsome]
    refine ⟨fun hno => ?_, fun _ =>
      ⟨Dict.update (s.row.outputs.getD []) (outputsOf path names), path, names, ?_, hcontract,
        ?_, ?_, ?_⟩⟩
    · obtain ⟨name, hmem, -⟩ := hcontract.chosen
      exact absurd ((hcontract.files name).mp hmem) (hno name)
    · have hsome :
          ¬ (Dict.update (s.row.outputs.getD []) (outputsOf path names)).isEmpty = true := by
        rw [update_outputsOf_isEmpty]
        exact Bool.false_ne_true
      exact if_neg hsome
    · rw [get_outputsOf]
      rfl
    · rw [get_outputsOf]
      rfl
    · intro k hk hk'
      rw [get_outputsOf, if_neg hk'.symm, if_neg hk.symm]

section Example

/-- The directory `./downloads` with one file of the first execution. -/
def oneDownload : FileSystem :=
  .ofLists [[], ["downloads".toList], ["downloads".toList, firstId.str.toList]]
    [["downloads".toList, firstId.str.toList, "a.csv".toList]] (fun _ => 3) (fun _ => 0)
    (by decide) (by decide +kernel) (by decide +kernel) (by decide +kernel)

example : Downloaded {} oneDownload ⟨[], rfl⟩ firstId "a.csv".toList := by decide +kernel

end Example

/-! ## Links to pictures -/

/-- **The request of a link serves the recorded picture**, and nothing else; and the link is that of
a listed screenshot once the picture is there. -/
structure Linked (cfg : ArtifactConfig) (fs : FileSystem) (cwd : fs.Cwd) (u : Uuid)
    (path url : String) : Prop where
  served : ∃ name, url = artifactUrl u.str "screenshot" name ∧ ∀ served,
    downloadArtifact cfg (workingDirectory cwd) fs.kind u "screenshot" name = .ok served ↔
      served = path ∧ isfile fs cwd path = true
  listed : isfile fs cwd path = true → ∃ a ∈ (listArtifacts cfg fs cwd u).artifacts,
    a.type = "screenshot" ∧ a.url = url ∧ a.sizeBytes = getsize fs cwd path

/-- **A step is shown with its result**, and with a link if this has a picture. -/
structure ShownStep (cfg : ArtifactConfig) (fs : FileSystem) (cwd : fs.Cwd) (u : Uuid)
    (r : StepResult) (d : StepDetail) : Prop where
  shown : d.shown = r.shown
  unlinked : r.screenshotPath = none → d.screenshotUrl = none
  linked : ∀ path, r.screenshotPath = some path →
    ∃ url, d.screenshotUrl = some url ∧ Linked cfg fs cwd u path url

/-- **The execution is shown with these results**, sorted by their numbers, whatever the database
answers. -/
def ShownWithPictures (rcfg : ReportConfig) (cfg : ArtifactConfig) (fs : FileSystem) (cwd : fs.Cwd)
    (u : Uuid) (steps : List StepResult) (s : Records) : Prop :=
  ∀ derived answer detail, Ordered ExecutionStep.stepOrder s.steps answer →
    Records.getExecution rcfg u.str derived answer (some s) = .ok detail →
      ∃ sorted : List StepResult, Ordered StepResult.stepOrder steps sorted ∧
        List.Forall₂ (ShownStep cfg fs cwd u) sorted detail.steps

section Links

variable {cfg : ArtifactConfig} {fs : FileSystem} {cwd : fs.Cwd} {u : Uuid} {name : Name}
  {artifactType baseDir : String}

theorem isfile_relative {f : String} (hrel : ¬ IsAbsolute f.toList) :
    isfile fs cwd (Path.join (Path.join baseDir u.str) f) = true ↔
      '\x00' ∉ f.toList ∧ isdir fs cwd (Path.join baseDir u.str) = true ∧
        isFile fs.kind (execDir (workingDirectory cwd) baseDir u) f.toList = true := by
  have hzero : '\x00' ∉ (Path.join (Path.join baseDir u.str) f).toList ↔
      '\x00' ∉ f.toList ∧ '\x00' ∉ (Path.join baseDir u.str).toList := by
    rw [toList_join, mem_join (by decide)]
    simp [hrel]
  rw [isfile, Bool.and_eq_true, decide_eq_true_iff, hzero, isFile_execDir hrel, isdir,
    Bool.and_eq_true, decide_eq_true_iff]
  constructor
  · rintro ⟨⟨hf, hz⟩, hdir, hfile⟩
    exact ⟨hf, ⟨hz, hdir⟩, hfile⟩
  · rintro ⟨hf, ⟨hz, hdir⟩, hfile⟩
    exact ⟨⟨hf, hz⟩, hdir, hfile⟩

/-- A name in the directory of an execution is served iff it is that of a regular file. -/
theorem served_name (hbase : cfg.baseDir artifactType = some baseDir) (hname : Plain name)
    (served : String) :
    downloadArtifact cfg (workingDirectory cwd) fs.kind u artifactType (String.ofList name) =
        .ok served ↔
      served = Path.join (Path.join baseDir u.str) (String.ofList name) ∧
        isfile fs cwd (Path.join (Path.join baseDir u.str) (String.ofList name)) = true := by
  have hrel : ¬ IsAbsolute (String.ofList name).toList := by
    rw [String.toList_ofList]
    exact fun h => hname.1.2 (List.mem_of_mem_head? h)
  have hguard : ∃ first rest, resolve (execDir (workingDirectory cwd) baseDir u)
      (String.ofList name).toList = resolve cwd.1 baseDir.toList ++ first :: rest ∧
      u.str.toList <+: first := by
    refine ⟨u.str.toList, [name], ?_, List.prefix_rfl⟩
    rw [String.toList_ofList, resolve_plain_name hname, execDir_eq, List.append_assoc]
    rfl
  rw [served_relative hbase hrel, isfile_relative hrel]
  constructor
  · rintro ⟨hpath, hzero, -, hthere⟩
    exact ⟨hpath, hzero, hthere⟩
  · rintro ⟨hpath, hzero, hthere⟩
    exact ⟨hpath, hzero, hguard, hthere⟩

theorem shotName_plain (order : ℕ) (action : Action) : Plain (shotName order action).toList := by
  obtain ⟨⟨hne, hslash⟩, -⟩ := shotName_isName order action
  have hmark : '_' ∈ (shotName order action).toList := by simp [shotName]
  refine ⟨⟨fun h => hne (String.toList_inj.mp h), hslash⟩, fun h => ?_, fun h => ?_⟩
  · rw [h] at hmark
    exact absurd hmark (by decide)
  · rw [h] at hmark
    exact absurd hmark (by decide)

/-- **A link to a file of the execution.** -/
theorem linked_name (hname : Plain name) : Linked cfg fs cwd u
    (Path.join (Path.join cfg.screenshotDir u.str) (String.ofList name))
    (artifactUrl u.str "screenshot" (String.ofList name)) where
  served := ⟨String.ofList name, rfl, served_name rfl hname⟩
  listed := by
    intro hfile
    have hrel : ¬ IsAbsolute (String.ofList name).toList := by
      rw [String.toList_ofList]
      exact fun h => hname.1.2 (List.mem_of_mem_head? h)
    obtain ⟨hzero, hdir, -⟩ := (isfile_relative hrel).mp hfile
    rw [String.toList_ofList] at hzero
    have hkind := (isfile_name hdir ⟨hname, hzero⟩).mp hfile
    refine ⟨artifactOf fs cwd u "screenshot" cfg.screenshotDir name, ?_, rfl, rfl, ?_⟩
    · exact mem_collectArtifacts.mpr
        ⟨"screenshot", cfg.screenshotDir, rfl, mem_artifactsIn.mpr ⟨hdir, name, hkind, rfl⟩⟩
    · rw [getsize, resolve_execDir_name hname, artifactOf]

theorem artifactUrl_screenshot (executionId f : String) :
    "/api/executions/" ++ executionId ++ "/artifacts/screenshot/" ++ f =
      artifactUrl executionId "screenshot" f := by
  have hmiddle : "/artifacts/screenshot/".toList =
      "/artifacts/".toList ++ "screenshot".toList ++ "/".toList := rfl
  apply String.toList_inj.mp
  unfold artifactUrl
  simp only [String.toList_append]
  -- The literals are not to be unfolded.
  generalize "/artifacts/screenshot/".toList = whole at hmiddle ⊢
  generalize "/artifacts/".toList = first at hmiddle ⊢
  subst hmiddle
  simp only [List.append_assoc]

theorem str_isName (u : Uuid) : IsName u.str :=
  ⟨fun h => (str_proper u).1.1 (String.toList_eq_nil_iff.mpr h), (str_proper u).1.2⟩

theorem basename_shot (cfg : ArtifactConfig) (u : Uuid) (order : ℕ) (action : Action) :
    Path.basename (Path.join (Path.join cfg.screenshotDir u.str) (shotName order action)) =
      shotName order action := by
  have hjoin : (Path.join (Path.join cfg.screenshotDir u.str) (shotName order action)).toList = _ :=
    toList_join_join (str_isName u) (shotName_isName order action).1
  rw [List.append_assoc, List.singleton_append] at hjoin
  rw [basename_slash hjoin (shotName_isName order action).1.2, String.ofList_toList]

theorem shot_ne (cfg : ArtifactConfig) (u : Uuid) (order : ℕ) (action : Action) :
    Path.join (Path.join cfg.screenshotDir u.str) (shotName order action) ≠ "" := by
  intro h
  have hbase := basename_shot cfg u order action
  rw [h] at hbase
  exact (shotName_isName order action).1.1 hbase.symm

end Links

section Runs

variable [PyText]

/-- The arguments of `_run_execution` for the executor: the id, and the directories of the settings.
-/
def executorConfig (cfg : ArtifactConfig) (u : Uuid) (base : Config) (w : Workflow) : Config :=
  { base with
    workflow := w
    executionId := some u.str
    downloadDir := cfg.downloadDir
    screenshotDir := cfg.screenshotDir }

def executeFor (cfg : ArtifactConfig) (u : Uuid) (base : Config) (env : Env)
    (σ : ℕ → RunState → Input) (n : ℕ) (w : Workflow) : Except PyExc ExecutionResult :=
  (finish (executorConfig cfg u base w) env (execution (executorConfig cfg u base w) env σ n)).1

theorem finish_steps {base : Config} {env : Env} {s : RunState} {res : ExecutionResult}
    (h : (finish base env s).1 = .ok res) : res.steps = s.results := by
  have hleave : (result env (leave base env s)).steps = s.results :=
    congrArg Control.results (leave_toControl base env s)
  unfold finish at h
  split at h
  · cases h
  · cases h
  · rw [← Except.ok.inj h, hleave]

/-- The results of an outcome are those of the executor. -/
theorem steps_of_outcome {cfg : ArtifactConfig} {u : Uuid} {base : Config} {env : Env}
    {σ : ℕ → RunState → Input} {n : ℕ} {environs : Environs} {workflow : DeclaredWorkflow}
    {overrides : Option (Dict String String)} {r : StepResult}
    (h : r ∈ (runOutcome environs (executeFor cfg u base env σ n) workflow overrides).steps) :
    ∃ w, r ∈ (execution (executorConfig cfg u base w) env σ n).results := by
  unfold runOutcome at h
  cases hres : resolveVariables environs workflow overrides with
  | error e =>
    rw [hres] at h
    cases h
  | ok w =>
    simp only [hres] at h
    cases hrun : executeFor cfg u base env σ n w with
    | error e =>
      rw [hrun] at h
      cases h
    | ok res =>
      simp only [hrun] at h
      rw [finish_steps hrun] at h
      exact ⟨w, h⟩

/-- A recorded picture is in the directory that `download_artifact` serves. -/
theorem shot_of_mem {cfg : ArtifactConfig} {u : Uuid} {base : Config} {env : Env}
    {σ : ℕ → RunState → Input} {n : ℕ} {w : Workflow} {r : StepResult} {path : String}
    (hr : r ∈ (execution (executorConfig cfg u base w) env σ n).results)
    (hpath : r.screenshotPath = some path) :
    path = Path.join (Path.join cfg.screenshotDir u.str) (shotName r.stepOrder r.action) := by
  have hshot := file_of_mem hr hpath
  have hdir : (executorConfig cfg u base w).dirName = u.str :=
    if_pos (decide_eq_true (str_isName u).1)
  have hoptions : (executorConfig cfg u base w).options.screenshotDir =
      if cfg.screenshotDir = "" then none else some (Path.join cfg.screenshotDir u.str) := by
    rw [← hdir]
    rfl
  rw [StepOptions.shotPath, hoptions] at hshot
  split_ifs at hshot
  · cases hshot
  · exact (Option.some.inj hshot).symm

/-- A result of a run, as it is shown. -/
theorem shownStep_of_mem {cfg : ArtifactConfig} {fs : FileSystem} {cwd : fs.Cwd} {u : Uuid}
    {base : Config} {env : Env} {σ : ℕ → RunState → Input} {n : ℕ} {w : Workflow} {r : StepResult}
    (hr : r ∈ (execution (executorConfig cfg u base w) env σ n).results) :
    ShownStep cfg fs cwd u r (r.row.detail u.str) := by
  refine ⟨rfl, fun hnone => ?_, fun path hpath => ?_⟩
  · unfold ExecutionStep.detail StepResult.row
    rw [hnone]
    rfl
  · have hfile := shot_of_mem hr hpath
    have hbase := basename_shot cfg u r.stepOrder r.action
    have hne := shot_ne cfg u r.stepOrder r.action
    have hlink : Linked cfg fs cwd u _ _ := linked_name (shotName_plain r.stepOrder r.action)
    rw [String.ofList_toList, ← hfile] at hlink
    rw [← hfile] at hbase hne
    refine ⟨_, ?_, hlink⟩
    unfold ExecutionStep.detail StepResult.row
    dsimp only
    rw [hpath, Option.getD_some, if_neg hne, hbase, artifactUrl_screenshot]

omit [PyText] in
/-- An answer with the rows of some results shows these results. -/
theorem shownWithPictures_of_rows {rcfg : ReportConfig} {cfg : ArtifactConfig} {fs : FileSystem}
    {cwd : fs.Cwd} {u : Uuid} {steps : List StepResult} {s : Records}
    (hrows : s.steps = steps.map StepResult.row)
    (hshown : ∀ r ∈ steps, ShownStep cfg fs cwd u r (r.row.detail u.str)) :
    ShownWithPictures rcfg cfg fs cwd u steps s := by
  rintro derived answer detail ⟨hperm, hasc⟩ hd
  -- the answer consists of the rows of the same results in another order
  have hmap : Relation.Comp (· = List.map StepResult.row ·) List.Perm answer steps := by
    rw [hrows] at hperm
    rw [List.eq_map_comp_perm]
    exact hperm
  obtain ⟨sorted, rfl, hsorted⟩ := hmap
  rw [List.pairwise_map] at hasc
  refine ⟨sorted, ⟨hsorted, hasc⟩, ?_⟩
  rw [← Except.ok.inj hd]
  dsimp only
  rw [List.map_map, List.forall₂_map_right_iff, List.forall₂_same]
  exact fun r hr => hshown r (hsorted.mem_iff.mp hr)

/-- **Main result.** Whatever the browser does and the other threads do, and whatever is on the disk
when the execution is shown: with its results if session 2 is committed, and else without steps. -/
theorem screenshot_links (rcfg : ReportConfig) (cfg : ArtifactConfig) (fs : FileSystem)
    (cwd : fs.Cwd) (u : Uuid) (base : Config) (env : Env) (σ : ℕ → RunState → Input) (n : ℕ)
    (environs : Environs) (workflow : DeclaredWorkflow)
    (overrides : Option (Dict String String)) (row : Execution) (finished : ℕ) :
    let outcome := runOutcome environs (executeFor cfg u base env σ n) workflow overrides
    ShownWithPictures rcfg cfg fs cwd u
      (if Committable rcfg.columns (row.finish outcome finished) (outcome.steps.map StepResult.row)
        then outcome.steps else [])
      (({ row := row } : Records).store rcfg u.str outcome finished).1 := by
  intro outcome
  split_ifs with hfits
  · refine shownWithPictures_of_rows ?_ fun r hr => ?_
    · rw [Records.store_committed hfits]
      rfl
    · obtain ⟨w, hr⟩ := steps_of_outcome hr
      exact shownStep_of_mem hr
  · refine shownWithPictures_of_rows ?_ (List.forall_mem_nil _)
    rw [Records.store_refused hfits]
    rfl

end Runs

end ScoutEngine
