import ScoutEngine.Lib.Paths
import Mathlib.Algebra.Order.Ring.Rat
import Mathlib.Data.List.Nodup

/-!
# File systems

Trees of directories and regular files, without symbolic links, and the absolute paths of their
entries.

* `lookup`, `isDirectory`; **`lookup_join`**: a joined path is looked up in the directory of its
  first part.
* `normpath`, `abspath`: `os.path.abspath`; `Canonical`, **`abspath_canonical`**: it is the absolute
  path of the entry, maybe with a second slash in front; `Canonical.exists_last`: it ends in the name.
* `Tree`: every entry lies in a directory; **`Canonical.isFile_iff`**, `Canonical.isDirectory_iff`:
  what an absolute path finds.
* `FileSystem`: a tree with what a directory lists; `FileSystem.Cwd`; `FileSystem.ofLists`.
-/

set_option autoImplicit false

namespace Paths

variable {kind : List Name → Option Kind} {entry dir : List Name} {path name : List Char}

/-! ## Looking a path up -/

/-- What `stat` finds under a path. -/
def lookup (kind : List Name → Option Kind) (dir : List Name) (path : List Char) :
    Option (List Name) :=
  walk kind (if IsAbsolute path then [] else dir) (segments path)

/-- A path names a directory. The empty path names nothing. -/
def isDirectory (kind : List Name → Option Kind) (dir : List Name) (path : List Char) : Bool :=
  match lookup kind dir path with
  | some entry => path ≠ [] ∧ kind entry = some .directory
  | none => false

theorem lookup_eq {found : List Name} (h : lookup kind dir path = some found) :
    found = resolve dir path := walk_eq h

theorem isFile_iff : isFile kind dir path = true ↔
    lookup kind dir path = some (resolve dir path) ∧ kind (resolve dir path) = some .file := by
  have hlookup : isFile kind dir path =
      match lookup kind dir path with
      | some entry => decide (kind entry = some .file)
      | none => false := rfl
  rw [hlookup]
  cases h : lookup kind dir path with
  | none => simp
  | some found => simp [lookup_eq h]

theorem isDirectory_iff : isDirectory kind dir path = true ↔ path ≠ [] ∧
    lookup kind dir path = some (resolve dir path) ∧ kind (resolve dir path) = some .directory := by
  unfold isDirectory
  cases h : lookup kind dir path with
  | none => simp
  | some found => simp [lookup_eq h]

theorem walk_append (segs segs' : List Name) : walk kind entry (segs ++ segs') =
    (walk kind entry segs).bind fun found => walk kind found segs' := by
  induction segs generalizing entry with
  | nil => rfl
  | cons seg segs ih =>
    rw [List.cons_append, walk, walk]
    split_ifs
    · exact ih
    · rfl

/-- Something is looked up in a directory only. -/
theorem walk_of_not_directory (h : kind entry ≠ some .directory) {segs : List Name}
    (hne : segs ≠ []) : walk kind entry segs = none := by
  cases segs with
  | nil => exact absurd rfl hne
  | cons seg segs => exact if_neg h

theorem segments_ne_nil (path : List Char) : segments path ≠ [] := List.splitOn_ne_nil _ _

theorem lookup_relative (h : ¬ IsAbsolute path) :
    lookup kind dir path = walk kind dir (segments path) := by
  rw [lookup, if_neg h]

/-- A joined path is looked up from where the first part is found. -/
theorem lookup_join_bind {q : List Char} (hpath : path ≠ []) (hrel : ¬ IsAbsolute q) :
    lookup kind dir (join path q) =
      (lookup kind dir path).bind fun found => walk kind found (segments q) := by
  have hstart : ∀ t, (if IsAbsolute (path ++ t) then [] else dir) =
      if IsAbsolute path then [] else dir := fun t => by simp only [isAbsolute_append hpath]
  rw [join, if_neg hrel]
  by_cases hlast : path.getLast? = some '/'
  · -- The slash at the end asks for a directory, and so does the first segment of `q`.
    obtain ⟨init, rfl⟩ := List.getLast?_eq_some_iff.mp hlast
    rw [if_pos (Or.inr hlast), lookup, hstart, List.append_assoc, List.singleton_append,
      segments_slash, walk_append, lookup, segments_slash, walk_append, Option.bind_assoc]
    congr 1
    funext found
    by_cases hdir : kind found = some .directory
    · have hstay : walk kind found (segments []) = some found := if_pos hdir
      rw [hstay]
      rfl
    · rw [walk_of_not_directory hdir (segments_ne_nil q),
        walk_of_not_directory hdir (segments_ne_nil [])]
      rfl
  · rw [if_neg (not_or_intro hpath hlast), lookup, hstart, segments_slash, walk_append]
    rfl

/-- **A joined path is looked up in the directory of its first part.** -/
theorem lookup_join {q : List Char} (hpath : path ≠ []) (hrel : ¬ IsAbsolute q) :
    lookup kind dir (join path q) =
      if isDirectory kind dir path = true then lookup kind (resolve dir path) q else none := by
  rw [lookup_join_bind hpath hrel, lookup_relative hrel]
  cases hfound : lookup kind dir path with
  | none =>
    rw [if_neg]
    · rfl
    · rw [isDirectory_iff, hfound]
      exact fun h => Option.some_ne_none _ h.2.1.symm
  | some found =>
    obtain rfl := lookup_eq hfound
    by_cases hdir : kind (resolve dir path) = some .directory
    · rw [if_pos (isDirectory_iff.mpr ⟨hpath, hfound, hdir⟩)]
      rfl
    · rw [if_neg fun h => hdir (isDirectory_iff.mp h).2.2]
      exact walk_of_not_directory hdir (segments_ne_nil q)

theorem isFile_join {q : List Char} (hpath : path ≠ []) (hrel : ¬ IsAbsolute q) :
    isFile kind dir (join path q) = true ↔
      isDirectory kind dir path = true ∧ isFile kind (resolve dir path) q = true := by
  rw [isFile_iff, isFile_iff, lookup_join hpath hrel, resolve_join]
  split_ifs with h
  · simp [h]
  · simp [h]

/-- A name without a slash. -/
theorem isFile_name (hname : '/' ∉ name) : isFile kind dir name = true ↔
    kind dir = some .directory ∧ kind (enter dir name) = some .file := by
  have hrel : ¬ IsAbsolute name := fun hslash => hname (List.mem_of_mem_head? hslash)
  have hone : segments name = [name] := List.splitOn_eq_singleton hname
  have hresolve : resolve dir name = enter dir name := by
    rw [resolve, if_neg hrel, hone]
    rfl
  rw [isFile_iff, lookup_relative hrel, hone, hresolve]
  by_cases hdir : kind dir = some .directory
  · have hwalk : walk kind dir [name] = some (enter dir name) := if_pos hdir
    simp [hwalk, hdir]
  · rw [walk_of_not_directory hdir (List.cons_ne_nil name [])]
    simp [hdir]

/-! ## Absolute paths -/

/-- One component in `os.path.normpath`. What leads up is kept where there is nothing to leave. -/
def normalStep (absolute : Bool) (comps : List Name) (comp : Name) : List Name :=
  if comp = [] ∨ comp = ['.'] then comps
  else if comp ≠ ['.', '.'] ∨ (absolute = false ∧ comps = []) ∨
      comps.getLast? = some ['.', '.'] then comps ++ [comp]
  else comps.dropLast

/-- The slashes in front: two are kept, three are one. -/
def initialSlashes (path : List Char) : List Char :=
  if ['/', '/'] <+: path ∧ ¬ ['/', '/', '/'] <+: path then ['/', '/']
  else if IsAbsolute path then ['/'] else []

/-- `os.path.normpath`. -/
def normpath (path : List Char) : List Char :=
  let comps := (segments path).foldl (normalStep (IsAbsolute path)) []
  let normal := initialSlashes path ++ List.intercalate ['/'] comps
  if normal = [] then ['.'] else normal

/-- `os.path.abspath`, in a working directory. -/
def abspath (dir : List Name) (path : List Char) : List Char :=
  normpath (if IsAbsolute path then path else join (render dir) path)

/-- An absolute path of an entry, with one slash or two in front. -/
def Canonical (path : List Char) (entry : List Name) : Prop :=
  path = render entry ∨ path = '/' :: render entry

theorem normalStep_plain (h : ∀ n ∈ entry, Plain n) (comp : Name) :
    normalStep true entry comp = enter entry comp := by
  have hlast : entry.getLast? ≠ some ['.', '.'] := fun he => (h _ (List.mem_of_getLast? he)).2.2 rfl
  unfold normalStep enter
  simp only [Bool.true_eq_false, false_and, hlast, or_false]
  by_cases hup : comp = ['.', '.'] <;> simp [hup]

/-- Nothing leads above the root. -/
theorem foldl_normalStep (h : ∀ n ∈ entry, Plain n) {segs : List Name}
    (hsegs : ∀ seg ∈ segs, '/' ∉ seg) :
    segs.foldl (normalStep true) entry = follow entry segs := by
  induction segs generalizing entry with
  | nil => rfl
  | cons seg segs ih =>
    rw [List.forall_mem_cons] at hsegs
    rw [List.foldl_cons, follow_cons, normalStep_plain h, ih (enter_plain h hsegs.1) hsegs.2]

theorem slash_intercalate (entry : List Name) :
    '/' :: List.intercalate ['/'] entry = render entry := by
  cases entry with
  | nil => rfl
  | cons first rest =>
    have hflat : render (first :: rest) = flat (first :: rest) := if_neg (List.cons_ne_nil _ _)
    rw [hflat]
    induction rest generalizing first with
    | nil => simp [flat, List.intercalate]
    | cons second rest ih =>
      have hcons : List.intercalate ['/'] (first :: second :: rest) =
          first ++ '/' :: List.intercalate ['/'] (second :: rest) := by
        simp [List.intercalate]
      have hsplit : flat (first :: second :: rest) = '/' :: first ++ flat (second :: rest) := by
        simp [flat]
      rw [hcons, hsplit, ← ih second (if_neg (List.cons_ne_nil _ _))]
      rfl

/-- **`normpath` of an absolute path** is an absolute path of the entry. -/
theorem normpath_canonical (habs : IsAbsolute path) :
    Canonical (normpath path) (resolve [] path) := by
  have hcomps : (segments path).foldl (normalStep (IsAbsolute path)) [] = resolve [] path := by
    rw [decide_eq_true habs, foldl_normalStep (List.forall_mem_nil _) (segments_no_slash path),
      resolve, if_pos habs]
  unfold normpath
  rw [hcomps]
  have hslash := slash_intercalate (resolve [] path)
  by_cases htwo : ['/', '/'] <+: path ∧ ¬ ['/', '/', '/'] <+: path
  · have hinit : initialSlashes path = ['/', '/'] := if_pos htwo
    rw [hinit, if_neg (by simp)]
    exact Or.inr (congrArg (List.cons '/') hslash)
  · have hinit : initialSlashes path = ['/'] := by rw [initialSlashes, if_neg htwo, if_pos habs]
    rw [hinit, if_neg (by simp)]
    exact Or.inl hslash

/-- **The absolute path that is computed** is one of the entry that the path names. -/
theorem abspath_canonical (h : ∀ n ∈ dir, Plain n) (path : List Char) :
    Canonical (abspath dir path) (resolve dir path) := by
  unfold abspath
  by_cases habs : IsAbsolute path
  · have hresolve : resolve dir path = resolve [] path := by simp only [resolve, if_pos habs]
    rw [if_pos habs, hresolve]
    exact normpath_canonical habs
  · have hjoin : IsAbsolute (join (render dir) path) := by
      rw [join, if_neg habs]
      have hne : render dir ≠ [] := fun hnil => by
        have := isAbsolute_render dir
        rw [hnil] at this
        cases this
      split_ifs
      · exact (isAbsolute_append hne _).mpr (isAbsolute_render dir)
      · exact (isAbsolute_append hne _).mpr (isAbsolute_render dir)
    have hresolve : resolve [] (join (render dir) path) = resolve dir path := by
      rw [resolve_join, resolve_render h]
    rw [if_neg habs, ← hresolve]
    exact normpath_canonical hjoin

/-! ## Trees -/

/-- **A tree of directories**: its root is one, and every entry lies in one. -/
structure Tree (kind : List Name → Option Kind) : Prop where
  root : kind [] = some .directory
  parent : ∀ entry name, kind (entry ++ [name]) ≠ none → kind entry = some .directory

theorem Tree.directory (ht : Tree kind) {rest : List Name} (hne : rest ≠ [])
    (h : kind (entry ++ rest) ≠ none) : kind entry = some .directory := by
  induction rest using List.reverseRecOn with
  | nil => exact absurd rfl hne
  | append_singleton rest name ih =>
    rw [← List.append_assoc] at h
    have hdir := ht.parent _ _ h
    by_cases hrest : rest = []
    · rw [hrest, List.append_nil] at hdir
      exact hdir
    · refine ih hrest ?_
      rw [hdir]
      exact Option.some_ne_none _

/-- In a tree one gets to every entry. -/
theorem Tree.walk (ht : Tree kind) {names : List Name} (hplain : ∀ n ∈ names, Plain n)
    (h : kind (entry ++ names) ≠ none) : Paths.walk kind entry names = some (entry ++ names) := by
  induction names generalizing entry with
  | nil => rw [List.append_nil, Paths.walk]
  | cons name names ih =>
    rw [List.forall_mem_cons] at hplain
    have hsplit : entry ++ name :: names = (entry ++ [name]) ++ names := by simp
    rw [hsplit] at h ⊢
    have hdir := ht.directory (List.cons_ne_nil name names) (by rwa [List.append_assoc] at h)
    rw [Paths.walk, if_pos hdir, enter_plain_name hplain.1]
    exact ih hplain.2 h

namespace Canonical

theorem isAbsolute (hp : Canonical path entry) : IsAbsolute path := by
  rcases hp with rfl | rfl
  · exact isAbsolute_render entry
  · rfl

/-- **An absolute path leads to its entry from everywhere.** -/
theorem resolve_eq (hp : Canonical path entry) (h : ∀ n ∈ entry, Plain n) (dir : List Name) :
    resolve dir path = entry := by
  have hrender := resolve_render h dir
  rcases hp with rfl | rfl
  · exact hrender
  · rw [resolve, if_pos (isAbsolute_render entry)] at hrender
    have hslash : segments ('/' :: render entry) = [] :: segments (render entry) :=
      segments_slash [] (render entry)
    rw [resolve, if_pos (show IsAbsolute ('/' :: render entry) from rfl), hslash]
    exact hrender

/-- The absolute path of a name in a directory. -/
theorem snoc (hp : Canonical path entry) (h : ∀ n ∈ entry, Plain n) (hname : Proper name) :
    Canonical (join path name) (entry ++ [name]) := by
  have hsnoc := render_snoc (fun n hn => (h n hn).1) hname
  rcases hp with rfl | rfl
  · exact Or.inl hsnoc
  · refine Or.inr ?_
    rw [← hsnoc]
    unfold join
    have hne : render entry ≠ [] :=
      List.ne_nil_of_mem (List.mem_of_mem_head? (isAbsolute_render entry))
    have hrel : ¬ IsAbsolute name := fun hslash => hname.2 (List.mem_of_mem_head? hslash)
    have hlast : ('/' :: render entry).getLast? = (render entry).getLast? :=
      List.getLast?_append_of_ne_nil ['/'] hne
    rw [if_neg hrel, if_neg hrel, hlast]
    simp only [hne, List.cons_ne_nil, false_or]
    split_ifs <;> rfl

/-- What is looked up under an absolute path in a tree. -/
theorem lookup_eq_some (hp : Canonical path entry) (ht : Tree kind) (h : ∀ n ∈ entry, Plain n)
    (hkind : kind entry ≠ none) (dir : List Name) : lookup kind dir path = some entry := by
  have hroot : Paths.walk kind [] (segments (render entry)) = some entry := by
    by_cases hne : entry = []
    · subst hne
      have hsegs : segments (render []) = [[], []] := rfl
      rw [hsegs, Paths.walk, if_pos ht.root, Paths.walk]
      exact if_pos ht.root
    · rw [segments_render (fun n hn => (h n hn).1.2) hne, Paths.walk, if_pos ht.root]
      have hwalk : Paths.walk kind [] ([] ++ entry) = some ([] ++ entry) := ht.walk h hkind
      exact hwalk
  unfold lookup
  rw [if_pos hp.isAbsolute]
  rcases hp with rfl | rfl
  · exact hroot
  · have hslash : segments ('/' :: render entry) = [] :: segments (render entry) :=
      segments_slash [] (render entry)
    rw [hslash, Paths.walk, if_pos ht.root]
    exact hroot

/-- **An absolute path names a regular file** iff its entry is one. -/
theorem isFile_iff (hp : Canonical path entry) (ht : Tree kind) (h : ∀ n ∈ entry, Plain n)
    (dir : List Name) : isFile kind dir path = true ↔ kind entry = some .file := by
  rw [Paths.isFile_iff, hp.resolve_eq h dir]
  refine ⟨And.right, fun hkind => ⟨hp.lookup_eq_some ht h ?_ dir, hkind⟩⟩
  rw [hkind]
  exact Option.some_ne_none _

theorem isDirectory_iff (hp : Canonical path entry) (ht : Tree kind) (h : ∀ n ∈ entry, Plain n)
    (dir : List Name) : isDirectory kind dir path = true ↔ kind entry = some .directory := by
  have hne : path ≠ [] := List.ne_nil_of_mem (List.mem_of_mem_head? hp.isAbsolute)
  rw [Paths.isDirectory_iff, hp.resolve_eq h dir]
  refine ⟨fun hdir => hdir.2.2, fun hkind => ⟨hne, hp.lookup_eq_some ht h ?_ dir, hkind⟩⟩
  rw [hkind]
  exact Option.some_ne_none _

/-- The path of an entry in a directory ends in its name. -/
theorem exists_last (hp : Canonical path (entry ++ [name])) :
    ∃ init, path = init ++ '/' :: name := by
  have hflat : render (entry ++ [name]) = flat entry ++ '/' :: name := by
    have hne : entry ++ [name] ≠ [] := by simp
    rw [render, if_neg hne]
    simp [flat]
  rcases hp with rfl | rfl
  · exact ⟨_, hflat⟩
  · exact ⟨'/' :: flat entry, congrArg (List.cons '/') hflat⟩

end Canonical

/-- What a path ends in, if it has no slash, is what the last name ends in. -/
theorem suffix_slash_iff {x init : List Char} (hx : '/' ∉ x) :
    x <:+ init ++ '/' :: name ↔ x <:+ name := by
  constructor
  · intro h
    rcases List.suffix_or_suffix_of_suffix h (List.suffix_append init ('/' :: name)) with h | h
    · rcases List.suffix_cons_iff.mp h with rfl | h
      · exact absurd List.mem_cons_self hx
      · exact h
    · exact absurd (h.subset List.mem_cons_self) hx
  · exact fun h => h.trans ((List.suffix_cons '/' name).trans (List.suffix_append init _))

/-! ## File systems -/

/-- **A file system without symbolic links.** The order in which a directory lists its names is its
own. -/
structure FileSystem where
  kind : List Name → Option Kind
  listdir : List Name → List Name
  size : List Name → ℕ
  mtime : List Name → ℚ
  tree : Tree kind
  plain : ∀ entry, kind entry ≠ none → ∀ name ∈ entry, Plain name ∧ '\x00' ∉ name
  mem_listdir : ∀ entry name, name ∈ listdir entry ↔ kind (entry ++ [name]) ≠ none
  nodup_listdir : ∀ entry, (listdir entry).Nodup

/-- What is in a directory has a plain name. -/
theorem FileSystem.plain_name (fs : FileSystem) {entry : List Name} {name : Name}
    (h : name ∈ fs.listdir entry) : Plain name ∧ '\x00' ∉ name :=
  fs.plain _ ((fs.mem_listdir entry name).mp h) name
    (List.mem_append_right _ (List.mem_singleton.mpr rfl))

/-- An absolute path of what there is has no zero byte. -/
theorem FileSystem.zero_free (fs : FileSystem) (hp : Canonical path entry)
    (h : fs.kind entry ≠ none) : '\x00' ∉ path := by
  have hrender : '\x00' ∉ render entry := by
    unfold render
    split_ifs
    · decide
    · intro hmem
      obtain ⟨name, hname, hin⟩ := List.mem_flatMap.mp hmem
      rcases List.mem_cons.mp hin with hslash | hin
      · exact absurd hslash (by decide)
      · exact (fs.plain entry h name hname).2 hin
  rcases hp with rfl | rfl
  · exact hrender
  · exact fun hmem => (List.mem_cons.mp hmem).elim (by decide) hrender

/-- A working directory. -/
abbrev FileSystem.Cwd (fs : FileSystem) := { dir : List Name // fs.kind dir = some .directory }

theorem FileSystem.Cwd.plain {fs : FileSystem} (cwd : fs.Cwd) : ∀ name ∈ cwd.1, Plain name := by
  have hkind : fs.kind cwd.1 ≠ none := by
    rw [cwd.2]
    exact Option.some_ne_none _
  exact fun name hname => (fs.plain cwd.1 hkind name hname).1

/-! ### From lists of entries -/

def kindIn (dirs files : List (List Name)) (entry : List Name) : Option Kind :=
  if entry ∈ dirs then some .directory else if entry ∈ files then some .file else none

theorem kindIn_ne_none {dirs files : List (List Name)} :
    kindIn dirs files entry ≠ none ↔ entry ∈ dirs ++ files := by
  unfold kindIn
  split_ifs <;> simp [*]

/-- The names of the entries in a directory, in the order of a list. -/
def namesIn (entries : List (List Name)) (entry : List Name) : List Name :=
  entries.filterMap fun e => if e.dropLast = entry then e.getLast? else none

theorem namesIn_some {e : List Name} {n : Name} :
    (if e.dropLast = entry then e.getLast? else none) = some n ↔ e = entry ++ [n] := by
  constructor
  · intro h
    split_ifs at h with hdrop
    rw [← hdrop, List.dropLast_append_getLast? n h]
  · rintro rfl
    simp

/-- **A file system with these directories and files.** -/
def FileSystem.ofLists (dirs files : List (List Name)) (size : List Name → ℕ)
    (mtime : List Name → ℚ) (hroot : [] ∈ dirs)
    (hparent : ∀ e ∈ dirs ++ files, e.dropLast ∈ dirs)
    (hplain : ∀ e ∈ dirs ++ files, ∀ n ∈ e, Plain n ∧ '\x00' ∉ n)
    (hnodup : (dirs ++ files).Nodup) : FileSystem where
  kind := kindIn dirs files
  listdir := namesIn (dirs ++ files)
  size := size
  mtime := mtime
  tree :=
    { root := if_pos hroot
      parent := by
        intro entry name h
        have hdir := hparent _ (kindIn_ne_none.mp h)
        rw [List.dropLast_concat] at hdir
        exact if_pos hdir }
  plain := fun e he => hplain e (kindIn_ne_none.mp he)
  mem_listdir := by
    intro entry n
    unfold namesIn
    rw [kindIn_ne_none, List.mem_filterMap]
    constructor
    · rintro ⟨e, he, hn⟩
      rwa [namesIn_some.mp hn] at he
    · exact fun h => ⟨_, h, namesIn_some.mpr rfl⟩
  nodup_listdir := by
    intro entry
    refine List.Nodup.filterMap (fun e e' n hn hn' => ?_) hnodup
    rw [namesIn_some.mp hn, namesIn_some.mp hn']

end Paths
