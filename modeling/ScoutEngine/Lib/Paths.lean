import Mathlib.Data.List.Basic
import Mathlib.Data.List.Induction
import Mathlib.Data.List.Infix

/-!
# Path names

Path names with slashes, on a file system without symbolic links.

* `segments`, `enter`, `follow`, `resolve`: the entry that a path names; `render`: its absolute
  path.
* `join`, **`resolve_join`**: a joined path is followed from where the first part leads.
* **`render_prefix_iff`**: when the absolute path of one entry is a text prefix of another one.
* `walk`, `isFile`: what `stat` finds; **`isFile_kind`**.
* `Plain`, `resolve_plain`: entries as they are reached; `render_snoc`, **`resolve_render`**: the
  absolute path of one leads to it from everywhere.
-/

set_option autoImplicit false

namespace Paths

/-- The name of an entry in its directory. -/
abbrev Name := List Char

/-! ## Following a path -/

/-- What stands between the slashes. -/
def segments (path : List Char) : List Name := path.splitOn '/'

/-- One segment, seen from an entry. The root is its own parent. -/
def enter (entry : List Name) (seg : Name) : List Name :=
  if seg = [] ∨ seg = ['.'] then entry
  else if seg = ['.', '.'] then entry.dropLast
  else entry ++ [seg]

/-- The entry that segments lead to. -/
def follow (entry : List Name) (segs : List Name) : List Name := segs.foldl enter entry

def IsAbsolute (path : List Char) : Prop := path.head? = some '/'

instance (path : List Char) : Decidable (IsAbsolute path) :=
  inferInstanceAs (Decidable (path.head? = some '/'))

/-- **The entry that a path names**, seen from a directory. -/
def resolve (dir : List Name) (path : List Char) : List Name :=
  follow (if IsAbsolute path then [] else dir) (segments path)

/-- The absolute path of an entry. -/
def render (entry : List Name) : List Char :=
  if entry = [] then ['/'] else entry.flatMap fun name => '/' :: name

/-- Two paths, one after the other. -/
def join (a b : List Char) : List Char :=
  if IsAbsolute b then b
  else if a = [] ∨ a.getLast? = some '/' then a ++ b
  else a ++ '/' :: b

variable {entry dir a b : List Name}

@[simp] theorem follow_nil (entry : List Name) : follow entry [] = entry := rfl

@[simp] theorem follow_cons (entry : List Name) (seg : Name) (segs : List Name) :
    follow entry (seg :: segs) = follow (enter entry seg) segs := rfl

theorem follow_append (entry : List Name) (segs segs' : List Name) :
    follow entry (segs ++ segs') = follow (follow entry segs) segs' := List.foldl_append

theorem segments_slash (p q : List Char) : segments (p ++ '/' :: q) = segments p ++ segments q :=
  List.splitOn_append_cons_self p q

/-- A slash at the end leads nowhere else. -/
theorem follow_segments_slash (entry : List Name) (p : List Char) :
    follow entry (segments (p ++ ['/'])) = follow entry (segments p) := by
  rw [segments_slash, follow_append]
  rfl

theorem isAbsolute_append {p : List Char} (h : p ≠ []) (q : List Char) :
    IsAbsolute (p ++ q) ↔ IsAbsolute p := by
  unfold IsAbsolute
  rw [List.head?_append_of_ne_nil p h]

/-- **A joined path** is followed from where its first part leads, unless its second part is
absolute. -/
theorem resolve_join (dir : List Name) (p q : List Char) :
    resolve dir (join p q) = resolve (resolve dir p) q := by
  unfold join
  by_cases hq : IsAbsolute q
  · simp only [resolve, if_pos hq]
  · have hfollow : resolve (resolve dir p) q = follow (resolve dir p) (segments q) := by
      rw [resolve, if_neg hq]
    rw [if_neg hq, hfollow]
    by_cases hp : p = []
    · subst hp
      rw [if_pos (Or.inl rfl), List.nil_append, resolve, if_neg hq]
      rfl
    · unfold resolve
      by_cases hlast : p.getLast? = some '/'
      · obtain ⟨p', rfl⟩ := List.getLast?_eq_some_iff.mp hlast
        rw [if_pos (Or.inr hlast)]
        simp only [isAbsolute_append hp]
        rw [List.append_assoc, List.singleton_append, segments_slash, follow_append,
          follow_segments_slash]
      · rw [if_neg (not_or_intro hp hlast)]
        simp only [isAbsolute_append hp]
        rw [segments_slash, follow_append]

/-! ## Names -/

/-- A name that an entry can have: it is not empty and has no slash. -/
def Proper (name : Name) : Prop := name ≠ [] ∧ '/' ∉ name

theorem segments_no_slash (path : List Char) : ∀ seg ∈ segments path, '/' ∉ seg := by
  unfold segments
  induction path with
  | nil => simp
  | cons c path ih =>
    rw [List.splitOn_cons_eq_if_modifyHead]
    by_cases hc : c = '/'
    · simp only [hc, beq_self_eq_true, if_true, List.mem_cons, forall_eq_or_imp]
      exact ⟨List.not_mem_nil, ih⟩
    · rw [if_neg (by simpa using hc)]
      cases hs : path.splitOn '/' with
      | nil => simp
      | cons seg segs =>
        rw [hs] at ih
        simp only [List.modifyHead_cons, List.mem_cons, forall_eq_or_imp] at ih ⊢
        refine ⟨?_, ih.2⟩
        rintro (h | h)
        · exact hc h.symm
        · exact ih.1 h

theorem enter_proper (h : ∀ name ∈ entry, Proper name) {seg : Name} (hseg : '/' ∉ seg) :
    ∀ name ∈ enter entry seg, Proper name := by
  unfold enter
  split_ifs with hstay
  · exact h
  · exact fun name hname => h name (List.mem_of_mem_dropLast hname)
  · intro name hname
    rcases List.mem_append.mp hname with hname | hname
    · exact h name hname
    · rw [List.mem_singleton.mp hname]
      exact ⟨fun he => hstay (Or.inl he), hseg⟩

theorem follow_proper {segs : List Name} (h : ∀ name ∈ entry, Proper name)
    (hsegs : ∀ seg ∈ segs, '/' ∉ seg) : ∀ name ∈ follow entry segs, Proper name := by
  induction segs generalizing entry with
  | nil => exact h
  | cons seg segs ih =>
    rw [List.forall_mem_cons] at hsegs
    exact ih (enter_proper h hsegs.1) hsegs.2

theorem resolve_proper (h : ∀ name ∈ dir, Proper name) (path : List Char) :
    ∀ name ∈ resolve dir path, Proper name := by
  refine follow_proper ?_ (segments_no_slash path)
  split_ifs
  · exact fun _ hname => absurd hname List.not_mem_nil
  · exact h

/-- A proper name that is no dot name leads to the entry of that name. -/
theorem resolve_name {name : Name} (h : Proper name) (hdot : name ≠ ['.'])
    (hdots : name ≠ ['.', '.']) (dir : List Name) : resolve dir name = dir ++ [name] := by
  have hrel : ¬ IsAbsolute name := fun hslash => h.2 (List.mem_of_mem_head? hslash)
  rw [resolve, if_neg hrel, segments, List.splitOn_eq_singleton h.2, follow_cons, follow_nil, enter,
    if_neg (not_or_intro h.1 hdot), if_neg hdots]

/-! ## Text prefixes -/

/-- A path with a slash is a prefix of another one iff they agree up to the slash. -/
theorem slash_prefix_iff {x n p q : List Char} (hx : '/' ∉ x) (hn : '/' ∉ n)
    (hq : ∀ c ∈ q.head?, c = '/') : x ++ '/' :: p <+: n ++ q ↔ x = n ∧ '/' :: p <+: q := by
  induction x generalizing n with
  | nil =>
    cases n with
    | nil => simp
    | cons d n =>
      have hd : d ≠ '/' := fun he => hn (he ▸ List.mem_cons_self)
      simp [List.cons_prefix_cons, hd.symm]
  | cons c x ih =>
    have hc : c ≠ '/' := fun he => hx (he ▸ List.mem_cons_self)
    cases n with
    | nil =>
      refine iff_of_false (fun h => ?_) (by simp)
      cases q with
      | nil => simp at h
      | cons d q =>
        rw [hq d rfl, List.nil_append, List.cons_append, List.cons_prefix_cons] at h
        exact hc h.1
    | cons d n =>
      have hx' : '/' ∉ x := fun h => hx (List.mem_cons_of_mem _ h)
      have hn' : '/' ∉ n := fun h => hn (List.mem_cons_of_mem _ h)
      simp only [List.cons_append, List.cons_prefix_cons, ih hx' hn', List.cons.injEq, and_assoc]

/-- A text without a slash is a prefix of a path iff it is one of the first name. -/
theorem name_prefix_iff {x n q : List Char} (hx : '/' ∉ x) (hq : ∀ c ∈ q.head?, c = '/') :
    x <+: n ++ q ↔ x <+: n := by
  refine ⟨fun h => ?_, fun h => h.trans (List.prefix_append n q)⟩
  rcases List.prefix_or_prefix_of_prefix h (List.prefix_append n q) with hxn | ⟨t, rfl⟩
  · exact hxn
  · rw [List.prefix_append_right_inj] at h
    cases t with
    | nil => simp
    | cons c t =>
      obtain ⟨u, rfl⟩ := h
      exact absurd (hq c rfl) fun he => hx (by simp [he])

/-- The names of an entry, each after a slash. -/
def flat (entry : List Name) : List Char := entry.flatMap fun name => '/' :: name

theorem flat_head (entry : List Name) : ∀ c ∈ (flat entry).head?, c = '/' := by
  cases entry with
  | nil => simp [flat]
  | cons name entry => simp [flat]

theorem flat_prefix_iff {name : Name} (ha : ∀ n ∈ a, Proper n) (hb : ∀ n ∈ b, Proper n)
    (hname : '/' ∉ name) : flat (b ++ [name]) <+: flat a ↔
      ∃ name' rest, a = b ++ name' :: rest ∧ name <+: name' := by
  induction b generalizing a with
  | nil =>
    cases a with
    | nil => simp [flat]
    | cons n a =>
      have hflat : flat (n :: a) = '/' :: (n ++ flat a) := rfl
      have hone : flat ([] ++ [name]) = '/' :: name := by simp [flat]
      rw [hflat, hone, List.cons_prefix_cons, name_prefix_iff hname (flat_head a)]
      simp
  | cons x b ih =>
    cases a with
    | nil => simp [flat]
    | cons n a =>
      rw [List.forall_mem_cons] at ha hb
      have hn : flat (n :: a) = '/' :: (n ++ flat a) := rfl
      have hx : flat (x :: b ++ [name]) = '/' :: (x ++ flat (b ++ [name])) := rfl
      obtain ⟨p, hp⟩ : ∃ p, flat (b ++ [name]) = '/' :: p := by
        cases b with
        | nil => exact ⟨name, by simp [flat]⟩
        | cons y b => exact ⟨y ++ flat (b ++ [name]), rfl⟩
      rw [hn, hx, List.cons_prefix_cons, hp, slash_prefix_iff hb.1.2 ha.1.2 (flat_head a), ← hp,
        ih ha.2 hb.2]
      constructor
      · rintro ⟨-, rfl, name', rest, rfl, hpre⟩
        exact ⟨name', rest, rfl, hpre⟩
      · rintro ⟨name', rest, hcons, hpre⟩
        obtain ⟨rfl, rfl⟩ := List.cons.inj hcons
        exact ⟨rfl, rfl, name', rest, rfl, hpre⟩

/-- **The absolute path of an entry is a text prefix of another absolute path** iff the other entry
lies in the same directory, or below it, under a name that begins with the name of the entry. -/
theorem render_prefix_iff {name : Name} (ha : ∀ n ∈ a, Proper n) (hb : ∀ n ∈ b, Proper n)
    (hname : Proper name) : render (b ++ [name]) <+: render a ↔
      ∃ name' rest, a = b ++ name' :: rest ∧ name <+: name' := by
  rw [← flat_prefix_iff ha hb hname.2]
  have hrender : render (b ++ [name]) = flat (b ++ [name]) := if_neg (by simp)
  rw [hrender]
  by_cases hnil : a = []
  · subst hnil
    have hlong : 1 < (flat (b ++ [name])).length := by
      have := List.length_pos_of_ne_nil hname.1
      simp [flat]
      omega
    refine iff_of_false (fun h => ?_) fun h => ?_
    · have hle := h.length_le
      simp [render] at hle
      omega
    · have hle := h.length_le
      simp [flat] at hle
  · rw [show render a = flat a from if_neg hnil]

/-! ## What there is -/

/-- What an entry is. -/
inductive Kind where
  | file | directory
  deriving DecidableEq

/-- What `stat` does with a path: every entry on the way must be a directory. -/
def walk (kind : List Name → Option Kind) : List Name → List Name → Option (List Name)
  | entry, [] => some entry
  | entry, seg :: segs =>
    if kind entry = some .directory then walk kind (enter entry seg) segs else none

/-- A path names a regular file. -/
def isFile (kind : List Name → Option Kind) (dir : List Name) (path : List Char) : Bool :=
  match walk kind (if IsAbsolute path then [] else dir) (segments path) with
  | some entry => kind entry = some .file
  | none => false

theorem walk_eq {kind : List Name → Option Kind} {segs : List Name} {found : List Name}
    (h : walk kind entry segs = some found) : found = follow entry segs := by
  induction segs generalizing entry with
  | nil => exact (Option.some.inj h).symm
  | cons seg segs ih =>
    unfold walk at h
    split_ifs at h
    exact ih h

/-- **A path that names a regular file resolves to one.** -/
theorem isFile_kind {kind : List Name → Option Kind} {path : List Char}
    (h : isFile kind dir path = true) : kind (resolve dir path) = some .file := by
  unfold isFile at h
  split at h
  case h_1 entry hwalk =>
    rw [walk_eq hwalk] at h
    exact of_decide_eq_true h
  case h_2 => exact absurd h Bool.false_ne_true

/-! ## Canonical paths -/

/-- A name that is no dot name. -/
def Plain (name : Name) : Prop := Proper name ∧ name ≠ ['.'] ∧ name ≠ ['.', '.']

instance (name : Name) : Decidable (Plain name) :=
  inferInstanceAs (Decidable ((_ ∧ _) ∧ _ ∧ _))

theorem enter_plain (h : ∀ name ∈ entry, Plain name) {seg : Name} (hseg : '/' ∉ seg) :
    ∀ name ∈ enter entry seg, Plain name := by
  unfold enter
  split_ifs with hstay hup
  · exact h
  · exact fun name hname => h name (List.mem_of_mem_dropLast hname)
  · intro name hname
    rcases List.mem_append.mp hname with hname | hname
    · exact h name hname
    · rw [List.mem_singleton.mp hname]
      exact ⟨⟨fun he => hstay (Or.inl he), hseg⟩, fun he => hstay (Or.inr he), hup⟩

/-- **What a path leads to has plain names**, if the directory has. -/
theorem resolve_plain (h : ∀ name ∈ dir, Plain name) (path : List Char) :
    ∀ name ∈ resolve dir path, Plain name := by
  have hfollow : ∀ (segs : List Name) (entry : List Name), (∀ seg ∈ segs, '/' ∉ seg) →
      (∀ name ∈ entry, Plain name) → ∀ name ∈ follow entry segs, Plain name := by
    intro segs
    induction segs with
    | nil => exact fun _ _ h => h
    | cons seg segs ih =>
      intro entry hsegs h
      rw [List.forall_mem_cons] at hsegs
      exact ih _ hsegs.2 (enter_plain h hsegs.1)
  refine hfollow _ _ (segments_no_slash path) ?_
  split_ifs
  · exact fun _ hname => absurd hname List.not_mem_nil
  · exact h

theorem enter_plain_name {name : Name} (h : Plain name) (entry : List Name) :
    enter entry name = entry ++ [name] := by
  rw [enter, if_neg (not_or_intro h.1.1 h.2.1), if_neg h.2.2]

theorem follow_plain {names : List Name} (h : ∀ name ∈ names, Plain name) (entry : List Name) :
    follow entry names = entry ++ names := by
  induction names generalizing entry with
  | nil => exact (List.append_nil entry).symm
  | cons name names ih =>
    rw [List.forall_mem_cons] at h
    rw [follow_cons, enter_plain_name h.1, ih h.2, List.append_assoc]
    rfl

theorem segments_flat (h : ∀ name ∈ entry, '/' ∉ name) (p : List Char) :
    segments (p ++ flat entry) = segments p ++ entry := by
  induction entry generalizing p with
  | nil => simp [flat]
  | cons name entry ih =>
    rw [List.forall_mem_cons] at h
    have hflat : p ++ flat (name :: entry) = (p ++ '/' :: name) ++ flat entry := by simp [flat]
    have hname : segments name = [name] := List.splitOn_eq_singleton h.1
    rw [hflat, ih h.2, segments_slash, hname, List.append_assoc]
    rfl

/-- The segments of an absolute path. -/
theorem segments_render (h : ∀ name ∈ entry, '/' ∉ name) (hne : entry ≠ []) :
    segments (render entry) = [] :: entry := by
  have hflat : render entry = [] ++ flat entry := if_neg hne
  rw [hflat, segments_flat h]
  rfl

theorem isAbsolute_render (entry : List Name) : IsAbsolute (render entry) := by
  unfold render
  split_ifs with h
  · rfl
  · obtain ⟨name, rest, rfl⟩ := List.exists_cons_of_ne_nil h
    rfl

/-- **The absolute path of an entry leads to it from everywhere**. -/
theorem resolve_render (h : ∀ name ∈ entry, Plain name) (dir : List Name) :
    resolve dir (render entry) = entry := by
  rw [resolve, if_pos (isAbsolute_render entry)]
  by_cases hne : entry = []
  · rw [hne]
    rfl
  · rw [segments_render (fun name hname => (h name hname).1.2) hne, follow_cons]
    exact follow_plain h []

/-- A name below an absolute path. -/
theorem render_snoc (h : ∀ name ∈ entry, Proper name) {name : Name} (hname : Proper name) :
    join (render entry) name = render (entry ++ [name]) := by
  have hrel : ¬ IsAbsolute name := fun hslash => hname.2 (List.mem_of_mem_head? hslash)
  have hsnoc : render (entry ++ [name]) = flat (entry ++ [name]) := if_neg (by simp)
  rw [join, if_neg hrel, hsnoc]
  rcases List.eq_nil_or_concat entry with rfl | ⟨init, last, rfl⟩
  · have hend : (render []).getLast? = some '/' := rfl
    rw [if_pos (Or.inr hend)]
    simp [render, flat]
  · rw [List.concat_eq_append] at h ⊢
    have hlast := h last (List.mem_append_right _ (List.mem_singleton.mpr rfl))
    have hrender : render (init ++ [last]) = flat (init ++ [last]) := if_neg (by simp)
    have hslash : ¬ (flat (init ++ [last]) = [] ∨ (flat (init ++ [last])).getLast? = some '/') := by
      have hsplit : flat (init ++ [last]) = (flat init ++ ['/']) ++ last := by simp [flat]
      rw [hsplit]
      rintro (hnil | hend)
      · simp at hnil
      · rw [List.getLast?_append_of_ne_nil _ hlast.1] at hend
        exact hlast.2 (List.mem_of_getLast? hend)
    rw [hrender, if_neg hslash]
    simp [flat]

end Paths
