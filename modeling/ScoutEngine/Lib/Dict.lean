import Mathlib.Data.List.Basic

/-!
# Insertion-ordered dictionaries

Association lists with the update rule of an insertion-ordered dictionary: a new key goes to the
end, an old key keeps its place.

* `get`, `set`, `update`; `get_set_self`, `get_set_ne`, `get_set`, `set_of_not_mem`.
* `get_filter_ne`: deletion by a filter; `eq_nil_of_get`; `mem_of_get`, `get_of_mem`, `mem_set`: the
  items; `has_iff`: the keys.
* `get_append`, **`get_update`**; `nodup_set`, `nodup_update`: distinct keys stay distinct.
-/

set_option autoImplicit false

/-- An insertion-ordered dictionary. -/
abbrev Dict (κ ν : Type) := List (κ × ν)

namespace Dict

variable {κ ν : Type} [DecidableEq κ]

/-- The value stored under `k`. -/
def get (k : κ) : Dict κ ν → Option ν
  | [] => none
  | (k', v) :: d => if k' = k then some v else get k d

/-- Store `v` under `k`. -/
def set (k : κ) (v : ν) : Dict κ ν → Dict κ ν
  | [] => [(k, v)]
  | (k', v') :: d => if k' = k then (k, v) :: d else (k', v') :: set k v d

/-- `k` is a key. -/
def has (k : κ) (d : Dict κ ν) : Bool := (get k d).isSome

/-- Store every item of the second dictionary, in order. -/
def update (d : Dict κ ν) (e : Dict κ ν) : Dict κ ν := e.foldl (fun d p => set p.1 p.2 d) d

theorem get_set (k k' : κ) (v : ν) (d : Dict κ ν) :
    get k' (set k v d) = if k = k' then some v else get k' d := by
  induction d with
  | nil => rfl
  | cons p d ih =>
    obtain ⟨c, w⟩ := p
    by_cases hc : c = k
    · subst hc
      simp only [set, if_true, get]
      split_ifs <;> rfl
    · simp only [set, if_neg hc, get, ih]
      by_cases hk : k = k'
      · subst hk
        simp only [if_neg hc, if_true]
      · simp only [if_neg hk]

@[simp] theorem get_set_self (k : κ) (v : ν) (d : Dict κ ν) : get k (set k v d) = some v := by
  rw [get_set, if_pos rfl]

theorem get_set_ne {k k' : κ} (h : k ≠ k') (v : ν) (d : Dict κ ν) :
    get k' (set k v d) = get k' d := by
  rw [get_set, if_neg h]

/-- A new key goes to the end. -/
theorem set_of_not_mem {k : κ} {d : Dict κ ν} (h : k ∉ d.map Prod.fst) (v : ν) :
    set k v d = d ++ [(k, v)] := by
  induction d with
  | nil => rfl
  | cons p d ih =>
    rw [List.map_cons, List.mem_cons, not_or] at h
    rw [set, if_neg (Ne.symm h.1), ih h.2, List.cons_append]

/-- Without the items under `k` nothing is stored under `k`. -/
theorem get_filter_ne (k k' : κ) (d : Dict κ ν) :
    get k' (d.filter (·.1 ≠ k)) = if k = k' then none else get k' d := by
  induction d with
  | nil => simp [get]
  | cons p d ih =>
    obtain ⟨c, w⟩ := p
    by_cases hc : c = k
    · rw [List.filter_cons_of_neg (by simp [hc]), ih, hc]
      split_ifs with hk
      · rfl
      · rw [get, if_neg hk]
    · rw [List.filter_cons_of_pos (by simp [hc]), get, ih, get]
      split_ifs with h₁ h₂
      · exact absurd (h₁.trans h₂.symm) hc
      · rfl
      · rfl
      · rfl

/-- What is stored is an item. -/
theorem mem_of_get {k : κ} {v : ν} {d : Dict κ ν} (h : get k d = some v) : (k, v) ∈ d := by
  induction d with
  | nil => cases h
  | cons p d ih =>
    obtain ⟨c, w⟩ := p
    unfold get at h
    split_ifs at h with hc
    · rw [hc, Option.some.inj h]
      exact List.mem_cons_self
    · exact List.mem_cons_of_mem _ (ih h)

/-- With distinct keys every item is stored. -/
theorem get_of_mem {k : κ} {v : ν} {d : Dict κ ν} (hd : (d.map Prod.fst).Nodup)
    (h : (k, v) ∈ d) : get k d = some v := by
  induction d with
  | nil => exact absurd h List.not_mem_nil
  | cons p d ih =>
    rw [List.map_cons, List.nodup_cons] at hd
    unfold get
    rcases List.mem_cons.mp h with rfl | h
    · exact if_pos rfl
    · have hk : p.1 ≠ k := fun hk => hd.1 (hk ▸ List.mem_map_of_mem (f := Prod.fst) h)
      rw [if_neg hk]
      exact ih hd.2 h

/-- Storing adds one item. -/
theorem mem_set {k : κ} {v : ν} {d : Dict κ ν} {e : κ × ν} (h : e ∈ set k v d) :
    e = (k, v) ∨ e ∈ d := by
  induction d with
  | nil => exact .inl (List.mem_singleton.mp h)
  | cons p d ih =>
    obtain ⟨c, w⟩ := p
    unfold set at h
    split_ifs at h with hc
    · exact (List.mem_cons.mp h).imp_right (List.mem_cons_of_mem _)
    · rcases List.mem_cons.mp h with h | h
      · exact .inr (List.mem_cons.mpr (.inl h))
      · exact (ih h).imp_right (List.mem_cons_of_mem _)

theorem has_iff {k : κ} {d : Dict κ ν} : has k d = true ↔ k ∈ d.map Prod.fst := by
  unfold has
  induction d with
  | nil => simp [get]
  | cons p d ih =>
    rw [get, List.map_cons, List.mem_cons]
    by_cases hk : p.1 = k
    · simp [hk]
    · rw [if_neg hk, ih]
      exact ⟨.inr, fun h => h.resolve_left (Ne.symm hk)⟩

theorem get_append (k : κ) (d e : Dict κ ν) : get k (d ++ e) = (get k d).or (get k e) := by
  induction d with
  | nil => rfl
  | cons p d ih =>
    rw [List.cons_append, get, get, ih]
    split_ifs <;> rfl

/-- **After an update the last item with a key counts.** -/
theorem get_update (k : κ) (d e : Dict κ ν) :
    get k (update d e) = (get k e.reverse).or (get k d) := by
  induction e generalizing d with
  | nil => rfl
  | cons p e ih =>
    have hone : get k [p] = if p.1 = k then some p.2 else none := rfl
    change get k (update (set p.1 p.2 d) e) = _
    rw [ih, List.reverse_cons, get_append, hone, get_set, Option.or_assoc]
    split_ifs <;> rfl

theorem nodup_set {d : Dict κ ν} (h : (d.map Prod.fst).Nodup) (k : κ) (v : ν) :
    ((set k v d).map Prod.fst).Nodup := by
  induction d with
  | nil => exact List.pairwise_singleton _ k
  | cons p d ih =>
    rw [List.map_cons, List.nodup_cons] at h
    unfold set
    split_ifs with hk
    · rw [List.map_cons, List.nodup_cons]
      exact ⟨hk ▸ h.1, h.2⟩
    · rw [List.map_cons, List.nodup_cons]
      refine ⟨fun hmem => ?_, ih h.2⟩
      obtain ⟨e, he, hp⟩ := List.mem_map.mp hmem
      rcases mem_set he with rfl | he
      · exact hk hp.symm
      · exact h.1 (List.mem_map.mpr ⟨e, he, hp⟩)

theorem nodup_update {d : Dict κ ν} (h : (d.map Prod.fst).Nodup) (e : Dict κ ν) :
    ((update d e).map Prod.fst).Nodup := by
  induction e generalizing d with
  | nil => exact h
  | cons p e ih => exact ih (nodup_set h p.1 p.2)

/-- Only the empty dictionary stores nothing. -/
theorem eq_nil_of_get {d : Dict κ ν} (h : ∀ k, get k d = none) : d = [] := by
  cases d with
  | nil => rfl
  | cons p d =>
    have hk := h p.1
    rw [get, if_pos rfl] at hk
    cases hk

end Dict
