import Mathlib.Data.List.Nodup
import Mathlib.Data.List.Sort

/-!
# Tables with a key

Rows in a list, no two with the same key, and what a statement does to them; and what a query may
return that sorts by a column which is no key.

* `Table.nodup_insert`, `Table.nodup_update`, `Table.nodup_delete`: the keys stay apart.
* `Table.find_iff`: a row is found by its key; `Table.map_same`: it may be put in its own place.
* `Table.Ordered`: an answer to a sorted query; **`ordered_map_iff`**: when all answers show what
  was inserted, in the order of insertion.
-/

set_option autoImplicit false

namespace Table

variable {ρ κ : Type} {key : ρ → κ} {rows : List ρ}

/-- **A row with a new key is inserted.** -/
theorem nodup_insert (h : (rows.map key).Nodup) {row : ρ} (hnew : ∀ old ∈ rows, key old ≠ key row) :
    ((rows ++ [row]).map key).Nodup := by
  have hkey : key row ∉ rows.map key := by
    intro hmem
    obtain ⟨old, hold, he⟩ := List.mem_map.mp hmem
    exact hnew old hold he
  rw [List.map_append, List.map_singleton, ← List.concat_eq_append]
  exact List.Nodup.concat hkey h

/-- **Rows are updated, but not their keys.** -/
theorem nodup_update (h : (rows.map key).Nodup) {f : ρ → ρ} (hf : ∀ row, key (f row) = key row) :
    ((rows.map f).map key).Nodup := by
  have hkeys : (rows.map f).map key = rows.map key := by
    rw [List.map_map]
    exact List.map_congr_left fun row _ => hf row
  rw [hkeys]
  exact h

/-- **Rows are deleted.** -/
theorem nodup_delete (h : (rows.map key).Nodup) (p : ρ → Bool) :
    ((rows.filter p).map key).Nodup := h.sublist (List.filter_sublist.map key)

/-! ## Look-ups -/

section LookUps

variable [DecidableEq κ] {k : κ} {row : ρ}

theorem key_of_find (h : rows.find? (fun r => key r = k) = some row) : key row = k :=
  of_decide_eq_true (List.find?_some (p := fun r => decide (key r = k)) h)

/-- **A row is found by its key.** -/
theorem find_iff (h : (rows.map key).Nodup) :
    rows.find? (fun r => key r = k) = some row ↔ row ∈ rows ∧ key row = k := by
  constructor
  · intro hfind
    exact ⟨List.mem_of_find?_eq_some hfind, key_of_find hfind⟩
  · rintro ⟨hrow, hkey⟩
    cases hfind : rows.find? (fun r => key r = k) with
    | none =>
      rw [List.find?_eq_none] at hfind
      exact absurd (decide_eq_true hkey) (hfind row hrow)
    | some other =>
      have hother : other ∈ rows := List.mem_of_find?_eq_some hfind
      rw [List.inj_on_of_nodup_map h hother hrow ((key_of_find hfind).trans hkey.symm)]

/-- To put a row in its own place changes nothing. -/
theorem map_same (h : (rows.map key).Nodup) (hfind : rows.find? (fun r => key r = k) = some row) :
    (rows.map fun r => if key r = k then row else r) = rows := by
  obtain ⟨hrow, hkey⟩ := (find_iff h).mp hfind
  refine (List.map_congr_left fun r hr => ?_).trans (List.map_id rows)
  by_cases hr' : key r = k
  · rw [if_pos hr']
    exact List.inj_on_of_nodup_map h hrow hr (hkey.trans hr'.symm)
  · exact if_neg hr'

end LookUps

/-! ## Sorted queries -/

/-- **An answer to `SELECT ... ORDER BY key`**: all rows, and the keys ascend. Rows with the same key
come in any order. -/
structure Ordered [LE κ] (key : ρ → κ) (rows answer : List ρ) : Prop where
  perm : answer.Perm rows
  ascends : answer.Pairwise fun a b => key a ≤ key b

section Sorted

variable [LinearOrder κ] {τ : Type} {f : ρ → τ} {g : τ → κ}

theorem exists_ordered (key : ρ → κ) (rows : List ρ) : ∃ answer, Ordered key rows answer := by
  refine ⟨rows.mergeSort fun a b => decide (key a ≤ key b), List.mergeSort_perm _ _, ?_⟩
  refine (List.pairwise_mergeSort (fun a b c hab hbc => ?_) (fun a b => ?_) rows).imp
    of_decide_eq_true
  · exact decide_eq_true ((of_decide_eq_true hab).trans (of_decide_eq_true hbc))
  · simpa using le_total (key a) (key b)

/-- The head of an ascending list may be followed by any row that ties with it. -/
theorem ordered_swap {a b : ρ} (h : (a :: rows).Pairwise fun a b => key a ≤ key b) (hb : b ∈ rows)
    (htie : key a = key b) : ∃ rest, Ordered key (a :: rows) (b :: a :: rest) := by
  obtain ⟨before, after, rfl⟩ := List.append_of_mem hb
  obtain ⟨ha, hrows⟩ := List.pairwise_cons.mp h
  have hperm : (before ++ b :: after).Perm (b :: (before ++ after)) := List.perm_middle
  have hsub : (before ++ after).Sublist (before ++ b :: after) :=
    (List.sublist_cons_self b after).append_left before
  refine ⟨before ++ after, ?_, ?_⟩
  · exact (List.Perm.swap a b _).trans (hperm.symm.cons a)
  · refine List.pairwise_cons.mpr ⟨fun c hc => ?_, List.pairwise_cons.mpr
      ⟨fun c hc => ha c (hsub.subset hc), hrows.sublist hsub⟩⟩
    rw [← htie]
    rcases List.mem_cons.mp hc with rfl | hc
    · exact le_rfl
    · exact ha c (hsub.subset hc)

/-- When all answers show the same, rows that tie show the same. -/
theorem ties_of_map (h : rows.Pairwise fun a b => key a ≤ key b)
    (hall : ∀ answer, Ordered key rows answer → answer.map f = rows.map f) :
    rows.Pairwise fun a b => key a = key b → f a = f b := by
  induction rows with
  | nil => exact .nil
  | cons a rows ih =>
    obtain ⟨ha, hrows⟩ := List.pairwise_cons.mp h
    refine List.pairwise_cons.mpr ⟨fun b hb htie => ?_, ih hrows fun answer hans => ?_⟩
    · obtain ⟨rest, hswap⟩ := ordered_swap h hb htie
      exact (List.cons.inj (hall _ hswap)).1.symm
    · have hcons : Ordered key (a :: rows) (a :: answer) :=
        ⟨hans.perm.cons a, List.pairwise_cons.mpr
          ⟨fun b hb => ha b (hans.perm.subset hb), hans.ascends⟩⟩
      exact (List.cons.inj (hall _ hcons)).2

/-- **All answers show the rows as they were inserted** iff the keys ascend already, and rows with
the same key show the same. -/
theorem ordered_map_iff (hg : ∀ a, g (f a) = key a) :
    (∀ answer, Ordered key rows answer → answer.map f = rows.map f) ↔
      rows.Pairwise fun a b => key a ≤ key b ∧ (key a = key b → f a = f b) := by
  have hmap : ∀ l : List ρ, (l.map f).Pairwise (fun x y => g x ≤ g y) ↔
      l.Pairwise fun a b => key a ≤ key b := by
    intro l
    rw [List.pairwise_map]
    simp only [hg]
  constructor
  · intro hall
    obtain ⟨answer, hans⟩ := exists_ordered key rows
    have hsorted := (hmap answer).mpr hans.ascends
    rw [hall answer hans, hmap] at hsorted
    exact hsorted.and (ties_of_map hsorted hall)
  · intro h answer hans
    have hrows := (hmap rows).mpr (h.imp And.left)
    refine (hans.perm.map f).eq_of_pairwise (fun x y hx hy hxy hyx => ?_)
      ((hmap answer).mpr hans.ascends) hrows
    obtain ⟨a, ha, rfl⟩ := List.mem_map.mp hx
    obtain ⟨b, hb, rfl⟩ := List.mem_map.mp hy
    have htie : key a = key b := by
      rw [← hg, ← hg]
      exact le_antisymm hxy hyx
    have hties : rows.Pairwise fun a b => key a = key b → f a = f b := h.imp And.right
    exact hties.forall_of_forall_of_flip (fun _ _ _ => rfl)
      (hties.imp fun hs he => (hs he.symm).symm) (hans.perm.subset ha) hb htie

end Sorted

end Table
