import Mathlib.Data.List.Basic

/-!
# Open failures

A ledger lists outcomes in order: which key, and whether it passed. A failure stays open until its
own key passes.

* `opened`: the keys of the open failures, newest first; `opened_fail`, `opened_pass`.
* `mem_opened`: a failure that is not followed by a pass of its key is open.
* **`passed_later`**: when nothing is open, every failure is followed by a pass of its key.
* `length_opened_pass`: a pass of an open key closes at least one failure.
-/

set_option autoImplicit false

namespace Ledger

variable {κ : Type} [DecidableEq κ]

/-- One outcome. -/
def post (o : List κ) (e : κ × Bool) : List κ := if e.2 then o.filter (· ≠ e.1) else e.1 :: o

/-- The keys of the open failures, newest first. -/
def opened (xs : List (κ × Bool)) : List κ := xs.foldl post []

theorem opened_fail (xs : List (κ × Bool)) (k : κ) :
    opened (xs ++ [(k, false)]) = k :: opened xs := by
  rw [opened, List.foldl_append]
  rfl

theorem opened_pass (xs : List (κ × Bool)) (k : κ) :
    opened (xs ++ [(k, true)]) = (opened xs).filter (· ≠ k) := by
  rw [opened, List.foldl_append]
  rfl

theorem length_opened_pass_le (xs : List (κ × Bool)) (k : κ) :
    (opened (xs ++ [(k, true)])).length ≤ (opened xs).length := by
  rw [opened_pass]
  exact List.length_filter_le _ _

theorem length_opened_pass {xs : List (κ × Bool)} {k : κ} (h : k ∈ opened xs) :
    (opened (xs ++ [(k, true)])).length + 1 ≤ (opened xs).length := by
  rw [opened_pass]
  exact List.length_filter_lt_length_iff_exists.mpr ⟨k, h, by simp⟩

theorem mem_foldl_post {k : κ} : ∀ (xs : List (κ × Bool)) (o : List κ), k ∈ o → (k, true) ∉ xs →
    k ∈ xs.foldl post o
  | [], _, ho, _ => ho
  | (k', b) :: xs, o, ho, hx => by
    rw [List.mem_cons, not_or] at hx
    refine mem_foldl_post xs _ ?_ hx.2
    unfold post
    split_ifs with hb
    · have hk : k ≠ k' := by
        rintro rfl
        exact hx.1 (Prod.ext rfl hb.symm)
      exact List.mem_filter.mpr ⟨ho, decide_eq_true hk⟩
    · exact List.mem_cons_of_mem _ ho

theorem mem_opened {pre rest : List (κ × Bool)} {k : κ} (h : (k, true) ∉ rest) :
    k ∈ opened (pre ++ (k, false) :: rest) := by
  rw [opened, List.foldl_append, List.foldl_cons]
  exact mem_foldl_post rest _ List.mem_cons_self h

/-- **When nothing is open, every failure is followed by a pass of its key.** -/
theorem passed_later {pre rest : List (κ × Bool)} {k : κ}
    (h : opened (pre ++ (k, false) :: rest) = []) : (k, true) ∈ rest := by
  by_contra hn
  have hk : k ∈ opened (pre ++ (k, false) :: rest) := mem_opened hn
  rw [h] at hk
  exact List.not_mem_nil hk

end Ledger
