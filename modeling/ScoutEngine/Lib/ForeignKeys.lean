import ScoutEngine.Lib.Table

/-!
# Foreign keys

Rows that refer to rows of another table, and what the statements of a database do to references.

* `Refers`: every reference is to a row that is there.
* `Refers.insert`, `Refers.map`, `Refers.mono`: rows are inserted and updated.
* **`Refers.cascade`**, **`Refers.setNull`**: rows that are referred to are deleted, with `ON DELETE
  CASCADE` and with `ON DELETE SET NULL`.
-/

set_option autoImplicit false

namespace Table

variable {ρ κ : Type}

/-- **Every reference is to a key that is there.** -/
def Refers (rows : List ρ) (ref : ρ → Option κ) (keys : List κ) : Prop :=
  ∀ row ∈ rows, ∀ k, ref row = some k → k ∈ keys

/-- `ON DELETE CASCADE`: the rows whose reference survives. -/
def cascade (rows : List ρ) (ref : ρ → Option κ) (survives : κ → Bool) : List ρ :=
  rows.filter fun row => (ref row).all survives

/-- `ON DELETE SET NULL`: the other references are dropped. -/
def setNull (rows : List ρ) (ref : ρ → Option κ) (null : ρ → ρ) (survives : κ → Bool) : List ρ :=
  rows.map fun row => if (ref row).all survives then row else null row

variable {rows : List ρ} {ref : ρ → Option κ} {keys keys' : List κ}

theorem Refers.mono (h : Refers rows ref keys) (hsub : keys ⊆ keys') : Refers rows ref keys' :=
  fun row hrow k hk => hsub (h row hrow k hk)

theorem Refers.insert (h : Refers rows ref keys) {new : List ρ}
    (hnew : ∀ row ∈ new, ∀ k, ref row = some k → k ∈ keys) : Refers (rows ++ new) ref keys := by
  intro row hrow
  rcases List.mem_append.mp hrow with hrow | hrow
  · exact h row hrow
  · exact hnew row hrow

/-- **Rows are updated, but not their references.** -/
theorem Refers.map (h : Refers rows ref keys) {f : ρ → ρ} (hf : ∀ row, ref (f row) = ref row) :
    Refers (rows.map f) ref keys := by
  intro row hrow k hk
  obtain ⟨old, hold, rfl⟩ := List.mem_map.mp hrow
  rw [hf] at hk
  exact h old hold k hk

/-- **Rows go with the rows that they refer to.** -/
theorem Refers.cascade (h : Refers rows ref keys) (survives : κ → Bool) :
    Refers (Table.cascade rows ref survives) ref (keys.filter survives) := by
  intro row hrow k hk
  obtain ⟨hold, hall⟩ := List.mem_filter.mp hrow
  rw [hk] at hall
  exact List.mem_filter.mpr ⟨h row hold k hk, hall⟩

/-- **References go with the rows that they are to.** -/
theorem Refers.setNull (h : Refers rows ref keys) {null : ρ → ρ}
    (hnull : ∀ row, ref (null row) = none) (survives : κ → Bool) :
    Refers (Table.setNull rows ref null survives) ref (keys.filter survives) := by
  intro row hrow k hk
  obtain ⟨old, hold, rfl⟩ := List.mem_map.mp hrow
  by_cases hall : (ref old).all survives = true
  · rw [if_pos hall] at hk
    rw [hk] at hall
    exact List.mem_filter.mpr ⟨h old hold k hk, hall⟩
  · rw [if_neg hall, hnull] at hk
    cases hk

/-- Another reference of the same rows. -/
theorem Refers.setNull_other {μ : Type} {ref' : ρ → Option μ} {keys : List μ}
    (h : Refers rows ref' keys) {null : ρ → ρ} (hnull : ∀ row, ref' (null row) = ref' row)
    (survives : κ → Bool) : Refers (Table.setNull rows ref null survives) ref' keys := by
  refine h.map fun row => ?_
  split_ifs
  · rfl
  · exact hnull row

theorem Refers.filter (h : Refers rows ref keys) (p : ρ → Bool) : Refers (rows.filter p) ref keys :=
  fun row hrow => h row (List.mem_of_mem_filter hrow)

theorem mem_cascade {survives : κ → Bool} {row : ρ} : row ∈ cascade rows ref survives ↔
    row ∈ rows ∧ ∀ k, ref row = some k → survives k = true := by
  unfold cascade
  rw [List.mem_filter]
  cases ref row <;> simp

end Table
