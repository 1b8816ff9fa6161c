import ScoutEngine.Lib.Dict
import Mathlib.Logic.Function.Basic

/-!
# Registries of shared objects

A registry maps keys to objects with an identity and a state. A reference that was looked up stays
usable when its key is unregistered or registered again.

* `Registry`: `register` makes a new object, `find` looks its reference up, `write` changes the
  state behind a reference, `unregister` removes the key; `entry`: what is registered under a key.
* `Owned`: the references that are in use, each owned by one key.
* `Change`: what an operation for one key makes of a registry; **`Change.entry`**: the entries of
  the other keys are as before; **`Change.owned`**: references stay owned.
-/

set_option autoImplicit false

/-- Keys with the references of their objects, and the states of all objects made so far. -/
structure Registry (κ σ : Type) where
  entries : Dict κ ℕ := []
  objects : List σ := []

namespace Registry

variable {κ σ : Type} [DecidableEq κ]

/-- A new object in state `x`, registered under `k`. -/
def register (k : κ) (x : σ) (R : Registry κ σ) : Registry κ σ where
  entries := Dict.set k R.objects.length R.entries
  objects := R.objects ++ [x]

/-- The reference registered under `k`. -/
def find (k : κ) (R : Registry κ σ) : Option ℕ := Dict.get k R.entries

/-- Change the state of an object. -/
def write (r : ℕ) (x : σ) (R : Registry κ σ) : Registry κ σ :=
  { R with objects := R.objects.set r x }

/-- Remove the key; the object stays with those who hold its reference. -/
def unregister (k : κ) (R : Registry κ σ) : Registry κ σ :=
  { R with entries := R.entries.filter (·.1 ≠ k) }

/-- What is registered under `k`: the object and its state. -/
def entry (k : κ) (R : Registry κ σ) : Option (ℕ × Option σ) :=
  (R.find k).map fun r => (r, R.objects[r]?)

/-! ## Lookups -/

variable (k k' : κ) (x : σ) (r : ℕ) (R : Registry κ σ)

theorem find_register :
    (R.register k x).find k' = if k = k' then some R.objects.length else R.find k' :=
  Dict.get_set k k' R.objects.length R.entries

theorem find_unregister : (R.unregister k).find k' = if k = k' then none else R.find k' :=
  Dict.get_filter_ne k k' R.entries

@[simp] theorem find_write : (R.write r x).find k' = R.find k' := rfl

variable {k k' x r R}

/-! ## Ownership -/

/-- **Every reference in use has one owner**: the key that it is registered under, or was when it
was looked up. References of objects to come have none. -/
structure Owned (own : ℕ → Option κ) (R : Registry κ σ) : Prop where
  find : ∀ k r, R.find k = some r → own r = some k
  fresh : ∀ r, R.objects.length ≤ r → own r = none

variable {own : ℕ → Option κ}

theorem Owned.lt (h : Owned own R) (hr : own r = some k) : r < R.objects.length := by
  by_contra hge
  rw [h.fresh r (Nat.not_lt.mp hge)] at hr
  cases hr

/-- The new object belongs to its key. -/
theorem Owned.register (h : Owned own R) (k : κ) (x : σ) :
    Owned (Function.update own R.objects.length (some k)) (R.register k x) := by
  constructor
  · intro k' r hr
    rw [find_register] at hr
    split_ifs at hr with hk
    · obtain rfl := Option.some.inj hr
      rw [Function.update_self, hk]
    · have hlt := h.lt (h.find k' r hr)
      rw [Function.update_of_ne (Nat.ne_of_lt hlt)]
      exact h.find k' r hr
  · intro r hr
    have hlen : (R.register k x).objects.length = R.objects.length + 1 := List.length_append
    rw [hlen] at hr
    rw [Function.update_of_ne (by omega)]
    exact h.fresh r (by omega)

/-- The owners of the objects made before stay. -/
theorem Owned.register_own (h : Owned own R) (hr : own r = some k') (k : κ) :
    Function.update own R.objects.length (some k) r = some k' := by
  rw [Function.update_of_ne (Nat.ne_of_lt (h.lt hr))]
  exact hr

theorem Owned.write (h : Owned own R) (r : ℕ) (x : σ) : Owned own (R.write r x) := by
  refine ⟨h.find, fun r' hr' => h.fresh r' ?_⟩
  rwa [Registry.write, List.length_set] at hr'

theorem Owned.unregister (h : Owned own R) (k : κ) : Owned own (R.unregister k) := by
  refine ⟨fun k' r hr => ?_, h.fresh⟩
  rw [find_unregister] at hr
  split_ifs at hr
  exact h.find k' r hr

/-! ## Isolation -/

/-- **An operation for one key**: on its entry, or on an object that it owns. -/
inductive Change (own : ℕ → Option κ) (k : κ) (R : Registry κ σ) : Registry κ σ → Prop
  | same : Change own k R R
  | register (x : σ) : Change own k R (R.register k x)
  | write {r : ℕ} (h : own r = some k) (x : σ) : Change own k R (R.write r x)
  | unregister : Change own k R (R.unregister k)

variable {R' : Registry κ σ}

/-- **The entries of the other keys are as before.** -/
theorem Change.entry (hc : Change own k R R') (h : Owned own R) (hk : k ≠ k') :
    R'.entry k' = R.entry k' := by
  cases hc with
  | same => rfl
  | register x =>
    rw [Registry.entry, Registry.entry, find_register, if_neg hk]
    cases hf : R.find k' with
    | none => rfl
    | some r =>
      have hlt := h.lt (h.find k' r hf)
      rw [Option.map_some, Option.map_some, Registry.register, List.getElem?_append_left hlt]
  | @write r hr x =>
    rw [Registry.entry, Registry.entry, find_write]
    cases hf : R.find k' with
    | none => rfl
    | some r' =>
      have hne : r ≠ r' := by
        rintro rfl
        exact hk (Option.some.inj (hr.symm.trans (h.find k' r hf)))
      rw [Option.map_some, Option.map_some, Registry.write, List.getElem?_set_ne hne]
  | unregister =>
    rw [Registry.entry, Registry.entry, find_unregister, if_neg hk]
    rfl

/-- **References stay owned**, and keep their owners. -/
theorem Change.owned (hc : Change own k R R') (h : Owned own R) :
    ∃ own', Owned own' R' ∧ ∀ r k', own r = some k' → own' r = some k' := by
  cases hc with
  | same => exact ⟨own, h, fun _ _ hr => hr⟩
  | register x => exact ⟨_, h.register k x, fun _ _ hr => h.register_own hr k⟩
  | @write r _ x => exact ⟨own, h.write r x, fun _ _ hr => hr⟩
  | unregister => exact ⟨own, h.unregister k, fun _ _ hr => hr⟩

end Registry
