import Mathlib.Data.List.Induction
import Mathlib.Data.Set.Function

/-!
# A log of writes and reads

Events write values under names; a read sees a whole store.

* `LastWrite.store`: the store that a log leaves, with the last value written under each name.
* `LastWrite.Consistent`: every read sees the last writes before it, on a set of names.
* `store_append`, `store_of_silent`, **`Consistent.append`**: how a log grows.
-/

set_option autoImplicit false

namespace LastWrite

variable {E κ ν : Type} (w : E → κ → Option ν)

/-- The store after an event. -/
def after (σ : κ → Option ν) (e : E) : κ → Option ν := fun k => (w e k).or (σ k)

/-- The store that a log leaves. -/
def store (l : List E) : κ → Option ν := l.foldl (after w) fun _ => none

theorem store_append (l : List E) (e : E) : store w (l ++ [e]) = after w (store w l) e := by
  rw [store, List.foldl_append]
  rfl

/-- An event that writes nothing on a set of names. -/
theorem store_of_silent {l : List E} {e : E} {k : κ} (h : w e k = none) :
    store w (l ++ [e]) k = store w l k := by
  rw [store_append, after, h]
  rfl

variable {w}

/-- **Every read sees the last writes before it.** -/
def Consistent (w : E → κ → Option ν) (r : E → Option (κ → Option ν)) (K : Set κ) (l : List E) :
    Prop :=
  ∀ l₁ e l₂ o, l = l₁ ++ e :: l₂ → r e = some o → Set.EqOn o (store w l₁) K

variable {r : E → Option (κ → Option ν)} {K : Set κ} {l : List E} {e : E}

theorem consistent_nil : Consistent w r K [] := by
  intro l₁ e l₂ o h
  simp at h

theorem Consistent.append (h : Consistent w r K l)
    (he : ∀ o, r e = some o → Set.EqOn o (store w l) K) : Consistent w r K (l ++ [e]) := by
  intro l₁ e' l₂ o hl hr
  rcases List.eq_nil_or_concat l₂ with rfl | ⟨l₃, e₃, rfl⟩
  · obtain ⟨rfl, rfl⟩ := List.append_singleton_inj.mp hl
    exact he o hr
  · have hsplit : l ++ [e] = (l₁ ++ e' :: l₃) ++ [e₃] := by simpa using hl
    obtain ⟨rfl, rfl⟩ := List.append_singleton_inj.mp hsplit
    exact h l₁ e' l₃ o rfl hr

/-- An event that reads nothing. -/
theorem Consistent.append_of_none (h : Consistent w r K l) (he : r e = none) :
    Consistent w r K (l ++ [e]) :=
  h.append fun o ho => by
    rw [he] at ho
    cases ho

end LastWrite
