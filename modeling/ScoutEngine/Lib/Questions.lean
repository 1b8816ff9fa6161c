import ScoutEngine.Lib.Interaction

/-!
# The questions of a program

What a program may ask, whatever it is answered.

* `Prog.Asks`: every question that the program can ask has a property; `Asks.mono`, `Asks.bind`.
* **`Asks.run`**: the history grows by such questions only.
-/

set_option autoImplicit false

namespace Interaction

variable {Q A α β : Type} {P R : Q → Prop}

namespace Prog

/-- **Every question that the program can ask has the property.** -/
def Asks (P : Q → Prop) : Prog Q A α → Prop
  | ret _ => True
  | ask q k => P q ∧ ∀ a, Asks P (k a)

theorem Asks.mono {p : Prog Q A α} (h : p.Asks P) (hPR : ∀ q, P q → R q) : p.Asks R := by
  induction p with
  | ret a => trivial
  | ask q k ih => exact ⟨hPR q h.1, fun a => ih a (h.2 a)⟩

theorem Asks.bind {p : Prog Q A α} {f : α → Prog Q A β} (hp : p.Asks P)
    (hf : ∀ a, (f a).Asks P) : (p >>= f).Asks P := by
  induction p with
  | ret a => exact hf a
  | ask q k ih => exact ⟨hp.1, fun a => ih a (hp.2 a)⟩

end Prog

/-- **The history grows by such questions only.** -/
theorem Prog.Asks.run {p : Prog Q A α} (h : p.Asks P) (o : Oracle Q A) (hist : History Q A) :
    ∀ e ∈ (Interaction.run o p hist).2, e ∈ hist ∨ P e.1 := by
  induction p generalizing hist with
  | ret a => exact fun e he => Or.inl he
  | ask q k ih =>
    intro e he
    rcases ih _ (h.2 (o hist q)) (hist ++ [(q, o hist q)]) e he with he | he
    · rcases List.mem_append.mp he with he | he
      · exact Or.inl he
      · obtain rfl := List.mem_singleton.mp he
        exact Or.inr h.1
    · exact Or.inr he

end Interaction
