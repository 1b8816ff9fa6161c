import Mathlib.Data.List.Forall2
import Mathlib.Control.Basic

/-!
# Interaction programs

A program of type `Prog Q A α` asks questions of type `Q`, receives answers of type `A` and ends
with a result. The questions are answered by an `Oracle`, which sees every question and answer so
far; nothing else is known about it.

* `run`, `run_bind`: the result of a program and the history it leaves.
* `Match`: two programs that ask related questions; **`Match.run`**: against oracles that answer
  related questions alike after related histories, they end with related results and related
  histories. This is the two-run rule for non-interference.
-/

set_option autoImplicit false

namespace Interaction

/-- A program that asks questions `Q`, gets answers `A` and returns an `α`. -/
inductive Prog (Q A α : Type) : Type where
  | ret (a : α) : Prog Q A α
  | ask (q : Q) (k : A → Prog Q A α) : Prog Q A α

/-- The questions asked so far with their answers, oldest first. -/
abbrev History (Q A : Type) := List (Q × A)

/-- What answers the questions. -/
abbrev Oracle (Q A : Type) := History Q A → Q → A

variable {Q A α β γ : Type}

namespace Prog

/-- Sequencing. -/
def bind : Prog Q A α → (α → Prog Q A β) → Prog Q A β
  | ret a, f => f a
  | ask q k, f => ask q fun a => bind (k a) f

instance : Monad (Prog Q A) where
  pure := ret
  bind := bind

@[simp] theorem ask_bind (q : Q) (k : A → Prog Q A α) (f : α → Prog Q A β) :
    ask q k >>= f = ask q fun a => k a >>= f := rfl

theorem bind_ret (p : Prog Q A α) : p >>= ret = p := by
  induction p with
  | ret a => rfl
  | ask q k ih => rw [ask_bind]; congr 1; funext a; exact ih a

theorem bind_assoc (p : Prog Q A α) (f : α → Prog Q A β) (g : β → Prog Q A γ) :
    p >>= f >>= g = p >>= fun a => f a >>= g := by
  induction p with
  | ret a => rfl
  | ask q k ih => simp only [ask_bind]; congr 1; funext a; exact ih a

instance : LawfulMonad (Prog Q A) :=
  LawfulMonad.mk' _ (fun p => bind_ret p) (fun _ _ => rfl) bind_assoc

/-- Ask one question. -/
def query (q : Q) : Prog Q A A := ask q ret

end Prog

open Prog

/-- Run a program after a history: its result and the history it leaves. -/
def run (o : Oracle Q A) : Prog Q A α → History Q A → α × History Q A
  | ret a, h => (a, h)
  | ask q k, h => run o (k (o h q)) (h ++ [(q, o h q)])

@[simp] theorem run_ask (o : Oracle Q A) (q : Q) (k : A → Prog Q A α) (h : History Q A) :
    run o (ask q k) h = run o (k (o h q)) (h ++ [(q, o h q)]) := rfl

theorem run_bind (o : Oracle Q A) (p : Prog Q A α) (f : α → Prog Q A β) (h : History Q A) :
    run o (p >>= f) h = run o (f (run o p h).1) (run o p h).2 := by
  induction p generalizing h with
  | ret a => rfl
  | ask q k ih => exact ih _ _

/-! ## Two runs side by side -/

section TwoRuns

variable (S : Q → Q → Prop)

/-- Histories that agree up to `S` on the questions and exactly on the answers. -/
def SameHistory : History Q A → History Q A → Prop :=
  List.Forall₂ fun e₁ e₂ => S e₁.1 e₂.1 ∧ e₁.2 = e₂.2

/-- An oracle that cannot tell `S`-related questions apart. -/
def Blind (o : Oracle Q A) : Prop :=
  ∀ ⦃h₁ h₂ : History Q A⦄, SameHistory S h₁ h₂ → ∀ ⦃q₁ q₂ : Q⦄, S q₁ q₂ → o h₁ q₁ = o h₂ q₂

/-- Programs that ask `S`-related questions, go on alike after equal answers and end with
`R`-related results. -/
inductive Match (R : α → β → Prop) : Prog Q A α → Prog Q A β → Prop where
  | ret {a : α} {b : β} : R a b → Match R (ret a) (ret b)
  | ask {q₁ q₂ : Q} {k₁ : A → Prog Q A α} {k₂ : A → Prog Q A β} :
      S q₁ q₂ → (∀ a, Match R (k₁ a) (k₂ a)) → Match R (ask q₁ k₁) (ask q₂ k₂)

variable {S}

theorem SameHistory.nil : SameHistory S ([] : History Q A) [] := List.Forall₂.nil

theorem SameHistory.snoc {h₁ h₂ : History Q A} (hh : SameHistory S h₁ h₂) {q₁ q₂ : Q}
    (hq : S q₁ q₂) (a : A) : SameHistory S (h₁ ++ [(q₁, a)]) (h₂ ++ [(q₂, a)]) :=
  List.rel_append hh (.cons ⟨hq, rfl⟩ .nil)

theorem Match.refl (hS : ∀ q, S q q) {R : α → α → Prop} (hR : ∀ a, R a a) (p : Prog Q A α) :
    Match S R p p := by
  induction p with
  | ret a => exact .ret (hR a)
  | ask q k ih => exact .ask (hS q) ih

theorem Match.bind {α' β' : Type} {R : α → α' → Prop} {R' : β → β' → Prop} {p₁ : Prog Q A α}
    {p₂ : Prog Q A α'} (hp : Match S R p₁ p₂) {f₁ : α → Prog Q A β} {f₂ : α' → Prog Q A β'}
    (hf : ∀ a b, R a b → Match S R' (f₁ a) (f₂ b)) : Match S R' (p₁ >>= f₁) (p₂ >>= f₂) := by
  induction hp with
  | ret h => exact hf _ _ h
  | ask hq _ ih => exact .ask hq ih

/-- **The two-run rule.** Matching programs, run against a blind oracle after histories that
agree, end with related results and with histories that agree. -/
theorem Match.run {R : α → β → Prop} {o : Oracle Q A} (ho : Blind S o) {p₁ : Prog Q A α}
    {p₂ : Prog Q A β} (hp : Match S R p₁ p₂) :
    ∀ {h₁ h₂ : History Q A}, SameHistory S h₁ h₂ →
      R (run o p₁ h₁).1 (run o p₂ h₂).1 ∧ SameHistory S (run o p₁ h₁).2 (run o p₂ h₂).2 := by
  induction hp with
  | ret h => exact fun hh => ⟨h, hh⟩
  | @ask q₁ q₂ k₁ k₂ hq _ ih =>
    intro h₁ h₂ hh
    have ha : o h₁ q₁ = o h₂ q₂ := ho hh hq
    rw [run_ask, run_ask, ← ha]
    exact ih _ (hh.snoc hq _)

end TwoRuns

end Interaction
