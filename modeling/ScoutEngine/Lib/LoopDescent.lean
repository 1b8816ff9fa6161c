import Mathlib.Algebra.Order.Monoid.Unbundled.WithTop
import Mathlib.Data.DFinsupp.WellFounded
import Mathlib.Order.WithBot

/-!
# Termination of an index with a stack of loops

A position is an index with a stack of loop frames, each a start and a number of repetitions left.
The index moves forward, opens a loop at its start, goes back to the start of the top frame, or
leaves the top frame. Bodies may overlap, and frames may stay behind on the stack.

* `Pos`, `Ok`, `Step`; `Step.ok`: the starts on the stack increase and do not exceed the index.
* `coord p l`: what is left of the loop that starts after `l`: its repetitions, nothing once it was
  passed, everything before it.
* **`Step.descends`**: every step decreases the coordinates lexicographically.
* **`wellFounded_descent`**: with a counter for the moves that do not change the position, every
  run ends.
-/

set_option autoImplicit false

namespace LoopDescent

/-- An index and the frames, top first: start of the body and repetitions left. -/
structure Pos where
  idx : ℕ
  frames : List (ℕ × ℕ)

/-- The starts are positive, decrease from the top down, and do not exceed the index. -/
structure Ok (p : Pos) : Prop where
  sorted : p.frames.Pairwise fun f g => g.1 < f.1
  pos : ∀ f ∈ p.frames, 1 ≤ f.1
  le : ∀ f ∈ p.frames, f.1 ≤ p.idx

/-- One step. -/
inductive Step : Pos → Pos → Prop where
  | forward {i j : ℕ} {S : List (ℕ × ℕ)} (h : i < j) : Step ⟨i, S⟩ ⟨j, S⟩
  | enter {i r : ℕ} {S : List (ℕ × ℕ)} : Step ⟨i, S⟩ ⟨i + 1, (i + 1, r) :: S⟩
  | wrap {i b r : ℕ} {S : List (ℕ × ℕ)} : Step ⟨i, (b, r + 1) :: S⟩ ⟨b, (b, r) :: S⟩
  | leave {i j b : ℕ} {S : List (ℕ × ℕ)} (h : i < j) : Step ⟨i, (b, 0) :: S⟩ ⟨j, S⟩

theorem Step.ok {p q : Pos} (h : Step p q) (hp : Ok p) : Ok q := by
  obtain ⟨hs, h1, hle⟩ := hp
  cases h with
  | @forward i j S hij => exact ⟨hs, h1, fun f hf => (hle f hf).trans hij.le⟩
  | @enter i r S =>
    refine ⟨List.pairwise_cons.mpr ⟨fun f hf => Nat.lt_succ_of_le (hle f hf), hs⟩, ?_, ?_⟩
    · intro f hf
      rcases List.mem_cons.mp hf with rfl | hf
      · exact Nat.succ_pos i
      · exact h1 f hf
    · intro f hf
      rcases List.mem_cons.mp hf with rfl | hf
      · exact le_rfl
      · exact (hle f hf).trans (Nat.le_succ i)
  | @wrap i b r S =>
    obtain ⟨htop, hs⟩ := List.pairwise_cons.mp hs
    refine ⟨List.pairwise_cons.mpr ⟨htop, hs⟩, ?_, ?_⟩
    · intro f hf
      rcases List.mem_cons.mp hf with rfl | hf
      · exact h1 (b, r + 1) List.mem_cons_self
      · exact h1 f (List.mem_cons_of_mem _ hf)
    · intro f hf
      rcases List.mem_cons.mp hf with rfl | hf
      · exact le_rfl
      · exact (htop f hf).le
  | @leave i j b S hij =>
    exact ⟨(List.pairwise_cons.mp hs).2, fun f hf => h1 f (List.mem_cons_of_mem _ hf),
      fun f hf => (hle f (List.mem_cons_of_mem _ hf)).trans hij.le⟩

/-- What is left of the loop whose body starts at `l + 1`. -/
def coord (p : Pos) (l : ℕ) : WithTop ℕ :=
  match p.frames.find? (·.1 = l + 1) with
  | some f => (f.2 : WithTop ℕ)
  | none => if p.idx ≤ l then ⊤ else ((0 : ℕ) : WithTop ℕ)

section Coord

variable {i l : ℕ} {S : List (ℕ × ℕ)}

theorem coord_top {b r : ℕ} (h : b = l + 1) : coord ⟨i, (b, r) :: S⟩ l = (r : WithTop ℕ) := by
  rw [coord, List.find?_cons_of_pos (by simpa using h)]

theorem coord_skip {f : ℕ × ℕ} (h : f.1 ≠ l + 1) : coord ⟨i, f :: S⟩ l = coord ⟨i, S⟩ l := by
  rw [coord, List.find?_cons_of_neg (by simpa using h), coord]

/-- Only the side of `l` on which the index is matters. -/
theorem coord_idx {j : ℕ} (hi : l < i) (hj : l < j) : coord ⟨i, S⟩ l = coord ⟨j, S⟩ l := by
  unfold coord
  dsimp only
  rw [if_neg (Nat.not_le.mpr hi), if_neg (Nat.not_le.mpr hj)]

theorem find?_eq_none_of_lt {b : ℕ} (h : ∀ f ∈ S, f.1 < b) : S.find? (·.1 = b) = none :=
  List.find?_eq_none.mpr fun f hf => by simpa using (h f hf).ne

theorem coord_before (h : ∀ f ∈ S, f.1 ≤ i) : coord ⟨i, S⟩ i = ⊤ := by
  unfold coord
  dsimp only
  rw [find?_eq_none_of_lt fun f hf => Nat.lt_succ_of_le (h f hf), if_pos le_rfl]

theorem coord_behind (hl : l < i) (h : ∀ f ∈ S, f.1 ≠ l + 1) :
    coord ⟨i, S⟩ l = ((0 : ℕ) : WithTop ℕ) := by
  unfold coord
  dsimp only
  rw [List.find?_eq_none.mpr fun f hf => by simpa using h f hf, if_neg (Nat.not_le.mpr hl)]

end Coord

/-- The lexicographic order of the coordinates. -/
def Lower (n : ℕ) : (Fin n → WithTop ℕ) → (Fin n → WithTop ℕ) → Prop := Pi.Lex (· < ·) (· < ·)

/-- The coordinates below `n`. -/
def coords (n : ℕ) (p : Pos) : Fin n → WithTop ℕ := fun l => coord p l

/-- **Every step below `n` decreases the coordinates lexicographically.** -/
theorem Step.descends {n : ℕ} {p q : Pos} (h : Step p q) (hp : Ok p) (hn : p.idx < n) :
    Lower n (coords n q) (coords n p) := by
  obtain ⟨hs, h1, hle⟩ := hp
  cases h with
  | @forward i j S hij =>
    refine ⟨⟨i, hn⟩, fun l hl => coord_idx (lt_trans hl hij) hl, ?_⟩
    change coord _ i < coord _ i
    rw [coord_before hle, coord_behind hij fun f hf => (Nat.lt_succ_of_le (hle f hf)).ne]
    exact WithTop.coe_lt_top 0
  | @enter i r S =>
    refine ⟨⟨i, hn⟩, fun l hl => ?_, ?_⟩
    · have hl' : (l : ℕ) < i := hl
      change coord _ l = coord _ l
      rw [coord_skip (by dsimp only; omega)]
      exact coord_idx (Nat.lt_succ_of_lt hl') hl'
    · change coord _ i < coord _ i
      rw [coord_before hle, coord_top rfl]
      exact WithTop.coe_lt_top r
  | @wrap i b r S =>
    have hb1 : 1 ≤ b := h1 _ List.mem_cons_self
    have hbi : b ≤ i := hle _ List.mem_cons_self
    refine ⟨⟨b - 1, by dsimp only at hn; omega⟩, fun l hl => ?_, ?_⟩
    · have hl' : (l : ℕ) < b - 1 := hl
      change coord _ l = coord _ l
      rw [coord_skip (by dsimp only; omega), coord_skip (by dsimp only; omega)]
      exact coord_idx (by omega) (by omega)
    · change coord _ (b - 1) < coord _ (b - 1)
      rw [coord_top (by omega), coord_top (by omega)]
      exact WithTop.coe_lt_coe.mpr (Nat.lt_succ_self r)
  | @leave i j b S hij =>
    have hb1 : 1 ≤ b := h1 _ List.mem_cons_self
    have hbi : b ≤ i := hle _ List.mem_cons_self
    have htop := (List.pairwise_cons.mp hs).1
    refine ⟨⟨i, hn⟩, fun l hl => ?_, ?_⟩
    · have hl' : (l : ℕ) < i := hl
      change coord _ l = coord _ l
      by_cases hlb : b = l + 1
      · -- the loop that is left had no repetitions left
        rw [coord_top hlb, coord_behind (by omega) fun f hf => hlb ▸ (htop f hf).ne]
      · rw [coord_skip hlb]
        exact coord_idx (lt_trans hl' hij) hl'
    · change coord _ i < coord _ i
      rw [coord_before hle,
        coord_behind hij fun f hf => (Nat.lt_succ_of_le (hle f (List.mem_cons_of_mem _ hf))).ne]
      exact WithTop.coe_lt_top 0

/-- A step below `n`, or a smaller counter at the same position. -/
def Descent (n : ℕ) (y x : Pos × ℕ) : Prop :=
  Ok x.1 ∧ x.1.idx < n ∧ Step x.1 y.1 ∨ y.1 = x.1 ∧ y.2 < x.2

/-- **There is no endless descent.** -/
theorem wellFounded_descent (n : ℕ) : WellFounded (Descent n) := by
  have hlex : WellFounded (Prod.Lex (Lower n) (· < · : ℕ → ℕ → Prop)) :=
    WellFounded.prod_lex (Pi.Lex.wellFounded _ fun _ => wellFounded_lt) wellFounded_lt
  refine Subrelation.wf ?_ (InvImage.wf (fun x : Pos × ℕ => (coords n x.1, x.2)) hlex)
  rintro ⟨q, k'⟩ ⟨p, k⟩ (⟨hok, hn, hstep⟩ | ⟨hq, hk⟩)
  · exact Prod.Lex.left _ _ (hstep.descends hok hn)
  · dsimp only at hq hk
    subst hq
    exact Prod.Lex.right _ hk

end LoopDescent
