import Mathlib.Logic.Function.Iterate
import Mathlib.Data.Nat.Find
import Mathlib.Order.Basic

/-!
# Structured loops on an index with a stack

A program is a list of steps, some of which head a loop: the length of its body follows. A machine
executes it with an index and a stack of loop frames, of which only the top one is looked at, after
a step that is no loop head.

* `Machine`, `Config`, `Machine.step`: the machine; `Machine.land` looks at the top frame.
* `Block`: structured programs; `Block.LaidOut`: where a block stands; **`Machine.Nested.block`**:
  properly nested loops are the layout of a block.
* `Machine.exec`: the structured meaning, for each item in order run the body once.
* `Machine.Safe`: no loop that gets items has a body whose last element leaves the frame untested.
* **`Machine.runs`**: a safe block runs as its structured meaning says; an unsafe one gets stuck,
  with a frame that stays on the stack for good (`Stuck.stack_ne_nil`).
-/

set_option autoImplicit false

namespace LoopStack

variable {S P : Type}

/-! ## The machine -/

/-- A loop in progress: its data, the item it is at, the first and the last index of its body. -/
structure Frame (P : Type) where
  data : P
  pos : ℕ
  first : ℕ
  last : ℕ

/-- The index, the frames with the top first, and the state that the steps work on. -/
structure Config (S P : Type) where
  idx : ℕ
  stack : List (Frame P)
  state : S

/-- A program and what its steps do. -/
structure Machine (S P : Type) where
  size : ℕ
  /-- The length of the body, if the step heads a loop. -/
  body : ℕ → Option ℕ
  /-- The top frame is looked at after the step. -/
  tested : ℕ → Bool
  run : ℕ → S → S
  /-- The data of the loop that a step heads. -/
  load : ℕ → S → P
  /-- The number of items. -/
  count : P → ℕ
  bind : P → ℕ → S → S

namespace Machine

variable (M : Machine S P)

/-- Go on at an index, unless the body of the top frame ends right before it. -/
def land (j : ℕ) (K : List (Frame P)) (s : S) : Config S P :=
  match K with
  | [] => ⟨j, [], s⟩
  | F :: K =>
    if j = F.last + 1 then
      if F.pos + 1 < M.count F.data then
        ⟨F.first, { F with pos := F.pos + 1 } :: K, M.bind F.data (F.pos + 1) s⟩
      else ⟨j, K, s⟩
    else ⟨j, F :: K, s⟩

/-- One step; past the end nothing happens. -/
def step (γ : Config S P) : Config S P :=
  if γ.idx < M.size then
    match M.body γ.idx with
    | some m =>
      let p := M.load γ.idx γ.state
      if M.count p = 0 then ⟨γ.idx + m + 1, γ.stack, M.run γ.idx γ.state⟩
      else
        ⟨γ.idx + 1, ⟨p, 0, γ.idx + 1, γ.idx + m⟩ :: γ.stack, M.bind p 0 (M.run γ.idx γ.state)⟩
    | none =>
      if M.tested γ.idx then M.land (γ.idx + 1) γ.stack (M.run γ.idx γ.state)
      else ⟨γ.idx + 1, γ.stack, M.run γ.idx γ.state⟩
  else γ

/-- Some number of steps lead from one configuration to another. -/
def Reaches (γ γ' : Config S P) : Prop := ∃ n, M.step^[n] γ = γ'

variable {M}

theorem Reaches.refl (γ : Config S P) : M.Reaches γ γ := ⟨0, rfl⟩

theorem Reaches.trans {α β γ : Config S P} (h : M.Reaches α β) (h' : M.Reaches β γ) :
    M.Reaches α γ := by
  obtain ⟨n, rfl⟩ := h
  obtain ⟨k, rfl⟩ := h'
  exact ⟨k + n, Function.iterate_add_apply _ _ _ _⟩

theorem Reaches.step {γ δ : Config S P} (h : M.Reaches (M.step γ) δ) : M.Reaches γ δ := by
  obtain ⟨n, rfl⟩ := h
  exact ⟨n + 1, rfl⟩

section Step

variable {i m : ℕ} {K : List (Frame P)} {s : S}

theorem step_skip (hi : i < M.size) (hb : M.body i = some m) (h0 : M.count (M.load i s) = 0) :
    M.step ⟨i, K, s⟩ = ⟨i + m + 1, K, M.run i s⟩ := by
  simp only [Machine.step, hi, hb, h0, if_true]

theorem step_enter (hi : i < M.size) (hb : M.body i = some m) (h0 : M.count (M.load i s) ≠ 0) :
    M.step ⟨i, K, s⟩ = ⟨i + 1, ⟨M.load i s, 0, i + 1, i + m⟩ :: K,
      M.bind (M.load i s) 0 (M.run i s)⟩ := by
  simp only [Machine.step, hi, hb, h0, if_true, if_false]

theorem step_tested (hi : i < M.size) (hb : M.body i = none) (ht : M.tested i = true) :
    M.step ⟨i, K, s⟩ = M.land (i + 1) K (M.run i s) := by
  simp only [Machine.step, hi, hb, ht, if_true]

theorem step_untested (hi : i < M.size) (hb : M.body i = none) (ht : M.tested i = false) :
    M.step ⟨i, K, s⟩ = ⟨i + 1, K, M.run i s⟩ := by
  simp only [Machine.step, hi, hb, ht, if_true, Bool.false_eq_true, if_false]

theorem step_of_size_le (hi : M.size ≤ i) : M.step ⟨i, K, s⟩ = ⟨i, K, s⟩ := by
  simp only [Machine.step, Nat.not_lt.mpr hi, if_false]

theorem land_inside (h : ∀ F ∈ K.head?, i ≠ F.last + 1) : M.land i K s = ⟨i, K, s⟩ := by
  cases K with
  | nil => rfl
  | cons F K => exact if_neg (h F rfl)

theorem step_inside (hi : i < M.size) (hb : M.body i = none) (h : ∀ F ∈ K.head?, i ≠ F.last) :
    M.step ⟨i, K, s⟩ = ⟨i + 1, K, M.run i s⟩ := by
  cases ht : M.tested i with
  | true =>
    rw [step_tested hi hb ht, land_inside]
    exact fun F hF he => h F hF (Nat.succ.inj he)
  | false => exact step_untested hi hb ht

end Step

end Machine

/-! ## Blocks -/

/-- A structured program. -/
inductive Block where
  | done
  | step (rest : Block)
  | loop (body rest : Block)

namespace Block

/-- The number of steps. -/
def size : Block → ℕ
  | done => 0
  | step rest => rest.size + 1
  | loop body rest => body.size + rest.size + 1

/-- The last element is an ordinary step. -/
def endsInStep : Block → Bool
  | done => false
  | step rest => rest.size = 0 || rest.endsInStep
  | loop _ rest => rest.endsInStep

/-- The block stands at an index. -/
def LaidOut (M : Machine S P) : Block → ℕ → Prop
  | done, _ => True
  | step rest, i => M.body i = none ∧ rest.LaidOut M (i + 1)
  | loop body rest, i => M.body i = some body.size ∧ 1 ≤ body.size ∧ body.LaidOut M (i + 1) ∧
      rest.LaidOut M (i + 1 + body.size)

theorem eq_done : ∀ {b : Block}, b.size = 0 → b = done
  | done, _ => rfl

/-- The layout determines the block. -/
theorem LaidOut.unique {M : Machine S P} {b b' : Block} {i : ℕ} (h : b.LaidOut M i)
    (h' : b'.LaidOut M i) (hs : b.size = b'.size) : b = b' := by
  induction b generalizing b' i with
  | done => exact (eq_done hs.symm).symm
  | step rest ih =>
    cases b' with
    | done => cases hs
    | step rest' => rw [ih h.2 h'.2 (Nat.succ_injective hs)]
    | loop body' rest' => cases h.1.symm.trans h'.1
  | loop body rest ihBody ihRest =>
    cases b' with
    | done => cases hs
    | step rest' => cases h.1.symm.trans h'.1
    | loop body' rest' =>
      have hbody : body.size = body'.size := Option.some.inj (h.1.symm.trans h'.1)
      have hrest : rest.size = rest'.size := by
        simp only [size] at hs
        omega
      rw [ihBody h.2.2.1 h'.2.2.1 hbody, ihRest h.2.2.2 (hbody ▸ h'.2.2.2) hrest]

theorem LaidOut.inside {M : Machine S P} {b : Block} {i x m : ℕ} (h : b.LaidOut M i) (hx : i ≤ x)
    (hlt : x < i + b.size) (hb : M.body x = some m) : 1 ≤ m ∧ x + m < i + b.size := by
  induction b generalizing i with
  | done => exact absurd hlt (Nat.not_lt.mpr hx)
  | step rest ih =>
    obtain ⟨hi, hr⟩ := h
    have hne : x ≠ i := by
      rintro rfl
      exact Option.some_ne_none m (hb.symm.trans hi)
    have := ih hr (by omega) (by rw [size] at hlt; omega)
    rw [size]
    omega
  | loop body rest ihb ihr =>
    obtain ⟨hi, h1, hbody, hr⟩ := h
    rw [size] at hlt ⊢
    rcases Nat.lt_trichotomy x i with h | h | h
    · omega
    · subst h
      obtain rfl := Option.some.inj (hi.symm.trans hb)
      omega
    · by_cases hx : x < i + 1 + body.size
      · have := ihb hbody h (by omega)
        omega
      · have := ihr hr (by omega) (by omega)
        omega

end Block

/-! ## Properly nested loops -/

/-- Every loop has a body, which lies inside the program, and inside the body of every loop that it
stands in. -/
structure Machine.Nested (M : Machine S P) : Prop where
  pos : ∀ l m, l < M.size → M.body l = some m → 1 ≤ m
  inside : ∀ l m, l < M.size → M.body l = some m → l + m < M.size
  nested : ∀ l m x k, l < M.size → M.body l = some m → l < x → x ≤ l + m → M.body x = some k →
    x + k ≤ l + m

/-- An interval that no loop leaves is the layout of a block. -/
theorem Machine.Nested.interval {M : Machine S P} (h : M.Nested) : ∀ d i : ℕ, i + d ≤ M.size →
    (∀ x m, i ≤ x → x < i + d → M.body x = some m → x + m < i + d) →
    ∃ b : Block, b.LaidOut M i ∧ b.size = d := by
  intro d
  induction d using Nat.strong_induction_on with
  | _ d ih =>
    intro i hd hclosed
    cases d with
    | zero => exact ⟨.done, trivial, rfl⟩
    | succ d =>
      cases hb : M.body i with
      | none =>
        obtain ⟨b, hl, hs⟩ := ih d (Nat.lt_succ_self d) (i + 1) (by omega) fun x m hx hlt hm => by
          have := hclosed x m (by omega) (by omega) hm
          omega
        exact ⟨.step b, ⟨hb, hl⟩, by rw [Block.size, hs]⟩
      | some m =>
        have hm := hclosed i m le_rfl (by omega) hb
        obtain ⟨b, hl, hs⟩ := ih m (by omega) (i + 1) (by omega) fun x k hx hlt hk => by
          have := h.nested i m x k (by omega) hb (by omega) (by omega) hk
          omega
        obtain ⟨r, hr, hrs⟩ := ih (d - m) (by omega) (i + 1 + m) (by omega)
          fun x k hx hlt hk => by
            have := hclosed x k (by omega) (by omega) hk
            omega
        refine ⟨.loop b r, ⟨hs.symm ▸ hb, hs.symm ▸ h.pos i m (by omega) hb, hl, hs.symm ▸ hr⟩, ?_⟩
        rw [Block.size, hs, hrs]
        omega

/-- **Properly nested loops are the layout of a block.** -/
theorem Machine.Nested.block {M : Machine S P} (h : M.Nested) :
    ∃ b : Block, b.LaidOut M 0 ∧ b.size = M.size :=
  h.interval M.size 0 (by omega) fun x m _ hlt hm => by
    have := h.inside x m (by omega) hm
    omega

/-! ## The structured meaning -/

namespace Machine

variable (M : Machine S P)

/-- Run a body once for each of the first items, in order. -/
def rounds (p : P) (body : S → S) : ℕ → S → S
  | 0, s => s
  | j + 1, s => body (M.bind p j (rounds p body j s))

/-- **The structured meaning** of a block at an index: for each item in order run the body once. -/
def exec : Block → ℕ → S → S
  | .done, _, s => s
  | .step rest, i, s => exec rest (i + 1) (M.run i s)
  | .loop body rest, i, s =>
    exec rest (i + 1 + body.size)
      (M.rounds (M.load i s) (exec body (i + 1)) (M.count (M.load i s)) (M.run i s))

/-- The last element of a body at an index looks at the frame. -/
def EndsTested (b : Block) (i : ℕ) : Prop := b.endsInStep = true ∧ M.tested (i + b.size) = true

/-- **No loop that gets items has a body whose last element leaves the frame untested.** -/
def Safe : Block → ℕ → S → Prop
  | .done, _, _ => True
  | .step rest, i, s => Safe rest (i + 1) (M.run i s)
  | .loop body rest, i, s =>
    let p := M.load i s
    let after := fun j => M.rounds p (M.exec body (i + 1)) j (M.run i s)
    (0 < M.count p → M.EndsTested body i) ∧
      (∀ j < M.count p, Safe body (i + 1) (M.bind p j (after j))) ∧
        Safe rest (i + 1 + body.size) (after (M.count p))

instance decidableSafe : (b : Block) → (i : ℕ) → (s : S) → Decidable (M.Safe b i s)
  | .done, _, _ => .isTrue trivial
  | .step rest, i, s => decidableSafe rest (i + 1) (M.run i s)
  | .loop body rest, i, s =>
    haveI := fun j => decidableSafe body (i + 1) (M.bind (M.load i s) j
      (M.rounds (M.load i s) (M.exec body (i + 1)) j (M.run i s)))
    haveI := decidableSafe rest (i + 1 + body.size)
      (M.rounds (M.load i s) (M.exec body (i + 1)) (M.count (M.load i s)) (M.run i s))
    inferInstanceAs (Decidable ((_ → _ ∧ _) ∧ (∀ j < _, _) ∧ _))

end Machine

/-! ## Stuck frames -/

/-- The element at `p` is the last one of the body that ends at `e`, and it does not look at the
frame. -/
structure Final (M : Machine S P) (l p e : ℕ) : Prop where
  lt : l < p
  le : p ≤ e
  before : ∀ x m, l < x → x < p → M.body x = some m → x + m < p
  untested : (∃ m, M.body p = some m ∧ p + m = e) ∨
    p = e ∧ M.body p = none ∧ M.tested p = false

theorem exists_final {M : Machine S P} {b : Block} {l : ℕ} (h : b.LaidOut M (l + 1))
    (h1 : 1 ≤ b.size) (hn : ¬ M.EndsTested b l) : ∃ p, Final M l p (l + b.size) := by
  induction b generalizing l with
  | done => exact absurd h1 (by decide)
  | step rest ih =>
    obtain ⟨hi, hr⟩ := h
    by_cases h0 : rest.size = 0
    · refine ⟨l + 1, Nat.lt_succ_self l, by rw [Block.size]; omega, fun x m hx hlt => by omega, ?_⟩
      refine Or.inr ⟨by rw [Block.size, h0], hi, ?_⟩
      refine Bool.eq_false_iff.mpr fun ht => hn ⟨?_, ?_⟩
      · rw [Block.endsInStep, h0]
        rfl
      · rw [Block.size, h0]
        exact ht
    · have hsz : l + (Block.step rest).size = l + 1 + rest.size := by rw [Block.size]; omega
      obtain ⟨p, hp⟩ := ih hr (Nat.one_le_iff_ne_zero.mpr h0) fun he => hn (by
        refine ⟨?_, hsz ▸ he.2⟩
        rw [Block.endsInStep, he.1, Bool.or_true])
      refine ⟨p, by have := hp.lt; omega, hsz ▸ hp.le, fun x m hx hlt hm => ?_, hsz ▸ hp.untested⟩
      have hne : x ≠ l + 1 := by
        rintro rfl
        exact Option.some_ne_none m (hm.symm.trans hi)
      exact hp.before x m (by omega) hlt hm
  | loop body rest ihb ihr =>
    obtain ⟨hi, hb1, hb, hr⟩ := h
    by_cases h0 : rest.size = 0
    · refine ⟨l + 1, Nat.lt_succ_self l, by rw [Block.size]; omega, fun x m hx hlt => by omega, ?_⟩
      exact Or.inl ⟨body.size, hi, by rw [Block.size, h0]; omega⟩
    · have hsz : l + (Block.loop body rest).size = l + 1 + body.size + rest.size := by
        rw [Block.size]
        omega
      rw [show l + 1 + 1 + body.size = l + 1 + body.size + 1 by omega] at hr
      obtain ⟨p, hp⟩ := ihr hr (Nat.one_le_iff_ne_zero.mpr h0) fun he => hn ⟨he.1, hsz ▸ he.2⟩
      have hlt := hp.lt
      refine ⟨p, by omega, hsz ▸ hp.le, fun x m hx hxp hm => ?_, hsz ▸ hp.untested⟩
      rcases Nat.lt_trichotomy x (l + 1) with h | h | h
      · omega
      · subst h
        obtain rfl := Option.some.inj (hi.symm.trans hm)
        omega
      · by_cases hin : x < l + 1 + 1 + body.size
        · have := hb.inside h hin hm
          omega
        · exact hp.before x m (by omega) hxp hm

/-- A frame `F` that is never looked at again, below the frames `U` of later loops. -/
structure Stuck (M : Machine S P) (l p e : ℕ) (U : List (Frame P)) (γ : Config S P) : Prop where
  final : Final M l p e
  inside : ∀ x m, l < x → x ≤ e → M.body x = some m → 1 ≤ m ∧ x + m ≤ e
  above : ∀ g ∈ U, ∃ x m, l < x ∧ M.body x = some m ∧ g.first = x + 1 ∧ g.last = x + m
  /-- The index is behind the body, or before its last element, or in a loop that is its last
  element and that has a frame. -/
  place : e < γ.idx ∨ l < γ.idx ∧ γ.idx ≤ e ∧ (p < γ.idx → ∃ g ∈ U, g.first = p + 1)
  stack : ∃ F K, γ.stack = U ++ F :: K ∧ F.last = e

theorem Stuck.stack_ne_nil {M : Machine S P} {l p e : ℕ} {U : List (Frame P)} {γ : Config S P}
    (h : Stuck M l p e U γ) : γ.stack ≠ [] := by
  obtain ⟨F, K, hs, -⟩ := h.stack
  rw [hs]
  exact List.append_ne_nil_of_right_ne_nil _ (List.cons_ne_nil _ _)

section Stuck

variable {M : Machine S P} {l p e i : ℕ} {U K : List (Frame P)} {s : S}

/-- An ordinary step inside the body is not the last element of it. -/
theorem Final.ne_of_lt (h : Final M l p e) (hb : M.body i = none) (hi : i < e) : p ≠ i := by
  rintro rfl
  rcases h.untested with ⟨m, hm, -⟩ | ⟨he, -⟩
  · exact Option.some_ne_none m (hm.symm.trans hb)
  · omega

/-- An ordinary step that tests does not meet the stuck frame on top at the end of its body. -/
theorem Stuck.ne_last (h : Stuck M l p e [] ⟨i, K, s⟩) (hb : M.body i = none)
    (ht : M.tested i = true) : i ≠ e := by
  rintro rfl
  rcases h.place with hlt | ⟨-, -, hp⟩
  · exact lt_irrefl i hlt
  · have hpi : p = i := by
      by_contra hne
      obtain ⟨g, hg, -⟩ := hp (lt_of_le_of_ne h.final.le hne)
      exact List.not_mem_nil hg
    subst hpi
    rcases h.final.untested with ⟨m, hm, -⟩ | ⟨-, -, hu⟩
    · exact Option.some_ne_none m (hm.symm.trans hb)
    · exact Bool.false_ne_true (hu.symm.trans ht)

theorem Stuck.forward (h : Stuck M l p e U ⟨i, K, s⟩) (hb : M.body i = none) (s' : S) :
    Stuck M l p e U ⟨i + 1, K, s'⟩ := by
  refine ⟨h.final, h.inside, h.above, ?_, h.stack⟩
  rcases h.place with hlt | ⟨hl, hle, hp⟩
  · exact Or.inl (Nat.lt_succ_of_lt hlt)
  · rcases Nat.lt_or_eq_of_le hle with hlt | heq
    · have hne := h.final.ne_of_lt hb hlt
      dsimp only at *
      exact Or.inr ⟨by omega, by omega, fun hpi => hp (by omega)⟩
    · exact Or.inl (heq ▸ Nat.lt_succ_self i)

theorem Stuck.skip {m : ℕ} (h : Stuck M l p e U ⟨i, K, s⟩) (hb : M.body i = some m) (s' : S) :
    Stuck M l p e U ⟨i + m + 1, K, s'⟩ := by
  refine ⟨h.final, h.inside, h.above, ?_, h.stack⟩
  rcases h.place with hlt | ⟨hl, hle, hp⟩
  · exact Or.inl (by dsimp only at *; omega)
  · dsimp only at *
    have hin := h.inside i m hl hle hb
    rcases Nat.lt_or_eq_of_le hin.2 with hlt | heq
    · refine Or.inr ⟨by omega, by omega, fun hpi => hp ?_⟩
      by_contra hge
      rcases Nat.lt_or_eq_of_le (Nat.not_lt.mp hge) with hip | rfl
      · have := h.final.before i m hl hip hb
        omega
      · rcases h.final.untested with ⟨k, hk, hke⟩ | ⟨-, hn, -⟩
        · obtain rfl := Option.some.inj (hk.symm.trans hb)
          omega
        · exact Option.some_ne_none m (hb.symm.trans hn)
    · exact Or.inl (by omega)

theorem Stuck.enter {m : ℕ} (h : Stuck M l p e U ⟨i, K, s⟩) (hb : M.body i = some m) (d : P)
    (s' : S) : Stuck M l p e (⟨d, 0, i + 1, i + m⟩ :: U) ⟨i + 1, ⟨d, 0, i + 1, i + m⟩ :: K, s'⟩ := by
  have hl : l < i := by
    rcases h.place with hlt | ⟨hl, -⟩
    · exact h.final.lt.trans (h.final.le.trans_lt hlt)
    · exact hl
  obtain ⟨F, K', hs, hF⟩ := h.stack
  refine ⟨h.final, h.inside, fun g hg => ?_, ?_, F, K', congrArg _ hs, hF⟩
  · rcases List.mem_cons.mp hg with rfl | hg
    · exact ⟨i, m, hl, hb, rfl, rfl⟩
    · exact h.above g hg
  · rcases h.place with hlt | ⟨-, hle, hp⟩
    · exact Or.inl (Nat.lt_succ_of_lt hlt)
    · dsimp only at *
      have hin := h.inside i m hl hle hb
      refine Or.inr ⟨by omega, by omega, fun hpi => ?_⟩
      rcases Nat.lt_or_eq_of_le (Nat.le_of_lt_succ hpi) with hlt | rfl
      · obtain ⟨g, hg, he⟩ := hp hlt
        exact ⟨g, List.mem_cons_of_mem _ hg, he⟩
      · exact ⟨_, List.mem_cons_self, rfl⟩

theorem Stuck.wrap {g : Frame P} (h : Stuck M l p e (g :: U) ⟨i, g :: K, s⟩) (hg : i = g.last)
    (k : ℕ) (s' : S) :
    Stuck M l p e ({ g with pos := k } :: U) ⟨g.first, { g with pos := k } :: K, s'⟩ := by
  obtain ⟨F, K', hs, hF⟩ := h.stack
  obtain ⟨x, m, hlx, hb, hfirst, hlast⟩ := h.above g List.mem_cons_self
  refine ⟨h.final, h.inside, fun g' hg' => ?_, ?_, F, K',
    congrArg _ (List.cons.inj hs).2, hF⟩
  · rcases List.mem_cons.mp hg' with rfl | hg'
    · exact ⟨x, m, hlx, hb, hfirst, hlast⟩
    · exact h.above g' (List.mem_cons_of_mem _ hg')
  · dsimp only
    rcases h.place with hlt | ⟨-, hle, hp⟩
    · left
      by_contra hx
      have := h.inside x m hlx (by omega) hb
      dsimp only at hlt
      omega
    · dsimp only at hle hp
      have := h.inside x m hlx (by omega) hb
      refine Or.inr ⟨by omega, by omega, fun hpf => ?_⟩
      obtain ⟨g', hg', he⟩ := hp (by omega)
      rcases List.mem_cons.mp hg' with rfl | hg'
      · exact ⟨_, List.mem_cons_self, he⟩
      · exact ⟨g', List.mem_cons_of_mem _ hg', he⟩

theorem Stuck.pop {g : Frame P} (h : Stuck M l p e (g :: U) ⟨i, g :: K, s⟩) (hg : i = g.last)
    (hb : M.body i = none) (s' : S) : Stuck M l p e U ⟨i + 1, K, s'⟩ := by
  obtain ⟨F, K', hs, hF⟩ := h.stack
  refine ⟨h.final, h.inside, fun g' hg' => h.above g' (List.mem_cons_of_mem _ hg'), ?_, F, K',
    (List.cons.inj hs).2, hF⟩
  rcases (h.forward hb s').place with hlt | ⟨hl, hle, hp⟩
  · exact Or.inl hlt
  · refine Or.inr ⟨hl, hle, fun hpi => ?_⟩
    obtain ⟨g', hg', he⟩ := hp hpi
    rcases List.mem_cons.mp hg' with rfl | hg'
    · obtain ⟨x, m, -, hbx, hfirst, hlast⟩ := h.above g' List.mem_cons_self
      have hxp : x = p := by omega
      subst hxp
      dsimp only at hle
      rcases h.final.untested with ⟨k, hk, hke⟩ | ⟨-, hn, -⟩
      · obtain rfl := Option.some.inj (hk.symm.trans hbx)
        omega
      · exact absurd (hbx.symm.trans hn) (Option.some_ne_none m)
    · exact ⟨g', hg', he⟩

/-- **A stuck frame stays.** -/
theorem Stuck.step {γ : Config S P} (h : Stuck M l p e U γ) :
    ∃ U', Stuck M l p e U' (M.step γ) := by
  obtain ⟨i, K, s⟩ := γ
  by_cases hi : i < M.size
  · cases hb : M.body i with
    | some m =>
      by_cases h0 : M.count (M.load i s) = 0
      · rw [Machine.step_skip hi hb h0]
        exact ⟨_, h.skip hb _⟩
      · rw [Machine.step_enter hi hb h0]
        exact ⟨_, h.enter hb _ _⟩
    | none =>
      cases ht : M.tested i with
      | false =>
        rw [Machine.step_untested hi hb ht]
        exact ⟨_, h.forward hb _⟩
      | true =>
        rw [Machine.step_tested hi hb ht]
        obtain ⟨F, K', rfl, hF⟩ := h.stack
        cases U with
        | nil =>
          have hne := h.ne_last hb ht
          have hin : M.land (i + 1) (F :: K') (M.run i s) = ⟨i + 1, F :: K', M.run i s⟩ :=
            if_neg fun he => hne (by omega)
          rw [List.nil_append, hin]
          exact ⟨_, h.forward hb _⟩
        | cons g U =>
          rw [List.cons_append, Machine.land]
          split_ifs with hg hmore
          · exact ⟨_, h.wrap (Nat.succ.inj hg) _ _⟩
          · exact ⟨_, h.pop (Nat.succ.inj hg) hb _⟩
          · exact ⟨_, h.forward hb _⟩
  · rw [Machine.step_of_size_le (Nat.not_lt.mp hi)]
    exact ⟨U, h⟩

/-- **The stack is not empty again.** -/
theorem Stuck.iterate_ne_nil {γ : Config S P} (h : Stuck M l p e U γ) (n : ℕ) :
    (M.step^[n] γ).stack ≠ [] := by
  have hn : ∃ U', Stuck M l p e U' (M.step^[n] γ) := by
    induction n with
    | zero => exact ⟨U, h⟩
    | succ n ih =>
      obtain ⟨U', ih⟩ := ih
      rw [Function.iterate_succ_apply']
      exact ih.step
  obtain ⟨U', hn⟩ := hn
  exact hn.stack_ne_nil

end Stuck

/-! ## Runs -/

/-- Inside the body of the top frame, or up to its end and with a test there. -/
def Fits (M : Machine S P) (b : Block) (i : ℕ) (K : List (Frame P)) : Prop :=
  ∀ F ∈ K.head?, i + b.size ≤ F.last ∨
    i + b.size = F.last + 1 ∧ b.endsInStep = true ∧ M.tested F.last = true

section Runs

variable {M : Machine S P} {b : Block} {i m : ℕ} {K : List (Frame P)} {s : S}

/-- The outcome of a block: it is safe and runs as it should, or it is not and gets stuck. -/
inductive Outcome (M : Machine S P) (b : Block) (i : ℕ) (K : List (Frame P)) (s : S) : Prop where
  | runs (h : M.Safe b i s)
      (hr : M.Reaches ⟨i, K, s⟩ (M.land (i + b.size) K (M.exec b i s)))
  | stuck (h : ¬ M.Safe b i s) {γ : Config S P} (hr : M.Reaches ⟨i, K, s⟩ γ)
      {l p e : ℕ} {U : List (Frame P)} (hs : Stuck M l p e U γ)

theorem Fits.rest {b' : Block} {j : ℕ} (h : Fits M b i K) (hj : j + b'.size = i + b.size)
    (he : b'.endsInStep = b.endsInStep) : Fits M b' j K := by
  intro F hF
  rw [hj, he]
  exact h F hF

theorem step_last (hf : Fits M (.step .done) i K) (hi : i < M.size) (hb : M.body i = none) :
    M.step ⟨i, K, s⟩ = M.land (i + 1) K (M.run i s) := by
  cases ht : M.tested i with
  | true => exact Machine.step_tested hi hb ht
  | false =>
    rw [Machine.step_untested hi hb ht, Machine.land_inside]
    intro F hF he
    rcases hf F hF with hlt | ⟨-, -, hF'⟩
    · rw [Block.size, Block.size] at hlt
      omega
    · rw [← Nat.succ.inj he, ht] at hF'
      exact Bool.false_ne_true hF'

theorem step_first {rest : Block} (hf : Fits M (.step rest) i K) (h0 : rest.size ≠ 0)
    (hi : i < M.size) (hb : M.body i = none) :
    M.step ⟨i, K, s⟩ = ⟨i + 1, K, M.run i s⟩ := by
  refine Machine.step_inside hi hb fun F hF he => ?_
  have := hf F hF
  rw [Block.size] at this
  omega

/-- The loop at `i` before its round `j`, or behind its last one. -/
def atRound (M : Machine S P) (body : Block) (i : ℕ) (K : List (Frame P)) (s : S) (j : ℕ) :
    Config S P :=
  let p := M.load i s
  let s' := M.rounds p (M.exec body (i + 1)) j (M.run i s)
  if j < M.count p then ⟨i + 1, ⟨p, j, i + 1, i + body.size⟩ :: K, M.bind p j s'⟩
  else ⟨i + 1 + body.size, K, s'⟩

section Loop

variable {body : Block}

theorem step_atRound (hi : i < M.size) (hb : M.body i = some body.size) :
    M.step ⟨i, K, s⟩ = atRound M body i K s 0 := by
  unfold atRound
  dsimp only
  by_cases h0 : M.count (M.load i s) = 0
  · rw [Machine.step_skip hi hb h0, if_neg (by omega), Nat.add_right_comm]
    rfl
  · rw [Machine.step_enter hi hb h0, if_pos (Nat.pos_of_ne_zero h0)]
    rfl

/-- In the body of the loop a block that ends with a test fits. -/
theorem fits_body (hE : M.EndsTested body i) (d : P) (j : ℕ) :
    Fits M body (i + 1) (⟨d, j, i + 1, i + body.size⟩ :: K) := by
  intro F hF
  obtain rfl := Option.some.inj hF
  exact Or.inr ⟨by dsimp only; omega, hE⟩

theorem land_atRound (j : ℕ) :
    M.land (i + 1 + body.size) (⟨M.load i s, j, i + 1, i + body.size⟩ :: K)
      (M.exec body (i + 1) (M.bind (M.load i s) j
        (M.rounds (M.load i s) (M.exec body (i + 1)) j (M.run i s)))) =
      atRound M body i K s (j + 1) := by
  unfold atRound Machine.land
  dsimp only
  rw [if_pos (by omega)]
  rfl

/-- **The rounds before an unsafe one run as they should.** -/
theorem reaches_atRound (hi : i < M.size) (hb : M.body i = some body.size)
    (hE : M.EndsTested body i)
    (ih : ∀ K s, Fits M body (i + 1) K → Outcome M body (i + 1) K s) : ∀ j : ℕ,
    j ≤ M.count (M.load i s) →
    (∀ k < j, M.Safe body (i + 1) (M.bind (M.load i s) k
      (M.rounds (M.load i s) (M.exec body (i + 1)) k (M.run i s)))) →
    M.Reaches ⟨i, K, s⟩ (atRound M body i K s j) := by
  intro j
  induction j with
  | zero =>
    intro _ _
    rw [← step_atRound hi hb]
    exact (Machine.Reaches.refl _).step
  | succ j ihj =>
    intro hlt hsafe
    refine (ihj (Nat.le_of_succ_le hlt) fun k hk => hsafe k (Nat.lt_succ_of_lt hk)).trans ?_
    rcases ih (⟨M.load i s, j, i + 1, i + body.size⟩ :: K) _ (fits_body hE _ j) with
      ⟨-, hr⟩ | ⟨hu, -, -⟩
    · rw [land_atRound j] at hr
      rw [atRound, if_pos (Nat.lt_of_succ_le hlt)]
      exact hr
    · exact absurd (hsafe j (Nat.lt_succ_self j)) hu

/-- A loop all of whose rounds are safe runs as it should. -/
theorem reaches_rest (hi : i < M.size) (hb : M.body i = some body.size)
    (hE : 0 < M.count (M.load i s) → M.EndsTested body i)
    (ih : ∀ K s, Fits M body (i + 1) K → Outcome M body (i + 1) K s)
    (hall : ∀ k < M.count (M.load i s), M.Safe body (i + 1) (M.bind (M.load i s) k
      (M.rounds (M.load i s) (M.exec body (i + 1)) k (M.run i s)))) :
    M.Reaches ⟨i, K, s⟩ ⟨i + 1 + body.size, K,
      M.rounds (M.load i s) (M.exec body (i + 1)) (M.count (M.load i s)) (M.run i s)⟩ := by
  have hend : atRound M body i K s (M.count (M.load i s)) = ⟨i + 1 + body.size, K,
      M.rounds (M.load i s) (M.exec body (i + 1)) (M.count (M.load i s)) (M.run i s)⟩ :=
    if_neg (lt_irrefl _)
  rw [← hend]
  rcases Nat.eq_zero_or_pos (M.count (M.load i s)) with h0 | hpos
  · rw [h0, ← step_atRound hi hb]
    exact (Machine.Reaches.refl _).step
  · exact reaches_atRound hi hb (hE hpos) ih _ le_rfl hall

/-- A loop with an unsafe round gets stuck in the first one. -/
theorem stuck_of_round (hi : i < M.size) (hb : M.body i = some body.size)
    (hE : 0 < M.count (M.load i s) → M.EndsTested body i)
    (ih : ∀ K s, Fits M body (i + 1) K → Outcome M body (i + 1) K s)
    (hex : ∃ k, k < M.count (M.load i s) ∧ ¬ M.Safe body (i + 1) (M.bind (M.load i s) k
      (M.rounds (M.load i s) (M.exec body (i + 1)) k (M.run i s)))) :
    ∃ γ l p e U, M.Reaches ⟨i, K, s⟩ γ ∧ Stuck M l p e U γ := by
  classical
  obtain ⟨hlt, hu⟩ := Nat.find_spec hex
  have hE := hE (Nat.zero_lt_of_lt hlt)
  have hreach := reaches_atRound (K := K) hi hb hE ih _ hlt.le fun k hk => by
    by_contra hk'
    exact Nat.find_min hex hk ⟨hk.trans hlt, hk'⟩
  rw [atRound, if_pos hlt] at hreach
  rcases ih (⟨M.load i s, Nat.find hex, i + 1, i + body.size⟩ :: K) _ (fits_body hE _ _) with
    ⟨hs, -⟩ | ⟨-, hr, hst⟩
  · exact absurd hs hu
  · exact ⟨_, _, _, _, _, hreach.trans hr, hst⟩

/-- A loop with items whose body does not end with a test gets stuck at once. -/
theorem stuck_of_end (hi : i < M.size) (hb : M.body i = some body.size) (h1 : 1 ≤ body.size)
    (hl : body.LaidOut M (i + 1)) (hpos : 0 < M.count (M.load i s))
    (hE : ¬ M.EndsTested body i) :
    ∃ γ l p e U, M.Reaches ⟨i, K, s⟩ γ ∧ Stuck M l p e U γ := by
  obtain ⟨p, hp⟩ := exists_final hl h1 hE
  have hreach : M.Reaches ⟨i, K, s⟩ (atRound M body i K s 0) := by
    rw [← step_atRound hi hb]
    exact (Machine.Reaches.refl _).step
  rw [atRound, if_pos hpos] at hreach
  refine ⟨_, i, p, i + body.size, [], hreach, hp, fun x m hx hle hm => ?_,
    fun g hg => absurd hg List.not_mem_nil, Or.inr ⟨Nat.lt_succ_self i, ?_, fun hlt => ?_⟩, _, K,
    rfl, rfl⟩
  · have := hl.inside hx (by omega) hm
    omega
  · dsimp only
    omega
  · exact absurd hp.lt (Nat.not_lt.mpr (Nat.le_of_lt_succ hlt))

end Loop

/-- **Main result: a safe block runs as its structured meaning says, an unsafe one gets stuck.** -/
theorem Machine.runs (h : b.LaidOut M i) (hn : i + b.size ≤ M.size) (hf : Fits M b i K) :
    Outcome M b i K s := by
  induction b generalizing i K s with
  | done =>
    have hland : M.land i K s = ⟨i, K, s⟩ := Machine.land_inside fun F hF he => by
      rcases hf F hF with hlt | ⟨-, hE, -⟩
      · rw [Block.size] at hlt
        omega
      · exact Bool.false_ne_true hE
    refine .runs trivial ?_
    change M.Reaches ⟨i, K, s⟩ (M.land i K s)
    rw [hland]
    exact .refl _
  | step rest ih =>
    obtain ⟨hb, hr⟩ := h
    rw [Block.size] at hn
    have hi : i < M.size := by omega
    by_cases h0 : rest.size = 0
    · obtain rfl := Block.eq_done h0
      refine .runs trivial ?_
      change M.Reaches ⟨i, K, s⟩ (M.land (i + 1) K (M.run i s))
      rw [← step_last hf hi hb]
      exact (Machine.Reaches.refl _).step
    · have hstep := step_first (s := s) hf h0 hi hb
      have hsz : i + 1 + rest.size = i + (Block.step rest).size := by rw [Block.size]; omega
      have he : rest.endsInStep = (Block.step rest).endsInStep := by
        rw [Block.endsInStep, decide_eq_false h0, Bool.false_or]
      rcases ih (s := M.run i s) hr (by omega) (hf.rest hsz he) with ⟨hs, hr⟩ | ⟨hs, hr, hst⟩
      · refine .runs hs ?_
        rw [← hsz]
        exact Machine.Reaches.step (hstep ▸ hr)
      · exact .stuck hs (Machine.Reaches.step (hstep ▸ hr)) hst
  | loop body rest ihb ihr =>
    obtain ⟨hb, h1, hbody, hrest⟩ := h
    rw [Block.size] at hn
    have hi : i < M.size := by omega
    have hsz : i + 1 + body.size + rest.size = i + (Block.loop body rest).size := by
      rw [Block.size]
      omega
    by_cases hE : 0 < M.count (M.load i s) → M.EndsTested body i
    · by_cases hall : ∀ j < M.count (M.load i s), M.Safe body (i + 1) (M.bind (M.load i s) j
          (M.rounds (M.load i s) (M.exec body (i + 1)) j (M.run i s)))
      · have hreach := reaches_rest (K := K) hi hb hE (fun K s => ihb hbody (by omega)) hall
        rcases ihr hrest (by omega) (hf.rest hsz rfl) with ⟨hs, hr⟩ | ⟨hs, hr, hst⟩
        · refine .runs ⟨hE, hall, hs⟩ ?_
          rw [← hsz]
          exact hreach.trans hr
        · exact .stuck (fun h => hs h.2.2) (hreach.trans hr) hst
      · push Not at hall
        obtain ⟨γ, l, p, e, U, hr, hst⟩ :=
          stuck_of_round (K := K) hi hb hE (fun K s => ihb hbody (by omega)) hall
        exact .stuck (fun h => by
          obtain ⟨k, hk, hu⟩ := hall
          exact hu (h.2.1 k hk)) hr hst
    · push Not at hE
      obtain ⟨γ, l, p, e, U, hr, hst⟩ := stuck_of_end (K := K) hi hb h1 hbody hE.1 hE.2
      exact .stuck (fun h => hE.2 (h.1 hE.1)) hr hst

end Runs

end LoopStack
