import Mathlib.Data.List.TakeWhile
import Mathlib.Data.List.Infix
import Mathlib.Data.List.Basic
import Mathlib.Tactic.Conv
import Mathlib.Data.Nat.Notation

/-!
# Templates with `${NAME}` tokens

A token is `${`, one or more word characters and `}`; tokens are found from left to right and do
not overlap. `sub σ` replaces every token whose name `σ` binds and leaves the others.

* `token`, `scan`, `sub`; `scan_append_dollar`: a `$` separates what is scanned before it from what
  is scanned after it; `scan_hole`.
* `Replaced`, **`replaced_iff`**: `sub` is the pass from left to right.
* `Mixed`: text with the tokens still open; `fill` closes some of them and merges the text around.
* `names`, `pass`, **`sub_render_pass`**: the tokens of a template that one pass after the other
  leaves open, in the text that the passes make of it.
* `Inert σ m`: no token lying inside the closed text of `m` is bound by `σ`.
* **`passes_eq_sub`**: several passes, one after the other, are one simultaneous substitution as
  long as the text closed by the earlier passes is inert under the later ones.
-/

set_option autoImplicit false

namespace Template

variable (word : Char → Bool)

/-- A partial assignment of texts to names. -/
abbrev Env := List Char → Option (List Char)

/-- A piece of a scanned text. -/
inductive Seg where
  | lit (c : Char)
  | tok (name : List Char)
  deriving DecidableEq

/-- The token with this name. -/
def hole (name : List Char) : List Char := '$' :: '{' :: (name ++ ['}'])

/-- The token at the head of the text, and the text after it. -/
def token : List Char → Option (List Char × List Char)
  | '$' :: '{' :: r =>
    match r.dropWhile word with
    | '}' :: r' => if r.takeWhile word = [] then none else some (r.takeWhile word, r')
    | _ => none
  | _ => none

/-- Scan at most `n` pieces. -/
def scanN : ℕ → List Char → List Seg
  | 0, _ => []
  | _ + 1, [] => []
  | n + 1, c :: cs =>
    match token word (c :: cs) with
    | some (w, r) => .tok w :: scanN n r
    | none => .lit c :: scanN n cs

/-- The pieces of a text, left to right. -/
def scan (cs : List Char) : List Seg := scanN word cs.length cs

/-- The text of a piece under an assignment. -/
def Seg.text (σ : Env) : Seg → List Char
  | lit c => [c]
  | tok w => (σ w).getD (hole w)

/-- One substitution pass. -/
def sub (σ : Env) (cs : List Char) : List Char := (scan word cs).flatMap (Seg.text σ)

/-- The first assignment that binds the name. -/
def orElse (σ τ : Env) : Env := fun w => (σ w).or (τ w)

/-! ## Scanning -/

variable {word}

theorem token_cons {c : Char} {cs w r : List Char} (h : token word (c :: cs) = some (w, r)) :
    c :: cs = hole w ++ r ∧ w ≠ [] ∧ ∀ x ∈ w, word x = true := by
  unfold token at h
  split at h
  · rename_i r₀ heq
    obtain ⟨rfl, rfl⟩ := List.cons.inj heq
    split at h
    · rename_i r' hr
      split_ifs at h with hw
      obtain ⟨rfl, rfl⟩ := Prod.mk.inj (Option.some.inj h)
      refine ⟨?_, hw, fun x hx => List.mem_takeWhile_imp hx⟩
      conv_lhs => rw [← List.takeWhile_append_dropWhile (p := word) (l := r₀), hr]
      simp [hole]
    · cases h
  · cases h

theorem scanN_eq_scan : ∀ (n : ℕ) (cs : List Char), cs.length ≤ n →
    scanN word n cs = scan word cs := by
  have key : ∀ (k n m : ℕ) (cs : List Char), cs.length ≤ k → cs.length ≤ n → cs.length ≤ m →
      scanN word n cs = scanN word m cs := by
    intro k
    induction k with
    | zero =>
      intro n m cs hk _ _
      obtain rfl := List.length_eq_zero_iff.mp (Nat.le_zero.mp hk)
      cases n <;> cases m <;> rfl
    | succ k ih =>
      intro n m cs hk hn hm
      cases cs with
      | nil => cases n <;> cases m <;> rfl
      | cons c cs =>
        simp only [List.length_cons] at hk hn hm
        obtain ⟨n, rfl⟩ : ∃ n', n = n' + 1 := ⟨n - 1, by omega⟩
        obtain ⟨m, rfl⟩ : ∃ m', m = m' + 1 := ⟨m - 1, by omega⟩
        simp only [scanN]
        cases ht : token word (c :: cs) with
        | none => exact congrArg _ (ih n m cs (by omega) (by omega) (by omega))
        | some p =>
          have hl := congrArg List.length (token_cons ht).1
          simp only [hole, List.length_cons, List.length_append] at hl
          exact congrArg _ (ih n m p.2 (by omega) (by omega) (by omega))
  intro n cs h
  exact key cs.length n cs.length cs (Nat.le_refl _) h (Nat.le_refl _)

theorem scan_of_token {c : Char} {cs w r : List Char} (h : token word (c :: cs) = some (w, r)) :
    scan word (c :: cs) = .tok w :: scan word r := by
  have hl := congrArg List.length (token_cons h).1
  simp only [hole, List.length_cons, List.length_append] at hl
  conv_lhs => unfold scan
  simp only [List.length_cons, scanN, h]
  rw [scanN_eq_scan _ r (by omega)]

theorem scan_of_no_token {c : Char} {cs : List Char} (h : token word (c :: cs) = none) :
    scan word (c :: cs) = .lit c :: scan word cs := by
  conv_lhs => unfold scan
  simp only [List.length_cons, scanN, h]
  rfl

/-- Induction over the scanned pieces. -/
theorem scan_induction {motive : List Char → Prop} (nil : motive [])
    (tok : ∀ c cs w r, token word (c :: cs) = some (w, r) → motive r → motive (c :: cs))
    (lit : ∀ c cs, token word (c :: cs) = none → motive cs → motive (c :: cs)) :
    ∀ cs, motive cs := by
  have key : ∀ (n : ℕ) (cs : List Char), cs.length ≤ n → motive cs := by
    intro n
    induction n with
    | zero =>
      intro cs h
      obtain rfl := List.length_eq_zero_iff.mp (Nat.le_zero.mp h)
      exact nil
    | succ n ih =>
      intro cs h
      cases cs with
      | nil => exact nil
      | cons c cs =>
        simp only [List.length_cons] at h
        cases ht : token word (c :: cs) with
        | none => exact lit c cs ht (ih cs (by omega))
        | some p =>
          have hl := congrArg List.length (token_cons ht).1
          simp only [hole, List.length_cons, List.length_append] at hl
          exact tok c cs p.1 p.2 ht (ih p.2 (by omega))
  exact fun cs => key cs.length cs (Nat.le_refl _)

/-- Names of tokens are non-empty words. -/
def IsName (word : Char → Bool) (w : List Char) : Prop := w ≠ [] ∧ ∀ x ∈ w, word x = true

theorem isName_of_mem_scan : ∀ (cs : List Char) {w : List Char}, Seg.tok w ∈ scan word cs →
    IsName word w := by
  intro cs
  induction cs using @scan_induction word with
  | nil => intro w h; cases h
  | tok c cs w' r ht ih =>
    intro w h
    rw [scan_of_token ht, List.mem_cons] at h
    rcases h with h | h
    · cases h; exact (token_cons ht).2
    · exact ih h
  | lit c cs ht ih =>
    intro w h
    rw [scan_of_no_token ht, List.mem_cons] at h
    rcases h with h | h
    · cases h
    · exact ih h

theorem infix_of_mem_scan : ∀ (cs : List Char) {w : List Char}, Seg.tok w ∈ scan word cs →
    hole w <:+: cs := by
  intro cs
  induction cs using @scan_induction word with
  | nil => intro w h; cases h
  | tok c cs w' r ht ih =>
    intro w h
    rw [scan_of_token ht, List.mem_cons] at h
    rw [(token_cons ht).1]
    rcases h with h | h
    · cases h
      exact (List.prefix_append _ _).isInfix
    · exact (ih h).trans (List.suffix_append _ _).isInfix
  | lit c cs ht ih =>
    intro w h
    rw [scan_of_no_token ht, List.mem_cons] at h
    rcases h with h | h
    · cases h
    · exact (ih h).trans (List.suffix_cons c cs).isInfix

theorem flatMap_scan (cs : List Char) : (scan word cs).flatMap (Seg.text fun _ => none) = cs := by
  induction cs using @scan_induction word with
  | nil => rfl
  | tok c cs w r ht ih =>
    rw [scan_of_token ht, List.flatMap_cons, ih]
    exact (token_cons ht).1.symm
  | lit c cs ht ih =>
    rw [scan_of_no_token ht, List.flatMap_cons, ih]
    rfl

/-- **A pass that binds none of the tokens changes nothing.** -/
theorem sub_of_unbound {σ : Env} {cs : List Char}
    (h : ∀ w, Seg.tok w ∈ scan word cs → σ w = none) : sub word σ cs = cs := by
  conv_rhs => rw [← @flatMap_scan word cs]
  refine List.flatMap_congr fun s hs => ?_
  cases s with
  | lit c => rfl
  | tok w => simp only [Seg.text, h w hs]

/-! ## Tokens and the text before them -/

section Separate

variable (hd : word '$' = false)

include hd

theorem takeWhile_append_dollar (u r : List Char) :
    (u ++ '$' :: r).takeWhile word = u.takeWhile word := by
  induction u with
  | nil => simp [hd]
  | cons c u ih => simp only [List.cons_append, List.takeWhile_cons, ih]

theorem dropWhile_append_dollar (u r : List Char) :
    (u ++ '$' :: r).dropWhile word = u.dropWhile word ++ '$' :: r := by
  induction u with
  | nil => simp [hd]
  | cons c u ih =>
    simp only [List.cons_append, List.dropWhile_cons, ih]
    split_ifs <;> rfl

theorem token_append_dollar (c : Char) (u r : List Char) :
    token word (c :: u ++ '$' :: r) =
      (token word (c :: u)).map fun p => (p.1, p.2 ++ '$' :: r) := by
  by_cases hc : c = '$'
  · subst hc
    cases u with
    | nil => rfl
    | cons d u =>
      by_cases hb : d = '{'
      · subst hb
        simp only [List.cons_append, token]
        rw [takeWhile_append_dollar hd, dropWhile_append_dollar hd]
        rcases u.dropWhile word with _ | ⟨e, v⟩
        · rfl
        · by_cases he : e = '}'
          · subst he
            simp only [List.cons_append]
            split_ifs <;> rfl
          · simp only [List.cons_append]
            split
            · rename_i heq
              exact absurd (List.cons.inj heq).1 he
            · split
              · rename_i heq
                exact absurd (List.cons.inj heq).1 he
              · rfl
      · have h1 : ∀ x : List Char, token word ('$' :: d :: x) = none := by
          intro x
          unfold token
          split
          · rename_i heq
            exact absurd (List.cons.inj (List.cons.inj heq).2).1 hb
          · rfl
        rw [List.cons_append, List.cons_append, h1, h1]
        rfl
  · have h1 : ∀ x : List Char, token word (c :: x) = none := by
      intro x
      unfold token
      split
      · rename_i heq
        exact absurd (List.cons.inj heq).1 hc
      · rfl
    rw [List.cons_append, h1, h1]
    rfl

/-- **A `$` separates the scans.** -/
theorem scan_append_dollar (u r : List Char) :
    scan word (u ++ '$' :: r) = scan word u ++ scan word ('$' :: r) := by
  induction u using @scan_induction word with
  | nil => rfl
  | tok c cs w r' ht ih =>
    have h := token_append_dollar hd c cs r
    rw [ht, List.cons_append] at h
    rw [scan_of_token ht, List.cons_append, scan_of_token h, ih]
    rfl
  | lit c cs ht ih =>
    have h := token_append_dollar hd c cs r
    rw [ht, List.cons_append] at h
    rw [scan_of_no_token ht, List.cons_append, scan_of_no_token h, ih]
    rfl

end Separate

theorem token_hole (hb : word '}' = false) {w : List Char} (hw : IsName word w) (r : List Char) :
    token word (hole w ++ r) = some (w, r) := by
  have hall : ∀ x : List Char, (∀ c ∈ x, word c = true) →
      (x ++ '}' :: r).takeWhile word = x ∧ (x ++ '}' :: r).dropWhile word = '}' :: r := by
    intro x hx
    induction x with
    | nil => simp [hb]
    | cons c x ih =>
      have := ih fun d hd => hx d (List.mem_cons_of_mem _ hd)
      simp [hx c List.mem_cons_self, this.1, this.2]
  have he : hole w ++ r = '$' :: '{' :: (w ++ '}' :: r) := by simp [hole]
  rw [he]
  simp only [token, (hall w hw.2).1, (hall w hw.2).2, if_neg hw.1]

theorem scan_hole (hb : word '}' = false) {w : List Char} (hw : IsName word w) (r : List Char) :
    scan word (hole w ++ r) = .tok w :: scan word r := scan_of_token (token_hole hb hw r)

/-! ## One pass, declaratively -/

/-- **One pass from left to right**: a token at the head is replaced if its name is bound and kept
otherwise, and the pass goes on behind it; any other character is kept. -/
inductive Replaced (word : Char → Bool) (σ : Env) : List Char → List Char → Prop where
  | nil : Replaced word σ [] []
  | token {w r out : List Char} (name : IsName word w) (rest : Replaced word σ r out) :
      Replaced word σ (hole w ++ r) ((σ w).getD (hole w) ++ out)
  | char {c : Char} {cs out : List Char} (none : ∀ w r, IsName word w → c :: cs ≠ hole w ++ r)
      (rest : Replaced word σ cs out) : Replaced word σ (c :: cs) (c :: out)

theorem replaced_sub (hb : word '}' = false) (σ : Env) (cs : List Char) :
    Replaced word σ cs (sub word σ cs) := by
  unfold sub
  induction cs using @scan_induction word with
  | nil => exact .nil
  | tok c cs w r ht ih =>
    obtain ⟨hcs, hw⟩ := token_cons ht
    rw [scan_of_token ht, List.flatMap_cons, hcs]
    exact .token hw ih
  | lit c cs ht ih =>
    rw [scan_of_no_token ht, List.flatMap_cons]
    refine .char (fun w r hw hcs => ?_) ih
    rw [hcs, token_hole hb hw] at ht
    cases ht

/-- **A pass is determined by its assignment.** -/
theorem replaced_iff (hb : word '}' = false) {σ : Env} {cs out : List Char} :
    Replaced word σ cs out ↔ out = sub word σ cs := by
  constructor
  · intro h
    induction h with
    | nil => rfl
    | token hw _ ih =>
      rw [sub, scan_hole hb hw, List.flatMap_cons, ih]
      rfl
    | @char c cs out hno _ ih =>
      have ht : token word (c :: cs) = none := by
        cases ht : token word (c :: cs) with
        | none => rfl
        | some p =>
          obtain ⟨hcs, hw⟩ := token_cons ht
          exact absurd hcs (hno _ _ hw)
      rw [sub, scan_of_no_token ht, List.flatMap_cons, ih]
      rfl
  · rintro rfl
    exact replaced_sub hb σ cs

/-! ## Text with open tokens -/

/-- Closed text with the open tokens in it: the text before the first, then each token with the
text after it. -/
structure Mixed where
  head : List Char
  tail : List (List Char × List Char)

namespace Mixed

/-- The text itself. -/
def render (m : Mixed) : List Char := m.head ++ m.tail.flatMap fun p => hole p.1 ++ p.2

/-- The names of the open tokens are names. -/
def Valid (word : Char → Bool) (m : Mixed) : Prop := ∀ p ∈ m.tail, IsName word p.1

/-- Close tokens of a tail: the text that joins what stands before, and the tail that is left. -/
def fillTail (σ : Env) : List (List Char × List Char) → List Char × List (List Char × List Char)
  | [] => ([], [])
  | (w, u) :: r =>
    match σ w with
    | some v => (v ++ u ++ (fillTail σ r).1, (fillTail σ r).2)
    | none => ([], (w, u ++ (fillTail σ r).1) :: (fillTail σ r).2)

/-- Close the tokens that `σ` binds. -/
def fill (σ : Env) (m : Mixed) : Mixed := ⟨m.head ++ (fillTail σ m.tail).1, (fillTail σ m.tail).2⟩

/-- A scanned text, all its tokens open. -/
def ofSegs : List Seg → Mixed
  | [] => ⟨[], []⟩
  | .lit c :: s => ⟨c :: (ofSegs s).head, (ofSegs s).tail⟩
  | .tok w :: s => ⟨[], (w, (ofSegs s).head) :: (ofSegs s).tail⟩

/-- **`σ` binds no token that lies inside the closed text.** -/
def Inert (word : Char → Bool) (σ : Env) (m : Mixed) : Prop :=
  ∀ u ∈ m.head :: m.tail.map Prod.snd, ∀ w, Seg.tok w ∈ scan word u → σ w = none

/-- Not a token that `σ` binds. -/
def unbound (σ : Env) : Seg → Bool
  | .lit _ => true
  | .tok w => (σ w).isNone

theorem inert_iff {word : Char → Bool} {σ : Env} {m : Mixed} : m.Inert word σ ↔
    ∀ u ∈ m.head :: m.tail.map Prod.snd, ∀ seg ∈ scan word u, unbound σ seg = true := by
  refine forall₂_congr fun u _ => ⟨fun h seg hseg => ?_, fun h w hw => ?_⟩
  · cases seg with
    | lit => rfl
    | tok w => exact Option.isNone_iff_eq_none.mpr (h w hseg)
  · exact Option.isNone_iff_eq_none.mp (h _ hw)

instance (word : Char → Bool) (σ : Env) (m : Mixed) : Decidable (m.Inert word σ) :=
  decidable_of_iff _ inert_iff.symm

theorem fillTail_render (σ : Env) (t : List (List Char × List Char)) :
    (fillTail σ t).1 ++ ((fillTail σ t).2.flatMap fun p => hole p.1 ++ p.2) =
      t.flatMap fun p => (σ p.1).getD (hole p.1) ++ p.2 := by
  induction t with
  | nil => rfl
  | cons p t ih =>
    obtain ⟨w, u⟩ := p
    cases hσ : σ w with
    | none => simp [fillTail, hσ, ← ih]
    | some v => simp [fillTail, hσ, ← ih]

theorem render_fill (σ : Env) (m : Mixed) : (fill σ m).render =
    m.head ++ m.tail.flatMap fun p => (σ p.1).getD (hole p.1) ++ p.2 := by
  simp only [render, fill, List.append_assoc, fillTail_render]

theorem fillTail_fillTail (σ τ : Env) (t : List (List Char × List Char)) :
    fillTail (orElse σ τ) t =
      ((fillTail σ t).1 ++ (fillTail τ (fillTail σ t).2).1,
        (fillTail τ (fillTail σ t).2).2) := by
  induction t with
  | nil => rfl
  | cons p t ih =>
    obtain ⟨w, u⟩ := p
    cases hσ : σ w with
    | some v => simp [fillTail, orElse, hσ, ih]
    | none =>
      cases hτ : τ w with
      | some v => simp [fillTail, orElse, hσ, hτ, ih]
      | none => simp [fillTail, orElse, hσ, hτ, ih]

/-- **Closing twice is closing once with the first binding.** -/
theorem fill_fill (σ τ : Env) (m : Mixed) : fill τ (fill σ m) = fill (orElse σ τ) m := by
  simp only [fill, fillTail_fillTail, List.append_assoc]

theorem mem_fillTail {σ : Env} {t : List (List Char × List Char)} {p : List Char × List Char}
    (h : p ∈ (fillTail σ t).2) : ∃ q ∈ t, q.1 = p.1 := by
  induction t with
  | nil => cases h
  | cons q t ih =>
    obtain ⟨w, u⟩ := q
    cases hσ : σ w with
    | some v =>
      simp only [fillTail, hσ] at h
      obtain ⟨q, hq, he⟩ := ih h
      exact ⟨q, List.mem_cons_of_mem _ hq, he⟩
    | none =>
      simp only [fillTail, hσ, List.mem_cons] at h
      rcases h with rfl | h
      · exact ⟨(w, u), List.mem_cons_self, rfl⟩
      · obtain ⟨q, hq, he⟩ := ih h
        exact ⟨q, List.mem_cons_of_mem _ hq, he⟩

theorem Valid.fill {m : Mixed} (hm : m.Valid word) (σ : Env) : (m.fill σ).Valid word := by
  intro p hp
  obtain ⟨q, hq, he⟩ := mem_fillTail hp
  exact he ▸ hm q hq

theorem valid_ofSegs {s : List Seg} (h : ∀ w, Seg.tok w ∈ s → IsName word w) :
    (ofSegs s).Valid word := by
  induction s with
  | nil => intro p hp; cases hp
  | cons a s ih =>
    have ih := ih fun w hw => h w (List.mem_cons_of_mem _ hw)
    cases a with
    | lit c => exact ih
    | tok w =>
      intro p hp
      rcases List.mem_cons.mp hp with rfl | hp
      · exact h w List.mem_cons_self
      · exact ih p hp

theorem render_fill_ofSegs (σ : Env) (s : List Seg) :
    ((ofSegs s).fill σ).render = s.flatMap (Seg.text σ) := by
  rw [render_fill]
  induction s with
  | nil => rfl
  | cons a s ih =>
    rw [List.flatMap_cons, ← ih]
    cases a with
    | lit c => rfl
    | tok w => simp [ofSegs, Seg.text]

/-! ### Open tokens -/

/-- The names of the open tokens, left to right. -/
def names (m : Mixed) : List (List Char) := m.tail.map Prod.fst

/-- Rewrite the closed text. -/
def mapClosed (f : List Char → List Char) (m : Mixed) : Mixed :=
  ⟨f m.head, m.tail.map fun p => (p.1, f p.2)⟩

/-- One substitution pass over a text with open tokens. -/
def pass (word : Char → Bool) (σ : Env) (m : Mixed) : Mixed := (m.mapClosed (sub word σ)).fill σ

@[simp] theorem names_mapClosed (f : List Char → List Char) (m : Mixed) :
    (m.mapClosed f).names = m.names := by
  simp [names, mapClosed]

theorem Valid.pass {m : Mixed} (hm : m.Valid word) (σ : Env) : (m.pass word σ).Valid word := by
  refine Valid.fill (fun p hp => ?_) σ
  obtain ⟨q, hq, rfl⟩ := List.mem_map.mp hp
  exact hm q hq

/-- The tokens that are left open are those that `σ` does not bind. -/
theorem names_fill (σ : Env) (m : Mixed) :
    (m.fill σ).names = m.names.filter fun w => (σ w).isNone := by
  obtain ⟨u, t⟩ := m
  induction t with
  | nil => rfl
  | cons p t ih =>
    obtain ⟨w, u⟩ := p
    simp only [names, fill] at ih
    cases hσ : σ w <;> simp [names, fill, fillTail, hσ, ih]

@[simp] theorem names_pass (σ : Env) (m : Mixed) :
    (m.pass word σ).names = m.names.filter fun w => (σ w).isNone := by
  rw [pass, names_fill, names_mapClosed]

/-- The open tokens of a scanned text are its tokens. -/
theorem mem_names_ofSegs {s : List Seg} {w : List Char} :
    w ∈ (ofSegs s).names ↔ Seg.tok w ∈ s := by
  induction s with
  | nil => simp [names, ofSegs]
  | cons a s ih =>
    simp only [names] at ih
    cases a <;> simp [names, ofSegs, ih]

section Passes

variable (hd : word '$' = false) (hb : word '}' = false)

include hd hb

theorem scan_render {m : Mixed} (hm : m.Valid word) : scan word m.render =
    scan word m.head ++ m.tail.flatMap fun p => .tok p.1 :: scan word p.2 := by
  obtain ⟨u, t⟩ := m
  simp only [render]
  induction t generalizing u with
  | nil => simp
  | cons p t ih =>
    have hp := hm p List.mem_cons_self
    have ih := ih p.2 fun q hq => hm q (List.mem_cons_of_mem _ hq)
    have he : u ++ ((p :: t).flatMap fun p => hole p.1 ++ p.2) =
        u ++ '$' :: ('{' :: (p.1 ++ ['}']) ++ (p.2 ++ t.flatMap fun p => hole p.1 ++ p.2)) := by
      simp [hole]
    have he' : '$' :: ('{' :: (p.1 ++ ['}']) ++ (p.2 ++ t.flatMap fun p => hole p.1 ++ p.2)) =
        hole p.1 ++ (p.2 ++ t.flatMap fun p => hole p.1 ++ p.2) := by
      simp [hole]
    rw [he, scan_append_dollar hd, he', scan_hole hb hp, ih, List.flatMap_cons]
    simp

/-- **A pass over a text with open tokens** closes those it binds, and goes over the closed text. -/
theorem sub_render_pass {m : Mixed} (hm : m.Valid word) (σ : Env) :
    sub word σ m.render = (m.pass word σ).render := by
  have hpass : ∀ p : List Char × List Char,
      (Seg.tok p.1 :: scan word p.2).flatMap (Seg.text σ) =
        (σ p.1).getD (hole p.1) ++ sub word σ p.2 := fun _ => rfl
  rw [sub, scan_render hd hb hm, pass, render_fill, List.flatMap_append, List.flatMap_assoc]
  simp only [hpass, mapClosed, List.flatMap_map]
  rfl

/-- **A pass over inert text closes exactly the open tokens it binds.** -/
theorem sub_render {m : Mixed} (hm : m.Valid word) {σ : Env} (hi : m.Inert word σ) :
    sub word σ m.render = (m.fill σ).render := by
  have hclosed : m.mapClosed (sub word σ) = m := by
    have hhead : sub word σ m.head = m.head := sub_of_unbound (hi m.head List.mem_cons_self)
    have htail : m.tail.map (fun p => (p.1, sub word σ p.2)) = m.tail := by
      refine (List.map_congr_left fun p hp => ?_).trans (List.map_id _)
      rw [sub_of_unbound (hi p.2 (List.mem_cons_of_mem _ (List.mem_map_of_mem hp)))]
      rfl
    rw [mapClosed, hhead, htail]
  rw [sub_render_pass hd hb hm, pass, hclosed]

end Passes

end Mixed

/-! ## Several passes -/

/-- One pass after the other. -/
def passes (word : Char → Bool) (σs : List Env) (cs : List Char) : List Char :=
  σs.foldl (fun cs σ => sub word σ cs) cs

@[simp] theorem passes_nil (cs : List Char) : passes word [] cs = cs := rfl

@[simp] theorem passes_cons (σ : Env) (σs : List Env) (cs : List Char) :
    passes word (σ :: σs) cs = passes word σs (sub word σ cs) := rfl

/-- The first binding among several assignments. -/
def firstOf (σs : List Env) : Env := σs.foldr orElse fun _ => none

/-- Every pass leaves alone the text closed before it. -/
def Settled (word : Char → Bool) : List Env → Mixed → Prop
  | [], _ => True
  | σ :: σs, m => m.Inert word σ ∧ Settled word σs (m.fill σ)

instance decidableSettled (word : Char → Bool) : (σs : List Env) → (m : Mixed) →
    Decidable (Settled word σs m)
  | [], _ => .isTrue trivial
  | σ :: σs, m =>
    haveI := decidableSettled word σs (m.fill σ)
    inferInstanceAs (Decidable (m.Inert word σ ∧ _))

theorem fill_none (m : Mixed) : m.fill (fun _ => none) = m := by
  obtain ⟨u, t⟩ := m
  have h : ∀ t : List (List Char × List Char), Mixed.fillTail (fun _ => none) t = ([], t) := by
    intro t
    induction t with
    | nil => rfl
    | cons p t ih => simp [Mixed.fillTail, ih]
  simp [Mixed.fill, h]

theorem passes_render (hd : word '$' = false) (hb : word '}' = false) :
    ∀ (σs : List Env) {m : Mixed}, m.Valid word → Settled word σs m →
      passes word σs m.render = (m.fill (firstOf σs)).render
  | [], m, _, _ => by rw [firstOf, List.foldr_nil, fill_none]; rfl
  | σ :: σs, m, hm, hs => by
    have ih := passes_render hd hb σs (hm.fill σ) hs.2
    rw [passes_cons, Mixed.sub_render hd hb hm hs.1, ih, Mixed.fill_fill]
    rfl

theorem render_ofSegs_scan (cs : List Char) : (Mixed.ofSegs (scan word cs)).render = cs := by
  have h := Mixed.render_fill_ofSegs (fun _ => none) (scan word cs)
  rwa [fill_none, flatMap_scan] at h

/-- **Passes in a row are one simultaneous substitution**, when the text that the first pass has
closed is settled under the others. -/
theorem passes_eq_sub (hd : word '$' = false) (hb : word '}' = false) (σ : Env) (σs : List Env)
    (cs : List Char) (hs : Settled word σs ((Mixed.ofSegs (scan word cs)).fill σ)) :
    passes word (σ :: σs) cs = sub word (firstOf (σ :: σs)) cs := by
  have hv : (Mixed.ofSegs (scan word cs)).Valid word :=
    Mixed.valid_ofSegs fun w hw => isName_of_mem_scan cs hw
  have h1 : sub word σ cs = ((Mixed.ofSegs (scan word cs)).fill σ).render :=
    (Mixed.render_fill_ofSegs σ _).symm
  rw [passes_cons, h1, passes_render hd hb σs (hv.fill σ) hs, Mixed.fill_fill, Mixed.render_fill_ofSegs]
  rfl

end Template
