import Mathlib.Data.List.Infix
import Mathlib.Data.List.TakeWhile
import Mathlib.Tactic.Common

/-!
# The last occurrence of a pattern, and trimming

* `Last pat text rest`: `rest` is what follows the last occurrence of the pattern.
* `BorderFree`: the pattern does not overlap itself; **`Last.unique`**, `Last.exists`.
* `infix_of_append_left`, `infix_or_of_head`: an occurrence does not contain characters that the
  pattern lacks.
* `trim`: drop junk at both ends; `Clean`, `trim_append`, **`trim_eq_iff`**.
-/

set_option autoImplicit false

namespace Occurrence

variable {α : Type} {pat text rest rest' : List α}

/-! ## The last occurrence -/

/-- `rest` is what follows the last occurrence of `pat` in `text`. -/
def Last (pat text rest : List α) : Prop := (∃ pre, text = pre ++ (pat ++ rest)) ∧ ¬ pat <:+: rest

/-- No proper end of the pattern begins it. -/
def BorderFree (pat : List α) : Prop := ∀ k, 0 < k → k < pat.length → ¬ pat.drop k <+: pat

theorem Last.append (h : Last pat text rest) (pre : List α) : Last pat (pre ++ text) rest := by
  obtain ⟨⟨pre', rfl⟩, hrest⟩ := h
  exact ⟨⟨pre ++ pre', (List.append_assoc _ _ _).symm⟩, hrest⟩

theorem Last.infix (h : Last pat text rest) : pat <:+: text := by
  obtain ⟨⟨pre, rfl⟩, -⟩ := h
  exact ⟨pre, rest, List.append_assoc _ _ _⟩

/-- **A pattern that occurs occurs for a last time.** -/
theorem Last.exists (hpat : pat ≠ []) (h : pat <:+: text) : ∃ rest, Last pat text rest := by
  induction hn : text.length using Nat.strong_induction_on generalizing text with
  | _ n ih =>
    obtain ⟨pre, rest, rfl⟩ := h
    by_cases hrest : pat <:+: rest
    · have hpos : 0 < pat.length := List.length_pos_of_ne_nil hpat
      have hlt : rest.length < n := by
        simp only [List.length_append] at hn
        omega
      obtain ⟨rest', hlast⟩ := ih rest.length hlt hrest rfl
      exact ⟨rest', hlast.append (pre ++ pat)⟩
    · exact ⟨rest, ⟨pre, List.append_assoc _ _ _⟩, hrest⟩

/-- A pattern without borders that ends after another occurrence begins after it. -/
theorem BorderFree.suffix (h : BorderFree pat) {pre pre' after : List α} (hafter : after ≠ [])
    (heq : pre ++ pat = pre' ++ (pat ++ after)) : pat <:+ after := by
  have hpat : pat <:+ pre' ++ (pat ++ after) := ⟨pre, heq⟩
  have hend : after <:+ pre' ++ (pat ++ after) := ⟨pre' ++ pat, List.append_assoc _ _ _⟩
  rcases Nat.lt_or_ge after.length pat.length with hlt | hge
  · exfalso
    obtain ⟨front, rfl⟩ := List.suffix_of_suffix_length_le hend hpat hlt.le
    have hpos : 0 < after.length := List.length_pos_of_ne_nil hafter
    refine h after.length hpos hlt ?_
    have hfront : pre ++ front = pre' ++ (front ++ after) := by
      refine (List.append_left_inj after).mp ?_
      simpa only [List.append_assoc] using heq
    have hsuffix : front <:+ front ++ after :=
      List.suffix_of_suffix_length_le ⟨pre, hfront⟩ ⟨pre', rfl⟩ (by simp)
    obtain ⟨cut, hcut⟩ := hsuffix
    have hlen : cut.length = after.length := by
      have hlens := congrArg List.length hcut
      simp only [List.length_append] at hlens
      omega
    rw [← hcut, ← hlen, List.drop_left]
    exact ⟨after, by rw [hcut]⟩
  · exact List.suffix_of_suffix_length_le hpat hend hge

/-- **The last occurrence is one.** -/
theorem Last.unique (hborder : BorderFree pat) (h : Last pat text rest) (h' : Last pat text rest') :
    rest = rest' := by
  have key : ∀ {r r' : List α}, Last pat text r → Last pat text r' → r <:+ r' → r = r' := by
    rintro r r' ⟨⟨pre, hpre⟩, -⟩ ⟨⟨pre', hpre'⟩, hr'⟩ ⟨after, rfl⟩
    rcases eq_or_ne after [] with rfl | hafter
    · rfl
    · have heq : pre ++ pat = pre' ++ (pat ++ after) := by
        refine (List.append_left_inj r).mp ?_
        simpa only [List.append_assoc] using hpre.symm.trans hpre'
      exact absurd ((hborder.suffix hafter heq).isInfix.trans (List.prefix_append _ _).isInfix) hr'
  obtain ⟨pre, hpre⟩ := h.1
  obtain ⟨pre', hpre'⟩ := h'.1
  have hs : rest <:+ text := ⟨pre ++ pat, by rw [hpre, List.append_assoc]⟩
  have hs' : rest' <:+ text := ⟨pre' ++ pat, by rw [hpre', List.append_assoc]⟩
  rcases List.suffix_or_suffix_of_suffix hs hs' with hle | hle
  · exact key h h' hle
  · exact (key h' h hle).symm

/-! ## Where an occurrence can be -/

theorem infix_of_append_left {front : List α} (hpat : pat ≠ []) (hfront : ∀ c ∈ front, c ∉ pat)
    (h : pat <:+: front ++ rest) : pat <:+: rest := by
  induction front with
  | nil => exact h
  | cons c front ih =>
    rw [List.forall_mem_cons] at hfront
    rcases List.infix_cons_iff.mp h with hprefix | hinfix
    · obtain ⟨d, pat', rfl⟩ := List.exists_cons_of_ne_nil hpat
      obtain rfl := (List.cons_prefix_cons.mp hprefix).1
      exact absurd List.mem_cons_self hfront.1
    · exact ih hfront.2 hinfix

/-- A pattern in two parts, of which the second does not go on with it, is in one of them. -/
theorem infix_or_of_head {front : List α} (hhead : ∀ c ∈ rest.head?, c ∉ pat)
    (h : pat <:+: front ++ rest) : pat <:+: front ∨ pat <:+: rest := by
  induction front with
  | nil => exact .inr h
  | cons c front ih =>
    rcases List.infix_cons_iff.mp h with hprefix | hinfix
    · left
      rcases List.prefix_or_prefix_of_prefix hprefix (List.prefix_append (c :: front) rest) with
        hin | ⟨after, hafter⟩
      · exact hin.isInfix
      · cases after with
        | nil => exact ⟨[], [], by simpa using hafter.symm⟩
        | cons d after =>
          have hin : (c :: front) ++ (d :: after) <+: (c :: front) ++ rest := hafter ▸ hprefix
          obtain ⟨rest', rfl⟩ := (List.prefix_append_right_inj _).mp hin
          exact absurd (by simp [← hafter]) (hhead d rfl)
    · exact (ih hinfix).imp_left fun hf => List.infix_cons hf

/-- A pattern that ends a text lies after every character that it lacks. -/
theorem suffix_of_not_mem {front : List α} {c : α} (hc : c ∉ pat)
    (h : pat <:+ front ++ c :: rest) : pat <:+ rest := by
  rcases List.suffix_or_suffix_of_suffix h (List.suffix_append front (c :: rest)) with hin | hout
  · rcases List.suffix_cons_iff.mp hin with rfl | hrest
    · exact absurd List.mem_cons_self hc
    · exact hrest
  · exact absurd (hout.subset List.mem_cons_self) hc

/-! ## Trimming -/

variable {junk : α → Bool}

/-- Drop the junk at both ends. -/
def trim (junk : α → Bool) (text : List α) : List α :=
  ((text.dropWhile junk).reverse.dropWhile junk).reverse

/-- There is no junk at the ends. -/
def Clean (junk : α → Bool) (text : List α) : Prop :=
  (∀ c ∈ text.head?, junk c = false) ∧ ∀ c ∈ text.getLast?, junk c = false

theorem dropWhile_append_clean {front : List α} (h : ∀ c ∈ text.head?, junk c = false)
    (hne : text ≠ []) : (front ++ text).dropWhile junk = front.dropWhile junk ++ text := by
  rw [List.dropWhile_append]
  split_ifs with hempty
  · rw [List.isEmpty_iff.mp hempty, List.nil_append]
    obtain ⟨c, text, rfl⟩ := List.exists_cons_of_ne_nil hne
    exact List.dropWhile_cons_of_neg (by simp [h c rfl])
  · rfl

/-- **Only what stands around a clean text is trimmed.** -/
theorem trim_append {front : List α} (h : Clean junk text) (hne : text ≠ []) (back : List α) :
    trim junk (front ++ (text ++ back)) =
      front.dropWhile junk ++ (text ++ (back.reverse.dropWhile junk).reverse) := by
  have hhead : ∀ c ∈ (text ++ back).head?, junk c = false := by
    obtain ⟨c, text, rfl⟩ := List.exists_cons_of_ne_nil hne
    exact h.1
  have hlast : ∀ c ∈ text.reverse.head?, junk c = false := by
    rw [List.head?_reverse]
    exact h.2
  have hback : (back.reverse ++ (text.reverse ++ (front.dropWhile junk).reverse)).dropWhile junk =
      back.reverse.dropWhile junk ++ (text.reverse ++ (front.dropWhile junk).reverse) := by
    refine dropWhile_append_clean ?_ (by simp [hne])
    rw [List.head?_append]
    cases hr : text.reverse.head? with
    | none => exact absurd (List.head?_eq_none_iff.mp hr) (by simpa using hne)
    | some c =>
      rintro d ⟨⟩
      exact hlast c hr
  rw [trim, dropWhile_append_clean hhead (by simp [hne])]
  simp only [List.reverse_append, List.append_assoc, hback, List.reverse_reverse]

theorem trim_all_junk (h : ∀ c ∈ text, junk c = true) : trim junk text = [] := by
  rw [trim, List.dropWhile_eq_nil_iff.mpr h]
  rfl

theorem head_dropWhile (junk : α → Bool) (text : List α) :
    ∀ c ∈ (text.dropWhile junk).head?, junk c = false := by
  intro c hc
  have hnot := List.head?_dropWhile_not junk text
  rw [Option.mem_def.mp hc] at hnot
  simpa using hnot

/-- What is left of a text is clean, and what is gone is junk. -/
theorem trim_spec (junk : α → Bool) (text : List α) : Clean junk (trim junk text) ∧
    ∃ front back, text = front ++ (trim junk text ++ back) ∧ (∀ c ∈ front, junk c = true) ∧
      ∀ c ∈ back, junk c = true := by
  have hback : text.dropWhile junk =
      trim junk text ++ ((text.dropWhile junk).reverse.takeWhile junk).reverse := by
    rw [trim, ← List.reverse_append, List.takeWhile_append_dropWhile, List.reverse_reverse]
  refine ⟨⟨fun c hc => ?_, fun c hc => ?_⟩, text.takeWhile junk,
    ((text.dropWhile junk).reverse.takeWhile junk).reverse, ?_,
    fun c hc => List.mem_takeWhile_imp hc,
    fun c hc => List.mem_takeWhile_imp (List.mem_reverse.mp hc)⟩
  · refine head_dropWhile junk text c ?_
    rw [hback, List.head?_append, Option.mem_def.mp hc]
    rfl
  · rw [trim, List.getLast?_reverse] at hc
    exact head_dropWhile junk _ c hc
  · rw [← hback, List.takeWhile_append_dropWhile]

theorem trim_eq_iff {r : List α} : trim junk text = r ↔ Clean junk r ∧
    ∃ front back, text = front ++ (r ++ back) ∧ (∀ c ∈ front, junk c = true) ∧
      ∀ c ∈ back, junk c = true := by
  constructor
  · rintro rfl
    exact trim_spec junk text
  · rintro ⟨hclean, front, back, rfl, hfront, hback⟩
    rcases eq_or_ne r [] with rfl | hne
    · refine trim_all_junk fun c hc => ?_
      rcases List.mem_append.mp hc with hc | hc
      · exact hfront c hc
      · exact hback c hc
    · have hback' : back.reverse.dropWhile junk = [] :=
        List.dropWhile_eq_nil_iff.mpr fun c hc => hback c (List.mem_reverse.mp hc)
      rw [trim_append hclean hne, List.dropWhile_eq_nil_iff.mpr hfront, hback']
      simp

end Occurrence
