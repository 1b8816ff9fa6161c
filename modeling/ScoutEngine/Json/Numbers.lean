import ScoutEngine.Json
import Mathlib.Tactic.Ring

/-!
# Numbers in a text and back

`repr` writes a number in the grammar that `json.loads` reads, except for infinities and `nan`.

* `Ends`: what may stand behind a value; `natOf_toDigits`, `natOf_append`: the value of digits.
* `IntPart`, `fracChars`, `expChars`; **`number_literal`**: how a literal is read.
* `PyFloat.Same`: two decimals stand for one number; **`repr_literal`**: `repr` of a float is the
  literal of that number.
-/

set_option autoImplicit false

namespace ScoutEngine

namespace Json

/-- What may stand behind a value: nothing, or the next mark of a list or an object. -/
def Ends (rest : List Char) : Prop := ∀ c ∈ rest.head?, c = ',' ∨ c = ']' ∨ c = '\x7d'

theorem ends_nil : Ends [] := fun _ hc => absurd hc (Option.not_mem_none _)

theorem ends_cons {c : Char} {cs : List Char} (h : c = ',' ∨ c = ']' ∨ c = '\x7d') :
    Ends (c :: cs) := by
  intro d hd
  rw [List.head?_cons, Option.mem_some_iff] at hd
  exact hd ▸ h

/-! ## Digits -/

theorem natOf_eq (ds : List Char) : natOf ds = Nat.ofDigitChars 10 ds 0 := by
  unfold natOf Nat.ofDigitChars
  congr 1
  funext n c
  rw [Nat.mul_comm]
  rfl

theorem natOf_append (ds es : List Char) :
    natOf (ds ++ es) = natOf ds * 10 ^ es.length + natOf es := by
  rw [natOf_eq, natOf_eq, natOf_eq, Nat.ofDigitChars_append, Nat.ofDigitChars_eq_ofDigitChars_zero,
    Nat.mul_comm]

theorem natOf_toDigits (n : ℕ) : natOf (Nat.toDigits 10 n) = n := by
  rw [natOf_eq, Nat.ofDigitChars_ten_toDigits]

theorem natOf_zeros (n : ℕ) : natOf (List.replicate n '0') = 0 := by
  rw [natOf_eq, Nat.ofDigitChars_replicate_zero, Nat.mul_zero]

theorem isDigit_toDigits (n : ℕ) : ∀ c ∈ Nat.toDigits 10 n, c.isDigit = true := fun _ hc =>
  Nat.isDigit_of_mem_toDigits (by decide) (by decide) hc

theorem isDigit_zeros (n : ℕ) : ∀ c ∈ List.replicate n '0', c.isDigit = true := by
  intro c hc
  rw [List.eq_of_mem_replicate hc]
  rfl

/-- A positive number is written without a leading zero. -/
theorem head_toDigits (n : ℕ) (hn : 0 < n) : (Nat.toDigits 10 n).head? ≠ some '0' := by
  induction n using Nat.strong_induction_on with
  | _ n ih =>
    rw [Nat.toDigits_eq_if (by decide)]
    split_ifs with h
    · rw [List.head?_cons, ne_eq, Option.some.injEq, Nat.digitChar_eq_zero]
      omega
    · rw [List.head?_append_of_ne_nil _ Nat.toDigits_ne_nil]
      exact ih (n / 10) (by omega) (by omega)

/-! ## Literals -/

/-- The integer part of a literal: digits, and no zero in front of others. -/
structure IntPart (ip : List Char) : Prop where
  ne : ip ≠ []
  digits : ∀ c ∈ ip, c.isDigit = true
  zero : ip.head? = some '0' → ip = ['0']

/-- The fraction of a literal. -/
def fracChars (frac : List Char) : List Char := if frac = [] then [] else '.' :: frac

/-- The exponent of a literal: its sign and its digits. -/
def expChars : Option (Bool × List Char) → List Char
  | none => []
  | some (neg, es) => 'e' :: (if neg then '-' else '+') :: es

/-- The value of the exponent. -/
def expValue (ex : Option (Bool × List Char)) : Option ℤ :=
  ex.map fun p => if p.1 then -(natOf p.2 : ℤ) else natOf p.2

/-- The number of a literal. -/
def literalValue (neg : Bool) (ip frac : List Char) (ex : Option (Bool × List Char)) : PyVal :=
  if frac = [] ∧ ex = none then .int (if neg then -(natOf ip : ℤ) else natOf ip)
  else .float (.fin neg (natOf (ip ++ frac)) ((expValue ex).getD 0 - frac.length))

theorem takeWhile_digits {ds cs : List Char} (hd : ∀ c ∈ ds, c.isDigit = true)
    (hc : ∀ c ∈ cs.head?, c.isDigit = false) : (ds ++ cs).takeWhile Char.isDigit = ds := by
  rw [List.takeWhile_append_of_pos hd]
  cases cs with
  | nil => rw [List.takeWhile_nil, List.append_nil]
  | cons c cs =>
    rw [List.takeWhile_cons, hc c rfl]
    exact List.append_nil ds

theorem Ends.notDigit {rest : List Char} (hr : Ends rest) :
    ∀ c ∈ rest.head?, c.isDigit = false := by
  intro c hc
  obtain rfl | rfl | rfl := hr c hc <;> rfl

theorem expChars_notDigit (ex : Option (Bool × List Char)) {rest : List Char} (hr : Ends rest) :
    ∀ c ∈ (expChars ex ++ rest).head?, c.isDigit = false := by
  cases ex with
  | none => exact hr.notDigit
  | some p =>
    intro c hc
    obtain rfl : 'e' = c := Option.some.inj hc
    rfl

theorem fracChars_notDigit (frac : List Char) {cs : List Char}
    (hcs : ∀ c ∈ cs.head?, c.isDigit = false) :
    ∀ c ∈ (fracChars frac ++ cs).head?, c.isDigit = false := by
  unfold fracChars
  split_ifs with h
  · exact hcs
  · intro c hc
    obtain rfl : '.' = c := Option.some.inj hc
    rfl

/-- There is no exponent that is no number. -/
theorem expDigits_none : ∀ p ∈ (none : Option (Bool × List Char)),
    p.2 ≠ [] ∧ ∀ c ∈ p.2, c.isDigit = true :=
  fun p hp => absurd hp (Option.not_mem_none p)

/-- **A literal is read as its number.** -/
theorem number_literal (neg : Bool) {ip frac rest : List Char} {ex : Option (Bool × List Char)}
    (hip : IntPart ip) (hfrac : ∀ c ∈ frac, c.isDigit = true)
    (hex : ∀ p ∈ ex, p.2 ≠ [] ∧ ∀ c ∈ p.2, c.isDigit = true) (hr : Ends rest) :
    number neg (ip ++ (fracChars frac ++ (expChars ex ++ rest))) =
      some (literalValue neg ip frac ex, rest) := by
  have hexp := expChars_notDigit ex hr
  have htail := fracChars_notDigit frac hexp
  have hzero : (if ip.head? = some '0' then ['0'] else ip) = ip := by
    split_ifs with h
    · exact (hip.zero h).symm
    · rfl
  have hfs := takeWhile_digits hfrac hexp
  unfold number literalValue
  simp only [takeWhile_digits hip.digits htail, if_neg hip.ne, hzero, List.drop_left]
  by_cases hf : frac = []
  · subst hf
    rw [fracChars, if_pos rfl]
    cases ex with
    | none =>
      cases rest with
      | nil => rfl
      | cons c cs =>
        obtain rfl | rfl | rfl := hr c rfl
        · rfl
        · rfl
        · rfl
    | some p =>
      obtain ⟨eneg, es⟩ := p
      obtain ⟨hne, hes⟩ := hex _ rfl
      have htake := takeWhile_digits hes hr.notDigit
      cases eneg <;> simp [expChars, htake, hne, expValue]
  · rw [fracChars, if_neg hf]
    cases ex with
    | none =>
      rw [expChars, List.nil_append] at hfs
      cases rest with
      | nil =>
        rw [List.append_nil] at hfs
        simp [expChars, hfs, hf, expValue]
      | cons c cs =>
        obtain rfl | rfl | rfl := hr c rfl <;> simp [expChars, hfs, hf, expValue]
    | some p =>
      obtain ⟨eneg, es⟩ := p
      obtain ⟨hne, hes⟩ := hex _ rfl
      have htake := takeWhile_digits hes hr.notDigit
      cases eneg
      · have hfs : (frac ++ 'e' :: '+' :: (es ++ rest)).takeWhile Char.isDigit = frac := hfs
        simp [expChars, hfs, hf, htake, hne, expValue]
      · have hfs : (frac ++ 'e' :: '-' :: (es ++ rest)).takeWhile Char.isDigit = frac := hfs
        simp [expChars, hfs, hf, htake, hne, expValue]

/-! ## Integers -/

theorem intPart_of_head {ip : List Char} (hne : ip ≠ []) (hd : ∀ c ∈ ip, c.isDigit = true)
    (hz : ip.head? ≠ some '0') : IntPart ip :=
  ⟨hne, hd, fun h => absurd h hz⟩

theorem intPart_zero : IntPart ['0'] := by
  refine ⟨List.cons_ne_nil _ _, fun c hc => ?_, fun _ => rfl⟩
  rw [List.mem_singleton.mp hc]
  rfl

theorem intPart_toDigits (n : ℕ) : IntPart (Nat.toDigits 10 n) := by
  by_cases hn : n = 0
  · subst hn
    exact intPart_zero
  · exact intPart_of_head Nat.toDigits_ne_nil (isDigit_toDigits n) (head_toDigits n (by omega))

theorem toList_toString (n : ℕ) : (toString n).toList = Nat.toDigits 10 n := by
  rw [Nat.toString_eq_repr, Nat.toList_repr]

/-- **An integer is read back.** -/
theorem number_toDigits (neg : Bool) (n : ℕ) {rest : List Char} (hr : Ends rest) :
    number neg (Nat.toDigits 10 n ++ rest) = some (.int (if neg then -(n : ℤ) else n), rest) := by
  have h : number neg (Nat.toDigits 10 n ++ (fracChars [] ++ (expChars none ++ rest))) =
      some (literalValue neg (Nat.toDigits 10 n) [] none, rest) :=
    number_literal neg (intPart_toDigits n) (fun c hc => absurd hc List.not_mem_nil)
      expDigits_none hr
  simpa [fracChars, expChars, literalValue, natOf_toDigits] using h

/-! ## Floats -/

/-- `d · 10 ^ e` and `d' · 10 ^ e'` are one number. -/
def SameDecimal (d : ℕ) (e : ℤ) (d' : ℕ) (e' : ℤ) : Prop :=
  d * 10 ^ (e - e').toNat = d' * 10 ^ (e' - e).toNat

/-- Zeros may be appended to the second number. -/
theorem SameDecimal.scale {a d : ℕ} {b e : ℤ} (h : SameDecimal a b d e) (k : ℕ) :
    SameDecimal a b (d * 10 ^ k) (e - k) := by
  unfold SameDecimal at h ⊢
  obtain ⟨j, hj⟩ : ∃ j, (b - (e - k)).toNat = (b - e).toNat + j :=
    ⟨(b - (e - k)).toNat - (b - e).toNat, by omega⟩
  have hk : k + (e - k - b).toNat = (e - b).toNat + j := by omega
  rw [hj, Nat.mul_assoc d, ← Nat.pow_add, hk, Nat.pow_add, Nat.pow_add, ← Nat.mul_assoc, h,
    Nat.mul_assoc]

/-- A literal of `d · 10 ^ e` that is read as a float. -/
def FloatLiteral (d : ℕ) (e : ℤ) (cs : List Char) : Prop :=
  ∃ (ip frac : List Char) (ex : Option (Bool × List Char)), IntPart ip ∧
    (∀ c ∈ frac, c.isDigit = true) ∧ (∀ p ∈ ex, p.2 ≠ [] ∧ ∀ c ∈ p.2, c.isDigit = true) ∧
    ¬ (frac = [] ∧ ex = none) ∧ cs = ip ++ (fracChars frac ++ expChars ex) ∧
    SameDecimal (natOf (ip ++ frac)) ((expValue ex).getD 0 - frac.length) d e

/-- **A float literal is read as its number.** -/
theorem FloatLiteral.number {d : ℕ} {e : ℤ} {cs rest : List Char} (h : FloatLiteral d e cs)
    (neg : Bool) (hr : Ends rest) : ∃ d' e', SameDecimal d' e' d e ∧
      number neg (cs ++ rest) = some (.float (.fin neg d' e'), rest) := by
  obtain ⟨ip, frac, ex, hip, hfrac, hex, hne, rfl, hs⟩ := h
  refine ⟨_, _, hs, ?_⟩
  have h := number_literal neg hip hfrac hex hr
  rw [literalValue, if_neg hne] at h
  rw [← h, List.append_assoc, List.append_assoc]

theorem FloatLiteral.scale {d : ℕ} {e : ℤ} {cs : List Char} (h : FloatLiteral d e cs) (k : ℕ) :
    FloatLiteral (d * 10 ^ k) (e - k) cs := by
  obtain ⟨ip, frac, ex, hip, hfrac, hex, hne, hcs, hs⟩ := h
  exact ⟨ip, frac, ex, hip, hfrac, hex, hne, hcs, hs.scale k⟩

/-- A literal that shows the number digit by digit. -/
theorem floatLiteral_of_value {ip frac : List Char} {ex : Option (Bool × List Char)} {d : ℕ} {e : ℤ}
    (hip : IntPart ip) (hfrac : ∀ c ∈ frac, c.isDigit = true)
    (hex : ∀ p ∈ ex, p.2 ≠ [] ∧ ∀ c ∈ p.2, c.isDigit = true) (hne : ¬ (frac = [] ∧ ex = none))
    (hd : natOf (ip ++ frac) = d) (he : (expValue ex).getD 0 - frac.length = e) :
    FloatLiteral d e (ip ++ (fracChars frac ++ expChars ex)) :=
  ⟨ip, frac, ex, hip, hfrac, hex, hne, rfl, by rw [hd, he, SameDecimal]⟩

/-- Without an exponent. -/
theorem floatLiteral_point {ip frac : List Char} {d : ℕ} {e : ℤ} (hip : IntPart ip)
    (hfrac : ∀ c ∈ frac, c.isDigit = true) (hne : frac ≠ []) (hd : natOf (ip ++ frac) = d)
    (he : -(frac.length : ℤ) = e) : FloatLiteral d e (ip ++ '.' :: frac) := by
  have h : FloatLiteral d e (ip ++ (fracChars frac ++ expChars none)) :=
    floatLiteral_of_value hip hfrac expDigits_none (fun h => hne h.1) hd ((Int.zero_sub _).trans he)
  rwa [fracChars, if_neg hne, expChars, List.append_nil] at h

section Shapes

variable {d : ℕ} (hd : 0 < d)

include hd

theorem intPart_take {k : ℕ} (hk : 0 < k) (zs : ℕ) :
    IntPart ((Nat.toDigits 10 d).take k ++ List.replicate zs '0') := by
  have hne : (Nat.toDigits 10 d).take k ≠ [] := by
    rw [ne_eq, List.take_eq_nil_iff]
    rintro (h | h)
    · omega
    · exact Nat.toDigits_ne_nil h
  refine intPart_of_head (List.append_ne_nil_of_left_ne_nil hne _) (fun c hc => ?_) ?_
  · rcases List.mem_append.mp hc with h | h
    · exact isDigit_toDigits d c (List.mem_of_mem_take h)
    · exact isDigit_zeros zs c h
  · rw [List.head?_append_of_ne_nil _ hne, List.head?_take, if_neg (by omega)]
    exact head_toDigits d hd

/-- Digits, zeros and `.0`. -/
theorem floatLiteral_whole (k : ℕ) : FloatLiteral d k
    (Nat.toDigits 10 d ++ List.replicate k '0' ++ ['.', '0']) := by
  have hip := intPart_take hd (Nat.length_toDigits_pos (b := 10) (n := d)) k
  rw [List.take_length] at hip
  refine ⟨_, ['0'], none, hip, intPart_zero.digits, expDigits_none, fun h => List.cons_ne_nil _ _ h.1, rfl, ?_⟩
  have hval : natOf (Nat.toDigits 10 d ++ List.replicate k '0' ++ ['0']) = d * 10 ^ k * 10 := by
    rw [natOf_append, natOf_append, natOf_toDigits, natOf_zeros, List.length_replicate]
    rfl
  have hexp : ((k : ℤ) - (0 - (1 : ℕ))).toNat = k + 1 := by omega
  have hzero : (0 - ((1 : ℕ) : ℤ) - k).toNat = 0 := by omega
  show SameDecimal (natOf (Nat.toDigits 10 d ++ List.replicate k '0' ++ ['0'])) (0 - (1 : ℕ)) d k
  rw [SameDecimal, hval, hexp, hzero, Nat.pow_succ, Nat.pow_zero, Nat.mul_one, Nat.mul_assoc]

/-- A point inside the digits. -/
theorem floatLiteral_inside {k : ℕ} (hk : 0 < k) (hn : k < (Nat.toDigits 10 d).length) :
    FloatLiteral d ((k : ℤ) - (Nat.toDigits 10 d).length)
      ((Nat.toDigits 10 d).take k ++ '.' :: (Nat.toDigits 10 d).drop k) := by
  have hip := intPart_take hd hk 0
  rw [List.replicate_zero, List.append_nil] at hip
  refine floatLiteral_point hip (fun c hc => isDigit_toDigits d c (List.mem_of_mem_drop hc))
    ?_ ?_ ?_
  · rw [ne_eq, List.drop_eq_nil_iff]
    omega
  · rw [List.take_append_drop, natOf_toDigits]
  · rw [List.length_drop]
    omega

omit hd in
/-- Zeros behind the point. -/
theorem floatLiteral_small (k : ℕ) :
    FloatLiteral d (-(k + (Nat.toDigits 10 d).length : ℤ))
      ('0' :: '.' :: (List.replicate k '0' ++ Nat.toDigits 10 d)) := by
  show FloatLiteral d _ (['0'] ++ '.' :: (List.replicate k '0' ++ Nat.toDigits 10 d))
  refine floatLiteral_point intPart_zero (fun c hc => ?_)
    (List.append_ne_nil_of_right_ne_nil _ Nat.toDigits_ne_nil) ?_ ?_
  · rcases List.mem_append.mp hc with h | h
    · exact isDigit_zeros k c h
    · exact isDigit_toDigits d c h
  · rw [← List.append_assoc, natOf_append, natOf_append, natOf_zeros, natOf_toDigits]
    simp [natOf]
  · rw [List.length_append, List.length_replicate, Int.natCast_add]

/-- One digit before the point, and an exponent. -/
theorem floatLiteral_scientific (e : ℤ) : FloatLiteral d (e - ((Nat.toDigits 10 d).length - 1))
    ((Nat.toDigits 10 d).take 1 ++ (fracChars ((Nat.toDigits 10 d).drop 1) ++
      (PyFloat.expText e).toList)) := by
  have hip := intPart_take hd Nat.zero_lt_one 0
  rw [List.replicate_zero, List.append_nil] at hip
  have hes : (PyFloat.expText e).toList = expChars (some (decide (e < 0),
      (if e.natAbs < 10 then ['0'] else []) ++ Nat.toDigits 10 e.natAbs)) := by
    unfold PyFloat.expText
    rw [String.toList_append, String.toList_append, toList_toString]
    by_cases he : e < 0 <;> by_cases hs : e.natAbs < 10 <;> simp [he, hs, expChars]
  have hval : natOf ((if e.natAbs < 10 then ['0'] else []) ++ Nat.toDigits 10 e.natAbs) =
      e.natAbs := by
    rw [natOf_append, natOf_toDigits]
    split_ifs <;> simp [natOf]
  have hexp : expValue (some (decide (e < 0),
      (if e.natAbs < 10 then ['0'] else []) ++ Nat.toDigits 10 e.natAbs)) = some e := by
    simp only [expValue, Option.map_some, hval, decide_eq_true_eq, Option.some.injEq]
    split_ifs with he
    · rw [Int.ofNat_natAbs_of_nonpos (Int.le_of_lt he), Int.neg_neg]
    · exact Int.natAbs_of_nonneg (Int.not_lt.mp he)
  rw [hes]
  refine floatLiteral_of_value hip (fun c hc => isDigit_toDigits d c (List.mem_of_mem_drop hc))
    (fun p hp => ?_) (fun h => Option.some_ne_none _ h.2) ?_ ?_
  · obtain rfl := Option.some.inj hp
    refine ⟨List.append_ne_nil_of_right_ne_nil _ Nat.toDigits_ne_nil, fun c hc => ?_⟩
    rcases List.mem_append.mp hc with h | h
    · split_ifs at h with hs
      · exact intPart_zero.digits c h
      · exact absurd h List.not_mem_nil
    · exact isDigit_toDigits _ c h
  · rw [List.take_append_drop, natOf_toDigits]
  · have hpos := Nat.length_toDigits_pos (b := 10) (n := d)
    rw [List.length_drop, hexp, Option.getD_some]
    omega

end Shapes

theorem floatLiteral_zero (e : ℤ) : FloatLiteral 0 e ['0', '.', '0'] := by
  refine ⟨['0'], ['0'], none, intPart_zero, intPart_zero.digits, expDigits_none,
    fun h => List.cons_ne_nil _ _ h.1, rfl, ?_⟩
  rw [SameDecimal, Nat.zero_mul]
  exact Nat.zero_mul _

theorem normalize_eq (n d : ℕ) (e : ℤ) : ∃ k : ℕ,
    d = (PyFloat.normalize n d e).1 * 10 ^ k ∧ e = (PyFloat.normalize n d e).2 - k := by
  induction n generalizing d e with
  | zero => exact ⟨0, (Nat.mul_one d).symm, (Int.sub_zero e).symm⟩
  | succ n ih =>
    unfold PyFloat.normalize
    split_ifs with h
    · obtain ⟨k, hd, he⟩ := ih (d / 10) (e + 1)
      refine ⟨k + 1, ?_, ?_⟩
      · rw [Nat.pow_succ, ← Nat.mul_assoc, ← hd]
        omega
      · rw [Int.natCast_succ, ← Int.sub_sub, ← he, Int.add_sub_cancel]
    · exact ⟨0, (Nat.mul_one d).symm, (Int.sub_zero e).symm⟩

/-- **`repr` of a finite float is a literal of its number.** -/
theorem repr_literal (neg : Bool) (digits : ℕ) (exp : ℤ) : ∃ cs,
    (PyFloat.repr (.fin neg digits exp)).toList = (if neg then ['-'] else []) ++ cs ∧
      FloatLiteral digits exp cs := by
  obtain ⟨k, hd, he⟩ := normalize_eq digits digits exp
  suffices h : ∃ cs, (PyFloat.repr (.fin neg digits exp)).toList =
      (if neg then ['-'] else []) ++ cs ∧ FloatLiteral (PyFloat.normalize digits digits exp).1
        (PyFloat.normalize digits digits exp).2 cs by
    obtain ⟨cs, hcs, h⟩ := h
    refine ⟨cs, hcs, ?_⟩
    have h := h.scale k
    rwa [← hd, ← he] at h
  unfold PyFloat.repr
  dsimp only
  generalize (PyFloat.normalize digits digits exp).1 = d
  generalize (PyFloat.normalize digits digits exp).2 = e
  rw [String.toList_append, toList_toString]
  have hneg : (if neg then "-" else "").toList = if neg then ['-'] else [] := by
    cases neg <;> rfl
  rw [hneg]
  refine ⟨_, rfl, ?_⟩
  have hlen := Nat.length_toDigits_pos (b := 10) (n := d)
  split_ifs with h0 hp hp' hp'' h1
  · subst h0
    exact floatLiteral_zero e
  · have h := floatLiteral_small (d := d) ((Nat.toDigits 10 d).length + e : ℤ).natAbs
    rw [Int.ofNat_natAbs_of_nonpos hp'] at h
    simp only [String.toList_append, PyFloat.zeros, String.toList_ofList, List.append_assoc]
    have he : -(-((Nat.toDigits 10 d).length + e : ℤ) + (Nat.toDigits 10 d).length) = e := by omega
    rw [he] at h
    exact h
  · have h := floatLiteral_whole (d := d) (by omega) e.toNat
    have he : ((e.toNat : ℕ) : ℤ) = e := Int.toNat_of_nonneg (by omega)
    have hz : ((Nat.toDigits 10 d).length + e : ℤ).toNat - (Nat.toDigits 10 d).length =
        e.toNat := by
      omega
    simp only [String.toList_append, PyFloat.zeros, String.toList_ofList, hz]
    rw [he] at h
    exact h
  · have h := floatLiteral_inside (d := d) (by omega)
      (k := ((Nat.toDigits 10 d).length + e : ℤ).toNat) (by omega) (by omega)
    rw [Int.toNat_of_nonneg (by omega)] at h
    simp only [String.toList_append, String.toList_ofList, List.append_assoc]
    have he : (Nat.toDigits 10 d).length + e - (Nat.toDigits 10 d).length = e := by omega
    rw [he] at h
    exact h
  · have h := floatLiteral_scientific (d := d) (by omega) ((Nat.toDigits 10 d).length + e - 1)
    have hdrop : (Nat.toDigits 10 d).drop 1 = [] := List.drop_eq_nil_of_le (by omega)
    rw [hdrop, fracChars, if_pos rfl, List.nil_append] at h
    simp only [String.toList_append, String.toList_ofList, String.toList_empty, List.append_nil]
    have he : (Nat.toDigits 10 d).length + e - 1 - ((Nat.toDigits 10 d).length - 1) = e := by omega
    rwa [he] at h
  · have h := floatLiteral_scientific (d := d) (by omega) ((Nat.toDigits 10 d).length + e - 1)
    have hdrop : (Nat.toDigits 10 d).drop 1 ≠ [] := by
      rw [ne_eq, List.drop_eq_nil_iff]
      omega
    rw [fracChars, if_neg hdrop] at h
    simp only [String.toList_append, String.toList_ofList, List.append_assoc]
    have he : (Nat.toDigits 10 d).length + e - 1 - ((Nat.toDigits 10 d).length - 1) = e := by omega
    rw [he] at h
    exact h

end Json

end ScoutEngine
