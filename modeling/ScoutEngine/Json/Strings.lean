import ScoutEngine.Json
import Mathlib.Tactic.SplitIfs

/-!
# Strings in a text and back

`repr` of a string is a JSON string only if it is quoted by double quotes and none of its escapes
is one that only Python has.

* `CharShown`: the characters whose `repr` is JSON; `stringBody_reprChar`.
* `QuoteShown`: the strings; **`stringBody_quoted`**: what the reader makes of a quoted string.
-/

set_option autoImplicit false

namespace ScoutEngine

namespace Json

variable [PyText]

/-! ## Characters -/

/-- Between double quotes, `repr` writes the character as JSON does: not as `\x` or `\U`. -/
def CharShown (c : Char) : Prop :=
  c = '\\' ∨ c = '\n' ∨ c = '\r' ∨ c = '\t' ∨ 32 ≤ c.toNat ∧ c.toNat ≠ 127 ∧
    (c.toNat < 127 ∨ PyText.isPrintable c = true ∨ 256 ≤ c.toNat ∧ c.toNat < 65536)

instance (c : Char) : Decidable (CharShown c) :=
  inferInstanceAs (Decidable (_ ∨ _ ∨ _ ∨ _ ∨ _ ∧ _ ∧ (_ ∨ _ ∨ _ ∧ _)))

omit [PyText] in
theorem hexDigit_digitChar : ∀ d < 16, hexDigit d.digitChar = some d := by decide

omit [PyText] in
/-- The four digits of a code unit. -/
theorem hex_four {n : ℕ} (hn : n < 65536) : (PyVal.hex 4 n).toList =
    [(n / 4096).digitChar, (n / 256 % 16).digitChar, (n / 16 % 16).digitChar,
      (n % 16).digitChar] := by
  have hstep : ∀ m, 16 ≤ m → Nat.toDigits 16 m = Nat.toDigits 16 (m / 16) ++ [(m % 16).digitChar] :=
    fun m hm => Nat.toDigits_of_base_le (by decide) hm
  have hlast : ∀ m, m < 16 → Nat.toDigits 16 m = [m.digitChar] := fun m hm =>
    Nat.toDigits_of_lt_base hm
  have h256 : n / 16 / 16 = n / 256 := Nat.div_div_eq_div_mul n 16 16
  have h4096 : n / 256 / 16 = n / 4096 := Nat.div_div_eq_div_mul n 256 16
  unfold PyVal.hex
  dsimp only
  rw [String.toList_ofList]
  by_cases h1 : n < 16
  · have e1 : n / 4096 = 0 := by omega
    have e2 : n / 256 % 16 = 0 := by omega
    have e3 : n / 16 % 16 = 0 := by omega
    rw [hlast n h1, e1, e2, e3, Nat.mod_eq_of_lt h1]
    rfl
  by_cases h2 : n < 256
  · have e1 : n / 4096 = 0 := by omega
    have e2 : n / 256 % 16 = 0 := by omega
    have e3 : n / 16 % 16 = n / 16 := by omega
    rw [hstep n (by omega), hlast (n / 16) (by omega), e1, e2, e3]
    rfl
  by_cases h3 : n < 4096
  · have e1 : n / 4096 = 0 := by omega
    have e2 : n / 256 % 16 = n / 256 := by omega
    rw [hstep n (by omega), hstep (n / 16) (by omega), h256, hlast (n / 256) (by omega), e1, e2]
    rfl
  · rw [hstep n (by omega), hstep (n / 16) (by omega), h256, hstep (n / 256) (by omega), h4096,
      hlast (n / 4096) (by omega)]
    rfl

omit [PyText] in
/-- Four digits are read back. -/
theorem hex4_hex {n : ℕ} (hn : n < 65536) (cs : List Char) :
    hex4 ((PyVal.hex 4 n).toList ++ cs) = some (n, cs) := by
  rw [hex_four hn]
  simp only [List.cons_append, List.nil_append, hex4]
  rw [hexDigit_digitChar _ (by omega), hexDigit_digitChar _ (by omega),
    hexDigit_digitChar _ (by omega), hexDigit_digitChar _ (by omega)]
  have hval : (((n / 4096) * 16 + n / 256 % 16) * 16 + n / 16 % 16) * 16 + n % 16 = n := by omega
  exact congrArg (fun m => some (m, cs)) hval

omit [PyText] in
/-- An escaped code unit of a character is read as the character. -/
theorem unicodeEscape_hex {c : Char} (hc : c.toNat < 65536) (cs : List Char) :
    unicodeEscape ((PyVal.hex 4 c.toNat).toList ++ cs) = some (c, cs) := by
  have hv : c.toNat < 0xd800 ∨ 0xdfff < c.toNat := by
    rcases c.valid with h | h
    · exact Or.inl h
    · exact Or.inr h.1
  unfold unicodeEscape unitChar
  rw [hex4_hex hc]
  simp only [Option.bind_eq_bind, Option.bind_some]
  rw [if_neg (by omega), if_neg (by omega), Char.ofNat_toNat]

omit [PyText] in
theorem stringBody_char {c : Char} (hq : c ≠ '"') (hb : c ≠ '\\') (hc : 32 ≤ c.toNat) (n : ℕ)
    (acc cs : List Char) : stringBody (n + 1) acc (c :: cs) = stringBody n (c :: acc) cs := by
  rw [stringBody.eq_def]
  split
  · rename_i h
    exact absurd h (Nat.succ_ne_zero n)
  · rename_i h
    exact absurd h (List.cons_ne_nil _ _)
  · rename_i h
    exact absurd (List.cons.inj h).1 hq
  · rename_i h
    exact absurd (List.cons.inj h).1 hb
  · rename_i h
    exact absurd (List.cons.inj h).1 hb
  · rename_i hn h
    obtain ⟨rfl, rfl⟩ := List.cons.inj h
    obtain rfl := Nat.succ.inj hn
    rw [if_neg]
    rintro (h | h)
    · omega
    · exact hb h

omit [PyText] in
/-- A one-letter escape; the others are refused. -/
theorem stringBody_escape {d : Char} (hu : d ≠ 'u') (n : ℕ) (acc cs : List Char) :
    stringBody (n + 1) acc ('\\' :: d :: cs) =
      (simpleEscape d).bind fun c => stringBody n (c :: acc) cs := by
  rw [stringBody.eq_def]
  split
  · rename_i h
    exact absurd h (Nat.succ_ne_zero n)
  · rename_i h
    exact absurd h (List.cons_ne_nil _ _)
  · rename_i h
    exact absurd (List.cons.inj h).1 (by decide)
  · rename_i h
    exact absurd (List.cons.inj (List.cons.inj h).2).1 hu
  · rename_i h
    obtain ⟨rfl, rfl⟩ := List.cons.inj (List.cons.inj h).2
    obtain rfl := Nat.succ.inj ‹n + 1 = Nat.succ _›
    rfl
  · rename_i hno _ h
    obtain ⟨hb, hc⟩ := List.cons.inj h
    exact absurd hc.symm (hno d cs hb.symm)

omit [PyText] in
theorem stringBody_unicode (n : ℕ) (acc cs : List Char) :
    stringBody (n + 1) acc ('\\' :: 'u' :: cs) =
      (unicodeEscape cs).bind fun p => stringBody n (p.1 :: acc) p.2 := by
  rw [stringBody]
  rfl

/-- A character with a one-letter escape. -/
theorem stringBody_letter {c d : Char} (htext : (PyVal.reprChar '"' c).toList = ['\\', d])
    (hu : d ≠ 'u') (hd : simpleEscape d = some c) (hs : CharShown c) (n : ℕ) (acc cs : List Char) :
    stringBody (n + 1) acc ((PyVal.reprChar '"' c).toList ++ cs) =
      if CharShown c then stringBody n (c :: acc) cs else none := by
  rw [htext, if_pos hs]
  exact (stringBody_escape hu n acc cs).trans (congrArg (Option.bind · _) hd)

omit [PyText] in
/-- An escape that only Python has is refused. -/
theorem stringBody_refused {d : Char} (hu : d ≠ 'u') (hd : simpleEscape d = none) {s : String}
    {ds : List Char} (hs : s.toList = '\\' :: d :: ds) (t : String) (n : ℕ) (acc cs : List Char) :
    stringBody (n + 1) acc ((s ++ t).toList ++ cs) = none := by
  rw [String.toList_append, hs, List.append_assoc]
  exact (stringBody_escape hu n acc _).trans (congrArg (Option.bind · _) hd)

/-- A character without a one-letter escape. -/
theorem stringBody_plain {c : Char} (hq : c ≠ '"') (h1 : c ≠ '\\') (h2 : c ≠ '\n') (h3 : c ≠ '\r')
    (h4 : c ≠ '\t') (n : ℕ) (acc cs : List Char) :
    stringBody (n + 1) acc ((PyVal.reprChar '"' c).toList ++ cs) =
      if CharShown c then stringBody n (c :: acc) cs else none := by
  have hshown : CharShown c ↔ 32 ≤ c.toNat ∧ c.toNat ≠ 127 ∧
      (c.toNat < 127 ∨ PyText.isPrintable c = true ∨ 256 ≤ c.toNat ∧ c.toNat < 65536) := by
    simp only [CharShown, h1, h2, h3, h4, false_or]
  have hx := fun t => stringBody_refused (d := 'x') (by decide) rfl
    (String.toList_ofList : "\\x".toList = _) t n acc cs
  rw [PyVal.reprChar, if_neg (not_or.mpr ⟨hq, h1⟩), if_neg h2, if_neg h3, if_neg h4]
  by_cases h5 : c.toNat < 32 ∨ c.toNat = 127
  · have hno : ¬ CharShown c := fun h => by
      have := hshown.mp h
      omega
    rw [if_pos h5, if_neg hno, hx]
  by_cases h6 : c.toNat < 127 ∨ PyText.isPrintable c = true
  · have hyes : CharShown c := hshown.mpr ⟨by omega, by omega, h6.imp_right Or.inl⟩
    rw [if_neg h5, if_pos h6, if_pos hyes, String.toList_singleton]
    exact stringBody_char hq h1 (by omega) n acc cs
  obtain ⟨h6, hprint⟩ := not_or.mp h6
  rw [if_neg h5, if_neg (not_or.mpr ⟨h6, hprint⟩)]
  by_cases h7 : c.toNat < 256
  · have hno : ¬ CharShown c := fun h => by
      obtain ⟨-, -, h | h | h⟩ := hshown.mp h
      · exact h6 h
      · exact hprint h
      · omega
    rw [if_pos h7, if_neg hno, hx]
  by_cases h8 : c.toNat < 65536
  · have hyes : CharShown c := hshown.mpr ⟨by omega, by omega, Or.inr (Or.inr ⟨by omega, h8⟩)⟩
    have hu : "\\u".toList = ['\\', 'u'] := String.toList_ofList
    rw [if_neg h7, if_pos h8, if_pos hyes, String.toList_append, List.append_assoc, hu,
      List.cons_append, List.cons_append, List.nil_append, stringBody_unicode, unicodeEscape_hex h8,
      Option.bind_some]
  · have hno : ¬ CharShown c := fun h => by
      obtain ⟨-, -, h | h | h⟩ := hshown.mp h
      · exact h6 h
      · exact hprint h
      · exact h8 h.2
    rw [if_neg h7, if_neg h8, if_neg hno]
    exact stringBody_refused (by decide) rfl (String.toList_ofList : "\\U".toList = _) _ n acc cs

/-- **One character of a quoted string.** -/
theorem stringBody_reprChar {c : Char} (hq : c ≠ '"') (n : ℕ) (acc cs : List Char) :
    stringBody (n + 1) acc ((PyVal.reprChar '"' c).toList ++ cs) =
      if CharShown c then stringBody n (c :: acc) cs else none := by
  by_cases h1 : c = '\\'
  · subst h1
    exact stringBody_letter (c := '\\') (d := '\\') String.toList_ofList (by decide) rfl
      (Or.inl rfl) n acc cs
  by_cases h2 : c = '\n'
  · subst h2
    exact stringBody_letter (c := '\n') (d := 'n') String.toList_ofList (by decide) rfl
      (Or.inr (Or.inl rfl)) n acc cs
  by_cases h3 : c = '\r'
  · subst h3
    exact stringBody_letter (c := '\r') (d := 'r') String.toList_ofList (by decide) rfl
      (Or.inr (Or.inr (Or.inl rfl))) n acc cs
  by_cases h4 : c = '\t'
  · subst h4
    exact stringBody_letter (c := '\t') (d := 't') String.toList_ofList (by decide) rfl
      (Or.inr (Or.inr (Or.inr (Or.inl rfl)))) n acc cs
  exact stringBody_plain hq h1 h2 h3 h4 n acc cs

theorem reprChar_ne_nil (q c : Char) : (PyVal.reprChar q c).toList ≠ [] := by
  unfold PyVal.reprChar
  split_ifs <;> simp

/-! ## Strings -/

/-- `repr` of the string is quoted by double quotes and is JSON. -/
def QuoteShown (s : String) : Prop :=
  ('\'' ∈ s.toList ∧ '"' ∉ s.toList) ∧ ∀ c ∈ s.toList, CharShown c

instance (s : String) : Decidable (QuoteShown s) :=
  haveI : Decidable (∀ c ∈ s.toList, CharShown c) := List.decidableBAll _ _
  inferInstanceAs (Decidable ((_ ∧ ¬ _) ∧ _))

/-- The text between the quotes. -/
def quoted (cs : List Char) : List Char := cs.flatMap fun c => (PyVal.reprChar '"' c).toList

/-- The text of a string that holds single quotes and no double quote. -/
theorem reprStr_double {s : String} (h : '\'' ∈ s.toList ∧ '"' ∉ s.toList) :
    (PyVal.reprStr s).toList = '"' :: (quoted s.toList ++ ['"']) := by
  unfold PyVal.reprStr quoted
  simp only [if_pos h, String.toList_append, String.toList_singleton, String.toList_join,
    List.flatMap_map]
  rfl

/-- Every other string begins with a single quote. -/
theorem reprStr_single {s : String} (h : ¬ ('\'' ∈ s.toList ∧ '"' ∉ s.toList)) :
    ∃ cs, (PyVal.reprStr s).toList = '\'' :: cs := by
  unfold PyVal.reprStr
  simp only [if_neg h, String.toList_append, String.toList_singleton]
  exact ⟨_, rfl⟩

theorem length_le_quoted (cs : List Char) : cs.length ≤ (quoted cs).length := by
  induction cs with
  | nil => exact Nat.le_refl _
  | cons c cs ih =>
    have hpos := List.length_pos_iff.mpr (reprChar_ne_nil '"' c)
    simp only [quoted, List.flatMap_cons, List.length_append, List.length_cons] at ih ⊢
    omega

/-- **What the reader makes of a quoted string.** -/
theorem stringBody_quoted {cs rest : List Char} (hq : '"' ∉ cs) {n : ℕ} (hn : cs.length < n)
    (acc : List Char) : stringBody n acc (quoted cs ++ '"' :: rest) =
      if cs.all (fun c => decide (CharShown c)) then
        some (String.ofList (acc.reverse ++ cs), rest) else none := by
  induction cs generalizing n acc with
  | nil =>
    obtain ⟨n, rfl⟩ : ∃ m, n = m + 1 := ⟨n - 1, by omega⟩
    rw [if_pos List.all_nil, List.append_nil]
    rfl
  | cons c cs ih =>
    obtain ⟨n, rfl⟩ : ∃ m, n = m + 1 := ⟨n - 1, by omega⟩
    rw [List.mem_cons, not_or] at hq
    rw [List.length_cons] at hn
    have htext : quoted (c :: cs) ++ '"' :: rest =
        (PyVal.reprChar '"' c).toList ++ (quoted cs ++ '"' :: rest) := by
      rw [quoted, List.flatMap_cons, List.append_assoc]
      rfl
    rw [htext, stringBody_reprChar (Ne.symm hq.1), ih hq.2 (by omega)]
    simp only [List.all_cons, Bool.and_eq_true, decide_eq_true_eq, List.reverse_cons,
      List.append_assoc, List.singleton_append]
    split_ifs with h1 h2 h3 h4
    · rfl
    · exact absurd ⟨h1, h2⟩ h3
    · exact absurd h4.2 h2
    · rfl
    · rename_i h
      exact absurd h.1 h1
    · rfl

/-- **A string in double quotes** is read back if all its characters are shown, else refused. -/
theorem stringBody_reprStr {s : String} {rest : List Char}
    (h : '\'' ∈ s.toList ∧ '"' ∉ s.toList) :
    stringBody ((quoted s.toList ++ '"' :: rest).length + 1) [] (quoted s.toList ++ '"' :: rest) =
      if QuoteShown s then some (s, rest) else none := by
  have hlen := length_le_quoted s.toList
  rw [stringBody_quoted h.2 (by rw [List.length_append]; omega) [], List.reverse_nil,
    List.nil_append, String.ofList_toList]
  have hall : s.toList.all (fun c => decide (CharShown c)) = true ↔ ∀ c ∈ s.toList, CharShown c := by
    simp only [List.all_eq_true, decide_eq_true_eq]
  exact if_congr ⟨fun hs => ⟨h, hall.mp hs⟩, fun hs => hall.mpr hs.2⟩ rfl rfl

end Json

end ScoutEngine
