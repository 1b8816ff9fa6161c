import ScoutEngine.NetworkMonitor
import ScoutEngine.Lib.Occurrence

/-!
# The disposition of a response

`_on_response` looks for the words `attachment` and `filename=` in the header. Here this is compared
with the grammar of the header.

* `Disposition`: a type and parameters with bare or quoted values, and its text.
* `dispositionType`: the token before the first `;`; `dispositionHeader`: the header, in any case.
* `nameAfter`, `nameAfter_iff`: the name that is read stands after the last `filename=`.
* `DispositionParam.ReadRight`, **`DispositionParam.nameAfter_eq_iff`**: when this is the value of
  a parameter; `trim_around`: what is trimmed does not reach into a value.
* **`Disposition.text_inj`**: a header has one reading.
* `mentionsAttachment_of_type`: a header with the type `attachment` has the word.
* `SaysRight`, `SaidRight`, **`disposition_iff`**; `later_parameter_kept`: a size after the name.
-/

set_option autoImplicit false

namespace ScoutEngine

open Occurrence

/-! ## The header -/

/-- The name of the parameter with the file name. -/
def nameWord : List Char := "filename".toList

/-- White space in a header. -/
def isHeaderBlank (c : Char) : Bool := c == ' ' || c == '\t'

/-- A run of white space. -/
abbrev HeaderBlanks := {text : List Char // text.all isHeaderBlank = true}

/-- A character of a token. -/
def isTokenChar (c : Char) : Bool :=
  32 < c.toNat && c.toNat ≠ 127 && c ∉ "()<>@,;:\\\"/[]?=\x7b\x7d".toList

/-- A type, the name of a parameter or a bare value. -/
abbrev HeaderToken := {text : List Char // text ≠ [] ∧ text.all isTokenChar = true}

/-- A character between quotes, as itself or escaped. -/
inductive QuotedChar where
  | plain (c : Char) (h : (c != '"' && c != '\\') = true)
  | escaped (c : Char)

namespace QuotedChar

def text : QuotedChar → List Char
  | plain c _ => [c]
  | escaped c => ['\\', c]

def value : QuotedChar → Char
  | plain c _ | escaped c => c

def isPlain : QuotedChar → Bool
  | plain _ _ => true
  | escaped _ => false

end QuotedChar

inductive ParamValue where
  | bare (t : HeaderToken)
  | quoted (chars : List QuotedChar)

namespace ParamValue

/-- The quotation mark, if there is one. -/
def mark : ParamValue → List Char
  | bare _ => []
  | quoted _ => ['"']

/-- What stands between the quotation marks. -/
def body : ParamValue → List Char
  | bare t => t.1
  | quoted chars => chars.flatMap QuotedChar.text

/-- **The value that is meant.** -/
def value : ParamValue → List Char
  | bare t => t.1
  | quoted chars => chars.map QuotedChar.value

/-- There are no escapes. -/
def isPlain : ParamValue → Bool
  | bare _ => true
  | quoted chars => chars.all QuotedChar.isPlain

end ParamValue

structure DispositionParam where
  before : HeaderBlanks
  name : HeaderToken
  beforeSign : HeaderBlanks
  afterSign : HeaderBlanks
  value : ParamValue
  after : HeaderBlanks

namespace DispositionParam

/-- The parameter up to its `=`. -/
def front (p : DispositionParam) : List Char := p.before.1 ++ (p.name.1 ++ p.beforeSign.1)

/-- The parameter from its `=` on. -/
def back (p : DispositionParam) : List Char :=
  p.afterSign.1 ++ (p.value.mark ++ (p.value.body ++ (p.value.mark ++ p.after.1)))

/-- A parameter with the `;` before it. -/
def text (p : DispositionParam) : List Char := ';' :: (p.front ++ '=' :: p.back)

/-- The parameter is the file name. -/
def isFilename (p : DispositionParam) : Bool := p.name.1.map Char.toLower = nameWord

end DispositionParam

/-- The text of some parameters. -/
def paramsText (params : List DispositionParam) : List Char :=
  params.flatMap DispositionParam.text

/-- **A disposition**: its type and its parameters. -/
structure Disposition where
  before : HeaderBlanks
  type : HeaderToken
  after : HeaderBlanks
  params : List DispositionParam

def Disposition.text (d : Disposition) : String :=
  String.ofList (d.before.1 ++ (d.type.1 ++ (d.after.1 ++ paramsText d.params)))

/-- The token before the first `;`. -/
def dispositionType (header : String) : List Char :=
  trim isHeaderBlank (header.toList.takeWhile (· ≠ ';'))

/-- The type is `attachment`, without regard to case. -/
def isAttachment (header : String) : Bool :=
  (dispositionType header).map Char.toLower = "attachment".toList

/-- The name of a header is `Content-Disposition`, in any letter case. -/
def isDispositionName (name : String) : Bool :=
  name.toList.map Char.toLower = "content-disposition".toList

/-- The header of the disposition with its name. -/
def dispositionHeader (headers : Dict String String) : Option (String × String) :=
  headers.find? fun p => isDispositionName p.1

/-- There is at most one such header. -/
def AtMostOneDisposition (headers : Dict String String) : Prop :=
  (headers.filter fun p => isDispositionName p.1).length ≤ 1

/-! ## The last piece of a split -/

/-- **The last piece of a split** is what follows the last separator. -/
theorem splitAux_getLast {sep : List Char} (hsep : sep ≠ []) {n : ℕ} {acc cs : List Char}
    (hn : cs.length ≤ n) : ∃ rest, (splitAux sep n acc cs).getLast? = some (String.ofList rest) ∧
      (Last sep cs rest ∨ ¬ sep <:+: cs ∧ rest = acc.reverse ++ cs) := by
  induction n generalizing acc cs with
  | zero =>
    obtain rfl := List.eq_nil_of_length_eq_zero (Nat.le_zero.mp hn)
    exact ⟨_, rfl, .inr ⟨fun h => hsep (List.infix_nil.mp h), rfl⟩⟩
  | succ n ih =>
    cases cs with
    | nil => exact ⟨_, rfl, .inr ⟨fun h => hsep (List.infix_nil.mp h), by simp⟩⟩
    | cons c cs =>
      unfold splitAux
      split_ifs with hprefix
      · obtain ⟨after, hafter⟩ := List.isPrefixOf_iff_prefix.mp hprefix
        have hpos : 0 < sep.length := List.length_pos_of_ne_nil hsep
        have hlen : after.length ≤ n := by
          have hlens := congrArg List.length hafter
          simp only [List.length_append, List.length_cons] at hlens hn
          omega
        rw [← hafter, List.drop_left]
        obtain ⟨rest, hlast, hrest⟩ := @ih [] after hlen
        refine ⟨rest, ?_, ?_⟩
        · rw [List.getLast?_cons, hlast]
          rfl
        · left
          rcases hrest with hrest | ⟨hnot, rfl⟩
          · exact hrest.append sep
          · exact ⟨⟨[], rfl⟩, hnot⟩
      · obtain ⟨rest, hlast, hrest⟩ := @ih (c :: acc) cs (Nat.le_of_succ_le_succ hn)
        refine ⟨rest, hlast, ?_⟩
        rcases hrest with hrest | ⟨hnot, rfl⟩
        · exact .inl (hrest.append [c])
        · refine .inr ⟨fun hinfix => ?_, by simp⟩
          rcases List.infix_cons_iff.mp hinfix with hp | hp
          · exact hprefix (List.isPrefixOf_iff_prefix.mpr hp)
          · exact hnot hp

/-- The word before a file name. -/
def nameMark : List Char := "filename=".toList

theorem nameMark_borderFree : BorderFree nameMark := by
  have key : ∀ k < nameMark.length, 0 < k → ¬ nameMark.drop k <+: nameMark := by decide
  exact fun k hpos hlt => key k hlt hpos

theorem nameMark_ne_nil : nameMark ≠ [] := by decide

theorem nameMark_eq : nameMark = nameWord ++ ['='] := rfl

/-- The characters that `stripQuotes` drops. -/
def isQuoteJunk (c : Char) : Bool := c == '"' || c == ' '

/-- **The name that is read off a text**: what follows the last `filename=`, without quotation marks
and blanks at its ends. -/
def nameAfter (text : String) : Option String :=
  if containsStr "filename=" text then
    ((splitStr "filename=" text).getLast?).map NetworkMonitor.stripQuotes
  else none

theorem stripQuotes_eq (rest : List Char) :
    NetworkMonitor.stripQuotes (String.ofList rest) = String.ofList (trim isQuoteJunk rest) := by
  unfold NetworkMonitor.stripQuotes trim isQuoteJunk
  rw [String.toList_ofList]

/-- `nameAfter` finds the last `filename=`. -/
theorem nameAfter_iff {text value : List Char} :
    nameAfter (String.ofList text) = some (String.ofList value) ↔
      ∃ rest, Last nameMark text rest ∧ trim isQuoteJunk rest = value := by
  have hcontains : containsStr "filename=" (String.ofList text) = true ↔ nameMark <:+: text := by
    rw [containsStr_iff, String.toList_ofList (l := text)]
    rfl
  have hread : ∀ {rest}, Last nameMark text rest →
      nameAfter (String.ofList text) = some (String.ofList (trim isQuoteJunk rest)) := by
    intro rest hrest
    obtain ⟨rest', hlast, hrest'⟩ := 
      @splitAux_getLast nameMark nameMark_ne_nil text.length [] text le_rfl
    have heq : rest' = rest := by
      rcases hrest' with hrest' | ⟨hnot, -⟩
      · exact hrest'.unique nameMark_borderFree hrest
      · exact absurd hrest.infix hnot
    have hsplit : (splitStr "filename=" (String.ofList text)).getLast? =
        some (String.ofList rest) := by
      rw [splitStr, String.toList_ofList (l := text), ← heq]
      exact hlast
    rw [nameAfter, if_pos (hcontains.mpr hrest.infix), hsplit, Option.map_some, stripQuotes_eq]
  constructor
  · intro h
    have hin : nameMark <:+: text := by
      by_contra hnot
      rw [nameAfter, if_neg (mt hcontains.mp hnot)] at h
      cases h
    obtain ⟨rest, hrest⟩ := Last.exists nameMark_ne_nil hin
    refine ⟨rest, hrest, ?_⟩
    exact String.ofList_injective (Option.some.inj ((hread hrest).symm.trans h))
  · rintro ⟨rest, hrest, rfl⟩
    exact hread hrest

/-! ## Values and their texts -/

section Values

variable {chars : List QuotedChar} {v : ParamValue} {pat : List Char}

theorem quoted_plain (h : chars.all QuotedChar.isPlain = true) :
    chars.flatMap QuotedChar.text = chars.map QuotedChar.value := by
  induction chars with
  | nil => rfl
  | cons x chars ih =>
    rw [List.all_cons, Bool.and_eq_true] at h
    cases x with
    | plain c hc => simpa [QuotedChar.text, QuotedChar.value] using ih h.2
    | escaped c => cases h.1

/-- Every escape takes a character. -/
theorem quoted_length (chars : List QuotedChar) :
    chars.length ≤ (chars.flatMap QuotedChar.text).length ∧
      (chars.length = (chars.flatMap QuotedChar.text).length →
        chars.all QuotedChar.isPlain = true) := by
  induction chars with
  | nil => exact ⟨le_rfl, fun _ => rfl⟩
  | cons x chars ih =>
    obtain ⟨hle, hplain⟩ := ih
    cases x with
    | plain c hc =>
      simp only [List.flatMap_cons, QuotedChar.text, List.length_cons, List.length_append,
        List.length_nil, List.all_cons, QuotedChar.isPlain, Bool.true_and]
      exact ⟨by omega, fun heq => hplain (by omega)⟩
    | escaped c =>
      simp only [List.flatMap_cons, QuotedChar.text, List.length_cons, List.length_append,
        List.length_nil]
      exact ⟨by omega, fun heq => by omega⟩

/-- An escape begins with a backslash, and ends with the character that is meant. -/
theorem quoted_clean (hne : chars ≠ []) (h : Clean isQuoteJunk (chars.map QuotedChar.value)) :
    chars.flatMap QuotedChar.text ≠ [] ∧ Clean isQuoteJunk (chars.flatMap QuotedChar.text) := by
  refine ⟨?_, ?_, ?_⟩
  · cases chars with
    | nil => exact absurd rfl hne
    | cons x chars => cases x <;> nofun
  · cases chars with
    | nil => nofun
    | cons x chars =>
      cases x with
      | plain c hc => exact h.1
      | escaped c =>
        rintro d ⟨⟩
        rfl
  · rcases List.eq_nil_or_concat chars with rfl | ⟨chars, x, rfl⟩
    · nofun
    · have hx : isQuoteJunk x.value = false := h.2 _ (by simp)
      cases x with
      | plain c hc => simpa [QuotedChar.text, QuotedChar.value] using hx
      | escaped c => simpa [QuotedChar.text, QuotedChar.value] using hx

/-- What begins the text of a quoted value, without a backslash, begins the value. -/
theorem quoted_prefix (hpat : '\\' ∉ pat) (h : pat <+: chars.flatMap QuotedChar.text) :
    pat <+: chars.map QuotedChar.value := by
  induction chars generalizing pat with
  | nil => exact h
  | cons x chars ih =>
    cases pat with
    | nil => exact List.nil_prefix
    | cons a pat =>
      rw [List.mem_cons, not_or] at hpat
      cases x with
      | plain c hc =>
        obtain ⟨rfl, hrest⟩ := List.cons_prefix_cons.mp h
        exact List.cons_prefix_cons.mpr ⟨rfl, ih hpat.2 hrest⟩
      | escaped c =>
        obtain ⟨rfl, -⟩ := List.cons_prefix_cons.mp h
        exact absurd rfl hpat.1

/-- What occurs in the text of a quoted value, without a backslash, occurs in the value: only its
first character may be an escaped one. -/
theorem quoted_infix (hne : pat ≠ []) (hpat : '\\' ∉ pat)
    (h : pat <:+: chars.flatMap QuotedChar.text) : pat <:+: chars.map QuotedChar.value := by
  obtain ⟨a, pat, rfl⟩ := List.exists_cons_of_ne_nil hne
  rw [List.mem_cons, not_or] at hpat
  have hcons : ∀ {c : Char} {cs : List QuotedChar},
      a :: pat <+: c :: cs.flatMap QuotedChar.text → a :: pat <+: c :: cs.map QuotedChar.value := by
    intro c cs hp
    obtain ⟨rfl, hrest⟩ := List.cons_prefix_cons.mp hp
    exact List.cons_prefix_cons.mpr ⟨rfl, quoted_prefix hpat.2 hrest⟩
  induction chars with
  | nil => exact h
  | cons x chars ih =>
    rw [List.flatMap_cons] at h
    cases x with
    | plain c hc =>
      rcases List.infix_cons_iff.mp h with hp | hp
      · exact (hcons hp).isInfix
      · exact List.infix_cons (ih hp)
    | escaped c =>
      rcases List.infix_cons_iff.mp h with hp | hp
      · exact absurd (List.cons_prefix_cons.mp hp).1.symm hpat.1
      · rcases List.infix_cons_iff.mp hp with hp | hp
        · exact (hcons hp).isInfix
        · exact List.infix_cons (ih hp)

theorem ParamValue.body_of_plain (h : v.isPlain = true) : v.body = v.value := by
  cases v with
  | bare t => rfl
  | quoted chars => exact quoted_plain h

theorem ParamValue.length_le_body (v : ParamValue) : v.value.length ≤ v.body.length ∧
    (v.value.length = v.body.length → v.isPlain = true) := by
  cases v with
  | bare t => exact ⟨le_rfl, fun _ => rfl⟩
  | quoted chars =>
    obtain ⟨hle, hplain⟩ := quoted_length chars
    have hlen : (ParamValue.quoted chars).value.length = chars.length := List.length_map _
    rw [hlen]
    exact ⟨hle, hplain⟩

theorem ParamValue.clean_body (hne : v.value ≠ []) (h : Clean isQuoteJunk v.value) :
    v.body ≠ [] ∧ Clean isQuoteJunk v.body := by
  cases v with
  | bare t => exact ⟨hne, h⟩
  | quoted chars => exact quoted_clean (fun hnil => hne (by rw [hnil]; rfl)) h

theorem ParamValue.infix_value (hne : pat ≠ []) (hpat : '\\' ∉ pat) (h : pat <:+: v.body) :
    pat <:+: v.value := by
  cases v with
  | bare t => exact h
  | quoted chars => exact quoted_infix hne hpat h

/-- The value of a text of nothing is nothing. -/
theorem ParamValue.body_eq_nil (h : v.value = []) : v.body = [] := by
  cases v with
  | bare t => exact h
  | quoted chars =>
    obtain rfl : chars = [] := List.map_eq_nil_iff.mp h
    rfl

theorem ParamValue.mark_junk (v : ParamValue) : ∀ c ∈ v.mark, isQuoteJunk c = true := by
  cases v with
  | bare t => nofun
  | quoted chars =>
    intro c hc
    obtain rfl := List.mem_singleton.mp hc
    rfl

end Values

/-! ## The file name -/

namespace DispositionParam

/-- **A parameter that is read right when it is the last with `filename=`**: it is the last one, it
is spelled `filename=`, its value has no escapes, no `filename=` inside and no quotation marks or
blanks at its ends, and the white space around it is blanks. -/
structure ReadPlain (p : DispositionParam) (later : List DispositionParam) : Prop where
  last : later = []
  name : p.name.1 = nameWord
  sign : p.beforeSign.1 = []
  plain : p.value.isPlain = true
  mark : ¬ nameMark <:+: p.value.value
  clean : Clean isQuoteJunk p.value.value
  blanks : ∀ c ∈ p.afterSign.1 ++ p.after.1, c = ' '

/-- **When the value of a parameter is read right**, with `later` after it. If `filename=` occurs
among these, the name is read there, and has to be the same. -/
def ReadRight (p : DispositionParam) (later : List DispositionParam) : Prop :=
  if nameMark <:+: paramsText later then
    nameAfter (String.ofList (paramsText later)) = some (String.ofList p.value.value)
  else p.ReadPlain later

variable {p : DispositionParam} {later : List DispositionParam}

theorem isHeaderBlank_not_mem {c : Char} (h : isHeaderBlank c = true) : c ∉ nameMark := by
  simp only [isHeaderBlank, Bool.or_eq_true, beq_iff_eq] at h
  rcases h with rfl | rfl <;> decide

theorem blanks_not_mem (b : HeaderBlanks) : ∀ c ∈ b.1, c ∉ nameMark :=
  fun c hc => isHeaderBlank_not_mem (List.all_eq_true.mp b.2 c hc)

theorem isQuoteJunk_not_mem {c : Char} (h : isQuoteJunk c = true) : c ∉ nameMark := by
  simp only [isQuoteJunk, Bool.or_eq_true, beq_iff_eq] at h
  rcases h with rfl | rfl <;> decide

theorem eq_blank {c : Char} (h : isQuoteJunk c = true) (h' : isHeaderBlank c = true) : c = ' ' := by
  simp only [isQuoteJunk, isHeaderBlank, Bool.or_eq_true, beq_iff_eq] at h h'
  rcases h with rfl | h
  · exact absurd h' (by decide)
  · exact h

theorem paramsText_head (later : List DispositionParam) :
    ∀ c ∈ (paramsText later).head?, c = ';' := by
  cases later with
  | nil => nofun
  | cons p later =>
    rintro c ⟨⟩
    rfl

/-- After the `=` of a parameter, `filename=` occurs only in its value or in later parameters. -/
theorem infix_back (h : nameMark <:+: p.back ++ paramsText later) :
    nameMark <:+: p.value.body ∨ nameMark <:+: paramsText later := by
  have hmark : ∀ c ∈ p.value.mark, c ∉ nameMark :=
    fun c hc => isQuoteJunk_not_mem (p.value.mark_junk c hc)
  have hend : ∀ c ∈ p.value.mark ++ p.after.1, c ∉ nameMark := by
    intro c hc
    rcases List.mem_append.mp hc with hc | hc
    · exact hmark c hc
    · exact blanks_not_mem p.after c hc
  simp only [back, List.append_assoc] at h
  have hbody := infix_of_append_left nameMark_ne_nil hmark
    (infix_of_append_left nameMark_ne_nil (blanks_not_mem p.afterSign) h)
  rw [← List.append_assoc p.value.mark] at hbody
  refine (infix_or_of_head ?_ hbody).imp_right (infix_of_append_left nameMark_ne_nil hend)
  intro c hc
  rw [List.head?_append] at hc
  cases hhead : (p.value.mark ++ p.after.1).head? with
  | some d =>
    rw [hhead] at hc
    cases hc
    exact hend c (List.mem_of_head? hhead)
  | none =>
    rw [hhead] at hc
    rw [paramsText_head later c hc]
    decide

/-- Trimming leaves the value of a plain parameter. -/
theorem ReadPlain.trim_back (h : p.ReadPlain later) :
    trim isQuoteJunk (p.back ++ paramsText later) = p.value.value := by
  have hblank : ∀ c ∈ p.afterSign.1 ++ p.after.1, isQuoteJunk c = true := by
    intro c hc
    rw [h.blanks c hc]
    rfl
  rw [h.last]
  refine trim_eq_iff.mpr ⟨h.clean, p.afterSign.1 ++ p.value.mark, p.value.mark ++ p.after.1, ?_,
    fun c hc => ?_, fun c hc => ?_⟩
  · simp [back, paramsText, ParamValue.body_of_plain h.plain]
  · rcases List.mem_append.mp hc with hc | hc
    · exact hblank c (List.mem_append_left _ hc)
    · exact p.value.mark_junk c hc
  · rcases List.mem_append.mp hc with hc | hc
    · exact p.value.mark_junk c hc
    · exact hblank c (List.mem_append_right _ hc)

/-- A plain parameter is the last with `filename=`. -/
theorem ReadPlain.last_back (h : p.ReadPlain later) (front : List Char) :
    Last nameMark (front ++ (p.text ++ paramsText later)) (p.back ++ paramsText later) := by
  refine ⟨⟨front ++ ';' :: p.before.1, ?_⟩, fun hin => ?_⟩
  · simp [text, DispositionParam.front, h.name, h.sign, nameMark_eq]
  · rcases infix_back hin with hbody | hlater
    · rw [ParamValue.body_of_plain h.plain] at hbody
      exact h.mark hbody
    · rw [h.last] at hlater
      exact nameMark_ne_nil (List.infix_nil.mp hlater)

/-- **If trimming leaves the value, only junk stands around it, and it has no escapes**: the text of
the value keeps its ends, so nothing of it is trimmed, and it must not be longer than the value. -/
theorem trim_around {v : ParamValue} {front back : List Char}
    (h : trim isQuoteJunk (front ++ (v.body ++ back)) = v.value) :
    (∀ c ∈ front, isQuoteJunk c = true) ∧ (∀ c ∈ back, isQuoteJunk c = true) ∧
      v.isPlain = true := by
  obtain ⟨hle, hplain⟩ := v.length_le_body
  obtain ⟨hclean, -⟩ := trim_spec isQuoteJunk (front ++ (v.body ++ back))
  rw [h] at hclean
  by_cases hne : v.value = []
  · have hbody := v.body_eq_nil hne
    obtain ⟨-, u, w, htext, hu, hw⟩ := trim_eq_iff.mp h
    rw [hbody, hne, List.nil_append, List.nil_append] at htext
    have hjunk : ∀ c ∈ front ++ back, isQuoteJunk c = true := by
      rw [htext]
      exact List.forall_mem_append.mpr ⟨hu, hw⟩
    obtain ⟨hfront, hback⟩ := List.forall_mem_append.mp hjunk
    exact ⟨hfront, hback, hplain (by rw [hbody, hne])⟩
  · obtain ⟨hbne, hbclean⟩ := v.clean_body hne hclean
    rw [trim_append hbclean hbne] at h
    have hlen := congrArg List.length h
    simp only [List.length_append, List.length_reverse] at hlen
    have hfront : front.dropWhile isQuoteJunk = [] := List.eq_nil_of_length_eq_zero (by omega)
    have hback : back.reverse.dropWhile isQuoteJunk = [] :=
      List.eq_nil_of_length_eq_zero (by omega)
    refine ⟨List.dropWhile_eq_nil_iff.mp hfront, fun c hc => ?_, hplain (by omega)⟩
    exact List.dropWhile_eq_nil_iff.mp hback c (List.mem_reverse.mpr hc)

/-- The parameter is spelled `filename=`, if its text up to the `=` ends so. -/
theorem name_of_suffix (hfile : p.isFilename = true) {front : List Char}
    (h : nameWord <:+ front ++ ';' :: p.front) :
    p.name.1 = nameWord ∧ p.beforeSign.1 = [] := by
  have hsuffix : nameWord <:+ p.before.1 ++ (p.name.1 ++ p.beforeSign.1) :=
    suffix_of_not_mem (by decide) h
  have hsign : p.beforeSign.1 = [] := by
    by_contra hne
    obtain ⟨blanks, c, hblanks⟩ := List.eq_nil_or_concat p.beforeSign.1 |>.resolve_left hne
    have hc : isHeaderBlank c = true :=
      List.all_eq_true.mp p.beforeSign.2 c (by rw [hblanks]; simp)
    rw [hblanks] at hsuffix
    obtain ⟨pre, hpre⟩ := hsuffix
    have hlast := congrArg List.getLast? hpre
    have hword : nameWord.getLast? = some 'e' := by decide
    simp only [List.concat_eq_append, List.getLast?_append, List.getLast?_singleton, hword,
      Option.some_or, Option.some.injEq] at hlast
    rw [← hlast] at hc
    exact absurd hc (by decide)
  refine ⟨?_, hsign⟩
  rw [hsign, List.append_nil] at hsuffix
  have hname : p.name.1.map Char.toLower = nameWord := of_decide_eq_true hfile
  have hlen : p.name.1.length = nameWord.length := by
    rw [← hname, List.length_map]
  have hin := List.suffix_of_suffix_length_le hsuffix (List.suffix_append p.before.1 p.name.1)
    hlen.ge
  exact (hin.eq_of_length hlen.symm).symm

/-- The `=` of the last `filename=` is that of the parameter, or the name that is read has it
inside: there is none after it. -/
theorem rest_cases {before rest back : List Char} (hback : ¬ nameMark <:+: back)
    (h : Last nameMark (before ++ '=' :: back) rest) :
    (nameMark <:+ before ++ ['='] ∧ rest = back) ∨ ∃ inside, rest = inside ++ '=' :: back := by
  obtain ⟨⟨pre, hpre⟩, -⟩ := h
  have hs : rest <:+ before ++ '=' :: back := ⟨pre ++ nameMark, by rw [hpre, List.append_assoc]⟩
  have hs' : back <:+ before ++ '=' :: back := ⟨before ++ ['='], by simp⟩
  rcases List.suffix_or_suffix_of_suffix hs hs' with ⟨y, rfl⟩ | ⟨z, rfl⟩
  · have heq : before ++ '=' :: y = pre ++ nameMark := by
      refine (List.append_left_inj rest).mp ?_
      simpa using hpre
    rcases List.eq_nil_or_concat y with rfl | ⟨y, c, rfl⟩
    · exact .inl ⟨⟨pre, heq.symm⟩, rfl⟩
    · exfalso
      have hsplit : (before ++ '=' :: y) ++ [c] = (pre ++ nameWord) ++ ['='] := by
        simpa [nameMark_eq] using heq
      obtain ⟨hfront, hc⟩ := List.append_inj' hsplit rfl
      obtain ⟨y', rfl⟩ : nameWord <:+ y := suffix_of_not_mem (by decide) ⟨pre, hfront.symm⟩
      exact hback ⟨y', rest, by simp [nameMark_eq, List.singleton_inj.mp hc]⟩
  · have heq : before ++ ['='] = pre ++ (nameMark ++ z) := by
      refine (List.append_left_inj back).mp ?_
      simpa using hpre
    rcases List.eq_nil_or_concat z with rfl | ⟨z, c, rfl⟩
    · exact .inl ⟨⟨pre, by rw [heq, List.append_nil]⟩, rfl⟩
    · have hsplit : before ++ ['='] = (pre ++ (nameMark ++ z)) ++ [c] := by
        simpa using heq
      obtain ⟨-, hc⟩ := List.append_inj' hsplit rfl
      obtain rfl := List.singleton_inj.mp hc
      exact .inr ⟨z, by simp⟩

/-- **A value that is read right is that of a plain parameter**, if no later one has `filename=`. -/
theorem readPlain_of_trim (hfile : p.isFilename = true)
    (hlater : ¬ nameMark <:+: paramsText later) {front rest : List Char}
    (hlast : Last nameMark (front ++ (p.text ++ paramsText later)) rest)
    (htrim : trim isQuoteJunk rest = p.value.value) : p.ReadPlain later := by
  obtain ⟨hclean, u, w, hrest, -, -⟩ := trim_eq_iff.mp htrim
  have hmark : ¬ nameMark <:+: p.value.value := fun hin =>
    hlast.2 (hin.trans (hrest ▸ ⟨u, w, by simp⟩))
  have hback : ¬ nameMark <:+: p.back ++ paramsText later := by
    intro hin
    rcases infix_back hin with hbody | hin
    · exact hmark (p.value.infix_value nameMark_ne_nil (by decide) hbody)
    · exact hlater hin
  have htext : front ++ (p.text ++ paramsText later) =
      (front ++ ';' :: p.front) ++ '=' :: (p.back ++ paramsText later) := by
    simp [text]
  have hbacktext : p.back ++ paramsText later = (p.afterSign.1 ++ p.value.mark) ++
      (p.value.body ++ (p.value.mark ++ (p.after.1 ++ paramsText later))) := by
    simp [back]
  rw [htext] at hlast
  rcases rest_cases hback hlast with ⟨hsuffix, rfl⟩ | ⟨inside, rfl⟩
  · have hname : nameWord <:+ front ++ ';' :: p.front := by
      obtain ⟨pre, hpre⟩ := hsuffix
      rw [nameMark_eq, ← List.append_assoc] at hpre
      exact ⟨pre, List.append_cancel_right hpre⟩
    obtain ⟨hname, hsign⟩ := name_of_suffix hfile hname
    rw [hbacktext] at htrim
    obtain ⟨hu, hw, hplain⟩ := trim_around htrim
    have hblank : ∀ (b : HeaderBlanks), (∀ c ∈ b.1, isQuoteJunk c = true) → ∀ c ∈ b.1, c = ' ' :=
      fun b hb c hc => eq_blank (hb c hc) (List.all_eq_true.mp b.2 c hc)
    refine ⟨?_, hname, hsign, hplain, hmark, hclean, fun c hc => ?_⟩
    · cases later with
      | nil => rfl
      | cons q later =>
        have hsemi : ';' ∈ paramsText (q :: later) := List.mem_cons_self
        exact absurd (hw ';' (by simp [hsemi])) (by decide)
    · rcases List.mem_append.mp hc with hc | hc
      · exact hblank p.afterSign (fun c hc => hu c (List.mem_append_left _ hc)) c hc
      · exact hblank p.after (fun c hc => hw c (by simp [hc])) c hc
  · exfalso
    rw [hbacktext] at htrim
    have hsplit : inside ++ '=' :: ((p.afterSign.1 ++ p.value.mark) ++
        (p.value.body ++ (p.value.mark ++ (p.after.1 ++ paramsText later)))) =
        (inside ++ '=' :: (p.afterSign.1 ++ p.value.mark)) ++
          (p.value.body ++ (p.value.mark ++ (p.after.1 ++ paramsText later))) := by simp
    rw [hsplit] at htrim
    obtain ⟨hu, -, -⟩ := trim_around htrim
    exact absurd (hu '=' (by simp)) (by decide)

/-- **The file name that is read is the value of the parameter exactly when it is read right.** -/
theorem nameAfter_eq_iff (hfile : p.isFilename = true) (front : List Char) :
    nameAfter (String.ofList (front ++ (p.text ++ paramsText later))) =
      some (String.ofList p.value.value) ↔ p.ReadRight later := by
  rw [nameAfter_iff, ReadRight]
  split_ifs with hlater
  · rw [nameAfter_iff]
    obtain ⟨r, hr⟩ := Last.exists nameMark_ne_nil hlater
    have hr' : Last nameMark (front ++ (p.text ++ paramsText later)) r := by
      rw [← List.append_assoc]
      exact hr.append _
    constructor
    · rintro ⟨rest, hlast, htrim⟩
      exact ⟨rest, hlast.unique nameMark_borderFree hr' ▸ hr, htrim⟩
    · rintro ⟨rest, hlast, htrim⟩
      exact ⟨rest, hlast.unique nameMark_borderFree hr ▸ hr', htrim⟩
  · constructor
    · rintro ⟨rest, hlast, htrim⟩
      exact readPlain_of_trim hfile hlater hlast htrim
    · exact fun h => ⟨_, h.last_back front, h.trim_back⟩

end DispositionParam

/-! ## One reading -/

section Reading

/-- The longest part of a text whose characters are of a kind. -/
theorem span_inj {p : Char → Bool} {a a' r r' : List Char} (ha : ∀ c ∈ a, p c = true)
    (ha' : ∀ c ∈ a', p c = true) (hr : ∀ c ∈ r.head?, p c = false)
    (hr' : ∀ c ∈ r'.head?, p c = false) (h : a ++ r = a' ++ r') : a = a' ∧ r = r' := by
  have htake : ∀ {b t : List Char}, (∀ c ∈ b, p c = true) → (∀ c ∈ t.head?, p c = false) →
      (b ++ t).takeWhile p = b := by
    intro b t hb ht
    have hnil : t.takeWhile p = [] := by
      cases t with
      | nil => rfl
      | cons c t =>
        rw [List.takeWhile_cons, ht c rfl]
        rfl
    rw [List.takeWhile_append_of_pos hb, hnil, List.append_nil]
  have haa : a = a' := (htake ha hr).symm.trans ((congrArg _ h).trans (htake ha' hr'))
  subst haa
  exact ⟨rfl, List.append_cancel_left h⟩

theorem blanks_inj {b b' : HeaderBlanks} {r r' : List Char}
    (hr : ∀ c ∈ r.head?, isHeaderBlank c = false) (hr' : ∀ c ∈ r'.head?, isHeaderBlank c = false)
    (h : b.1 ++ r = b'.1 ++ r') : b = b' ∧ r = r' := by
  obtain ⟨hb, hrest⟩ := span_inj (List.all_eq_true.mp b.2) (List.all_eq_true.mp b'.2) hr hr' h
  exact ⟨Subtype.ext hb, hrest⟩

theorem token_inj {t t' : HeaderToken} {r r' : List Char}
    (hr : ∀ c ∈ r.head?, isTokenChar c = false) (hr' : ∀ c ∈ r'.head?, isTokenChar c = false)
    (h : t.1 ++ r = t'.1 ++ r') : t = t' ∧ r = r' := by
  obtain ⟨ht, hrest⟩ := span_inj (List.all_eq_true.mp t.2.2) (List.all_eq_true.mp t'.2.2) hr hr' h
  exact ⟨Subtype.ext ht, hrest⟩

theorem isHeaderBlank_of_token {c : Char} (h : isTokenChar c = true) : isHeaderBlank c = false := by
  by_contra hb
  rw [Bool.not_eq_false, isHeaderBlank, Bool.or_eq_true, beq_iff_eq, beq_iff_eq] at hb
  rcases hb with rfl | rfl <;> exact absurd h (by decide)

theorem isTokenChar_of_blank {c : Char} (h : isHeaderBlank c = true) : isTokenChar c = false := by
  by_contra ht
  exact absurd (h.symm.trans (isHeaderBlank_of_token ((Bool.not_eq_false _).mp ht))) (by decide)

/-- A token begins with a character of a token. -/
theorem token_head (t : HeaderToken) (r : List Char) :
    ∃ c, (t.1 ++ r).head? = some c ∧ isTokenChar c = true := by
  obtain ⟨text, hne, hall⟩ := t
  obtain ⟨c, cs, rfl⟩ := List.exists_cons_of_ne_nil hne
  exact ⟨c, rfl, List.all_eq_true.mp hall c List.mem_cons_self⟩

theorem token_not_blank (t : HeaderToken) (r : List Char) :
    ∀ c ∈ (t.1 ++ r).head?, isHeaderBlank c = false := by
  obtain ⟨c, hc, htoken⟩ := token_head t r
  intro c' hc'
  obtain rfl := Option.some.inj (hc.symm.trans hc')
  exact isHeaderBlank_of_token htoken

/-- A token ends where white space begins, or what comes after this. -/
theorem blanks_not_token (b : HeaderBlanks) {r : List Char}
    (hr : ∀ c ∈ r.head?, isTokenChar c = false) :
    ∀ c ∈ (b.1 ++ r).head?, isTokenChar c = false := by
  obtain ⟨text, hall⟩ := b
  cases text with
  | nil => exact hr
  | cons c cs =>
    intro c' hc'
    obtain rfl := Option.some.inj hc'
    exact isTokenChar_of_blank (List.all_eq_true.mp hall c List.mem_cons_self)

/-- What ends a parameter is nothing, or the `;` of the next one. -/
def Closes (r : List Char) : Prop := ∀ c ∈ r.head?, c = ';'

theorem Closes.not_blank {r : List Char} (h : Closes r) : ∀ c ∈ r.head?, isHeaderBlank c = false :=
  fun c hc => h c hc ▸ by decide

theorem Closes.not_token {r : List Char} (h : Closes r) : ∀ c ∈ r.head?, isTokenChar c = false :=
  fun c hc => h c hc ▸ by decide

theorem closes_paramsText (params : List DispositionParam) : Closes (paramsText params) :=
  DispositionParam.paramsText_head params

/-- The characters up to a quotation mark. -/
theorem quoted_inj {cs cs' : List QuotedChar} {r r' : List Char}
    (h : cs.flatMap QuotedChar.text ++ '"' :: r = cs'.flatMap QuotedChar.text ++ '"' :: r') :
    cs = cs' ∧ r = r' := by
  induction cs generalizing cs' with
  | nil =>
    cases cs' with
    | nil => exact ⟨rfl, (List.cons.inj h).2⟩
    | cons c' cs' =>
      cases c' with
      | plain c hc =>
        obtain rfl := (List.cons.inj h).1
        exact absurd hc (by decide)
      | escaped => exact absurd (List.cons.inj h).1 (by decide)
  | cons c cs ih =>
    cases cs' with
    | nil =>
      cases c with
      | plain c hc =>
        obtain rfl := (List.cons.inj h).1
        exact absurd hc (by decide)
      | escaped => exact absurd (List.cons.inj h).1 (by decide)
    | cons c' cs' =>
      cases c with
      | plain c hc =>
        cases c' with
        | plain c' hc' =>
          obtain ⟨rfl, hrest⟩ := List.cons.inj h
          obtain ⟨rfl, hr⟩ := ih hrest
          exact ⟨rfl, hr⟩
        | escaped c' =>
          obtain rfl := (List.cons.inj h).1
          exact absurd hc (by decide)
      | escaped c =>
        cases c' with
        | plain c' hc' =>
          obtain rfl := (List.cons.inj h).1
          exact absurd hc' (by decide)
        | escaped c' =>
          obtain ⟨rfl, hrest⟩ := List.cons.inj (List.cons.inj h).2
          obtain ⟨rfl, hr⟩ := ih hrest
          exact ⟨rfl, hr⟩

/-- A value with its quotation marks, and the white space after it. -/
theorem value_inj {v v' : ParamValue} {b b' : HeaderBlanks} {r r' : List Char} (hr : Closes r)
    (hr' : Closes r')
    (h : v.mark ++ (v.body ++ (v.mark ++ (b.1 ++ r))) =
      v'.mark ++ (v'.body ++ (v'.mark ++ (b'.1 ++ r')))) : v = v' ∧ b = b' ∧ r = r' := by
  have hmixed : ∀ {t : HeaderToken} {rest rest' : List Char}, t.1 ++ rest ≠ '"' :: rest' := by
    intro t rest rest' he
    obtain ⟨c, hc, htoken⟩ := token_head t rest
    rw [he] at hc
    obtain rfl := Option.some.inj hc
    exact absurd htoken (by decide)
  cases v with
  | bare t =>
    cases v' with
    | bare t' =>
      obtain ⟨rfl, hrest⟩ := token_inj (blanks_not_token b hr.not_token)
        (blanks_not_token b' hr'.not_token) h
      obtain ⟨rfl, rfl⟩ := blanks_inj hr.not_blank hr'.not_blank hrest
      exact ⟨rfl, rfl, rfl⟩
    | quoted => exact absurd h hmixed
  | quoted cs =>
    cases v' with
    | bare t' => exact absurd h.symm hmixed
    | quoted cs' =>
      obtain ⟨rfl, hrest⟩ := quoted_inj (List.cons.inj h).2
      obtain ⟨rfl, rfl⟩ := blanks_inj hr.not_blank hr'.not_blank hrest
      exact ⟨rfl, rfl, rfl⟩

theorem value_not_blank (v : ParamValue) (r : List Char) :
    ∀ c ∈ (v.mark ++ (v.body ++ r)).head?, isHeaderBlank c = false := by
  cases v with
  | bare t => exact token_not_blank t r
  | quoted cs =>
    intro c hc
    obtain rfl := Option.some.inj hc
    decide

/-- One parameter, and what comes after it. -/
theorem param_inj {p p' : DispositionParam} {r r' : List Char} (hr : Closes r) (hr' : Closes r')
    (h : p.text ++ r = p'.text ++ r') : p = p' ∧ r = r' := by
  obtain ⟨before, name, beforeSign, afterSign, value, after⟩ := p
  obtain ⟨before', name', beforeSign', afterSign', value', after'⟩ := p'
  simp only [DispositionParam.text, DispositionParam.front, DispositionParam.back, List.cons_append,
    List.append_assoc, List.cons.injEq, true_and] at h
  have hsign : ∀ rest : List Char, ∀ c ∈ ('=' :: rest).head?,
      isHeaderBlank c = false ∧ isTokenChar c = false := by
    intro rest c hc
    obtain rfl := Option.some.inj hc
    exact ⟨by decide, by decide⟩
  obtain ⟨rfl, hname⟩ := blanks_inj (token_not_blank _ _) (token_not_blank _ _) h
  obtain ⟨rfl, hblanks⟩ := token_inj (blanks_not_token _ fun c hc => (hsign _ c hc).2)
    (blanks_not_token _ fun c hc => (hsign _ c hc).2) hname
  obtain ⟨rfl, hback⟩ := blanks_inj (fun c hc => (hsign _ c hc).1) (fun c hc => (hsign _ c hc).1)
    hblanks
  obtain ⟨rfl, hvalue⟩ := blanks_inj (value_not_blank _ _) (value_not_blank _ _)
    (List.cons.inj hback).2
  obtain ⟨rfl, rfl, rfl⟩ := value_inj hr hr' hvalue
  exact ⟨rfl, rfl⟩

theorem paramsText_inj {params params' : List DispositionParam}
    (h : paramsText params = paramsText params') : params = params' := by
  induction params generalizing params' with
  | nil =>
    cases params' with
    | nil => rfl
    | cons p' params' => cases h
  | cons p params ih =>
    cases params' with
    | nil => cases h
    | cons p' params' =>
      obtain ⟨rfl, hrest⟩ := param_inj (closes_paramsText params) (closes_paramsText params')
        (by simpa [paramsText] using h)
      rw [ih hrest]

/-- **A header has one reading.** -/
theorem Disposition.text_inj {d d' : Disposition} (h : d.text = d'.text) : d = d' := by
  obtain ⟨before, type, after, params⟩ := d
  obtain ⟨before', type', after', params'⟩ := d'
  have htext := String.ofList_injective h
  obtain ⟨rfl, htype⟩ := blanks_inj (token_not_blank _ _) (token_not_blank _ _) htext
  obtain ⟨rfl, hafter⟩ := token_inj (blanks_not_token _ (closes_paramsText _).not_token)
    (blanks_not_token _ (closes_paramsText _).not_token) htype
  obtain ⟨rfl, hparams⟩ := blanks_inj (closes_paramsText _).not_blank
    (closes_paramsText _).not_blank hafter
  obtain rfl := paramsText_inj hparams
  rfl

end Reading

/-! ## The type -/

/-- The token before the first `;` is the type. -/
theorem dispositionType_text (d : Disposition) : dispositionType d.text = d.type.1 := by
  have hblank : ∀ (b : HeaderBlanks), ∀ c ∈ b.1, isHeaderBlank c = true :=
    fun b => List.all_eq_true.mp b.2
  have htoken : ∀ c ∈ d.type.1, isTokenChar c = true := List.all_eq_true.mp d.type.2.2
  have hfront : ∀ c ∈ d.before.1 ++ (d.type.1 ++ d.after.1), decide (c ≠ ';') = true := by
    have hb : ∀ (b : HeaderBlanks), ∀ c ∈ b.1, decide (c ≠ ';') = true := by
      intro b c hc
      refine decide_eq_true fun hsemi => ?_
      exact absurd (hsemi ▸ hblank b c hc) (by decide)
    have ht : ∀ c ∈ d.type.1, decide (c ≠ ';') = true := by
      intro c hc
      refine decide_eq_true fun hsemi => ?_
      exact absurd (hsemi ▸ htoken c hc) (by decide)
    exact List.forall_mem_append.mpr ⟨hb _, List.forall_mem_append.mpr ⟨ht, hb _⟩⟩
  have hrest : (paramsText d.params).takeWhile (· ≠ ';') = [] := by
    cases hp : paramsText d.params with
    | nil => rfl
    | cons c rest =>
      have hc := DispositionParam.paramsText_head d.params c (by rw [hp]; rfl)
      simp [hc]
  have htext : d.text.toList =
      (d.before.1 ++ (d.type.1 ++ d.after.1)) ++ paramsText d.params := by
    simp [Disposition.text]
  rw [dispositionType, htext, List.takeWhile_append_of_pos hfront, hrest, List.append_nil]
  have hclean : ∀ c ∈ d.type.1, isHeaderBlank c = false :=
    fun c hc => isHeaderBlank_of_token (htoken c hc)
  exact trim_eq_iff.mpr ⟨⟨fun c hc => hclean c (List.mem_of_head? hc),
    fun c hc => hclean c (List.mem_of_getLast? hc)⟩, _, _, rfl, hblank _, hblank _⟩

/-- The two spellings that `_on_response` knows. -/
def usualSpelling (name : String) : Bool :=
  name = "content-disposition" || name = "Content-Disposition"

theorem get_disposition {name : String} (h : isDispositionName name = true)
    (headers : Dict String String) : Dict.get name headers =
      Dict.get name (headers.filter fun p => isDispositionName p.1) := by
  induction headers with
  | nil => rfl
  | cons p headers ih =>
    rw [Dict.get, List.filter_cons]
    by_cases hp : p.1 = name
    · rw [if_pos hp, if_pos (by rw [hp]; exact h), Dict.get, if_pos hp]
    · rw [if_neg hp, ih]
      split_ifs
      · rw [Dict.get, if_neg hp]
      · rfl

/-- The header that the source finds, if there is at most one. -/
theorem contentDisposition_eq {headers : Dict String String} (h : AtMostOneDisposition headers) :
    NetworkMonitor.contentDisposition headers =
      ((dispositionHeader headers).filter fun p => usualSpelling p.1).elim "" Prod.snd := by
  have hlower : Dict.get "content-disposition" headers = _ := get_disposition (by decide) headers
  have hupper : Dict.get "Content-Disposition" headers = _ := get_disposition (by decide) headers
  unfold NetworkMonitor.contentDisposition dispositionHeader
  rw [hlower, hupper, ← List.head?_filter]
  unfold AtMostOneDisposition at h
  cases hl : headers.filter (fun p => isDispositionName p.1) with
  | nil => rfl
  | cons p rest =>
    rw [hl] at h
    obtain rfl : rest = [] := List.eq_nil_of_length_eq_zero (by simpa using h)
    obtain ⟨name, v⟩ := p
    simp only [Dict.get, List.head?_cons, Option.filter, usualSpelling]
    by_cases h₁ : name = "content-disposition"
    · simp [h₁]
    · by_cases h₂ : name = "Content-Disposition"
      · simp [h₂]
      · simp [h₁, h₂]

section Marks

variable [PyText]

/-- The header has the word `attachment`, as `_on_response` looks for it. -/
def mentionsAttachment (header : String) : Bool :=
  containsStr "attachment" (PyText.lower header)

/-- **A header with the type `attachment` has the word.** -/
theorem mentionsAttachment_of_type {header : String} (h : isAttachment header = true) :
    mentionsAttachment header = true := by
  have htype : (dispositionType header).map Char.toLower = "attachment".toList :=
    of_decide_eq_true h
  obtain ⟨-, u, w, hfront, hu, hw⟩ := trim_spec isHeaderBlank (header.toList.takeWhile (· ≠ ';'))
  have hblank : ∀ {blanks : List Char}, (∀ c ∈ blanks, isHeaderBlank c = true) →
      ∀ c ∈ blanks, c.toNat < 128 := by
    intro blanks hb c hc
    have hcb := hb c hc
    simp only [isHeaderBlank, Bool.or_eq_true, beq_iff_eq] at hcb
    rcases hcb with rfl | rfl <;> decide
  have hword : ∀ c ∈ dispositionType header, c.toNat < 128 := by
    intro c hc
    have hmem : c.toLower ∈ "attachment".toList := htype ▸ List.mem_map_of_mem hc
    have hletters : "attachment".toList.all (fun d => d.toNat < 128) = true := by decide
    exact ascii_of_toLower (of_decide_eq_true (List.all_eq_true.mp hletters _ hmem))
  have hascii : ∀ c ∈ (String.ofList (header.toList.takeWhile (· ≠ ';'))).toList,
      c.toNat < 128 := by
    rw [String.toList_ofList, hfront]
    exact List.forall_mem_append.mpr ⟨hblank hu, List.forall_mem_append.mpr ⟨hword, hblank hw⟩⟩
  obtain ⟨t', ht'⟩ := PyText.lower_append _
    (String.ofList (header.toList.dropWhile (· ≠ ';'))) hascii
  rw [← String.ofList_append, List.takeWhile_append_dropWhile, String.ofList_toList,
    PyText.lower_ascii _ hascii, String.toList_ofList, hfront] at ht'
  rw [mentionsAttachment, containsStr_iff, ht', ← htype]
  refine ⟨u.map Char.toLower, w.map Char.toLower ++ t'.toList, ?_⟩
  simp [dispositionType]

theorem isDownload_eq {headers : Dict String String} (h : AtMostOneDisposition headers) :
    NetworkMonitor.isDownload headers = (dispositionHeader headers).any fun p =>
      usualSpelling p.1 && mentionsAttachment p.2 := by
  have hempty : containsStr "attachment" (PyText.lower "") = false := by
    rw [PyText.lower_ascii "" (by simp)]
    decide
  unfold NetworkMonitor.isDownload
  rw [contentDisposition_eq h]
  cases hd : dispositionHeader headers with
  | none => simp
  | some p =>
    obtain ⟨name, v⟩ := p
    cases hs : usualSpelling name with
    | false => simp [Option.filter, hs]
    | true =>
      by_cases hv : v = ""
      · simp [Option.filter, hs, hv, mentionsAttachment, hempty]
      · simp [Option.filter, hs, hv, mentionsAttachment]

theorem downloadFilename_eq (headers : Dict String String) :
    NetworkMonitor.downloadFilename headers = if NetworkMonitor.isDownload headers then
      nameAfter (NetworkMonitor.contentDisposition headers) else none := by
  unfold NetworkMonitor.downloadFilename nameAfter
  cases NetworkMonitor.isDownload headers <;> simp

/-! ## The event -/

/-- **The event says what the header says**: a download if and only if the type is `attachment`, and
the value of a file name parameter as its file name. -/
structure SaysRight (headers : Dict String String) (e : NetworkEvent) : Prop where
  marked : e.triggeredDownload = (dispositionHeader headers).any fun p => isAttachment p.2
  named : ∀ (name : String) (d : Disposition) (p : DispositionParam),
    dispositionHeader headers = some (name, d.text) → p ∈ d.params → p.isFilename = true →
    e.downloadFilename = some (String.ofList p.value.value)

/-- **When it does**: a header in one of the two spellings has the type `attachment` or not the
word, and any other header has not the type; a header with a file name is in one of the two
spellings, has the type, and the parameter is read right. -/
structure SaidRight (headers : Dict String String) : Prop where
  marked : ∀ name header, dispositionHeader headers = some (name, header) →
    if usualSpelling name then isAttachment header = true ∨ mentionsAttachment header = false
    else isAttachment header = false
  named : ∀ (name : String) (d : Disposition) (before later : List DispositionParam)
    (p : DispositionParam), dispositionHeader headers = some (name, d.text) →
    d.params = before ++ p :: later → p.isFilename = true →
    usualSpelling name = true ∧ isAttachment d.text = true ∧ p.ReadRight later

variable {headers : Dict String String}

/-- The word decides as the type does. -/
theorem marked_iff {name header : String} :
    (usualSpelling name && mentionsAttachment header) = isAttachment header ↔
      if usualSpelling name then isAttachment header = true ∨ mentionsAttachment header = false
      else isAttachment header = false := by
  have himp : isAttachment header = true → mentionsAttachment header = true :=
    mentionsAttachment_of_type
  cases usualSpelling name <;> cases hm : mentionsAttachment header <;>
    cases ha : isAttachment header <;> simp_all

/-- Of a download under a usual name the file name is that after the last `filename=`. -/
theorem downloadFilename_some (h : AtMostOneDisposition headers) {name : String} {d : Disposition}
    (hd : dispositionHeader headers = some (name, d.text)) {before later : List DispositionParam}
    {p : DispositionParam} (hparams : d.params = before ++ p :: later)
    (hfile : p.isFilename = true) :
    NetworkMonitor.downloadFilename headers = some (String.ofList p.value.value) ↔
      (usualSpelling name = true ∧ mentionsAttachment d.text = true) ∧ p.ReadRight later := by
  have htext : d.text = String.ofList ((d.before.1 ++ (d.type.1 ++ (d.after.1 ++
      paramsText before))) ++ (p.text ++ paramsText later)) := by
    simp [Disposition.text, hparams, paramsText]
  rw [downloadFilename_eq, isDownload_eq h, contentDisposition_eq h, hd]
  simp only [Option.any_some, Bool.and_eq_true]
  split_ifs with hmarked
  · have hfound : ((some (name, d.text)).filter fun p => usualSpelling p.1).elim "" Prod.snd =
        d.text := by simp [Option.filter, hmarked.1]
    rw [hfound, htext, DispositionParam.nameAfter_eq_iff hfile]
    exact ⟨fun hr => ⟨htext ▸ hmarked, hr⟩, fun hr => hr.2⟩
  · exact iff_of_false nofun fun hr => hmarked hr.1

/-- **The event of a response says what its header says, if and only if the header is said right.**
-/
theorem disposition_iff (m : NetworkMonitor) (id url : String) (status : PyVal)
    (hcaptures : m.captures url = true) (hone : AtMostOneDisposition headers) :
    (∃ e, (m.onResponse id url status headers).events = m.events ++ [e] ∧ SaysRight headers e) ↔
      SaidRight headers := by
  have hmarked : ∀ name header, dispositionHeader headers = some (name, header) →
      NetworkMonitor.isDownload headers = (usualSpelling name && mentionsAttachment header) := by
    intro name header hd
    rw [isDownload_eq hone, hd]
    rfl
  have hevent : (∃ e, (m.onResponse id url status headers).events = m.events ++ [e] ∧
      SaysRight headers e) ↔ SaysRight headers (NetworkMonitor.responseEvent
        (Dict.get id m.pendingRequests) url status headers) := by
    rw [NetworkMonitor.onResponse_eq, if_pos hcaptures]
    simp
  rw [hevent]
  constructor
  · rintro ⟨hm, hn⟩
    have hm' : ∀ name header, dispositionHeader headers = some (name, header) →
        (usualSpelling name && mentionsAttachment header) = isAttachment header := by
      intro name header hd
      rw [← hmarked name header hd]
      refine hm.trans ?_
      rw [hd]
      rfl
    refine ⟨fun name header hd => marked_iff.mp (hm' name header hd),
      fun name d before later p hd hparams hfile => ?_⟩
    have hmem : p ∈ d.params := by
      rw [hparams]
      simp
    obtain ⟨⟨hs, hment⟩, hread⟩ :=
      (downloadFilename_some hone hd hparams hfile).mp (hn name d p hd hmem hfile)
    refine ⟨hs, ?_, hread⟩
    rw [← hm' name d.text hd, hs, hment]
    rfl
  · rintro ⟨hm, hn⟩
    refine ⟨?_, fun name d p hd hmem hfile => ?_⟩
    · cases hd : dispositionHeader headers with
      | none =>
        refine (isDownload_eq hone).trans ?_
        rw [hd]
        rfl
      | some h =>
        exact (hmarked h.1 h.2 hd).trans (marked_iff.mpr (hm h.1 h.2 hd))
    · obtain ⟨before, later, hparams⟩ := List.append_of_mem hmem
      obtain ⟨hs, ha, hread⟩ := hn name d before later p hd hparams hfile
      exact (downloadFilename_some hone hd hparams hfile).mpr
        ⟨⟨hs, mentionsAttachment_of_type ha⟩, hread⟩

end Marks

/-! ## A parameter after the file name -/

section Example

attribute [local instance] asciiText

/-- A monitor that captures every response. -/
def openMonitor : NetworkMonitor := { monitoring := true }

/-- `type; filename="value"` and perhaps a size. -/
def fileDisposition (type : HeaderToken) (value : List QuotedChar) (size : Option HeaderToken) :
    Disposition where
  before := ⟨[], rfl⟩
  type := type
  after := ⟨[], rfl⟩
  params :=
    { before := ⟨[' '], rfl⟩
      name := ⟨nameWord, by decide, by decide⟩
      beforeSign := ⟨[], rfl⟩
      afterSign := ⟨[], rfl⟩
      value := .quoted value
      after := ⟨[], rfl⟩ } ::
    (size.map fun size =>
      { before := ⟨[' '], rfl⟩
        name := ⟨"size".toList, by decide, by decide⟩
        beforeSign := ⟨[], rfl⟩
        afterSign := ⟨[], rfl⟩
        value := .bare size
        after := ⟨[], rfl⟩ }).toList

/-- The characters of `a.csv`. -/
def csvName : List QuotedChar :=
  [.plain 'a' rfl, .plain '.' rfl, .plain 'c' rfl, .plain 's' rfl, .plain 'v' rfl]

/-- An attachment with its file name. -/
def namedFile : Disposition :=
  fileDisposition ⟨"attachment".toList, by decide, by decide⟩ csvName none

theorem namedFile_said : SaidRight [("Content-Disposition", namedFile.text)] := by
  have htype : isAttachment namedFile.text = true := by decide +kernel
  refine ⟨fun name header hd => ?_, fun name d before later p hd hparams _ => ?_⟩
  · obtain ⟨rfl, rfl⟩ := Prod.mk.inj (Option.some.inj hd)
    have hspelling : usualSpelling "Content-Disposition" = true := by decide +kernel
    rw [if_pos hspelling]
    exact .inl htype
  · obtain ⟨rfl, htext⟩ := Prod.mk.inj (Option.some.inj hd)
    obtain rfl := Disposition.text_inj htext
    obtain ⟨rfl, hp⟩ | ⟨before, rfl, hp⟩ := List.append_eq_cons_iff.mp hparams.symm
    · obtain ⟨rfl, rfl⟩ := List.cons.inj hp
      refine ⟨by decide +kernel, htype, ?_⟩
      rw [DispositionParam.ReadRight, if_neg (by decide)]
      have hshort : ¬ nameMark.length ≤ csvName.length := by decide
      refine ⟨rfl, rfl, rfl, rfl, fun h => hshort h.length_le, ⟨?_, ?_⟩, List.forall_mem_nil _⟩
      · intro c hc
        obtain rfl : 'a' = c := Option.some.inj hc
        rfl
      · intro c hc
        obtain rfl : 'v' = c := Option.some.inj hc
        rfl
    · exact absurd hp.symm (by simp)

/-- The event of such a response is marked, and has the file name. -/
theorem disposition_iff_namedFile : namedFile.text = "attachment; filename=\"a.csv\"" ∧
    ∃ e, (openMonitor.onResponse "r1" "https://example.com/export" (.int 200)
        [("Content-Disposition", namedFile.text)]).events = openMonitor.events ++ [e] ∧
      SaysRight [("Content-Disposition", namedFile.text)] e :=
  ⟨by decide +kernel, (disposition_iff openMonitor "r1" "https://example.com/export" (.int 200)
    (by decide +kernel) (by unfold AtMostOneDisposition; decide +kernel)).mpr namedFile_said⟩

/-- An attachment with a size after its file name. -/
def sizedFile : Disposition :=
  fileDisposition ⟨"attachment".toList, by decide, by decide⟩ csvName
    (some ⟨['1', '0'], by decide, by decide⟩)

/-- **A parameter after the file name** is taken for a part of it. -/
theorem later_parameter_kept : sizedFile.text = "attachment; filename=\"a.csv\"; size=10" ∧
    NetworkMonitor.downloadFilename [("content-disposition", sizedFile.text)] =
      some "a.csv\"; size=10" ∧
    ¬ ∃ e, (openMonitor.onResponse "r1" "https://example.com/export" (.int 200)
        [("content-disposition", sizedFile.text)]).events = openMonitor.events ++ [e] ∧
      SaysRight [("content-disposition", sizedFile.text)] e := by
  have hname : NetworkMonitor.downloadFilename [("content-disposition", sizedFile.text)] =
      some "a.csv\"; size=10" := by decide +kernel
  refine ⟨by decide +kernel, hname, ?_⟩
  rintro ⟨e, hevents, hsays⟩
  have he : e.downloadFilename =
      NetworkMonitor.downloadFilename [("content-disposition", sizedFile.text)] := by
    rw [NetworkMonitor.onResponse_eq, if_pos (by decide +kernel)] at hevents
    rw [← List.singleton_inj.mp (List.append_cancel_left hevents)]
    rfl
  have hsaid := hsays.named "content-disposition" sizedFile _ rfl List.mem_cons_self
    (by decide +kernel)
  rw [he, hname] at hsaid
  exact absurd hsaid (by decide +kernel)

end Example

end ScoutEngine
