import ScoutEngine.Executor.Step

/-!
# Selectors that target an iframe

`_selector_targets_iframe` takes what follows the last separator of the text and tries a pattern on
it. Here it is compared with the grammar of complex selectors.

* `lastPiece`, `lastPiece_append`: what follows the last separator.
* `CssName`, `SimpleSelector`, `CompoundSelector`, `ComplexSelector`: the grammar, with escapes,
  quoted values and nested arguments, and the text of every selector.
* `ComplexSelector.targetsIframe`: the type of the last compound is `iframe`.
* `iframePattern_compound`: the pattern, tried on a compound without separators, reads its type.
* `ComplexSelector.readRight`, **`targets_iff`**; `blank_in_quotes_missed`: a blank in quotes.
-/

set_option autoImplicit false

namespace ScoutEngine

/-! ## The last piece -/

section Pieces

variable [PyText]

/-- A character at which `_selector_targets_iframe` splits. -/
def isSeparator (c : Char) : Bool := PyText.isSpace c || c == '>' || c == '+' || c == '~'

/-- What follows the last separator, once the blanks at the end are dropped. -/
def lastPiece (text : List Char) : List Char :=
  ((text.reverse.dropWhile PyText.isSpace).takeWhile fun c => !isSeparator c).reverse

/-- `_IFRAME_PATTERN.match`. -/
def iframePattern (final : List Char) : Bool :=
  let letters := "iframe".toList
  letters.length ≤ final.length &&
    (letters.zip final).all (fun p => matchesLetter p.1 p.2) &&
    match final.drop letters.length with
    | [] => true
    | c :: _ => c ∈ ['#', '.', '[', ':', '(']

theorem isSeparator_of_isSpace {c : Char} (h : PyText.isSpace c = true) : isSeparator c = true := by
  simp [isSeparator, h]

/-- Nothing is kept of a text that begins with a separator. -/
theorem takeWhile_separator {text : List Char} (h : ∀ c ∈ text.head?, isSeparator c = true) :
    text.takeWhile (fun c => !isSeparator c) = [] := by
  cases text with
  | nil => rfl
  | cons c text => simp [h c rfl]

/-- Blanks at the end do not matter. -/
theorem lastPiece_append_blanks (text : List Char) {blanks : List Char}
    (h : ∀ c ∈ blanks, PyText.isSpace c = true) : lastPiece (text ++ blanks) = lastPiece text := by
  unfold lastPiece
  rw [List.reverse_append, List.dropWhile_append_of_pos fun c hc => h c (List.mem_reverse.mp hc)]

/-- **The last piece is in the last compound**, unless that consists of blanks. -/
theorem lastPiece_append {lead : List Char} (last : List Char)
    (h : ∀ c ∈ lead.getLast?, isSeparator c = true) : lastPiece (lead ++ last) =
      if last.all PyText.isSpace then lastPiece lead else lastPiece last := by
  have hhead : lead.reverse.takeWhile (fun c => !isSeparator c) = [] := by
    refine takeWhile_separator ?_
    rw [List.head?_reverse]
    exact h
  split_ifs with hall
  · unfold lastPiece
    rw [List.reverse_append, List.dropWhile_append_of_pos]
    intro c hc
    exact List.all_eq_true.mp hall c (List.mem_reverse.mp hc)
  · have hne : last.reverse.dropWhile PyText.isSpace ≠ [] := by
      simpa [List.dropWhile_eq_nil_iff] using hall
    unfold lastPiece
    rw [List.reverse_append, List.dropWhile_append, if_neg (by simpa using hne),
      List.takeWhile_append, hhead, List.append_nil]
    split_ifs with hlen
    · rw [(List.takeWhile_prefix _).eq_of_length hlen]
    · rfl

/-- Blanks in front do not matter. -/
theorem lastPiece_dropWhile (text : List Char) :
    lastPiece (text.dropWhile PyText.isSpace) = lastPiece text := by
  have hblanks : ∀ c ∈ text.takeWhile PyText.isSpace, PyText.isSpace c = true :=
    fun c hc => List.mem_takeWhile_imp hc
  have hends : ∀ c ∈ (text.takeWhile PyText.isSpace).getLast?, isSeparator c = true :=
    fun c hc => isSeparator_of_isSpace (hblanks c (List.mem_of_getLast? hc))
  have happend := lastPiece_append (text.dropWhile PyText.isSpace) hends
  rw [List.takeWhile_append_dropWhile] at happend
  rw [happend]
  split_ifs with hall
  · have hnil : ∀ {blanks : List Char}, (∀ c ∈ blanks, PyText.isSpace c = true) →
        lastPiece blanks = [] := by
      intro blanks hb
      exact lastPiece_append_blanks [] hb
    rw [hnil hblanks, hnil (List.all_eq_true.mp hall)]
  · rfl

/-- **The source tries the pattern on the last piece.** -/
theorem selectorTargetsIframe_eq (selector : String) :
    selectorTargetsIframe selector = iframePattern (lastPiece selector.toList) := by
  have hfinal : ((strip selector).toList.reverse.takeWhile fun c => !isSeparator c).reverse =
      lastPiece selector.toList := by
    rw [← lastPiece_dropWhile, strip, String.toList_ofList, List.reverse_reverse]
    rfl
  rw [← hfinal]
  unfold selectorTargetsIframe iframePattern isSeparator
  generalize "iframe".toList = letters
  rfl

end Pieces

/-! ## Names and quoted values -/

/-- White space between the parts of a selector. -/
def isBlank (c : Char) : Bool := c ∈ [' ', '\t', '\n', '\r', '\x0c']

/-- A run of white space. -/
abbrev Blanks := {text : List Char // text.all isBlank = true}

/-- A character that stands in a name without an escape. -/
def isNameChar (c : Char) : Bool := c.isAlphanum || c == '-' || c == '_' || 128 ≤ c.toNat

def isHexDigit (c : Char) : Bool := c.isDigit || ('a' ≤ c && c ≤ 'f') || ('A' ≤ c && c ≤ 'F')

def hexValue (c : Char) : ℕ := if c.isDigit then c.toNat - 48 else c.toLower.toNat - 87

/-- A character of a name or of a quoted value, as itself, as `\c` or by its code. -/
inductive CssChar where
  | plain (c : Char)
  | escaped (c : Char)
  | coded (digits : List Char) (blank : Option Char)

namespace CssChar

def text : CssChar → List Char
  | plain c => [c]
  | escaped c => ['\\', c]
  | coded digits blank => '\\' :: digits ++ blank.toList

/-- The character that is meant. -/
def value : CssChar → Char
  | plain c | escaped c => c
  | coded digits _ =>
    let code := digits.foldl (fun n d => 16 * n + hexValue d) 0
    if code = 0 ∨ ¬ code.isValidChar then '\ufffd' else Char.ofNat code

def isPlain : CssChar → Bool
  | plain _ => true
  | _ => false

/-- The character may stand where the plain ones are restricted. -/
def allowed (ok : Char → Bool) : CssChar → Bool
  | plain c => ok c
  | escaped c => !isHexDigit c && c != '\n'
  | coded digits blank =>
    digits ≠ [] && digits.length ≤ 6 && digits.all isHexDigit && blank.all isBlank

end CssChar

/-- The name of a type, an id, a class, an attribute or a pseudo-class. -/
structure CssName where
  chars : List CssChar
  nonempty : chars ≠ []
  allowed : chars.all (CssChar.allowed isNameChar) = true

/-- A quoted value. -/
structure CssQuoted where
  quote : Char
  chars : List CssChar
  quote_eq : quote = '"' ∨ quote = '\''
  allowed : chars.all (CssChar.allowed fun c => c != quote && c != '\\' && c != '\n') = true

def CssName.text (n : CssName) : List Char := n.chars.flatMap CssChar.text

def CssQuoted.text (q : CssQuoted) : List Char :=
  q.quote :: q.chars.flatMap CssChar.text ++ [q.quote]

/-! ## Compounds and complex selectors -/

/-- The tests of an attribute. -/
inductive AttrOp where
  | equals | includes | dashMatch | startsWith | endsWith | contains
  deriving DecidableEq

def AttrOp.text : AttrOp → List Char
  | equals => ['=']
  | includes => ['~', '=']
  | dashMatch => ['|', '=']
  | startsWith => ['^', '=']
  | endsWith => ['$', '=']
  | contains => ['*', '=']

inductive AttrValue where
  | bare (n : CssName)
  | quoted (q : CssQuoted)

def AttrValue.text : AttrValue → List Char
  | bare n => n.text
  | quoted q => q.text

/-- The test of an attribute with its value and perhaps a flag for the case. -/
structure AttrTest where
  op : AttrOp
  before : Blanks
  value : AttrValue
  after : Blanks
  flag : Option (Char × Blanks)

def AttrTest.text (a : AttrTest) : List Char :=
  a.op.text ++ a.before.1 ++ a.value.text ++ a.after.1 ++
    a.flag.elim [] fun f => f.1 :: f.2.1

structure Attribute where
  before : Blanks
  name : CssName
  after : Blanks
  test : Option AttrTest

def Attribute.text (a : Attribute) : List Char :=
  '[' :: a.before.1 ++ a.name.text ++ a.after.1 ++ a.test.elim [] AttrTest.text ++ [']']

inductive Bracket where
  | round | square

def Bracket.opening : Bracket → Char
  | round => '('
  | square => '['

def Bracket.closing : Bracket → Char
  | round => ')'
  | square => ']'

/-- What stands between the parentheses of a pseudo-class: characters, quoted values and nested
brackets. -/
inductive CssArgs where
  | done
  | char (c : CssChar)
      (h : c.allowed (fun c => c ∉ ['"', '\'', '(', ')', '[', ']', '\\']) = true) (rest : CssArgs)
  | quoted (q : CssQuoted) (rest : CssArgs)
  | nested (b : Bracket) (inner rest : CssArgs)

def CssArgs.text : CssArgs → List Char
  | done => []
  | char c _ rest => c.text ++ rest.text
  | quoted q rest => q.text ++ rest.text
  | nested b inner rest => b.opening :: inner.text ++ b.closing :: rest.text

inductive SimpleSelector where
  | id (n : CssName)
  | cls (n : CssName)
  | attr (a : Attribute)
  | pseudoClass (n : CssName) (args : Option CssArgs)

def SimpleSelector.text : SimpleSelector → List Char
  | id n => '#' :: n.text
  | cls n => '.' :: n.text
  | attr a => a.text
  | pseudoClass n args => ':' :: n.text ++ args.elim [] fun a => '(' :: a.text ++ [')']

/-- The type of a compound; `*` stands for any. -/
inductive TypeSelector where
  | any
  | named (n : CssName)

def TypeSelector.text : TypeSelector → List Char
  | any => ['*']
  | named n => n.text

structure CompoundSelector where
  type : Option TypeSelector
  simples : List SimpleSelector
  nonempty : type ≠ none ∨ simples ≠ []

def CompoundSelector.text (c : CompoundSelector) : List Char :=
  c.type.elim [] TypeSelector.text ++ c.simples.flatMap SimpleSelector.text

inductive Combinator where
  | descendant (blanks : Blanks) (h : blanks.1 ≠ [])
  | child (before after : Blanks)
  | nextSibling (before after : Blanks)
  | laterSibling (before after : Blanks)

def Combinator.text : Combinator → List Char
  | descendant blanks _ => blanks.1
  | child before after => before.1 ++ '>' :: after.1
  | nextSibling before after => before.1 ++ '+' :: after.1
  | laterSibling before after => before.1 ++ '~' :: after.1

/-- **A complex selector**, with the blanks around it. -/
structure ComplexSelector where
  before : Blanks
  lead : List (CompoundSelector × Combinator)
  last : CompoundSelector
  after : Blanks

/-- What stands before the last compound. -/
def ComplexSelector.leadText (s : ComplexSelector) : List Char :=
  s.before.1 ++ s.lead.flatMap fun p => p.1.text ++ p.2.text

/-- The text of a selector. -/
def ComplexSelector.text (s : ComplexSelector) : String :=
  String.ofList (s.leadText ++ s.last.text ++ s.after.1)

/-! ## What a selector targets -/

/-- The name is `iframe`, without regard to case. -/
def CssName.isIframe (n : CssName) : Bool :=
  n.chars.map (fun c => c.value.toLower) = "iframe".toList

def TypeSelector.isIframe : TypeSelector → Bool
  | any => false
  | named n => n.isIframe

/-- **The type of the last compound is `iframe`.** -/
def ComplexSelector.targetsIframe (s : ComplexSelector) : Bool :=
  s.last.type.any TypeSelector.isIframe

/-! ## The pattern on a compound -/

/-- The pattern, letter by letter. -/
def readsWord : List Char → List Char → Bool
  | [], [] => true
  | [], c :: _ => c ∈ ['#', '.', '[', ':', '(']
  | _ :: _, [] => false
  | l :: letters, c :: cs => matchesLetter l c && readsWord letters cs

/-- A name is spelled with these letters, without escapes. -/
def spelledBy : List Char → List CssChar → Bool
  | [], [] => true
  | l :: letters, .plain c :: cs => matchesLetter l c && spelledBy letters cs
  | _, _ => false

theorem readsWord_eq (letters final : List Char) : (letters.length ≤ final.length &&
    (letters.zip final).all (fun p => matchesLetter p.1 p.2) &&
    match final.drop letters.length with
    | [] => true
    | c :: _ => c ∈ ['#', '.', '[', ':', '(']) = readsWord letters final := by
  induction letters generalizing final with
  | nil => cases final <;> simp [readsWord]
  | cons l letters ih =>
    cases final with
    | nil => simp [readsWord]
    | cons c final =>
      rw [readsWord, ← ih]
      simp [Bool.and_assoc, Bool.and_left_comm]

theorem iframePattern_eq (final : List Char) :
    iframePattern final = readsWord "iframe".toList final := readsWord_eq _ final

/-- A letter that is neither an escape nor the beginning of a simple selector. -/
def isLetter (l : Char) : Prop :=
  ∀ c, c ∈ ['\\', '#', '.', '[', ':', '('] → matchesLetter l c = false

theorem isNameChar_begins (c : Char) (h : c ∈ ['#', '.', '[', ':', '(']) :
    isNameChar c = false := by
  simp only [List.mem_cons, List.not_mem_nil, or_false] at h
  rcases h with rfl | rfl | rfl | rfl | rfl <;> rfl

/-- **The pattern on a name**: an escape or the end of the name is not taken for a letter, and no
character of a name for its end. -/
theorem readsWord_append {letters rest : List Char} {chars : List CssChar}
    (hletters : ∀ l ∈ letters, isLetter l)
    (hchars : chars.all (CssChar.allowed isNameChar) = true)
    (hrest : ∀ c ∈ rest.head?, c ∈ ['#', '.', '[', ':', '(']) :
    readsWord letters (chars.flatMap CssChar.text ++ rest) = spelledBy letters chars := by
  induction chars generalizing letters with
  | nil =>
    cases letters with
    | nil =>
      cases rest with
      | nil => rfl
      | cons c rest => simpa [readsWord, spelledBy] using hrest c rfl
    | cons l letters =>
      cases rest with
      | nil => rfl
      | cons c rest =>
        have hl : matchesLetter l c = false :=
          hletters l List.mem_cons_self c (List.mem_cons_of_mem _ (hrest c rfl))
        simp [readsWord, spelledBy, hl]
  | cons x chars ih =>
    rw [List.all_cons, Bool.and_eq_true] at hchars
    obtain ⟨hx, hchars⟩ := hchars
    cases letters with
    | nil =>
      cases x with
      | plain c =>
        have hc : c ∉ ['#', '.', '[', ':', '('] := fun hmem =>
          absurd ((isNameChar_begins c hmem).symm.trans hx) Bool.false_ne_true
        exact decide_eq_false hc
      | escaped c => rfl
      | coded digits blank => rfl
    | cons l letters =>
      rw [List.forall_mem_cons] at hletters
      obtain ⟨hl, hletters⟩ := hletters
      have hbackslash : matchesLetter l '\\' = false := hl _ List.mem_cons_self
      cases x with
      | plain c => simp [readsWord, spelledBy, CssChar.text, ih hletters hchars]
      | escaped c => simp [readsWord, spelledBy, CssChar.text, hbackslash]
      | coded digits blank => simp [readsWord, spelledBy, CssChar.text, hbackslash]

/-- The letters of the pattern after the first are matched by the two cases of the letter. -/
theorem spelledBy_tail {letters : List Char} (hi : 'i' ∉ letters) (chars : List CssChar) :
    spelledBy letters chars = (chars.all CssChar.isPlain &&
      decide (chars.map (fun c => c.value.toLower) = letters)) := by
  induction letters generalizing chars with
  | nil => cases chars <;> simp [spelledBy]
  | cons l letters ih =>
    rw [List.mem_cons, not_or] at hi
    cases chars with
    | nil => simp [spelledBy]
    | cons x chars =>
      cases x with
      | plain c =>
        have hl : matchesLetter l c = (c.toLower == l) := by
          simp [matchesLetter, Ne.symm hi.1]
        rw [spelledBy, ih hi.2, hl]
        simp only [List.all_cons, List.map_cons, List.cons.injEq, CssChar.isPlain, CssChar.value,
          Bool.true_and, Bool.decide_and]
        rw [Bool.and_left_comm]
        rfl
      | escaped c => simp [spelledBy, CssChar.isPlain]
      | coded digits blank => simp [spelledBy, CssChar.isPlain]

/-- The name is `iframe` but for a dotted or dotless letter in the place of the first. -/
def CssName.lookalike (n : CssName) : Bool :=
  match n.chars with
  | .plain c :: chars => (c == '\u0130' || c == '\u0131') && spelledBy "frame".toList chars
  | _ => false

/-- The type is written so that the pattern reads it: `iframe` without escapes, and no lookalike. -/
def TypeSelector.spelledPlainly : TypeSelector → Bool
  | any => true
  | named n => if n.isIframe then n.chars.all CssChar.isPlain else !n.lookalike

/-- What the pattern makes of a type. -/
def TypeSelector.readAsIframe : TypeSelector → Bool
  | any => false
  | named n => spelledBy "iframe".toList n.chars

/-- The first letter is one of the usual two (`usual`) or one of the lookalikes (`odd`). -/
theorem read_iff : ∀ usual odd plain frame : Bool, (odd = true → usual = false) →
    (((usual || odd) && (plain && frame)) = (usual && frame) ↔
      (if (usual && frame) = true then plain else !(odd && (plain && frame))) = true) := by
  decide

theorem TypeSelector.readAsIframe_iff (t : TypeSelector) :
    t.readAsIframe = t.isIframe ↔ t.spelledPlainly = true := by
  cases t with
  | any => exact iff_of_true rfl rfl
  | named n =>
    obtain ⟨chars, hne, -⟩ := n
    have hword : "iframe".toList = 'i' :: "frame".toList := rfl
    unfold readAsIframe isIframe spelledPlainly CssName.isIframe CssName.lookalike
    rw [hword]
    dsimp only
    cases chars with
    | nil => exact absurd rfl hne
    | cons x chars =>
      cases x with
      | plain c =>
        have hdot : (c == '\u0130' || c == '\u0131') = true → (c.toLower == 'i') = false := by
          simp only [Bool.or_eq_true, beq_iff_eq]
          rintro (rfl | rfl) <;> rfl
        have hi : matchesLetter 'i' c =
            (c.toLower == 'i' || (c == '\u0130' || c == '\u0131')) := rfl
        have hmap : decide ((CssChar.plain c :: chars).map (fun c => c.value.toLower) =
            'i' :: "frame".toList) = (c.toLower == 'i' &&
              decide (chars.map (fun c => c.value.toLower) = "frame".toList)) := by
          simp only [List.map_cons, List.cons.injEq, CssChar.value, Bool.decide_and]
          rfl
        have hframe : 'i' ∉ "frame".toList := by decide
        rw [hmap, spelledBy, hi]
        simp only [spelledBy_tail hframe, List.all_cons, CssChar.isPlain, Bool.true_and]
        exact read_iff _ _ _ _ hdot
      | escaped c => simp [spelledBy, CssChar.isPlain, imp_iff_not_or]
      | coded digits blank => simp [spelledBy, CssChar.isPlain, imp_iff_not_or]

/-- Every simple selector begins with one of the four characters that the pattern knows. -/
theorem SimpleSelector.begins (x : SimpleSelector) :
    ∃ c text, x.text = c :: text ∧ c ∈ ['#', '.', '[', ':', '('] := by
  cases x with
  | id n => exact ⟨_, _, rfl, by decide⟩
  | cls n => exact ⟨_, _, rfl, by decide⟩
  | attr a => exact ⟨_, _, rfl, by decide⟩
  | pseudoClass n args => exact ⟨_, _, rfl, by decide⟩

theorem simples_begin (simples : List SimpleSelector) :
    ∀ c ∈ (simples.flatMap SimpleSelector.text).head?, c ∈ ['#', '.', '[', ':', '('] := by
  cases simples with
  | nil => nofun
  | cons x simples =>
    obtain ⟨c, text, hx, hc⟩ := x.begins
    rw [List.flatMap_cons, hx]
    rintro d ⟨⟩
    exact hc

theorem isLetter_iframe : ∀ l ∈ "iframe".toList, isLetter l := by
  have hall : "iframe".toList.all (fun l => ['\\', '#', '.', '[', ':', '('].all fun c =>
      !matchesLetter l c) = true := by decide
  intro l hl c hc
  exact Bool.not_eq_true' _ |>.mp (List.all_eq_true.mp (List.all_eq_true.mp hall l hl) c hc)

/-- **The pattern, tried on a whole compound, reads its type.** -/
theorem iframePattern_compound (c : CompoundSelector) :
    iframePattern c.text = c.type.any TypeSelector.readAsIframe := by
  rw [iframePattern_eq, CompoundSelector.text]
  have hbegin := simples_begin c.simples
  cases htype : c.type with
  | none =>
    have hname := readsWord_append isLetter_iframe
      (rfl : ([] : List CssChar).all (CssChar.allowed isNameChar) = true) hbegin
    exact hname
  | some t =>
    cases t with
    | any => rfl
    | named n => exact readsWord_append isLetter_iframe n.allowed hbegin

theorem CssChar.text_ne_nil (x : CssChar) : x.text ≠ [] := by
  cases x <;> nofun

theorem CompoundSelector.text_ne_nil (c : CompoundSelector) : c.text ≠ [] := by
  unfold CompoundSelector.text
  intro h
  obtain ⟨htype, hsimples⟩ := List.append_eq_nil_iff.mp h
  rcases c.nonempty with hne | hne
  · obtain ⟨t, ht⟩ := Option.ne_none_iff_exists'.mp hne
    rw [ht] at htype
    cases t with
    | any => cases htype
    | named n =>
      obtain ⟨x, chars, hx⟩ := List.exists_cons_of_ne_nil n.nonempty
      have hname : n.chars.flatMap CssChar.text = [] := htype
      rw [hx, List.flatMap_cons, List.append_eq_nil_iff] at hname
      exact x.text_ne_nil hname.1
  · obtain ⟨x, simples, hx⟩ := List.exists_cons_of_ne_nil hne
    obtain ⟨d, text, hd, -⟩ := x.begins
    rw [hx, List.flatMap_cons, hd] at hsimples
    cases hsimples

/-! ## The last compound of a selector -/

section Selectors

variable [PyText]

theorem isSpace_of_isBlank {c : Char} (h : isBlank c = true) : PyText.isSpace c = true := by
  have hmem : c ∈ [' ', '\t', '\n', '\r', '\x0c'] := of_decide_eq_true h
  simp only [List.mem_cons, List.not_mem_nil, or_false] at hmem
  rcases hmem with rfl | rfl | rfl | rfl | rfl <;> rw [PyText.isSpace_ascii _ (by decide)] <;> rfl

theorem Blanks.isSpace (b : Blanks) : ∀ c ∈ b.1, PyText.isSpace c = true :=
  fun c hc => isSpace_of_isBlank (List.all_eq_true.mp b.2 c hc)

/-- A text that is empty or ends with a separator. -/
def EndsApart (text : List Char) : Prop := ∀ c ∈ text.getLast?, isSeparator c = true

theorem Blanks.endsApart (b : Blanks) : EndsApart b.1 :=
  fun c hc => isSeparator_of_isSpace (b.isSpace c (List.mem_of_getLast? hc))

theorem EndsApart.append {text text' : List Char} (h : EndsApart text) (h' : EndsApart text') :
    EndsApart (text ++ text') := by
  intro c hc
  rw [List.getLast?_append] at hc
  cases hlast : text'.getLast? with
  | none => exact h c (by simpa [hlast] using hc)
  | some d => exact h' c (by simpa [hlast] using hc)

/-- A combinator is not empty and ends with a separator. -/
theorem Combinator.endsApart (k : Combinator) (text : List Char) : EndsApart (text ++ k.text) := by
  have hsign : ∀ (before after : Blanks) (c : Char), isSeparator c = true →
      EndsApart (text ++ (before.1 ++ c :: after.1)) := by
    intro before after c hc d hd
    rw [← List.append_assoc, List.getLast?_append, List.getLast?_cons] at hd
    cases hlast : after.1.getLast? with
    | none =>
      obtain rfl : c = d := by simpa [hlast] using hd
      exact hc
    | some e => exact after.endsApart d (by simpa [hlast] using hd)
  cases k with
  | descendant blanks h =>
    intro d hd
    obtain ⟨c, hc⟩ := Option.ne_none_iff_exists'.mp (mt List.getLast?_eq_none_iff.mp h)
    rw [Combinator.text, List.getLast?_append, hc] at hd
    exact blanks.endsApart d (hc.trans hd)
  | child before after => exact hsign before after '>' (by simp [isSeparator])
  | nextSibling before after => exact hsign before after '+' (by simp [isSeparator])
  | laterSibling before after => exact hsign before after '~' (by simp [isSeparator])

/-- **The last compound stands apart.** -/
theorem ComplexSelector.leadText_endsApart (s : ComplexSelector) : EndsApart s.leadText := by
  refine s.before.endsApart.append ?_
  induction s.lead with
  | nil => nofun
  | cons p lead ih =>
    rw [List.flatMap_cons]
    exact (p.2.endsApart p.1.text).append ih

/-- What follows the last separator inside the last compound. A compound of nothing but blanks (a
name of blanks outside ASCII) leaves the end of what stands before it. -/
def ComplexSelector.innerPiece (s : ComplexSelector) : List Char :=
  if s.last.text.all PyText.isSpace then lastPiece s.leadText else lastPiece s.last.text

/-- **When the selector is read right**: a last compound without separators has its type spelled
plainly; in one with separators, what follows the last of them begins like a selector of an iframe
if and only if the type is `iframe`. -/
def ComplexSelector.readRight (s : ComplexSelector) : Bool :=
  if s.last.text.any isSeparator then iframePattern s.innerPiece == s.targetsIframe
  else s.last.type.all TypeSelector.spelledPlainly

theorem ComplexSelector.lastPiece_text (s : ComplexSelector) :
    lastPiece s.text.toList = s.innerPiece := by
  rw [ComplexSelector.text, String.toList_ofList, lastPiece_append_blanks _ s.after.isSpace,
    lastPiece_append _ s.leadText_endsApart]
  rfl

/-- A text without separators is its own last piece. -/
theorem lastPiece_eq_self {text : List Char} (h : text.any isSeparator = false) :
    lastPiece text = text := by
  have hchars : ∀ c ∈ text.reverse, isSeparator c = false := fun c hc =>
    Bool.eq_false_iff.mpr (List.any_eq_false.mp h c (List.mem_reverse.mp hc))
  have hblank : text.reverse.dropWhile PyText.isSpace = text.reverse := by
    refine List.dropWhile_eq_self_iff.mpr fun hpos hspace => ?_
    have hmem : text.reverse[0] ∈ text.reverse := List.getElem_mem hpos
    exact Bool.false_ne_true ((hchars _ hmem).symm.trans (isSeparator_of_isSpace hspace))
  have htake : text.reverse.takeWhile (fun c => !isSeparator c) = text.reverse :=
    List.takeWhile_eq_self_iff.mpr fun c hc => by rw [hchars c hc]; rfl
  rw [lastPiece, hblank, htake, List.reverse_reverse]

theorem ComplexSelector.innerPiece_eq {s : ComplexSelector}
    (h : s.last.text.any isSeparator = false) : s.innerPiece = s.last.text := by
  have hnot : ¬ s.last.text.all PyText.isSpace = true := by
    intro hall
    obtain ⟨c, text, hc⟩ := List.exists_cons_of_ne_nil s.last.text_ne_nil
    have hmem : c ∈ s.last.text := by
      rw [hc]
      exact List.mem_cons_self
    exact List.any_eq_false.mp h c hmem (isSeparator_of_isSpace (List.all_eq_true.mp hall c hmem))
  rw [ComplexSelector.innerPiece, if_neg hnot, lastPiece_eq_self h]

theorem ComplexSelector.reads_iff (s : ComplexSelector) :
    selectorTargetsIframe s.text = s.targetsIframe ↔ s.readRight = true := by
  rw [selectorTargetsIframe_eq, s.lastPiece_text]
  unfold ComplexSelector.readRight
  split_ifs with hsep
  · exact beq_iff_eq.symm
  · rw [s.innerPiece_eq (Bool.eq_false_iff.mpr hsep), iframePattern_compound,
      ComplexSelector.targetsIframe]
    cases s.last.type with
    | none => exact iff_of_true rfl rfl
    | some t => exact t.readAsIframe_iff

omit [PyText] in
theorem ComplexSelector.text_ne_empty (s : ComplexSelector) : s.text ≠ "" := by
  intro h
  have hnil : s.leadText ++ s.last.text ++ s.after.1 = [] := by
    rw [← String.toList_ofList (l := s.leadText ++ s.last.text ++ s.after.1)]
    exact congrArg String.toList h
  simp [s.last.text_ne_nil] at hnil

/-! ## The click action -/

/-- **The check is right about a selector, and the click action refuses it exactly if it targets an
iframe.** -/
def ComplexSelector.ClickRight (s : ComplexSelector) : Prop :=
  selectorTargetsIframe s.text = s.targetsIframe ∧
  ∀ (o : StepOptions) (step : WorkflowStep) (target : Target), step.action = .click →
    step.selector = some s.text → runAction o step target =
      if s.targetsIframe then
        raise .valueError ("Cannot click an <iframe> directly (selector: " ++ s.text ++
          "). Use frame_context to interact with iframe content.")
      else do
        let _ ← call (.click target (some s.text))
        pure .none

/-- **The click action refuses exactly the selectors that target an iframe**, and the check says so,
if and only if the selector is read right. -/
theorem targets_iff (s : ComplexSelector) : s.ClickRight ↔ s.readRight = true := by
  rw [← s.reads_iff]
  refine ⟨fun h => h.1, fun h => ⟨h, fun o step target haction hselector => ?_⟩⟩
  unfold runAction
  rw [haction]
  dsimp only
  rw [hselector, Option.getD_some, h]
  by_cases hiframe : s.targetsIframe = true
  · rw [if_pos ⟨s.text_ne_empty, hiframe⟩, if_pos hiframe]
    rfl
  · rw [if_neg fun hc => hiframe hc.2, if_neg hiframe]

end Selectors

/-! ## Blanks in a quoted value -/

section Example

attribute [local instance] asciiText

/-- `type[title="value"]`. -/
def titled (type value : String)
    (htype : type ≠ "" ∧ (type.toList.map CssChar.plain).all (CssChar.allowed isNameChar) = true)
    (hvalue : (value.toList.map CssChar.plain).all
      (CssChar.allowed fun c => c != '"' && c != '\\' && c != '\n') = true) : ComplexSelector where
  before := ⟨[], rfl⟩
  lead := []
  last :=
    { type := some (.named ⟨type.toList.map .plain, by simp [htype.1], htype.2⟩)
      simples := [.attr
        { before := ⟨[], rfl⟩
          name := ⟨"title".toList.map .plain, by decide, by decide⟩
          after := ⟨[], rfl⟩
          test := some
            { op := .equals
              before := ⟨[], rfl⟩
              value := .quoted ⟨'"', value.toList.map .plain, .inl rfl, hvalue⟩
              after := ⟨[], rfl⟩
              flag := none } }]
      nonempty := .inl nofun }
  after := ⟨[], rfl⟩

/-- An iframe with a blank in its title. -/
def titledIframe : ComplexSelector := titled "iframe" "a b" (by decide) (by decide)

/-- An image whose title names a file. -/
def titledImage : ComplexSelector := titled "img" "the iframe.html" (by decide) (by decide)

/-- An iframe without a blank in its title. -/
def plainIframe : ComplexSelector := titled "IFRAME" "map" (by decide) (by decide)

/-- The check reads `IFRAME[title="map"]` right. -/
theorem targets_iff_plainIframe :
    plainIframe.text = "IFRAME[title=\"map\"]" ∧ plainIframe.targetsIframe = true ∧
      plainIframe.ClickRight :=
  ⟨by decide +kernel, by decide +kernel, (targets_iff plainIframe).mpr (by decide +kernel)⟩

/-- **A blank in a quoted value**: the check misses an iframe and refuses an image. -/
theorem blank_in_quotes_missed :
    (titledIframe.text = "iframe[title=\"a b\"]" ∧ titledIframe.targetsIframe = true ∧
      selectorTargetsIframe titledIframe.text = false ∧ ¬ titledIframe.ClickRight) ∧
    titledImage.text = "img[title=\"the iframe.html\"]" ∧ titledImage.targetsIframe = false ∧
      selectorTargetsIframe titledImage.text = true ∧ ¬ titledImage.ClickRight := by
  have hmissed : selectorTargetsIframe titledIframe.text = false := by decide +kernel
  have hrefused : selectorTargetsIframe titledImage.text = true := by decide +kernel
  have hiframe : titledIframe.targetsIframe = true := by decide +kernel
  have himage : titledImage.targetsIframe = false := by decide +kernel
  refine ⟨⟨by decide +kernel, hiframe, hmissed, fun h => ?_⟩, by decide +kernel, himage, hrefused,
    fun h => ?_⟩
  · exact Bool.false_ne_true (hmissed.symm.trans (h.1.trans hiframe))
  · exact Bool.false_ne_true (himage.symm.trans (h.1.symm.trans hrefused))

end Example

end ScoutEngine
