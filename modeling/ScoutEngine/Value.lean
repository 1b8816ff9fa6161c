import ScoutEngine.Lib.Dict
import Mathlib.Algebra.Group.Int.Defs
import Mathlib.Data.Int.Notation
import Mathlib.Data.List.Infix

/-!
# Python values

The values that travel between steps: what `run_js` and the HTTP client return, what `json.loads`
reads and what `str` writes.

* `PyText`: the Unicode tables and the regular-expression engine of the interpreter. They are a
  parameter of the model; the laws say what they do on ASCII. `asciiText` is an instance.
* `PyVal`, `PyVal.truthy`, `PyVal.toStr`, `PyVal.repr`.
* `pyInt`: `int(text)`.

Floats are kept as exact decimals; binary rounding is not modelled.
-/

set_option autoImplicit false

namespace ScoutEngine

/-! ## Exceptions -/

/-- The exception classes that some handler or caller tells apart. -/
inductive ExcKind where
  | valueError | typeError | attributeError | keyError | indexError | runtimeError | timeoutError
  | reError | other
  deriving DecidableEq, Repr

/-- A raised exception: its class and `str(e)`. -/
structure PyExc where
  kind : ExcKind
  msg : String
  deriving DecidableEq, Repr

/-- A sequence of fallible steps succeeds if both parts do. -/
theorem bind_ok {ε α β : Type} {x : Except ε α} {f : α → Except ε β} {b : β} :
    (x >>= f) = .ok b ↔ ∃ a, x = .ok a ∧ f a = .ok b := by
  cases x with
  | error e => simp [bind, Except.bind]
  | ok a => simp [bind, Except.bind]

/-! ## Text -/

/-- What the interpreter contributes to string handling. -/
class PyText where
  /-- `\w` of `re`. -/
  isWord : Char → Bool
  /-- `str.isspace` of one character. -/
  isSpace : Char → Bool
  /-- `str.isprintable` of one character. -/
  isPrintable : Char → Bool
  lower : String → String
  upper : String → String
  /-- `re.compile(pattern)`, as the test `search(text) is not None`. -/
  compile : String → Except PyExc (String → Bool)
  isWord_ascii : ∀ c : Char, c.toNat < 128 → isWord c = (c.isAlphanum || c == '_')
  isSpace_ascii : ∀ c : Char, c.toNat < 128 → isSpace c =
    (c == ' ' || (9 ≤ c.toNat && c.toNat ≤ 13) || (28 ≤ c.toNat && c.toNat ≤ 31))
  lower_ascii : ∀ s : String, (∀ c ∈ s.toList, c.toNat < 128) →
    lower s = String.ofList (s.toList.map Char.toLower)
  /-- No character outside ASCII has an ASCII lower case without a `k` (KELVIN SIGN has `k`). -/
  ascii_of_lower : ∀ s : String, (∀ c ∈ (lower s).toList, c.toNat < 128 ∧ c ≠ 'k') →
    ∀ c ∈ s.toList, c.toNat < 128
  /-- What follows does not change the lower case of an ASCII text. -/
  lower_append : ∀ s t : String, (∀ c ∈ s.toList, c.toNat < 128) →
    ∃ t', lower (s ++ t) = lower s ++ t'

section Text

variable [PyText]

/-- `str.strip`. -/
def strip (s : String) : String :=
  String.ofList ((s.toList.dropWhile PyText.isSpace).reverse.dropWhile PyText.isSpace).reverse

/-- `sub in s`. -/
def containsStr (sub s : String) : Bool :=
  s.toList.tails.any fun t => sub.toList.isPrefixOf t

omit [PyText] in
theorem containsStr_iff (sub s : String) : containsStr sub s = true ↔ sub.toList <:+: s.toList := by
  rw [containsStr, List.any_eq_true, List.infix_iff_prefix_suffix]
  refine exists_congr fun t => ?_
  rw [List.mem_tails, List.isPrefixOf_iff_prefix, and_comm]

/-- Split at every occurrence of the non-empty separator `sep`, with the part read so far. -/
def splitAux (sep : List Char) : ℕ → List Char → List Char → List String
  | 0, acc, cs => [String.ofList (acc.reverse ++ cs)]
  | _ + 1, acc, [] => [String.ofList acc.reverse]
  | n + 1, acc, c :: cs =>
    if sep.isPrefixOf (c :: cs) then
      String.ofList acc.reverse :: splitAux sep n [] ((c :: cs).drop sep.length)
    else splitAux sep n (c :: acc) cs

/-- `s.split(sep)`. -/
def splitStr (sep s : String) : List String :=
  splitAux sep.toList s.toList.length [] s.toList

/-- `s.split(sep, max)` for a one-character separator. -/
def splitMax (sep : Char) : ℕ → List Char → List String
  | 0, cs => [String.ofList cs]
  | n + 1, cs =>
    match cs.dropWhile (· ≠ sep) with
    | [] => [String.ofList cs]
    | _ :: rest => String.ofList (cs.takeWhile (· ≠ sep)) :: splitMax sep n rest

end Text

/-! ## Numbers -/

/-- A float: `± digits · 10 ^ exp`, an infinity or not a number. -/
inductive PyFloat where
  | fin (neg : Bool) (digits : ℕ) (exp : ℤ)
  | inf (neg : Bool)
  | nan
  deriving DecidableEq, Repr

namespace PyFloat

/-- Drop trailing decimal zeros. -/
def normalize : ℕ → ℕ → ℤ → ℕ × ℤ
  | 0, d, e => (d, e)
  | n + 1, d, e => if d ≠ 0 ∧ d % 10 = 0 then normalize n (d / 10) (e + 1) else (d, e)

/-- `n` zeros. -/
def zeros (n : ℕ) : String := String.ofList (List.replicate n '0')

/-- The exponent of `repr`, with at least two digits. -/
def expText (e : ℤ) : String :=
  (if e < 0 then "e-" else "e+") ++ (if e.natAbs < 10 then "0" else "") ++ toString e.natAbs

/-- `repr` of a float: positional between `1e-4` and `1e16`, scientific outside. -/
def repr : PyFloat → String
  | nan => "nan"
  | inf neg => if neg then "-inf" else "inf"
  | fin neg digits exp =>
    let (d, e) := normalize digits digits exp
    let ds := (toString d).toList
    let n := ds.length
    let point : ℤ := n + e
    (if neg then "-" else "") ++
      if d = 0 then "0.0"
      else if -4 < point ∧ point ≤ 16 then
        if point ≤ 0 then "0." ++ zeros point.natAbs ++ String.ofList ds
        else if n ≤ point.toNat then String.ofList ds ++ zeros (point.toNat - n) ++ ".0"
        else String.ofList (ds.take point.toNat) ++ "." ++ String.ofList (ds.drop point.toNat)
      else
        String.ofList (ds.take 1) ++ (if n = 1 then "" else "." ++ String.ofList (ds.drop 1)) ++
          expText (point - 1)

/-- `bool(x)`. -/
def truthy : PyFloat → Bool
  | fin _ digits _ => digits ≠ 0
  | _ => true

/-- `x < n`. -/
def ltInt : PyFloat → ℤ → Bool
  | nan, _ => false
  | inf neg, _ => neg
  | fin neg digits exp, n =>
    let m : ℤ := if neg then -digits else digits
    m * 10 ^ exp.toNat < n * 10 ^ (-exp).toNat

end PyFloat

/-! ## Values -/

/-- A value of the run: JSON data as Python holds it. -/
inductive PyVal where
  | none
  | bool (b : Bool)
  | int (i : ℤ)
  | float (f : PyFloat)
  | str (s : String)
  | list (xs : List PyVal)
  | dict (kvs : List (String × PyVal))
  deriving Repr

/-- An optional string field as a value. -/
def PyVal.ofStr? : Option String → PyVal
  | .some s => .str s
  | .none => .none

/-- An optional integer field as a value. -/
def PyVal.ofInt? : Option ℤ → PyVal
  | .some i => .int i
  | .none => .none

namespace PyVal

/-- `bool(v)`. -/
def truthy : PyVal → Bool
  | none => false
  | bool b => b
  | int i => i ≠ 0
  | float f => f.truthy
  | str s => s ≠ ""
  | list xs => !xs.isEmpty
  | dict kvs => !kvs.isEmpty

/-- `v is None`. -/
def isNone : PyVal → Bool
  | none => true
  | _ => false

/-- `v.get(key)` of a dictionary; `None` when there is no such key. -/
def getKey (v : PyVal) (key : String) : PyVal :=
  match v with
  | dict kvs => (Dict.get key kvs).getD none
  | _ => none

/-- Hexadecimal digits of `n`, at least `width` of them. -/
def hex (width n : ℕ) : String :=
  let ds := Nat.toDigits 16 n
  String.ofList (List.replicate (width - ds.length) '0' ++ ds)

section Repr

variable [PyText]

/-- One character inside a `repr` quoted by `q`. -/
def reprChar (q c : Char) : String :=
  if c = q ∨ c = '\\' then String.ofList ['\\', c]
  else if c = '\n' then "\\n"
  else if c = '\r' then "\\r"
  else if c = '\t' then "\\t"
  else if c.toNat < 32 ∨ c.toNat = 127 then "\\x" ++ hex 2 c.toNat
  else if c.toNat < 127 ∨ PyText.isPrintable c then String.singleton c
  else if c.toNat < 256 then "\\x" ++ hex 2 c.toNat
  else if c.toNat < 65536 then "\\u" ++ hex 4 c.toNat
  else "\\U" ++ hex 8 c.toNat

/-- `repr` of a string: in single quotes unless only they would need escaping. -/
def reprStr (s : String) : String :=
  let q := if '\'' ∈ s.toList ∧ '"' ∉ s.toList then '"' else '\''
  String.singleton q ++ String.join (s.toList.map (reprChar q)) ++ String.singleton q

mutual

/-- `repr(v)`. -/
def repr : PyVal → String
  | none => "None"
  | bool b => if b then "True" else "False"
  | int i => toString i
  | float f => f.repr
  | str s => reprStr s
  | list xs => "[" ++ ", ".intercalate (reprList xs) ++ "]"
  | dict kvs => "\x7b" ++ ", ".intercalate (reprFields kvs) ++ "\x7d"

/-- `repr` of each element. -/
def reprList : List PyVal → List String
  | [] => []
  | v :: vs => repr v :: reprList vs

/-- `repr` of each item of a dictionary. -/
def reprFields : List (String × PyVal) → List String
  | [] => []
  | (k, v) :: kvs => (reprStr k ++ ": " ++ repr v) :: reprFields kvs

end

/-- `str(v)`. -/
def toStr : PyVal → String
  | str s => s
  | v => repr v

end Repr

end PyVal

/-! ## Integers from text -/

section Int

variable [PyText]

/-- The value of digits with single underscores between them. -/
def digitsValue : ℕ → Bool → List Char → Option ℕ
  | acc, true, [] => some acc
  | _, false, [] => none
  | acc, seen, c :: cs =>
    if c.isDigit then digitsValue (acc * 10 + (c.toNat - 48)) true cs
    else if c = '_' ∧ seen then digitsValue acc false cs
    else none

/-- `int(text)`. -/
def pyInt (text : String) : Except PyExc ℤ :=
  let bad : Except PyExc ℤ :=
    .error ⟨.valueError, "invalid literal for int() with base 10: " ++ PyVal.reprStr text⟩
  let read (neg : Bool) (cs : List Char) : Except PyExc ℤ :=
    match digitsValue 0 false cs with
    | some n => .ok (if neg then -(n : ℤ) else n)
    | none => bad
  match (strip text).toList with
  | '-' :: cs => read true cs
  | '+' :: cs => read false cs
  | cs => read false cs

end Int

/-! ## The ASCII instance -/

/-- The lower case of a character outside ASCII, as `Char.toLower` has it, is that character. -/
theorem ascii_of_toLower {c : Char} (h : c.toLower.toNat < 128) : c.toNat < 128 := by
  by_contra hbig
  have hu : c.toLower = c := by
    unfold Char.toLower
    rw [dif_neg]
    rintro ⟨_, h2⟩
    have : c.val.toNat ≤ 90 := h2
    have : c.toNat = c.val.toNat := rfl
    omega
  rw [hu] at h
  exact hbig h

/-- ASCII tables, and a regular-expression engine for patterns without special characters. -/
@[reducible] def asciiText : PyText where
  isWord c := c.isAlphanum || c == '_'
  isSpace c := c == ' ' || (9 ≤ c.toNat && c.toNat ≤ 13) || (28 ≤ c.toNat && c.toNat ≤ 31)
  isPrintable c := 32 ≤ c.toNat && c.toNat < 127
  lower s := String.ofList (s.toList.map Char.toLower)
  upper s := String.ofList (s.toList.map Char.toUpper)
  compile p := .ok fun s => containsStr p s
  isWord_ascii _ _ := rfl
  isSpace_ascii _ _ := rfl
  lower_ascii _ _ := rfl
  ascii_of_lower s h c hc := by
    have hl : c.toLower ∈ (String.ofList (s.toList.map Char.toLower)).toList := by
      rw [String.toList_ofList]
      exact List.mem_map_of_mem hc
    exact ascii_of_toLower (h _ hl).1
  lower_append s t _ := ⟨String.ofList (t.toList.map Char.toLower), by
    rw [String.toList_append, List.map_append, String.ofList_append]⟩

end ScoutEngine
