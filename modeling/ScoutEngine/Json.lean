import ScoutEngine.Value

/-!
# `json.loads` and `json.dumps`

The text format of step outputs: loops read their items with `loads`, HTTP bodies are stored with
`dumps` (default separators, ASCII only).

* `Json.loads`: white space, literals (also `NaN` and the infinities), numbers, strings with
  escapes, arrays and objects; a repeated key keeps its first place and its last value.
* `Json.dumps`.

A lone surrogate escape is read as U+FFFD, since a `Char` holds no surrogate.
-/

set_option autoImplicit false

namespace ScoutEngine.Json

/-! ## Reading -/

/-- White space of JSON. -/
def isWs (c : Char) : Bool := c == ' ' || c == '\t' || c == '\n' || c == '\r'

/-- Skip white space. -/
def skipWs (cs : List Char) : List Char := cs.dropWhile isWs

/-- The value of a hexadecimal digit. -/
def hexDigit (c : Char) : Option ℕ :=
  if c.isDigit then some (c.toNat - 48)
  else if 'a' ≤ c ∧ c ≤ 'f' then some (c.toNat - 87)
  else if 'A' ≤ c ∧ c ≤ 'F' then some (c.toNat - 55)
  else none

/-- Four hexadecimal digits. -/
def hex4 : List Char → Option (ℕ × List Char)
  | a :: b :: c :: d :: cs => do
    let a ← hexDigit a
    let b ← hexDigit b
    let c ← hexDigit c
    let d ← hexDigit d
    some (((a * 16 + b) * 16 + c) * 16 + d, cs)
  | _ => none

/-- The character of one code unit, U+FFFD for a lone surrogate. -/
def unitChar (n : ℕ) : Char := if 0xd800 ≤ n ∧ n ≤ 0xdfff then '\ufffd' else Char.ofNat n

/-- What follows `\u`: one code unit, or a surrogate pair. -/
def unicodeEscape (cs : List Char) : Option (Char × List Char) := do
  let (hi, cs) ← hex4 cs
  if 0xd800 ≤ hi ∧ hi ≤ 0xdbff then
    match cs with
    | '\\' :: 'u' :: cs' =>
      match hex4 cs' with
      | some (lo, cs'') =>
        if 0xdc00 ≤ lo ∧ lo ≤ 0xdfff then
          some (Char.ofNat (0x10000 + (hi - 0xd800) * 0x400 + (lo - 0xdc00)), cs'')
        else some (unitChar hi, cs)
      | none => none
    | _ => some (unitChar hi, cs)
  else some (unitChar hi, cs)

/-- The character of a one-letter escape. -/
def simpleEscape : Char → Option Char
  | '"' => some '"'
  | '\\' => some '\\'
  | '/' => some '/'
  | 'b' => some '\x08'
  | 'f' => some '\x0c'
  | 'n' => some '\n'
  | 'r' => some '\r'
  | 't' => some '\t'
  | _ => none

/-- A string after its opening quote; control characters must be escaped. -/
def stringBody : ℕ → List Char → List Char → Option (String × List Char)
  | 0, _, _ => none
  | _ + 1, _, [] => none
  | _ + 1, acc, '"' :: cs => some (String.ofList acc.reverse, cs)
  | n + 1, acc, '\\' :: 'u' :: cs => do
    let (c, cs) ← unicodeEscape cs
    stringBody n (c :: acc) cs
  | n + 1, acc, '\\' :: c :: cs => do
    let c ← simpleEscape c
    stringBody n (c :: acc) cs
  | n + 1, acc, c :: cs =>
    if c.toNat < 32 ∨ c = '\\' then none else stringBody n (c :: acc) cs

/-- The value of decimal digits. -/
def natOf (ds : List Char) : ℕ := ds.foldl (fun n c => n * 10 + (c.toNat - 48)) 0

/-- A number after its sign: `0` or digits without a leading zero, a fraction, an exponent. -/
def number (neg : Bool) (cs : List Char) : Option (PyVal × List Char) :=
  let ds := cs.takeWhile Char.isDigit
  if ds = [] then none
  else
    let ds := if ds.head? = some '0' then ['0'] else ds
    let rest := cs.drop ds.length
    let (frac, rest₁) : List Char × List Char :=
      match rest with
      | '.' :: r =>
        let fs := r.takeWhile Char.isDigit
        if fs = [] then ([], rest) else (fs, r.drop fs.length)
      | _ => ([], rest)
    let (exp, rest₂) : Option ℤ × List Char :=
      match rest₁ with
      | e :: r =>
        if e = 'e' ∨ e = 'E' then
          let (eneg, r') : Bool × List Char :=
            match r with
            | '-' :: r' => (true, r')
            | '+' :: r' => (false, r')
            | _ => (false, r)
          let es := r'.takeWhile Char.isDigit
          if es = [] then (none, rest₁)
          else (some (if eneg then -(natOf es : ℤ) else natOf es), r'.drop es.length)
        else (none, rest₁)
      | [] => (none, rest₁)
    if frac = [] ∧ exp = none then
      some (.int (if neg then -(natOf ds : ℤ) else natOf ds), rest₂)
    else some (.float (.fin neg (natOf (ds ++ frac)) (exp.getD 0 - frac.length)), rest₂)

/-- Read a fixed word. -/
def word (w : String) (v : PyVal) (cs : List Char) : Option (PyVal × List Char) :=
  if w.toList.isPrefixOf cs then some (v, cs.drop w.length) else none

mutual

/-- A value at the head of the text. -/
def value : ℕ → List Char → Option (PyVal × List Char)
  | 0, _ => none
  | n + 1, cs =>
    match cs with
    | '"' :: r => (stringBody (r.length + 1) [] r).map fun p => (.str p.1, p.2)
    | '[' :: r =>
      match skipWs r with
      | ']' :: r' => some (.list [], r')
      | r' => (elements n [] r').map fun p => (.list p.1, p.2)
    | '\x7b' :: r =>
      match skipWs r with
      | '\x7d' :: r' => some (.dict [], r')
      | r' => (members n [] r').map fun p => (.dict p.1, p.2)
    | 'n' :: _ => word "null" .none cs
    | 't' :: _ => word "true" (.bool true) cs
    | 'f' :: _ => word "false" (.bool false) cs
    | 'N' :: _ => word "NaN" (.float .nan) cs
    | 'I' :: _ => word "Infinity" (.float (.inf false)) cs
    | '-' :: 'I' :: _ => word "-Infinity" (.float (.inf true)) cs
    | '-' :: r => number true r
    | _ => number false cs

/-- The elements of an array up to its closing bracket. -/
def elements : ℕ → List PyVal → List Char → Option (List PyVal × List Char)
  | 0, _, _ => none
  | n + 1, acc, cs => do
    let (v, r) ← value n cs
    match skipWs r with
    | ',' :: r' => elements n (acc ++ [v]) (skipWs r')
    | ']' :: r' => some (acc ++ [v], r')
    | _ => none

/-- The members of an object up to its closing brace. -/
def members : ℕ → Dict String PyVal → List Char → Option (Dict String PyVal × List Char)
  | 0, _, _ => none
  | n + 1, acc, cs =>
    match cs with
    | '"' :: r => do
      let (k, r) ← stringBody (r.length + 1) [] r
      match skipWs r with
      | ':' :: r' => do
        let (v, r) ← value n (skipWs r')
        match skipWs r with
        | ',' :: r' => members n (Dict.set k v acc) (skipWs r')
        | '\x7d' :: r' => some (Dict.set k v acc, r')
        | _ => none
      | _ => none
    | _ => none

end

/-- `json.loads(text)`; `none` is a `JSONDecodeError`. -/
def loads (text : String) : Option PyVal := do
  let cs := text.toList
  let (v, rest) ← value (cs.length + 1) (skipWs cs)
  if skipWs rest = [] then some v else none

/-! ## Writing -/

/-- One UTF-16 code unit as `\uXXXX`. -/
def escapeUnit (n : ℕ) : String := "\\u" ++ PyVal.hex 4 n

/-- One character of a JSON string, ASCII only. -/
def escapeChar (c : Char) : String :=
  if c = '"' ∨ c = '\\' then String.ofList ['\\', c]
  else if c = '\n' then "\\n"
  else if c = '\r' then "\\r"
  else if c = '\t' then "\\t"
  else if c = '\x08' then "\\b"
  else if c = '\x0c' then "\\f"
  else if 32 ≤ c.toNat ∧ c.toNat < 127 then String.singleton c
  else if c.toNat < 0x10000 then escapeUnit c.toNat
  else escapeUnit (0xd800 + (c.toNat - 0x10000) / 0x400) ++
    escapeUnit (0xdc00 + (c.toNat - 0x10000) % 0x400)

/-- A JSON string. -/
def quote (s : String) : String := "\"" ++ String.join (s.toList.map escapeChar) ++ "\""

mutual

/-- `json.dumps(v)`. -/
def dumps : PyVal → String
  | .none => "null"
  | .bool b => if b then "true" else "false"
  | .int i => toString i
  | .float .nan => "NaN"
  | .float (.inf neg) => if neg then "-Infinity" else "Infinity"
  | .float f => f.repr
  | .str s => quote s
  | .list xs => "[" ++ ", ".intercalate (dumpsList xs) ++ "]"
  | .dict kvs => "\x7b" ++ ", ".intercalate (dumpsFields kvs) ++ "\x7d"

/-- `dumps` of each element. -/
def dumpsList : List PyVal → List String
  | [] => []
  | v :: vs => dumps v :: dumpsList vs

/-- `dumps` of each item of a dictionary. -/
def dumpsFields : List (String × PyVal) → List String
  | [] => []
  | (k, v) :: kvs => (quote k ++ ": " ++ dumps v) :: dumpsFields kvs

end

end ScoutEngine.Json
