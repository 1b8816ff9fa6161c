import ScoutEngine.Executor.Control

/-!
# What a column holds

A commit is refused as a whole if one of its values does not fit into its column: a text that is too
long for a `String(n)`, and whatever else the database does not hold.

* `PyVal.jsonb`: what `json.dumps` writes and a JSONB column holds.
* `Columns`: what the columns hold, the lengths of texts apart; `Columns.postgres`, and
  `Columns.lengthsOnly` for a database that refuses nothing else.
-/

set_option autoImplicit false

namespace ScoutEngine

/-- PostgreSQL stores no NUL character. -/
def noNul (text : String) : Bool := text.toList.all (· ≠ Char.ofNat 0)

namespace PyVal

mutual

/-- **`json.dumps` writes the value, and JSONB holds it**: its numbers are finite and have at most
4300 digits. -/
def jsonb : PyVal → Bool
  | none | bool _ => true
  | int i => (Nat.toDigits 10 i.natAbs).length ≤ 4300
  | float (.fin ..) => true
  | float _ => false
  | str s => noNul s
  | list xs => jsonbList xs
  | dict kvs => jsonbFields kvs

def jsonbList : List PyVal → Bool
  | [] => true
  | v :: vs => jsonb v && jsonbList vs

def jsonbFields : List (String × PyVal) → Bool
  | [] => true
  | (k, v) :: kvs => noNul k && jsonb v && jsonbFields kvs

end

end PyVal

/-- What the columns of a database hold, the lengths of texts apart. -/
structure Columns where
  integer : ℤ → Bool
  text : String → Bool
  json : Outputs → Bool

namespace Columns

/-- A database that refuses nothing but texts that are too long. -/
def lengthsOnly : Columns where
  integer _ := true
  text _ := true
  json _ := true

/-- **PostgreSQL**: `Integer` has 32 bits. -/
def postgres : Columns where
  integer i := -2 ^ 31 ≤ i && i < 2 ^ 31
  text := noNul
  json outputs := outputs.all fun p => p.1.all noNul && p.2.jsonb

end Columns

end ScoutEngine
