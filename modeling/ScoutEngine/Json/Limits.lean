import ScoutEngine.Json

/-!
# The limits of the reader

`json.loads` raises on some texts that are JSON: a `ValueError` for an integer with more digits than
`sys.get_int_max_str_digits()`, and a `RecursionError` for lists and objects that nest deeper than
the stack of the interpreter allows.

* `Piece`, `pieces`: the brackets and the integers of a text, strings apart; `nesting`.
* `Limits`, `Within`, `read`: `loads` under limits; **`read_eq_some`**.
-/

set_option autoImplicit false

namespace ScoutEngine.Json

/-- What a reader may find too much of. -/
inductive Piece where
  | opening
  | closing
  | integer (digits : ℕ)
  deriving DecidableEq

/-- The brackets and the integers of a JSON text. -/
def pieces : ℕ → List Char → List Piece
  | 0, _ => []
  | _ + 1, [] => []
  | n + 1, c :: cs =>
    if c = '"' then
      match stringBody (cs.length + 1) [] cs with
      | some (_, rest) => pieces n rest
      | none => []
    else if c = '[' ∨ c = '\x7b' then .opening :: pieces n cs
    else if c = ']' ∨ c = '\x7d' then .closing :: pieces n cs
    else if c.isDigit then
      match number false (c :: cs) with
      | some (.int _, rest) => .integer ((c :: cs).length - rest.length) :: pieces n rest
      | some (_, rest) => pieces n rest
      | none => pieces n cs
    else pieces n cs

/-- How deep lists and objects nest, inside of `depth` of them. -/
def nesting : ℕ → List Piece → ℕ
  | depth, [] => depth
  | depth, .opening :: ps => nesting (depth + 1) ps
  | depth, .closing :: ps => max depth (nesting (depth - 1) ps)
  | depth, .integer _ :: ps => nesting depth ps

/-- What the interpreter allows. -/
structure Limits where
  /-- `sys.get_int_max_str_digits()`; 4300 by default. -/
  digits : ℕ
  /-- The stack that the caller has left. -/
  depth : ℕ

/-- The digits of an integer, none for a bracket. -/
def Piece.digits : Piece → ℕ
  | integer d => d
  | opening | closing => 0

/-- No integer of the text is too long, and no list too deep. -/
def Within (limits : Limits) (text : String) : Prop :=
  (∀ p ∈ pieces text.length text.toList, p.digits ≤ limits.digits) ∧
    nesting 0 (pieces text.length text.toList) ≤ limits.depth

instance (limits : Limits) (text : String) : Decidable (Within limits text) :=
  inferInstanceAs (Decidable (_ ∧ _))

/-- **`json.loads` of an interpreter with these limits**; `none` is an exception. -/
def read (limits : Limits) (text : String) : Option PyVal :=
  if Within limits text then loads text else none

theorem read_eq_some {limits : Limits} {text : String} {v : PyVal} :
    read limits text = some v ↔ Within limits text ∧ loads text = some v := by
  by_cases h : Within limits text
  · rw [read, if_pos h, and_iff_right h]
  · rw [read, if_neg h]
    exact ⟨fun h' => absurd h'.symm (Option.some_ne_none v), fun h' => absurd h'.1 h⟩

example : nesting 0 (pieces 20 "[[12], \"[[[[\", 345]".toList) = 2 := by decide +kernel

end ScoutEngine.Json
