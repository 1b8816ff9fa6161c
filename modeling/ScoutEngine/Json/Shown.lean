import ScoutEngine.Json.Numbers
import ScoutEngine.Json.Strings

/-!
# Values in a text and back

`str` of a value is Python notation. `json.loads` reads it back as that value, or refuses it.

* `PyVal.Same`: equal values, with floats equal as numbers; `PyVal.DistinctKeys`.
* `PyVal.WellShown`: the values whose `repr` is JSON.
* `Reading`; **`reading`**: what the reader makes of the `repr` of a value.
* **`loads_repr`**.
-/

set_option autoImplicit false

namespace ScoutEngine

/-! ## Values -/

/-- Induction over a value: over the elements of a list and the values of a dictionary. -/
theorem PyVal.induct {motive : PyVal → Prop} (none : motive .none) (bool : ∀ b, motive (.bool b))
    (int : ∀ i, motive (.int i)) (float : ∀ f, motive (.float f)) (str : ∀ s, motive (.str s))
    (list : ∀ xs, (∀ x ∈ xs, motive x) → motive (.list xs))
    (dict : ∀ kvs, (∀ p ∈ kvs, motive p.2) → motive (.dict kvs)) (v : PyVal) : motive v :=
  @PyVal.rec motive (fun xs => ∀ x ∈ xs, motive x) (fun kvs => ∀ p ∈ kvs, motive p.2)
    (fun p => motive p.2) none bool int float str list dict
    (fun _ hx => absurd hx List.not_mem_nil) (fun _ _ hx hxs => List.forall_mem_cons.mpr ⟨hx, hxs⟩)
    (fun _ hp => absurd hp List.not_mem_nil) (fun _ _ hp hps => List.forall_mem_cons.mpr ⟨hp, hps⟩)
    (fun _ _ h => h) v

/-- The same float: the same sign and the same number. -/
def PyFloat.Same : PyFloat → PyFloat → Prop
  | .fin neg d e, .fin neg' d' e' => neg = neg' ∧ Json.SameDecimal d e d' e'
  | f, g => f = g

/-- The same value. -/
inductive PyVal.Same : PyVal → PyVal → Prop
  | none : Same .none .none
  | bool (b : Bool) : Same (.bool b) (.bool b)
  | int (i : ℤ) : Same (.int i) (.int i)
  | float {f g : PyFloat} (h : f.Same g) : Same (.float f) (.float g)
  | str (s : String) : Same (.str s) (.str s)
  | list {xs ys : List PyVal} (h : List.Forall₂ Same xs ys) : Same (.list xs) (.list ys)
  | dict {kvs lws : List (String × PyVal)} (keys : kvs.map Prod.fst = lws.map Prod.fst)
    (h : List.Forall₂ (fun p q => Same p.2 q.2) kvs lws) : Same (.dict kvs) (.dict lws)

/-- A dictionary holds every key once. -/
inductive PyVal.DistinctKeys : PyVal → Prop
  | none : DistinctKeys .none
  | bool (b : Bool) : DistinctKeys (.bool b)
  | int (i : ℤ) : DistinctKeys (.int i)
  | float (f : PyFloat) : DistinctKeys (.float f)
  | str (s : String) : DistinctKeys (.str s)
  | list {xs : List PyVal} (h : ∀ x ∈ xs, DistinctKeys x) : DistinctKeys (.list xs)
  | dict {kvs : List (String × PyVal)} (keys : (kvs.map Prod.fst).Nodup)
    (h : ∀ p ∈ kvs, DistinctKeys p.2) : DistinctKeys (.dict kvs)

variable [PyText]

/-- **`repr` of the value is JSON**: there is no `None`, boolean, infinity or `nan` in it, and all
its strings and keys are shown in double quotes. -/
inductive PyVal.WellShown : PyVal → Prop
  | int (i : ℤ) : WellShown (.int i)
  | float (neg : Bool) (d : ℕ) (e : ℤ) : WellShown (.float (.fin neg d e))
  | str {s : String} (h : Json.QuoteShown s) : WellShown (.str s)
  | list {xs : List PyVal} (h : ∀ x ∈ xs, WellShown x) : WellShown (.list xs)
  | dict {kvs : List (String × PyVal)} (keys : ∀ p ∈ kvs, Json.QuoteShown p.1)
    (h : ∀ p ∈ kvs, WellShown p.2) : WellShown (.dict kvs)

namespace Json

/-- The text of a value. -/
def shown (v : PyVal) : List Char := (PyVal.repr v).toList

/-- **What the reader makes of a value's text**: the value, if it is well shown. -/
structure Reading (v : PyVal) : Prop where
  sound : ∀ {n rest p}, Ends rest → value n (shown v ++ rest) = some p →
    v.WellShown ∧ p.2 = rest ∧ p.1.Same v
  complete : v.WellShown → ∀ {n rest}, Ends rest → (shown v).length < n →
    (value n (shown v ++ rest)).isSome = true

theorem Reading.of_none {v : PyVal} (hs : ¬ v.WellShown)
    (h : ∀ n rest, value (n + 1) (shown v ++ rest) = none) : Reading v := by
  refine ⟨fun {n rest p} _ hp => ?_, fun hw => absurd hw hs⟩
  cases n with
  | zero => exact absurd hp.symm (Option.some_ne_none p)
  | succ n => exact absurd (hp.symm.trans (h n rest)) (Option.some_ne_none p)

theorem Reading.of_some {v : PyVal} (hs : v.WellShown)
    (h : ∀ n rest, Ends rest → ∃ w, w.Same v ∧ value (n + 1) (shown v ++ rest) = some (w, rest)) :
    Reading v := by
  refine ⟨fun {n rest p} hr hp => ?_, fun _ {n rest} hr hn => ?_⟩
  · cases n with
    | zero => exact absurd hp.symm (Option.some_ne_none p)
    | succ n =>
      obtain ⟨w, hw, heq⟩ := h n rest hr
      obtain rfl := Option.some.inj (heq.symm.trans hp)
      exact ⟨hs, rfl, hw⟩
  · obtain ⟨n, rfl⟩ : ∃ m, n = m + 1 := ⟨n - 1, by omega⟩
    obtain ⟨w, -, heq⟩ := h n rest hr
    rw [heq]
    rfl

/-- The reader stops behind the text of a value. -/
theorem Reading.of_read {v w : PyVal} (h : Reading v) {n : ℕ} {rest r : List Char} (hr : Ends rest)
    (hv : value n (shown v ++ rest) = some (w, r)) : v.WellShown ∧ r = rest ∧ w.Same v :=
  h.sound hr hv

theorem Reading.read {v : PyVal} (h : Reading v) (hw : v.WellShown) {n : ℕ} {rest : List Char}
    (hr : Ends rest) (hn : (shown v).length < n) :
    ∃ w, value n (shown v ++ rest) = some (w, rest) := by
  obtain ⟨⟨w, r⟩, hv⟩ := Option.isSome_iff_exists.mp (h.complete hw hr hn)
  obtain ⟨-, rfl, -⟩ := h.of_read hr hv
  exact ⟨w, hv⟩

/-! ## Numbers and words -/

omit [PyText] in
/-- Every other head begins a number. -/
theorem value_other {c : Char} (hc : c ∉ ['"', '[', '\x7b', 'n', 't', 'f', 'N', 'I', '-']) (n : ℕ)
    (cs : List Char) : value (n + 1) (c :: cs) = number false (c :: cs) := by
  simp only [List.mem_cons, List.not_mem_nil, or_false, not_or] at hc
  obtain ⟨h1, h2, h3, h4, h5, h6, h7, h8, h9⟩ := hc
  rw [value.eq_def]
  simp [h1, h2, h3, h4, h5, h6, h7, h8, h9]

omit [PyText] in
theorem value_minus {c : Char} (hc : c ≠ 'I') (n : ℕ) (cs : List Char) :
    value (n + 1) ('-' :: c :: cs) = number true (c :: cs) := by
  rw [value.eq_def]
  simp [hc]

omit [PyText] in
theorem number_none {c : Char} (hc : c.isDigit = false) (neg : Bool) (cs : List Char) :
    number neg (c :: cs) = none := by
  unfold number
  rw [List.takeWhile_cons, hc]
  rfl

omit [PyText] in
/-- A head of nothing is refused. -/
theorem value_refused {c : Char} (hc : c ∉ ['"', '[', '\x7b', 'n', 't', 'f', 'N', 'I', '-'])
    (hd : c.isDigit = false) (n : ℕ) (cs : List Char) : value (n + 1) (c :: cs) = none :=
  (value_other hc n cs).trans (number_none hd _ _)

theorem reading_none : Reading .none := by
  refine Reading.of_none (fun h => by cases h) fun n rest => ?_
  have htext : shown .none = ['N', 'o', 'n', 'e'] := by simp [shown, PyVal.repr]
  rw [htext]
  simp [value, word]

theorem reading_bool (b : Bool) : Reading (.bool b) := by
  refine Reading.of_none (fun h => by cases h) fun n rest => ?_
  cases b
  · have htext : shown (.bool false) = ['F', 'a', 'l', 's', 'e'] := by simp [shown, PyVal.repr]
    rw [htext]
    exact value_refused (by decide) rfl n _
  · have htext : shown (.bool true) = ['T', 'r', 'u', 'e'] := by simp [shown, PyVal.repr]
    rw [htext]
    exact value_refused (by decide) rfl n _

omit [PyText] in
/-- Digits are no other heads. -/
theorem value_digit {c : Char} (hc : c.isDigit = true) (n : ℕ) (cs : List Char) :
    value (n + 1) (c :: cs) = number false (c :: cs) := by
  refine value_other (fun h => ?_) n cs
  have hno : ['"', '[', '\x7b', 'n', 't', 'f', 'N', 'I', '-'].all (fun d => !d.isDigit) = true := by
    decide
  have hd := List.all_eq_true.mp hno c h
  rw [hc] at hd
  cases hd

omit [PyText] in
/-- Behind its sign, a literal goes to the reader of numbers. -/
theorem value_literal (neg : Bool) {ds : List Char} (hne : ds ≠ [])
    (hd : ∀ c ∈ ds.head?, c.isDigit = true) (n : ℕ) (rest : List Char) :
    value (n + 1) ((if neg then ['-'] else []) ++ ds ++ rest) = number neg (ds ++ rest) := by
  cases ds with
  | nil => exact absurd rfl hne
  | cons c ds =>
    have hc : c.isDigit = true := hd c rfl
    cases neg with
    | false => exact value_digit hc n (ds ++ rest)
    | true =>
      refine value_minus (fun h => ?_) n (ds ++ rest)
      rw [h] at hc
      exact absurd hc (by decide)

omit [PyText] in
theorem IntPart.head {ip : List Char} (h : IntPart ip) (cs : List Char) :
    ∀ c ∈ (ip ++ cs).head?, c.isDigit = true := by
  intro c hc
  rw [List.head?_append_of_ne_nil _ h.ne] at hc
  exact h.digits c (List.mem_of_mem_head? hc)

omit [PyText] in
theorem FloatLiteral.head {d : ℕ} {e : ℤ} {cs : List Char} (h : FloatLiteral d e cs) :
    cs ≠ [] ∧ ∀ c ∈ cs.head?, c.isDigit = true := by
  obtain ⟨ip, frac, ex, hip, -, -, -, rfl, -⟩ := h
  exact ⟨List.append_ne_nil_of_left_ne_nil hip.ne _, hip.head _⟩

omit [PyText] in
theorem head_digits (n : ℕ) : ∀ c ∈ (Nat.toDigits 10 n).head?, c.isDigit = true := by
  have h := (intPart_toDigits n).head []
  rwa [List.append_nil] at h

theorem shown_int (i : ℤ) :
    shown (.int i) = (if decide (i < 0) then ['-'] else []) ++ Nat.toDigits 10 i.natAbs := by
  rw [shown, PyVal.repr]
  cases i with
  | ofNat m => exact toList_toString m
  | negSucc m =>
    rw [if_pos (by simp [Int.negSucc_lt_zero])]
    show ("-" ++ toString (m + 1)).toList = _
    rw [String.toList_append, toList_toString]
    rfl

theorem reading_int (i : ℤ) : Reading (.int i) := by
  refine Reading.of_some (.int i) fun n rest hr => ⟨.int i, .int i, ?_⟩
  rw [shown_int, value_literal _ Nat.toDigits_ne_nil (head_digits _), number_toDigits _ _ hr]
  have hval : (if decide (i < 0) = true then -(i.natAbs : ℤ) else i.natAbs) = i := by
    simp only [decide_eq_true_eq]
    split_ifs <;> omega
  rw [hval]

theorem reading_float (f : PyFloat) : Reading (.float f) := by
  cases f with
  | fin neg digits exp =>
    refine Reading.of_some (.float neg digits exp) fun n rest hr => ?_
    obtain ⟨cs, htext, h⟩ := repr_literal neg digits exp
    obtain ⟨d, e, hs, hnum⟩ := h.number neg hr
    refine ⟨.float (.fin neg d e), .float ⟨rfl, hs⟩, ?_⟩
    rw [shown, PyVal.repr, htext, value_literal neg h.head.1 h.head.2, hnum]
  | inf neg =>
    refine Reading.of_none (fun h => by cases h) fun n rest => ?_
    cases neg
    · have htext : shown (.float (.inf false)) = ['i', 'n', 'f'] := by
        simp [shown, PyVal.repr, PyFloat.repr]
      rw [htext]
      exact value_refused (by decide) rfl n _
    · have htext : shown (.float (.inf true)) = ['-', 'i', 'n', 'f'] := by
        simp [shown, PyVal.repr, PyFloat.repr]
      rw [htext]
      exact (value_minus (by decide) n _).trans (number_none rfl _ _)
  | nan =>
    refine Reading.of_none (fun h => by cases h) fun n rest => ?_
    have htext : shown (.float .nan) = ['n', 'a', 'n'] := by
      simp [shown, PyVal.repr, PyFloat.repr]
    rw [htext]
    simp [value, word]

theorem reading_str (s : String) : Reading (.str s) := by
  by_cases hs : '\'' ∈ s.toList ∧ '"' ∉ s.toList
  · have htext : ∀ rest, shown (.str s) ++ rest = '"' :: (quoted s.toList ++ '"' :: rest) := by
      intro rest
      rw [shown, PyVal.repr, reprStr_double hs, List.cons_append, List.append_assoc]
      rfl
    have hread : ∀ n rest, value (n + 1) (shown (.str s) ++ rest) =
        if QuoteShown s then some (.str s, rest) else none := by
      intro n rest
      rw [htext, value, stringBody_reprStr hs]
      split_ifs <;> rfl
    by_cases hq : QuoteShown s
    · refine Reading.of_some (.str hq) fun n rest _ => ⟨.str s, .str s, ?_⟩
      rw [hread, if_pos hq]
    · refine Reading.of_none (fun h => ?_) fun n rest => by rw [hread, if_neg hq]
      cases h
      exact hq ‹_›
  · obtain ⟨cs, htext⟩ := reprStr_single hs
    refine Reading.of_none (fun h => ?_) fun n rest => ?_
    · cases h with
      | str h => exact hs h.1
    · rw [shown, PyVal.repr, htext]
      exact value_refused (by decide) rfl n _

/-! ## Lists -/

/-- No white space and no closing bracket. -/
def Opens (c : Char) : Prop := c ∉ [' ', '\t', '\n', '\r', ']']

instance (c : Char) : Decidable (Opens c) := inferInstanceAs (Decidable (¬ _))

omit [PyText] in
theorem signed_head (neg : Bool) {ds : List Char} (hne : ds ≠ [])
    (hd : ∀ c ∈ ds.head?, c.isDigit = true) :
    ∃ c cs, (if neg then ['-'] else []) ++ ds = c :: cs ∧ Opens c := by
  cases ds with
  | nil => exact absurd rfl hne
  | cons c ds =>
    cases neg with
    | false =>
      refine ⟨c, ds, rfl, fun h => ?_⟩
      have hno : [' ', '\t', '\n', '\r', ']'].all (fun d => !d.isDigit) = true := by decide
      have hdigit := List.all_eq_true.mp hno c h
      rw [hd c rfl] at hdigit
      cases hdigit
    | true => exact ⟨'-', c :: ds, rfl, by decide⟩

/-- The text of a value opens with a mark, a letter, a sign or a digit. -/
theorem shown_head (v : PyVal) : ∃ c cs, shown v = c :: cs ∧ Opens c := by
  cases v with
  | none => exact ⟨'N', ['o', 'n', 'e'], by simp [shown, PyVal.repr], by decide⟩
  | bool b =>
    cases b
    · exact ⟨'F', ['a', 'l', 's', 'e'], by simp [shown, PyVal.repr], by decide⟩
    · exact ⟨'T', ['r', 'u', 'e'], by simp [shown, PyVal.repr], by decide⟩
  | int i =>
    rw [shown_int]
    exact signed_head _ Nat.toDigits_ne_nil (head_digits _)
  | float f =>
    cases f with
    | fin neg digits exp =>
      obtain ⟨cs, htext, h⟩ := repr_literal neg digits exp
      rw [shown, PyVal.repr, htext]
      exact signed_head neg h.head.1 h.head.2
    | inf neg =>
      cases neg
      · exact ⟨'i', ['n', 'f'], by simp [shown, PyVal.repr, PyFloat.repr], by decide⟩
      · exact ⟨'-', ['i', 'n', 'f'], by simp [shown, PyVal.repr, PyFloat.repr], by decide⟩
    | nan => exact ⟨'n', ['a', 'n'], by simp [shown, PyVal.repr, PyFloat.repr], by decide⟩
  | str s =>
    by_cases hs : '\'' ∈ s.toList ∧ '"' ∉ s.toList
    · exact ⟨'"', _, by rw [shown, PyVal.repr, reprStr_double hs], by decide⟩
    · obtain ⟨cs, htext⟩ := reprStr_single hs
      exact ⟨'\'', cs, by rw [shown, PyVal.repr, htext], by decide⟩
  | list xs =>
    refine ⟨'[', _, by rw [shown, PyVal.repr, String.toList_append, String.toList_append]; rfl, ?_⟩
    decide
  | dict kvs =>
    refine ⟨'\x7b', _, by rw [shown, PyVal.repr, String.toList_append, String.toList_append]; rfl,
      ?_⟩
    decide

omit [PyText] in
theorem skipWs_opens {c : Char} (hc : Opens c) (cs : List Char) : skipWs (c :: cs) = c :: cs := by
  simp only [Opens, List.mem_cons, List.not_mem_nil, or_false, not_or] at hc
  simp [skipWs, isWs, hc]

omit [PyText] in
theorem skipWs_space (cs : List Char) : skipWs (' ' :: cs) = skipWs cs := rfl

/-- White space is skipped up to the text of a value. -/
theorem skipWs_shown (v : PyVal) (cs : List Char) : skipWs (shown v ++ cs) = shown v ++ cs := by
  obtain ⟨c, t, ht, hc⟩ := shown_head v
  rw [ht]
  exact skipWs_opens hc _

omit [PyText] in
theorem toList_intercalate_cons (t : String) (ts : List String) :
    (", ".intercalate (t :: ts)).toList =
      t.toList ++ ts.flatMap fun s => ',' :: ' ' :: s.toList := by
  induction ts generalizing t with
  | nil => simp
  | cons u ts ih =>
    rw [String.intercalate_cons_cons, String.toList_append, String.toList_append, ih,
      List.flatMap_cons]
    simp

/-- The texts of further elements. -/
def tailText (xs : List PyVal) : List Char := xs.flatMap fun x => ',' :: ' ' :: shown x

theorem reprList_eq (xs : List PyVal) : PyVal.reprList xs = xs.map PyVal.repr := by
  induction xs with
  | nil => rfl
  | cons x xs ih => rw [PyVal.reprList, ih, List.map_cons]

theorem shown_nil : shown (.list []) = ['[', ']'] := by
  simp [shown, PyVal.repr, PyVal.reprList]

theorem shown_cons (x : PyVal) (xs : List PyVal) :
    shown (.list (x :: xs)) = '[' :: (shown x ++ (tailText xs ++ [']'])) := by
  rw [shown, PyVal.repr, reprList_eq, List.map_cons, String.toList_append, String.toList_append,
    toList_intercalate_cons, List.flatMap_map, List.append_assoc]
  simp [tailText, shown]

theorem tailText_cons (y : PyVal) (xs : List PyVal) (cs : List Char) :
    tailText (y :: xs) ++ cs = ',' :: ' ' :: (shown y ++ (tailText xs ++ cs)) := by
  simp [tailText]

omit [PyText] in
theorem elements_last {n : ℕ} {acc : List PyVal} {cs rest : List Char} {v : PyVal}
    (hv : value n cs = some (v, ']' :: rest)) :
    elements (n + 1) acc cs = some (acc ++ [v], rest) := by
  rw [elements, hv]
  rfl

theorem elements_more {n : ℕ} {acc : List PyVal} {cs rest : List Char} {v y : PyVal}
    (hv : value n cs = some (v, ',' :: ' ' :: (shown y ++ rest))) :
    elements (n + 1) acc cs = elements n (acc ++ [v]) (shown y ++ rest) := by
  rw [elements, hv]
  show elements n (acc ++ [v]) (skipWs (' ' :: (shown y ++ rest))) = _
  rw [skipWs_space, skipWs_shown]

omit [PyText] in
theorem elements_some {n : ℕ} {acc : List PyVal} {cs : List Char} {p : List PyVal × List Char}
    (hp : elements (n + 1) acc cs = some p) : ∃ v r, value n cs = some (v, r) := by
  rw [elements] at hp
  obtain ⟨⟨v, r⟩, hv, -⟩ := Option.bind_eq_some_iff.mp hp
  exact ⟨v, r, hv⟩

/-- **The elements that are read are those of the list.** -/
theorem elements_sound {x : PyVal} {xs : List PyVal} (h : ∀ y ∈ x :: xs, Reading y) {n : ℕ}
    {acc : List PyVal} {rest : List Char} {p : List PyVal × List Char}
    (hp : elements n acc (shown x ++ (tailText xs ++ ']' :: rest)) = some p) :
    (∀ y ∈ x :: xs, y.WellShown) ∧ p.2 = rest ∧
      ∃ ys, p.1 = acc ++ ys ∧ List.Forall₂ PyVal.Same ys (x :: xs) := by
  induction xs generalizing x n acc with
  | nil =>
    cases n with
    | zero => exact absurd hp.symm (Option.some_ne_none p)
    | succ n =>
      obtain ⟨v, r, hv⟩ := elements_some hp
      obtain ⟨hw, rfl, hs⟩ := (h x List.mem_cons_self).of_read (ends_cons (Or.inr (Or.inl rfl))) hv
      rw [elements_last hv] at hp
      obtain rfl := Option.some.inj hp
      exact ⟨List.forall_mem_singleton.mpr hw, rfl, [v], rfl, .cons hs .nil⟩
  | cons y xs ih =>
    cases n with
    | zero => exact absurd hp.symm (Option.some_ne_none p)
    | succ n =>
      rw [tailText_cons] at hp
      obtain ⟨v, r, hv⟩ := elements_some hp
      obtain ⟨hw, rfl, hs⟩ := (h x List.mem_cons_self).of_read (ends_cons (Or.inl rfl)) hv
      rw [elements_more hv] at hp
      obtain ⟨hws, hrest, ys, hys, hsame⟩ := ih (fun z hz => h z (List.mem_cons_of_mem _ hz)) hp
      refine ⟨List.forall_mem_cons.mpr ⟨hw, hws⟩, hrest, v :: ys, ?_, .cons hs hsame⟩
      rw [hys, List.append_assoc, List.singleton_append]

/-- **Well-shown elements are read**, with enough fuel. -/
theorem elements_complete {x : PyVal} {xs : List PyVal} (h : ∀ y ∈ x :: xs, Reading y)
    (hw : ∀ y ∈ x :: xs, y.WellShown) {n : ℕ} {acc : List PyVal} {rest : List Char}
    (hn : (shown x ++ tailText xs).length + 1 < n) :
    (elements n acc (shown x ++ (tailText xs ++ ']' :: rest))).isSome = true := by
  obtain ⟨n, rfl⟩ : ∃ m, n = m + 1 := ⟨n - 1, by omega⟩
  have hx := h x List.mem_cons_self
  have hwx := hw x List.mem_cons_self
  rw [List.length_append] at hn
  induction xs generalizing x n acc with
  | nil =>
    obtain ⟨v, hv⟩ := hx.read hwx (ends_cons (Or.inr (Or.inl rfl)) : Ends (']' :: rest))
      (by omega : (shown x).length < n)
    exact (elements_last hv).symm ▸ rfl
  | cons y xs ih =>
    have hlen : (tailText (y :: xs)).length = (shown y).length + (tailText xs).length + 2 := by
      simp [tailText]
    obtain ⟨v, hv⟩ := hx.read hwx (ends_cons (Or.inl rfl) :
        Ends (',' :: ' ' :: (shown y ++ (tailText xs ++ ']' :: rest))))
      (by omega : (shown x).length < n)
    rw [tailText_cons, elements_more hv]
    obtain ⟨n, rfl⟩ : ∃ m, n = m + 1 := ⟨n - 1, by omega⟩
    have h' := fun z hz => h z (List.mem_cons_of_mem _ hz)
    have hw' := fun z hz => hw z (List.mem_cons_of_mem _ hz)
    exact ih h' hw' n (by omega) (h' y List.mem_cons_self) (hw' y List.mem_cons_self)

/-- A list is read through its elements. -/
theorem value_list (x : PyVal) (xs : List PyVal) (n : ℕ) (rest : List Char) :
    value (n + 1) (shown (.list (x :: xs)) ++ rest) =
      (elements n [] (shown x ++ (tailText xs ++ ']' :: rest))).map fun p => (.list p.1, p.2) := by
  have htext : shown (.list (x :: xs)) ++ rest =
      '[' :: (shown x ++ (tailText xs ++ ']' :: rest)) := by
    rw [shown_cons]
    simp
  obtain ⟨c, cs, ht, hc⟩ := shown_head x
  have hne : c ≠ ']' := fun h => hc (by simp [h])
  rw [htext, value, skipWs_shown, ht]
  simp [hne]

theorem reading_list {xs : List PyVal} (h : ∀ x ∈ xs, Reading x) : Reading (.list xs) := by
  cases xs with
  | nil =>
    refine Reading.of_some (.list fun x hx => absurd hx List.not_mem_nil) fun n rest _ =>
      ⟨.list [], .list .nil, ?_⟩
    rw [shown_nil]
    rfl
  | cons x xs =>
    refine ⟨fun {n rest p} _ hp => ?_, fun hw {n rest} _ hn => ?_⟩
    · cases n with
      | zero => exact absurd hp.symm (Option.some_ne_none p)
      | succ n =>
        rw [value_list, Option.map_eq_some_iff] at hp
        obtain ⟨q, hq, rfl⟩ := hp
        obtain ⟨hws, hrest, ys, hys, hsame⟩ := elements_sound h hq
        rw [List.nil_append] at hys
        exact ⟨.list hws, hrest, hys ▸ .list hsame⟩
    · obtain ⟨n, rfl⟩ : ∃ m, n = m + 1 := ⟨n - 1, by omega⟩
      cases hw with
      | list hw =>
        rw [value_list, Option.isSome_map]
        refine elements_complete h hw ?_
        rw [shown_cons] at hn
        simp only [List.length_cons, List.length_append, List.length_nil] at hn ⊢
        omega

/-! ## Dictionaries -/

/-- The text of an item of a dictionary. -/
def itemText (p : String × PyVal) : List Char :=
  (PyVal.reprStr p.1).toList ++ ':' :: ' ' :: shown p.2

/-- The texts of further items. -/
def membersText (kvs : List (String × PyVal)) : List Char :=
  kvs.flatMap fun p => ',' :: ' ' :: itemText p

theorem reprFields_eq (kvs : List (String × PyVal)) :
    PyVal.reprFields kvs = kvs.map fun p => PyVal.reprStr p.1 ++ ": " ++ PyVal.repr p.2 := by
  induction kvs with
  | nil => rfl
  | cons p kvs ih => rw [PyVal.reprFields, ih, List.map_cons]

theorem shown_dict_nil : shown (.dict []) = ['\x7b', '\x7d'] := by
  simp [shown, PyVal.repr, PyVal.reprFields]

theorem shown_dict_cons (p : String × PyVal) (kvs : List (String × PyVal)) :
    shown (.dict (p :: kvs)) = '\x7b' :: (itemText p ++ (membersText kvs ++ ['\x7d'])) := by
  rw [shown, PyVal.repr, reprFields_eq, List.map_cons, String.toList_append, String.toList_append,
    toList_intercalate_cons, List.flatMap_map, List.append_assoc]
  simp [membersText, itemText, shown]

theorem membersText_cons (p : String × PyVal) (kvs : List (String × PyVal)) (cs : List Char) :
    membersText (p :: kvs) ++ cs = ',' :: ' ' :: (itemText p ++ (membersText kvs ++ cs)) := by
  simp [membersText]

/-- A key opens with a quote. -/
theorem itemText_head (p : String × PyVal) :
    ∃ c cs, itemText p = c :: cs ∧ Opens c ∧ c ≠ '\x7d' := by
  by_cases hs : '\'' ∈ p.1.toList ∧ '"' ∉ p.1.toList
  · exact ⟨'"', _, by rw [itemText, reprStr_double hs, List.cons_append], by decide, by decide⟩
  · obtain ⟨cs, htext⟩ := reprStr_single hs
    exact ⟨'\'', _, by rw [itemText, htext, List.cons_append], by decide, by decide⟩

theorem skipWs_field (p : String × PyVal) (cs : List Char) :
    skipWs (itemText p ++ cs) = itemText p ++ cs := by
  obtain ⟨c, t, ht, hc, -⟩ := itemText_head p
  rw [ht]
  exact skipWs_opens hc _

/-- What is read behind the value of an item. -/
def afterMember (n : ℕ) (acc : Dict String PyVal) (k : String) (q : PyVal × List Char) :
    Option (Dict String PyVal × List Char) :=
  match skipWs q.2 with
  | ',' :: r => members n (Dict.set k q.1 acc) (skipWs r)
  | '\x7d' :: r => some (Dict.set k q.1 acc, r)
  | _ => none

/-- **One item of a dictionary**: its key is read if it is shown in double quotes. -/
theorem members_field (p : String × PyVal) (n : ℕ) (acc : Dict String PyVal) (cs : List Char) :
    members (n + 1) acc (itemText p ++ cs) =
      if QuoteShown p.1 then (value n (shown p.2 ++ cs)).bind (afterMember n acc p.1)
      else none := by
  by_cases hs : '\'' ∈ p.1.toList ∧ '"' ∉ p.1.toList
  · have htext : itemText p ++ cs =
        '"' :: (quoted p.1.toList ++ '"' :: (':' :: ' ' :: (shown p.2 ++ cs))) := by
      rw [itemText, reprStr_double hs]
      simp
    rw [htext, members, stringBody_reprStr hs]
    split_ifs with hq
    · have hskip : skipWs (' ' :: (shown p.2 ++ cs)) = shown p.2 ++ cs :=
        (skipWs_space _).trans (skipWs_shown p.2 cs)
      show (value n (skipWs (' ' :: (shown p.2 ++ cs)))).bind (afterMember n acc p.1) = _
      rw [hskip]
    · rfl
  · obtain ⟨t, ht⟩ := reprStr_single hs
    rw [itemText, ht, if_neg fun hq => hs hq.1]
    rfl

theorem members_last {p : String × PyVal} {n : ℕ} {acc : Dict String PyVal} {cs rest : List Char}
    {v : PyVal} (hk : QuoteShown p.1) (hv : value n (shown p.2 ++ cs) = some (v, '\x7d' :: rest)) :
    members (n + 1) acc (itemText p ++ cs) = some (Dict.set p.1 v acc, rest) := by
  rw [members_field, if_pos hk, hv]
  rfl

theorem members_more {p q : String × PyVal} {n : ℕ} {acc : Dict String PyVal}
    {cs rest : List Char} {v : PyVal} (hk : QuoteShown p.1)
    (hv : value n (shown p.2 ++ cs) = some (v, ',' :: ' ' :: (itemText q ++ rest))) :
    members (n + 1) acc (itemText p ++ cs) =
      members n (Dict.set p.1 v acc) (itemText q ++ rest) := by
  rw [members_field, if_pos hk, hv]
  show members n (Dict.set p.1 v acc) (skipWs (' ' :: (itemText q ++ rest))) = _
  rw [skipWs_space, skipWs_field]

/-- An item that is read is shown in double quotes, and its value is read. -/
theorem members_some {p : String × PyVal} {n : ℕ} {acc : Dict String PyVal} {cs : List Char}
    {q : Dict String PyVal × List Char} (hq : members (n + 1) acc (itemText p ++ cs) = some q) :
    QuoteShown p.1 ∧ ∃ v r, value n (shown p.2 ++ cs) = some (v, r) := by
  rw [members_field] at hq
  split_ifs at hq with hk
  obtain ⟨⟨v, r⟩, hv, -⟩ := Option.bind_eq_some_iff.mp hq
  exact ⟨hk, v, r, hv⟩

/-- **The items that are read are those of the dictionary.** -/
theorem members_sound {p : String × PyVal} {kvs : List (String × PyVal)}
    (h : ∀ q ∈ p :: kvs, Reading q.2) {n : ℕ} {acc : Dict String PyVal} {rest : List Char}
    (hkeys : (acc.map Prod.fst ++ (p :: kvs).map Prod.fst).Nodup)
    {q : Dict String PyVal × List Char}
    (hq : members n acc (itemText p ++ (membersText kvs ++ '\x7d' :: rest)) = some q) :
    (∀ r ∈ p :: kvs, QuoteShown r.1 ∧ r.2.WellShown) ∧ q.2 = rest ∧
      ∃ ys, q.1 = acc ++ ys ∧ ys.map Prod.fst = (p :: kvs).map Prod.fst ∧
        List.Forall₂ (fun a b => PyVal.Same a.2 b.2) ys (p :: kvs) := by
  have hnew : p.1 ∉ acc.map Prod.fst := fun hmem =>
    (List.nodup_append.mp hkeys).2.2 _ hmem _ List.mem_cons_self rfl
  induction kvs generalizing p n acc with
  | nil =>
    cases n with
    | zero => exact absurd hq.symm (Option.some_ne_none q)
    | succ n =>
      obtain ⟨hk, v, r, hv⟩ := members_some hq
      obtain ⟨hw, rfl, hs⟩ := (h p List.mem_cons_self).of_read (ends_cons (Or.inr (Or.inr rfl))) hv
      rw [members_last hk hv, Dict.set_of_not_mem hnew] at hq
      obtain rfl := Option.some.inj hq
      exact ⟨List.forall_mem_singleton.mpr ⟨hk, hw⟩, rfl, [(p.1, v)], rfl, rfl, .cons hs .nil⟩
  | cons p' kvs ih =>
    cases n with
    | zero => exact absurd hq.symm (Option.some_ne_none q)
    | succ n =>
      rw [membersText_cons] at hq
      obtain ⟨hk, v, r, hv⟩ := members_some hq
      obtain ⟨hw, rfl, hs⟩ := (h p List.mem_cons_self).of_read (ends_cons (Or.inl rfl)) hv
      rw [members_more hk hv, Dict.set_of_not_mem hnew] at hq
      have hkeys' : ((acc ++ [(p.1, v)]).map Prod.fst ++ (p' :: kvs).map Prod.fst).Nodup := by
        simpa using hkeys
      obtain ⟨hws, hrest, ys, hys, hmap, hsame⟩ := ih
        (fun z hz => h z (List.mem_cons_of_mem _ hz)) hkeys' hq fun hmem =>
          (List.nodup_append.mp hkeys').2.2 _ hmem _ List.mem_cons_self rfl
      refine ⟨List.forall_mem_cons.mpr ⟨⟨hk, hw⟩, hws⟩, hrest, (p.1, v) :: ys, ?_, ?_,
        .cons hs hsame⟩
      · rw [hys, List.append_assoc, List.singleton_append]
      · rw [List.map_cons, hmap]
        rfl

theorem length_itemText (p : String × PyVal) : (shown p.2).length < (itemText p).length := by
  rw [itemText, List.length_append, List.length_cons, List.length_cons]
  omega

/-- **Well-shown items are read**, with enough fuel. -/
theorem members_complete {p : String × PyVal} {kvs : List (String × PyVal)}
    (h : ∀ q ∈ p :: kvs, Reading q.2) (hw : ∀ q ∈ p :: kvs, QuoteShown q.1 ∧ q.2.WellShown)
    {n : ℕ} {acc : Dict String PyVal} {rest : List Char}
    (hn : (itemText p ++ membersText kvs).length + 1 < n) :
    (members n acc (itemText p ++ (membersText kvs ++ '\x7d' :: rest))).isSome = true := by
  obtain ⟨n, rfl⟩ : ∃ m, n = m + 1 := ⟨n - 1, by omega⟩
  have hp := h p List.mem_cons_self
  have hwp := hw p List.mem_cons_self
  rw [List.length_append] at hn
  have hlt := length_itemText p
  induction kvs generalizing p n acc with
  | nil =>
    obtain ⟨v, hv⟩ := hp.read hwp.2 (ends_cons (Or.inr (Or.inr rfl)) : Ends ('\x7d' :: rest))
      (by omega : (shown p.2).length < n)
    exact (members_last hwp.1 hv).symm ▸ rfl
  | cons p' kvs ih =>
    have hlen : (membersText (p' :: kvs)).length =
        (itemText p').length + (membersText kvs).length + 2 := by
      simp [membersText]
    obtain ⟨v, hv⟩ := hp.read hwp.2 (ends_cons (Or.inl rfl) :
        Ends (',' :: ' ' :: (itemText p' ++ (membersText kvs ++ '\x7d' :: rest))))
      (by omega : (shown p.2).length < n)
    rw [membersText_cons, members_more hwp.1 hv]
    obtain ⟨n, rfl⟩ : ∃ m, n = m + 1 := ⟨n - 1, by omega⟩
    have h' := fun z hz => h z (List.mem_cons_of_mem _ hz)
    have hw' := fun z hz => hw z (List.mem_cons_of_mem _ hz)
    exact ih h' hw' n (by omega) (h' p' List.mem_cons_self) (hw' p' List.mem_cons_self)
      (length_itemText p')

/-- A dictionary is read through its items. -/
theorem value_dict (p : String × PyVal) (kvs : List (String × PyVal)) (n : ℕ) (rest : List Char) :
    value (n + 1) (shown (.dict (p :: kvs)) ++ rest) =
      (members n [] (itemText p ++ (membersText kvs ++ '\x7d' :: rest))).map
        fun q => (.dict q.1, q.2) := by
  have htext : shown (.dict (p :: kvs)) ++ rest =
      '\x7b' :: (itemText p ++ (membersText kvs ++ '\x7d' :: rest)) := by
    rw [shown_dict_cons]
    simp
  obtain ⟨c, cs, ht, -, hne⟩ := itemText_head p
  rw [htext, value, skipWs_field, ht]
  simp [hne]

theorem reading_dict {kvs : List (String × PyVal)} (hkeys : (kvs.map Prod.fst).Nodup)
    (h : ∀ p ∈ kvs, Reading p.2) : Reading (.dict kvs) := by
  cases kvs with
  | nil =>
    refine Reading.of_some (.dict (fun p hp => absurd hp List.not_mem_nil)
      fun p hp => absurd hp List.not_mem_nil) fun n rest _ => ⟨.dict [], .dict rfl .nil, ?_⟩
    rw [shown_dict_nil]
    rfl
  | cons p kvs =>
    refine ⟨fun {n rest q} _ hq => ?_, fun hw {n rest} _ hn => ?_⟩
    · cases n with
      | zero => exact absurd hq.symm (Option.some_ne_none q)
      | succ n =>
        rw [value_dict, Option.map_eq_some_iff] at hq
        obtain ⟨q, hq, rfl⟩ := hq
        have hkeys : (([] : Dict String PyVal).map Prod.fst ++
            (p :: kvs).map Prod.fst).Nodup := hkeys
        obtain ⟨hws, hrest, ys, hys, hmap, hsame⟩ := members_sound h hkeys hq
        rw [List.nil_append] at hys
        subst hys
        exact ⟨.dict (fun r hr => (hws r hr).1) fun r hr => (hws r hr).2, hrest, .dict hmap hsame⟩
    · obtain ⟨n, rfl⟩ : ∃ m, n = m + 1 := ⟨n - 1, by omega⟩
      cases hw with
      | dict hk hw =>
        rw [value_dict, Option.isSome_map]
        refine members_complete h (fun r hr => ⟨hk r hr, hw r hr⟩) ?_
        rw [shown_dict_cons] at hn
        simp only [List.length_cons, List.length_append, List.length_nil] at hn ⊢
        omega

/-! ## Whole texts -/

/-- **What the reader makes of a value.** -/
theorem reading {v : PyVal} (hv : v.DistinctKeys) : Reading v := by
  induction v using PyVal.induct with
  | none => exact reading_none
  | bool b => exact reading_bool b
  | int i => exact reading_int i
  | float f => exact reading_float f
  | str s => exact reading_str s
  | list xs ih =>
    cases hv with
    | list h => exact reading_list fun x hx => ih x hx (h x hx)
  | dict kvs ih =>
    cases hv with
    | dict hkeys h => exact reading_dict hkeys fun p hp => ih p hp (h p hp)

/-- **`loads` of the `repr` of a value** is that value, if it is well shown, and else fails. -/
theorem loads_repr {v : PyVal} (hv : v.DistinctKeys) :
    (v.WellShown ∧ ∃ w, loads (PyVal.repr v) = some w ∧ w.Same v) ∨
      (¬ v.WellShown ∧ loads (PyVal.repr v) = none) := by
  have hskip : skipWs (shown v) = shown v := by
    have h := skipWs_shown v []
    rwa [List.append_nil] at h
  have hr := reading hv
  by_cases hw : v.WellShown
  · obtain ⟨⟨w, rest⟩, hp⟩ := Option.isSome_iff_exists.mp
      (hr.complete hw ends_nil (Nat.lt_succ_self (shown v).length))
    obtain ⟨-, hrest, hs⟩ := hr.sound ends_nil hp
    obtain rfl : rest = [] := hrest
    rw [List.append_nil] at hp
    refine Or.inl ⟨hw, w, ?_, hs⟩
    show (value ((shown v).length + 1) (skipWs (shown v))).bind _ = _
    rw [hskip, hp]
    rfl
  · have hnone : value ((shown v).length + 1) (shown v) = none := by
      rw [Option.eq_none_iff_forall_ne_some]
      intro p hp
      rw [← List.append_nil (shown v)] at hp
      exact hw (hr.sound ends_nil hp).1
    refine Or.inr ⟨hw, ?_⟩
    show (value ((shown v).length + 1) (skipWs (shown v))).bind _ = _
    rw [hskip, hnone]
    rfl

end Json

end ScoutEngine
