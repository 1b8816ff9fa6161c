import ScoutEngine.Json.Shown

/-!
# Values written as JSON and read back

`json.dumps` writes a value that `json.loads` reads as the same value, whatever its strings hold.

* `stringBody_escapeChar`, `value_quote`: an escaped string is read back, also beyond U+FFFF.
* `Written`; `written_list`, `written_dict`: by induction over the value.
* **`loads_dumps`**; `distinctKeys_of_loads`: an object that was read holds every key once.
-/

set_option autoImplicit false

namespace ScoutEngine

namespace Json

/-! ## Strings -/

theorem toList_escapeUnit (n : ℕ) :
    (escapeUnit n).toList = '\\' :: 'u' :: (PyVal.hex 4 n).toList := by
  have hu : "\\u".toList = ['\\', 'u'] := String.toList_ofList
  rw [escapeUnit, String.toList_append, hu]
  rfl

/-- The two code units of a surrogate pair. -/
theorem unicodeEscape_pair {hi lo : ℕ} (hhi : 0xd800 ≤ hi ∧ hi ≤ 0xdbff)
    (hlo : 0xdc00 ≤ lo ∧ lo ≤ 0xdfff) (cs : List Char) :
    unicodeEscape ((PyVal.hex 4 hi).toList ++ ('\\' :: 'u' :: ((PyVal.hex 4 lo).toList ++ cs))) =
      some (Char.ofNat (0x10000 + (hi - 0xd800) * 0x400 + (lo - 0xdc00)), cs) := by
  unfold unicodeEscape
  rw [hex4_hex (by omega)]
  simp only [Option.bind_eq_bind, Option.bind_some]
  rw [if_pos hhi, hex4_hex (by omega)]
  exact if_pos hlo

/-- The pair of a character beyond U+FFFF. -/
theorem ofNat_surrogates {m : ℕ} (hm : 0x10000 ≤ m) :
    0x10000 + (0xd800 + (m - 0x10000) / 0x400 - 0xd800) * 0x400 +
      (0xdc00 + (m - 0x10000) % 0x400 - 0xdc00) = m := by
  omega

theorem toNat_lt_max (c : Char) : c.toNat < 0x110000 := by
  rcases c.valid with h | h
  · exact Nat.lt_trans h (by decide)
  · exact h.2

/-- **An escaped character is read as the character.** -/
theorem stringBody_escapeChar (c : Char) (n : ℕ) (acc cs : List Char) :
    stringBody (n + 1) acc ((escapeChar c).toList ++ cs) = stringBody n (c :: acc) cs := by
  have hletter : ∀ d, d ≠ 'u' → simpleEscape d = some c →
      stringBody (n + 1) acc ('\\' :: d :: cs) = stringBody n (c :: acc) cs := by
    intro d hu hd
    rw [stringBody_escape hu, hd]
    rfl
  have hmax := toNat_lt_max c
  unfold escapeChar
  split_ifs with h1 h2 h3 h4 h5 h6 h7 h8
  · rw [String.toList_ofList]
    rcases h1 with rfl | rfl
    · exact hletter '"' (by decide) rfl
    · exact hletter '\\' (by decide) rfl
  · subst h2
    exact hletter 'n' (by decide) rfl
  · subst h3
    exact hletter 'r' (by decide) rfl
  · subst h4
    exact hletter 't' (by decide) rfl
  · subst h5
    exact hletter 'b' (by decide) rfl
  · subst h6
    exact hletter 'f' (by decide) rfl
  · rw [String.toList_singleton]
    exact stringBody_char (fun h => h1 (Or.inl h)) (fun h => h1 (Or.inr h)) h7.1 n acc cs
  · rw [toList_escapeUnit, List.cons_append, List.cons_append, stringBody_unicode,
      unicodeEscape_hex h8]
    rfl
  · rw [String.toList_append, toList_escapeUnit, toList_escapeUnit, List.append_assoc,
      List.cons_append, List.cons_append, stringBody_unicode, List.cons_append, List.cons_append,
      unicodeEscape_pair (by omega) (by omega), ofNat_surrogates (by omega), Char.ofNat_toNat]
    rfl

theorem escapeUnit_ne_nil (n : ℕ) : (escapeUnit n).toList ≠ [] := by
  rw [toList_escapeUnit]
  exact List.cons_ne_nil _ _

theorem escapeChar_ne_nil (c : Char) : (escapeChar c).toList ≠ [] := by
  unfold escapeChar
  split_ifs
  iterate 7 simp
  · exact escapeUnit_ne_nil _
  · rw [String.toList_append]
    exact List.append_ne_nil_of_left_ne_nil (escapeUnit_ne_nil _) _

/-- The text between the quotes. -/
def escaped (cs : List Char) : List Char := cs.flatMap fun c => (escapeChar c).toList

theorem toList_quote (s : String) : (quote s).toList = '"' :: (escaped s.toList ++ ['"']) := by
  simp [quote, escaped, String.toList_join, List.flatMap_map]

theorem length_le_escaped (cs : List Char) : cs.length ≤ (escaped cs).length := by
  induction cs with
  | nil => exact Nat.le_refl _
  | cons c cs ih =>
    have hpos := List.length_pos_iff.mpr (escapeChar_ne_nil c)
    simp only [escaped, List.flatMap_cons, List.length_append, List.length_cons] at ih ⊢
    omega

theorem stringBody_escaped {cs rest : List Char} {n : ℕ} (hn : cs.length < n) (acc : List Char) :
    stringBody n acc (escaped cs ++ '"' :: rest) =
      some (String.ofList (acc.reverse ++ cs), rest) := by
  induction cs generalizing n acc with
  | nil =>
    obtain ⟨n, rfl⟩ : ∃ m, n = m + 1 := ⟨n - 1, by omega⟩
    rw [List.append_nil]
    rfl
  | cons c cs ih =>
    obtain ⟨n, rfl⟩ : ∃ m, n = m + 1 := ⟨n - 1, by omega⟩
    rw [List.length_cons] at hn
    have htext : escaped (c :: cs) ++ '"' :: rest =
        (escapeChar c).toList ++ (escaped cs ++ '"' :: rest) := by
      simp [escaped]
    rw [htext, stringBody_escapeChar, ih (by omega), List.reverse_cons, List.append_assoc,
      List.singleton_append]

/-- **A quoted string is read back**, whatever follows it. -/
theorem stringBody_quote (s : String) (rest : List Char) :
    stringBody ((escaped s.toList ++ '"' :: rest).length + 1) [] (escaped s.toList ++ '"' :: rest) =
      some (s, rest) := by
  have hlen := length_le_escaped s.toList
  rw [stringBody_escaped (by rw [List.length_append]; omega), List.reverse_nil, List.nil_append,
    String.ofList_toList]

theorem quote_append (s : String) (rest : List Char) :
    (quote s).toList ++ rest = '"' :: (escaped s.toList ++ '"' :: rest) := by
  simp [toList_quote]

theorem value_quote (s : String) (n : ℕ) (rest : List Char) :
    value (n + 1) ((quote s).toList ++ rest) = some (.str s, rest) := by
  rw [quote_append, value, stringBody_quote]
  rfl

/-! ## Values -/

/-- The JSON text of a value. -/
def jsonText (v : PyVal) : List Char := (dumps v).toList

/-- **The value is read back from its text**, with enough fuel. -/
def Written (v : PyVal) : Prop := ∀ ⦃n : ℕ⦄ ⦃rest : List Char⦄, Ends rest →
  (jsonText v).length < n → ∃ w, w.Same v ∧ value n (jsonText v ++ rest) = some (w, rest)

theorem Written.of_read {v : PyVal}
    (h : ∀ n rest, Ends rest →
      ∃ w, w.Same v ∧ value (n + 1) (jsonText v ++ rest) = some (w, rest)) : Written v := by
  intro n rest hr hn
  obtain ⟨n, rfl⟩ : ∃ m, n = m + 1 := ⟨n - 1, by omega⟩
  exact h n rest hr

theorem word_append (w : String) (v : PyVal) (rest : List Char) :
    word w v (w.toList ++ rest) = some (v, rest) := by
  unfold word
  rw [if_pos (List.isPrefixOf_iff_prefix.mpr (List.prefix_append _ _)), ← String.length_toList,
    List.drop_left]

theorem written_none : Written .none :=
  Written.of_read fun _ rest _ => ⟨.none, .none, word_append "null" .none rest⟩

theorem written_bool (b : Bool) : Written (.bool b) := by
  refine Written.of_read fun n rest _ => ⟨.bool b, .bool b, ?_⟩
  cases b
  · exact word_append "false" (.bool false) rest
  · exact word_append "true" (.bool true) rest

theorem jsonText_int (i : ℤ) :
    jsonText (.int i) = (if decide (i < 0) then ['-'] else []) ++ Nat.toDigits 10 i.natAbs := by
  have := asciiText
  have h : (PyVal.repr (.int i)).toList = _ := shown_int i
  rw [PyVal.repr] at h
  rw [jsonText, dumps, h]

theorem written_int (i : ℤ) : Written (.int i) := by
  refine Written.of_read fun n rest hr => ⟨.int i, .int i, ?_⟩
  rw [jsonText_int, value_literal _ Nat.toDigits_ne_nil (head_digits _), number_toDigits _ _ hr]
  have hval : (if decide (i < 0) = true then -(i.natAbs : ℤ) else i.natAbs) = i := by
    simp only [decide_eq_true_eq]
    split_ifs <;> omega
  rw [hval]

theorem jsonText_float (neg : Bool) (d : ℕ) (e : ℤ) :
    jsonText (.float (.fin neg d e)) = (PyFloat.repr (.fin neg d e)).toList := by
  rw [jsonText, dumps.eq_def]

theorem written_float (f : PyFloat) : Written (.float f) := by
  refine Written.of_read fun n rest hr => ?_
  cases f with
  | fin neg digits exp =>
    obtain ⟨cs, htext, h⟩ := repr_literal neg digits exp
    obtain ⟨d, e, hs, hnum⟩ := h.number neg hr
    refine ⟨.float (.fin neg d e), .float ⟨rfl, hs⟩, ?_⟩
    rw [jsonText_float, htext, value_literal neg h.head.1 h.head.2, hnum]
  | inf neg =>
    refine ⟨.float (.inf neg), .float rfl, ?_⟩
    cases neg
    · exact word_append "Infinity" (.float (.inf false)) rest
    · exact word_append "-Infinity" (.float (.inf true)) rest
  | nan => exact ⟨.float .nan, .float rfl, word_append "NaN" (.float .nan) rest⟩

theorem written_str (s : String) : Written (.str s) :=
  Written.of_read fun n rest _ => ⟨.str s, .str s, by rw [jsonText, dumps, value_quote]⟩

/-- The text of a value opens with a mark, a letter, a sign or a digit. -/
theorem jsonText_head (v : PyVal) : ∃ c cs, jsonText v = c :: cs ∧ Opens c := by
  cases v with
  | none => exact ⟨'n', ['u', 'l', 'l'], by simp [jsonText, dumps], by decide⟩
  | bool b =>
    cases b
    · exact ⟨'f', ['a', 'l', 's', 'e'], by simp [jsonText, dumps], by decide⟩
    · exact ⟨'t', ['r', 'u', 'e'], by simp [jsonText, dumps], by decide⟩
  | int i =>
    rw [jsonText_int]
    exact signed_head _ Nat.toDigits_ne_nil (head_digits _)
  | float f =>
    cases f with
    | fin neg digits exp =>
      obtain ⟨cs, htext, h⟩ := repr_literal neg digits exp
      rw [jsonText_float, htext]
      exact signed_head neg h.head.1 h.head.2
    | inf neg =>
      cases neg
      · exact ⟨'I', "nfinity".toList, by simp [jsonText, dumps], by decide⟩
      · exact ⟨'-', "Infinity".toList, by simp [jsonText, dumps], by decide⟩
    | nan => exact ⟨'N', ['a', 'N'], by simp [jsonText, dumps], by decide⟩
  | str s => exact ⟨'"', _, by rw [jsonText, dumps, toList_quote], by decide⟩
  | list xs =>
    exact ⟨'[', _, by rw [jsonText, dumps, String.toList_append, String.toList_append]; rfl,
      by decide⟩
  | dict kvs =>
    exact ⟨'\x7b', _, by rw [jsonText, dumps, String.toList_append, String.toList_append]; rfl,
      by decide⟩

theorem skipWs_jsonText (v : PyVal) (cs : List Char) :
    skipWs (jsonText v ++ cs) = jsonText v ++ cs := by
  obtain ⟨c, t, ht, hc⟩ := jsonText_head v
  rw [ht]
  exact skipWs_opens hc _

/-! ## Lists -/

theorem dumpsList_eq (xs : List PyVal) : dumpsList xs = xs.map dumps := by
  induction xs with
  | nil => rfl
  | cons x xs ih => rw [dumpsList, ih, List.map_cons]

/-- The texts of further elements. -/
def moreText (xs : List PyVal) : List Char := xs.flatMap fun x => ',' :: ' ' :: jsonText x

theorem jsonText_nil : jsonText (.list []) = ['[', ']'] := by
  simp [jsonText, dumps, dumpsList]

theorem jsonText_cons (x : PyVal) (xs : List PyVal) :
    jsonText (.list (x :: xs)) = '[' :: (jsonText x ++ (moreText xs ++ [']'])) := by
  rw [jsonText, dumps, dumpsList_eq, List.map_cons, String.toList_append, String.toList_append,
    toList_intercalate_cons, List.flatMap_map, List.append_assoc]
  simp [moreText, jsonText]

/-- The last element of an array. -/
theorem elements_end {n : ℕ} {acc : List PyVal} {cs rest : List Char} {v : PyVal}
    (hv : value n cs = some (v, ']' :: rest)) :
    elements (n + 1) acc cs = some (acc ++ [v], rest) := by
  rw [elements, hv]
  rfl

/-- An element before others. -/
theorem elements_comma {n : ℕ} {acc : List PyVal} {cs rest : List Char} {v : PyVal}
    (hv : value n cs = some (v, ',' :: ' ' :: rest)) (hr : skipWs rest = rest) :
    elements (n + 1) acc cs = elements n (acc ++ [v]) rest := by
  rw [elements, hv]
  show elements n (acc ++ [v]) (skipWs (' ' :: rest)) = _
  rw [skipWs_space, hr]

/-- **The elements are read back.** -/
theorem elements_jsonText {x : PyVal} {xs : List PyVal} (h : ∀ y ∈ x :: xs, Written y) {n : ℕ}
    {acc : List PyVal} {rest : List Char} (hn : (jsonText x ++ moreText xs).length + 1 < n) :
    ∃ ys, List.Forall₂ PyVal.Same ys (x :: xs) ∧
      elements n acc (jsonText x ++ (moreText xs ++ ']' :: rest)) = some (acc ++ ys, rest) := by
  obtain ⟨n, rfl⟩ : ∃ m, n = m + 1 := ⟨n - 1, by omega⟩
  have hx := h x List.mem_cons_self
  rw [List.length_append] at hn
  induction xs generalizing x n acc with
  | nil =>
    obtain ⟨v, hs, hv⟩ := hx (ends_cons (Or.inr (Or.inl rfl)) : Ends (']' :: rest))
      (by omega : (jsonText x).length < n)
    exact ⟨[v], .cons hs .nil, elements_end hv⟩
  | cons y xs ih =>
    have hlen : (moreText (y :: xs)).length = (jsonText y).length + (moreText xs).length + 2 := by
      simp [moreText]
    have htext : moreText (y :: xs) ++ ']' :: rest =
        ',' :: ' ' :: (jsonText y ++ (moreText xs ++ ']' :: rest)) := by
      simp [moreText]
    obtain ⟨v, hs, hv⟩ := hx (ends_cons (Or.inl rfl) :
        Ends (',' :: ' ' :: (jsonText y ++ (moreText xs ++ ']' :: rest))))
      (by omega : (jsonText x).length < n)
    obtain ⟨n, rfl⟩ : ∃ m, n = m + 1 := ⟨n - 1, by omega⟩
    have h' := fun z hz => h z (List.mem_cons_of_mem _ hz)
    obtain ⟨ys, hys, hread⟩ := ih h' n (by omega) (h' y List.mem_cons_self)
    refine ⟨v :: ys, .cons hs hys, ?_⟩
    rw [htext, elements_comma hv (skipWs_jsonText y _), hread, List.append_assoc,
      List.singleton_append]

theorem value_array (x : PyVal) (n : ℕ) (cs : List Char) :
    value (n + 1) ('[' :: (jsonText x ++ cs)) =
      (elements n [] (jsonText x ++ cs)).map fun p => (.list p.1, p.2) := by
  obtain ⟨c, t, ht, hc⟩ := jsonText_head x
  have hne : c ≠ ']' := fun h => hc (by simp [h])
  rw [value, skipWs_jsonText, ht]
  simp [hne]

theorem written_list {xs : List PyVal} (h : ∀ x ∈ xs, Written x) : Written (.list xs) := by
  intro n rest _ hn
  obtain ⟨n, rfl⟩ : ∃ m, n = m + 1 := ⟨n - 1, by omega⟩
  cases xs with
  | nil =>
    refine ⟨.list [], .list .nil, ?_⟩
    rw [jsonText_nil]
    rfl
  | cons x xs =>
    rw [jsonText_cons] at hn ⊢
    simp only [List.length_cons, List.length_append, List.length_nil] at hn
    obtain ⟨ys, hys, hread⟩ := elements_jsonText h (n := n)
      (by rw [List.length_append]; omega)
    refine ⟨.list ys, .list hys, ?_⟩
    have htext : '[' :: (jsonText x ++ (moreText xs ++ [']'])) ++ rest =
        '[' :: (jsonText x ++ (moreText xs ++ ']' :: rest)) := by simp
    rw [htext, value_array, hread]
    rfl

/-! ## Dictionaries -/

theorem dumpsFields_eq (kvs : List (String × PyVal)) :
    dumpsFields kvs = kvs.map fun p => quote p.1 ++ ": " ++ dumps p.2 := by
  induction kvs with
  | nil => rfl
  | cons p kvs ih => rw [dumpsFields, ih, List.map_cons]

/-- The text of an item. -/
def memberText (p : String × PyVal) : List Char := (quote p.1).toList ++ ':' :: ' ' :: jsonText p.2

/-- The texts of further items. -/
def moreMembers (kvs : List (String × PyVal)) : List Char :=
  kvs.flatMap fun p => ',' :: ' ' :: memberText p

theorem jsonText_dict_nil : jsonText (.dict []) = ['\x7b', '\x7d'] := by
  simp [jsonText, dumps, dumpsFields]

theorem jsonText_dict_cons (p : String × PyVal) (kvs : List (String × PyVal)) :
    jsonText (.dict (p :: kvs)) = '\x7b' :: (memberText p ++ (moreMembers kvs ++ ['\x7d'])) := by
  rw [jsonText, dumps, dumpsFields_eq, List.map_cons, String.toList_append, String.toList_append,
    toList_intercalate_cons, List.flatMap_map, List.append_assoc]
  simp [moreMembers, memberText, jsonText]

theorem skipWs_memberText (p : String × PyVal) (cs : List Char) :
    skipWs (memberText p ++ cs) = memberText p ++ cs := by
  rw [memberText, toList_quote]
  exact skipWs_opens (by decide) _

/-- **One item is read back**, up to what follows it. -/
theorem members_memberText (p : String × PyVal) (n : ℕ) (acc : Dict String PyVal) (cs : List Char) :
    members (n + 1) acc (memberText p ++ cs) =
      (value n (jsonText p.2 ++ cs)).bind (afterMember n acc p.1) := by
  have htext : memberText p ++ cs =
      '"' :: (escaped p.1.toList ++ '"' :: (':' :: ' ' :: (jsonText p.2 ++ cs))) := by
    simp [memberText, toList_quote]
  have hskip : skipWs (' ' :: (jsonText p.2 ++ cs)) = jsonText p.2 ++ cs :=
    (skipWs_space _).trans (skipWs_jsonText p.2 cs)
  rw [htext, members, stringBody_quote]
  show (value n (skipWs (' ' :: (jsonText p.2 ++ cs)))).bind (afterMember n acc p.1) = _
  rw [hskip]

/-- **The items are read back.** -/
theorem members_jsonText {p : String × PyVal} {kvs : List (String × PyVal)}
    (h : ∀ q ∈ p :: kvs, Written q.2) {n : ℕ} {acc : Dict String PyVal} {rest : List Char}
    (hkeys : (acc.map Prod.fst ++ (p :: kvs).map Prod.fst).Nodup)
    (hn : (memberText p ++ moreMembers kvs).length + 1 < n) :
    ∃ ys : List (String × PyVal), ys.map Prod.fst = (p :: kvs).map Prod.fst ∧
      List.Forall₂ (fun a b => PyVal.Same a.2 b.2) ys (p :: kvs) ∧
      members n acc (memberText p ++ (moreMembers kvs ++ '\x7d' :: rest)) =
        some (acc ++ ys, rest) := by
  obtain ⟨n, rfl⟩ : ∃ m, n = m + 1 := ⟨n - 1, by omega⟩
  have hp := h p List.mem_cons_self
  rw [List.length_append] at hn
  have hlt : (jsonText p.2).length < (memberText p).length := by
    rw [memberText, List.length_append, List.length_cons, List.length_cons]
    omega
  have hnew : p.1 ∉ acc.map Prod.fst := fun hmem =>
    (List.nodup_append.mp hkeys).2.2 _ hmem _ List.mem_cons_self rfl
  induction kvs generalizing p n acc with
  | nil =>
    obtain ⟨v, hs, hv⟩ := hp (ends_cons (Or.inr (Or.inr rfl)) : Ends ('\x7d' :: rest))
      (by omega : (jsonText p.2).length < n)
    refine ⟨[(p.1, v)], rfl, .cons hs .nil, ?_⟩
    show members (n + 1) acc (memberText p ++ '\x7d' :: rest) = _
    rw [members_memberText, hv, ← Dict.set_of_not_mem hnew]
    rfl
  | cons p' kvs ih =>
    have hlen : (moreMembers (p' :: kvs)).length =
        (memberText p').length + (moreMembers kvs).length + 2 := by
      simp [moreMembers]
    have htext : moreMembers (p' :: kvs) ++ '\x7d' :: rest =
        ',' :: ' ' :: (memberText p' ++ (moreMembers kvs ++ '\x7d' :: rest)) := by
      simp [moreMembers]
    obtain ⟨v, hs, hv⟩ := hp (ends_cons (Or.inl rfl) :
        Ends (',' :: ' ' :: (memberText p' ++ (moreMembers kvs ++ '\x7d' :: rest))))
      (by omega : (jsonText p.2).length < n)
    obtain ⟨n, rfl⟩ : ∃ m, n = m + 1 := ⟨n - 1, by omega⟩
    have hkeys' : ((acc ++ [(p.1, v)]).map Prod.fst ++ (p' :: kvs).map Prod.fst).Nodup := by
      simpa using hkeys
    have h' := fun z hz => h z (List.mem_cons_of_mem _ hz)
    have hlt' : (jsonText p'.2).length < (memberText p').length := by
      rw [memberText, List.length_append, List.length_cons, List.length_cons]
      omega
    obtain ⟨ys, hmap, hys, hread⟩ := ih h' hkeys' n (by omega) (h' p' List.mem_cons_self) hlt'
      fun hmem => (List.nodup_append.mp hkeys').2.2 _ hmem _ List.mem_cons_self rfl
    refine ⟨(p.1, v) :: ys, ?_, .cons hs hys, ?_⟩
    · rw [List.map_cons, hmap]
      rfl
    · rw [htext, members_memberText, hv]
      show members (n + 1) (Dict.set p.1 v acc) (skipWs (' ' :: (memberText p' ++ _))) = _
      rw [skipWs_space, skipWs_memberText, Dict.set_of_not_mem hnew, hread, List.append_assoc,
        List.singleton_append]

theorem value_object (p : String × PyVal) (n : ℕ) (cs : List Char) :
    value (n + 1) ('\x7b' :: (memberText p ++ cs)) =
      (members n [] (memberText p ++ cs)).map fun q => (.dict q.1, q.2) := by
  rw [value, skipWs_memberText, memberText, toList_quote]
  simp

theorem written_dict {kvs : List (String × PyVal)} (hkeys : (kvs.map Prod.fst).Nodup)
    (h : ∀ p ∈ kvs, Written p.2) : Written (.dict kvs) := by
  intro n rest _ hn
  obtain ⟨n, rfl⟩ : ∃ m, n = m + 1 := ⟨n - 1, by omega⟩
  cases kvs with
  | nil =>
    refine ⟨.dict [], .dict rfl .nil, ?_⟩
    rw [jsonText_dict_nil]
    rfl
  | cons p kvs =>
    rw [jsonText_dict_cons] at hn ⊢
    simp only [List.length_cons, List.length_append, List.length_nil] at hn
    have hkeys' : (([] : Dict String PyVal).map Prod.fst ++ (p :: kvs).map Prod.fst).Nodup := hkeys
    obtain ⟨ys, hmap, hys, hread⟩ := members_jsonText h (n := n) hkeys'
      (by rw [List.length_append]; omega)
    refine ⟨.dict ys, .dict hmap hys, ?_⟩
    have htext : '\x7b' :: (memberText p ++ (moreMembers kvs ++ ['\x7d'])) ++ rest =
        '\x7b' :: (memberText p ++ (moreMembers kvs ++ '\x7d' :: rest)) := by simp
    rw [htext, value_object, hread]
    rfl

/-! ## Whole texts -/

theorem written {v : PyVal} (hv : v.DistinctKeys) : Written v := by
  induction v using PyVal.induct with
  | none => exact written_none
  | bool b => exact written_bool b
  | int i => exact written_int i
  | float f => exact written_float f
  | str s => exact written_str s
  | list xs ih =>
    cases hv with
    | list h => exact written_list fun x hx => ih x hx (h x hx)
  | dict kvs ih =>
    cases hv with
    | dict hkeys h => exact written_dict hkeys fun p hp => ih p hp (h p hp)

/-- **`loads` reads what `dumps` writes.** -/
theorem loads_dumps {v : PyVal} (hv : v.DistinctKeys) :
    ∃ w, loads (dumps v) = some w ∧ w.Same v := by
  have hskip : skipWs (jsonText v) = jsonText v := by
    have h := skipWs_jsonText v []
    rwa [List.append_nil] at h
  obtain ⟨w, hs, hread⟩ := written hv ends_nil (Nat.lt_succ_self (jsonText v).length)
  rw [List.append_nil] at hread
  refine ⟨w, ?_, hs⟩
  show (value ((jsonText v).length + 1) (skipWs (jsonText v))).bind _ = _
  rw [hskip, hread]
  rfl

/-! ## Keys -/

/-- A number is an integer or a float. -/
theorem number_distinct {neg : Bool} {cs : List Char} {p : PyVal × List Char}
    (h : number neg cs = some p) : p.1.DistinctKeys := by
  unfold number at h
  dsimp only at h
  split_ifs at h <;> obtain rfl := Option.some.inj h
  all_goals first | exact .int _ | exact .float _

theorem word_distinct {w : String} {v : PyVal} (hv : v.DistinctKeys) {cs : List Char}
    {p : PyVal × List Char} (h : word w v cs = some p) : p.1.DistinctKeys := by
  unfold word at h
  split_ifs at h
  obtain rfl := Option.some.inj h
  exact hv

/-- What the reader returns with this much fuel. -/
structure ReadsDistinct (n : ℕ) : Prop where
  value : ∀ {cs p}, value n cs = some p → p.1.DistinctKeys
  elements : ∀ {acc cs p}, (∀ x ∈ acc, PyVal.DistinctKeys x) → elements n acc cs = some p →
    ∀ x ∈ p.1, x.DistinctKeys
  members : ∀ {acc cs p}, (acc.map Prod.fst).Nodup → (∀ q ∈ acc, PyVal.DistinctKeys q.2) →
    members n acc cs = some p → (p.1.map Prod.fst).Nodup ∧ ∀ q ∈ p.1, PyVal.DistinctKeys q.2

theorem readsDistinct (n : ℕ) : ReadsDistinct n := by
  induction n with
  | zero => exact ⟨nofun, fun _ => nofun, fun _ _ => nofun⟩
  | succ n ih =>
    refine ⟨fun {cs p} h => ?_, fun {acc cs p} hacc h => ?_, fun {acc cs p} hkeys hacc h => ?_⟩
    · rw [value.eq_def] at h
      dsimp only at h
      split at h
      · obtain ⟨q, hq, rfl⟩ := Option.map_eq_some_iff.mp h
        exact .str _
      · split at h
        · obtain rfl := Option.some.inj h
          exact .list (List.forall_mem_nil _)
        · obtain ⟨q, hq, rfl⟩ := Option.map_eq_some_iff.mp h
          exact .list (ih.elements (List.forall_mem_nil _) hq)
      · split at h
        · obtain rfl := Option.some.inj h
          exact .dict List.nodup_nil (List.forall_mem_nil _)
        · obtain ⟨q, hq, rfl⟩ := Option.map_eq_some_iff.mp h
          have hnil : (([] : Dict String PyVal).map Prod.fst).Nodup := List.nodup_nil
          obtain ⟨hkeys, hvals⟩ := ih.members hnil (List.forall_mem_nil _) hq
          exact .dict hkeys hvals
      · exact word_distinct .none h
      · exact word_distinct (.bool _) h
      · exact word_distinct (.bool _) h
      · exact word_distinct (.float _) h
      · exact word_distinct (.float _) h
      · exact word_distinct (.float _) h
      · exact number_distinct h
      · exact number_distinct h
    · rw [elements.eq_def] at h
      dsimp only at h
      obtain ⟨⟨v, r⟩, hv, h⟩ := Option.bind_eq_some_iff.mp h
      have hnew : ∀ x ∈ acc ++ [v], x.DistinctKeys := fun x hx =>
        (List.mem_append.mp hx).elim (hacc x) fun hx => List.mem_singleton.mp hx ▸ ih.value hv
      dsimp only at h
      split at h
      · exact ih.elements hnew h
      · obtain rfl := Option.some.inj h
        exact hnew
      · cases h
    · rw [members.eq_def] at h
      dsimp only at h
      split at h
      · obtain ⟨⟨k, r⟩, hk, h⟩ := Option.bind_eq_some_iff.mp h
        dsimp only at h
        split at h
        · obtain ⟨⟨v, r'⟩, hv, h⟩ := Option.bind_eq_some_iff.mp h
          have hnew : ∀ q ∈ Dict.set k v acc, PyVal.DistinctKeys q.2 := fun q hq =>
            (Dict.mem_set hq).elim (fun hq => hq ▸ ih.value hv) (hacc q)
          dsimp only at h
          split at h
          · exact ih.members (Dict.nodup_set hkeys k v) hnew h
          · obtain rfl := Option.some.inj h
            exact ⟨Dict.nodup_set hkeys k v, hnew⟩
          · cases h
        · cases h
      · cases h

/-- **In what `loads` reads, every key is distinct.** -/
theorem distinctKeys_of_loads {text : String} {v : PyVal} (h : loads text = some v) :
    v.DistinctKeys := by
  unfold loads at h
  obtain ⟨⟨w, rest⟩, hw, h⟩ := Option.bind_eq_some_iff.mp h
  dsimp only at h
  split_ifs at h
  obtain rfl := Option.some.inj h
  exact (readsDistinct _).value hw

end Json

end ScoutEngine
