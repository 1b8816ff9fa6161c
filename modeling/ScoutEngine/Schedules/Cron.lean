import ScoutEngine.Lib.Dict
import ScoutEngine.Value

/-!
# Cron expressions

`parse_cron_expression`, and what its weekday field means to cron and to the trigger it is handed to.

* `parseCronExpression`: the fields by name.
* `Weekday`, `WeekdayItem`, `parseWeekdays`: a weekday field as crontab(5) has it, with ranges of
  names besides. `WeekdayItem.means`: its days.
* `CountsFromMonday`: how `CronTrigger` reads an item. The class is not part of the repository; it
  is a parameter, and refuses what it likes.
* **`weekdays_iff`**: when the trigger fires on the days that the expression means.
-/

set_option autoImplicit false

namespace ScoutEngine

/-! ## Fields -/

section Fields

variable [PyText]

/-- `str.split()`, with the part read so far. -/
def splitSpace : List Char → List Char → List String
  | acc, [] => if acc = [] then [] else [String.ofList acc.reverse]
  | acc, c :: cs =>
    if PyText.isSpace c then
      if acc = [] then splitSpace [] cs else String.ofList acc.reverse :: splitSpace [] cs
    else splitSpace (c :: acc) cs

/-- `expression.strip().split()`. -/
def cronParts (expression : String) : List String := splitSpace [] (strip expression).toList

/-- `parse_cron_expression`. -/
def parseCronExpression (expression : String) : Except PyExc (Dict String String) :=
  match cronParts expression with
  | [minute, hour, day, month, dayOfWeek] =>
    .ok [("minute", minute), ("hour", hour), ("day", day), ("month", month),
      ("day_of_week", dayOfWeek)]
  | [second, minute, hour, day, month, dayOfWeek] =>
    .ok [("second", second), ("minute", minute), ("hour", hour), ("day", day), ("month", month),
      ("day_of_week", dayOfWeek)]
  | parts =>
    .error ⟨.valueError, "Invalid cron expression (expected 5 or 6 fields, got " ++
      toString parts.length ++ "): " ++ expression⟩

theorem parseCronExpression_parts {expression text : String} {before : List String}
    (hparts : cronParts expression = before ++ [text])
    (hlen : before.length = 4 ∨ before.length = 5) :
    ∃ fields, parseCronExpression expression = .ok fields ∧
      Dict.get "day_of_week" fields = some text := by
  unfold parseCronExpression
  rw [hparts]
  match before, hlen with
  | [_, _, _, _], _ => exact ⟨_, rfl, rfl⟩
  | [_, _, _, _, _], _ => exact ⟨_, rfl, rfl⟩

end Fields

/-! ## Weekdays -/

inductive Weekday where
  | sun | mon | tue | wed | thu | fri | sat
  deriving DecidableEq

namespace Weekday

/-- The number of the day in cron. -/
def fromSunday : Weekday → ℕ
  | sun => 0 | mon => 1 | tue => 2 | wed => 3 | thu => 4 | fri => 5 | sat => 6

/-- The number of the day in APScheduler. -/
def fromMonday : Weekday → ℕ
  | mon => 0 | tue => 1 | wed => 2 | thu => 3 | fri => 4 | sat => 5 | sun => 6

def yesterday : Weekday → Weekday
  | sun => sat | mon => sun | tue => mon | wed => tue | thu => wed | fri => thu | sat => fri

/-- The day with a name of three letters, in any case. -/
def ofName (text : String) : Option Weekday :=
  match String.ofList (text.toList.map Char.toLower) with
  | "sun" => some sun
  | "mon" => some mon
  | "tue" => some tue
  | "wed" => some wed
  | "thu" => some thu
  | "fri" => some fri
  | "sat" => some sat
  | _ => none

theorem fromSunday_yesterday (d : Weekday) : d.yesterday.fromSunday = d.fromMonday := by
  cases d <;> rfl

theorem fromMonday_le (d : Weekday) : d.fromMonday ≤ 6 := by
  cases d <;> decide

theorem fromMonday_lt {d : Weekday} (h : d ≠ sun) : d.fromMonday < 6 := by
  cases d <;> first | decide | exact absurd rfl h

theorem fromSunday_of_ne {d : Weekday} (h : d ≠ sun) : d.fromSunday = d.fromMonday + 1 := by
  cases d <;> first | rfl | exact absurd rfl h

end Weekday

/-! ## The weekday field of cron -/

/-- An item of a weekday field. A single number or name is a range. -/
inductive WeekdayItem where
  | all
  | every (step : ℕ) (hstep : 0 < step)
  | numbers (first last step : ℕ) (hrange : first ≤ last) (hlast : last ≤ 7) (hstep : 0 < step)
  | names (first last : Weekday) (step : ℕ) (hrange : first.fromSunday ≤ last.fromSunday)
    (hstep : 0 < step)
  deriving DecidableEq

/-- A number in decimal. -/
def natOf (text : String) : Option ℕ :=
  if text.toList ≠ [] ∧ text.toList.all Char.isDigit then
    some (text.toList.foldl (fun n c => 10 * n + (c.toNat - 48)) 0)
  else none

/-- A range of numbers or of names. -/
def rangeOf (first last : String) (step : ℕ) (hstep : 0 < step) : Option WeekdayItem :=
  match natOf first, natOf last with
  | some lo, some hi =>
    if h : lo ≤ hi ∧ hi ≤ 7 then some (.numbers lo hi step h.1 h.2 hstep) else none
  | none, none =>
    match Weekday.ofName first, Weekday.ofName last with
    | some a, some b =>
      if h : a.fromSunday ≤ b.fromSunday then some (.names a b step h hstep) else none
    | _, _ => none
  | _, _ => none

def parseItem (text : String) : Option WeekdayItem :=
  match splitStr "/" text with
  | [base] =>
    if base = "*" then some .all
    else
      match splitStr "-" base with
      | [value] => rangeOf value value 1 Nat.one_pos
      | [first, last] => rangeOf first last 1 Nat.one_pos
      | _ => none
  | [base, step] =>
    match natOf step with
    | some n =>
      if h : 0 < n then
        if base = "*" then some (.every n h)
        else
          match splitStr "-" base with
          | [first, last] => rangeOf first last n h
          | _ => none
      else none
    | none => none
  | _ => none

/-- **A weekday field of cron**, or nothing for a text that is none. -/
def parseWeekdays (text : String) : Option (List WeekdayItem) := (splitStr "," text).mapM parseItem

/-- Every `step`-th number of a range. -/
def hits (first last step : ℕ) : List ℕ :=
  (List.range (last + 1)).filter fun n => first ≤ n ∧ step ∣ n - first

theorem mem_hits {first last step n : ℕ} :
    n ∈ hits first last step ↔ first ≤ n ∧ n ≤ last ∧ step ∣ n - first := by
  simp only [hits, List.mem_filter, List.mem_range, decide_eq_true_eq]
  omega

namespace WeekdayItem

/-- What an item means in cron, where `0` and `7` are Sunday. -/
def means : WeekdayItem → Weekday → Bool
  | all, _ => true
  | every step _, d => d.fromSunday ∈ hits 0 6 step
  | numbers first last step .., d => d.fromSunday ∈ (hits first last step).map (· % 7)
  | names first last step .., d => d.fromSunday ∈ hits first.fromSunday last.fromSunday step

/-- The days of a range of names that its step leaves out. -/
def passesOver : WeekdayItem → Weekday → Bool
  | all, _ | every .., _ | numbers .., _ => false
  | names first last step .., d => d.fromSunday ∈ hits first.fromSunday last.fromSunday 1 ∧
      d.fromSunday ∉ hits first.fromSunday last.fromSunday step

/-- The item contains no number of a day. -/
def byName : WeekdayItem → Bool
  | all | names .. => true
  | every .. | numbers .. => false

end WeekdayItem

/-- **The days that a field means.** -/
def FieldMeans (items : List WeekdayItem) (d : Weekday) : Prop := ∃ i ∈ items, i.means d = true

instance (items : List WeekdayItem) (d : Weekday) : Decidable (FieldMeans items d) :=
  inferInstanceAs (Decidable (∃ i ∈ items, _))

/-- The days that a field gives by name. -/
def Named (items : List WeekdayItem) (d : Weekday) : Prop :=
  ∃ i ∈ items, i.byName = true ∧ i.means d = true

/-- The days that a step in a range of names leaves out. -/
def PassedOver (items : List WeekdayItem) (d : Weekday) : Prop :=
  ∃ i ∈ items, i.passesOver d = true

/-- The days that a field gives by number. -/
def Numbered (items : List WeekdayItem) (d : Weekday) : Prop :=
  ∃ i ∈ items, i.byName = false ∧ i.means d = true

theorem fieldMeans_iff (items : List WeekdayItem) (d : Weekday) :
    FieldMeans items d ↔ Named items d ∨ Numbered items d := by
  constructor
  · rintro ⟨i, hi, hd⟩
    cases hb : i.byName with
    | true => exact Or.inl ⟨i, hi, hb, hd⟩
    | false => exact Or.inr ⟨i, hi, hb, hd⟩
  · rintro (⟨i, hi, -, hd⟩ | ⟨i, hi, -, hd⟩) <;> exact ⟨i, hi, hd⟩

/-! ## The trigger -/

/-- **How `CronTrigger` reads an item that it does not refuse**: its numbers go from `0`, Monday, to
`6`, Sunday, a range must not go backwards, and names mean themselves. A range of names has no step;
one that stands behind it is dropped. -/
structure CountsFromMonday (reads : WeekdayItem → Option (Weekday → Bool)) : Prop where
  all : ∀ days d, reads .all = some days → days d = true
  every : ∀ step hstep days d, reads (.every step hstep) = some days →
    (days d = true ↔ d.fromMonday ∈ hits 0 6 step)
  numbers : ∀ first last step h₁ h₂ h₃ days d, reads (.numbers first last step h₁ h₂ h₃) = some days →
    last ≤ 6 ∧ (days d = true ↔ d.fromMonday ∈ hits first last step)
  names : ∀ first last step h₁ h₂ days d, reads (.names first last step h₁ h₂) = some days →
    first.fromMonday ≤ last.fromMonday ∧
      (days d = true ↔ d.fromMonday ∈ hits first.fromMonday last.fromMonday 1)

/-- The days on which a trigger with these fields fires, unless it refuses them. -/
def triggerDays (reads : WeekdayItem → Option (Weekday → Bool)) (fields : Dict String String) :
    Option (Weekday → Prop) := do
  let text ← Dict.get "day_of_week" fields
  let items ← parseWeekdays text
  if ∀ i ∈ items, (reads i).isSome then some fun d => ∃ i ∈ items, (reads i).any (· d) = true
  else none

/-- **The trigger that gets these fields fires on the days that the field means.** -/
def FiresAsMeant (reads : WeekdayItem → Option (Weekday → Bool)) (fields : Dict String String)
    (items : List WeekdayItem) : Prop :=
  ∃ days, triggerDays reads fields = some days ∧ ∀ d, days d ↔ FieldMeans items d

section Trigger

variable {reads : WeekdayItem → Option (Weekday → Bool)} {item : WeekdayItem}
  {items : List WeekdayItem} {days : Weekday → Bool}

/-- Names count from Sunday as they count from Monday, unless they start with Sunday. -/
theorem hits_names {a b d : Weekday} {step : ℕ} (hs : a.fromSunday ≤ b.fromSunday)
    (hm : a.fromMonday ≤ b.fromMonday) :
    d.fromMonday ∈ hits a.fromMonday b.fromMonday step ↔
      d.fromSunday ∈ hits a.fromSunday b.fromSunday step := by
  rw [mem_hits, mem_hits]
  by_cases ha : a = .sun
  · subst ha
    cases b
    case sun => cases d <;> simp [Weekday.fromMonday, Weekday.fromSunday]
    all_goals exact absurd hm (by decide)
  · have hb : b ≠ .sun := by
      rintro rfl
      rw [Weekday.fromSunday_of_ne ha] at hs
      exact absurd hs (Nat.not_succ_le_zero _)
    rw [Weekday.fromSunday_of_ne ha, Weekday.fromSunday_of_ne hb]
    by_cases hd : d = .sun
    · subst hd
      have hlt := Weekday.fromMonday_lt hb
      simp only [Weekday.fromMonday, Weekday.fromSunday] at hlt ⊢
      omega
    · rw [Weekday.fromSunday_of_ne hd, Nat.add_sub_add_right]
      omega

theorem mem_hits_one {first last step n : ℕ} (h : n ∈ hits first last step) :
    n ∈ hits first last 1 :=
  have hm := mem_hits.mp h
  mem_hits.mpr ⟨hm.1, hm.2.1, Nat.one_dvd _⟩

/-- **A range of names is read without its step.** -/
theorem CountsFromMonday.named (h : CountsFromMonday reads) (hr : reads item = some days)
    (hb : item.byName = true) (d : Weekday) :
    days d = true ↔ item.means d = true ∨ item.passesOver d = true := by
  cases item with
  | all => exact iff_of_true (h.all days d hr) (Or.inl rfl)
  | every | numbers => cases hb
  | names first last step hrange hstep =>
    obtain ⟨hm, hd⟩ := h.names _ _ _ _ _ days d hr
    rw [hd, hits_names hrange hm, WeekdayItem.means, WeekdayItem.passesOver, decide_eq_true_iff,
      decide_eq_true_iff]
    by_cases hmem : d.fromSunday ∈ hits first.fromSunday last.fromSunday step
    · exact iff_of_true (mem_hits_one hmem) (Or.inl hmem)
    · exact ⟨fun h => Or.inr ⟨h, hmem⟩, fun h => (h.resolve_left hmem).1⟩

theorem WeekdayItem.byName_of_passesOver {d : Weekday} (h : item.passesOver d = true) :
    item.byName = true := by
  cases item with
  | all | names => rfl
  | every | numbers => cases h

/-- **A number is one day late.** -/
theorem CountsFromMonday.numbered (h : CountsFromMonday reads) (hr : reads item = some days)
    (hb : item.byName = false) (d : Weekday) : days d = item.means d.yesterday := by
  cases item with
  | all | names => cases hb
  | every step hstep =>
    rw [Bool.eq_iff_iff, h.every _ _ days d hr, WeekdayItem.means, decide_eq_true_iff,
      Weekday.fromSunday_yesterday]
  | numbers first last step =>
    obtain ⟨hlast, hd⟩ := h.numbers _ _ _ _ _ _ days d hr
    rw [Bool.eq_iff_iff, hd, WeekdayItem.means, decide_eq_true_iff, Weekday.fromSunday_yesterday,
      List.mem_map]
    constructor
    · exact fun hmem => ⟨_, hmem, Nat.mod_eq_of_lt (Nat.lt_succ_of_le d.fromMonday_le)⟩
    · rintro ⟨n, hn, hmod⟩
      have hle : n ≤ last := (mem_hits.mp hn).2.1
      rw [Nat.mod_eq_of_lt (by omega)] at hmod
      exact hmod ▸ hn

theorem CountsFromMonday.any_iff (h : CountsFromMonday reads)
    (hacc : ∀ i ∈ items, (reads i).isSome) (d : Weekday) :
    (∃ i ∈ items, (reads i).any (· d) = true) ↔
      Named items d ∨ PassedOver items d ∨ Numbered items d.yesterday := by
  have hread : ∀ i ∈ items, ((reads i).any (· d) = true ↔
      if i.byName = true then i.means d = true ∨ i.passesOver d = true
      else i.means d.yesterday = true) := by
    intro i hi
    obtain ⟨days, hdays⟩ := Option.isSome_iff_exists.mp (hacc i hi)
    rw [hdays, Option.any_some]
    split_ifs with hb
    · exact h.named hdays hb d
    · rw [h.numbered hdays (Bool.eq_false_iff.mpr hb) d]
  constructor
  · rintro ⟨i, hi, hd⟩
    have hd := (hread i hi).mp hd
    split_ifs at hd with hb
    · exact hd.imp (fun hm => ⟨i, hi, hb, hm⟩) fun hm => Or.inl ⟨i, hi, hm⟩
    · exact Or.inr (Or.inr ⟨i, hi, Bool.eq_false_iff.mpr hb, hd⟩)
  · rintro (⟨i, hi, hb, hd⟩ | ⟨i, hi, hd⟩ | ⟨i, hi, hb, hd⟩)
    · exact ⟨i, hi, (hread i hi).mpr (by rw [if_pos hb]; exact Or.inl hd)⟩
    · have hb := WeekdayItem.byName_of_passesOver hd
      exact ⟨i, hi, (hread i hi).mpr (by rw [if_pos hb]; exact Or.inr hd)⟩
    · exact ⟨i, hi, (hread i hi).mpr (by rw [hb, if_neg Bool.false_ne_true]; exact hd)⟩

theorem triggerDays_eq {fields : Dict String String} {text : String}
    (htext : Dict.get "day_of_week" fields = some text) (hitems : parseWeekdays text = some items) :
    triggerDays reads fields = if ∀ i ∈ items, (reads i).isSome then
      some fun d => ∃ i ∈ items, (reads i).any (· d) = true else none := by
  unfold triggerDays
  rw [htext, Option.bind_eq_bind, Option.bind_some, hitems, Option.bind_eq_bind, Option.bind_some]

/-- **Main result.** The trigger fires on the days that the expression means iff it refuses no item
and every day is given by name, or given by number exactly if the day before is or a step in a range
of names leaves the day out. -/
theorem weekdays_iff [PyText] (h : CountsFromMonday reads) {expression text : String}
    {before : List String} (hparts : cronParts expression = before ++ [text])
    (hlen : before.length = 4 ∨ before.length = 5) (hitems : parseWeekdays text = some items) :
    ∃ fields, parseCronExpression expression = .ok fields ∧
      (FiresAsMeant reads fields items ↔ (∀ i ∈ items, (reads i).isSome) ∧
        ∀ d, Named items d ∨
          (Numbered items d ↔ PassedOver items d ∨ Numbered items d.yesterday)) := by
  obtain ⟨fields, hfields, htext⟩ := parseCronExpression_parts hparts hlen
  refine ⟨fields, hfields, ?_⟩
  unfold FiresAsMeant
  rw [triggerDays_eq htext hitems]
  split_ifs with hacc
  · have hdays : ∀ d, ((∃ i ∈ items, (reads i).any (· d) = true) ↔ FieldMeans items d) ↔
        (Named items d ∨
          (Numbered items d ↔ PassedOver items d ∨ Numbered items d.yesterday)) := by
      intro d
      rw [h.any_iff hacc, fieldMeans_iff]
      by_cases hn : Named items d
      · simp [hn]
      · simpa [hn] using Iff.comm
    constructor
    · rintro ⟨days, heq, hd⟩
      obtain rfl := Option.some.inj heq
      exact ⟨hacc, fun d => (hdays d).mp (hd d)⟩
    · exact fun hd => ⟨_, rfl, fun d => (hdays d).mpr (hd.2 d)⟩
  · constructor
    · rintro ⟨_, hnone, -⟩
      cases hnone
    · exact fun hd => absurd hd.1 hacc

end Trigger

/-! ## Weekdays at eight -/

section Example

attribute [local instance] asciiText

/-- APScheduler refuses a range that goes backwards or leaves the week, and a step that is longer
than its range of numbers; it drops the step of a range of names. -/
def apschedulerReads : WeekdayItem → Option (Weekday → Bool)
  | .all => some fun _ => true
  | .every step _ => if step ≤ 6 then some fun d => d.fromMonday ∈ hits 0 6 step else none
  | .numbers first last step .. =>
    if last ≤ 6 ∧ (step = 1 ∨ step ≤ last - first) then
      some fun d => d.fromMonday ∈ hits first last step
    else none
  | .names first last _ .. =>
    if first.fromMonday ≤ last.fromMonday then
      some fun d => d.fromMonday ∈ hits first.fromMonday last.fromMonday 1
    else none

theorem countsFromMonday_apscheduler : CountsFromMonday apschedulerReads := by
  refine ⟨fun days d hr => ?_, fun step _ days d hr => ?_, fun first last step _ _ _ days d hr => ?_,
    fun first last step _ _ days d hr => ?_⟩
  · obtain rfl := Option.some.inj hr
    rfl
  · simp only [apschedulerReads] at hr
    split_ifs at hr
    obtain rfl := Option.some.inj hr
    exact decide_eq_true_iff
  · simp only [apschedulerReads] at hr
    split_ifs at hr with hc
    obtain rfl := Option.some.inj hr
    exact ⟨hc.1, decide_eq_true_iff⟩
  · simp only [apschedulerReads] at hr
    split_ifs at hr with hc
    obtain rfl := Option.some.inj hr
    exact ⟨hc, decide_eq_true_iff⟩

theorem weekdays_iff_named : ∃ items fields, parseWeekdays "MON-FRI" = some items ∧
    parseCronExpression "0 9 * * MON-FRI" = .ok fields ∧
      (FiresAsMeant apschedulerReads fields items ↔ (∀ i ∈ items, (apschedulerReads i).isSome) ∧
        ∀ d, Named items d ∨
          (Numbered items d ↔ PassedOver items d ∨ Numbered items d.yesterday)) := by
  have hitems : parseWeekdays "MON-FRI" = some _ := rfl
  have hparts : cronParts "0 9 * * MON-FRI" = ["0", "9", "*", "*"] ++ ["MON-FRI"] := by decide +kernel
  obtain ⟨fields, hfields, hiff⟩ :=
    weekdays_iff countsFromMonday_apscheduler hparts (Or.inl rfl) hitems
  exact ⟨_, fields, hitems, hfields, hiff⟩

/-- **`1-5` fires from Tuesday to Saturday.** -/
theorem weekdays_shifted : ∃ items fields days, parseWeekdays "1-5" = some items ∧
    parseCronExpression "0 8 * * 1-5" = .ok fields ∧
      triggerDays apschedulerReads fields = some days ∧
      (FieldMeans items .mon ∧ ¬ days .mon) ∧ days .sat ∧ ¬ FieldMeans items .sat := by
  have hitems : parseWeekdays "1-5" =
      some [.numbers 1 5 1 (by decide) (by decide) Nat.one_pos] := by decide +kernel
  have hfields : parseCronExpression "0 8 * * 1-5" = .ok [("minute", "0"), ("hour", "8"),
      ("day", "*"), ("month", "*"), ("day_of_week", "1-5")] := by decide +kernel
  have hacc : ∀ i ∈ [WeekdayItem.numbers 1 5 1 (by decide) (by decide) Nat.one_pos],
      (apschedulerReads i).isSome := by decide
  have hget : Dict.get "day_of_week" [("minute", "0"), ("hour", "8"), ("day", "*"), ("month", "*"),
      ("day_of_week", "1-5")] = some "1-5" := rfl
  have hdays : triggerDays apschedulerReads _ = _ := triggerDays_eq hget hitems
  rw [if_pos hacc] at hdays
  refine ⟨_, _, _, hitems, hfields, hdays, ⟨?_, ?_⟩, ?_, ?_⟩
  · decide
  · decide
  · decide
  · decide

end Example

end ScoutEngine
