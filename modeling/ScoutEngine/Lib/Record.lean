import ScoutEngine.Lib.Dict
import Mathlib.Logic.Equiv.Defs

/-!
# Records in documents

A record type is described by the names, types and defaults of its fields. The description reads a
record from a document and writes it to one, and what is written is read back.

* `Document`: documents made of null, lists and dictionaries, with a property `In` of what is read
  and a property `Out` of what is written.
* `FieldType`: a type of values with its reader and its writer; `via`, `optional`, `listOf`,
  `mapOf`.
* `Fields`: the fields of a record; `Reads`, **`Fields.read_iff`**; **`Fields.read_write`**.
* `Model`, `Model.type`: a record, with or without other keys.
-/

set_option autoImplicit false

namespace Record

/-- **Documents.** -/
class Document (V : Type) where
  null : V
  list : List V → V
  dict : Dict String V → V
  isNull : V → Bool
  asList : V → Option (List V)
  asDict : V → Option (Dict String V)
  /-- What holds of a document that is read. -/
  In : V → Prop
  /-- What is said of a document that is written. -/
  Out : V → Prop
  isNull_null : isNull null = true
  isNull_list : ∀ vs, isNull (list vs) = false
  isNull_dict : ∀ d, isNull (dict d) = false
  asList_list : ∀ vs, asList (list vs) = some vs
  asDict_dict : ∀ d, asDict (dict d) = some d
  in_list : ∀ {v vs}, In v → asList v = some vs → ∀ w ∈ vs, In w
  in_dict : ∀ {v d}, In v → asDict v = some d → (d.map Prod.fst).Nodup ∧ ∀ p ∈ d, In p.2
  out_null : Out null
  out_list : ∀ {vs : List V}, (∀ w ∈ vs, Out w) → Out (list vs)
  out_dict : ∀ {d : Dict String V}, (d.map Prod.fst).Nodup → (∀ p ∈ d, Out p.2) → Out (dict d)

open Document

variable {V : Type} [Document V]

/-! ## Types -/

/-- **A type of fields**: how a value is read and written. -/
structure FieldType (V α : Type) [Document V] where
  read : V → Option α
  write : α → V
  read_write : ∀ a, read (write a) = some a
  out : ∀ {v a}, In v → read v = some a → Out (write a)

namespace FieldType

variable {α β : Type}

/-- The values of a type that stand for those of another one. -/
def via (t : FieldType V α) (f : α → Option β) (g : β → α) (hfg : ∀ b, f (g b) = some b)
    (hgf : ∀ {a b}, f a = some b → g b = a) : FieldType V β where
  read v := (t.read v).bind f
  write b := t.write (g b)
  read_write b := by rw [t.read_write]; exact hfg b
  out hv h := by
    obtain ⟨a, ha, hb⟩ := Option.bind_eq_some_iff.mp h
    rw [hgf hb]
    exact t.out hv ha

/-- A value or null. -/
def optional (t : FieldType V α) (ht : ∀ a, isNull (t.write a) = false) :
    FieldType V (Option α) where
  read v := if isNull v then some none else (t.read v).map some
  write
    | none => null
    | some a => t.write a
  read_write a := by
    cases a with
    | none => exact if_pos isNull_null
    | some a =>
      rw [ht, t.read_write]
      rfl
  out hv h := by
    split_ifs at h with hnull
    · obtain rfl := Option.some.inj h
      exact out_null
    · obtain ⟨a, ha, rfl⟩ := Option.map_eq_some_iff.mp h
      exact t.out hv ha

theorem mapM_write (t : FieldType V α) (as : List α) : (as.map t.write).mapM t.read = some as := by
  induction as with
  | nil => rfl
  | cons a as ih => simp [t.read_write, ih]

theorem out_of_mapM (t : FieldType V α) {vs : List V} {as : List α} (hvs : ∀ v ∈ vs, In v)
    (h : vs.mapM t.read = some as) : ∀ w ∈ as.map t.write, Out w := by
  induction vs generalizing as with
  | nil =>
    obtain rfl : [] = as := Option.some.inj h
    exact fun w hw => absurd hw List.not_mem_nil
  | cons v vs ih =>
    rw [List.forall_mem_cons] at hvs
    rw [List.mapM_cons] at h
    obtain ⟨a, ha, h⟩ := Option.bind_eq_some_iff.mp h
    obtain ⟨as, has, h⟩ := Option.bind_eq_some_iff.mp h
    obtain rfl := Option.some.inj h
    exact List.forall_mem_cons.mpr ⟨t.out hvs.1 ha, ih hvs.2 has⟩

/-- A list of values. -/
def listOf (t : FieldType V α) : FieldType V (List α) where
  read v := (asList v).bind fun vs => vs.mapM t.read
  write as := list (as.map t.write)
  read_write as := by rw [asList_list]; exact t.mapM_write as
  out hv h := by
    obtain ⟨vs, hvs, h⟩ := Option.bind_eq_some_iff.mp h
    exact out_list (t.out_of_mapM (in_list hv hvs) h)

/-- An item of a dictionary. -/
def readItem (t : FieldType V α) (p : String × V) : Option (String × α) :=
  (t.read p.2).map fun a => (p.1, a)

def writeItem (t : FieldType V α) (p : String × α) : String × V := (p.1, t.write p.2)

theorem mapM_writeItem (t : FieldType V α) (d : Dict String α) :
    (d.map t.writeItem).mapM t.readItem = some d := by
  induction d with
  | nil => rfl
  | cons p d ih => simp [readItem, writeItem, t.read_write] at ih ⊢; simp [ih]

/-- What is read from items: the same keys, and values that are written again. -/
theorem of_mapM_readItem (t : FieldType V α) {d : Dict String V} {e : Dict String α}
    (hd : ∀ p ∈ d, In p.2) (h : d.mapM t.readItem = some e) :
    (e.map t.writeItem).map Prod.fst = d.map Prod.fst ∧ ∀ p ∈ e.map t.writeItem, Out p.2 := by
  induction d generalizing e with
  | nil =>
    obtain rfl : [] = e := Option.some.inj h
    exact ⟨rfl, fun w hw => absurd hw List.not_mem_nil⟩
  | cons p d ih =>
    rw [List.forall_mem_cons] at hd
    rw [List.mapM_cons] at h
    obtain ⟨q, hq, h⟩ := Option.bind_eq_some_iff.mp h
    obtain ⟨e, he, h⟩ := Option.bind_eq_some_iff.mp h
    obtain rfl := Option.some.inj h
    obtain ⟨a, ha, rfl⟩ := Option.map_eq_some_iff.mp hq
    obtain ⟨hkeys, hout⟩ := ih hd.2 he
    refine ⟨?_, List.forall_mem_cons.mpr ⟨t.out hd.1 ha, hout⟩⟩
    rw [List.map_cons, List.map_cons, hkeys]
    rfl

/-- A dictionary of values. -/
def mapOf (t : FieldType V α) : FieldType V (Dict String α) where
  read v := (asDict v).bind fun d => d.mapM t.readItem
  write d := dict (d.map t.writeItem)
  read_write d := by rw [asDict_dict]; exact t.mapM_writeItem d
  out hv h := by
    obtain ⟨d, hd, h⟩ := Option.bind_eq_some_iff.mp h
    obtain ⟨hnodup, hin⟩ := in_dict hv hd
    obtain ⟨hkeys, hout⟩ := t.of_mapM_readItem hin h
    exact out_dict (hkeys ▸ hnodup) hout

end FieldType

/-! ## Fields -/

/-- **The fields of a record**: their names, types and defaults. A field without default is
required. -/
inductive Fields (V : Type) [Document V] : Type → Type 1 where
  | nil : Fields V Unit
  | cons {α β : Type} (name : String) (t : FieldType V α) (default : Option α)
      (hdefault : ∀ a ∈ default, Out (t.write a)) (rest : Fields V β) : Fields V (α × β)

/-- A field without default. -/
def Fields.required {α β : Type} (name : String) (t : FieldType V α) (rest : Fields V β) :
    Fields V (α × β) :=
  .cons name t none (fun _ h => absurd h (Option.not_mem_none _)) rest

/-- A field with a default. -/
def Fields.withDefault {α β : Type} (name : String) (t : FieldType V α) (a : α)
    (ha : Out (t.write a)) (rest : Fields V β) : Fields V (α × β) :=
  .cons name t (some a) (fun _ h => Option.some.inj h ▸ ha) rest

/-- The value of one field. -/
def fieldValue {α : Type} (name : String) (t : FieldType V α) (default : Option α)
    (d : Dict String V) : Option α :=
  match Dict.get name d with
  | some v => t.read v
  | none => default

namespace Fields

/-- The declared names. -/
def names {γ : Type} : Fields V γ → List String
  | nil => []
  | cons name _ _ _ rest => name :: rest.names

/-- Read the fields from a dictionary. -/
def read {γ : Type} (d : Dict String V) : Fields V γ → Option γ
  | nil => some ()
  | cons name t default _ rest =>
    (fieldValue name t default d).bind fun a => (rest.read d).map fun b => (a, b)

/-- Write all the fields, in their order. -/
def write {γ : Type} : Fields V γ → γ → Dict String V
  | nil, _ => []
  | cons name t _ _ rest, g => (name, t.write g.1) :: rest.write g.2

/-- **The dictionary gives the record**: every field its value, or its default. -/
def Reads {γ : Type} (d : Dict String V) : Fields V γ → γ → Prop
  | nil, _ => True
  | cons name t default _ rest, g => fieldValue name t default d = some g.1 ∧ rest.Reads d g.2

theorem read_iff {γ : Type} (fs : Fields V γ) (d : Dict String V) (g : γ) :
    fs.read d = some g ↔ fs.Reads d g := by
  induction fs with
  | nil => exact ⟨fun _ => trivial, fun _ => rfl⟩
  | cons name t default hdefault rest ih =>
    rw [read, Option.bind_eq_some_iff]
    constructor
    · rintro ⟨a, ha, h⟩
      obtain ⟨b, hb, rfl⟩ := Option.map_eq_some_iff.mp h
      exact ⟨ha, (ih b).mp hb⟩
    · rintro ⟨ha, hb⟩
      refine ⟨g.1, ha, ?_⟩
      rw [(ih g.2).mpr hb]
      rfl

theorem names_write {γ : Type} (fs : Fields V γ) (g : γ) :
    (fs.write g).map Prod.fst = fs.names := by
  induction fs with
  | nil => rfl
  | cons name t default hdefault rest ih => rw [write, names, List.map_cons, ih]

/-- A dictionary that holds the written fields gives the record. -/
theorem reads_of_get {γ : Type} (fs : Fields V γ) {d : Dict String V} {g : γ}
    (h : ∀ p ∈ fs.write g, Dict.get p.1 d = some p.2) : fs.Reads d g := by
  induction fs with
  | nil => trivial
  | cons name t default hdefault rest ih =>
    rw [write, List.forall_mem_cons] at h
    refine ⟨?_, ih h.2⟩
    rw [fieldValue, h.1]
    exact t.read_write g.1

/-- **What is written is read back.** -/
theorem read_write {γ : Type} (fs : Fields V γ) (hnames : fs.names.Nodup) (g : γ) :
    fs.read (fs.write g) = some g :=
  (fs.read_iff _ g).mpr (fs.reads_of_get fun p hp =>
    Dict.get_of_mem (by rw [names_write]; exact hnames) hp)

/-- The fields of a record that was read are written. -/
theorem out_write {γ : Type} (fs : Fields V γ) {d : Dict String V} {g : γ} (hd : ∀ p ∈ d, In p.2)
    (h : fs.Reads d g) : ∀ p ∈ fs.write g, Out p.2 := by
  induction fs with
  | nil => exact fun p hp => absurd hp List.not_mem_nil
  | cons name t default hdefault rest ih =>
    refine List.forall_mem_cons.mpr ⟨?_, ih h.2⟩
    have hvalue := h.1
    unfold fieldValue at hvalue
    cases hg : Dict.get name d with
    | none =>
      rw [hg] at hvalue
      exact hdefault g.1 hvalue
    | some v =>
      rw [hg] at hvalue
      exact t.out (hd _ (Dict.mem_of_get hg)) hvalue

end Fields

/-! ## Models -/

/-- **A record type with its fields**; `forbid` refuses all other keys. -/
structure Model (V R : Type) [Document V] where
  {γ : Type}
  fields : Fields V γ
  names_nodup : fields.names.Nodup
  tuple : R ≃ γ
  forbid : Bool

namespace Model

variable {R : Type} (m : Model V R)

/-- No key is refused. -/
def Admits (d : Dict String V) : Prop := m.forbid = true → ∀ p ∈ d, p.1 ∈ m.fields.names

instance (d : Dict String V) : Decidable (m.Admits d) :=
  haveI : Decidable (∀ p ∈ d, p.1 ∈ m.fields.names) := List.decidableBAll _ _
  inferInstanceAs (Decidable (_ → _))

/-- The model as a type of fields. -/
def type : FieldType V R where
  read v := (asDict v).bind fun d =>
    if m.Admits d then (m.fields.read d).map m.tuple.symm else none
  write r := dict (m.fields.write (m.tuple r))
  read_write r := by
    have hadmits : m.Admits (m.fields.write (m.tuple r)) := fun _ p hp =>
      m.fields.names_write (m.tuple r) ▸ List.mem_map_of_mem hp
    rw [asDict_dict, Option.bind_some, if_pos hadmits, m.fields.read_write m.names_nodup,
      Option.map_some, Equiv.symm_apply_apply]
  out hv h := by
    obtain ⟨d, hd, h⟩ := Option.bind_eq_some_iff.mp h
    split_ifs at h
    obtain ⟨g, hg, rfl⟩ := Option.map_eq_some_iff.mp h
    rw [Equiv.apply_symm_apply]
    exact out_dict (by rw [Fields.names_write]; exact m.names_nodup)
      (m.fields.out_write (in_dict hv hd).2 ((m.fields.read_iff d g).mp hg))

/-- **What a model reads**: an object with no other keys that gives the fields of the record. -/
theorem read_iff {v : V} {r : R} : m.type.read v = some r ↔
    ∃ d, asDict v = some d ∧ m.Admits d ∧ m.fields.Reads d (m.tuple r) := by
  constructor
  · intro h
    obtain ⟨d, hd, h⟩ := Option.bind_eq_some_iff.mp h
    split_ifs at h with hadmits
    obtain ⟨g, hg, rfl⟩ := Option.map_eq_some_iff.mp h
    refine ⟨d, hd, hadmits, ?_⟩
    rw [Equiv.apply_symm_apply]
    exact (m.fields.read_iff d g).mp hg
  · rintro ⟨d, hd, hadmits, hreads⟩
    show (asDict v).bind _ = _
    rw [hd, Option.bind_some, if_pos hadmits, (m.fields.read_iff d _).mpr hreads, Option.map_some,
      Equiv.symm_apply_apply]

end Model

end Record
