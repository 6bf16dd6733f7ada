import Mathlib.Data.Rat.Defs
import OpenDataGov.Core.Basic
import OpenDataGov.Lib.Yaml

/-!
# The fields of a model, read from a mapping

How pydantic makes the fields of a model from the values of a mapping: what it takes a single
value for is a parameter (`Pydantic`), and the readers of a field are built on it. A field
that is not valid is reported by its path.

A reader takes a path and a value, and gives what has been read or the paths of all that is
not valid. Readers are put together as the models are: fields that must be there or may be
missing, lists, fields that may be null. For each of these there is one lemma that says when the
reading succeeds, and the lemma of a model is a conjunction of them.

* `valid_required`, `valid_optional`, `valid_list`: a field is read exactly if its value is
  valid, one that may be missing also if it is not there, and a list if all its items are;
* `filterMap_of_list`: what is read from a list, item by item.
-/

namespace OpenDataGov

open Yaml

/-- What pydantic makes of single values. A value that it makes nothing of is not valid. -/
class Pydantic where
  str : Value → Option String
  bool : Value → Option Bool
  /-- A float, between bounds if there are any. -/
  float : Option (ℚ × ℚ) → Value → Option Json.PyFloat

/-- Texts and truth values are taken as they are, and so are floats without bounds; nothing
    is made of other values. -/
@[reducible] def Pydantic.plain : Pydantic where
  str
    | .scalar (.str s) => some s
    | _ => none
  bool
    | .scalar (.bool b) => some b
    | _ => none
  float
    | none, .scalar (.float x) => some x
    | _, _ => none

namespace Validated

variable {α β : Type}

/-- A field that is made from a single value. -/
def leaf (read : Value → Option α) (field : String) (v : Value) : Validated α :=
  match read v with
  | none => .error [field]
  | some a => .ok a

/-- A field of `min` to `max` characters. -/
def str [Pydantic] (min max : ℕ) (field : String) (v : Value) : Validated (Bounded min max) :=
  leaf Pydantic.str field v >>= bounded min max field

/-- A field that may be `None`. -/
def nullable (read : String → Value → Validated α) (field : String) :
    Value → Validated (Option α)
  | .scalar .null => .ok none
  | v => (read field v).map some

/-- The items of a list, from the index `i` on. -/
def items (read : String → Value → Validated α) (field : String) :
    ℕ → List Value → Validated (List α)
  | _, [] => .ok []
  | i, v :: vs =>
    ((read s!"{field}.{i}" v).and (items read field (i + 1) vs)).map fun as => as.1 :: as.2

/-- A field that is a list. -/
def list (read : String → Value → Validated α) (field : String) (v : Value) :
    Validated (List α) :=
  match v.items? with
  | none => .error [field]
  | some vs => items read field 0 vs

/-- A field that must be there. Its path is its key, after what stands before it. -/
def required (m : Mapping) (before key : String) (read : String → Value → Validated α) :
    Validated α :=
  match m.get? key with
  | none => .error [before ++ key]
  | some v => read (before ++ key) v

/-- A field with a default. -/
def optional (m : Mapping) (before key : String) (default : α)
    (read : String → Value → Validated α) : Validated α :=
  match m.get? key with
  | none => .ok default
  | some v => read (before ++ key) v

/-! ### Validity -/

/-- There is a value, and nothing to report. -/
def Valid (x : Validated α) : Prop := ∃ a, x = .ok a

variable {x : Validated α} {y : Validated β} {a : α} {read : String → Value → Validated α}
  {m : Mapping} {before field key : String} {default : α} {v : Value} {vs : List Value}

/-- Both of two fields are read if each is. -/
@[simp] theorem valid_and : (x.and y).Valid ↔ x.Valid ∧ y.Valid := by
  simp only [Valid, Prod.exists, and_eq_ok, exists_and_left, exists_and_right]

/-- What is to hold of a value is to hold if there is one, unless it is about the value. -/
theorem forall_eq_ok_iff {p : α → Prop} {q : Prop} (h : ∀ a, x = .ok a → (p a ↔ q)) :
    (∀ a, x = .ok a → p a) ↔ (x.Valid → q) :=
  ⟨fun h' ⟨a, ha⟩ => (h a ha).1 (h' a ha), fun h' a ha => (h a ha).2 (h' ⟨a, ha⟩)⟩

/-- Making something of a field that has been read -/
theorem map_eq_ok {f : α → β} {b : β} : x.map f = .ok b ↔ ∃ a, x = .ok a ∧ f a = b := by
  cases x with
  | ok a => simp [Except.map]
  | error fs => simp [Except.map]

/-- does not change whether it is read. -/
@[simp] theorem valid_map {f : α → β} : Valid (x.map f) ↔ x.Valid := by
  simp only [Valid, map_eq_ok]
  exact ⟨fun ⟨_, a, ha, _⟩ => ⟨a, ha⟩, fun ⟨a, ha⟩ => ⟨f a, a, ha, rfl⟩⟩

theorem leaf_eq_ok {read : Value → Option α} : leaf read field v = .ok a ↔ read v = some a := by
  rw [leaf]
  cases read v with
  | none => simp
  | some a => simp

@[simp] theorem valid_leaf {read : Value → Option α} :
    (leaf read field v).Valid ↔ ∃ a, read v = some a :=
  exists_congr fun _ => leaf_eq_ok

/-- A field that must be there is read from its value. -/
theorem required_eq_ok : required m before key read = .ok a ↔
    ∃ v, m.get? key = some v ∧ read (before ++ key) v = .ok a := by
  rw [required]
  cases m.get? key with
  | none => simp
  | some v => simp

/-- It must be there, and its value be read. -/
theorem valid_required : (required m before key read).Valid ↔
    m.Required key fun v => (read (before ++ key) v).Valid := by
  simp only [Valid, required_eq_ok, Mapping.Required]
  exact ⟨fun ⟨a, v, hv, ha⟩ => ⟨v, hv, a, ha⟩, fun ⟨v, hv, a, ha⟩ => ⟨a, v, hv, ha⟩⟩

/-- One that may be missing is read if its value is, or if it has none. -/
theorem valid_optional : (optional m before key default read).Valid ↔
    m.Optional key fun v => (read (before ++ key) v).Valid := by
  rw [optional, Mapping.Optional]
  cases m.get? key with
  | none => simp [Valid]
  | some v => simp

/-- The items of a list are read one after another, by their places. -/
theorem items_cons_eq_ok {i : ℕ} {as : List α} : items read field i (v :: vs) = .ok as ↔
    ∃ a as', read s!"{field}.{i}" v = .ok a ∧ items read field (i + 1) vs = .ok as' ∧
      a :: as' = as := by
  rw [items, map_eq_ok]
  simp only [Prod.exists, and_eq_ok, and_assoc]

/-- The items are valid if all of them are. -/
theorem valid_items {P : Value → Prop} (hread : ∀ field v, (read field v).Valid ↔ P v)
    (i : ℕ) : (items read field i vs).Valid ↔ ∀ v ∈ vs, P v := by
  induction vs generalizing i with
  | nil => simp [items, Valid]
  | cons v vs ih => rw [items, valid_map, valid_and, hread, ih, List.forall_mem_cons]

/-- A list is read if all its items are. -/
theorem valid_list {P : Value → Prop} (hread : ∀ field v, (read field v).Valid ↔ P v) :
    (list read field v).Valid ↔ ∃ vs, v.items? = some vs ∧ ∀ v ∈ vs, P v := by
  rw [list]
  cases v.items? with
  | none => simp [Valid]
  | some vs => simp [valid_items hread]

/-- What is read from the items, if each of them tells what is read from it. -/
theorem filterMap_of_items {γ : Type} {f : Value → Option γ} {g : α → γ}
    {i : ℕ} {as : List α} (h : items read field i vs = .ok as)
    (hread : ∀ field v a, read field v = .ok a → f v = some (g a)) :
    vs.filterMap f = as.map g := by
  induction vs generalizing i as with
  | nil =>
    obtain rfl := Except.ok.inj h
    rfl
  | cons v vs ih =>
    obtain ⟨a, as', ha, has, rfl⟩ := items_cons_eq_ok.1 h
    rw [List.filterMap_cons_some (hread _ _ _ ha), ih has, List.map_cons]

/-- The same for a list that is there, or empty by default. -/
theorem filterMap_of_list {γ : Type} {f : Value → Option γ} {g : α → γ}
    {as : List α} (h : optional m before key [] (list read) = .ok as)
    (hread : ∀ field v a, read field v = .ok a → f v = some (g a)) :
    (((m.get? key).bind Value.items?).getD []).filterMap f = as.map g := by
  rw [optional] at h
  cases hget : m.get? key with
  | none =>
    rw [hget] at h
    obtain rfl := Except.ok.inj h
    rfl
  | some v =>
    simp only [hget, list] at h
    cases hitems : v.items? with
    | none => simp [hitems] at h
    | some vs =>
      simp only [hitems] at h
      rw [Option.bind_some, hitems, Option.getD_some]
      exact filterMap_of_items h hread

section

variable [Pydantic] {min max : ℕ}

/-- A string is what the value is taken for, within the bounds. -/
theorem str_eq_ok {t : Bounded min max} :
    str min max field v = .ok t ↔ Pydantic.str v = some t.text := by
  rw [str, leaf]
  cases Pydantic.str v with
  | none => simp [bind, Except.bind]
  | some s =>
    have hbind : (Except.ok s >>= bounded min max field) = bounded min max field s := rfl
    rw [hbind, bounded_eq_ok, Option.some.injEq, eq_comm]

/-- A value that pydantic makes a text of `min` to `max` characters of. -/
def IsStr (min max : ℕ) (v : Value) : Prop :=
  ∃ s, Pydantic.str v = some s ∧ min ≤ s.length ∧ s.length ≤ max

/-- It is read if it is one. -/
@[simp] theorem valid_str : (str min max field v).Valid ↔ IsStr min max v := by
  simp only [Valid, str_eq_ok]
  exact ⟨fun ⟨t, ht⟩ => ⟨t.text, ht, t.bounds⟩, fun ⟨s, hs, hbounds⟩ => ⟨⟨s, hbounds⟩, hs⟩⟩

end

/-- A field that may be null is read if it is, or if its value is read. -/
@[simp] theorem valid_nullable {read : Value → Option α} :
    (nullable (leaf read) field v).Valid ↔ v = .scalar .null ∨ ∃ a, read v = some a := by
  unfold nullable
  split
  · simp [Valid]
  · next hne => rw [valid_map, valid_leaf, or_iff_right hne]

end Validated

end OpenDataGov
