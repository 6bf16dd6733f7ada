import OpenDataGov.Lib.Json

/-!
# Errors, identifiers and bounded strings

What the models and the services are built from: the errors that an operation
may raise, UUIDs, and the strings of a `Field(min_length=…, max_length=…)`,
which carry their bounds.

A string with bounds is a subtype, so that a model with such a field cannot be built from a
string that is too long. It is made by validation (`Validated.bounded`), which reports the
path of a field that is not valid. Validating several fields reports all that are not, in
their order, as pydantic does (`Validated.and`).
-/

namespace OpenDataGov

/-- The errors raised by the services and by what they call. -/
inductive Error
  /-- A `ValueError` of a service. -/
  | valueError (msg : String)
  /-- A `ValidationError` of pydantic, about fields of a model. -/
  | validationError (model : String) (fields : List String)
  /-- A unique constraint of the database is violated. -/
  | integrityError (table : String)
  /-- `scalar_one_or_none` found two rows. -/
  | multipleResultsFound
  /-- There is a value in a statement that the database does not store. -/
  | dataError
  deriving DecidableEq

/-- Pydantic's `ValidationError` is a `ValueError`. The errors of the database are not. -/
def Error.IsValueError : Error → Prop
  | .valueError _ => True
  | .validationError _ _ => True
  | .integrityError _ => False
  | .multipleResultsFound => False
  | .dataError => False

instance : DecidablePred Error.IsValueError
  | .valueError _ => .isTrue trivial
  | .validationError _ _ => .isTrue trivial
  | .integrityError _ => .isFalse id
  | .multipleResultsFound => .isFalse id
  | .dataError => .isFalse id

/-- A string of `min` to `max` characters. -/
structure Bounded (min max : ℕ) where
  text : String
  bounds : min ≤ text.length ∧ text.length ≤ max
  deriving DecidableEq

namespace Bounded

variable {min max : ℕ}

/-- A bounded string is its text. -/
theorem text_injective : Function.Injective (text : Bounded min max → String) := by
  rintro ⟨_, _⟩ ⟨_, _⟩ rfl
  rfl

end Bounded

/-! ### Validation -/

/-- The value of a field, or the names of the fields that are not valid. -/
abbrev Validated (α : Type) := Except (List String) α

namespace Validated

/-- The value of a field that asks for `min` to `max` characters. -/
def bounded (min max : ℕ) (field s : String) : Validated (Bounded min max) :=
  if h : min ≤ s.length ∧ s.length ≤ max then .ok ⟨s, h⟩ else .error [field]

/-- The value of a field that asks for `min` characters. -/
def atLeast (min : ℕ) (field s : String) : Validated { s : String // min ≤ s.length } :=
  if h : min ≤ s.length then .ok ⟨s, h⟩ else .error [field]

/-- Two fields. All the fields that are not valid are reported. -/
def and {α β : Type} : Validated α → Validated β → Validated (α × β)
  | .ok a, .ok b => .ok (a, b)
  | .ok _, .error fs => .error fs
  | .error fs, .ok _ => .error fs
  | .error fs, .error fs' => .error (fs ++ fs')

/-- The fields of a model. -/
def model {α : Type} (name : String) : Validated α → Except Error α
  | .ok a => .ok a
  | .error fs => .error (.validationError name fs)

variable {α β : Type} {min max : ℕ} {field s : String} {a : α} {b : β}

/-- Validating a string gives the string, if it is within the bounds; -/
@[simp] theorem bounded_eq_ok {t : Bounded min max} :
    bounded min max field s = .ok t ↔ t.text = s := by
  rw [bounded]
  split_ifs with h
  · rw [Except.ok.injEq]
    exact ⟨fun e => e ▸ rfl, fun e => Bounded.text_injective e.symm⟩
  · exact iff_of_false (fun e => nomatch e) fun e => h (e ▸ t.bounds)

/-- the same if it has a lower bound only. -/
@[simp] theorem atLeast_eq_ok {t : { s : String // min ≤ s.length }} :
    atLeast min field s = .ok t ↔ t.1 = s := by
  rw [atLeast]
  split_ifs with h
  · rw [Except.ok.injEq]
    exact ⟨fun e => e ▸ rfl, fun e => Subtype.ext e.symm⟩
  · exact iff_of_false (fun e => nomatch e) fun e => h (e ▸ t.2)

/-- Two fields are valid if both are. -/
@[simp] theorem and_eq_ok {x : Validated α} {y : Validated β} :
    x.and y = .ok (a, b) ↔ x = .ok a ∧ y = .ok b := by
  cases x <;> cases y <;> simp [and]

@[simp] theorem model_eq_ok {name : String} {x : Validated α} :
    x.model name = .ok a ↔ x = .ok a := by
  cases x <;> simp [model]

theorem model_bind_eq_ok {name : String} {x : Validated α} {f : α → Except Error β} :
    (x.model name >>= f) = .ok b ↔ ∃ a, x = .ok a ∧ f a = .ok b := by
  cases x with
  | ok a => simp [model, bind, Except.bind]
  | error fs => simp [model, bind, Except.bind]

end Validated

/-- A UUID: 128 bits. -/
structure UUID where
  bits : BitVec 128
  deriving DecidableEq

namespace UUID

open Text

/-- `str` of a UUID: its digits in groups of 8, 4, 4, 4 and 12. -/
def str (u : UUID) : String :=
  let n := u.bits.toNat
  String.ofList (hexDigits 8 (n / 16 ^ 24) ++ '-' :: (hexDigits 4 (n / 16 ^ 20) ++
    '-' :: (hexDigits 4 (n / 16 ^ 16) ++ '-' :: (hexDigits 4 (n / 16 ^ 12) ++
      '-' :: hexDigits 12 n))))

instance : ToString UUID := ⟨str⟩

/-- A UUID is written with 36 characters. -/
theorem length_str (u : UUID) : u.str.length = 36 := by
  rw [str, String.length_ofList]
  simp only [List.length_append, List.length_cons, length_hexDigits]

/-- The groups of digits make up the number. -/
theorem str_injective : Function.Injective str := by
  intro u v h
  have hu : u.bits.toNat < 16 ^ 32 := u.bits.isLt
  have hv : v.bits.toNat < 16 ^ 32 := v.bits.isLt
  rw [str, str, String.ofList_inj] at h
  obtain ⟨h₁, h⟩ := List.append_inj h (by simp)
  obtain ⟨h₂, h⟩ := List.append_inj (List.cons.inj h).2 (by simp)
  obtain ⟨h₃, h⟩ := List.append_inj (List.cons.inj h).2 (by simp)
  obtain ⟨h₄, h⟩ := List.append_inj (List.cons.inj h).2 (by simp)
  have h₅ := (List.cons.inj h).2
  have heq : u.bits.toNat = v.bits.toNat := by
    have h₁ := mod_eq_of_hexDigits h₁
    have h₂ := mod_eq_of_hexDigits h₂
    have h₃ := mod_eq_of_hexDigits h₃
    have h₄ := mod_eq_of_hexDigits h₄
    have h₅ := mod_eq_of_hexDigits h₅
    omega
  obtain ⟨_⟩ := u
  obtain ⟨_⟩ := v
  exact congrArg UUID.mk (BitVec.eq_of_toNat_eq heq)

end UUID

end OpenDataGov
