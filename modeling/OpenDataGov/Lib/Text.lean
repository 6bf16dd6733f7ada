import Mathlib.Algebra.Group.Nat.Defs
import Mathlib.Data.Nat.Basic

/-!
# Texts read from left to right

A text made of parts can be taken apart again when what follows a part cannot be
taken for a piece of it: the longest run of characters satisfying `P` at the
start of a text is determined by the text (`span_cancel`). In particular the
numbers of a text are (`padded_cancel`).
-/

namespace Text

/-- The text `x` does not go on with a character satisfying `P`. -/
def StopsAt (P : Char → Prop) (x : List Char) : Prop := ∀ c ∈ x.head?, ¬P c

variable {P : Char → Prop} {c : Char} {t t' x y : List Char}

theorem stopsAt_nil : StopsAt P [] := fun _ hc => absurd hc (by simp)

theorem stopsAt_cons (h : ¬P c) : StopsAt P (c :: x) := by
  simpa [StopsAt] using h

/-- Two texts made of two parts with a separator between are the same if the parts are, or if
    the separator is in a part of each. -/
theorem append_cons_eq_iff : x ++ c :: t = y ++ c :: t' ↔
    (x = y ∧ t = t') ∨ (∃ z, y = x ++ c :: z ∧ t = z ++ c :: t') ∨
      ∃ z, x = y ++ c :: z ∧ t' = z ++ c :: t := by
  constructor
  · intro h
    rcases List.append_eq_append_iff.1 h with ⟨z, hy, ht⟩ | ⟨z, hx, ht⟩
    · cases z with
      | nil => exact .inl ⟨by simpa using hy.symm, by simpa using ht⟩
      | cons d z =>
        obtain ⟨rfl, htail⟩ := List.cons.inj ht
        exact .inr (.inl ⟨z, hy, htail⟩)
    · cases z with
      | nil => exact .inl ⟨by simpa using hx, by simpa using ht.symm⟩
      | cons d z =>
        obtain ⟨rfl, htail⟩ := List.cons.inj ht
        exact .inr (.inr ⟨z, hx, htail⟩)
  · rintro (⟨rfl, rfl⟩ | ⟨z, rfl, rfl⟩ | ⟨z, rfl, rfl⟩)
    · rfl
    · simp
    · simp

/-- A run of characters satisfying `P` ends where the text goes on otherwise. -/
theorem span_cancel (ht : ∀ c ∈ t, P c) (ht' : ∀ c ∈ t', P c) (hx : StopsAt P x)
    (hy : StopsAt P y) (h : t ++ x = t' ++ y) : t = t' ∧ x = y := by
  induction t generalizing t' with
  | nil =>
    cases t' with
    | nil => exact ⟨rfl, h⟩
    | cons c t' => exact absurd (ht' c List.mem_cons_self) (hx c (by rw [show x = _ from h]; simp))
  | cons c t ih =>
    cases t' with
    | nil => exact absurd (ht c List.mem_cons_self) (hy c (by rw [show y = _ from h.symm]; simp))
    | cons c' t' =>
      obtain ⟨rfl, h'⟩ := List.cons.inj h
      obtain ⟨rfl, rfl⟩ := ih (fun c hc => ht c (List.mem_cons_of_mem _ hc))
        (fun c hc => ht' c (List.mem_cons_of_mem _ hc)) h'
      exact ⟨rfl, rfl⟩

/-! ## Numbers -/

/-- The decimal digits of `n`, with zeros in front up to a width of `w`. -/
def padded (w n : ℕ) : List Char :=
  List.replicate (w - (Nat.toDigits 10 n).length) '0' ++ Nat.toDigits 10 n

/-- The characters of a number. -/
def IsDigit (c : Char) : Prop := c.isDigit = true

instance : DecidablePred IsDigit := fun c => inferInstanceAs (Decidable (c.isDigit = true))

/-- Numbers are written with digits, -/
theorem isDigit_toDigits {n : ℕ} : ∀ c ∈ Nat.toDigits 10 n, IsDigit c := fun _ hc =>
  Nat.isDigit_of_mem_toDigits (by decide) (by decide) hc

/-- with zeros before them as well, -/
theorem isDigit_padded {w n : ℕ} : ∀ c ∈ padded w n, IsDigit c := by
  intro c hc
  rcases List.mem_append.1 hc with hc | hc
  · rw [List.eq_of_mem_replicate hc]
    decide
  · exact isDigit_toDigits c hc

/-- and different ones differently, -/
theorem toDigits_injective : Function.Injective (Nat.toDigits 10) := fun m n h => by
  have := congrArg (fun ds => Nat.ofDigitChars 10 ds 0) h
  simpa only [Nat.ofDigitChars_ten_toDigits] using this

/-- with zeros before them as well. -/
theorem padded_injective {w : ℕ} : Function.Injective (padded w) := fun m n h => by
  have := congrArg (fun ds => Nat.ofDigitChars 10 ds 0) h
  simpa only [padded, Nat.ofDigitChars_append, Nat.ofDigitChars_replicate_zero, Nat.mul_zero,
    Nat.ofDigitChars_ten_toDigits] using this

/-- A number ends where the text does not go on with a digit. -/
theorem padded_cancel {w m n : ℕ} (hx : StopsAt IsDigit x) (hy : StopsAt IsDigit y)
    (h : padded w m ++ x = padded w n ++ y) : m = n ∧ x = y := by
  obtain ⟨hmn, rfl⟩ := span_cancel isDigit_padded isDigit_padded hx hy h
  exact ⟨padded_injective hmn, rfl⟩

/-- A number followed by a separator. -/
theorem padded_sep_cancel {w m n : ℕ} (hc : ¬IsDigit c)
    (h : padded w m ++ c :: x = padded w n ++ c :: y) : m = n ∧ x = y := by
  obtain ⟨rfl, h'⟩ := padded_cancel (stopsAt_cons hc) (stopsAt_cons hc) h
  exact ⟨rfl, (List.cons.inj h').2⟩

/-! ## Hexadecimal numbers -/

/-- A hexadecimal digit. -/
def hexDigit (n : ℕ) : Char := if n < 10 then Char.ofNat (48 + n) else Char.ofNat (87 + n)

/-- The last `w` hexadecimal digits of `n`. -/
def hexDigits (w n : ℕ) : List Char :=
  (List.range w).reverse.map fun i => hexDigit (n / 16 ^ i % 16)

@[simp] theorem length_hexDigits (w n : ℕ) : (hexDigits w n).length = w := by
  rw [hexDigits, List.length_map, List.length_reverse, List.length_range]

theorem hexDigit_inj : ∀ m < 16, ∀ n < 16, hexDigit m = hexDigit n → m = n := by decide

/-- The digits of a number determine it, up to their width. -/
theorem mod_eq_of_hexDigits {w m n : ℕ} (h : hexDigits w m = hexDigits w n) :
    m % 16 ^ w = n % 16 ^ w := by
  have hdigit : ∀ i < w, m / 16 ^ i % 16 = n / 16 ^ i % 16 := by
    intro i hi
    refine hexDigit_inj _ (Nat.mod_lt _ (by decide)) _ (Nat.mod_lt _ (by decide)) ?_
    exact List.map_inj_left.1 h i (by simpa using hi)
  clear h
  induction w with
  | zero => rw [pow_zero, Nat.mod_one, Nat.mod_one]
  | succ w ih =>
    rw [Nat.mod_pow_succ, Nat.mod_pow_succ, ih fun i hi => hdigit i (Nat.lt_succ_of_lt hi),
      hdigit w (Nat.lt_succ_self w)]

end Text
