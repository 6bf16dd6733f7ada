import Mathlib.Algebra.Order.BigOperators.Group.List
import Mathlib.Algebra.Order.Field.Basic
import Mathlib.Data.Nat.Cast.Order.Field
import Mathlib.Tactic.Linarith
import Mathlib.Tactic.Positivity

/-!
# Rates and means

The rate of success of some trials, which is `1` where there are none (`rate`), and the
mean of some numbers, which is `0` where there are none (`mean`), in an ordered field.

* `rate_mono`: more successes and fewer failures do not lower the rate, whether or not
  there were any trials before;
* `mean_mono`: nor does a mean get lower with its numbers;
* `rate_eq_one`, `mean_eq_one`: the best rate and the best mean.
-/

namespace Rate

variable {K : Type} [Field K] [LinearOrder K] [IsStrictOrderedRing K]

/-! ## Rates -/

/-- The rate of success of `p` trials that succeed and `f` that fail. -/
def rate (K : Type) [Field K] (p f : ℕ) : K := if p + f = 0 then 1 else p / (p + f : ℕ)

/-- The rate of failure. -/
def failureRate (K : Type) [Field K] (p f : ℕ) : K := f / (p + f : ℕ)

variable {p p' f f' : ℕ}

/-- What has not failed has succeeded. -/
theorem rate_eq : rate K p f = 1 - failureRate K p f := by
  rw [rate, failureRate]
  split_ifs with h
  · rw [h]
    simp
  · have hne : ((p + f : ℕ) : K) ≠ 0 := Nat.cast_ne_zero.2 h
    rw [eq_sub_iff_add_eq, ← add_div, ← Nat.cast_add, div_self hne]

theorem failureRate_nonneg : 0 ≤ failureRate K p f := by
  rw [failureRate]
  positivity

theorem failureRate_le_one : failureRate K p f ≤ 1 :=
  div_le_one_of_le₀ (Nat.cast_le.2 (Nat.le_add_left f p)) (Nat.cast_nonneg _)

theorem failureRate_eq_zero : failureRate K p f = 0 ↔ f = 0 := by
  rw [failureRate, div_eq_zero_iff, Nat.cast_eq_zero, Nat.cast_eq_zero]
  omega

theorem rate_nonneg : 0 ≤ rate K p f := by
  rw [rate_eq, sub_nonneg]
  exact failureRate_le_one

theorem rate_le_one : rate K p f ≤ 1 := by
  rw [rate_eq]
  exact sub_le_self 1 failureRate_nonneg

/-- The rate is the best one exactly if nothing failed. -/
theorem rate_eq_one : rate K p f = 1 ↔ f = 0 := by
  rw [rate_eq, sub_eq_self, failureRate_eq_zero]

/-- More successes and fewer failures do not raise the rate of failure. -/
theorem failureRate_anti (hp : p ≤ p') (hf : f' ≤ f) :
    failureRate K p' f' ≤ failureRate K p f := by
  rcases Nat.eq_zero_or_pos f' with rfl | hpos
  · rw [failureRate_eq_zero.2 rfl]
    exact failureRate_nonneg
  · have hle : f' * (p + f) ≤ f * (p' + f') := by
      calc f' * (p + f) = f' * p + f' * f := Nat.mul_add ..
        _ ≤ f * p' + f * f' := Nat.add_le_add (Nat.mul_le_mul hf hp) (Nat.mul_comm f' f).le
        _ = f * (p' + f') := (Nat.mul_add ..).symm
    rw [failureRate, failureRate, div_le_div_iff₀ (Nat.cast_pos.2 (by omega))
      (Nat.cast_pos.2 (by omega))]
    exact_mod_cast hle

/-- More successes and fewer failures do not lower the rate. -/
theorem rate_mono (hp : p ≤ p') (hf : f' ≤ f) : rate K p f ≤ rate K p' f' := by
  rw [rate_eq, rate_eq]
  exact sub_le_sub_left (failureRate_anti hp hf) 1

/-! ## Means -/

/-- The mean of some numbers. -/
def mean (l : List K) : K := if l = [] then 0 else l.sum / l.length

variable {l l' : List K} {t : K}

omit [LinearOrder K] [IsStrictOrderedRing K] in
theorem mean_of_ne_nil (h : l ≠ []) : mean l = l.sum / l.length := if_neg h

/-- A number is below the mean as its multiple is below the sum. -/
theorem le_mean (h : l ≠ []) : t ≤ mean l ↔ t * l.length ≤ l.sum := by
  rw [mean_of_ne_nil h, le_div_iff₀ (Nat.cast_pos.2 (List.length_pos_of_ne_nil h))]

theorem mean_le (h : l ≠ []) : mean l ≤ t ↔ l.sum ≤ t * l.length := by
  rw [mean_of_ne_nil h, div_le_iff₀ (Nat.cast_pos.2 (List.length_pos_of_ne_nil h))]

theorem mean_nonneg (h : ∀ x ∈ l, 0 ≤ x) : 0 ≤ mean l := by
  rw [mean]
  split_ifs
  · exact le_rfl
  · exact div_nonneg (List.sum_nonneg h) (Nat.cast_nonneg _)

theorem mean_le_one (h : ∀ x ∈ l, x ≤ 1) : mean l ≤ 1 := by
  by_cases hne : l = []
  · rw [mean, if_pos hne]
    exact zero_le_one
  · rw [mean_le hne, one_mul, ← nsmul_one l.length]
    exact List.sum_le_card_nsmul l 1 h

/-- Greater numbers have a greater mean. -/
theorem mean_mono (h : List.Forall₂ (· ≤ ·) l l') : mean l ≤ mean l' := by
  cases h with
  | nil => exact le_rfl
  | cons hx h =>
    have hlength := h.length_eq
    rw [le_mean (List.cons_ne_nil _ _), mean_of_ne_nil (List.cons_ne_nil _ _), List.length_cons,
      List.length_cons, hlength, div_mul_cancel₀ _ (Nat.cast_ne_zero.2 (Nat.succ_ne_zero _))]
    exact (List.Forall₂.cons hx h).sum_le_sum

/-- The mean of numbers up to `1` is `1` exactly if all of them are. -/
theorem mean_eq_one (hne : l ≠ []) (h : ∀ x ∈ l, x ≤ 1) : mean l = 1 ↔ ∀ x ∈ l, x = 1 := by
  rw [mean_of_ne_nil hne, div_eq_one_iff_eq
    (Nat.cast_ne_zero.2 (List.length_pos_of_ne_nil hne).ne')]
  clear hne
  induction l with
  | nil => simp
  | cons x l ih =>
    obtain ⟨hx, hl⟩ := List.forall_mem_cons.1 h
    have hsum : l.sum ≤ l.length := by
      rw [← nsmul_one l.length]
      exact List.sum_le_card_nsmul l 1 hl
    rw [List.sum_cons, List.length_cons, Nat.cast_succ, List.forall_mem_cons, ← ih hl]
    constructor
    · intro heq
      exact ⟨le_antisymm hx (by linarith), le_antisymm hsum (by linarith)⟩
    · rintro ⟨rfl, hl'⟩
      rw [hl', add_comm]

end Rate
