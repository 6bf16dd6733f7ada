import Mathlib.Analysis.SpecialFunctions.Exp

/-!
# Laplace noise

Values that are released with independent Laplace noise, each with a scale of its own, and
how much a release tells about them. By *differential privacy*, it tells `ε` if values that
are close to each other make any outputs equally likely, up to a factor of `exp ε`.

* `density_sub_le`: for one value, the factor is the exponential of the sensitivity divided
  by the scale;
* `density_sub_add`: it is reached by outputs on the far side;
* `isPrivate_iff`: so the epsilons of the values add up, and there is no better bound.
-/

namespace Laplace

/-- The density of Laplace noise of the scale `b` around zero. -/
noncomputable def density (b x : ℝ) : ℝ := Real.exp (-(|x| / b)) / (2 * b)

variable {b s v v' x : ℝ}

theorem density_pos (hb : 0 < b) : 0 < density b x := by
  rw [density]
  positivity

/-- The outputs of a value are as likely as those of another one, up to a factor. -/
theorem density_sub_le (hb : 0 < b) (hv : |v - v'| ≤ s) :
    density b (x - v) ≤ Real.exp (s / b) * density b (x - v') := by
  have hdist : |x - v'| ≤ s + |x - v| := by
    have htri := abs_sub_le x v v'
    linarith
  have hexp : -(|x - v| / b) ≤ s / b + -(|x - v'| / b) := by
    have hdiv := div_le_div_of_nonneg_right hdist hb.le
    rw [add_div] at hdiv
    linarith
  rw [density, density, ← mul_div_assoc, ← Real.exp_add]
  have hpos : (0 : ℝ) < 2 * b := by positivity
  exact div_le_div_of_nonneg_right (Real.exp_le_exp.2 hexp) hpos.le

/-- For outputs on the far side, this is all of the factor. -/
theorem density_sub_add (hx : x ≤ v) (hs : 0 ≤ s) :
    density b (x - v) = Real.exp (s / b) * density b (x - (v + s)) := by
  have hnear : |x - v| = v - x := by
    rw [abs_sub_comm, abs_of_nonneg (sub_nonneg.2 hx)]
  have hfar : |x - (v + s)| = s + (v - x) := by
    rw [abs_sub_comm, abs_of_nonneg (by linarith)]
    ring
  rw [density, density, hnear, hfar, add_div, neg_add, ← mul_div_assoc, ← Real.exp_add,
    add_neg_cancel_left]

/-! ### Releases -/

variable {ι : Type*} [Fintype ι]

/-- The density of the outputs `x` of the values `v`, with noise of the scales `b`. -/
noncomputable def joint (b v x : ι → ℝ) : ℝ := ∏ i, density (b i) (x i - v i)

/-- Values that differ by `s` at most make any outputs equally likely, up to a factor. -/
def IsPrivate (s : ℝ) (b : ι → ℝ) (ε : ℝ) : Prop :=
  ∀ v v' x : ι → ℝ, (∀ i, |v i - v' i| ≤ s) → joint b v x ≤ Real.exp ε * joint b v' x

variable {b v v' x : ι → ℝ} {ε : ℝ}

theorem joint_pos (hb : ∀ i, 0 < b i) : 0 < joint b v x :=
  Finset.prod_pos fun i _ => density_pos (hb i)

theorem joint_le (hb : ∀ i, 0 < b i) (hv : ∀ i, |v i - v' i| ≤ s) :
    joint b v x ≤ Real.exp (∑ i, s / b i) * joint b v' x := by
  rw [joint, joint, Real.exp_sum, ← Finset.prod_mul_distrib]
  exact Finset.prod_le_prod (fun i _ => (density_pos (hb i)).le) fun i _ =>
    density_sub_le (hb i) (hv i)

theorem joint_add (hx : ∀ i, x i ≤ v i) (hs : 0 ≤ s) :
    joint b v x = Real.exp (∑ i, s / b i) * joint b (fun i => v i + s) x := by
  rw [joint, joint, Real.exp_sum, ← Finset.prod_mul_distrib]
  exact Finset.prod_congr rfl fun i _ => density_sub_add (hx i) hs

/-- Sequential composition: a release tells as much as its values together, and no less. -/
theorem isPrivate_iff (hb : ∀ i, 0 < b i) (hs : 0 ≤ s) :
    IsPrivate s b ε ↔ ∑ i, s / b i ≤ ε := by
  constructor
  · intro h
    have hclose : ∀ _i : ι, |(0 : ℝ) - (0 + s)| ≤ s := fun _ => by
      rw [zero_add, zero_sub, abs_neg, abs_of_nonneg hs]
    have hle := h (fun _ => 0) (fun _ => 0 + s) (fun _ => 0) hclose
    rw [joint_add (fun _ => le_rfl) hs] at hle
    exact Real.exp_le_exp.1 (le_of_mul_le_mul_right hle (joint_pos hb))
  · intro h v v' x hv
    refine (joint_le hb hv).trans ?_
    exact mul_le_mul_of_nonneg_right (Real.exp_le_exp.2 h) (joint_pos hb).le

end Laplace
