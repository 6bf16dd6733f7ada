import Mathlib.Algebra.Order.AddGroupWithTop
import Mathlib.Algebra.Order.Field.Rat
import Mathlib.Data.Rat.Cast.Order
import Mathlib.Tactic.FieldSimp
import OpenDataGov.Core.Enums
import OpenDataGov.Lib.Dict
import OpenDataGov.Lib.Laplace

/-!
# Differential privacy

The noise that is added to aggregates before they are released (`applyDifferentialPrivacy`),
and the privacy budget that this spends, in exact arithmetic. A value that is released with
noise of the scale `b` spends its sensitivity divided by `b`, and a value without noise
spends more than any budget.

What is reported with a release is one epsilon. What is spent is a sum over the aggregates, each
of which gets noise of its own (`spent`). That this is the right thing to count is the subject of
the second part: the outputs of a release have densities, and for two datasets that differ in one
record the densities differ by a factor of at most the exponential of what is spent, and by no
less in the worst case (`Lib.Laplace`).

* `spend_addLaplaceNoise`: each value spends all of the epsilon that is reported;
* `spent_eq`: so a release spends it as often as there are aggregates;
* `spent_le_iff`: the epsilon that is reported covers a release of at most one value;
* `isPrivate_iff_spent_le`: what is spent is what the outputs tell about the aggregates, and
  not only a bound of it.

Where neither of the two libraries for noise is installed, the values are released as they are.
-/

namespace OpenDataGov

namespace Privacy

open Keyed

/-- A library that draws noise. -/
inductive NoiseLibrary
  | opendp
  | numpy
  deriving DecidableEq

/-- The libraries that can be imported. -/
structure Installed where
  opendp : Bool
  numpy : Bool

/-- Noise with a Laplace distribution around zero. The seed is that of a new generator. -/
structure LaplaceNoise where
  library : NoiseLibrary
  scale : ℚ
  seed : Option ℤ
  deriving DecidableEq

/-- A value that is released: the true one, with the noise that is added to it. -/
structure NoisedValue where
  value : ℚ
  noise : Option LaplaceNoise
  deriving DecidableEq

/-- The value of a level of classification. -/
def classificationValue : DataClassification → String
  | .isPublic => "public"
  | .internal => "internal"
  | .confidential => "confidential"
  | .restricted => "restricted"
  | .topSecret => "top_secret"

/-- Epsilon budgets per classification level (lower = more private). -/
def defaultEpsilon : Dict DataClassification ℚ := .ofList [
  (.isPublic, 10),
  (.internal, 5),
  (.confidential, 1),
  (.restricted, 1 / 10),
  (.topSecret, 1 / 100)]

/-- The default epsilon for a classification level. -/
def getEpsilon (classification : DataClassification) : ℚ :=
  (defaultEpsilon.find? classification).getD 1

/-- Adding Laplace noise to a value. OpenDP is tried first, then numpy. -/
def addLaplaceNoise (installed : Installed) (value sensitivity epsilon : ℚ) (seed : Option ℤ) :
    NoisedValue :=
  let scale := sensitivity / epsilon
  if installed.opendp then ⟨value, some ⟨.opendp, scale, none⟩⟩
  else if installed.numpy then ⟨value, some ⟨.numpy, scale, seed⟩⟩
  else ⟨value, none⟩

/-- Aggregates with noise, and what is told about it. -/
structure NoisedAggregates where
  values : Dict String NoisedValue
  epsilon : ℚ
  sensitivity : ℚ
  classification : String
  mechanism : String

/-- Adding noise to a set of aggregates. -/
def applyDifferentialPrivacy (installed : Installed) (aggregates : Dict String ℚ)
    (sensitivity : ℚ) (classification : DataClassification) (epsilon : Option ℚ)
    (seed : Option ℤ) : NoisedAggregates :=
  let eps := epsilon.getD (getEpsilon classification)
  { values := .ofList (aggregates.rows.map fun kv =>
      (kv.1, addLaplaceNoise installed kv.2 sensitivity eps seed))
    epsilon := eps
    sensitivity := sensitivity
    classification := classificationValue classification
    mechanism := "laplace" }

/-! ### The budget -/

/-- What the release of one value spends. -/
def spend (sensitivity : ℚ) (v : NoisedValue) : WithTop ℚ :=
  v.noise.elim ⊤ fun noise => ((sensitivity / noise.scale : ℚ) : WithTop ℚ)

/-- What a release spends, by sequential composition. -/
def spent (release : NoisedAggregates) : WithTop ℚ :=
  (release.values.rows.map fun kv => spend release.sensitivity kv.2).sum

variable {installed : Installed} {aggregates : Dict String ℚ} {sensitivity eps value : ℚ}
  {classification : DataClassification} {epsilon : Option ℚ} {seed : Option ℤ}

/-- The budget of a classification is positive. -/
theorem getEpsilon_pos (classification : DataClassification) : 0 < getEpsilon classification := by
  cases classification <;> decide +kernel

/-- What is reported is positive, if it is not given as something else. -/
theorem getD_getEpsilon_pos (classification : DataClassification)
    (hepsilon : ∀ e ∈ epsilon, 0 < e) : 0 < epsilon.getD (getEpsilon classification) := by
  cases epsilon with
  | none => exact getEpsilon_pos classification
  | some e => exact hepsilon e rfl

/-- With noise, each value spends all of the epsilon. -/
theorem spend_addLaplaceNoise (hs : 0 < sensitivity) :
    spend sensitivity (addLaplaceNoise installed value sensitivity eps seed) =
      if installed.opendp ∨ installed.numpy then (eps : WithTop ℚ) else ⊤ := by
  have hscale : sensitivity / (sensitivity / eps) = eps := div_div_cancel₀ hs.ne'
  rw [addLaplaceNoise]
  split_ifs <;> simp_all [spend]

/-- The values that are released are the aggregates, each with noise of its own. -/
theorem rows_values : (applyDifferentialPrivacy installed aggregates sensitivity classification
    epsilon seed).values.rows = aggregates.rows.map fun kv => (kv.1, addLaplaceNoise installed kv.2
      sensitivity (epsilon.getD (getEpsilon classification)) seed) := by
  refine Dict.rows_ofList_of_nodup ?_
  rw [List.map_map]
  exact aggregates.nodup

/-- So does a release, once for each aggregate. -/
theorem spent_eq (hs : 0 < sensitivity) :
    spent (applyDifferentialPrivacy installed aggregates sensitivity classification epsilon seed) =
      aggregates.rows.length •
        if installed.opendp ∨ installed.numpy then
          ((epsilon.getD (getEpsilon classification) : ℚ) : WithTop ℚ) else ⊤ := by
  rw [spent, rows_values, List.map_map]
  change (aggregates.rows.map fun kv => spend sensitivity (addLaplaceNoise installed kv.2
    sensitivity (epsilon.getD (getEpsilon classification)) seed)).sum = _
  simp only [spend_addLaplaceNoise hs]
  rw [List.map_const', List.sum_replicate]

/-- To spend a budget `n` times is to stay within it only if `n` is at most one. -/
theorem nsmul_le_iff {n : ℕ} (h : 0 < eps) : n • (eps : WithTop ℚ) ≤ eps ↔ n ≤ 1 := by
  rw [← WithTop.coe_nsmul, WithTop.coe_le_coe, nsmul_eq_mul, mul_le_iff_le_one_left h,
    Nat.cast_le_one]

/-- Values without noise are not covered by any budget. -/
theorem nsmul_top_le_iff {n : ℕ} (h : 0 < eps) : n • (⊤ : WithTop ℚ) ≤ eps ↔ n = 0 := by
  cases n with
  | zero =>
    rw [zero_nsmul]
    exact iff_of_true (WithTop.coe_le_coe.2 h.le) rfl
  | succ n =>
    rw [succ_nsmul, add_top, top_le_iff]
    simp

/-- The epsilon that is reported covers what a release spends exactly if there is nothing to
    release, or a single value and a library that draws noise. -/
theorem spent_le_iff (installed : Installed) (aggregates : Dict String ℚ)
    (classification : DataClassification) (seed : Option ℤ) (hs : 0 < sensitivity)
    (hepsilon : ∀ e ∈ epsilon, 0 < e) :
    spent (applyDifferentialPrivacy installed aggregates sensitivity classification epsilon
        seed) ≤
      (applyDifferentialPrivacy installed aggregates sensitivity classification epsilon
        seed).epsilon ↔
    aggregates.rows = [] ∨
      aggregates.rows.length = 1 ∧ (installed.opendp = true ∨ installed.numpy = true) := by
  have heps := getD_getEpsilon_pos classification hepsilon
  rw [spent_eq hs, ← List.length_eq_zero_iff]
  change _ ≤ ((epsilon.getD (getEpsilon classification) : ℚ) : WithTop ℚ) ↔ _
  split_ifs with hlib
  · rw [nsmul_le_iff heps]
    simp only [hlib, and_true]
    omega
  · rw [nsmul_top_le_iff heps]
    simp only [hlib, and_false, or_false]

/-! ### What a release tells -/

/-- The scale of the noise of a value. -/
def NoisedAggregates.scale (release : NoisedAggregates)
    (i : Fin release.values.rows.length) : ℚ :=
  release.values.rows[i].2.noise.elim 0 LaplaceNoise.scale

/-- The scale of the noise of a value. -/
theorem scale_applyDifferentialPrivacy (hlib : installed.opendp = true ∨ installed.numpy = true)
    (i : Fin (applyDifferentialPrivacy installed aggregates sensitivity classification epsilon
      seed).values.rows.length) :
    (applyDifferentialPrivacy installed aggregates sensitivity classification epsilon seed).scale
      i = sensitivity / epsilon.getD (getEpsilon classification) := by
  have hnoise (kv : String × ℚ) : (addLaplaceNoise installed kv.2 sensitivity
      (epsilon.getD (getEpsilon classification)) seed).noise.elim 0 LaplaceNoise.scale =
        sensitivity / epsilon.getD (getEpsilon classification) := by
    rw [addLaplaceNoise]
    split_ifs with hopendp hnumpy
    · rfl
    · rfl
    · exact absurd hlib (by simp [hopendp, hnumpy])
  have hall : ∀ kv ∈ (applyDifferentialPrivacy installed aggregates sensitivity classification
      epsilon seed).values.rows, kv.2.noise.elim 0 LaplaceNoise.scale =
        sensitivity / epsilon.getD (getEpsilon classification) := by
    rw [rows_values, List.forall_mem_map]
    exact fun kv _ => hnoise kv
  exact hall _ (List.getElem_mem i.isLt)

/-- What a release spends is what it tells about aggregates that each change by the
    sensitivity at most. No seed is given: with the generators of a seed, numpy would draw the
    same noise for all of them. -/
theorem isPrivate_iff_spent_le (hlib : installed.opendp = true ∨ installed.numpy = true)
    (hs : 0 < sensitivity) (hepsilon : ∀ e ∈ epsilon, 0 < e) (e : ℚ) :
    Laplace.IsPrivate (sensitivity : ℝ) (fun i => ((applyDifferentialPrivacy installed aggregates
      sensitivity classification epsilon none).scale i : ℝ)) e ↔
    spent (applyDifferentialPrivacy installed aggregates sensitivity classification epsilon
      none) ≤ e := by
  have heps := getD_getEpsilon_pos classification hepsilon
  have hlength : (applyDifferentialPrivacy installed aggregates sensitivity classification epsilon
      none).values.rows.length = aggregates.rows.length := by
    rw [rows_values, List.length_map]
  have hscale : (0 : ℝ) < ((sensitivity / epsilon.getD (getEpsilon classification) : ℚ) : ℝ) :=
    Rat.cast_pos.2 (div_pos hs heps)
  have hspend : (sensitivity : ℝ) / ((sensitivity / epsilon.getD (getEpsilon classification) : ℚ) :
      ℝ) = (epsilon.getD (getEpsilon classification) : ℚ) := by
    rw [← Rat.cast_div, div_div_cancel₀ hs.ne']
  rw [spent_eq hs, if_pos hlib, ← WithTop.coe_nsmul, WithTop.coe_le_coe]
  simp only [scale_applyDifferentialPrivacy hlib]
  rw [Laplace.isPrivate_iff (fun _ => hscale) (Rat.cast_nonneg.2 hs.le), hspend,
    Finset.sum_const, Finset.card_univ, Fintype.card_fin, hlength, nsmul_eq_mul, nsmul_eq_mul]
  exact_mod_cast Iff.rfl

/-- So the outputs tell no more than the epsilon that is reported exactly if there is one
    aggregate at most. -/
theorem isPrivate_epsilon_iff (hlib : installed.opendp = true ∨ installed.numpy = true)
    (hs : 0 < sensitivity) (hepsilon : ∀ e ∈ epsilon, 0 < e) :
    Laplace.IsPrivate (sensitivity : ℝ) (fun i => ((applyDifferentialPrivacy installed aggregates
      sensitivity classification epsilon none).scale i : ℝ))
      (applyDifferentialPrivacy installed aggregates sensitivity classification epsilon
        none).epsilon ↔ aggregates.rows.length ≤ 1 := by
  rw [isPrivate_iff_spent_le hlib hs hepsilon, spent_eq hs, if_pos hlib]
  exact nsmul_le_iff (getD_getEpsilon_pos classification hepsilon)

namespace Sales

/-- Two aggregates of the same records. -/
def sales : Dict String ℚ := .ofList [("count", 10), ("total", 250)]

/-- Both libraries are installed. -/
def libraries : Installed := ⟨true, true⟩

/-- A release of one value spends what is reported. -/
theorem spent_one : spent (applyDifferentialPrivacy libraries (.ofList [("count", 10)]) 1
    .confidential none none) ≤ (applyDifferentialPrivacy libraries (.ofList [("count", 10)]) 1
      .confidential none none).epsilon :=
  (spent_le_iff libraries _ .confidential none one_pos (by rintro _ ⟨⟩)).2 (by decide)

/-- With noise of the scale 1, each of the two aggregates spends the epsilon of 1. -/
theorem not_spent_le_sales : ¬∀ installed aggregates classification seed sensitivity epsilon,
    0 < sensitivity → (∀ e ∈ epsilon, 0 < e) →
      spent (applyDifferentialPrivacy installed aggregates sensitivity classification epsilon
        seed) ≤ (applyDifferentialPrivacy installed aggregates sensitivity classification
          epsilon seed).epsilon := fun h => by
  have hle := h libraries sales .confidential none 1 none one_pos (by rintro _ ⟨⟩)
  rw [spent_eq one_pos, if_pos (.inl rfl)] at hle
  have hone := (nsmul_le_iff (getEpsilon_pos .confidential)).1 hle
  exact absurd hone (by decide)

end Sales

end Privacy

end OpenDataGov
