import Mathlib.Data.Rat.Cast.Order
import OpenDataGov.Lib.Dict
import OpenDataGov.Lib.Rate

/-!
# Scores of data quality

The scores of a dataset in the DAMA dimensions, from the results of its expectations, and
its overall score: rates of success, and their mean, in exact arithmetic.

The scorer goes over the results and counts, for each dimension, the successes and the failures; a
result counts for the dimension of its type, and for none if the type is not known. What is proved
of the scores is that they are the rates of these counts, so that the rest is about rates and
means, which `Lib.Rate` is about. A dimension without any results has the best score.

* `find?_score`: the score in a dimension is the rate of success of the results about it;
* `overallScore_score`: the overall score is the mean over the six dimensions;
* `overallScore_eq_one`: it is `1` exactly if nothing that counts has failed.

The source computes with floating-point numbers; the scores are rationals here.
-/

namespace OpenDataGov

namespace Quality

open Keyed Rate

/-- The DAMA dimensions of data quality. -/
inductive DAMADimension
  | completeness
  | accuracy
  | consistency
  | timeliness
  | uniqueness
  | validity
  deriving DecidableEq

namespace DAMADimension

/-- The text of a dimension. -/
def value : DAMADimension → String
  | .completeness => "completeness"
  | .accuracy => "accuracy"
  | .consistency => "consistency"
  | .timeliness => "timeliness"
  | .uniqueness => "uniqueness"
  | .validity => "validity"

/-- The dimensions, in their order. -/
def all : List DAMADimension :=
  [.completeness, .accuracy, .consistency, .timeliness, .uniqueness, .validity]

theorem value_injective : Function.Injective value := by
  intro d d' h
  cases d <;> cases d' <;> first | rfl | exact absurd h (by decide)

theorem mem_all (d : DAMADimension) : d ∈ all := by
  cases d <;> decide

end DAMADimension

/-- The dimensions that the types of expectations are about. -/
def expectationDimensionMap : Dict String DAMADimension := .ofList [
  ("expect_column_values_to_not_be_null", .completeness),
  ("expect_table_row_count_to_be_between", .completeness),
  ("expect_column_values_to_be_between", .accuracy),
  ("expect_column_mean_to_be_between", .accuracy),
  ("expect_column_values_to_match_regex", .validity),
  ("expect_column_values_to_be_in_set", .validity),
  ("expect_column_values_to_be_of_type", .validity),
  ("expect_column_values_to_be_unique", .uniqueness),
  ("expect_compound_columns_to_be_unique", .uniqueness),
  ("expect_column_pair_values_to_be_equal", .consistency),
  ("expect_column_values_to_match_strftime_format", .timeliness)]

/-- The result of an expectation, which may lack either entry. -/
structure ExpectationResult where
  expectationType : Option String
  success : Option Bool
  deriving DecidableEq

/-- The expectation was met. -/
def ExpectationResult.Succeeded (r : ExpectationResult) : Prop := r.success.getD false = true

instance : DecidablePred ExpectationResult.Succeeded := fun r =>
  inferInstanceAs (Decidable (r.success.getD false = true))

/-- What computes the scores: a map from the types of expectations to dimensions. -/
structure DAMAScorer where
  map : Dict String DAMADimension

namespace DAMAScorer

/-- A scorer with this map, or with the usual one if there is none or it is empty. -/
def create (dimensionMap : Option (Dict String DAMADimension)) : DAMAScorer :=
  match dimensionMap with
  | none => ⟨expectationDimensionMap⟩
  | some d => if d.rows = [] then ⟨expectationDimensionMap⟩ else ⟨d⟩

variable (scorer : DAMAScorer)

/-- The dimension that a result counts for. -/
def dimension (r : ExpectationResult) : Option DAMADimension :=
  scorer.map.find? (r.expectationType.getD "")

/-- The numbers of results, by the values of their dimensions. -/
structure Counters where
  dimensionPass : Dict String ℕ
  dimensionTotal : Dict String ℕ

/-- Counting a result. -/
def count (c : Counters) (r : ExpectationResult) : Counters :=
  match scorer.dimension r with
  | none => c
  | some dimension =>
    let total := c.dimensionTotal.set dimension.value
      ((c.dimensionTotal.find? dimension.value).getD 0 + 1)
    if r.Succeeded then
      ⟨c.dimensionPass.set dimension.value ((c.dimensionPass.find? dimension.value).getD 0 + 1),
        total⟩
    else ⟨c.dimensionPass, total⟩

/-- The score of a dimension. -/
def Counters.score (c : Counters) (dim : DAMADimension) : ℚ :=
  let total := (c.dimensionTotal.find? dim.value).getD 0
  if total = 0 then 1 else (c.dimensionPass.find? dim.value).getD 0 / total

/-- The scores in all the dimensions, from the results of expectations. -/
def score (results : List ExpectationResult) : Dict String ℚ :=
  let c := results.foldl scorer.count ⟨.empty, .empty⟩
  .ofList (DAMADimension.all.map fun dim => (dim.value, c.score dim))

/-- The overall score, from those in the dimensions. -/
def overallScore (dimensionScores : Dict String ℚ) : ℚ :=
  if dimensionScores.rows = [] then 0
  else (dimensionScores.rows.map Prod.snd).sum / dimensionScores.rows.length

/-! ## Counting -/

variable {scorer} (results : List ExpectationResult) {r : ExpectationResult} {d : DAMADimension}
  {c : Counters}

variable (scorer) in
/-- How many results about a dimension are successes. -/
def passes (results : List ExpectationResult) (d : DAMADimension) : ℕ :=
  results.countP fun r => scorer.dimension r = some d ∧ r.Succeeded

variable (scorer) in
/-- How many results about a dimension are failures. -/
def failures (results : List ExpectationResult) (d : DAMADimension) : ℕ :=
  results.countP fun r => scorer.dimension r = some d ∧ ¬r.Succeeded

variable (scorer c r d) in
/-- The counters after a result. -/
theorem find?_count :
    ((scorer.count c r).dimensionPass.find? d.value).getD 0 =
        (c.dimensionPass.find? d.value).getD 0 +
          (if scorer.dimension r = some d ∧ r.Succeeded then 1 else 0) ∧
      ((scorer.count c r).dimensionTotal.find? d.value).getD 0 =
        (c.dimensionTotal.find? d.value).getD 0 +
          (if scorer.dimension r = some d then 1 else 0) := by
  rw [count]
  cases hd : scorer.dimension r with
  | none => simp
  | some d' =>
    by_cases heq : d = d'
    · subst heq
      by_cases hr : r.Succeeded <;> simp [hr, Dict.find?_set]
    · have hne : d.value ≠ d'.value := fun h => heq (DAMADimension.value_injective h)
      have hne' : d' ≠ d := Ne.symm heq
      by_cases hr : r.Succeeded <;> simp [hr, Dict.find?_set, hne, hne']

variable (scorer c d) in
/-- The counters after some results. -/
theorem find?_foldl_count :
    ((results.foldl scorer.count c).dimensionPass.find? d.value).getD 0 =
        (c.dimensionPass.find? d.value).getD 0 + scorer.passes results d ∧
      ((results.foldl scorer.count c).dimensionTotal.find? d.value).getD 0 =
        (c.dimensionTotal.find? d.value).getD 0 +
          (scorer.passes results d + scorer.failures results d) := by
  induction results generalizing c with
  | nil => simp [passes, failures]
  | cons r results ih =>
    obtain ⟨hpass, htotal⟩ := ih (scorer.count c r)
    obtain ⟨hpass', htotal'⟩ := find?_count scorer r d c
    rw [List.foldl_cons, hpass, htotal, hpass', htotal']
    simp only [passes, failures, List.countP_cons, decide_eq_true_eq]
    by_cases hd : scorer.dimension r = some d <;> by_cases hr : r.Succeeded <;>
      simp [hd, hr] <;> omega

/-- The scores are the rates of success in the dimensions. -/
theorem rows_score : (scorer.score results).rows = DAMADimension.all.map fun d =>
    (d.value, rate ℚ (scorer.passes results d) (scorer.failures results d)) := by
  have hrate : ∀ d : DAMADimension,
      (results.foldl scorer.count ⟨.empty, .empty⟩).score d =
        rate ℚ (scorer.passes results d) (scorer.failures results d) := by
    intro d
    obtain ⟨hpass, htotal⟩ :=
      find?_foldl_count scorer results d ⟨.empty, .empty⟩
    rw [Counters.score, hpass, htotal, rate]
    simp [Dict.find?]
  rw [score, Dict.rows_ofList_of_nodup]
  · exact List.map_congr_left fun d _ => by rw [hrate]
  · rw [List.map_map]
    exact (by decide : DAMADimension.all.Nodup).map DAMADimension.value_injective

/-- The score in a dimension is a rate. -/
theorem find?_score {k : String} {x : ℚ} : (scorer.score results).find? k = some x ↔
    ∃ d : DAMADimension, d.value = k ∧
      rate ℚ (scorer.passes results d) (scorer.failures results d) = x := by
  rw [Dict.find?_eq_some, rows_score]
  simp [DAMADimension.mem_all]

/-- The overall score is the mean of the rates of success. -/
theorem overallScore_score : overallScore (scorer.score results) =
    mean (DAMADimension.all.map fun d =>
      rate ℚ (scorer.passes results d) (scorer.failures results d)) := by
  rw [overallScore, rows_score, mean, if_neg (by simp [DAMADimension.all]),
    if_neg (by simp [DAMADimension.all]), List.map_map, List.length_map, List.length_map]
  rfl

/-- Nothing has failed if all that counts has succeeded. -/
theorem failures_eq_zero : (∀ d, scorer.failures results d = 0) ↔
    ∀ r ∈ results, scorer.dimension r ≠ none → r.Succeeded := by
  simp only [failures, List.countP_eq_zero, decide_eq_true_eq, not_and, not_not]
  constructor
  · intro h r hr hne
    obtain ⟨d, hd⟩ := Option.ne_none_iff_exists'.1 hne
    exact h d r hr hd
  · intro h d r hr hd
    exact h r hr (hd ▸ Option.some_ne_none d)

/-- The overall score is the best one exactly if no result that counts is a failure. -/
theorem overallScore_eq_one : overallScore (scorer.score results) = 1 ↔
    ∀ r ∈ results, scorer.dimension r ≠ none → r.Succeeded := by
  rw [overallScore_score, mean_eq_one (by simp [DAMADimension.all])
    (List.forall_mem_map.2 fun _ _ => rate_le_one), List.forall_mem_map, ← failures_eq_zero]
  simp only [rate_eq_one, DAMADimension.mem_all, true_implies]

end DAMAScorer

end Quality

end OpenDataGov
