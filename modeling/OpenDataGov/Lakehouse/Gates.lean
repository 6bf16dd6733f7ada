import OpenDataGov.Lakehouse.Promotion
import OpenDataGov.Quality.Sla

/-!
# The two gates of quality

A dataset is scored, checked against the service levels of its layer, dimension by
dimension, and promoted to the next layer by its overall score.

The two gates look at the same results, and with the same threshold for a layer
(`requiredScore_eq`): the checks at the score in each dimension, and the promotion at their mean. A
mean may reach what one of its terms does not, so that passing the checks is more than being
promoted, and when it is no more is a matter of counting failures. Both gates are monotone in the
results.

* `allPass_of_promoted_iff`: when what is promoted passes the checks, too;
* `scoring_monotone`: better results have better scores, and pass what passed before.
-/

namespace OpenDataGov

namespace Lakehouse

open Keyed Quality DAMAScorer Rate

/-- The layer after a layer. -/
def nextLayer : MedallionLayer → Option MedallionLayer
  | .bronze => some .silver
  | .silver => some .gold
  | .gold => some .platinum
  | .platinum => none

/-- The score that a promotion requires. -/
def Promote.requiredScore (a : Promote) : ℚ :=
  (dqThresholds.find? (a.sourceLayer, a.targetLayer)).getD 1

variable {scorer : DAMAScorer} {results : List ExpectationResult} {a : Promote}

/-- To get to the next layer, an overall score is required that is the threshold of all
    dimensions in the layer. -/
theorem requiredScore_eq (h : nextLayer a.sourceLayer = some a.targetLayer) :
    dqThresholds.find? (a.sourceLayer, a.targetLayer) = some a.requiredScore ∧
      getLayerThresholds a.sourceLayer.value = allDimensions a.requiredScore := by
  have hbronze : dqThresholds.find? (.bronze, .silver) = some (7 / 10) := rfl
  have hsilver : dqThresholds.find? (.silver, .gold) = some (85 / 100) := rfl
  have hgold : dqThresholds.find? (.gold, .platinum) = some (95 / 100) := rfl
  obtain ⟨domainId, sourceLayer, targetLayer, datasetId, dqScore, decisionId⟩ := a
  simp only [Promote.requiredScore] at h ⊢
  cases sourceLayer <;> cases h
  · rw [hbronze]
    exact ⟨rfl, getLayerThresholds_eq (by norm_num [MedallionLayer.value])⟩
  · rw [hsilver]
    exact ⟨rfl, getLayerThresholds_eq (by norm_num [MedallionLayer.value])⟩
  · rw [hgold]
    exact ⟨rfl, getLayerThresholds_eq (by norm_num [MedallionLayer.value])⟩

/-- The mean of the rates of success reaches a threshold exactly if the rates of failure do
    not add up to more than what is left to `1`, six times. -/
theorem le_overallScore {t : ℚ} : t ≤ overallScore (scorer.score results) ↔
    (DAMADimension.all.map fun d =>
      failureRate ℚ (scorer.passes results d) (scorer.failures results d)).sum ≤ 6 * (1 - t) := by
  rw [overallScore_score, le_mean (by simp [DAMADimension.all])]
  simp only [DAMADimension.all, rate_eq, List.map_cons, List.map_nil, List.sum_cons,
    List.sum_nil, List.length_cons, List.length_nil]
  push_cast
  constructor <;> intro h <;> linarith

/-- A dataset that is promoted by its overall score passes the checks of its layer exactly
    if the rates of failure in the dimensions add up to too much for a promotion, or none of
    them is too much by itself. -/
theorem allPass_of_promoted_iff (hnext : nextLayer a.sourceLayer = some a.targetLayer)
    (hscore : a.dqScore = .finite (overallScore (scorer.score results))) :
    (¬a.Refused →
      AllPass (checkSla (scorer.score results) (getLayerThresholds a.sourceLayer.value))) ↔
    6 * (1 - a.requiredScore) < (DAMADimension.all.map fun d =>
      failureRate ℚ (scorer.passes results d) (scorer.failures results d)).sum ∨
    ∀ d, failureRate ℚ (scorer.passes results d) (scorer.failures results d) ≤
      1 - a.requiredScore := by
  obtain ⟨hfind, hthresholds⟩ := requiredScore_eq hnext
  have hrefused : ¬a.Refused ↔ a.requiredScore ≤ overallScore (scorer.score results) := by
    rw [Promote.refused_iff hfind, hscore, Score.lt, decide_eq_true_eq, not_lt]
  rw [hrefused, le_overallScore, hthresholds, allPass_allDimensions, ← not_le, ← imp_iff_not_or]
  simp only [rate_eq, le_sub_comm]

/-! ## Better results -/

/-- The results `l'` have better scores than `l`, pass all checks that `l` passes, and are
    refused no promotion that `l` is not. -/
structure Better (scorer : DAMAScorer) (l l' : List ExpectationResult) : Prop where
  scores : ∀ k x, (scorer.score l).find? k = some x →
    ∃ y, (scorer.score l').find? k = some y ∧ x ≤ y
  overall : overallScore (scorer.score l) ≤ overallScore (scorer.score l')
  checks : ∀ thresholds k, (checkSla (scorer.score l) thresholds).find? k = some true →
    (checkSla (scorer.score l') thresholds).find? k = some true
  promotions : ∀ a : Promote,
    ¬{ a with dqScore := .finite (overallScore (scorer.score l)) : Promote }.Refused →
    ¬{ a with dqScore := .finite (overallScore (scorer.score l')) : Promote }.Refused

/-- The scores are between `0` and `1`, and the overall one is `1` exactly if no result that
    counts is a failure. -/
structure InRange (scorer : DAMAScorer) (l : List ExpectationResult) : Prop where
  scores : ∀ k x, (scorer.score l).find? k = some x → 0 ≤ x ∧ x ≤ 1
  overall : 0 ≤ overallScore (scorer.score l) ∧ overallScore (scorer.score l) ≤ 1
  best : overallScore (scorer.score l) = 1 ↔
    ∀ r ∈ l, scorer.dimension r ≠ none → r.Succeeded

/-- What is not refused is not refused when it gets better. -/
theorem not_refused_of_improves {l l' : List ExpectationResult} (h : Improves l l')
    (ha : ¬{ a with dqScore := .finite (overallScore (scorer.score l)) : Promote }.Refused) :
    ¬{ a with dqScore := .finite (overallScore (scorer.score l')) : Promote }.Refused := by
  cases hfind : dqThresholds.find? (a.sourceLayer, a.targetLayer) with
  | none => exact Promote.not_refused hfind
  | some t =>
    have hrefused : ∀ x, { a with dqScore := .finite x : Promote }.Refused ↔ x < t := fun x =>
      (Promote.refused_iff (a := { a with dqScore := .finite x }) hfind).trans decide_eq_true_iff
    rw [hrefused, not_lt] at ha ⊢
    exact ha.trans h.overallScore_le

/-- The scores are between 0 and 1. -/
theorem inRange (scorer : DAMAScorer) (l : List ExpectationResult) : InRange scorer l where
  scores k x hx := by
    obtain ⟨d, rfl, rfl⟩ := (find?_score l).1 hx
    exact ⟨rate_nonneg, rate_le_one⟩
  overall := by
    rw [overallScore_score]
    exact ⟨mean_nonneg (List.forall_mem_map.2 fun _ _ => rate_nonneg),
      mean_le_one (List.forall_mem_map.2 fun _ _ => rate_le_one)⟩
  best := overallScore_eq_one l

/-- However a dataset gets better, its scores do, and what passed still passes; and whatever
    the results, the scores are in range. -/
theorem scoring_monotone (scorer : DAMAScorer) :
    (∀ l l', Improves l l' → Better scorer l l') ∧ ∀ l, InRange scorer l := by
  refine ⟨fun l l' h => ⟨fun k x => h.find?_score, h.overallScore_le, fun thresholds k => ?_,
    fun a => not_refused_of_improves h⟩, inRange scorer⟩
  exact h.checkSla

namespace Finance

/-- Nothing in a column is null, or something is. -/
def notNull (success : Bool) : ExpectationResult :=
  ⟨some "expect_column_values_to_not_be_null", some success⟩

/-- The usual scorer. -/
def usual : DAMAScorer := create none

/-- The promotion of a dataset with these results, out of the first layer. -/
def scored (results : List ExpectationResult) : Promote :=
  promotion (.finite (overallScore (usual.score results)))

/-- One check of four has failed. -/
def mostlyComplete : List ExpectationResult :=
  [notNull true, notNull true, notNull false, notNull true]

/-- Results with some failures that pass the checks of their layer. -/
theorem allPass_mostlyComplete :
    AllPass (checkSla (usual.score mostlyComplete) (getLayerThresholds "bronze")) := by
  have hrefused : ¬(scored mostlyComplete).Refused := by
    rw [Promote.refused_iff (t := 7 / 10) rfl]
    decide +kernel
  refine (allPass_of_promoted_iff (a := scored mostlyComplete) rfl rfl).2 (.inr ?_) hrefused
  intro d
  cases d <;> decide +kernel

/-- The only check has failed, and the dataset is promoted. -/
theorem not_allPass : ¬∀ (results : List ExpectationResult) (a : Promote),
    nextLayer a.sourceLayer = some a.targetLayer →
    a.dqScore = .finite (overallScore (usual.score results)) → ¬a.Refused →
    AllPass (checkSla (usual.score results) (getLayerThresholds a.sourceLayer.value)) := by
  intro h
  have hrefused : ¬(scored [notNull false]).Refused := by
    rw [Promote.refused_iff (t := 7 / 10) rfl]
    decide +kernel
  exact absurd (h [notNull false] (scored [notNull false]) rfl rfl hrefused) (by decide +kernel)

/-- The check that failed is met, and so is another one. -/
theorem better_repaired : Better usual mostlyComplete
    (notNull true :: [notNull true, notNull true, notNull true, notNull true]) := by
  refine (scoring_monotone usual).1 _ _ ⟨[notNull true, notNull true, notNull true, notNull true],
    [notNull true], ?_, by decide, .refl _⟩
  exact .cons ⟨rfl, .inl rfl⟩ (.cons ⟨rfl, .inl rfl⟩ (.cons ⟨rfl, .inr (by decide)⟩
    (.cons ⟨rfl, .inl rfl⟩ .nil)))

end Finance

end Lakehouse

end OpenDataGov
