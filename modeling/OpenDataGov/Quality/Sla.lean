import OpenDataGov.Quality.Dimensions

/-!
# Service levels of data quality

The scores in the dimensions, checked against thresholds for each layer of the medallion
architecture, and what becomes of them when a dataset gets better (`Improves`): failures
turn into successes, and there are more successes.

Better results are a relation between two lists, so that the results about one dimension can be
compared by counting: there are no more failures and no fewer successes in any dimension. A rate
is monotone in this, and so are the mean of rates and what passes a threshold. Nothing else
of the thresholds is used, which are a table of the source.

* `find?_checkSla`: what passes is what the scores reach;
* `Improves.find?_score`, `Improves.overallScore_le`, `Improves.checkSla`: when a dataset
  gets better, so do its scores, and what passed still passes.
-/

namespace OpenDataGov

namespace Quality

open Keyed Rate DAMAScorer

/-- The same threshold in all the dimensions. -/
def allDimensions (threshold : ℚ) : Dict String ℚ :=
  .ofList (DAMADimension.all.map fun dim => (dim.value, threshold))

/-- The thresholds of the layers, unless there are others. -/
def defaultThresholds : Dict String (Dict String ℚ) := .ofList [
  ("bronze", allDimensions (70 / 100)),
  ("silver", allDimensions (85 / 100)),
  ("gold", allDimensions (95 / 100)),
  ("platinum", allDimensions (98 / 100))]

/-- Checking the score in each dimension against its threshold. -/
def checkSla (dimensionScores thresholds : Dict String ℚ) : Dict String Bool :=
  .ofList (thresholds.rows.map fun kv =>
    (kv.1, decide (kv.2 ≤ (dimensionScores.find? kv.1).getD 0)))

/-- The thresholds of a layer. An unknown layer has those of the first one. -/
def getLayerThresholds (layer : String) : Dict String ℚ :=
  (defaultThresholds.find? layer).getD (allDimensions (70 / 100))

/-- All the checks are passed. -/
def AllPass (checks : Dict String Bool) : Prop := ∀ kv ∈ checks.rows, kv.2 = true

instance (checks : Dict String Bool) : Decidable (AllPass checks) :=
  inferInstanceAs (Decidable (∀ kv ∈ checks.rows, kv.2 = true))

/-- The thresholds of each layer. -/
theorem getLayerThresholds_eq {layer : String} {thresholds : Dict String ℚ}
    (h : (layer, thresholds) ∈ [("bronze", allDimensions (70 / 100)),
      ("silver", allDimensions (85 / 100)), ("gold", allDimensions (95 / 100)),
      ("platinum", allDimensions (98 / 100))]) : getLayerThresholds layer = thresholds := by
  have hfind : defaultThresholds.find? layer = some thresholds :=
    (Dict.find?_ofList_of_nodup (by simp)).2 h
  rw [getLayerThresholds, hfind, Option.getD_some]

variable {dimensionScores thresholds : Dict String ℚ} {k : String} {b : Bool} {t : ℚ}

/-- Each threshold is checked against the score in its dimension, which is 0 if there is none. -/
theorem rows_checkSla : (checkSla dimensionScores thresholds).rows = thresholds.rows.map fun kv =>
    (kv.1, decide (kv.2 ≤ (dimensionScores.find? kv.1).getD 0)) := by
  refine Dict.rows_ofList_of_nodup ?_
  rw [List.map_map]
  exact thresholds.nodup

/-- A dimension with a threshold passes exactly if its score, or zero, reaches it. -/
theorem find?_checkSla : (checkSla dimensionScores thresholds).find? k = some b ↔
    ∃ t, thresholds.find? k = some t ∧ decide (t ≤ (dimensionScores.find? k).getD 0) = b := by
  simp only [Dict.find?_eq_some, rows_checkSla, List.mem_map, Prod.exists, Prod.mk.injEq]
  constructor
  · rintro ⟨k, t, hmem, rfl, rfl⟩
    exact ⟨t, hmem, rfl⟩
  · rintro ⟨t, hmem, rfl⟩
    exact ⟨k, t, hmem, rfl, rfl⟩

/-- The thresholds of a layer are the same in all dimensions. -/
theorem rows_allDimensions :
    (allDimensions t).rows = DAMADimension.all.map fun dim => (dim.value, t) := by
  refine Dict.rows_ofList_of_nodup ?_
  rw [List.map_map]
  exact (by decide : DAMADimension.all.Nodup).map DAMADimension.value_injective

/-- With one threshold for all of them, all dimensions pass exactly if all rates of
    success reach it. -/
theorem allPass_allDimensions {scorer : DAMAScorer} {results : List ExpectationResult} :
    AllPass (checkSla (scorer.score results) (allDimensions t)) ↔
      ∀ d, t ≤ rate ℚ (scorer.passes results d) (scorer.failures results d) := by
  have hscore : ∀ d : DAMADimension, (scorer.score results).find? d.value =
      some (rate ℚ (scorer.passes results d) (scorer.failures results d)) := fun d =>
    (find?_score results).2 ⟨d, rfl, rfl⟩
  rw [AllPass, rows_checkSla, rows_allDimensions, List.map_map, List.forall_mem_map]
  simp only [Function.comp_apply, hscore, Option.getD_some, decide_eq_true_eq,
    DAMADimension.mem_all, true_implies]

/-! ## Better results -/

/-- The results `l'` are those of `l`, some failures turned into successes, and other
    successes, in any order. -/
def Improves (l l' : List ExpectationResult) : Prop :=
  ∃ turned added, List.Forall₂ (fun r r' => r'.expectationType = r.expectationType ∧
    (r' = r ∨ ¬r.Succeeded ∧ r'.Succeeded)) l turned ∧
    (∀ r ∈ added, r.Succeeded) ∧ l'.Perm (turned ++ added)

section Improving

variable {scorer : DAMAScorer} {l l' : List ExpectationResult}

/-- There are no fewer successes about a dimension, and no more failures. -/
theorem Improves.counts (h : Improves l l') (d : DAMADimension) :
    scorer.passes l d ≤ scorer.passes l' d ∧ scorer.failures l' d ≤ scorer.failures l d := by
  obtain ⟨turned, added, hturned, hadded, hperm⟩ := h
  have hcounts : scorer.passes l d ≤ scorer.passes turned d ∧
      scorer.failures turned d ≤ scorer.failures l d := by
    clear hperm
    induction hturned with
    | nil => exact ⟨le_rfl, le_rfl⟩
    | @cons r r' _ _ hr _ ih =>
      obtain ⟨htype, hsucceeded⟩ := hr
      have hdimension : scorer.dimension r' = scorer.dimension r := by
        rw [dimension, dimension, htype]
      simp only [passes, failures, List.countP_cons, decide_eq_true_eq, hdimension] at ih ⊢
      rcases hsucceeded with rfl | ⟨hnot, hyes⟩
      · omega
      · simp only [hnot, hyes, and_true, and_false, not_true, not_false_iff, if_false] at ih ⊢
        omega
  -- The results that are added have succeeded; the order does not count.
  have hnone : scorer.failures added d = 0 :=
    List.countP_eq_zero.2 fun r hr => by simp [hadded r hr]
  rw [passes, passes, failures, failures, hperm.countP_eq, hperm.countP_eq, List.countP_append,
    List.countP_append]
  change _ ≤ scorer.passes turned d + scorer.passes added d ∧
    scorer.failures turned d + scorer.failures added d ≤ _
  rw [hnone]
  exact ⟨Nat.le_add_right_of_le hcounts.1, hcounts.2⟩

theorem Improves.rate_le (h : Improves l l') (d : DAMADimension) :
    rate ℚ (scorer.passes l d) (scorer.failures l d) ≤
      rate ℚ (scorer.passes l' d) (scorer.failures l' d) :=
  rate_mono (h.counts d).1 (h.counts d).2

/-- No score gets lower. -/
theorem Improves.find?_score (h : Improves l l') {x : ℚ}
    (hx : (scorer.score l).find? k = some x) :
    ∃ y, (scorer.score l').find? k = some y ∧ x ≤ y := by
  obtain ⟨d, rfl, rfl⟩ := (DAMAScorer.find?_score l).1 hx
  exact ⟨_, (DAMAScorer.find?_score l').2 ⟨d, rfl, rfl⟩, h.rate_le d⟩

theorem Improves.overallScore_le (h : Improves l l') :
    overallScore (scorer.score l) ≤ overallScore (scorer.score l') := by
  rw [overallScore_score, overallScore_score]
  refine mean_mono (List.forall₂_map_left_iff.2 (List.forall₂_map_right_iff.2 ?_))
  exact List.forall₂_same.2 fun d _ => h.rate_le d

/-- What passed still passes. -/
theorem Improves.checkSla (h : Improves l l')
    (hpass : (checkSla (scorer.score l) thresholds).find? k = some true) :
    (Quality.checkSla (scorer.score l') thresholds).find? k = some true := by
  obtain ⟨t, ht, hle⟩ := find?_checkSla.1 hpass
  refine find?_checkSla.2 ⟨t, ht, decide_eq_true (le_trans (of_decide_eq_true hle) ?_)⟩
  cases hx : (scorer.score l).find? k with
  | some x =>
    obtain ⟨y, hy, hxy⟩ := h.find?_score hx
    rw [hy]
    exact hxy
  | none =>
    -- A key that is not the value of a dimension has no score before and after.
    cases hy : (scorer.score l').find? k with
    | none => exact le_rfl
    | some y =>
      obtain ⟨d, rfl, rfl⟩ := (DAMAScorer.find?_score l').1 hy
      exact rate_nonneg

end Improving

end Quality

end OpenDataGov
