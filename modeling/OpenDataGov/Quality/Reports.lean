import OpenDataGov.Lakehouse.Gates
import OpenDataGov.Lib.Attempts
import OpenDataGov.Lib.DateTime
import OpenDataGov.Quality.Suites

/-!
# Reports of the quality gate

The service that validates datasets: it loads the expectations of a suite, scores their results
and keeps a report, which can be asked for later. The results are simulated, all of them are
successes.

A request to validate does what the engine does, in its order: the suite is loaded from a file
(`Quality.Suites` is about which), its expectations are looked at one by one, their results are
scored, and the report is made, which is validated as a model. Any of these may fail, and the
request fails then; nothing is kept. The file system, the identifier of the report and the
time are given with the request.

* `exists_report_iff`: whether there is a report depends on the suite, and on whether it has a
  name;
* `getReport_serve`: a report is found that was returned last under its identifier;
* `served_passes`: what is returned has the best scores, so it is refused by no promotion and
  meets the service levels of all layers.

The last one follows from the simulation: a suite that is loaded has no results but successes.
-/

namespace OpenDataGov

namespace Quality

open Calendar Keyed Attempts

/-- What may be raised while a dataset is validated. -/
inductive ValidateError
  /-- By reading the file of the suite. -/
  | suite (msg : String)
  | typeError
  | attributeError
  | invalid (e : Error)

/-- The report of an evaluation. -/
structure QualityReport where
  id : UUID
  datasetId : Bounded 1 200
  domainId : Bounded 1 100
  layer : Bounded 1 20
  suiteName : Bounded 1 200
  dqScore : { x : ℚ // 0 ≤ x ∧ x ≤ 1 }
  dimensionScores : Dict String ℚ
  expectationsPassed : ℕ
  expectationsFailed : ℕ
  expectationsTotal : ℕ
  createdAt : DateTime
  triggeredBy : Option UUID

/-! ### Expectations -/

/-- What has a length and can be looped over. -/
def expectationItems : Yaml.Value → Except ValidateError (List Yaml.Value)
  | .seq vs => .ok vs
  | .pair v w => .ok [v, w]
  | .set xs => .ok (xs.map .scalar)
  | .map kvs => .ok (kvs.map fun kv => .scalar kv.1)
  | .scalar (.str s) => .ok (s.toList.map fun c => .scalar (.str (String.singleton c)))
  | .scalar (.bytes bs) => .ok (bs.map fun b => .scalar (.int b.toNat))
  | .scalar _ => .error .typeError

/-- `exp.get("expectation_type", "")` -/
def expectationType : Yaml.Value → Except ValidateError Yaml.Value
  | .map kvs => .ok (Yaml.Mapping.getD kvs "expectation_type" (.scalar (.str "")))
  | _ => .error .attributeError

/-- The values that can be looked up in a dictionary. -/
def hashable : Yaml.Value → Bool
  | .scalar _ => true
  | .pair v w => hashable v && hashable w
  | .seq _ | .set _ | .map _ => false

/-- The type of an expectation. What is no string is looked up in vain, as the empty one is. -/
def typeName : Yaml.Value → Option String
  | .scalar (.str s) => some s
  | _ => none

/-- A simulated result, as it is scored. -/
def simulated (type : Yaml.Value) : Except ValidateError ExpectationResult :=
  if hashable type then .ok ⟨typeName type, some true⟩ else .error .typeError

/-- A field that is a score. -/
def unitInterval (field : String) (x : ℚ) : Validated { x : ℚ // 0 ≤ x ∧ x ≤ 1 } :=
  if h : 0 ≤ x ∧ x ≤ 1 then .ok ⟨x, h⟩ else .error [field]

/-! ### The engine -/

/-- The scorer of the engine. -/
def usualScorer : DAMAScorer := .create none

/-- The name of the suite in a report. -/
def reportedName (body : ValidateRequest) : String :=
  if body.suiteName.text = "default" then body.suiteName.text ++ "_" ++ body.layer.text
  else body.suiteName.text

namespace QualityEngine

/-- The results of the expectations, of which all are taken to be met. -/
def results (engine : QualityEngine) (fs : FileSystem) (body : ValidateRequest) :
    Except ValidateError (List ExpectationResult) := do
  let expectations ← (engine.loadSuite fs body.suiteName.text body.layer.text).mapError .suite
  let items ← expectationItems expectations
  let types ← items.mapM expectationType
  types.mapM simulated

/-- The report on a dataset. -/
def report (engine : QualityEngine) (fs : FileSystem) (body : ValidateRequest) (id : UUID)
    (now : DateTime) : Except ValidateError QualityReport := do
  let results ← engine.results fs body
  let total := results.length
  let passed := results.countP fun r => r.Succeeded
  let dimensionScores := usualScorer.score results
  let (suiteName, dqScore) ← (Validated.model "QualityReport" <|
    (Validated.bounded 1 200 "suite_name" (reportedName body)).and <|
    unitInterval "dq_score" (DAMAScorer.overallScore dimensionScores)).mapError .invalid
  return {
    id := id
    datasetId := body.datasetId
    domainId := body.domainId
    layer := body.layer
    suiteName := suiteName
    dqScore := dqScore
    dimensionScores := dimensionScores
    expectationsPassed := passed
    expectationsFailed := total - passed
    expectationsTotal := total
    createdAt := now
    triggeredBy := body.triggeredBy }

end QualityEngine

/-! ### The service -/

/-- The engine with the reports that it keeps. -/
structure QualityGate where
  engine : QualityEngine
  reports : Dict UUID QualityReport

/-- The requests of the API, with what the engine finds: the files, and for a report its
    identifier and its time. -/
inductive GateRequest
  | validateDataset (body : ValidateRequest) (fs : FileSystem) (id : UUID) (now : DateTime)
  | getReport (reportId : UUID)

/-- The responses, with their status. -/
inductive GateResponse
  /-- 201 -/
  | created (report : QualityReport)
  /-- 200 -/
  | found (report : QualityReport)
  /-- 404 -/
  | notFound
  /-- 500 -/
  | failed (e : ValidateError)

namespace QualityGate

/-- A gate that has been started. -/
def start (engine : QualityEngine) : QualityGate := ⟨engine, .empty⟩

/-- A dataset is validated, and its report kept. -/
def validate (gate : QualityGate) (body : ValidateRequest) (fs : FileSystem) (id : UUID)
    (now : DateTime) : Except ValidateError (QualityReport × QualityGate) := do
  let report ← gate.engine.report fs body id now
  return (report, { gate with reports := gate.reports.set report.id report })

/-- The report with an identifier, if there is one. -/
def getReport (gate : QualityGate) (reportId : UUID) : Option QualityReport :=
  gate.reports.find? reportId

/-- What the service responds, and its reports after that. -/
def respond (gate : QualityGate) : GateRequest → GateResponse × QualityGate
  | .validateDataset body fs id now => match gate.validate body fs id now with
    | .ok (report, gate') => (.created report, gate')
    | .error e => (.failed e, gate)
  | .getReport reportId => match gate.getReport reportId with
    | some report => (.found report, gate)
    | none => (.notFound, gate)

/-- The responses to some requests, one after another, and the gate after them. -/
def serve (gate : QualityGate) : List GateRequest → List GateResponse × QualityGate
  | [] => ([], gate)
  | q :: qs =>
    let (response, gate') := gate.respond q
    let (responses, gate'') := gate'.serve qs
    (response :: responses, gate'')

end QualityGate

/-- The report that a response returns. -/
def GateResponse.report? : GateResponse → Option QualityReport
  | .created report | .found report => some report
  | .notFound | .failed _ => none

/-- The report that a response says to be created, with its identifier. -/
def GateResponse.created? : GateResponse → Option (UUID × QualityReport)
  | .created report => some (report.id, report)
  | _ => none

/-! ### What is reported -/

variable {engine : QualityEngine} {fs : FileSystem} {body : ValidateRequest} {id : UUID}
  {now : DateTime} {gate gate' : QualityGate} {q : GateRequest} {qs : List GateRequest}
  {r : QualityReport} {rs : List ExpectationResult} {response : GateResponse}

/-- What can be evaluated is made of mappings, each with a type that can be looked up. -/
def Evaluable (expectations : Yaml.Value) : Prop :=
  ∃ items, expectationItems expectations = .ok items ∧ ∀ v ∈ items, ∃ kvs, v = .map kvs ∧
    hashable (Yaml.Mapping.getD kvs "expectation_type" (.scalar (.str ""))) = true

/-- The type of an expectation is read from a mapping, and is empty if it has none. -/
theorem expectationType_eq_ok {v type : Yaml.Value} : expectationType v = .ok type ↔
    ∃ kvs, v = .map kvs ∧
      Yaml.Mapping.getD kvs "expectation_type" (.scalar (.str "")) = type := by
  cases v with
  | map kvs => simp [expectationType]
  | _ => exact iff_of_false (by rintro ⟨⟩) (by rintro ⟨_, ⟨⟩, -⟩)

/-- The type is looked up, so that it must be hashable. -/
theorem succeeds_simulated {type : Yaml.Value} :
    Succeeds (simulated type) ↔ hashable type = true := by
  rw [simulated]
  split_ifs with h
  · exact iff_of_true succeeds_ok h
  · exact iff_of_false not_succeeds_error h

/-- All results are successes. -/
theorem succeeded_of_simulated {type : Yaml.Value} {r : ExpectationResult}
    (h : simulated type = .ok r) : r.Succeeded := by
  rw [simulated] at h
  split_ifs at h
  cases h
  exact rfl

/-- There are results exactly if what the suite has can be evaluated. -/
theorem succeeds_results : Succeeds (engine.results fs body) ↔
    ∃ expectations, engine.loadSuite fs body.suiteName.text body.layer.text = .ok expectations ∧
      Evaluable expectations := by
  simp only [QualityEngine.results, succeeds_bind, mapError_eq_ok_iff]
  refine exists_congr fun expectations => and_congr_right fun _ => exists_congr fun items =>
    and_congr_right fun _ => ?_
  constructor
  · rintro ⟨types, htypes, hresults⟩ v hv
    obtain ⟨type, htype, heq⟩ := exists_mem_of_mapM htypes hv
    obtain ⟨kvs, rfl, rfl⟩ := expectationType_eq_ok.1 heq
    exact ⟨kvs, rfl, succeeds_simulated.1 (succeeds_mapM.1 hresults _ htype)⟩
  · intro h
    obtain ⟨types, htypes⟩ := succeeds_mapM.2 fun v hv => by
      obtain ⟨kvs, rfl, -⟩ := h v hv
      exact ⟨_, expectationType_eq_ok.2 ⟨kvs, rfl, rfl⟩⟩
    refine ⟨types, htypes, succeeds_mapM.2 fun type htype => succeeds_simulated.2 ?_⟩
    obtain ⟨v, hv, heq⟩ := exists_of_mem_mapM htypes htype
    obtain ⟨kvs, rfl, hhashable⟩ := h v hv
    obtain ⟨_, hkvs, rfl⟩ := expectationType_eq_ok.1 heq
    cases hkvs
    exact hhashable

/-- All of the results are successes. -/
theorem succeeded_of_results (h : engine.results fs body = .ok rs) : ∀ r ∈ rs, r.Succeeded := by
  simp only [QualityEngine.results, bind_eq_ok_iff] at h
  obtain ⟨-, -, -, -, types, -, hresults⟩ := h
  intro r hr
  obtain ⟨type, -, htype⟩ := exists_of_mem_mapM hresults hr
  exact succeeded_of_simulated htype

/-- A score of a report is a number between 0 and 1. -/
theorem unitInterval_eq_ok {field : String} {x : ℚ} {y : { x : ℚ // 0 ≤ x ∧ x ≤ 1 }} :
    unitInterval field x = .ok y ↔ y.1 = x := by
  rw [unitInterval]
  split_ifs with h
  · rw [Except.ok.injEq]
    exact ⟨fun e => e ▸ rfl, fun e => Subtype.ext e.symm⟩
  · exact iff_of_false (by rintro ⟨⟩) fun e => h (e ▸ y.2)

/-- The name is within its bounds, unless it is empty. -/
theorem bounds_reportedName : (1 ≤ (reportedName body).length ∧ (reportedName body).length ≤ 200) ↔
    body.suiteName.text ≠ "" := by
  have hlayer := body.layer.bounds.2
  have hsuite := body.suiteName.bounds.2
  rw [reportedName]
  split_ifs with hdefault
  · refine iff_of_true ?_ (by rw [hdefault]; decide)
    rw [hdefault, String.length_append, String.length_append]
    have hlength : "default".length = 7 ∧ "_".length = 1 := by decide
    omega
  · rw [ne_eq, ← String.length_eq_zero_iff]
    omega

/-- What a report has, from the results of the expectations. -/
theorem fields_of_report (h : engine.report fs body id now = .ok r) :
    ∃ rs, engine.results fs body = .ok rs ∧
      r.dqScore.1 = DAMAScorer.overallScore (usualScorer.score rs) ∧
      r.dimensionScores = usualScorer.score rs ∧
      r.expectationsPassed = rs.countP (fun r => r.Succeeded) ∧
      r.expectationsFailed = rs.length - rs.countP (fun r => r.Succeeded) ∧
      r.expectationsTotal = rs.length := by
  simp only [QualityEngine.report, bind_eq_ok_iff, mapError_eq_ok_iff, Validated.model_eq_ok,
    Prod.exists, Validated.and_eq_ok, Validated.bounded_eq_ok, unitInterval_eq_ok] at h
  obtain ⟨rs, hrs, suiteName, dqScore, ⟨-, hscore⟩, hr⟩ := h
  obtain rfl := Except.ok.inj hr
  refine ⟨rs, hrs, hscore, ?_⟩
  dsimp only
  exact ⟨rfl, rfl, rfl, rfl⟩

/-- There is a report if there are results and the suite has a name. -/
theorem succeeds_report : Succeeds (engine.report fs body id now) ↔
    ∃ rs, engine.results fs body = .ok rs ∧
      (1 ≤ (reportedName body).length ∧ (reportedName body).length ≤ 200) ∧
      0 ≤ DAMAScorer.overallScore (usualScorer.score rs) ∧
      DAMAScorer.overallScore (usualScorer.score rs) ≤ 1 := by
  simp only [QualityEngine.report, succeeds_bind, mapError_eq_ok_iff, Validated.model_eq_ok,
    Prod.exists, Validated.and_eq_ok, Validated.bounded_eq_ok, unitInterval_eq_ok]
  refine exists_congr fun rs => and_congr_right fun _ => ?_
  constructor
  · rintro ⟨suiteName, dqScore, ⟨hname, hscore⟩, -⟩
    exact ⟨hname ▸ suiteName.bounds, hscore ▸ dqScore.2⟩
  · rintro ⟨hname, hscore⟩
    generalize DAMAScorer.overallScore (usualScorer.score rs) = x at hscore ⊢
    exact ⟨⟨_, hname⟩, ⟨x, hscore⟩, ⟨rfl, rfl⟩, succeeds_ok⟩

/-- The overall score of successes is the best one. -/
theorem overallScore_of_succeeded (h : ∀ r ∈ rs, r.Succeeded) :
    DAMAScorer.overallScore (usualScorer.score rs) = 1 :=
  (DAMAScorer.overallScore_eq_one rs).2 fun r hr _ => h r hr

/-- There is a report exactly if the suite can be read, what it has can be evaluated, and it has
    a name. -/
theorem exists_report_iff : (∃ r, engine.report fs body id now = .ok r) ↔
    body.suiteName.text ≠ "" ∧ ∃ expectations,
      engine.loadSuite fs body.suiteName.text body.layer.text = .ok expectations ∧
      Evaluable expectations := by
  rw [← succeeds_results, ← bounds_reportedName, ← Succeeds, succeeds_report]
  constructor
  · rintro ⟨rs, hrs, hname, -⟩
    exact ⟨hname, rs, hrs⟩
  · rintro ⟨hname, rs, hrs⟩
    have hscore := overallScore_of_succeeded (succeeded_of_results hrs)
    exact ⟨rs, hrs, hname, hscore ▸ zero_le_one, hscore.le⟩

/-! ### What the scores are for -/

/-- The best report: it meets the service levels of all layers, and no promotion is refused
    because of its score. -/
structure QualityReport.Best (r : QualityReport) : Prop where
  dqScore : r.dqScore.1 = 1
  failed : r.expectationsFailed = 0
  passed : r.expectationsPassed = r.expectationsTotal
  levels : ∀ layer, AllPass (checkSla r.dimensionScores (getLayerThresholds layer))
  promotions : ∀ a : Lakehouse.Promote,
    ¬{ a with dqScore := .finite r.dqScore.1 : Lakehouse.Promote }.Refused

/-- No threshold is more than the best score. -/
theorem exists_getLayerThresholds (layer : String) :
    ∃ t ≤ 1, getLayerThresholds layer = allDimensions t := by
  rw [getLayerThresholds]
  cases h : defaultThresholds.find? layer with
  | none => exact ⟨70 / 100, by norm_num, rfl⟩
  | some thresholds =>
    have hmem := (Dict.find?_ofList_of_nodup (by simp)).1 h
    simp only [List.mem_cons, Prod.mk.injEq, List.not_mem_nil, or_false] at hmem
    rcases hmem with ⟨-, rfl⟩ | ⟨-, rfl⟩ | ⟨-, rfl⟩ | ⟨-, rfl⟩
    · exact ⟨70 / 100, by norm_num, rfl⟩
    · exact ⟨85 / 100, by norm_num, rfl⟩
    · exact ⟨95 / 100, by norm_num, rfl⟩
    · exact ⟨98 / 100, by norm_num, rfl⟩

/-- With the best score, no promotion is refused because of it. -/
theorem not_refused_one (a : Lakehouse.Promote) :
    ¬{ a with dqScore := .finite 1 : Lakehouse.Promote }.Refused := by
  cases h : Lakehouse.dqThresholds.find? (a.sourceLayer, a.targetLayer) with
  | none => exact Lakehouse.Promote.not_refused h
  | some t =>
    have ht : t ≤ 1 := by
      have hmem := (Dict.find?_ofList_of_nodup (by decide)).1 h
      simp only [List.mem_cons, Prod.mk.injEq, List.not_mem_nil, or_false] at hmem
      rcases hmem with ⟨-, rfl⟩ | ⟨-, rfl⟩ | ⟨-, rfl⟩ <;> norm_num
    rw [Lakehouse.Promote.refused_iff (a := { a with dqScore := .finite 1 }) h]
    exact fun hlt => absurd (of_decide_eq_true hlt) (not_lt.2 ht)

/-- Successes meet the service levels of all layers. -/
theorem allPass_of_succeeded (h : ∀ r ∈ rs, r.Succeeded) (layer : String) :
    AllPass (checkSla (usualScorer.score rs) (getLayerThresholds layer)) := by
  obtain ⟨t, ht, hlayer⟩ := exists_getLayerThresholds layer
  rw [hlayer, allPass_allDimensions]
  intro d
  have hnone : usualScorer.failures rs d = 0 :=
    (DAMAScorer.failures_eq_zero rs).2 (fun r hr _ => h r hr) d
  rw [Rate.rate_eq_one.2 hnone]
  exact ht

/-- So a report has the best scores. -/
theorem best_of_report (h : engine.report fs body id now = .ok r) : r.Best := by
  obtain ⟨rs, hrs, hscore, hdimensions, hpassed, hfailed, htotal⟩ := fields_of_report h
  have hsucceeded := succeeded_of_results hrs
  have hcount : rs.countP (fun r => r.Succeeded) = rs.length :=
    List.countP_eq_length.2 fun r hr => decide_eq_true (hsucceeded r hr)
  have hone : r.dqScore.1 = 1 := hscore.trans (overallScore_of_succeeded hsucceeded)
  refine ⟨hone, ?_, ?_, fun layer => ?_, fun a => ?_⟩
  · rw [hfailed, hcount, Nat.sub_self]
  · rw [hpassed, hcount, htotal]
  · rw [hdimensions]
    exact allPass_of_succeeded hsucceeded layer
  · rw [hone]
    exact not_refused_one a

/-! ### Runs of the service -/

/-- What a gate keeps are the reports that have been created, and they are the best. -/
structure QualityGate.Keeps (gate : QualityGate) (created : List (UUID × QualityReport)) :
    Prop where
  reports : gate.reports = .ofList created
  best : ∀ x ∈ created, x.2.Best

/-- The service has no reports at first. -/
theorem QualityGate.keeps_start : (start engine).Keeps [] := ⟨rfl, by rintro _ ⟨⟩⟩

/-- What a request adds, and that what is returned is the best. -/
theorem QualityGate.Keeps.respond {created : List (UUID × QualityReport)}
    (h : gate.Keeps created) :
    (gate.respond q).2.Keeps (created ++ (gate.respond q).1.created?.toList) ∧
      ∀ r, (gate.respond q).1.report? = some r → r.Best := by
  cases q with
  | getReport reportId =>
    rw [QualityGate.respond]
    cases hfind : gate.getReport reportId with
    | none => exact ⟨(List.append_nil created).symm ▸ h, by rintro _ ⟨⟩⟩
    | some r =>
      refine ⟨(List.append_nil created).symm ▸ h, ?_⟩
      rintro _ ⟨⟩
      rw [getReport, h.reports, Dict.find?_ofList_eq_some] at hfind
      obtain ⟨before, after, rfl, -⟩ := hfind
      exact h.best _ (List.mem_append_right before List.mem_cons_self)
  | validateDataset body fs id now =>
    rw [QualityGate.respond]
    cases hvalidate : gate.validate body fs id now with
    | error e => exact ⟨(List.append_nil created).symm ▸ h, by rintro _ ⟨⟩⟩
    | ok x =>
      rw [QualityGate.validate, bind_eq_ok_iff] at hvalidate
      obtain ⟨r, hr, hx⟩ := hvalidate
      obtain rfl := Except.ok.inj hx
      have hbest := best_of_report hr
      refine ⟨⟨?_, List.forall_mem_append.2 ⟨h.best, List.forall_mem_singleton.2 hbest⟩⟩, ?_⟩
      · change gate.reports.set r.id r = .ofList (created ++ [(r.id, r)])
        rw [Dict.ofList_concat, ← h.reports]
      · rintro _ ⟨⟩
        exact hbest

/-- It keeps the reports it returns, and returns the best scores. -/
theorem QualityGate.Keeps.serve {created : List (UUID × QualityReport)} (h : gate.Keeps created) :
    (gate.serve qs).2.Keeps (created ++ (gate.serve qs).1.filterMap GateResponse.created?) ∧
      ∀ response ∈ (gate.serve qs).1, ∀ r, response.report? = some r → r.Best := by
  induction qs generalizing gate created with
  | nil => exact ⟨(List.append_nil created).symm ▸ h, by rintro _ ⟨⟩⟩
  | cons q qs ih =>
    obtain ⟨hkeeps, hbest⟩ := h.respond (q := q)
    obtain ⟨hserve, hrest⟩ := ih hkeeps
    rw [QualityGate.serve]
    refine ⟨?_, List.forall_mem_cons.2 ⟨hbest, hrest⟩⟩
    rw [List.append_assoc] at hserve
    cases hresponse : (gate.respond q).1.created? with
    | none => simpa [hresponse] using hserve
    | some x => simpa [hresponse] using hserve

/-- After some requests, a report is found exactly if it is the last one that has been returned
    when a dataset was validated, under its identifier. -/
structure Serves (engine : QualityEngine) (qs : List GateRequest) : Prop where
  found : ∀ id r, (((QualityGate.start engine).serve qs).2.respond (.getReport id)).1 = .found r ↔
    ∃ before after, ((QualityGate.start engine).serve qs).1.filterMap GateResponse.created? =
      before ++ (id, r) :: after ∧ id ∉ after.map Prod.fst
  best : ∀ response ∈ ((QualityGate.start engine).serve qs).1, ∀ r,
    response.report? = some r → r.Best

/-- Every report that the service returns is the best one, and it is found later, until there
    is another one with its identifier. -/
theorem serves (engine : QualityEngine) (qs : List GateRequest) : Serves engine qs := by
  have hstart : (QualityGate.start engine).Keeps [] := QualityGate.keeps_start
  obtain ⟨hkeeps, hbest⟩ := hstart.serve
  refine ⟨fun id r => ?_, hbest⟩
  rw [← Dict.find?_ofList_eq_some, ← List.nil_append (List.filterMap _ _), ← hkeeps.reports,
    QualityGate.respond]
  change _ ↔ QualityGate.getReport _ id = some r
  cases QualityGate.getReport _ id with
  | none => exact iff_of_false (by rintro ⟨⟩) (by rintro ⟨⟩)
  | some r' => simp

end Quality

end OpenDataGov
