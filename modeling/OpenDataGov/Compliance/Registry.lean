import OpenDataGov.Compliance.Checkers

/-!
# The registry of compliance checkers

All the checks at once (`checkAll`): one after another in the order of their registration,
where an exception in one of them is that of all.

What a checker reads of the context is known from its rules, as a list of keys that must be
readable as truth values, or collections that an item can be looked for in. There is one lemma for
each framework, and the result is their conjunction: whatever the values are, all of the frameworks
have results if none of these raises.

* `checkAll_eq_ok`: the results are those of the single checks;
* `succeeds_lgpdChecker` and so on: what has to be readable for each framework;
* `checksAll_iff`: all frameworks get their results exactly if all that is read can be.
-/

namespace OpenDataGov

open Keyed Attempts

namespace Compliance

/-- A registry for the checkers of frameworks. -/
abbrev ComplianceRegistry := Dict ComplianceFramework ComplianceChecker

namespace ComplianceRegistry

/-- Registering a checker, in place of another one for its framework. -/
def register (registry : ComplianceRegistry) (checker : ComplianceChecker) :
    ComplianceRegistry :=
  Dict.set registry checker.framework checker

/-- The check for a framework. -/
def check (registry : ComplianceRegistry) (framework : ComplianceFramework)
    (context : Context) : Except CheckError ComplianceResult :=
  match Dict.find? registry framework with
  | none => .error (.valueError s!"No checker registered for {framework.value}")
  | some checker => checker.check context

/-- All registered checks. -/
def checkAll (registry : ComplianceRegistry) (context : Context) :
    Except CheckError (Dict ComplianceFramework ComplianceResult) :=
  Dict.ofList <$> registry.rows.mapM fun kv => (kv.1, ·) <$> kv.2.check context

/-- The frameworks that have a checker. -/
def registeredFrameworks (registry : ComplianceRegistry) : List ComplianceFramework :=
  registry.rows.map Prod.fst

end ComplianceRegistry

/-- The registry with all built-in checkers. -/
def createDefaultRegistry : ComplianceRegistry :=
  ([lgpdChecker, gdprChecker, euAiActChecker, nistAiRmfChecker, iso42001Checker, soxChecker,
    damaChecker] : List ComplianceChecker).foldl ComplianceRegistry.register Table.empty

open ComplianceRegistry

variable {registry : ComplianceRegistry} {context : Context}
  {results : Dict ComplianceFramework ComplianceResult} {framework : ComplianceFramework}

/-- All checks return exactly if each one does. -/
theorem succeeds_checkAll : Succeeds (registry.checkAll context) ↔
    ∀ kv ∈ registry.rows, Succeeds (kv.2.check context) := by
  rw [checkAll, succeeds_map, succeeds_mapM]
  exact forall₂_congr fun kv _ => succeeds_map

/-- The results are those of the single checks, for each framework in its place. -/
theorem checkAll_eq_ok (h : registry.checkAll context = .ok results) :
    results.rows.map Prod.fst = registry.registeredFrameworks ∧
      ∀ framework ∈ registry.registeredFrameworks, ∃ result,
        results.find? framework = some result ∧ registry.check framework context = .ok result := by
  have hone {kv : ComplianceFramework × ComplianceChecker}
      {row : ComplianceFramework × ComplianceResult}
      (hrow : (kv.1, ·) <$> kv.2.check context = .ok row) :
      row.1 = kv.1 ∧ kv.2.check context = .ok row.2 := by
    obtain ⟨result, hcheck, rfl⟩ := map_eq_ok_iff.1 hrow
    exact ⟨rfl, hcheck⟩
  obtain ⟨rows, hrows, rfl⟩ := map_eq_ok_iff.1 h
  -- The results have the keys of the checkers, in their order.
  have hkeys : rows.map Prod.fst = registry.rows.map Prod.fst :=
    map_eq_of_mapM hrows fun _ _ hrow => (hone hrow).1
  have hnodup : (rows.map Prod.fst).Nodup := hkeys ▸ registry.nodup
  refine ⟨by rw [Dict.rows_ofList_of_nodup hnodup]; exact hkeys, fun framework hmem => ?_⟩
  obtain ⟨kv, hkv, rfl⟩ := List.mem_map.1 hmem
  obtain ⟨row, hrow, heq⟩ := exists_mem_of_mapM hrows hkv
  obtain ⟨hkey, hcheck⟩ := hone heq
  refine ⟨row.2, (Dict.find?_ofList_of_nodup hnodup).2 (hkey ▸ hrow), ?_⟩
  rw [check, Dict.find?_eq_some.2 hkv]
  exact hcheck

/-! ### What has to be readable -/

/-- The keys that are read for a framework: the LGPD, -/
def lgpdKeys : List String :=
  ["has_legal_basis", "supports_data_subject_rights", "has_dpo", "has_security_measures"]

/-- the GDPR, -/
def gdprKeys : List String :=
  ["has_lawful_basis", "supports_data_portability", "has_dpia", "transfers_outside_eu"]

/-- the NIST AI RMF, -/
def nistAiRmfKeys : List String :=
  ["has_ai_governance_policy", "has_ai_risk_mapping", "has_ai_metrics",
    "has_ai_incident_response"]

/-- ISO 42001, -/
def iso42001Keys : List String :=
  ["has_ai_scope_definition", "has_ai_leadership_commitment", "has_ai_risk_assessment",
    "has_ai_lifecycle_management", "has_ai_monitoring"]

/-- and SOX. -/
def soxKeys : List String :=
  ["has_audit_trail", "has_access_controls", "has_change_management",
    "has_data_retention_policy"]

/-- What is read in any case, for its `bool`. -/
def flagKeys : List String := lgpdKeys ++ gdprKeys ++ nistAiRmfKeys ++ iso42001Keys ++ soxKeys

/-- What is read of systems of a high risk. -/
def highRiskKeys : List String :=
  ["has_risk_management_system", "has_data_governance", "has_human_oversight"]

/-- All that is read in a context can be read. -/
structure Checkable (context : Context) : Prop where
  flags : ∀ key ∈ flagKeys, Succeeds (context.truthy key)
  /-- Of a transfer, whether there is a decision. -/
  adequacy : context.truthy "transfers_outside_eu" = .ok true →
    Succeeds (context.truthy "has_adequacy_decision")
  /-- The level of risk, and what is read of systems of this level. -/
  riskLevel : ∃ level, context.aiRiskLevel = .ok level ∧
    (level = .high → ∀ key ∈ highRiskKeys, Succeeds (context.truthy key)) ∧
    (level = .high ∨ level = .limited → Succeeds (context.truthy "has_transparency_info"))
  /-- Which of the areas and of the dimensions are covered. -/
  areas : ∀ area ∈ damaKnowledgeAreas, Succeeds (context.includes "implemented_areas" area.1)
  dimensions : ∀ dim ∈ Quality.DAMADimension.all,
    Succeeds (context.includes "quality_dimensions" dim.value)

/-- What has to be readable for the LGPD, -/
theorem succeeds_lgpdChecker : Succeeds (lgpdChecker.check context) ↔
    ∀ key ∈ lgpdKeys, Succeeds (context.truthy key) := by
  rw [lgpdChecker, succeeds_checkRules (by decide) (by decide)]
  simp [lgpdRules, lgpdKeys, succeeds_lacks]

/-- for the GDPR, where the last key is read only if data is transferred, -/
theorem succeeds_gdprChecker : Succeeds (gdprChecker.check context) ↔
    (∀ key ∈ gdprKeys, Succeeds (context.truthy key)) ∧
    (context.truthy "transfers_outside_eu" = .ok true →
      Succeeds (context.truthy "has_adequacy_decision")) := by
  rw [gdprChecker, succeeds_checkRules (by decide) (by decide)]
  simp [gdprRules, gdprKeys, succeeds_lacks, succeeds_transferRule, and_assoc]

/-- for the EU AI Act, by the level of risk, -/
theorem succeeds_euAiActChecker : Succeeds (euAiActChecker.check context) ↔
    ∃ level, context.aiRiskLevel = .ok level ∧
      (level = .high → ∀ key ∈ highRiskKeys, Succeeds (context.truthy key)) ∧
      (level = .high ∨ level = .limited →
        Succeeds (context.truthy "has_transparency_info")) := by
  rw [euAiActChecker, succeeds_bind]
  refine exists_congr fun level => and_congr_right fun _ => ?_
  have hpos : 0 < (euAiActGrading level).total := by cases level <;> decide
  have hle : (euAiActRules level).length ≤ (euAiActGrading level).total := by
    cases level <;> decide
  rw [succeeds_checkRules hpos hle]
  cases level <;>
    simp [euAiActRules, highRiskRules, transparencyRule, highRiskKeys, succeeds_lacks, and_assoc]

/-- for DAMA, -/
theorem succeeds_damaChecker : Succeeds (damaChecker.check context) ↔
    (∀ area ∈ damaKnowledgeAreas, Succeeds (context.includes "implemented_areas" area.1)) ∧
    ∀ dim ∈ Quality.DAMADimension.all,
      Succeeds (context.includes "quality_dimensions" dim.value) := by
  rw [damaChecker, succeeds_checkRules (by decide) (by decide), damaRules, List.forall_mem_append,
    List.forall_mem_map, List.forall_mem_map]
  simp only [areaRule, dimensionRule, succeeds_notIn]

/-- for the NIST AI RMF, -/
theorem succeeds_nistAiRmfChecker : Succeeds (nistAiRmfChecker.check context) ↔
    ∀ key ∈ nistAiRmfKeys, Succeeds (context.truthy key) := by
  rw [nistAiRmfChecker, succeeds_checkRules (by decide) (by decide)]
  simp [nistAiRmfRules, nistAiRmfKeys, succeeds_lacks]

/-- for ISO 42001, -/
theorem succeeds_iso42001Checker : Succeeds (iso42001Checker.check context) ↔
    ∀ key ∈ iso42001Keys, Succeeds (context.truthy key) := by
  rw [iso42001Checker, succeeds_checkRules (by decide) (by decide)]
  simp [iso42001Rules, iso42001Keys, succeeds_lacks]

/-- and for SOX. -/
theorem succeeds_soxChecker : Succeeds (soxChecker.check context) ↔
    ∀ key ∈ soxKeys, Succeeds (context.truthy key) := by
  rw [soxChecker, succeeds_checkRules (by decide) (by decide)]
  simp [soxRules, soxKeys, succeeds_lacks]

/-- The checkers, in the order of their registration. -/
theorem rows_createDefaultRegistry : createDefaultRegistry.rows = [(.lgpd, lgpdChecker),
    (.gdpr, gdprChecker), (.euAiAct, euAiActChecker), (.nistAiRmf, nistAiRmfChecker),
    (.iso42001, iso42001Checker), (.sox, soxChecker), (.damaDmbok, damaChecker)] := rfl

/-- All the checks of the built-in checkers return exactly if all that they read can be
    read. -/
theorem succeeds_checkAll_default :
    Succeeds (createDefaultRegistry.checkAll context) ↔ Checkable context := by
  rw [succeeds_checkAll, rows_createDefaultRegistry]
  simp only [List.forall_mem_cons, succeeds_lgpdChecker, succeeds_gdprChecker,
    succeeds_euAiActChecker, succeeds_nistAiRmfChecker, succeeds_iso42001Checker,
    succeeds_soxChecker, succeeds_damaChecker]
  constructor
  · rintro ⟨hlgpd, ⟨hgdpr, hadequacy⟩, hlevel, hnist, hiso, hsox, ⟨hareas, hdimensions⟩, _⟩
    refine ⟨?_, hadequacy, hlevel, hareas, hdimensions⟩
    simp only [flagKeys, List.forall_mem_append]
    exact ⟨⟨⟨⟨hlgpd, hgdpr⟩, hnist⟩, hiso⟩, hsox⟩
  · rintro ⟨hflags, hadequacy, hlevel, hareas, hdimensions⟩
    simp only [flagKeys, List.forall_mem_append] at hflags
    obtain ⟨⟨⟨⟨hlgpd, hgdpr⟩, hnist⟩, hiso⟩, hsox⟩ := hflags
    exact ⟨hlgpd, ⟨hgdpr, hadequacy⟩, hlevel, hnist, hiso, hsox, ⟨hareas, hdimensions⟩,
      fun _ h => absurd h List.not_mem_nil⟩

/-- Every framework gets the result of its own check. -/
def ChecksAll (context : Context) : Prop :=
  ∃ results, createDefaultRegistry.checkAll context = .ok results ∧
    results.rows.length = 7 ∧
    ∀ framework, ∃ result, results.find? framework = some result ∧
      createDefaultRegistry.check framework context = .ok result ∧
      0 ≤ result.score ∧ result.score ≤ 1

/-- Every framework gets the result of its own check exactly if all that the checks read can
    be read. -/
theorem checksAll_iff (context : Context) : ChecksAll context ↔ Checkable context := by
  rw [← succeeds_checkAll_default]
  constructor
  · rintro ⟨results, hresults, _⟩
    exact ⟨results, hresults⟩
  · rintro ⟨results, hresults⟩
    obtain ⟨hkeys, hresult⟩ := checkAll_eq_ok hresults
    refine ⟨results, hresults, ?_, fun framework => ?_⟩
    · rw [← List.length_map, hkeys]
      rfl
    · have hmem : framework ∈ createDefaultRegistry.registeredFrameworks := by
        cases framework <;> decide
      obtain ⟨result, hfind, hcheck⟩ := hresult framework hmem
      exact ⟨result, hfind, hcheck, result.score_mem⟩

namespace Assistant

/-- The context of an AI system with a level of risk that is not one of the enumeration. -/
def assistant : Context :=
  .ofList [("has_legal_basis", .builtin (.scalar (.bool true))),
    ("ai_risk_level", .builtin (.scalar (.str "unacceptable")))]

/-- No framework gets a result. -/
theorem not_checksAll_assistant : ¬∀ context, ChecksAll context := fun h => by
  obtain ⟨results, hresults, _⟩ := h assistant
  obtain ⟨level, hlevel, _⟩ := (succeeds_checkAll_default.1 ⟨results, hresults⟩).riskLevel
  cases hlevel

end Assistant

end Compliance

end OpenDataGov
