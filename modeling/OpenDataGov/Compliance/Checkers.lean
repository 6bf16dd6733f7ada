import Mathlib.Data.List.Infix
import Mathlib.Data.Rat.Cast.Order
import Mathlib.Tactic.Linarith
import OpenDataGov.Compliance.AiRisk
import OpenDataGov.Lib.Attempts
import OpenDataGov.Lib.Yaml
import OpenDataGov.Quality.Dimensions

/-!
# Compliance checkers

The checks of a system against seven frameworks. Each of them reads a context, a dictionary
of any values, by rules that find something where what they read is missing or false. To
read a value may raise an exception, and its check with it.

The checkers of the source are alike but for the texts of their findings: each looks at some
keys of the context one after the other, collects what it finds, and makes a score of the number.
So a checker is its list of rules and its `Grading` here, and what is proved of checking rules is
proved once. What does not fit stays apart: the rules of the EU AI Act depend on the level of
risk, one rule of the GDPR reads a second key if a first one is set, and the areas and dimensions
of DAMA are looked for in collections.

* `succeeds_checkRules`: a check returns exactly if all its rules can be read: it has no more
  findings than rules, so its score is between 0 and 1;
* `succeeds_lacks`, `succeeds_notIn`: what the rules read.

A value of the context is known by what it does when it is read (`Behaviour`): whether it is
true, whether it has an item, and what level of risk it stands for. Any of these may raise an
exception instead.
-/

namespace OpenDataGov

open Keyed Attempts

namespace Compliance

/-! ### Contexts -/

/-- The exceptions that a check may raise. -/
inductive CheckError
  | typeError
  /-- A `ValueError` of an enumeration, of which the value is not a member. -/
  | notAMember
  | valueError (msg : String)
  /-- A `ValidationError` of pydantic, about the score. -/
  | validationError
  /-- An exception that a value raises by itself. -/
  | raised (type : String)
  deriving DecidableEq

/-- What a value does in a check: its `bool`, whether a string is `in` it, and the level of
    risk that it is the value of.

    These are functions of the value, so a value that answers the same question differently when
    it is asked again is left out: an iterator, which `in` uses up, or an object whose
    `__bool__` counts its calls. What any other value does, also by raising an exception, is
    some behaviour. -/
structure Behaviour where
  bool : Except CheckError Bool
  contains : String → Except CheckError Bool
  riskLevel : Except CheckError AIRiskLevel

/-- Values of Python: those that YAML has as well, and any others. -/
inductive PyValue
  | builtin (v : Yaml.Value)
  | object (b : Behaviour)

/-- `AIRiskLevel(s)` -/
def riskLevelOf (s : String) : Except CheckError AIRiskLevel :=
  if s = "high" then .ok .high
  else if s = "limited" then .ok .limited
  else if s = "minimal" then .ok .minimal
  else .error .notAMember

/-- The text of a level of risk. -/
def riskLevelValue : AIRiskLevel → String
  | .high => "high"
  | .limited => "limited"
  | .minimal => "minimal"

/-- `s in v`, for the values that YAML has. -/
def builtinContains (s : String) : Yaml.Value → Except CheckError Bool
  | .scalar (.str t) => .ok (s.toList <:+: t.toList)
  | .scalar _ => .error .typeError
  | .seq vs => .ok (vs.any isStr)
  | .pair v w => .ok (isStr v || isStr w)
  | .set xs => .ok (xs.any (Yaml.Scalar.isStr s))
  | .map kvs => .ok (kvs.any fun kv => kv.1.isStr s)
where
  isStr : Yaml.Value → Bool
    | .scalar x => x.isStr s
    | _ => false

/-- What a value does. -/
def PyValue.behaviour : PyValue → Behaviour
  | .object b => b
  | .builtin v => {
      bool := .ok v.truthy
      contains := fun s => builtinContains s v
      riskLevel := match v with
        | .scalar (.str s) => riskLevelOf s
        | _ => .error .notAMember }

/-- What is given to the checks. -/
abbrev Context := Dict String PyValue

namespace Context

/-- `bool(context.get(key))` -/
def truthy (context : Context) (key : String) : Except CheckError Bool :=
  match context.find? key with
  | some v => v.behaviour.bool
  | none => .ok false

/-- `s in context.get(key, [])` -/
def includes (context : Context) (key s : String) : Except CheckError Bool :=
  match context.find? key with
  | some v => v.behaviour.contains s
  | none => .ok false

/-- `AIRiskLevel(context.get("ai_risk_level", "minimal"))` -/
def aiRiskLevel (context : Context) : Except CheckError AIRiskLevel :=
  match context.find? "ai_risk_level" with
  | some v => v.behaviour.riskLevel
  | none => .ok .minimal

end Context

/-! ### Results -/

/-- The frameworks. -/
inductive ComplianceFramework
  | lgpd
  | gdpr
  | euAiAct
  | nistAiRmf
  | iso42001
  | sox
  | damaDmbok
  deriving DecidableEq

/-- The text of a framework. -/
def ComplianceFramework.value : ComplianceFramework → String
  | .lgpd => "lgpd"
  | .gdpr => "gdpr"
  | .euAiAct => "eu_ai_act"
  | .nistAiRmf => "nist_ai_rmf"
  | .iso42001 => "iso_42001"
  | .sox => "sox"
  | .damaDmbok => "dama_dmbok"

/-- A single finding of a check. -/
structure ComplianceFinding where
  ruleId : String
  severity : String
  description : String
  recommendation : String
  deriving DecidableEq

/-- The result of a check against a framework. -/
structure ComplianceResult where
  framework : ComplianceFramework
  passed : Bool
  score : ℚ
  score_mem : 0 ≤ score ∧ score ≤ 1
  findings : List ComplianceFinding
  metadata : List (String × String)
  deriving DecidableEq

/-- A rule finds something where it is violated. -/
structure Rule where
  violated : Context → Except CheckError Bool
  finding : ComplianceFinding

/-- The findings of a rule. -/
def Rule.findings (r : Rule) (context : Context) : Except CheckError (List ComplianceFinding) :=
  (fun violated => if violated then [r.finding] else []) <$> r.violated context

/-- The findings of some rules, one after another. -/
def findings (rules : List Rule) (context : Context) :
    Except CheckError (List ComplianceFinding) :=
  List.flatten <$> rules.mapM fun r => r.findings context

/-- `passed_rules / total_rules if total_rules > 0 else` a default. -/
def scoreOf (total : ℕ) (default : ℚ) (found : List ComplianceFinding) : ℚ :=
  if 0 < total then ((total - found.length : ℤ) : ℚ) / total else default

/-- There is no critical finding. -/
def noneCritical (_score : ℚ) (found : List ComplianceFinding) : Bool :=
  found.countP (fun f => f.severity = "critical") = 0

/-- The score is at least `threshold`. -/
def reaches (threshold score : ℚ) (_found : List ComplianceFinding) : Bool := threshold ≤ score

/-- How a check turns its findings into a result. -/
structure Grading where
  total : ℕ
  /-- The score if there are no rules. -/
  default : ℚ
  passed : ℚ → List ComplianceFinding → Bool
  metadata : List (String × String)

/-- The result with some findings. The score has to be between 0 and 1. -/
def Grading.result (g : Grading) (framework : ComplianceFramework)
    (found : List ComplianceFinding) : Except CheckError ComplianceResult :=
  let score := scoreOf g.total g.default found
  if h : 0 ≤ score ∧ score ≤ 1 then
    .ok ⟨framework, g.passed score found, score, h, found, g.metadata⟩
  else .error .validationError

/-- A check by rules. -/
def checkRules (framework : ComplianceFramework) (g : Grading) (rules : List Rule)
    (context : Context) : Except CheckError ComplianceResult := do
  g.result framework (← findings rules context)

variable {context : Context} {rules : List Rule} {found : List ComplianceFinding}
  {framework : ComplianceFramework} {g : Grading} {r : Rule}

theorem Rule.succeeds_findings :
    Succeeds (r.findings context) ↔ Succeeds (r.violated context) := succeeds_map

theorem Rule.length_findings_le (h : r.findings context = .ok found) : found.length ≤ 1 := by
  obtain ⟨violated, _, rfl⟩ := map_eq_ok_iff.1 h
  cases violated <;> simp

/-- Rules are read one after the other. -/
theorem succeeds_findings :
    Succeeds (findings rules context) ↔ ∀ r ∈ rules, Succeeds (r.violated context) := by
  rw [findings, succeeds_map, succeeds_mapM]
  exact forall₂_congr fun r _ => r.succeeds_findings

/-- There are no more findings than rules. -/
theorem length_findings_le (h : findings rules context = .ok found) :
    found.length ≤ rules.length := by
  obtain ⟨founds, hfounds, rfl⟩ := map_eq_ok_iff.1 h
  clear h
  rw [mapM_eq_ok_iff] at hfounds
  induction hfounds with
  | nil => simp
  | cons hr _ ih =>
    have hle := Rule.length_findings_le hr
    rw [List.flatten_cons, List.length_append, List.length_cons]
    omega

/-- With no more findings than there can be, the score is between 0 and 1. -/
theorem scoreOf_mem (hpos : 0 < g.total) (hle : found.length ≤ g.total) :
    0 ≤ scoreOf g.total g.default found ∧ scoreOf g.total g.default found ≤ 1 := by
  have htotal : (0 : ℚ) < g.total := Nat.cast_pos.2 hpos
  rw [scoreOf, if_pos hpos, Int.cast_sub, Int.cast_natCast, Int.cast_natCast]
  constructor
  · refine div_nonneg (sub_nonneg.2 ?_) htotal.le
    exact_mod_cast hle
  · rw [div_le_one htotal, sub_le_self_iff]
    positivity

/-- A check by no more rules than it counts returns exactly if all of them can be read. -/
theorem succeeds_checkRules (hpos : 0 < g.total) (hle : rules.length ≤ g.total) :
    Succeeds (checkRules framework g rules context) ↔
      ∀ r ∈ rules, Succeeds (r.violated context) := by
  rw [← succeeds_findings, checkRules, succeeds_bind]
  constructor
  · rintro ⟨found, hfound, _⟩
    exact ⟨found, hfound⟩
  · rintro ⟨found, hfound⟩
    have hmem := scoreOf_mem hpos ((length_findings_le hfound).trans hle)
    exact ⟨found, hfound, ⟨_, dif_pos hmem⟩⟩

/-! ### The rules of the frameworks -/

/-- Something has to be there and true. -/
def lacks (key : String) (finding : ComplianceFinding) : Rule :=
  ⟨fun context => (!·) <$> context.truthy key, finding⟩

/-- An item has to be in what is listed. -/
def notIn (key item : String) (finding : ComplianceFinding) : Rule :=
  ⟨fun context => (!·) <$> context.includes key item, finding⟩

theorem succeeds_lacks {key : String} {finding : ComplianceFinding} :
    Succeeds ((lacks key finding).violated context) ↔ Succeeds (context.truthy key) :=
  succeeds_map

theorem succeeds_notIn {key item : String} {finding : ComplianceFinding} :
    Succeeds ((notIn key item finding).violated context) ↔
      Succeeds (context.includes key item) :=
  succeeds_map

/-- A checker of compliance with a framework. -/
structure ComplianceChecker where
  framework : ComplianceFramework
  check : Context → Except CheckError ComplianceResult

/-- The rules of the LGPD, -/
def lgpdRules : List Rule := [
  lacks "has_legal_basis" {
    ruleId := "LGPD-7"
    severity := "critical"
    description := "No legal basis for data processing"
    recommendation := "Document legal basis under LGPD Art. 7" },
  lacks "supports_data_subject_rights" {
    ruleId := "LGPD-18"
    severity := "high"
    description := "Data subject rights not implemented"
    recommendation := "Implement access, correction, deletion, portability per Art. 18" },
  lacks "has_dpo" {
    ruleId := "LGPD-41"
    severity := "medium"
    description := "No Data Protection Officer (DPO/Encarregado) designated"
    recommendation := "Designate an Encarregado per Art. 41" },
  lacks "has_security_measures" {
    ruleId := "LGPD-46"
    severity := "high"
    description := "Security measures not documented"
    recommendation := "Implement and document security measures per Art. 46" }]

/-- which must not find anything critical. -/
def lgpdChecker : ComplianceChecker :=
  ⟨.lgpd, checkRules .lgpd ⟨4, 1, noneCritical, []⟩ lgpdRules⟩

/-- A transfer outside the EU needs a decision. -/
def transferRule : Rule where
  violated context := do
    if ← context.truthy "transfers_outside_eu" then
      (!·) <$> context.truthy "has_adequacy_decision"
    else pure false
  finding := {
    ruleId := "GDPR-45"
    severity := "critical"
    description := "Cross-border transfer without adequacy decision"
    recommendation := "Ensure adequate safeguards for international data transfers" }

/-- The rules of the GDPR, -/
def gdprRules : List Rule := [
  lacks "has_lawful_basis" {
    ruleId := "GDPR-6"
    severity := "critical"
    description := "No lawful basis for data processing"
    recommendation := "Document lawful basis under GDPR Art. 6" },
  lacks "supports_data_portability" {
    ruleId := "GDPR-20"
    severity := "high"
    description := "Data portability not supported"
    recommendation := "Implement data export in machine-readable format" },
  lacks "has_dpia" {
    ruleId := "GDPR-35"
    severity := "medium"
    description := "No Data Protection Impact Assessment conducted"
    recommendation := "Conduct DPIA for high-risk processing activities" },
  transferRule]

/-- which must not find anything critical either. -/
def gdprChecker : ComplianceChecker :=
  ⟨.gdpr, checkRules .gdpr ⟨4, 1, noneCritical, []⟩ gdprRules⟩

/-- What only systems of a high risk need. -/
def highRiskRules : List Rule := [
  lacks "has_risk_management_system" {
    ruleId := "AI-ACT-9"
    severity := "critical"
    description := "High-risk AI system lacks risk management system"
    recommendation := "Implement continuous risk management per Art. 9" },
  lacks "has_data_governance" {
    ruleId := "AI-ACT-10"
    severity := "critical"
    description := "High-risk AI system lacks data governance measures"
    recommendation := "Establish data governance for training/validation data" },
  lacks "has_human_oversight" {
    ruleId := "AI-ACT-14"
    severity := "high"
    description := "No human oversight mechanism for high-risk AI"
    recommendation := "Implement human-in-the-loop oversight mechanisms" }]

/-- The rule for systems that are not of minimal risk. -/
def transparencyRule : Rule :=
  lacks "has_transparency_info" {
    ruleId := "AI-ACT-52"
    severity := "medium"
    description := "AI system transparency requirements not met"
    recommendation := "Provide clear information about AI system capabilities and limitations" }

/-- The rules of the EU AI Act, by the level of risk, -/
def euAiActRules (riskLevel : AIRiskLevel) : List Rule :=
  (if riskLevel = .high then highRiskRules else []) ++
    if riskLevel = .high ∨ riskLevel = .limited then [transparencyRule] else []

/-- and how many there are of them for the score. -/
def euAiActGrading (riskLevel : AIRiskLevel) : Grading :=
  ⟨if riskLevel = .high then 4 else 1, 1, noneCritical,
    [("risk_level", riskLevelValue riskLevel)]⟩

/-- The level is found first, from the context. -/
def euAiActChecker : ComplianceChecker where
  framework := .euAiAct
  check context := do
    let riskLevel ← context.aiRiskLevel
    checkRules .euAiAct (euAiActGrading riskLevel) (euAiActRules riskLevel) context

/-- The rules of the NIST AI RMF, -/
def nistAiRmfRules : List Rule := [
  lacks "has_ai_governance_policy" {
    ruleId := "NIST-GOVERN-1"
    severity := "high"
    description := "No AI governance policies and procedures established"
    recommendation :=
      "Define organizational AI risk management policies (GOVERN 1.1-1.7)" },
  lacks "has_ai_risk_mapping" {
    ruleId := "NIST-MAP-1"
    severity := "medium"
    description := "AI system context and risk not mapped"
    recommendation := "Map AI system context, stakeholders, and risk (MAP 1.1-1.6)" },
  lacks "has_ai_metrics" {
    ruleId := "NIST-MEASURE-1"
    severity := "medium"
    description := "No AI performance and risk metrics defined"
    recommendation :=
      "Define quantitative metrics for AI trustworthiness (MEASURE 1.1-1.3)" },
  lacks "has_ai_incident_response" {
    ruleId := "NIST-MANAGE-1"
    severity := "high"
    description := "No AI incident response plan"
    recommendation := "Establish AI risk response and monitoring (MANAGE 1.1-1.4)" }]

/-- half of which must be satisfied. -/
def nistAiRmfChecker : ComplianceChecker :=
  ⟨.nistAiRmf, checkRules .nistAiRmf ⟨4, 1, reaches (5 / 10), []⟩ nistAiRmfRules⟩

/-- The rules of ISO 42001, -/
def iso42001Rules : List Rule := [
  lacks "has_ai_scope_definition" {
    ruleId := "ISO42001-4"
    severity := "medium"
    description := "AI management system scope not defined"
    recommendation :=
      "Define scope, interested parties, and AIMS boundaries (Clause 4)" },
  lacks "has_ai_leadership_commitment" {
    ruleId := "ISO42001-5"
    severity := "medium"
    description := "No leadership commitment to AI management"
    recommendation := "Establish AI policy and management responsibility (Clause 5)" },
  lacks "has_ai_risk_assessment" {
    ruleId := "ISO42001-6"
    severity := "high"
    description := "No AI risk assessment process"
    recommendation := "Implement AI risk assessment and treatment (Clause 6)" },
  lacks "has_ai_lifecycle_management" {
    ruleId := "ISO42001-8"
    severity := "high"
    description := "No AI system lifecycle management"
    recommendation :=
      "Implement operational planning and control for AI systems (Clause 8)" },
  lacks "has_ai_monitoring" {
    ruleId := "ISO42001-9"
    severity := "medium"
    description := "No AI performance monitoring and evaluation"
    recommendation := "Establish monitoring, measurement, and internal audit (Clause 9)" }]

/-- of which it must be six in ten. -/
def iso42001Checker : ComplianceChecker :=
  ⟨.iso42001, checkRules .iso42001 ⟨5, 1, reaches (6 / 10), []⟩ iso42001Rules⟩

/-- The rules of SOX, -/
def soxRules : List Rule := [
  lacks "has_audit_trail" {
    ruleId := "SOX-302"
    severity := "critical"
    description := "No immutable audit trail for financial data changes"
    recommendation := "Implement hash-chained audit log per SOX Section 302" },
  lacks "has_access_controls" {
    ruleId := "SOX-404-ACCESS"
    severity := "critical"
    description := "Inadequate access controls for financial reporting data"
    recommendation := "Enforce RBAC and separation of duties per SOX Section 404" },
  lacks "has_change_management" {
    ruleId := "SOX-404-CHANGE"
    severity := "high"
    description := "No formal change management process for financial data pipelines"
    recommendation := "Implement RACI-based approval for schema and pipeline changes" },
  lacks "has_data_retention_policy" {
    ruleId := "SOX-802"
    severity := "high"
    description := "No data retention policy (SOX requires 7 years)"
    recommendation := "Configure retention policies: audit logs >= 7 years" }]

/-- which must not find anything critical. -/
def soxChecker : ComplianceChecker :=
  ⟨.sox, checkRules .sox ⟨4, 1, noneCritical, []⟩ soxRules⟩

/-- DAMA DMBOK Knowledge Areas mapped to ODG capabilities -/
def damaKnowledgeAreas : List (String × String) := [
  ("data_governance", "Governance Engine (RACI, approvals, audit)"),
  ("data_quality", "Quality Gate (6 DAMA dimensions, SLAs)"),
  ("metadata_management", "DataHub + Metadata Adapter"),
  ("data_architecture", "Medallion Architecture (Bronze/Silver/Gold/Platinum)"),
  ("data_modeling", "Data Contracts + Schema validation"),
  ("data_storage", "MinIO + PostgreSQL (cloud-agnostic)"),
  ("data_security", "Keycloak + OPA + Vault + PII masking"),
  ("data_integration", "NATS JetStream + Kafka + OpenLineage"),
  ("reference_data", "DataHub catalog + enriched metadata"),
  ("data_warehousing", "Lakehouse Agent (promotion pipeline)"),
  ("document_management", "Not yet implemented")]

/-- An area of knowledge of DAMA that is not implemented. -/
def areaRule (area description : String) : Rule :=
  notIn "implemented_areas" area {
    ruleId := s!"DAMA-{area.toUpper}"
    severity :=
      if area = "data_governance" ∨ area = "data_quality" ∨ area = "data_security" then "high"
      else "medium"
    description := s!"DAMA knowledge area not implemented: {area}"
    recommendation := s!"Implement: {description}" }

/-- A dimension of quality that is not measured. -/
def dimensionRule (dim : Quality.DAMADimension) : Rule :=
  notIn "quality_dimensions" dim.value {
    ruleId := s!"DAMA-DQ-{dim.value.toUpper}"
    severity := "medium"
    description := s!"Quality dimension not measured: {dim.value}"
    recommendation := s!"Add {dim.value} quality checks to expectation suites" }

/-- The areas come first, then the dimensions. -/
def damaRules : List Rule :=
  (damaKnowledgeAreas.map fun area => areaRule area.1 area.2) ++
    Quality.DAMADimension.all.map dimensionRule

/-- Seven in ten of them must be there. -/
def damaChecker : ComplianceChecker where
  framework := .damaDmbok
  check := checkRules .damaDmbok
    ⟨damaKnowledgeAreas.length + Quality.DAMADimension.all.length, 0, reaches (7 / 10), []⟩
    damaRules

/-! ### What the checks read -/

/-- The second key is read only if the first one is true. -/
theorem succeeds_transferRule : Succeeds (transferRule.violated context) ↔
    Succeeds (context.truthy "transfers_outside_eu") ∧
    (context.truthy "transfers_outside_eu" = .ok true →
      Succeeds (context.truthy "has_adequacy_decision")) := by
  rw [transferRule, succeeds_bind]
  cases context.truthy "transfers_outside_eu" with
  | error e => simp
  | ok transfers => cases transfers <;> simp [pure, Except.pure]

end Compliance

end OpenDataGov
