import Mathlib.Data.Finset.Basic
import OpenDataGov.Lib.Dict

/-!
# The risk of AI systems

The level of risk of an AI system by its capabilities (`classifyAiRisk`), and the controls
that it requires (`getRequiredControls`).

The levels are looked for from the highest one down: a system is of high risk if one of its
capabilities indicates it, else of limited risk if one indicates that. Both sets of indicators may
be configured, so they are arguments, with the defaults of the source. The controls of a level are a
table of the source, and not those of the lower levels with more besides.

* `classifyAiRisk_mono`: with further capabilities, the level does not fall;
* `required_iff`: the controls that a level requires;
* `lost_iff`: of what is required, further capabilities relax only the notification of the
  users, and that exactly if they raise the level from limited to high.
-/

namespace OpenDataGov

open Keyed

namespace Compliance

/-- The levels of risk of AI systems. -/
inductive AIRiskLevel
  | high
  | limited
  | minimal
  deriving DecidableEq

/-- What indicates a high risk, -/
def defaultHighRiskIndicators : Finset String := {
  "biometric_identification",
  "critical_infrastructure",
  "education_scoring",
  "employment_decisions",
  "essential_services",
  "law_enforcement",
  "migration_control"}

/-- and a limited one, if nothing else is configured. -/
def defaultLimitedRiskIndicators : Finset String := {
  "chatbot",
  "emotion_recognition",
  "deepfake_generation",
  "content_generation"}

/-- The level of risk of an AI system with the given capabilities. -/
def classifyAiRisk (capabilities : List String)
    (highRiskIndicators limitedRiskIndicators : Finset String) : AIRiskLevel :=
  let capSet := capabilities.toFinset
  if (capSet ∩ highRiskIndicators).Nonempty then .high
  else if (capSet ∩ limitedRiskIndicators).Nonempty then .limited
  else .minimal

/-- What is only required at a high level of risk. -/
def highRiskControls : List String := [
  "risk_management_system",
  "data_governance",
  "technical_documentation",
  "record_keeping",
  "human_oversight",
  "accuracy_robustness",
  "conformity_assessment"]

/-- The controls that a level of risk requires. -/
def getRequiredControls (riskLevel : AIRiskLevel) : Dict String Bool :=
  .ofList ([("transparency_info", true)] ++
    (if riskLevel = .limited then [("user_notification", true)] else []) ++
    (if riskLevel = .high then highRiskControls.map fun c => (c, true) else []))

/-! ### Levels -/

variable {caps extra : List String} {high limited : Finset String}

/-- A capability is one of the indicators. -/
def Indicated (caps : List String) (indicators : Finset String) : Prop :=
  ∃ c ∈ caps, c ∈ indicators

/-- The sets of the source meet if some capability is an indicator. -/
theorem nonempty_inter_iff : (caps.toFinset ∩ high).Nonempty ↔ Indicated caps high := by
  simp only [Finset.Nonempty, Finset.mem_inter, List.mem_toFinset, Indicated]

/-- Further capabilities only add to what is indicated. -/
theorem indicated_append :
    Indicated (caps ++ extra) high ↔ Indicated caps high ∨ Indicated extra high := by
  simp only [Indicated, List.mem_append, or_and_right, exists_or]

/-- The level is high if that is indicated, -/
theorem classifyAiRisk_eq_high :
    classifyAiRisk caps high limited = .high ↔ Indicated caps high := by
  rw [classifyAiRisk, ← nonempty_inter_iff]
  split_ifs with hhigh hlimited
  · exact iff_of_true rfl hhigh
  · exact iff_of_false (by decide) hhigh
  · exact iff_of_false (by decide) hhigh

/-- and limited if this is and a high risk is not. -/
theorem classifyAiRisk_eq_limited : classifyAiRisk caps high limited = .limited ↔
    ¬Indicated caps high ∧ Indicated caps limited := by
  rw [classifyAiRisk, ← nonempty_inter_iff, ← nonempty_inter_iff]
  split_ifs with hhigh hlimited
  · exact iff_of_false (by decide) fun h => h.1 hhigh
  · exact iff_of_true rfl ⟨hhigh, hlimited⟩
  · exact iff_of_false (by decide) fun h => hlimited h.2

/-- How high a level is. -/
def AIRiskLevel.rank : AIRiskLevel → ℕ
  | .high => 2
  | .limited => 1
  | .minimal => 0

/-- With further capabilities, the level does not fall. -/
theorem classifyAiRisk_mono : (classifyAiRisk caps high limited).rank ≤
    (classifyAiRisk (caps ++ extra) high limited).rank := by
  cases h : classifyAiRisk caps high limited with
  | high =>
    rw [classifyAiRisk_eq_high] at h
    rw [classifyAiRisk_eq_high.2 (indicated_append.2 (.inl h))]
  | limited =>
    rw [classifyAiRisk_eq_limited] at h
    by_cases hhigh : Indicated (caps ++ extra) high
    · rw [classifyAiRisk_eq_high.2 hhigh]
      decide
    · rw [classifyAiRisk_eq_limited.2 ⟨hhigh, indicated_append.2 (.inl h.2)⟩]
  | minimal => exact Nat.zero_le _

/-! ### Controls -/

/-- A control is required. -/
def Required (control : String) (riskLevel : AIRiskLevel) : Prop :=
  (getRequiredControls riskLevel).find? control = some true

instance (control : String) (riskLevel : AIRiskLevel) : Decidable (Required control riskLevel) :=
  inferInstanceAs (Decidable ((getRequiredControls riskLevel).find? control = some true))

variable {control : String} {riskLevel : AIRiskLevel}

/-- What is required at every level, at a limited and at a high one. -/
theorem required_iff : Required control riskLevel ↔ control = "transparency_info" ∨
    (riskLevel = .limited ∧ control = "user_notification") ∨
    (riskLevel = .high ∧ control ∈ highRiskControls) := by
  rw [Required, getRequiredControls, Dict.find?_ofList_of_nodup (by cases riskLevel <;> decide)]
  cases riskLevel with
  | high => simp
  | limited => simp
  | minimal => simp

/-- With further capabilities, a control that has been required is not any more exactly if
    it is the notification of the users, and a capability that indicates a high risk comes
    to others that indicate a limited one. -/
theorem lost_iff : (Required control (classifyAiRisk caps high limited) ∧
      ¬Required control (classifyAiRisk (caps ++ extra) high limited)) ↔
    control = "user_notification" ∧ classifyAiRisk caps high limited = .limited ∧
      Indicated extra high := by
  constructor
  · rintro ⟨hreq, hlost⟩
    have hmono : (classifyAiRisk caps high limited).rank ≤
        (classifyAiRisk (caps ++ extra) high limited).rank := classifyAiRisk_mono
    rw [required_iff] at hreq hlost
    obtain ⟨hinfo, huser, hhigh⟩ := (not_or.1 hlost).imp_right not_or.1
    rcases hreq with h | ⟨hlimited, hcontrol⟩ | ⟨h, hcontrol⟩
    · exact absurd h hinfo
    · -- The level is no longer limited, and it does not fall.
      have hne := fun h => huser ⟨h, hcontrol⟩
      refine ⟨hcontrol, hlimited, ?_⟩
      rw [hlimited] at hmono
      cases hlevel : classifyAiRisk (caps ++ extra) high limited with
      | high =>
        rw [classifyAiRisk_eq_high, indicated_append] at hlevel
        exact hlevel.resolve_left (classifyAiRisk_eq_limited.1 hlimited).1
      | limited => exact absurd hlevel hne
      | minimal => exact absurd (hlevel ▸ hmono) (by decide)
    · -- What is required at the high level only, stays required.
      rw [classifyAiRisk_eq_high] at h
      exact absurd ⟨classifyAiRisk_eq_high.2 (indicated_append.2 (.inl h)), hcontrol⟩ hhigh
  · rintro ⟨rfl, hlimited, hextra⟩
    rw [classifyAiRisk_eq_high.2 (indicated_append.2 (.inr hextra)), hlimited]
    decide

/-- A chatbot need not tell its users any more once it is used for law enforcement. -/
theorem not_required_mono : ¬∀ (caps extra : List String) (high limited : Finset String)
    (control : String), Required control (classifyAiRisk caps high limited) →
      Required control (classifyAiRisk (caps ++ extra) high limited) := fun h => by
  have hchatbot := h ["chatbot"] ["law_enforcement"] defaultHighRiskIndicators
    defaultLimitedRiskIndicators "user_notification"
  exact absurd (hchatbot (by decide)) (by decide)

end Compliance

end OpenDataGov
