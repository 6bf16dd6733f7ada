import OpenDataGov.Core.Basic

/-!
# Enumerations

The enumerations of `odg_core.enums` that the governance engine uses, each with
the string of its members (`value`), by which they are stored, formatted and
hashed. Those that are read back from their strings are instances of `StrEnum`.

A `StrEnum` lists its members with their strings, as a table with the strings as its keys. So no
two members have the same one, and reading a string (`ofValue`) is looking it up in the table;
that this inverts writing it is one fact about all of the enumerations.
-/

namespace OpenDataGov

/-- A string enumeration, as the table of its members by their strings. -/
class StrEnum (α : Type) where
  value : α → String
  members : Keyed.Table value
  mem_members : ∀ a, a ∈ members.rows

namespace StrEnum

variable {α : Type} [StrEnum α] {a : α} {s : String}

/-- The member with a string. -/
def ofValue (s : String) : Option α := members.get? s

/-- A string is read as the member that is written so. -/
theorem ofValue_eq_some : ofValue s = some a ↔ value a = s :=
  Keyed.Table.get?_eq_some.trans (and_iff_right (mem_members a))

@[simp] theorem ofValue_value : ofValue (value a) = some a := ofValue_eq_some.2 rfl

/-- No two members are written alike. -/
theorem value_injective : Function.Injective (value : α → String) := fun a b h =>
  Keyed.Table.eq_of_key_eq (mem_members a) (mem_members b) h

end StrEnum

/-- The RACI roles. -/
inductive RACIRole
  | responsible
  | accountable
  | consulted
  | informed
  deriving DecidableEq

/-- The string of a role, -/
def RACIRole.value : RACIRole → String
  | .responsible => "responsible"
  | .accountable => "accountable"
  | .consulted => "consulted"
  | .informed => "informed"

instance : ToString RACIRole := ⟨RACIRole.value⟩

/-- The levels of classification of data. -/
inductive DataClassification
  | isPublic
  | internal
  | confidential
  | restricted
  | topSecret
  deriving DecidableEq

/-- of a classification, -/
def DataClassification.value : DataClassification → String
  | .isPublic => "public"
  | .internal => "internal"
  | .confidential => "confidential"
  | .restricted => "restricted"
  | .topSecret => "top_secret"

instance : StrEnum DataClassification where
  value := DataClassification.value
  members := ⟨[.isPublic, .internal, .confidential, .restricted, .topSecret], by decide⟩
  mem_members a := by cases a <;> decide

/-- The layers of the medallion architecture. -/
inductive MedallionLayer
  | bronze
  | silver
  | gold
  | platinum
  deriving DecidableEq

/-- of a layer, -/
def MedallionLayer.value : MedallionLayer → String
  | .bronze => "bronze"
  | .silver => "silver"
  | .gold => "gold"
  | .platinum => "platinum"

instance : StrEnum MedallionLayer where
  value := MedallionLayer.value
  members := ⟨[.bronze, .silver, .gold, .platinum], by decide⟩
  mem_members a := by cases a <;> decide

/-- The types of governance decisions. -/
inductive DecisionType
  | dataPromotion
  | schemaChange
  | accessGrant
  | expertRegistration
  | policyChange
  | emergency
  deriving DecidableEq

/-- of a type of decisions, -/
def DecisionType.value : DecisionType → String
  | .dataPromotion => "data_promotion"
  | .schemaChange => "schema_change"
  | .accessGrant => "access_grant"
  | .expertRegistration => "expert_registration"
  | .policyChange => "policy_change"
  | .emergency => "emergency"

instance : StrEnum DecisionType where
  value := DecisionType.value
  members := ⟨[.dataPromotion, .schemaChange, .accessGrant, .expertRegistration, .policyChange,
    .emergency], by decide⟩
  mem_members a := by cases a <;> decide

/-- The states of the life of a decision. -/
inductive DecisionStatus
  | pending
  | awaitingApproval
  | approved
  | rejected
  | vetoed
  | escalated
  deriving DecidableEq

/-- of a status, -/
def DecisionStatus.value : DecisionStatus → String
  | .pending => "pending"
  | .awaitingApproval => "awaiting_approval"
  | .approved => "approved"
  | .rejected => "rejected"
  | .vetoed => "vetoed"
  | .escalated => "escalated"

instance : ToString DecisionStatus := ⟨DecisionStatus.value⟩

instance : StrEnum DecisionStatus where
  value := DecisionStatus.value
  members := ⟨[.pending, .awaitingApproval, .approved, .rejected, .vetoed, .escalated], by decide⟩
  mem_members a := by cases a <;> decide

/-- The values of a vote. -/
inductive VoteValue
  | approve
  | reject
  | abstain
  deriving DecidableEq

/-- of a vote, -/
def VoteValue.value : VoteValue → String
  | .approve => "approve"
  | .reject => "reject"
  | .abstain => "abstain"

instance : ToString VoteValue := ⟨VoteValue.value⟩

/-- The states of a veto. -/
inductive VetoStatus
  | active
  | expired
  | overridden
  deriving DecidableEq

/-- of the status of a veto, -/
def VetoStatus.value : VetoStatus → String
  | .active => "active"
  | .expired => "expired"
  | .overridden => "overridden"

instance : ToString VetoStatus := ⟨VetoStatus.value⟩

/-- The types of auditable events. -/
inductive AuditEventType
  | decisionCreated
  | decisionSubmitted
  | approvalCast
  | decisionApproved
  | decisionRejected
  | vetoExercised
  | vetoOverridden
  | vetoExpired
  | decisionEscalated
  | expertRegistered
  | expertDeregistered
  | dataPromoted
  | roleAssigned
  | roleRevoked
  deriving DecidableEq

/-- and of a type of events. -/
def AuditEventType.value : AuditEventType → String
  | .decisionCreated => "decision_created"
  | .decisionSubmitted => "decision_submitted"
  | .approvalCast => "approval_cast"
  | .decisionApproved => "decision_approved"
  | .decisionRejected => "decision_rejected"
  | .vetoExercised => "veto_exercised"
  | .vetoOverridden => "veto_overridden"
  | .vetoExpired => "veto_expired"
  | .decisionEscalated => "decision_escalated"
  | .expertRegistered => "expert_registered"
  | .expertDeregistered => "expert_deregistered"
  | .dataPromoted => "data_promoted"
  | .roleAssigned => "role_assigned"
  | .roleRevoked => "role_revoked"

/-- Events of different types are hashed differently. -/
theorem AuditEventType.value_injective : Function.Injective AuditEventType.value := by
  intro a b h
  cases a <;> cases b <;> first | rfl | exact absurd h (by decide)

end OpenDataGov
