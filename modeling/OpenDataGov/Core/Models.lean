import OpenDataGov.Core.Enums
import OpenDataGov.Lib.DateTime

/-!
# The models of the governance platform

The pydantic models of `odg_core.models` that the governance engine stores, and
those of the schemas of data contracts. A value of one of them has passed the
validation of the model: bounded strings carry their bounds.

The fields are those of the source, in its order. Left out are fields that no function of the
model reads, and the validators that put older forms of a model into the present one, which are
in `Core.Decisions` where they are used.
-/

namespace OpenDataGov

open Calendar

/-- What only decisions about promotions have. -/
structure PromotionMetadata where
  sourceLayer : MedallionLayer
  targetLayer : MedallionLayer
  dataClassification : Option DataClassification
  deriving DecidableEq

/-- A governance decision requiring an approval workflow. -/
structure GovernanceDecision where
  id : UUID
  decisionType : DecisionType
  title : Bounded 1 500
  description : String
  status : DecisionStatus
  domainId : Bounded 1 100
  createdBy : Bounded 1 200
  createdAt : DateTime
  updatedAt : DateTime
  metadata : Json.Dict Json.Scalar
  promotion : Option PromotionMetadata

/-- A vote on a governance decision. -/
structure ApprovalRecord where
  id : UUID
  decisionId : UUID
  voterId : Bounded 1 200
  voterRole : RACIRole
  vote : VoteValue
  comment : String
  votedAt : DateTime
  deriving DecidableEq

/-- A veto exercised on a governance decision. -/
structure VetoRecord where
  id : UUID
  decisionId : UUID
  vetoedBy : Bounded 1 200
  vetoedByRole : RACIRole
  reason : { s : String // 1 ≤ s.length }
  status : VetoStatus
  vetoedAt : DateTime
  expiresAt : Option DateTime
  overriddenBy : Option String
  overriddenAt : Option DateTime
  deriving DecidableEq

/-- The time a veto lasts: 1 hour for emergencies, 24 hours otherwise. -/
def vetoTimeout (isEmergency : Bool) : ℕ := if isEmergency then hour else 24 * hour

/-- The expiry time based on the urgency of the decision. -/
def VetoRecord.computeExpiry (v : VetoRecord) (isEmergency : Bool) : DateTime :=
  v.vetoedAt.add (vetoTimeout isEmergency)

/-- The veto has expired at the time `now`. -/
def VetoRecord.IsExpired (v : VetoRecord) (now : DateTime) : Prop :=
  v.status = .active ∧ ∃ t ∈ v.expiresAt, t.instant < now.instant

/-- The assignment of a RACI role to a user for a domain. -/
structure RACIAssignment where
  id : UUID
  userId : Bounded 1 200
  domainId : Bounded 1 100
  role : RACIRole
  assignedAt : DateTime
  assignedBy : Bounded 1 200
  deriving DecidableEq

/-- The definition of a column within the schema of a data contract. -/
structure ColumnDefinition where
  name : Bounded 1 200
  dataType : Bounded 1 50
  nullable : Bool
  description : String
  pii : Bool
  deriving DecidableEq

/-- The definition of the schema within a data contract. -/
structure DataContractSchema where
  columns : List ColumnDefinition
  primaryKey : List String
  deriving DecidableEq

end OpenDataGov
