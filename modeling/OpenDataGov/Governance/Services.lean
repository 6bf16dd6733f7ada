import OpenDataGov.Governance.Repository

/-!
# The services

The operations of the governance engine, as programs over its repositories:
`AuditService`, `DecisionService`, `ApprovalService`, `VetoService` and
`RoleService`.

An identifier or a reading of the clock that an operation takes from outside is an
input of it: the `n`-th object it creates or updates gets the `n`-th `Stamp`. An operation
that calls another one gives it the stamps after its own.

The checks of an operation come in the order of the source, since what is checked first decides
which error is raised, and since a check may read what another transaction has changed by then.
Nothing is locked between a check and what follows from it. Every operation ends by recording an
event, whose previous hash is read just before (`AuditService.recordEvent`); if recording it fails,
the transaction is rolled back by the caller (`Governance.Calls`).

What the operations come to is said in `Governance.Outcome` and `Governance.Deed`, in terms of the
tables alone; the later modules use that, and only the concurrent ones look at programs again.
-/

namespace OpenDataGov

open Calendar Transact Program

/-- A new identifier, and a reading of the clock. -/
structure Stamp where
  id : UUID
  now : DateTime

/-- Raising a `ValueError` if there is no value. -/
def found {α : Type} (x : Option α) (msg : String) : Prog α :=
  match x with
  | none => raise (.valueError msg)
  | some a => .pure a

/-- Raising a `ValueError` unless `p` holds. -/
def require (p : Prop) [Decidable p] (msg : String) : Prog Unit :=
  if p then .pure () else raise (.valueError msg)

/-- Raising a `ValidationError` if the fields of a model are not valid. -/
def validate {α : Type} (name : String) (fields : Validated α) : Prog α :=
  ofExcept (fields.model name)

/-! ## Audit -/

namespace AuditService

/-- `last_hash or GENESIS_HASH`. -/
def orGenesis : Option (Bounded 0 64) → Bounded 0 64
  | none => genesisHash
  | some h => if h.text = "" then genesisHash else h

variable [Hashlib]

/-- Recording a new audit event, extending the hash chain. -/
def recordEvent (stamp : Stamp) (eventType : AuditEventType)
    (entityType entityId actorId description : String)
    (details : Option (Json.Dict Json.Scalar)) : Prog AuditEvent := do
  let lastHash ← PgAuditRepository.getLastHash
  let (entityType, entityId, actorId) ← validate "AuditEvent" <|
    (Validated.bounded 1 100 "entity_type" entityType).and <|
    (Validated.bounded 1 200 "entity_id" entityId).and <|
    Validated.bounded 1 200 "actor_id" actorId
  let event : AuditEvent := {
    id := stamp.id
    eventType := eventType
    entityType := entityType
    entityId := entityId
    actorId := actorId
    description := description
    details := details.getD .empty
    occurredAt := stamp.now
    previousHash := orGenesis lastHash
    eventHash := ⟨"", by decide⟩ }
  PgAuditRepository.create event.sealed

/-- Verifying the integrity of the audit chain. -/
def verifyIntegrity (limit : ℕ) : Prog Bool := do
  let events ← PgAuditRepository.getChain limit
  return verifyChain events

/-- The limit of `verify_integrity` unless there is another. -/
def defaultLimit : ℕ := 1000

end AuditService

/-! ## Decisions -/

namespace DecisionService

variable [Hashlib]

/-- Creating a decision, which is pending. -/
def createDecision (fresh : ℕ → Stamp) (decisionType : DecisionType)
    (title description domainId createdBy : String) (promotion : Option PromotionMetadata)
    (metadata : Option (Json.Dict Json.Scalar)) : Prog GovernanceDecision := do
  let (title', domainId', createdBy') ← validate "GovernanceDecision" <|
    (Validated.bounded 1 500 "title" title).and <|
    (Validated.bounded 1 100 "domain_id" domainId).and <|
    Validated.bounded 1 200 "created_by" createdBy
  let decision : GovernanceDecision := {
    id := (fresh 0).id
    decisionType := decisionType
    title := title'
    description := description
    status := .pending
    domainId := domainId'
    createdBy := createdBy'
    createdAt := (fresh 0).now
    updatedAt := (fresh 1).now
    metadata := metadata.getD .empty
    promotion := promotion }
  let saved ← PgDecisionRepository.create decision
  let _ ← AuditService.recordEvent (fresh 2) .decisionCreated "decision" saved.id.str createdBy
    s!"Decision created: {title}" none
  return saved

/-- Moving a decision from pending to awaiting approval. -/
def submitForApproval (fresh : ℕ → Stamp) (decisionId : UUID) (actorId : String) :
    Prog GovernanceDecision := do
  let decision ← found (← PgDecisionRepository.getById decisionId)
    s!"Decision {decisionId} not found"
  require (decision.status = .pending)
    s!"Decision must be PENDING to submit, got {decision.status}"
  let updated ← PgDecisionRepository.update { decision with status := .awaitingApproval }
    (fresh 0).now
  let _ ← AuditService.recordEvent (fresh 1) .decisionSubmitted "decision" decisionId.str actorId
    s!"Decision submitted for approval: {decision.title.text}" none
  return updated

/-- The final statuses, with the events that record them. -/
def eventMap : DecisionStatus → Option AuditEventType
  | .approved => some .decisionApproved
  | .rejected => some .decisionRejected
  | .escalated => some .decisionEscalated
  | .vetoed => some .vetoExercised
  | .pending => none
  | .awaitingApproval => none

/-- Finalizing a decision as approved, rejected, vetoed or escalated. -/
def finalize (fresh : ℕ → Stamp) (decisionId : UUID) (status : DecisionStatus)
    (actorId : String) : Prog GovernanceDecision := do
  let decision ← found (← PgDecisionRepository.getById decisionId)
    s!"Decision {decisionId} not found"
  require (decision.status = .awaitingApproval)
    s!"Decision must be AWAITING_APPROVAL to finalize, got {decision.status}"
  let eventType ← found (eventMap status) s!"Invalid final status: {status}"
  let updated ← PgDecisionRepository.update { decision with status := status } (fresh 0).now
  let _ ← AuditService.recordEvent (fresh 1) eventType "decision" decisionId.str actorId
    s!"Decision finalized as {status}: {decision.title.text}" none
  return updated

/-- Looking a decision up, if it is there. -/
def getDecision (decisionId : UUID) : Prog (Option GovernanceDecision) :=
  PgDecisionRepository.getById decisionId

end DecisionService

/-! ## Approvals -/

namespace ApprovalService

/-- The roles required to approve. -/
def requiredApprovalRoles : List RACIRole := [.responsible, .accountable]

/-- The users whose roles are required to approve. -/
def requiredVoters (assignments : List RACIAssignment) : List (Bounded 1 200) :=
  (assignments.filter fun a => a.role ∈ requiredApprovalRoles).map RACIAssignment.userId

/-- The users who have approved. -/
def approvedVoters (approvals : List ApprovalRecord) : List (Bounded 1 200) :=
  (approvals.filter fun a => a.vote = .approve).map ApprovalRecord.voterId

variable [Hashlib]

/-- Checking whether all the required roles have approved, and finalizing if so. -/
def checkAndFinalize (fresh : ℕ → Stamp) (decisionId : UUID) (domainId : String) :
    Prog Unit := do
  let requiredAssignments ← PgRACIRepository.listByDomain domainId
  if requiredVoters requiredAssignments = [] then
    return ()
  else
    let approvals ← PgApprovalRepository.listByDecision decisionId
    if ∀ u ∈ requiredVoters requiredAssignments, u ∈ approvedVoters approvals then
      let _ ← DecisionService.finalize fresh decisionId .approved "system"
      return ()
    else
      return ()

/-- Casting a vote on a decision. -/
def castVote (fresh : ℕ → Stamp) (decisionId : UUID) (voterId : String) (vote : VoteValue)
    (comment : String) : Prog ApprovalRecord := do
  let decision ← found (← DecisionService.getDecision decisionId)
    s!"Decision {decisionId} not found"
  require (decision.status = .awaitingApproval)
    s!"Decision is not awaiting approval, status: {decision.status}"
  let assignment ← found (← PgRACIRepository.getAssignment voterId decision.domainId.text)
    s!"User {voterId} has no RACI role in domain {decision.domainId.text}"
  let existing ← PgApprovalRepository.getVote decisionId voterId
  require (existing = none) s!"User {voterId} has already voted on decision {decisionId}"
  let voterId' ← validate "ApprovalRecord" (Validated.bounded 1 200 "voter_id" voterId)
  let record : ApprovalRecord := {
    id := (fresh 0).id
    decisionId := decisionId
    voterId := voterId'
    voterRole := assignment.role
    vote := vote
    comment := comment
    votedAt := (fresh 0).now }
  let saved ← PgApprovalRepository.create record
  let _ ← AuditService.recordEvent (fresh 1) .approvalCast "decision" decisionId.str voterId
    s!"Vote {vote} cast by {voterId} (role: {assignment.role})"
    (some ⟨[("vote", .str vote.value), ("role", .str assignment.role.value),
      ("comment", .str comment)], by simp⟩)
  match vote with
  | .reject =>
    let _ ← DecisionService.finalize (fun n => fresh (n + 2)) decisionId .rejected voterId
    return saved
  | .approve =>
    checkAndFinalize (fun n => fresh (n + 2)) decisionId decision.domainId.text
    return saved
  | .abstain => return saved

end ApprovalService

/-! ## Vetoes -/

namespace VetoService

/-- The authority of the roles: a higher one can override a lower one. -/
def roleHierarchy : RACIRole → ℕ
  | .accountable => 3
  | .responsible => 2
  | .consulted => 1
  | .informed => 0

/-- The roles eligible to exercise a veto. -/
def vetoEligibleRoles : List RACIRole := [.accountable, .responsible]

variable [Hashlib]

/-- Exercising a veto on a decision. -/
def exerciseVeto (fresh : ℕ → Stamp) (decisionId : UUID) (vetoedBy reason : String) :
    Prog VetoRecord := do
  let decision ← found (← DecisionService.getDecision decisionId)
    s!"Decision {decisionId} not found"
  require (decision.status = .awaitingApproval)
    s!"Decision must be AWAITING_APPROVAL to veto, got {decision.status}"
  let assignment ← found (← PgRACIRepository.getAssignment vetoedBy decision.domainId.text)
    s!"User {vetoedBy} has no RACI role in domain {decision.domainId.text}"
  require (assignment.role ∈ vetoEligibleRoles) s!"Role {assignment.role} is not eligible to veto"
  let isEmergency := decide (decision.decisionType = .emergency)
  let (vetoedBy', reason') ← validate "VetoRecord" <|
    (Validated.bounded 1 200 "vetoed_by" vetoedBy).and (Validated.atLeast 1 "reason" reason)
  let veto : VetoRecord := {
    id := (fresh 0).id
    decisionId := decisionId
    vetoedBy := vetoedBy'
    vetoedByRole := assignment.role
    reason := reason'
    status := .active
    vetoedAt := (fresh 0).now
    expiresAt := none
    overriddenBy := none
    overriddenAt := none }
  let expiresAt := veto.computeExpiry isEmergency
  let saved ← PgVetoRepository.create { veto with expiresAt := some expiresAt }
  let _ ← DecisionService.finalize (fun n => fresh (n + 1)) decisionId .vetoed vetoedBy
  let _ ← AuditService.recordEvent (fresh 3) .vetoExercised "decision" decisionId.str vetoedBy
    s!"Veto exercised by {vetoedBy}: {reason}"
    (some ⟨[("reason", .str reason), ("is_emergency", .bool isEmergency),
      ("expires_at", .str expiresAt.str)], by simp⟩)
  return saved

/-- Overriding an active veto with a role of higher authority. -/
def overrideVeto (fresh : ℕ → Stamp) (vetoId : UUID) (overriddenBy : String) :
    Prog VetoRecord := do
  let veto ← found (← PgVetoRepository.getById vetoId) s!"Veto {vetoId} not found"
  require (veto.status = .active) s!"Veto is not active, status: {veto.status}"
  let decision ← found (← DecisionService.getDecision veto.decisionId)
    s!"Decision {veto.decisionId} not found"
  let assignment ← found (← PgRACIRepository.getAssignment overriddenBy decision.domainId.text)
    s!"User {overriddenBy} has no RACI role in domain {decision.domainId.text}"
  let overrideLevel := roleHierarchy assignment.role
  let vetoLevel := roleHierarchy veto.vetoedByRole
  require (vetoLevel < overrideLevel)
    (s!"Role {assignment.role} (level {overrideLevel}) cannot override " ++
      s!"veto by {veto.vetoedByRole} (level {vetoLevel})")
  let updated ← PgVetoRepository.update
    { veto with status := .overridden, overriddenBy := some overriddenBy }
  let _ ← AuditService.recordEvent (fresh 0) .vetoOverridden "decision" veto.decisionId.str
    overriddenBy s!"Veto overridden by {overriddenBy}" none
  return updated

end VetoService

/-! ## Roles -/

namespace RoleService

variable [Hashlib]

/-- Assigning a RACI role to a user for a domain. -/
def assignRole (fresh : ℕ → Stamp) (userId domainId : String) (role : RACIRole)
    (assignedBy : String) : Prog RACIAssignment := do
  let existing ← PgRACIRepository.getAssignment userId domainId
  match existing with
  | some existing => raise (.valueError
      s!"User {userId} already has role {existing.role} in domain {domainId}")
  | none =>
    let (userId', domainId', assignedBy') ← validate "RACIAssignment" <|
      (Validated.bounded 1 200 "user_id" userId).and <|
      (Validated.bounded 1 100 "domain_id" domainId).and <|
      Validated.bounded 1 200 "assigned_by" assignedBy
    let assignment : RACIAssignment := {
      id := (fresh 0).id
      userId := userId'
      domainId := domainId'
      role := role
      assignedAt := (fresh 0).now
      assignedBy := assignedBy' }
    let saved ← PgRACIRepository.create assignment
    let _ ← AuditService.recordEvent (fresh 1) .roleAssigned "raci_assignment" saved.id.str
      assignedBy s!"Role {role} assigned to {userId} in domain {domainId}"
      (some ⟨[("user_id", .str userId), ("domain_id", .str domainId), ("role", .str role.value)],
        by simp⟩)
    return saved

/-- Revoking the assignment of a RACI role. -/
def revokeRole (fresh : ℕ → Stamp) (assignmentId : UUID) (revokedBy : String) :
    Prog Unit := do
  let assignment ← found (← PgRACIRepository.getById assignmentId)
    s!"Assignment {assignmentId} not found"
  PgRACIRepository.delete assignmentId
  let _ ← AuditService.recordEvent (fresh 0) .roleRevoked "raci_assignment" assignmentId.str
    revokedBy (s!"Role {assignment.role} revoked from {assignment.userId.text} " ++
      s!"in {assignment.domainId.text}") none
  return ()

end RoleService

end OpenDataGov
