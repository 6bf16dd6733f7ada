import OpenDataGov.Governance.Acceptance
import OpenDataGov.Lib.Coupling
import OpenDataGov.Lib.Paging

/-!
# The API of the governance engine

All the routes of the engine, with the responses that they send. Requests that change something
(`Api.Change`) run a service in a transaction, which is rolled back if the service raises; the
route turns a `ValueError` into a response, but that of `create_decision`. The other requests
(`Api.Read`) look something up.

The bodies of requests are valid; before a route is called, others are refused. Valid ones may
still have something that PostgreSQL does not store (`Change.storable`): the character U+0000 in
a text, and `NaN` or infinite numbers in the metadata of a decision. The first statement with such
a value fails (`Change.statements`), and the response is an internal server error. What is looked
up by a text with U+0000 fails as well, which is left out of the model: `Read.respond` is about
the other requests.

A status is decided by the tables about decisions (`Call.Accepted`, in `Governance.Acceptance`). So
there are three steps from a service to its route: the specification of the service says what it
comes to, the route makes a response of that, and the database has no errors of its own as long as
identifiers are new (`Ready`).

* `Change.respond_of`: a specification of a service says how its route responds;
* `exists_execAll`: requests leave the stores that some calls of the services leave, as
  transactions or abandoned ones, so that all that has been proved of those applies;
* `respond_status`: the status of the response to a request with which nothing is wrong in that
  sense depends on the tables only, as `Accepted` says, as long as its identifiers are new.

Requests are served one after another here. The routes of health and readiness, authentication,
and the text of a response that is refused by validation are left out.
-/

namespace OpenDataGov

open Calendar Transact Program Keyed

/-- The body of a request for a new decision. -/
structure CreateDecisionRequest where
  decisionType : DecisionType
  title : Bounded 1 500
  description : String
  domainId : Bounded 1 100
  createdBy : Bounded 1 200
  promotion : Option PromotionMetadata
  metadata : Json.Dict Json.Scalar

/-- The body of a request to assign a role. -/
structure AssignRoleRequest where
  userId : Bounded 1 200
  domainId : Bounded 1 100
  role : RACIRole
  assignedBy : Bounded 1 200

/-! ## Responses -/

/-- A decision, as it is shown. -/
structure DecisionResponse where
  id : UUID
  decisionType : DecisionType
  title : String
  description : String
  status : DecisionStatus
  domainId : String
  createdBy : String
  createdAt : DateTime
  updatedAt : DateTime
  promotion : Option PromotionMetadata

/-- A vote, as it is shown. -/
structure ApprovalResponse where
  id : UUID
  decisionId : UUID
  voterId : String
  voterRole : RACIRole
  vote : VoteValue
  comment : String
  votedAt : DateTime

/-- A veto, as it is shown. -/
structure VetoResponse where
  id : UUID
  decisionId : UUID
  vetoedBy : String
  vetoedByRole : RACIRole
  reason : String
  status : VetoStatus
  vetoedAt : DateTime
  expiresAt : Option DateTime
  overriddenBy : Option String
  overriddenAt : Option DateTime

/-- An assignment, as it is shown. -/
structure RoleAssignmentResponse where
  id : UUID
  userId : String
  domainId : String
  role : RACIRole
  assignedAt : DateTime
  assignedBy : String

/-- An event, as it is shown: without its details, and without the hash before. -/
structure AuditEventResponse where
  id : UUID
  eventType : String
  entityType : String
  entityId : String
  actorId : String
  description : String
  occurredAt : DateTime
  eventHash : String

/-- The metadata of a decision are not shown. -/
def DecisionResponse.modelValidate (d : GovernanceDecision) : DecisionResponse :=
  ⟨d.id, d.decisionType, d.title.text, d.description, d.status, d.domainId.text, d.createdBy.text,
    d.createdAt, d.updatedAt, d.promotion⟩

/-- A vote is shown as it is. -/
def ApprovalResponse.modelValidate (x : ApprovalRecord) : ApprovalResponse :=
  ⟨x.id, x.decisionId, x.voterId.text, x.voterRole, x.vote, x.comment, x.votedAt⟩

/-- A veto is shown as it is. -/
def VetoResponse.modelValidate (v : VetoRecord) : VetoResponse :=
  ⟨v.id, v.decisionId, v.vetoedBy.text, v.vetoedByRole, v.reason.1, v.status, v.vetoedAt,
    v.expiresAt, v.overriddenBy, v.overriddenAt⟩

/-- An assignment is shown as it is. -/
def RoleAssignmentResponse.modelValidate (a : RACIAssignment) : RoleAssignmentResponse :=
  ⟨a.id, a.userId.text, a.domainId.text, a.role, a.assignedAt, a.assignedBy.text⟩

/-- An event is shown with the text of its type. -/
def AuditEventResponse.modelValidate (e : AuditEvent) : AuditEventResponse :=
  ⟨e.id, e.eventType.value, e.entityType.text, e.entityId.text, e.actorId.text, e.description,
    e.occurredAt, e.eventHash.text⟩

namespace Api

/-- The body of a response. -/
inductive Body
  | empty
  /-- The text of an error that a route has handled. -/
  | detail (e : Error)
  /-- A text of the route itself. -/
  | message (text : String)
  | decision (d : DecisionResponse)
  | decisions (ds : List DecisionResponse)
  | approval (x : ApprovalResponse)
  | approvals (xs : List ApprovalResponse)
  | veto (v : VetoResponse)
  | vetoes (vs : List VetoResponse)
  | assignment (a : RoleAssignmentResponse)
  | assignments (as : List RoleAssignmentResponse)
  | events (es : List AuditEventResponse)
  | verified (isValid : Bool)

/-- A response, as far as it depends on the request. -/
structure HttpResponse where
  status : ℕ
  body : Body

/-- The response to an error that no route handles. -/
def internalServerError : HttpResponse := ⟨500, .message "Internal Server Error"⟩

end Api

/-! ## What PostgreSQL stores -/

namespace Postgres

/-- A text is stored if it does not have the character U+0000. -/
def stores (text : String) : Bool := text.toList.all fun c => c.toNat ≠ 0

/-- JSON is stored without `NaN` and infinite numbers, and with such texts. -/
def storesScalar : Json.Scalar → Bool
  | .null | .bool _ | .int _ | .float (.finite ..) => true
  | .float .nan | .float (.inf _) => false
  | .str text => stores text

/-- A dictionary, as JSON. -/
def storesDict (d : Json.Dict Json.Scalar) : Bool :=
  d.rows.all fun kv => stores kv.1 && storesScalar kv.2

end Postgres

/-- All that is in a statement is stored. -/
def Query.storable : Query → Bool
  | .insertDecision d =>
    [d.title.text, d.description, d.domainId.text, d.createdBy.text].all Postgres.stores &&
      Postgres.storesDict d.metadata
  | .updateDecision _ _ _ metadata => Postgres.storesDict metadata
  | .insertVote x => [x.voterId.text, x.comment].all Postgres.stores
  | .selectVote _ voterId => Postgres.stores voterId
  | .insertVeto v => [v.vetoedBy.text, v.reason.1].all Postgres.stores
  | .updateVeto _ _ overriddenBy _ => overriddenBy.all Postgres.stores
  | .insertEvent e =>
    [e.entityType.text, e.entityId.text, e.actorId.text, e.description].all Postgres.stores &&
      Postgres.storesDict e.details
  | .insertAssignment a =>
    [a.userId.text, a.domainId.text, a.assignedBy.text].all Postgres.stores
  | .selectAssignment userId domainId => [userId, domainId].all Postgres.stores
  | .selectDomain domainId => Postgres.stores domainId
  | .getDecision _ | .selectVotes _ | .getVeto _ | .lastHash | .selectChain _ | .getAssignment _
  | .deleteAssignment _ => true

namespace Api

/-! ## Changes -/

/-- The requests that change something. -/
inductive Change
  | createDecision (body : CreateDecisionRequest)
  /-- The endpoints under a decision. -/
  | endpoint (decisionId : UUID) (e : Endpoint)
  | assignRole (body : AssignRoleRequest)
  | revokeRole (assignmentId : UUID) (revokedBy : String)

namespace Change

/-- The call of a service by a route. -/
def call : Change → Call
  | .createDecision body => .createDecision body.decisionType body.title.text body.description
      body.domainId.text body.createdBy.text body.promotion (some body.metadata)
  | .endpoint decisionId e => e.call decisionId
  | .assignRole body => .assignRole body.userId.text body.domainId.text body.role
      body.assignedBy.text
  | .revokeRole assignmentId revokedBy => .revokeRole assignmentId revokedBy

/-- The status of a response to a change that has been made. -/
def success : Change → ℕ
  | .createDecision _ | .endpoint _ (.approveDecision _) | .endpoint _ (.exerciseVeto _)
  | .assignRole _ => 201
  | .endpoint _ (.submitDecision _) | .endpoint _ (.overrideVeto ..) => 200
  | .revokeRole .. => 204

/-- The status that a route answers to a `ValueError`, if it handles it. -/
def onValueError : Change → Option ℕ
  | .createDecision _ => none
  | .endpoint .. | .assignRole _ => some 400
  | .revokeRole .. => some 404

/-- The response to an error. -/
def failure (q : Change) (e : Error) : HttpResponse :=
  match q.onValueError with
  | none => internalServerError
  | some status => if e.IsValueError then ⟨status, .detail e⟩ else internalServerError

/-- All that the request brings into the tables is stored. -/
def storable : Change → Bool
  | .createDecision body =>
    [body.title.text, body.description, body.domainId.text, body.createdBy.text].all
      Postgres.stores && Postgres.storesDict body.metadata
  | .endpoint _ (.submitDecision body) => Postgres.stores body.actorId.text
  | .endpoint _ (.approveDecision body) =>
    [body.voterId.text, body.comment].all Postgres.stores
  | .endpoint _ (.exerciseVeto body) => [body.vetoedBy.text, body.reason.1].all Postgres.stores
  | .endpoint _ (.overrideVeto _ body) => Postgres.stores body.overriddenBy.text
  | .assignRole body =>
    [body.userId.text, body.domainId.text, body.assignedBy.text].all Postgres.stores
  | .revokeRole _ revokedBy => Postgres.stores revokedBy

variable [Hashlib]

/-- What a route does before the transaction ends. -/
def handler (fresh : ℕ → Stamp) : Change → Prog Body
  | .createDecision body => do
    let decision ← DecisionService.createDecision fresh body.decisionType body.title.text
      body.description body.domainId.text body.createdBy.text body.promotion (some body.metadata)
    return .decision (.modelValidate decision)
  | .endpoint decisionId (.submitDecision body) => do
    let decision ← DecisionService.submitForApproval fresh decisionId body.actorId.text
    return .decision (.modelValidate decision)
  | .endpoint decisionId (.approveDecision body) => do
    let record ← ApprovalService.castVote fresh decisionId body.voterId.text body.vote body.comment
    return .approval (.modelValidate record)
  | .endpoint decisionId (.exerciseVeto body) => do
    let veto ← VetoService.exerciseVeto fresh decisionId body.vetoedBy.text body.reason.1
    return .veto (.modelValidate veto)
  | .endpoint _ (.overrideVeto vetoId body) => do
    let veto ← VetoService.overrideVeto fresh vetoId body.overriddenBy.text
    return .veto (.modelValidate veto)
  | .assignRole body => do
    let assignment ← RoleService.assignRole fresh body.userId.text body.domainId.text body.role
      body.assignedBy.text
    return .assignment (.modelValidate assignment)
  | .revokeRole assignmentId revokedBy => do
    RoleService.revokeRole fresh assignmentId revokedBy
    return .empty

/-- The same on PostgreSQL, where the first statement fails with something that is not stored.
    There is none but in a request that brings such a thing: what a statement has from the tables
    has been stored before. -/
def statements (fresh : ℕ → Stamp) (q : Change) : Prog Body :=
  if q.storable then q.handler fresh else (q.handler fresh).guard Query.storable .dataError

/-- The response to a change, and the stores after it. The transaction is committed before the
    response is sent. -/
def respond [Postgres] (fresh : ℕ → Stamp) (q : Change) (s : Store) : HttpResponse × Store :=
  match (q.statements fresh).run backend s with
  | (.ok body, s') => (⟨q.success, body⟩, s')
  | (.error e, _) => (q.failure e, s)

end Change

/-! ## Reads -/

/-- A page of some rows, in the order of a key. PostgreSQL takes no limits below zero, and no
    numbers that do not have 64 bits. -/
def page [Postgres] {ρ : Type} (key : ρ → ℤ) (limit offset : ℤ) (rows : List ρ) :
    Option (List ρ) :=
  if (0 ≤ limit ∧ limit < 2 ^ 63) ∧ 0 ≤ offset ∧ offset < 2 ^ 63 then
    some (Paging.page limit.toNat offset.toNat (orderBy key rows))
  else none

/-- The requests that look something up. -/
inductive Read
  | listDecisions (domainId : Option String) (status : Option DecisionStatus) (limit offset : ℤ)
  | getDecision (decisionId : UUID)
  | listApprovals (decisionId : UUID)
  | listVetoes (decisionId : UUID)
  | getDomainRoles (domainId : String)
  | getUserRoles (userId : String)
  | listEvents (eventType : Option AuditEventType) (limit offset : ℤ)
  | getEventsForEntity (entityId : String) (limit : ℤ)
  | verifyAuditIntegrity

namespace Read

/-- The decisions of a domain and with a status, if any are asked for. An empty name asks for
    none. -/
def ofDecisions (domainId : Option String) (status : Option DecisionStatus) (s : Store) :
    List GovernanceDecision :=
  s.decisions.rows.filter fun d =>
    (domainId.filter (· ≠ "")).all (· = d.domainId.text) && status.all (· = d.status)

/-- The response with the rows that the database has answered. -/
def found {ρ : Type} (body : List ρ → Body) : Option (List ρ) → HttpResponse
  | none => internalServerError
  | some rows => ⟨200, body rows⟩

variable [Hashlib] [Postgres]

/-- The response to a request that looks something up, which changes nothing. -/
def respond (s : Store) : Read → HttpResponse
  | .listDecisions domainId status limit offset =>
    found (fun ds => .decisions (ds.map .modelValidate)) <|
      page (fun d : GovernanceDecision => -d.createdAt.instant) limit offset
        (ofDecisions domainId status s)
  | .getDecision decisionId => match s.decisions.get? decisionId with
    | none => ⟨404, .message "Decision not found"⟩
    | some decision => ⟨200, .decision (.modelValidate decision)⟩
  | .listApprovals decisionId => ⟨200, .approvals <| List.map .modelValidate <|
      orderBy (fun x : ApprovalRecord => x.votedAt.instant) <|
        s.approvals.rows.filter fun x => x.decisionId = decisionId⟩
  | .listVetoes decisionId => ⟨200, .vetoes <| List.map .modelValidate <|
      orderBy (fun v : VetoRecord => v.vetoedAt.instant) <|
        s.vetoes.rows.filter fun v => v.decisionId = decisionId⟩
  | .getDomainRoles domainId => ⟨200, .assignments <| List.map .modelValidate <|
      s.assignments.rows.filter fun a => a.domainId.text = domainId⟩
  | .getUserRoles userId => ⟨200, .assignments <| List.map .modelValidate <|
      s.assignments.rows.filter fun a => a.userId.text = userId⟩
  | .listEvents eventType limit offset =>
    found (fun es => .events (es.map .modelValidate)) <|
      page (fun e : AuditEvent => -e.stamp) limit offset <|
        s.events.rows.filter fun e => eventType.all (· = e.eventType)
  | .getEventsForEntity entityId limit =>
    found (fun es => .events (es.map .modelValidate)) <|
      page AuditEvent.stamp limit 0 <| s.events.rows.filter fun e => e.entityId.text = entityId
  | .verifyAuditIntegrity =>
    match (AuditService.verifyIntegrity AuditService.defaultLimit).run backend s with
    | (.ok isValid, _) => ⟨200, .verified isValid⟩
    | (.error _, _) => internalServerError

end Read

end Api

open Api

/-- A request to the API. A change is given new identifiers, and the times. -/
inductive ApiRequest
  | change (q : Change) (fresh : ℕ → Stamp)
  | read (q : Read)

namespace ApiRequest

variable [Hashlib] [Postgres]

/-- The response to a request, and the stores after it. -/
def respond : ApiRequest → Store → HttpResponse × Store
  | .change q fresh, s => q.respond fresh s
  | .read q, s => (q.respond s, s)

/-- The stores after some requests, one after another. -/
def serve (qs : List ApiRequest) (s : Store) : Store := qs.foldl (fun s q => (q.respond s).2) s

/-- The identifiers that a request is given. -/
def ids : ApiRequest → List UUID
  | .change q fresh => (⟨q.call, fresh, .transaction⟩ : Request).ids
  | .read _ => []

/-- PostgreSQL stores all that the request brings into the tables, or looks up there. -/
def storable : ApiRequest → Bool
  | .change q _ => q.storable
  | .read (.listDecisions domainId _ _ _) => domainId.all Postgres.stores
  | .read (.getDomainRoles domainId) => Postgres.stores domainId
  | .read (.getUserRoles userId) => Postgres.stores userId
  | .read (.getEventsForEntity entityId _) => Postgres.stores entityId
  | .read _ => true

/-- What has to hold for a request to be accepted. -/
def Accepted (r : Registry) : ApiRequest → Prop
  | .change q _ => q.call.Accepted r
  | .read (.listDecisions _ _ limit offset) | .read (.listEvents _ limit offset) =>
    (0 ≤ limit ∧ limit < 2 ^ 63) ∧ 0 ≤ offset ∧ offset < 2 ^ 63
  | .read (.getEventsForEntity _ limit) => 0 ≤ limit ∧ limit < 2 ^ 63
  | .read (.getDecision decisionId) => ∃ d, r.decisions.get? decisionId = some d
  | .read _ => True

/-- The status of the response to a request that is accepted. -/
def success : ApiRequest → ℕ
  | .change q _ => q.success
  | .read _ => 200

/-- The status of the response to a request that is not. -/
def refusal : ApiRequest → ℕ
  | .change q _ => q.onValueError.getD 500
  | .read (.getDecision _) => 404
  | .read _ => 500

end ApiRequest

namespace Api

variable [Hashlib] [Postgres] {fresh : ℕ → Stamp} {q : Change} {s : Store}

omit [Postgres] in
/-- A route calls its service, and makes a body of the result. -/
theorem Change.program_eq (q : Change) :
    q.call.program fresh = q.handler fresh >>= fun _ => .pure () := by
  cases q with
  | createDecision => rw [Change.handler, bind_bind]; rfl
  | endpoint decisionId e => cases e <;> rw [Change.handler, bind_bind] <;> rfl
  | assignRole => rw [Change.handler, bind_bind]; rfl
  | revokeRole => rw [Change.handler, bind_bind]; exact (bind_pure_right _).symm

/-- The statements of a route do what the route does, or fail because of what is not stored. -/
theorem Change.run_statements (fresh : ℕ → Stamp) (q : Change) (s : Store) :
    (q.statements fresh).run backend s = (q.handler fresh).run backend s ∨
      q.storable = false ∧ ((q.statements fresh).run backend s).1 = .error .dataError := by
  rw [Change.statements]
  cases q.storable with
  | true => exact .inl rfl
  | false => exact (run_guard _ _ _ s).imp_right fun h => ⟨rfl, h⟩

/-- A change leaves the stores that the call leaves as a transaction, or as an abandoned one. -/
theorem Change.exists_exec (fresh : ℕ → Stamp) (q : Change) (s : Store) : ∃ mode,
    (⟨q.call, fresh, mode⟩ : Request).exec s = (q.respond fresh s).2 := by
  rw [Change.respond]
  rcases Change.run_statements fresh q s with h | ⟨-, h⟩
  · refine ⟨.transaction, ?_⟩
    rw [h, Request.exec, Change.program_eq, run_bind]
    rcases (q.handler fresh).run backend s with ⟨_ | _, _⟩ <;> rfl
  · refine ⟨.abandoned, ?_⟩
    rw [exec_abandoned rfl]
    generalize (q.statements fresh).run backend s = x at h
    obtain ⟨r, s'⟩ := x
    cases h
    rfl

/-- The stores after some requests are those after some calls, with the same identifiers. -/
theorem exists_execAll (qs : List ApiRequest) (s : Store) : ∃ rs : List Request,
    ApiRequest.serve qs s = execAll rs s ∧ ∀ r ∈ rs, ∃ q ∈ qs, q.ids = r.ids := by
  induction qs generalizing s with
  | nil => exact ⟨[], rfl, by rintro _ ⟨⟩⟩
  | cons q qs ih =>
    cases q with
    | read q =>
      obtain ⟨rs, heq, hids⟩ := ih s
      refine ⟨rs, heq, fun r hr => ?_⟩
      obtain ⟨q', hq', hr⟩ := hids r hr
      exact ⟨q', List.mem_cons_of_mem _ hq', hr⟩
    | change q fresh =>
      obtain ⟨mode, hmode⟩ := Change.exists_exec fresh q s
      obtain ⟨rs, heq, hids⟩ := ih (q.respond fresh s).2
      refine ⟨⟨q.call, fresh, mode⟩ :: rs, heq.trans (congrArg (execAll rs) hmode.symm), ?_⟩
      refine List.forall_mem_cons.2 ⟨⟨_, List.mem_cons_self, rfl⟩, fun r hr => ?_⟩
      obtain ⟨q', hq', hr⟩ := hids r hr
      exact ⟨q', List.mem_cons_of_mem _ hq', hr⟩

/-- How a route responds, if its service has a specification. -/
theorem Change.respond_of {T : Body → Store → Prop} {E : Error → Store → Prop}
    (h : (q.handler fresh).wp backend T E s) :
    (∃ body s', q.respond fresh s = (⟨q.success, body⟩, s') ∧ T body s') ∨
      ∃ e, q.respond fresh s = (q.failure e, s) ∧ (q.storable = true → ∃ s', E e s') := by
  obtain ⟨hok, herror⟩ := wp_iff_run.1 h
  rw [Change.respond]
  rcases Change.run_statements fresh q s with heq | ⟨hstorable, heq⟩
  · rw [heq]
    cases hrun : (q.handler fresh).run backend s with
    | mk result s' =>
      cases result with
      | ok body => exact .inl ⟨body, s', rfl, hok body s' hrun⟩
      | error e => exact .inr ⟨e, rfl, fun _ => ⟨s', herror e s' hrun⟩⟩
  · generalize (q.statements fresh).run backend s = x at heq
    obtain ⟨r, s'⟩ := x
    cases heq
    refine .inr ⟨_, rfl, fun htrue => ?_⟩
    cases hstorable.symm.trans htrue

omit [Hashlib] [Postgres] in
/-- A refusal of the service is answered by the status of its route. -/
theorem Change.status_failure {e : Error} (he : e.IsValueError) :
    (q.failure e).status = q.onValueError.getD 500 := by
  rw [Change.failure]
  cases q.onValueError with
  | none => rfl
  | some status => exact congrArg HttpResponse.status (if_pos he)

/-- On stores that requests can reach, a change that can be stored is answered as it should be. -/
theorem Change.respond_ready (h : Ready s fresh) (hstorable : q.storable = true) :
    (q.call.Accepted s.toRegistry → (q.respond fresh s).1.status = q.success) ∧
      (¬q.call.Accepted s.toRegistry →
        (q.respond fresh s).1.status = q.onValueError.getD 500 ∧ (q.respond fresh s).2 = s) := by
  have hdecides := Call.decides h q.call
  rw [Decides, Change.program_eq, wp_bind] at hdecides
  rcases Change.respond_of hdecides with ⟨body, s', heq, hacc⟩ | ⟨e, heq, herror⟩
  · rw [heq]
    exact ⟨fun _ => rfl, fun hnot => absurd (wp_pure.1 hacc) hnot⟩
  · obtain ⟨s', he, hnot⟩ := herror hstorable
    rw [heq]
    exact ⟨fun hacc => absurd hacc hnot, fun _ => ⟨Change.status_failure he, rfl⟩⟩

omit [Hashlib] in
/-- A page is answered exactly if the database takes its limit and its offset. -/
theorem status_page {ρ : Type} {key : ρ → ℤ} {limit offset : ℤ} {rows : List ρ}
    {body : List ρ → Body} :
    (((0 ≤ limit ∧ limit < 2 ^ 63) ∧ 0 ≤ offset ∧ offset < 2 ^ 63) →
      (Read.found body (page key limit offset rows)).status = 200) ∧
    (¬((0 ≤ limit ∧ limit < 2 ^ 63) ∧ 0 ≤ offset ∧ offset < 2 ^ 63) →
      (Read.found body (page key limit offset rows)).status = 500) := by
  rw [page]
  split_ifs with h
  · exact ⟨fun _ => rfl, fun hnot => absurd h hnot⟩
  · exact ⟨fun hpage => absurd hpage h, fun _ => rfl⟩

/-- What is asked for is found, or a page cannot be had. -/
theorem Read.status_respond (q : Read) :
    ((ApiRequest.read q).Accepted s.toRegistry → (q.respond s).status = 200) ∧
      (¬(ApiRequest.read q).Accepted s.toRegistry →
        (q.respond s).status = (ApiRequest.read q).refusal) := by
  have htrue : ∀ {n m k : ℕ}, n = m → (True → n = m) ∧ (¬True → n = k) := fun h =>
    ⟨fun _ => h, fun hnot => absurd trivial hnot⟩
  -- Only the pages and the decision that is asked for can be refused.
  cases q with
  | listDecisions => exact status_page
  | listEvents => exact status_page
  | getEventsForEntity entityId limit =>
    have hpage := @status_page _ _ AuditEvent.stamp limit 0
      (s.events.rows.filter fun e => e.entityId.text = entityId)
      fun es => .events (es.map .modelValidate)
    have hzero : (0 : ℤ) ≤ 0 ∧ (0 : ℤ) < 2 ^ 63 := by decide
    exact ⟨fun h => hpage.1 ⟨h, hzero⟩, fun h => hpage.2 fun h' => h h'.1⟩
  | getDecision decisionId =>
    rw [Read.respond]
    cases hd : s.decisions.get? decisionId with
    | none =>
      refine ⟨fun ⟨d, hd'⟩ => ?_, fun _ => rfl⟩
      cases hd.symm.trans hd'
    | some d => exact ⟨fun _ => rfl, fun hnot => absurd ⟨d, hd⟩ hnot⟩
  | listApprovals | listVetoes | getDomainRoles | getUserRoles | verifyAuditIntegrity =>
    exact htrue rfl

end Api

section Statuses

variable [Hashlib] [Postgres]

end Statuses

namespace Sales

attribute [local instance] Hashlib.standard Postgres.stable

/-- Nora creates the decision, and hugo is responsible. -/
def posts : List ApiRequest :=
  [.change (.createDecision ⟨.dataPromotion, ⟨"Promote returns", by decide⟩, "",
      ⟨"returns", by decide⟩, ⟨"nora", by decide⟩, none, .empty⟩) (fresh 0),
    .change (.assignRole ⟨⟨"hugo", by decide⟩, ⟨"returns", by decide⟩, .responsible,
      ⟨"nora", by decide⟩⟩) (fresh 1)]

/-- Hugo's vote comes before the decision has been submitted. -/
def early : ApiRequest :=
  .change (.endpoint decision (.approveDecision ⟨⟨"hugo", by decide⟩, .approve, ""⟩)) (fresh 2)

/-- The decision is still pending. -/
theorem not_accepted_early : ¬early.Accepted (ApiRequest.serve posts .empty).toRegistry := by
  rintro ⟨d, hd, hawaiting, -⟩
  have hstatus := congrArg (Option.map GovernanceDecision.status) hd
  rw [Option.map_some, hawaiting] at hstatus
  revert hstatus
  decide +kernel

end Sales

end OpenDataGov
