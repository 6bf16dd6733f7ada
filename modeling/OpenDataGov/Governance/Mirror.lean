import OpenDataGov.Governance.Api
import OpenDataGov.Governance.Finalization

/-!
# What the responses tell

A client that sees all changes requested of the API, and the responses to them, keeps a copy of
what it has been told (`Mirror`). It never looks at the tables: it adds what a response returns,
and follows from its copy what votes and vetoes do to the status of a decision.

There are two things to be known of a request that has been answered: what it returns
(`Change.Returns`), and what it has done to the tables (`Deed`, of `Governance.Deed`). Each is
proved by going along the code of the services, and the copy then follows the tables by a case
analysis on the deed (`Mirrors.made`).

* `Change.respond_cases`: what a change returns stands in the tables that it leaves;
* `mirrors_serve`: after all runs, whatever identifiers are given and whichever requests fail,
  the copy has all rows of the tables about decisions, but the times of their last updates;
* `told`: so the responses to later requests can be told from it.

The responses to requests that read are told up to what the database leaves open, which is the
order of rows with the same times. The texts of the requests are taken to have no U+0000, also
those that lists are filtered by, as PostgreSQL refuses them.
-/

namespace OpenDataGov

open Calendar Transact Program Keyed

/-! ## What a change returns -/

/-- The statements that record an event. -/
def Query.Records : Query → Prop
  | .lastHash | .insertEvent _ => True
  | _ => False

/-- The statements that may finalize a decision. -/
def Query.Finalizes : Query → Prop
  | .selectDomain _ | .selectVotes _ | .getDecision _ | .updateDecision .. | .lastHash
  | .insertEvent _ => True
  | _ => False

/-- Recording an event does not change the tables about decisions. -/
theorem Query.Records.effect {q : Query} (h : q.Records) (s : Store) :
    (effect q s).toRegistry = s.toRegistry := by
  cases q <;> first | rfl | cases h

/-- Finalizing a decision changes no vote, -/
theorem Query.Finalizes.approvals {q : Query} (h : q.Finalizes) (s : Store) :
    (effect q s).approvals = s.approvals := by
  cases q <;> first | rfl | cases h

/-- and no veto. -/
theorem Query.Finalizes.vetoes {q : Query} (h : q.Finalizes) (s : Store) :
    (effect q s).vetoes = s.vetoes := by
  cases q <;> first | rfl | cases h

section Returning

variable [Postgres] {α β : Type} {s : Store} {fresh : ℕ → Stamp} {id : UUID} {u : String}

/-- A program that ends returns an `a` for which, and for the stores that it leaves, `I` holds. -/
def Gives (I : α → Store → Prop) (p : Prog α) (s : Store) : Prop :=
  p.wp backend I (fun _ _ => True) s

/-- Going on with what a program gives. -/
theorem gives_bind {p : Prog α} {f : α → Prog β} {I : α → Store → Prop} {J : β → Store → Prop}
    (hp : Gives I p s) (hf : ∀ a s', I a s' → Gives J (f a) s') : Gives J (p >>= f) s :=
  wp_bind_of hp hf fun _ _ _ => trivial

/-- Returning what was made before a program that preserves what holds of it. -/
theorem gives_after {p : Prog β} {C : Query → Prop} {a : α} {I : α → Store → Prop} (hp : p.Sends C)
    (hC : ∀ q s, C q → I a s → I a (effect q s)) (h : I a s) :
    Gives I (do let _ ← p; return a) s :=
  gives_bind (wp_mono (Sends.wp hp hC h) (fun _ _ h => h) fun _ _ _ => trivial)
    fun _ _ h => wp_pure.2 h

/-- What follows a statement begins in the store that it leaves, -/
theorem gives_execute {q : Query} {f : q.Answer → Prog β} {I : β → Store → Prop}
    (hf : ∀ a, answer q s = .ok a → Gives I (f a) (effect q s)) : Gives I (execute q >>= f) s :=
  wp_execute hf fun _ _ => trivial

/-- and what follows a check begins where the check does: of something that is there, -/
theorem gives_found {x : Option α} {msg : String} {f : α → Prog β} {I : β → Store → Prop}
    (hf : ∀ a, x = some a → Gives I (f a) s) : Gives I (found x msg >>= f) s :=
  wp_found hf trivial

/-- of a condition, -/
theorem gives_require {p : Prop} [Decidable p] {msg : String} {f : Unit → Prog β}
    {I : β → Store → Prop} (hf : Gives I (f ()) s) : Gives I (require p msg >>= f) s :=
  wp_require (fun _ => hf) trivial

/-- of fields. -/
theorem gives_validate {name : String} {fields : Validated α} {f : α → Prog β}
    {I : β → Store → Prop} (hf : ∀ a, Gives I (f a) s) : Gives I (validate name fields >>= f) s :=
  wp_validate (fun a _ => hf a) fun _ _ => trivial

/-- Creating an object that is inserted returns it. -/
theorem gives_create {q : Query} {x : α} {I : α → Store → Prop}
    (h : ∀ u, answer q s = .ok u → I x (effect q s)) :
    Gives I (do let _ ← execute q; return x : Prog α) s :=
  gives_execute fun u hu => wp_pure.2 (h u hu)

/-- The update of a decision returns the row that it leaves. -/
theorem updateDecision_gives {d row : GovernanceDecision} {now : DateTime}
    (hrow : s.decisions.get? d.id = some row) :
    Gives (fun d' s' => s'.decisions.get? d.id = some d')
      (PgDecisionRepository.update d now) s := by
  refine wp_answered (congrArg Except.ok hrow) (wp_answered rfl (wp_pure.2 ?_))
  have hid : row.id = d.id := Table.key_of_get? hrow
  rw [hid, get?_updateDecision_self]
  exact congrArg (Option.map _) hrow

/-- The update of a veto returns the row that it leaves. -/
theorem updateVeto_gives {v row : VetoRecord} (hrow : s.vetoes.get? v.id = some row) :
    Gives (fun v' s' => s'.vetoes.get? v.id = some v') (PgVetoRepository.update v) s := by
  refine wp_answered (congrArg Except.ok hrow) (wp_answered rfl (wp_pure.2 ?_))
  have hid : row.id = v.id := Table.key_of_get? hrow
  rw [hid]
  simp only [effect, Table.get?_modify_self, hrow, Option.map_some]

variable [Hashlib]

/-- Returning what stands in the tables about decisions, after an event has been recorded. -/
theorem gives_recordEvent {stamp : Stamp} {eventType : AuditEventType}
    {entityType entityId actorId description : String} {details : Option (Json.Dict Json.Scalar)}
    {a : α} {I : α → Registry → Prop} (h : I a s.toRegistry) :
    Gives (fun a s' => I a s'.toRegistry) (do
      let _ ← AuditService.recordEvent stamp eventType entityType entityId actorId description
        details
      return a) s :=
  gives_after (recordEvent_sends (P := Query.Records) trivial fun _ => trivial)
    (fun _ s hq h => (hq.effect s).symm ▸ h) h

/-- The services return the rows that they leave: the new decision, -/
theorem createDecision_gives {decisionType : DecisionType} {title description domainId : String}
    {promotion : Option PromotionMetadata} {metadata : Option (Json.Dict Json.Scalar)} :
    Gives (fun d s' => s'.decisions.get? (fresh 0).id = some d)
      (DecisionService.createDecision fresh decisionType title description domainId u promotion
        metadata) s := by
  refine gives_validate fun _ => ?_
  refine gives_bind (I := fun d s' => s'.decisions.get? (fresh 0).id = some d)
    (gives_create fun _ hu => Table.get?_insert_self (inserted_eq_ok.1 hu)) ?_
  intro d s' hd
  exact gives_recordEvent (I := fun d r => r.decisions.get? (fresh 0).id = some d) hd

/-- the submitted one, -/
theorem submitForApproval_gives :
    Gives (fun d s' => s'.decisions.get? id = some d)
      (DecisionService.submitForApproval fresh id u) s := by
  refine gives_execute fun x hx => gives_found fun d hd => gives_require ?_
  have hrow : s.decisions.get? id = some d := hd ▸ Except.ok.inj hx
  obtain rfl : d.id = id := Table.key_of_get? hrow
  refine gives_bind (updateDecision_gives (d := { d with status := .awaitingApproval }) hrow) ?_
  intro d' s' hd'
  exact gives_recordEvent (I := fun d' r => r.decisions.get? d.id = some d') hd'

/-- the vote, -/
theorem castVote_gives {vote : VoteValue} {comment : String} :
    Gives (fun x s' => s'.approvals.get? (fresh 0).id = some x)
      (ApprovalService.castVote fresh id u vote comment) s := by
  refine gives_execute fun _ _ => gives_found fun _ _ => gives_require ?_
  refine gives_execute fun _ _ => gives_found fun _ _ => ?_
  refine gives_execute fun (_ : Option ApprovalRecord) _ =>
    gives_require (gives_validate fun _ => ?_)
  refine gives_bind (I := fun x s' => s'.approvals.get? (fresh 0).id = some x) (gives_create
    fun _ hu => Table.get?_insert_self (inserted_eq_ok.1 (refers_eq_ok.1 hu).2)) ?_
  intro x s' hx
  -- The vote stays in the table, whatever it decides.
  have hkeep : ∀ (q : Query) (s : Store), q.Finalizes → s.approvals.get? (fresh 0).id = some x →
      (effect q s).approvals.get? (fresh 0).id = some x := fun q s hq h => hq.approvals s ▸ h
  refine gives_bind (wp_mono (Sends.wp (recordEvent_sends (P := Query.Finalizes) trivial
    fun _ => trivial) hkeep hx) (fun _ _ h => h) fun _ _ _ => trivial) fun _ s'' h => ?_
  cases vote with
  | reject =>
    exact gives_after (finalize_sends (P := Query.Finalizes) (fun _ => trivial)
      (fun _ _ _ => trivial) trivial fun _ => trivial) hkeep h
  | approve =>
    exact gives_after (checkAndFinalize_sends (P := Query.Finalizes) (fun _ => trivial) trivial
      (fun _ => trivial) (fun _ _ _ => trivial) trivial fun _ => trivial) hkeep h
  | abstain => exact wp_pure.2 h

/-- the veto, -/
theorem exerciseVeto_gives {reason : String} :
    Gives (fun v s' => s'.vetoes.get? (fresh 0).id = some v)
      (VetoService.exerciseVeto fresh id u reason) s := by
  refine gives_execute fun _ _ => gives_found fun _ _ => gives_require ?_
  refine gives_execute fun _ _ => gives_found fun _ _ => gives_require (gives_validate fun _ => ?_)
  refine gives_bind (I := fun v s' => s'.vetoes.get? (fresh 0).id = some v) (gives_create
    fun _ hu => Table.get?_insert_self (inserted_eq_ok.1 (refers_eq_ok.1 hu).2)) ?_
  intro v s' hv
  have hkeep : ∀ (q : Query) (s : Store), q.Finalizes → s.vetoes.get? (fresh 0).id = some v →
      (effect q s).vetoes.get? (fresh 0).id = some v := fun q s hq h => hq.vetoes s ▸ h
  refine gives_bind (wp_mono (Sends.wp (finalize_sends (P := Query.Finalizes) (fun _ => trivial)
    (fun _ _ _ => trivial) trivial fun _ => trivial) hkeep hv) (fun _ _ h => h)
    fun _ _ _ => trivial) fun _ s'' h => ?_
  exact gives_recordEvent (I := fun v r => r.vetoes.get? (fresh 0).id = some v) h

/-- the overridden one, -/
theorem overrideVeto_gives :
    Gives (fun v s' => s'.vetoes.get? id = some v) (VetoService.overrideVeto fresh id u) s := by
  refine gives_execute fun x hx => gives_found fun v hv => gives_require ?_
  have hrow : s.vetoes.get? id = some v := hv ▸ Except.ok.inj hx
  obtain rfl : v.id = id := Table.key_of_get? hrow
  refine gives_execute fun _ _ => gives_found fun _ _ => ?_
  refine gives_execute fun _ _ => gives_found fun _ _ => gives_require ?_
  refine gives_bind (updateVeto_gives (v := { v with
    status := .overridden, overriddenBy := some u }) hrow) ?_
  intro v' s' hv'
  exact gives_recordEvent (I := fun v' r => r.vetoes.get? v.id = some v') hv'

/-- and the assignment. -/
theorem assignRole_gives {domainId assignedBy : String} {role : RACIRole} :
    Gives (fun a s' => s'.assignments.get? (fresh 0).id = some a)
      (RoleService.assignRole fresh u domainId role assignedBy) s := by
  refine gives_execute fun (existing : Option RACIAssignment) _ => ?_
  cases existing with
  | some existing => exact wp_raise.2 trivial
  | none =>
    refine gives_validate fun _ => ?_
    refine gives_bind (I := fun a s' => s'.assignments.get? (fresh 0).id = some a)
      (gives_create fun _ hu => Table.get?_insert_self (insertedAssignment_eq_ok.1 hu).2) ?_
    intro a s' ha
    exact gives_recordEvent (I := fun a r => r.assignments.get? (fresh 0).id = some a) ha

end Returning

namespace Api

/-- What a change returns, which is given the identifiers `fresh`, is what the tables `r` have. -/
def Change.Returns (fresh : ℕ → Stamp) (r : Registry) : Change → Body → Prop
  | .createDecision _, body =>
    ∃ d, r.decisions.get? (fresh 0).id = some d ∧ body = .decision (.modelValidate d)
  | .endpoint id (.submitDecision _), body =>
    ∃ d, r.decisions.get? id = some d ∧ body = .decision (.modelValidate d)
  | .endpoint _ (.approveDecision _), body =>
    ∃ x, r.approvals.get? (fresh 0).id = some x ∧ body = .approval (.modelValidate x)
  | .endpoint _ (.exerciseVeto _), body =>
    ∃ v, r.vetoes.get? (fresh 0).id = some v ∧ body = .veto (.modelValidate v)
  | .endpoint _ (.overrideVeto vetoId _), body =>
    ∃ v, r.vetoes.get? vetoId = some v ∧ body = .veto (.modelValidate v)
  | .assignRole _, body =>
    ∃ a, r.assignments.get? (fresh 0).id = some a ∧ body = .assignment (.modelValidate a)
  | .revokeRole .., body => body = .empty

section Responding

variable [Hashlib] [Postgres] {fresh : ℕ → Stamp} {q : Change} {s : Store}

/-- So do the handlers of the routes. -/
theorem Change.handler_gives :
    Gives (fun body s' => q.Returns fresh s'.toRegistry body) (q.handler fresh) s := by
  cases q with
  | createDecision => exact gives_bind createDecision_gives fun _ _ h => wp_pure.2 ⟨_, h, rfl⟩
  | endpoint decisionId e =>
    cases e with
    | submitDecision =>
      exact gives_bind submitForApproval_gives fun _ _ h => wp_pure.2 ⟨_, h, rfl⟩
    | approveDecision => exact gives_bind castVote_gives fun _ _ h => wp_pure.2 ⟨_, h, rfl⟩
    | exerciseVeto => exact gives_bind exerciseVeto_gives fun _ _ h => wp_pure.2 ⟨_, h, rfl⟩
    | overrideVeto => exact gives_bind overrideVeto_gives fun _ _ h => wp_pure.2 ⟨_, h, rfl⟩
  | assignRole => exact gives_bind assignRole_gives fun _ _ h => wp_pure.2 ⟨_, h, rfl⟩
  | revokeRole =>
    exact wp_bind_of revokeRole_carries (fun _ _ _ => wp_pure.2 rfl) fun _ _ _ => trivial

/-- A change leaves the stores as they were and its response says that it has failed, or it does
    a deed of its call and returns what the tables then have. -/
theorem Change.respond_cases (fresh : ℕ → Stamp) (q : Change) (s : Store) :
    (∃ e, q.respond fresh s = (q.failure e, s)) ∨
      ∃ body s', q.respond fresh s = (⟨q.success, body⟩, s') ∧ Done fresh q.call s s' ∧
        q.Returns fresh s'.toRegistry body := by
  have hcarries := q.call.carries s fresh
  rw [Carries, Change.program_eq, wp_bind] at hcarries
  rcases Change.respond_of (wp_and hcarries Change.handler_gives) with
    ⟨body, s', heq, hdone, hreturns⟩ | ⟨e, heq, -⟩
  · exact .inr ⟨body, s', heq, by simpa only [wp_pure] using hdone, hreturns⟩
  · exact .inl ⟨e, heq⟩

omit [Hashlib] [Postgres] in
/-- The status of a failure tells it from a success. -/
theorem Change.failure_status_ne {e : Error} : (q.failure e).status ≠ q.success := by
  rw [Change.failure]
  rcases q with _ | ⟨_, _ | _ | _ | _⟩ | _ | _ <;> simp only [Change.onValueError] <;>
    (try split) <;> simp [internalServerError, Change.success]

end Responding

end Api

open Api ApprovalService

/-! ## The copy -/

/-- What responses tell of a decision for sure. Votes and vetoes update a decision without
    showing when. -/
structure Docket where
  id : UUID
  decisionType : DecisionType
  title : String
  description : String
  status : DecisionStatus
  domainId : String
  createdBy : String
  createdAt : DateTime
  promotion : Option PromotionMetadata

/-- What the client keeps of a decision. -/
def DecisionResponse.docket (x : DecisionResponse) : Docket :=
  ⟨x.id, x.decisionType, x.title, x.description, x.status, x.domainId, x.createdBy, x.createdAt,
    x.promotion⟩

/-- The copy of a client. -/
structure Mirror where
  decisions : List Docket
  approvals : List ApprovalResponse
  vetoes : List VetoResponse
  assignments : List RoleAssignmentResponse

namespace Mirror

/-- The client has been told nothing. -/
def empty : Mirror := ⟨[], [], [], []⟩

/-- In the copy, users are required to approve in the domain, and all of them have approved. -/
def FullyApproved (m : Mirror) (decisionId : UUID) (domainId : String) : Prop :=
  (∃ a ∈ m.assignments, a.domainId = domainId ∧ a.role ∈ requiredApprovalRoles) ∧
    ∀ a ∈ m.assignments, a.domainId = domainId → a.role ∈ requiredApprovalRoles →
      ∃ x ∈ m.approvals, x.decisionId = decisionId ∧ x.voterId = a.userId ∧ x.vote = .approve

instance (m : Mirror) (decisionId : UUID) (domainId : String) :
    Decidable (m.FullyApproved decisionId domainId) :=
  inferInstanceAs (Decidable ((∃ a ∈ m.assignments, _) ∧ ∀ a ∈ m.assignments, _ → _ → _))

/-- The decisions that satisfy `p` get a status. -/
def mark (m : Mirror) (p : Docket → Prop) [DecidablePred p] (status : DecisionStatus) : Mirror :=
  { m with decisions := m.decisions.map fun d => if p d then { d with status := status } else d }

/-- A vote is counted, which has been added to the copy. -/
def count (m : Mirror) (x : ApprovalResponse) : Mirror :=
  match x.vote with
  | .reject => m.mark (fun d => d.id = x.decisionId) .rejected
  | .approve =>
    m.mark (fun d => d.id = x.decisionId ∧ m.FullyApproved x.decisionId d.domainId) .approved
  | .abstain => m

/-- A change has been made, and returned a body. -/
def made (m : Mirror) : Change → Body → Mirror
  | .createDecision _, .decision x => { m with decisions := m.decisions ++ [x.docket] }
  | .endpoint decisionId (.submitDecision _), .decision x => { m with
      decisions := m.decisions.map fun d => if d.id = decisionId then x.docket else d }
  | .endpoint _ (.approveDecision _), .approval x =>
    count { m with approvals := m.approvals ++ [x] } x
  | .endpoint decisionId (.exerciseVeto _), .veto v =>
    mark { m with vetoes := m.vetoes ++ [v] } (fun d => d.id = decisionId) .vetoed
  | .endpoint _ (.overrideVeto vetoId _), .veto v => { m with
      vetoes := m.vetoes.map fun v' => if v'.id = vetoId then v else v' }
  | .assignRole _, .assignment a => { m with assignments := m.assignments ++ [a] }
  | .revokeRole assignmentId _, _ => { m with
      assignments := m.assignments.filter fun a => a.id ≠ assignmentId }
  | _, _ => m

/-- A request is answered. -/
def see (m : Mirror) : ApiRequest → HttpResponse → Mirror
  | .change q _, response => if response.status = q.success then m.made q response.body else m
  | .read _, _ => m

end Mirror

/-- The copy after some requests, one after another. -/
def ApiRequest.seen [Hashlib] [Postgres] : List ApiRequest → Store → Mirror → Mirror
  | [], _, m => m
  | q :: qs, s, m => seen qs (q.respond s).2 (m.see q (q.respond s).1)

/-- The copy has all rows of the tables about decisions. -/
structure Mirrors (m : Mirror) (r : Registry) : Prop where
  decisions : m.decisions = r.decisions.rows.map fun d => (DecisionResponse.modelValidate d).docket
  approvals : m.approvals = r.approvals.rows.map .modelValidate
  vetoes : m.vetoes = r.vetoes.rows.map .modelValidate
  assignments : m.assignments = r.assignments.rows.map .modelValidate

section Mirroring

variable {m : Mirror} {r r' : Registry} {fresh : ℕ → Stamp} {body : Body} {w : List Entry}
  {id : UUID} {status : DecisionStatus} {t : DateTime} {md : Json.Dict Json.Scalar}

theorem mirrors_empty : Mirrors .empty .empty := ⟨rfl, rfl, rfl, rfl⟩

/-- The copy after another decision, -/
theorem Mirrors.withDecision {d : GovernanceDecision} (h : Mirrors m r)
    (hd : r.decisions.get? d.id = none) :
    Mirrors { m with decisions := m.decisions ++ [(DecisionResponse.modelValidate d).docket] }
      (r.withDecision d) where
  decisions := by
    rw [h.decisions, Registry.withDecision, Table.rows_insert hd, List.map_append]
    rfl
  approvals := h.approvals
  vetoes := h.vetoes
  assignments := h.assignments

/-- after another vote, -/
theorem Mirrors.withVote {x : ApprovalRecord} (h : Mirrors m r)
    (hx : r.approvals.get? x.id = none) :
    Mirrors { m with approvals := m.approvals ++ [.modelValidate x] } (r.withVote x) where
  decisions := h.decisions
  approvals := by
    rw [h.approvals, Registry.withVote, Table.rows_insert hx, List.map_append]
    rfl
  vetoes := h.vetoes
  assignments := h.assignments

/-- another veto, -/
theorem Mirrors.withVeto {v : VetoRecord} (h : Mirrors m r) (hv : r.vetoes.get? v.id = none) :
    Mirrors { m with vetoes := m.vetoes ++ [.modelValidate v] } (r.withVeto v) where
  decisions := h.decisions
  approvals := h.approvals
  vetoes := by
    rw [h.vetoes, Registry.withVeto, Table.rows_insert hv, List.map_append]
    rfl
  assignments := h.assignments

/-- another assignment, -/
theorem Mirrors.withAssignment {a : RACIAssignment} (h : Mirrors m r)
    (ha : r.assignments.get? a.id = none) :
    Mirrors { m with assignments := m.assignments ++ [.modelValidate a] } (r.withAssignment a) where
  decisions := h.decisions
  approvals := h.approvals
  vetoes := h.vetoes
  assignments := by
    rw [h.assignments, Registry.withAssignment, Table.rows_insert ha, List.map_append]
    rfl

/-- and after a revocation. -/
theorem Mirrors.revoke (h : Mirrors m r) :
    Mirrors { m with assignments := m.assignments.filter fun a => a.id ≠ id } (r.revoke id) where
  decisions := h.decisions
  approvals := h.approvals
  vetoes := h.vetoes
  assignments := by
    rw [h.assignments, Registry.revoke, Table.rows_erase, List.filter_map]
    rfl

/-- The status of the decision `id` changes, which is the one that satisfies `p`. -/
theorem Mirrors.mark {p : Docket → Prop} [DecidablePred p] (h : Mirrors m r)
    (hp : ∀ d ∈ r.decisions.rows, p (DecisionResponse.modelValidate d).docket ↔ d.id = id) :
    Mirrors (m.mark p status) (r.mark id status t md) where
  decisions := by
    rw [Mirror.mark, h.decisions, decisions_mark, Table.rows_modify, List.map_map, List.map_map]
    refine List.map_congr_left fun d hd => ?_
    rw [Function.comp_apply, Function.comp_apply, if_congr (hp d hd) rfl rfl]
    split_ifs <;> rfl
  approvals := h.approvals
  vetoes := h.vetoes
  assignments := h.assignments

/-- No decision satisfies `p`. -/
theorem Mirrors.mark_of_not {p : Docket → Prop} [DecidablePred p] (h : Mirrors m r)
    (hp : ∀ d ∈ r.decisions.rows, ¬p (DecisionResponse.modelValidate d).docket) :
    Mirrors (m.mark p status) r where
  decisions := by
    rw [Mirror.mark, h.decisions, List.map_map]
    refine List.map_congr_left fun d hd => ?_
    rw [Function.comp_apply, if_neg (hp d hd)]
  approvals := h.approvals
  vetoes := h.vetoes
  assignments := h.assignments

/-- The row of the decision `id` is replaced by one that has been returned. -/
theorem Mirrors.submitted {d : GovernanceDecision} (h : Mirrors m r)
    (hd : (r.mark id status t md).decisions.get? id = some d) :
    Mirrors { m with decisions := m.decisions.map fun d' =>
      if d'.id = id then (DecisionResponse.modelValidate d).docket else d' }
      (r.mark id status t md) where
  decisions := by
    rw [h.decisions, decisions_mark, Table.rows_modify, List.map_map, List.map_map]
    refine List.map_congr_left fun d' hd' => ?_
    rw [Function.comp_apply, Function.comp_apply]
    by_cases hid : d'.id = id
    · have hrow : d = d'.set status t md := by
        rw [decisions_mark, Table.get?_modify_self, ← hid, Table.get?_key hd'] at hd
        exact (Option.some.inj hd).symm
      rw [if_pos hid, if_pos (show (DecisionResponse.modelValidate d').docket.id = id from hid),
        hrow]
    · rw [if_neg hid, if_neg (show (DecisionResponse.modelValidate d').docket.id ≠ id from hid)]
  approvals := h.approvals
  vetoes := h.vetoes
  assignments := h.assignments

/-- A veto is replaced by the row that has been returned. -/
theorem Mirrors.override {v : VetoRecord} {u : String} {o : Option DateTime} (h : Mirrors m r)
    (hv : (r.override id u o).vetoes.get? id = some v) :
    Mirrors { m with vetoes := m.vetoes.map fun v' =>
      if v'.id = id then .modelValidate v else v' } (r.override id u o) where
  decisions := h.decisions
  approvals := h.approvals
  vetoes := by
    rw [h.vetoes, Registry.override, Table.rows_modify, List.map_map, List.map_map]
    refine List.map_congr_left fun v' hv' => ?_
    rw [Function.comp_apply, Function.comp_apply]
    by_cases hid : v'.id = id
    · have hrow : v = v'.set .overridden (some u) o := by
        rw [Registry.override, Table.get?_modify_self, ← hid, Table.get?_key hv'] at hv
        exact (Option.some.inj hv).symm
      rw [if_pos hid, if_pos (show (VetoResponse.modelValidate v').id = id from hid), hrow]
    · rw [if_neg hid, if_neg (show (VetoResponse.modelValidate v').id ≠ id from hid)]
  assignments := h.assignments

/-- The client knows when a decision has all of its approvals. -/
theorem Mirrors.fullyApproved_iff (h : Mirrors m r) {domainId : Bounded 1 100} :
    m.FullyApproved id domainId.text ↔ r.FullyApproved id domainId := by
  -- The votes, the roster and its being non-empty are told in texts, which are those of one
  -- identifier only.
  have hvoted : ∀ u : Bounded 1 200, (∃ x ∈ m.approvals, x.decisionId = id ∧ x.voterId = u.text ∧
      x.vote = .approve) ↔ r.Voted id u .approve := by
    intro u
    simp only [h.approvals, List.mem_map, exists_exists_and_eq_and, Registry.Voted,
      ApprovalResponse.modelValidate, Bounded.text_injective.eq_iff]
  have hrequired : ∀ {P : Bounded 1 200 → Prop}, (∀ a ∈ r.assignments.rows,
      a.domainId = domainId → a.role ∈ requiredApprovalRoles → P a.userId) ↔
      ∀ u, r.Required domainId u → P u := by
    intro P
    constructor
    · rintro hall u ⟨a, ha, hd, rfl, hrole⟩
      exact hall a ha hd hrole
    · exact fun hall a ha hd hrole => hall a.userId ⟨a, ha, hd, rfl, hrole⟩
  have hexists : (∃ a ∈ r.assignments.rows, a.domainId = domainId ∧
      a.role ∈ requiredApprovalRoles) ↔ ∃ u, r.Required domainId u := by
    constructor
    · rintro ⟨a, ha, hd, hrole⟩
      exact ⟨a.userId, a, ha, hd, rfl, hrole⟩
    · rintro ⟨u, a, ha, hd, -, hrole⟩
      exact ⟨a, ha, hd, hrole⟩
  rw [Registry.FullyApproved, ← hexists, ← hrequired, Mirror.FullyApproved, h.assignments]
  simp only [List.mem_map, exists_exists_and_eq_and, forall_exists_index, and_imp,
    forall_apply_eq_imp_iff₂, RoleAssignmentResponse.modelValidate,
    Bounded.text_injective.eq_iff, hvoted]

/-- It counts a vote as the services do: against the decision, -/
theorem Mirrors.count_reject {x : ApprovalRecord} (h : Mirrors m r) (hx : x.vote = .reject) :
    Mirrors (m.count (.modelValidate x)) (r.mark x.decisionId .rejected t md) := by
  rw [Mirror.count, show (ApprovalResponse.modelValidate x).vote = .reject from hx]
  exact h.mark fun d _ => .rfl

/-- In the copy, a decision is approved by a vote exactly if it is in the tables. -/
theorem Mirrors.approves_iff {d d' : GovernanceDecision} (h : Mirrors m r)
    (hd : r.decisions.get? id = some d) (hd' : d' ∈ r.decisions.rows) :
    (d'.id = id ∧ m.FullyApproved id d'.domainId.text) ↔
      d'.id = id ∧ r.FullyApproved id d.domainId := by
  refine and_congr_right fun hid => ?_
  obtain rfl : d' = d := Option.some.inj ((Table.get?_key hd').symm.trans (hid ▸ hd))
  exact h.fullyApproved_iff

/-- the last approval that was missing, -/
theorem Mirrors.count_approve {d : GovernanceDecision} {x : ApprovalRecord} (h : Mirrors m r)
    (hd : r.decisions.get? x.decisionId = some d) (hx : x.vote = .approve)
    (hfull : r.FullyApproved x.decisionId d.domainId) :
    Mirrors (m.count (.modelValidate x)) (r.mark x.decisionId .approved t md) := by
  rw [Mirror.count, show (ApprovalResponse.modelValidate x).vote = .approve from hx]
  exact h.mark fun d' hd' => (h.approves_iff hd hd').trans (and_iff_left hfull)

/-- and any other vote, after which the decision goes on waiting. -/
theorem Mirrors.count_of_not {d : GovernanceDecision} {x : ApprovalRecord} (h : Mirrors m r)
    (hd : r.decisions.get? x.decisionId = some d) (hx : x.vote ≠ .reject)
    (hnot : x.vote = .approve → ¬r.FullyApproved x.decisionId d.domainId) :
    Mirrors (m.count (.modelValidate x)) r := by
  rw [Mirror.count]
  cases hv : (ApprovalResponse.modelValidate x).vote with
  | reject => exact absurd hv hx
  | abstain => exact h
  | approve => exact h.mark_of_not fun d' hd' hp => hnot hv ((h.approves_iff hd hd').1 hp).2

/-- A vote that has been cast, however it counts, is added to the copy and counted there. -/
theorem Mirrors.voted {u comment : String} {vote : VoteValue} {x : ApprovalRecord}
    (h : Mirrors m r) (hdeed : Deed r fresh (.castVote id u vote comment) r' w)
    (hx : r'.approvals.get? (fresh 0).id = some x) :
    Mirrors (Mirror.count { m with approvals := m.approvals ++ [.modelValidate x] }
      (.modelValidate x)) r' := by
  -- The vote that has been returned is the one that has been cast.
  have hsame : ∀ {d x'}, Ballot r d x' → x'.id = (fresh 0).id →
      r'.approvals = (r.withVote x').approvals → x' = x := by
    intro d x' hballot hid happrovals
    rw [happrovals, ← hid] at hx
    exact Option.some.inj ((Table.get?_insert_self hballot.fresh).symm.trans hx)
  cases hdeed with
  | voted hballot hid hreject hnot =>
    obtain rfl := hsame hballot hid rfl
    exact (h.withVote hballot.fresh).count_of_not hballot.decision hreject hnot
  | rejected hballot hid hreject =>
    obtain rfl := hsame hballot hid rfl
    exact (h.withVote hballot.fresh).count_reject hreject
  | approved hballot hid happrove hfull =>
    obtain rfl := hsame hballot hid rfl
    exact (h.withVote hballot.fresh).count_approve hballot.decision happrove hfull

/-- A veto is added, and its decision marked. -/
theorem Mirrors.vetoed {u reason : String} {v : VetoRecord} (h : Mirrors m r)
    (hdeed : Deed r fresh (.exerciseVeto id u reason) r' w)
    (hv : r'.vetoes.get? (fresh 0).id = some v) :
    Mirrors (Mirror.mark { m with vetoes := m.vetoes ++ [.modelValidate v] }
      (fun d => d.id = id) .vetoed) r' := by
  cases hdeed with
  | @vetoed d v' _ hobjection hid =>
    have hself : (r.withVeto v').vetoes.get? v'.id = some v' :=
      Table.get?_insert_self hobjection.fresh
    obtain rfl : v' = v := Option.some.inj (hself.symm.trans (hid ▸ hv))
    exact (h.withVeto hobjection.fresh).mark fun d' _ => .rfl

/-- A deed of a change, and what it has returned. -/
theorem Mirrors.made {q : Change} (h : Mirrors m r) (hdeed : Deed r fresh q.call r' w)
    (hbody : q.Returns fresh r' body) : Mirrors (m.made q body) r' := by
  -- The deed is one of the call of the request, so that most cases do not occur.
  generalize hc : q.call = c at hdeed
  cases q with
  | createDecision b =>
    obtain ⟨d, hd, rfl⟩ := hbody
    cases hdeed with
    | @created d' _ _ hid hfresh =>
      have hself : (r.withDecision d').decisions.get? d'.id = some d' :=
        Table.get?_insert_self hfresh
      obtain rfl : d' = d := Option.some.inj (hself.symm.trans (hid ▸ hd))
      exact h.withDecision hfresh
    | _ => cases hc
  | assignRole =>
    obtain ⟨a, ha, rfl⟩ := hbody
    cases hdeed with
    | @assigned a' _ hid hfresh =>
      have hself : (r.withAssignment a').assignments.get? a'.id = some a' :=
        Table.get?_insert_self hfresh
      obtain rfl : a' = a := Option.some.inj (hself.symm.trans (hid ▸ ha))
      exact h.withAssignment hfresh
    | _ => cases hc
  | revokeRole =>
    cases hdeed with
    | revoked =>
      cases hc
      exact h.revoke
    | _ => cases hc
  | endpoint id e =>
    cases e with
    | submitDecision b =>
      obtain ⟨d, hd, rfl⟩ := hbody
      cases hdeed with
      | submitted =>
        cases hc
        exact h.submitted hd
      | _ => cases hc
    | approveDecision b =>
      obtain ⟨x, hx, rfl⟩ := hbody
      subst hc
      exact h.voted hdeed hx
    | exerciseVeto b =>
      obtain ⟨v, hv, rfl⟩ := hbody
      subst hc
      exact h.vetoed hdeed hv
    | overrideVeto vetoId b =>
      obtain ⟨v, hv, rfl⟩ := hbody
      cases hdeed with
      | overridden =>
        have hid := (Call.overrideVeto.inj hc).1
        subst hid
        exact h.override hv
      | _ => cases hc

end Mirroring

/-- The responses to requests that look something up, on the stores `s`, are what the copy
    tells. -/
structure Tells [Hashlib] [Postgres] (m : Mirror) (s : Store) : Prop where
  missing : ∀ id, (∀ d ∈ m.decisions, d.id ≠ id) → (Read.getDecision id).respond s =
    ⟨404, .message "Decision not found"⟩
  decision : ∀ d ∈ m.decisions, ∃ x, (Read.getDecision d.id).respond s = ⟨200, .decision x⟩ ∧
    x.docket = d
  /-- The same decisions are on the pages, in the order of their creation from the latest on. -/
  decisions : ∀ domainId status (limit offset : ℤ), (0 ≤ limit ∧ limit < 2 ^ 63) →
    (0 ≤ offset ∧ offset < 2 ^ 63) → ∃ l xs,
      l.Perm (m.decisions.filter fun d =>
        (domainId.filter (· ≠ "")).all (· = d.domainId) && status.all (· = d.status)) ∧
      l.Pairwise (fun d d' => d'.createdAt.instant ≤ d.createdAt.instant) ∧
      (Read.listDecisions domainId status limit offset).respond s = ⟨200, .decisions xs⟩ ∧
      xs.map DecisionResponse.docket = Paging.page limit.toNat offset.toNat l
  approvals : ∀ id, ∃ xs, (Read.listApprovals id).respond s = ⟨200, .approvals xs⟩ ∧
    xs.Perm (m.approvals.filter fun x => x.decisionId = id) ∧
    xs.Pairwise fun x x' => x.votedAt.instant ≤ x'.votedAt.instant
  vetoes : ∀ id, ∃ vs, (Read.listVetoes id).respond s = ⟨200, .vetoes vs⟩ ∧
    vs.Perm (m.vetoes.filter fun v => v.decisionId = id) ∧
    vs.Pairwise fun v v' => v.vetoedAt.instant ≤ v'.vetoedAt.instant
  domainRoles : ∀ domainId, ∃ as, (Read.getDomainRoles domainId).respond s =
    ⟨200, .assignments as⟩ ∧ as.Perm (m.assignments.filter fun a => a.domainId = domainId)
  userRoles : ∀ userId, ∃ as, (Read.getUserRoles userId).respond s = ⟨200, .assignments as⟩ ∧
    as.Perm (m.assignments.filter fun a => a.userId = userId)

section Telling

variable [Hashlib] [Postgres] {m : Mirror} {s : Store}

/-- A request is followed by the copy. -/
theorem Mirrors.see (h : Mirrors m s.toRegistry) (q : ApiRequest) :
    Mirrors (m.see q (q.respond s).1) (q.respond s).2.toRegistry := by
  cases q with
  | read => exact h
  | change q fresh =>
    rcases q.respond_cases fresh s with ⟨e, heq⟩ | ⟨body, s', heq, ⟨r, w, hdeed, hleaves⟩, hbody⟩
    · rw [ApiRequest.respond, heq, Mirror.see, if_neg Change.failure_status_ne]
      exact h
    · rw [ApiRequest.respond, heq, Mirror.see, if_pos rfl]
      exact h.made (hleaves.registry ▸ hdeed) hbody

/-- The copy after requests of all kinds. Those that read, or fail, do not change it. -/
theorem Mirrors.seen (h : Mirrors m s.toRegistry) (qs : List ApiRequest) :
    Mirrors (ApiRequest.seen qs s m) (ApiRequest.serve qs s).toRegistry := by
  induction qs generalizing m s with
  | nil => exact h
  | cons q qs ih => exact ih (h.see q)

omit [Hashlib] in
/-- Some rows in an order, and what is made of them. -/
theorem perm_map_orderBy {ρ σ : Type} (key : ρ → ℤ) (rows : List ρ) (f : ρ → σ) (p : σ → Bool) :
    ((orderBy key (rows.filter fun x => p (f x))).map f).Perm ((rows.map f).filter p) := by
  rw [List.filter_map]
  exact (perm_orderBy key _).map f

/-- The responses to requests that read, from the copy. -/
theorem Mirrors.tells (h : Mirrors m s.toRegistry) : Tells m s where
  missing id hnone := by
    have hget : s.decisions.get? id = none := Table.get?_eq_none.2 fun d hd =>
      hnone _ (h.decisions ▸ List.mem_map_of_mem hd)
    rw [Read.respond, hget]
  decision d hd := by
    rw [h.decisions] at hd
    obtain ⟨row, hrow, rfl⟩ := List.mem_map.1 hd
    have hget : s.decisions.get? (DecisionResponse.modelValidate row).docket.id = some row :=
      Table.get?_key hrow
    refine ⟨.modelValidate row, ?_, rfl⟩
    rw [Read.respond, hget]
  decisions domainId status limit offset hlimit hoffset := by
    -- A page is cut from the rows in some order by their times. The client has the same rows, and
    -- knows the times, but not the order of rows with the same ones.
    have hperm := perm_map_orderBy (fun d : GovernanceDecision => -d.createdAt.instant)
      s.decisions.rows (fun d => (DecisionResponse.modelValidate d).docket) fun d =>
        (domainId.filter (· ≠ "")).all (· = d.domainId) && status.all (· = d.status)
    have hsorted := pairwise_orderBy (fun d : GovernanceDecision => -d.createdAt.instant)
      (Read.ofDecisions domainId status s)
    rw [← h.decisions] at hperm
    refine ⟨_, (Paging.page limit.toNat offset.toNat (orderBy (fun d : GovernanceDecision =>
      -d.createdAt.instant) (Read.ofDecisions domainId status s))).map .modelValidate, hperm,
      ?_, ?_, ?_⟩
    · exact List.pairwise_map.2 (hsorted.imp fun hle => Int.neg_le_neg_iff.1 hle)
    · rw [Read.respond, page, if_pos ⟨hlimit, hoffset⟩, Read.found]
    · rw [List.map_map, Paging.page, Paging.page, List.map_take, List.map_drop]
      rfl
  approvals id := by
    refine ⟨_, rfl, ?_, ?_⟩
    · rw [h.approvals]
      exact perm_map_orderBy _ _ ApprovalResponse.modelValidate fun x => x.decisionId = id
    · exact List.pairwise_map.2 (pairwise_orderBy _ _)
  vetoes id := by
    refine ⟨_, rfl, ?_, ?_⟩
    · rw [h.vetoes]
      exact perm_map_orderBy _ _ VetoResponse.modelValidate fun v => v.decisionId = id
    · exact List.pairwise_map.2 (pairwise_orderBy _ _)
  domainRoles domainId := by
    refine ⟨_, rfl, ?_⟩
    rw [h.assignments, List.filter_map]
    exact .rfl
  userRoles userId := by
    refine ⟨_, rfl, ?_⟩
    rw [h.assignments, List.filter_map]
    exact .rfl

/-- After every run of requests, the responses to the changes tell what is answered to those who
    look decisions, votes, vetoes and roles up. -/
theorem told (qs : List ApiRequest) :
    Tells (ApiRequest.seen qs .empty .empty) (ApiRequest.serve qs .empty) :=
  (Mirrors.seen mirrors_empty qs).tells

end Telling

end OpenDataGov
