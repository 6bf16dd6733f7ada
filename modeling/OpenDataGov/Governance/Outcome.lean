import OpenDataGov.Governance.Calls

/-!
# What a call does

The approval process on the tables about decisions (`Registry`), apart from the
audit trail: what has to hold for a vote (`Ballot`), for a veto (`Objection`) and
for the approval of a decision (`FullyApproved`), and the outcomes of a call
(`Outcome`): it is refused, or it does one thing.

This is the abstract model of the engine. It has no statements, no order of checks and no errors,
and says of a decision in the words of the process what may become of it: pending, then awaiting
approval, then approved, rejected or vetoed, for good. The invariants of the later modules are
proved for outcomes, one case for each, and hold of the programs because those refine it.

That a call has one of these outcomes is proved with the rules for the programs of
the services (`wp_execute`, `wp_found`, `wp_require`, `wp_validate`), and with what
their statements read; the refinement itself, with the events, is `Call.carries` in
`Governance.Deed`.

* `mem_requiredVoters`, `mem_approvedVoters`: the sets that `_check_and_finalize` computes from what
  it has read are those of the process;
* `mem_of_selectAssignment`, `not_mem_of_selectVote`: what the other checks read of the tables.
-/

namespace OpenDataGov

open Calendar Transact Program ApprovalService VetoService

/-! ## The process -/

namespace Registry

variable (r : Registry)

/-- The user has a role in the domain that is required to approve. -/
def Required (domainId : Bounded 1 100) (u : Bounded 1 200) : Prop :=
  ∃ a ∈ r.assignments.rows, a.domainId = domainId ∧ a.userId = u ∧ a.role ∈ requiredApprovalRoles

/-- The user has voted so on the decision. -/
def Voted (decisionId : UUID) (u : Bounded 1 200) (v : VoteValue) : Prop :=
  ∃ x ∈ r.approvals.rows, x.decisionId = decisionId ∧ x.voterId = u ∧ x.vote = v

instance (domainId : Bounded 1 100) (u : Bounded 1 200) : Decidable (r.Required domainId u) :=
  inferInstanceAs (Decidable (∃ a ∈ r.assignments.rows, _))

instance (decisionId : UUID) (u : Bounded 1 200) (v : VoteValue) :
    Decidable (r.Voted decisionId u v) :=
  inferInstanceAs (Decidable (∃ x ∈ r.approvals.rows, _))

/-- There are users required to approve in the domain, and all of them have
    approved the decision. -/
def FullyApproved (decisionId : UUID) (domainId : Bounded 1 100) : Prop :=
  (∃ u, r.Required domainId u) ∧ ∀ u, r.Required domainId u → r.Voted decisionId u .approve

/-- A decision is created. -/
def withDecision (d : GovernanceDecision) : Registry :=
  { r with decisions := r.decisions.insert d }

/-- A vote is cast. -/
def withVote (x : ApprovalRecord) : Registry := { r with approvals := r.approvals.insert x }

/-- A veto is exercised. -/
def withVeto (v : VetoRecord) : Registry := { r with vetoes := r.vetoes.insert v }

/-- The status of a decision changes. -/
def mark (decisionId : UUID) (status : DecisionStatus) (updatedAt : DateTime)
    (metadata : Json.Dict Json.Scalar) : Registry :=
  { r with
    decisions := r.decisions.modify decisionId (.set status updatedAt metadata)
      (GovernanceDecision.id_set status updatedAt metadata) }

/-- A veto is overridden by a user. -/
def override (vetoId : UUID) (overriddenBy : String) (overriddenAt : Option DateTime) : Registry :=
  { r with
    vetoes := r.vetoes.modify vetoId (.set .overridden (some overriddenBy) overriddenAt)
      (VetoRecord.id_set .overridden (some overriddenBy) overriddenAt) }

/-- A role is assigned. -/
def withAssignment (a : RACIAssignment) : Registry :=
  { r with assignments := r.assignments.insert a }

/-- An assignment is revoked. -/
def revoke (assignmentId : UUID) : Registry :=
  { r with assignments := r.assignments.erase assignmentId }

end Registry

/-- The vote `x` can be cast on the decision `d`. -/
structure Ballot (r : Registry) (d : GovernanceDecision) (x : ApprovalRecord) : Prop where
  decision : r.decisions.get? x.decisionId = some d
  awaiting : d.status = .awaitingApproval
  assigned : ∃ a ∈ r.assignments.rows,
    a.userId = x.voterId ∧ a.domainId = d.domainId ∧ a.role = x.voterRole
  first : ∀ y ∈ r.approvals.rows, y.decisionId = x.decisionId → y.voterId ≠ x.voterId
  fresh : r.approvals.get? x.id = none

/-- The veto `v` can be exercised on the decision `d`. -/
structure Objection (r : Registry) (d : GovernanceDecision) (v : VetoRecord) : Prop where
  decision : r.decisions.get? v.decisionId = some d
  awaiting : d.status = .awaitingApproval
  assigned : ∃ a ∈ r.assignments.rows,
    a.userId = v.vetoedBy ∧ a.domainId = d.domainId ∧ a.role = v.vetoedByRole
  eligible : v.vetoedByRole ∈ vetoEligibleRoles
  active : v.status = .active
  expires : v.expiresAt = some (v.computeExpiry (d.decisionType = .emergency))
  fresh : r.vetoes.get? v.id = none

/-- The user of the assignment `a` can override the veto `v`. -/
structure Override (r : Registry) (v : VetoRecord) (a : RACIAssignment) : Prop where
  veto : r.vetoes.get? v.id = some v
  active : v.status = .active
  assigned : a ∈ r.assignments.rows
  decision : ∃ d, r.decisions.get? v.decisionId = some d ∧ a.domainId = d.domainId
  higher : roleHierarchy v.vetoedByRole < roleHierarchy a.role

/-- The outcomes of a call that is given the identifiers and times `fresh`. -/
inductive Outcome (r : Registry) (fresh : ℕ → Stamp) : Call → Registry → Prop
  | refused (c : Call) : Outcome r fresh c r
  | created {d metadata} : d.status = .pending → d.id = (fresh 0).id →
      r.decisions.get? d.id = none →
      Outcome r fresh (.createDecision d.decisionType d.title.text d.description d.domainId.text
        d.createdBy.text d.promotion metadata) (r.withDecision d)
  | submitted {id actorId d t} : r.decisions.get? id = some d → d.status = .pending →
      Outcome r fresh (.submitForApproval id actorId) (r.mark id .awaitingApproval t d.metadata)
  | voted {d x} : Ballot r d x → x.vote ≠ .reject →
      (x.vote = .approve → ¬(r.withVote x).FullyApproved x.decisionId d.domainId) →
      Outcome r fresh (.castVote x.decisionId x.voterId.text x.vote x.comment) (r.withVote x)
  | rejected {d x t} : Ballot r d x → x.vote = .reject →
      Outcome r fresh (.castVote x.decisionId x.voterId.text x.vote x.comment)
        ((r.withVote x).mark x.decisionId .rejected t d.metadata)
  | approved {d x t} : Ballot r d x → x.vote = .approve →
      (r.withVote x).FullyApproved x.decisionId d.domainId →
      Outcome r fresh (.castVote x.decisionId x.voterId.text x.vote x.comment)
        ((r.withVote x).mark x.decisionId .approved t d.metadata)
  | vetoed {d v t} : Objection r d v → v.vetoedAt = (fresh 0).now →
      Outcome r fresh (.exerciseVeto v.decisionId v.vetoedBy.text v.reason.1)
        ((r.withVeto v).mark v.decisionId .vetoed t d.metadata)
  | overridden {v a} : Override r v a →
      Outcome r fresh (.overrideVeto v.id a.userId.text)
        (r.override v.id a.userId.text v.overriddenAt)
  | assigned {a} : (∀ b ∈ r.assignments.rows, b.userId = a.userId → b.domainId ≠ a.domainId) →
      r.assignments.get? a.id = none →
      Outcome r fresh (.assignRole a.userId.text a.domainId.text a.role a.assignedBy.text)
        (r.withAssignment a)
  | revoked {a revokedBy} : r.assignments.get? a.id = some a →
      Outcome r fresh (.revokeRole a.id revokedBy) (r.revoke a.id)

/-! ## Rules for the programs of the services -/

section Rules

variable [Postgres] {α β : Type} {s : Store} {msg : String} {T : β → Store → Prop}
  {E : Error → Store → Prop}

/-- A statement has an answer, or fails with an error of the database. -/
theorem wp_execute {q : Query} {f : q.Answer → Prog β}
    (hf : ∀ a, answer q s = .ok a → (f a).wp backend T E (effect q s))
    (hE : ∀ e, ¬e.IsValueError → E e s) : (execute q >>= f).wp backend T E s :=
  wp_query hf fun e h => hE e (not_isValueError_of_answer h)

/-- Going on after a statement whose answer is known. -/
theorem wp_answered {q : Query} {a : q.Answer} {f : q.Answer → Prog β}
    (ha : answer q s = .ok a) (hf : (f a).wp backend T E (effect q s)) :
    (execute q >>= f).wp backend T E s := by
  refine wp_query (fun a' ha' => ?_) fun e he => ?_
  · cases ha.symm.trans ha'
    exact hf
  · cases ha.symm.trans he

/-- Creating an object inserts it, and returns it. -/
theorem wp_create {q : Query} {x : α} :
    (do let _ ← execute q; return x : Prog α).wp backend
      (fun a s' => a = x ∧ s' = effect q s ∧ ∃ u, answer q s = .ok u)
      (fun e _ => ¬e.IsValueError) s :=
  wp_query (fun u hu => wp_pure.2 ⟨rfl, rfl, u, hu⟩) fun _ h => not_isValueError_of_answer h

/-- Something is found, or a `ValueError` is raised. -/
theorem wp_found {x : Option α} {f : α → Prog β}
    (hf : ∀ a, x = some a → (f a).wp backend T E s) (hE : E (.valueError msg) s) :
    (found x msg >>= f).wp backend T E s := by
  cases x with
  | none => exact wp_raise.2 hE
  | some a => exact hf a rfl

/-- Going on with what has been found. -/
theorem wp_found_some {a : α} {f : α → Prog β} (hf : (f a).wp backend T E s) :
    (found (some a) msg >>= f).wp backend T E s := hf

/-- The requirement holds, or a `ValueError` is raised. -/
theorem wp_require {p : Prop} [Decidable p] {f : Unit → Prog β}
    (hf : p → (f ()).wp backend T E s) (hE : E (.valueError msg) s) :
    (require p msg >>= f).wp backend T E s := by
  rw [require]
  split_ifs with hp
  · exact hf hp
  · exact wp_raise.2 hE

/-- Going on where what is required holds. -/
theorem wp_required {p : Prop} [Decidable p] {f : Unit → Prog β} (hp : p)
    (hf : (f ()).wp backend T E s) : (require p msg >>= f).wp backend T E s := by
  rw [require, if_pos hp]
  exact hf

/-- The fields are valid, or a `ValidationError` is raised, which is a `ValueError` as well. -/
theorem wp_validate {name : String} {fields : Validated α} {f : α → Prog β}
    (hf : ∀ a, fields = .ok a → (f a).wp backend T E s)
    (hE : ∀ fs, (∀ a, fields ≠ .ok a) → E (.validationError name fs) s) :
    (validate name fields >>= f).wp backend T E s := by
  cases fields with
  | ok a => exact hf a rfl
  | error fs => exact wp_raise.2 (hE fs fun _ => by simp)

end Rules

/-! ## What the services read -/

section Reading

variable [Postgres] {s : Store}

/-- The assignment of a user for a domain, as it is read. -/
theorem mem_of_selectAssignment {userId domainId : String} {a : RACIAssignment}
    (h : answer (.selectAssignment userId domainId) s = .ok (some a)) :
    a ∈ s.assignments.rows ∧ a.userId.text = userId ∧ a.domainId.text = domainId := by
  have hmem := mem_of_scalarOneOrNone h
  simpa using hmem

/-- If no vote is read, the user has not voted. -/
theorem not_mem_of_selectVote {decisionId : UUID} {voterId : String}
    (h : answer (.selectVote decisionId voterId) s = .ok none) :
    ∀ y ∈ s.approvals.rows, y.decisionId = decisionId → y.voterId.text ≠ voterId := by
  have hnil := eq_nil_of_scalarOneOrNone h
  simpa using hnil

/-- The users required to approve are those of the assignments read. -/
theorem mem_requiredVoters {domainId : Bounded 1 100} {assignments : List RACIAssignment}
    (h : answer (.selectDomain domainId.text) s = .ok assignments) {u : Bounded 1 200} :
    u ∈ requiredVoters assignments ↔ s.toRegistry.Required domainId u := by
  rw [← Except.ok.inj h]
  simp only [requiredVoters, Registry.Required, List.mem_map, List.mem_filter, decide_eq_true_eq,
    Bounded.text_injective.eq_iff]
  grind

/-- The users who have approved are those of the votes read. -/
theorem mem_approvedVoters {decisionId : UUID} {approvals : List ApprovalRecord}
    (h : answer (.selectVotes decisionId) s = .ok approvals) {u : Bounded 1 200} :
    u ∈ approvedVoters approvals ↔ s.toRegistry.Voted decisionId u .approve := by
  rw [← Except.ok.inj h]
  simp only [approvedVoters, Registry.Voted, List.mem_map, List.mem_filter, decide_eq_true_eq,
    (perm_orderBy _ _).mem_iff]
  grind

end Reading

end OpenDataGov
