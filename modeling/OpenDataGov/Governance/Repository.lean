import Mathlib.Data.List.Sort
import OpenDataGov.Core.Audit
import OpenDataGov.Lib.Program
import OpenDataGov.Lib.Table

/-!
# The repositories

The five tables of the governance engine (`Store`), the statements its
repositories send to the database (`Query`), and what PostgreSQL answers to them
and changes (`backend`). The repositories of `repository/postgres.py` are
programs sending these statements (`Lib.Program`), so that the same code runs alone
(`Program.run`) and in transactions at once with others (`Lib.ReadCommitted`).

What the database checks is in the answers: primary keys, the foreign keys of votes and
vetoes, and the unique index on users and domains (`Store.insertedAssignment`). There is no such
index on the votes of a user, nor on the links of the audit chain. An `UPDATE` or `DELETE` of a row
that is not there does nothing and succeeds. For concurrent transactions, `locks` says which rows
a statement waits for: those that it writes. None of the reads locks anything.

A row is validated on its way out of a repository, so tables hold the values of
the models; for decisions, `Governance.Storage` has the rows themselves.
`ORDER BY` leaves the order of rows with equal keys open: what it does is a
parameter (`Postgres`). Every statement of a repository is one query,
`session.get` too: no row outlives the method that has read it.

* `get?_updateDecision_self`, `get?_updateDecision_of_ne`: what an update changes;
* `not_isValueError_of_answer`: the database fails with errors of its own, which are no
  `ValueError`, so that no route takes them for a refusal.

The lists for the routes that only read are in `Governance.Api`.
-/

namespace OpenDataGov

open Calendar Transact Keyed

/-- The tables about decisions and who decides them. -/
structure Registry where
  decisions : Table GovernanceDecision.id
  approvals : Table ApprovalRecord.id
  vetoes : Table VetoRecord.id
  assignments : Table RACIAssignment.id

/-- All the tables: those, and the audit trail. -/
structure Store extends Registry where
  events : Table AuditEvent.id

/-- The empty tables. -/
def Registry.empty : Registry := ⟨.empty, .empty, .empty, .empty⟩

/-- The tables after the first migration. -/
def Store.empty : Store := ⟨.empty, .empty⟩

/-- What the database does with `ORDER BY`. -/
class Postgres where
  /-- The rows ordered by a key. -/
  orderBy : {ρ : Type} → (ρ → ℤ) → List ρ → List ρ
  perm_orderBy : ∀ {ρ : Type} (key : ρ → ℤ) (rows : List ρ), (orderBy key rows).Perm rows
  pairwise_orderBy : ∀ {ρ : Type} (key : ρ → ℤ) (rows : List ρ),
    (orderBy key rows).Pairwise fun r r' => key r ≤ key r'

export Postgres (orderBy perm_orderBy pairwise_orderBy)

/-- A database that keeps the order of rows with equal keys. -/
@[reducible] def Postgres.stable : Postgres where
  orderBy key := List.insertionSort fun r r' => key r ≤ key r'
  perm_orderBy _ rows := List.perm_insertionSort _ rows
  pairwise_orderBy key rows := by
    have : Std.Total fun r r' => key r ≤ key r' := ⟨fun r r' => Int.le_total (key r) (key r')⟩
    have : IsTrans _ fun r r' => key r ≤ key r' := ⟨fun _ _ _ h h' => Int.le_trans h h'⟩
    exact List.pairwise_insertionSort _ rows

section Ordering

variable [Postgres] {ρ : Type} {key : ρ → ℤ} {rows rows' : List ρ} {r : ρ}

/-- Ordering rows keeps them. -/
@[simp] theorem mem_orderBy : r ∈ orderBy key rows ↔ r ∈ rows := (perm_orderBy key rows).mem_iff

/-- Ordering rows keeps their number. -/
@[simp] theorem length_orderBy : (orderBy key rows).length = rows.length :=
  (perm_orderBy key rows).length_eq

/-- Rows with different keys have a single order. -/
theorem eq_orderBy (hperm : rows'.Perm rows)
    (hsorted : rows'.Pairwise fun r r' => key r ≤ key r') (hkeys : (rows.map key).Nodup) :
    rows' = orderBy key rows := by
  refine List.Perm.eq_of_pairwise ?_ hsorted (pairwise_orderBy key rows)
    (hperm.trans (perm_orderBy key rows).symm)
  intro r r' hr hr' h h'
  exact List.inj_on_of_nodup_map hkeys (hperm.mem_iff.1 hr) (mem_orderBy.1 hr') (le_antisymm h h')

/-- Rows that are in their order already stay as they are. -/
theorem orderBy_of_pairwise (h : rows.Pairwise fun r r' => key r < key r') :
    orderBy key rows = rows :=
  (eq_orderBy .rfl (h.imp Int.le_of_lt)
    (List.pairwise_map.2 (h.imp fun {_ _} hlt => Int.ne_of_lt hlt))).symm

/-- Filtering rows keeps the order of the others. -/
theorem filter_orderBy {p : ρ → Bool} (hkeys : ((rows.filter p).map key).Nodup) :
    (orderBy key rows).filter p = orderBy key (rows.filter p) :=
  eq_orderBy ((perm_orderBy key rows).filter p) ((pairwise_orderBy key rows).filter p) hkeys

end Ordering

/-! ## Statements -/

/-- The statements sent by the repositories. -/
inductive Query
  | getDecision (id : UUID)
  | insertDecision (d : GovernanceDecision)
  | updateDecision (id : UUID) (status : DecisionStatus) (updatedAt : DateTime)
      (metadata : Json.Dict Json.Scalar)
  | insertVote (r : ApprovalRecord)
  | selectVote (decisionId : UUID) (voterId : String)
  | selectVotes (decisionId : UUID)
  | insertVeto (v : VetoRecord)
  | getVeto (id : UUID)
  | updateVeto (id : UUID) (status : VetoStatus) (overriddenBy : Option String)
      (overriddenAt : Option DateTime)
  | insertEvent (e : AuditEvent)
  | lastHash
  | selectChain (limit : ℕ)
  | insertAssignment (a : RACIAssignment)
  | getAssignment (id : UUID)
  | selectAssignment (userId domainId : String)
  | deleteAssignment (id : UUID)
  | selectDomain (domainId : String)

/-- What is answered to a statement. -/
def Query.Answer : Query → Type
  | .getDecision _ => Option GovernanceDecision
  | .selectVote _ _ => Option ApprovalRecord
  | .selectVotes _ => List ApprovalRecord
  | .getVeto _ => Option VetoRecord
  | .lastHash => Option (Bounded 0 64)
  | .selectChain _ => List AuditEvent
  | .getAssignment _ => Option RACIAssignment
  | .selectAssignment _ _ => Option RACIAssignment
  | .selectDomain _ => List RACIAssignment
  | .insertDecision _ | .updateDecision .. | .insertVote _ | .insertVeto _ | .updateVeto ..
  | .insertEvent _ | .insertAssignment _ | .deleteAssignment _ => Unit

/-- The programs of the services. -/
abbrev Prog := Program Query.Answer Error

/-- The single row selected, if any. -/
def scalarOneOrNone {ρ : Type} : List ρ → Except Error (Option ρ)
  | [] => .ok none
  | [r] => .ok (some r)
  | _ => .error .multipleResultsFound

/-- The outcome of an insertion into a table, which fails on a taken key. -/
def inserted {ρ : Type} {key : ρ → UUID} (name : String) (t : Table key) (r : ρ) :
    Except Error Unit :=
  match t.get? (key r) with
  | none => .ok ()
  | some _ => .error (.integrityError name)

/-- The rows of a foreign key exist: rows referring to `id` can be inserted. -/
def Store.refers (s : Store) (name : String) (id : UUID) : Except Error Unit :=
  match s.decisions.get? id with
  | none => .error (.integrityError name)
  | some _ => .ok ()

/-- The outcome of the insertion of an assignment: the index on users and domains is
    unique. -/
def Store.insertedAssignment (s : Store) (a : RACIAssignment) : Except Error Unit :=
  if s.assignments.rows.any fun b => b.userId = a.userId ∧ b.domainId = a.domainId then
    .error (.integrityError "raci_assignments")
  else inserted "raci_assignments" s.assignments a

/-- Setting the columns of an `UPDATE` of a decision. -/
def GovernanceDecision.set (status : DecisionStatus) (updatedAt : DateTime)
    (metadata : Json.Dict Json.Scalar) (d : GovernanceDecision) : GovernanceDecision :=
  { d with status := status, updatedAt := updatedAt, metadata := metadata }

/-- The key is not among the columns that are set. -/
theorem GovernanceDecision.id_set (status : DecisionStatus) (updatedAt : DateTime)
    (metadata : Json.Dict Json.Scalar) (d : GovernanceDecision) :
    (d.set status updatedAt metadata).id = d.id := rfl

/-- Setting the columns of an `UPDATE` of a veto. -/
def VetoRecord.set (status : VetoStatus) (overriddenBy : Option String)
    (overriddenAt : Option DateTime) (v : VetoRecord) : VetoRecord :=
  { v with status := status, overriddenBy := overriddenBy, overriddenAt := overriddenAt }

/-- The key of a veto is not among its columns that are set. -/
theorem VetoRecord.id_set (status : VetoStatus) (overriddenBy : Option String)
    (overriddenAt : Option DateTime) (v : VetoRecord) :
    (v.set status overriddenBy overriddenAt).id = v.id := rfl

/-- The times of the events. -/
def Store.stamps (s : Store) : List ℤ := s.events.rows.map AuditEvent.stamp

section Database

variable [Postgres]

/-- The events in the order of their occurrence. -/
def Store.chain (s : Store) : List AuditEvent := orderBy AuditEvent.stamp s.events.rows

/-- The hash of the latest event. -/
def Store.lastHash (s : Store) : Option (Bounded 0 64) :=
  (orderBy (fun e : AuditEvent => -e.stamp) s.events.rows).head?.map AuditEvent.eventHash

/-- What a statement answers. -/
def answer : (q : Query) → Store → Except Error q.Answer
  | .getDecision id, s => .ok (s.decisions.get? id)
  | .insertDecision d, s => inserted "governance_decisions" s.decisions d
  | .updateDecision .., _ => .ok ()
  | .insertVote r, s => do
    s.refers "approval_records" r.decisionId
    inserted "approval_records" s.approvals r
  | .selectVote decisionId voterId, s => scalarOneOrNone <| s.approvals.rows.filter fun r =>
      r.decisionId = decisionId ∧ r.voterId.text = voterId
  | .selectVotes decisionId, s => .ok <|
      orderBy (fun r : ApprovalRecord => r.votedAt.instant) <|
        s.approvals.rows.filter fun r => r.decisionId = decisionId
  | .insertVeto v, s => do
    s.refers "veto_records" v.decisionId
    inserted "veto_records" s.vetoes v
  | .getVeto id, s => .ok (s.vetoes.get? id)
  | .updateVeto .., _ => .ok ()
  | .insertEvent e, s => inserted "audit_events" s.events e
  | .lastHash, s => .ok s.lastHash
  | .selectChain limit, s => .ok (s.chain.take limit)
  | .insertAssignment a, s => s.insertedAssignment a
  | .getAssignment id, s => .ok (s.assignments.get? id)
  | .selectAssignment userId domainId, s => scalarOneOrNone <| s.assignments.rows.filter fun a =>
      a.userId.text = userId ∧ a.domainId.text = domainId
  | .deleteAssignment _, _ => .ok ()
  | .selectDomain domainId, s => .ok <| s.assignments.rows.filter fun a =>
      a.domainId.text = domainId

end Database

/-- What a statement changes. -/
def effect : Query → Store → Store
  | .insertDecision d, s => { s with decisions := s.decisions.insert d }
  | .updateDecision id status updatedAt metadata, s => { s with
      decisions := s.decisions.modify id (.set status updatedAt metadata)
        (GovernanceDecision.id_set status updatedAt metadata) }
  | .insertVote r, s => { s with approvals := s.approvals.insert r }
  | .insertVeto v, s => { s with vetoes := s.vetoes.insert v }
  | .updateVeto id status overriddenBy overriddenAt, s => { s with
      vetoes := s.vetoes.modify id (.set status overriddenBy overriddenAt)
        (VetoRecord.id_set status overriddenBy overriddenAt) }
  | .insertEvent e, s => { s with events := s.events.insert e }
  | .insertAssignment a, s => { s with assignments := s.assignments.insert a }
  | .deleteAssignment id, s => { s with assignments := s.assignments.erase id }
  | .getDecision _, s | .selectVote .., s | .selectVotes _, s | .getVeto _, s | .lastHash, s
  | .selectChain _, s | .getAssignment _, s | .selectAssignment .., s | .selectDomain _, s => s

section Updates

variable {s : Store} {id id' : UUID} {status : DecisionStatus} {updatedAt : DateTime}
  {metadata : Json.Dict Json.Scalar}

/-- The row of the decision has the new columns, if it is there. -/
theorem get?_updateDecision_self :
    (effect (.updateDecision id status updatedAt metadata) s).decisions.get? id =
      (s.decisions.get? id).map (.set status updatedAt metadata) := by
  simp only [effect, Table.get?_modify_self]

/-- Other rows do not change. -/
theorem get?_updateDecision_of_ne (h : id' ≠ id) :
    (effect (.updateDecision id status updatedAt metadata) s).decisions.get? id' =
      s.decisions.get? id' := by
  simp only [effect, Table.get?_modify_of_ne h]

end Updates

/-- The names of the tables. -/
inductive Relname
  | decisions
  | approvals
  | vetoes
  | events
  | assignments
  deriving DecidableEq

/-- What a transaction may have to wait for: the row of a primary key, written or
    inserted, and the entry of the unique index of the assignments. -/
inductive Lock
  | row (table : Relname) (id : UUID)
  | raci (userId : Bounded 1 200) (domainId : Bounded 1 100)
  deriving DecidableEq

/-- The locks taken by a statement. -/
def locks : Query → List Lock
  | .insertDecision d => [.row .decisions d.id]
  | .updateDecision id .. => [.row .decisions id]
  | .insertVote r => [.row .approvals r.id]
  | .insertVeto v => [.row .vetoes v.id]
  | .updateVeto id .. => [.row .vetoes id]
  | .insertEvent e => [.row .events e.id]
  | .insertAssignment a => [.row .assignments a.id, .raci a.userId a.domainId]
  | .deleteAssignment id => [.row .assignments id]
  | .getDecision _ | .selectVote .. | .selectVotes _ | .getVeto _ | .lastHash | .selectChain _
  | .getAssignment _ | .selectAssignment .. | .selectDomain _ => []

/-- PostgreSQL, with the tables of the governance engine. -/
def backend [Postgres] : Backend Query.Answer Error Store Lock := ⟨answer, effect, locks⟩

/-! ### What is answered -/

section Answers

variable {ρ : Type} {key : ρ → UUID} {name : String} {t : Table key} {r : ρ} {rows : List ρ}
  {s : Store} {id : UUID} {e : Error} {x : Except Error Unit} {u : Unit}

/-- The row is one of those that are selected. -/
theorem mem_of_scalarOneOrNone (h : scalarOneOrNone rows = .ok (some r)) : r ∈ rows := by
  match rows with
  | [] => cases h
  | [_] =>
    cases h
    exact List.mem_singleton_self r
  | _ :: _ :: _ => cases h

/-- Without a row, nothing has been selected. -/
theorem eq_nil_of_scalarOneOrNone (h : scalarOneOrNone rows = .ok none) : rows = [] := by
  match rows with
  | [] => rfl
  | [_] => cases h
  | _ :: _ :: _ => cases h

/-- More than one row is an error that no route handles. -/
theorem scalarOneOrNone_error (h : scalarOneOrNone rows = .error e) : ¬e.IsValueError := by
  match rows with
  | [] => cases h
  | [_] => cases h
  | _ :: _ :: _ =>
    cases h
    exact not_false

/-- Among rows that are all the same, there is a single one. -/
theorem scalarOneOrNone_of_subsingleton (hnodup : rows.Nodup)
    (h : ∀ r ∈ rows, ∀ r' ∈ rows, r = r') : ∃ x, scalarOneOrNone rows = .ok x := by
  match rows with
  | [] => exact ⟨none, rfl⟩
  | [r] => exact ⟨some r, rfl⟩
  | r :: r' :: rows =>
    have hne : r ≠ r' := fun e => (List.nodup_cons.1 hnodup).1 (e ▸ List.mem_cons_self)
    exact absurd (h r (by simp) r' (by simp)) hne

/-- A row is inserted if its key is free. -/
theorem inserted_eq_ok : inserted name t r = .ok u ↔ t.get? (key r) = none := by
  rw [inserted]
  split <;> simp [*]

/-- A key that is taken is an error that no route handles. -/
theorem inserted_error (h : inserted name t r = .error e) : ¬e.IsValueError := by
  rw [inserted] at h
  split at h <;> cases h
  exact not_false

/-- A statement goes on if the decision that its row refers to is there. -/
theorem refers_eq_ok : (do s.refers name id; x) = .ok u ↔
    (∃ d, s.decisions.get? id = some d) ∧ x = .ok u := by
  rw [Store.refers]
  split <;> simp_all [bind, Except.bind]

/-- A decision that is not there is an error that no route handles. -/
theorem refers_error (hx : x = .error e → ¬e.IsValueError)
    (h : (do s.refers name id; x) = .error e) : ¬e.IsValueError := by
  rw [Store.refers] at h
  split at h
  · cases h
    exact not_false
  · exact hx h

/-- An assignment is inserted if the user has none in the domain, and its key is free. -/
theorem insertedAssignment_eq_ok {a : RACIAssignment} : s.insertedAssignment a = .ok u ↔
    (∀ b ∈ s.assignments.rows, b.userId = a.userId → b.domainId ≠ a.domainId) ∧
      s.assignments.get? a.id = none := by
  rw [Store.insertedAssignment]
  split_ifs with h
  · simp_all
  · simp_all [inserted_eq_ok]

/-- Neither is a second assignment an error that a route handles. -/
theorem insertedAssignment_error {a : RACIAssignment} (h : s.insertedAssignment a = .error e) :
    ¬e.IsValueError := by
  rw [Store.insertedAssignment] at h
  split_ifs at h
  · cases h
    exact not_false
  · exact inserted_error h

/-- The database fails with errors of its own, which no route handles. -/
theorem not_isValueError_of_answer [Postgres] {q : Query} (h : answer q s = .error e) :
    ¬e.IsValueError := by
  cases q with
  | insertDecision | insertEvent => exact inserted_error h
  | insertVote | insertVeto => exact refers_error inserted_error h
  | selectVote | selectAssignment => exact scalarOneOrNone_error h
  | insertAssignment => exact insertedAssignment_error h
  | _ => cases h

end Answers

/-! ## Repositories -/

open Program

/-- Sending a statement. -/
abbrev execute (q : Query) : Prog q.Answer := send q

namespace PgDecisionRepository

/-- `create` of the decisions. -/
def create (decision : GovernanceDecision) : Prog GovernanceDecision := do
  execute (.insertDecision decision)
  return decision

/-- `get_by_id` of the decisions. -/
def getById (decisionId : UUID) : Prog (Option GovernanceDecision) :=
  execute (.getDecision decisionId)

/-- The `updated_at` of a row when it is flushed: the one assigned if it is new to
    the row, and the time now otherwise, if the row changes at all. The metadata of
    a decision never change. -/
def flushedAt (row decision : GovernanceDecision) (now : DateTime) : DateTime :=
  if decision.updatedAt.instant ≠ row.updatedAt.instant then decision.updatedAt
  else if decision.status ≠ row.status then now
  else row.updatedAt

/-- `update` of the decisions, which reads the row again and sets its columns, but those that are
    never changed. -/
def update (decision : GovernanceDecision) (now : DateTime) : Prog GovernanceDecision := do
  match ← execute (.getDecision decision.id) with
  | none => raise (.valueError s!"Decision {decision.id} not found")
  | some row =>
    let updatedAt := flushedAt row decision now
    execute (.updateDecision row.id decision.status updatedAt decision.metadata)
    return row.set decision.status updatedAt decision.metadata

end PgDecisionRepository

namespace PgApprovalRepository

/-- `create` of the votes. Nothing is asked of the votes that there are. -/
def create (record : ApprovalRecord) : Prog ApprovalRecord := do
  execute (.insertVote record)
  return record

/-- The vote of a user, of which there may be one at most. -/
def getVote (decisionId : UUID) (voterId : String) : Prog (Option ApprovalRecord) :=
  execute (.selectVote decisionId voterId)

/-- The votes on a decision, the earliest first. -/
def listByDecision (decisionId : UUID) : Prog (List ApprovalRecord) :=
  execute (.selectVotes decisionId)

end PgApprovalRepository

namespace PgVetoRepository

/-- The row of a new veto, which says nothing of an override. -/
def create (veto : VetoRecord) : Prog VetoRecord := do
  let row := veto.set veto.status none none
  execute (.insertVeto row)
  return row

/-- `get_by_id` of the vetoes. -/
def getById (vetoId : UUID) : Prog (Option VetoRecord) :=
  execute (.getVeto vetoId)

/-- `update` of the vetoes, which reads the row again. -/
def update (veto : VetoRecord) : Prog VetoRecord := do
  match ← execute (.getVeto veto.id) with
  | none => raise (.valueError s!"Veto {veto.id} not found")
  | some row =>
    execute (.updateVeto row.id veto.status veto.overriddenBy veto.overriddenAt)
    return row.set veto.status veto.overriddenBy veto.overriddenAt

end PgVetoRepository

namespace PgAuditRepository

/-- `create` of the audit trail, to which nothing else is ever done. -/
def create (event : AuditEvent) : Prog AuditEvent := do
  execute (.insertEvent event)
  return event

/-- The hash to link the next event to. Nothing keeps others from reading the same one. -/
def getLastHash : Prog (Option (Bounded 0 64)) := execute .lastHash

/-- The first events, the oldest first. -/
def getChain (limit : ℕ) : Prog (List AuditEvent) := execute (.selectChain limit)

end PgAuditRepository

namespace PgRACIRepository

/-- `create` of the assignments. -/
def create (assignment : RACIAssignment) : Prog RACIAssignment := do
  execute (.insertAssignment assignment)
  return assignment

/-- `get_by_id` of the assignments. -/
def getById (assignmentId : UUID) : Prog (Option RACIAssignment) :=
  execute (.getAssignment assignmentId)

/-- The assignment of a user in a domain, of which the index allows one. -/
def getAssignment (userId domainId : String) : Prog (Option RACIAssignment) :=
  execute (.selectAssignment userId domainId)

/-- `delete`, of an assignment that may be gone already. -/
def delete (assignmentId : UUID) : Prog Unit := do
  match ← execute (.getAssignment assignmentId) with
  | none => return ()
  | some row => execute (.deleteAssignment row.id)

/-- The roster of a domain, in any order. -/
def listByDomain (domainId : String) : Prog (List RACIAssignment) :=
  execute (.selectDomain domainId)

end PgRACIRepository

end OpenDataGov
