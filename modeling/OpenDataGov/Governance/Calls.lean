import OpenDataGov.Governance.Services
import OpenDataGov.Lib.ReadCommitted

/-!
# Calls

The operations of the governance engine called one after another, with any
arguments, on the stores: as transactions of the database, which leave nothing
when they fail, or directly, as with repositories in memory, where an operation
that raises leaves what it has done so far.

A run is a list of requests (`execAll`), each with the identifiers and times that it is given
(`Request.fresh`). A property of requests may depend on the stores that they are made on
(`Along`); where the identifiers have to be new, that is such a property. There are two rules for
runs that all the rest uses:

* `Request.exec_cases`: a request whose call has a specification ends as that says, or leaves the
  stores as they were;
* `Along.run`: what every request preserves, holds after every run.

Calls that overlap in time are transactions at once (`Transactions`, over `Lib.ReadCommitted`).
-/

namespace OpenDataGov

open Transact Program

/-- An operation with its arguments. -/
inductive Call
  | createDecision (decisionType : DecisionType) (title description domainId createdBy : String)
      (promotion : Option PromotionMetadata) (metadata : Option (Json.Dict Json.Scalar))
  | submitForApproval (decisionId : UUID) (actorId : String)
  | castVote (decisionId : UUID) (voterId : String) (vote : VoteValue) (comment : String)
  | exerciseVeto (decisionId : UUID) (vetoedBy reason : String)
  | overrideVeto (vetoId : UUID) (overriddenBy : String)
  | assignRole (userId domainId : String) (role : RACIRole) (assignedBy : String)
  | revokeRole (assignmentId : UUID) (revokedBy : String)

variable [Hashlib]

/-- The program of a call, with the identifiers and times it is given. -/
def Call.program (fresh : ℕ → Stamp) : Call → Prog Unit
  | .createDecision decisionType title description domainId createdBy promotion metadata => do
    let _ ← DecisionService.createDecision fresh decisionType title description domainId
      createdBy promotion metadata
  | .submitForApproval decisionId actorId => do
    let _ ← DecisionService.submitForApproval fresh decisionId actorId
  | .castVote decisionId voterId vote comment => do
    let _ ← ApprovalService.castVote fresh decisionId voterId vote comment
  | .exerciseVeto decisionId vetoedBy reason => do
    let _ ← VetoService.exerciseVeto fresh decisionId vetoedBy reason
  | .overrideVeto vetoId overriddenBy => do
    let _ ← VetoService.overrideVeto fresh vetoId overriddenBy
  | .assignRole userId domainId role assignedBy => do
    let _ ← RoleService.assignRole fresh userId domainId role assignedBy
  | .revokeRole assignmentId revokedBy => RoleService.revokeRole fresh assignmentId revokedBy

/-- How a call is carried out. -/
inductive Mode
  /-- As a transaction. -/
  | transaction
  /-- As a transaction that is rolled back whatever the call does. -/
  | abandoned
  /-- On the stores directly. -/
  | direct

/-- A call being made. -/
structure Request where
  call : Call
  fresh : ℕ → Stamp
  mode : Mode

/-- Concurrent transactions of the governance engine. -/
abbrev Transactions (ι : Type) := Config ι Query.Answer Error Unit Store Lock

variable [Postgres]

/-- The stores after a request. -/
def Request.exec (q : Request) (s : Store) : Store :=
  match q.mode, (q.call.program q.fresh).run backend s with
  | .abandoned, _ => s
  | .transaction, (.ok _, s') => s'
  | .transaction, (.error _, _) => s
  | .direct, (.ok _, s') => s'
  | .direct, (.error e, s') => if e.IsValueError then s' else s

/-- The stores after some requests, one after another. -/
def execAll (qs : List Request) (s : Store) : Store := qs.foldl (fun s q => q.exec s) s

/-- Every request of `qs`, from the stores `s` on, is made where `P` holds of it. -/
def Along (P : Store → Request → Prop) : List Request → Store → Prop
  | [], _ => True
  | q :: qs, s => P s q ∧ Along P qs (q.exec s)

/-- Runs can be evaluated, and what holds along them. -/
instance Along.decidable {P : Store → Request → Prop} [∀ s q, Decidable (P s q)] :
    ∀ (qs : List Request) (s : Store), Decidable (Along P qs s)
  | [], _ => .isTrue trivial
  | q :: qs, s =>
    have : Decidable (Along P qs (q.exec s)) := Along.decidable qs _
    inferInstanceAs (Decidable (P s q ∧ Along P qs (q.exec s)))

variable {P : Store → Request → Prop} {qs : List Request} {q : Request} {s : Store}

/-- Without requests, nothing changes. -/
@[simp] theorem execAll_nil : execAll [] s = s := rfl

/-- Some requests, and others after them. -/
theorem execAll_append (qs qs' : List Request) :
    execAll (qs ++ qs') s = execAll qs' (execAll qs s) :=
  List.foldl_append

/-- The last request comes last. -/
@[simp] theorem execAll_concat : execAll (qs ++ [q]) s = q.exec (execAll qs s) := by
  rw [execAll_append]
  rfl

/-- An abandoned transaction leaves the stores as they were. -/
theorem exec_abandoned (hq : q.mode = .abandoned) : q.exec s = s := by
  rw [Request.exec, hq]

/-- A request whose call has a specification ends as that says, or leaves the stores as they
    were. After an error, it does the former only where it is direct. -/
theorem Request.exec_cases {T : Unit → Store → Prop} {E : Error → Store → Prop}
    (h : (q.call.program q.fresh).wp backend T E s) :
    q.mode ≠ .abandoned ∧ T () (q.exec s) ∨
    q.mode = .direct ∧ (∃ e, e.IsValueError ∧ E e (q.exec s)) ∨
    q.exec s = s ∧
      (q.mode = .abandoned ∨ ∃ e s', E e s' ∧ (q.mode = .direct → ¬e.IsValueError)) := by
  obtain ⟨hok, herror⟩ := wp_iff_run.1 h
  obtain ⟨call, fresh, mode⟩ := q
  rw [Request.exec]
  -- The mode says what an error leaves: nothing in a transaction, what is flushed otherwise.
  cases hrun : (call.program fresh).run backend s with
  | mk result s' =>
    cases mode with
    | abandoned => exact .inr (.inr ⟨rfl, .inl rfl⟩)
    | transaction =>
      cases result with
      | ok => exact .inl ⟨fun h => Mode.noConfusion h, hok _ _ hrun⟩
      | error e =>
        exact .inr (.inr ⟨rfl, .inr ⟨e, s', herror _ _ hrun, fun h => Mode.noConfusion h⟩⟩)
    | direct =>
      cases result with
      | ok => exact .inl ⟨fun h => Mode.noConfusion h, hok _ _ hrun⟩
      | error e =>
        by_cases he : e.IsValueError
        · exact .inr (.inl ⟨rfl, e, he, by simpa [he] using herror _ _ hrun⟩)
        · exact .inr (.inr ⟨by simp [he], .inr ⟨e, s', herror _ _ hrun, fun _ => he⟩⟩)

/-- The second requests are made on what the first ones have left. -/
theorem along_append {qs' : List Request} :
    Along P (qs ++ qs') s ↔ Along P qs s ∧ Along P qs' (execAll qs s) := by
  induction qs generalizing s with
  | nil => simp [Along]
  | cons q qs ih =>
    rw [List.cons_append, Along, Along, ih, and_assoc]
    rfl

/-- What holds of the requests anywhere holds of them along a run. -/
theorem Along.of_forall (h : ∀ q ∈ qs, ∀ s, P s q) : Along P qs s := by
  induction qs generalizing s with
  | nil => trivial
  | cons q qs ih =>
    obtain ⟨hq, hqs⟩ := List.forall_mem_cons.1 h
    exact ⟨hq s, ih hqs⟩

/-- What every request that meets `P` preserves, holds after every run. -/
theorem Along.run {I : Store → Prop} (h : Along P qs s) (hinit : I s)
    (hstep : ∀ s q, P s q → I s → I (q.exec s)) : I (execAll qs s) := by
  induction qs generalizing s with
  | nil => exact hinit
  | cons q qs ih => exact ih h.2 (hstep s q h.1 hinit)

end OpenDataGov
