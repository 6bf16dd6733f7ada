import OpenDataGov.Governance.Records

/-!
# Operations that fail

The operations with the arguments that the routes let through, on repositories without
transactions: what an operation has written stays, also when it raises later on.

An operation checks what it can before it writes anything, but records its event last, and the
event is validated only then. With arguments that events can have, this cannot fail. There is one
operation with an argument of which no route checks the length: the user who revokes a role. The
assignment is deleted by then.

* `wp_finalize_unchanged`: the finalization of a decision checks all before it writes;
* `leavesNoTrace_iff`: an operation that raises a `ValueError` leaves everything as it was,
  unless it revokes a role in a name that no event can have;
* `noTraces_iff`: so it is in all runs;
* `Sales.not_noTraces`: a role is revoked, and the revocation fails.

Errors of the database are not looked at: they are no refusals, and a transaction that meets one
is rolled back.
-/

namespace OpenDataGov

open Transact Program Keyed

/-- An operation with arguments that the routes let through. The user who revokes a role is a
    parameter of the query, of any length; the others are in the bodies. -/
inductive Operation
  | createDecision (decisionType : DecisionType) (title : Bounded 1 500) (description : String)
      (domainId : Bounded 1 100) (createdBy : Bounded 1 200)
      (promotion : Option PromotionMetadata) (metadata : Option (Json.Dict Json.Scalar))
  | submitForApproval (decisionId : UUID) (actorId : Bounded 1 200)
  | finalize (decisionId : UUID) (status : DecisionStatus) (actorId : Bounded 1 200)
  | castVote (decisionId : UUID) (voterId : Bounded 1 200) (vote : VoteValue) (comment : String)
  | exerciseVeto (decisionId : UUID) (vetoedBy : Bounded 1 200)
      (reason : { s : String // 1 ≤ s.length })
  | overrideVeto (vetoId : UUID) (overriddenBy : Bounded 1 200)
  | assignRole (userId : Bounded 1 200) (domainId : Bounded 1 100) (role : RACIRole)
      (assignedBy : Bounded 1 200)
  | revokeRole (assignmentId : UUID) (revokedBy : String)

section Operations

variable [Hashlib]

/-- The program of an operation, with the identifiers and times it is given. -/
def Operation.program (fresh : ℕ → Stamp) : Operation → Prog Unit
  | .createDecision decisionType title description domainId createdBy promotion metadata =>
    (Call.createDecision decisionType title.text description domainId.text createdBy.text
      promotion metadata).program fresh
  | .submitForApproval decisionId actorId =>
    (Call.submitForApproval decisionId actorId.text).program fresh
  | .finalize decisionId status actorId => do
    let _ ← DecisionService.finalize fresh decisionId status actorId.text
  | .castVote decisionId voterId vote comment =>
    (Call.castVote decisionId voterId.text vote comment).program fresh
  | .exerciseVeto decisionId vetoedBy reason =>
    (Call.exerciseVeto decisionId vetoedBy.text reason.1).program fresh
  | .overrideVeto vetoId overriddenBy =>
    (Call.overrideVeto vetoId overriddenBy.text).program fresh
  | .assignRole userId domainId role assignedBy =>
    (Call.assignRole userId.text domainId.text role assignedBy.text).program fresh
  | .revokeRole assignmentId revokedBy =>
    (Call.revokeRole assignmentId revokedBy).program fresh

/-- An operation that is carried out. -/
structure Step where
  operation : Operation
  fresh : ℕ → Stamp

variable [Postgres]

/-- The stores after an operation on them: whatever it has written stays. -/
def Step.exec (q : Step) (s : Store) : Store :=
  ((q.operation.program q.fresh).run backend s).2

/-- The stores after some operations, one after another. -/
def carryOut (qs : List Step) (s : Store) : Store := qs.foldl (fun s q => q.exec s) s

/-- If the operation raises a `ValueError`, the stores are those before. -/
def LeavesNoTrace (s : Store) (q : Step) : Prop :=
  ∀ e s', (q.operation.program q.fresh).run backend s = (.error e, s') → e.IsValueError → s' = s

omit [Hashlib] [Postgres] in
/-- The operation revokes an assignment that there is, in a name that no event can have. -/
def Operation.Unsigned (s : Store) (o : Operation) : Prop :=
  ∃ a revokedBy, o = .revokeRole a.id revokedBy ∧ s.assignments.get? a.id = some a ∧
    ¬(1 ≤ revokedBy.length ∧ revokedBy.length ≤ 200)

variable {s s' : Store} {fresh : ℕ → Stamp} {q : Step} {e : Error}

/-- The finalization of a decision, by itself, checks all that it checks before it writes. -/
theorem wp_finalize_unchanged {decisionId : UUID} {status : DecisionStatus}
    (actorId : Bounded 1 200) :
    (DecisionService.finalize fresh decisionId status actorId.text).wp backend (fun _ _ => True)
      (fun e s' => e.IsValueError → s' = s) s := by
  refine wp_execute (fun a ha => ?_) fun e he he' => absurd he' he
  refine wp_found (fun d hd => ?_) fun _ => rfl
  have hrow : s.decisions.get? decisionId = some d := hd ▸ Except.ok.inj ha
  obtain rfl : d.id = decisionId := Table.key_of_get? hrow
  refine wp_require (fun _ => ?_) fun _ => rfl
  refine wp_found (fun eventType _ => ?_) fun _ => rfl
  refine wp_bind_of (wp_updateDecision (d := { d with status := status }) hrow) ?_
    fun _ _ he => he.elim
  rintro _ s₁ -
  exact wp_bind_of wp_recordEvent (fun _ _ _ => wp_pure.2 trivial) fun e _ h he =>
    absurd (recordable_decision _ actorId) (h.2.1 he)

/-- A call whose users events can name leaves nothing when it raises a `ValueError`. -/
theorem eq_of_admitted {c : Call} (hrun : (c.program fresh).run backend s = (.error e, s'))
    (he : e.IsValueError) (hc : c.Admitted) : s' = s :=
  ((wp_iff_run.1 (c.carries s fresh)).2 e s' hrun he).resolve_right fun h => h.1 hc

/-- The revocation of an assignment leaves nothing when it raises a `ValueError`, unless the
    assignment is there and the name cannot be recorded. -/
theorem eq_of_revokeRole {id : UUID} {revokedBy : String}
    (hsigned : ¬(Operation.revokeRole id revokedBy).Unsigned s)
    (hrun : ((Call.revokeRole id revokedBy).program fresh).run backend s = (.error e, s'))
    (he : e.IsValueError) : s' = s := by
  refine ((wp_iff_run.1 (Call.carries s fresh _)).2 e s' hrun he).resolve_right ?_
  rintro ⟨hnot, r, w, w', hdeed, -⟩
  refine hsigned ?_
  generalize hc : Call.revokeRole id revokedBy = c, w ++ w' = entries at hdeed hnot
  cases hdeed with
  | @revoked a revokedBy' ha =>
    obtain ⟨rfl, rfl⟩ := Call.revokeRole.inj hc
    exact ⟨a, revokedBy, rfl, ha, fun hbounds => hnot (List.forall_mem_singleton.2 hbounds)⟩
  | _ => cases hc

/-- An operation leaves everything as it was when it raises a `ValueError`, exactly if it
    does not revoke an assignment in a name that no event can have. -/
theorem leavesNoTrace_iff : LeavesNoTrace s q ↔ ¬q.operation.Unsigned s := by
  obtain ⟨o, fresh⟩ := q
  constructor
  · rintro h ⟨a, revokedBy, rfl, ha, hnot⟩
    -- The assignment is deleted, and then the event is refused.
    have hspec : (RoleService.revokeRole fresh a.id revokedBy).wp backend (fun _ _ => False)
        (fun e s' => e.IsValueError ∧ s' = effect (.deleteAssignment a.id) s) s :=
      wp_revokeRole_unsigned ha hnot
    obtain ⟨hok, herror⟩ := wp_iff_run.1 hspec
    cases hrun : (RoleService.revokeRole fresh a.id revokedBy).run backend s with
    | mk result s' =>
      cases result with
      | ok u => exact hok u s' hrun
      | error e =>
        obtain ⟨hvalue, hs'⟩ := herror e s' hrun
        have hsame := h e s' hrun hvalue
        rw [hs'] at hsame
        have hgone : (effect (.deleteAssignment a.id) s).assignments.get? a.id = none :=
          Table.get?_erase_self
        rw [hsame, ha] at hgone
        exact Option.some_ne_none a hgone
  · have hname : ∀ u : Bounded 1 200, ∀ v ∈ [u.text], 1 ≤ v.length ∧ v.length ≤ 200 :=
      fun u v hv => List.mem_singleton.1 hv ▸ u.bounds
    intro hsigned e s' hrun he
    cases o with
    | createDecision _ _ _ _ createdBy =>
      rw [Operation.program] at hrun
      exact eq_of_admitted hrun he (hname createdBy)
    | submitForApproval _ actorId =>
      rw [Operation.program] at hrun
      exact eq_of_admitted hrun he (hname actorId)
    | finalize id status actorId =>
      have hspec : (Operation.program fresh (.finalize id status actorId)).wp backend
          (fun _ _ => True) (fun e s' => e.IsValueError → s' = s) s :=
        wp_bind_of (wp_finalize_unchanged actorId) (fun _ _ _ => wp_pure.2 trivial) fun _ _ h => h
      exact (wp_iff_run.1 hspec).2 e s' hrun he
    | castVote _ voterId =>
      rw [Operation.program] at hrun
      exact eq_of_admitted hrun he (hname voterId)
    | exerciseVeto _ vetoedBy =>
      rw [Operation.program] at hrun
      exact eq_of_admitted hrun he (hname vetoedBy)
    | overrideVeto _ overriddenBy =>
      rw [Operation.program] at hrun
      exact eq_of_admitted hrun he (hname overriddenBy)
    | assignRole userId _ _ assignedBy =>
      rw [Operation.program] at hrun
      exact eq_of_admitted hrun he (List.forall_mem_append.2 ⟨hname userId, hname assignedBy⟩)
    | revokeRole id revokedBy =>
      rw [Operation.program] at hrun
      exact eq_of_revokeRole hsigned hrun he

/-- In a run of operations, every one that raises a `ValueError` leaves everything as it was,
    exactly if none of them revokes an assignment in a name that no event can have. -/
theorem noTraces_iff (qs : List Step) :
    (∀ qs₁ q qs₂, qs = qs₁ ++ q :: qs₂ → LeavesNoTrace (carryOut qs₁ .empty) q) ↔
      ∀ qs₁ q qs₂, qs = qs₁ ++ q :: qs₂ → ¬q.operation.Unsigned (carryOut qs₁ .empty) := by
  simp only [leavesNoTrace_iff]

end Operations

namespace Sales

attribute [local instance] Hashlib.standard Postgres.stable

theorem bounds_bob : 1 ≤ "bob".length ∧ "bob".length ≤ 200 := by decide

theorem bounds_sales : 1 ≤ "sales".length ∧ "sales".length ≤ 100 := by decide

theorem bounds_ann : 1 ≤ "ann".length ∧ "ann".length ≤ 200 := by decide

/-- Ann assigns a role to bob. -/
def assignment : Step :=
  ⟨.assignRole ⟨"bob", bounds_bob⟩ ⟨"sales", bounds_sales⟩ .responsible ⟨"ann", bounds_ann⟩,
    fresh 0⟩

/-- It is revoked in no name. -/
def revocation : Step := ⟨.revokeRole (fresh 0 0).id "", fresh 1⟩

/-- The role is revoked, although the revocation fails. -/
theorem not_noTraces : ¬∀ qs : List Step,
    ∀ qs₁ q qs₂, qs = qs₁ ++ q :: qs₂ → LeavesNoTrace (carryOut qs₁ .empty) q := by
  intro h
  have hsome : ((carryOut [assignment] .empty).assignments.get? (fresh 0 0).id).isSome = true := by
    decide +kernel
  obtain ⟨a, ha⟩ := Option.isSome_iff_exists.1 hsome
  have hid : a.id = (fresh 0 0).id := Table.key_of_get? ha
  refine leavesNoTrace_iff.1 (h [assignment, revocation] [assignment] revocation [] rfl) ?_
  exact ⟨a, "", by rw [hid]; rfl, hid ▸ ha, by decide⟩

end Sales

end OpenDataGov
