import OpenDataGov.Governance.Lifecycle
import OpenDataGov.Lib.History

/-!
# Finalizing a decision concurrently

Votes and vetoes on a decision as concurrent transactions. A finalization reads
the status of the decision, and updates the row later: nothing makes sure that the
status is still the same, as the lock of the row is taken by the update only.

The argument goes from single statements to runs of the database.

1. What a request sends is known without running it (`castVote_sends`,
   `exerciseVeto_sends`): whatever it updates of the decision has a final status.
2. On a store, such statements keep a status that is final (`decided_replay`), so that the
   decision is finalized for good by the first of them that is committed.
3. In a run, the lock of the row orders the updates. If each one finds the decision awaiting
   approval in the committed row (`FindsAwaiting`), there is none after the first one
   (`finalized_unique`, by the results on locks of `Lib.History`).

The results are `one_finalization`, that a decision is finalized once, and keeps its status, in
every run with this condition, and `Sales.two_finalizations`, a run without it, in which a
decision is rejected and vetoed. The transactions are those of PostgreSQL at its default, READ
COMMITTED; a request may also fail at any of its statements.
-/

namespace OpenDataGov

open Calendar Transact Transact.Config Program Keyed

/-- The decision that a statement updates. -/
def Query.updated : Query → Option UUID
  | .updateDecision id .. => some id
  | _ => none

/-- The status of a decision. -/
def Store.status (s : Store) (id : UUID) : Option DecisionStatus :=
  (s.decisions.get? id).map GovernanceDecision.status

/-! ## Statements -/

/-- The statements that a vote on the decision `id` may send. -/
def Query.OfVote (id : UUID) (vote : VoteValue) : Query → Prop
  | .insertVote r => r.decisionId = id ∧ r.vote = vote
  | .updateDecision _ status _ _ =>
    vote = .approve ∧ status = .approved ∨ vote = .reject ∧ status = .rejected
  | .getDecision _ | .selectVote .. | .selectVotes _ | .lastHash | .insertEvent _
  | .selectAssignment .. | .selectDomain _ => True
  | _ => False

/-- The statements that a veto on the decision `id` may send. -/
def Query.OfVeto (id : UUID) : Query → Prop
  | .insertVeto v => v.decisionId = id
  | .updateDecision _ status _ _ => status = .vetoed
  | .getDecision _ | .lastHash | .insertEvent _ | .selectAssignment .. => True
  | _ => False

section Sends

variable {P : Query → Prop} {α : Type} {msg : String}

/-- Looking at what has been found sends nothing. -/
theorem sends_found {x : Option α} : (found x msg).Sends P := by
  cases x <;> trivial

/-- Neither does a check, -/
theorem sends_require {p : Prop} {_ : Decidable p} : (require p msg).Sends P := by
  rw [require]
  split_ifs <;> trivial

/-- nor the validation of fields. -/
theorem sends_validate {name : String} {fields : Validated α} : (validate name fields).Sends P :=
  sends_ofExcept _

/-- Updating a decision: it is read again, and written. -/
theorem updateDecision_sends {d : GovernanceDecision} {now : DateTime}
    (hget : ∀ id, P (.getDecision id)) (hupdate : ∀ id t md, P (.updateDecision id d.status t md)) :
    (PgDecisionRepository.update d now).Sends P := by
  refine (sends_send (hget _)).bind fun row => ?_
  cases row with
  | none => trivial
  | some row => exact (sends_send (hupdate _ _ _)).bind fun _ => trivial

variable [Hashlib]

/-- Recording an event: the last hash is read, and the event inserted. -/
theorem recordEvent_sends {stamp : Stamp} {eventType : AuditEventType}
    {entityType entityId actorId description : String} {details : Option (Json.Dict Json.Scalar)}
    (hlast : P .lastHash) (hinsert : ∀ e, P (.insertEvent e)) :
    (AuditService.recordEvent stamp eventType entityType entityId actorId description
      details).Sends P :=
  (sends_send hlast).bind fun _ => sends_validate.bind fun _ =>
    (sends_send (hinsert _)).bind fun _ => trivial

/-- Finalizing a decision updates it to the status that it is given. -/
theorem finalize_sends {fresh : ℕ → Stamp} {id : UUID} {status : DecisionStatus} {u : String}
    (hget : ∀ id, P (.getDecision id)) (hupdate : ∀ id t md, P (.updateDecision id status t md))
    (hlast : P .lastHash) (hinsert : ∀ e, P (.insertEvent e)) :
    (DecisionService.finalize fresh id status u).Sends P := by
  refine (sends_send (hget _)).bind fun _ => sends_found.bind fun _ => sends_require.bind fun _ =>
    sends_found.bind fun _ => ?_
  refine Sends.bind (updateDecision_sends hget hupdate) fun _ => ?_
  exact (recordEvent_sends hlast hinsert).bind fun _ => trivial

/-- Counting the votes, and finalizing. The only status that is set here is `APPROVED`. -/
theorem checkAndFinalize_sends {fresh : ℕ → Stamp} {id : UUID} {domainId : String}
    (hdomain : ∀ domainId, P (.selectDomain domainId)) (hvotes : P (.selectVotes id))
    (hget : ∀ id, P (.getDecision id)) (hupdate : ∀ id t md, P (.updateDecision id .approved t md))
    (hlast : P .lastHash) (hinsert : ∀ e, P (.insertEvent e)) :
    (ApprovalService.checkAndFinalize fresh id domainId).Sends P := by
  refine (sends_send (hdomain _)).bind fun _ => ?_
  split_ifs
  · trivial
  · refine (sends_send hvotes).bind fun _ => ?_
    split_ifs
    · exact (finalize_sends hget hupdate hlast hinsert).bind fun _ => trivial
    · trivial

/-- A vote on a decision updates that decision only, and only to a final status. -/
theorem castVote_sends {fresh : ℕ → Stamp} {id : UUID} {u : String} {vote : VoteValue}
    {comment : String} :
    (ApprovalService.castVote fresh id u vote comment).Sends (Query.OfVote id vote) := by
  have hget : ∀ id', Query.OfVote id vote (.getDecision id') := fun _ => trivial
  have hinsert : ∀ e, Query.OfVote id vote (.insertEvent e) := fun _ => trivial
  -- The checks read, each at one statement; the vote itself is the first that writes.
  refine (sends_send trivial).bind fun _ => sends_found.bind fun _ => sends_require.bind fun _ =>
    (sends_send trivial).bind fun _ => sends_found.bind fun _ =>
    (sends_send trivial).bind fun _ => ?_
  refine Sends.bind sends_require fun _ => ?_
  refine Sends.bind sends_validate fun _ => ?_
  refine Sends.bind ((sends_send ?_).bind fun _ => trivial) fun _ => ?_
  · exact ⟨rfl, rfl⟩
  refine Sends.bind (recordEvent_sends trivial hinsert) fun _ => ?_
  cases vote with
  | reject =>
    exact (finalize_sends hget (fun _ _ _ => .inr ⟨rfl, rfl⟩) trivial hinsert).bind fun _ => trivial
  | approve =>
    exact (checkAndFinalize_sends (fun _ => trivial) trivial hget (fun _ _ _ => .inl ⟨rfl, rfl⟩)
      trivial hinsert).bind fun _ => trivial
  | abstain => trivial

/-- A veto is inserted as an active one, which nobody has overridden. -/
theorem exerciseVeto_sends_of {fresh : ℕ → Stamp} {id : UUID} {u reason : String}
    (hget : ∀ id, P (.getDecision id))
    (hassignment : ∀ userId domainId, P (.selectAssignment userId domainId))
    (hveto : ∀ v : VetoRecord, v.decisionId = id → v.status = .active → v.overriddenBy = none →
      v.overriddenAt = none → P (.insertVeto v))
    (hupdate : ∀ id t md, P (.updateDecision id .vetoed t md)) (hlast : P .lastHash)
    (hinsert : ∀ e, P (.insertEvent e)) :
    (VetoService.exerciseVeto fresh id u reason).Sends P := by
  refine (sends_send (hget _)).bind fun _ => sends_found.bind fun _ => sends_require.bind fun _ =>
    (sends_send (hassignment _ _)).bind fun _ => sends_found.bind fun _ =>
    sends_require.bind fun _ => ?_
  refine Sends.bind sends_validate fun _ => ?_
  refine Sends.bind ((sends_send ?_).bind fun _ => trivial) fun _ => ?_
  · exact hveto _ rfl rfl rfl rfl
  refine Sends.bind (finalize_sends hget hupdate hlast hinsert) fun _ => ?_
  exact (recordEvent_sends hlast hinsert).bind fun _ => trivial

/-- So does a veto. -/
theorem exerciseVeto_sends {fresh : ℕ → Stamp} {id : UUID} {u reason : String} :
    (VetoService.exerciseVeto fresh id u reason).Sends (Query.OfVeto id) :=
  exerciseVeto_sends_of (fun _ => trivial) (fun _ _ => trivial) (fun _ hid _ _ _ => hid)
    (fun _ _ _ => rfl) trivial fun _ => trivial

end Sends

/-! ## Statuses -/

/-- What a statement does to a decision, if anything, is finalizing it. -/
def Query.Final : Query → Prop
  | .updateDecision _ status _ _ => status ≠ .awaitingApproval
  | .insertDecision _ => False
  | _ => True

/-- The decision has been finalized. -/
def Store.Decided (s : Store) (id : UUID) : Prop :=
  ∃ status, s.status id = some status ∧ status ≠ .awaitingApproval

section Statuses

variable {s : Store} {id : UUID} {q : Query} {status : DecisionStatus}
  {log : List (Exchange Query.Answer)}

/-- Only an update of a decision changes its status. -/
theorem status_effect (hq : q.updated ≠ some id) (h : s.status id = some status) :
    (effect q s).status id = some status := by
  obtain ⟨d, hd, hstatus⟩ := Option.map_eq_some_iff.1 h
  cases q with
  | insertDecision d' =>
    exact Option.map_eq_some_iff.2 ⟨d, Table.get?_insert_of_get? hd, hstatus⟩
  | updateDecision id' =>
    have hne : id ≠ id' := fun e => hq (congrArg some e.symm)
    exact Option.map_eq_some_iff.2 ⟨d, (get?_updateDecision_of_ne hne).trans hd, hstatus⟩
  | _ => exact h

/-- An update to a final status leaves the decision decided. -/
theorem decided_effect (hq : q.updated = some id) (hfinal : q.Final)
    (h : s.status id = some status) : (effect q s).Decided id := by
  obtain ⟨d, hd, _⟩ := Option.map_eq_some_iff.1 h
  cases q with
  | updateDecision id' status' t md =>
    cases hq
    refine ⟨status', Option.map_eq_some_iff.2 ⟨d.set status' t md, ?_, rfl⟩, hfinal⟩
    rw [get?_updateDecision_self, hd, Option.map_some]
  | _ => cases hq

variable [Postgres]

/-- Statements that do not update a decision leave its status as it is. -/
theorem status_replay (hlog : ∀ x ∈ log, x.query.updated ≠ some id)
    (h : s.status id = some status) : (backend.replay log s).status id = some status :=
  Backend.replay_keeps (J := fun s' : Store => s'.status id = some status)
    (fun x hx _ => status_effect (hlog x hx)) h

/-- A log of statements whose updates are final leaves a decision decided, if it has been before, or
    if some statement of the log updates it. -/
theorem decided_replay (hfinal : ∀ x ∈ log, x.query.Final)
    (hs : s.Decided id ∨ (∃ status, s.status id = some status) ∧
      ∃ x ∈ log, x.query.updated = some id) : (backend.replay log s).Decided id := by
  induction log generalizing s with
  | nil => exact hs.resolve_right fun ⟨_, _, hx, _⟩ => absurd hx List.not_mem_nil
  | cons x log ih =>
    obtain ⟨hx, hfinal⟩ := List.forall_mem_cons.1 hfinal
    obtain ⟨status, hstatus⟩ : ∃ status, s.status id = some status :=
      hs.elim (fun ⟨status, h, _⟩ => ⟨status, h⟩) And.left
    refine ih hfinal ?_
    by_cases hup : x.query.updated = some id
    · exact .inl (decided_effect hup hx hstatus)
    · have hkeep := status_effect hup hstatus
      rcases hs with ⟨status', h, hne⟩ | ⟨_, y, hy, hyup⟩
      · exact .inl ⟨status', status_effect hup h, hne⟩
      · rcases List.mem_cons.1 hy with rfl | hy
        · exact absurd hyup hup
        · exact .inr ⟨⟨status, hkeep⟩, y, hy, hyup⟩

end Statuses

/-! ## Votes and vetoes on a decision -/

/-- A vote or a veto on the decision `id`. -/
def Call.On (id : UUID) : Call → Prop
  | .castVote decisionId _ _ _ => decisionId = id
  | .exerciseVeto decisionId _ _ => decisionId = id
  | _ => False

/-- Whatever the request on the decision is, its updates are final. -/
theorem Call.On.sends [Hashlib] {id : UUID} {call : Call} {fresh : ℕ → Stamp} (h : call.On id) :
    (call.program fresh).Sends Query.Final := by
  cases call with
  | castVote =>
    refine Sends.bind (castVote_sends.mono fun q hq => ?_) fun _ => trivial
    cases q with
    | updateDecision =>
      rcases hq with ⟨_, rfl⟩ | ⟨_, rfl⟩ <;> exact nofun
    | _ => trivial
  | exerciseVeto =>
    refine Sends.bind (exerciseVeto_sends.mono fun q hq => ?_) fun _ => trivial
    cases q with
    | updateDecision =>
      cases hq
      exact nofun
    | _ => trivial
  | _ => exact h.elim

/-- An update of a decision locks its row, -/
theorem mem_locks {q : Query} {id : UUID} (hq : q.updated = some id) :
    Lock.row .decisions id ∈ locks q := by
  cases q with
  | updateDecision =>
    cases hq
    exact List.mem_singleton_self _
  | _ => cases hq

/-- and of the statements in question nothing else does. -/
theorem updated_of_mem_locks {q : Query} {id : UUID} (hfinal : q.Final)
    (hl : Lock.row .decisions id ∈ locks q) : q.updated = some id := by
  cases q with
  | insertDecision => exact hfinal.elim
  | updateDecision => simpa [locks, Query.updated, eq_comm] using hl
  | _ => simp [locks] at hl

section Concurrent

variable {ι : Type}

/-- Concurrent calls, about to start. -/
def start [Hashlib] (s : Store) (calls : ι → Call) (fresh : ι → ℕ → Stamp) : Transactions ι :=
  .init s fun t => (calls t).program (fresh t)

/-- The transaction `t` has finalized the decision, and committed. -/
def Finalized (id : UUID) (c : Transactions ι) (t : ι) : Prop :=
  (c.txn t).phase = .committed ∧ ∃ x ∈ (c.txn t).log, x.query.updated = some id

/-- An update of the decision finds that it awaits approval in the committed row. -/
def FindsAwaiting (id : UUID) (c : Transactions ι) (m : Move ι Query) : Prop :=
  ∀ x ∈ m.sent, x.2.updated = some id → c.store.status id = some .awaitingApproval

instance {id : UUID} {c : Transactions ι} {m : Move ι Query} : Decidable (FindsAwaiting id c m) :=
  inferInstanceAs (Decidable (∀ x ∈ m.sent, x.2.updated = some id →
    c.store.status id = some .awaitingApproval))

variable [Hashlib] [Postgres] [DecidableEq ι] {s : Store} {id : UUID} {calls : ι → Call}
  {fresh : ι → ℕ → Stamp} {c c' : Transactions ι} {t t' : ι}

/-- As long as a transaction that has updated the decision runs, the decision awaits
    approval in the committed row: the others wait for the lock. -/
theorem status_of_updated (hcalls : ∀ t, (calls t).On id)
    (h : Runs backend (FindsAwaiting id) (start s calls fresh) c)
    (ht : (c.txn t).phase = .running) (hx : ∃ x ∈ (c.txn t).log, x.query.updated = some id) :
    c.store.status id = some .awaitingApproval := by
  obtain ⟨x, hx, hup⟩ := hx
  refine protected_of_runs h (F := fun s => s.status id = some .awaitingApproval)
    (l := .row .decisions id) (fun c t q k r hruns hP hrest _ hl => ?_) (fun q hq s hs => ?_) t
    ht ⟨x, hx, mem_locks hup⟩
  · -- The lock is taken by an update of the decision, which has found it awaiting approval.
    have hfinal : q.Final := (hrest ▸ (sends_of_runs hruns (hcalls t).sends).2).1
    exact hP _ rfl (updated_of_mem_locks hfinal hl)
  · exact status_effect (fun e => hq (mem_locks e)) hs

omit [Hashlib] in
/-- The finalizations committed are those that were, and one that is. -/
theorem finalized_step {m : Move ι Query} (h : Step backend c m c') : Finalized id c' t ↔
    Finalized id c t ∨ m = .commit t ∧ ∃ x ∈ (c.txn t).log, x.query.updated = some id := by
  constructor
  · rintro ⟨ht, hx⟩
    rw [h.log_of_committed ht] at hx
    exact (h.committed.1 ht).imp (fun ht => ⟨ht, hx⟩) fun hm => ⟨hm, hx⟩
  · intro hold
    have ht : (c'.txn t).phase = .committed := h.committed.2 (hold.imp And.left And.left)
    exact ⟨ht, (h.log_of_committed ht).symm ▸ hold.elim And.right And.right⟩

/-- The decision has been finalized in the committed row when a finalization has been
    committed. -/
theorem decided_iff_finalized {P : Transactions ι → Move ι Query → Prop}
    (hs : s.status id = some .awaitingApproval) (hcalls : ∀ t, (calls t).On id)
    (h : Runs backend P (start s calls fresh) c) :
    (∃ status, c.store.status id = some status) ∧
      (c.store.Decided id ↔ ∃ t, Finalized id c t) := by
  induction h with
  | refl =>
    refine ⟨⟨_, hs⟩, iff_of_false ?_ nofun⟩
    rintro ⟨status, h, hne⟩
    exact hne (Option.some.inj (h.symm.trans hs))
  | @tail c c' hruns hst ih =>
    obtain ⟨m, hst, _⟩ := hst
    obtain ⟨⟨status, hstatus⟩, hiff⟩ := ih
    simp only [finalized_step hst, exists_or, ← hiff]
    rcases hst.store with ⟨hm, hstore⟩ | ⟨t, rfl, _, hstore⟩
    · rw [hstore]
      exact ⟨⟨status, hstatus⟩, by simp [hm]⟩
    rw [hstore]
    -- What is committed is decided if it was, or if the log updates the decision.
    by_cases hup : ∃ x ∈ (c.txn t).log, x.query.updated = some id
    · have hdecided : (c.view backend t).Decided id :=
        decided_replay (sends_of_runs hruns (hcalls t).sends).1 (.inr ⟨⟨_, hstatus⟩, hup⟩)
      exact ⟨hdecided.imp fun _ h => h.1, iff_of_true hdecided (.inr ⟨t, rfl, hup⟩)⟩
    · have hkeep : (c.view backend t).status id = some status :=
        status_replay (fun x hx e => hup ⟨x, hx, e⟩) hstatus
      refine ⟨⟨status, hkeep⟩, ?_⟩
      rw [or_iff_left, Store.Decided, Store.Decided, hkeep, hstatus]
      rintro ⟨t', hm, hx⟩
      cases hm
      exact hup hx

/-- No two transactions finalize the decision. -/
theorem finalized_unique (hs : s.status id = some .awaitingApproval)
    (hcalls : ∀ t, (calls t).On id)
    (h : Runs backend (FindsAwaiting id) (start s calls fresh) c) :
    ∀ t t', Finalized id c t → Finalized id c t' → t = t' := by
  induction h with
  | refl => exact nofun
  | @tail c c' hruns hst ih =>
    obtain ⟨m, hst, _⟩ := hst
    -- A finalization is the first one to be committed: the decision still awaited approval.
    have hnone : ∀ t, m = .commit t ∧ (∃ x ∈ (c.txn t).log, x.query.updated = some id) →
        ∀ t', ¬Finalized id c t' := by
      rintro t ⟨rfl, hup⟩ t' ht'
      have ht : (c.txn t).phase = .running := by
        cases hst with
        | commit ht => exact ht
      obtain ⟨status, hstatus, hne⟩ := (decided_iff_finalized hs hcalls hruns).2.2 ⟨t', ht'⟩
      have hawait := status_of_updated hcalls hruns ht hup
      exact hne (Option.some.inj (hstatus.symm.trans hawait))
    intro t t' ht ht'
    rcases (finalized_step hst).1 ht with ht | ht <;>
      rcases (finalized_step hst).1 ht' with ht' | ht'
    · exact ih t t' ht ht'
    · exact absurd ht (hnone t' ht' t)
    · exact absurd ht' (hnone t ht t')
    · cases ht.1.symm.trans ht'.1
      rfl

/-- As long as every update of the decision finds that it awaits approval in the
    committed row, a single transaction that finalizes it commits, and the status stays
    what that one has made it. -/
theorem one_finalization (hs : s.status id = some .awaitingApproval)
    (hcalls : ∀ t, (calls t).On id)
    (h : Runs backend (FindsAwaiting id) (start s calls fresh) c)
    (h' : Runs backend (FindsAwaiting id) c c') :
    (∀ t t', Finalized id c t → Finalized id c t' → t = t') ∧
      ∀ status, status ≠ .awaitingApproval → c.store.status id = some status →
        c'.store.status id = some status := by
  refine ⟨finalized_unique hs hcalls h, fun status hne hstatus => ?_⟩
  induction h' with
  | refl => exact hstatus
  | tail hruns hst ih =>
    obtain ⟨m, hst, _⟩ := hst
    rcases hst.store with ⟨_, hstore⟩ | ⟨t, rfl, ht, hstore⟩
    · rw [hstore]
      exact ih
    · rw [hstore]
      refine status_replay (fun x hx hup => hne ?_) ih
      -- An update would have found the decision awaiting approval.
      have hawait := status_of_updated hcalls (h.trans hruns) ht ⟨x, hx, hup⟩
      exact Option.some.inj (ih.symm.trans hawait)

end Concurrent

/-! ### A vote against the decision and a veto on it -/

namespace Sales

attribute [local instance] Hashlib.standard Postgres.stable

/-- Bob and cleo are required to approve the decision. -/
def contested : Store :=
  execAll (requests (submitted [("bob", .responsible), ("cleo", .accountable)])) .empty

/-- Bob votes against the decision, and cleo vetoes it. -/
def objections : Bool → Call
  | false => .castVote decision "bob" .reject "no"
  | true => .exerciseVeto decision "cleo" "Incomplete"

/-- The identifiers and times of the two. -/
def stamps (t : Bool) : ℕ → Stamp := Sales.fresh (if t then 11 else 10)

/-- Both requests are on the decision. -/
theorem objections_on (t : Bool) : (objections t).On decision := by
  cases t <;> rfl

/-- Cleo begins, but bob is done before she comes to insert the veto. -/
def bobFirst : List (Transactions Bool × Move Bool Query) × Transactions Bool :=
  (start contested objections stamps).schedule backend
    (List.replicate 2 true ++ List.replicate 12 false)

/-- Cleo goes on, and fails. -/
def thenCleo : List (Transactions Bool × Move Bool Query) × Transactions Bool :=
  bobFirst.2.schedule backend (List.replicate 3 true)

theorem path_bobFirst : Path backend (start contested objections stamps) bobFirst.1 bobFirst.2 :=
  path_schedule ..

theorem path_thenCleo : Path backend bobFirst.2 thenCleo.1 thenCleo.2 :=
  path_schedule ..

/-- The decision awaits approval when the requests begin. -/
theorem awaiting_contested : contested.status decision = some .awaitingApproval := by
  decide +kernel

/-- The vote is committed before the veto looks at the decision, which is left as it is. -/
theorem rejected_once :
    (∀ t t', Finalized decision bobFirst.2 t → Finalized decision bobFirst.2 t' → t = t') ∧
      ∀ status, status ≠ .awaitingApproval → bobFirst.2.store.status decision = some status →
        thenCleo.2.store.status decision = some status :=
  one_finalization awaiting_contested objections_on (path_bobFirst.runs (by decide +kernel))
    (path_thenCleo.runs (by decide +kernel))

/-- Both have read that the decision awaits approval when bob goes on and is done. -/
def bobDone : List (Transactions Bool × Move Bool Query) × Transactions Bool :=
  (start contested objections stamps).schedule backend
    (List.replicate 7 false ++ List.replicate 4 true ++ List.replicate 5 false)

/-- Cleo goes on. -/
def bothDone : List (Transactions Bool × Move Bool Query) × Transactions Bool :=
  bobDone.2.schedule backend (List.replicate 7 true)

theorem path_bobDone : Path backend (start contested objections stamps) bobDone.1 bobDone.2 :=
  path_schedule ..

theorem path_bothDone : Path backend bobDone.2 bothDone.1 bothDone.2 :=
  path_schedule ..

/-- The decision is finalized twice: it is rejected, and then vetoed. -/
theorem two_finalizations : ¬∀ (s : Store) (id : UUID) (calls : Bool → Call)
    (fresh : Bool → ℕ → Stamp) (c c' : Transactions Bool),
    s.status id = some .awaitingApproval → (∀ t, (calls t).On id) →
    Runs backend (fun _ _ => True) (start s calls fresh) c →
    Runs backend (fun _ _ => True) c c' →
    (∀ t t', Finalized id c' t → Finalized id c' t' → t = t') ∧
      ∀ status, status ≠ .awaitingApproval → c.store.status id = some status →
        c'.store.status id = some status := by
  intro h
  obtain ⟨_, hstatus⟩ := h contested decision objections stamps bobDone.2 bothDone.2
    awaiting_contested objections_on (path_bobDone.runs fun _ _ => trivial)
    (path_bothDone.runs fun _ _ => trivial)
  have hrejected : bobDone.2.store.status decision = some .rejected := by decide +kernel
  have hvetoed : bothDone.2.store.status decision = some .vetoed := by decide +kernel
  have := hvetoed.symm.trans (hstatus .rejected (by decide) hrejected)
  exact absurd this (by decide)

end Sales

end OpenDataGov
