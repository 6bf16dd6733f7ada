import OpenDataGov.Governance.Quorum

/-!
# One vote for every user

Any votes as concurrent transactions. A vote looks for another one of its user on the
decision before it is inserted; no constraint of the table makes sure that there is
none when it is committed.

The reading of the votes and the insertion are two statements of one transaction, and at READ
COMMITTED the others may commit between them. A vote is overtaken if a vote of the same user on
the same decision has been committed since its transaction began (`ApprovalRecord.Overtaken`).
This is said of a step of the run and of the state before it, and what is proved is that the
votes in the store are one for each user, as long as no commit of a vote comes too late.

* `castVote_checks`: a vote that has been cast has found no other one;
* `oneVoteEach_of_unrivalled`: users have one vote on a decision, if no vote is
  committed that another one of its user on the decision has overtaken;
* `Sales.two_votes`: a user votes twice.
-/

namespace OpenDataGov

open Calendar Transact Transact.Config Program Keyed ApprovalService

/-- A request to vote. -/
structure VoteRequest where
  decisionId : UUID
  voterId : String
  vote : VoteValue
  comment : String

/-- The call that it makes. -/
def VoteRequest.call (r : VoteRequest) : Call :=
  .castVote r.decisionId r.voterId r.vote r.comment

/-- The vote that a statement inserts. -/
def Query.insertedVote : Query → Option ApprovalRecord
  | .insertVote r => some r
  | _ => none

/-- The statement inserts no vote. -/
def Query.NoVote (q : Query) : Prop := q.insertedVote = none

/-- No user has two votes on a decision. -/
def Store.OneVoteEach (s : Store) : Prop :=
  ∀ x ∈ s.approvals.rows, ∀ y ∈ s.approvals.rows, x.decisionId = y.decisionId →
    x.voterId = y.voterId → x = y

instance {s : Store} : Decidable s.OneVoteEach :=
  inferInstanceAs (Decidable (∀ x ∈ s.approvals.rows, ∀ y ∈ s.approvals.rows, _ → _ → x = y))

/-! ## The statements of a vote -/

section Checks

variable [Hashlib] {fresh : ℕ → Stamp} {id : UUID} {u comment : String} {vote : VoteValue}
  {log : List (Exchange Query.Answer)} {saved saved' : ApprovalRecord}

/-- What becomes of a decision after a vote inserts no other, and returns the vote. -/
theorem afterVote_completes {domainId : String}
    (h : (match vote with
      | .reject => do
        let _ ← DecisionService.finalize fresh id .rejected u
        return saved
      | .approve => do
        checkAndFinalize fresh id domainId
        return saved
      | .abstain => return saved : Prog ApprovalRecord).Completes log saved') :
    saved = saved' ∧ ∀ e ∈ log, e.query.NoVote := by
  cases vote with
  | reject =>
    obtain ⟨_, _, _, rfl, hfinal, hpure⟩ := completes_bind.1 h
    obtain ⟨rfl, rfl⟩ := completes_pure.1 hpure
    rw [List.append_nil]
    exact ⟨rfl, hfinal.sends (finalize_sends (fun _ => rfl) (fun _ _ _ => rfl) rfl fun _ => rfl)⟩
  | approve =>
    obtain ⟨_, _, _, rfl, hcheck, hpure⟩ := completes_bind.1 h
    obtain ⟨rfl, rfl⟩ := completes_pure.1 hpure
    rw [List.append_nil]
    exact ⟨rfl, hcheck.sends (checkAndFinalize_sends (fun _ => rfl) rfl (fun _ => rfl)
      (fun _ _ _ => rfl) rfl fun _ => rfl)⟩
  | abstain =>
    obtain ⟨rfl, rfl⟩ := completes_pure.1 h
    exact ⟨rfl, fun _ he => absurd he List.not_mem_nil⟩

/-- A vote that has been cast is the only one inserted, and has found no other one of its
    user on the decision. -/
theorem castVote_checks (h : (castVote fresh id u vote comment).Completes log saved) :
    saved.decisionId = id ∧ saved.voterId.text = u ∧
      (⟨.selectVote id u, none⟩ : Exchange Query.Answer) ∈ log ∧
      (⟨.insertVote saved, ()⟩ : Exchange Query.Answer) ∈ log ∧
      ∀ e ∈ log, ∀ x ∈ e.query.insertedVote, x = saved := by
  obtain ⟨d, assignment, r, mid, post, rfl, ⟨hid, hu, _⟩, ⟨_, _, _, hrecord⟩, hafter⟩ :=
    castVote_exchanges h
  obtain ⟨rfl, hpost⟩ := afterVote_completes hafter
  have hmid : ∀ e ∈ mid, e.query.NoVote :=
    hrecord.sends (recordEvent_sends rfl fun _ => rfl)
  refine ⟨hid, hu, by simp, ?_, fun e he x hx => ?_⟩
  · exact List.mem_append_right [_, _, _] List.mem_cons_self
  simp only [List.mem_cons, List.mem_append] at he
  rcases he with rfl | rfl | rfl | rfl | he | he
  · cases hx
  · cases hx
  · cases hx
  · exact (Option.some.inj hx).symm
  · exact absurd (hx.symm.trans (hmid e he)) (Option.some_ne_none x)
  · exact absurd (hx.symm.trans (hpost e he)) (Option.some_ne_none x)

end Checks

/-! ## Concurrent votes -/

section Concurrent

variable {ι : Type}

/-- Another vote of the user on the decision is in the store `s`, and was not in `b`. -/
def ApprovalRecord.Overtaken (x : ApprovalRecord) (b s : Store) : Prop :=
  ∃ y ∈ s.approvals.rows, y ∉ b.approvals.rows ∧ y.decisionId = x.decisionId ∧
    y.voterId = x.voterId

instance {x : ApprovalRecord} {b s : Store} : Decidable (x.Overtaken b s) :=
  inferInstanceAs (Decidable (∃ y ∈ s.approvals.rows, _))

/-- A vote is committed only if no other one of its user on the decision has been since its
    transaction began. -/
def Unrivalled (c : Transactions ι) (m : Move ι Query) : Prop :=
  ∀ t ∈ m.committing, ∀ b ∈ (c.txn t).base, ∀ e ∈ (c.txn t).log, ∀ x ∈ e.query.insertedVote,
    ¬x.Overtaken b c.store

instance {c : Transactions ι} {m : Move ι Query} : Decidable (Unrivalled c m) :=
  inferInstanceAs (Decidable (∀ t ∈ m.committing, ∀ b ∈ (c.txn t).base, ∀ e ∈ (c.txn t).log,
    ∀ x ∈ e.query.insertedVote, ¬x.Overtaken b c.store))

variable [Hashlib] [Postgres] [DecidableEq ι] {s : Store} {requests : ι → VoteRequest}
  {fresh : ι → ℕ → Stamp} {c : Transactions ι} {t : ι}
  {P : Transactions ι → Move ι Query → Prop}

/-- What a transaction has not found was not there when it began. -/
theorem base_of_selectVote (h : Runs backend P (start s (fun t => (requests t).call) fresh) c)
    {id : UUID} {u : String}
    (hnone : (⟨.selectVote id u, none⟩ : Exchange Query.Answer) ∈ (c.txn t).log) :
    ∃ b, (c.txn t).base = some b ∧
      ∀ y ∈ b.approvals.rows, y.decisionId = id → y.voterId.text ≠ u := by
  obtain ⟨_, hlog⟩ := answered_since_base h
    (J := fun s s' : Store => ∀ y ∈ s.approvals.rows, y ∈ s'.approvals.rows)
    (fun _ _ hy => hy) (fun _ _ _ h h' y hy => h' y (h y hy))
    (fun _ _ _ hy => mem_approvals_effect hy) t
  obtain ⟨b, s', hb, hsub, ha⟩ := hlog _ hnone
  exact ⟨b, hb, fun y hy => not_mem_of_selectVote ha y (hsub y hy)⟩

/-- Committing a vote without a rival leaves one vote for every user. -/
theorem oneVoteEach_view (h : Runs backend P (start s (fun t => (requests t).call) fresh) c)
    (hs : c.store.OneVoteEach) (hrest : (c.txn t).rest = .pure ())
    (hfree : Unrivalled c (.commit t)) : (c.view backend t).OneVoteEach := by
  have hcompletes := follows_of_runs h t
  rw [hrest] at hcompletes
  obtain ⟨x, log, _, hlog, hcast, hpure⟩ := completes_bind.1 hcompletes
  obtain ⟨rfl, _⟩ := completes_pure.1 hpure
  rw [List.append_nil] at hlog
  obtain ⟨hxid, hxu, hnone, hinsert, honly⟩ := castVote_checks hcast
  rw [← hlog] at hnone hinsert honly
  obtain ⟨b, hb, hbase⟩ := base_of_selectVote h hnone
  -- What is seen at the end are the votes committed, none of which rivals it, and its own.
  have hview : ∀ y ∈ (c.view backend t).approvals.rows, y ∈ c.store.approvals.rows ∧
      ¬(y.decisionId = x.decisionId ∧ y.voterId = x.voterId) ∨ y = x := by
    intro y hy
    rcases mem_of_mem_approvals_replay hy with hy | ⟨e, he, hey⟩
    · refine .inl ⟨hy, fun ⟨hyid, hyu⟩ => ?_⟩
      by_cases hyb : y ∈ b.approvals.rows
      · exact hbase y hyb (hyid.trans hxid) ((congrArg Bounded.text hyu).trans hxu)
      · exact hfree t rfl b hb _ hinsert x rfl ⟨y, hy, hyb, hyid, hyu⟩
    · exact .inr (honly e he y (by rw [hey]; rfl))
  intro y hy z hz hid hvoter
  rcases hview y hy with ⟨hy, hyx⟩ | rfl <;> rcases hview z hz with ⟨hz, hzx⟩ | rfl
  · exact hs y hy z hz hid hvoter
  · exact absurd ⟨hid, hvoter⟩ hyx
  · exact absurd ⟨hid.symm, hvoter.symm⟩ hzx
  · rfl

omit [Hashlib] in
/-- `get_vote` finds at most one vote where users have one each. -/
theorem exists_answer_selectVote (h : s.OneVoteEach) (id : UUID) (u : String) :
    ∃ x, answer (.selectVote id u) s = .ok x := by
  refine scalarOneOrNone_of_subsingleton ((List.Nodup.of_map _ s.approvals.nodup).filter _)
    fun x hx y hy => ?_
  simp only [List.mem_filter, decide_eq_true_eq] at hx hy
  exact h x hx.1 y hy.1 (hx.2.1.trans hy.2.1.symm)
    (Bounded.text_injective (hx.2.2.trans hy.2.2.symm))

/-- As long as no vote is committed that another one of its user on the decision has
    overtaken, users have one vote on a decision, and no more is found of theirs. -/
theorem oneVoteEach_of_unrivalled (hs : s.OneVoteEach)
    (h : Runs backend Unrivalled (start s (fun t => (requests t).call) fresh) c) :
    c.store.OneVoteEach ∧ ∀ id u, ∃ x, answer (.selectVote id u) c.store = .ok x := by
  have hone : c.store.OneVoteEach := by
    induction h with
    | refl => exact hs
    | tail hruns hst ih =>
      obtain ⟨m, hst, hfree⟩ := hst
      cases hst with
      | send => exact ih
      | commit _ hrest => exact oneVoteEach_view hruns ih hrest hfree
      | rollback => exact ih
  exact ⟨hone, exists_answer_selectVote hone⟩

end Concurrent

/-! ### Two votes of bob -/

namespace Sales

attribute [local instance] Hashlib.standard Postgres.stable

/-- Bob votes in favour of the decision, and abstains. -/
def bobTwice (t : Bool) : VoteRequest := ⟨decision, "bob", if t then .abstain else .approve, ""⟩

/-- The two requests of bob, neither of them begun. -/
def bobVoting : Transactions Bool := start contested (fun t => (bobTwice t).call) stamps

/-- Bob abstains once he has voted in favour. -/
def oneAfterTheOther := bobVoting.schedule backend (List.replicate 12 false ++
  List.replicate 12 true)

/-- One after the other, the second one finds the first. -/
theorem oneVoteEach_bob : oneAfterTheOther.2.store.OneVoteEach :=
  (oneVoteEach_of_unrivalled (by decide +kernel)
    ((path_schedule backend bobVoting _).runs (by decide +kernel))).1

/-- Neither vote has been inserted when the other looks for it. -/
def bothAtOnce := bobVoting.schedule backend (List.replicate 3 false ++ List.replicate 3 true ++
  List.replicate 9 false ++ List.replicate 9 true)

/-- Bob has two votes. -/
theorem two_votes : ¬∀ (s : Store) (requests : Bool → VoteRequest) (fresh : Bool → ℕ → Stamp)
    (c : Transactions Bool), s.OneVoteEach →
    Runs backend (fun _ _ => True) (start s (fun t => (requests t).call) fresh) c →
    c.store.OneVoteEach := by
  intro h
  have hone := h contested bobTwice stamps bothAtOnce.2 (by decide +kernel)
    ((path_schedule backend bobVoting _).runs fun _ _ => trivial)
  have htwo : ¬bothAtOnce.2.store.OneVoteEach := by decide +kernel
  exact htwo hone

end Sales

end OpenDataGov
