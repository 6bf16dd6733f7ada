import OpenDataGov.Governance.Finalization

/-!
# The last vote

Votes in favour of a decision as concurrent transactions, one of every user who is
required to approve it. A vote counts the votes committed and itself: the decision is
approved if some vote sees all of them.

What a vote has sent when it is committed is a list of statements with their answers, and by
its program it is of one form only (`VoteLog`): the insertion of the vote comes before the
reading of the votes, and the update of the decision after it, if all of the required users are
among the votes read. The run says what these are. At READ COMMITTED a statement is answered by
the committed store and by what its own transaction has changed, so that the votes that `t`
reads are its own and those of the transactions committed by then (`mem_votes_iff`).

* `castVote_completes`: the statements of a vote in favour that has been cast;
* `approved_iff_counted`: once all the votes are committed, the decision is approved
  exactly when one of them counted the votes after all the others were committed;
* `Sales.approved_by_nobody`: two votes that do not see each other.

No vote waits for another one before it counts: the rows are inserted with different keys, and
the lock of the decision is taken by the update only, which comes too late for that.
-/

namespace OpenDataGov

open Calendar Transact Transact.Config Program Keyed ApprovalService

/-! ## The statements of a vote -/

/-- A statement that neither inserts nor counts votes, nor updates decisions. -/
def Query.Quiet : Query → Prop
  | .insertVote _ | .selectVotes _ | .updateDecision .. => False
  | _ => True

/-- A statement that neither inserts nor counts votes. -/
def Query.VoteFree : Query → Prop
  | .insertVote _ | .selectVotes _ => False
  | _ => True

section Completes

variable {α β : Type} {msg : String} {log : List (Exchange Query.Answer)} {b : β}

/-- What is known of a program that has completed, given what it begins with: a statement, -/
theorem completes_execute {q : Query} {f : q.Answer → Prog β} :
    (execute q >>= f).Completes log b ↔ ∃ r log', log = ⟨q, r⟩ :: log' ∧ (f r).Completes log' b :=
  completes_query

/-- something that has been found, -/
theorem completes_found {x : Option α} {f : α → Prog β} :
    (found x msg >>= f).Completes log b ↔ ∃ a, x = some a ∧ (f a).Completes log b := by
  cases x <;> simp [found]

/-- a check, -/
theorem completes_require {p : Prop} {_ : Decidable p} {f : Unit → Prog β} :
    (require p msg >>= f).Completes log b ↔ p ∧ (f ()).Completes log b := by
  rw [require]
  split_ifs with hp <;> simp [hp]

/-- or a validation. -/
theorem completes_validate {name : String} {fields : Validated α} {f : α → Prog β} :
    (validate name fields >>= f).Completes log b ↔ ∃ a, fields = .ok a ∧ (f a).Completes log b := by
  cases fields <;> simp [validate, Validated.model, Program.ofExcept]

/-- Setting the status of a decision updates the row of its id. -/
theorem update_completes {d d' : GovernanceDecision} {now : DateTime}
    (h : (PgDecisionRepository.update d now).Completes log d') :
    ∃ (row : GovernanceDecision) (t : DateTime),
      log = [⟨.getDecision d.id, some row⟩,
        ⟨.updateDecision row.id d.status t d.metadata, ()⟩] := by
  obtain ⟨row?, _, rfl, h₁⟩ := completes_execute.1 h
  cases row? with
  | none => exact (completes_raise h₁).elim
  | some row =>
    obtain ⟨_, _, rfl, h₂⟩ := completes_execute.1 h₁
    obtain ⟨rfl, _⟩ := completes_pure.1 h₂
    exact ⟨row, _, rfl⟩

variable [Hashlib] {fresh : ℕ → Stamp} {id : UUID} {domainId comment : String}

/-- Finalizing a decision updates the row of the decision read. -/
theorem finalize_completes {status : DecisionStatus} {actorId : String} {d : GovernanceDecision}
    (h : (DecisionService.finalize fresh id status actorId).Completes log d) :
    ∃ (d' row : GovernanceDecision) (t : DateTime) (log' : List (Exchange Query.Answer)),
      log = ⟨.getDecision id, some d'⟩ :: ⟨.getDecision d'.id, some row⟩ ::
        ⟨.updateDecision row.id status t d'.metadata, ()⟩ :: log' := by
  obtain ⟨_, _, rfl, h₁⟩ := completes_execute.1 h
  obtain ⟨d', rfl, h₂⟩ := completes_found.1 h₁
  obtain ⟨_, h₃⟩ := completes_require.1 h₂
  obtain ⟨_, _, h₄⟩ := completes_found.1 h₃
  obtain ⟨_, _, log', rfl, hupdate, _⟩ := completes_bind.1 h₄
  obtain ⟨row, t, rfl⟩ := update_completes hupdate
  exact ⟨d', row, t, log', rfl⟩

/-- The votes are counted if anybody is required to approve, and the decision is
    finalized if all of them have. -/
theorem checkAndFinalize_completes (h : (checkAndFinalize fresh id domainId).Completes log ()) :
    ∃ (assignments : List RACIAssignment) (log' : List (Exchange Query.Answer)),
      log = ⟨.selectDomain domainId, assignments⟩ :: log' ∧
      (requiredVoters assignments ≠ [] → ∃ (votes : List ApprovalRecord)
        (log'' : List (Exchange Query.Answer)), log' = ⟨.selectVotes id, votes⟩ :: log'' ∧
        if ∀ u ∈ requiredVoters assignments, u ∈ approvedVoters votes then
          ∃ d, (DecisionService.finalize fresh id .approved "system").Completes log'' d
        else log'' = []) := by
  obtain ⟨assignments, log', rfl, h₁⟩ := completes_execute.1 h
  refine ⟨assignments, log', rfl, fun hne => ?_⟩
  rw [if_neg hne] at h₁
  obtain ⟨votes, log'', rfl, h₂⟩ := completes_execute.1 h₁
  refine ⟨votes, log'', rfl, ?_⟩
  split_ifs at h₂ ⊢ with hall
  · obtain ⟨d, _, _, rfl, h₃, hpure⟩ := completes_bind.1 h₂
    obtain ⟨rfl, _⟩ := completes_pure.1 hpure
    exact ⟨d, by simpa using h₃⟩
  · exact (completes_pure.1 h₂).1

/-- A vote is inserted after three statements that read, and recorded; then comes what
    becomes of the decision. -/
theorem castVote_exchanges {u : String} {vote : VoteValue} {saved : ApprovalRecord} :
    (castVote fresh id u vote comment).Completes log saved →
    ∃ (d : GovernanceDecision) (a : RACIAssignment) (r : ApprovalRecord)
      (mid post : List (Exchange Query.Answer)),
      log = ⟨.getDecision id, some d⟩ :: ⟨.selectAssignment u d.domainId.text, some a⟩ ::
        ⟨.selectVote id u, none⟩ :: ⟨.insertVote r, ()⟩ :: (mid ++ post) ∧
      (r.decisionId = id ∧ r.voterId.text = u ∧ r.vote = vote) ∧
      (∃ description details e, (AuditService.recordEvent (fresh 1) .approvalCast "decision"
        id.str u description details).Completes mid e) ∧
      (match vote with
        | .reject => do
          let _ ← DecisionService.finalize (fun n => fresh (n + 2)) id .rejected u
          return r
        | .approve => do
          checkAndFinalize (fun n => fresh (n + 2)) id d.domainId.text
          return r
        | .abstain => return r : Prog ApprovalRecord).Completes post saved := by
  -- Each statement of a vote that completes has been answered, and each check has passed.
  intro h
  obtain ⟨_, _, rfl, h₁⟩ := completes_execute.1 h
  obtain ⟨d, rfl, h₂⟩ := completes_found.1 h₁
  obtain ⟨_, h₃⟩ := completes_require.1 h₂
  obtain ⟨_, _, rfl, h₄⟩ := completes_execute.1 h₃
  obtain ⟨assignment, rfl, h₅⟩ := completes_found.1 h₄
  obtain ⟨existing, _, rfl, h₆⟩ := completes_execute.1 h₅
  obtain ⟨rfl, h₇⟩ := completes_require.1 h₆
  obtain ⟨u', hu', h₈⟩ := completes_validate.1 h₇
  obtain ⟨_, _, rfl, h₉⟩ := completes_execute.1 h₈
  obtain ⟨_, mid, post, rfl, hrecord, h₁₀⟩ := completes_bind.1 h₉
  exact ⟨d, assignment, _, mid, post, rfl, ⟨rfl, Validated.bounded_eq_ok.1 hu', rfl⟩,
    ⟨_, _, _, hrecord⟩, h₁₀⟩

/-- A vote in favour is inserted before the votes are counted. -/
theorem castVote_completes {u : Bounded 1 200} {saved : ApprovalRecord}
    (h : (castVote fresh id u.text .approve comment).Completes log saved) :
    ∃ (d : GovernanceDecision) (r : ApprovalRecord)
      (pre mid log' : List (Exchange Query.Answer)),
      log = pre ++ ⟨.insertVote r, ()⟩ :: (mid ++ log') ∧
      r.decisionId = id ∧ r.voterId = u ∧ r.vote = .approve ∧
      (⟨.getDecision id, some d⟩ : Exchange Query.Answer) ∈ pre ∧
      (∀ x ∈ pre ++ mid, x.query.Quiet) ∧
      (checkAndFinalize (fun n => fresh (n + 2)) id d.domainId.text).Completes log' () := by
  obtain ⟨d, assignment, r, mid, _, rfl, ⟨hid, hu, hvote⟩, ⟨_, _, _, hrecord⟩, hafter⟩ :=
    castVote_exchanges h
  obtain ⟨_, log', _, rfl, hcheck, hpure⟩ := completes_bind.1 hafter
  obtain ⟨rfl, _⟩ := completes_pure.1 hpure
  rw [List.append_nil]
  refine ⟨d, r, [_, _, _], mid, log', rfl, hid, Bounded.text_injective hu, hvote,
    List.mem_cons_self, ?_, hcheck⟩
  have hmid : ∀ x ∈ mid, x.query.Quiet :=
    hrecord.sends (recordEvent_sends trivial fun _ => trivial)
  simpa [Query.Quiet] using hmid

end Completes

/-! ## Votes in the tables -/

section Votes

variable {s : Store} {q : Query} {id : UUID} {r x : ApprovalRecord}

/-- Only the insertion of a vote changes the votes, -/
theorem approvals_effect (hq : ∀ r, q ≠ .insertVote r) : (effect q s).approvals = s.approvals := by
  cases q with
  | insertVote r => exact absurd rfl (hq r)
  | _ => rfl

/-- none of which is ever lost, -/
theorem mem_approvals_effect (hx : x ∈ s.approvals.rows) : x ∈ (effect q s).approvals.rows := by
  cases q with
  | insertVote => exact Table.mem_insert_of_mem hx
  | _ => exact hx

/-- and all of which have been inserted. -/
theorem mem_of_mem_approvals_effect (hx : x ∈ (effect q s).approvals.rows) :
    x ∈ s.approvals.rows ∨ q = .insertVote x := by
  cases q with
  | insertVote =>
    rcases Table.mem_of_mem_insert hx with hx | rfl
    · exact .inl hx
    · exact .inr rfl
  | _ => exact .inl hx

variable [Postgres] {log pre post : List (Exchange Query.Answer)}

/-- The same of a list of statements: those that insert nothing keep the votes as they are, -/
theorem approvals_replay (hlog : ∀ y ∈ log, y.query.Quiet) :
    (backend.replay log s).approvals = s.approvals := by
  refine Backend.replay_keeps (J := fun s' : Store => s'.approvals = s.approvals)
    (fun y hy s' h => ?_) rfl
  refine (approvals_effect fun r e => ?_).trans h
  have hquiet := hlog y hy
  rw [e] at hquiet
  exact hquiet

/-- none is lost, -/
theorem mem_approvals_replay (hx : x ∈ s.approvals.rows) :
    x ∈ (backend.replay log s).approvals.rows :=
  Backend.replay_keeps (J := fun s' : Store => x ∈ s'.approvals.rows)
    (fun _ _ _ => mem_approvals_effect) hx

/-- and those that have been added have been inserted by one of them. -/
theorem mem_of_mem_approvals_replay (hx : x ∈ (backend.replay log s).approvals.rows) :
    x ∈ s.approvals.rows ∨ ∃ y ∈ log, y.query = .insertVote x := by
  refine Backend.replay_keeps (J := fun s' : Store => x ∈ s'.approvals.rows → x ∈ s.approvals.rows ∨
    ∃ y ∈ log, y.query = .insertVote x) (fun y hy s' h hx => ?_) .inl hx
  rcases mem_of_mem_approvals_effect hx with hx | e
  · exact h hx
  · exact .inr ⟨y, hy, e⟩

/-- The users who have approved after a vote in favour are those before it, and the
    voter. -/
theorem voted_replay {u : Bounded 1 200} (hpre : ∀ y ∈ pre, y.query.Quiet)
    (honly : ∀ y ∈ pre ++ ⟨.insertVote r, ()⟩ :: post, ∀ x, y.query = .insertVote x → x = r)
    (hnone : s.approvals.get? r.id = none) (hid : r.decisionId = id)
    (happrove : r.vote = .approve) :
    (backend.replay (pre ++ ⟨.insertVote r, ()⟩ :: post) s).Voted id u .approve ↔
      s.Voted id u .approve ∨ u = r.voterId := by
  constructor
  · rintro ⟨x, hx, hxid, hxu, hxvote⟩
    rcases mem_of_mem_approvals_replay hx with hx | ⟨y, hy, hyx⟩
    · exact .inl ⟨x, hx, hxid, hxu, hxvote⟩
    · rw [honly y hy x hyx] at hxu
      exact .inr hxu.symm
  · rintro (⟨x, hx, hrest⟩ | rfl)
    · exact ⟨x, mem_approvals_replay hx, hrest⟩
    · refine ⟨r, ?_, hid, rfl, happrove⟩
      rw [Backend.replay_append, Backend.replay_cons]
      refine mem_approvals_replay ?_
      have hnone' : (backend.replay pre s).approvals.get? r.id = none := by
        rwa [approvals_replay hpre]
      exact Table.mem_of_get? (Table.get?_insert_self hnone')

end Votes

/-! ## The votes of all who are required to approve -/

/-- The users who are required to approve the decisions of a domain. -/
abbrev Voters (s : Store) (domainId : Bounded 1 100) :=
  { u : Bounded 1 200 // s.toRegistry.Required domainId u }

/-- Every one of them votes in favour of the decision `d`. -/
def ballots (s : Store) (d : GovernanceDecision) (comment : Voters s d.domainId → String)
    (t : Voters s d.domainId) : Call :=
  .castVote d.id t.1.text .approve (comment t)

/-- What the votes keep: who is required to approve, and that the decision is one of
    the domain, awaiting approval or approved. -/
structure Steady (s : Store) (d : GovernanceDecision) (s' : Store) : Prop where
  assignments : s'.assignments = s.assignments
  decision : ∃ d', s'.decisions.get? d.id = some d' ∧ d'.domainId = d.domainId ∧
    (d'.status = .awaitingApproval ∨ d'.status = .approved)

/-- A list that goes on with `x` contains what stands before `x` in a longer one. -/
theorem isPrefix_of_concat {α : Type} {l a b : List α} {x : α} (h : l ++ [x] <+: a ++ b)
    (hx : x ∉ a) : a <+: l := by
  rcases List.prefix_or_prefix_of_prefix h (List.prefix_append a b) with h | h
  · exact absurd (h.subset (by simp)) hx
  · rcases List.prefix_concat_iff.1 h with h | h
    · exact absurd (h ▸ by simp) hx
    · exact h

/-- The log of a vote in favour that has been cast by `u`: the vote is inserted, the
    votes are counted, and the decision is updated if all have approved. -/
structure VoteLog (s : Store) (d : GovernanceDecision) (u : Bounded 1 200)
    (log : List (Exchange Query.Answer)) where
  vote : ApprovalRecord
  votes : List ApprovalRecord
  pre : List (Exchange Query.Answer)
  mid : List (Exchange Query.Answer)
  post : List (Exchange Query.Answer)
  log_eq : log = pre ++ ⟨.insertVote vote, ()⟩ :: (mid ++ ⟨.selectVotes d.id, votes⟩ :: post)
  decisionId : vote.decisionId = d.id
  voterId : vote.voterId = u
  approve : vote.vote = .approve
  quiet : ∀ x ∈ pre ++ mid, x.query.Quiet
  voteFree : ∀ x ∈ post, x.query.VoteFree
  updated_post : (∃ x ∈ post, x.query.updated = some d.id) ↔
    ∀ u, s.toRegistry.Required d.domainId u → u ∈ approvedVoters votes

section Voting

variable {s s' : Store} {d : GovernanceDecision} {q : Query}

/-- A vote in favour keeps the domain of the decision, and who is required to approve it. -/
theorem steady_effect (hq : q.OfVote d.id .approve) (hs : Steady s d s') :
    Steady s d (effect q s') := by
  obtain ⟨hassignments, d', hd', hdomain, hstatus⟩ := hs
  cases q with
  | updateDecision id status t md =>
    refine ⟨hassignments, ?_⟩
    by_cases hid : d.id = id
    · subst hid
      refine ⟨d'.set status t md, ?_, hdomain, ?_⟩
      · rw [get?_updateDecision_self, hd', Option.map_some]
      · rcases hq with ⟨_, rfl⟩ | ⟨h, _⟩
        · exact .inr rfl
        · cases h
    · exact ⟨d', (get?_updateDecision_of_ne hid).trans hd', hdomain, hstatus⟩
  | insertDecision | updateVeto | insertVeto | getVeto | selectChain | insertAssignment
  | getAssignment | deleteAssignment => exact hq.elim
  | _ => exact ⟨hassignments, d', hd', hdomain, hstatus⟩

/-- Who is required to approve the decision is the same as before the votes. -/
theorem Steady.required_iff (h : Steady s d s') {domainId : Bounded 1 100} {u : Bounded 1 200} :
    s'.toRegistry.Required domainId u ↔ s.toRegistry.Required domainId u := by
  rw [Registry.Required, Registry.Required, h.assignments]

namespace VoteLog

variable {u : Bounded 1 200} {log : List (Exchange Query.Answer)} (L : VoteLog s d u log)
  {x : Exchange Query.Answer}

/-- The statements of a vote, with their answers. -/
theorem mem_log : x ∈ log ↔ x ∈ L.pre ++ ⟨.insertVote L.vote, ()⟩ ::
    (L.mid ++ ⟨.selectVotes d.id, L.votes⟩ :: L.post) :=
  iff_of_eq (congrArg (fun l => x ∈ l) L.log_eq)

/-- Those that are not about the preparation of the vote. -/
theorem mem_of_not_quiet (hx : x ∈ log) (hq : ¬x.query.Quiet) :
    x = ⟨.insertVote L.vote, ()⟩ ∨ x = ⟨.selectVotes d.id, L.votes⟩ ∨ x ∈ L.post := by
  rw [L.mem_log] at hx
  simp only [List.mem_append, List.mem_cons] at hx
  rcases hx with hx | rfl | hx | rfl | hx
  · exact absurd (L.quiet x (List.mem_append_left _ hx)) hq
  · exact .inl rfl
  · exact absurd (L.quiet x (List.mem_append_right _ hx)) hq
  · exact .inr (.inl rfl)
  · exact .inr (.inr hx)

/-- A single vote is inserted. -/
theorem eq_vote {r : ApprovalRecord} (hx : x ∈ log) (hr : x.query = .insertVote r) :
    r = L.vote := by
  rcases L.mem_of_not_quiet hx (by rw [hr]; exact not_false) with rfl | rfl | hpost
  · cases hr
    rfl
  · cases hr
  · have hfree := L.voteFree x hpost
    rw [hr] at hfree
    exact hfree.elim

/-- The votes are counted once. -/
theorem eq_votes {id : UUID} {votes : List ApprovalRecord}
    (hx : (⟨.selectVotes id, votes⟩ : Exchange Query.Answer) ∈ log) : votes = L.votes := by
  rcases L.mem_of_not_quiet hx not_false with h | h | hpost
  · cases h
  · cases h
    rfl
  · exact (L.voteFree _ hpost).elim

/-- The vote has counted. -/
theorem count_mem : (⟨.selectVotes d.id, L.votes⟩ : Exchange Query.Answer) ∈ log :=
  L.mem_log.2 (by simp)

/-- It has updated the decision if it has seen the votes of all who are required. -/
theorem updated_iff : (∃ x ∈ log, x.query.updated = some d.id) ↔
    ∀ u, s.toRegistry.Required d.domainId u → u ∈ approvedVoters L.votes := by
  rw [← L.updated_post]
  constructor
  · rintro ⟨x, hx, hup⟩
    have hq : ¬x.query.Quiet := by
      intro hq
      cases hquery : x.query <;> rw [hquery] at hup hq
      all_goals first | exact hq | cases hup
    rcases L.mem_of_not_quiet hx hq with rfl | rfl | hpost
    · cases hup
    · cases hup
    · exact ⟨x, hpost, hup⟩
  · rintro ⟨x, hx, hup⟩
    exact ⟨x, L.mem_log.2 (by simp [hx]), hup⟩

end VoteLog

variable [Hashlib] [Postgres] {comment : Voters s d.domainId → String}
  {fresh : Voters s d.domainId → ℕ → Stamp} {c : Transactions (Voters s d.domainId)}
  {t : Voters s d.domainId} {log : List (Exchange Query.Answer)}
  {P : Transactions (Voters s d.domainId) → Move (Voters s d.domainId) Query → Prop}

omit [Postgres] in
/-- All the transactions are votes in favour of the decision. -/
theorem ballots_sends (t : Voters s d.domainId) :
    ((ballots s d comment t).program (fresh t)).Sends (Query.OfVote d.id .approve) :=
  castVote_sends.bind fun _ => trivial

/-- All queries are answered on stores that agree with `s` on the roles and the domain. -/
theorem steady_of_runs (hd : d ∈ s.decisions.rows) (hawait : d.status = .awaitingApproval)
    (h : Runs backend P (start s (ballots s d comment) fresh) c) :
    Steady s d c.store ∧ ∀ t, ∀ x ∈ (c.txn t).log,
      ∃ s', Steady s d s' ∧ answer x.query s' = .ok x.answer :=
  answered_of_runs h ballots_sends (fun _ _ => steady_effect)
    ⟨rfl, d, Table.get?_key hd, rfl, .inl hawait⟩

/-- A vote that has been committed has been cast. -/
theorem voteLog_of_committed (hd : d ∈ s.decisions.rows) (hawait : d.status = .awaitingApproval)
    (h : Runs backend P (start s (ballots s d comment) fresh) c)
    (ht : (c.txn t).phase = .committed) : Nonempty (VoteLog s d t.1 (c.txn t).log) := by
  obtain ⟨_, hcompletes⟩ := completes_of_committed h ht
  obtain ⟨_, log, _, hlog, hcast, hpure⟩ := completes_bind.1 hcompletes
  obtain ⟨rfl, _⟩ := completes_pure.1 hpure
  rw [List.append_nil] at hlog
  have hanswer := (steady_of_runs hd hawait h).2 t
  rw [hlog] at hanswer ⊢
  obtain ⟨d', r, pre, mid, log', rfl, hid, hu, happrove, hget, hquiet, hcheck⟩ :=
    castVote_completes hcast
  obtain ⟨assignments, _, rfl, hcount⟩ := checkAndFinalize_completes hcheck
  -- The roles are those of the domain of `d`.
  have hdomain : d'.domainId = d.domainId := by
    obtain ⟨s', hs', ha⟩ := hanswer _ (List.mem_append_left _ hget)
    obtain ⟨d'', hd'', hdomain, _⟩ := hs'.decision
    cases hd''.symm.trans (Except.ok.inj ha)
    exact hdomain
  have hrequired : ∀ u, u ∈ requiredVoters assignments ↔ s.toRegistry.Required d.domainId u := by
    intro u
    obtain ⟨s', hs', ha⟩ := hanswer ⟨.selectDomain d'.domainId.text, assignments⟩ (by simp)
    rw [mem_requiredVoters ha, hdomain, hs'.required_iff]
  obtain ⟨votes, post, rfl, hpost⟩ := hcount (List.ne_nil_of_mem ((hrequired _).2 t.2))
  have hmid : ∀ x ∈ pre ++ (mid ++ [⟨.selectDomain d'.domainId.text, assignments⟩]),
      x.query.Quiet := by
    intro x hx
    rw [← List.append_assoc] at hx
    rcases List.mem_append.1 hx with hx | hx
    · exact hquiet x hx
    · rw [List.mem_singleton.1 hx]
      trivial
  -- Whether the decision is finalized is decided by the votes that have been read.
  split_ifs at hpost with hall
  · obtain ⟨_, hfinal⟩ := hpost
    have hfree : ∀ x ∈ post, x.query.VoteFree := hfinal.sends
      (finalize_sends (fun _ => trivial) (fun _ _ _ => trivial) trivial fun _ => trivial)
    obtain ⟨d₁, row, time, log', rfl⟩ := finalize_completes hfinal
    -- The row updated is that of `d`: rows are read by their keys.
    obtain ⟨_, _, ha₁⟩ := hanswer ⟨.getDecision d.id, some d₁⟩ (by simp)
    obtain ⟨_, _, ha₂⟩ := hanswer ⟨.getDecision d₁.id, some row⟩ (by simp)
    have hrow : row.id = d.id :=
      (Table.key_of_get? (Except.ok.inj ha₂)).trans (Table.key_of_get? (Except.ok.inj ha₁))
    refine ⟨⟨r, votes, pre, mid ++ [⟨.selectDomain d'.domainId.text, assignments⟩], _, by simp, hid,
      hu, happrove, hmid, hfree, iff_of_true ?_ fun u hu => hall u ((hrequired u).2 hu)⟩⟩
    exact ⟨⟨.updateDecision row.id .approved time d₁.metadata, ()⟩, by simp, congrArg some hrow⟩
  · subst hpost
    exact ⟨⟨r, votes, pre, mid ++ [⟨.selectDomain d'.domainId.text, assignments⟩], [], by simp, hid,
      hu, happrove, hmid, by simp, iff_of_false (by simp) fun h => hall fun u hu =>
        h u ((hrequired u).1 hu)⟩⟩

/-- The identifiers of the votes of running transactions are not taken. -/
theorem unclaimed (h : Runs backend P (start s (ballots s d comment) fresh) c)
    (ht : (c.txn t).phase = .running) {x : Exchange Query.Answer} {r : ApprovalRecord}
    (hx : x ∈ (c.txn t).log) (hr : x.query = .insertVote r) :
    c.store.approvals.get? r.id = none := by
  have hlock : ∀ {q : Query}, Lock.row .approvals r.id ∈ locks q →
      ∃ r', q = .insertVote r' ∧ r'.id = r.id := by
    intro q hq
    cases q <;> simp [locks] at hq
    exact ⟨_, rfl, hq.symm⟩
  refine protected_of_runs h (F := fun s => s.approvals.get? r.id = none)
    (l := .row .approvals r.id) (fun c t q k a hruns _ _ ha hl => ?_) (fun q hq s hs => ?_) t ht
    ⟨x, hx, by rw [hr]; exact List.mem_singleton_self _⟩
  · obtain ⟨r', rfl, hid⟩ := hlock hl
    have hfree := inserted_eq_ok.1 (refers_eq_ok.1 ha).2
    rw [hid] at hfree
    refine Table.get?_eq_none.2 fun y hy => ?_
    exact Table.get?_eq_none.1 hfree y (mem_approvals_replay hy)
  · refine Table.get?_eq_none.2 fun y hy hid => ?_
    rcases mem_of_mem_approvals_effect hy with hy | rfl
    · exact Table.get?_eq_none.1 hs y hy hid
    · exact hq (hid ▸ List.mem_singleton_self _)

/-- A running transaction sees the votes committed and its own. -/
theorem voted_view (h : Runs backend P (start s (ballots s d comment) fresh) c)
    (ht : (c.txn t).phase = .running) (L : VoteLog s d t.1 log)
    {post : List (Exchange Query.Answer)}
    (hlog : (c.txn t).log = L.pre ++ ⟨.insertVote L.vote, ()⟩ :: post)
    (hsub : ∀ x ∈ (c.txn t).log, x ∈ log) {u : Bounded 1 200} :
    (c.view backend t).Voted d.id u .approve ↔ c.store.Voted d.id u .approve ∨ u = t.1 := by
  have hmem : (⟨.insertVote L.vote, ()⟩ : Exchange Query.Answer) ∈ (c.txn t).log := by
    rw [hlog]
    simp
  have hnone := unclaimed h ht hmem rfl
  rw [Config.view, ← L.voterId]
  rw [hlog] at hsub ⊢
  exact voted_replay (fun x hx => L.quiet x (List.mem_append_left _ hx))
    (fun y hy _ hr => L.eq_vote (hsub y hy) hr) hnone L.decisionId L.approve

/-- The users who have approved the decision are those whose votes are committed. -/
theorem voted_iff_committed (hd : d ∈ s.decisions.rows) (hawait : d.status = .awaitingApproval)
    (hvotes : ∀ x ∈ s.approvals.rows, x.decisionId ≠ d.id)
    (h : Runs backend P (start s (ballots s d comment) fresh) c) (u : Bounded 1 200) :
    c.store.Voted d.id u .approve ↔ ∃ t, (c.txn t).phase = .committed ∧ u = t.1 := by
  induction h with
  | refl =>
    refine iff_of_false ?_ nofun
    rintro ⟨x, hx, hid, _⟩
    exact hvotes x hx hid
  | @tail c c' hruns hst ih =>
    have hruns' := hruns.tail hst
    obtain ⟨m, hst, _⟩ := hst
    simp only [hst.committed, or_and_right, exists_or]
    rw [← ih]
    rcases hst.store with ⟨hm, hstore⟩ | ⟨t, rfl, ht, hstore⟩
    · -- Nothing is committed in this step.
      rw [hstore]
      simp [hm]
    · -- The vote of `t` is committed, and no other one.
      have ht' := hst.committed.2 (.inr rfl)
      obtain ⟨L⟩ := voteLog_of_committed hd hawait hruns' ht'
      rw [hst.log_of_committed ht'] at L
      rw [hstore, voted_view hruns ht L L.log_eq fun _ hx => hx]
      refine or_congr_right ⟨fun hu => ⟨t, rfl, hu⟩, ?_⟩
      rintro ⟨_, hm, hu⟩
      cases hm
      exact hu

/-- When the transaction `t` counts the votes, it sees those committed and its own. -/
theorem mem_votes_iff (hd : d ∈ s.decisions.rows) (hawait : d.status = .awaitingApproval)
    (hvotes : ∀ x ∈ s.approvals.rows, x.decisionId ≠ d.id)
    (h : Runs backend P (start s (ballots s d comment) fresh) c)
    (ht : (c.txn t).phase = .running) (L : VoteLog s d t.1 log)
    (ha : answer (.selectVotes d.id) (c.view backend t) = .ok L.votes)
    (hlog : (c.txn t).log ++ [⟨.selectVotes d.id, L.votes⟩] <+: log) (u : Bounded 1 200) :
    u ∈ approvedVoters L.votes ↔ (∃ t', (c.txn t').phase = .committed ∧ u = t'.1) ∨ u = t.1 := by
  have hsplit : log = (L.pre ++ ⟨.insertVote L.vote, ()⟩ :: L.mid) ++
      ⟨.selectVotes d.id, L.votes⟩ :: L.post := by
    refine L.log_eq.trans ?_
    simp
  -- The vote has been inserted before the votes are counted: the log so far ends after it.
  obtain ⟨rest, hrest⟩ : L.pre ++ ⟨.insertVote L.vote, ()⟩ :: L.mid <+: (c.txn t).log := by
    have hwhole : log <+: _ := ⟨[], (List.append_nil log).trans hsplit⟩
    refine isPrefix_of_concat (hlog.trans hwhole) fun hmem => ?_
    rcases List.mem_append.1 hmem with hmem | hmem
    · exact L.quiet _ (List.mem_append_left _ hmem)
    · rcases List.mem_cons.1 hmem with hmem | hmem
      · cases hmem
      · exact L.quiet _ (List.mem_append_right _ hmem)
  have hsofar : (c.txn t).log = L.pre ++ ⟨.insertVote L.vote, ()⟩ :: (L.mid ++ rest) := by
    simp [← hrest]
  rw [mem_approvedVoters ha, voted_view h ht L hsofar fun x hx =>
    hlog.subset (List.mem_append_left _ hx), voted_iff_committed hd hawait hvotes h]

/-- Once all the votes are committed, the decision is approved exactly when one of them
    has counted the votes when all the others were committed. -/
theorem approved_iff_counted (hd : d ∈ s.decisions.rows) (hawait : d.status = .awaitingApproval)
    (hvotes : ∀ x ∈ s.approvals.rows, x.decisionId ≠ d.id)
    {π : List (Transactions (Voters s d.domainId) × Move (Voters s d.domainId) Query)}
    (hπ : Path backend (start s (ballots s d comment) fresh) π c)
    (hall : ∀ t, (c.txn t).phase = .committed) :
    c.store.status d.id = some .approved ↔ ∃ t c₁, (c₁, .send t (.selectVotes d.id)) ∈ π ∧
      ∀ t', t' ≠ t → (c₁.txn t').phase = .committed := by
  have hruns : Runs backend (fun _ _ => True) _ c := hπ.runs fun _ _ => trivial
  have hs : s.status d.id = some .awaitingApproval := by
    rw [Store.status, Table.get?_key hd, Option.map_some, hawait]
  have hon : ∀ t, (ballots s d comment t).On d.id := fun _ => rfl
  have hdecided := (decided_iff_finalized hs hon hruns).2
  -- The votes are all in favour, so that the decision can only end approved.
  have happroved : c.store.status d.id = some .approved ↔ c.store.Decided d.id := by
    constructor
    · exact fun h => ⟨_, h, by decide⟩
    · rintro ⟨status, hstatus, hne⟩
      obtain ⟨d', hd', _, hd''⟩ := (steady_of_runs hd hawait hruns).1.decision
      rw [Store.status, hd', Option.map_some] at hstatus ⊢
      cases hstatus
      rw [hd''.resolve_left hne]
  -- The votes that `t` has counted, and what it has seen when it did.
  have hcount : ∀ t c₁, (c₁, .send t (.selectVotes d.id)) ∈ π → (Finalized d.id c t ↔
      ∀ t', t' ≠ t → (c₁.txn t').phase = .committed) := by
    intro t c₁ hmem
    obtain ⟨L⟩ := voteLog_of_committed hd hawait hruns (hall t)
    obtain ⟨votes, ha, hlog⟩ := hπ.mem_log hmem
    -- The votes in the log of the transaction are those that the step in the run has read.
    obtain rfl : votes = L.votes :=
      L.eq_votes (hlog.subset (List.mem_append_right _ (List.mem_singleton_self _)))
    obtain ⟨hruns₁, c₂, hst⟩ := hπ.step_of_mem hmem
    have ht : (c₁.txn t).phase = .running := by
      cases hst with
      | send ht => exact ht
    have hiff := mem_votes_iff hd hawait hvotes hruns₁ ht L ha hlog
    rw [Finalized, and_iff_right (hall t), L.updated_iff]
    constructor
    · intro h t' hne
      rcases (hiff t'.1).1 (h t'.1 t'.2) with ⟨t'', ht'', e⟩ | e
      · rwa [Subtype.ext e]
      · exact absurd (Subtype.ext e) hne
    · intro h u hu
      by_cases e : u = t.1
      · exact (hiff u).2 (.inr e)
      · exact (hiff u).2 (.inl ⟨⟨u, hu⟩, h ⟨u, hu⟩ fun h' => e (congrArg Subtype.val h'), rfl⟩)
  rw [happroved, hdecided]
  constructor
  · rintro ⟨t, ht⟩
    obtain ⟨L⟩ := voteLog_of_committed hd hawait hruns (hall t)
    obtain ⟨c₁, hmem, _⟩ := (hπ.sent L.count_mem).resolve_left List.not_mem_nil
    exact ⟨t, c₁, hmem, (hcount t c₁ hmem).1 ht⟩
  · rintro ⟨t, c₁, hmem, hothers⟩
    exact ⟨t, (hcount t c₁ hmem).2 hothers⟩

end Voting

/-! ### The votes of bob and cleo -/

namespace Sales

attribute [local instance] Hashlib.standard Postgres.stable

/-- The decision that bob and cleo are required to approve. -/
def contestedDecision : GovernanceDecision :=
  (contested.decisions.get? decision).get (by decide +kernel)

/-- The decision that bob and cleo vote on. -/
theorem contestedDecision_mem : contestedDecision ∈ contested.decisions.rows :=
  Table.mem_of_get? (Option.some_get _).symm

/-- One of the users who are required to approve it, -/
def bob : Voters contested contestedDecision.domainId := ⟨⟨"bob", by decide⟩, by decide +kernel⟩

/-- and the other one. -/
def cleo : Voters contested contestedDecision.domainId := ⟨⟨"cleo", by decide⟩, by decide +kernel⟩

/-- Nobody else is. -/
theorem eq_bob_or_cleo (t : Voters contested contestedDecision.domainId) : t = bob ∨ t = cleo := by
  have hrows : ∀ a ∈ contested.assignments.rows, a.userId = bob.1 ∨ a.userId = cleo.1 := by
    decide +kernel
  obtain ⟨a, ha, _, hu, _⟩ := t.2
  rcases hrows a ha with h | h
  · exact .inl (Subtype.ext (hu.symm.trans h))
  · exact .inr (Subtype.ext (hu.symm.trans h))

/-- The transactions of the two votes. -/
def voting : Transactions (Voters contested contestedDecision.domainId) :=
  start contested (ballots contested contestedDecision fun _ => "fine")
    fun t => Sales.fresh (if t = bob then 10 else 11)

/-- Bob votes while cleo does, who comes to count the votes later. -/
def cleoLast := voting.schedule backend
  (List.replicate 3 cleo ++ List.replicate 9 bob ++ List.replicate 11 cleo)

/-- Cleo counts after bob has been committed, and her vote approves the decision. -/
theorem approved_iff_cleoLast :
    cleoLast.2.store.status contestedDecision.id = some .approved ↔
      ∃ t c₁, (c₁, .send t (.selectVotes contestedDecision.id)) ∈ cleoLast.1 ∧
        ∀ t', t' ≠ t → (c₁.txn t').phase = .committed := by
  refine approved_iff_counted contestedDecision_mem (by decide +kernel) (by decide +kernel)
    (path_schedule ..) fun t => ?_
  rcases eq_bob_or_cleo t with rfl | rfl <;> decide +kernel

/-- Both have counted the votes when bob commits his. -/
def bothCounted := voting.schedule backend
  (List.replicate 8 bob ++ List.replicate 9 cleo ++ List.replicate 1 bob)

/-- All who are required to approve the decision have, and it awaits approval. -/
theorem approved_by_nobody : ¬∀ (s : Store) (d : GovernanceDecision)
    (comment : Voters s d.domainId → String) (fresh : Voters s d.domainId → ℕ → Stamp)
    (c : Transactions (Voters s d.domainId)), d ∈ s.decisions.rows →
    d.status = .awaitingApproval → (∀ x ∈ s.approvals.rows, x.decisionId ≠ d.id) →
    (∃ u, s.toRegistry.Required d.domainId u) →
    Runs backend (fun _ _ => True) (start s (ballots s d comment) fresh) c →
    (∀ t, (c.txn t).phase = .committed) → c.store.status d.id = some .approved := by
  intro h
  have happroved := h contested contestedDecision _ _ bothCounted.2 contestedDecision_mem
    (by decide +kernel) (by decide +kernel) ⟨bob.1, bob.2⟩
    ((path_schedule backend voting _).runs fun _ _ => trivial) fun t => by
      rcases eq_bob_or_cleo t with rfl | rfl <;> decide +kernel
  have hawait : bothCounted.2.store.status contestedDecision.id = some .awaitingApproval := by
    decide +kernel
  exact absurd (happroved.symm.trans hawait) (by decide)

end Sales

end OpenDataGov
