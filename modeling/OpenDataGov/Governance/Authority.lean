import OpenDataGov.Governance.Vetoes

/-!
# Authority

Which roles have a say in what becomes of a decision. A vote and a veto record the
role of their user at the time; who is required to approve, and who may override a
veto, is looked up when it matters.

The properties are about states that are reached, and each is an invariant of its own, which one
of the calls may break: the last vote in favour where a required role has approved nowhere,
the vote against a decision by somebody who is neither responsible nor accountable. So there
is a condition on a request and the state that it finds (`Request.Attended`,
`Request.Entitled`), and the property holds along the runs whose requests satisfy it.

* `bothApproved_of_attended`: both required roles have approved an approved decision, as
  long as no last vote is cast where one of them has not;
* `rejected_of_entitled`: a responsible or accountable user has rejected a rejected
  decision, as long as no other is there to vote against one;
* `override_authority`: an accountable user has overridden an overridden veto, which was
  exercised by a responsible one, and vetoes stay overridden.

The last one needs no condition: the service looks up the role of whoever overrides a veto, and
compares it with the role that the veto was exercised in.
-/

namespace OpenDataGov

open ApprovalService VetoService Keyed

variable {r r' : Registry} {fresh : ℕ → Stamp} {c : Call} {d d' : GovernanceDecision}
  {x : ApprovalRecord} {v : VetoRecord} {a : RACIAssignment} {id : UUID}

/-! ## Votes -/

/-- Who votes on what, and how. -/
def Call.ballot : Call → Option (UUID × String × VoteValue)
  | .castVote decisionId voterId vote _ => some (decisionId, voterId, vote)
  | _ => none

/-- The user of the assignment can vote on the decision. -/
def Registry.CanVote (r : Registry) (d : GovernanceDecision) (a : RACIAssignment) : Prop :=
  d.status = .awaitingApproval ∧ a.domainId = d.domainId ∧
    ∀ y ∈ r.approvals.rows, y.decisionId = d.id → y.voterId ≠ a.userId

/-- There are users required to approve the decision, and all of them have, but for the
    user of the assignment. -/
def Registry.Last (r : Registry) (d : GovernanceDecision) (a : RACIAssignment) : Prop :=
  (∃ b ∈ r.assignments.rows, b.domainId = d.domainId ∧ b.role ∈ requiredApprovalRoles) ∧
    ∀ b ∈ r.assignments.rows, b.domainId = d.domainId → b.role ∈ requiredApprovalRoles →
      b.userId = a.userId ∨ r.Voted d.id b.userId .approve

/-- Somebody has approved the decision in the role. -/
def Registry.ApprovedAs (r : Registry) (id : UUID) (role : RACIRole) : Prop :=
  ∃ x ∈ r.approvals.rows, x.decisionId = id ∧ x.vote = .approve ∧ x.voterRole = role

/-- Every ballot that is cast for the vote `vote`, by a user with the assignment `a` on the
    decision `d`, satisfies `P`. -/
def Request.Ballots (P : GovernanceDecision → RACIAssignment → Prop) (vote : VoteValue)
    (r : Registry) (q : Request) : Prop :=
  q.mode ≠ .abandoned → ∀ b ∈ q.call.ballot, b.2.2 = vote →
    ∀ d ∈ r.decisions.rows, d.id = b.1 → ∀ a ∈ r.assignments.rows, a.userId.text = b.2.1 →
      r.CanVote d a → P d a

/-- A last vote in favour is cast only where both required roles have approved, or the user
    who casts it has the one that has not. -/
def Request.Attended (r : Registry) (q : Request) : Prop :=
  q.Ballots (fun d a => r.Last d a → ∀ role ∈ requiredApprovalRoles,
    a.role = role ∨ r.ApprovedAs d.id role) .approve r

/-- Votes against a decision are cast by responsible and accountable users only. -/
def Request.Entitled (r : Registry) (q : Request) : Prop :=
  q.Ballots (fun _ a => a.role = .responsible ∨ a.role = .accountable) .reject r

deriving instance DecidableEq for Mode

instance : Decidable (r.CanVote d a) :=
  inferInstanceAs (Decidable (_ ∧ _ ∧ ∀ y ∈ r.approvals.rows, _ → _))

instance : Decidable (r.Last d a) :=
  inferInstanceAs (Decidable ((∃ b ∈ r.assignments.rows, _) ∧ ∀ b ∈ r.assignments.rows, _ → _))

instance {role : RACIRole} : Decidable (r.ApprovedAs id role) :=
  inferInstanceAs (Decidable (∃ x ∈ r.approvals.rows, _))

instance {P : GovernanceDecision → RACIAssignment → Prop} [∀ d a, Decidable (P d a)]
    {vote : VoteValue} {q : Request} : Decidable (q.Ballots P vote r) :=
  inferInstanceAs (Decidable (_ → ∀ b ∈ q.call.ballot, _ → ∀ d ∈ r.decisions.rows, _ →
    ∀ a ∈ r.assignments.rows, _ → r.CanVote d a → P d a))

instance {q : Request} : Decidable (q.Attended r) :=
  inferInstanceAs (Decidable (q.Ballots (fun d a => r.Last d a →
    ∀ role ∈ requiredApprovalRoles, a.role = role ∨ r.ApprovedAs d.id role) .approve r))

instance {q : Request} : Decidable (q.Entitled r) :=
  inferInstanceAs (Decidable (q.Ballots (fun _ _ => _) .reject r))

/-- Both required roles have approved what is approved. -/
def BothApproved (r : Registry) : Prop :=
  ∀ d ∈ r.decisions.rows, d.status = .approved →
    ∀ role ∈ requiredApprovalRoles, r.ApprovedAs d.id role

/-- A responsible or accountable user has rejected what is rejected. -/
def RejectedByAuthority (r : Registry) : Prop :=
  ∀ d ∈ r.decisions.rows, d.status = .rejected → ∃ x ∈ r.approvals.rows,
    x.decisionId = d.id ∧ x.vote = .reject ∧
      (x.voterRole = .responsible ∨ x.voterRole = .accountable)

instance : Decidable (BothApproved r) :=
  inferInstanceAs (Decidable (∀ d ∈ r.decisions.rows, _ → ∀ role ∈ requiredApprovalRoles,
    r.ApprovedAs d.id role))

instance : Decidable (RejectedByAuthority r) :=
  inferInstanceAs (Decidable (∀ d ∈ r.decisions.rows, _ → ∃ x ∈ r.approvals.rows, _))

/-- Whoever has voted could vote, in the role that the vote records. -/
theorem Ballot.canVote (hb : Ballot r d x) :
    ∃ a ∈ r.assignments.rows, a.userId = x.voterId ∧ a.role = x.voterRole ∧ r.CanVote d a := by
  obtain ⟨a, ha, huser, hdomain, hrole⟩ := hb.assigned
  have hid := Table.key_of_get? hb.decision
  exact ⟨a, ha, huser, hrole, hb.awaiting, hdomain, fun y hy hd =>
    huser ▸ hb.first y hy (hd.trans hid)⟩

/-- What all ballots satisfy, the one cast does. -/
theorem Request.Ballots.of_ballot {P : GovernanceDecision → RACIAssignment → Prop}
    {q : Request} (h : q.Ballots P x.vote r) (hmode : q.mode ≠ .abandoned)
    (hc : q.call = .castVote x.decisionId x.voterId.text x.vote x.comment)
    (hb : Ballot r d x) :
    ∃ a ∈ r.assignments.rows, a.userId = x.voterId ∧ a.role = x.voterRole ∧ P d a := by
  obtain ⟨a, ha, huser, hrole, hcan⟩ := hb.canVote
  refine ⟨a, ha, huser, hrole, h hmode (x.decisionId, x.voterId.text, x.vote) ?_ rfl d
    (Table.mem_of_get? hb.decision) (Table.key_of_get? hb.decision) a ha
    (congrArg Bounded.text huser) hcan⟩
  rw [hc]
  rfl

/-- The vote that completes the approval of a decision is the last. -/
theorem last_of_fullyApproved (hb : Ballot r d x) (hu : a.userId = x.voterId)
    (hfull : (r.withVote x).FullyApproved x.decisionId d.domainId) : r.Last d a := by
  obtain ⟨⟨u, b, hmem, hdomain, _, hrole⟩, hall⟩ := hfull
  refine ⟨⟨b, hmem, hdomain, hrole⟩, fun b hmem hdomain hrole => ?_⟩
  obtain ⟨y, hy, hid, hvoter, hvote⟩ := hall b.userId ⟨b, hmem, hdomain, rfl, hrole⟩
  rcases (mem_withVote hb.fresh).1 hy with hy | rfl
  · exact .inr ⟨y, hy, hid.trans (Table.key_of_get? hb.decision).symm, hvoter, hvote⟩
  · exact .inl (hvoter.symm.trans hu.symm)

/-! ### What a call does -/

/-- Votes stay as they are. -/
theorem Outcome.mem_approvals (h : Outcome r fresh c r') (hx : x ∈ r.approvals.rows) :
    x ∈ r'.approvals.rows := by
  cases h with
  | voted | rejected | approved => exact Table.mem_insert_of_mem hx
  | refused | created | submitted | vetoed | overridden | assigned | revoked => exact hx

/-- The outcomes of a vote against the decision, which reject it. -/
structure Rejects (r : Registry) (c : Call) (r' : Registry) (d : GovernanceDecision)
    (x : ApprovalRecord) : Prop where
  ballot : Ballot r d x
  reject : x.vote = .reject
  call : c = .castVote x.decisionId x.voterId.text x.vote x.comment
  result : ∃ t, r' = (r.withVote x).mark x.decisionId .rejected t d.metadata

/-- A decision becomes rejected in no other way. -/
theorem Outcome.rejects (h : Outcome r fresh c r') (hd' : r'.decisions.get? id = some d')
    (hrejected : d'.status = .rejected)
    (hnew : ∀ d, r.decisions.get? id = some d → d.status ≠ .rejected) :
    ∃ d x, Rejects r c r' d x ∧ x.decisionId = id ∧ d'.domainId = d.domainId := by
  -- A decision marked with another status is not rejected.
  have hmark : ∀ {r₁ : Registry} {id' : UUID} {status t md}, r₁.decisions = r.decisions →
      status ≠ .rejected → (r₁.mark id' status t md).decisions.get? id = some d' → False := by
    intro r₁ id' status t md heq hne hget
    have hold := get?_of_mark_of_ne heq hget (hrejected.trans_ne hne.symm)
    exact hnew d' hold.2 hrejected
  cases h with
  | refused | voted | overridden | assigned | revoked => exact absurd hrejected (hnew d' hd')
  | created hpending _ _ =>
    rcases get?_of_withDecision hd' with rfl | hold
    · exact absurd (hpending.symm.trans hrejected) (by decide)
    · exact absurd hrejected (hnew d' hold)
  | submitted => exact (hmark rfl (by decide) hd').elim
  | approved => exact (hmark rfl (by decide) hd').elim
  | vetoed => exact (hmark rfl (by decide) hd').elim
  | @rejected d x t hb hreject =>
    rcases get?_of_mark hd' with ⟨rfl, d₀, hd₀, rfl⟩ | ⟨_, hold⟩
    · cases hb.decision.symm.trans hd₀
      exact ⟨d, x, ⟨hb, hreject, rfl, t, rfl⟩, rfl, rfl⟩
    · exact absurd hrejected (hnew d' hold)

section Runs

variable [Hashlib] [Postgres] {s : Store} {q : Request} {qs : List Request}

/-- A request that is attended keeps that both roles have approved. -/
theorem BothApproved.exec (h : BothApproved s.toRegistry) (hq : q.Attended s.toRegistry) :
    BothApproved (q.exec s).toRegistry := by
  by_cases hmode : q.mode = .abandoned
  · rwa [exec_abandoned hmode]
  intro d' hd' happroved role hrole
  have ho := q.outcome (s := s)
  by_cases hold : ∃ d, s.decisions.get? d'.id = some d ∧ d.status = .approved
  · -- It was approved before, and the votes are still there.
    obtain ⟨d, hd, hst⟩ := hold
    obtain ⟨x, hx, hid, hvote, hx'⟩ := h d (Table.mem_of_get? hd) hst role hrole
    exact ⟨x, ho.mem_approvals hx, hid.trans (Table.key_of_get? hd), hvote, hx'⟩
  · -- The last vote has been cast: it is by the role, or the role had approved.
    push Not at hold
    obtain ⟨d, x, ha, hid, _⟩ := ho.approves (Table.get?_key hd') happroved hold
    obtain ⟨t, hresult⟩ := ha.result
    have hcall := ha.call
    rw [← ha.approve] at hcall
    rw [Request.Attended, ← ha.approve] at hq
    obtain ⟨a, _, huser, hxrole, hlast⟩ := hq.of_ballot hmode hcall ha.ballot
    rw [hresult]
    rcases hlast (last_of_fullyApproved ha.ballot huser ha.full) role hrole with
      harole | ⟨y, hy, hyid, hyvote, hyrole⟩
    · exact ⟨x, (mem_withVote ha.ballot.fresh).2 (.inr rfl), hid, ha.approve,
        hxrole.symm.trans harole⟩
    · refine ⟨y, (mem_withVote ha.ballot.fresh).2 (.inl hy), ?_, hyvote, hyrole⟩
      rw [hyid, ← hid]
      exact Table.key_of_get? ha.ballot.decision

/-- A request that is entitled keeps that rejections are by authority. -/
theorem RejectedByAuthority.exec (h : RejectedByAuthority s.toRegistry)
    (hq : q.Entitled s.toRegistry) : RejectedByAuthority (q.exec s).toRegistry := by
  by_cases hmode : q.mode = .abandoned
  · rwa [exec_abandoned hmode]
  intro d' hd' hrejected
  have ho := q.outcome (s := s)
  by_cases hold : ∃ d, s.decisions.get? d'.id = some d ∧ d.status = .rejected
  · -- It was rejected before, and the vote against it is still there.
    obtain ⟨d, hd, hst⟩ := hold
    obtain ⟨x, hx, hid, hx'⟩ := h d (Table.mem_of_get? hd) hst
    exact ⟨x, ho.mem_approvals hx, hid.trans (Table.key_of_get? hd), hx'⟩
  · push Not at hold
    obtain ⟨d, x, hr, hid, _⟩ := ho.rejects (Table.get?_key hd') hrejected hold
    obtain ⟨t, hresult⟩ := hr.result
    rw [Request.Entitled, ← hr.reject] at hq
    obtain ⟨a, _, _, hxrole, harole⟩ := hq.of_ballot hmode hr.call hr.ballot
    rw [hresult]
    exact ⟨x, (mem_withVote hr.ballot.fresh).2 (.inr rfl), hid, hr.reject, hxrole ▸ harole⟩

/-- In every run in which no last vote in favour is cast where a required role has not
    approved, both required roles have approved what is approved. -/
theorem bothApproved_of_attended
    (h : Along (fun s q => q.Attended s.toRegistry) qs .empty) :
    BothApproved (execAll qs .empty).toRegistry :=
  Along.run (I := fun s => BothApproved s.toRegistry) h (fun _ hd => absurd hd List.not_mem_nil)
    fun _ _ hq hi => hi.exec hq

/-- A request that rejects a decision votes against it, for a responsible or accountable
    user. -/
theorem Request.Entitled.voter (hq : q.Entitled s.toRegistry)
    (hd' : (q.exec s).decisions.get? id = some d') (hrejected : d'.status = .rejected)
    (hnew : ∀ d, s.decisions.get? id = some d → d.status ≠ .rejected) :
    ∃ a ∈ s.assignments.rows, a.domainId = d'.domainId ∧
      (a.role = .responsible ∨ a.role = .accountable) ∧
      ∃ comment, q.call = .castVote id a.userId.text .reject comment := by
  by_cases hmode : q.mode = .abandoned
  · rw [exec_abandoned hmode] at hd'
    exact absurd hrejected (hnew d' hd')
  obtain ⟨d, x, hr, hid, hdomain⟩ := q.outcome.rejects hd' hrejected hnew
  obtain ⟨a, ha, huser, _, hcan⟩ := hr.ballot.canVote
  have hcall := hr.call
  rw [hr.reject, hid] at hcall
  refine ⟨a, ha, hcan.2.1.trans hdomain.symm, ?_, x.comment, ?_⟩
  · refine hq hmode (id, x.voterId.text, .reject) ?_ rfl d (Table.mem_of_get? hr.ballot.decision)
      ((Table.key_of_get? hr.ballot.decision).trans hid) a ha (congrArg Bounded.text huser) hcan
    rw [hcall]
    rfl
  · rw [hcall, huser]

/-- In every run in which nobody but responsible and accountable users can cast a vote
    against a decision that they cast, one of these has rejected what is rejected, and
    it is their votes that reject it. -/
theorem rejected_of_entitled
    (h : Along (fun s q => q.Entitled s.toRegistry) qs .empty) :
    RejectedByAuthority (execAll qs .empty).toRegistry ∧
      ∀ qs₁ q qs₂, qs = qs₁ ++ q :: qs₂ → ∀ id d',
        (q.exec (execAll qs₁ .empty)).decisions.get? id = some d' → d'.status = .rejected →
        (∀ d, (execAll qs₁ .empty).decisions.get? id = some d → d.status ≠ .rejected) →
        ∃ a ∈ (execAll qs₁ .empty).assignments.rows, a.domainId = d'.domainId ∧
          (a.role = .responsible ∨ a.role = .accountable) ∧
          ∃ comment, q.call = .castVote id a.userId.text .reject comment := by
  constructor
  · exact Along.run (I := fun s => RejectedByAuthority s.toRegistry) h
      (fun _ hd => absurd hd List.not_mem_nil) fun _ _ hq hi => hi.exec hq
  · rintro qs₁ q qs₂ rfl id d' hd' hrejected hnew
    exact (along_append.1 h).2.1.voter hd' hrejected hnew

end Runs

/-! ## Vetoes -/

/-- Vetoes are active, or overridden if a responsible user has exercised them. -/
def Registry.Overrulable (r : Registry) : Prop :=
  ∀ v ∈ r.vetoes.rows, v.vetoedByRole ∈ vetoEligibleRoles ∧
    (v.status = .active ∨ v.status = .overridden ∧ v.vetoedByRole = .responsible)

/-- The veto is overridden by the user of the assignment. -/
structure Overrides (r r' : Registry) (v v' : VetoRecord) (a : RACIAssignment) : Prop where
  allowed : Override r v a
  result : r'.vetoes.get? v.id = some v'
  set : v' = v.set .overridden (some a.userId.text) v.overriddenAt

/-- A call leaves a veto as it is, or overrides it. -/
theorem Outcome.veto_cases (h : Outcome r fresh c r') (hv : r.vetoes.get? id = some v) :
    r'.vetoes.get? id = some v ∨ ∃ v' a, Overrides r r' v v' a := by
  cases h with
  | refused | created | submitted | voted | rejected | approved | assigned | revoked =>
    exact .inl hv
  | vetoed => exact .inl (Table.get?_insert_of_get? hv)
  | @overridden w a ho =>
    by_cases hid : id = w.id
    · subst hid
      obtain rfl := Option.some.inj (hv.symm.trans ho.veto)
      refine .inr ⟨_, a, ho, ?_, rfl⟩
      rw [Registry.override, Table.get?_modify_self, hv]
      rfl
    · refine .inl ?_
      rw [Registry.override, Table.get?_modify_of_ne hid]
      exact hv

/-- A veto that is there after a call was there, unless it is exercised and active. -/
theorem Outcome.veto_origin (h : Outcome r fresh c r') (hv : v ∈ r'.vetoes.rows) :
    (∃ w, r.vetoes.get? v.id = some w) ∨
      v.status = .active ∧ v.vetoedByRole ∈ vetoEligibleRoles := by
  cases h with
  | refused | created | submitted | voted | rejected | approved | assigned | revoked =>
    exact .inl ⟨v, Table.get?_key hv⟩
  | vetoed ho =>
    rcases (mem_withVeto ho.fresh).1 hv with hv | rfl
    · exact .inl ⟨v, Table.get?_key hv⟩
    · exact .inr ⟨ho.active, ho.eligible⟩
  | overridden =>
    obtain ⟨w, hw, rfl⟩ := List.mem_map.1 hv
    refine .inl ⟨w, ?_⟩
    split_ifs <;> exact Table.get?_key hw

/-- Only the accountable may override, and only the vetoes of the responsible. -/
theorem Override.roles (h : Override r v a) (he : v.vetoedByRole ∈ vetoEligibleRoles) :
    v.vetoedByRole = .responsible ∧ a.role = .accountable := by
  have hlt := h.higher
  cases hv : v.vetoedByRole <;> cases ha : a.role <;>
    simp_all [roleHierarchy, vetoEligibleRoles]

/-- Every outcome keeps the vetoes overrulable. -/
theorem Registry.Overrulable.step (hi : r.Overrulable) (h : Outcome r fresh c r') :
    r'.Overrulable := by
  intro v' hv'
  rcases h.veto_origin hv' with ⟨v, hv⟩ | ⟨hactive, heligible⟩
  · obtain ⟨heligible, hstatus⟩ := hi v (Table.mem_of_get? hv)
    rcases h.veto_cases hv with hsame | ⟨w, a, ho⟩
    · obtain rfl := Option.some.inj ((Table.get?_key hv').symm.trans hsame)
      exact ⟨heligible, hstatus⟩
    · have hid := Table.key_of_get? hv
      obtain rfl := Option.some.inj ((Table.get?_key hv').symm.trans (hid ▸ ho.result))
      rw [ho.set]
      exact ⟨heligible, .inr ⟨rfl, (ho.allowed.roles heligible).1⟩⟩
  · exact ⟨heligible, .inl hactive⟩

section Runs

variable [Hashlib] [Postgres] {s : Store} {q : Request} {qs : List Request}

/-- So they are in every state that is reached. -/
theorem overrulable_execAll (qs : List Request) :
    (execAll qs .empty).toRegistry.Overrulable :=
  outcome_induct (I := Registry.Overrulable) (fun _ hv => absurd hv List.not_mem_nil)
    (fun h hi => hi.step h) qs

/-- A veto that is overridden, or by an accountable user, is final. -/
theorem get?_veto_exec (hi : s.toRegistry.Overrulable) (hv : s.vetoes.get? id = some v)
    (hfinal : v.status = .overridden ∨ v.vetoedByRole = .accountable) :
    (q.exec s).vetoes.get? id = some v := by
  rcases q.outcome.veto_cases hv with h | ⟨v', a, ho⟩
  · exact h
  · have hrole := (ho.allowed.roles (hi v (Table.mem_of_get? hv)).1).1
    rcases hfinal with h | h
    · exact absurd (ho.allowed.active.symm.trans h) (by decide)
    · exact absurd (hrole.symm.trans h) (by decide)

/-- A veto that is overridden, or that nobody may override, stays as it is. -/
theorem get?_veto_execAll (qs' : List Request) (hv : (execAll qs .empty).vetoes.get? id = some v)
    (hfinal : v.status = .overridden ∨ v.vetoedByRole = .accountable) :
    (execAll (qs ++ qs') .empty).vetoes.get? id = some v := by
  induction qs' using List.reverseRecOn with
  | nil => rwa [List.append_nil]
  | append_singleton qs' q ih =>
    rw [← List.append_assoc, execAll_concat]
    exact get?_veto_exec (overrulable_execAll _) ih hfinal

/-- The request `q` overrides the veto, which becomes `v`, for a user who is accountable in
    the domain of the decision. -/
structure OverriddenIn (s : Store) (q : Request) (v : VetoRecord) : Prop where
  before : ∃ w, s.vetoes.get? v.id = some w ∧ w.status = .active
  after : (q.exec s).vetoes.get? v.id = some v
  authority : ∃ a ∈ s.assignments.rows, v.overriddenBy = some a.userId.text ∧
    a.role = .accountable ∧
    ∃ d, s.decisions.get? v.decisionId = some d ∧ a.domainId = d.domainId

/-- An overridden veto has been overridden by a request. -/
theorem exists_overriddenIn (hv : (execAll qs .empty).vetoes.get? id = some v)
    (hover : v.status = .overridden) :
    ∃ qs₁ q qs₂, qs = qs₁ ++ q :: qs₂ ∧ OverriddenIn (execAll qs₁ .empty) q v := by
  induction qs using List.reverseRecOn with
  | nil => exact absurd hv (Option.some_ne_none v).symm
  | append_singleton qs q ih =>
    rw [execAll_concat] at hv
    have hi := overrulable_execAll qs
    obtain rfl := Table.key_of_get? hv
    rcases q.outcome.veto_origin (Table.mem_of_get? hv) with ⟨w, hw⟩ | ⟨hactive, _⟩
    · rcases q.outcome.veto_cases hw with hsame | ⟨w', a, ho⟩
      · -- It was overridden before.
        obtain rfl := Option.some.inj (hv.symm.trans hsame)
        obtain ⟨qs₁, q₁, qs₂, rfl, h⟩ := ih hw
        exact ⟨qs₁, q₁, qs₂ ++ [q], by simp, h⟩
      · refine ⟨qs, q, [], rfl, ⟨w, hw, ho.allowed.active⟩, hv, a, ho.allowed.assigned, ?_⟩
        have hid := Table.key_of_get? hw
        obtain rfl := Option.some.inj (hv.symm.trans (hid ▸ ho.result))
        rw [ho.set]
        exact ⟨rfl, (ho.allowed.roles (hi w (Table.mem_of_get? hw)).1).2, ho.allowed.decision⟩
    · exact absurd (hactive.symm.trans hover) (by decide)

/-- An overridden veto was exercised by a responsible user, and overridden by one who was
    accountable then; it stays as it is, and so does the veto of an accountable user. -/
theorem override_authority (qs : List Request) :
    ∀ v ∈ (execAll qs .empty).vetoes.rows,
      (v.status = .overridden → v.vetoedByRole = .responsible ∧
        (∃ qs₁ q qs₂, qs = qs₁ ++ q :: qs₂ ∧ OverriddenIn (execAll qs₁ .empty) q v) ∧
        ∀ qs', (execAll (qs ++ qs') .empty).vetoes.get? v.id = some v) ∧
      (v.vetoedByRole = .accountable → v.status = .active ∧
        ∀ qs', (execAll (qs ++ qs') .empty).vetoes.get? v.id = some v) := by
  intro v hmem
  have hv := Table.get?_key hmem
  -- A veto is active, or has been overridden and was one of a responsible user.
  obtain ⟨_, hstatus⟩ := overrulable_execAll qs v hmem
  constructor
  · intro hover
    have hrole : v.vetoedByRole = .responsible := by
      rcases hstatus with h | h
      · exact absurd (h.symm.trans hover) (by decide)
      · exact h.2
    exact ⟨hrole, exists_overriddenIn hv hover, fun qs' =>
      get?_veto_execAll qs' hv (.inl hover)⟩
  · intro hrole
    have hactive : v.status = .active := by
      rcases hstatus with h | h
      · exact h
      · exact absurd (h.2.symm.trans hrole) (by decide)
    exact ⟨hactive, fun qs' => get?_veto_execAll qs' hv (.inr hrole)⟩

end Runs

namespace Sales

attribute [local instance] Hashlib.standard Postgres.stable

/-- Bob and Cleo approve the decision. -/
def approvedByBoth : List Call :=
  submitted [("bob", .responsible), ("cleo", .accountable)] ++
    [.castVote decision "bob" .approve "", .castVote decision "cleo" .approve ""]

/-- A run in which both roles approve the decision, -/
theorem bothApproved_approvedByBoth :
    BothApproved (execAll (requests approvedByBoth) .empty).toRegistry :=
  bothApproved_of_attended (by decide +kernel)

/-- Bob, who is responsible, approves the decision alone: nobody is accountable. -/
def approvedByBob : List Call :=
  submitted [("bob", .responsible)] ++ [.castVote decision "bob" .approve ""]

/-- What a responsible user approves is approved where nobody is accountable. -/
theorem not_bothApproved :
    ¬∀ qs : List Request, BothApproved (execAll qs .empty).toRegistry := by
  intro h
  have hbob : ¬BothApproved (execAll (requests approvedByBob) .empty).toRegistry := by
    decide +kernel
  exact hbob (h _)

/-- Dan votes against the decision. -/
def rejectedByDan (role : RACIRole) : List Call :=
  submitted [("cleo", .accountable), ("dan", role)] ++ [.castVote decision "dan" .reject ""]

/-- and one in which a responsible user rejects it. -/
theorem rejectedByAuthority_dan :
    RejectedByAuthority (execAll (requests (rejectedByDan .responsible)) .empty).toRegistry :=
  (rejected_of_entitled (by decide +kernel)).1

/-- A user who is to be informed of a decision rejects it. -/
theorem not_rejectedByAuthority :
    ¬∀ qs : List Request, RejectedByAuthority (execAll qs .empty).toRegistry := by
  intro h
  have hdan : ¬RejectedByAuthority
      (execAll (requests (rejectedByDan .informed)) .empty).toRegistry := by
    decide +kernel
  exact hdan (h _)

/-- Cleo, who is accountable, has overridden Bob's veto. -/
theorem overriddenIn_cleo : ∃ v ∈ (execAll (requests overridden) .empty).vetoes.rows,
    v.vetoedByRole = .responsible ∧
      ∃ qs₁ q qs₂, requests overridden = qs₁ ++ q :: qs₂ ∧
        OverriddenIn (execAll qs₁ .empty) q v := by
  have h : ∃ v ∈ (execAll (requests overridden) .empty).vetoes.rows,
      v.status = .overridden := by
    decide +kernel
  obtain ⟨v, hv, hover⟩ := h
  obtain ⟨hrole, hstep, _⟩ := (override_authority (requests overridden) v hv).1 hover
  exact ⟨v, hv, hrole, hstep⟩

end Sales

end OpenDataGov
