import Mathlib.Data.List.Infix
import OpenDataGov.Governance.Lifecycle

/-!
# Decisions that await approval

Whether all the users required to approve a decision have is checked when somebody
votes in favour of it, and only then.

So a decision may await approval although nothing is missing. To say when, each outcome of a call
is asked what it takes to leave a decision so (`Outcome.stalled`): either the decision has been so
before, or the call has not added an approval. Going back along the run leads to the last vote in
favour, which has been counted, and to a change of the roles after it.

* `awaiting_of_fullyApproved`: a decision awaits approval, although all the users
  required to approve it have, only if a role of its domain has been assigned or
  revoked after the last vote in its favour;
* `awaiting_iff_abstained`: as long as the roles stay the same, a decision on which
  all have voted awaits approval exactly when nobody is against it and somebody who
  is required to approve has abstained.

A vote is cast once and stays: a member who has abstained cannot approve any more, and a decision
that waits for them waits until it is vetoed.
-/

namespace OpenDataGov

open Calendar ApprovalService Keyed

/-- The assignments for a domain. -/
def Registry.roster (r : Registry) (domainId : Bounded 1 100) : List RACIAssignment :=
  r.assignments.rows.filter fun a => a.domainId = domainId

variable {r r' : Registry} {fresh : ℕ → Stamp} {c : Call} {d d' : GovernanceDecision}
  {x : ApprovalRecord} {id : UUID} {domainId : Bounded 1 100} {u : Bounded 1 200}
  {vote : VoteValue}

/-- Who is required to approve a decision stands in the roster of its domain. -/
theorem required_iff_roster :
    r.Required domainId u ↔ ∃ a ∈ r.roster domainId, a.userId = u ∧
      a.role ∈ requiredApprovalRoles := by
  simp only [Registry.Required, Registry.roster, List.mem_filter, decide_eq_true_eq, and_assoc]

/-- Who is required to approve depends on the roster. -/
theorem required_congr (h : r'.roster domainId = r.roster domainId) :
    r'.Required domainId u ↔ r.Required domainId u := by
  rw [required_iff_roster, required_iff_roster, h]

/-! ## What a call does to a decision -/

/-- A decision keeps its domain. -/
theorem Outcome.domain (h : Outcome r fresh c r') (hd : r.decisions.get? id = some d) :
    ∃ d', r'.decisions.get? id = some d' ∧ d'.domainId = d.domainId := by
  have hmark : ∀ {r₁ : Registry} {id' : UUID} {status t md}, r₁.decisions = r.decisions →
      ∃ d', (r₁.mark id' status t md).decisions.get? id = some d' ∧
        d'.domainId = d.domainId := by
    intro r₁ id' status t md heq
    rw [decisions_mark, heq]
    by_cases hid : id = id'
    · subst hid
      rw [Table.get?_modify_self, hd]
      exact ⟨_, rfl, rfl⟩
    · rw [Table.get?_modify_of_ne hid, hd]
      exact ⟨d, rfl, rfl⟩
  cases h with
  | created => exact ⟨d, Table.get?_insert_of_get? hd, rfl⟩
  | refused | voted | overridden | assigned | revoked => exact ⟨d, hd, rfl⟩
  | submitted | rejected | approved | vetoed => exact hmark rfl

/-- A vote stays. -/
theorem Outcome.vote_mono (h : Outcome r fresh c r') (hv : r.Voted id u vote) :
    r'.Voted id u vote := by
  obtain ⟨x, hx, hvote⟩ := hv
  cases h with
  | voted | rejected | approved => exact ⟨x, Table.mem_insert_of_mem hx, hvote⟩
  | refused | created | submitted | vetoed | overridden | assigned | revoked =>
    exact ⟨x, hx, hvote⟩

/-- What a decision that awaits approval after a call was before, if all have approved
    it who are required to: there are no new votes in its favour, and all had approved
    it before, if the roster is the same. -/
structure Stalled (r r' : Registry) (id : UUID) (d d' : GovernanceDecision) : Prop where
  decision : r.decisions.get? id = some d
  awaiting : d.status = .awaitingApproval
  domain : d.domainId = d'.domainId
  old : ∀ x ∈ r'.approvals.rows, x.decisionId = id → x.vote = .approve → x ∈ r.approvals.rows
  full : r'.roster d'.domainId = r.roster d'.domainId → r.FullyApproved id d.domainId

/-- A decision that is left as it was, with no more approvals than before. -/
theorem stalled_of_old (hd' : r.decisions.get? id = some d')
    (hawaiting : d'.status = .awaitingApproval) (hfull : r'.FullyApproved id d'.domainId)
    (hold : ∀ x ∈ r'.approvals.rows, x.decisionId = id → x.vote = .approve →
      x ∈ r.approvals.rows) : Stalled r r' id d' d' := by
  refine ⟨hd', hawaiting, rfl, hold, fun hroster => ?_⟩
  obtain ⟨⟨u, hu⟩, hall⟩ := hfull
  refine ⟨⟨u, (required_congr hroster).1 hu⟩, fun u hu => ?_⟩
  obtain ⟨x, hx, hid, hvoter, hvote⟩ := hall u ((required_congr hroster).2 hu)
  exact ⟨x, hold x hx hid hvote, hid, hvoter, hvote⟩

/-- A vote that is not in favour of the decision adds no approval of it. -/
theorem old_of_withVote (hx : r.approvals.get? x.id = none)
    (hne : x.decisionId = id → x.vote ≠ .approve) :
    ∀ y ∈ (r.withVote x).approvals.rows, y.decisionId = id → y.vote = .approve →
      y ∈ r.approvals.rows := by
  intro y hy hid happrove
  rcases (mem_withVote hx).1 hy with hy | rfl
  · exact hy
  · exact absurd happrove (hne hid)

/-- A call does not leave a decision waiting that becomes fully approved by a vote. -/
theorem Outcome.stalled (h : Outcome r fresh c r') (hi : Inv r)
    (hd' : r'.decisions.get? id = some d') (hawaiting : d'.status = .awaitingApproval)
    (hfull : r'.FullyApproved id d'.domainId) : ∃ d, Stalled r r' id d d' := by
  -- A decision marked as something else does not wait; another one was there before.
  have hmark : ∀ {r₁ : Registry} {id' : UUID} {status t md}, r₁.decisions = r.decisions →
      status ≠ .awaitingApproval → (r₁.mark id' status t md).decisions.get? id = some d' →
      id' ≠ id ∧ r.decisions.get? id = some d' := by
    intro r₁ id' status t md heq hne hget
    obtain ⟨hid, hold⟩ := get?_of_mark_of_ne heq hget (hawaiting.trans_ne hne.symm)
    exact ⟨hid.symm, hold⟩
  cases h with
  -- None of these is about a decision or a vote.
  | refused | overridden | assigned | revoked =>
    exact ⟨d', stalled_of_old hd' hawaiting hfull fun x hx _ _ => hx⟩
  | created hpending =>
    rcases get?_of_withDecision hd' with rfl | hold
    · exact absurd (hpending.symm.trans hawaiting) (by decide)
    · exact ⟨d', stalled_of_old hold hawaiting hfull fun x hx _ _ => hx⟩
  | submitted hd hpending =>
    rcases get?_of_mark hd' with ⟨rfl, _⟩ | ⟨_, hold⟩
    · -- There are no votes on a pending decision.
      obtain ⟨⟨u, hu⟩, hall⟩ := hfull
      obtain ⟨x, hx, hid, _⟩ := hall u hu
      exact absurd hid ((hi.evidence_get? hd).pending hpending x hx)
    · exact ⟨d', stalled_of_old hold hawaiting hfull fun x hx _ _ => hx⟩
  | @voted d x hb _ hnot =>
    refine ⟨d', stalled_of_old hd' hawaiting hfull
      (old_of_withVote hb.fresh fun hid happrove => ?_)⟩
    subst hid
    obtain rfl : d = d' := Option.some.inj (hb.decision.symm.trans hd')
    exact hnot happrove hfull
  | rejected hb =>
    obtain ⟨hne, hold⟩ := hmark rfl (by decide) hd'
    exact ⟨d', stalled_of_old hold hawaiting hfull (old_of_withVote hb.fresh fun e => absurd e hne)⟩
  | approved hb =>
    obtain ⟨hne, hold⟩ := hmark rfl (by decide) hd'
    exact ⟨d', stalled_of_old hold hawaiting hfull (old_of_withVote hb.fresh fun e => absurd e hne)⟩
  | vetoed =>
    obtain ⟨_, hold⟩ := hmark rfl (by decide) hd'
    exact ⟨d', stalled_of_old hold hawaiting hfull fun x hx _ _ => hx⟩

/-- Being fully approved, as long as the roster stays the same. -/
theorem Outcome.fullyApproved (h : Outcome r fresh c r')
    (hroster : r'.roster domainId = r.roster domainId) (hfull : r.FullyApproved id domainId) :
    r'.FullyApproved id domainId := by
  obtain ⟨⟨u, hu⟩, hall⟩ := hfull
  exact ⟨⟨u, (required_congr hroster).2 hu⟩,
    fun u hu => h.vote_mono (hall u ((required_congr hroster).1 hu))⟩

/-- The decision is approved when all who are required to have approved it, and does
    not wait then. -/
structure Decided (r : Registry) (id : UUID) : Prop where
  awaiting : ∀ d, r.decisions.get? id = some d → d.status = .awaitingApproval →
    ¬r.FullyApproved id d.domainId
  approved : ∀ d, r.decisions.get? id = some d → d.status = .approved →
    r.FullyApproved id d.domainId

/-- A call that leaves the roster leaves a decision decided. -/
theorem Decided.step (hdecided : Decided r id) (h : Outcome r fresh c r') (hi : Inv r)
    (hroster : ∀ d, r.decisions.get? id = some d → r'.roster d.domainId = r.roster d.domainId) :
    Decided r' id where
  awaiting d' hd' hawaiting hfull := by
    obtain ⟨d, hs⟩ := h.stalled hi hd' hawaiting hfull
    exact hdecided.awaiting d hs.decision hs.awaiting
      (hs.full (hs.domain ▸ hroster d hs.decision))
  approved d' hd' happroved := by
    by_cases hnew : ∀ d, r.decisions.get? id = some d → d.status ≠ .approved
    · obtain ⟨d, x, ha, rfl, hdomain⟩ := h.approves hd' happroved hnew
      obtain ⟨t, rfl⟩ := ha.result
      exact hdomain ▸ ha.full
    · push Not at hnew
      obtain ⟨d, hd, hold⟩ := hnew
      obtain ⟨d₁, hd₁, hdomain⟩ := h.domain hd
      obtain rfl : d₁ = d' := Option.some.inj (hd₁.symm.trans hd')
      rw [hdomain]
      exact h.fullyApproved (hroster d hd) (hdecided.approved d hd hold)

/-- A pending decision is decided, and so is one that was pending before a call. -/
theorem Decided.of_pending (h : Outcome r fresh c r') (hi : Inv r)
    (hd : r.decisions.get? id = some d) (hpending : d.status = .pending) : Decided r' id where
  awaiting d' hd' hawaiting hfull := by
    obtain ⟨d₁, hs⟩ := h.stalled hi hd' hawaiting hfull
    obtain rfl : d₁ = d := Option.some.inj (hs.decision.symm.trans hd)
    exact absurd (hpending.symm.trans hs.awaiting) (by decide)
  approved d' hd' happroved := by
    have hnew : ∀ d, r.decisions.get? id = some d → d.status ≠ .approved := by
      intro d₁ hd₁
      cases hd.symm.trans hd₁
      rw [hpending]
      decide
    obtain ⟨d₁, x, ha, rfl, hdomain⟩ := h.approves hd' happroved hnew
    obtain ⟨t, rfl⟩ := ha.result
    exact hdomain ▸ ha.full

/-- A decided decision on which all have voted waits exactly when nobody is against it
    and somebody who is required to approve has abstained. -/
theorem Decided.awaiting_iff (hdecided : Decided r id) (hi : Inv r)
    (hd : r.decisions.get? id = some d) (hrequired : ∃ u, r.Required d.domainId u)
    (hvoted : ∀ a ∈ r.roster d.domainId, ∃ v, r.Voted id a.userId v) :
    d.status = .awaitingApproval ↔
      (∀ x ∈ r.approvals.rows, x.decisionId = id → x.vote ≠ .reject) ∧
      (∀ v ∈ r.vetoes.rows, v.decisionId ≠ id) ∧
      ∃ u, r.Required d.domainId u ∧ r.Voted id u .abstain := by
  have he := hi.evidence_get? hd
  have hall : ∀ u, r.Required d.domainId u → ∃ v, r.Voted id u v := by
    intro u hu
    obtain ⟨a, ha, rfl, _⟩ := required_iff_roster.1 hu
    exact hvoted a ha
  constructor
  · intro hawaiting
    have hreject := he.vote_ne_reject (by rw [hawaiting]; decide)
    refine ⟨hreject, he.veto_ne (by rw [hawaiting]; decide), ?_⟩
    -- Somebody has not approved, and has voted all the same.
    have hnot := hdecided.awaiting d hd hawaiting
    rw [Registry.FullyApproved, not_and] at hnot
    have hnot := hnot hrequired
    push Not at hnot
    obtain ⟨u, hu, hnot⟩ := hnot
    obtain ⟨v, hv⟩ := hall u hu
    refine ⟨u, hu, ?_⟩
    cases v with
    | approve => exact absurd hv hnot
    | reject =>
      obtain ⟨x, hx, hid, _, hvote⟩ := hv
      exact absurd hvote (hreject x hx hid)
    | abstain => exact hv
  · rintro ⟨hreject, hveto, u, hu, habstain⟩
    obtain ⟨x, hx, hid, hvoter, hvote⟩ := habstain
    cases hstatus : d.status with
    | awaitingApproval => rfl
    | pending => exact absurd hid (he.pending hstatus x hx)
    | approved =>
      -- The one who has abstained would have approved as well.
      obtain ⟨y, hy, hid', hvoter', happrove⟩ := (hdecided.approved d hd hstatus).2 u hu
      cases hi.sound.once x hx y hy (hid.trans hid'.symm) (hvoter.trans hvoter'.symm)
      exact absurd (hvote.symm.trans happrove) (by decide)
    | rejected =>
      obtain ⟨y, hy, hid', hvote'⟩ := (hstatus ▸ he).exists_reject
      exact absurd hvote' (hreject y hy hid')
    | vetoed =>
      obtain ⟨v, hv, hid'⟩ := (hstatus ▸ he).exists_veto
      exact absurd hid' (hveto v hv)
    -- No service sets this status.
    | escalated => exact absurd hstatus he.final

section Waiting

variable [Hashlib] [Postgres]

/-- The roster of a domain changes with the request `q`, after `qs`. -/
def Reassigns (qs : List Request) (q : Request) (domainId : Bounded 1 100) : Prop :=
  (q.exec (execAll qs .empty)).toRegistry.roster domainId ≠
    (execAll qs .empty).toRegistry.roster domainId

/-- No decision of which all that are required to have approved it is left waiting,
    unless a role of its domain has been assigned or revoked after the last vote in
    its favour. -/
theorem awaiting_of_fullyApproved (qs : List Request) {d : GovernanceDecision}
    (hd : (execAll qs .empty).decisions.get? id = some d)
    (hawaiting : d.status = .awaitingApproval) :
    (¬∃ u, (execAll qs .empty).toRegistry.Required d.domainId u) ∨
    (∃ u, (execAll qs .empty).toRegistry.Required d.domainId u ∧
      ¬(execAll qs .empty).toRegistry.Voted id u .approve) ∨
    ∃ qs₁ q qs₂, qs = qs₁ ++ q :: qs₂ ∧ Reassigns qs₁ q d.domainId ∧
      ∀ x ∈ (execAll qs .empty).approvals.rows, x.decisionId = id → x.vote = .approve →
        x ∈ (q.exec (execAll qs₁ .empty)).approvals.rows := by
  by_cases hfull : (execAll qs .empty).toRegistry.FullyApproved id d.domainId
  · refine .inr (.inr ?_)
    induction qs using List.reverseRecOn generalizing d with
    | nil => cases hd
    | append_singleton qs q ih =>
      simp only [execAll_concat] at hd hfull ⊢
      -- Either this request changes the roster, or one before it did.
      by_cases hroster : Reassigns qs q d.domainId
      · exact ⟨qs, q, [], rfl, hroster, fun x hx _ _ => hx⟩
      obtain ⟨d₀, h⟩ := q.outcome.stalled (inv_execAll qs) hd hawaiting hfull
      obtain ⟨qs₁, q₁, qs₂, rfl, hreassigns, hold⟩ :=
        ih h.decision h.awaiting (h.full (not_not.1 hroster))
      refine ⟨qs₁, q₁, qs₂ ++ [q], by simp, h.domain ▸ hreassigns, fun x hx hid happrove => ?_⟩
      exact hold x (h.old x hx hid happrove) hid happrove
  · rw [Registry.FullyApproved, not_and_or] at hfull
    rcases hfull with hnone | hnot
    · exact .inl hnone
    · push Not at hnot
      exact .inr (.inl hnot)

/-- A decision stays, with its domain. -/
theorem domain_execAll {s : Store} (qs : List Request) (hd : s.decisions.get? id = some d) :
    ∃ d', (execAll qs s).decisions.get? id = some d' ∧ d'.domainId = d.domainId := by
  induction qs generalizing s d with
  | nil => exact ⟨d, hd, rfl⟩
  | cons q qs ih =>
    obtain ⟨d₁, hd₁, hdomain⟩ := q.outcome.domain hd
    obtain ⟨d', hd', hdomain'⟩ := ih hd₁
    exact ⟨d', hd', hdomain'.trans hdomain⟩

/-- A decision that is pending before a request is decided at any time after it, as long
    as the roster of its domain stays the same. -/
theorem decided_execAll {qs₁ : List Request} {q : Request} {qs₂ : List Request}
    (hd : (execAll qs₁ .empty).decisions.get? id = some d) (hpending : d.status = .pending)
    (hroster : ∀ qs₃, qs₃ <+: qs₂ →
      (execAll (qs₁ ++ q :: qs₃) .empty).toRegistry.roster d.domainId =
        (execAll (qs₁ ++ [q]) .empty).toRegistry.roster d.domainId) :
    Decided (execAll (qs₁ ++ q :: qs₂) .empty).toRegistry id := by
  induction qs₂ using List.reverseRecOn with
  | nil =>
    rw [execAll_concat]
    exact .of_pending q.outcome (inv_execAll qs₁) hd hpending
  | append_singleton qs₂ q' ih =>
    have ih := ih fun qs₃ h => hroster qs₃ (h.trans (List.prefix_append _ _))
    have hlast : execAll (qs₁ ++ q :: (qs₂ ++ [q'])) .empty =
        q'.exec (execAll (qs₁ ++ q :: qs₂) .empty) := by
      rw [← execAll_concat, List.append_assoc, List.cons_append]
    have hsame := (hroster _ (List.prefix_refl _)).trans
      (hroster _ (List.prefix_append _ _)).symm
    rw [hlast] at hsame ⊢
    refine ih.step q'.outcome (inv_execAll _) fun d' hd' => ?_
    obtain ⟨d₁, hd₁, hdomain⟩ := domain_execAll (q :: qs₂) hd
    rw [← execAll_append] at hd₁
    obtain rfl : d₁ = d' := Option.some.inj (hd₁.symm.trans hd')
    rw [hdomain]
    exact hsame

/-- As long as the roster of its domain stays as it was after its submission (the request
    `q`, before which it was pending), a decision on which all of the roster have voted
    awaits approval exactly when nobody is against it and somebody who is required to
    approve has abstained. -/
theorem awaiting_iff_abstained (qs₁ : List Request) (q : Request) (qs₂ : List Request)
    {d₀ d : GovernanceDecision} (hd₀ : (execAll qs₁ .empty).decisions.get? id = some d₀)
    (hpending : d₀.status = .pending)
    (hroster : ∀ qs₃, qs₃ <+: qs₂ →
      (execAll (qs₁ ++ q :: qs₃) .empty).toRegistry.roster d₀.domainId =
        (execAll (qs₁ ++ [q]) .empty).toRegistry.roster d₀.domainId)
    (hd : (execAll (qs₁ ++ q :: qs₂) .empty).decisions.get? id = some d)
    (hrequired : ∃ u, (execAll (qs₁ ++ q :: qs₂) .empty).toRegistry.Required d.domainId u)
    (hvoted : ∀ a ∈ (execAll (qs₁ ++ q :: qs₂) .empty).toRegistry.roster d.domainId,
      ∃ v, (execAll (qs₁ ++ q :: qs₂) .empty).toRegistry.Voted id a.userId v) :
    d.status = .awaitingApproval ↔
      (∀ x ∈ (execAll (qs₁ ++ q :: qs₂) .empty).approvals.rows,
        x.decisionId = id → x.vote ≠ .reject) ∧
      (∀ v ∈ (execAll (qs₁ ++ q :: qs₂) .empty).vetoes.rows, v.decisionId ≠ id) ∧
      ∃ u, (execAll (qs₁ ++ q :: qs₂) .empty).toRegistry.Required d.domainId u ∧
        (execAll (qs₁ ++ q :: qs₂) .empty).toRegistry.Voted id u .abstain :=
  (decided_execAll hd₀ hpending hroster).awaiting_iff (inv_execAll _) hd hrequired hvoted

end Waiting

namespace Sales

attribute [local instance] Hashlib.standard Postgres.stable

/-- Bob approves the decision. Then cleo, who would have to, loses her role. -/
def revoked : List Call :=
  submitted [("bob", .responsible), ("cleo", .accountable)] ++
    [.castVote decision "bob" .approve "fine", .revokeRole (Sales.fresh 2 0).id "ann"]

/-- The tables after the revocation. -/
def afterRevoked : Store := execAll (requests revoked) .empty

/-- The decision that waits, after the role of the last one missing has been revoked. -/
def waiting : GovernanceDecision :=
  (afterRevoked.decisions.get? decision).get (by decide +kernel)

/-- What it waits for: of the three cases it is the last one, -/
theorem waiting_after_revocation :
    (¬∃ u, afterRevoked.toRegistry.Required waiting.domainId u) ∨
    (∃ u, afterRevoked.toRegistry.Required waiting.domainId u ∧
      ¬afterRevoked.toRegistry.Voted decision u .approve) ∨
    ∃ qs₁ q qs₂, requests revoked = qs₁ ++ q :: qs₂ ∧ Reassigns qs₁ q waiting.domainId ∧
      ∀ x ∈ afterRevoked.approvals.rows, x.decisionId = decision → x.vote = .approve →
        x ∈ (q.exec (execAll qs₁ .empty)).approvals.rows :=
  awaiting_of_fullyApproved (requests revoked) (Option.some_get _).symm (by decide +kernel)

/-- as everybody who is still required has approved it. -/
theorem fullyApproved_afterRevoked :
    afterRevoked.toRegistry.FullyApproved decision waiting.domainId := by
  have hall : ∀ u ∈ requiredVoters (afterRevoked.assignments.rows.filter fun a =>
      a.domainId.text = waiting.domainId.text), u ∈ approvedVoters (orderBy
        (fun r : ApprovalRecord => r.votedAt.instant) <|
          afterRevoked.approvals.rows.filter fun r => r.decisionId = decision) := by
    decide +kernel
  have hbob : (⟨"bob", by decide⟩ : Bounded 1 200) ∈ requiredVoters
      (afterRevoked.assignments.rows.filter fun a =>
        a.domainId.text = waiting.domainId.text) := by
    decide +kernel
  exact ⟨⟨_, (mem_requiredVoters rfl).1 hbob⟩, fun u hu =>
    (mem_approvedVoters rfl).1 (hall u ((mem_requiredVoters rfl).2 hu))⟩

/-- All who are required to approve the decision have, and it waits. -/
theorem waiting_fullyApproved : ¬∀ (qs : List Request) (id : UUID) (d : GovernanceDecision),
    (execAll qs .empty).decisions.get? id = some d → d.status = .awaitingApproval →
    (¬∃ u, (execAll qs .empty).toRegistry.Required d.domainId u) ∨
    ∃ u, (execAll qs .empty).toRegistry.Required d.domainId u ∧
      ¬(execAll qs .empty).toRegistry.Voted id u .approve := by
  intro h
  obtain ⟨hsome, hall⟩ := fullyApproved_afterRevoked
  rcases h (requests revoked) decision waiting (Option.some_get _).symm (by decide +kernel)
    with hnone | ⟨u, hu, hnot⟩
  · exact hnone hsome
  · exact hnot (hall u hu)

/-- A decision that bob is required to approve and cleo is asked about is pending. -/
def pending : List Request :=
  requests (submitted [("bob", .responsible), ("cleo", .consulted)]).dropLast

/-- The decision is submitted. -/
def submission : Request := ⟨.submitForApproval decision "ann", Sales.fresh 3, .transaction⟩

/-- Bob abstains, and cleo approves. -/
def votes : List Request := [
  ⟨.castVote decision "bob" .abstain "", Sales.fresh 4, .transaction⟩,
  ⟨.castVote decision "cleo" .approve "", Sales.fresh 5, .transaction⟩]

/-- The tables after the votes. -/
def afterVotes : Store := execAll (pending ++ submission :: votes) .empty

/-- The decision after all have voted. -/
def abstained : GovernanceDecision :=
  (afterVotes.decisions.get? decision).get (by decide +kernel)

/-- The decision while it is pending, -/
def beforeSubmission : GovernanceDecision :=
  ((execAll pending .empty).decisions.get? decision).get (by decide +kernel)

/-- and when it has been submitted. -/
def afterSubmission : GovernanceDecision :=
  ((execAll (pending ++ [submission]) .empty).decisions.get? decision).get (by decide +kernel)

/-- The votes leave the roster as it is. -/
theorem roster_votes : ∀ qs₃, qs₃ <+: votes →
    (execAll (pending ++ submission :: qs₃) .empty).toRegistry.roster beforeSubmission.domainId =
      (execAll (pending ++ [submission]) .empty).toRegistry.roster beforeSubmission.domainId := by
  have h : ∀ qs₃ ∈ votes.inits,
      (execAll (pending ++ submission :: qs₃) .empty).toRegistry.roster
        beforeSubmission.domainId =
      (execAll (pending ++ [submission]) .empty).toRegistry.roster beforeSubmission.domainId := by
    decide +kernel
  exact fun qs₃ hqs₃ => h qs₃ ((List.mem_inits _ _).2 hqs₃)

/-- Somebody has to approve the decision, -/
theorem required_afterVotes : ∃ u, afterVotes.toRegistry.Required abstained.domainId u :=
  ⟨⟨"bob", by decide⟩, by decide +kernel⟩

/-- and everybody has voted. -/
theorem voted_afterVotes : ∀ a ∈ afterVotes.toRegistry.roster abstained.domainId,
    ∃ v, afterVotes.toRegistry.Voted decision a.userId v := by
  have h : ∀ a ∈ afterVotes.toRegistry.roster abstained.domainId,
      afterVotes.toRegistry.Voted decision a.userId .abstain ∨
        afterVotes.toRegistry.Voted decision a.userId .approve := by
    decide +kernel
  intro a ha
  rcases h a ha with hv | hv
  · exact ⟨_, hv⟩
  · exact ⟨_, hv⟩

/-- So it waits for the one who has abstained. -/
theorem abstained_iff : abstained.status = .awaitingApproval ↔
    (∀ x ∈ afterVotes.approvals.rows, x.decisionId = decision → x.vote ≠ .reject) ∧
    (∀ v ∈ afterVotes.vetoes.rows, v.decisionId ≠ decision) ∧
    ∃ u, afterVotes.toRegistry.Required abstained.domainId u ∧
      afterVotes.toRegistry.Voted decision u .abstain :=
  awaiting_iff_abstained pending submission votes (Option.some_get _).symm (by decide +kernel)
    roster_votes (Option.some_get _).symm required_afterVotes voted_afterVotes

/-- All have voted on the decision, and it waits. -/
theorem waiting_after_abstention : ¬∀ (qs₁ : List Request) (q : Request) (qs₂ : List Request)
    (id : UUID) (d₀ d₁ d : GovernanceDecision),
    (execAll qs₁ .empty).decisions.get? id = some d₀ → d₀.status = .pending →
    (execAll (qs₁ ++ [q]) .empty).decisions.get? id = some d₁ → d₁.status = .awaitingApproval →
    (∀ qs₃, qs₃ <+: qs₂ →
      (execAll (qs₁ ++ q :: qs₃) .empty).toRegistry.roster d₀.domainId =
        (execAll (qs₁ ++ [q]) .empty).toRegistry.roster d₀.domainId) →
    (execAll (qs₁ ++ q :: qs₂) .empty).decisions.get? id = some d →
    (∃ u, (execAll (qs₁ ++ q :: qs₂) .empty).toRegistry.Required d.domainId u) →
    (∀ a ∈ (execAll (qs₁ ++ q :: qs₂) .empty).toRegistry.roster d.domainId,
      ∃ v, (execAll (qs₁ ++ q :: qs₂) .empty).toRegistry.Voted id a.userId v) →
    d.status ≠ .awaitingApproval := by
  intro h
  exact h pending submission votes decision beforeSubmission afterSubmission abstained
    (Option.some_get _).symm (by decide +kernel) (Option.some_get _).symm (by decide +kernel)
    roster_votes (Option.some_get _).symm required_afterVotes voted_afterVotes (by decide +kernel)

end Sales

end OpenDataGov
