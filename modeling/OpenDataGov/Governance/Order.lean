import Mathlib.Data.List.Flatten
import OpenDataGov.Governance.Progress
import OpenDataGov.Governance.Replay

/-!
# The order of the votes

All members of a roster vote on a decision that awaits approval, each as they intend
to. What comes of it does not depend on who votes first: at any time, the status is
the `tally` of those who have voted.

The tally is what the votes say, written without the services: a vote against the decision
rejects it, and it is approved when all members with a required role are in favour. It does not
look at the votes after the decision has been finalized, as the services refuse these. That the
`verdict`, the tally of all of the votes, is the same for all orders is then a fact about
lists; that the services compute it is what is proved here, vote by vote.

* `castVote_succeeds`: a member who has not voted yet can vote;
* `Polled.exec`: a vote keeps the status the tally of the votes;
* `verdict_of_votes`: when all have voted, in whichever order, the status is the
  `verdict`, and a decision is approved at the last vote that is required.

A user has at most one role in a domain (`Registry.OneRole`), which the services see to, and so
one vote that counts.
-/

namespace OpenDataGov

open Transact Program ApprovalService AuditService Keyed

/-! ## Tallies -/

section Tallies

variable (roster : List RACIAssignment) (intent : RACIAssignment → VoteValue)

/-- There are members of the roster whose approval is required, and they have voted in
    favour. -/
def Favoured (voted : List RACIAssignment) : Prop :=
  (∃ a ∈ roster, a.role ∈ requiredApprovalRoles) ∧
    ∀ a ∈ roster, a.role ∈ requiredApprovalRoles → a ∈ voted ∧ intent a = .approve

instance {voted : List RACIAssignment} : Decidable (Favoured roster intent voted) :=
  inferInstanceAs (Decidable ((∃ a ∈ roster, _) ∧ ∀ a ∈ roster, _))

/-- The status of a decision on which some members of the roster have voted. -/
def tally (voted : List RACIAssignment) : DecisionStatus :=
  if ∃ a ∈ voted, intent a = .reject then .rejected
  else if Favoured roster intent voted then .approved
  else .awaitingApproval

/-- The status of a decision on which all of them have. -/
def verdict : DecisionStatus :=
  if ∃ a ∈ roster, intent a = .reject then .rejected
  else if (∃ a ∈ roster, a.role ∈ requiredApprovalRoles) ∧
      ∀ a ∈ roster, a.role ∈ requiredApprovalRoles → intent a = .approve then .approved
  else .awaitingApproval

variable {roster intent} {voted order : List RACIAssignment} {a : RACIAssignment}

/-- The order of the votes does not matter for the tally. -/
theorem tally_of_perm (h : order.Perm roster) :
    tally roster intent order = verdict roster intent := by
  have hfavoured : Favoured roster intent order ↔ (∃ a ∈ roster, a.role ∈ requiredApprovalRoles) ∧
      ∀ a ∈ roster, a.role ∈ requiredApprovalRoles → intent a = .approve := by
    refine and_congr_right' ⟨fun hall a ha hrole => (hall a ha hrole).2, fun hall a ha hrole => ?_⟩
    exact ⟨h.mem_iff.2 ha, hall a ha hrole⟩
  simp only [tally, verdict, h.mem_iff, hfavoured]

/-- A decision goes on waiting if nobody is against it, and somebody required has not voted. -/
theorem tally_eq_awaiting : tally roster intent voted = .awaitingApproval ↔
    (∀ a ∈ voted, intent a ≠ .reject) ∧ ¬Favoured roster intent voted := by
  rw [tally]
  split_ifs with hreject hfavoured
  · exact iff_of_false (by decide) fun h => hreject.elim fun a ha => h.1 a ha.1 ha.2
  · exact iff_of_false (by decide) fun h => h.2 hfavoured
  · exact iff_of_true rfl ⟨fun a ha hr => hreject ⟨a, ha, hr⟩, hfavoured⟩

/-- Another vote in favour or an abstention leads to an approval or to nothing. -/
theorem tally_concat (hawaiting : tally roster intent voted = .awaitingApproval)
    (ha : intent a ≠ .reject) : tally roster intent (voted ++ [a]) =
      if Favoured roster intent (voted ++ [a]) then .approved else .awaitingApproval := by
  refine if_neg ?_
  rintro ⟨b, hb, hreject⟩
  rcases List.mem_append.1 hb with hb | hb
  · exact (tally_eq_awaiting.1 hawaiting).1 b hb hreject
  · exact ha (List.mem_singleton.1 hb ▸ hreject)

/-- A vote against the decision rejects it. -/
theorem tally_concat_reject (ha : intent a = .reject) :
    tally roster intent (voted ++ [a]) = .rejected :=
  if_pos ⟨a, by simp, ha⟩

/-- A tally that is final stays as it is: those who could be against the decision have
    voted when it is approved. -/
theorem tally_concat_of_final (hfinal : tally roster intent voted ≠ .awaitingApproval)
    (hmem : a ∈ roster) (hnew : a ∉ voted)
    (hreject : intent a = .reject → a.role ∈ requiredApprovalRoles) :
    tally roster intent (voted ++ [a]) = tally roster intent voted := by
  by_cases hagainst : ∃ b ∈ voted, intent b = .reject
  · obtain ⟨b, hb, hb'⟩ := hagainst
    rw [tally, tally, if_pos ⟨b, List.mem_append_left _ hb, hb'⟩, if_pos ⟨b, hb, hb'⟩]
  have hfavoured : Favoured roster intent voted := by
    by_contra hnot
    exact hfinal (tally_eq_awaiting.2 ⟨fun b hb hb' => hagainst ⟨b, hb, hb'⟩, hnot⟩)
  have hagainst' : ¬∃ b ∈ voted ++ [a], intent b = .reject := by
    rintro ⟨b, hb, hb'⟩
    rcases List.mem_append.1 hb with hb | hb
    · exact hagainst ⟨b, hb, hb'⟩
    · rw [List.mem_singleton.1 hb] at hb'
      exact hnew (hfavoured.2 a hmem (hreject hb')).1
  have hfavoured' : Favoured roster intent (voted ++ [a]) :=
    ⟨hfavoured.1, fun b hb hrole => (hfavoured.2 b hb hrole).imp_left (List.mem_append_left _)⟩
  rw [tally, tally, if_neg hagainst, if_neg hagainst', if_pos hfavoured, if_pos hfavoured']

/-- An approved decision has nobody against it, somebody who had to approve it, and the approval of
    all of these. -/
theorem verdict_eq_approved (h : verdict roster intent = .approved) :
    (∀ a ∈ roster, intent a ≠ .reject) ∧ (∃ a ∈ roster, a.role ∈ requiredApprovalRoles) ∧
      ∀ a ∈ roster, a.role ∈ requiredApprovalRoles → intent a = .approve := by
  rw [verdict] at h
  split_ifs at h with hreject hfavoured
  exact ⟨fun a ha hr => hreject ⟨a, ha, hr⟩, hfavoured⟩

/-- A decision is approved at the last vote that is required. -/
theorem tally_of_last {before after : List RACIAssignment}
    (h : verdict roster intent = .approved) (horder : (before ++ a :: after).Perm roster)
    (hnodup : roster.Nodup) (ha : a.role ∈ requiredApprovalRoles)
    (hlast : ∀ b ∈ after, b.role ∉ requiredApprovalRoles) :
    tally roster intent before = .awaitingApproval ∧
      tally roster intent (before ++ [a]) = .approved := by
  obtain ⟨hreject, hsome, happrove⟩ := verdict_eq_approved h
  have hmem : ∀ {b}, b ∈ before ++ a :: after → b ∈ roster := fun hb => horder.mem_iff.1 hb
  constructor
  · refine tally_eq_awaiting.2 ⟨fun b hb => hreject b (hmem (List.mem_append_left _ hb)), ?_⟩
    intro hfavoured
    have hbefore := (hfavoured.2 a (hmem (by simp)) ha).1
    exact (List.nodup_append'.1 (horder.nodup_iff.2 hnodup)).2.2 hbefore List.mem_cons_self
  · -- Those who vote after `a` need not approve, so all who must have voted.
    rw [tally, if_neg, if_pos]
    · refine ⟨hsome, fun b hb hrole => ⟨?_, happrove b hb hrole⟩⟩
      rcases List.mem_append.1 (horder.mem_iff.2 hb) with hb' | hb'
      · exact List.mem_append_left _ hb'
      · rcases List.mem_cons.1 hb' with rfl | hb'
        · simp
        · exact absurd hrole (hlast b hb')
    · rintro ⟨b, hb, hb'⟩
      refine hreject b (hmem ?_) hb'
      rcases List.mem_append.1 hb with hb | hb
      · exact List.mem_append_left _ hb
      · exact List.mem_append_right _ (List.mem_singleton.1 hb ▸ List.mem_cons_self)

end Tallies

/-! ## Voting -/

/-- No user has two roles in a domain. -/
def Registry.OneRole (r : Registry) : Prop :=
  ∀ a ∈ r.assignments.rows, ∀ b ∈ r.assignments.rows, a.userId = b.userId →
    a.domainId = b.domainId → a = b

/-- The members of a roster are different users. -/
theorem Registry.OneRole.eq_of_roster {r : Registry} (h : r.OneRole) {domainId : Bounded 1 100}
    {a b : RACIAssignment} (ha : a ∈ r.roster domainId) (hb : b ∈ r.roster domainId)
    (hu : a.userId = b.userId) : a = b := by
  obtain ⟨ha, hda⟩ := List.mem_filter.1 ha
  obtain ⟨hb, hdb⟩ := List.mem_filter.1 hb
  exact h a ha b hb hu ((of_decide_eq_true hda).trans (of_decide_eq_true hdb).symm)

/-- The member `a` of the roster can vote on the decision `d`, and the identifiers that
    the call is given are new. -/
structure Votable (s : Store) (fresh : ℕ → Stamp) (d : GovernanceDecision)
    (a : RACIAssignment) : Prop where
  decision : s.decisions.get? d.id = some d
  awaiting : d.status = .awaitingApproval
  member : a ∈ s.toRegistry.roster d.domainId
  role : s.toRegistry.OneRole
  first : ∀ y ∈ s.approvals.rows, y.decisionId = d.id → y.voterId ≠ a.userId
  free : ∀ n < 4, s.Free (fresh n).id
  distinct : (fresh 1).id ≠ (fresh 3).id

section Voting

variable [Postgres] {s : Store} {fresh : ℕ → Stamp} {d : GovernanceDecision}
  {a : RACIAssignment} {vote : VoteValue} {comment : String}

/-- The only role of a user in a domain is found. -/
theorem selectAssignment_of_oneRole {domainId : Bounded 1 100} (h : s.toRegistry.OneRole)
    (hmem : a ∈ s.assignments.rows) (hdomain : a.domainId = domainId) :
    answer (.selectAssignment a.userId.text domainId.text) s = .ok (some a) := by
  have hsame : ∀ b ∈ s.assignments.rows.filter (fun b => b.userId.text = a.userId.text ∧
      b.domainId.text = domainId.text), b = a := by
    intro b hb
    obtain ⟨hb, hab⟩ := List.mem_filter.1 hb
    obtain ⟨hu, hd⟩ := of_decide_eq_true hab
    exact h b hb a hmem (Bounded.text_injective hu)
      ((Bounded.text_injective hd).trans hdomain.symm)
  have hin : a ∈ s.assignments.rows.filter (fun b => b.userId.text = a.userId.text ∧
      b.domainId.text = domainId.text) :=
    List.mem_filter.2 ⟨hmem, decide_eq_true ⟨rfl, congrArg Bounded.text hdomain⟩⟩
  obtain ⟨x, hx⟩ := scalarOneOrNone_of_subsingleton
    ((List.Nodup.of_map _ s.assignments.nodup).filter _)
    fun b hb c hc => (hsame b hb).trans (hsame c hc).symm
  cases x with
  | none => exact absurd hin (by rw [eq_nil_of_scalarOneOrNone hx]; exact List.not_mem_nil)
  | some b =>
    obtain rfl := hsame b (mem_of_scalarOneOrNone hx)
    exact hx

/-- The role of the member is found. -/
theorem Votable.selectAssignment (h : Votable s fresh d a) :
    answer (.selectAssignment a.userId.text d.domainId.text) s = .ok (some a) := by
  obtain ⟨hmem, hdomain⟩ := List.mem_filter.1 h.member
  exact selectAssignment_of_oneRole h.role hmem (of_decide_eq_true hdomain)

/-- No vote of the member is found. -/
theorem Votable.selectVote (h : Votable s fresh d a) :
    answer (.selectVote d.id a.userId.text) s = .ok none := by
  have hnil : (s.approvals.rows.filter fun y => y.decisionId = d.id ∧
      y.voterId.text = a.userId.text) = [] := by
    refine List.filter_eq_nil_iff.2 fun y hy hya => ?_
    obtain ⟨hd, hu⟩ := of_decide_eq_true hya
    exact h.first y hy hd (Bounded.text_injective hu)
  exact congrArg scalarOneOrNone hnil

variable [Hashlib]

/-- Checking the approvals does not fail when the event that may be recorded is new. -/
theorem checkAndFinalize_succeeds {fresh' : ℕ → Stamp}
    (hd : s.decisions.get? d.id = some d) (hawaiting : d.status = .awaitingApproval)
    (hfree : s.events.get? (fresh' 1).id = none) :
    (checkAndFinalize fresh' d.id d.domainId.text).wp backend (fun _ _ => True)
      (fun _ _ => False) s := by
  refine wp_answered rfl ?_
  split_ifs
  · exact wp_pure.2 trivial
  refine wp_answered rfl ?_
  split_ifs
  · exact wp_bind_of (wp_finalize ⟨"system", by decide⟩ hd hawaiting rfl)
      (fun _ _ _ => wp_pure.2 trivial) fun _ _ he => he.2 hfree
  · exact wp_pure.2 trivial

/-- A member of the roster who has not voted on a decision that awaits approval can. -/
theorem castVote_succeeds (h : Votable s fresh d a) :
    (castVote fresh d.id a.userId.text vote comment).wp backend (fun _ _ => True)
      (fun _ _ => False) s := by
  refine wp_answered (congrArg Except.ok h.decision) (wp_found_some ?_)
  refine wp_required h.awaiting ?_
  refine wp_answered h.selectAssignment (wp_found_some ?_)
  refine wp_answered h.selectVote (wp_required rfl ?_)
  -- The identifier of the voter is one that is in the roster, so that it is valid as it is.
  have hvoter : Validated.bounded 1 200 "voter_id" a.userId.text = .ok a.userId :=
    Validated.bounded_eq_ok.2 rfl
  refine wp_validate (fun voterId hvoterId => ?_) fun _ hne => hne a.userId hvoter
  obtain rfl : a.userId = voterId := Except.ok.inj (hvoter.symm.trans hvoterId)
  refine wp_bind.2 (wp_answered (q := .insertVote _) (a := ()) ?_ (wp_pure.2 ?_))
  · have hfree := (h.free 0 (by decide)).registry.approvals
    exact refers_eq_ok.2 ⟨⟨d, h.decision⟩, inserted_eq_ok.2 hfree⟩
  refine wp_bind_of (wp_recordEvent_of_free (recordable_decision _ _)
    (h.free 1 (by decide)).events) ?_ fun _ _ he => he
  rintro e _ ⟨he, rfl⟩
  -- The event that may follow has another identifier.
  have hid : e.id = (fresh 1).id := congrArg Entry.id he.entry
  have hfree : (s.events.insert e).get? (fresh 3).id = none :=
    (Table.get?_insert_of_ne (hid.trans_ne h.distinct)).trans (h.free 3 (by decide)).events
  cases vote with
  | reject =>
    exact wp_bind_of (wp_finalize a.userId h.decision h.awaiting rfl)
      (fun _ _ _ => wp_pure.2 trivial) fun _ _ he => he.2 hfree
  | approve =>
    exact wp_bind_of (checkAndFinalize_succeeds h.decision h.awaiting hfree)
      (fun _ _ _ => wp_pure.2 trivial) fun _ _ he => he
  | abstain => exact wp_pure.2 trivial

end Voting

/-! ## What a vote does -/

/-- The ways in which a vote ends. -/
inductive Cast (r : Registry) (d : GovernanceDecision) (x : ApprovalRecord) : Registry → Prop
  | counted : x.vote ≠ .reject →
      (x.vote = .approve → ¬(r.withVote x).FullyApproved x.decisionId d.domainId) →
      Cast r d x (r.withVote x)
  | rejected {t} : x.vote = .reject →
      Cast r d x ((r.withVote x).mark x.decisionId .rejected t d.metadata)
  | approved {t} : x.vote = .approve → (r.withVote x).FullyApproved x.decisionId d.domainId →
      Cast r d x ((r.withVote x).mark x.decisionId .approved t d.metadata)

section Steps

variable {r r' r₀ : Registry} {fresh : ℕ → Stamp} {id : UUID} {u v : Bounded 1 200}
  {text comment : String} {vote vote' : VoteValue} {w : List Entry} {d : GovernanceDecision}
  {x : ApprovalRecord} {voted : List RACIAssignment} {intent : RACIAssignment → VoteValue}
  {a : RACIAssignment}

/-- What a vote has done, whichever way it counted. -/
theorem Deed.cast (h : Deed r fresh (.castVote id text vote comment) r' w) :
    ∃ d x, Ballot r d x ∧ x.decisionId = id ∧ x.voterId.text = text ∧ x.vote = vote ∧
      Cast r d x r' := by
  cases h with
  | voted hb _ hreject hnot => exact ⟨_, _, hb, rfl, rfl, rfl, .counted hreject hnot⟩
  | rejected hb _ hvote => exact ⟨_, _, hb, rfl, rfl, rfl, .rejected hvote⟩
  | approved hb _ hvote hfull => exact ⟨_, _, hb, rfl, rfl, rfl, .approved hvote hfull⟩

/-- Who has voted, after another vote. -/
theorem voted_withVote (hx : r.approvals.get? x.id = none) :
    (r.withVote x).Voted id v vote ↔
      r.Voted id v vote ∨ x.decisionId = id ∧ x.voterId = v ∧ x.vote = vote := by
  constructor
  · rintro ⟨y, hy, h⟩
    rcases (mem_withVote hx).1 hy with hy | rfl
    · exact .inl ⟨y, hy, h⟩
    · exact .inr h
  · rintro (⟨y, hy, h⟩ | h)
    · exact ⟨y, (mem_withVote hx).2 (.inl hy), h⟩
    · exact ⟨x, (mem_withVote hx).2 (.inr rfl), h⟩

/-- Some members of the roster have voted on a decision: its status is their tally, and
    as long as it awaits approval, their votes are the votes on it. -/
structure Polled (r₀ : Registry) (d : GovernanceDecision) (intent : RACIAssignment → VoteValue)
    (voted : List RACIAssignment) (r : Registry) : Prop where
  assignments : r.assignments = r₀.assignments
  decision : ∃ d', r.decisions.get? d.id = some d' ∧ d'.domainId = d.domainId ∧
    d'.status = tally (r₀.roster d.domainId) intent voted
  votes : tally (r₀.roster d.domainId) intent voted = .awaitingApproval →
    ∀ u vote, r.Voted d.id u vote ↔ ∃ a ∈ voted, a.userId = u ∧ intent a = vote

/-- The roster stays the same during the poll. -/
theorem Polled.roster (hp : Polled r₀ d intent voted r) {domainId : Bounded 1 100} :
    r.roster domainId = r₀.roster domainId :=
  congrArg (fun t : Table RACIAssignment.id => t.rows.filter _) hp.assignments

/-- The decision is fully approved when the members whose approval is required have voted
    in favour. -/
theorem fullyApproved_iff (hrole : r₀.OneRole)
    (hroster : r.roster d.domainId = r₀.roster d.domainId)
    (hsub : voted ⊆ r₀.roster d.domainId)
    (hvotes : ∀ u vote, r.Voted d.id u vote ↔ ∃ a ∈ voted, a.userId = u ∧ intent a = vote) :
    r.FullyApproved d.id d.domainId ↔ Favoured (r₀.roster d.domainId) intent voted := by
  have hrequired : ∀ u, r.Required d.domainId u ↔ ∃ a ∈ r₀.roster d.domainId, a.userId = u ∧
      a.role ∈ requiredApprovalRoles := by
    intro u
    rw [required_iff_roster, hroster]
  constructor
  · rintro ⟨⟨u, hu⟩, hall⟩
    obtain ⟨a, ha, _, harole⟩ := (hrequired u).1 hu
    refine ⟨⟨a, ha, harole⟩, fun b hb hbrole => ?_⟩
    obtain ⟨c, hc, hcu, hvote⟩ :=
      (hvotes _ _).1 (hall b.userId ((hrequired _).2 ⟨b, hb, rfl, hbrole⟩))
    obtain rfl := hrole.eq_of_roster (hsub hc) hb hcu
    exact ⟨hc, hvote⟩
  · rintro ⟨⟨a, ha, harole⟩, hall⟩
    refine ⟨⟨a.userId, (hrequired _).2 ⟨a, ha, rfl, harole⟩⟩, fun u hu => ?_⟩
    obtain ⟨b, hb, rfl, hbrole⟩ := (hrequired u).1 hu
    obtain ⟨hmem, hvote⟩ := hall b hb hbrole
    exact (hvotes _ _).2 ⟨b, hmem, rfl, hvote⟩

/-- The vote of another member leads to the tally with them. -/
theorem Polled.cast (hp : Polled r₀ d intent voted r) (hrole : r₀.OneRole)
    (hawaiting : tally (r₀.roster d.domainId) intent voted = .awaitingApproval)
    (hsub : voted ++ [a] ⊆ r₀.roster d.domainId) {d' : GovernanceDecision}
    (hb : Ballot r d' x) (hid : x.decisionId = d.id) (hu : x.voterId = a.userId)
    (hvote : x.vote = intent a) (h : Cast r d' x r') : Polled r₀ d intent (voted ++ [a]) r' := by
  have hvotes : ∀ u vote, (r.withVote x).Voted d.id u vote ↔
      ∃ b ∈ voted ++ [a], b.userId = u ∧ intent b = vote := by
    intro u vote
    rw [voted_withVote hb.fresh, hp.votes hawaiting]
    constructor
    · rintro (⟨b, hb, h⟩ | ⟨_, rfl, rfl⟩)
      · exact ⟨b, List.mem_append_left _ hb, h⟩
      · exact ⟨a, by simp, hu.symm, hvote.symm⟩
    · rintro ⟨b, hb, rfl, rfl⟩
      rcases List.mem_append.1 hb with hb | hb
      · exact .inl ⟨b, hb, rfl, rfl⟩
      · rw [List.mem_singleton.1 hb]
        exact .inr ⟨hid, hu, hvote⟩
  have hfull := fullyApproved_iff (r := r.withVote x) hrole hp.roster hsub hvotes
  obtain ⟨d'', hd'', hdomain, _⟩ := hp.decision
  obtain rfl : d' = d'' := Option.some.inj (hb.decision.symm.trans (hid ▸ hd''))
  rw [← hid] at hfull
  -- A decision that is marked is the one that was voted on.
  have hmark : ∀ status t, ((r.withVote x).mark x.decisionId status t d'.metadata).decisions.get?
      d.id = some (d'.set status t d'.metadata) := by
    intro status t
    rw [hid, decisions_mark, Table.get?_modify_self]
    exact congrArg (Option.map _) hd''
  cases h with
  | counted hreject hnot =>
    refine ⟨hp.assignments, ⟨d', hd'', hdomain, ?_⟩, fun _ => hvotes⟩
    rw [tally_concat hawaiting (hvote ▸ hreject), if_neg, hb.awaiting]
    intro hfavoured
    -- The vote is an abstention, and all the others had voted in favour before it.
    have happrove : x.vote ≠ .approve := fun happrove =>
      hnot happrove (hdomain.symm ▸ hfull.2 hfavoured)
    refine (tally_eq_awaiting.1 hawaiting).2 ⟨hfavoured.1, fun b hb hbrole => ?_⟩
    obtain ⟨hmem, hbvote⟩ := hfavoured.2 b hb hbrole
    refine ⟨(List.mem_append.1 hmem).resolve_right fun heq => ?_, hbvote⟩
    rw [List.mem_singleton.1 heq] at hbvote
    exact happrove (hvote.trans hbvote)
  -- The first vote against the decision: the tally does not look at the ones before it.
  | @rejected t hreject =>
    refine ⟨hp.assignments, ⟨_, hmark .rejected t, hdomain, ?_⟩, fun _ => hvotes⟩
    exact (tally_concat_reject (hvote.symm.trans hreject)).symm
  | @approved t happrove hall =>
    refine ⟨hp.assignments, ⟨_, hmark .approved t, hdomain, ?_⟩, fun _ => hvotes⟩
    rw [tally_concat hawaiting (by rw [← hvote, happrove]; decide), if_pos]
    · rfl
    · exact hfull.1 (hdomain ▸ hall)

/-- As long as the decision awaits approval, another member can vote on it. -/
theorem Polled.votable {s : Store} (hp : Polled r₀ d intent voted s.toRegistry)
    (hrole : r₀.OneRole) (hawaiting : tally (r₀.roster d.domainId) intent voted = .awaitingApproval)
    (hsub : voted ++ [a] ⊆ r₀.roster d.domainId) (hnew : a ∉ voted)
    (hfree : ∀ n < 4, s.Free (fresh n).id) (hdistinct : (fresh 1).id ≠ (fresh 3).id) :
    ∃ d', d'.id = d.id ∧ Votable s fresh d' a := by
  obtain ⟨d', hd', hdomain, hstatus⟩ := hp.decision
  have hid : d'.id = d.id := Table.key_of_get? hd'
  have hmem : a ∈ r₀.roster d.domainId := hsub (by simp)
  refine ⟨d', hid, hid ▸ hd', hstatus.trans hawaiting, ?_, fun b hb c hc => ?_,
    fun y hy hyd hyu => ?_, hfree, hdistinct⟩
  · rwa [hdomain, hp.roster]
  · exact hrole b (hp.assignments ▸ hb) c (hp.assignments ▸ hc)
  · -- Another vote would be that of another member.
    obtain ⟨b, hb, hbu, _⟩ :=
      (hp.votes hawaiting a.userId y.vote).1 ⟨y, hy, hyd.trans hid, hyu, rfl⟩
    have hb' : b ∈ r₀.roster d.domainId := hsub (List.mem_append_left _ hb)
    exact hnew (hrole.eq_of_roster hb' hmem hbu ▸ hb)

/-- When the decision is final, a call to vote on it is refused. -/
theorem Polled.final (hp : Polled r₀ d intent voted r)
    (hfinal : tally (r₀.roster d.domainId) intent voted ≠ .awaitingApproval)
    (h : Outcome r fresh (.castVote d.id text vote comment) r') : r' = r := by
  obtain ⟨d', hd', _, hstatus⟩ := hp.decision
  have hrefused : ∀ {d₁ x}, Ballot r d₁ x → x.decisionId ≠ d.id := by
    intro d₁ x hb hxd
    obtain rfl : d' = d₁ := Option.some.inj (hd'.symm.trans (hxd ▸ hb.decision))
    exact hfinal (hstatus.symm.trans hb.awaiting)
  generalize hcall : Call.castVote d.id text vote comment = c at h
  cases h with
  | refused => rfl
  | voted hb => exact absurd (Call.castVote.inj hcall).1.symm (hrefused hb)
  | rejected hb => exact absurd (Call.castVote.inj hcall).1.symm (hrefused hb)
  | approved hb => exact absurd (Call.castVote.inj hcall).1.symm (hrefused hb)
  | _ => cases hcall

variable [Hashlib] [Postgres] {s : Store} {q : Request}

/-- A request that succeeds does a deed of its call, and records it. -/
theorem Request.done (hmode : q.mode ≠ .abandoned)
    (h : (q.call.program q.fresh).wp backend (fun _ _ => True) (fun _ _ => False) s) :
    Done q.fresh q.call s (q.exec s) := by
  rcases Request.exec_cases (wp_and (q.call.carries s q.fresh) h) with
    ⟨_, hdone, _⟩ | ⟨_, _, _, _, hfalse⟩ | ⟨_, habandoned | ⟨_, _, ⟨_, hfalse⟩, _⟩⟩
  · exact hdone
  · exact hfalse.elim
  · exact absurd habandoned hmode
  · exact hfalse.elim

/-- A vote keeps the status the tally of the votes. -/
theorem Polled.exec (hp : Polled r₀ d intent voted s.toRegistry) (hrole : r₀.OneRole)
    (hsub : voted ++ [a] ⊆ r₀.roster d.domainId) (hnew : a ∉ voted)
    (hreject : intent a = .reject → a.role ∈ requiredApprovalRoles)
    (hcall : q.call = .castVote d.id a.userId.text (intent a) comment)
    (hmode : q.mode ≠ .abandoned) (hfree : ∀ n < 4, s.Free (q.fresh n).id)
    (hdistinct : (q.fresh 1).id ≠ (q.fresh 3).id) :
    Polled r₀ d intent (voted ++ [a]) (q.exec s).toRegistry := by
  by_cases hawaiting : tally (r₀.roster d.domainId) intent voted = .awaitingApproval
  · obtain ⟨d', hid, hvotable⟩ := hp.votable hrole hawaiting hsub hnew hfree hdistinct
    have hsucceeds :
        (q.call.program q.fresh).wp backend (fun _ _ => True) (fun _ _ => False) s := by
      rw [hcall, ← hid]
      exact wp_bind_of (castVote_succeeds hvotable) (fun _ _ _ => wp_pure.2 trivial)
        fun _ _ he => he
    obtain ⟨r, w, hdeed, hleaves⟩ := q.done hmode hsucceeds
    rw [hcall] at hdeed
    obtain ⟨d₁, x, hb, hxid, hxu, hxvote, hcast⟩ := hdeed.cast
    rw [hleaves.registry]
    exact hp.cast hrole hawaiting hsub hb hxid (Bounded.text_injective hxu) hxvote hcast
  · -- The decision is final, and the service refuses the vote.
    have htally := tally_concat_of_final hawaiting (hsub (by simp)) hnew hreject
    have hrefused : (q.exec s).toRegistry = s.toRegistry :=
      hp.final hawaiting (hcall ▸ q.outcome)
    obtain ⟨d', hd', hdomain, hstatus⟩ := hp.decision
    rw [hrefused]
    exact ⟨hp.assignments, ⟨d', hd', hdomain, hstatus.trans htally.symm⟩,
      fun h => absurd (htally.symm.trans h) hawaiting⟩

omit [Hashlib] [Postgres] in
/-- No call gives a user a second role in a domain. -/
theorem Outcome.oneRole {c : Call} (h : Outcome r fresh c r') (hr : r.OneRole) : r'.OneRole := by
  cases h with
  | @assigned a hunique =>
    intro b hb c hc hu hd
    -- The new assignment is for a user who has none in the domain.
    rcases Table.mem_of_mem_insert hb with hb' | rfl <;>
      rcases Table.mem_of_mem_insert hc with hc' | rfl
    · exact hr b hb' c hc' hu hd
    · exact absurd hd (hunique b hb' hu)
    · exact absurd hd.symm (hunique c hc' hu.symm)
    · rfl
  | revoked =>
    exact fun b hb c hc => hr b (List.mem_of_mem_filter hb) c (List.mem_of_mem_filter hc)
  | _ => exact hr

/-- So there is none in the states that are reached. -/
theorem oneRole_execAll (qs : List Request) : (execAll qs .empty).toRegistry.OneRole :=
  outcome_induct (fun _ ha => absurd ha List.not_mem_nil) (fun h hr => h.oneRole hr) qs

omit [Hashlib] [Postgres] in
/-- The poll begins when nobody has voted yet. -/
theorem Polled.init (hd : r.decisions.get? d.id = some d) (hawaiting : d.status = .awaitingApproval)
    (hnone : ∀ x ∈ r.approvals.rows, x.decisionId ≠ d.id) : Polled r d intent [] r := by
  have htally : tally (r.roster d.domainId) intent [] = .awaitingApproval := by
    refine tally_eq_awaiting.2 ⟨fun a ha => absurd ha List.not_mem_nil, ?_⟩
    rintro ⟨⟨a, ha, hrole⟩, hall⟩
    exact absurd (hall a ha hrole).1 List.not_mem_nil
  refine ⟨rfl, ⟨d, hd, rfl, hawaiting.trans htally.symm⟩, fun _ u vote => ?_⟩
  refine iff_of_false (fun ⟨x, hx, hid, _⟩ => hnone x hx hid) ?_
  rintro ⟨a, ha, _⟩
  exact List.not_mem_nil ha

/-- The request of a member to vote on the decision as they intend to. -/
def IsBallot (id : UUID) (intent : RACIAssignment → VoteValue) (a : RACIAssignment)
    (q : Request) : Prop :=
  q.mode ≠ .abandoned ∧ ∃ comment, q.call = .castVote id a.userId.text (intent a) comment

/-- When some members have voted, the status is their tally. -/
theorem polled_execAll {qs : List Request} (hd : (execAll qs .empty).decisions.get? d.id = some d)
    (hawaiting : d.status = .awaitingApproval)
    (hnone : ∀ x ∈ (execAll qs .empty).approvals.rows, x.decisionId ≠ d.id)
    (hsub : voted ⊆ (execAll qs .empty).toRegistry.roster d.domainId) (hnodup : voted.Nodup)
    (hreject : ∀ a ∈ voted, intent a = .reject → a.role ∈ requiredApprovalRoles)
    {ballot : RACIAssignment → Request} (hballot : ∀ a ∈ voted, IsBallot d.id intent a (ballot a))
    (hids : ((qs ++ voted.map ballot).flatMap Request.ids).Nodup) :
    Polled (execAll qs .empty).toRegistry d intent voted
      (execAll (qs ++ voted.map ballot) .empty).toRegistry := by
  induction voted using List.reverseRecOn with
  | nil =>
    rw [List.map_nil, List.append_nil]
    exact .init hd hawaiting hnone
  | append_singleton voted a ih =>
    rw [List.map_append, List.map_singleton, ← List.append_assoc] at hids ⊢
    obtain ⟨hold, hnew, hdisjoint⟩ := List.nodup_append'.1 (List.flatMap_append ▸ hids)
    obtain ⟨hvoted, -, ha⟩ := List.nodup_append'.1 hnodup
    have hp := ih (fun b hb => hsub (List.mem_append_left _ hb)) hvoted
      (fun b hb => hreject b (List.mem_append_left _ hb))
      (fun b hb => hballot b (List.mem_append_left _ hb)) hold
    obtain ⟨hmode, comment, hcall⟩ := hballot a (by simp)
    -- The identifiers that the ballot draws are new ones, and differ from each other.
    have hfree : ∀ n < 4, (execAll (qs ++ voted.map ballot) .empty).Free ((ballot a).fresh n).id :=
      fun n hn => free_execAll fun q hq hmem => hdisjoint (List.mem_flatMap.2 ⟨q, hq, hmem⟩)
        (List.mem_flatMap.2 ⟨_, List.mem_singleton_self _, List.mem_map.2
          ⟨n, List.mem_range.2 hn, rfl⟩⟩)
    have hdistinct : ((ballot a).fresh 1).id ≠ ((ballot a).fresh 3).id := by
      rw [List.flatMap_singleton] at hnew
      exact fun h => absurd (List.inj_on_of_nodup_map hnew (by decide) (by decide) h) (by decide)
    rw [execAll_concat]
    exact hp.exec (oneRole_execAll qs) hsub (fun hmem => ha hmem (List.mem_singleton_self a))
      (hreject a (by simp)) hcall hmode hfree hdistinct

/-- All members of the roster vote on a decision that awaits approval and has no votes,
    each as they intend to, where only those may be against it whose approval is
    required. Whatever the order of the votes, the status is the verdict in the end; and
    if the decision is approved, it is so from the last vote on that is required. -/
theorem verdict_of_votes {qs : List Request}
    (hd : (execAll qs .empty).decisions.get? d.id = some d)
    (hawaiting : d.status = .awaitingApproval)
    (hnone : ∀ x ∈ (execAll qs .empty).approvals.rows, x.decisionId ≠ d.id)
    {order : List RACIAssignment}
    (horder : order.Perm ((execAll qs .empty).toRegistry.roster d.domainId))
    (hreject : ∀ a ∈ order, intent a = .reject → a.role ∈ requiredApprovalRoles)
    {ballot : RACIAssignment → Request} (hballot : ∀ a ∈ order, IsBallot d.id intent a (ballot a))
    (hids : ((qs ++ order.map ballot).flatMap Request.ids).Nodup) :
    (execAll (qs ++ order.map ballot) .empty).toRegistry.statusOf d.id =
        some (verdict ((execAll qs .empty).toRegistry.roster d.domainId) intent) ∧
      (verdict ((execAll qs .empty).toRegistry.roster d.domainId) intent = .approved →
        ∀ before a after, order = before ++ a :: after → a.role ∈ requiredApprovalRoles →
          (∀ b ∈ after, b.role ∉ requiredApprovalRoles) →
          (execAll (qs ++ before.map ballot) .empty).toRegistry.statusOf d.id =
              some .awaitingApproval ∧
            (execAll (qs ++ (before ++ [a]).map ballot) .empty).toRegistry.statusOf d.id =
              some .approved) := by
  have hroster : ((execAll qs .empty).toRegistry.roster d.domainId).Nodup :=
    (List.Nodup.of_map _ (execAll qs .empty).assignments.nodup).filter _
  have hnodup : order.Nodup := horder.nodup_iff.2 hroster
  -- The status after the votes of some members.
  have hstatus : ∀ voted : List RACIAssignment, voted <+: order →
      (execAll (qs ++ voted.map ballot) .empty).toRegistry.statusOf d.id =
        some (tally ((execAll qs .empty).toRegistry.roster d.domainId) intent voted) := by
    intro voted hvoted
    have hids' : ((qs ++ voted.map ballot).flatMap Request.ids).Nodup :=
      hids.sublist (((hvoted.sublist.map ballot).append_left qs).flatMap _)
    have hp := polled_execAll hd hawaiting hnone
      (fun a ha => horder.mem_iff.1 (hvoted.subset ha)) (hnodup.sublist hvoted.sublist)
      (fun a ha => hreject a (hvoted.subset ha)) (fun a ha => hballot a (hvoted.subset ha)) hids'
    obtain ⟨d', hd', _, hst⟩ := hp.decision
    rw [statusOf_eq hd', hst]
  refine ⟨?_, fun happroved before a after hsplit ha hlast => ?_⟩
  · rw [hstatus order (List.prefix_refl _), tally_of_perm horder]
  · subst hsplit
    obtain ⟨hbefore, hafter⟩ := tally_of_last happroved horder hroster ha hlast
    rw [hstatus before (List.prefix_append _ _), hbefore,
      hstatus (before ++ [a]) (by simp), hafter]
    exact ⟨rfl, rfl⟩

end Steps

namespace Sales

attribute [local instance] Hashlib.standard Postgres.stable

/-- Bob and cleo have to approve the decision, and dan is asked about it. -/
def opening : List Request :=
  requests (submitted [("bob", .responsible), ("cleo", .accountable), ("dan", .consulted)])

/-- The decision has been submitted, and nobody has voted. -/
def beforeVotes : Store := execAll opening .empty

/-- The decision that is voted on. -/
def proposed : GovernanceDecision :=
  (beforeVotes.decisions.get? decision).get (by decide +kernel)

/-- Dan abstains, and the others are in favour. -/
def intention (a : RACIAssignment) : VoteValue :=
  if a.role = .consulted then .abstain else .approve

/-- The requests to vote, each with identifiers of its own. -/
def request (a : RACIAssignment) : Request :=
  ⟨.castVote proposed.id a.userId.text (intention a) "",
    Sales.fresh (a.id.bits.toNat / 100 + 10), .transaction⟩

/-- Dan votes first, then cleo, and bob last. -/
def voters : List RACIAssignment :=
  (beforeVotes.toRegistry.roster proposed.domainId).reverse

/-- The voters in one order, with the status before and at the last required vote. -/
theorem verdict_voters :
    (execAll (opening ++ voters.map request) .empty).toRegistry.statusOf proposed.id =
        some (verdict (beforeVotes.toRegistry.roster proposed.domainId) intention) ∧
      (verdict (beforeVotes.toRegistry.roster proposed.domainId) intention = .approved →
        ∀ before a after, voters = before ++ a :: after → a.role ∈ requiredApprovalRoles →
          (∀ b ∈ after, b.role ∉ requiredApprovalRoles) →
          (execAll (opening ++ before.map request) .empty).toRegistry.statusOf proposed.id =
              some .awaitingApproval ∧
            (execAll (opening ++ (before ++ [a]).map request) .empty).toRegistry.statusOf
              proposed.id = some .approved) := by
  have hd : beforeVotes.decisions.get? decision = some proposed := (Option.some_get _).symm
  exact verdict_of_votes ((congrArg beforeVotes.decisions.get? (Table.key_of_get? hd)).trans hd)
    (by decide +kernel) (by decide +kernel) (List.reverse_perm _) (by decide +kernel)
    (fun a _ => ⟨fun h => Mode.noConfusion h, "", rfl⟩) (by decide +kernel)

example : verdict (beforeVotes.toRegistry.roster proposed.domainId) intention = .approved := by
  decide +kernel

end Sales

end OpenDataGov
