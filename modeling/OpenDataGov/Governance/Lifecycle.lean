import OpenDataGov.Governance.Deed

/-!
# The life of a decision

The status of a decision says what votes and vetoes there are on it
(`Evidence`). Together with what every vote and veto satisfies (`Registry.Sound`)
this is an invariant of all operations (`Inv`).

What a call does to the database has been said once, for all calls, in `Governance.Outcome`:
either it is refused and changes nothing, or it is one of the changes of the registry that are
listed there. So the
invariant is preserved by a case analysis on the outcome (`Inv.step`), in which each case is
about adding one row, or setting one status, and none about the code of a service.

* `Inv.step`: every outcome of every call preserves the invariant;
* `status_agrees`: in every state reached, the statuses agree with the votes and
  the vetoes (`Agreement`);
* `approved_by_vote`: a decision becomes approved by a vote, when all the users
  required to approve it have.

The requests are taken one after the other here, each of them whole. `Governance.Finalization`
and `Governance.Quorum` are about the same services with their requests interleaved, where
neither result holds as it is.
-/

namespace OpenDataGov

open Calendar ApprovalService VetoService Keyed

namespace Registry

variable (r : Registry)

/-- The number of votes against a decision. -/
def rejections (id : UUID) : ℕ :=
  r.approvals.rows.countP fun x => x.decisionId = id ∧ x.vote = .reject

/-- The number of vetoes on a decision. -/
def objections (id : UUID) : ℕ := r.vetoes.rows.countP fun v => v.decisionId = id

/-- What every vote and every veto satisfies. -/
structure Sound : Prop where
  referred : ∀ x ∈ r.approvals.rows, ∃ d, r.decisions.get? x.decisionId = some d
  once : ∀ x ∈ r.approvals.rows, ∀ y ∈ r.approvals.rows, x.decisionId = y.decisionId →
    x.voterId = y.voterId → x = y
  vetoes : ∀ v ∈ r.vetoes.rows, v.vetoedByRole ∈ vetoEligibleRoles ∧
    ∃ d, r.decisions.get? v.decisionId = some d ∧
      v.expiresAt = some (v.computeExpiry (d.decisionType = .emergency))

end Registry

/-- The votes and vetoes on a decision are those of a decision with the status. -/
structure Evidence (r : Registry) (id : UUID) (status : DecisionStatus) : Prop where
  pending : status = .pending → ∀ x ∈ r.approvals.rows, x.decisionId ≠ id
  rejections : r.rejections id = if status = .rejected then 1 else 0
  objections : r.objections id = if status = .vetoed then 1 else 0
  final : status ≠ .escalated

/-- The invariant of the approval process. -/
structure Inv (r : Registry) : Prop where
  sound : r.Sound
  evidence : ∀ d ∈ r.decisions.rows, Evidence r d.id d.status

variable {r r' : Registry} {d d' : GovernanceDecision} {x : ApprovalRecord} {v : VetoRecord}
  {id : UUID} {status : DecisionStatus} {t : DateTime} {md : Json.Dict Json.Scalar}

/-! ### Decisions -/

theorem decisions_mark : (r.mark id status t md).decisions =
    r.decisions.modify id (.set status t md) (GovernanceDecision.id_set status t md) := rfl

theorem mem_mark (hd : d' ∈ (r.mark id status t md).decisions.rows) :
    ∃ d ∈ r.decisions.rows, d'.id = d.id ∧ d'.domainId = d.domainId ∧
      d'.decisionType = d.decisionType ∧
      (d.id = id ∧ d'.status = status ∨ d.id ≠ id ∧ d' = d) := by
  obtain ⟨d, hmem, rfl⟩ := List.mem_map.1 hd
  refine ⟨d, hmem, ?_⟩
  split_ifs with h
  · exact ⟨rfl, rfl, rfl, .inl ⟨h, rfl⟩⟩
  · exact ⟨rfl, rfl, rfl, .inr ⟨h, rfl⟩⟩

/-- A decision keeps its type when another or its own status changes. -/
theorem get?_mark {id' : UUID} (h : r.decisions.get? id' = some d) :
    ∃ d', (r.mark id status t md).decisions.get? id' = some d' ∧
      d'.decisionType = d.decisionType := by
  rw [decisions_mark]
  by_cases hid : id' = id
  · subst hid
    rw [Table.get?_modify_self, h]
    exact ⟨_, rfl, rfl⟩
  · rw [Table.get?_modify_of_ne hid, h]
    exact ⟨d, rfl, rfl⟩

/-- The same, of the decision with an identifier. -/
theorem get?_of_mark {id' : UUID} (h : (r.mark id' status t md).decisions.get? id = some d') :
    (id = id' ∧ ∃ d, r.decisions.get? id = some d ∧ d' = d.set status t md) ∨
      id ≠ id' ∧ r.decisions.get? id = some d' := by
  rw [decisions_mark] at h
  by_cases hid : id = id'
  · subst hid
    rw [Table.get?_modify_self] at h
    obtain ⟨d, hd, hset⟩ := Option.map_eq_some_iff.1 h
    exact .inl ⟨rfl, d, hd, hset.symm⟩
  · rw [Table.get?_modify_of_ne hid] at h
    exact .inr ⟨hid, h⟩

/-- A decision that does not have the status of a mark is another one. -/
theorem get?_of_mark_of_ne {r₁ : Registry} {id' : UUID} (heq : r₁.decisions = r.decisions)
    (h : (r₁.mark id' status t md).decisions.get? id = some d') (hne : d'.status ≠ status) :
    id ≠ id' ∧ r.decisions.get? id = some d' := by
  rcases get?_of_mark h with ⟨_, d, _, rfl⟩ | ⟨hid, hold⟩
  · exact absurd rfl hne
  · exact ⟨hid, heq ▸ hold⟩

/-- A decision is the new one, or has been there. -/
theorem get?_of_withDecision (h : (r.withDecision d).decisions.get? id = some d') :
    d' = d ∨ r.decisions.get? id = some d' := by
  rcases Table.mem_of_mem_insert (Table.mem_of_get? h) with hmem | rfl
  · exact .inr (Table.key_of_get? h ▸ Table.get?_key hmem)
  · exact .inl rfl

/-! ### Votes and vetoes -/

/-- The votes after another one: its identifier is new, so that it is not lost. -/
theorem mem_withVote (hx : r.approvals.get? x.id = none) {y : ApprovalRecord} :
    y ∈ (r.withVote x).approvals.rows ↔ y ∈ r.approvals.rows ∨ y = x := by
  rw [Registry.withVote, Table.rows_insert hx]
  simp

/-- The same of the vetoes. -/
theorem mem_withVeto (hv : r.vetoes.get? v.id = none) {w : VetoRecord} :
    w ∈ (r.withVeto v).vetoes.rows ↔ w ∈ r.vetoes.rows ∨ w = v := by
  rw [Registry.withVeto, Table.rows_insert hv]
  simp

/-- A vote counts as a rejection if it is one, of the decision that it is on. -/
theorem rejections_withVote (hx : r.approvals.get? x.id = none) (id : UUID) :
    (r.withVote x).rejections id =
      r.rejections id + if x.decisionId = id ∧ x.vote = .reject then 1 else 0 := by
  simp [Registry.rejections, Registry.withVote, Table.rows_insert hx, List.countP_append,
    List.countP_cons]

/-- A veto counts for the decision that it is on. -/
theorem objections_withVeto (hv : r.vetoes.get? v.id = none) (id : UUID) :
    (r.withVeto v).objections id = r.objections id + if v.decisionId = id then 1 else 0 := by
  simp [Registry.objections, Registry.withVeto, Table.rows_insert hv, List.countP_append,
    List.countP_cons]

/-- Overriding a veto does not take it away. -/
theorem objections_override {vetoId : UUID} {u : String} {at' : Option DateTime} (id : UUID) :
    (r.override vetoId u at').objections id = r.objections id := by
  rw [Registry.objections, Registry.objections, Registry.override, Table.rows_modify,
    List.countP_map]
  congr 1
  funext v
  rw [Function.comp_apply]
  split_ifs <;> rfl

/-! ### Evidence -/

namespace Evidence

/-- Evidence depends on the votes and vetoes on the decision only. -/
theorem congr (h : Evidence r id status) (ha : r'.approvals = r.approvals)
    (hv : r'.objections id = r.objections id) : Evidence r' id status where
  pending hp := ha ▸ h.pending hp
  rejections := by rw [← h.rejections, Registry.rejections, Registry.rejections, ha]
  objections := hv.trans h.objections
  final := h.final

/-- A vote on one decision is no evidence about another one. -/
theorem withVote_of_ne (h : Evidence r id status) (hx : r.approvals.get? x.id = none)
    (hne : x.decisionId ≠ id) : Evidence (r.withVote x) id status where
  pending hp := by
    intro y hy
    rcases (mem_withVote hx).1 hy with hy | rfl
    · exact h.pending hp y hy
    · exact hne
  rejections := by rw [rejections_withVote hx, if_neg (fun e => hne e.1), h.rejections, add_zero]
  objections := h.objections
  final := h.final

/-- A vote on a decision that awaits approval: against it, the decision is rejected. -/
theorem withVote (h : Evidence r x.decisionId .awaitingApproval)
    (hx : r.approvals.get? x.id = none)
    (hstatus : status = .awaitingApproval ∨ status = .approved ∨ status = .rejected)
    (hreject : x.vote = .reject ↔ status = .rejected) :
    Evidence (r.withVote x) x.decisionId status where
  pending hp := by
    rcases hstatus with rfl | rfl | rfl <;> cases hp
  rejections := by
    have hnone : r.rejections x.decisionId = 0 := h.rejections
    rw [rejections_withVote hx, hnone, zero_add]
    simp only [true_and, hreject]
  objections := by
    have hnone : r.objections x.decisionId = 0 := h.objections
    rw [if_neg (by rcases hstatus with rfl | rfl | rfl <;> decide)]
    exact hnone
  final := by rcases hstatus with rfl | rfl | rfl <;> decide

/-- Neither is a veto. -/
theorem withVeto_of_ne (h : Evidence r id status) (hv : r.vetoes.get? v.id = none)
    (hne : v.decisionId ≠ id) : Evidence (r.withVeto v) id status :=
  h.congr rfl (by rw [objections_withVeto hv, if_neg hne, add_zero])

/-- A veto on a decision that awaits approval. -/
theorem withVeto (h : Evidence r v.decisionId .awaitingApproval)
    (hv : r.vetoes.get? v.id = none) : Evidence (r.withVeto v) v.decisionId .vetoed where
  pending hp := nomatch hp
  rejections := h.rejections
  objections := by
    have hnone : r.objections v.decisionId = 0 := h.objections
    rw [objections_withVeto hv, hnone, if_pos rfl, if_pos rfl]
  final := by decide

/-- There is nothing on a decision that nothing refers to. -/
theorem of_fresh (hs : r.Sound) (hid : r.decisions.get? id = none) : Evidence r id .pending where
  pending _ x hx e := by
    obtain ⟨d, hd⟩ := hs.referred x hx
    rw [e, hid] at hd
    cases hd
  rejections := by
    refine List.countP_eq_zero.2 fun x hx h => ?_
    obtain ⟨d, hd⟩ := hs.referred x hx
    rw [(decide_eq_true_iff.1 h).1, hid] at hd
    cases hd
  objections := by
    refine List.countP_eq_zero.2 fun v hv h => ?_
    obtain ⟨_, d, hd, _⟩ := hs.vetoes v hv
    rw [decide_eq_true_iff.1 h, hid] at hd
    cases hd
  final := by decide

end Evidence

/-! ### Soundness -/

namespace Registry.Sound

/-- What votes and vetoes satisfy depends on the existence and types of decisions. -/
theorem of_decisions (h : r.Sound) (ha : r'.approvals = r.approvals)
    (hv : r'.vetoes = r.vetoes)
    (hd : ∀ id d, r.decisions.get? id = some d →
      ∃ d', r'.decisions.get? id = some d' ∧ d'.decisionType = d.decisionType) :
    r'.Sound where
  referred := by
    intro x hx
    obtain ⟨d, hx⟩ := h.referred x (ha ▸ hx)
    obtain ⟨d', hd', _⟩ := hd _ d hx
    exact ⟨d', hd'⟩
  once := by
    rw [ha]
    exact h.once
  vetoes := by
    intro v hv'
    obtain ⟨hrole, d, hdecision, hexpires⟩ := h.vetoes v (hv ▸ hv')
    obtain ⟨d', hd', htype⟩ := hd _ d hdecision
    exact ⟨hrole, d', hd', by rw [htype]; exact hexpires⟩

/-- Marking a decision keeps what votes and vetoes satisfy, as their decision stays the same. -/
theorem mark (h : r.Sound) : (r.mark id status t md).Sound :=
  h.of_decisions rfl rfl fun _ _ hd => get?_mark hd

/-- So does another decision, -/
theorem withDecision (h : r.Sound) : (r.withDecision d).Sound :=
  h.of_decisions rfl rfl fun _ d' hd => ⟨d', Table.get?_insert_of_get? hd, rfl⟩

/-- a vote that satisfies it, -/
theorem withVote (h : r.Sound) (hx : Ballot r d x) : (r.withVote x).Sound where
  referred := by
    intro y hy
    rcases (mem_withVote hx.fresh).1 hy with hy | rfl
    · exact h.referred y hy
    · exact ⟨d, hx.decision⟩
  once := by
    intro y hy z hz hd hu
    -- Two votes of a user: if one of them is new, the check for earlier votes excludes the other.
    rcases (mem_withVote hx.fresh).1 hy with hy' | rfl <;>
      rcases (mem_withVote hx.fresh).1 hz with hz' | rfl
    · exact h.once y hy' z hz' hd hu
    · exact absurd hu (hx.first y hy' hd)
    · exact absurd hu.symm (hx.first z hz' hd.symm)
    · rfl
  vetoes := h.vetoes

/-- a veto that does, -/
theorem withVeto (h : r.Sound) (hv : Objection r d v) : (r.withVeto v).Sound where
  referred := h.referred
  once := h.once
  vetoes := by
    intro w hw
    rcases (mem_withVeto hv.fresh).1 hw with hw | rfl
    · exact h.vetoes w hw
    · exact ⟨hv.eligible, d, hv.decision, hv.expires⟩

/-- and overriding one. -/
theorem override {vetoId : UUID} {u : String} {o : Option DateTime} (h : r.Sound) :
    (r.override vetoId u o).Sound where
  referred := h.referred
  once := h.once
  vetoes := by
    intro w hw
    obtain ⟨v, hv, rfl⟩ := List.mem_map.1 hw
    -- An override changes neither the role nor the times of a veto.
    split_ifs
    · exact h.vetoes v hv
    · exact h.vetoes v hv

end Registry.Sound

/-! ### The invariant -/

namespace Inv

/-- Nothing has been decided in an empty registry. -/
theorem empty : Inv .empty where
  sound := ⟨fun _ hx => absurd hx List.not_mem_nil, fun _ hx => absurd hx List.not_mem_nil,
    fun _ hv => absurd hv List.not_mem_nil⟩
  evidence _ hd := absurd hd List.not_mem_nil

/-- The evidence about the decision with an identifier. -/
theorem evidence_get? (h : Inv r) (hd : r.decisions.get? id = some d) : Evidence r id d.status := by
  obtain rfl := Table.key_of_get? hd
  exact h.evidence d (Table.mem_of_get? hd)

/-- The status of a decision changes to what the votes and vetoes say. -/
theorem mark (hs : r.Sound) (he : ∀ d ∈ r.decisions.rows, d.id ≠ id → Evidence r d.id d.status)
    (hid : Evidence r id status) : Inv (r.mark id status t md) where
  sound := hs.mark
  evidence d' hd' := by
    obtain ⟨d, hd, hid', _, _, ⟨rfl, hst⟩ | ⟨hne, rfl⟩⟩ := mem_mark hd'
    · rw [hid', hst]
      exact hid.congr rfl rfl
    · exact (he d' hd hne).congr rfl rfl

/-- A vote is on a decision that awaits approval. -/
theorem ballot (hi : Inv r) (hb : Ballot r d x) :
    Evidence r x.decisionId .awaitingApproval :=
  hb.awaiting ▸ hi.evidence_get? hb.decision

/-- Every outcome of every call preserves the invariant. -/
theorem step {fresh : ℕ → Stamp} {c : Call} (h : Outcome r fresh c r') (hi : Inv r) : Inv r' := by
  cases h with
  | refused => exact hi
  | created hpending _ hfresh =>
    refine ⟨hi.sound.withDecision, fun d' hd' => ?_⟩
    rcases Table.mem_of_mem_insert hd' with hd' | rfl
    · exact (hi.evidence d' hd').congr rfl rfl
    -- The identifier is new, so that no vote and no veto refers to it yet.
    · rw [hpending]
      exact (Evidence.of_fresh hi.sound hfresh).congr rfl rfl
  | submitted hd hpending =>
    -- The decision had no vote against it and no veto, as it has none now.
    have he := hi.evidence_get? hd
    rw [hpending] at he
    exact mark hi.sound (fun d hd _ => hi.evidence d hd)
      ⟨nofun, he.rejections, he.objections, by decide⟩
  | @voted d x hb hreject _ =>
    refine ⟨hi.sound.withVote hb, fun d' hd' => ?_⟩
    by_cases hid : x.decisionId = d'.id
    · -- The decision voted on goes on waiting.
      have hd : d'.status = .awaitingApproval := by
        obtain rfl : d = d' := Option.some.inj (hb.decision.symm.trans (hid ▸ Table.get?_key hd'))
        exact hb.awaiting
      rw [hd, ← hid]
      exact (hi.ballot hb).withVote hb.fresh (.inl rfl)
        ⟨fun e => absurd e hreject, fun e => (nomatch e)⟩
    · exact (hi.evidence d' hd').withVote_of_ne hb.fresh hid
  -- A final vote: the decision that it is on is marked, the others keep their evidence.
  | rejected hb hreject =>
    exact mark (hi.sound.withVote hb)
      (fun d' hd' hne => (hi.evidence d' hd').withVote_of_ne hb.fresh hne.symm)
      ((hi.ballot hb).withVote hb.fresh (.inr (.inr rfl)) ⟨fun _ => rfl, fun _ => hreject⟩)
  | approved hb happrove _ =>
    exact mark (hi.sound.withVote hb)
      (fun d' hd' hne => (hi.evidence d' hd').withVote_of_ne hb.fresh hne.symm)
      ((hi.ballot hb).withVote hb.fresh (.inr (.inl rfl))
        ⟨fun e => (nomatch happrove.symm.trans e), fun e => (nomatch e)⟩)
  | vetoed ho _ =>
    exact mark (hi.sound.withVeto ho)
      (fun d' hd' hne => (hi.evidence d' hd').withVeto_of_ne ho.fresh hne.symm)
      ((ho.awaiting ▸ hi.evidence_get? ho.decision).withVeto ho.fresh)
  -- The veto stays, with who has overridden it, and the decision stays vetoed.
  | overridden ho =>
    exact ⟨hi.sound.override, fun d hd => (hi.evidence d hd).congr rfl (objections_override _)⟩
  -- The roles are no part of the evidence.
  | assigned _ _ =>
    exact ⟨hi.sound.of_decisions rfl rfl fun _ d hd => ⟨d, hd, rfl⟩,
      fun d hd => (hi.evidence d hd).congr rfl rfl⟩
  | revoked _ =>
    exact ⟨hi.sound.of_decisions rfl rfl fun _ d hd => ⟨d, hd, rfl⟩,
      fun d hd => (hi.evidence d hd).congr rfl rfl⟩

end Inv

/-- The invariant holds in every state reached. -/
theorem inv_execAll [Hashlib] [Postgres] (qs : List Request) :
    Inv (execAll qs .empty).toRegistry :=
  outcome_induct Inv.empty Inv.step qs

/-! ### What the evidence says -/

namespace Evidence

/-- There is no vote against a decision that is not rejected. -/
theorem vote_ne_reject (h : Evidence r id status) (hs : status ≠ .rejected) :
    ∀ x ∈ r.approvals.rows, x.decisionId = id → x.vote ≠ .reject := by
  intro x hx hid hreject
  have hnone : r.rejections id = 0 := by rw [h.rejections, if_neg hs]
  exact List.countP_eq_zero.1 hnone x hx (decide_eq_true ⟨hid, hreject⟩)

/-- There is no veto on a decision that is not vetoed. -/
theorem veto_ne (h : Evidence r id status) (hs : status ≠ .vetoed) :
    ∀ v ∈ r.vetoes.rows, v.decisionId ≠ id := by
  intro v hv hid
  have hnone : r.objections id = 0 := by rw [h.objections, if_neg hs]
  exact List.countP_eq_zero.1 hnone v hv (decide_eq_true hid)

/-- There is a vote against a rejected decision, -/
theorem exists_reject (h : Evidence r id .rejected) :
    ∃ x ∈ r.approvals.rows, x.decisionId = id ∧ x.vote = .reject := by
  have hone : r.rejections id = 1 := h.rejections
  obtain ⟨x, hx, hreject⟩ := List.countP_pos_iff.1 (hone ▸ Nat.one_pos)
  exact ⟨x, hx, decide_eq_true_iff.1 hreject⟩

/-- and a veto on a vetoed one. -/
theorem exists_veto (h : Evidence r id .vetoed) : ∃ v ∈ r.vetoes.rows, v.decisionId = id := by
  have hone : r.objections id = 1 := h.objections
  obtain ⟨v, hv, hid⟩ := List.countP_pos_iff.1 (hone ▸ Nat.one_pos)
  exact ⟨v, hv, decide_eq_true_iff.1 hid⟩

end Evidence

/-- The statuses agree with the votes and vetoes. -/
structure Agreement (r : Registry) : Prop where
  pending : ∀ d ∈ r.decisions.rows, d.status = .pending →
    (∀ x ∈ r.approvals.rows, x.decisionId ≠ d.id) ∧ ∀ v ∈ r.vetoes.rows, v.decisionId ≠ d.id
  favoured : ∀ d ∈ r.decisions.rows, d.status = .awaitingApproval ∨ d.status = .approved →
    (∀ v ∈ r.vetoes.rows, v.decisionId ≠ d.id) ∧
      ∀ x ∈ r.approvals.rows, x.decisionId = d.id → x.vote ≠ .reject
  rejected : ∀ d ∈ r.decisions.rows, d.status = .rejected ↔ r.rejections d.id = 1
  vetoed : ∀ d ∈ r.decisions.rows, d.status = .vetoed ↔ r.objections d.id = 1
  escalated : ∀ d ∈ r.decisions.rows, d.status ≠ .escalated
  once : ∀ x ∈ r.approvals.rows, ∀ y ∈ r.approvals.rows, x.decisionId = y.decisionId →
    x.voterId = y.voterId → x = y
  eligible : ∀ v ∈ r.vetoes.rows,
    v.vetoedByRole = .accountable ∨ v.vetoedByRole = .responsible
  expires : ∀ v ∈ r.vetoes.rows, ∃ d ∈ r.decisions.rows, d.id = v.decisionId ∧
    v.expiresAt = some (v.vetoedAt.add (if d.decisionType = .emergency then hour else 24 * hour))

/-- In every state reached, by any operations with any arguments, failed ones
    included, the statuses agree with the votes and vetoes. -/
theorem status_agrees [Hashlib] [Postgres] (qs : List Request) :
    Agreement (execAll qs .empty).toRegistry := by
  have hi := inv_execAll qs
  refine ⟨fun d hd hst => ?_, fun d hd hst => ?_, fun d hd => ?_, fun d hd => ?_,
    fun d hd => (hi.evidence d hd).final, hi.sound.once, fun v hv => ?_, fun v hv => ?_⟩
  · have he := hi.evidence d hd
    exact ⟨he.pending hst, he.veto_ne (by rw [hst]; decide)⟩
  · have he := hi.evidence d hd
    exact ⟨he.veto_ne (by rcases hst with h | h <;> rw [h] <;> decide),
      he.vote_ne_reject (by rcases hst with h | h <;> rw [h] <;> decide)⟩
  · rw [(hi.evidence d hd).rejections]
    split_ifs with h <;> simp [h]
  · rw [(hi.evidence d hd).objections]
    split_ifs with h <;> simp [h]
  · simpa [vetoEligibleRoles] using (hi.sound.vetoes v hv).1
  · obtain ⟨_, d, hd, hexpires⟩ := hi.sound.vetoes v hv
    refine ⟨d, Table.mem_of_get? hd, Table.key_of_get? hd, ?_⟩
    rw [hexpires, VetoRecord.computeExpiry, vetoTimeout]
    simp only [decide_eq_true_eq]

/-! ## Approvals -/

/-- The outcomes of a vote in favour that approves the decision `id`. -/
structure Approves (r : Registry) (c : Call) (r' : Registry) (d : GovernanceDecision)
    (x : ApprovalRecord) : Prop where
  ballot : Ballot r d x
  approve : x.vote = .approve
  call : c = .castVote x.decisionId x.voterId.text .approve x.comment
  full : (r.withVote x).FullyApproved x.decisionId d.domainId
  result : ∃ t, r' = (r.withVote x).mark x.decisionId .approved t d.metadata

/-- A decision becomes approved in no other way. -/
theorem Outcome.approves {fresh : ℕ → Stamp} {c : Call} (h : Outcome r fresh c r')
    (hd' : r'.decisions.get? id = some d') (happroved : d'.status = .approved)
    (hnew : ∀ d, r.decisions.get? id = some d → d.status ≠ .approved) :
    ∃ d x, Approves r c r' d x ∧ x.decisionId = id ∧ d'.domainId = d.domainId := by
  -- A decision marked with another status is not approved.
  have hmark : ∀ {r₁ : Registry} {id' : UUID} {status t md}, r₁.decisions = r.decisions →
      status ≠ .approved → (r₁.mark id' status t md).decisions.get? id = some d' → False := by
    intro r₁ id' status t md heq hne hget
    have hold := get?_of_mark_of_ne heq hget (happroved.trans_ne hne.symm)
    exact hnew d' hold.2 happroved
  cases h with
  | refused | voted | overridden | assigned | revoked => exact absurd happroved (hnew d' hd')
  | created hpending _ _ =>
    rcases get?_of_withDecision hd' with rfl | hold
    · exact absurd (hpending.symm.trans happroved) (by decide)
    · exact absurd happroved (hnew d' hold)
  | submitted => exact (hmark rfl (by decide) hd').elim
  | rejected => exact (hmark rfl (by decide) hd').elim
  | vetoed => exact (hmark rfl (by decide) hd').elim
  | @approved d x t hb happrove hfull =>
    rcases get?_of_mark hd' with ⟨rfl, d₀, hd₀, rfl⟩ | ⟨_, hold⟩
    · cases hb.decision.symm.trans hd₀
      exact ⟨d, x, ⟨hb, happrove, by rw [happrove], hfull, t, rfl⟩, rfl, rfl⟩
    · exact absurd happroved (hnew d' hold)

section Soundness

variable [Hashlib] [Postgres]

/-- Whenever a decision becomes approved, after any operations with any arguments,
    it does so in a vote in its favour. Once the vote is stored, all the users
    required to approve have, there are such users, and nobody has voted against the
    decision or vetoed it. -/
theorem approved_by_vote (qs : List Request) (q : Request)
    (hd' : (q.exec (execAll qs .empty)).decisions.get? id = some d')
    (happroved : d'.status = .approved)
    (hnew : ∀ d, (execAll qs .empty).decisions.get? id = some d → d.status ≠ .approved) :
    ∃ x : ApprovalRecord, x.decisionId = id ∧ x.vote = .approve ∧
      q.call = .castVote id x.voterId.text .approve x.comment ∧
      let r := (execAll qs .empty).toRegistry.withVote x
      r.approvals.rows = (execAll qs .empty).approvals.rows ++ [x] ∧
      (q.exec (execAll qs .empty)).approvals = r.approvals ∧
      (∃ u, r.Required d'.domainId u) ∧
      (∀ u, r.Required d'.domainId u → r.Voted id u .approve) ∧
      (∀ y ∈ r.approvals.rows, y.decisionId = id → y.vote ≠ .reject) ∧
      ∀ v ∈ r.vetoes.rows, v.decisionId ≠ id := by
  have hi := inv_execAll qs
  obtain ⟨d, x, h, rfl, hdomain⟩ := q.outcome.approves hd' happroved hnew
  obtain ⟨t, hresult⟩ := h.result
  -- The vote is in favour, so it leaves the evidence for an approval as it was.
  have he : Evidence _ x.decisionId .approved := (hi.ballot h.ballot).withVote h.ballot.fresh
    (.inr (.inl rfl)) ⟨fun e => (nomatch h.approve.symm.trans e), fun e => (nomatch e)⟩
  refine ⟨x, rfl, h.approve, h.call, Table.rows_insert h.ballot.fresh, ?_, ?_, ?_,
    he.vote_ne_reject (by decide), he.veto_ne (by decide)⟩
  · rw [hresult]
    rfl
  · rw [hdomain]
    exact h.full.1
  · rw [hdomain]
    exact h.full.2

end Soundness

/-! ### A decision about sales -/

namespace Sales

/-- The identifiers and times of the `i`-th request of a run. -/
def fresh (i n : ℕ) : Stamp :=
  ⟨⟨BitVec.ofNat 128 (100 * i + n)⟩, ⟨63906148800000000 + 1000000 * i + n, some 0⟩⟩

/-- The requests making the calls, as transactions. -/
def requests (calls : List Call) : List Request :=
  calls.zipIdx.map fun (c, i) => ⟨c, fresh i, .transaction⟩

/-- The decision created by the first request. -/
def decision : UUID := (fresh 0 0).id

/-- Ann creates a decision, and submits it after the users have got their roles. -/
def submitted (roles : List (String × RACIRole)) : List Call :=
  .createDecision .dataPromotion "Promote orders" "" "sales" "ann" none none ::
    roles.map (fun (user, role) => .assignRole user "sales" role "ann") ++
    [.submitForApproval decision "ann"]

attribute [local instance] Hashlib.standard Postgres.stable

/-- Bob is the only user required to approve the decision. -/
def before : Store := execAll (requests (submitted [("bob", .responsible)])) .empty

/-- Bob approves it. -/
def vote : Request := ⟨.castVote decision "bob" .approve "fine", fresh 3, .transaction⟩

/-- The decision after the vote. -/
def approved : GovernanceDecision :=
  ((vote.exec before).decisions.get? decision).get (by decide +kernel)

/-- Before the vote, it awaits approval. -/
theorem status_before {d : GovernanceDecision} (hd : before.decisions.get? decision = some d) :
    d.status = .awaitingApproval := by
  have h : (before.decisions.get? decision).map GovernanceDecision.status =
      some .awaitingApproval := by decide +kernel
  rw [hd] at h
  exact Option.some.inj h

/-- The vote that approves it, and the one approval that was missing. -/
theorem approved_by_bob : ∃ x : ApprovalRecord, x.decisionId = decision ∧ x.vote = .approve ∧
    vote.call = .castVote decision x.voterId.text .approve x.comment ∧
    let r := before.toRegistry.withVote x
    r.approvals.rows = before.approvals.rows ++ [x] ∧
    (vote.exec before).approvals = r.approvals ∧
    (∃ u, r.Required approved.domainId u) ∧
    (∀ u, r.Required approved.domainId u → r.Voted decision u .approve) ∧
    (∀ y ∈ r.approvals.rows, y.decisionId = decision → y.vote ≠ .reject) ∧
    ∀ v ∈ r.vetoes.rows, v.decisionId ≠ decision :=
  approved_by_vote (requests (submitted [("bob", .responsible)])) vote (Option.some_get _).symm
    (by decide +kernel) fun d hd => by
      rw [status_before hd]
      decide

end Sales

end OpenDataGov
