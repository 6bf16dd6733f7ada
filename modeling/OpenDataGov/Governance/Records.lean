import OpenDataGov.Governance.Replay

/-!
# One record for every action

What the trail has of each action: of the votes on a decision, of its vetoes and their
overrides, of its end (`Counted`), and of the life of an assignment (`Tenure`).

The events that a call records are known from its deed (`Governance.Deed`), and are added to the
end of the trail. So both are invariants of the registry with the trail, preserved by each deed:
the rows and the events grow together. `Counted` compares numbers, since nothing in an event
tells two votes on one decision apart, and `Tenure` the word of the events about one assignment,
since an assignment begins and ends.

* `counted_execAll`: in every state reached, there is one event for every vote, for every
  override of a veto and for an approval or a rejection, and there are two for every veto;
* `tenure_execAll`: an assignment is recorded once when it is made, and once when it is
  revoked, if no assignment is revoked directly in a name that no event can have;
* `audited_iff`: hence every action has left exactly one record exactly if nothing has been
  vetoed, and no assignment has been so revoked.

A call that is made on the stores directly (`Mode.direct`), and not in a transaction, leaves what
it has done before it fails: possibly a change without its event.
-/

namespace OpenDataGov

open Calendar Transact Program Keyed

namespace Registry

variable (r : Registry)

/-- The number of vetoes on a decision that have been overridden. -/
def overrides (id : UUID) : ℕ :=
  r.vetoes.rows.countP fun v => v.decisionId = id ∧ v.status = .overridden

/-- Whether a decision has the status, as a number. -/
def ended (id : UUID) (status : DecisionStatus) : ℕ :=
  if r.statusOf id = some status then 1 else 0

end Registry

/-- The types `w` of the entries about a decision are as many of each as there have been
    actions, but for its vetoes, each of which is there twice. -/
structure Counted (r : Registry) (id : UUID) (w : List AuditEventType) : Prop where
  votes : w.count .approvalCast = r.votes id
  vetoes : w.count .vetoExercised = 2 * r.objections id
  overrides : w.count .vetoOverridden = r.overrides id
  approved : w.count .decisionApproved = r.ended id .approved
  rejected : w.count .decisionRejected = r.ended id .rejected

section Counting

variable {r r' : Registry} {d : GovernanceDecision} {x : ApprovalRecord} {v : VetoRecord}
  {id id' : UUID} {status st : DecisionStatus} {t : DateTime} {md : Json.Dict Json.Scalar}
  {w w' : List AuditEventType}

/-- A veto that is raised has not been overridden yet. -/
theorem overrides_withVeto (ho : Objection r d v) :
    (r.withVeto v).overrides id = r.overrides id := by
  rw [Registry.overrides, Registry.withVeto, Table.rows_insert ho.fresh, List.countP_append]
  simp [Registry.overrides, ho.active]

/-- Overriding an active veto counts once, for its decision. -/
theorem overrides_override {u : String} {o : Option DateTime}
    (hv : r.vetoes.get? v.id = some v) (hactive : v.status = .active) :
    (r.override v.id u o).overrides id = r.overrides id + if v.decisionId = id then 1 else 0 := by
  rw [Registry.overrides, Registry.override, Table.countP_modify hv (by simp [hactive])]
  simp [Registry.overrides, VetoRecord.set]

theorem ended_mark_self (h : r.decisions.get? id = some d) :
    (r.mark id status t md).ended id st = if status = st then 1 else 0 := by
  rw [Registry.ended, statusOf_mark_self h]
  simp

theorem ended_mark_of_ne (h : id ≠ id') :
    (r.mark id' status t md).ended id st = r.ended id st := by
  rw [Registry.ended, statusOf_mark_of_ne h, Registry.ended]

/-- What has not ended so before. -/
theorem ended_eq_zero (h : r.decisions.get? id = some d) (hne : d.status ≠ st) :
    r.ended id st = 0 :=
  if_neg fun hst => hne (Option.some.inj ((statusOf_eq h).symm.trans hst))

/-- The entries of a deed are counted with those before it. -/
theorem Counted.append (h : Counted r id w)
    (hvotes : r'.votes id = r.votes id + w'.count .approvalCast)
    (hvetoes : 2 * r'.objections id = 2 * r.objections id + w'.count .vetoExercised)
    (hoverrides : r'.overrides id = r.overrides id + w'.count .vetoOverridden)
    (happroved : r'.ended id .approved = r.ended id .approved + w'.count .decisionApproved)
    (hrejected : r'.ended id .rejected = r.ended id .rejected + w'.count .decisionRejected) :
    Counted r' id (w ++ w') where
  votes := by rw [List.count_append, h.votes, hvotes]
  vetoes := by rw [List.count_append, h.vetoes, hvetoes]
  overrides := by rw [List.count_append, h.overrides, hoverrides]
  approved := by rw [List.count_append, h.approved, happroved]
  rejected := by rw [List.count_append, h.rejected, hrejected]

/-- Nothing is counted where nothing is done. -/
theorem Counted.other (h : Counted r id w) (hw : w' = []) (hvotes : r'.votes id = r.votes id)
    (hvetoes : r'.objections id = r.objections id) (hoverrides : r'.overrides id = r.overrides id)
    (hended : ∀ st, r'.ended id st = r.ended id st) : Counted r' id (w ++ w') := by
  subst hw
  exact h.append hvotes (by rw [hvetoes]; rfl) hoverrides (hended _) (hended _)

/-! ### What a deed counts for -/

variable {stamp stamp' : Stamp} {eventType : AuditEventType}

/-- Creating a decision: there is nothing to count about it yet. -/
theorem Counted.created (h : Counted r id w) (hpending : d.status = .pending)
    (hfresh : r.decisions.get? d.id = none) :
    Counted (r.withDecision d) id (w ++ word id [stamp.onDecision .decisionCreated d.id]) := by
  by_cases hid : d.id = id
  · subst hid
    have hst := statusOf_withDecision_self hfresh
    rw [hpending] at hst
    have hnone : r.statusOf d.id = none := by rw [Registry.statusOf, hfresh, Option.map_none]
    have hended : ∀ st, st ≠ .pending → (r.withDecision d).ended d.id st = r.ended d.id st := by
      intro st hne
      rw [Registry.ended, hst, Registry.ended, hnone, if_neg (by simpa using hne.symm),
        if_neg (by simp)]
    rw [word_onDecision_self, word_nil]
    exact h.append rfl rfl rfl (hended _ (by decide)) (hended _ (by decide))
  · refine h.other (word_onDecision_of_ne hid) rfl rfl rfl fun st => ?_
    rw [Registry.ended, statusOf_withDecision_of_ne hid, Registry.ended]

/-- A decision that is submitted has not ended, whether or not that is recorded. -/
theorem Counted.submitted (h : Counted r id w) (hd : r.decisions.get? id' = some d)
    (hpending : d.status = .pending)
    (hw : w' = [] ∨ ∃ stamp : Stamp, w' = word id [stamp.onDecision .decisionSubmitted id']) :
    Counted (r.mark id' .awaitingApproval t md) id (w ++ w') := by
  by_cases hid : id' = id
  · subst hid
    have hended : ∀ st, st = .approved ∨ st = .rejected →
        (r.mark id' .awaitingApproval t md).ended id' st = r.ended id' st := by
      intro st hst
      rw [ended_mark_self hd, ended_eq_zero hd (by rcases hst with rfl | rfl <;> simp [hpending])]
      rcases hst with rfl | rfl <;> rfl
    rcases hw with rfl | ⟨stamp, rfl⟩
    · exact h.append rfl rfl rfl (hended _ (.inl rfl)) (hended _ (.inr rfl))
    · rw [word_onDecision_self, word_nil]
      exact h.append rfl rfl rfl (hended _ (.inl rfl)) (hended _ (.inr rfl))
  · refine h.other ?_ rfl rfl rfl fun st => ended_mark_of_ne (Ne.symm hid)
    rcases hw with rfl | ⟨stamp, rfl⟩
    · rfl
    · exact word_onDecision_of_ne hid

/-- A vote, and its event. -/
theorem Counted.voted (h : Counted r id w) (hb : Ballot r d x) :
    Counted (r.withVote x) id (w ++ word id [stamp.onDecision .approvalCast x.decisionId]) := by
  by_cases hid : x.decisionId = id
  · subst hid
    rw [word_onDecision_self, word_nil]
    exact h.append ((votes_withVote hb.fresh).trans (by rw [if_pos rfl]; rfl)) rfl rfl rfl rfl
  · exact h.other (word_onDecision_of_ne hid)
      ((votes_withVote hb.fresh).trans (by rw [if_neg hid, add_zero])) rfl rfl fun _ => rfl

/-- A vote that decides counts for itself and for the end of the decision. -/
theorem Counted.decided (h : Counted r id w) (hb : Ballot r d x)
    (hevent : status = .approved ∧ eventType = .decisionApproved ∨
      status = .rejected ∧ eventType = .decisionRejected) :
    Counted ((r.withVote x).mark x.decisionId status t d.metadata) id
      (w ++ word id [stamp.onDecision .approvalCast x.decisionId,
        stamp'.onDecision eventType x.decisionId]) := by
  by_cases hid : x.decisionId = id
  · subst hid
    have hd : (r.withVote x).decisions.get? x.decisionId = some d := hb.decision
    have hvotes : (r.withVote x).votes x.decisionId = r.votes x.decisionId + 1 :=
      (votes_withVote hb.fresh).trans (by rw [if_pos rfl])
    have hzero : ∀ st, st ≠ .awaitingApproval → r.ended x.decisionId st = 0 := fun st hne =>
      ended_eq_zero hb.decision (hb.awaiting.trans_ne hne.symm)
    rw [word_onDecision_self, word_onDecision_self, word_nil]
    rcases hevent with ⟨rfl, rfl⟩ | ⟨rfl, rfl⟩ <;>
    · refine h.append hvotes rfl rfl ?_ ?_ <;>
        rw [ended_mark_self hd, hzero _ (by decide)] <;> rfl
  · refine h.other ?_ ((votes_withVote hb.fresh).trans (by rw [if_neg hid, add_zero])) rfl rfl
      fun st => ended_mark_of_ne (r := r.withVote x) (Ne.symm hid)
    rw [word_onDecision_of_ne hid, word_onDecision_of_ne hid, word_nil]

/-- A veto counts twice. -/
theorem Counted.vetoed (h : Counted r id w) (ho : Objection r d v) :
    Counted ((r.withVeto v).mark v.decisionId .vetoed t d.metadata) id
      (w ++ word id [stamp.onDecision .vetoExercised v.decisionId,
        stamp'.onDecision .vetoExercised v.decisionId]) := by
  by_cases hid : v.decisionId = id
  · subst hid
    have hd : (r.withVeto v).decisions.get? v.decisionId = some d := ho.decision
    have hvetoes : (r.withVeto v).objections v.decisionId = r.objections v.decisionId + 1 :=
      (objections_withVeto ho.fresh _).trans (by rw [if_pos rfl])
    have hzero : ∀ st, st ≠ .awaitingApproval → r.ended v.decisionId st = 0 := fun st hne =>
      ended_eq_zero ho.decision (ho.awaiting.trans_ne hne.symm)
    -- Two events for one veto: the service records it, and so does the finalization.
    rw [word_onDecision_self, word_onDecision_self, word_nil]
    refine h.append rfl ?_ (overrides_withVeto ho) ?_ ?_
    · change 2 * (r.withVeto v).objections v.decisionId = _
      rw [hvetoes, Nat.mul_add]
      rfl
    · rw [ended_mark_self hd, hzero _ (by decide)]
      rfl
    · rw [ended_mark_self hd, hzero _ (by decide)]
      rfl
  · refine h.other ?_ rfl ((objections_withVeto ho.fresh _).trans (by rw [if_neg hid, add_zero]))
      (overrides_withVeto ho) fun st => ended_mark_of_ne (r := r.withVeto v) (Ne.symm hid)
    rw [word_onDecision_of_ne hid, word_onDecision_of_ne hid, word_nil]

/-- The override of a veto, and its event. -/
theorem Counted.overruled {a : RACIAssignment} {u : String} {o : Option DateTime}
    (h : Counted r id w) (ho : Override r v a) :
    Counted (r.override v.id u o) id
      (w ++ word id [stamp.onDecision .vetoOverridden v.decisionId]) := by
  have hoverrides : (r.override v.id u o).overrides id =
      r.overrides id + if v.decisionId = id then 1 else 0 := overrides_override ho.veto ho.active
  have hvetoes : (r.override v.id u o).objections id = r.objections id := objections_override id
  by_cases hid : v.decisionId = id
  · subst hid
    rw [word_onDecision_self, word_nil]
    rw [if_pos rfl] at hoverrides
    exact h.append rfl (by rw [hvetoes]; rfl) hoverrides rfl rfl
  · rw [if_neg hid, add_zero] at hoverrides
    exact h.other (word_onDecision_of_ne hid) rfl hvetoes hoverrides fun _ => rfl

end Counting

section Counts

variable {r r' : Registry} {fresh : ℕ → Stamp} {c : Call} {id : UUID} {es w : List Entry}

/-- What every deed does to the counts. -/
theorem Counted.step (h : Deed r fresh c r' w) (hc : Counted r id (word id es)) :
    Counted r' id (word id (es ++ w)) := by
  rw [word_append]
  cases h with
  | created hpending _ hfresh => exact hc.created hpending hfresh
  | submitted hd hpending => exact hc.submitted hd hpending (.inr ⟨_, rfl⟩)
  | voted hb => exact hc.voted hb
  | rejected hb => exact hc.decided hb (.inr ⟨rfl, rfl⟩)
  | approved hb => exact hc.decided hb (.inl ⟨rfl, rfl⟩)
  | vetoed ho => exact hc.vetoed ho
  | overridden ho => exact hc.overruled ho
  | assigned | revoked => exact hc.other word_onAssignment rfl rfl rfl fun _ => rfl

variable [Hashlib] [Postgres]

/-- In every state reached, the entries about decisions count the actions. -/
theorem counted_execAll (qs : List Request) (id : UUID) :
    Counted (execAll qs .empty).toRegistry id (word id (execAll qs .empty).entries) := by
  induction qs using List.reverseRecOn with
  | nil => exact ⟨rfl, rfl, rfl, rfl, rfl⟩
  | append_singleton qs q ih =>
    rw [execAll_concat]
    -- The request does nothing, does its deed and records it, or fails in between.
    rcases q.deed (s := execAll qs .empty) with heq | ⟨r, w, hdeed, hleaves⟩ | ⟨hnot, h⟩
    · rwa [heq]
    · rw [hleaves.registry, hleaves.entries]
      exact ih.step hdeed
    · -- Of what may be left unrecorded, nothing is counted.
      obtain ⟨r, w, w', hdeed, hleaves⟩ := h
      rw [hleaves.registry, hleaves.entries, word_append]
      rcases hdeed.of_not_admitted hnot with hsubmitted | hrevoked
      · obtain ⟨id', d, t, hd, hpending, rfl, hw⟩ := hsubmitted
        refine ih.submitted hd hpending ?_
        rcases List.append_eq_singleton_iff.1 hw with ⟨rfl, _⟩ | ⟨rfl, _⟩
        · exact .inl word_nil
        · exact .inr ⟨_, rfl⟩
      · obtain ⟨a, _, _, _, rfl, hw⟩ := hrevoked
        refine ih.other ?_ rfl rfl rfl fun _ => rfl
        rcases List.append_eq_singleton_iff.1 hw with ⟨rfl, _⟩ | ⟨rfl, _⟩
        · rfl
        · exact word_onAssignment

end Counts

/-! ## Assignments -/

/-- The types of the entries about an assignment. -/
def tenure (id : UUID) (es : List Entry) : List AuditEventType :=
  (es.filter fun y => y.entityType = "raci_assignment" ∧ y.entityId = id.str).map Entry.eventType

/-- The words that the trail has for assignments, stored or not. -/
inductive Tenure : Bool → List AuditEventType → Prop
  | never : Tenure false []
  | held : Tenure true [.roleAssigned]
  | past : Tenure false [.roleAssigned, .roleRevoked]

/-- There is an assignment with the identifier. -/
def Registry.holds (r : Registry) (id : UUID) : Bool := (r.assignments.get? id).isSome

/-- The trail has a word for every assignment. -/
def Tenures (r : Registry) (es : List Entry) : Prop := ∀ id, Tenure (r.holds id) (tenure id es)

section Tenures

variable {id id' : UUID} {es es' : List Entry} {stamp : Stamp} {eventType : AuditEventType}
  {r r' : Registry} {fresh : ℕ → Stamp} {c : Call} {w : List Entry} {a : RACIAssignment}

theorem tenure_append : tenure id (es ++ es') = tenure id es ++ tenure id es' := by
  rw [tenure, tenure, tenure, List.filter_append, List.map_append]

@[simp] theorem tenure_nil : tenure id [] = [] := rfl

theorem tenure_onDecision :
    tenure id (stamp.onDecision eventType id' :: es) = tenure id es := by
  rw [tenure, List.filter_cons_of_neg (by simp [Stamp.onDecision])]
  rfl

theorem tenure_onAssignment_self :
    tenure id (stamp.onAssignment eventType id :: es) = eventType :: tenure id es := by
  rw [tenure, List.filter_cons_of_pos (by simp [Stamp.onAssignment])]
  rfl

theorem tenure_onAssignment_of_ne (h : id' ≠ id) :
    tenure id (stamp.onAssignment eventType id' :: es) = tenure id es := by
  have hne : id'.str ≠ id.str := fun e => h (UUID.str_injective e)
  rw [tenure, List.filter_cons_of_neg (by simp [Stamp.onAssignment, hne])]
  rfl

/-- Whether an assignment is held is whether it is in the table. -/
theorem holds_eq_true : r.holds id = true ↔ ∃ a, r.assignments.get? id = some a :=
  Option.isSome_iff_exists

/-- It is not held if it is not. -/
theorem holds_eq_false : r.holds id = false ↔ r.assignments.get? id = none := by
  rw [Registry.holds, Option.isSome_eq_false_iff, Option.isNone_iff_eq_none]

/-- An assignment that is held has been recorded when it was made, and no further. -/
theorem Tenure.of_held {b : Bool} {w : List AuditEventType} (h : Tenure b w) (hb : b = true) :
    w = [.roleAssigned] := by
  cases h with
  | held => rfl
  | never | past => cases hb

/-- An assignment that is made takes an identifier that the trail does not know. -/
theorem Tenures.assigned (h : Tenures r es) (ha : r.assignments.get? a.id = none)
    (hnew : tenure a.id es = []) :
    Tenures (r.withAssignment a) (es ++ [stamp.onAssignment .roleAssigned a.id]) := by
  intro id
  rw [tenure_append]
  by_cases hid : a.id = id
  · subst hid
    rw [hnew, tenure_onAssignment_self, tenure_nil, holds_eq_true.2 ⟨a, Table.get?_insert_self ha⟩]
    exact .held
  · rw [tenure_onAssignment_of_ne hid, tenure_nil, List.append_nil, Registry.holds,
      Registry.withAssignment, Table.get?_insert_of_ne hid]
    exact h id

/-- The revocation of an assignment, and its event. -/
theorem Tenures.revoked (h : Tenures r es) (ha : r.assignments.get? a.id = some a) :
    Tenures (r.revoke a.id) (es ++ [stamp.onAssignment .roleRevoked a.id]) := by
  intro id
  rw [tenure_append]
  by_cases hid : a.id = id
  · subst hid
    rw [(h a.id).of_held (holds_eq_true.2 ⟨a, ha⟩), tenure_onAssignment_self, tenure_nil,
      holds_eq_false.2 Table.get?_erase_self]
    exact .past
  · rw [tenure_onAssignment_of_ne hid, tenure_nil, List.append_nil, Registry.holds,
      Registry.revoke, Table.get?_erase_of_ne (Ne.symm hid)]
    exact h id

/-- What is not about assignments leaves their words. -/
theorem Tenures.congr (h : Tenures r es) (hr : r'.assignments = r.assignments)
    (hw : ∀ id, tenure id w = []) : Tenures r' (es ++ w) := fun id => by
  rw [tenure_append, hw, List.append_nil, Registry.holds, hr]
  exact h id

/-- Every deed continues the tenures. -/
theorem Tenures.step (h : Deed r fresh c r' w) (ht : Tenures r es)
    (hnew : tenure (fresh 0).id es = []) : Tenures r' (es ++ w) := by
  have hnil : ∀ {y y' : Entry}, (∀ id, tenure id [y] = []) → (∀ id, tenure id [y'] = []) →
      ∀ id, tenure id [y, y'] = [] := fun hy hy' id => by
    rw [← List.singleton_append, tenure_append, hy, hy', List.append_nil]
  cases h with
  | assigned _ hid ha => exact ht.assigned ha (hid ▸ hnew)
  | revoked ha => exact ht.revoked ha
  | created | submitted | voted | overridden => exact ht.congr rfl fun _ => tenure_onDecision
  | rejected | approved | vetoed =>
    exact ht.congr rfl (hnil (fun _ => tenure_onDecision) fun _ => tenure_onDecision)

/-- A deed says nothing of an assignment that there is not, and that it does not make. -/
theorem Deed.tenure_eq_nil (h : Deed r fresh c r' w) (hid : ∀ n < 4, (fresh n).id ≠ id)
    (hr : r.assignments.get? id = none) : tenure id w = [] := by
  cases h with
  | assigned _ ha =>
    exact tenure_onAssignment_of_ne (ha ▸ hid 0 (by decide))
  | @revoked a _ ha =>
    refine tenure_onAssignment_of_ne ?_
    rintro rfl
    exact Option.some_ne_none a (ha.symm.trans hr)
  | created | submitted | voted | overridden => exact tenure_onDecision
  | rejected | approved | vetoed => rw [tenure_onDecision, tenure_onDecision, tenure_nil]

/-- Nor does it make such an assignment. -/
theorem Deed.get?_assignments_eq_none (h : Deed r fresh c r' w)
    (hid : ∀ n < 4, (fresh n).id ≠ id) (hr : r.assignments.get? id = none) :
    r'.assignments.get? id = none := by
  cases h with
  | assigned _ ha => exact (Table.get?_insert_of_ne (ha ▸ hid 0 (by decide))).trans hr
  | revoked => exact Table.get?_erase_eq_none hr
  | _ => exact hr

end Tenures

section Runs

variable [Hashlib] [Postgres] {qs qs' : List Request} {s : Store} {id : UUID}

/-- The request does not revoke an assignment directly, in a name that no event can have. -/
def Signed (s : Store) (q : Request) : Prop :=
  q.mode = .direct → ∀ id revokedBy, q.call = .revokeRole id revokedBy →
    s.toRegistry.holds id = true → 1 ≤ revokedBy.length ∧ revokedBy.length ≤ 200

/-- The assignment is deleted before the name is looked at. -/
theorem wp_revokeRole_unsigned {fresh : ℕ → Stamp} {a : RACIAssignment} {revokedBy : String}
    (ha : s.assignments.get? a.id = some a)
    (hnot : ¬(1 ≤ revokedBy.length ∧ revokedBy.length ≤ 200)) :
    (RoleService.revokeRole fresh a.id revokedBy).wp backend (fun _ _ => False)
      (fun e s' => e.IsValueError ∧ s' = effect (.deleteAssignment a.id) s) s := by
  refine wp_answered (congrArg Except.ok ha) (wp_found_some ?_)
  refine wp_bind_of (wp_deleteAssignment ha) ?_ fun _ _ he => he.elim
  rintro _ _ rfl
  exact wp_bind_of (wp_recordEvent_of_not fun h => hnot h.2.2) (fun _ _ h => h.elim)
    fun _ _ h => h

/-- A revocation that is not signed leaves no record. -/
theorem exec_unsigned {q : Request} {a : RACIAssignment} {revokedBy : String}
    (hmode : q.mode = .direct) (hcall : q.call = .revokeRole a.id revokedBy)
    (ha : s.assignments.get? a.id = some a)
    (hnot : ¬(1 ≤ revokedBy.length ∧ revokedBy.length ≤ 200)) :
    q.exec s = effect (.deleteAssignment a.id) s := by
  have hspec : (q.call.program q.fresh).wp backend (fun _ _ => False)
      (fun e s' => e.IsValueError ∧ s' = effect (.deleteAssignment a.id) s) s := by
    rw [hcall]
    exact wp_revokeRole_unsigned ha hnot
  rcases Request.exec_cases hspec with
    ⟨_, hfalse⟩ | ⟨_, _, _, _, h⟩ | ⟨_, habandoned | ⟨_, _, ⟨hvalue, _⟩, hother⟩⟩
  · exact hfalse.elim
  · exact h
  · cases hmode.symm.trans habandoned
  · exact absurd hvalue (hother hmode)

/-- The trail only grows. -/
theorem entries_execAll (qs : List Request) (s : Store) :
    ∃ w, (execAll qs s).entries = s.entries ++ w := by
  induction qs using List.reverseRecOn with
  | nil => exact ⟨[], (List.append_nil _).symm⟩
  | append_singleton qs q ih =>
    obtain ⟨w, hw⟩ := ih
    rw [execAll_concat]
    rcases q.leaves (s := execAll qs s) with h | ⟨_, w', _, _, h⟩
    · exact ⟨w, by rw [h.entries, List.append_nil, hw]⟩
    · exact ⟨w ++ w', by rw [h.entries, hw, List.append_assoc]⟩

/-- Of an assignment that there is not, requests that are not given its identifier neither
    make it nor record anything. -/
theorem absent_execAll (hqs : ∀ q ∈ qs, id ∉ q.ids) (hs : s.assignments.get? id = none) :
    (execAll qs s).assignments.get? id = none ∧
      tenure id (execAll qs s).entries = tenure id s.entries := by
  induction qs using List.reverseRecOn with
  | nil => exact ⟨hs, rfl⟩
  | append_singleton qs q ih =>
    obtain ⟨hqs, hq⟩ := List.forall_mem_append.1 hqs
    obtain ⟨habsent, htenure⟩ := ih hqs
    rw [execAll_concat]
    rcases q.leaves (s := execAll qs s) with h | ⟨r, w, w', hdeed, h⟩
    · rw [h.entries, List.append_nil]
      exact ⟨(congrArg (fun r => r.assignments.get? id) h.registry).trans habsent, htenure⟩
    · have hid : ∀ n < 4, (q.fresh n).id ≠ id := fun n hn heq =>
        hq q List.mem_cons_self (heq ▸ q.mem_ids n hn)
      have hnil : tenure id (w ++ w') = [] := hdeed.tenure_eq_nil hid habsent
      rw [tenure_append] at hnil
      rw [h.entries, tenure_append, htenure, (List.append_eq_nil_iff.1 hnil).1, List.append_nil]
      exact ⟨(congrArg (fun r => r.assignments.get? id) h.registry).trans
        (hdeed.get?_assignments_eq_none hid habsent), rfl⟩

/-- In every run that gives no identifier twice, the trail has a word for every assignment. -/
theorem tenure_execAll (hids : qs.Pairwise fun q q' => ∀ id ∈ q.ids, id ∉ q'.ids)
    (hsigned : Along Signed qs .empty) :
    Tenures (execAll qs .empty).toRegistry (execAll qs .empty).entries := by
  induction qs using List.reverseRecOn with
  | nil => exact fun _ => .never
  | append_singleton qs q ih =>
    obtain ⟨hids, _, hq⟩ := List.pairwise_append.1 hids
    obtain ⟨hsigned, hlast, _⟩ := along_append.1 hsigned
    replace ih := ih hids hsigned
    have hnew : tenure (q.fresh 0).id (execAll qs .empty).entries = [] :=
      (absent_execAll (fun q' hq' hmem =>
        hq q' hq' q List.mem_cons_self _ hmem (q.mem_ids 0 (by decide))) rfl).2
    rw [execAll_concat]
    -- In a transaction, a call is committed with all of its events or not at all.
    by_cases hmode : q.mode = .direct
    · rcases q.deed (s := execAll qs .empty) with heq | ⟨r, w, hdeed, h⟩ | ⟨hnot, h⟩
      · rwa [heq]
      · rw [h.registry, h.entries]
        exact ih.step hdeed hnew
      · -- Only a submission may be left unrecorded, which is not about assignments.
        obtain ⟨r, w, w', hdeed, h⟩ := h
        rcases hdeed.of_not_admitted hnot with hsubmitted | hrevoked
        · obtain ⟨id, d, t, _, _, rfl, hw⟩ := hsubmitted
          rw [h.registry, h.entries]
          refine ih.congr rfl fun _ => ?_
          rcases List.append_eq_singleton_iff.1 hw with ⟨rfl, _⟩ | ⟨rfl, _⟩
          · rfl
          · exact tenure_onDecision
        · obtain ⟨a, revokedBy, ha, hc, _⟩ := hrevoked
          refine absurd ?_ hnot
          rw [hc]
          exact List.forall_mem_singleton.2
            (hlast hmode _ revokedBy hc (holds_eq_true.2 ⟨a, ha⟩))
    · rcases q.deed_of_ne_direct (s := execAll qs .empty) hmode with heq | ⟨r, w, hdeed, h⟩
      · rwa [heq]
      · rw [h.registry, h.entries]
        exact ih.step hdeed hnew

/-- The events about a decision are one for each action. -/
structure DecisionAudited (s : Store) (d : GovernanceDecision) : Prop where
  votes : (word d.id s.entries).count .approvalCast = s.toRegistry.votes d.id
  vetoes : (word d.id s.entries).count .vetoExercised = s.toRegistry.objections d.id
  overrides : (word d.id s.entries).count .vetoOverridden = s.toRegistry.overrides d.id
  approved : (word d.id s.entries).count .decisionApproved = if d.status = .approved then 1 else 0
  rejected : (word d.id s.entries).count .decisionRejected = if d.status = .rejected then 1 else 0

/-- The events about an assignment are one for each action. -/
structure AssignmentAudited (s : Store) (id : UUID) : Prop where
  assigned : (tenure id s.entries).count .roleAssigned = 1
  revoked : (tenure id s.entries).count .roleRevoked = if s.toRegistry.holds id then 0 else 1

/-- After the requests, there is exactly one event for every action. -/
structure Audited (qs : List Request) : Prop where
  decisions : ∀ d ∈ (execAll qs .empty).decisions.rows, DecisionAudited (execAll qs .empty) d
  assignments : ∀ qs₁, qs₁ <+: qs → ∀ a ∈ (execAll qs₁ .empty).assignments.rows,
    AssignmentAudited (execAll qs .empty) a.id

/-- Every assignment that has ever been made is recorded once, and once more if it has been
    revoked. -/
theorem assignmentAudited (hids : qs.Pairwise fun q q' => ∀ id ∈ q.ids, id ∉ q'.ids)
    (hsigned : Along Signed qs .empty) {qs₁ : List Request} (hqs₁ : qs₁ <+: qs)
    {a : RACIAssignment} (ha : a ∈ (execAll qs₁ .empty).assignments.rows) :
    AssignmentAudited (execAll qs .empty) a.id := by
  obtain ⟨qs₂, rfl⟩ := hqs₁
  have hheld := (tenure_execAll (List.pairwise_append.1 hids).1 (along_append.1 hsigned).1
    a.id).of_held (holds_eq_true.2 ⟨a, Table.get?_key ha⟩)
  -- What has been recorded stays.
  obtain ⟨w, hw⟩ := entries_execAll qs₂ (execAll qs₁ .empty)
  have htenure := tenure_execAll hids hsigned a.id
  rw [execAll_append] at htenure ⊢
  have hne : tenure a.id (execAll qs₂ (execAll qs₁ .empty)).entries ≠ [] := by
    rw [hw, tenure_append, hheld]
    simp
  constructor <;> generalize htold : tenure a.id _ = told, hb : Registry.holds _ a.id = b
    at htenure hne ⊢
  · cases htenure with
    | never => exact absurd rfl hne
    | held | past => rfl
  · cases htenure with
    | never => exact absurd rfl hne
    | held | past => rfl

/-- If every assignment is recorded once, and once more if it has been revoked, all
    revocations have been signed. -/
theorem signed_of_assignmentAudited (hids : qs.Pairwise fun q q' => ∀ id ∈ q.ids, id ∉ q'.ids)
    (h : ∀ qs₁, qs₁ <+: qs → ∀ a ∈ (execAll qs₁ .empty).assignments.rows,
      AssignmentAudited (execAll qs .empty) a.id) :
    ∀ qs₁, qs₁ <+: qs → Along Signed qs₁ .empty := by
  intro qs₁
  induction qs₁ using List.reverseRecOn with
  | nil => exact fun _ => trivial
  | append_singleton qs₁ q ih =>
    rintro ⟨qs₂, rfl⟩
    rw [List.append_assoc] at hids h ih
    have hsigned := ih (List.prefix_append _ _)
    refine along_append.2 ⟨hsigned, fun hmode id revokedBy hcall hholds => ?_, trivial⟩
    -- Else the revocation would not be recorded, and nothing later would be.
    by_contra hnot
    obtain ⟨a, ha⟩ := holds_eq_true.1 hholds
    obtain rfl : a.id = id := Table.key_of_get? ha
    obtain ⟨hids₁, hids₂, hdisjoint⟩ := List.pairwise_append.1 hids
    have hexec := exec_unsigned hmode hcall ha hnot
    have hlater : ∀ q' ∈ qs₂, a.id ∉ q'.ids := by
      intro q' hq' hmem
      have hnew := (free_execAll fun q₁ hq₁ hid => hdisjoint q₁ hq₁ q'
        (List.mem_cons_of_mem _ hq') _ hid hmem).registry.assignments
      exact Option.some_ne_none a (ha.symm.trans hnew)
    have hgone : (q.exec (execAll qs₁ .empty)).assignments.get? a.id = none := by
      rw [hexec]
      exact Table.get?_erase_self
    obtain ⟨habsent, htenure⟩ := absent_execAll hlater hgone
    have hrevoked := (h qs₁ (List.prefix_append _ _) a (Table.mem_of_get? ha)).revoked
    rw [execAll_append] at hrevoked
    change List.count _ (tenure a.id (execAll qs₂ (q.exec (execAll qs₁ .empty))).entries) =
      if Registry.holds (execAll qs₂ (q.exec (execAll qs₁ .empty))).toRegistry a.id = true then 0
      else 1 at hrevoked
    rw [htenure, holds_eq_false.2 habsent, hexec] at hrevoked
    change List.count _ (tenure a.id (execAll qs₁ .empty).entries) = _ at hrevoked
    rw [(tenure_execAll hids₁ hsigned a.id).of_held hholds] at hrevoked
    exact absurd hrevoked (by decide)

/-- Every action has left exactly one event, exactly if there are no vetoes, and all
    revocations have been signed. -/
theorem audited_iff (hids : qs.Pairwise fun q q' => ∀ id ∈ q.ids, id ∉ q'.ids) :
    Audited qs ↔ (execAll qs .empty).vetoes.rows = [] ∧ Along Signed qs .empty := by
  constructor
  · intro h
    refine ⟨List.eq_nil_iff_forall_not_mem.2 fun v hv => ?_,
      signed_of_assignmentAudited hids h.assignments qs (List.prefix_refl _)⟩
    obtain ⟨_, d, hd, _⟩ := (inv_execAll qs).sound.vetoes v hv
    -- Each veto is there twice.
    have htwice := (counted_execAll qs d.id).vetoes
    rw [(h.decisions d (Table.mem_of_get? hd)).vetoes] at htwice
    have hzero : (execAll qs .empty).toRegistry.objections d.id = 0 := by omega
    rw [Registry.objections, List.countP_eq_zero] at hzero
    exact hzero v hv (decide_eq_true (Table.key_of_get? hd).symm)
  · rintro ⟨hnone, hsigned⟩
    refine ⟨fun d hd => ?_, fun qs₁ hqs₁ a ha => assignmentAudited hids hsigned hqs₁ ha⟩
    have hc := counted_execAll qs d.id
    have hended : ∀ st, (execAll qs .empty).toRegistry.ended d.id st =
        if d.status = st then 1 else 0 := fun st => by
      rw [Registry.ended, statusOf_eq (Table.get?_key hd)]
      simp
    have hobjections : (execAll qs .empty).toRegistry.objections d.id = 0 := by
      rw [Registry.objections, hnone, List.countP_nil]
    refine ⟨hc.votes, ?_, hc.overrides, hc.approved.trans (hended _),
      hc.rejected.trans (hended _)⟩
    rw [hc.vetoes, hobjections]

end Runs

namespace Sales

attribute [local instance] Hashlib.standard Postgres.stable

/-- The calls of an example are all recorded. -/
theorem signed_requests (calls : List Call) : Along Signed (requests calls) .empty := by
  refine Along.of_forall fun q hq s hmode => ?_
  obtain ⟨_, _, rfl⟩ := List.mem_map.1 hq
  cases hmode

/-- The veto on the decision is recorded twice. -/
theorem not_audited : ¬∀ qs : List Request,
    (qs.Pairwise fun q q' => ∀ id ∈ q.ids, id ∉ q'.ids) → Along Signed qs .empty →
      Audited qs := by
  intro h
  have haudited := h (requests disputed) (by decide +kernel) (signed_requests disputed)
  have hall : ∀ d ∈ afterDisputed.decisions.rows, (word d.id afterDisputed.entries).count
      .vetoExercised ≠ afterDisputed.toRegistry.objections d.id := by decide +kernel
  have hmem : resolved ∈ afterDisputed.decisions.rows :=
    Table.mem_of_get? (Option.some_get _).symm
  exact hall resolved hmem (haudited.decisions resolved hmem).vetoes

/-- Bob approves the decision, cleo rejects it, and bob's role is revoked. -/
def settled : List Call :=
  submitted [("bob", .responsible), ("cleo", .accountable)] ++
    [.castVote decision "bob" .approve "", .castVote decision "cleo" .reject "",
      .revokeRole (fresh 1 0).id "ann"]

/-- A decision that is settled by votes, and all of its records. -/
theorem audited_settled : Audited (requests settled) ↔
    (execAll (requests settled) .empty).vetoes.rows = [] ∧ Along Signed (requests settled) .empty :=
  audited_iff (by decide +kernel)

end Sales

end OpenDataGov
