import OpenDataGov.Governance.Lifecycle

/-!
# What the trail tells

The events about a decision, in the order in which they were recorded, are a word that
tells its story (`Story`): the word says what the status of the decision is (`replay`),
and how many votes there are on it. The tables and the trail are in step with each
other (`InStep`).

The stories are a language: a decision is created, submitted, debated, and ended in one of three
ways. `replay` looks at the last event only, which is enough for a story, and says nothing of
other words. What is proved of the services is that the words they leave are stories, deed by
deed: each deed adds its events at the end of the word, and changes the tables as the story
goes on.

* `InStep.step`: every deed keeps the tables and the trail in step;
* `trail_replays`: in every state reached, the trail tells the status of each decision.

The events are taken in the order of recording. `Governance.Clock` is about the order that the
trail is read in, which is that of the times on the events.
-/

namespace OpenDataGov

open Calendar Keyed

/-! ## Stories -/

/-- A decision that has been submitted, and voted on `n` times. -/
def debate (n : ℕ) : List AuditEventType :=
  .decisionCreated :: .decisionSubmitted :: List.replicate n .approvalCast

/-- The words that the trail has for decisions, with the statuses that they tell. There
    are none for a decision that there is not. -/
inductive Story : Option DecisionStatus → List AuditEventType → Prop
  | absent : Story none []
  | pending : Story (some .pending) [.decisionCreated]
  | awaiting (n : ℕ) : Story (some .awaitingApproval) (debate n)
  | approved (n : ℕ) : Story (some .approved) (debate (n + 1) ++ [.decisionApproved])
  | rejected (n : ℕ) : Story (some .rejected) (debate (n + 1) ++ [.decisionRejected])
  | vetoed (n k : ℕ) :
      Story (some .vetoed) (debate n ++ List.replicate (k + 1) .vetoExercised)
  | overridden (n k : ℕ) : Story (some .vetoed)
      (debate n ++ List.replicate (k + 1) .vetoExercised ++ [.vetoOverridden])

/-- The status that an event leads to. -/
def leadsTo : AuditEventType → Option DecisionStatus
  | .decisionCreated => some .pending
  | .decisionSubmitted | .approvalCast => some .awaitingApproval
  | .decisionApproved => some .approved
  | .decisionRejected => some .rejected
  | .vetoExercised | .vetoOverridden => some .vetoed
  | _ => none

/-- The status that a word tells: the one that its last event leads to. -/
def replay (w : List AuditEventType) : Option DecisionStatus := w.getLast?.bind leadsTo

section Stories

variable {st : Option DecisionStatus} {w : List AuditEventType} {n : ℕ}

/-- A debate with another vote. -/
theorem debate_succ : debate (n + 1) = debate n ++ [.approvalCast] := by
  rw [debate, List.replicate_succ']
  rfl

/-- The last event decides. -/
theorem replay_concat {a : AuditEventType} : replay (w ++ [a]) = leadsTo a := by
  rw [replay, List.getLast?_concat, Option.bind_some]

/-- A story ends with the status that its last event sets. -/
theorem Story.replay_eq (h : Story st w) : replay w = st := by
  cases h with
  | absent | pending => rfl
  | awaiting n =>
    cases n with
    | zero => rfl
    | succ n => rw [debate_succ, replay_concat, leadsTo]
  | approved | rejected | overridden => rw [replay_concat, leadsTo]
  | vetoed n k => rw [List.replicate_succ', ← List.append_assoc, replay_concat, leadsTo]

/-- The story of a decision that awaits approval goes on with a vote, with its end or with
    a veto. -/
theorem Story.of_awaiting (h : Story (some .awaitingApproval) w) :
    .vetoOverridden ∉ w ∧ Story (some .awaitingApproval) (w ++ [.approvalCast]) ∧
      Story (some .approved) (w ++ [.approvalCast, .decisionApproved]) ∧
      Story (some .rejected) (w ++ [.approvalCast, .decisionRejected]) ∧
      Story (some .vetoed) (w ++ [.vetoExercised, .vetoExercised]) := by
  generalize hst : some DecisionStatus.awaitingApproval = st at h
  cases h with
  | awaiting n =>
    refine ⟨by simp [debate], ?_, ?_, ?_, .vetoed n 1⟩
    · rw [← debate_succ]
      exact .awaiting (n + 1)
    · rw [← List.singleton_append, ← List.append_assoc, ← debate_succ]
      exact .approved n
    · rw [← List.singleton_append, ← List.append_assoc, ← debate_succ]
      exact .rejected n
  | _ => cases hst

/-- A pending decision has been created, and nothing else. -/
theorem Story.of_pending (h : Story (some .pending) w) : w = [.decisionCreated] := by
  generalize hst : some DecisionStatus.pending = st at h
  cases h with
  | pending => rfl
  | _ => cases hst

/-- There is no story of a decision that is not there. -/
theorem Story.of_absent (h : Story none w) : w = [] := by
  generalize hst : (none : Option DecisionStatus) = st at h
  cases h with
  | absent => rfl
  | _ => cases hst

/-- The story of a veto that is not overridden may end so. -/
theorem Story.of_vetoed (h : Story (some .vetoed) w) (hnot : .vetoOverridden ∉ w) :
    Story (some .vetoed) (w ++ [.vetoOverridden]) := by
  generalize hst : some DecisionStatus.vetoed = st at h
  cases h with
  | vetoed n k => exact .overridden n k
  | overridden n k => exact absurd (by simp) hnot
  | _ => cases hst

end Stories

/-! ## The tables and the trail -/

/-- The types of the entries about a decision. -/
def word (id : UUID) (es : List Entry) : List AuditEventType :=
  (es.filter fun y => y.entityType = "decision" ∧ y.entityId = id.str).map Entry.eventType

namespace Registry

variable (r : Registry)

/-- The status of a decision, if there is the decision. -/
def statusOf (id : UUID) : Option DecisionStatus :=
  (r.decisions.get? id).map GovernanceDecision.status

/-- The number of votes on a decision. -/
def votes (id : UUID) : ℕ := r.approvals.rows.countP fun x => x.decisionId = id

end Registry

/-- The word `w` tells the story of the decision `id`: its status, how many votes there are
    on it, and whether its veto has been overridden. -/
structure Told (r : Registry) (id : UUID) (w : List AuditEventType) : Prop where
  story : Story (r.statusOf id) w
  votes : w.count .approvalCast = r.votes id
  overridden : .vetoOverridden ∈ w → ∀ v ∈ r.vetoes.rows, v.decisionId = id → v.status ≠ .active

section Words

variable {id id' : UUID} {es es' : List Entry} {stamp : Stamp} {eventType : AuditEventType}

theorem word_append : word id (es ++ es') = word id es ++ word id es' := by
  rw [word, word, word, List.filter_append, List.map_append]

@[simp] theorem word_nil : word id [] = [] := rfl

theorem word_onDecision_self :
    word id (stamp.onDecision eventType id :: es) = eventType :: word id es := by
  rw [word, List.filter_cons_of_pos (by simp [Stamp.onDecision])]
  rfl

theorem word_onDecision_of_ne (h : id' ≠ id) :
    word id (stamp.onDecision eventType id' :: es) = word id es := by
  have hne : id'.str ≠ id.str := fun e => h (UUID.str_injective e)
  rw [word, List.filter_cons_of_neg (by simp [Stamp.onDecision, hne])]
  rfl

theorem word_onAssignment :
    word id (stamp.onAssignment eventType id' :: es) = word id es := by
  rw [word, List.filter_cons_of_neg (by simp [Stamp.onAssignment])]
  rfl

end Words

section Tables

variable {r r' : Registry} {d : GovernanceDecision} {x : ApprovalRecord} {v : VetoRecord}
  {id id' : UUID} {status : DecisionStatus} {t : DateTime} {md : Json.Dict Json.Scalar}
  {w : List AuditEventType}

theorem statusOf_eq (h : r.decisions.get? id = some d) : r.statusOf id = some d.status := by
  rw [Registry.statusOf, h, Option.map_some]

theorem statusOf_mark_self (h : r.decisions.get? id = some d) :
    (r.mark id status t md).statusOf id = some status := by
  rw [Registry.statusOf, decisions_mark, Table.get?_modify_self, h]
  rfl

theorem statusOf_mark_of_ne (h : id ≠ id') :
    (r.mark id' status t md).statusOf id = r.statusOf id := by
  rw [Registry.statusOf, decisions_mark, Table.get?_modify_of_ne h, Registry.statusOf]

theorem statusOf_withDecision_self (h : r.decisions.get? d.id = none) :
    (r.withDecision d).statusOf d.id = some d.status :=
  statusOf_eq (Table.get?_insert_self h)

theorem statusOf_withDecision_of_ne (h : d.id ≠ id) :
    (r.withDecision d).statusOf id = r.statusOf id := by
  rw [Registry.statusOf, Registry.withDecision, Table.get?_insert_of_ne h, Registry.statusOf]

/-- A vote counts for the decision that it is on. -/
theorem votes_withVote (hx : r.approvals.get? x.id = none) :
    (r.withVote x).votes id = r.votes id + if x.decisionId = id then 1 else 0 := by
  simp [Registry.votes, Registry.withVote, Table.rows_insert hx, List.countP_append,
    List.countP_cons]

/-- A veto that is active after an override has not been overridden. -/
theorem mem_of_override {vetoId : UUID} {u : String} {o : Option DateTime}
    (hv : v ∈ (r.override vetoId u o).vetoes.rows) (hactive : v.status = .active) :
    v ∈ r.vetoes.rows ∧ v.id ≠ vetoId := by
  obtain ⟨v', hv', rfl⟩ := List.mem_map.1 hv
  split_ifs at hactive ⊢ with h
  · cases hactive
  · exact ⟨hv', h⟩

/-- There are no two vetoes on a decision. -/
theorem Inv.veto_eq (hi : Inv r) (hv : r.vetoes.get? v.id = some v)
    (hd : r.decisions.get? v.decisionId = some d) :
    d.status = .vetoed ∧ ∀ w ∈ r.vetoes.rows, w.decisionId = v.decisionId → w = v := by
  have he := hi.evidence_get? hd
  have hmem := Table.mem_of_get? hv
  have hvetoed : d.status = .vetoed := by
    by_contra hne
    exact he.veto_ne hne v hmem rfl
  refine ⟨hvetoed, fun w hw hwd => ?_⟩
  have hone : r.objections v.decisionId = 1 := by rw [he.objections, if_pos hvetoed]
  rw [Registry.objections, List.countP_eq_length_filter, List.length_eq_one_iff] at hone
  obtain ⟨a, ha⟩ := hone
  have hin : ∀ {z : VetoRecord}, z ∈ r.vetoes.rows → z.decisionId = v.decisionId → z = a := by
    intro z hz hzd
    have hz' : z ∈ [a] := ha ▸ List.mem_filter.2 ⟨hz, decide_eq_true hzd⟩
    exact List.mem_singleton.1 hz'
  rw [hin hw hwd, hin hmem rfl]

/-- The story of a decision depends on its status, on the votes on it and on the vetoes on
    it that are active. -/
theorem Told.congr (h : Told r id w) (hst : r'.statusOf id = r.statusOf id)
    (hvotes : r'.votes id = r.votes id)
    (hvetoes : ∀ v ∈ r'.vetoes.rows, v.decisionId = id → v.status = .active → v ∈ r.vetoes.rows) :
    Told r' id w where
  story := hst ▸ h.story
  votes := h.votes.trans hvotes.symm
  overridden hw v hv hid hactive := h.overridden hw v (hvetoes v hv hid hactive) hid hactive

/-- The story of a decision that awaits approval. -/
theorem Told.awaiting (h : Told r id w) (hd : r.decisions.get? id = some d)
    (hawaiting : d.status = .awaitingApproval) : Story (some .awaitingApproval) w := by
  have hstory := h.story
  rwa [statusOf_eq hd, hawaiting] at hstory

/-- A story goes on without an override. -/
theorem Told.append (h : Told r id w) {w' : List AuditEventType} {st : DecisionStatus}
    (hst : r'.statusOf id = some st) (hstory : Story (some st) (w ++ w'))
    (hvotes : r'.votes id = r.votes id + w'.count .approvalCast)
    (hw : .vetoOverridden ∉ w) (hw' : .vetoOverridden ∉ w') : Told r' id (w ++ w') where
  story := hst ▸ hstory
  votes := by rw [List.count_append, h.votes, hvotes]
  overridden hmem := absurd hmem (List.mem_append.not.2 (not_or.2 ⟨hw, hw'⟩))

/-! ### What a deed tells -/

variable {stamp stamp' : Stamp} {eventType : AuditEventType}

/-- The story of another decision does not go on. -/
theorem Told.other (h : Told r id w) {w' : List AuditEventType} (hw : w' = [])
    (hst : r'.statusOf id = r.statusOf id) (hvotes : r'.votes id = r.votes id)
    (hvetoes : ∀ v ∈ r'.vetoes.rows, v.decisionId = id → v.status = .active → v ∈ r.vetoes.rows) :
    Told r' id (w ++ w') := by
  rw [hw, List.append_nil]
  exact h.congr hst hvotes hvetoes

/-- Creating a decision begins its story, -/
theorem Told.created (h : Told r id w) (hpending : d.status = .pending)
    (hfresh : r.decisions.get? d.id = none) :
    Told (r.withDecision d) id (w ++ word id [stamp.onDecision .decisionCreated d.id]) := by
  by_cases hid : d.id = id
  · subst hid
    have hnone : r.statusOf d.id = none := by rw [Registry.statusOf, hfresh, Option.map_none]
    have hw := (hnone ▸ h.story).of_absent
    rw [hw] at h ⊢
    rw [word_onDecision_self, word_nil]
    refine h.append (statusOf_withDecision_self hfresh) ?_ rfl List.not_mem_nil (by decide)
    rw [hpending]
    exact .pending
  · exact h.other (word_onDecision_of_ne hid) (statusOf_withDecision_of_ne hid) rfl
      fun v hv _ _ => hv

/-- submitting it goes on with it, -/
theorem Told.submitted (h : Told r id w) (hd : r.decisions.get? id' = some d)
    (hpending : d.status = .pending) :
    Told (r.mark id' .awaitingApproval t md) id
      (w ++ word id [stamp.onDecision .decisionSubmitted id']) := by
  by_cases hid : id' = id
  · subst hid
    have hw := ((statusOf_eq hd).trans (congrArg some hpending) ▸ h.story).of_pending
    rw [hw] at h ⊢
    rw [word_onDecision_self, word_nil]
    exact h.append (statusOf_mark_self hd) (.awaiting 0) rfl (by decide) (by decide)
  · exact h.other (word_onDecision_of_ne hid) (statusOf_mark_of_ne (Ne.symm hid)) rfl
      fun v hv _ _ => hv

/-- and so does a vote. -/
theorem Told.voted (h : Told r id w) (hb : Ballot r d x) :
    Told (r.withVote x) id (w ++ word id [stamp.onDecision .approvalCast x.decisionId]) := by
  by_cases hid : x.decisionId = id
  · subst hid
    obtain ⟨hnot, hstory, _⟩ := (h.awaiting hb.decision hb.awaiting).of_awaiting
    rw [word_onDecision_self, word_nil]
    refine h.append ?_ hstory ((votes_withVote hb.fresh).trans (by rw [if_pos rfl]; rfl)) hnot
      (by decide)
    exact (statusOf_eq hb.decision).trans (congrArg some hb.awaiting)
  · exact h.other (word_onDecision_of_ne hid) rfl
      ((votes_withVote hb.fresh).trans (by rw [if_neg hid, add_zero])) fun v hv _ _ => hv

/-- A vote that decides is told after those before it, and the decision after that. -/
theorem Told.decided (h : Told r id w) (hb : Ballot r d x)
    (hevent : eventType = .decisionApproved ∨ eventType = .decisionRejected)
    (hstory : Story (some .awaitingApproval) w →
      .vetoOverridden ∉ w ∧ Story (some status) (w ++ [.approvalCast, eventType])) :
    Told ((r.withVote x).mark x.decisionId status t d.metadata) id
      (w ++ word id [stamp.onDecision .approvalCast x.decisionId,
        stamp'.onDecision eventType x.decisionId]) := by
  by_cases hid : x.decisionId = id
  · subst hid
    obtain ⟨hnot, hdecided⟩ := hstory (h.awaiting hb.decision hb.awaiting)
    rw [word_onDecision_self, word_onDecision_self, word_nil]
    refine h.append (statusOf_mark_self (r := r.withVote x) hb.decision) hdecided
      ((votes_withVote hb.fresh).trans ?_) hnot ?_
    · rw [if_pos rfl]
      rcases hevent with rfl | rfl <;> rfl
    · rcases hevent with rfl | rfl <;> decide
  · refine h.other ?_ (statusOf_mark_of_ne (Ne.symm hid))
      ((votes_withVote hb.fresh).trans (by rw [if_neg hid, add_zero])) fun v hv _ _ => hv
    rw [word_onDecision_of_ne hid, word_onDecision_of_ne hid, word_nil]

/-- A veto is told twice. -/
theorem Told.vetoed (h : Told r id w) (ho : Objection r d v) :
    Told ((r.withVeto v).mark v.decisionId .vetoed t d.metadata) id
      (w ++ word id [stamp.onDecision .vetoExercised v.decisionId,
        stamp'.onDecision .vetoExercised v.decisionId]) := by
  by_cases hid : v.decisionId = id
  · subst hid
    obtain ⟨hnot, _, _, _, hstory⟩ := (h.awaiting ho.decision ho.awaiting).of_awaiting
    rw [word_onDecision_self, word_onDecision_self, word_nil]
    exact h.append (statusOf_mark_self (r := r.withVeto v) ho.decision) hstory rfl hnot
      (by decide)
  · refine h.other ?_ (statusOf_mark_of_ne (Ne.symm hid)) rfl fun w hw hwid _ => ?_
    · rw [word_onDecision_of_ne hid, word_onDecision_of_ne hid, word_nil]
    · exact ((mem_withVeto ho.fresh).1 hw).resolve_right fun e => hid (e ▸ hwid)

/-- The veto overridden was the only one on the decision, and is not active any more. -/
theorem Told.overruled {a : RACIAssignment} {u : String} {o : Option DateTime}
    (h : Told r id w) (hi : Inv r) (ho : Override r v a) :
    Told (r.override v.id u o) id
      (w ++ word id [stamp.onDecision .vetoOverridden v.decisionId]) := by
  obtain ⟨d, hd, _⟩ := ho.decision
  obtain ⟨hvetoed, honly⟩ := hi.veto_eq ho.veto hd
  by_cases hid : v.decisionId = id
  · subst hid
    have hmem := Table.mem_of_get? ho.veto
    have hst : r.statusOf v.decisionId = some .vetoed :=
      (statusOf_eq hd).trans (congrArg some hvetoed)
    -- The event is the first of its kind, since the veto has been active until now.
    have hnot : .vetoOverridden ∉ w := fun hw => h.overridden hw v hmem rfl ho.active
    rw [word_onDecision_self, word_nil]
    refine ⟨?_, ?_, fun _ w hw hwid hactive => ?_⟩
    · change Story (r.statusOf v.decisionId) _
      rw [hst]
      exact (hst ▸ h.story).of_vetoed hnot
    · rw [List.count_append, h.votes]
      rfl
    · obtain ⟨hw', hne⟩ := mem_of_override hw hactive
      exact hne (congrArg VetoRecord.id (honly w hw' hwid))
  · exact h.other (word_onDecision_of_ne hid) rfl rfl fun w hw _ hactive =>
      (mem_of_override hw hactive).1

end Tables

/-- The word of every decision tells its story. -/
def InStep (r : Registry) (es : List Entry) : Prop := ∀ id, Told r id (word id es)

section Steps

variable {r r' : Registry} {fresh : ℕ → Stamp} {c : Call} {es w : List Entry}

/-- Every deed keeps the tables and the trail in step. -/
theorem InStep.step (h : Deed r fresh c r' w) (hi : Inv r) (hs : InStep r es) :
    InStep r' (es ++ w) := by
  intro id
  rw [word_append]
  have ht := hs id
  cases h with
  | created hpending _ hfresh => exact ht.created hpending hfresh
  | submitted hd hpending => exact ht.submitted hd hpending
  | voted hb => exact ht.voted hb
  | rejected hb =>
    refine ht.decided hb (.inr rfl) fun hs => ?_
    obtain ⟨hnot, _, _, hstory, _⟩ := hs.of_awaiting
    exact ⟨hnot, hstory⟩
  | approved hb =>
    refine ht.decided hb (.inl rfl) fun hs => ?_
    obtain ⟨hnot, _, hstory, _⟩ := hs.of_awaiting
    exact ⟨hnot, hstory⟩
  | vetoed ho => exact ht.vetoed ho
  | overridden ho => exact ht.overruled hi ho
  | assigned | revoked => exact ht.other word_onAssignment rfl rfl fun v hv _ _ => hv

variable [Hashlib] [Postgres]

/-- After requests that name users whom events can name, the tables and the trail are in
    step. -/
theorem inStep_execAll {qs : List Request} (h : ∀ q ∈ qs, q.call.Admitted) :
    InStep (execAll qs .empty).toRegistry (execAll qs .empty).entries := by
  induction qs using List.reverseRecOn with
  | nil => exact fun _ => ⟨.absent, rfl, fun hw => absurd hw List.not_mem_nil⟩
  | append_singleton qs q ih =>
    obtain ⟨hqs, hq⟩ := List.forall_mem_append.1 h
    rw [execAll_concat]
    rcases q.deed (s := execAll qs .empty) with heq | ⟨r, w, hdeed, hleaves⟩ | ⟨hnot, _⟩
    · rw [heq]
      exact ih hqs
    · rw [hleaves.registry, hleaves.entries]
      exact (ih hqs).step hdeed (inv_execAll qs)
    · exact absurd (hq q List.mem_cons_self) hnot

/-- In every state reached by operations, one after another, whose users have names of 1
    to 200 characters, the entries about a decision tell its story: its status, which
    the last one leads to, and how many votes there are on it. -/
theorem trail_replays {qs : List Request} (h : ∀ q ∈ qs, q.call.Admitted) {id : UUID}
    {d : GovernanceDecision} (hd : (execAll qs .empty).decisions.get? id = some d) :
    Story (some d.status) (word id (execAll qs .empty).entries) ∧
      (word id (execAll qs .empty).entries).count .approvalCast =
        (execAll qs .empty).toRegistry.votes id ∧
      replay (word id (execAll qs .empty).entries) = some d.status := by
  have ht := inStep_execAll h id
  have hstory := ht.story
  rw [statusOf_eq hd] at hstory
  exact ⟨hstory, ht.votes, hstory.replay_eq⟩

end Steps

namespace Sales

attribute [local instance] Hashlib.standard Postgres.stable

/-- Bob approves the decision, and cleo vetoes it. Then dan, who is accountable, overrides
    the veto. -/
def disputed : List Call :=
  submitted [("bob", .responsible), ("cleo", .responsible), ("dan", .accountable)] ++
    [.castVote decision "bob" .approve "", .exerciseVeto decision "cleo" "Incomplete",
      .overrideVeto (Sales.fresh 6 0).id "dan"]

/-- The stores after the override. -/
def afterDisputed : Store := execAll (requests disputed) .empty

/-- The decision after all requests. -/
def resolved : GovernanceDecision :=
  (afterDisputed.decisions.get? decision).get (by decide +kernel)

/-- The story of a decision that is disputed and vetoed. -/
theorem trail_disputed : Story (some resolved.status) (word decision afterDisputed.entries) ∧
    (word decision afterDisputed.entries).count .approvalCast =
      afterDisputed.toRegistry.votes decision ∧
    replay (word decision afterDisputed.entries) = some resolved.status :=
  trail_replays (by decide +kernel) (Option.some_get _).symm

example : word decision afterDisputed.entries = [.decisionCreated, .decisionSubmitted,
    .approvalCast, .vetoExercised, .vetoExercised, .vetoOverridden] := by
  decide +kernel

end Sales

end OpenDataGov
