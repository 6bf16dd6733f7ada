import OpenDataGov.Governance.Outcome

/-!
# What a call records

A call that is not refused does one thing (`Deed`): it changes the tables about
decisions as one of its outcomes does, under the identifiers that it is given, and
leaves entries in the audit trail that say so.

Deeds are outcomes (`Deed.outcome`) with what is recorded of them, so they are the same case
distinction twice: once for what may become of a decision, and once for what the trail says. An
entry is what an event says of what it is about; its hashes are left to the modules about the
chain.

That the programs of the services refine this is proved along each program (`Carries`), from its
first statement to its last: a check that fails ends the call as refused, and what has been
written so far is what the deed will have written (`Leaves`). There is one gap. An event is
validated when it is recorded, after the rest has been done, and a user's name that is too long
fails there. Of a request on repositories in memory, a part of the deed is left then
(`Unrecorded`); a transaction is rolled back.

* `Call.carries`: a call that ends has done a deed and recorded all of it;
* `Request.deed`: a request does a deed of its call and records it, or leaves all
  as it was, whichever way it is carried out; but for users whom no event can name
  (`Call.Admitted`), of whose deed a part may be left unrecorded (`Unrecorded`);
* `Request.outcome`: the tables about decisions are those of an outcome;
* `outcome_induct`: what all outcomes preserve, holds after all runs.
-/

namespace OpenDataGov

open Calendar Transact Program ApprovalService VetoService AuditService

/-! ## The trail -/

/-- What an event says of what it is about. -/
structure Entry where
  id : UUID
  eventType : AuditEventType
  entityType : String
  entityId : String

/-- The entry of an event. -/
def AuditEvent.entry (e : AuditEvent) : Entry :=
  ⟨e.id, e.eventType, e.entityType.text, e.entityId.text⟩

/-- The entries of the trail, in the order in which they were recorded. -/
def Store.entries (s : Store) : List Entry := s.events.rows.map AuditEvent.entry

/-- An entry about a decision. -/
def Stamp.onDecision (stamp : Stamp) (eventType : AuditEventType) (id : UUID) : Entry :=
  ⟨stamp.id, eventType, "decision", id.str⟩

/-- An entry about an assignment. -/
def Stamp.onAssignment (stamp : Stamp) (eventType : AuditEventType) (id : UUID) : Entry :=
  ⟨stamp.id, eventType, "raci_assignment", id.str⟩

/-- The stores `s'` have the tables `r`, and the trail of `s` with the entries `w`. -/
structure Leaves (s : Store) (r : Registry) (w : List Entry) (s' : Store) : Prop where
  registry : s'.toRegistry = r
  entries : s'.entries = s.entries ++ w

/-- What is left in two steps. -/
theorem Leaves.trans {s s₁ s₂ : Store} {r r' : Registry} {w w' : List Entry}
    (h : Leaves s r w s₁) (h' : Leaves s₁ r' w' s₂) : Leaves s r' (w ++ w') s₂ where
  registry := h'.registry
  entries := by rw [h'.entries, h.entries, List.append_assoc]

/-- What does not touch the trail leaves it. -/
theorem leaves_of_events {s s' : Store} {r : Registry} (hr : s'.toRegistry = r)
    (he : s'.events = s.events) : Leaves s r [] s' where
  registry := hr
  entries := by rw [Store.entries, he, List.append_nil, Store.entries]

/-! ## Deeds -/

/-- What a call does that is given the identifiers and times `fresh` and not refused,
    and the entries that it leaves. -/
inductive Deed (r : Registry) (fresh : ℕ → Stamp) : Call → Registry → List Entry → Prop
  | created {d metadata} : d.status = .pending → d.id = (fresh 0).id →
      r.decisions.get? d.id = none →
      Deed r fresh (.createDecision d.decisionType d.title.text d.description d.domainId.text
        d.createdBy.text d.promotion metadata) (r.withDecision d)
        [(fresh 2).onDecision .decisionCreated d.id]
  | submitted {id actorId d t} : r.decisions.get? id = some d → d.status = .pending →
      Deed r fresh (.submitForApproval id actorId) (r.mark id .awaitingApproval t d.metadata)
        [(fresh 1).onDecision .decisionSubmitted id]
  | voted {d x} : Ballot r d x → x.id = (fresh 0).id → x.vote ≠ .reject →
      (x.vote = .approve → ¬(r.withVote x).FullyApproved x.decisionId d.domainId) →
      Deed r fresh (.castVote x.decisionId x.voterId.text x.vote x.comment) (r.withVote x)
        [(fresh 1).onDecision .approvalCast x.decisionId]
  | rejected {d x t} : Ballot r d x → x.id = (fresh 0).id → x.vote = .reject →
      Deed r fresh (.castVote x.decisionId x.voterId.text x.vote x.comment)
        ((r.withVote x).mark x.decisionId .rejected t d.metadata)
        [(fresh 1).onDecision .approvalCast x.decisionId,
          (fresh 3).onDecision .decisionRejected x.decisionId]
  | approved {d x t} : Ballot r d x → x.id = (fresh 0).id → x.vote = .approve →
      (r.withVote x).FullyApproved x.decisionId d.domainId →
      Deed r fresh (.castVote x.decisionId x.voterId.text x.vote x.comment)
        ((r.withVote x).mark x.decisionId .approved t d.metadata)
        [(fresh 1).onDecision .approvalCast x.decisionId,
          (fresh 3).onDecision .decisionApproved x.decisionId]
  | vetoed {d v t} : Objection r d v → v.id = (fresh 0).id → v.vetoedAt = (fresh 0).now →
      Deed r fresh (.exerciseVeto v.decisionId v.vetoedBy.text v.reason.1)
        ((r.withVeto v).mark v.decisionId .vetoed t d.metadata)
        [(fresh 2).onDecision .vetoExercised v.decisionId,
          (fresh 3).onDecision .vetoExercised v.decisionId]
  | overridden {v a} : Override r v a →
      Deed r fresh (.overrideVeto v.id a.userId.text)
        (r.override v.id a.userId.text v.overriddenAt)
        [(fresh 0).onDecision .vetoOverridden v.decisionId]
  | assigned {a} : (∀ b ∈ r.assignments.rows, b.userId = a.userId → b.domainId ≠ a.domainId) →
      a.id = (fresh 0).id → r.assignments.get? a.id = none →
      Deed r fresh (.assignRole a.userId.text a.domainId.text a.role a.assignedBy.text)
        (r.withAssignment a) [(fresh 1).onAssignment .roleAssigned a.id]
  | revoked {a revokedBy} : r.assignments.get? a.id = some a →
      Deed r fresh (.revokeRole a.id revokedBy) (r.revoke a.id)
        [(fresh 0).onAssignment .roleRevoked a.id]

/-- The users that a call names. -/
def Call.users : Call → List String
  | .createDecision _ _ _ _ createdBy _ _ => [createdBy]
  | .submitForApproval _ actorId => [actorId]
  | .castVote _ voterId _ _ => [voterId]
  | .exerciseVeto _ vetoedBy _ => [vetoedBy]
  | .overrideVeto _ overriddenBy => [overriddenBy]
  | .assignRole userId _ _ assignedBy => [userId, assignedBy]
  | .revokeRole _ revokedBy => [revokedBy]

/-- The users of a call have names of 1 to 200 characters. -/
def Call.Admitted (c : Call) : Prop := ∀ u ∈ c.users, 1 ≤ u.length ∧ u.length ≤ 200

instance {c : Call} : Decidable c.Admitted :=
  inferInstanceAs (Decidable (∀ u ∈ c.users, _ ∧ _))

section Deeds

variable {r r' : Registry} {fresh : ℕ → Stamp} {c : Call} {w : List Entry}

/-- A deed is one of the outcomes. -/
theorem Deed.outcome (h : Deed r fresh c r' w) : Outcome r fresh c r' := by
  cases h with
  | created hpending hid hfresh => exact .created hpending hid hfresh
  | submitted hd hpending => exact .submitted hd hpending
  | voted hb _ hvote hnot => exact .voted hb hvote hnot
  | rejected hb _ hvote => exact .rejected hb hvote
  | approved hb _ hvote hfull => exact .approved hb hvote hfull
  | vetoed ho _ hnow => exact .vetoed ho hnow
  | overridden ho => exact .overridden ho
  | assigned hunique _ hfresh => exact .assigned hunique hfresh
  | revoked ha => exact .revoked ha

/-- The entries have identifiers that the call is given. -/
theorem Deed.entry_id (h : Deed r fresh c r' w) : ∀ y ∈ w, ∃ n < 4, y.id = (fresh n).id := by
  have hsingle : ∀ {y : Entry} {n : ℕ}, n < 4 → y.id = (fresh n).id →
      ∀ y' ∈ [y], ∃ n < 4, y'.id = (fresh n).id := by
    intro y n hn hy y' hy'
    rw [List.mem_singleton.1 hy']
    exact ⟨n, hn, hy⟩
  cases h with
  | created => exact hsingle (n := 2) (by decide) rfl
  | submitted | voted | assigned => exact hsingle (n := 1) (by decide) rfl
  | overridden | revoked => exact hsingle (n := 0) (by decide) rfl
  | rejected | approved =>
    exact List.forall_mem_cons.2 ⟨⟨1, by decide, rfl⟩, hsingle (n := 3) (by decide) rfl⟩
  | vetoed =>
    exact List.forall_mem_cons.2 ⟨⟨2, by decide, rfl⟩, hsingle (n := 3) (by decide) rfl⟩

/-- What names a user whom no event can name is the submission of a decision or the
    revocation of an assignment. -/
theorem Deed.of_not_admitted (h : Deed r fresh c r' w) (hc : ¬c.Admitted) :
    (∃ id d t, r.decisions.get? id = some d ∧ d.status = .pending ∧
      r' = r.mark id .awaitingApproval t d.metadata ∧
      w = [(fresh 1).onDecision .decisionSubmitted id]) ∨
    ∃ a revokedBy, r.assignments.get? a.id = some a ∧ c = .revokeRole a.id revokedBy ∧
      r' = r.revoke a.id ∧ w = [(fresh 0).onAssignment .roleRevoked a.id] := by
  -- The users of other deeds are those of the rows that are stored.
  have huser : ∀ u : Bounded 1 200, ∀ v ∈ [u.text], 1 ≤ v.length ∧ v.length ≤ 200 :=
    fun u v hv => List.mem_singleton.1 hv ▸ u.bounds
  cases h with
  | submitted hd hpending => exact .inl ⟨_, _, _, hd, hpending, rfl, rfl⟩
  | revoked ha => exact .inr ⟨_, _, ha, rfl, rfl, rfl⟩
  | @created d => exact absurd (huser d.createdBy) hc
  | @voted _ x | @rejected _ x | @approved _ x => exact absurd (huser x.voterId) hc
  | @vetoed _ v => exact absurd (huser v.vetoedBy) hc
  | @overridden _ a => exact absurd (huser a.userId) hc
  | @assigned a =>
    exact absurd (List.forall_mem_append.2 ⟨huser a.userId, huser a.assignedBy⟩) hc

/-- No row has the identifier. -/
structure Registry.Free (r : Registry) (id : UUID) : Prop where
  decisions : r.decisions.get? id = none
  approvals : r.approvals.get? id = none
  vetoes : r.vetoes.get? id = none
  assignments : r.assignments.get? id = none

/-- A change of a status takes no identifier. -/
theorem Registry.Free.mark {id id' : UUID} {status : DecisionStatus} {t : DateTime}
    {md : Json.Dict Json.Scalar} (h : r.Free id) : (r.mark id' status t md).Free id where
  decisions := Keyed.Table.get?_modify_eq_none (GovernanceDecision.id_set status t md) h.decisions
  approvals := h.approvals
  vetoes := h.vetoes
  assignments := h.assignments

/-- A vote takes its own one only. -/
theorem Registry.Free.withVote {id : UUID} {x : ApprovalRecord} (h : r.Free id) (hx : x.id ≠ id) :
    (r.withVote x).Free id where
  decisions := h.decisions
  approvals := (Keyed.Table.get?_insert_of_ne hx).trans h.approvals
  vetoes := h.vetoes
  assignments := h.assignments

/-- A deed takes no identifiers but those that the call is given. -/
theorem Deed.free (h : Deed r fresh c r' w) {id : UUID} (hid : ∀ n < 4, (fresh n).id ≠ id)
    (hr : r.Free id) : r'.Free id := by
  have hnew : ∀ {id' : UUID}, id' = (fresh 0).id → id' ≠ id := fun e => e ▸ hid 0 (by decide)
  cases h with
  | created _ hd =>
    exact { hr with decisions := (Keyed.Table.get?_insert_of_ne (hnew hd)).trans hr.decisions }
  | submitted => exact hr.mark
  | voted _ hx => exact hr.withVote (hnew hx)
  | rejected _ hx => exact (hr.withVote (hnew hx)).mark
  | approved _ hx => exact (hr.withVote (hnew hx)).mark
  | @vetoed d v t _ hv =>
    have hveto : (r.withVeto v).Free id :=
      { hr with vetoes := (Keyed.Table.get?_insert_of_ne (hnew hv)).trans hr.vetoes }
    exact hveto.mark
  | @overridden v a =>
    have hvetoes := Keyed.Table.get?_modify_eq_none (k := v.id)
      (VetoRecord.id_set .overridden (some a.userId.text) v.overriddenAt) hr.vetoes
    exact { hr with vetoes := hvetoes }
  | assigned _ ha =>
    exact { hr with assignments := (Keyed.Table.get?_insert_of_ne (hnew ha)).trans hr.assignments }
  | revoked => exact { hr with assignments := Keyed.Table.get?_erase_eq_none hr.assignments }

end Deeds

/-- A deed of the call `c` has been done on the stores `s`, and recorded. -/
def Done (fresh : ℕ → Stamp) (c : Call) (s s' : Store) : Prop :=
  ∃ r w, Deed s.toRegistry fresh c r w ∧ Leaves s r w s'

/-- A deed has been done of a call that names a user whom no event can name, and it has
    not been recorded to the end. -/
def Unrecorded (fresh : ℕ → Stamp) (c : Call) (s s' : Store) : Prop :=
  ¬c.Admitted ∧ ∃ r w w', Deed s.toRegistry fresh c r (w ++ w') ∧ Leaves s r w s'

/-! ## Recording an event -/

/-- The strings of an event have the lengths that are asked for. -/
def Recordable (entityType entityId actorId : String) : Prop :=
  (1 ≤ entityType.length ∧ entityType.length ≤ 100) ∧
    (1 ≤ entityId.length ∧ entityId.length ≤ 200) ∧ (1 ≤ actorId.length ∧ actorId.length ≤ 200)

/-- An event about a decision can be recorded, if it names a user. -/
theorem recordable_decision (id : UUID) (a : Bounded 1 200) :
    Recordable "decision" id.str a.text :=
  ⟨by decide, by rw [id.length_str]; decide, a.bounds⟩

/-- So can one about an assignment. -/
theorem recordable_assignment (id : UUID) {u : String} (hu : 1 ≤ u.length ∧ u.length ≤ 200) :
    Recordable "raci_assignment" id.str u :=
  ⟨by decide, by rw [id.length_str]; decide, hu⟩

section Recording

variable [Hashlib] [Postgres] {s : Store} {y : Entry} {stamp : Stamp} {actorId description : String}
  {eventType : AuditEventType} {entityType entityId : String}
  {details : Option (Json.Dict Json.Scalar)}

/-- The event `e` can be recorded in the stores `s`, as the entry `y` at the time `now`:
    it points to the latest one. -/
structure Recorded (s : Store) (y : Entry) (now : DateTime) (e : AuditEvent) : Prop where
  entry : e.entry = y
  occurredAt : e.occurredAt = now
  previousHash : e.previousHash = orGenesis s.lastHash
  eventHash : e.eventHash = e.computeHash
  fresh : s.events.get? y.id = none

/-- Recording an event inserts it. It fails where the strings of the event are too short
    or too long, or where its identifier is taken. -/
theorem wp_recordEvent :
    (recordEvent stamp eventType entityType entityId actorId description details).wp backend
      (fun e s' => Recorded s ⟨stamp.id, eventType, entityType, entityId⟩ stamp.now e ∧
        s' = { s with events := s.events.insert e } ∧ Recordable entityType entityId actorId)
      (fun e s' => s' = s ∧ (e.IsValueError → ¬Recordable entityType entityId actorId) ∧
        (¬e.IsValueError → s.events.get? stamp.id ≠ none)) s := by
  refine wp_query (fun lastHash hlast => ?_) fun e he => by cases he
  obtain rfl : s.lastHash = lastHash := Except.ok.inj hlast
  refine wp_validate (fun ⟨entityType', entityId', actorId'⟩ hvalid => ?_)
    fun fs hfs => ⟨rfl, fun _ => ?_, fun h => absurd trivial h⟩
  · obtain ⟨rfl, rfl, rfl⟩ : entityType'.text = entityType ∧ entityId'.text = entityId ∧
      actorId'.text = actorId := by simpa using hvalid
    refine wp_query (fun u hu => wp_pure.2 ?_) fun e he => ⟨rfl, ?_, fun _ hnone => ?_⟩
    · exact ⟨⟨rfl, rfl, rfl, rfl, inserted_eq_ok.1 hu⟩, rfl, entityType'.bounds, entityId'.bounds,
        actorId'.bounds⟩
    · exact fun h => absurd h (inserted_error he)
    · cases he.symm.trans (inserted_eq_ok (u := ()) |>.2 hnone)
  · rintro ⟨ht, hi, ha⟩
    exact hfs (⟨entityType, ht⟩, ⟨entityId, hi⟩, ⟨actorId, ha⟩) (by simp)

/-- An event with admissible strings and a new identifier is recorded. -/
theorem wp_recordEvent_of_free (hrecordable : Recordable entityType entityId actorId)
    (hfree : s.events.get? stamp.id = none) :
    (recordEvent stamp eventType entityType entityId actorId description details).wp backend
      (fun e s' => Recorded s ⟨stamp.id, eventType, entityType, entityId⟩ stamp.now e ∧
        s' = { s with events := s.events.insert e })
      (fun _ _ => False) s := by
  refine wp_mono wp_recordEvent (fun _ _ h => ⟨h.1, h.2.1⟩) fun e _ h => ?_
  by_cases he : e.IsValueError
  · exact h.2.1 he hrecordable
  · exact h.2.2 he hfree

/-- An event whose strings are too short or too long is refused before it is inserted. -/
theorem wp_recordEvent_of_not (hnot : ¬Recordable entityType entityId actorId) :
    (recordEvent stamp eventType entityType entityId actorId description details).wp backend
      (fun _ _ => False) (fun e s' => e.IsValueError ∧ s' = s) s := by
  refine wp_query (fun lastHash hlast => ?_) fun e he => by cases he
  refine wp_validate (fun ⟨entityType', entityId', actorId'⟩ hvalid => ?_) fun _ _ => ⟨trivial, rfl⟩
  obtain ⟨rfl, rfl, rfl⟩ : entityType'.text = entityType ∧ entityId'.text = entityId ∧
    actorId'.text = actorId := by simpa using hvalid
  exact absurd ⟨entityType'.bounds, entityId'.bounds, actorId'.bounds⟩ hnot

/-- An event that is recorded is the last entry. -/
theorem Leaves.record {s₀ : Store} {r : Registry} {w : List Entry} {now : DateTime}
    {e : AuditEvent} (h : Leaves s₀ r w s) (he : Recorded s y now e) :
    Leaves s₀ r (w ++ [y]) { s with events := s.events.insert e } where
  registry := h.registry
  entries := by
    obtain rfl := he.entry
    rw [← List.append_assoc, ← h.entries, Store.entries, Keyed.Table.rows_insert he.fresh,
      List.map_append]
    rfl

end Recording

/-! ## The services -/

section Services

variable [Postgres] {s : Store} {fresh : ℕ → Stamp}

/-- Updating a decision that is there marks it. -/
theorem wp_updateDecision {d row : GovernanceDecision} {now : DateTime}
    (hrow : s.decisions.get? d.id = some row) :
    (PgDecisionRepository.update d now).wp backend
      (fun _ s' => s'.events = s.events ∧ ∃ t, s'.toRegistry = s.mark d.id d.status t d.metadata)
      (fun _ _ => False) s := by
  refine wp_answered (congrArg Except.ok hrow) (wp_answered rfl (wp_pure.2 ⟨rfl, ?_⟩))
  refine ⟨PgDecisionRepository.flushedAt row d now, ?_⟩
  rw [← Keyed.Table.key_of_get? hrow]
  rfl

/-- Updating a veto that is there sets its status and who has overridden it. -/
theorem wp_updateVeto {v row : VetoRecord} (hrow : s.vetoes.get? v.id = some row) :
    (PgVetoRepository.update v).wp backend
      (fun _ s' => s' = effect (.updateVeto v.id v.status v.overriddenBy v.overriddenAt) s)
      (fun _ _ => False) s := by
  refine wp_answered (congrArg Except.ok hrow) (wp_answered rfl (wp_pure.2 ?_))
  rw [Keyed.Table.key_of_get? hrow]
  rfl

/-- Deleting an assignment that is there revokes it. -/
theorem wp_deleteAssignment {a : RACIAssignment} (ha : s.assignments.get? a.id = some a) :
    (PgRACIRepository.delete a.id).wp backend
      (fun _ s' => s' = effect (.deleteAssignment a.id) s) (fun _ _ => False) s := by
  refine wp_answered (congrArg Except.ok ha) ?_
  change (execute (.deleteAssignment a.id) >>= .pure).wp backend _ _ s
  exact wp_answered rfl (wp_pure.2 rfl)

variable [Hashlib]

/-- Finalizing a decision that awaits approval marks it, and records that. -/
theorem wp_finalize {status : DecisionStatus} {eventType : AuditEventType}
    (actorId : Bounded 1 200) {d : GovernanceDecision} (hd : s.decisions.get? d.id = some d)
    (hawaiting : d.status = .awaitingApproval)
    (htype : DecisionService.eventMap status = some eventType) :
    (DecisionService.finalize fresh d.id status actorId.text).wp backend
      (fun _ s' => ∃ t, Leaves s (s.mark d.id status t d.metadata)
        [(fresh 1).onDecision eventType d.id] s')
      (fun e _ => ¬e.IsValueError ∧ s.events.get? (fresh 1).id ≠ none) s := by
  refine wp_answered (congrArg Except.ok hd) (wp_found_some ?_)
  refine wp_required hawaiting ?_
  rw [htype]
  refine wp_found_some ?_
  refine wp_bind_of (wp_updateDecision (d := { d with status := status }) hd) ?_
    fun _ _ he => he.elim
  rintro _ s₁ ⟨hevents, t, hmark⟩
  refine wp_bind_of wp_recordEvent ?_ fun e _ h => ?_
  · rintro _ _ ⟨h, rfl, _⟩
    exact wp_pure.2 ⟨t, (leaves_of_events hmark hevents).record h⟩
  · have hvalue : ¬e.IsValueError := fun he => h.2.1 he (recordable_decision _ _)
    exact ⟨hvalue, hevents ▸ h.2.2 hvalue⟩

/-! ### The deeds of the services -/

/-- The program ends with a deed of the call `c` on the stores `s₀`, unless it is refused
    there or the database fails. -/
def Carries {α : Type} (fresh : ℕ → Stamp) (c : Call) (s₀ : Store) (p : Prog α) (s : Store) :
    Prop :=
  p.wp backend (fun _ s' => Done fresh c s₀ s')
    (fun e s' => e.IsValueError → s' = s₀ ∨ Unrecorded fresh c s₀ s') s

section Rules

variable {α : Type} {c : Call}

omit [Hashlib] in
/-- A service that looks for a decision goes on with it, or refuses the call. -/
theorem carries_getDecision {decisionId : UUID} {msg : String} {f : GovernanceDecision → Prog α}
    (h : ∀ d, s.decisions.get? d.id = some d → d.id = decisionId → Carries fresh c s (f d) s) :
    Carries fresh c s (do
      let d ← found (← PgDecisionRepository.getById decisionId) msg
      f d) s := by
  refine wp_execute (fun a ha => ?_) fun e he he' => absurd he' he
  refine wp_found (fun d hd => ?_) fun _ => .inl rfl
  have hrow : s.decisions.get? decisionId = some d := hd ▸ Except.ok.inj ha
  have hid := Keyed.Table.key_of_get? hrow
  exact h d (hid.symm ▸ hrow) hid

omit [Hashlib] in
/-- A service that looks for the role of a user goes on with it, or refuses the call. -/
theorem carries_getAssignment {userId domainId msg : String} {f : RACIAssignment → Prog α}
    (h : ∀ a ∈ s.assignments.rows, a.userId.text = userId → a.domainId.text = domainId →
      Carries fresh c s (f a) s) :
    Carries fresh c s (do
      let a ← found (← PgRACIRepository.getAssignment userId domainId) msg
      f a) s := by
  refine wp_execute (fun a ha => ?_) fun e he he' => absurd he' he
  refine wp_found (fun assignment hassignment => ?_) fun _ => .inl rfl
  obtain ⟨hmem, huser, hdomain⟩ := mem_of_selectAssignment (hassignment ▸ ha)
  exact h assignment hmem huser hdomain

/-- The last thing a service does is to record an event, and to return. -/
theorem carries_recordEvent {s₀ : Store} {r : Registry} {w : List Entry} {stamp : Stamp}
    {eventType : AuditEventType} {entityType entityId actorId description : String}
    {details : Option (Json.Dict Json.Scalar)} {a : α} (h : Leaves s₀ r w s)
    (hdeed : Deed s₀.toRegistry fresh c r (w ++ [⟨stamp.id, eventType, entityType, entityId⟩]))
    (hrecordable : c.Admitted → Recordable entityType entityId actorId) :
    Carries fresh c s₀ (do
      let _ ← recordEvent stamp eventType entityType entityId actorId description details
      return a) s := by
  refine wp_bind_of wp_recordEvent ?_ ?_
  · rintro _ _ ⟨h', rfl, _⟩
    exact wp_pure.2 ⟨r, _, hdeed, h.record h'⟩
  · rintro _ _ ⟨rfl, hnot, _⟩ he
    exact .inr ⟨fun hadmitted => hnot he (hrecordable hadmitted), r, w, _, hdeed, h⟩

end Rules

/-- A decision is created, and recorded as created. -/
theorem createDecision_carries {decisionType : DecisionType}
    {title description domainId createdBy : String} {promotion : Option PromotionMetadata}
    {metadata : Option (Json.Dict Json.Scalar)} :
    Carries fresh
      (.createDecision decisionType title description domainId createdBy promotion metadata) s
      (DecisionService.createDecision fresh decisionType title description domainId createdBy
        promotion metadata) s := by
  refine wp_validate (fun ⟨title', domainId', createdBy'⟩ hvalid => ?_) fun _ _ _ => .inl rfl
  obtain ⟨rfl, rfl, rfl⟩ : title'.text = title ∧ domainId'.text = domainId ∧
    createdBy'.text = createdBy := by simpa using hvalid
  refine wp_bind_of wp_create ?_ fun e _ he he' => absurd he' he
  rintro _ _ ⟨rfl, rfl, u, hu⟩
  exact carries_recordEvent (leaves_of_events rfl rfl) (.created rfl rfl (inserted_eq_ok.1 hu))
    fun _ => recordable_decision _ createdBy'

/-- A decision is submitted, and recorded as submitted. -/
theorem submitForApproval_carries {decisionId : UUID} {actorId : String} :
    Carries fresh (.submitForApproval decisionId actorId) s
      (DecisionService.submitForApproval fresh decisionId actorId) s := by
  refine carries_getDecision fun d hrow hid => ?_
  subst hid
  refine wp_require (fun hpending => ?_) fun _ => .inl rfl
  refine wp_bind_of (wp_updateDecision (d := { d with status := .awaitingApproval }) hrow) ?_
    fun _ _ he => he.elim
  rintro _ s₁ ⟨hevents, t, hmark⟩
  -- The actor is not looked at before the event is recorded.
  exact carries_recordEvent (leaves_of_events hmark hevents) (.submitted (d := d) hrow hpending)
    fun hadmitted => recordable_decision d.id ⟨actorId, hadmitted actorId List.mem_cons_self⟩

/-- Checking the approvals after a vote in favour of the decision, which has been
    recorded. -/
theorem checkAndFinalize_carries {fresh' : ℕ → Stamp} {c : Call} {s₀ : Store} {r : Registry}
    {w : List Entry} {d : GovernanceDecision} (h : Leaves s₀ r w s)
    (hd : r.decisions.get? d.id = some d) (hawaiting : d.status = .awaitingApproval)
    (hnot : ¬r.FullyApproved d.id d.domainId → Deed s₀.toRegistry fresh c r w)
    (happroved : ∀ t, r.FullyApproved d.id d.domainId →
      Deed s₀.toRegistry fresh c (r.mark d.id .approved t d.metadata)
        (w ++ [(fresh' 1).onDecision .decisionApproved d.id])) :
    Carries fresh c s₀ (ApprovalService.checkAndFinalize fresh' d.id d.domainId.text) s := by
  obtain rfl := h.registry
  refine wp_execute (fun assignments ha => ?_) fun e he he' => absurd he' he
  split_ifs with hnil
  · -- Nobody is required to approve: the source returns early.
    refine wp_pure.2 ⟨_, w, hnot fun ⟨⟨u, hu⟩, _⟩ => ?_, h⟩
    exact absurd ((mem_requiredVoters ha).2 hu) (by simp [hnil])
  refine wp_execute (fun approvals hv => ?_) fun e he he' => absurd he' he
  split_ifs with hall
  · refine wp_bind_of (wp_finalize ⟨"system", by decide⟩ hd hawaiting rfl) ?_
      fun e _ he he' => absurd he' he.1
    rintro _ s₁ ⟨t, h₁⟩
    refine wp_pure.2 ⟨_, _, happroved t ⟨?_, fun u hu => ?_⟩, h.trans h₁⟩
    · obtain ⟨u, hu⟩ := List.exists_mem_of_ne_nil _ hnil
      exact ⟨u, (mem_requiredVoters ha).1 hu⟩
    · exact (mem_approvedVoters hv).1 (hall u ((mem_requiredVoters ha).2 hu))
  · refine wp_pure.2 ⟨_, w, hnot fun hfull => hall fun u hu => ?_, h⟩
    exact (mem_approvedVoters hv).2 (hfull.2 u ((mem_requiredVoters ha).1 hu))

/-- A vote is cast, and the decision is finalized if the vote decides it. -/
theorem castVote_carries {decisionId : UUID} {voterId comment : String} {vote : VoteValue} :
    Carries fresh (.castVote decisionId voterId vote comment) s
      (ApprovalService.castVote fresh decisionId voterId vote comment) s := by
  refine carries_getDecision fun d hrow hid => ?_
  subst hid
  refine wp_require (fun hawaiting => ?_) fun _ => .inl rfl
  refine carries_getAssignment fun assignment hmem huser hdomain => ?_
  refine wp_execute (fun (existing : Option ApprovalRecord) hexisting => ?_)
    fun e he he' => absurd he' he
  refine wp_require (fun hnone => ?_) fun _ => .inl rfl
  -- All checks of the source have succeeded; the fields are validated after them.
  have hfirst := not_mem_of_selectVote (hnone ▸ hexisting)
  refine wp_validate (fun voterId' hvoter => ?_) fun _ _ _ => .inl rfl
  obtain rfl : voterId'.text = voterId := by simpa using hvoter
  refine wp_bind_of wp_create ?_ fun e _ he he' => absurd he' he
  intro x s₁ ⟨hx, hs₁, u, hu⟩
  -- The vote stored, and what the checks so far say of it.
  have hballot : Ballot s.toRegistry d x := by
    subst hx
    exact ⟨hrow, hawaiting, ⟨assignment, hmem, Bounded.text_injective huser,
      Bounded.text_injective hdomain, rfl⟩,
      fun y hy hyd h => hfirst y hy hyd (congrArg Bounded.text h),
      inserted_eq_ok.1 (refers_eq_ok.1 hu).2⟩
  have h₁ : Leaves s (s.withVote x) [] s₁ := by
    subst hx hs₁
    exact leaves_of_events rfl rfl
  obtain ⟨hxd, hxu, hxv, hxc, hxi⟩ : x.decisionId = d.id ∧ x.voterId = voterId' ∧
      x.vote = vote ∧ x.comment = comment ∧ x.id = (fresh 0).id := by
    subst hx
    exact ⟨rfl, rfl, rfl, rfl, rfl⟩
  clear hx hs₁ hu
  subst hxu hxv hxc
  refine wp_bind_of wp_recordEvent (fun _ s₂ h => ?_) fun e _ h he =>
    absurd (recordable_decision _ _) (h.2.1 he)
  obtain ⟨hrecorded, hs₂, -⟩ := h
  have h₂ : Leaves s (s.withVote x) [(fresh 1).onDecision .approvalCast d.id] s₂ := by
    subst hs₂
    exact h₁.record hrecorded
  clear hrecorded hs₂
  -- The decision is still there, as it was read: votes and events do not touch it.
  have hrow₂ : s₂.decisions.get? d.id = some d := by
    rw [h₂.registry]
    exact hrow
  cases hvote : x.vote with
  | reject =>
    refine wp_bind_of (wp_finalize x.voterId hrow₂ hawaiting rfl) ?_
      fun e _ he he' => absurd he' he.1
    rintro _ s₃ ⟨t, h₃⟩
    have hdeed : Deed s.toRegistry fresh _ _ _ := .rejected (t := t) hballot hxi hvote
    rw [hxd, hvote] at hdeed
    rw [h₂.registry] at h₃
    exact wp_pure.2 ⟨_, _, hdeed, h₂.trans h₃⟩
  | approve =>
    refine wp_bind_of (checkAndFinalize_carries h₂ hrow hawaiting (fun hnot => ?_)
      fun t hfull => ?_) (fun _ _ h => wp_pure.2 h) fun _ _ h => h
    · have hdeed : Deed s.toRegistry fresh _ _ _ :=
        .voted hballot hxi (by rw [hvote]; decide) fun _ => by rwa [hxd]
      rwa [hxd, hvote] at hdeed
    · have hdeed : Deed s.toRegistry fresh _ _ _ :=
        .approved (t := t) hballot hxi hvote (by rwa [hxd])
      rwa [hxd, hvote] at hdeed
  | abstain =>
    have hdeed : Deed s.toRegistry fresh _ _ _ :=
      .voted hballot hxi (by rw [hvote]; decide) fun h => by
        rw [hvote] at h
        exact absurd h (by decide)
    rw [hxd, hvote] at hdeed
    exact wp_pure.2 ⟨_, _, hdeed, h₂⟩

/-- A veto is exercised, and the decision is vetoed. Both record the same type of event. -/
theorem exerciseVeto_carries {decisionId : UUID} {vetoedBy reason : String} :
    Carries fresh (.exerciseVeto decisionId vetoedBy reason) s
      (VetoService.exerciseVeto fresh decisionId vetoedBy reason) s := by
  refine carries_getDecision fun d hrow hid => ?_
  subst hid
  refine wp_require (fun hawaiting => ?_) fun _ => .inl rfl
  refine carries_getAssignment fun assignment hmem huser hdomain => ?_
  refine wp_require (fun heligible => ?_) fun _ => .inl rfl
  refine wp_validate (fun ⟨vetoedBy', reason'⟩ hvalid => ?_) fun _ _ _ => .inl rfl
  obtain ⟨hby, hreason⟩ : vetoedBy'.text = vetoedBy ∧ reason'.1 = reason := by simpa using hvalid
  subst hby hreason
  refine wp_bind_of wp_create ?_ fun e _ he he' => absurd he' he
  intro v s₁ ⟨hv, hs₁, u, hu⟩
  -- The veto stored, and what the checks so far say of it.
  have hobjection : Objection s.toRegistry d v := by
    subst hv
    exact ⟨hrow, hawaiting, ⟨assignment, hmem, Bounded.text_injective huser,
      Bounded.text_injective hdomain, rfl⟩, heligible, rfl, rfl,
      inserted_eq_ok.1 (refers_eq_ok.1 hu).2⟩
  have h₁ : Leaves s (s.withVeto v) [] s₁ := by
    subst hv hs₁
    exact leaves_of_events rfl rfl
  have hrow₁ : s₁.decisions.get? d.id = some d := by
    rw [h₁.registry]
    exact hrow
  -- The time at which the decision is updated is not known before it is finalized.
  have hdeed : ∀ t, Deed s.toRegistry fresh (.exerciseVeto d.id vetoedBy'.text reason'.1)
      ((s.withVeto v).mark d.id .vetoed t d.metadata)
      [(fresh 2).onDecision .vetoExercised d.id, (fresh 3).onDecision .vetoExercised d.id] := by
    intro t
    subst hv
    exact .vetoed hobjection rfl rfl
  refine wp_bind_of (wp_finalize vetoedBy' hrow₁ hawaiting rfl) ?_
    fun e _ he he' => absurd he' he.1
  rintro _ s₂ ⟨t, h₂⟩
  rw [h₁.registry] at h₂
  exact carries_recordEvent (h₁.trans h₂) (hdeed t) fun _ => recordable_decision _ vetoedBy'

/-- A veto is overridden. Its decision is not touched. -/
theorem overrideVeto_carries {vetoId : UUID} {overriddenBy : String} :
    Carries fresh (.overrideVeto vetoId overriddenBy) s
      (VetoService.overrideVeto fresh vetoId overriddenBy) s := by
  refine wp_execute (fun a ha => ?_) fun e he he' => absurd he' he
  refine wp_found (fun v hv => ?_) fun _ => .inl rfl
  have hrow : s.vetoes.get? vetoId = some v := hv ▸ Except.ok.inj ha
  obtain rfl : v.id = vetoId := Keyed.Table.key_of_get? hrow
  refine wp_require (fun hactive => ?_) fun _ => .inl rfl
  refine carries_getDecision fun d hd hdecision => ?_
  refine carries_getAssignment fun assignment hmem huser hdomain => ?_
  -- The last check is on the roles; after it the veto is written and the event recorded.
  subst huser
  refine wp_require (fun hhigher => ?_) fun _ => .inl rfl
  have hoverride : Override s.toRegistry v assignment := ⟨hrow, hactive, hmem,
    ⟨d, hdecision ▸ hd, Bounded.text_injective hdomain⟩, hhigher⟩
  refine wp_bind_of (wp_updateVeto (v := { v with
    status := .overridden, overriddenBy := some assignment.userId.text }) hrow) ?_
    fun _ _ he => he.elim
  rintro _ _ rfl
  exact carries_recordEvent (leaves_of_events rfl rfl) (.overridden hoverride)
    fun _ => recordable_decision _ assignment.userId

/-- A role is assigned. -/
theorem assignRole_carries {userId domainId assignedBy : String} {role : RACIRole} :
    Carries fresh (.assignRole userId domainId role assignedBy) s
      (RoleService.assignRole fresh userId domainId role assignedBy) s := by
  refine wp_execute (fun (existing : Option RACIAssignment) _ => ?_) fun e he he' => absurd he' he
  cases existing with
  | some existing => exact wp_raise.2 fun _ => .inl rfl
  | none =>
    refine wp_validate (fun ⟨userId', domainId', assignedBy'⟩ hvalid => ?_) fun _ _ _ => .inl rfl
    obtain ⟨rfl, rfl, rfl⟩ : userId'.text = userId ∧ domainId'.text = domainId ∧
      assignedBy'.text = assignedBy := by simpa using hvalid
    refine wp_bind_of wp_create ?_ fun e _ he he' => absurd he' he
    rintro _ _ ⟨rfl, rfl, u, hu⟩
    obtain ⟨hunique, hfresh⟩ := insertedAssignment_eq_ok.1 hu
    exact carries_recordEvent (leaves_of_events rfl rfl) (.assigned hunique rfl hfresh)
      fun _ => recordable_assignment _ assignedBy'.bounds

/-- An assignment is revoked. Votes that have been cast with it stay. -/
theorem revokeRole_carries {assignmentId : UUID} {revokedBy : String} :
    Carries fresh (.revokeRole assignmentId revokedBy) s
      (RoleService.revokeRole fresh assignmentId revokedBy) s := by
  refine wp_execute (fun a ha => ?_) fun e he he' => absurd he' he
  refine wp_found (fun assignment hassignment => ?_) fun _ => .inl rfl
  have hrow : s.assignments.get? assignmentId = some assignment := hassignment ▸ Except.ok.inj ha
  obtain rfl : assignment.id = assignmentId := Keyed.Table.key_of_get? hrow
  refine wp_bind_of (wp_deleteAssignment hrow) ?_ fun _ _ he => he.elim
  rintro _ _ rfl
  -- As for a submission, the user is not looked at before.
  exact carries_recordEvent (leaves_of_events rfl rfl) (.revoked hrow) fun hadmitted =>
    recordable_assignment _ (hadmitted revokedBy List.mem_cons_self)

variable (s fresh) in
/-- A call that ends has done a deed, and recorded it. -/
theorem Call.carries (c : Call) : Carries fresh c s (c.program fresh) s := by
  cases c with
  | createDecision =>
    exact wp_bind_of createDecision_carries (fun _ _ h => wp_pure.2 h) fun _ _ h => h
  | submitForApproval =>
    exact wp_bind_of submitForApproval_carries (fun _ _ h => wp_pure.2 h) fun _ _ h => h
  | castVote => exact wp_bind_of castVote_carries (fun _ _ h => wp_pure.2 h) fun _ _ h => h
  | exerciseVeto =>
    exact wp_bind_of exerciseVeto_carries (fun _ _ h => wp_pure.2 h) fun _ _ h => h
  | overrideVeto =>
    exact wp_bind_of overrideVeto_carries (fun _ _ h => wp_pure.2 h) fun _ _ h => h
  | assignRole => exact wp_bind_of assignRole_carries (fun _ _ h => wp_pure.2 h) fun _ _ h => h
  | revokeRole => exact revokeRole_carries

/-- A request does a deed of its call and records it, or leaves the stores as they were.
    Only where it names a user whom no event can name, it may record less. -/
theorem Request.deed (q : Request) :
    q.exec s = s ∨ Done q.fresh q.call s (q.exec s) ∨ Unrecorded q.fresh q.call s (q.exec s) := by
  rcases Request.exec_cases (q.call.carries s q.fresh) with ⟨_, h⟩ | ⟨_, e, he, h⟩ | ⟨h, _⟩
  · exact .inr (.inl h)
  · exact (h he).imp_right .inr
  · exact .inl h

/-- In a transaction, all of a deed is recorded. -/
theorem Request.deed_of_ne_direct {q : Request} (hq : q.mode ≠ .direct) :
    q.exec s = s ∨ Done q.fresh q.call s (q.exec s) := by
  rcases Request.exec_cases (q.call.carries s q.fresh) with ⟨_, h⟩ | ⟨h, _⟩ | ⟨h, _⟩
  · exact .inr h
  · exact absurd h hq
  · exact .inl h

/-- A request has one of the outcomes of its call, whichever way it is carried out
    and whether or not it fails. -/
theorem Request.outcome (q : Request) :
    Outcome s.toRegistry q.fresh q.call (q.exec s).toRegistry := by
  rcases q.deed (s := s) with h | ⟨r, w, hdeed, h⟩ | ⟨_, r, w, w', hdeed, h⟩
  · rw [h]
    exact .refused _
  · exact h.registry ▸ hdeed.outcome
  · exact h.registry ▸ hdeed.outcome

/-- A request leaves the stores as they were, or the first entries of a deed. -/
theorem Request.leaves (q : Request) : Leaves s s.toRegistry [] (q.exec s) ∨
    ∃ r w w', Deed s.toRegistry q.fresh q.call r (w ++ w') ∧ Leaves s r w (q.exec s) := by
  rcases q.deed (s := s) with h | ⟨r, w, hdeed, h⟩ | ⟨_, h⟩
  · rw [h]
    exact .inl (leaves_of_events rfl rfl)
  · exact .inr ⟨r, w, [], by rwa [List.append_nil], h⟩
  · exact .inr h

/-! ### Identifiers -/

omit [Hashlib] [Postgres] in
/-- The identifiers that a request is given. -/
def Request.ids (q : Request) : List UUID := (List.range 4).map fun n => (q.fresh n).id

omit [Hashlib] [Postgres] in
/-- No call takes more than four. -/
theorem Request.mem_ids (q : Request) : ∀ n < 4, (q.fresh n).id ∈ q.ids := fun n hn =>
  List.mem_map.2 ⟨n, List.mem_range.2 hn, rfl⟩

/-- No row and no event has the identifier. -/
structure Store.Free (s : Store) (id : UUID) : Prop where
  registry : s.toRegistry.Free id
  events : s.events.get? id = none

omit [Hashlib] [Postgres] in
/-- The identifiers of events are those of their entries. -/
theorem Store.get?_events_eq_none {id : UUID} :
    s.events.get? id = none ↔ ∀ y ∈ s.entries, y.id ≠ id := by
  rw [Keyed.Table.get?_eq_none, Store.entries, List.forall_mem_map]
  rfl

/-- The events that a request records have identifiers that it is given. -/
theorem Request.get?_events_eq_none (q : Request) {id : UUID} (hid : id ∉ q.ids) :
    (q.exec s).events.get? id = none ↔ s.events.get? id = none := by
  rw [Store.get?_events_eq_none, Store.get?_events_eq_none]
  rcases q.leaves (s := s) with h | ⟨r, w, w', hdeed, h⟩
  · rw [h.entries, List.append_nil]
  · rw [h.entries, List.forall_mem_append]
    refine and_iff_left fun y hy heq => hid ?_
    obtain ⟨n, hn, hy'⟩ := hdeed.entry_id y (List.mem_append_left w' hy)
    rw [← heq, hy']
    exact q.mem_ids n hn

/-- A request takes no identifiers but those that it is given. -/
theorem Store.Free.exec {q : Request} {id : UUID} (h : s.Free id) (hid : id ∉ q.ids) :
    (q.exec s).Free id where
  registry := by
    rcases q.leaves (s := s) with h' | ⟨r, w, w', hdeed, h'⟩
    · exact h'.registry ▸ h.registry
    · exact h'.registry ▸ hdeed.free (fun n hn heq => hid (heq ▸ q.mem_ids n hn)) h.registry
  events := (q.get?_events_eq_none hid).2 h.events

/-- After some requests, all other identifiers are free. -/
theorem free_execAll {qs : List Request} {id : UUID} (h : ∀ q ∈ qs, id ∉ q.ids) :
    (execAll qs .empty).Free id := by
  induction qs using List.reverseRecOn with
  | nil => exact ⟨⟨rfl, rfl, rfl, rfl⟩, rfl⟩
  | append_singleton qs q ih =>
    obtain ⟨hqs, hq⟩ := List.forall_mem_append.1 h
    rw [execAll_concat]
    exact (ih hqs).exec (hq q List.mem_cons_self)

/-- What every outcome preserves, holds after every run. -/
theorem outcome_induct {I : Registry → Prop} (hinit : I .empty)
    (hstep : ∀ {r fresh c r'}, Outcome r fresh c r' → I r → I r') (qs : List Request) :
    I (execAll qs .empty).toRegistry := by
  induction qs using List.reverseRecOn with
  | nil => exact hinit
  | append_singleton qs q ih =>
    rw [execAll_concat]
    exact hstep q.outcome ih

end Services

end OpenDataGov
