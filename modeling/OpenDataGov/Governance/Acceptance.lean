import OpenDataGov.Governance.Duplicates
import OpenDataGov.Governance.Routes

/-!
# When calls are accepted

What has to hold in the tables for a call to end without an error (`Call.Accepted`), read off the
checks of the services and of the models that they validate, as one condition on the tables and the
arguments.

The other direction is more than what `Governance.Outcome` says of a call that ends: a call that is
accepted must not fail on anything else. The statements of a service can fail on a key that is
taken, on a row that is referred to and not there, and on a second row where one is expected. That
none of this happens is what makes stores `Ready`: users have one role in a domain, what is
referred to is there, and the identifiers for the new rows are free and different.

A program is followed step by step (`Decides`), with one rule for each thing that services do, as in
`Governance.Outcome`. Each rule carries both cases along: where a check fails, the condition has to
be false, and where it succeeds, the rest of the program decides.

* `createDecision_decides` and so on: each service ends exactly if its call is accepted;
* `Call.decides`: on stores that requests can reach, given new identifiers, a call ends exactly
  if it is accepted there, and raises a `ValueError` otherwise: the database never fails;
* `ready_execAll`: requests with identifiers of their own lead to such stores.
-/

namespace OpenDataGov

open Transact Program Keyed

/-- The length of a name of a user. -/
def Named (u : String) : Prop := 1 ≤ u.length ∧ u.length ≤ 200

/-- The user has a role in the domain, one of `roles`. -/
def Registry.HasRole (r : Registry) (u : String) (domainId : Bounded 1 100)
    (roles : RACIRole → Prop) : Prop :=
  ∃ a ∈ r.assignments.rows, a.userId.text = u ∧ a.domainId = domainId ∧ roles a.role

/-- What has to hold for a call to be accepted. -/
def Call.Accepted (r : Registry) : Call → Prop
  | .createDecision _ title _ domainId createdBy _ _ =>
    (1 ≤ title.length ∧ title.length ≤ 500) ∧ (1 ≤ domainId.length ∧ domainId.length ≤ 100) ∧
      Named createdBy
  | .submitForApproval id u =>
    (∃ d, r.decisions.get? id = some d ∧ d.status = .pending) ∧ Named u
  | .castVote id u _ _ =>
    ∃ d, r.decisions.get? id = some d ∧ d.status = .awaitingApproval ∧
      r.HasRole u d.domainId (fun _ => True) ∧
      ∀ x ∈ r.approvals.rows, x.decisionId = id → x.voterId.text ≠ u
  | .exerciseVeto id u reason =>
    (∃ d, r.decisions.get? id = some d ∧ d.status = .awaitingApproval ∧
      r.HasRole u d.domainId fun role => role ∈ VetoService.vetoEligibleRoles) ∧ 1 ≤ reason.length
  | .overrideVeto id u =>
    ∃ v d, r.vetoes.get? id = some v ∧ v.status = .active ∧
      r.decisions.get? v.decisionId = some d ∧
      r.HasRole u d.domainId fun role =>
        VetoService.roleHierarchy v.vetoedByRole < VetoService.roleHierarchy role
  | .assignRole u domainId _ assignedBy =>
    (∀ a ∈ r.assignments.rows, a.userId.text = u → a.domainId.text ≠ domainId) ∧
      Named u ∧ (1 ≤ domainId.length ∧ domainId.length ≤ 100) ∧ Named assignedBy
  | .revokeRole id revokedBy => (∃ a, r.assignments.get? id = some a) ∧ Named revokedBy

/-- The stores are such as requests can reach, and the identifiers are new. -/
structure Ready (s : Store) (fresh : ℕ → Stamp) : Prop where
  role : s.toRegistry.OneRole
  sound : s.toRegistry.Sound
  free : ∀ n < 4, s.Free (fresh n).id
  distinct : ∀ m < 4, ∀ n < 4, (fresh m).id = (fresh n).id → m = n

section Deciding

variable [Postgres] {α β : Type} {s : Store} {fresh : ℕ → Stamp} {acc : Prop} {msg : String}

/-- The program ends exactly if `acc` holds, and raises a `ValueError` otherwise. -/
def Decides (acc : Prop) (p : Prog α) (s : Store) : Prop :=
  p.wp backend (fun _ _ => acc) (fun e _ => e.IsValueError ∧ ¬acc) s

/-- A program that cannot fail ends, where that is accepted. -/
theorem decides_succeeds {p : Prog α} (hacc : acc)
    (h : p.wp backend (fun _ _ => True) (fun _ _ => False) s) : Decides acc p s :=
  wp_mono h (fun _ _ _ => hacc) fun _ _ h => h.elim

/-- Raising is right where it is not accepted. -/
theorem decides_raise {msg : String} (hacc : ¬acc) :
    Decides acc (.raise (.valueError msg) : Prog α) s :=
  wp_raise.2 ⟨trivial, hacc⟩

/-- A statement whose answer is known, and what comes after it. -/
theorem decides_answered {q : Query} {a : q.Answer} {f : q.Answer → Prog β}
    (ha : answer q s = .ok a) (hf : Decides acc (f a) (effect q s)) :
    Decides acc (execute q >>= f) s :=
  wp_answered ha hf

/-- Going on with what has been found; if nothing is, the call is not accepted. -/
theorem decides_found {x : Option α} {f : α → Prog β} (hnone : x = none → ¬acc)
    (hf : ∀ a, x = some a → Decides acc (f a) s) : Decides acc (found x msg >>= f) s := by
  cases x with
  | none => exact decides_raise (hnone rfl)
  | some a => exact hf a rfl

/-- Going on where the requirement holds; otherwise, the call is not accepted. -/
theorem decides_require {p : Prop} [Decidable p] {f : Unit → Prog β} (hnot : ¬p → ¬acc)
    (hf : p → Decides acc (f ()) s) : Decides acc (require p msg >>= f) s := by
  rw [require]
  split_ifs with hp
  · exact hf hp
  · exact decides_raise (hnot hp)

/-- Going on with valid fields; if they are not valid, the call is not accepted. -/
theorem decides_validate {name : String} {fields : Validated α} {f : α → Prog β}
    (hnot : (∀ a, fields ≠ .ok a) → ¬acc) (hf : ∀ a, fields = .ok a → Decides acc (f a) s) :
    Decides acc (validate name fields >>= f) s :=
  wp_validate hf fun _ hne => ⟨trivial, hnot hne⟩

/-- What comes after a program that cannot fail. -/
theorem decides_bind {p : Prog α} {f : α → Prog β} {P : α → Store → Prop}
    (hp : p.wp backend P (fun _ _ => False) s) (hf : ∀ a s', P a s' → Decides acc (f a) s') :
    Decides acc (p >>= f) s :=
  wp_bind_of hp hf fun _ _ h => h.elim

/-- Creating an object that can be inserted inserts it, and returns it. -/
theorem wp_created {q : Query} {u : q.Answer} {x : α} (hu : answer q s = .ok u) :
    (do let _ ← execute q; return x : Prog α).wp backend
      (fun a s' => a = x ∧ s' = effect q s) (fun _ _ => False) s :=
  wp_answered hu (wp_pure.2 ⟨rfl, rfl⟩)

/-- Recording an event, and returning. -/
theorem decides_recordEvent [Hashlib] {stamp : Stamp} {eventType : AuditEventType}
    {entityType entityId actorId description : String}
    {details : Option (Json.Dict Json.Scalar)} {a : α}
    (hfree : s.events.get? stamp.id = none)
    (hacc : acc ↔ Recordable entityType entityId actorId) :
    Decides acc (do
      let _ ← AuditService.recordEvent stamp eventType entityType entityId actorId description
        details
      return a) s := by
  refine wp_bind_of wp_recordEvent (fun _ _ h => wp_pure.2 (hacc.2 h.2.2)) fun e _ h => ?_
  have he : e.IsValueError := by
    by_contra he
    exact h.2.2 he hfree
  exact ⟨he, fun hholds => h.2.1 he (hacc.1 hholds)⟩

/-- The only assignment of a user for a domain is read, if there is one. -/
theorem selectAssignment_cases (h : s.toRegistry.OneRole) (u domainId : String) :
    (∃ a ∈ s.assignments.rows, a.userId.text = u ∧ a.domainId.text = domainId ∧
      answer (.selectAssignment u domainId) s = .ok (some a)) ∨
    (∀ a ∈ s.assignments.rows, a.userId.text = u → a.domainId.text ≠ domainId) ∧
      answer (.selectAssignment u domainId) s = .ok none := by
  by_cases hexists : ∃ a ∈ s.assignments.rows, a.userId.text = u ∧ a.domainId.text = domainId
  · obtain ⟨a, ha, rfl, rfl⟩ := hexists
    exact .inl ⟨a, ha, rfl, rfl, selectAssignment_of_oneRole h ha rfl⟩
  · have hnone : ∀ a ∈ s.assignments.rows, a.userId.text = u → a.domainId.text ≠ domainId :=
      fun a ha hu hd => hexists ⟨a, ha, hu, hd⟩
    have hnil : (s.assignments.rows.filter fun a => a.userId.text = u ∧
        a.domainId.text = domainId) = [] :=
      List.filter_eq_nil_iff.2 fun a ha had =>
        hnone a ha (of_decide_eq_true had).1 (of_decide_eq_true had).2
    exact .inr ⟨hnone, congrArg scalarOneOrNone hnil⟩

/-- A service that looks for the role of a user goes on with the only one. -/
theorem decides_getAssignment {u : String} {domainId : Bounded 1 100}
    {f : RACIAssignment → Prog α} (h : s.toRegistry.OneRole)
    (hnone : ¬s.toRegistry.HasRole u domainId (fun _ => True) → ¬acc)
    (hf : ∀ a ∈ s.assignments.rows, a.userId.text = u → a.domainId = domainId →
      Decides acc (f a) s) :
    Decides acc (do
      let a ← found (← PgRACIRepository.getAssignment u domainId.text) msg
      f a) s := by
  rcases selectAssignment_cases h u domainId.text with ⟨a, ha, hu, hd, hanswer⟩ | ⟨hno, hanswer⟩
  · exact decides_answered hanswer (hf a ha hu (Bounded.text_injective hd))
  · refine decides_answered hanswer (decides_raise (hnone ?_))
    rintro ⟨a, ha, hu, hd, -⟩
    exact hno a ha hu (congrArg Bounded.text hd)

variable [Hashlib]

/-- A decision is created if its texts have the lengths of the model. -/
theorem createDecision_decides (h : Ready s fresh) {decisionType : DecisionType}
    {title description domainId createdBy : String} {promotion : Option PromotionMetadata}
    {metadata : Option (Json.Dict Json.Scalar)} :
    Decides ((Call.createDecision decisionType title description domainId createdBy promotion
        metadata).Accepted s.toRegistry)
      (DecisionService.createDecision fresh decisionType title description domainId createdBy
        promotion metadata) s := by
  refine decides_validate (fun hne hacc => ?_) fun ⟨title', domainId', createdBy'⟩ hvalid => ?_
  · obtain ⟨ht, hd, hc⟩ := hacc
    exact hne (⟨title, ht⟩, ⟨domainId, hd⟩, ⟨createdBy, hc⟩) (by simp)
  obtain ⟨rfl, rfl, rfl⟩ : title'.text = title ∧ domainId'.text = domainId ∧
    createdBy'.text = createdBy := by simpa using hvalid
  have hfree := (h.free 0 (by decide)).registry.decisions
  refine decides_bind (wp_created (inserted_eq_ok (u := ()) |>.2 hfree)) ?_
  rintro _ _ ⟨rfl, rfl⟩
  refine decides_recordEvent (h.free 2 (by decide)).events (iff_of_true ?_ ?_)
  · exact ⟨title'.bounds, domainId'.bounds, createdBy'.bounds⟩
  · exact recordable_decision _ createdBy'

/-- A decision is submitted if it is pending. -/
theorem submitForApproval_decides (h : Ready s fresh) {decisionId : UUID} {actorId : String} :
    Decides ((Call.submitForApproval decisionId actorId).Accepted s.toRegistry)
      (DecisionService.submitForApproval fresh decisionId actorId) s := by
  refine decides_answered rfl (decides_found (fun hnone hacc => ?_) fun d hd => ?_)
  · obtain ⟨⟨d, hd, -⟩, -⟩ := hacc
    exact absurd (hnone.symm.trans hd) (by simp)
  obtain rfl : d.id = decisionId := Table.key_of_get? hd
  refine decides_require (fun hnot hacc => ?_) fun hpending => ?_
  · obtain ⟨⟨d', hd', hpending⟩, -⟩ := hacc
    cases hd.symm.trans hd'
    exact hnot hpending
  refine decides_bind (wp_updateDecision (d := { d with status := .awaitingApproval }) hd) ?_
  rintro _ s₁ ⟨hevents, -⟩
  refine decides_recordEvent (hevents ▸ (h.free 1 (by decide)).events)
    ⟨fun hacc => ?_, fun hr => ?_⟩
  · exact recordable_decision d.id ⟨actorId, hacc.2⟩
  · exact ⟨⟨d, hd, hpending⟩, hr.2.2⟩

/-- A vote is cast by a user with a role who has not voted, on a decision that awaits votes. What
    follows from the vote cannot fail. -/
theorem castVote_decides (h : Ready s fresh) {decisionId : UUID} {voterId comment : String}
    {vote : VoteValue} :
    Decides ((Call.castVote decisionId voterId vote comment).Accepted s.toRegistry)
      (ApprovalService.castVote fresh decisionId voterId vote comment) s := by
  by_cases hacc : (Call.castVote decisionId voterId vote comment).Accepted s.toRegistry
  · obtain ⟨d, hd, hawaiting, ⟨a, ha, rfl, hdomain, -⟩, hfirst⟩ := id hacc
    obtain rfl : d.id = decisionId := Table.key_of_get? hd
    have hvotable : Votable s fresh d a :=
      ⟨hd, hawaiting, List.mem_filter.2 ⟨ha, decide_eq_true hdomain⟩, h.role,
        fun y hy hyd heq => hfirst y hy hyd (congrArg Bounded.text heq), h.free,
        fun heq => absurd (h.distinct 1 (by decide) 3 (by decide) heq) (by decide)⟩
    exact decides_succeeds hacc (castVote_succeeds hvotable)
  -- One of the checks fails.
  refine decides_answered rfl (decides_found (fun _ => hacc) fun d hd => ?_)
  refine decides_require (fun _ => hacc) fun hawaiting => ?_
  refine decides_getAssignment h.role (fun _ => hacc) fun a ha hu hdomain => ?_
  obtain ⟨(x : Option ApprovalRecord), hx⟩ :=
    exists_answer_selectVote h.sound.once decisionId voterId
  refine decides_answered hx (decides_require (fun _ => hacc) fun hnone => ?_)
  exact absurd ⟨d, hd, hawaiting, ⟨a, ha, hu, hdomain, trivial⟩,
    not_mem_of_selectVote (hnone ▸ hx)⟩ hacc

/-- A veto is exercised by a user whose role is eligible, on a decision that awaits votes, and for
    some reason. -/
theorem exerciseVeto_decides (h : Ready s fresh) {decisionId : UUID} {vetoedBy reason : String} :
    Decides ((Call.exerciseVeto decisionId vetoedBy reason).Accepted s.toRegistry)
      (VetoService.exerciseVeto fresh decisionId vetoedBy reason) s := by
  refine decides_answered rfl (decides_found (fun hnone hacc => ?_) fun d hd => ?_)
  · obtain ⟨⟨d, hd, -⟩, -⟩ := hacc
    exact absurd (hnone.symm.trans hd) (by simp)
  obtain rfl : d.id = decisionId := Table.key_of_get? hd
  -- What is accepted is so for the decision that has been read.
  have hread : (Call.exerciseVeto d.id vetoedBy reason).Accepted s.toRegistry →
      d.status = .awaitingApproval ∧ (s.toRegistry.HasRole vetoedBy d.domainId fun role =>
        role ∈ VetoService.vetoEligibleRoles) ∧ 1 ≤ reason.length := by
    rintro ⟨⟨d', hd', hawaiting, hrole⟩, hreason⟩
    cases hd.symm.trans hd'
    exact ⟨hawaiting, hrole, hreason⟩
  refine decides_require (fun hnot hacc => hnot (hread hacc).1) fun hawaiting => ?_
  refine decides_getAssignment h.role (fun hno hacc => ?_) fun a ha hu hdomain => ?_
  · obtain ⟨-, ⟨a, ha, hu, hdomain, -⟩, -⟩ := hread hacc
    exact hno ⟨a, ha, hu, hdomain, trivial⟩
  refine decides_require (fun hnot hacc => hnot ?_) fun heligible => ?_
  · obtain ⟨-, ⟨b, hb, hbu, hbd, heligible⟩, -⟩ := hread hacc
    have hsame : b = a := h.role b hb a ha (Bounded.text_injective (hbu.trans hu.symm))
      (hbd.trans hdomain.symm)
    exact hsame ▸ heligible
  subst hu
  refine decides_validate (fun hne hacc => ?_) fun ⟨vetoedBy', reason'⟩ hvalid => ?_
  · exact hne (a.userId, ⟨reason, (hread hacc).2.2⟩) (by simp)
  obtain ⟨hby, hreason⟩ : vetoedBy'.text = a.userId.text ∧ reason'.1 = reason := by
    simpa using hvalid
  subst hreason
  have hacc : (Call.exerciseVeto d.id a.userId.text reason'.1).Accepted s.toRegistry :=
    ⟨⟨d, hd, hawaiting, a, ha, rfl, hdomain, heligible⟩, reason'.2⟩
  have hfree := (h.free 0 (by decide)).registry.vetoes
  refine decides_bind (wp_created (refers_eq_ok (u := ()) |>.2 ⟨⟨d, hd⟩,
    inserted_eq_ok.2 hfree⟩)) ?_
  rintro _ _ ⟨rfl, rfl⟩
  refine decides_bind (wp_mono (wp_finalize (s := effect (.insertVeto _) s) a.userId hd hawaiting
    rfl) (fun _ _ h => h) fun e _ he => he.2 (h.free 2 (by decide)).events) ?_
  rintro _ s₂ ⟨t, h₂⟩
  refine decides_recordEvent ?_ (iff_of_true hacc (recordable_decision _ a.userId))
  -- The event of the finalization has another identifier.
  refine Store.get?_events_eq_none.2 ?_
  rw [h₂.entries]
  refine List.forall_mem_append.2 ⟨?_, List.forall_mem_singleton.2 fun heq => ?_⟩
  · exact Store.get?_events_eq_none.1 (h.free 3 (by decide)).events
  · exact absurd (h.distinct 2 (by decide) 3 (by decide) heq) (by decide)

/-- An active veto is overridden by a user with a higher role. -/
theorem overrideVeto_decides (h : Ready s fresh) {vetoId : UUID} {overriddenBy : String} :
    Decides ((Call.overrideVeto vetoId overriddenBy).Accepted s.toRegistry)
      (VetoService.overrideVeto fresh vetoId overriddenBy) s := by
  by_cases hacc : (Call.overrideVeto vetoId overriddenBy).Accepted s.toRegistry
  · obtain ⟨v, d, hv, hactive, hd, a, ha, rfl, hdomain, hhigher⟩ := id hacc
    obtain rfl : v.id = vetoId := Table.key_of_get? hv
    exact decides_succeeds hacc (overrideVeto_succeeds ⟨hv, hactive, ha, ⟨d, hd, hdomain⟩, hhigher⟩
      h.role (h.free 0 (by decide)).events)
  -- One of the checks fails.
  refine decides_answered rfl (decides_found (fun _ => hacc) fun v hv => ?_)
  refine decides_require (fun _ => hacc) fun hactive => ?_
  refine decides_answered rfl (decides_found (fun _ => hacc) fun d hd => ?_)
  refine decides_getAssignment h.role (fun _ => hacc) fun a ha hu hdomain => ?_
  refine decides_require (fun _ => hacc) fun hhigher => ?_
  exact absurd ⟨v, d, hv, hactive, hd, a, ha, hu, hdomain, hhigher⟩ hacc

/-- A role is assigned to a user who has none in the domain. -/
theorem assignRole_decides (h : Ready s fresh) {userId domainId assignedBy : String}
    {role : RACIRole} :
    Decides ((Call.assignRole userId domainId role assignedBy).Accepted s.toRegistry)
      (RoleService.assignRole fresh userId domainId role assignedBy) s := by
  rcases selectAssignment_cases h.role userId domainId with
    ⟨a, ha, hu, hd, hanswer⟩ | ⟨hno, hanswer⟩
  · exact decides_answered hanswer (decides_raise fun hacc => hacc.1 a ha hu hd)
  refine decides_answered hanswer (decides_validate (fun hne hacc => ?_)
    fun ⟨userId', domainId', assignedBy'⟩ hvalid => ?_)
  · obtain ⟨-, hu, hd, hb⟩ := hacc
    exact hne (⟨userId, hu⟩, ⟨domainId, hd⟩, ⟨assignedBy, hb⟩) (by simp)
  obtain ⟨rfl, rfl, rfl⟩ : userId'.text = userId ∧ domainId'.text = domainId ∧
    assignedBy'.text = assignedBy := by simpa using hvalid
  have hinserted := insertedAssignment_eq_ok (s := s) (u := ()) (a := {
    id := (fresh 0).id, userId := userId', domainId := domainId', role := role,
    assignedAt := (fresh 0).now, assignedBy := assignedBy' }) |>.2
    ⟨fun b hb hu hd => hno b hb (congrArg Bounded.text hu) (congrArg Bounded.text hd),
      (h.free 0 (by decide)).registry.assignments⟩
  refine decides_bind (wp_created hinserted) ?_
  rintro _ _ ⟨rfl, rfl⟩
  refine decides_recordEvent (h.free 1 (by decide)).events (iff_of_true ?_ ?_)
  · exact ⟨hno, userId'.bounds, domainId'.bounds, assignedBy'.bounds⟩
  · exact recordable_assignment _ assignedBy'.bounds

/-- An assignment is revoked if it is there. -/
theorem revokeRole_decides (h : Ready s fresh) {assignmentId : UUID} {revokedBy : String} :
    Decides ((Call.revokeRole assignmentId revokedBy).Accepted s.toRegistry)
      (RoleService.revokeRole fresh assignmentId revokedBy) s := by
  refine decides_answered rfl (decides_found (fun hnone hacc => ?_) fun a ha => ?_)
  · obtain ⟨⟨a, ha⟩, -⟩ := hacc
    exact absurd (hnone.symm.trans ha) (by simp)
  obtain rfl : a.id = assignmentId := Table.key_of_get? ha
  refine decides_bind (wp_deleteAssignment ha) ?_
  rintro _ _ rfl
  refine decides_recordEvent (h.free 0 (by decide)).events ⟨fun hacc => ?_, fun hr => ?_⟩
  · exact recordable_assignment _ hacc.2
  · exact ⟨⟨a, ha⟩, hr.2.2⟩

/-- A call ends exactly if it is accepted, and raises a `ValueError` otherwise. -/
theorem Call.decides (h : Ready s fresh) (c : Call) :
    Decides (c.Accepted s.toRegistry) (c.program fresh) s := by
  have hunit : ∀ {α : Type} {p : Prog α}, Decides (c.Accepted s.toRegistry) p s →
      Decides (c.Accepted s.toRegistry) (do let _ ← p) s := fun hp =>
    wp_bind_of hp (fun _ _ h => wp_pure.2 h) fun _ _ h => h
  cases c with
  | createDecision => exact hunit (createDecision_decides h)
  | submitForApproval => exact hunit (submitForApproval_decides h)
  | castVote => exact hunit (castVote_decides h)
  | exerciseVeto => exact hunit (exerciseVeto_decides h)
  | overrideVeto => exact hunit (overrideVeto_decides h)
  | assignRole => exact hunit (assignRole_decides h)
  | revokeRole => exact revokeRole_decides h

end Deciding

/-- After requests with identifiers of their own, the next one with new ones finds such
    stores. -/
theorem ready_execAll [Hashlib] [Postgres] {qs : List Request} {fresh : ℕ → Stamp}
    (hnew : ∀ q ∈ qs, ∀ n < 4, (fresh n).id ∉ q.ids)
    (hdistinct : ∀ m < 4, ∀ n < 4, (fresh m).id = (fresh n).id → m = n) :
    Ready (execAll qs .empty) fresh where
  role := oneRole_execAll qs
  sound := (inv_execAll qs).sound
  free n hn := free_execAll fun q hq => hnew q hq n hn
  distinct := hdistinct

end OpenDataGov
