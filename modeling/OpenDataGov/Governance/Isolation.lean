import OpenDataGov.Governance.Domains
import OpenDataGov.Lib.Coupling

/-!
# Isolation of domains

Requests that concern other domains are left out of a run. The others return the same
(`Request.result`), and the domain ends with the same rows.

The two runs are compared request by request: the stores of the one have the rows of the
domain that the stores of the other have (`Alike`), and every service does the same on
both (`Blind`), as all its statements are about rows of the domain.

This is a relation between two programs on two stores, so that it is proved with the rules of
`Lib.Coupling`: one rule for each way of putting programs together, one for each statement
(`Alike.effect`, and the `coupled_` lemmas), and then one lemma for each service, whose proof
goes along its code. Where the code goes on with what it has read, the two runs have read the
same, and that is about the domain as well: the decision of a vote, the decision of a veto, the
assignment to be revoked.

* `Call.blind`: a call that does not concern another domain does the same on all rows as
  on those of the domain;
* `domains_isolated`: leaving out the other domains changes neither the results of the
  remaining requests nor the rows of the domain.

The trail of the audit is common to all domains and chained, so that it is not among the rows of
a domain. No service but the verification of the trail depends on it.
-/

namespace OpenDataGov

open Calendar Transact Program AuditService Keyed

/-! ## Results -/

/-- What a service returns. -/
inductive Response
  | decision (d : GovernanceDecision)
  | vote (x : ApprovalRecord)
  | veto (v : VetoRecord)
  | assignment (a : RACIAssignment)
  | done

section Results

variable [Hashlib]

/-- The program of a call, with what its service returns. -/
def Call.respond (fresh : ℕ → Stamp) : Call → Prog Response
  | .createDecision decisionType title description domainId createdBy promotion metadata => do
    return .decision (← DecisionService.createDecision fresh decisionType title description
      domainId createdBy promotion metadata)
  | .submitForApproval decisionId actorId => do
    return .decision (← DecisionService.submitForApproval fresh decisionId actorId)
  | .castVote decisionId voterId vote comment => do
    return .vote (← ApprovalService.castVote fresh decisionId voterId vote comment)
  | .exerciseVeto decisionId vetoedBy reason => do
    return .veto (← VetoService.exerciseVeto fresh decisionId vetoedBy reason)
  | .overrideVeto vetoId overriddenBy => do
    return .veto (← VetoService.overrideVeto fresh vetoId overriddenBy)
  | .assignRole userId domainId role assignedBy => do
    return .assignment (← RoleService.assignRole fresh userId domainId role assignedBy)
  | .revokeRole assignmentId revokedBy => do
    RoleService.revokeRole fresh assignmentId revokedBy
    return .done

/-- It is the program of the call. -/
theorem Call.program_eq (fresh : ℕ → Stamp) (c : Call) :
    c.program fresh = c.respond fresh >>= fun _ => .pure () := by
  have hunit : ∀ {α : Type} (p : Prog α) (f : α → Response),
      (do let a ← p; return f a) >>= (fun _ => .pure ()) = p >>= fun _ => Program.pure () :=
    fun p f => bind_bind p _ _
  cases c with
  | revokeRole => exact (bind_pure_right _).symm.trans (hunit _ fun _ => .done).symm
  | createDecision => exact (hunit _ .decision).symm
  | submitForApproval => exact (hunit _ .decision).symm
  | castVote => exact (hunit _ .vote).symm
  | exerciseVeto => exact (hunit _ .veto).symm
  | overrideVeto => exact (hunit _ .veto).symm
  | assignRole => exact (hunit _ .assignment).symm

variable [Postgres]

/-- What a request returns, or the error it fails with. -/
def Request.result (q : Request) (s : Store) : Except Error Response :=
  ((q.call.respond q.fresh).run backend s).1

/-- The requests, each with the stores on which it is made. -/
def history : List Request → Store → List (Request × Store)
  | [], _ => []
  | q :: qs, s => (q, s) :: history qs (q.exec s)

/-- What the requests return. -/
def results (h : List (Request × Store)) : List (Except Error Response) :=
  h.map fun (q, s) => q.result s

/-- The requests that concern another domain where they are made. -/
def leftOut (D : String) (qs : List Request) (s : Store) : List (Request × Store) :=
  (history qs s).filter fun (q, s) => q.call.Foreign D s.toRegistry

/-- The other requests. -/
def kept (D : String) (qs : List Request) (s : Store) : List (Request × Store) :=
  (history qs s).filter fun (q, s) => ¬q.call.Foreign D s.toRegistry

end Results

/-! ## Statements -/

/-- The stores `s'` have the rows of the domain in `s`, and the identifiers `ids` are those
    of the same rows and events in both. -/
structure Alike (D : String) (ids : List UUID) (s s' : Store) : Prop where
  registry : s'.toRegistry = s.restrict D
  rows : ∀ id ∈ ids, s'.Same s.toRegistry id
  events : ∀ id ∈ ids, s.events.get? id = none ↔ s'.events.get? id = none

section Statements

variable {α β : Type} {D : String} {ids : List UUID} {s s' : Store} {q : Query}

/-- A statement about the domain has the same effect on both. -/
theorem Alike.effect [Postgres] {a : q.Answer} (h : Alike D ids s s')
    (hq : q.Local D s.toRegistry) (hok : answer q s = .ok a) :
    Alike D ids (effect q s) (effect q s') where
  registry := restrict_effect h.registry hq hok
  rows id hid := same_effect (h.rows id hid)
  events := by
    rw [hq.events_effect, hq.events_effect]
    exact h.events

/-- The rows with the identifiers are rows of the domain. -/
theorem Alike.same (h : Alike D ids s s') {id : UUID} (hid : id ∈ ids) :
    (s.restrict D).Same s.toRegistry id := h.registry ▸ h.rows id hid

/-- Two events with the same identifier leave the stores alike. -/
theorem Alike.insertEvent {e e' : AuditEvent} (h : Alike D ids s s') (hid : e.id = e'.id) :
    Alike D ids (OpenDataGov.effect (.insertEvent e) s)
      (OpenDataGov.effect (.insertEvent e') s') where
  registry := h.registry
  rows := h.rows
  events id hmem := by
    refine Table.get?_insert_eq_none.trans (Iff.trans ?_ Table.get?_insert_eq_none.symm)
    rw [h.events id hmem, hid]

end Statements

/-! ## Rules -/

section Rules

variable [Postgres] {α α' β : Type} {D : String} {ids : List UUID} {s s' : Store} {msg : String}
  {V : α → α' → Prop} {J : Store → Store → Prop}

/-- The program returns the same on the two stores, and leaves them alike. -/
def Blind (D : String) (ids : List UUID) (p : Prog α) (s s' : Store) : Prop :=
  Coupled backend Eq (Alike D ids) p p s s'

/-- What both have found or not. -/
theorem coupled_found {x : Option β} {f : β → Prog α} {f' : β → Prog α'} (h : J s s')
    (hf : ∀ a, x = some a → Coupled backend V J (f a) (f' a) s s') :
    Coupled backend V J (found x msg >>= f) (found x msg >>= f') s s' := by
  cases x with
  | none => exact coupled_raise h
  | some a => exact hf a rfl

/-- What both check. -/
theorem coupled_require {p : Prop} [Decidable p] {f : Unit → Prog α} {f' : Unit → Prog α'}
    (h : J s s') (hf : p → Coupled backend V J (f ()) (f' ()) s s') :
    Coupled backend V J (require p msg >>= f) (require p msg >>= f') s s' := by
  rw [require]
  split_ifs with hp
  · exact hf hp
  · exact coupled_raise h

/-- What both validate. -/
theorem coupled_validate {name : String} {fields : Validated β} {f : β → Prog α}
    {f' : β → Prog α'} (h : J s s')
    (hf : ∀ a, fields = .ok a → Coupled backend V J (f a) (f' a) s s') :
    Coupled backend V J (validate name fields >>= f) (validate name fields >>= f') s s' := by
  cases fields with
  | ok a => exact hf a rfl
  | error fs => exact coupled_raise h

/-- A statement about rows of the domain is answered the same, and leaves the stores
    alike. -/
theorem blind_execute {q : Query} {f : q.Answer → Prog α} (h : Alike D ids s s')
    (hq : q.Local D s.toRegistry)
    (hf : ∀ a, answer q s = .ok a → Alike D ids (effect q s) (effect q s') →
      Blind D ids (f a) (effect q s) (effect q s')) :
    Blind D ids (execute q >>= f) s s' := by
  have hanswer : answer q s' = answer q s := answer_of_local h.registry hq
  refine coupled_query h (fun e => ?_) fun a a' ha ha' => ?_
  · exact (congrArg (· = Except.error e) hanswer).symm.to_iff
  · obtain rfl : a = a' := Except.ok.inj (ha.symm.trans (hanswer.symm.trans ha'))
    exact hf a ha (h.effect hq ha)

/-- Creating an object inserts it, and returns it. -/
theorem blind_create {q : Query} {x : β} {f : β → Prog α} (h : Alike D ids s s')
    (hq : q.Local D s.toRegistry)
    (hf : Alike D ids (effect q s) (effect q s') →
      Blind D ids (f x) (effect q s) (effect q s')) :
    Blind D ids ((do let _ ← execute q; return x) >>= f) s s' :=
  blind_execute (f := fun _ => f x) h hq fun _ _ h => hf h

theorem blind_pure {a : α} (h : Alike D ids s s') : Blind D ids (.pure a) s s' :=
  coupled_pure rfl h

theorem blind_bind {p : Prog β} {f : β → Prog α} (hp : Blind D ids p s s')
    (hf : ∀ a t t', Alike D ids t t' → Blind D ids (f a) t t') :
    Blind D ids (p >>= f) s s' := by
  refine coupled_bind hp (fun a a' t t' ha h => ?_) fun _ _ h => h
  subst ha
  exact hf a t t' h

/-- A service that looks for a decision of the domain finds the same. -/
theorem blind_getDecision {decisionId : UUID} {f : GovernanceDecision → Prog α}
    (h : Alike D ids s s') (hdomain : ∀ e ∈ s.domainOf decisionId, e = D)
    (hf : ∀ d, s.decisions.get? d.id = some d → d.id = decisionId → d.domainId.text = D →
      s.domainOf d.id = some D → Blind D ids (f d) s s') :
    Blind D ids (do
      let d ← found (← PgDecisionRepository.getById decisionId) msg
      f d) s s' := by
  refine blind_execute h hdomain fun a ha _ => coupled_found h fun d hd => ?_
  have hrow : s.decisions.get? decisionId = some d := hd ▸ Except.ok.inj ha
  obtain rfl := Table.key_of_get? hrow
  have hdomainOf := Registry.domainOf_of_get? hrow
  have hD : d.domainId.text = D := hdomain _ hdomainOf
  exact hf d hrow rfl hD (hD ▸ hdomainOf)

/-- So does one that looks for the role of a user in the domain. -/
theorem blind_getAssignment {userId domainId : String} {f : RACIAssignment → Prog α}
    (h : Alike D ids s s') (hD : domainId = D) (hf : ∀ a, Blind D ids (f a) s s') :
    Blind D ids (do
      let a ← found (← PgRACIRepository.getAssignment userId domainId) msg
      f a) s s' :=
  blind_execute h hD fun _ _ _ => coupled_found h fun a _ => hf a

/-- Updating a decision of the domain, -/
theorem blind_updateDecision {d : GovernanceDecision} {now : DateTime} (h : Alike D ids s s')
    (hdomain : ∀ e ∈ s.domainOf d.id, e = D) :
    Blind D ids (PgDecisionRepository.update d now) s s' := by
  refine blind_execute h hdomain fun row _ _ => ?_
  cases row with
  | none => exact coupled_raise h
  | some row => exact blind_execute h trivial fun _ _ h => blind_pure h

/-- a veto on one, -/
theorem blind_updateVeto {v : VetoRecord} (h : Alike D ids s s')
    (hveto : ∀ w ∈ s.vetoes.get? v.id, s.domainOf w.decisionId = some D) :
    Blind D ids (PgVetoRepository.update v) s s' := by
  refine blind_execute h hveto fun row _ _ => ?_
  cases row with
  | none => exact coupled_raise h
  | some row => exact blind_execute h trivial fun _ _ h => blind_pure h

/-- and deleting an assignment in it. -/
theorem blind_deleteAssignment {id : UUID} (h : Alike D ids s s')
    (hassignment : ∀ a ∈ s.assignments.get? id, a.domainId.text = D) :
    Blind D ids (PgRACIRepository.delete id) s s' := by
  refine blind_execute h hassignment fun row _ _ => ?_
  cases row with
  | none => exact blind_pure h
  | some row => exact blind_execute (f := .pure) h trivial fun _ _ h => blind_pure h

variable [Hashlib]

/-- Recording an event. The two events point to different ones, and are the same otherwise. -/
theorem coupled_recordEvent {stamp : Stamp} {eventType : AuditEventType}
    {entityType entityId actorId description : String}
    {details : Option (Json.Dict Json.Scalar)} (h : Alike D ids s s') (hid : stamp.id ∈ ids) :
    Coupled backend (fun _ _ => True) (fun t t' => t.toRegistry = s.toRegistry ∧ Alike D ids t t')
      (recordEvent stamp eventType entityType entityId actorId description details)
      (recordEvent stamp eventType entityType entityId actorId description details) s s' := by
  refine coupled_query ⟨rfl, h⟩ (fun e => iff_of_false (fun he => ?_) fun he => ?_)
    fun lastHash lastHash' _ _ => coupled_validate ⟨rfl, h⟩ fun fields _ => ?_
  · cases he
  · cases he
  · refine coupled_query ⟨rfl, h⟩ (fun e => Eq.to_iff (congrArg (· = Except.error e) ?_))
      fun _ _ _ _ => coupled_pure trivial ⟨rfl, h.insertEvent rfl⟩
    exact inserted_congr_iff (h.events _ hid)

/-- What goes on after an event is recorded does not depend on it. -/
theorem blind_recordEvent {stamp : Stamp} {eventType : AuditEventType}
    {entityType entityId actorId description : String}
    {details : Option (Json.Dict Json.Scalar)} {p : Prog α} (h : Alike D ids s s')
    (hid : stamp.id ∈ ids)
    (hp : ∀ t t', t.toRegistry = s.toRegistry → Alike D ids t t' → Blind D ids p t t') :
    Blind D ids (do
      let _ ← recordEvent stamp eventType entityType entityId actorId description details
      p) s s' :=
  coupled_bind (coupled_recordEvent h hid) (fun _ _ t t' _ ht => hp t t' ht.1 ht.2)
    fun _ _ ht => ht.2

end Rules

/-! ## The services -/

section Services

variable [Hashlib] [Postgres] {D : String} {ids : List UUID} {s s' : Store} {fresh : ℕ → Stamp}

/-- The services, of what is in the domain: finalizing a decision, -/
theorem finalize_blind {decisionId : UUID} {status : DecisionStatus} {actorId : String}
    (h : Alike D ids s s') (hdomain : ∀ e ∈ s.domainOf decisionId, e = D)
    (hid : (fresh 1).id ∈ ids) :
    Blind D ids (DecisionService.finalize fresh decisionId status actorId) s s' := by
  refine blind_getDecision h hdomain fun d _ heq _ _ => ?_
  subst heq
  refine coupled_require h fun _ => coupled_found h fun eventType _ => ?_
  refine blind_bind (blind_updateDecision h hdomain) fun updated t t' h => ?_
  exact blind_recordEvent h hid fun _ _ _ h => blind_pure h

/-- counting the votes on it, -/
theorem checkAndFinalize_blind {decisionId : UUID} {domainId : String} (h : Alike D ids s s')
    (hD : domainId = D) (hdomain : s.domainOf decisionId = some D) (hid : (fresh 1).id ∈ ids) :
    Blind D ids (ApprovalService.checkAndFinalize fresh decisionId domainId) s s' := by
  refine blind_execute h hD fun assignments _ h => ?_
  split_ifs
  · exact blind_pure h
  refine blind_execute h hdomain fun approvals _ h => ?_
  split_ifs
  · have hdomain' : ∀ e ∈ s.domainOf decisionId, e = D := fun e he =>
      Option.mem_unique he hdomain
    exact blind_bind (finalize_blind h hdomain' hid) fun _ _ _ h => blind_pure h
  · exact blind_pure h

variable (hids : ∀ n < 4, (fresh n).id ∈ ids)

include hids

/-- submitting it, -/
theorem submitForApproval_blind {decisionId : UUID} {actorId : String} (h : Alike D ids s s')
    (hdomain : ∀ e ∈ s.domainOf decisionId, e = D) :
    Blind D ids (DecisionService.submitForApproval fresh decisionId actorId) s s' := by
  refine blind_getDecision h hdomain fun d _ heq _ _ => ?_
  subst heq
  refine coupled_require h fun _ => ?_
  refine blind_bind (blind_updateDecision h hdomain) fun updated t t' h => ?_
  exact blind_recordEvent h (hids 1 (by decide)) fun _ _ _ h => blind_pure h

/-- overriding a veto on one, -/
theorem overrideVeto_blind {vetoId : UUID} {overriddenBy : String} (h : Alike D ids s s')
    (hveto : ∀ v ∈ s.vetoes.get? vetoId, s.domainOf v.decisionId = some D) :
    Blind D ids (VetoService.overrideVeto fresh vetoId overriddenBy) s s' := by
  refine blind_execute h hveto fun a ha h => coupled_found h fun v hv => ?_
  have hrow : s.vetoes.get? vetoId = some v := hv ▸ Except.ok.inj ha
  obtain rfl : v.id = vetoId := Table.key_of_get? hrow
  refine coupled_require h fun _ => ?_
  have hdomain : ∀ e ∈ s.domainOf v.decisionId, e = D := fun e he =>
    Option.mem_unique he (hveto v hrow)
  refine blind_getDecision h hdomain fun d _ _ hD _ => ?_
  refine blind_getAssignment h hD fun assignment => ?_
  refine coupled_require h fun _ => ?_
  refine blind_bind (blind_updateVeto h hveto) fun updated t t' h => ?_
  exact blind_recordEvent h (hids 0 (by decide)) fun _ _ _ h => blind_pure h

/-- revoking a role, -/
theorem revokeRole_blind {assignmentId : UUID} {revokedBy : String} (h : Alike D ids s s')
    (hassignment : ∀ a ∈ s.assignments.get? assignmentId, a.domainId.text = D) :
    Blind D ids (RoleService.revokeRole fresh assignmentId revokedBy) s s' := by
  refine blind_execute h hassignment fun a _ h => coupled_found h fun assignment _ => ?_
  refine blind_bind (blind_deleteAssignment h hassignment) fun _ t t' h => ?_
  exact blind_recordEvent h (hids 0 (by decide)) fun _ _ _ h => blind_pure h

/-- creating a decision, -/
theorem createDecision_blind {decisionType : DecisionType}
    {title description domainId createdBy : String} {promotion : Option PromotionMetadata}
    {metadata : Option (Json.Dict Json.Scalar)} (h : Alike D ids s s') (hs : s.Sound)
    (hD : domainId = D) :
    Blind D ids (DecisionService.createDecision fresh decisionType title description domainId
      createdBy promotion metadata) s s' := by
  refine coupled_validate h fun (title', domainId', createdBy') hvalid => ?_
  have hdomain : domainId'.text = domainId := by
    simp only [Validated.and_eq_ok, Validated.bounded_eq_ok] at hvalid
    exact hvalid.2.1
  refine blind_create h ⟨hdomain.trans hD, h.same (hids 0 (by decide)), hs.unreferred⟩
    fun h => ?_
  exact blind_recordEvent h (hids 2 (by decide)) fun _ _ _ h => blind_pure h

/-- assigning a role, -/
theorem assignRole_blind {userId domainId assignedBy : String} {role : RACIRole}
    (h : Alike D ids s s') (hD : domainId = D) :
    Blind D ids (RoleService.assignRole fresh userId domainId role assignedBy) s s' := by
  refine blind_execute h hD fun existing _ h => ?_
  cases existing with
  | some existing => exact coupled_raise h
  | none =>
    refine coupled_validate h fun (userId', domainId', assignedBy') hvalid => ?_
    have hdomain : domainId'.text = domainId := by
      simp only [Validated.and_eq_ok, Validated.bounded_eq_ok] at hvalid
      exact hvalid.2.1
    refine blind_create h ⟨hdomain.trans hD, h.same (hids 0 (by decide))⟩ fun h => ?_
    exact blind_recordEvent h (hids 1 (by decide)) fun _ _ _ h => blind_pure h

/-- voting, -/
theorem castVote_blind {decisionId : UUID} {voterId comment : String} {vote : VoteValue}
    (h : Alike D ids s s') (hdomain : ∀ e ∈ s.domainOf decisionId, e = D) :
    Blind D ids (ApprovalService.castVote fresh decisionId voterId vote comment) s s' := by
  refine blind_getDecision h hdomain fun d _ heq hD hdomainOf => ?_
  subst heq
  refine coupled_require h fun _ => ?_
  refine blind_getAssignment h hD fun assignment => ?_
  refine blind_execute h hdomainOf fun (existing : Option ApprovalRecord) _ h => ?_
  refine coupled_require h fun _ => ?_
  refine coupled_validate h fun voterId' _ => ?_
  refine blind_create h ⟨hdomainOf, h.same (hids 0 (by decide))⟩ fun h => ?_
  refine blind_recordEvent h (hids 1 (by decide)) fun t t' ht h' => ?_
  -- The decision is where it was: votes and events do not touch it.
  have hthere : t.domainOf d.id = some D := (congrArg (·.domainOf d.id) ht).trans hdomainOf
  cases vote with
  | reject =>
    have hdomain' : ∀ e ∈ t.domainOf d.id, e = D := fun e he =>
      Option.mem_unique he hthere
    exact blind_bind (finalize_blind h' hdomain' (hids 3 (by decide)))
      fun _ _ _ h => blind_pure h
  | approve =>
    exact blind_bind (checkAndFinalize_blind h' hD hthere (hids 3 (by decide)))
      fun _ _ _ h => blind_pure h
  | abstain => exact blind_pure h'

/-- and vetoing. -/
theorem exerciseVeto_blind {decisionId : UUID} {vetoedBy reason : String}
    (h : Alike D ids s s') (hdomain : ∀ e ∈ s.domainOf decisionId, e = D) :
    Blind D ids (VetoService.exerciseVeto fresh decisionId vetoedBy reason) s s' := by
  refine blind_getDecision h hdomain fun d _ heq hD hdomainOf => ?_
  subst heq
  refine coupled_require h fun _ => ?_
  refine blind_getAssignment h hD fun assignment => ?_
  refine coupled_require h fun _ => coupled_validate h fun fields _ => ?_
  refine blind_create h ⟨hdomainOf, h.same (hids 0 (by decide))⟩ fun h => ?_
  refine blind_bind (finalize_blind h hdomain (hids 2 (by decide))) fun _ _ _ h => ?_
  exact blind_recordEvent h (hids 3 (by decide)) fun _ _ _ h => blind_pure h

/-- A call that does not concern another domain does the same on the rows of the domain. -/
theorem Call.blind {c : Call} (h : Alike D ids s s') (hs : s.Sound)
    (hc : ¬c.Foreign D s.toRegistry) : Blind D ids (c.respond fresh) s s' := by
  have hdomain : ∀ e ∈ c.domain s.toRegistry, e = D := fun e he =>
    by_contra fun hne => hc ⟨e, he, hne⟩
  cases c with
  | createDecision =>
    exact blind_bind (createDecision_blind hids h hs (hdomain _ rfl))
      fun _ _ _ h => blind_pure h
  | submitForApproval =>
    exact blind_bind (submitForApproval_blind hids h hdomain) fun _ _ _ h => blind_pure h
  | castVote => exact blind_bind (castVote_blind hids h hdomain) fun _ _ _ h => blind_pure h
  | exerciseVeto =>
    exact blind_bind (exerciseVeto_blind hids h hdomain) fun _ _ _ h => blind_pure h
  | overrideVeto vetoId =>
    refine blind_bind (overrideVeto_blind hids h fun v hv => ?_) fun _ _ _ h => blind_pure h
    -- The decision vetoed is there, and it is of the domain.
    obtain ⟨_, d, hd, _⟩ := hs.vetoes v (Table.mem_of_get? hv)
    have hdomainOf := Registry.domainOf_of_get? hd
    have hD : d.domainId.text = D := hdomain _ (by rwa [Call.domain, Option.mem_def.1 hv])
    rw [hdomainOf, hD]
  | assignRole =>
    exact blind_bind (assignRole_blind hids h (hdomain _ rfl)) fun _ _ _ h => blind_pure h
  | revokeRole assignmentId =>
    refine blind_bind (revokeRole_blind hids h fun a ha => ?_) fun _ _ _ h => blind_pure h
    exact hdomain _ (by rw [Call.domain, Option.mem_def.1 ha, Option.map_some, Option.mem_def])

end Services

/-! ## Runs -/

section Runs

variable [Hashlib] [Postgres] {D : String} {s s' : Store} {q : Request} {qs : List Request}

/-- A request leaves stores alike on which its call does the same. -/
theorem Request.exec_alike {ids : List UUID} (h : Alike D ids s s')
    (hblind : Blind D ids (q.call.respond q.fresh) s s') :
    Alike D ids (q.exec s) (q.exec s') := by
  have hprogram : Blind D ids (q.call.program q.fresh) s s' := by
    rw [Call.program_eq]
    exact blind_bind hblind fun _ _ _ h => blind_pure h
  rw [Blind, Coupled] at hprogram
  rw [Request.exec, Request.exec]
  generalize (q.call.program q.fresh).run backend s = x at hprogram
  generalize (q.call.program q.fresh).run backend s' = x' at hprogram
  -- How a request ends decides what is kept, and both stores see it end in one way.
  cases hprogram with
  | ok _ h' =>
    cases q.mode with
    | abandoned => exact h
    | transaction | direct => exact h'
  | error h' =>
    cases q.mode with
    | abandoned | transaction => exact h
    | direct =>
      dsimp only
      split_ifs
      · exact h'
      · exact h

theorem kept_cons_of_foreign (hc : q.call.Foreign D s.toRegistry) :
    kept D (q :: qs) s = kept D qs (q.exec s) :=
  List.filter_cons_of_neg (by simpa using hc)

theorem kept_cons (hc : ¬q.call.Foreign D s.toRegistry) :
    kept D (q :: qs) s = (q, s) :: kept D qs (q.exec s) :=
  List.filter_cons_of_pos (by simpa using hc)

theorem leftOut_cons_of_foreign (hc : q.call.Foreign D s.toRegistry) :
    leftOut D (q :: qs) s = (q, s) :: leftOut D qs (q.exec s) :=
  List.filter_cons_of_pos (by simpa using hc)

theorem leftOut_cons (hc : ¬q.call.Foreign D s.toRegistry) :
    leftOut D (q :: qs) s = leftOut D qs (q.exec s) :=
  List.filter_cons_of_neg (by simpa using hc)

/-- A request that concerns another domain, and is given none of the identifiers, leaves the
    stores alike. -/
theorem Alike.exec_of_foreign {ids : List UUID} (h : Alike D ids s s') (hs : s.toRegistry.Sound)
    (hc : q.call.Foreign D s.toRegistry) (hids : ∀ id ∈ q.ids, id ∉ ids) :
    Alike D ids (q.exec s) s' where
  registry := h.registry.trans (q.outcome.restrict_eq hs hc).symm
  rows id hid := by
    have hne : ∀ n < 4, (q.fresh n).id ≠ id := fun n hn heq =>
      hids _ (q.mem_ids n hn) (heq ▸ hid)
    refine (h.rows id hid).trans ?_
    rcases q.leaves (s := s) with hs' | ⟨r, w, w', hdeed, hs'⟩
    · rw [hs'.registry]
      exact .refl _ id
    · rw [hs'.registry]
      exact (hdeed.same hc hne (h.same hid)).symm
  events id hid := by
    have hid' : id ∉ q.ids := fun hmem => hids id hmem hid
    exact (q.get?_events_eq_none hid').trans (h.events id hid)

/-- The two runs, from stores that are alike. -/
theorem isolated_from {ids : List UUID} (hi : Inv s.toRegistry) (h : Alike D ids s s')
    (hkept : ∀ x ∈ kept D qs s, ∀ id ∈ x.1.ids, id ∈ ids)
    (hleftOut : ∀ x ∈ leftOut D qs s, ∀ id ∈ x.1.ids, id ∉ ids) :
    results (history ((kept D qs s).map Prod.fst) s') = results (kept D qs s) ∧
      (execAll ((kept D qs s).map Prod.fst) s').toRegistry = (execAll qs s).restrict D := by
  induction qs generalizing s s' with
  | nil => exact ⟨rfl, h.registry⟩
  | cons q qs ih =>
    have hi' : Inv (q.exec s).toRegistry := hi.step q.outcome
    by_cases hc : q.call.Foreign D s.toRegistry
    · rw [kept_cons_of_foreign hc] at hkept ⊢
      rw [leftOut_cons_of_foreign hc] at hleftOut
      obtain ⟨hq, hleftOut⟩ := List.forall_mem_cons.1 hleftOut
      exact ih hi' (h.exec_of_foreign hi.sound hc hq) hkept hleftOut
    · rw [kept_cons hc] at hkept ⊢
      rw [leftOut_cons hc] at hleftOut
      obtain ⟨hq, hkept⟩ := List.forall_mem_cons.1 hkept
      have hblind : Blind D ids (q.call.respond q.fresh) s s' :=
        Call.blind (fun n hn => hq _ (q.mem_ids n hn)) h hi.sound hc
      obtain ⟨hresults, hrows⟩ := ih hi' (Request.exec_alike h hblind) hkept hleftOut
      exact ⟨congrArg₂ List.cons hblind.result.symm hresults, hrows⟩

/-- Leaving out the requests that concern other domains changes neither the results of the
    remaining ones nor the decisions, votes, vetoes and assignments of the domain. -/
theorem domains_isolated (D : String) (qs : List Request)
    (hids : ∀ x ∈ leftOut D qs .empty, ∀ y ∈ kept D qs .empty, ∀ id ∈ x.1.ids, id ∉ y.1.ids) :
    results (history ((kept D qs .empty).map Prod.fst) .empty) =
        results (kept D qs .empty) ∧
      (execAll ((kept D qs .empty).map Prod.fst) .empty).restrict D =
        (execAll qs .empty).restrict D := by
  have halike : Alike D ((kept D qs .empty).flatMap fun x => x.1.ids) .empty .empty :=
    ⟨rfl, fun id _ => .refl _ id, fun _ _ => .rfl⟩
  obtain ⟨hresults, hrows⟩ := isolated_from Inv.empty halike
    (fun x hx id hid => List.mem_flatMap.2 ⟨x, hx, hid⟩) fun x hx id hid hmem => by
      obtain ⟨y, hy, hid'⟩ := List.mem_flatMap.1 hmem
      exact hids x hx y hy id hid hid'
  refine ⟨hresults, ?_⟩
  rw [hrows, Registry.restrict_restrict]

end Runs

namespace Sales

attribute [local instance] Hashlib.standard Postgres.stable

/-- The second decision of the run is about finance, where bob is against it. He approves the
    one about sales. -/
def twoDomains : List Call :=
  [.createDecision .dataPromotion "Promote orders" "" "sales" "ann" none none,
    .assignRole "bob" "finance" .responsible "eve",
    .assignRole "bob" "sales" .responsible "ann",
    .createDecision .dataPromotion "Promote ledgers" "" "finance" "eve" none none,
    .submitForApproval decision "ann",
    .submitForApproval (Sales.fresh 3 0).id "eve",
    .castVote (Sales.fresh 3 0).id "bob" .reject "",
    .revokeRole (Sales.fresh 1 0).id "eve",
    .castVote decision "bob" .approve ""]

/-- The requests about the one domain, with those about the other one left out. -/
theorem sales_isolated :
    results (history ((kept "sales" (requests twoDomains) .empty).map Prod.fst) .empty) =
        results (kept "sales" (requests twoDomains) .empty) ∧
      (execAll ((kept "sales" (requests twoDomains) .empty).map Prod.fst) .empty).restrict
          "sales" =
        (execAll (requests twoDomains) .empty).restrict "sales" :=
  domains_isolated "sales" (requests twoDomains) (by decide +kernel)

example : (leftOut "sales" (requests twoDomains) .empty).length = 5 ∧
    (kept "sales" (requests twoDomains) .empty).length = 4 := by
  decide +kernel

end Sales

end OpenDataGov
