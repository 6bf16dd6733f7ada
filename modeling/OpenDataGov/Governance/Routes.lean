import OpenDataGov.Governance.Order
import OpenDataGov.Governance.Vetoes

/-!
# The endpoints of a decision

The routes under `/api/v1/decisions/{decision_id}` that change something: they submit the
decision, vote on it, veto it and override a veto.

Three of them call their service with the decision of the path. The route of an override does not
look at it: the veto is given by its own identifier, and may be one on any decision
(`Endpoint.call`). What belongs to a decision are its row, its votes and its vetoes (`Confined`),
and the events that are recorded about it (`OwnOnly`).

* `Deed.confined`: what an endpoint does is about the decision of the path, or overrides a veto on
  another one;
* `ownOnly_iff`: so an endpoint changes what is its own decision's only, exactly if it does not
  override a veto on another decision;
* `Sales.not_ownOnly`: a veto is overridden by way of another decision.

The bodies are valid, as pydantic has checked them before. The responses are in `Governance.Api`.
-/

namespace OpenDataGov

open Transact Program Keyed

/-- The body of a request to submit a decision. -/
structure SubmitDecisionRequest where
  actorId : Bounded 1 200

/-- The body of a request to vote. -/
structure CastVoteRequest where
  voterId : Bounded 1 200
  vote : VoteValue
  comment : String

/-- The body of a request to veto a decision. -/
structure ExerciseVetoRequest where
  vetoedBy : Bounded 1 200
  reason : { s : String // 1 ≤ s.length }

/-- The body of a request to override a veto, which is given in the path. -/
structure OverrideVetoRequest where
  overriddenBy : Bounded 1 200

/-- The endpoints of a decision that change something, with their bodies and what else is in
    the path. -/
inductive Endpoint
  | submitDecision (body : SubmitDecisionRequest)
  | approveDecision (body : CastVoteRequest)
  | exerciseVeto (body : ExerciseVetoRequest)
  | overrideVeto (vetoId : UUID) (body : OverrideVetoRequest)

/-- The operation that an endpoint calls, for the decision of the path. -/
def Endpoint.call (decisionId : UUID) : Endpoint → Call
  | .submitDecision body => .submitForApproval decisionId body.actorId.text
  | .approveDecision body => .castVote decisionId body.voterId.text body.vote body.comment
  | .exerciseVeto body => .exerciseVeto decisionId body.vetoedBy.text body.reason.1
  | .overrideVeto vetoId body => .overrideVeto vetoId body.overriddenBy.text

/-- Between the tables `r` and `r'`, the decision `d` has been changed at most, with the
    votes and the vetoes on it. -/
structure Confined (d : UUID) (r r' : Registry) : Prop where
  decisions : r'.decisions.filter (fun d' => d'.id ≠ d) = r.decisions.filter fun d' => d'.id ≠ d
  approvals : r'.approvals.filter (fun x => x.decisionId ≠ d) =
    r.approvals.filter fun x => x.decisionId ≠ d
  vetoes : r'.vetoes.filter (fun v => v.decisionId ≠ d) = r.vetoes.filter fun v => v.decisionId ≠ d
  assignments : r'.assignments = r.assignments

/-- Between the stores `s` and `s'`, nothing has been changed but what is the decision's `d`,
    and all that has been recorded is about it. -/
structure OwnOnly (d : UUID) (s s' : Store) : Prop where
  confined : Confined d s.toRegistry s'.toRegistry
  entries : ∃ w, s'.entries = s.entries ++ w ∧ ∀ y ∈ w, y.entityId = d.str

/-- The request overrides a veto that is not one on the decision `d`: the user can, and the
    identifier for the event is free. -/
def OverridesElsewhere (d : UUID) (q : Request) (s : Store) : Prop :=
  q.mode ≠ .abandoned ∧ ∃ v a, q.call = .overrideVeto v.id a.userId.text ∧ v.decisionId ≠ d ∧
    Override s.toRegistry v a ∧ s.events.get? (q.fresh 0).id = none

section Confining

variable {r r' : Registry} {d : UUID} {x : ApprovalRecord} {v : VetoRecord}

theorem Confined.refl : Confined d r r := ⟨rfl, rfl, rfl, rfl⟩

/-- The status of the decision may change. -/
theorem Confined.mark {status : DecisionStatus} {t : Calendar.DateTime}
    {md : Json.Dict Json.Scalar} (h : Confined d r r') :
    Confined d r (r'.mark d status t md) where
  decisions := by
    have hnone : (r'.decisions.filter fun d' => d'.id ≠ d).get? d = none := by
      rw [Table.get?_filter, Option.filter_eq_none_iff]
      intro d' hd' hne
      exact of_decide_eq_true hne (Table.key_of_get? hd')
    rw [decisions_mark, Table.filter_modify (GovernanceDecision.id_set status t md) fun _ => rfl,
      Table.modify_eq_self (GovernanceDecision.id_set status t md) hnone]
    exact h.decisions
  approvals := h.approvals
  vetoes := h.vetoes
  assignments := h.assignments

/-- There may be a vote on it. -/
theorem confined_withVote (hx : x.decisionId = d) : Confined d r (r.withVote x) :=
  { Confined.refl with approvals := Table.filter_insert_of_not (by simp [hx]) }

/-- There may be a veto on it. -/
theorem confined_withVeto (hv : v.decisionId = d) : Confined d r (r.withVeto v) :=
  { Confined.refl with vetoes := Table.filter_insert_of_not (by simp [hv]) }

/-- A veto on it may be overridden. -/
theorem confined_override {u : String} {o : Option Calendar.DateTime}
    (hv : r.vetoes.get? v.id = some v) (hd : v.decisionId = d) :
    Confined d r (r.override v.id u o) := by
  have hnone : (r.vetoes.filter fun v => v.decisionId ≠ d).get? v.id = none := by
    rw [Table.get?_filter, hv, Option.filter_some_neg (by simp [hd])]
  have hvetoes : (r.override v.id u o).vetoes.filter (fun v => v.decisionId ≠ d) =
      r.vetoes.filter fun v => v.decisionId ≠ d := by
    rw [Registry.override,
      Table.filter_modify (VetoRecord.id_set .overridden (some u) o) fun _ => rfl,
      Table.modify_eq_self (VetoRecord.id_set .overridden (some u) o) hnone]
  exact { Confined.refl with vetoes := hvetoes }

/-- What an endpoint does is about the decision of the path, or overrides a veto on
    another one. -/
theorem Deed.confined {fresh : ℕ → Stamp} {e : Endpoint} {w : List Entry}
    (h : Deed r fresh (e.call d) r' w)
    (hown : ∀ v a, e.call d = .overrideVeto v.id a.userId.text → Override r v a →
      v.decisionId = d) :
    Confined d r r' ∧ ∀ y ∈ w, y.entityId = d.str := by
  have hsingle : ∀ {stamp : Stamp} {eventType : AuditEventType} {id : UUID}, id = d →
      ∀ y ∈ [stamp.onDecision eventType id], y.entityId = d.str := by
    rintro stamp eventType id rfl y hy
    rw [List.mem_singleton.1 hy]
    rfl
  -- The calls of the other endpoints name the decision of the path.
  have hsubmit : ∀ {id u}, e.call d = .submitForApproval id u → id = d := by
    intro id u hc
    cases e <;> cases hc
    rfl
  have hvote : ∀ {id u vote comment}, e.call d = .castVote id u vote comment → id = d := by
    intro id u vote comment hc
    cases e <;> cases hc
    rfl
  have hveto : ∀ {id u reason}, e.call d = .exerciseVeto id u reason → id = d := by
    intro id u reason hc
    cases e <;> cases hc
    rfl
  generalize hc : e.call d = c at h
  cases h with
  | submitted =>
    obtain rfl := hsubmit hc
    exact ⟨Confined.refl.mark, hsingle rfl⟩
  | voted => exact ⟨confined_withVote (hvote hc), hsingle (hvote hc)⟩
  | rejected | approved =>
    obtain rfl := hvote hc
    exact ⟨(confined_withVote rfl).mark, List.forall_mem_cons.2 ⟨rfl, hsingle rfl⟩⟩
  | vetoed =>
    obtain rfl := hveto hc
    exact ⟨(confined_withVeto rfl).mark, List.forall_mem_cons.2 ⟨rfl, hsingle rfl⟩⟩
  | overridden ho =>
    have hd := hown _ _ hc ho
    exact ⟨confined_override ho.veto hd, hsingle hd⟩
  | created | assigned | revoked => cases e <;> cases hc

/-- Overriding a veto is recorded for the decision of the veto. -/
theorem Deed.of_overrideVeto {fresh : ℕ → Stamp} {u : String} {w : List Entry}
    (h : Deed r fresh (.overrideVeto v.id u) r' w) (hv : r.vetoes.get? v.id = some v) :
    w = [(fresh 0).onDecision .vetoOverridden v.decisionId] := by
  generalize hc : Call.overrideVeto v.id u = c at h
  cases h with
  | @overridden v' _ ho =>
    have hid : v.id = v'.id := (Call.overrideVeto.inj hc).1
    obtain rfl : v = v' := Option.some.inj (hv.symm.trans (hid ▸ ho.veto))
    rfl
  | _ => cases hc

end Confining

section Requests

variable [Hashlib] [Postgres] {d : UUID} {q : Request} {e : Endpoint} {s s' : Store}

omit [Hashlib] [Postgres] in
/-- What has been recorded had a free identifier. -/
theorem Leaves.free {r : Registry} {w : List Entry} (h : Leaves s r w s') :
    ∀ y ∈ w, s.events.get? y.id = none := by
  have hnodup : (s'.entries.map Entry.id).Nodup := by
    rw [Store.entries, List.map_map]
    exact s'.events.nodup
  rw [h.entries, List.map_append, List.nodup_append'] at hnodup
  intro y hy
  rw [Store.get?_events_eq_none]
  exact fun y' hy' heq => hnodup.2.2 (List.mem_map_of_mem hy') (heq ▸ List.mem_map_of_mem hy)

/-- A user who can override a veto does so, if the event can be recorded. -/
theorem overrideVeto_succeeds {fresh : ℕ → Stamp} {v : VetoRecord} {a : RACIAssignment}
    (ho : Override s.toRegistry v a) (hrole : s.toRegistry.OneRole)
    (hfree : s.events.get? (fresh 0).id = none) :
    (VetoService.overrideVeto fresh v.id a.userId.text).wp backend (fun _ _ => True)
      (fun _ _ => False) s := by
  obtain ⟨d, hd, hdomain⟩ := ho.decision
  refine wp_answered (congrArg Except.ok ho.veto) (wp_found_some ?_)
  refine wp_required ho.active ?_
  refine wp_answered (congrArg Except.ok hd) (wp_found_some ?_)
  refine wp_answered (selectAssignment_of_oneRole hrole ho.assigned hdomain) (wp_found_some ?_)
  refine wp_required ho.higher ?_
  refine wp_bind_of (wp_updateVeto ho.veto) ?_ fun _ _ he => he
  rintro _ _ rfl
  exact wp_bind_of (wp_recordEvent_of_free (recordable_decision _ _) hfree)
    (fun _ _ _ => wp_pure.2 trivial) fun _ _ he => he

/-- A request to do so that is carried out does it, and records it. -/
theorem Request.done_of_override {q : Request} {v : VetoRecord} {a : RACIAssignment}
    (hmode : q.mode ≠ .abandoned) (hcall : q.call = .overrideVeto v.id a.userId.text)
    (ho : Override s.toRegistry v a) (hrole : s.toRegistry.OneRole)
    (hfree : s.events.get? (q.fresh 0).id = none) : Done q.fresh q.call s (q.exec s) := by
  refine q.done hmode ?_
  rw [hcall]
  exact wp_bind_of (overrideVeto_succeeds ho hrole hfree) (fun _ _ _ => wp_pure.2 trivial)
    fun _ _ he => he

/-- Where a request to an endpoint of a decision is made, it changes what belongs to the
    decision only, exactly if it does not override a veto on another one. -/
theorem ownOnly_iff (qs : List Request) (d : UUID) (e : Endpoint) (q : Request)
    (hq : q.call = e.call d) :
    OwnOnly d (execAll qs .empty) (q.exec (execAll qs .empty)) ↔
      ¬OverridesElsewhere d q (execAll qs .empty) := by
  set s := execAll qs .empty with hs
  constructor
  · rintro ⟨_, w, hw, hown⟩ ⟨hmode, v, a, hcall, hne, ho, hfree⟩
    -- The override succeeds, and its event is about the decision of the veto.
    have hrole : s.toRegistry.OneRole := oneRole_execAll qs
    obtain ⟨r, w', hdeed, h⟩ := q.done_of_override hmode hcall ho hrole hfree
    rw [hcall] at hdeed
    obtain rfl := hdeed.of_overrideVeto ho.veto
    obtain rfl := List.append_cancel_left (hw.symm.trans h.entries)
    exact hne (UUID.str_injective (hown _ List.mem_cons_self))
  · intro hnot
    by_cases hmode : q.mode = .abandoned
    · rw [exec_abandoned hmode]
      exact ⟨.refl, [], (List.append_nil _).symm, List.forall_mem_nil _⟩
    rcases q.deed (s := s) with heq | ⟨r, w, hdeed, h⟩ | ⟨hadmitted, r, w, w', hdeed, h⟩
    · rw [heq]
      exact ⟨.refl, [], (List.append_nil _).symm, List.forall_mem_nil _⟩
    · rw [hq] at hdeed
      obtain ⟨hconfined, hentries⟩ := hdeed.confined fun v a hc ho => by
        by_contra hne
        rw [hc] at hdeed
        obtain rfl := hdeed.of_overrideVeto ho.veto
        exact hnot ⟨hmode, v, a, hq.trans hc, hne, ho, h.free _ List.mem_cons_self⟩
      exact ⟨h.registry ▸ hconfined, w, h.entries, hentries⟩
    · -- Overrides do not stay unrecorded.
      rw [hq] at hdeed
      obtain ⟨hconfined, hentries⟩ := hdeed.confined fun v a hc _ => by
        rw [hq, hc] at hadmitted
        have hbounds : ∀ u ∈ [a.userId.text], 1 ≤ u.length ∧ u.length ≤ 200 :=
          List.forall_mem_singleton.2 a.userId.bounds
        exact absurd hbounds hadmitted
      exact ⟨h.registry ▸ hconfined, w, h.entries, fun y hy =>
        hentries y (List.mem_append_left _ hy)⟩

end Requests

namespace Sales

attribute [local instance] Hashlib.standard Postgres.stable

/-- Bob has vetoed the decision, and ann creates another one. -/
def refunds : List Call :=
  vetoed ++ [.createDecision .dataPromotion "Promote refunds" "" "sales" "ann" none none]

theorem bounds_cleo : 1 ≤ "cleo".length ∧ "cleo".length ≤ 200 := by decide

/-- Cleo overrides bob's veto. -/
def byCleo : Endpoint := .overrideVeto (fresh 4 0).id ⟨⟨"cleo", bounds_cleo⟩⟩

/-- She does so by way of the decision `d`. -/
def overriding (d : UUID) : Request := ⟨byCleo.call d, fresh 6, .transaction⟩

/-- The veto is overridden by way of the other decision. -/
theorem not_ownOnly : ¬∀ (qs : List Request) (d : UUID) (e : Endpoint) (q : Request),
    q.call = e.call d → OwnOnly d (execAll qs .empty) (q.exec (execAll qs .empty)) := by
  intro h
  have hown := h (requests refunds) (fresh 5 0).id byCleo (overriding (fresh 5 0).id) rfl
  have hstatus := congrArg (fun t : Table VetoRecord.id => t.rows.map VetoRecord.status)
    hown.confined.vetoes
  revert hstatus
  decide +kernel

/-- By way of its own decision, the veto is overridden as it should be. -/
theorem ownOnly_overriding : OwnOnly decision (execAll (requests refunds) .empty)
    ((overriding decision).exec (execAll (requests refunds) .empty)) ↔
      ¬OverridesElsewhere decision (overriding decision) (execAll (requests refunds) .empty) :=
  ownOnly_iff (requests refunds) decision byCleo (overriding decision) rfl

end Sales

end OpenDataGov
