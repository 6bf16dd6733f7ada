import OpenDataGov.Governance.Lifecycle

/-!
# Domains

The rows that a domain has in the tables about decisions (`Registry.restrict`): its
decisions, the votes and vetoes on these, and its assignments.

A vote has no domain of its own: it belongs to that of its decision, which stays the same. So
each of the changes of the registry, on a row of the domain, is the same change of its rows, and
on a row of another domain it is none (the `restrict_` lemmas). For a change to be about one
domain only, it must not bring rows to a decision that come from elsewhere: nothing refers to a
decision before there is one (`Registry.Unreferred`).

* `Outcome.restrict_eq`: a call that concerns another domain (`Call.Foreign`) leaves
  the rows of the domain as they were;
* `Query.Local`: the statements about rows of the domain, or about no row at all.
  They are answered by the rows of the domain alone (`answer_of_local`), and what
  they change is changed there (`restrict_effect`).

`Governance.Isolation` compares whole runs by these.
-/

namespace OpenDataGov

open Calendar Keyed VetoService

attribute [ext] Registry

/-- Filtering a value that satisfies the predicate, if there is one. -/
theorem filter_of_forall_mem {α : Type} {p : α → Bool} {o : Option α} (h : ∀ a ∈ o, p a) :
    o.filter p = o := by
  cases o with
  | none => rfl
  | some a => exact Option.filter_some_pos (h a rfl)

/-! ## The rows of a domain -/

namespace Registry

variable (r : Registry) (D : String)

/-- The domain of a decision, if there is the decision. -/
def domainOf (decisionId : UUID) : Option String :=
  (r.decisions.get? decisionId).map fun d => d.domainId.text

/-- The rows of the domain: its decisions, the votes and vetoes on them, and its
    assignments. -/
def restrict : Registry where
  decisions := r.decisions.filter fun d => d.domainId.text = D
  approvals := r.approvals.filter fun x => r.domainOf x.decisionId = some D
  vetoes := r.vetoes.filter fun v => r.domainOf v.decisionId = some D
  assignments := r.assignments.filter fun a => a.domainId.text = D

variable {r D} {r' : Registry} {d : GovernanceDecision} {x : ApprovalRecord} {v : VetoRecord}
  {a : RACIAssignment} {id : UUID}

theorem domainOf_of_get? (h : r.decisions.get? id = some d) :
    r.domainOf id = some d.domainId.text := by
  rw [domainOf, h, Option.map_some]

theorem domainOf_restrict : (r.restrict D).domainOf id = (r.domainOf id).filter fun e => e = D := by
  rw [domainOf, domainOf, restrict, Table.get?_filter, Option.filter_map]
  rfl

/-- The decisions of the domain, and those that are not there, are found among its rows. -/
theorem get?_restrict (h : ∀ e ∈ r.domainOf id, e = D) :
    (r.restrict D).decisions.get? id = r.decisions.get? id := by
  refine Table.get?_filter.trans (filter_of_forall_mem fun d hd => decide_eq_true (h _ ?_))
  exact domainOf_of_get? hd

theorem get?_restrict_of_ne (h : r.domainOf id ≠ some D) :
    (r.restrict D).decisions.get? id = none := by
  rw [← Option.map_eq_none_iff (f := fun d => d.domainId.text)]
  refine domainOf_restrict.trans (Option.filter_eq_none_iff.2 fun e he hD => h ?_)
  rw [Option.mem_def.1 he, of_decide_eq_true hD]

theorem get?_vetoes_restrict_of_ne (h : r.vetoes.get? id = some v)
    (hv : r.domainOf v.decisionId ≠ some D) : (r.restrict D).vetoes.get? id = none := by
  rw [restrict, Table.get?_filter, h]
  exact Option.filter_some_neg (by simpa using hv)

theorem get?_assignments_restrict_of_ne (h : r.assignments.get? id = some a)
    (ha : a.domainId.text ≠ D) : (r.restrict D).assignments.get? id = none := by
  rw [restrict, Table.get?_filter, h]
  exact Option.filter_some_neg (by simpa using ha)

/-- The rows of a domain are all rows of it. -/
theorem restrict_restrict : (r.restrict D).restrict D = r.restrict D := by
  have hfilter : ∀ id, (r.restrict D).domainOf id = some D ↔ r.domainOf id = some D := by
    intro id
    rw [domainOf_restrict, Option.filter_eq_some_iff]
    simp
  refine Registry.ext ?_ ?_ ?_ ?_
  · exact Table.filter_filter.trans (Table.filter_congr fun d _ => Bool.and_self _)
  · refine Table.filter_filter.trans (Table.filter_congr fun x _ => ?_)
    rw [decide_eq_decide.2 (hfilter x.decisionId), Bool.and_self]
  · refine Table.filter_filter.trans (Table.filter_congr fun v _ => ?_)
    rw [decide_eq_decide.2 (hfilter v.decisionId), Bool.and_self]
  · exact Table.filter_filter.trans (Table.filter_congr fun a _ => Bool.and_self _)

/-- The tables have the same rows with the identifier. -/
structure Same (r r' : Registry) (id : UUID) : Prop where
  decisions : r.decisions.get? id = r'.decisions.get? id
  approvals : r.approvals.get? id = r'.approvals.get? id
  vetoes : r.vetoes.get? id = r'.vetoes.get? id
  assignments : r.assignments.get? id = r'.assignments.get? id

/-- This is an equivalence: it holds of the same tables, -/
theorem Same.refl (r : Registry) (id : UUID) : r.Same r id := ⟨rfl, rfl, rfl, rfl⟩

/-- the other way round, -/
theorem Same.symm (h : r.Same r' id) : r'.Same r id where
  decisions := h.decisions.symm
  approvals := h.approvals.symm
  vetoes := h.vetoes.symm
  assignments := h.assignments.symm

/-- and in more than one step. -/
theorem Same.trans {r'' : Registry} (h : r.Same r' id) (h' : r'.Same r'' id) : r.Same r'' id where
  decisions := h.decisions.trans h'.decisions
  approvals := h.approvals.trans h'.approvals
  vetoes := h.vetoes.trans h'.vetoes
  assignments := h.assignments.trans h'.assignments

/-! ### Changes of the tables -/

/-- No vote and no veto refers to the decision. -/
def Unreferred (r : Registry) (id : UUID) : Prop :=
  (∀ x ∈ r.approvals.rows, x.decisionId ≠ id) ∧ ∀ v ∈ r.vetoes.rows, v.decisionId ≠ id

/-- Nothing refers to a decision that is not there. -/
theorem Sound.unreferred (hs : r.Sound) (h : r.decisions.get? id = none) : r.Unreferred id := by
  constructor
  · rintro x hx rfl
    obtain ⟨d, hd⟩ := hs.referred x hx
    cases h.symm.trans hd
  · rintro v hv rfl
    obtain ⟨_, d, hd, _⟩ := hs.vetoes v hv
    cases h.symm.trans hd

/-- A decision that is marked stays in its domain, -/
theorem domainOf_mark {id' : UUID} {status : DecisionStatus} {t : DateTime}
    {md : Json.Dict Json.Scalar} : (r.mark id' status t md).domainOf id = r.domainOf id := by
  rw [domainOf, domainOf, decisions_mark]
  by_cases h : id = id'
  · rw [h, Table.get?_modify_self, Option.map_map]
    rfl
  · rw [Table.get?_modify_of_ne h]

/-- and so do the others when one is created. -/
theorem domainOf_withDecision (h : id ≠ d.id) :
    (r.withDecision d).domainOf id = r.domainOf id := by
  rw [domainOf, domainOf, withDecision, Table.get?_insert_of_ne h.symm]

/-- The rows of a domain are marked with the others. -/
theorem restrict_mark {status : DecisionStatus} {t : DateTime} {md : Json.Dict Json.Scalar} :
    (r.mark id status t md).restrict D = (r.restrict D).mark id status t md := by
  have hdecisions : ((r.mark id status t md).restrict D).decisions =
      ((r.restrict D).mark id status t md).decisions :=
    Table.filter_modify (GovernanceDecision.id_set status t md) fun _ => rfl
  refine Registry.ext hdecisions ?_ ?_ rfl
  · exact Table.filter_congr fun x _ => by rw [domainOf_mark]
  · exact Table.filter_congr fun v _ => by rw [domainOf_mark]

/-- A decision of another domain is not among the rows of the domain. -/
theorem restrict_mark_of_ne {status : DecisionStatus} {t : DateTime} {md : Json.Dict Json.Scalar}
    (h : r.domainOf id ≠ some D) : (r.mark id status t md).restrict D = r.restrict D := by
  have hmark := Table.modify_eq_self (GovernanceDecision.id_set status t md)
    (get?_restrict_of_ne h)
  exact restrict_mark.trans (Registry.ext hmark rfl rfl rfl)

theorem restrict_override {u : String} {o : Option DateTime} :
    (r.override id u o).restrict D = (r.restrict D).override id u o :=
  Registry.ext rfl rfl
    (Table.filter_modify (VetoRecord.id_set .overridden (some u) o) fun _ => rfl) rfl

theorem restrict_override_of_ne {u : String} {o : Option DateTime} (h : r.vetoes.get? id = some v)
    (hv : r.domainOf v.decisionId ≠ some D) : (r.override id u o).restrict D = r.restrict D := by
  have hvetoes := Table.modify_eq_self (VetoRecord.id_set .overridden (some u) o)
    (get?_vetoes_restrict_of_ne h hv)
  exact restrict_override.trans (Registry.ext rfl rfl hvetoes rfl)

theorem restrict_revoke : (r.revoke id).restrict D = (r.restrict D).revoke id :=
  Registry.ext rfl rfl rfl Table.filter_erase

theorem restrict_revoke_of_ne (h : r.assignments.get? id = some a) (ha : a.domainId.text ≠ D) :
    (r.revoke id).restrict D = r.restrict D := by
  have hrevoke := Table.erase_eq_self (get?_assignments_restrict_of_ne h ha)
  exact restrict_revoke.trans (Registry.ext rfl rfl rfl hrevoke)

/-- A new decision does not change the domains of the others. -/
theorem restrict_withDecision_eq (h : r.Unreferred d.id) : (r.withDecision d).restrict D =
    { r.restrict D with
      decisions := (r.decisions.insert d).filter fun d => d.domainId.text = D } := by
  refine Registry.ext rfl ?_ ?_ rfl
  · exact Table.filter_congr fun x hx => by rw [domainOf_withDecision (h.1 x hx)]
  · exact Table.filter_congr fun v hv => by rw [domainOf_withDecision (h.2 v hv)]

theorem restrict_withDecision (h : r.Unreferred d.id) (hfresh : r.decisions.get? d.id = none)
    (hd : d.domainId.text = D) :
    (r.withDecision d).restrict D = (r.restrict D).withDecision d := by
  have hdecisions : (r.decisions.insert d).filter (fun d => d.domainId.text = D) =
      ((r.restrict D).withDecision d).decisions :=
    Table.filter_insert (decide_eq_true hd) hfresh
  exact (restrict_withDecision_eq h).trans (Registry.ext hdecisions rfl rfl rfl)

theorem restrict_withDecision_of_ne (h : r.Unreferred d.id) (hd : d.domainId.text ≠ D) :
    (r.withDecision d).restrict D = r.restrict D := by
  have hdecisions : (r.decisions.insert d).filter (fun d => d.domainId.text = D) =
      (r.restrict D).decisions := Table.filter_insert_of_not fun h => hd (of_decide_eq_true h)
  exact (restrict_withDecision_eq h).trans (Registry.ext hdecisions rfl rfl rfl)

theorem restrict_withVote (hfresh : r.approvals.get? x.id = none)
    (hx : r.domainOf x.decisionId = some D) :
    (r.withVote x).restrict D = (r.restrict D).withVote x :=
  Registry.ext rfl (Table.filter_insert (decide_eq_true hx) hfresh) rfl rfl

theorem restrict_withVote_of_ne (hx : r.domainOf x.decisionId ≠ some D) :
    (r.withVote x).restrict D = r.restrict D :=
  Registry.ext rfl (Table.filter_insert_of_not fun h => hx (of_decide_eq_true h)) rfl rfl

theorem restrict_withVeto (hfresh : r.vetoes.get? v.id = none)
    (hv : r.domainOf v.decisionId = some D) :
    (r.withVeto v).restrict D = (r.restrict D).withVeto v :=
  Registry.ext rfl rfl (Table.filter_insert (decide_eq_true hv) hfresh) rfl

theorem restrict_withVeto_of_ne (hv : r.domainOf v.decisionId ≠ some D) :
    (r.withVeto v).restrict D = r.restrict D :=
  Registry.ext rfl rfl (Table.filter_insert_of_not fun h => hv (of_decide_eq_true h)) rfl

theorem restrict_withAssignment (hfresh : r.assignments.get? a.id = none)
    (ha : a.domainId.text = D) :
    (r.withAssignment a).restrict D = (r.restrict D).withAssignment a :=
  Registry.ext rfl rfl rfl (Table.filter_insert (decide_eq_true ha) hfresh)

theorem restrict_withAssignment_of_ne (ha : a.domainId.text ≠ D) :
    (r.withAssignment a).restrict D = r.restrict D :=
  Registry.ext rfl rfl rfl (Table.filter_insert_of_not fun h => ha (of_decide_eq_true h))

end Registry

/-! ## Calls -/

/-- The domain that a call concerns: that of its arguments, or of the decision, the
    veto or the assignment that it is about, if there is one. -/
def Call.domain (r : Registry) : Call → Option String
  | .createDecision _ _ _ domainId _ _ _ => some domainId
  | .submitForApproval decisionId _ => r.domainOf decisionId
  | .castVote decisionId _ _ _ => r.domainOf decisionId
  | .exerciseVeto decisionId _ _ => r.domainOf decisionId
  | .overrideVeto vetoId _ => (r.vetoes.get? vetoId).bind fun v => r.domainOf v.decisionId
  | .assignRole _ domainId _ _ => some domainId
  | .revokeRole assignmentId _ =>
    (r.assignments.get? assignmentId).map fun a => a.domainId.text

/-- The call concerns another domain. -/
def Call.Foreign (D : String) (r : Registry) (c : Call) : Prop := ∃ e ∈ c.domain r, e ≠ D

instance {D : String} {r : Registry} {c : Call} : Decidable (c.Foreign D r) :=
  inferInstanceAs (Decidable (∃ e ∈ c.domain r, _))

section Calls

variable {r r' : Registry} {D : String} {c : Call}

/-- A call about another domain is about no row of this one. -/
theorem Call.Foreign.ne {e : String} (h : c.Foreign D r) (he : c.domain r = some e) : e ≠ D := by
  obtain ⟨e', hmem, hne⟩ := h
  rwa [← Option.some.inj (hmem.symm.trans he)]

/-- A call that concerns another domain leaves the rows of the domain. -/
theorem Outcome.restrict_eq {fresh : ℕ → Stamp} (h : Outcome r fresh c r') (hs : r.Sound)
    (hc : c.Foreign D r) : r'.restrict D = r.restrict D := by
  -- What is voted on or vetoed is a decision of another domain.
  have hother : ∀ {id d}, r.decisions.get? id = some d → c.domain r = r.domainOf id →
      r.domainOf id ≠ some D := by
    intro id d hd hdomain he
    exact hc.ne (hdomain.trans he) rfl
  have hcast : ∀ {d x status t md}, Ballot r d x → c.domain r = r.domainOf x.decisionId →
      ((r.withVote x).mark x.decisionId status t md).restrict D = r.restrict D := by
    intro d x status t md hb hdomain
    have hne := hother hb.decision hdomain
    rw [Registry.restrict_mark_of_ne (r := r.withVote x) hne, Registry.restrict_withVote_of_ne hne]
  cases h with
  | refused => rfl
  | created _ _ hfresh =>
    exact Registry.restrict_withDecision_of_ne (hs.unreferred hfresh) (hc.ne rfl)
  | submitted hd => exact Registry.restrict_mark_of_ne (hother hd rfl)
  | voted hb => exact Registry.restrict_withVote_of_ne (hother hb.decision rfl)
  | rejected hb => exact hcast hb rfl
  | approved hb => exact hcast hb rfl
  | @vetoed d v t ho =>
    have hne := hother ho.decision rfl
    rw [Registry.restrict_mark_of_ne (r := r.withVeto v) hne, Registry.restrict_withVeto_of_ne hne]
  | overridden ho =>
    refine Registry.restrict_override_of_ne ho.veto ?_
    obtain ⟨d, hd, _⟩ := ho.decision
    exact hother hd (by rw [Call.domain, ho.veto, Option.bind_some])
  | assigned => exact Registry.restrict_withAssignment_of_ne (hc.ne rfl)
  | revoked ha =>
    exact Registry.restrict_revoke_of_ne ha (hc.ne (by rw [Call.domain, ha, Option.map_some]))

/-- It also leaves all rows with an identifier that no row of another domain has, and that
    it is not given. -/
theorem Deed.same {fresh : ℕ → Stamp} {w : List Entry} {id : UUID} (h : Deed r fresh c r' w)
    (hc : c.Foreign D r) (hid : ∀ n < 4, (fresh n).id ≠ id) (hr : (r.restrict D).Same r id) :
    r'.Same r id := by
  have hnew : ∀ {id' : UUID}, id' = (fresh 0).id → id' ≠ id := fun e => e ▸ hid 0 (by decide)
  -- The row changed is one of another domain.
  have hmark : ∀ {r₁ : Registry} {id' d status t md}, r₁.Same r id → r.decisions.get? id' = some d →
      c.domain r = r.domainOf id' → (r₁.mark id' status t md).Same r id := by
    intro r₁ id' d status t md h₁ hd hdomain
    have hne : id ≠ id' := by
      rintro rfl
      have hnone := Registry.get?_restrict_of_ne (D := D) fun he => hc.ne (hdomain.trans he) rfl
      cases hd.symm.trans (hr.decisions.symm.trans hnone)
    exact { h₁ with decisions := by rw [decisions_mark, Table.get?_modify_of_ne hne, h₁.decisions] }
  have hvote : ∀ {x : ApprovalRecord}, x.id = (fresh 0).id → (r.withVote x).Same r id := fun hx =>
    { Registry.Same.refl r id with approvals := Table.get?_insert_of_ne (hnew hx) }
  cases h with
  | created _ hd =>
    exact { Registry.Same.refl r id with decisions := Table.get?_insert_of_ne (hnew hd) }
  | submitted hd => exact hmark (.refl r id) hd rfl
  | voted _ hx => exact hvote hx
  | rejected hb hx => exact hmark (hvote hx) hb.decision rfl
  | approved hb hx => exact hmark (hvote hx) hb.decision rfl
  | @vetoed d v t ho hv =>
    have hveto : (r.withVeto v).Same r id :=
      { Registry.Same.refl r id with vetoes := Table.get?_insert_of_ne (hnew hv) }
    exact hmark hveto ho.decision rfl
  | @overridden v a ho =>
    have hne : id ≠ v.id := by
      rintro rfl
      obtain ⟨d, hd, _⟩ := ho.decision
      have hnone := Registry.get?_vetoes_restrict_of_ne (D := D) ho.veto fun he =>
        hc.ne (by rw [Call.domain, ho.veto, Option.bind_some, he]) rfl
      cases ho.veto.symm.trans (hr.vetoes.symm.trans hnone)
    exact { Registry.Same.refl r id with
      vetoes := by rw [Registry.override, Table.get?_modify_of_ne hne] }
  | assigned _ ha =>
    exact { Registry.Same.refl r id with assignments := Table.get?_insert_of_ne (hnew ha) }
  | @revoked a _ ha =>
    have hne : id ≠ a.id := by
      rintro rfl
      have hnone := Registry.get?_assignments_restrict_of_ne ha
        (hc.ne (by rw [Call.domain, ha, Option.map_some]))
      cases ha.symm.trans (hr.assignments.symm.trans hnone)
    exact { Registry.Same.refl r id with assignments := Table.get?_erase_of_ne hne }

end Calls

/-! ## Statements -/

/-- The statement is about rows of the domain, or about no row. What is inserted has an
    identifier that rows of other domains do not have. -/
def Query.Local (D : String) (r : Registry) : Query → Prop
  | .getDecision id => ∀ e ∈ r.domainOf id, e = D
  | .insertDecision d => d.domainId.text = D ∧ (r.restrict D).Same r d.id ∧
    (r.decisions.get? d.id = none → r.Unreferred d.id)
  | .insertVote x => r.domainOf x.decisionId = some D ∧ (r.restrict D).Same r x.id
  | .selectVote decisionId _ => r.domainOf decisionId = some D
  | .selectVotes decisionId => r.domainOf decisionId = some D
  | .insertVeto v => r.domainOf v.decisionId = some D ∧ (r.restrict D).Same r v.id
  | .getVeto id => ∀ v ∈ r.vetoes.get? id, r.domainOf v.decisionId = some D
  | .insertAssignment a => a.domainId.text = D ∧ (r.restrict D).Same r a.id
  | .getAssignment id => ∀ a ∈ r.assignments.get? id, a.domainId.text = D
  | .selectAssignment _ domainId => domainId = D
  | .selectDomain domainId => domainId = D
  -- These change what they are about, and answer nothing.
  | .updateDecision .. | .updateVeto .. | .deleteAssignment _ => True
  -- The trail is that of all domains.
  | .insertEvent _ | .lastHash | .selectChain _ => False

section Statements

variable {D : String} {s s' : Store} {q : Query}

/-- The statements in question record no events. -/
theorem Query.Local.events_effect {r : Registry} (h : q.Local D r) :
    (effect q s).events = s.events := by
  cases q with
  | insertEvent => exact h.elim
  | _ => rfl

/-- Selecting among rows selected before. -/
theorem filter_filter_of_imp {α : Type} {p p' : α → Bool} {l : List α}
    (h : ∀ a ∈ l, p a → p' a) : (l.filter p').filter p = l.filter p := by
  rw [List.filter_filter]
  refine List.filter_congr fun a ha => ?_
  cases hp : p a with
  | false => rfl
  | true => exact h a ha hp

/-- The outcome of an insertion depends on whether the identifier is taken. -/
theorem inserted_congr_iff {ρ : Type} {key : ρ → UUID} {name : String} {t t' : Table key}
    {r r' : ρ} (h : t.get? (key r) = none ↔ t'.get? (key r') = none) :
    inserted name t r = inserted name t' r' := by
  rw [inserted, inserted]
  cases hr : t.get? (key r) with
  | none => rw [h.1 hr]
  | some x =>
    cases hr' : t'.get? (key r') with
    | none => cases hr.symm.trans (h.2 hr')
    | some x' => rfl

/-- Whether a row can be inserted depends on the row with its key only. -/
theorem inserted_congr {ρ : Type} {key : ρ → UUID} {name : String} {t t' : Table key} {r : ρ}
    (h : t.get? (key r) = t'.get? (key r)) : inserted name t r = inserted name t' r :=
  inserted_congr_iff (by rw [h])

/-- The rows of the domain answer a statement about them as all rows do. -/
theorem answer_of_local [Postgres] (h : s'.toRegistry = s.restrict D)
    (hq : q.Local D s.toRegistry) : answer q s' = answer q s := by
  have hd : s'.decisions = (s.restrict D).decisions := congrArg Registry.decisions h
  have ha : s'.approvals = (s.restrict D).approvals := congrArg Registry.approvals h
  have hv : s'.vetoes = (s.restrict D).vetoes := congrArg Registry.vetoes h
  have hs : s'.assignments = (s.restrict D).assignments := congrArg Registry.assignments h
  -- A decision of the domain is in both tables.
  have hget : ∀ {id}, s.domainOf id = some D →
      (s.restrict D).decisions.get? id = s.decisions.get? id := fun hid =>
    Registry.get?_restrict fun e he => Option.mem_unique he hid
  cases q with
  | getDecision id =>
    rw [answer, answer, hd]
    exact congrArg Except.ok (Registry.get?_restrict hq)
  | insertDecision d =>
    rw [answer, answer, hd]
    exact inserted_congr hq.2.1.decisions
  | insertVote x =>
    rw [answer, answer, ha, inserted_congr hq.2.approvals, Store.refers, Store.refers, hd,
      hget hq.1]
  | selectVote decisionId voterId =>
    rw [answer, answer, ha]
    refine congrArg scalarOneOrNone (filter_filter_of_imp fun x _ hx => ?_)
    exact decide_eq_true ((of_decide_eq_true hx).1 ▸ hq)
  | selectVotes decisionId =>
    rw [answer, answer, ha]
    refine congrArg (fun rows => Except.ok (orderBy _ rows)) (filter_filter_of_imp fun x _ hx => ?_)
    exact decide_eq_true (of_decide_eq_true hx ▸ hq)
  | insertVeto v =>
    rw [answer, answer, hv, inserted_congr hq.2.vetoes, Store.refers, Store.refers, hd,
      hget hq.1]
  | getVeto id =>
    rw [answer, answer, hv]
    exact congrArg Except.ok (Table.get?_filter.trans
      (filter_of_forall_mem fun v hmem => decide_eq_true (hq v hmem)))
  | insertAssignment a =>
    -- The index on users and domains has the entries of the domain.
    have hindex : s'.assignments.rows.any (fun b => b.userId = a.userId ∧ b.domainId = a.domainId) =
        s.assignments.rows.any fun b => b.userId = a.userId ∧ b.domainId = a.domainId := by
      rw [hs, Registry.restrict, Table.rows_filter, List.any_filter]
      congr 1
      funext b
      rw [← Bool.decide_and, decide_eq_decide]
      exact and_iff_right_of_imp fun hb => hb.2 ▸ hq.1
    rw [answer, answer, Store.insertedAssignment, Store.insertedAssignment, hindex, hs,
      inserted_congr hq.2.assignments]
  | getAssignment id =>
    rw [answer, answer, hs]
    exact congrArg Except.ok (Table.get?_filter.trans
      (filter_of_forall_mem fun a hmem => decide_eq_true (hq a hmem)))
  | selectAssignment userId domainId =>
    rw [answer, answer, hs]
    refine congrArg scalarOneOrNone (filter_filter_of_imp fun a _ hmem => ?_)
    exact decide_eq_true ((of_decide_eq_true hmem).2.trans hq)
  -- The rows that are selected are rows of the domain, so that selecting them from its rows is the
  -- same.
  | selectDomain domainId =>
    rw [answer, answer, hs]
    refine congrArg Except.ok (filter_filter_of_imp fun a _ hmem => ?_)
    exact decide_eq_true ((of_decide_eq_true hmem).trans hq)
  -- Updates are answered whatever there is.
  | updateDecision | updateVeto | deleteAssignment => rfl
  | insertEvent | lastHash | selectChain => exact hq.elim

/-- A statement about rows of the domain changes the rows of the domain as it changes
    all rows. -/
theorem restrict_effect [Postgres] {a : q.Answer} (h : s'.toRegistry = s.restrict D)
    (hq : q.Local D s.toRegistry) (hok : answer q s = .ok a) :
    (effect q s').toRegistry = (effect q s).restrict D := by
  -- A row that is added or changed belongs to the domain, or is left out on both sides.
  cases q with
  | insertDecision d =>
    have hfresh := inserted_eq_ok.1 hok
    exact (congrArg (·.withDecision d) h).trans
      (Registry.restrict_withDecision (hq.2.2 hfresh) hfresh hq.1).symm
  | updateDecision id status updatedAt metadata =>
    exact (congrArg (·.mark id status updatedAt metadata) h).trans Registry.restrict_mark.symm
  | insertVote x =>
    have hfresh := inserted_eq_ok.1 (refers_eq_ok.1 hok).2
    exact (congrArg (·.withVote x) h).trans (Registry.restrict_withVote hfresh hq.1).symm
  | insertVeto v =>
    have hfresh := inserted_eq_ok.1 (refers_eq_ok.1 hok).2
    exact (congrArg (·.withVeto v) h).trans (Registry.restrict_withVeto hfresh hq.1).symm
  | updateVeto id status u o =>
    have hid := VetoRecord.id_set status u o
    have hvetoes : (effect (.updateVeto id status u o) s').vetoes =
        ((effect (.updateVeto id status u o) s).restrict D).vetoes :=
      (congrArg (fun r => r.vetoes.modify id (.set status u o) hid) h).trans
        (Table.filter_modify hid fun _ => rfl).symm
    have hd : s'.decisions = (s.restrict D).decisions := congrArg Registry.decisions h
    have ha : s'.approvals = (s.restrict D).approvals := congrArg Registry.approvals h
    have hs : s'.assignments = (s.restrict D).assignments := congrArg Registry.assignments h
    exact Registry.ext hd ha hvetoes hs
  | insertAssignment b =>
    have hfresh := (insertedAssignment_eq_ok.1 hok).2
    exact (congrArg (·.withAssignment b) h).trans
      (Registry.restrict_withAssignment hfresh hq.1).symm
  | deleteAssignment id => exact (congrArg (·.revoke id) h).trans Registry.restrict_revoke.symm
  | insertEvent | lastHash | selectChain => exact hq.elim
  | getDecision | selectVote | selectVotes | getVeto | getAssignment | selectAssignment
  | selectDomain => exact h

/-- Rows that were the same remain so. -/
theorem same_effect {id : UUID} (h : s.Same s'.toRegistry id) :
    (effect q s).Same (effect q s').toRegistry id := by
  cases q with
  | insertDecision => exact { h with decisions := Table.get?_insert_congr h.decisions }
  | updateDecision _ status t md =>
    have hid := GovernanceDecision.id_set status t md
    exact { h with decisions := Table.get?_modify_congr hid h.decisions }
  | insertVote => exact { h with approvals := Table.get?_insert_congr h.approvals }
  | insertVeto => exact { h with vetoes := Table.get?_insert_congr h.vetoes }
  | updateVeto _ status u o =>
    have hid := VetoRecord.id_set status u o
    exact { h with vetoes := Table.get?_modify_congr hid h.vetoes }
  | insertAssignment => exact { h with assignments := Table.get?_insert_congr h.assignments }
  | deleteAssignment => exact { h with assignments := Table.get?_erase_congr h.assignments }
  | _ => exact h

end Statements

end OpenDataGov
