import OpenDataGov.Governance.Lifecycle

/-!
# Vetoes in force

A veto is in force from when it is exercised until its bound, unless it is
overridden. The status of the decision says nothing of either: a decision that is
vetoed stays so.

The bound (`expiresAt`) is computed when the veto is exercised, and never read again; overriding a
veto changes the record of the veto, and not its decision. So whether vetoed decisions are under a
veto in force is a question about the run: which vetoes have been overridden in it, and how long
ago the others were exercised (`Spares`).

* `inForce_of_spares`: the vetoed decisions are under a veto in force as long as no
  veto is overridden, at any time that is not after the bound of one;
* `Sales.not_inForce`: a decision whose veto has been overridden is still vetoed.

What is carried through the run is that all vetoes are active and in time (`AllActive`), besides the
evidence that a vetoed decision has a veto (`Inv`, in `Governance.Lifecycle`).
-/

namespace OpenDataGov

open Calendar Keyed

/-- At the time `t`, the vetoed decisions are under an active veto, whose bound has not
    passed. -/
def InForce (t : DateTime) (r : Registry) : Prop :=
  ∀ d ∈ r.decisions.rows, d.status = .vetoed → ∃ v ∈ r.vetoes.rows, v.decisionId = d.id ∧
    v.status = .active ∧ ∃ e, v.expiresAt = some e ∧ t.instant ≤ e.instant

/-- A veto in force has not expired. -/
theorem InForce.not_isExpired {t : DateTime} {r : Registry} (h : InForce t r)
    {d : GovernanceDecision} (hd : d ∈ r.decisions.rows) (hvetoed : d.status = .vetoed) :
    ∃ v ∈ r.vetoes.rows, v.decisionId = d.id ∧ v.status = .active ∧ ¬v.IsExpired t := by
  obtain ⟨v, hv, hid, hactive, e, he, hle⟩ := h d hd hvetoed
  refine ⟨v, hv, hid, hactive, fun ⟨_, e', he', hlt⟩ => ?_⟩
  cases he.symm.trans he'
  exact hlt.not_ge hle

/-- The request does not override a veto, nor exercise one whose bound is before the
    time `t`. -/
structure Spares (t : DateTime) (r : Registry) (q : Request) : Prop where
  override : ∀ v a, q.mode ≠ .abandoned → q.call = .overrideVeto v.id a.userId.text →
    ¬Override r v a
  exercise : ∀ d v, q.mode ≠ .abandoned →
    q.call = .exerciseVeto v.decisionId v.vetoedBy.text v.reason.1 →
    v.vetoedAt = (q.fresh 0).now → Objection r d v →
    t.instant ≤ (v.computeExpiry (d.decisionType = .emergency)).instant

/-- All vetoes are active, and their bounds are not before the time `t`. -/
def AllActive (t : DateTime) (r : Registry) : Prop :=
  ∀ v ∈ r.vetoes.rows, v.status = .active ∧ ∃ e, v.expiresAt = some e ∧ t.instant ≤ e.instant

variable {t : DateTime} {r : Registry} {q : Request}

/-- A vetoed decision is under a veto. -/
theorem AllActive.inForce (h : AllActive t r) (hi : Inv r) : InForce t r := by
  intro d hd hvetoed
  obtain ⟨v, hv, hid⟩ := (hvetoed ▸ hi.evidence d hd).exists_veto
  exact ⟨v, hv, hid, h v hv⟩

/-- The calls about vetoes. -/
def Call.aboutVetoes : Call → Bool
  | .exerciseVeto .. | .overrideVeto .. => true
  | _ => false

/-- What is no call about vetoes spares them. -/
theorem spares_of_not_aboutVetoes (h : q.call.aboutVetoes = false) : Spares t r q where
  override v a _ hc := by
    rw [hc] at h
    cases h
  exercise d v _ hc := by
    rw [hc] at h
    cases h

section InForce

variable [Hashlib] [Postgres] {s : Store} {qs : List Request}

/-- A request that spares the vetoes keeps them active. -/
theorem AllActive.exec (h : AllActive t s.toRegistry) (hq : Spares t s.toRegistry q) :
    AllActive t (q.exec s).toRegistry := by
  by_cases hmode : q.mode = .abandoned
  · rwa [exec_abandoned hmode]
  have ho := q.outcome (s := s)
  generalize (q.exec s).toRegistry = r', hc : q.call = c at ho ⊢
  cases ho with
  | refused | created | submitted | voted | rejected | approved | assigned | revoked => exact h
  | @vetoed d v _ hv hnow =>
    intro w hw
    rcases (mem_withVeto hv.fresh).1 hw with hw | rfl
    · exact h w hw
    · exact ⟨hv.active, _, hv.expires, hq.exercise d w hmode hc hnow hv⟩
  | @overridden v a hv => exact absurd hv (hq.override v a hmode hc)

/-- In every run that overrides no veto, and at any time not after the bounds of the
    vetoes exercised in it, the vetoed decisions are under a veto in force. -/
theorem inForce_of_spares (h : Along (fun s q => Spares t s.toRegistry q) qs .empty) :
    InForce t (execAll qs .empty).toRegistry := by
  have hactive : AllActive t (execAll qs .empty).toRegistry :=
    Along.run (I := fun s => AllActive t s.toRegistry) h (fun _ hv => absurd hv List.not_mem_nil)
      fun _ _ hq hi => hi.exec hq
  exact hactive.inForce (inv_execAll qs)

end InForce

namespace Sales

attribute [local instance] Hashlib.standard Postgres.stable

/-- Bob vetoes the decision. -/
def vetoed : List Call :=
  submitted [("bob", .responsible), ("cleo", .accountable)] ++
    [.exerciseVeto decision "bob" "Incomplete"]

/-- An hour after the veto. -/
def hourAfter : DateTime := (fresh 4 0).now.add hour

/-- An hour after the veto, it is in force. -/
theorem inForce_vetoed : InForce hourAfter (execAll (requests vetoed) .empty).toRegistry := by
  have hbound : ∀ (d : GovernanceDecision) (v : VetoRecord), v.vetoedAt = (fresh 4 0).now →
      hourAfter.instant ≤ (v.computeExpiry (d.decisionType = .emergency)).instant := by
    intro d v hnow
    rw [VetoRecord.computeExpiry, hnow, hourAfter, DateTime.instant_add, DateTime.instant_add,
      vetoTimeout]
    split_ifs <;> simp [hour]
  refine inForce_of_spares (Along.of_forall ?_)
  simp only [requests, vetoed, submitted, List.map_cons, List.map_nil, List.cons_append,
    List.nil_append, List.zipIdx_cons, List.zipIdx_nil, List.forall_mem_cons]
  have hother : ∀ q : Request, q.call.aboutVetoes = false → ∀ s : Store,
      Spares hourAfter s.toRegistry q := fun _ h _ => spares_of_not_aboutVetoes h
  refine ⟨hother _ rfl, hother _ rfl, hother _ rfl, hother _ rfl, fun s => ?_,
    List.forall_mem_nil _⟩
  exact ⟨fun _ _ _ hc => Call.noConfusion hc, fun d v _ _ hnow _ => hbound d v hnow⟩

/-- Cleo overrides Bob's veto. -/
def overridden : List Call :=
  vetoed ++ [.overrideVeto (fresh 4 0).id "cleo"]

/-- The veto is overridden, and the decision is vetoed all the same. -/
theorem not_inForce : ¬∀ (t : DateTime) (qs : List Request),
    InForce t (execAll qs .empty).toRegistry := by
  intro h
  set s := execAll (requests overridden) .empty with hs
  have hvetoed : s.decisions.rows.map GovernanceDecision.status = [.vetoed] := by
    rw [hs]
    decide +kernel
  have hnone : ∀ v ∈ s.vetoes.rows, v.status ≠ .active := by
    rw [hs]
    decide +kernel
  obtain ⟨d, hrows, hd⟩ := List.map_eq_singleton_iff.1 hvetoed
  obtain ⟨v, hv, _, hactive, _⟩ := h (fresh 5 0).now (requests overridden) d
    (hrows ▸ List.mem_singleton_self d) hd
  exact hnone v hv hactive

end Sales

end OpenDataGov
