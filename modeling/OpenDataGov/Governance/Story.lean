import OpenDataGov.Governance.Finalization
import OpenDataGov.Governance.Routes

/-!
# What a veto record tells

A veto record has a status, and says who has overridden the veto and when. It tells its story
(`TellsStory`) if these agree, and the veto has been overridden before its bound.

The repository inserts a veto without either, and `override_veto` sets the status and the user and
leaves the time as it was. So the time is never there, in no run (`Untimed`), and a record of a
veto that has been overridden cannot tell its story. Vetoes that are overridden stay so
(`SomeOverridden`), which gives both directions of the result.

* `untimed_execAll`: in all runs, a veto record says who has overridden it as its status
  does, but never when;
* `noneOverridden_iff`: all vetoes are active exactly if none has been overridden in the run;
* `wholeStories_iff`: so all veto records tell their stories exactly if no veto has been
  overridden in the run (`OverridesVeto`);
* `Sales.not_wholeStories`: a veto that is overridden does not say when.
-/

namespace OpenDataGov

open Transact Program Keyed VetoService

/-- The veto record tells its story: it is active if nobody has overridden it, and
    overridden if someone has, at a time from the veto until its bound. -/
structure TellsStory (v : VetoRecord) : Prop where
  active : v.status = .active ↔ v.overriddenBy = none ∧ v.overriddenAt = none
  overridden : v.status = .overridden ↔ v.overriddenBy ≠ none ∧ v.overriddenAt ≠ none
  inTime : v.status = .overridden → ∃ t e, v.overriddenAt = some t ∧ v.expiresAt = some e ∧
    v.vetoedAt.instant ≤ t.instant ∧ t.instant ≤ e.instant

/-- All veto records tell their stories. -/
def WholeStories (r : Registry) : Prop := ∀ v ∈ r.vetoes.rows, TellsStory v

/-- The veto record has been overridden by someone just if its status says so, and does not
    say when. -/
structure Untimed (v : VetoRecord) : Prop where
  status : v.status = .active ∧ v.overriddenBy = none ∨
    v.status = .overridden ∧ v.overriddenBy ≠ none
  untimed : v.overriddenAt = none

variable {v : VetoRecord} {r r' : Registry}

/-- So it tells its story only while it is active. -/
theorem Untimed.tellsStory_iff (h : Untimed v) : TellsStory v ↔ v.status = .active := by
  constructor
  · intro htold
    rcases h.status with ⟨hactive, -⟩ | ⟨hoverridden, -⟩
    · exact hactive
    · exact absurd h.untimed (htold.overridden.1 hoverridden).2
  · intro hactive
    have hby : v.overriddenBy = none := by
      rcases h.status with ⟨-, hby⟩ | ⟨hoverridden, -⟩
      · exact hby
      · cases hactive.symm.trans hoverridden
    refine ⟨iff_of_true hactive ⟨hby, h.untimed⟩, iff_of_false ?_ fun h' => h'.1 hby, ?_⟩
    · rw [hactive]
      decide
    · rw [hactive]
      exact fun h' => VetoStatus.noConfusion h'

/-- The statements that insert only vetoes that nobody has overridden, and change none. -/
def Query.Untold : Query → Prop
  | .insertVeto v => Untimed v
  | .updateVeto .. => False
  | _ => True

/-- All veto records are untimed. -/
def AllUntimed (r : Registry) : Prop := ∀ v ∈ r.vetoes.rows, Untimed v

/-- Such a statement keeps all vetoes untimed. -/
theorem Query.Untold.effect {query : Query} {s : Store} (hq : query.Untold)
    (h : AllUntimed s.toRegistry) : AllUntimed (OpenDataGov.effect query s).toRegistry := by
  cases query with
  | insertVeto v =>
    intro w hw
    rcases Table.mem_of_mem_insert hw with hw | rfl
    · exact h w hw
    · exact hq
  | updateVeto => exact hq.elim
  | _ => exact h

/-- Overriding a veto leaves open when. -/
theorem AllUntimed.override (h : AllUntimed r) (hv : r.vetoes.get? v.id = some v) (u : String) :
    AllUntimed (r.override v.id u v.overriddenAt) := by
  intro w hw
  obtain ⟨w', hw', rfl⟩ := List.mem_map.1 hw
  split_ifs
  · exact ⟨.inr ⟨rfl, Option.some_ne_none u⟩, (h v (Table.mem_of_get? hv)).untimed⟩
  · exact h w' hw'

/-- An overridden veto stays so. -/
def SomeOverridden (r : Registry) : Prop := ∃ v ∈ r.vetoes.rows, v.status = .overridden

/-- Whatever a call does, an overridden veto stays so. -/
theorem SomeOverridden.outcome {fresh : ℕ → Stamp} {c : Call} (h : SomeOverridden r)
    (ho : Outcome r fresh c r') : SomeOverridden r' := by
  obtain ⟨v, hv, hoverridden⟩ := h
  cases ho with
  | refused | created | submitted | voted | rejected | approved | assigned | revoked =>
    exact ⟨v, hv, hoverridden⟩
  | vetoed => exact ⟨v, Table.mem_insert_of_mem hv, hoverridden⟩
  | overridden =>
    refine ⟨_, List.mem_map_of_mem hv, ?_⟩
    split_ifs
    · rfl
    · exact hoverridden

/-- Overriding a veto leaves one. -/
theorem someOverridden_override {u : String} {o : Option Calendar.DateTime}
    (hv : r.vetoes.get? v.id = some v) : SomeOverridden (r.override v.id u o) := by
  refine ⟨_, List.mem_map_of_mem (Table.mem_of_get? hv), ?_⟩
  rw [if_pos rfl]
  rfl

section Runs

variable [Hashlib] [Postgres] {s : Store} {q : Request} {qs : List Request}

/-- A request keeps all vetoes untimed, an override as well. -/
theorem AllUntimed.exec (h : AllUntimed s.toRegistry) : AllUntimed (q.exec s).toRegistry := by
  by_cases hcall : ∃ id u reason, q.call = .exerciseVeto id u reason
  · obtain ⟨id, u, reason, hcall⟩ := hcall
    -- A veto may be left half made; every statement on the way keeps the times unset.
    have hsends : (VetoService.exerciseVeto q.fresh id u reason).Sends Query.Untold :=
      exerciseVeto_sends_of (fun _ => trivial) (fun _ _ => trivial)
        (fun v _ hactive hby hat => ⟨.inl ⟨hactive, hby⟩, hat⟩) (fun _ _ _ => trivial) trivial
        fun _ => trivial
    have hspec : (q.call.program q.fresh).wp backend (fun _ s' => AllUntimed s'.toRegistry)
        (fun _ s' => AllUntimed s'.toRegistry) s := by
      rw [hcall]
      refine Sends.wp (Sends.bind hsends fun _ => ?_) (fun _ _ hq hs => hq.effect hs) h
      trivial
    rcases Request.exec_cases hspec with ⟨-, h'⟩ | ⟨-, _, -, h'⟩ | ⟨h', -⟩
    · exact h'
    · exact h'
    · rw [h']
      exact h
  · have ho := q.outcome (s := s)
    generalize (q.exec s).toRegistry = r', hc : q.call = c at ho ⊢
    cases ho with
    | refused | created | submitted | voted | rejected | approved | assigned | revoked => exact h
    | vetoed => exact absurd ⟨_, _, _, hc⟩ hcall
    | overridden ho => exact h.override ho.veto _

/-- In all runs, no veto record says when the veto has been overridden. -/
theorem untimed_execAll (qs : List Request) : AllUntimed (execAll qs .empty).toRegistry := by
  induction qs using List.reverseRecOn with
  | nil => exact fun _ hv => absurd hv List.not_mem_nil
  | append_singleton qs q ih =>
    rw [execAll_concat]
    exact ih.exec

/-- The request overrides a veto: the user can, and the identifier for the event is free. -/
def OverridesVeto (s : Store) (q : Request) : Prop :=
  q.mode ≠ .abandoned ∧ ∃ v a, q.call = .overrideVeto v.id a.userId.text ∧
    Override s.toRegistry v a ∧ s.events.get? (q.fresh 0).id = none

/-- A request that overrides a veto leaves an overridden one. -/
theorem OverridesVeto.exec (h : OverridesVeto s q) (hrole : s.toRegistry.OneRole) :
    SomeOverridden (q.exec s).toRegistry := by
  obtain ⟨hmode, v, a, hcall, ho, hfree⟩ := h
  obtain ⟨r, w, hdeed, hleaves⟩ := q.done_of_override hmode hcall ho hrole hfree
  rw [hleaves.registry]
  generalize hc : q.call = c at hdeed
  cases hdeed with
  | @overridden v' a' ho' => exact someOverridden_override ho'.veto
  | _ => cases hcall.symm.trans hc

/-- All vetoes are active. -/
def NoneOverridden (r : Registry) : Prop := ∀ v ∈ r.vetoes.rows, v.status = .active

/-- Unless a request overrides a veto, the vetoes stay active. -/
theorem NoneOverridden.exec (h : NoneOverridden s.toRegistry) (hq : ¬OverridesVeto s q) :
    NoneOverridden (q.exec s).toRegistry := by
  by_cases hmode : q.mode = .abandoned
  · rwa [exec_abandoned hmode]
  rcases q.deed (s := s) with heq | ⟨r, w, hdeed, hleaves⟩ | ⟨hadmitted, r, w, w', hdeed, hleaves⟩
  · rwa [heq]
  · rw [hleaves.registry]
    -- Of the deeds recorded, two are about vetoes: one makes an active one, the other is excluded.
    generalize hc : q.call = c at hdeed
    cases hdeed with
    | created | submitted | voted | rejected | approved | assigned | revoked => exact h
    | vetoed ho =>
      intro v hv
      rcases Table.mem_of_mem_insert hv with hv | rfl
      · exact h v hv
      · exact ho.active
    | @overridden v a ho =>
      exact absurd ⟨hmode, v, a, hc, ho, hleaves.free _ List.mem_cons_self⟩ hq
  · -- What is not recorded to the end is not about vetoes.
    rw [hleaves.registry]
    rcases hdeed.of_not_admitted hadmitted with ⟨_, _, _, _, _, rfl, _⟩ | ⟨_, _, _, _, rfl, _⟩
    · exact h
    · exact h

/-- After a run, all vetoes are active exactly if none has been overridden in it. -/
theorem noneOverridden_iff (qs : List Request) :
    NoneOverridden (execAll qs .empty).toRegistry ↔
      Along (fun s q => ¬OverridesVeto s q) qs .empty := by
  constructor
  · intro h
    by_contra hnot
    -- An override leaves an overridden veto, which stays.
    have hsome : SomeOverridden (execAll qs .empty).toRegistry := by
      clear h
      induction qs using List.reverseRecOn with
      | nil => exact absurd trivial hnot
      | append_singleton qs q ih =>
        rw [execAll_concat]
        by_cases hqs : Along (fun s q => ¬OverridesVeto s q) qs .empty
        · refine OverridesVeto.exec ?_ (oneRole_execAll qs)
          by_contra hq
          exact hnot (along_append.2 ⟨hqs, hq, trivial⟩)
        · exact (ih hqs).outcome q.outcome
    obtain ⟨v, hv, hoverridden⟩ := hsome
    cases (h v hv).symm.trans hoverridden
  · intro h
    exact Along.run (I := fun s => NoneOverridden s.toRegistry) h
      (fun _ hv => absurd hv List.not_mem_nil) fun _ _ hq hi => hi.exec hq

/-- In a run, all veto records tell their stories exactly if no veto is overridden. -/
theorem wholeStories_iff (qs : List Request) : WholeStories (execAll qs .empty).toRegistry ↔
    Along (fun s q => ¬OverridesVeto s q) qs .empty := by
  rw [← noneOverridden_iff]
  exact forall₂_congr fun v hv => (untimed_execAll qs v hv).tellsStory_iff

end Runs

namespace Sales

attribute [local instance] Hashlib.standard Postgres.stable

/-- The veto that cleo overrides does not say when. -/
theorem not_wholeStories : ¬∀ qs : List Request, WholeStories (execAll qs .empty).toRegistry := by
  intro h
  have hstory := h (requests overridden)
  have hnone : ∃ v ∈ (execAll (requests overridden) .empty).vetoes.rows,
      v.status = .overridden ∧ v.overriddenAt = none := by decide +kernel
  obtain ⟨v, hv, hstatus, hat⟩ := hnone
  exact ((hstory v hv).overridden.1 hstatus).2 hat

end Sales

end OpenDataGov
