import OpenDataGov.Lib.ReadCommitted

/-!
# Histories of concurrent transactions

What can be told about a run of concurrent transactions from its end.

* A transaction that has committed has run its program to the end
  (`completes_of_committed`), and its log is made of that of the parts of its
  program (`Program.completes_bind`);
* a `Path` is a run with its moves, each with the configuration in which it was
  made: every exchange of a log is one of its moves (`Path.sent`), and the other
  way around (`Path.mem_log`);
* `answered_of_runs`: what all the queries sent preserve, whatever the store,
  holds of all stores that queries are answered on;
* `answered_since_base`: what is related to the store that was committed when a transaction
  began, if all effects keep it related;
* `protected_of_runs`: what holds of the committed store when a lock is taken, and
  is left alone by those who do not hold the lock, holds until it is released;
* `Config.schedule`: the path of a given schedule, computed.
-/

namespace Transact

variable {Q : Type} {R : Q → Type} {ε α β S K ι : Type}

/-! ## Complete logs -/

namespace Program

/-- The program returns `a` after the exchanges of `log`. -/
def Completes (p : Program R ε α) (log : List (Exchange R)) (a : α) : Prop :=
  p.Follows log (.pure a)

variable {p : Program R ε α} {f : α → Program R ε β} {log : List (Exchange R)} {a b : α}

/-- A program is complete when it has returned, -/
@[simp] theorem completes_pure : (Program.pure a : Program R ε α).Completes log b ↔
    log = [] ∧ a = b := by
  constructor
  · rintro ⟨⟩
    exact ⟨rfl, rfl⟩
  · rintro ⟨rfl, rfl⟩
    exact .nil

/-- which one that raises does not, -/
@[simp] theorem completes_raise {e : ε} :
    ¬(Program.raise e : Program R ε α).Completes log b := nofun

/-- one with a query after the query, -/
@[simp] theorem completes_query {q : Q} {k : R q → Program R ε α} :
    (Program.query q k).Completes log b ↔
      ∃ r log', log = ⟨q, r⟩ :: log' ∧ (k r).Completes log' b := by
  constructor
  · rintro (_ | h)
    exact ⟨_, _, rfl, h⟩
  · rintro ⟨r, log', rfl, h⟩
    exact .cons h

/-- one that returns or raises if it returns, -/
@[simp] theorem completes_ofExcept {x : Except ε α} :
    (ofExcept x : Program R ε α).Completes log a ↔ log = [] ∧ x = .ok a := by
  cases x <;> simp [ofExcept]

/-- and two programs when both are, one after the other. -/
theorem completes_bind {b : β} : (p >>= f).Completes log b ↔
    ∃ a l l', log = l ++ l' ∧ p.Completes l a ∧ (f a).Completes l' b := by
  induction p generalizing log with
  | pure a =>
    constructor
    · exact fun h => ⟨a, [], log, rfl, completes_pure.2 ⟨rfl, rfl⟩, h⟩
    · rintro ⟨a', l, l', rfl, hl, hl'⟩
      obtain ⟨rfl, rfl⟩ := completes_pure.1 hl
      exact hl'
  | raise e => simp
  | query q k ih =>
    simp only [bind_query, completes_query, ih]
    constructor
    · rintro ⟨r, _, rfl, a, l, l', rfl, hl, hl'⟩
      exact ⟨a, ⟨q, r⟩ :: l, l', rfl, ⟨r, l, rfl, hl⟩, hl'⟩
    · rintro ⟨a, _, l', rfl, ⟨r, l, rfl, hl⟩, hl'⟩
      exact ⟨r, l ++ l', rfl, a, l, l', rfl, hl, hl'⟩

/-- A single query is complete when it has been answered. -/
@[simp] theorem completes_send {q : Q} {r : R q} :
    (send q : Program R ε (R q)).Completes log r ↔ log = [⟨q, r⟩] := by
  rw [send, completes_query]
  constructor
  · rintro ⟨r', _, rfl, h⟩
    obtain ⟨rfl, rfl⟩ := completes_pure.1 h
    rfl
  · rintro rfl
    exact ⟨r, [], rfl, completes_pure.2 ⟨rfl, rfl⟩⟩

/-- All that a program has sent is what it can send. -/
theorem Completes.sends {P : Q → Prop} (h : p.Completes log a) (hp : p.Sends P) :
    ∀ x ∈ log, P x.query := (Follows.sends h hp).1

end Program

namespace Config

variable [DecidableEq ι] {B : Backend R ε S K} {P : Config ι R ε α S K → Move ι Q → Prop}
  {c c' c₁ : Config ι R ε α S K} {m : Move ι Q} {t : ι}

/-! ## Steps -/

/-- Only commits change what is committed. -/
theorem Step.store (h : Step B c m c') : ((∀ t, m ≠ .commit t) ∧ c'.store = c.store) ∨
    ∃ t, m = .commit t ∧ (c.txn t).phase = .running ∧ c'.store = c.view B t := by
  cases h with
  | send => exact .inl ⟨nofun, rfl⟩
  | commit ht => exact .inr ⟨_, rfl, ht, rfl⟩
  | rollback => exact .inl ⟨nofun, rfl⟩

/-- The transactions that have committed are those that had, and the one that does. -/
theorem Step.committed (h : Step B c m c') : (c'.txn t).phase = .committed ↔
    (c.txn t).phase = .committed ∨ m = .commit t := by
  cases h with
  | @send t' _ _ _ ht' =>
    by_cases e : t = t'
    · subst e
      simp [ht']
    · simp [txn_send_of_ne e]
  | @commit t' _ ht' =>
    rw [Config.commit]
    by_cases e : t = t'
    · subst e
      simp
    · simp [txn_finish_of_ne e, Ne.symm e]
  | @rollback t' ht' =>
    rw [Config.rollback]
    by_cases e : t = t'
    · subst e
      simp [ht']
    · simp [txn_finish_of_ne e]

/-- A log grows by the queries that its transaction sends. -/
theorem Step.log (h : Step B c m c') (t : ι) : (c'.txn t).log = (c.txn t).log ∨
    ∃ q r, m = .send t q ∧ B.answer q (c.view B t) = .ok r ∧
      (c'.txn t).log = (c.txn t).log ++ [⟨q, r⟩] := by
  cases h with
  | @send t' q k r _ _ _ hr =>
    by_cases ht : t = t'
    · subst ht
      exact .inr ⟨q, r, rfl, hr, by rw [txn_send_self]⟩
    · exact .inl (by rw [txn_send_of_ne ht])
  | commit => exact .inl log_finish
  | rollback => exact .inl log_finish

/-- The log of a transaction that commits, or has, stays. -/
theorem Step.log_of_committed (h : Step B c m c') (ht : (c'.txn t).phase = .committed) :
    (c'.txn t).log = (c.txn t).log := by
  rcases h.log t with hlog | ⟨q, r, rfl, _, _⟩
  · exact hlog
  · have hc := (h.committed.1 ht).resolve_right nofun
    cases h with
    | send ht' => cases ht'.symm.trans hc

/-- A log only grows. -/
theorem Runs.log_isPrefix (h : Runs B P c c') (t : ι) : (c.txn t).log <+: (c'.txn t).log := by
  refine h.induct (I := fun c' => (c.txn t).log <+: (c'.txn t).log) (List.prefix_refl _)
    fun c₁ m c₂ hst _ ih => ih.trans ?_
  rcases hst.log t with h | ⟨q, r, _, _, h⟩
  · exact h ▸ List.prefix_refl _
  · rw [h]
    exact List.prefix_append _ _

/-- A transaction that has committed has run its program to the end. -/
theorem completes_of_committed {s : S} {p : ι → Program R ε α} (h : Runs B P (init s p) c)
    (ht : (c.txn t).phase = .committed) : ∃ a, (p t).Completes (c.txn t).log a := by
  -- A transaction commits only with its program at the end, and takes no step after that.
  have hrest : ∀ t, (c.txn t).phase = .committed → ∃ a, (c.txn t).rest = .pure a := by
    refine h.induct (I := fun c => ∀ t, (c.txn t).phase = .committed →
      ∃ a, (c.txn t).rest = .pure a) nofun fun c₁ m c₂ hst _ ih t ht => ?_
    cases hst with
    | @send t' =>
      by_cases e : t = t'
      · subst e
        rw [txn_send_self] at ht
        cases ht
      · rw [txn_send_of_ne e] at ht ⊢
        exact ih t ht
    | @commit t' a _ hrest =>
      rw [Config.commit, rest_finish]
      by_cases e : t = t'
      · exact ⟨a, e ▸ hrest⟩
      · rw [Config.commit, txn_finish_of_ne e] at ht
        exact ih t ht
    | @rollback t' =>
      by_cases e : t = t'
      · subst e
        rw [Config.rollback, txn_finish_self] at ht
        cases ht
      · rw [Config.rollback, txn_finish_of_ne e] at ht ⊢
        exact ih t ht
  obtain ⟨a, ha⟩ := hrest t ht
  have hfollows := follows_of_runs h t
  rw [ha] at hfollows
  exact ⟨a, hfollows⟩

/-- All that the transactions send is what their programs can send. -/
theorem sends_of_runs {s : S} {p : ι → Program R ε α} {C : Q → Prop}
    (h : Runs B P (init s p) c) (hp : (p t).Sends C) :
    (∀ x ∈ (c.txn t).log, C x.query) ∧ (c.txn t).rest.Sends C :=
  (follows_of_runs h t).sends hp

/-! ## Paths -/

/-- A run with its moves, each with the configuration in which it was made. -/
inductive Path (B : Backend R ε S K) :
    Config ι R ε α S K → List (Config ι R ε α S K × Move ι Q) → Config ι R ε α S K → Prop
  | nil {c : Config ι R ε α S K} : Path B c [] c
  | cons {c c₁ c' : Config ι R ε α S K} {m : Move ι Q} {π : List (Config ι R ε α S K × Move ι Q)} :
      Step B c m c₁ → Path B c₁ π c' → Path B c ((c, m) :: π) c'

variable {π : List (Config ι R ε α S K × Move ι Q)}

/-- A path is a run. -/
theorem Path.runs (h : Path B c π c') (hP : ∀ x ∈ π, P x.1 x.2) : Runs B P c c' := by
  induction h with
  | nil => exact .refl
  | cons hst _ ih =>
    obtain ⟨hm, hP⟩ := List.forall_mem_cons.1 hP
    exact .head ⟨_, hst, hm⟩ (ih hP)

/-- The run before a move, and the step that it is. -/
theorem Path.step_of_mem (h : Path B c π c') (hx : (c₁, m) ∈ π) :
    Runs B (fun _ _ => True) c c₁ ∧ ∃ c₂, Step B c₁ m c₂ := by
  induction h with
  | nil => exact absurd hx List.not_mem_nil
  | cons hst _ ih =>
    rcases List.mem_cons.1 hx with hx | hx
    · cases hx
      exact ⟨.refl, _, hst⟩
    · exact ⟨.head ⟨_, hst, trivial⟩ (ih hx).1, (ih hx).2⟩

/-- Every exchange of a log was one of the moves. -/
theorem Path.sent (h : Path B c π c') {x : Exchange R} (hx : x ∈ (c'.txn t).log) :
    x ∈ (c.txn t).log ∨ ∃ c₁, (c₁, .send t x.query) ∈ π ∧
      B.answer x.query (c₁.view B t) = .ok x.answer ∧
      (c₁.txn t).log ++ [x] <+: (c'.txn t).log := by
  induction h with
  | nil => exact .inl hx
  | @cons c c₂ c' m π hst hπ ih =>
    rcases ih hx with hx | ⟨c₁, hmem, hrest⟩
    · rcases hst.log t with hlog | ⟨q, r, rfl, hr, hlog⟩
      · exact .inl (hlog ▸ hx)
      · rw [hlog] at hx
        rcases List.mem_append.1 hx with hx | hx
        · exact .inl hx
        · rw [List.mem_singleton.1 hx]
          have hruns : Runs B (fun _ _ => True) c₂ c' := hπ.runs fun _ _ => trivial
          exact .inr ⟨c, List.mem_cons_self, hr, hlog ▸ hruns.log_isPrefix t⟩
    · exact .inr ⟨c₁, List.mem_cons_of_mem _ hmem, hrest⟩

/-- Every query sent is in the log, answered. -/
theorem Path.mem_log (h : Path B c π c') {q : Q} (hx : (c₁, .send t q) ∈ π) :
    ∃ r, B.answer q (c₁.view B t) = .ok r ∧ (c₁.txn t).log ++ [⟨q, r⟩] <+: (c'.txn t).log := by
  induction h with
  | nil => exact absurd hx List.not_mem_nil
  | cons hst hπ ih =>
    rcases List.mem_cons.1 hx with hx | hx
    · cases hx
      cases hst with
      | send _ _ _ hr =>
        have hruns : Runs B (fun _ _ => True) _ _ := hπ.runs fun _ _ => trivial
        exact ⟨_, hr, by simpa using hruns.log_isPrefix t⟩
    · exact ih hx

/-! ## Invariants of the stores -/

/-- What the queries sent preserve on all stores, holds of what is committed and of
    the stores that the queries are answered on. -/
theorem answered_of_runs {J : S → Prop} {C : Q → Prop} {s : S} {p : ι → Program R ε α}
    (h : Runs B P (init s p) c) (hp : ∀ t, (p t).Sends C)
    (hC : ∀ q s, C q → J s → J (B.effect q s)) (hs : J s) :
    J c.store ∧ ∀ t, ∀ x ∈ (c.txn t).log, ∃ s', J s' ∧ B.answer x.query s' = .ok x.answer := by
  -- A transaction sees the committed store with the changes of its own queries.
  have hview : ∀ {c}, Runs B P (init s p) c → J c.store → ∀ t, J (c.view B t) := fun hruns hc t =>
    Backend.replay_keeps (fun x hx s => hC _ s ((sends_of_runs hruns (hp t)).1 x hx)) hc
  induction h with
  | refl => exact ⟨hs, fun _ _ hx => absurd hx List.not_mem_nil⟩
  | tail hruns hst ih =>
    obtain ⟨hc, hlog⟩ := ih
    obtain ⟨m, hst, _⟩ := hst
    refine ⟨?_, fun t x hx => ?_⟩
    · cases hst with
      | send => exact hc
      | commit => exact hview hruns hc _
      | rollback => exact hc
    · rcases hst.log t with heq | ⟨q, r, _, hr, heq⟩
      · exact hlog t x (heq ▸ hx)
      · rw [heq] at hx
        rcases List.mem_append.1 hx with hx | hx
        · exact hlog t x hx
        · rw [List.mem_singleton.1 hx]
          exact ⟨_, hview hruns hc t, hr⟩

/-- The queries of a transaction are answered on stores that have come, by effects of
    queries, from the one that was committed when it began. -/
theorem answered_since_base {J : S → S → Prop} {s : S} {p : ι → Program R ε α}
    (h : Runs B P (init s p) c) (hrefl : ∀ s, J s s) (htrans : ∀ s₁ s₂ s₃, J s₁ s₂ → J s₂ s₃ →
      J s₁ s₃) (heffect : ∀ q s, J s (B.effect q s)) (t : ι) :
    (∀ b, (c.txn t).base = some b → J b c.store) ∧ ∀ x ∈ (c.txn t).log, ∃ b s',
      (c.txn t).base = some b ∧ J b s' ∧ B.answer x.query s' = .ok x.answer := by
  have hreplay : ∀ (log : List (Exchange R)) (s : S), J s (B.replay log s) := fun log s =>
    Backend.replay_keeps (fun x _ s' h => htrans s s' _ h (heffect x.query s')) (hrefl s)
  refine h.induct (I := fun c => ∀ t, (∀ b, (c.txn t).base = some b → J b c.store) ∧
    ∀ x ∈ (c.txn t).log, ∃ b s', (c.txn t).base = some b ∧ J b s' ∧
      B.answer x.query s' = .ok x.answer) (fun t => ⟨nofun, fun _ hx => absurd hx
      List.not_mem_nil⟩) (fun c m c' hst _ ih t => ?_) t
  obtain ⟨hbase, hlog⟩ := ih t
  cases hst with
  | @send t' q k r ht' _ _ hr =>
    by_cases e : t = t'
    · -- The first query sets the base, which the others keep.
      subst e
      have hnew : J ((c.txn t).base.getD c.store) c.store := by
        cases hb : (c.txn t).base with
        | none => exact hrefl _
        | some b => exact hbase b hb
      rw [txn_send_self, store_send]
      refine ⟨fun b hb => Option.some.inj hb ▸ hnew, fun x hx => ?_⟩
      rcases List.mem_append.1 hx with hx | hx
      · obtain ⟨b, s', hb, hs'⟩ := hlog x hx
        exact ⟨b, s', by rw [hb]; rfl, hs'⟩
      · rw [List.mem_singleton.1 hx]
        exact ⟨_, _, rfl, htrans _ _ _ hnew (hreplay _ _), hr⟩
    · rw [txn_send_of_ne e]
      exact ⟨hbase, hlog⟩
  | @commit t' =>
    rw [Config.commit, base_finish, log_finish]
    exact ⟨fun b hb => htrans _ _ _ (hbase b hb) (hreplay _ _), hlog⟩
  | rollback =>
    rw [Config.rollback, base_finish, log_finish]
    exact ⟨hbase, hlog⟩

/-- What holds of the committed store whenever the lock `l` is taken, and is left
    alone by those who do not hold it, holds as long as somebody does. -/
theorem protected_of_runs {F : S → Prop} {l : K} {s : S} {p : ι → Program R ε α}
    (h : Runs B P (init s p) c)
    (hsend : ∀ c t q k r, Runs B P (init s p) c → P c (.send t q) →
      (c.txn t).rest = .query q k → B.answer q (c.view B t) = .ok r → l ∈ B.locks q → F c.store)
    (hother : ∀ q, l ∉ B.locks q → ∀ s, F s → F (B.effect q s)) :
    ∀ t, (c.txn t).phase = .running → (∃ x ∈ (c.txn t).log, l ∈ B.locks x.query) → F c.store := by
  induction h with
  | refl => exact fun _ _ ⟨_, hx, _⟩ => absurd hx List.not_mem_nil
  | @tail c c' hruns hst ih =>
    obtain ⟨m, hst, hP⟩ := hst
    have hinv := lockInv_of_runs hruns
    intro t ht ⟨x, hx, hl⟩
    -- Unless `t` takes the lock in this step, it held it before.
    cases hst with
    | @send t' q k r ht' hrest _ hr =>
      by_cases hlq : l ∈ B.locks q
      · exact hsend c t' q k r hruns hP hrest hr hlq
      by_cases e : t = t'
      · subst e
        rw [txn_send_self] at hx
        rcases List.mem_append.1 hx with hx | hx
        · exact ih t ht' ⟨x, hx, hl⟩
        · rw [List.mem_singleton.1 hx] at hl
          exact absurd hl hlq
      · rw [txn_send_of_ne e] at ht hx
        exact ih t ht ⟨x, hx, hl⟩
    | @commit t' _ ht' _ =>
      obtain ⟨e, htxn⟩ := txn_finish_of_running (by decide) ht
      rw [Config.commit, htxn] at ht hx
      -- Another one commits, which does not hold the lock.
      refine Backend.replay_keeps (fun y hy => hother y.query fun hly => e ?_)
        (ih t ht ⟨x, hx, hl⟩)
      exact hinv.unique _ (hinv.held t ht x hx l hl) _ (hinv.held t' ht' y hy l hly) rfl
    | @rollback t' _ =>
      obtain ⟨_, htxn⟩ := txn_finish_of_running (by decide) ht
      rw [Config.rollback, htxn] at ht hx
      exact ih t ht ⟨x, hx, hl⟩

/-! ## Schedules -/

/-- The next step of the transaction `t`, if it can take one. -/
def next [DecidableEq K] (B : Backend R ε S K) (c : Config ι R ε α S K) (t : ι) :
    Option (Move ι Q × Config ι R ε α S K) :=
  match (c.txn t).phase, (c.txn t).rest with
  | .running, .pure _ => some (.commit t, c.commit B t)
  | .running, .raise _ => some (.rollback t, c.rollback t)
  | .running, .query q k =>
    if c.Blocked B t q then none
    else match B.answer q (c.view B t) with
      | .ok r => some (.send t q, c.send B t q r k)
      | .error _ => some (.rollback t, c.rollback t)
  | _, _ => none

/-- The path of a schedule, and where it ends: the transactions take their next steps
    one after another, those that cannot take one being skipped. -/
def schedule [DecidableEq K] (B : Backend R ε S K) (c : Config ι R ε α S K) :
    List ι → List (Config ι R ε α S K × Move ι Q) × Config ι R ε α S K
  | [] => ([], c)
  | t :: ts => match c.next B t with
    | none => c.schedule B ts
    | some (m, c₁) => ((c, m) :: (c₁.schedule B ts).1, (c₁.schedule B ts).2)

/-- A scheduled step is a step, -/
theorem step_of_next [DecidableEq K] (h : c.next B t = some (m, c')) : Step B c m c' := by
  rw [next] at h
  split at h
  · rename_i hph hrest
    cases h
    exact .commit hph hrest
  · rename_i hph _
    cases h
    exact .rollback hph
  · rename_i q k hph hrest
    split at h
    · cases h
    · rename_i hfree
      split at h <;> cases h
      · rename_i hr
        exact .send hph hrest hfree hr
      · exact .rollback hph
  · cases h

/-- and so a schedule is a path. -/
theorem path_schedule [DecidableEq K] (B : Backend R ε S K) (c : Config ι R ε α S K)
    (ts : List ι) : Path B c (c.schedule B ts).1 (c.schedule B ts).2 := by
  induction ts generalizing c with
  | nil => exact .nil
  | cons t ts ih =>
    rw [schedule]
    split
    · exact ih c
    · exact .cons (step_of_next ‹_›) (ih _)

end Config

end Transact
