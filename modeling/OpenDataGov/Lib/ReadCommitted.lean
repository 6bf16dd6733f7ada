import Mathlib.Logic.Function.Basic
import Mathlib.Logic.Relation
import OpenDataGov.Lib.Program

/-!
# Concurrent transactions at READ COMMITTED

Any number of programs run concurrently on one store, each as one transaction.
A configuration (`Config`) is the committed store, the state of every
transaction, and the locks held. It moves (`Step`) when

* a running transaction sends its next query: the query sees the store committed
  so far with the transaction's own changes on top (`Config.view`), so two
  queries of one transaction may see different committed stores; it waits while
  another transaction holds one of its locks, and keeps its own locks until the
  transaction ends;
* a transaction whose program has returned commits its changes;
* a running transaction is rolled back: because it raised, because a query
  failed, or for any other reason (a cancelled request, a deadlock).

A transaction keeps the log of its exchanges with the store, which determines
its changes (`Backend.replay`) and what is left of its program (`Follows`). Two
of its fields record what no step depends on: `base`, the store that was
committed when it sent its first query, and the log after its end.

* `follows_of_runs`: at any time, what is left of a program is the program after
  its log;
* `lockInv_of_runs`: a lock is held by a single transaction, which runs, and a
  running transaction holds the locks of its log.
-/

namespace Transact

variable {Q : Type} {R : Q → Type} {ε α S K ι : Type}

/-- A query and the answer to it. -/
structure Exchange (R : Q → Type) where
  query : Q
  answer : R query

/-- What becomes of a transaction. -/
inductive Phase
  | running
  | committed
  | rolledBack
  deriving DecidableEq

/-- A transaction: what is left of its program after the exchanges of its log. -/
structure Txn (R : Q → Type) (ε α S : Type) where
  phase : Phase
  /-- The store that was committed when the first query was sent. -/
  base : Option S
  log : List (Exchange R)
  rest : Program R ε α

/-- The state of the transactions `ι` on a store. -/
structure Config (ι : Type) (R : Q → Type) (ε α S K : Type) where
  /-- What is committed. -/
  store : S
  txn : ι → Txn R ε α S
  /-- The locks held, with their holders. -/
  held : List (K × ι)

/-- The changes of the queries of a log. -/
def Backend.replay (B : Backend R ε S K) (log : List (Exchange R)) (s : S) : S :=
  log.foldl (fun s x => B.effect x.query s) s

@[simp] theorem Backend.replay_nil (B : Backend R ε S K) (s : S) : B.replay [] s = s := rfl

@[simp] theorem Backend.replay_cons (B : Backend R ε S K) (x : Exchange R) (log : List (Exchange R))
    (s : S) : B.replay (x :: log) s = B.replay log (B.effect x.query s) := rfl

theorem Backend.replay_append (B : Backend R ε S K) (log log' : List (Exchange R)) (s : S) :
    B.replay (log ++ log') s = B.replay log' (B.replay log s) :=
  List.foldl_append

/-- What the changes of each query keep, those of a log keep. -/
theorem Backend.replay_keeps {B : Backend R ε S K} {log : List (Exchange R)} {J : S → Prop} {s : S}
    (hlog : ∀ x ∈ log, ∀ s, J s → J (B.effect x.query s)) (hs : J s) : J (B.replay log s) := by
  induction log generalizing s with
  | nil => exact hs
  | cons x log ih =>
    obtain ⟨hx, hlog⟩ := List.forall_mem_cons.1 hlog
    exact ih hlog (hx s hs)

/-- A moved configuration: a query sent, a commit or a rollback. -/
inductive Move (ι Q : Type)
  | send (t : ι) (q : Q)
  | commit (t : ι)
  | rollback (t : ι)

/-- The query of a move, with its sender. -/
def Move.sent : Move ι Q → Option (ι × Q)
  | .send t q => some (t, q)
  | .commit _ => none
  | .rollback _ => none

/-- The transaction that commits in a move. -/
def Move.committing : Move ι Q → Option ι
  | .send _ _ => none
  | .commit t => some t
  | .rollback _ => none

namespace Config

/-- Every program about to start, on the store `s`. -/
def init (s : S) (p : ι → Program R ε α) : Config ι R ε α S K where
  store := s
  txn t := ⟨.running, none, [], p t⟩
  held := []

variable (B : Backend R ε S K) (c : Config ι R ε α S K) (t : ι)

/-- The store as the transaction `t` sees it: what is committed, and its changes. -/
def view : S := B.replay (c.txn t).log c.store

variable [DecidableEq ι]

/-- The transaction `t` has sent the query `q`, answered by `r`. -/
def send (q : Q) (r : R q) (k : R q → Program R ε α) : Config ι R ε α S K where
  store := c.store
  txn := Function.update c.txn t
    ⟨.running, some ((c.txn t).base.getD c.store), (c.txn t).log ++ [⟨q, r⟩], k r⟩
  held := c.held ++ (B.locks q).map fun l => (l, t)

/-- The transaction `t` has ended, as `ph` says, and released its locks. -/
def finish (ph : Phase) (s : S) : Config ι R ε α S K where
  store := s
  txn := Function.update c.txn t { c.txn t with phase := ph }
  held := c.held.filter fun h => h.2 ≠ t

/-- The transaction `t` has committed its changes. -/
def commit : Config ι R ε α S K := c.finish t .committed (c.view B t)

/-- The transaction `t` has been rolled back. -/
def rollback : Config ι R ε α S K := c.finish t .rolledBack c.store

/-- Another transaction holds a lock that the query `q` of `t` needs. -/
def Blocked (q : Q) : Prop := ∃ h ∈ c.held, h.1 ∈ B.locks q ∧ h.2 ≠ t

instance [DecidableEq K] (q : Q) : Decidable (c.Blocked B t q) :=
  inferInstanceAs (Decidable (∃ h ∈ c.held, h.1 ∈ B.locks q ∧ h.2 ≠ t))

/-- The steps of a configuration. -/
inductive Step : Config ι R ε α S K → Move ι Q → Config ι R ε α S K → Prop
  | send {c : Config ι R ε α S K} {t : ι} {q : Q} {k : R q → Program R ε α} {r : R q} :
      (c.txn t).phase = .running → (c.txn t).rest = .query q k → ¬c.Blocked B t q →
      B.answer q (c.view B t) = .ok r → Step c (.send t q) (c.send B t q r k)
  | commit {c : Config ι R ε α S K} {t : ι} {a : α} :
      (c.txn t).phase = .running → (c.txn t).rest = .pure a → Step c (.commit t) (c.commit B t)
  | rollback {c : Config ι R ε α S K} {t : ι} :
      (c.txn t).phase = .running → Step c (.rollback t) (c.rollback t)

/-- The runs whose steps all meet `P`. -/
def Runs (P : Config ι R ε α S K → Move ι Q → Prop) :
    Config ι R ε α S K → Config ι R ε α S K → Prop :=
  Relation.ReflTransGen fun c c' => ∃ m, Step B c m c' ∧ P c m

/-! ### The transactions after a step -/

variable {B c t} {t' : ι} {q : Q} {r : R q} {k : R q → Program R ε α} {ph : Phase} {s : S}

@[simp] theorem store_send : (c.send B t q r k).store = c.store := rfl

@[simp] theorem txn_send_self : (c.send B t q r k).txn t =
    ⟨.running, some ((c.txn t).base.getD c.store), (c.txn t).log ++ [⟨q, r⟩], k r⟩ := by
  simp [send]

theorem txn_send_of_ne (h : t' ≠ t) : (c.send B t q r k).txn t' = c.txn t' := by
  simp [send, h]

@[simp] theorem txn_finish_self : (c.finish t ph s).txn t = { c.txn t with phase := ph } := by
  simp [finish]

theorem txn_finish_of_ne (h : t' ≠ t) : (c.finish t ph s).txn t' = c.txn t' := by
  simp [finish, h]

/-- Ending a transaction leaves its log. -/
theorem log_finish : ((c.finish t ph s).txn t').log = (c.txn t').log := by
  by_cases h : t' = t
  · subst h
    rw [txn_finish_self]
  · rw [txn_finish_of_ne h]

/-- An end does not change where a transaction began, -/
theorem base_finish : ((c.finish t ph s).txn t').base = (c.txn t').base := by
  by_cases h : t' = t
  · subst h
    rw [txn_finish_self]
  · rw [txn_finish_of_ne h]

/-- nor what is left of its program. -/
theorem rest_finish : ((c.finish t ph s).txn t').rest = (c.txn t').rest := by
  by_cases h : t' = t
  · subst h
    rw [txn_finish_self]
  · rw [txn_finish_of_ne h]

/-- The transactions that run when another one ends are left alone. -/
theorem txn_finish_of_running (hph : ph ≠ .running)
    (h : ((c.finish t ph s).txn t').phase = .running) :
    t' ≠ t ∧ (c.finish t ph s).txn t' = c.txn t' := by
  have hne : t' ≠ t := by
    rintro rfl
    rw [txn_finish_self] at h
    exact hph h
  exact ⟨hne, txn_finish_of_ne hne⟩

/-- What every step that meets `P` preserves, holds after every run. -/
theorem Runs.induct {P : Config ι R ε α S K → Move ι Q → Prop} {I : Config ι R ε α S K → Prop}
    {c c' : Config ι R ε α S K} (h : Runs B P c c') (hinit : I c)
    (hstep : ∀ c m c', Step B c m c' → P c m → I c → I c') : I c' := by
  induction h with
  | refl => exact hinit
  | tail _ hst ih =>
    obtain ⟨m, hst, hP⟩ := hst
    exact hstep _ m _ hst hP ih

end Config

/-! ## Logs and programs -/

/-- What is left of the program `p` after the exchanges of `log` is `p'`. -/
inductive Program.Follows : Program R ε α → List (Exchange R) → Program R ε α → Prop
  | nil {p : Program R ε α} : Follows p [] p
  | cons {q : Q} {k : R q → Program R ε α} {r : R q} {log : List (Exchange R)}
      {p' : Program R ε α} : Follows (k r) log p' → Follows (.query q k) (⟨q, r⟩ :: log) p'

namespace Program.Follows

variable {p p' : Program R ε α} {log : List (Exchange R)}

theorem send {q : Q} {k : R q → Program R ε α} (h : p.Follows log (.query q k)) (r : R q) :
    p.Follows (log ++ [⟨q, r⟩]) (k r) := by
  generalize hp' : Program.query q k = p' at h
  induction h with
  | nil => subst hp'; exact .cons .nil
  | cons _ ih => exact .cons (ih hp')

/-- A property of all the queries a program can send holds of those it sent, and
    of those it can still send. -/
theorem sends {P : Q → Prop} (h : p.Follows log p') (hp : p.Sends P) :
    (∀ x ∈ log, P x.query) ∧ p'.Sends P := by
  induction h with
  | nil => exact ⟨fun _ hx => absurd hx List.not_mem_nil, hp⟩
  | cons _ ih =>
    obtain ⟨hlog, hp'⟩ := ih (hp.2 _)
    exact ⟨List.forall_mem_cons.2 ⟨hp.1, hlog⟩, hp'⟩

end Program.Follows

namespace Config

variable [DecidableEq ι] {B : Backend R ε S K} {P : Config ι R ε α S K → Move ι Q → Prop}

/-- At any time, what is left of a program is the program after its log. -/
theorem follows_of_runs {s : S} {p : ι → Program R ε α} {c : Config ι R ε α S K}
    (h : Runs B P (init s p) c) (t : ι) : (p t).Follows (c.txn t).log (c.txn t).rest := by
  refine h.induct (I := fun c => ∀ t, (p t).Follows (c.txn t).log (c.txn t).rest)
    (fun t => .nil) (fun c m c' hst _ ih t => ?_) t
  cases hst with
  | @send t' q k r _ hrest _ _ =>
    by_cases ht : t = t'
    · subst ht
      rw [txn_send_self]
      exact Program.Follows.send (hrest ▸ ih t) r
    · rw [txn_send_of_ne ht]
      exact ih t
  | commit _ _ =>
    rw [Config.commit, log_finish, rest_finish]
    exact ih t
  | rollback _ =>
    rw [Config.rollback, log_finish, rest_finish]
    exact ih t

/-! ## Locks -/

/-- A lock has a single holder, which runs and holds the locks of its log. -/
structure LockInv (B : Backend R ε S K) (c : Config ι R ε α S K) : Prop where
  running : ∀ h ∈ c.held, (c.txn h.2).phase = .running
  unique : ∀ h ∈ c.held, ∀ h' ∈ c.held, h.1 = h'.1 → h.2 = h'.2
  held : ∀ t, (c.txn t).phase = .running → ∀ x ∈ (c.txn t).log, ∀ l ∈ B.locks x.query,
    (l, t) ∈ c.held

/-- The locks are right after a query, -/
theorem LockInv.send {c : Config ι R ε α S K} {t : ι} {q : Q} {r : R q}
    {k : R q → Program R ε α} (hi : LockInv B c) (ht : (c.txn t).phase = .running)
    (hfree : ¬c.Blocked B t q) : LockInv B (c.send B t q r k) where
  running := by
    intro h hh
    by_cases e : h.2 = t
    · rw [e, txn_send_self]
    · rw [txn_send_of_ne e]
      rcases List.mem_append.1 hh with hh | hh
      · exact hi.running h hh
      · obtain ⟨l, _, rfl⟩ := List.mem_map.1 hh
        exact absurd rfl e
  unique := by
    -- A new lock is free, or `t` held it already.
    have hnew : ∀ h ∈ c.held, ∀ l ∈ B.locks q, h.1 = l → h.2 = t := fun h hh l hl hl' =>
      by_contra fun hne => hfree ⟨h, hh, hl' ▸ hl, hne⟩
    intro h hh h' hh' e
    rcases List.mem_append.1 hh with hh | hh <;> rcases List.mem_append.1 hh' with hh' | hh'
    · exact hi.unique h hh h' hh' e
    · obtain ⟨l, hl, rfl⟩ := List.mem_map.1 hh'
      exact hnew h hh l hl e
    · obtain ⟨l, hl, rfl⟩ := List.mem_map.1 hh
      exact (hnew h' hh' l hl e.symm).symm
    · obtain ⟨l, _, rfl⟩ := List.mem_map.1 hh
      obtain ⟨l', _, rfl⟩ := List.mem_map.1 hh'
      rfl
  held := by
    intro t' ht' x hx l hl
    by_cases e : t' = t
    · subst e
      rw [txn_send_self] at hx
      rcases List.mem_append.1 hx with hx | hx
      · exact List.mem_append_left _ (hi.held t' ht x hx l hl)
      · rw [List.mem_singleton.1 hx] at hl
        exact List.mem_append_right _ (List.mem_map.2 ⟨l, hl, rfl⟩)
    · rw [txn_send_of_ne e] at ht' hx
      exact List.mem_append_left _ (hi.held t' ht' x hx l hl)

/-- after an end, -/
theorem LockInv.finish {c : Config ι R ε α S K} {t : ι} {ph : Phase} {s : S} (hi : LockInv B c)
    (hph : ph ≠ .running) : LockInv B (c.finish t ph s) where
  running := by
    intro h hh
    obtain ⟨hh, hne⟩ := List.mem_filter.1 hh
    rw [txn_finish_of_ne (by simpa using hne)]
    exact hi.running h hh
  unique := fun h hh h' hh' =>
    hi.unique h (List.mem_filter.1 hh).1 h' (List.mem_filter.1 hh').1
  held := by
    intro t' ht' x hx l hl
    obtain ⟨hne, htxn⟩ := txn_finish_of_running hph ht'
    rw [htxn] at ht' hx
    exact List.mem_filter.2 ⟨hi.held t' ht' x hx l hl, by simpa using hne⟩

/-- so after any step, -/
theorem LockInv.step {c c' : Config ι R ε α S K} {m : Move ι Q} (h : Step B c m c')
    (hi : LockInv B c) : LockInv B c' := by
  cases h with
  | send ht _ hfree _ => exact hi.send ht hfree
  | commit _ _ => exact hi.finish (by decide)
  | rollback _ => exact hi.finish (by decide)

/-- and in all of a run. -/
theorem lockInv_of_runs {s : S} {p : ι → Program R ε α} {c : Config ι R ε α S K}
    (h : Runs B P (init s p) c) : LockInv B c :=
  h.induct ⟨fun _ hh => absurd hh List.not_mem_nil, fun _ hh => absurd hh List.not_mem_nil,
    fun _ _ _ hx => absurd hx List.not_mem_nil⟩ fun _ _ _ hst _ => LockInv.step hst

end Config

end Transact
