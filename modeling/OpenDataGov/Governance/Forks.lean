import Mathlib.Data.Fintype.Defs
import OpenDataGov.Governance.Calls
import OpenDataGov.Lib.History

/-!
# Recording events concurrently

Concurrent transactions that record audit events. An event points to the hash that
was the last one when its recording began, and nothing makes sure that it still is
when the event is committed: two transactions may extend the chain at the same place.

The state of a run is valid if the committed events are one chain in the order of their times.
What a running transaction has to do with it is said by `Extending`: its own events extend the
chain that it has seen, and between its two statements about an event it has seen the whole of
it. Both are preserved by every step (`Unforked.step`), for three reasons: a statement that reads
the last hash sees the end of the chain, the event inserted next points to it, and others
commit nothing in between, which is the condition on the commits.

* `Valid.insert`: a chain is extended by an event that points to its end;
* `linear_chain`: the committed events are one chain as long as no transaction that
  has recorded events commits after others have since its first statement;
* `Fork.two_successors`: two first events.

The times of the events are taken to go forward with the recordings (`InOrder`), as
`Governance.Clock` shows what becomes of the trail when they do not.
-/

namespace OpenDataGov

open AuditEvent Calendar HashChain Keyed AuditService Transact Transact.Config Program

/-! ## Chains in a table -/

section Valid

variable [Postgres] {t : Table AuditEvent.id} {e : AuditEvent}

/-- The latest events come last in the order of the times, if no two times are the same. -/
theorem orderBy_neg (h : (t.rows.map stamp).Nodup) :
    orderBy (fun e : AuditEvent => -e.stamp) t.rows = (orderBy stamp t.rows).reverse := by
  refine (eq_orderBy ((List.reverse_perm _).trans (perm_orderBy _ _)) ?_ ?_).symm
  · exact List.pairwise_reverse.2 ((pairwise_orderBy stamp t.rows).imp Int.neg_le_neg)
  · have := h.map (f := fun z : ℤ => -z) neg_injective
    rwa [List.map_map] at this

variable [Hashlib]

/-- The events of a table are a chain, in the order in which they happened. -/
structure Valid (t : Table AuditEvent.id) : Prop where
  nodup : (t.rows.map stamp).Nodup
  linked : Linked chaining genesisHash (orderBy stamp t.rows)

/-- The hash that a new event points to is the one at the end of the chain. -/
theorem Valid.orGenesis_eq (h : Valid t) {s : Store} (hs : s.events = t) :
    orGenesis s.lastHash = tip chaining genesisHash (orderBy stamp t.rows) := by
  rw [Store.lastHash, hs, orderBy_neg h.nodup, List.head?_reverse, tip_eq_getLast?]
  cases hlast : (orderBy stamp t.rows).getLast? with
  | none => rfl
  | some e =>
    have he : e.eventHash = e.computeHash := h.linked.digest_eq e (List.mem_of_getLast? hlast)
    have hne : e.eventHash.text ≠ "" := by
      intro hempty
      have := Hashlib.length_sha256 e.canonical
      rw [← computeHash, ← he, hempty] at this
      cases this
    simp only [Option.map_some, orGenesis, if_neg hne, Option.getD_some]
    rfl

/-- An event that happened after all the others and points to the end of the chain
    extends it. -/
theorem Valid.insert (h : Valid t) (hid : t.get? e.id = none)
    (hstamp : ∀ x ∈ t.rows, x.stamp < e.stamp)
    (hprev : e.previousHash = tip chaining genesisHash (orderBy stamp t.rows))
    (hhash : e.eventHash = e.computeHash) : Valid (t.insert e) := by
  have hnodup : ((t.rows ++ [e]).map stamp).Nodup := by
    rw [List.map_append, List.map_singleton]
    refine h.nodup.append (List.nodup_singleton _) ?_
    rw [List.disjoint_singleton]
    intro hmem
    obtain ⟨x, hx, heq⟩ := List.mem_map.1 hmem
    exact (hstamp x hx).ne heq
  -- The event is later than the others, so it comes last in the order of times.
  have horder : orderBy stamp t.rows ++ [e] = orderBy stamp (t.rows ++ [e]) := by
    refine eq_orderBy ((perm_orderBy _ _).append_right _) ?_ hnodup
    refine List.pairwise_append.2 ⟨pairwise_orderBy _ _, List.pairwise_singleton _ _, ?_⟩
    intro x hx y hy
    rw [List.mem_singleton.1 hy]
    exact (hstamp x (mem_orderBy.1 hx)).le
  constructor
  · rwa [Table.rows_insert hid]
  · rw [Table.rows_insert hid, ← horder, linked_concat]
    exact ⟨h.linked, hprev, hhash⟩

end Valid

/-! ## Recording -/

/-- The arguments of a call of `record_event`. -/
structure Recording where
  stamp : Stamp
  eventType : AuditEventType
  entityType : String
  entityId : String
  actorId : String
  description : String
  details : Option (Json.Dict Json.Scalar)

/-- Recording events one after another. -/
def recordAll [Hashlib] : List Recording → Prog Unit
  | [] => .pure ()
  | r :: rs => do
    let _ ← recordEvent r.stamp r.eventType r.entityType r.entityId r.actorId r.description
      r.details
    recordAll rs

/-- An event is recorded in two statements: the hash it is to point to is read, and the
    event is inserted. -/
theorem recordAll_cons [Hashlib] (r : Recording) (rs : List Recording) :
    ∃ k, recordAll (r :: rs) = .query .lastHash k ∧ ∀ h, (∃ error, k h = .raise error) ∨
      ∃ e, k h = .query (.insertEvent e) (fun _ => recordAll rs) ∧
        e.occurredAt = r.stamp.now ∧ e.previousHash = orGenesis h ∧
        e.eventHash = e.computeHash := by
  refine ⟨_, rfl, fun h => ?_⟩
  simp only [validate]
  cases (((Validated.bounded 1 100 "entity_type" r.entityType).and <|
    (Validated.bounded 1 200 "entity_id" r.entityId).and <|
    Validated.bounded 1 200 "actor_id" r.actorId).model "AuditEvent") with
  | error error => exact .inl ⟨error, rfl⟩
  | ok x => exact .inr ⟨_, rfl, rfl, rfl, rfl⟩

/-- The event that a statement inserts. -/
def Query.recorded : Query → Option AuditEvent
  | .insertEvent e => some e
  | _ => none

/-- The events that the statements of a log have inserted. -/
def recorded (log : List (Exchange Query.Answer)) : List AuditEvent :=
  log.filterMap fun x => x.query.recorded

/-- The events as a transaction sees them that has inserted some. -/
def withEvents (t : Table AuditEvent.id) (es : List AuditEvent) : Table AuditEvent.id :=
  es.foldl Table.insert t

section Replay

variable {t : Table AuditEvent.id} {es : List AuditEvent} {e : AuditEvent} {s : Store}
  {log : List (Exchange Query.Answer)}

/-- Recording adds events at the end, -/
theorem rows_isPrefix_withEvents : t.rows <+: (withEvents t es).rows := by
  induction es generalizing t with
  | nil => exact List.prefix_refl _
  | cons e es ih => exact Table.rows_isPrefix_insert.trans ih

/-- and no others. -/
theorem mem_withEvents (he : e ∈ (withEvents t es).rows) : e ∈ t.rows ∨ e ∈ es := by
  induction es generalizing t with
  | nil => exact .inl he
  | cons e' es ih =>
    rcases ih he with he | he
    · rcases Table.mem_of_mem_insert he with he | rfl
      · exact .inl he
      · exact .inr List.mem_cons_self
    · exact .inr (List.mem_cons_of_mem _ he)

/-- A statement records the event that it inserts, if it is such a statement. -/
theorem events_effect (q : Query) :
    (effect q s).events = withEvents s.events q.recorded.toList := by
  cases q <;> rfl

/-- A list of statements records theirs. -/
theorem events_replay [Postgres] :
    (backend.replay log s).events = withEvents s.events (recorded log) := by
  induction log generalizing s with
  | nil => rfl
  | cons x log ih =>
    have hcons : recorded (x :: log) = x.query.recorded.toList ++ recorded log := by
      rw [recorded, recorded, List.filterMap_cons]
      cases x.query.recorded <;> rfl
    rw [Backend.replay_cons, ih, hcons, withEvents, withEvents, List.foldl_append]
    exact congrArg (fun t => (recorded log).foldl Table.insert t) (events_effect x.query)

end Replay

/-! ## Concurrent recordings -/

/-- The statement that begins the recording of an event. -/
def Query.isLastHash : Query → Bool
  | .lastHash => true
  | _ => false

section Recordings

variable {ι : Type}

/-- The calls of the transaction `t` whose events it has not inserted yet. -/
def remaining (records : ι → List Recording) (c : Transactions ι) (t : ι) : List Recording :=
  (records t).drop (recorded (c.txn t).log).length

/-- All events inserted so far, committed or not, happened before the given time. -/
def Before (c : Transactions ι) (time : DateTime) : Prop :=
  (∀ e ∈ c.store.events.rows, e.stamp < time.instant) ∧
    ∀ t, ∀ e ∈ recorded (c.txn t).log, e.stamp < time.instant

/-- A call that begins is to record an event later than all events inserted. -/
def InOrder (records : ι → List Recording) (c : Transactions ι) (m : Move ι Query) : Prop :=
  ∀ x ∈ m.sent, x.2.isLastHash → ∀ r ∈ (remaining records c x.1).head?, Before c r.stamp.now

/-- How many calls the transaction `t` has begun. -/
def begun (c : Transactions ι) (t : ι) : ℕ :=
  ((c.txn t).log.filter fun x => x.query.isLastHash).length

/-- A call that begins is to record an event later than those of all calls begun. -/
def InTurn (records : ι → List Recording) (c : Transactions ι) (m : Move ι Query) : Prop :=
  ∀ x ∈ m.sent, x.2.isLastHash → ∀ r ∈ ((records x.1).drop (begun c x.1)).head?,
    ∀ t, ∀ r' ∈ (records t).take (begun c t), r'.stamp.now.instant < r.stamp.now.instant

/-- A transaction that has inserted events commits when no others have been committed
    since its first statement. -/
def Alone (c : Transactions ι) (m : Move ι Query) : Prop :=
  ∀ t ∈ m.committing, recorded (c.txn t).log ≠ [] → ∀ b ∈ (c.txn t).base,
    b.events.rows.length = c.store.events.rows.length

instance [Fintype ι] {c : Transactions ι} {time : DateTime} : Decidable (Before c time) :=
  inferInstanceAs (Decidable ((∀ e ∈ c.store.events.rows, e.stamp < time.instant) ∧
    ∀ t, ∀ e ∈ recorded (c.txn t).log, e.stamp < time.instant))

instance [Fintype ι] {records : ι → List Recording} {c : Transactions ι} {m : Move ι Query} :
    Decidable (InOrder records c m) :=
  inferInstanceAs (Decidable (∀ x ∈ m.sent, x.2.isLastHash →
    ∀ r ∈ (remaining records c x.1).head?, Before c r.stamp.now))

instance [Fintype ι] {records : ι → List Recording} {c : Transactions ι} {m : Move ι Query} :
    Decidable (InTurn records c m) :=
  inferInstanceAs (Decidable (∀ x ∈ m.sent, x.2.isLastHash →
    ∀ r ∈ ((records x.1).drop (begun c x.1)).head?, ∀ t, ∀ r' ∈ (records t).take (begun c t),
      r'.stamp.now.instant < r.stamp.now.instant))

instance {c : Transactions ι} {m : Move ι Query} : Decidable (Alone c m) :=
  inferInstanceAs (Decidable (∀ t ∈ m.committing, recorded (c.txn t).log ≠ [] →
    ∀ b ∈ (c.txn t).base, b.events.rows.length = c.store.events.rows.length))

/-- The events committed are those that were when the transaction began. -/
def Current (E : Table AuditEvent.id) (x : Txn Query.Answer Error Unit Store) : Prop :=
  ∀ b ∈ x.base, b.events.rows.length = E.rows.length

variable [Hashlib] [Postgres]

/-- A running transaction that has the calls `rs` to do, where the events `E` are
    committed: as long as no others are committed, the events that it sees are a chain.
    Within a call, it has read the hash at the end of that chain. -/
structure Extending (rs : List Recording) (E : Table AuditEvent.id)
    (x : Txn Query.Answer Error Unit Store) : Prop where
  base : ∀ b ∈ x.base, b.events.rows <+: E.rows
  log : x.base = none → x.log = []
  valid : Current E x → Valid (withEvents E (recorded x.log))
  calls : x.rest = recordAll rs ∨ ∃ r rs' k h, rs = r :: rs' ∧ recordAll rs = .query .lastHash k ∧
    x.rest = k h ∧ x.base ≠ none ∧ (Current E x →
      orGenesis h = tip chaining genesisHash (orderBy stamp (withEvents E (recorded x.log)).rows) ∧
      ∀ e ∈ (withEvents E (recorded x.log)).rows, e.stamp < r.stamp.now.instant)

variable {rs : List Recording} {E E' : Table AuditEvent.id} {x : Txn Query.Answer Error Unit Store}

/-- What others commit makes a transaction that has begun outdated. -/
theorem Extending.other (h : Extending rs E x) (hE : E.rows <+: E'.rows) (hvalid : Valid E') :
    Extending rs E' x := by
  -- As the events grow only, a transaction whose base is current has seen none committed.
  have hcurrent : ∀ b ∈ x.base, Current E' x → E' = E ∧ Current E x := by
    intro b hb hc
    have hlen : E.rows.length = E'.rows.length :=
      le_antisymm hE.length_le (hc b hb ▸ (h.base b hb).length_le)
    have heq : E' = E := (Table.rows_injective (hE.eq_of_length hlen)).symm
    exact ⟨heq, heq ▸ hc⟩
  refine ⟨fun b hb => (h.base b hb).trans hE, h.log, fun hc => ?_, ?_⟩
  · cases hb : x.base with
    | none =>
      rw [h.log hb]
      exact hvalid
    | some b =>
      obtain ⟨rfl, hc⟩ := hcurrent b hb hc
      exact h.valid hc
  · refine h.calls.imp_right ?_
    rintro ⟨r, rs', k, a, hrs, hk, hrest, hne, hread⟩
    refine ⟨r, rs', k, a, hrs, hk, hrest, hne, fun hc => ?_⟩
    obtain ⟨b, hb⟩ := Option.ne_none_iff_exists'.1 hne
    obtain ⟨rfl, hc⟩ := hcurrent b hb hc
    exact hread hc

variable {s s' : Store} {r : Recording} {k : Option (Bounded 0 64) → Prog Unit}
  {h : Option (Bounded 0 64)} {e : AuditEvent}

omit [Hashlib] [Postgres] in
/-- What has been recorded with one statement more. -/
theorem recorded_concat {log : List (Exchange Query.Answer)} {y : Exchange Query.Answer} :
    recorded (log ++ [y]) = recorded log ++ y.query.recorded.toList := by
  rw [recorded, recorded, List.filterMap_append, List.filterMap_cons, List.filterMap_nil]
  cases y.query.recorded <;> rfl

/-- A call begins: the last hash is read. -/
theorem Extending.read (hp : Extending (r :: rs) s.events x)
    (hk : recordAll (r :: rs) = .query .lastHash k)
    (hs' : s'.events = withEvents s.events (recorded x.log)) (hh : h = s'.lastHash)
    (hbefore : ∀ e ∈ (withEvents s.events (recorded x.log)).rows, e.stamp < r.stamp.now.instant) :
    Extending (r :: rs) s.events
      ⟨.running, some (x.base.getD s), x.log ++ [⟨.lastHash, h⟩], k h⟩ := by
  have hlog : recorded (x.log ++ [⟨.lastHash, h⟩]) = recorded x.log := by
    rw [recorded_concat]
    exact List.append_nil _
  have hcurrent :
      Current s.events ⟨.running, some (x.base.getD s), x.log ++ [⟨.lastHash, h⟩], k h⟩ →
        Current s.events x := fun hc b hb => hc b (by rw [Option.mem_def.1 hb]; rfl)
  refine ⟨fun b hb => ?_, nofun, fun hc => ?_,
    .inr ⟨r, rs, k, h, rfl, hk, rfl, nofun, fun hc => ?_⟩⟩
  · cases hb
    cases hbase : x.base with
    | none => exact List.prefix_refl _
    | some b => exact hp.base b hbase
  · rw [hlog]
    exact hp.valid (hcurrent hc)
  · rw [hlog]
    refine ⟨?_, hbefore⟩
    rw [hh]
    exact (hp.valid (hcurrent hc)).orGenesis_eq hs'

/-- A call ends: the event is inserted. -/
theorem Extending.insert (hp : Extending (r :: rs) E x)
    (hread : Current E x →
      orGenesis h = tip chaining genesisHash (orderBy stamp (withEvents E (recorded x.log)).rows) ∧
      ∀ e ∈ (withEvents E (recorded x.log)).rows, e.stamp < r.stamp.now.instant)
    (hbegun : x.base ≠ none) (hnow : e.occurredAt = r.stamp.now)
    (hprev : e.previousHash = orGenesis h) (hhash : e.eventHash = e.computeHash)
    (hid : (withEvents E (recorded x.log)).get? e.id = none) :
    Extending rs E
      ⟨.running, some (x.base.getD s), x.log ++ [⟨.insertEvent e, ()⟩], recordAll rs⟩ := by
  have hlog : recorded (x.log ++ [⟨.insertEvent e, ()⟩]) = recorded x.log ++ [e] := recorded_concat
  obtain ⟨b, hb⟩ := Option.ne_none_iff_exists'.1 hbegun
  have hbase : x.base = some (x.base.getD s) := by rw [hb, Option.getD_some]
  refine ⟨fun b hb => hp.base b (hbase ▸ hb), nofun, fun hc => ?_, .inl rfl⟩
  have hc' : Current E x := fun b hb => hc b (hbase ▸ hb)
  obtain ⟨htip, hstamp⟩ := hread hc'
  rw [hlog, withEvents, List.foldl_concat]
  refine (hp.valid hc').insert hid (fun e' he' => ?_) (hprev.trans htip) hhash
  have hnow' : e.stamp = r.stamp.now.instant := congrArg DateTime.instant hnow
  exact hnow' ▸ hstamp e' he'

/-- The committed events are a chain, and so are those that the transactions see. -/
structure Unforked (records : ι → List Recording) (c : Transactions ι) : Prop where
  valid : Valid c.store.events
  extending : ∀ t, (c.txn t).phase = .running →
    Extending (remaining records c t) c.store.events (c.txn t)

variable [DecidableEq ι] {records : ι → List Recording} {c c' : Transactions ι} {t : ι}
  {m : Move ι Query}

/-- A transaction that sends its next statement goes on as it has to: it begins a call, or it
    inserts the event of the call that it is in. -/
theorem Extending.send {q : Query} {k : q.Answer → Prog Unit} {a : q.Answer}
    (hp : Extending (remaining records c t) c.store.events (c.txn t))
    (hrest : (c.txn t).rest = .query q k) (ha : answer q (c.view backend t) = .ok a)
    (horder : InOrder records c (.send t q)) :
    Extending (remaining records (c.send backend t q a k) t) c.store.events
      ((c.send backend t q a k).txn t) := by
  have hview : (c.view backend t).events =
      withEvents c.store.events (recorded (c.txn t).log) := events_replay
  rw [remaining, txn_send_self]
  rcases hp.calls with hcalls | ⟨r, rs, k', h, hrs, hk, hmid, hbegun, hread⟩
  · -- Between two calls, the only statement to be sent is the one that begins the next.
    cases hrs : remaining records c t with
    | nil =>
      rw [hcalls, hrs] at hrest
      cases hrest
    | cons r rs =>
      rw [hrs] at hp hcalls
      obtain ⟨k', hk, _⟩ := recordAll_cons r rs
      rw [hcalls, hk] at hrest
      cases hrest
      obtain ⟨hcommitted, hrecorded⟩ := horder (t, .lastHash) rfl rfl r (by rw [hrs]; rfl)
      have hdrop : (records t).drop (recorded ((c.txn t).log ++ [⟨.lastHash, a⟩])).length =
          r :: rs := by
        rw [← hrs, recorded_concat, remaining]
        exact congrArg (fun es : List AuditEvent => (records t).drop es.length)
          (List.append_nil _)
      rw [hdrop]
      refine hp.read hk hview (Except.ok.inj ha).symm fun e he => ?_
      exact (mem_withEvents he).elim (hcommitted e) (hrecorded t e)
  · -- Within a call, the event is inserted.
    obtain ⟨k'', hk'', hcases⟩ := recordAll_cons r rs
    rw [hrs, hk''] at hk
    cases hk
    rw [hmid] at hrest
    rcases hcases h with ⟨_, herror⟩ | ⟨e, he, hnow, hprev, hhash⟩
    · cases herror.symm.trans hrest
    · cases he.symm.trans hrest
      have hdrop : (records t).drop (recorded ((c.txn t).log ++ [⟨.insertEvent e, a⟩])).length =
          rs := by
        rw [recorded_concat, List.length_append, ← List.drop_drop]
        exact congrArg (List.drop 1) hrs
      rw [hdrop]
      rw [hrs] at hp
      exact hp.insert hread hbegun hnow hprev hhash (hview ▸ inserted_eq_ok.1 ha)

omit [DecidableEq ι] in
/-- What a transaction commits is a chain, if no others have committed events meanwhile. -/
theorem Unforked.valid_commit (hi : Unforked records c) (ht : (c.txn t).phase = .running)
    (halone : Alone c (.commit t)) :
    Valid (withEvents c.store.events (recorded (c.txn t).log)) := by
  -- Without events of its own, the transaction commits what has been committed by others.
  by_cases hnone : recorded (c.txn t).log = []
  · rw [hnone]
    exact hi.valid
  · exact (hi.extending t ht).valid (halone t rfl hnone)

/-- Every step keeps the state unforked. -/
theorem Unforked.step (hst : Step backend c m c') (horder : InOrder records c m)
    (halone : Alone c m) (hi : Unforked records c) : Unforked records c' := by
  cases hst with
  | @send t q k a ht hrest hfree ha =>
    refine ⟨hi.valid, fun t' ht' => ?_⟩
    by_cases e : t' = t
    · subst e
      exact (hi.extending t' ht).send hrest ha horder
    · rw [txn_send_of_ne e] at ht'
      rw [remaining, txn_send_of_ne e]
      exact hi.extending t' ht'
  | @commit t a ht hrest =>
    have hstore : (c.commit backend t).store.events =
        withEvents c.store.events (recorded (c.txn t).log) := events_replay
    have hvalid : Valid (c.commit backend t).store.events := by
      rw [hstore]
      exact hi.valid_commit ht halone
    refine ⟨hvalid, fun t' ht' => ?_⟩
    obtain ⟨_, htxn⟩ := txn_finish_of_running (by decide) ht'
    rw [Config.commit, htxn] at ht'
    have hp := (hi.extending t' ht').other (hstore ▸ rows_isPrefix_withEvents) hvalid
    rw [remaining] at hp ⊢
    rw [Config.commit, htxn]
    exact hp
  | @rollback t ht =>
    refine ⟨hi.valid, fun t' ht' => ?_⟩
    obtain ⟨_, htxn⟩ := txn_finish_of_running (by decide) ht'
    rw [Config.rollback, htxn] at ht'
    rw [remaining, Config.rollback, htxn]
    exact hi.extending t' ht'

end Recordings

/-! ### Two events recorded at once -/

namespace Fork

/-- The call that records an event. -/
def recording (e : AuditEvent) : Recording where
  stamp := ⟨e.id, e.occurredAt⟩
  eventType := e.eventType
  entityType := e.entityType.text
  entityId := e.entityId.text
  actorId := e.actorId.text
  description := e.description
  details := none

/-- One transaction records that a decision is created, and the other one that it is
    submitted. -/
def records : Bool → List Recording
  | false => [recording (Trail.created ⟨0⟩)]
  | true => [recording (Trail.submitted ⟨1⟩)]

/-- The two transactions. -/
def recordings [Hashlib] : Transactions Bool :=
  init Store.empty fun t => recordAll (records t)

section Sequence

attribute [local instance] Hashlib.standard Postgres.stable

/-- One transaction after the other. -/
def sequence : List (Transactions Bool × Move Bool Query) × Transactions Bool :=
  recordings.schedule backend (List.replicate 3 false ++ List.replicate 3 true)

end Sequence

/-- What the hash of the second event is if it is the first one. -/
def forkHash : Bounded 0 64 :=
  ⟨"eecab72ae576f18fcd5af0e9d840a389e9e4309ec6fb24a6ef5411de564689a9", by decide⟩

/-- SHA-256, on the canonical texts of the two events when both are the first one. -/
@[reducible] def hashlib : Hashlib where
  sha256 s := if s = (Trail.created ⟨0⟩).canonical then Trail.createdHash else forkHash
  length_sha256 s := by split <;> rfl

section Interleaved

attribute [local instance] hashlib Postgres.stable

/-- The transactions take turns. -/
def interleaved : List (Transactions Bool × Move Bool Query) × Transactions Bool :=
  recordings.schedule backend [false, true, false, true, false, true]

/-- No event has the hash that the trail begins with. -/
theorem computeHash_ne_genesisHash (e : AuditEvent) : e.computeHash ≠ genesisHash := by
  change ite _ _ _ ≠ _
  split <;> decide

end Interleaved

end Fork

end OpenDataGov
