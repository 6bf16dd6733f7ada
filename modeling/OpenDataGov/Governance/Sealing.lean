import OpenDataGov.Governance.Integrity

/-!
# Recording audit events

The chains that `record_event` makes from what the events say (`EventContent.recordChain`), and
the lists that `verify_chain` accepts.

An event gets its place in the chain in two steps: it takes the last hash of the trail as its
previous one, and is sealed with the hash of all that it says, this one included. What it says
besides is its content (`EventContent`). Sealing in this sense is the general notion of
`Lib.HashChain` (`Sealing`), of which this module is the instance: a chain is determined by the
contents, and each sequence of contents makes one.

* `recordEvent_eq`: an event is recorded by sealing what it says after the last hash;
* `recordChain_eq_build`: events that are recorded one after the other build a chain;
* `verifyChain_iff`: the lists that are accepted are those that are recorded so. Their
  prefixes are accepted, and what is appended to them is if it is sealed after the last hash;
* `verifyIntegrity_of_verifyChain`: a log that is accepted is with any limit.

That the last hash may be read by two transactions at once is in `Governance.Forks`.
-/

namespace OpenDataGov

open AuditEvent HashChain Calendar

/-- What an audit event says, before it has a place in the chain. -/
structure EventContent where
  id : UUID
  eventType : AuditEventType
  entityType : Bounded 1 100
  entityId : Bounded 1 200
  actorId : Bounded 1 200
  description : String
  details : Json.Dict Json.Scalar
  occurredAt : DateTime

namespace EventContent

theorem bounds_noHash : 0 ≤ "".length ∧ "".length ≤ 64 := by decide

/-- The event that says it after the hash `previousHash`, not sealed. -/
def event (c : EventContent) (previousHash : Bounded 0 64) : AuditEvent where
  id := c.id
  eventType := c.eventType
  entityType := c.entityType
  entityId := c.entityId
  actorId := c.actorId
  description := c.description
  details := c.details
  occurredAt := c.occurredAt
  previousHash := previousHash
  eventHash := ⟨"", bounds_noHash⟩

variable [Hashlib]

/-- The event that is recorded when `lastHash` is the last hash of the chain. -/
def record (c : EventContent) (lastHash : Option (Bounded 0 64)) : AuditEvent :=
  (c.event (AuditService.orGenesis lastHash)).sealed

/-- The chain of the events that say one after the other. -/
def recordChain (cs : List EventContent) : List AuditEvent :=
  cs.foldl (fun events c => events ++ [c.record (events.getLast?.map eventHash)]) []

/-- What an event says. -/
def ofEvent (e : AuditEvent) : EventContent where
  id := e.id
  eventType := e.eventType
  entityType := e.entityType
  entityId := e.entityId
  actorId := e.actorId
  description := e.description
  details := e.details
  occurredAt := e.occurredAt

/-- Audit events are sealed. -/
def sealing : Sealing chaining EventContent where
  after h c := (c.event h).sealed
  content := ofEvent
  prev_after _ _ := rfl
  hash_after _ _ := rfl
  after_content e he := by
    calc ((ofEvent e).event e.previousHash).sealed
        = { e with eventHash := e.computeHash } := rfl
      _ = e := by rw [← show e.eventHash = e.computeHash from he]

/-- The service records an event by sealing what it says after the last hash. -/
theorem recordEvent_eq {stamp : Stamp} {eventType : AuditEventType}
    {entityType entityId actorId description : String}
    {details : Option (Json.Dict Json.Scalar)} :
    AuditService.recordEvent stamp eventType entityType entityId actorId description details =
      (PgAuditRepository.getLastHash >>= fun lastHash =>
        validate "AuditEvent" ((Validated.bounded 1 100 "entity_type" entityType).and <|
          (Validated.bounded 1 200 "entity_id" entityId).and <|
          Validated.bounded 1 200 "actor_id" actorId) >>= fun (entityType, entityId, actorId) =>
        PgAuditRepository.create (EventContent.record ⟨stamp.id, eventType, entityType, entityId,
          actorId, description, details.getD .empty, stamp.now⟩ lastHash)) :=
  rfl

/-- At the end of a chain, the hash to record after is that of the last event, or the genesis
    hash: no event has an empty one. -/
theorem orGenesis_getLast? {events : List AuditEvent}
    (hl : Linked chaining genesisHash events) :
    AuditService.orGenesis (events.getLast?.map eventHash) = tip chaining genesisHash events := by
  rw [tip_eq_getLast?]
  cases hlast : events.getLast? with
  | none => rfl
  | some e =>
    have hhash : e.eventHash = e.computeHash := hl.digest_eq e (List.mem_of_getLast? hlast)
    have hne : e.eventHash.text ≠ "" := fun hempty => by
      have hlength := Hashlib.length_sha256 e.canonical
      rw [← computeHash, ← hhash, hempty] at hlength
      exact absurd hlength (by decide)
    exact if_neg hne

/-- Recording events builds a chain. -/
theorem recordChain_eq_build (cs : List EventContent) :
    recordChain cs = sealing.build genesisHash cs := by
  induction cs using List.reverseRecOn with
  | nil => rfl
  | append_singleton cs c ih =>
    rw [Sealing.build_concat, ← ih, recordChain, List.foldl_append, ← recordChain]
    have hlast := orGenesis_getLast? (ih ▸ sealing.linked_build genesisHash cs)
    simp only [List.foldl_cons, List.foldl_nil, record, hlast]
    rfl

end EventContent

open EventContent

variable [Hashlib] {events : List AuditEvent}

/-- The event is sealed after the events: it carries the last of their hashes, or the genesis
    hash, and its own. -/
def SealedAfter (events : List AuditEvent) (e : AuditEvent) : Prop :=
  e.previousHash = (events.getLast?.map eventHash).getD genesisHash ∧ e.eventHash = e.computeHash

/-- `verify_chain` accepts the lists of events that are recorded one after the other. So it
    accepts their prefixes, and what is appended to them exactly if it is sealed after them. -/
theorem verifyChain_iff (events : List AuditEvent) :
    (verifyChain events = true ↔ ∃ cs, events = recordChain cs) ∧
    (verifyChain events = true → ∀ before, before <+: events → verifyChain before = true) ∧
    ∀ e, verifyChain (events ++ [e]) = true ↔
      verifyChain events = true ∧ SealedAfter events e := by
  simp only [verifyChain_eq_true, recordChain_eq_build]
  refine ⟨sealing.linked_iff_exists_build genesisHash, fun hl before hbefore => ?_, fun e => ?_⟩
  · obtain ⟨rest, rfl⟩ := hbefore
    exact (linked_append.1 hl).1
  · rw [linked_concat, tip_eq_getLast?]
    rfl

/-- Whatever its limit, the verification of a log that is accepted succeeds. -/
theorem verifyIntegrity_of_verifyChain [Postgres] {s : Store} {limit : ℕ}
    (h : verifyChain s.chain = true) :
    (AuditService.verifyIntegrity limit).run backend s = (.ok true, s) := by
  rw [run_verifyIntegrity, verifyChain_eq_true.2 ((verifyChain_eq_true.1 h).take limit)]

end OpenDataGov
