import OpenDataGov.Core.Audit
import Mathlib.Logic.Function.Basic

/-!
# The Kafka audit consumer

Audit events come from a Kafka topic, and are persisted each with a hash that links it to
the one persisted before. The calls of `consume` are loops that wait for a message of the
topic, then for its event to be persisted, and so on; in the meantime the consumer may be
disconnected, connected and asked to consume again (`Step`). Of the iterator over the
messages nothing is assumed, but that it hands them out in order, each one once.

A step goes from one `await` of the source to the next, so calls that are under way at the same
time take turns in any order. `persist_fn` and the cluster are not modelled: when the one completes
or raises, and when the other hands out a message, is a move of the run. The predicate of a run
(`Run messages P`) says which moves there are in it; results take the runs that they need, as those
in which nothing is lost (`Lossless`), or in which one call is under way at a time (`Alone`).

What holds of the world at any time comes in three parts, each an invariant with a step lemma and a
run lemma:

* `Sound`: rows are the messages at their offsets, and no offset is persisted twice;
* `Consuming`: what one call has persisted so far is chained from the hash that it started with;
* `Restarting`: the rows of each instance of the consumer are chained, those of several are not.

From these,

* `gapless_of_lossless`: nothing is skipped, where the messages are handed out to a consumer
  that is running, and `persist_fn` does not raise;
* `consumed_and_determined`: what a call of `consume` persists are the first messages that it
  gets, in a chain that ends with the last hash. The last hash determines them;
* `chained_iff_one_instance`: what several instances persist is a single chain only if all
  of it comes from one of them, as each starts again from the genesis.

The topic, the group and what is logged are left out.
-/

namespace OpenDataGov

open HashChain

/-- What is hashed for an event: its data, after the previous hash. -/
def payload (eventData previousHash : String) : String := previousHash ++ ":" ++ eventData

/-- Computing the SHA-256 hash that links an event to the previous hash. -/
def computeHashChain [Hashlib] (eventData previousHash : String) : String :=
  (Hashlib.sha256 (payload eventData previousHash)).text

/-- The text of an event, in the order of its keys. -/
def eventJson (event : Json.Value) : String := Json.dumps [' '] event

/-- A consumer of audit events. -/
structure KafkaAuditConsumer where
  /-- There is a consumer of the topic (`_consumer` is not `None`). -/
  connected : Bool
  lastHash : String
  running : Bool
  deriving DecidableEq

namespace KafkaAuditConsumer

/-- A new consumer. -/
def init : KafkaAuditConsumer := ⟨false, "genesis", false⟩

/-- Connecting to the cluster, where the consumer of the topic has `started` or not. -/
def connect (started : Bool) (c : KafkaAuditConsumer) : KafkaAuditConsumer :=
  { c with connected := started }

/-- Disconnecting: the consumer of the topic is stopped, and still there. -/
def disconnect (c : KafkaAuditConsumer) : KafkaAuditConsumer := { c with running := false }

/-- The start of `consume`, which returns at once without a consumer of the topic. -/
def consume (c : KafkaAuditConsumer) : Option KafkaAuditConsumer :=
  if c.connected then some { c with running := true } else none

/-- The hash that an event is to be persisted with. The loop ends if it is not `running`. -/
def chainHash [Hashlib] (c : KafkaAuditConsumer) (event : Json.Value) : Option String :=
  if c.running then some (computeHashChain (eventJson event) c.lastHash) else none

/-- An event has been persisted with a hash. -/
def persisted (chainHash : String) (c : KafkaAuditConsumer) : KafkaAuditConsumer :=
  { c with lastHash := chainHash }

variable {c c' : KafkaAuditConsumer} {event : Json.Value} {h : String}

/-- A consumer that is connected starts to run, and is not changed otherwise. -/
theorem consume_eq_some : c.consume = some c' ↔
    c.connected = true ∧ c' = { c with running := true } := by
  rw [consume, Option.ite_none_right_eq_some, Option.some_inj, eq_comm (a := c')]

/-- The hash links the event to the last one. -/
theorem chainHash_eq_some [Hashlib] : c.chainHash event = some h ↔
    c.running = true ∧ h = computeHashChain (eventJson event) c.lastHash := by
  rw [chainHash, Option.ite_none_right_eq_some, Option.some_inj, eq_comm (a := h)]

/-- A message that arrives after the consumer was disconnected gets no hash. -/
theorem chainHash_eq_none [Hashlib] : c.chainHash event = none ↔ c.running = false := by
  rw [chainHash]
  cases c.running <;> simp

end KafkaAuditConsumer

namespace Kafka

/-- An event and the hash that it is persisted with, where the event is the message at an
    `offset` of the topic, consumed by the instance number `inst`. -/
structure Row where
  inst : ℕ
  offset : ℕ
  event : Json.Value
  hash : String

/-- What a call of `consume` waits for. -/
inductive Awaiting
  | message
  | persistFn (row : Row)

/-- The last instance of the consumer, its calls of `consume` under way, what has been handed
    out of the topic, and what has been persisted. -/
structure World where
  consumer : KafkaAuditConsumer
  inst : ℕ
  calls : ℕ → Option Awaiting
  handedOut : ℕ
  persisted : List Row

namespace World

/-- Nothing has happened to the first instance. -/
def start : World := ⟨.init, 0, fun _ => none, 0, []⟩

/-- A call of `consume` goes on waiting, or has returned. -/
def set (w : World) (call : ℕ) (a : Option Awaiting) : World :=
  { w with calls := Function.update w.calls call a }

variable {w : World} {call call' : ℕ} {a : Option Awaiting}

/-- The call waits for what it has been set to. -/
@[simp] theorem calls_set_self : (w.set call a).calls call = a := Function.update_self ..

/-- Other calls wait for what they have waited for. -/
theorem calls_set_of_ne (h : call' ≠ call) : (w.set call a).calls call' = w.calls call' :=
  Function.update_of_ne h ..

/-- A call waits for a row to be persisted. -/
def Awaits (w : World) (call : ℕ) (row : Row) : Prop := w.calls call = some (.persistFn row)

variable {row : Row}

/-- A call that waits for a message does not wait for a row to be persisted. -/
theorem not_awaits_of_message (h : w.calls call = some .message) : ¬w.Awaits call row := by
  simp [Awaits, h]

/-- Neither does one that is not under way. -/
theorem not_awaits_of_none (h : w.calls call = none) : ¬w.Awaits call row := by
  simp [Awaits, h]

/-- A call that goes on waits for a row if it has been set to. -/
theorem awaits_set_self : (w.set call a).Awaits call row ↔ a = some (.persistFn row) := by
  rw [Awaits, calls_set_self]

/-- Others wait as before. -/
theorem awaits_set_of_ne (h : call' ≠ call) :
    (w.set call a).Awaits call' row ↔ w.Awaits call' row := by
  rw [Awaits, Awaits, calls_set_of_ne h]

/-- Such waiting is not changed by a call that neither has waited for that nor does. -/
theorem awaits_set (hcall : ∀ row, ¬w.Awaits call row) (ha : ∀ row, a ≠ some (.persistFn row)) :
    (w.set call a).Awaits call' row ↔ w.Awaits call' row := by
  by_cases h : call' = call
  · subst h
    exact awaits_set_self.trans (iff_of_false (ha row) (hcall row))
  · exact awaits_set_of_ne h

/-- A call that does not wait so any more leaves the others as they are. -/
theorem Awaits.of_set (h : (w.set call a).Awaits call' row)
    (ha : ∀ row, a ≠ some (.persistFn row)) : call' ≠ call ∧ w.Awaits call' row := by
  have hne : call' ≠ call := by
    rintro rfl
    exact ha row (awaits_set_self.1 h)
  exact ⟨hne, (awaits_set_of_ne hne).1 h⟩

/-- A call that waits so for a new row leaves the others as they are, too. -/
theorem Awaits.of_set_persistFn {new : Row}
    (h : (w.set call (some (.persistFn new))).Awaits call' row) :
    call' = call ∧ row = new ∨ w.Awaits call' row := by
  by_cases hne : call' = call
  · subst hne
    exact .inl ⟨rfl, (Awaiting.persistFn.inj (Option.some.inj (awaits_set_self.1 h))).symm⟩
  · exact .inr ((awaits_set_of_ne hne).1 h)

end World

/-- What can happen: to the consumer, and to its calls of `consume`. -/
inductive Move
  | create
  | connect (started : Bool)
  | disconnect
  | consume (call : ℕ)
  /-- The next message of the topic is handed out to a call. -/
  | next (call : ℕ)
  /-- The iterator over the messages stops or raises, for a call. -/
  | ended (call : ℕ)
  /-- `persist_fn` completes, for a call. -/
  | persisted (call : ℕ)
  /-- `persist_fn` raises, or is cancelled, for a call. -/
  | raised (call : ℕ)

section Steps

variable [Hashlib] (messages : List Json.Value)

/-- The steps of a consumer of the `messages`. -/
inductive Step : World → Move → World → Prop
  /-- A new instance, once no call on the one before is under way. -/
  | create {w : World} : (∀ call, w.calls call = none) →
      Step w .create { w with consumer := .init, inst := w.inst + 1 }
  | connect {w : World} (started : Bool) :
      Step w (.connect started) { w with consumer := w.consumer.connect started }
  | disconnect {w : World} : Step w .disconnect { w with consumer := w.consumer.disconnect }
  | consume {w : World} {call : ℕ} {consumer : KafkaAuditConsumer} :
      w.calls call = none → w.consumer.consume = some consumer →
      Step w (.consume call) { w.set call (some .message) with consumer := consumer }
  | returned {w : World} {call : ℕ} : w.calls call = none → w.consumer.consume = none →
      Step w (.consume call) w
  | handedOut {w : World} {call : ℕ} {event : Json.Value} {chainHash : String} :
      w.calls call = some .message → messages[w.handedOut]? = some event →
      w.consumer.chainHash event = some chainHash →
      Step w (.next call)
        { w.set call (some (.persistFn ⟨w.inst, w.handedOut, event, chainHash⟩)) with
          handedOut := w.handedOut + 1 }
  /-- The message is there, and the loop ends. -/
  | dropped {w : World} {call : ℕ} {event : Json.Value} :
      w.calls call = some .message → messages[w.handedOut]? = some event →
      w.consumer.chainHash event = none →
      Step w (.next call) { w.set call none with handedOut := w.handedOut + 1 }
  | ended {w : World} {call : ℕ} : w.calls call = some .message →
      Step w (.ended call) (w.set call none)
  | persisted {w : World} {call : ℕ} {row : Row} : w.calls call = some (.persistFn row) →
      Step w (.persisted call) { w.set call (some .message) with
        consumer := w.consumer.persisted row.hash, persisted := w.persisted ++ [row] }
  /-- The exception is swallowed, and the loop ends. -/
  | raised {w : World} {call : ℕ} {row : Row} : w.calls call = some (.persistFn row) →
      Step w (.raised call) (w.set call none)

/-- The runs from `w₀` all of whose moves are such. -/
inductive Run (P : World → Move → Prop) (w₀ : World) : World → Prop
  | start : Run P w₀ w₀
  | step {w w' : World} {m : Move} : Run P w₀ w → P w m → Step messages w m w' → Run P w₀ w'

variable {messages} {P Q : World → Move → Prop} {w₀ w : World}

/-- Fewer moves are moves of the other kind as well. -/
theorem Run.mono (h : Run messages P w₀ w) (hPQ : ∀ w m, P w m → Q w m) : Run messages Q w₀ w := by
  induction h with
  | start => exact .start
  | step _ hm hst ih => exact ih.step (hPQ _ _ hm) hst

end Steps

/-! ### What is lost -/

section Losing

variable [Hashlib] {messages : List Json.Value} {P : World → Move → Prop} {w w' : World} {m : Move}

/-- What is persisted, or is about to be, are different messages that have been handed out. -/
structure Sound (messages : List Json.Value) (w : World) : Prop where
  persisted : ∀ row ∈ w.persisted,
    row.offset < w.handedOut ∧ messages[row.offset]? = some row.event
  awaited : ∀ call row, w.Awaits call row →
    row.offset < w.handedOut ∧ messages[row.offset]? = some row.event
  nodup : (w.persisted.map Row.offset).Nodup
  fresh : ∀ call row, w.Awaits call row → row.offset ∉ w.persisted.map Row.offset
  unique : ∀ call row call' row', w.Awaits call row → w.Awaits call' row' →
    row.offset = row'.offset → call = call'

omit [Hashlib] in
/-- At first, nothing has been handed out. -/
theorem sound_start : Sound messages .start where
  persisted _ h := absurd h List.not_mem_nil
  awaited _ _ h := absurd h (World.not_awaits_of_none rfl)
  nodup := List.nodup_nil
  fresh _ _ h := absurd h (World.not_awaits_of_none rfl)
  unique _ _ _ _ h := absurd h (World.not_awaits_of_none rfl)

omit [Hashlib] in
/-- Nothing else can be wrong after a step that persists nothing, and that no call waits
    for something new to be persisted after. -/
theorem Sound.mono (h : Sound messages w) (hpersisted : w'.persisted = w.persisted)
    (hhandedOut : w.handedOut ≤ w'.handedOut)
    (hawaits : ∀ call row, w'.Awaits call row → w.Awaits call row) : Sound messages w' where
  persisted row hrow := (h.persisted row (hpersisted ▸ hrow)).imp_left fun hlt =>
    hlt.trans_le hhandedOut
  awaited call row hrow := (h.awaited call row (hawaits call row hrow)).imp_left fun hlt =>
    hlt.trans_le hhandedOut
  nodup := hpersisted ▸ h.nodup
  fresh call row hrow := hpersisted ▸ h.fresh call row (hawaits call row hrow)
  unique call row call' row' hrow hrow' :=
    h.unique call row call' row' (hawaits call row hrow) (hawaits call' row' hrow')

/-- A message that is handed out is new, and a row that is persisted was waited for by one call
    only. -/
theorem Sound.step (h : Sound messages w) (hst : Step messages w m w') : Sound messages w' := by
  cases hst with
  | create | connect | disconnect | returned => exact h.mono rfl le_rfl fun _ _ hrow => hrow
  | consume | ended | raised =>
    exact h.mono rfl le_rfl fun _ _ hrow => (hrow.of_set (by simp)).2
  | dropped => exact h.mono rfl (Nat.le_succ _) fun _ _ hrow => (hrow.of_set (by simp)).2
  | @handedOut call event chainHash hcall hevent _ =>
    -- The new message is none of those that have been handed out.
    refine ⟨fun row hrow => ?_, fun call' row hrow => ?_, h.nodup, fun call' row hrow => ?_,
      fun call₁ row₁ call₂ row₂ hrow₁ hrow₂ hoffset => ?_⟩
    · exact (h.persisted row hrow).imp_left Nat.lt_succ_of_lt
    · rcases World.Awaits.of_set_persistFn hrow with ⟨rfl, rfl⟩ | hrow
      · exact ⟨Nat.lt_succ_self _, hevent⟩
      · exact (h.awaited call' row hrow).imp_left Nat.lt_succ_of_lt
    · rcases World.Awaits.of_set_persistFn hrow with ⟨rfl, rfl⟩ | hrow
      · intro hmem
        obtain ⟨row, hrow, heq⟩ := List.mem_map.1 hmem
        exact absurd heq (h.persisted row hrow).1.ne
      · exact h.fresh call' row hrow
    · rcases World.Awaits.of_set_persistFn hrow₁ with ⟨hcall₁, rfl⟩ | h₁ <;>
        rcases World.Awaits.of_set_persistFn hrow₂ with ⟨hcall₂, rfl⟩ | h₂
      · exact hcall₁.trans hcall₂.symm
      · exact absurd hoffset.symm (h.awaited call₂ row₂ h₂).1.ne
      · exact absurd hoffset (h.awaited call₁ row₁ h₁).1.ne
      · exact h.unique call₁ row₁ call₂ row₂ h₁ h₂ hoffset
  | @persisted call row hcall =>
    -- The row goes from those that are waited for to those that are persisted.
    have hawaits : ∀ call' row', (w.set call (some .message)).Awaits call' row' →
        call' ≠ call ∧ w.Awaits call' row' := fun _ _ hrow => hrow.of_set (by simp)
    refine ⟨?_, fun call' row' hrow => h.awaited call' row' (hawaits call' row' hrow).2, ?_,
      fun call' row' hrow => ?_, fun call₁ row₁ call₂ row₂ hrow₁ hrow₂ =>
        h.unique call₁ row₁ call₂ row₂ (hawaits call₁ row₁ hrow₁).2 (hawaits call₂ row₂ hrow₂).2⟩
    · exact List.forall_mem_append.2 ⟨h.persisted, List.forall_mem_singleton.2
        (h.awaited call row hcall)⟩
    · rw [List.map_append, List.map_singleton, List.nodup_append_comm]
      exact List.nodup_cons.2 ⟨h.fresh call row hcall, h.nodup⟩
    · obtain ⟨hne, hrow⟩ := hawaits call' row' hrow
      rw [List.map_append, List.mem_append, not_or]
      refine ⟨h.fresh call' row' hrow, fun hmem => hne ?_⟩
      exact h.unique call' row' call row hrow hcall (List.mem_singleton.1 hmem)

/-- So what is persisted is sound at any time, whatever gets lost. -/
theorem Run.sound (h : Run messages P .start w) : Sound messages w := by
  induction h with
  | start => exact sound_start
  | step _ _ hst ih => exact ih.step hst

/-- Nothing is lost by a move: a message is handed out only to a consumer that is running,
    and `persist_fn` does not raise. -/
def Lossless (w : World) : Move → Prop
  | .next _ => w.consumer.running = true
  | .raised _ => False
  | _ => True

/-- A message is persisted, or about to be. -/
def Kept (w : World) (offset : ℕ) : Prop :=
  (∃ row ∈ w.persisted, row.offset = offset) ∨ ∃ call row, w.Awaits call row ∧ row.offset = offset

/-- The messages that are persisted are those handed out up to some point, but for those
    about to be persisted. -/
structure Gapless (messages : List Json.Value) (w : World) : Prop where
  handedOut : ∀ row ∈ w.persisted,
    row.offset < w.handedOut ∧ messages[row.offset]? = some row.event
  once : (w.persisted.map Row.offset).Nodup
  kept : ∀ row ∈ w.persisted, ∀ i < row.offset, Kept w i

omit [Hashlib] in
/-- A message stays persisted, and one that is about to be stays so until it is. -/
theorem Kept.mono {i : ℕ} (h : Kept w i) (hpersisted : ∀ row ∈ w.persisted, row ∈ w'.persisted)
    (hawaits : ∀ call row, w.Awaits call row → w'.Awaits call row ∨ row ∈ w'.persisted) :
    Kept w' i := by
  rcases h with ⟨row, hrow, rfl⟩ | ⟨call, row, hrow, rfl⟩
  · exact .inl ⟨row, hpersisted row hrow, rfl⟩
  · rcases hawaits call row hrow with hrow | hrow
    · exact .inr ⟨call, row, hrow, rfl⟩
    · exact .inl ⟨row, hrow, rfl⟩

/-- A lossless step keeps all that has been handed out. -/
theorem Step.kept (hst : Step messages w m w') (hm : Lossless w m)
    (h : ∀ i < w.handedOut, Kept w i) : ∀ i < w'.handedOut, Kept w' i := by
  have hset : ∀ {call a}, (∀ row, ¬w.Awaits call row) → (∀ row, a ≠ some (.persistFn row)) →
      ∀ call' row, w.Awaits call' row → (w.set call a).Awaits call' row ∨ row ∈ w.persisted :=
    fun hcall ha call' row hrow => .inl ((World.awaits_set hcall ha).2 hrow)
  cases hst with
  | create | connect | disconnect | returned =>
    exact fun i hi => (h i hi).mono (fun _ hrow => hrow) fun _ _ hrow => .inl hrow
  | consume hcall =>
    exact fun i hi => (h i hi).mono (fun _ hrow => hrow)
      (hset (fun _ => World.not_awaits_of_none hcall) (by simp))
  | ended hcall =>
    exact fun i hi => (h i hi).mono (fun _ hrow => hrow)
      (hset (fun _ => World.not_awaits_of_message hcall) (by simp))
  -- The two ways to lose a message are excluded: by an exception, and by the end of the loop.
  | raised => exact hm.elim
  | dropped _ _ hhash =>
    exact absurd (hm.symm.trans (KafkaAuditConsumer.chainHash_eq_none.1 hhash)) (by decide)
  | @handedOut call event chainHash hcall =>
    intro i hi
    rcases Nat.lt_succ_iff_lt_or_eq.1 hi with hi | rfl
    · refine (h i hi).mono (fun _ hrow => hrow) fun call' row hrow => .inl ?_
      have hne : call' ≠ call := by
        rintro rfl
        exact World.not_awaits_of_message hcall hrow
      exact (World.awaits_set_of_ne hne).2 hrow
    · exact .inr ⟨call, _, World.calls_set_self, rfl⟩
  | @persisted call row hcall =>
    refine fun i hi => (h i hi).mono (fun _ hrow => List.mem_append_left _ hrow) ?_
    intro call' row' hrow
    by_cases hne : call' = call
    · subst hne
      cases hcall.symm.trans hrow
      exact .inr (by simp)
    · exact .inl ((World.awaits_set_of_ne hne).2 hrow)

/-- In a lossless run, all that has been handed out is persisted, or about to be. -/
theorem Run.kept (h : Run messages Lossless .start w) : ∀ i < w.handedOut, Kept w i := by
  induction h with
  | start => exact fun i hi => absurd hi (Nat.not_lt_zero i)
  | step _ hm hst ih => exact hst.kept hm ih

/-- In a lossless run, what is persisted has no gaps. -/
theorem gapless_of_lossless (h : Run messages Lossless .start w) : Gapless messages w where
  handedOut := h.sound.persisted
  once := h.sound.nodup
  kept row hrow i hi := h.kept i (hi.trans (h.sound.persisted row hrow).1)

end Losing

/-! ### The chain within a call -/

section Chaining

variable [Hashlib] {messages messages' : List Json.Value} {P : World → Move → Prop}
  {w w' w₀ w₀' : World} {m : Move} {h : String}

/-- The rows are chained from `h`: each carries the hash of its event after the hash of the
    one before. -/
def Chained (h : String) (rows : List Row) : Prop :=
  HashChain.Chained Row.hash (fun h row => computeHashChain (eventJson row.event) h) h rows

/-- The moves of a call of `consume`, and those that connect or disconnect its consumer. -/
def Move.Of (call : ℕ) : Move → Prop
  | .create => False
  | .connect _ => True
  | .disconnect => True
  | .consume _ => False
  | .next call' => call' = call
  | .ended call' => call' = call
  | .persisted call' => call' = call
  | .raised call' => call' = call

/-- `w` is reached from `w₀` by a call of `consume`, no other call doing anything in the meantime.
    It returns at once if there is no consumer of the topic, and waits for its first message
    otherwise. -/
def Within (messages : List Json.Value) (w₀ w : World) : Prop :=
  ∃ call w₁, Step messages w₀ (.consume call) w₁ ∧ Run messages (fun _ m => m.Of call) w₁ w

/-- What has been persisted since. -/
def World.since (w₀ w : World) : List Row := w.persisted.drop w₀.persisted.length

/-- What has been persisted in a call of `consume` are the first messages handed out to it,
    all but perhaps the last one, and chained, and the last hash is that of the last of them. -/
structure Consumed (messages : List Json.Value) (w₀ w : World) : Prop where
  persisted : w.persisted = w₀.persisted ++ w₀.since w
  events : (w₀.since w).map Row.event <+: messages.drop w₀.handedOut
  handedOut : w.handedOut = w₀.handedOut + (w₀.since w).length ∨
    w.handedOut = w₀.handedOut + (w₀.since w).length + 1
  chained : Chained w₀.consumer.lastHash (w₀.since w)
  lastHash : w.consumer.lastHash = lastHash Row.hash w₀.consumer.lastHash (w₀.since w)

/-- Where a call of `consume` is that has persisted the `rows`. -/
structure Consuming (messages : List Json.Value) (w₀ : World) (call : ℕ) (w : World)
    (rows : List Row) : Prop where
  persisted : w.persisted = w₀.persisted ++ rows
  events : rows.map Row.event = (messages.drop w₀.handedOut).take rows.length
  chained : Chained w₀.consumer.lastHash rows
  lastHash : w.consumer.lastHash = HashChain.lastHash Row.hash w₀.consumer.lastHash rows
  handedOut : w.handedOut = w₀.handedOut + rows.length ∨
    w.handedOut = w₀.handedOut + rows.length + 1
  message : w.calls call = some .message → w.handedOut = w₀.handedOut + rows.length
  awaited : ∀ row, w.Awaits call row →
    w.handedOut = w₀.handedOut + rows.length + 1 ∧
      messages[w₀.handedOut + rows.length]? = some row.event ∧
      row.hash = computeHashChain (eventJson row.event) w.consumer.lastHash

/-- One step of the call: it is handed out a message, persists a row, or returns. -/
theorem Consuming.step {call : ℕ} {rows : List Row} (h : Consuming messages w₀ call w rows)
    (hm : m.Of call) (hst : Step messages w m w') : ∃ rows, Consuming messages w₀ call w' rows := by
  cases hst with
  | create | consume | returned => exact hm.elim
  | connect | disconnect =>
    exact ⟨rows, h.persisted, h.events, h.chained, h.lastHash, h.handedOut, h.message, h.awaited⟩
  | handedOut hcall hevent hhash =>
    cases hm
    have hhandedOut := h.message hcall
    refine ⟨rows, h.persisted, h.events, h.chained, h.lastHash, .inr ?_, fun hmessage => ?_,
      fun row hrow => ?_⟩
    · exact congrArg (· + 1) hhandedOut
    · simp at hmessage
    · obtain rfl := Awaiting.persistFn.inj (Option.some.inj (World.awaits_set_self.1 hrow))
      exact ⟨congrArg (· + 1) hhandedOut, hhandedOut ▸ hevent,
        (KafkaAuditConsumer.chainHash_eq_some.1 hhash).2⟩
  | dropped hcall =>
    cases hm
    refine ⟨rows, h.persisted, h.events, h.chained, h.lastHash, .inr ?_, fun hmessage => ?_,
      fun row hrow => absurd hrow (World.not_awaits_of_none World.calls_set_self)⟩
    · exact congrArg (· + 1) (h.message hcall)
    · simp at hmessage
  | ended | raised =>
    cases hm
    refine ⟨rows, h.persisted, h.events, h.chained, h.lastHash, h.handedOut, fun hmessage => ?_,
      fun row hrow => absurd hrow (World.not_awaits_of_none World.calls_set_self)⟩
    simp at hmessage
  | @persisted _ row hcall =>
    cases hm
    -- Since the call was handed out the message, nobody has changed the last hash.
    obtain ⟨hhandedOut, hevent, hhash⟩ := h.awaited row hcall
    rw [h.lastHash] at hhash
    refine ⟨rows ++ [row], ?_, ?_, chained_concat.2 ⟨h.chained, hhash⟩, ?_, ?_, fun _ => ?_,
      fun row hrow => absurd hrow (World.not_awaits_of_message World.calls_set_self)⟩
    · rw [← List.append_assoc, ← h.persisted]
    · rw [List.map_append, List.length_append, List.length_singleton, List.take_add_one,
        List.getElem?_drop, hevent, h.events]
      rfl
    · rw [lastHash_concat]
      rfl
    · exact .inl (by rw [List.length_append]; exact hhandedOut)
    · rw [List.length_append]
      exact hhandedOut

/-- From a time when the call does not wait for anything to be persisted, by induction on the run:
    it has persisted some rows at any time. -/
theorem Run.consumed {call : ℕ} (hrun : Run messages (fun _ m => m.Of call) w₀ w)
    (hcall : ∀ row, ¬w₀.Awaits call row) : Consumed messages w₀ w := by
  have hconsuming : ∃ rows, Consuming messages w₀ call w rows := by
    induction hrun with
    | start =>
      exact ⟨[], (List.append_nil _).symm, rfl, chained_nil, rfl, .inl rfl, fun _ => rfl,
        fun row hrow => absurd hrow (hcall row)⟩
    | step _ hm hst ih => exact ih.elim fun _ hrows => hrows.step hm hst
  obtain ⟨rows, hrows⟩ := hconsuming
  have hsince : w₀.since w = rows := by rw [World.since, hrows.persisted, List.drop_left]
  rw [← hsince] at hrows
  refine ⟨hrows.persisted, ?_, hrows.handedOut, hrows.chained, hrows.lastHash⟩
  rw [hrows.events]
  exact List.take_prefix ..

/-- The start of a call persists nothing and changes no hash. -/
theorem Within.consumed (h : Within messages w₀ w) : Consumed messages w₀ w := by
  obtain ⟨call, w₁, hstart, hrun⟩ := h
  cases hstart with
  | consume hcall hconsume =>
    obtain ⟨-, rfl⟩ := KafkaAuditConsumer.consume_eq_some.1 hconsume
    have hconsumed := hrun.consumed fun _ => World.not_awaits_of_message World.calls_set_self
    exact ⟨hconsumed.persisted, hconsumed.events, hconsumed.handedOut, hconsumed.chained,
      hconsumed.lastHash⟩
  | returned hcall => exact hrun.consumed fun _ => World.not_awaits_of_none hcall

/-- Hashes are hexadecimal. -/
def Hexadecimal : Prop := ∀ s, ∀ c ∈ (Hashlib.sha256 s).text.toList, c ∈ "0123456789abcdef".toList

/-- What is hashed for the rows after the hash `h`. -/
def payloads (h : String) (rows : List Row) : List String :=
  (follow Row.hash h rows).map fun x => payload (eventJson x.2.event) x.1

omit [Hashlib] in
/-- What is hashed determines the event and the hash before, if that has no separator in it. -/
theorem payload_cancel {data data' previous previous' : String}
    (hprevious : ∀ c ∈ previous.toList, c ≠ ':') (hprevious' : ∀ c ∈ previous'.toList, c ≠ ':')
    (h : payload data previous = payload data' previous') :
    previous = previous' ∧ data = data' := by
  have hlist : previous.toList ++ ':' :: data.toList = previous'.toList ++ ':' :: data'.toList := by
    have := congrArg String.toList h
    simpa [payload] using this
  have hstops : ∀ x, Text.StopsAt (· ≠ ':') (':' :: x) := fun x =>
    Text.stopsAt_cons (not_not.2 rfl)
  obtain ⟨hprev, hdata⟩ := Text.span_cancel hprevious hprevious' (hstops _) (hstops _) hlist
  exact ⟨String.toList_injective hprev, String.toList_injective (List.cons.inj hdata).2⟩

omit [Hashlib] in
/-- The hash before is what comes before the last separator. -/
theorem previous_eq_of_payload_eq {data previous previous' : String}
    (h : payload data previous = payload data previous') : previous = previous' := by
  have hlist := congrArg String.toList h
  simp only [payload, String.toList_append, List.append_assoc, List.append_cancel_right_eq] at hlist
  exact String.toList_injective hlist

/-- No hash is the text of the genesis, which has another length. -/
theorem computeHashChain_ne_genesis {data previous : String} :
    computeHashChain data previous ≠ "genesis" := fun h =>
  absurd ((Hashlib.length_sha256 _).symm.trans (congrArg String.length h)) (by decide)

/-- The last hash of a chain from the genesis determines the events, as JSON values. -/
theorem Chained.determined {rows rows' : List Row} (hhex : Hexadecimal)
    (h : Chained "genesis" rows) (h' : Chained "genesis" rows')
    (hlast : HashChain.lastHash Row.hash "genesis" rows =
      HashChain.lastHash Row.hash "genesis" rows')
    (hinj : ∀ p ∈ payloads "genesis" rows, ∀ q ∈ payloads "genesis" rows',
      Hashlib.sha256 p = Hashlib.sha256 q → p = q) :
    List.Forall₂ (fun row row' => row.event.sortKeys = row'.event.sortKeys) rows rows' := by
  -- Neither the genesis nor a hash has the separator in it.
  have hgenesis : ∀ c ∈ "genesis".toList, c ≠ ':' := by simp
  have hhash : ∀ s, ∀ c ∈ (Hashlib.sha256 s).text.toList, c ≠ ':' := by
    rintro s _ hc rfl
    exact absurd (hhex s _ hc) (by decide)
  have hsep : ∀ {rows}, Chained "genesis" rows →
      ∀ x ∈ follow Row.hash "genesis" rows, ∀ c ∈ x.1.toList, c ≠ ':' := fun hrows =>
    HashChain.Chained.forall_fst (P := fun h => ∀ c ∈ h.toList, c ≠ ':') hrows hgenesis
      fun _ _ => hhash _
  refine HashChain.Chained.determined h h' hlast (fun x hx y hy hdigest => ?_)
    fun _ _ => computeHashChain_ne_genesis
  have hpayload := hinj _ (List.mem_map_of_mem hx) _ (List.mem_map_of_mem hy)
    (Bounded.text_injective hdigest)
  obtain ⟨hprev, hdata⟩ := payload_cancel (hsep h x hx) (hsep h' y hy) hpayload
  exact ⟨hprev, Json.dumps_eq_iff.1 hdata⟩

/-- What a call of `consume` persists are the first messages handed out to it, chained from
    the last hash, and the last hash that it leaves is that of the last of them. After the
    genesis, it determines them all. -/
theorem consumed_and_determined (h : Within messages w₀ w) :
    Consumed messages w₀ w ∧ ∀ messages' w₀' w', Within messages' w₀' w' →
      w₀.consumer.lastHash = "genesis" → w₀'.consumer.lastHash = "genesis" → Hexadecimal →
      (∀ p ∈ payloads "genesis" (w₀.since w), ∀ q ∈ payloads "genesis" (w₀'.since w'),
        Hashlib.sha256 p = Hashlib.sha256 q → p = q) →
      w.consumer.lastHash = w'.consumer.lastHash →
      List.Forall₂ (fun row row' => row.event.sortKeys = row'.event.sortKeys)
        (w₀.since w) (w₀'.since w') := by
  refine ⟨h.consumed, fun messages' w₀' w' h' hgenesis hgenesis' hhex hinj hlast => ?_⟩
  have hc := h.consumed
  have hc' := h'.consumed
  have hchained := hc.chained
  have hchained' := hc'.chained
  rw [hc.lastHash, hc'.lastHash, hgenesis, hgenesis'] at hlast
  rw [hgenesis] at hchained
  rw [hgenesis'] at hchained'
  exact hchained.determined hhex hchained' hlast hinj

end Chaining

/-! ### The chain across instances -/

section Restarting

variable [Hashlib] {messages : List Json.Value} {w w' : World} {m : Move} {rows : List Row}

/-- A call of `consume` starts when no other one is under way. -/
def Alone (w : World) : Move → Prop
  | .consume _ => ∀ call, w.calls call = none
  | _ => True

/-- The last hash of an instance of the consumer, after what it has persisted of the rows. -/
def lastOf (inst : ℕ) (rows : List Row) : String :=
  lastHash Row.hash "genesis" (rows.filter fun row => row.inst = inst)

/-- The rows are chained, those of each instance apart. -/
inductive Sessions : List Row → Prop
  | nil : Sessions []
  | concat {rows : List Row} {row : Row} : Sessions rows →
      row.hash = computeHashChain (eventJson row.event) (lastOf row.inst rows) →
      Sessions (rows ++ [row])

omit [Hashlib] in
/-- The last hash of an instance changes with its own rows only. -/
theorem lastOf_concat {inst : ℕ} {row : Row} : lastOf inst (rows ++ [row]) =
    if row.inst = inst then row.hash else lastOf inst rows := by
  rw [lastOf, List.filter_append]
  split_ifs with h
  · rw [List.filter_cons_of_pos (by simpa using h), List.filter_nil, lastHash_concat]
  · rw [List.filter_cons_of_neg (by simpa using h), List.filter_nil, List.append_nil, lastOf]

omit [Hashlib] in
/-- An instance that has persisted nothing starts from the genesis. -/
theorem lastOf_eq_genesis {inst : ℕ} (h : ∀ row ∈ rows, row.inst ≠ inst) :
    lastOf inst rows = "genesis" := by
  rw [lastOf, List.filter_eq_nil_iff.2 fun row hrow => by simpa using h row hrow, lastHash_nil]

omit [Hashlib] in
/-- An instance that has persisted everything goes on from the last row. -/
theorem lastOf_eq_lastHash {inst : ℕ} (h : ∀ row ∈ rows, row.inst = inst) :
    lastOf inst rows = lastHash Row.hash "genesis" rows := by
  rw [lastOf, List.filter_eq_self.2 fun row hrow => by simpa using h row hrow]

/-- A single chain, of the rows of several instances, is one of a single instance. -/
theorem Sessions.chained_iff (h : Sessions rows)
    (hinj : ∀ row ∈ rows, ∀ row' ∈ rows,
      Hashlib.sha256 (payload (eventJson row.event) row'.hash) =
        Hashlib.sha256 (payload (eventJson row.event) "genesis") →
      payload (eventJson row.event) row'.hash = payload (eventJson row.event) "genesis") :
    Chained "genesis" rows ↔ ∀ row ∈ rows, ∀ row' ∈ rows, row.inst = row'.inst := by
  induction h with
  | nil => simp [Chained]
  | @concat rows row hrows hhash ih =>
    replace ih := ih fun r hr r' hr' =>
      hinj r (List.mem_append_left _ hr) r' (List.mem_append_left _ hr')
    rw [Chained, chained_concat]
    constructor
    · rintro ⟨hchained, hlink⟩
      have hsame := ih.1 hchained
      -- Else the row would be chained to the genesis, and to the last row as well.
      have hlast : ∀ r ∈ rows, r.inst = row.inst := by
        cases hrows with
        | nil => exact fun _ hr => absurd hr List.not_mem_nil
        | @concat rows x _ hx =>
          by_contra hne
          have hxrow : x.inst ≠ row.inst := fun h => hne fun r hr =>
            (hsame r hr x (by simp)).trans h
          rw [lastOf_eq_genesis fun r hr h => hxrow ((hsame x (by simp) r hr).trans h)] at hhash
          rw [lastHash_concat] at hlink
          have heq := hinj row (by simp) x (by simp)
            (Bounded.text_injective (hlink.symm.trans hhash))
          exact computeHashChain_ne_genesis (hx.symm.trans (previous_eq_of_payload_eq heq))
      simp only [List.forall_mem_append, List.forall_mem_singleton]
      exact ⟨fun r hr => ⟨hsame r hr, hlast r hr⟩, fun r hr => (hlast r hr).symm, trivial⟩
    · intro hsame
      refine ⟨ih.2 fun r hr r' hr' => ?_, ?_⟩
      · exact hsame r (List.mem_append_left _ hr) r' (List.mem_append_left _ hr')
      · rwa [lastOf_eq_lastHash fun r hr => hsame r (List.mem_append_left _ hr) row (by simp)]
          at hhash

/-- The instances go on each from its last hash, where each call is alone. -/
structure Restarting (w : World) : Prop where
  rows : Sessions w.persisted
  lastHash : w.consumer.lastHash = lastOf w.inst w.persisted
  inst : ∀ row ∈ w.persisted, row.inst ≤ w.inst
  awaited : ∀ call row, w.Awaits call row →
    row.inst = w.inst ∧ row.hash = computeHashChain (eventJson row.event) w.consumer.lastHash
  alone : ∀ call call', w.calls call ≠ none → w.calls call' ≠ none → call = call'

/-- No instance has persisted anything. -/
theorem restarting_start : Restarting .start where
  rows := .nil
  lastHash := rfl
  inst _ h := absurd h List.not_mem_nil
  awaited _ _ h := absurd h (World.not_awaits_of_none rfl)
  alone _ _ h := absurd rfl h

omit [Hashlib] in
/-- A call that goes on or returns leaves the others as they are. -/
theorem World.alone_set {call : ℕ} {a : Option Awaiting} (h : w.calls call ≠ none)
    (halone : ∀ call call', w.calls call ≠ none → w.calls call' ≠ none → call = call') :
    ∀ call₁ call₂, (w.set call a).calls call₁ ≠ none → (w.set call a).calls call₂ ≠ none →
      call₁ = call₂ := by
  have hcalls : ∀ call', (w.set call a).calls call' ≠ none → w.calls call' ≠ none := by
    intro call' h'
    by_cases hne : call' = call
    · rwa [hne]
    · rwa [calls_set_of_ne hne] at h'
  exact fun call₁ call₂ h₁ h₂ => halone call₁ call₂ (hcalls call₁ h₁) (hcalls call₂ h₂)

/-- A new instance starts from the genesis, and a call goes on from the last hash of its own. -/
theorem Restarting.step (h : Restarting w) (hm : Alone w m) (hst : Step messages w m w') :
    Restarting w' := by
  have hreturned : ∀ {call a}, (∀ row, a ≠ some (.persistFn row)) → ∀ call' row,
      (w.set call a).Awaits call' row → row.inst = w.inst ∧
        row.hash = computeHashChain (eventJson row.event) w.consumer.lastHash :=
    fun ha call' row hrow => h.awaited call' row (hrow.of_set ha).2
  cases hst with
  | create hcalls =>
    -- The new instance has persisted nothing.
    refine ⟨h.rows, (lastOf_eq_genesis fun row hrow => ?_).symm, fun row hrow => ?_,
      fun call _ hrow => absurd hrow (World.not_awaits_of_none (hcalls call)), h.alone⟩
    · exact (Nat.lt_succ_of_le (h.inst row hrow)).ne
    · exact Nat.le_succ_of_le (h.inst row hrow)
  | connect | disconnect | returned =>
    exact ⟨h.rows, h.lastHash, h.inst, h.awaited, h.alone⟩
  | @consume call consumer hcall hconsume =>
    obtain ⟨_, rfl⟩ := KafkaAuditConsumer.consume_eq_some.1 hconsume
    refine ⟨h.rows, h.lastHash, h.inst, hreturned (by simp), fun call₁ call₂ h₁ h₂ => ?_⟩
    have hcalls : ∀ call', (w.set call (some .message)).calls call' ≠ none → call' = call := by
      intro call' h'
      by_contra hne
      rw [World.calls_set_of_ne hne] at h'
      exact h' (hm call')
    exact (hcalls call₁ h₁).trans (hcalls call₂ h₂).symm
  | @handedOut call event chainHash hcall _ hhash =>
    have hne : w.calls call ≠ none := by simp [hcall]
    refine ⟨h.rows, h.lastHash, h.inst, fun call' row hrow => ?_, World.alone_set hne h.alone⟩
    rcases World.Awaits.of_set_persistFn hrow with ⟨_, rfl⟩ | hrow
    · exact ⟨rfl, (KafkaAuditConsumer.chainHash_eq_some.1 hhash).2⟩
    · exact h.awaited call' row hrow
  | dropped hcall =>
    exact ⟨h.rows, h.lastHash, h.inst, hreturned (by simp),
      World.alone_set (by simp [hcall]) h.alone⟩
  | ended hcall | raised hcall =>
    exact ⟨h.rows, h.lastHash, h.inst, hreturned (by simp),
      World.alone_set (by simp [hcall]) h.alone⟩
  | @persisted call row hcall =>
    have hne : w.calls call ≠ none := by simp [hcall]
    obtain ⟨hinst, hhash⟩ := h.awaited call row hcall
    rw [h.lastHash, ← hinst] at hhash
    refine ⟨h.rows.concat hhash, ?_, ?_, fun call' row' hrow => ?_, World.alone_set hne h.alone⟩
    · rw [lastOf_concat]
      exact (if_pos hinst).symm
    · exact List.forall_mem_append.2 ⟨h.inst, List.forall_mem_singleton.2 hinst.le⟩
    · -- No other call waits.
      obtain ⟨hcall', hrow⟩ := hrow.of_set (by simp)
      have hne' : w.calls call' ≠ none := fun h => World.not_awaits_of_none h hrow
      exact absurd (h.alone call' call hne' hne) hcall'

/-- So the instances go on each from its last hash at any time. -/
theorem Run.restarting (h : Run messages Alone .start w) : Restarting w := by
  induction h with
  | start => exact restarting_start
  | step _ hm hst ih => exact ih.step hm hst

/-- What is persisted is a single chain exactly if a single instance has persisted it. -/
theorem chained_iff_one_instance (h : Run messages Alone .start w)
    (hinj : ∀ row ∈ w.persisted, ∀ row' ∈ w.persisted,
      Hashlib.sha256 (payload (eventJson row.event) row'.hash) =
        Hashlib.sha256 (payload (eventJson row.event) "genesis") →
      payload (eventJson row.event) row'.hash = payload (eventJson row.event) "genesis") :
    Chained "genesis" w.persisted ↔
      ∀ row ∈ w.persisted, ∀ row' ∈ w.persisted, row.inst = row'.inst :=
  h.restarting.rows.chained_iff hinj

end Restarting

/-! ### A topic with two messages -/

namespace Topic

open AuditEvent

attribute [local instance] Hashlib.standard

/-- An event with an actor and a type. -/
def event (type actor : String) : Json.Value :=
  .obj [("actor", json actor), ("event_type", json type)]

/-- The first event. -/
def created : Json.Value := event "decision_created" "u-1"

/-- The same event, with its keys in another order. -/
def reordered : Json.Value := .obj [("event_type", json "decision_created"), ("actor", json "u-1")]

/-- The second event. -/
def vetoed : Json.Value := event "veto_exercised" "u-2"

/-- The topic has both of them. -/
def messages : List Json.Value := [created, vetoed]

/-- The consumer is connected, and no call is under way. -/
def connected : World := ⟨⟨true, "genesis", false⟩, 0, fun _ => none, 0, []⟩

/-- A call of `consume` waits for its first message. -/
def started : World :=
  World.set ⟨⟨true, "genesis", true⟩, 0, fun _ => none, 0, []⟩ 0 (some .message)

/-- The consumer has been connected, and asked to consume. -/
theorem run_started {messages : List Json.Value} :
    Run messages (fun w m => Alone w m ∧ Lossless w m) .start started :=
  (Run.start.step (m := .connect true) ⟨trivial, trivial⟩ (.connect true)).step
    (m := .consume 0) ⟨fun _ => rfl, trivial⟩ (.consume rfl rfl)

/-- `persist_fn` raises for the first message, and another call persists the second one. -/
theorem not_gapless :
    ¬∀ messages w, Run messages (fun _ _ => True) .start w → Gapless messages w := by
  intro h
  have hrun : Run messages (fun _ _ => True) .start started := run_started.mono fun _ _ _ => trivial
  replace hrun := hrun.step (m := .next 0) trivial (.handedOut rfl rfl rfl)
  replace hrun := hrun.step (m := .raised 0) trivial (.raised rfl)
  replace hrun := hrun.step (m := .consume 0) trivial (.consume rfl rfl)
  replace hrun := hrun.step (m := .next 0) trivial (.handedOut rfl rfl rfl)
  replace hrun := hrun.step (m := .persisted 0) trivial (.persisted rfl)
  rcases (h _ _ hrun).kept _ List.mem_cons_self 0 (by decide) with ⟨row, hrow, hoffset⟩ | hawaits
  · rw [List.mem_singleton.1 hrow] at hoffset
    exact absurd hoffset (by decide)
  · obtain ⟨call, row, hrow, _⟩ := hawaits
    cases call with
    | zero => exact World.not_awaits_of_message rfl hrow
    | succ call => exact World.not_awaits_of_none rfl hrow

/-- The first message, persisted by the first instance. -/
def first : Row := ⟨0, 0, created, computeHashChain (eventJson created) "genesis"⟩

/-- The second message, persisted by another instance. -/
def second : Row := ⟨1, 1, vetoed, computeHashChain (eventJson vetoed) "genesis"⟩

/-- The consumer is disconnected after the first message, and another instance goes on. -/
theorem run_restarted : ∃ w, Run messages (fun w m => Alone w m ∧ Lossless w m) .start w ∧
    w.persisted = [first, second] := by
  have hrun : Run messages (fun w m => Alone w m ∧ Lossless w m) .start started := run_started
  replace hrun := hrun.step (m := .next 0) ⟨trivial, rfl⟩ (.handedOut rfl rfl rfl)
  replace hrun := hrun.step (m := .persisted 0) ⟨trivial, trivial⟩ (.persisted rfl)
  replace hrun := hrun.step (m := .disconnect) ⟨trivial, trivial⟩ .disconnect
  replace hrun := hrun.step (m := .ended 0) ⟨trivial, trivial⟩ (.ended rfl)
  replace hrun := hrun.step (m := .create) ⟨trivial, trivial⟩
    (.create fun call => by cases call <;> rfl)
  replace hrun := hrun.step (m := .connect true) ⟨trivial, trivial⟩ (.connect true)
  replace hrun := hrun.step (m := .consume 0)
    ⟨fun call => by cases call <;> rfl, trivial⟩ (.consume rfl rfl)
  replace hrun := hrun.step (m := .next 0) ⟨trivial, rfl⟩ (.handedOut rfl rfl rfl)
  replace hrun := hrun.step (m := .persisted 0) ⟨trivial, trivial⟩ (.persisted rfl)
  exact ⟨_, hrun, rfl⟩

/-- Nothing is skipped when another instance goes on. -/
theorem gapless_restarted : ∃ w : World, w.persisted = [first, second] ∧ Gapless messages w := by
  obtain ⟨w, hrun, hpersisted⟩ := run_restarted
  exact ⟨w, hpersisted, gapless_of_lossless (hrun.mono fun _ _ h => h.2)⟩

/-- The keys of such an event are in order. -/
theorem sortKeys_event (type actor : String) : (event type actor).sortKeys = event type actor := by
  have hsorted : List.Pairwise (fun a b => Json.keyLE a b = true)
      [("actor", json actor), ("event_type", json type)] := by
    simp [Json.keyLE]
  exact congrArg Json.Value.obj (List.mergeSort_of_pairwise hsorted)

/-- Its text, as it is hashed. -/
theorem eventJson_event (type actor : String) :
    eventJson (event type actor) = .ofList ((event type actor).write [' ']) := by
  rw [eventJson, Json.dumps, sortKeys_event]

/-- The hashes of the two events, evaluated. -/
theorem hash_ne_hash : ∀ e ∈ [created, vetoed], ∀ e' ∈ [created, vetoed],
    Sha256.hexdigest (payload (.ofList (e.write [' ']))
      (Sha256.hexdigest (payload (.ofList (e'.write [' '])) "genesis"))) ≠
    Sha256.hexdigest (payload (.ofList (e.write [' '])) "genesis") := by
  decide +kernel

/-- No hash of the two events after another one is their hash after the genesis. -/
theorem hashes_ne : ∀ row ∈ [first, second], ∀ row' ∈ [first, second],
    Hashlib.sha256 (payload (eventJson row.event) row'.hash) ≠
      Hashlib.sha256 (payload (eventJson row.event) "genesis") := by
  have hjson : ∀ e ∈ [created, vetoed], eventJson e = .ofList (e.write [' ']) :=
    List.forall_mem_cons.2 ⟨eventJson_event _ _, List.forall_mem_singleton.2 (eventJson_event _ _)⟩
  have hrows : ∀ row ∈ [first, second], row.event ∈ [created, vetoed] ∧
      row.hash = computeHashChain (eventJson row.event) "genesis" :=
    List.forall_mem_cons.2 ⟨⟨by simp [first], rfl⟩,
      List.forall_mem_singleton.2 ⟨by simp [second], rfl⟩⟩
  intro row hrow row' hrow' h
  obtain ⟨hevent, _⟩ := hrows row hrow
  obtain ⟨hevent', hhash'⟩ := hrows row' hrow'
  rw [hhash', hjson _ hevent, hjson _ hevent'] at h
  exact hash_ne_hash _ hevent _ hevent' (congrArg Bounded.text h)

/-- What the two instances have persisted is no single chain. -/
theorem chained_restarted : ∃ w : World, w.persisted = [first, second] ∧
    (Chained "genesis" w.persisted ↔
      ∀ row ∈ w.persisted, ∀ row' ∈ w.persisted, row.inst = row'.inst) := by
  obtain ⟨w, hrun, hpersisted⟩ := run_restarted
  refine ⟨w, hpersisted, chained_iff_one_instance (hrun.mono fun _ _ h => h.1) ?_⟩
  rw [hpersisted]
  exact fun row hrow row' hrow' h => absurd h (hashes_ne row hrow row' hrow')

/-- The second instance starts again from the genesis. -/
theorem not_chained : ¬∀ messages w,
    Run messages (fun w m => Alone w m ∧ Lossless w m) .start w →
    Chained "genesis" w.persisted := by
  intro h
  obtain ⟨w, hrun, hpersisted⟩ := run_restarted
  have hchained := h messages w hrun
  rw [hpersisted] at hchained
  obtain ⟨_, hchained⟩ := chained_cons.1 hchained
  obtain ⟨hhash, _⟩ := chained_cons.1 hchained
  exact hashes_ne second (by simp) first (by simp) (Bounded.text_injective hhash.symm)

/-- The order of the keys does not matter for the text. -/
theorem eventJson_reordered : eventJson reordered = eventJson created :=
  Json.dumps_eq_iff.2 (congrArg Json.Value.obj
    ((Json.mergeSort_eq_iff (by decide)).2 (List.Perm.swap ..)))

/-- SHA-256 is written in hexadecimal digits. -/
theorem hexadecimal_standard : Hexadecimal := by
  have hdigit : ∀ n < 16, Text.hexDigit n ∈ "0123456789abcdef".toList := by decide
  intro s c hc
  replace hc : c ∈ (Sha256.hexdigest s).toList := hc
  rw [Sha256.hexdigest, String.toList_ofList] at hc
  obtain ⟨_, _, hc⟩ := List.mem_flatMap.1 hc
  obtain ⟨_, _, rfl⟩ := List.mem_map.1 hc
  exact hdigit _ (Nat.mod_lt _ (by decide))

/-- The hash of the first event, and that of the second one after it. -/
def hashes : String × String :=
  let hash := computeHashChain (eventJson created) "genesis"
  (hash, computeHashChain (eventJson vetoed) hash)

/-- The hash of the second event is not that of the first one, evaluated. -/
theorem hash_ne_first :
    Sha256.hexdigest (payload (.ofList (vetoed.write [' ']))
      (Sha256.hexdigest (payload (.ofList (created.write [' '])) "genesis"))) ≠
    Sha256.hexdigest (payload (.ofList (created.write [' '])) "genesis") := by
  decide +kernel

/-- The two hashes are different. -/
theorem sha256_ne_first : Hashlib.sha256 (payload (eventJson vetoed) hashes.1) ≠
    Hashlib.sha256 (payload (eventJson created) "genesis") := by
  rw [hashes, computeHashChain, vetoed, created, eventJson_event, eventJson_event]
  exact fun h => hash_ne_first (congrArg Bounded.text h)

/-- A call that persists both messages before its consumer is disconnected, and one that is stopped
    while it persists the second one, where the first one has its keys in another order. -/
theorem determined_reordered : ∃ w w' : World, w.persisted.map Row.event = [created, vetoed] ∧
    w'.persisted.map Row.event = [reordered, vetoed] ∧
    List.Forall₂ (fun row row' => row.event.sortKeys = row'.event.sortKeys)
      (connected.since w) (connected.since w') := by
  have hrun : Run messages (fun _ m => m.Of 0) started started := .start
  replace hrun := hrun.step (m := .next 0) rfl (.handedOut rfl rfl rfl)
  replace hrun := hrun.step (m := .persisted 0) rfl (.persisted rfl)
  replace hrun := hrun.step (m := .next 0) rfl (.handedOut rfl rfl rfl)
  replace hrun := hrun.step (m := .persisted 0) rfl (.persisted rfl)
  replace hrun := hrun.step (m := .disconnect) trivial .disconnect
  have hrun' : Run [reordered, vetoed] (fun _ m => m.Of 0) started started := .start
  replace hrun' := hrun'.step (m := .next 0) rfl (.handedOut rfl rfl rfl)
  replace hrun' := hrun'.step (m := .persisted 0) rfl (.persisted rfl)
  replace hrun' := hrun'.step (m := .next 0) rfl (.handedOut rfl rfl rfl)
  replace hrun' := hrun'.step (m := .disconnect) trivial .disconnect
  replace hrun' := hrun'.step (m := .persisted 0) rfl (.persisted rfl)
  refine ⟨_, _, rfl, rfl, (consumed_and_determined ⟨0, started, .consume rfl rfl, hrun⟩).2 _ _ _
    ⟨0, started, .consume rfl rfl, hrun'⟩ rfl rfl hexadecimal_standard ?_ ?_⟩
  · -- The payloads are the same two in both chains.
    have hfirst : payload (eventJson reordered) "genesis" = payload (eventJson created) "genesis" :=
      congrArg (payload · _) eventJson_reordered
    have hhash : computeHashChain (eventJson reordered) "genesis" = hashes.1 :=
      congrArg (computeHashChain · _) eventJson_reordered
    have hpayloads : ∀ p ∈ [payload (eventJson created) "genesis",
        payload (eventJson vetoed) hashes.1], ∀ q ∈ [payload (eventJson created) "genesis",
        payload (eventJson vetoed) hashes.1], Hashlib.sha256 p = Hashlib.sha256 q → p = q := by
      refine List.forall_mem_cons.2 ⟨List.forall_mem_cons.2 ⟨fun _ => rfl, ?_⟩,
        List.forall_mem_singleton.2 (List.forall_mem_cons.2 ⟨?_, ?_⟩)⟩
      · exact List.forall_mem_singleton.2 fun h => absurd h.symm sha256_ne_first
      · exact fun h => absurd h sha256_ne_first
      · exact List.forall_mem_singleton.2 fun _ => rfl
    change ∀ p ∈ _, ∀ q ∈ [payload (eventJson reordered) "genesis",
      payload (eventJson vetoed) (computeHashChain (eventJson reordered) "genesis")], _
    rw [hfirst, hhash]
    exact hpayloads
  · change computeHashChain _ (computeHashChain _ _) = computeHashChain _ (computeHashChain _ _)
    rw [eventJson_reordered]

end Topic

end Kafka

end OpenDataGov
