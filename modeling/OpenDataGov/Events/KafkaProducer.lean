import OpenDataGov.Events.KafkaConsumer
import OpenDataGov.Lib.PyValue

/-!
# The Kafka audit producer, and what becomes of its events

Audit events are sent to a Kafka topic as JSON texts, and consumed from there. Producers skip
what they cannot send; what is sent gets into the topic at any time, several times, or never.
Producers, the cluster and the consumer take turns in any order (`Step`); the messages that the
consumer is handed out are what it reads of the texts in the topic.

There may be any number of producers, each of which is connected and disconnected at any time, and
whose client may have been stopped meanwhile (`publishAuditEvent`). An event is a dictionary of
Python, whose text is that of `json.dumps` with `default=str` (`Lib.PyValue`): a value that has no
text, as a dictionary with keys of another kind, keeps the event from being sent. The cluster only
adds messages that have been sent (`Step.append`), and may do so late, out of order and more than
once; nothing makes it add a message at all.

The consumer is that of `Events.KafkaConsumer`, whose runs are about a fixed list of messages. Here
the topic grows while it consumes. This is no difference to it, since the messages that it has not
been handed out yet do not matter to a step (`step_of_isPrefix`).

* `Run.consumed`: to the consumer, a run is one with the messages that are in the topic at its
  end, and what it reads of a message is the JSON of the event sent (`Sound.messages`);
* `persisted_of_published`: what is persisted has been published, each copy once at most;
* `persisted_once`: where nothing is lost on the way to the database, each copy is persisted
  once;
* `consumed_of_published`: what a call of `consume` persists are the events in the topic, in
  their order, in a chain.

That a message is persisted twice which the cluster has added twice is possible (`Twice`): nothing
in the message would tell. Logging and the partitions of the topic are left out.
-/

namespace OpenDataGov

open Json (PyValue)

/-- An audit event, as a dictionary of Python. -/
abbrev Event := Keyed.Dict String PyValue

/-- A string as a Python value. -/
def Event.str (s : String) : PyValue := .scalar ⟨.str s, trivial⟩

/-- A dictionary as a Python value. -/
def Event.value (e : Event) : PyValue :=
  .dict (e.rows.map fun kv => (.scalar ⟨.str kv.1, trivial⟩, kv.2))

/-- The headers of the current trace. -/
abbrev TraceHeaders := Keyed.Dict String String

/-- The event with the headers of the current trace, if there are any and it has none. -/
def Event.traced (headers : TraceHeaders) (e : Event) : Event :=
  if headers.rows = [] then e
  else e.insert ("_trace", Event.value (headers.mapValues Event.str))

/-- The client of a cluster that has been started, or stopped again. -/
inductive Client
  | started
  | stopped
  deriving DecidableEq

/-- A publisher of audit events. -/
structure KafkaAuditProducer where
  producer : Option Client
  deriving DecidableEq

namespace KafkaAuditProducer

/-- A new producer. -/
def init : KafkaAuditProducer := ⟨none⟩

/-- Connecting to the cluster, where the client has `started` or not. -/
def connect (started : Bool) (_ : KafkaAuditProducer) : KafkaAuditProducer :=
  ⟨if started then some .started else none⟩

/-- Disconnecting: the client is stopped, and still there. -/
def disconnect (p : KafkaAuditProducer) : KafkaAuditProducer := ⟨p.producer.map fun _ => .stopped⟩

/-- There is a client, which may have been stopped. -/
def isConnected (p : KafkaAuditProducer) : Bool := p.producer.isSome

/-- What the client makes of an event, if it can. -/
def valueSerializer (e : Event) : Option String := Json.pyDumps e.value

/-- Publishing an event, with the headers of the current trace unless getting them fails: the
    event after that, and the message that the client sends. Nothing is raised. -/
def publishAuditEvent (headers : Option TraceHeaders) (e : Event) (p : KafkaAuditProducer) :
    Event × Option String :=
  match p.producer, headers with
  | none, _ => (e, none)
  | some _, none => (e, none)
  | some .stopped, some headers => (e.traced headers, none)
  | some .started, some headers => (e.traced headers, valueSerializer (e.traced headers))

end KafkaAuditProducer

open KafkaAuditProducer

/-- What is sent is the text of the event, with the headers of a trace. -/
theorem publishAuditEvent_eq_some {headers : Option TraceHeaders} {e e' : Event}
    {p : KafkaAuditProducer} {t : String} (h : p.publishAuditEvent headers e = (e', some t)) :
    valueSerializer e' = some t ∧ ∃ headers, e' = e.traced headers := by
  rcases p with ⟨_ | _ | _⟩ <;> rcases headers with _ | headers <;>
    obtain ⟨rfl, htext⟩ := Prod.mk.inj h
  case some.started.some => exact ⟨htext, headers, rfl⟩
  all_goals cases htext

namespace Pipeline

/-- The values of the messages of a topic, up to the first one that is not the text of one,
    where the iterator over the messages raises. -/
def readable [Json.FloatReader] : List String → List Json.Value
  | [] => []
  | t :: ts =>
    match Json.loads t with
    | none => []
    | some v => v :: readable ts

/-- A message: the event that has been sent, and its text. -/
structure Message where
  event : Event
  text : String

/-- The producers, by number, the messages that they have sent, those in the topic, and the
    consumer. -/
structure World where
  producers : ℕ → KafkaAuditProducer
  sent : List Message
  topic : List Message
  consumer : Kafka.World

namespace World

/-- Nothing has happened. -/
def start : World := ⟨fun _ => .init, [], [], .start⟩

/-- The messages that the consumer can be handed out. -/
def messages [Json.FloatReader] (w : World) : List Json.Value :=
  readable (w.topic.map Message.text)

end World

/-- What can happen: to a producer, to the topic, and to the consumer. -/
inductive Move
  | connect (i : ℕ) (started : Bool)
  | disconnect (i : ℕ)
  | publish (i : ℕ) (headers : Option TraceHeaders) (e : Event)
  /-- The cluster adds a message to the topic. -/
  | append (m : Message)
  | consume (m : Kafka.Move)

section Steps

variable [Hashlib] [Json.FloatReader]

/-- The steps of the producers, the cluster and the consumer. -/
inductive Step : World → Move → World → Prop
  | connect {w : World} (i : ℕ) (started : Bool) : Step w (.connect i started)
      { w with producers := Function.update w.producers i ((w.producers i).connect started) }
  | disconnect {w : World} (i : ℕ) : Step w (.disconnect i)
      { w with producers := Function.update w.producers i (w.producers i).disconnect }
  | published {w : World} {i : ℕ} {headers : Option TraceHeaders} {e e' : Event} {t : String} :
      (w.producers i).publishAuditEvent headers e = (e', some t) →
      Step w (.publish i headers e) { w with sent := w.sent ++ [⟨e', t⟩] }
  | skipped {w : World} {i : ℕ} {headers : Option TraceHeaders} {e e' : Event} :
      (w.producers i).publishAuditEvent headers e = (e', none) →
      Step w (.publish i headers e) w
  /-- What has been sent gets there late, or once more. -/
  | append {w : World} {m : Message} : m ∈ w.sent →
      Step w (.append m) { w with topic := w.topic ++ [m] }
  | consume {w : World} {m : Kafka.Move} {c : Kafka.World} :
      Kafka.Step w.messages w.consumer m c → Step w (.consume m) { w with consumer := c }

/-- The runs from `w₀` in which all that happens to the consumer is such. -/
inductive Run (P : Kafka.World → Kafka.Move → Prop) (w₀ : World) : World → Prop
  | start : Run P w₀ w₀
  | step {w w' : World} {m : Move} : Run P w₀ w → (∀ m', m = .consume m' → P w.consumer m') →
      Step w m w' → Run P w₀ w'

variable {P Q : Kafka.World → Kafka.Move → Prop} {w₀ w w' : World}

/-- Fewer moves of the consumer are moves of the other kind as well. -/
theorem Run.mono (h : Run P w₀ w) (hPQ : ∀ c m, P c m → Q c m) : Run Q w₀ w := by
  induction h with
  | start => exact .start
  | step _ hm hst ih => exact ih.step (fun m' h => hPQ _ _ (hm m' h)) hst

/-- A run goes on where another one ends. -/
theorem Run.trans (h : Run P w₀ w) (h' : Run P w w') : Run P w₀ w' := by
  induction h' with
  | start => exact h
  | step _ hm hst ih => exact ih.step hm hst

end Steps

/-! ### What the consumer is handed out -/

section Reading

variable [Hashlib] [Json.FloatReader] {P : Kafka.World → Kafka.Move → Prop} {w₀ w w' : World}
  {m : Move} {messages messages' : List Json.Value} {c c' : Kafka.World} {m' : Kafka.Move}

omit [Hashlib] in
/-- What is added to the topic is read after what was there. -/
theorem readable_prefix (ts ts' : List String) : readable ts <+: readable (ts ++ ts') := by
  induction ts with
  | nil => exact List.nil_prefix
  | cons t ts ih =>
    rw [List.cons_append, readable, readable]
    cases Json.loads t with
    | none => exact List.prefix_rfl
    | some v => exact List.prefix_cons_inj v |>.2 ih

omit [Json.FloatReader] in
/-- More messages are in nobody's way. -/
theorem step_of_isPrefix (hinit : messages <+: messages') (h : Kafka.Step messages c m' c') :
    Kafka.Step messages' c m' c' := by
  have hget : ∀ {i : ℕ} {v : Json.Value}, messages[i]? = some v → messages'[i]? = some v := by
    obtain ⟨more, rfl⟩ := hinit
    intro i v hv
    obtain ⟨hi, -⟩ := List.getElem?_eq_some_iff.1 hv
    rw [List.getElem?_append_left hi, hv]
  cases h with
  | create h => exact .create h
  | connect started => exact .connect started
  | disconnect => exact .disconnect
  | consume hcall hconsume => exact .consume hcall hconsume
  | returned hcall hconsume => exact .returned hcall hconsume
  | handedOut hcall hevent hhash => exact .handedOut hcall (hget hevent) hhash
  | dropped hcall hevent hhash => exact .dropped hcall (hget hevent) hhash
  | ended hcall => exact .ended hcall
  | persisted hcall => exact .persisted hcall
  | raised hcall => exact .raised hcall

omit [Json.FloatReader] in
/-- So a run with fewer messages is one with more of them. -/
theorem run_of_isPrefix (hinit : messages <+: messages') (h : Kafka.Run messages P c c') :
    Kafka.Run messages' P c c' := by
  induction h with
  | start => exact .start
  | step _ hm hst ih => exact ih.step hm (step_of_isPrefix hinit hst)

/-- A step adds to the topic, or moves the consumer. -/
theorem Step.cases_consumer (h : Step w m w') :
    (w'.consumer = w.consumer ∧ w.messages <+: w'.messages) ∨
      ∃ m', m = .consume m' ∧ w'.messages = w.messages ∧
        Kafka.Step w.messages w.consumer m' w'.consumer := by
  cases h with
  | connect | disconnect | published | skipped => exact .inl ⟨rfl, List.prefix_rfl⟩
  | append =>
    refine .inl ⟨rfl, ?_⟩
    rw [World.messages, World.messages, List.map_append]
    exact readable_prefix ..
  | consume h => exact .inr ⟨_, rfl, rfl, h⟩

/-- To the consumer, a run is one with the messages that are in the topic at its end. -/
theorem Run.consumed (h : Run P w₀ w) : Kafka.Run w.messages P w₀.consumer w.consumer := by
  induction h with
  | start => exact .start
  | @step w w' m _ hm hst ih =>
    rcases hst.cases_consumer with ⟨hconsumer, hinit⟩ | ⟨m', rfl, hmessages, hst⟩
    · rw [hconsumer]
      exact run_of_isPrefix hinit ih
    · rw [hmessages]
      exact ih.step (hm m' rfl) hst

end Reading

/-! ### What is in the topic -/

section Sending

variable [Hashlib] [Json.FloatReader] {P : Kafka.World → Kafka.Move → Prop} {w₀ w w' : World}
  {m : Move}

/-- A message is the text of an event that has been published, with the headers of a trace. -/
structure Genuine (m : Message) : Prop where
  text : valueSerializer m.event = some m.text
  published : ∃ headers e, m.event = Event.traced headers e

/-- What is sent is genuine, and what is in the topic has been sent. -/
structure Sound (w : World) : Prop where
  genuine : ∀ m ∈ w.sent, Genuine m
  sent : ∀ m ∈ w.topic, m ∈ w.sent

omit [Hashlib] [Json.FloatReader] in
/-- Nothing has been sent. -/
theorem sound_start : Sound .start where
  genuine _ h := absurd h List.not_mem_nil
  sent _ h := absurd h List.not_mem_nil

/-- What is sent is the text of an event, and what is added to the topic has been sent. -/
theorem Sound.step (h : Sound w) (hst : Step w m w') : Sound w' := by
  cases hst with
  | connect | disconnect | skipped | consume => exact ⟨h.genuine, h.sent⟩
  | published hpublished =>
    obtain ⟨htext, headers, he⟩ := publishAuditEvent_eq_some hpublished
    refine ⟨List.forall_mem_append.2 ⟨h.genuine, List.forall_mem_singleton.2 ?_⟩, ?_⟩
    · exact ⟨htext, headers, _, he⟩
    · exact fun m hm => List.mem_append_left _ (h.sent m hm)
  | append hm =>
    exact ⟨h.genuine, List.forall_mem_append.2 ⟨h.sent, List.forall_mem_singleton.2 hm⟩⟩

/-- So it stays sound. -/
theorem Run.sound_of (h : Run P w₀ w) (h₀ : Sound w₀) : Sound w := by
  induction h with
  | start => exact h₀
  | step _ _ hst ih => exact ih.step hst

/-- It is sound from the start. -/
theorem Run.sound (h : Run P .start w) : Sound w := h.sound_of sound_start

omit [Hashlib] in
/-- All that is in the topic can be read, as the JSON of the events. -/
theorem Sound.messages (h : Sound w) :
    w.messages.map some = w.topic.map fun m => m.event.value.json := by
  have hreadable : ∀ ms : List Message, (∀ m ∈ ms, Genuine m) →
      (readable (ms.map Message.text)).map some = ms.map fun m => m.event.value.json := by
    intro ms hms
    induction ms with
    | nil => rfl
    | cons m ms ih =>
      obtain ⟨hm, hms⟩ := List.forall_mem_cons.1 hms
      have hloads := Json.loads_pyDumps hm.text
      obtain ⟨v, hv⟩ : ∃ v, m.event.value.json = some v := by
        obtain ⟨w, hw, -⟩ := Option.map_eq_some_iff.1 hm.text
        exact ⟨w.collapse, by rw [PyValue.json, hw]; rfl⟩
      rw [hv] at hloads
      rw [List.map_cons, List.map_cons, readable, hloads, hv]
      exact congrArg (some v :: ·) (ih hms)
  exact hreadable w.topic fun m hm => h.genuine m (h.sent m hm)

/-- What is persisted is the JSON of an event that has been published, and each message of the
    topic is persisted once at most. -/
theorem persisted_of_published (h : Run P .start w) :
    (w.consumer.persisted.map Kafka.Row.offset).Nodup ∧
      ∀ row ∈ w.consumer.persisted, ∃ headers e t, ⟨Event.traced headers e, t⟩ ∈ w.sent ∧
        w.topic[row.offset]? = some ⟨e.traced headers, t⟩ ∧
        (e.traced headers).value.json = some row.event := by
  have hconsumer := h.consumed.sound
  refine ⟨hconsumer.nodup, fun row hrow => ?_⟩
  obtain ⟨-, hevent⟩ := hconsumer.persisted row hrow
  have hsome : (w.messages.map some)[row.offset]? = some (some row.event) := by
    rw [List.getElem?_map, hevent]
    rfl
  rw [h.sound.messages, List.getElem?_map] at hsome
  obtain ⟨m, hm, hjson⟩ := Option.map_eq_some_iff.1 hsome
  have hsent := h.sound.sent m (List.mem_of_getElem? hm)
  obtain ⟨e', t⟩ := m
  obtain ⟨headers, e, rfl⟩ := (h.sound.genuine _ hsent).published
  exact ⟨headers, e, t, hsent, hm, hjson⟩

/-- In a lossless run, what is persisted once all has been handed out is each message of the
    topic, and each one once. -/
theorem persisted_once (h : Run Kafka.Lossless .start w)
    (hall : w.consumer.handedOut = w.topic.length)
    (hdone : ∀ call row, ¬w.consumer.Awaits call row) :
    (w.consumer.persisted.map Kafka.Row.offset).Perm (List.range w.topic.length) ∧
      (w.consumer.persisted.map fun row => some row.event).Perm
        (w.topic.map fun m => m.event.value.json) := by
  have hsound := h.consumed.sound
  -- No offset is there twice, so it is enough that they are all there.
  have hoffsets : (w.consumer.persisted.map Kafka.Row.offset).Perm
      (List.range w.topic.length) := by
    refine (List.perm_ext_iff_of_nodup hsound.nodup List.nodup_range).2 fun i => ?_
    rw [List.mem_range, ← hall]
    constructor
    · intro hi
      obtain ⟨row, hrow, rfl⟩ := List.mem_map.1 hi
      exact (hsound.persisted row hrow).1
    · intro hi
      rcases h.consumed.kept i hi with ⟨row, hrow, rfl⟩ | ⟨call, row, hrow, -⟩
      · exact List.mem_map_of_mem hrow
      · exact absurd hrow (hdone call row)
  refine ⟨hoffsets, ?_⟩
  -- The rows have the messages that are at their offsets.
  have hevents : (w.consumer.persisted.map fun row => some row.event) =
      (w.consumer.persisted.map Kafka.Row.offset).map fun i => w.messages[i]? := by
    rw [List.map_map]
    exact List.map_congr_left fun row hrow => ((hsound.persisted row hrow).2).symm
  -- There is a message at each offset of the topic, as all texts can be read.
  have hmessages : (List.range w.topic.length).map (fun i => w.messages[i]?) =
      w.messages.map some := by
    have hlength : w.messages.length = w.topic.length := by
      simpa using congrArg List.length h.sound.messages
    rw [← hlength]
    refine List.ext_getElem (by simp) fun i hi _ => ?_
    simp
  rw [hevents, ← h.sound.messages, ← hmessages]
  exact hoffsets.map _

/-- What a call of `consume` persists, from the moment that it waits for its first message, is
    the JSON of the events that are next in the topic, in a chain that ends with the last hash. -/
theorem consumed_of_published {call : ℕ} (h₀ : Run P .start w₀)
    (hcall : w₀.consumer.calls call = some .message) (h : Run (fun _ m => m.Of call) w₀ w) :
    ((w₀.consumer.since w.consumer).map fun row => some row.event) <+:
        (w.topic.drop w₀.consumer.handedOut).map (fun m => m.event.value.json) ∧
      Kafka.Chained w₀.consumer.consumer.lastHash (w₀.consumer.since w.consumer) ∧
      w.consumer.consumer.lastHash =
        HashChain.lastHash Kafka.Row.hash w₀.consumer.consumer.lastHash
          (w₀.consumer.since w.consumer) := by
  have hsound : Sound w := h.sound_of h₀.sound
  have hconsumed : Kafka.Consumed w.messages w₀.consumer w.consumer :=
    h.consumed.consumed fun _ => Kafka.World.not_awaits_of_message hcall
  refine ⟨?_, hconsumed.chained, hconsumed.lastHash⟩
  have hevents := hconsumed.events.map some
  rwa [List.map_drop, hsound.messages, ← List.map_drop, List.map_map] at hevents

end Sending

/-! ### An event that gets there twice -/

namespace Twice

attribute [local instance] Hashlib.standard Json.FloatReader.byText

/-- An event, as the services publish it. -/
def event : Event := Keyed.Dict.ofList [("event_type", Event.str "decision_created")]

/-- The headers of a trace. -/
def headers : TraceHeaders := Keyed.Dict.ofList [("traceparent", "00-1")]

/-- What is read of it. -/
def value : Json.Value :=
  .obj [("event_type", .scalar (.str "decision_created")),
    ("_trace", .obj [("traceparent", .scalar (.str "00-1"))])]

/-- The message that is sent, with the headers of the trace in it. -/
def message : Message :=
  ⟨event.traced headers, String.ofList (value.write [' '])⟩

/-- The message has been sent, and twice been added to the topic. -/
def appended : World :=
  { World.start with
    producers := Function.update World.start.producers 0 ⟨some .started⟩
    sent := [message]
    topic := [message, message] }

/-- One producer publishes, and the cluster adds the message twice. -/
theorem run_appended {P : Kafka.World → Kafka.Move → Prop} : Run P .start appended := by
  have hrun : Run P .start _ := Run.start.step (m := .connect 0 true) (by simp) (.connect 0 true)
  replace hrun := hrun.step (m := .publish 0 (some headers) event) (by simp) (.published rfl)
  replace hrun := hrun.step (m := .append message) (by simp) (.append List.mem_cons_self)
  exact hrun.step (m := .append message) (by simp) (.append List.mem_cons_self)

/-- The consumer is handed out the same value twice. -/
theorem messages_appended : appended.messages = [value, value] := by
  refine List.map_injective_iff.2 (Option.some_injective _) ?_
  exact (run_appended (P := fun _ _ => True)).sound.messages.trans rfl

/-- A call of `consume` waits for its first message. -/
def started : World := { appended with consumer := Kafka.Topic.started }

/-- The consumer has been connected, and asked to consume. -/
theorem run_started : Run Kafka.Lossless .start started := by
  have hrun : Run Kafka.Lossless .start appended := run_appended
  replace hrun := hrun.step (m := .consume (.connect true)) (by rintro _ ⟨⟩; trivial)
    (.consume (.connect true))
  exact hrun.step (m := .consume (.consume 0)) (by rintro _ ⟨⟩; trivial)
    (.consume (.consume rfl rfl))

/-- The call persists both. -/
theorem run_done : ∃ w, Run (fun w m => Kafka.Lossless w m ∧ m.Of 0) started w ∧
    w.topic = [message, message] ∧ w.consumer.handedOut = 2 ∧
    (∀ call row, ¬w.consumer.Awaits call row) ∧
    w.consumer.persisted.map Kafka.Row.event = [value, value] := by
  have hfirst : started.messages[0]? = some value := congrArg (·[0]?) messages_appended
  have hsecond : started.messages[1]? = some value := congrArg (·[1]?) messages_appended
  have hrun : Run (fun w m => Kafka.Lossless w m ∧ m.Of 0) started started := .start
  replace hrun := hrun.step (m := .consume (.next 0)) (by rintro _ ⟨⟩; exact ⟨rfl, rfl⟩)
    (.consume (.handedOut rfl hfirst rfl))
  replace hrun := hrun.step (m := .consume (.persisted 0)) (by rintro _ ⟨⟩; exact ⟨trivial, rfl⟩)
    (.consume (.persisted rfl))
  replace hrun := hrun.step (m := .consume (.next 0)) (by rintro _ ⟨⟩; exact ⟨rfl, rfl⟩)
    (.consume (.handedOut rfl hsecond rfl))
  replace hrun := hrun.step (m := .consume (.persisted 0)) (by rintro _ ⟨⟩; exact ⟨trivial, rfl⟩)
    (.consume (.persisted rfl))
  refine ⟨_, hrun, rfl, rfl, fun call row hrow => ?_, rfl⟩
  cases call with
  | zero => exact Kafka.World.not_awaits_of_message rfl hrow
  | succ call => exact Kafka.World.not_awaits_of_none rfl hrow

/-- The event is persisted twice, at two offsets. -/
theorem persisted_of_published_done : ∃ w : World,
    w.consumer.persisted.map Kafka.Row.event = [value, value] ∧
      (w.consumer.persisted.map Kafka.Row.offset).Nodup := by
  obtain ⟨w, hrun, -, -, -, hpersisted⟩ := run_done
  have hrun := run_started.trans (hrun.mono fun _ _ h => h.1)
  exact ⟨w, hpersisted, (persisted_of_published hrun).1⟩

/-- Each of the two copies is persisted once. -/
theorem persisted_once_done : ∃ w : World, w.topic = [message, message] ∧
    (w.consumer.persisted.map fun row => some row.event).Perm
      (w.topic.map fun m => m.event.value.json) := by
  obtain ⟨w, hrun, htopic, hhandedOut, hdone, -⟩ := run_done
  have hrun := run_started.trans (hrun.mono fun _ _ h => h.1)
  have hall : w.consumer.handedOut = w.topic.length := by rw [hhandedOut, htopic]; rfl
  exact ⟨w, htopic, (persisted_once hrun hall hdone).2⟩

/-- The two rows are chained from the genesis. -/
theorem consumed_of_published_done : ∃ w : World,
    w.consumer.persisted.map Kafka.Row.event = [value, value] ∧
      Kafka.Chained "genesis" (started.consumer.since w.consumer) := by
  obtain ⟨w, hrun, -, -, -, hpersisted⟩ := run_done
  have hcall : started.consumer.calls 0 = some .message := rfl
  exact ⟨w, hpersisted,
    (consumed_of_published run_started hcall (hrun.mono fun _ _ h => h.2)).2.1⟩

end Twice

end Pipeline

end OpenDataGov
