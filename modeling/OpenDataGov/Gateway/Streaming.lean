import OpenDataGov.Lib.Loop
import Mathlib.Data.Nat.Find
import Mathlib.Order.Basic

/-!
# Streaming

How the proxy copies the body of a response to its client (`streamBody`): chunk by chunk,
flushing each of them, until a read or a write fails.

The upstream body is any sequence of results of `Read`, which may have bytes and an error at the
same time, or neither. The client is a writer of which any write may fail (`Client`). The loop has
no bound of its own; it is the loop of `Lib.Loop`, which returns if something that it goes down in
does, here the number of readings up to the first one with an error.

* `Invariant`: what has been written and flushed are the chunks that have been read, and no
  write has failed;
* `turn_spec`: a turn keeps it and reads on, or ends the loop with everything delivered up to an
  error;
* `StreamBody.delivered`: so streaming ends with the chunks delivered, up to an error;
* `streamBody_delivers`: and the client gets what was read, up to the first error of a read
  or up to the first write that fails, each chunk once and in order.

The error of a read is looked at after its bytes have been written, so the bytes that come with the
end of the body are not lost. Headers and the status are copied before, and are not modelled.
-/

namespace OpenDataGov

namespace Gateway

/-- An error of a reader. -/
inductive ReadError
  | eof
  | other (msg : String)
  deriving DecidableEq

/-- What `Read` has put into the buffer, and the error that it returns with it. -/
structure ReadResult where
  bytes : List UInt8
  length_le : bytes.length ≤ 4096
  err : Option ReadError

/-- What is done with the writer. -/
inductive WriterOp
  | wrote (chunk : List UInt8)
  | flushed
  deriving DecidableEq

/-- The state of the loop: how often it has read and written, what it has done with the
    writer, and what it has logged. -/
structure Stream where
  reads : ℕ
  writes : ℕ
  ops : List WriterOp
  log : List String

/-- A client, as a writer: what its writes return, one after another, and whether it is a
    `Flusher`. -/
structure Client where
  writeErr : ℕ → Option String
  canFlush : Bool

/-- Writing and flushing what has been read, if it is anything. The loop ends when this
    fails. -/
def writeChunk (w : Client) (bytes : List UInt8) (s : Stream) : Stream ⊕ Stream :=
  if 0 < bytes.length then
    match w.writeErr s.writes with
    | some msg =>
      .inr { s with
        writes := s.writes + 1
        log := s.log ++ ["proxy: failed to write response: " ++ msg] }
    | none =>
      .inl { s with
        writes := s.writes + 1
        ops := s.ops ++ .wrote bytes :: if w.canFlush then [.flushed] else [] }
  else .inl s

/-- One turn of the loop, with the readings of the source. -/
def turn (src : ℕ → ReadResult) (w : Client) (s : Stream) : Stream ⊕ Stream :=
  let r := src s.reads
  match writeChunk w r.bytes { s with reads := s.reads + 1 } with
  | .inr s => .inr s
  | .inl s =>
    match r.err with
    | none => .inl s
    | some .eof => .inr s
    | some (.other msg) =>
      .inr { s with log := s.log ++ ["proxy: error reading upstream response: " ++ msg] }

/-- Streaming the body of a response ends with `r`. -/
def StreamBody (src : ℕ → ReadResult) (w : Client) (r : Stream) : Prop :=
  Loop.Returns (turn src w) ⟨0, 0, [], []⟩ r

/-- The bytes that the writer has accepted. -/
def acceptedBytes (ops : List WriterOp) : List UInt8 :=
  ops.flatMap fun
    | .wrote chunk => chunk
    | .flushed => []

/-- The chunks of the first `i` readings. Empty ones are not written. -/
def chunks (src : ℕ → ReadResult) (i : ℕ) : List (List UInt8) :=
  ((List.range i).map fun j => (src j).bytes).filter (· ≠ [])

/-- Writing chunks, with a flush after each if the writer can. -/
def delivery (canFlush : Bool) (cs : List (List UInt8)) : List WriterOp :=
  cs.flatMap fun chunk => .wrote chunk :: if canFlush then [.flushed] else []

/-- All that was read has been delivered. -/
structure Invariant (src : ℕ → ReadResult) (w : Client) (s : Stream) : Prop where
  writes : s.writes = (chunks src s.reads).length
  accepted : ∀ j < s.writes, w.writeErr j = none
  ops : s.ops = delivery w.canFlush (chunks src s.reads)

/-- The first `m` chunks of the readings up to `k` have been delivered: all of them, or
    those before the first write that fails. -/
structure Delivered (src : ℕ → ReadResult) (w : Client) (k m : ℕ) (s : Stream) : Prop where
  le : m ≤ (chunks src (k + 1)).length
  accepted : ∀ j < m, w.writeErr j = none
  failed : m < (chunks src (k + 1)).length → w.writeErr m ≠ none
  ops : s.ops = delivery w.canFlush ((chunks src (k + 1)).take m)

variable {src : ℕ → ReadResult} {w : Client} {k m i : ℕ} {s : Stream} {canFlush : Bool}
  {cs : List (List UInt8)} {chunk : List UInt8}

/-- A reading adds its bytes as a chunk, if there are any. -/
theorem chunks_succ : chunks src (i + 1) =
    chunks src i ++ if (src i).bytes ≠ [] then [(src i).bytes] else [] := by
  rw [chunks, List.range_succ, List.map_append, List.filter_append]
  simp [chunks, List.filter_cons]

/-- What has been read stays in its place. -/
theorem chunks_prefix (h : i ≤ k) : chunks src i <+: chunks src k := by
  induction h with
  | refl => exact List.prefix_rfl
  | step _ ih =>
    rw [chunks_succ]
    exact ih.trans (List.prefix_append ..)

/-- A chunk is delivered after the ones before it. -/
theorem delivery_concat : delivery canFlush (cs ++ [chunk]) =
    delivery canFlush cs ++ .wrote chunk :: if canFlush then [.flushed] else [] := by
  simp [delivery]

/-- What is accepted of a delivery are its chunks, one after another. -/
theorem acceptedBytes_delivery : acceptedBytes (delivery canFlush cs) = cs.flatten := by
  induction cs with
  | nil => rfl
  | cons chunk cs ih =>
    rw [delivery, List.flatMap_cons, acceptedBytes, List.flatMap_append, List.flatten_cons]
    rw [delivery, acceptedBytes] at ih
    rw [ih]
    cases canFlush <;> simp

/-- The chunks together are all that was read. -/
theorem flatten_chunks :
    (chunks src i).flatten = (List.range i).flatMap fun j => (src j).bytes := by
  rw [chunks, List.flatMap, List.flatten_filter_ne_nil]

/-- What has been read and not been written yet is delivered next, or the loop ends. -/
theorem writeChunk_spec (h : Invariant src w s) :
    match writeChunk w (src s.reads).bytes { s with reads := s.reads + 1 } with
    | .inl s' => s'.reads = s.reads + 1 ∧ Invariant src w s'
    | .inr s' => (chunks src s.reads).length < (chunks src (s.reads + 1)).length ∧
      Delivered src w s.reads (chunks src s.reads).length s' := by
  rw [writeChunk]
  -- An empty chunk is not written, and is not counted among the chunks either.
  by_cases hbytes : (src s.reads).bytes = []
  · have hchunks : chunks src (s.reads + 1) = chunks src s.reads := by
      rw [chunks_succ, if_neg (not_not.2 hbytes), List.append_nil]
    rw [if_neg (by simp [hbytes])]
    exact ⟨rfl, by rw [hchunks]; exact h.writes, h.accepted, by rw [hchunks]; exact h.ops⟩
  · have hchunks : chunks src (s.reads + 1) = chunks src s.reads ++ [(src s.reads).bytes] := by
      rw [chunks_succ, if_pos hbytes]
    rw [if_pos (List.length_pos_iff.2 hbytes)]
    cases herr : w.writeErr s.writes with
    | none =>
      refine ⟨rfl, ?_, fun j hj => ?_, ?_⟩
      · rw [hchunks, List.length_append, List.length_singleton, ← h.writes]
      · rcases Nat.lt_succ_iff_lt_or_eq.1 hj with hlt | rfl
        · exact h.accepted j hlt
        · exact herr
      · rw [hchunks, delivery_concat, ← h.ops]
    | some msg =>
      -- The write fails: what has been delivered are the chunks before this one.
      have hlt : (chunks src s.reads).length < (chunks src (s.reads + 1)).length := by
        rw [hchunks, List.length_append]
        exact Nat.lt_add_one _
      refine ⟨hlt, hlt.le, ?_, fun _ => ?_, ?_⟩
      · rw [← h.writes]
        exact h.accepted
      · rw [← h.writes, herr]
        exact Option.some_ne_none msg
      · rw [hchunks, List.take_left]
        exact h.ops

/-- When the loop ends after a delivery, all has been delivered. -/
theorem Invariant.delivered (h : Invariant src w s) (log : List String)
    (hreads : s.reads = i + 1) :
    Delivered src w i (chunks src (i + 1)).length { s with log := log } where
  le := le_rfl
  accepted := by
    rw [← hreads, ← h.writes]
    exact h.accepted
  failed hlt := absurd hlt (lt_irrefl _)
  ops := by
    rw [List.take_length, ← hreads]
    exact h.ops

/-- A failed write before the reading `k` is the first one among all. -/
theorem Delivered.mono (h : Delivered src w i m s) (hm : m < (chunks src (i + 1)).length)
    (hik : i ≤ k) : Delivered src w k m s := by
  have hprefix : chunks src (i + 1) <+: chunks src (k + 1) := chunks_prefix (by omega)
  obtain ⟨rest, hrest⟩ := hprefix
  have hlt : m < (chunks src (k + 1)).length := by
    rw [← hrest, List.length_append]
    omega
  exact ⟨hlt.le, h.accepted, fun _ => h.failed hm, by
    rw [← hrest, List.take_append_of_le_length hm.le]
    exact h.ops⟩

/-- A turn goes on to the next reading, or ends the loop when all has been delivered up to
    the first error. -/
theorem turn_spec (hk : (src k).err ≠ none) (hfirst : ∀ j < k, (src j).err = none)
    (h : s.reads ≤ k ∧ Invariant src w s) :
    Loop.Turn (fun s => s.reads ≤ k ∧ Invariant src w s) (fun s => k + 1 - s.reads)
      (fun r => ∃ m, Delivered src w k m r) s (turn src w s) := by
  obtain ⟨hle, h⟩ := h
  have hwrite := writeChunk_spec h
  rw [turn]
  cases hstep : writeChunk w (src s.reads).bytes { s with reads := s.reads + 1 } with
  | inr s' =>
    rw [hstep] at hwrite
    exact ⟨_, hwrite.2.mono hwrite.1 hle⟩
  | inl s' =>
    rw [hstep] at hwrite
    obtain ⟨hreads, h'⟩ := hwrite
    by_cases heq : s.reads = k
    · -- The reading with the first error: the loop ends.
      rw [heq] at hreads
      subst heq
      cases herr : (src s.reads).err with
      | none => exact absurd herr hk
      | some err =>
        cases err with
        | eof => exact ⟨_, h'.delivered s'.log hreads⟩
        | other msg => exact ⟨_, h'.delivered _ hreads⟩
    · -- Before it, the reading has no error: the loop goes on, with one reading less to come.
      have hlt : s.reads < k := by omega
      rw [hfirst _ hlt]
      refine ⟨⟨?_, h'⟩, ?_⟩
      · omega
      · change k + 1 - s'.reads < k + 1 - s.reads
        omega

/-- Streaming returns, when it has delivered the chunks up to the first error. -/
theorem exists_streamBody (hk : (src k).err ≠ none) (hfirst : ∀ j < k, (src j).err = none) :
    ∃ r m, StreamBody src w r ∧ Delivered src w k m r := by
  have hstart : Invariant src w ⟨0, 0, [], []⟩ := ⟨rfl, fun _ hj => absurd hj (by simp), rfl⟩
  obtain ⟨r, hr, m, hm⟩ := Loop.returns_of_variant _ (fun s => turn_spec hk hfirst)
    ⟨Nat.zero_le _, hstart⟩
  exact ⟨r, m, hr, hm⟩

/-- It does so whatever it ends with. -/
theorem StreamBody.delivered {r : Stream} (h : StreamBody src w r) (hk : (src k).err ≠ none)
    (hfirst : ∀ j < k, (src j).err = none) : ∃ m, Delivered src w k m r := by
  obtain ⟨r', m, hr', hm⟩ := exists_streamBody (w := w) hk hfirst
  obtain rfl := h.unique hr'
  exact ⟨m, hm⟩

/-- Streaming the body of a response returns, and loses and repeats nothing. With `k` the
    first reading that has an error, the writer has accepted all the bytes of the readings
    up to this one, or the chunks before the first write that fails, with one flush after
    each if it can. -/
theorem streamBody_delivers (src : ℕ → ReadResult) (w : Client)
    (herr : ∃ k, (src k).err ≠ none) :
    ∃ r k m, StreamBody src w r ∧ (src k).err ≠ none ∧ (∀ j < k, (src j).err = none) ∧
      Delivered src w k m r ∧
      acceptedBytes r.ops = ((chunks src (k + 1)).take m).flatten ∧
      (m = (chunks src (k + 1)).length →
        acceptedBytes r.ops = (List.range (k + 1)).flatMap fun j => (src j).bytes) := by
  classical
  have hk := Nat.find_spec herr
  have hfirst (j : ℕ) (hj : j < Nat.find herr) : (src j).err = none :=
    not_not.1 (Nat.find_min herr hj)
  obtain ⟨r, m, hr, hm⟩ := exists_streamBody (w := w) hk hfirst
  have hbytes : acceptedBytes r.ops = ((chunks src (Nat.find herr + 1)).take m).flatten := by
    rw [hm.ops, acceptedBytes_delivery]
  refine ⟨r, Nat.find herr, m, hr, hk, hfirst, hm, hbytes, ?_⟩
  rintro rfl
  rw [hbytes, List.take_length, flatten_chunks]

namespace Events

/-- A reading without bytes, and one with the last bytes and the end. -/
def readings : ℕ → ReadResult
  | 0 => ⟨[100, 97, 116, 97, 58, 32, 49, 10, 10], by decide, none⟩
  | 1 => ⟨[], by decide, none⟩
  | _ => ⟨[100, 97, 116, 97, 58, 32, 50, 10, 10], by decide, some .eof⟩

/-- A client that is gone after the first write. -/
def client : Client := ⟨fun i => if i = 0 then none else some "broken pipe", true⟩

/-- The second chunk is read, and does not reach the client. -/
theorem delivered_readings : ∃ r k m, StreamBody readings client r ∧
    Delivered readings client k m r := by
  obtain ⟨r, k, m, hr, _, _, hm, _⟩ := streamBody_delivers readings client ⟨2, by decide⟩
  exact ⟨r, k, m, hr, hm⟩

end Events

end Gateway

end OpenDataGov
