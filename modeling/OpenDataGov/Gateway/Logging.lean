import Mathlib.Data.Int.Order.Basic
import Mathlib.Data.List.Induction
import Mathlib.Data.List.TakeWhile

/-!
# Logging

The middleware that logs the status of every response gives its own writer to the handler,
around the one of the server (`ResponseWriter`). The writer keeps the first status that the
handler sets, and the server sends the first one that is final: they are two state machines
that get the same calls, and flushes pass by the first one.

A handler is the list of its calls. A call may panic, if the server does not take a status code
(`Server.takes`); then the handler does not return, and nothing is logged (`run`). Two things let
the status that is logged differ from the one that was sent: an informational status is kept by
the writer, and not by the server (`Misled`), and a flush makes the server send 200, which the
writer does not see. Each of them stays, since both machines keep the first status that they have:

* `run_of_settled`: once both have a status, it stays;
* `run_of_misled`: once the writer has kept an informational status, it differs from the one
  that is sent, whatever follows;
* `run_flushes`: before the first status, flushes are all that can be different;
* `logs_sent_iff`: so the calls up to the first one that sets a status decide whether the
  status that is logged is the one that was sent.

The bodies that are written, and what else is in a line of the log, do not matter here.
-/

namespace OpenDataGov

namespace Gateway

/-- A status that ends the headers, and not an informational one. -/
abbrev IsFinal (code : ℤ) : Prop := 200 ≤ code ∨ code = 101

/-- A server: the status codes that its writers take, and whether they can flush. -/
structure Server where
  takes : ℤ → Bool
  canFlush : Bool

namespace Server

/-- The status that the writer of the server has sent after `WriteHeader`, unless it
    panics. -/
def writeHeader (srv : Server) (code : ℤ) : Option ℤ → Option (Option ℤ)
  | some status => some (some status)
  | none =>
    if srv.takes code then some (if IsFinal code then some code else none) else none

/-- After `Write` or `Flush`, it has sent a status. -/
def begin (sent : Option ℤ) : Option ℤ := some (sent.getD 200)

end Server

/-- The writer of the middleware, with what the wrapped one has sent. -/
structure ResponseWriter where
  sent : Option ℤ
  statusCode : ℤ
  written : Bool
  deriving DecidableEq

/-- What a handler does with its writer. -/
inductive WriterCall
  | writeHeader (code : ℤ)
  | write
  | flush
  deriving DecidableEq

namespace ResponseWriter

/-- The writer that the middleware makes. -/
def init : ResponseWriter := ⟨none, 200, false⟩

/-- The first status is kept. -/
def capture (rw : ResponseWriter) (code : ℤ) : ResponseWriter :=
  if rw.written then rw else { rw with statusCode := code, written := true }

/-- `WriteHeader`, which keeps the status before it passes it on. -/
def writeHeader (srv : Server) (code : ℤ) (rw : ResponseWriter) : Option ResponseWriter :=
  let rw := rw.capture code
  (srv.writeHeader code rw.sent).map fun sent => { rw with sent := sent }

/-- `Write`, which means 200 if no status has been set. -/
def write (rw : ResponseWriter) : ResponseWriter :=
  let rw := rw.capture 200
  { rw with sent := Server.begin rw.sent }

/-- A flush is passed on, if the wrapped writer can do it. -/
def flush (srv : Server) (rw : ResponseWriter) : ResponseWriter :=
  if srv.canFlush then { rw with sent := Server.begin rw.sent } else rw

/-- A call, unless it panics. -/
def call (srv : Server) (rw : ResponseWriter) : WriterCall → Option ResponseWriter
  | .writeHeader code => rw.writeHeader srv code
  | .write => some rw.write
  | .flush => some (rw.flush srv)

/-- The calls of a handler, one after another. When one of them panics, the handler does not
    return, and nothing is logged. -/
def run (srv : Server) (calls : List WriterCall) (rw : ResponseWriter) :
    Option ResponseWriter :=
  calls.foldlM (call srv) rw

/-- The status that is logged is the one that was sent. -/
abbrev LogsSent (rw : ResponseWriter) : Prop := rw.statusCode = rw.sent.getD 200

end ResponseWriter

/-- The first call that sets a status is a `Write`, or sets 200, or a final status before
    anything is flushed. There may be no such call. -/
def SetsFirst (srv : Server) (calls : List WriterCall) : Prop :=
  match calls.dropWhile (· = .flush) with
  | .writeHeader code :: _ =>
    code = 200 ∨ IsFinal code ∧ ¬(srv.canFlush = true ∧ calls.head? = some .flush)
  | _ => True

variable {srv : Server} {calls : List WriterCall} {rw rw' : ResponseWriter} {code : ℤ}
  {c : WriterCall}

namespace ResponseWriter

/-- The first call comes first. -/
theorem run_cons : run srv (c :: calls) rw = (rw.call srv c).bind (run srv calls) := rfl

/-- Calls in two parts. -/
theorem run_append {calls' : List WriterCall} :
    run srv (calls ++ calls') rw = (run srv calls rw).bind (run srv calls') :=
  List.foldlM_append

/-- A call to the wrapped writer keeps what it has sent. -/
theorem call_of_settled {status : ℤ} (hsent : rw.sent = some status)
    (hwritten : rw.written = true) : rw.call srv c = some rw := by
  obtain ⟨_, statusCode, _⟩ := rw
  obtain rfl := hsent
  obtain rfl := hwritten
  cases c with
  | writeHeader code => rfl
  | write => rfl
  | flush =>
    rw [call, flush]
    split_ifs <;> rfl

/-- Once both writers have a status, nothing changes it. -/
theorem run_of_settled {status : ℤ} (hsent : rw.sent = some status)
    (hwritten : rw.written = true) : run srv calls rw = some rw := by
  induction calls with
  | nil => rfl
  | cons c calls ih =>
    rw [run_cons, call_of_settled hsent hwritten]
    exact ih

/-- The writer has kept a status that is not final. -/
structure Misled (rw : ResponseWriter) : Prop where
  written : rw.written = true
  not_final : ¬IsFinal rw.statusCode
  sent : ∀ status ∈ rw.sent, IsFinal status

/-- What is logged then is not what is sent, which is final if it is anything. -/
theorem Misled.not_logsSent (h : rw.Misled) : ¬rw.LogsSent := by
  intro hlogs
  rw [LogsSent] at hlogs
  refine h.not_final ?_
  rw [hlogs]
  cases hsent : rw.sent with
  | none => exact .inl le_rfl
  | some status => exact h.sent status hsent

/-- Only the first status is kept. -/
theorem capture_of_written (h : rw.written = true) : rw.capture code = rw := by
  rw [capture, if_pos h]

/-- Whatever the server is asked to send, it sends a final status. -/
theorem final_of_writeHeader {sent sent' : Option ℤ} (h : ∀ status ∈ sent, IsFinal status)
    (hwrite : srv.writeHeader code sent = some sent') : ∀ status ∈ sent', IsFinal status := by
  cases sent with
  | some status =>
    cases hwrite
    exact h
  | none =>
    rw [Server.writeHeader] at hwrite
    split_ifs at hwrite with htakes hfinal
    · cases hwrite
      rintro status ⟨⟩
      exact hfinal
    · cases hwrite
      rintro status ⟨⟩

/-- A body is sent with a final status as well. -/
theorem final_of_begin {sent : Option ℤ} (h : ∀ status ∈ sent, IsFinal status) :
    ∀ status ∈ Server.begin sent, IsFinal status := by
  rintro status ⟨⟩
  cases sent with
  | none => exact .inl le_rfl
  | some status => exact h status rfl

/-- No call puts it right: the status is kept, and the server sends a final one. -/
theorem Misled.call (h : rw.Misled) (hcall : rw.call srv c = some rw') : rw'.Misled := by
  -- The status logged is settled; what is sent is the one thing that may still change.
  cases c with
  | writeHeader code =>
    rw [ResponseWriter.call, writeHeader, capture_of_written h.written,
      Option.map_eq_some_iff] at hcall
    obtain ⟨sent, hsent, rfl⟩ := hcall
    exact ⟨h.written, h.not_final, final_of_writeHeader h.sent hsent⟩
  | write =>
    rw [ResponseWriter.call, write, capture_of_written h.written] at hcall
    cases hcall
    exact ⟨h.written, h.not_final, final_of_begin h.sent⟩
  | flush =>
    rw [ResponseWriter.call, flush] at hcall
    split_ifs at hcall
    · cases hcall
      exact ⟨h.written, h.not_final, final_of_begin h.sent⟩
    · cases hcall
      exact h

/-- What follows does not put the log right. -/
theorem run_of_misled (h : rw.Misled) (hrun : run srv calls rw = some rw') : ¬rw'.LogsSent := by
  induction calls generalizing rw with
  | nil =>
    cases hrun
    exact h.not_logsSent
  | cons c calls ih =>
    rw [run_cons, Option.bind_eq_some_iff] at hrun
    obtain ⟨rw₁, hcall, hrun⟩ := hrun
    exact ih (h.call hcall) hrun

/-- What the server has sent after some flushes. -/
def sentByFlushes (srv : Server) (flushes : List WriterCall) : Option ℤ :=
  if srv.canFlush ∧ flushes ≠ [] then some 200 else none

/-- Flushes send 200, or nothing. -/
theorem sentByFlushes_cases :
    sentByFlushes srv calls = none ∨ sentByFlushes srv calls = some 200 := by
  rw [sentByFlushes]
  split_ifs
  · exact .inr rfl
  · exact .inl rfl

/-- Nothing that has been sent counts as 200 as well. -/
@[simp] theorem getD_sentByFlushes : (sentByFlushes srv calls).getD 200 = 200 := by
  rcases @sentByFlushes_cases srv calls with h | h
  · rw [h, Option.getD_none]
  · rw [h, Option.getD_some]

/-- They send nothing if the server cannot flush, or if there are none. -/
theorem sentByFlushes_eq_none :
    sentByFlushes srv calls = none ↔ ¬(srv.canFlush = true ∧ calls ≠ []) := by
  simp [sentByFlushes]

/-- Flushes before anything else are unknown to the writer. -/
theorem run_flushes (h : ∀ c ∈ calls, c = .flush) :
    run srv calls init = some { init with sent := sentByFlushes srv calls } := by
  induction calls using List.reverseRecOn with
  | nil => simp [run, init, sentByFlushes]
  | append_singleton calls c ih =>
    obtain rfl := h c (by simp)
    rw [run_append, ih fun c hc => h c (by simp [hc])]
    by_cases hflush : srv.canFlush = true
    · have hsent : sentByFlushes srv (calls ++ [.flush]) = some 200 := by
        simp [sentByFlushes, hflush]
      rw [hsent]
      simp [run, call, flush, hflush, Server.begin]
    · simp [run, call, flush, hflush, sentByFlushes]

/-- After a status that is set first, the log is right exactly if it is 200, or final and
    nothing has been sent. -/
theorem logsSent_writeHeader {sent : Option ℤ} (hsent : sent = none ∨ sent = some 200)
    (hrun : run srv (.writeHeader code :: calls) { init with sent := sent } = some rw) :
    rw.LogsSent ↔ code = 200 ∨ IsFinal code ∧ sent = none := by
  have hcall : run srv (.writeHeader code :: calls) { init with sent := sent } =
      ((srv.writeHeader code sent).map fun sent' => ⟨sent', code, true⟩).bind
        (run srv calls) := rfl
  rw [hcall] at hrun
  -- Either nothing has been sent, or a write has sent 200 by itself.
  rcases hsent with rfl | rfl
  · rw [Server.writeHeader] at hrun
    split_ifs at hrun with htakes hfinal
    · rw [Option.map_some, Option.bind_some, run_of_settled rfl rfl] at hrun
      cases hrun
      exact iff_of_true rfl (.inr ⟨hfinal, rfl⟩)
    · have hmisled : Misled ⟨none, code, true⟩ := ⟨rfl, hfinal, by rintro _ ⟨⟩⟩
      refine iff_of_false (run_of_misled hmisled hrun) ?_
      rintro (rfl | ⟨h, _⟩)
      · exact hfinal (.inl le_rfl)
      · exact hfinal h
    · cases hrun
  · rw [Server.writeHeader, Option.map_some, Option.bind_some, run_of_settled rfl rfl] at hrun
    cases hrun
    simp [LogsSent]

/-- After a `Write` that comes first, the log is right: both take it for 200. -/
theorem logsSent_write {sent : Option ℤ} (hsent : sent = none ∨ sent = some 200)
    (hrun : run srv (.write :: calls) { init with sent := sent } = some rw) :
    rw.LogsSent := by
  have hcall : run srv (.write :: calls) { init with sent := sent } =
      run srv calls ⟨Server.begin sent, 200, true⟩ := rfl
  rw [hcall, run_of_settled rfl rfl] at hrun
  cases hrun
  rcases hsent with rfl | rfl <;> rfl

end ResponseWriter

open ResponseWriter

/-- The flushes before anything else are there if the first call is one. -/
theorem takeWhile_flush_ne_nil :
    calls.takeWhile (· = .flush) ≠ [] ↔ calls.head? = some .flush := by
  cases calls with
  | nil => simp
  | cons c calls =>
    rw [List.takeWhile_cons, List.head?_cons, Option.some.injEq]
    split_ifs with h
    · simpa using h
    · simpa using h

/-- When a handler returns, the status that is logged is the one that was sent exactly if
    the first call that sets a status is a `Write`, or sets 200, or a final status before
    anything is flushed. -/
theorem logs_sent_iff (hrun : run srv calls init = some rw) :
    rw.LogsSent ↔ SetsFirst srv calls := by
  have hsplit : calls = calls.takeWhile (· = .flush) ++ calls.dropWhile (· = .flush) :=
    List.takeWhile_append_dropWhile.symm
  have hflushes : ∀ c ∈ calls.takeWhile (· = .flush), c = .flush := fun c hc => by
    simpa using List.mem_takeWhile_imp hc
  rw [hsplit, run_append, run_flushes hflushes, Option.bind_some] at hrun
  rw [SetsFirst, ← takeWhile_flush_ne_nil]
  have hhead := List.head?_dropWhile_not (fun c : WriterCall => c = .flush) calls
  generalize hrest : calls.dropWhile (· = .flush) = rest at hrun hhead
  cases rest with
  | nil =>
    cases hrun
    exact iff_of_true getD_sentByFlushes.symm trivial
  | cons c rest =>
    cases c with
    | writeHeader code =>
      rw [logsSent_writeHeader sentByFlushes_cases hrun, sentByFlushes_eq_none]
    | write => exact iff_of_true (logsSent_write sentByFlushes_cases hrun) trivial
    | flush => simp at hhead

namespace NetHttp

/-- The server takes the codes of three digits. -/
def server : Server := ⟨fun code => 100 ≤ code ∧ code ≤ 999, true⟩

/-- A handler that finds nothing and says so. -/
theorem logs_notFound : (⟨some 404, 404, true⟩ : ResponseWriter).LogsSent ↔
    SetsFirst server [.writeHeader 404, .write] :=
  logs_sent_iff (by decide)

/-- Once something has been flushed, 404 is logged and 200 was sent. -/
theorem not_logs_flushed :
    ¬∀ calls rw, run server calls init = some rw → rw.LogsSent := fun h => by
  have hlogs := h [.flush, .writeHeader 404] ⟨some 200, 404, true⟩ (by decide)
  exact absurd hlogs (by decide)

end NetHttp

end Gateway

end OpenDataGov
