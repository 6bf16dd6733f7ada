import OpenDataGov.Lib.Tickets

/-!
# Round robin

The proxy of the gateway sends requests to its backends in turn: `selectBackend` counts the
requests, in 64 bits, and takes the number modulo the number of backends. Goroutines select
their backends concurrently, and only the addition to the counter is atomic: between it and
the use of the number that it gives, other goroutines may select any number of backends.

So the counter is a source of tickets (`selection`, over `Lib.Tickets`), of which a goroutine
draws one and then makes a position among the backends of it. That this is what
`selectBackend` does is `selectBackend_eq`, and that goroutines at once get what one
goroutine alone would get, in the order of their additions, is `selectBackend_after`.

* `selectBackend_eq`: to select a backend is to draw the next number and to use it;
* `selectBackend_after`: the request in a place selects what the number of the place is good for;
* `use_ticket`: the position of the number of a place, from what the counter was at first;
* `position_lt`: every selection is in range, also when the counter wraps around;
* `count_results`: before that, calls in a row select each backend as often as any other one, up
  to one.

What goes to the backend that is selected is in `Gateway.Upstream`. The backends of a handler
do not change after its start.
-/

namespace OpenDataGov

namespace Gateway

open Tickets

/-- A handler of the proxy: its backends, and the number of requests that it has sent to them. -/
structure Handler (β : Type) where
  backends : List β
  /-- The length of a slice is an `int`. -/
  length_lt : backends.length < 2 ^ 63
  counter : UInt64

/-- What selecting a backend comes to. -/
inductive Selected (β : Type)
  /-- There are no backends to select from. -/
  | noBackend
  | backend (b : β)
  /-- A panic of the runtime. -/
  | indexOutOfRange
  deriving DecidableEq

variable {β γ : Type}

/-- `backends[i]`, which panics out of range. -/
def index (backends : List β) (i : ℕ) : Selected β :=
  match backends[i]? with
  | some b => .backend b
  | none => .indexOutOfRange

/-- `idx % uint64(n)`, for `n` backends. -/
def position (backends : List β) (idx : UInt64) : ℕ :=
  (idx % UInt64.ofNat backends.length).toNat

namespace Handler

/-- `counter.Add(1)`: what is there after the addition. -/
def addCounter (h : Handler β) : UInt64 × Handler β :=
  (h.counter + 1, { h with counter := h.counter + 1 })

/-- The next backend. -/
def selectBackend (h : Handler β) : Selected β × Handler β :=
  if h.backends.length = 0 then (.noBackend, h)
  else
    let (counter, h') := h.addCounter
    let idx := counter - 1
    (index h.backends (position h.backends idx), h')

/-- The handler after `i` requests, one after the other. -/
def after (h : Handler β) (i : ℕ) : Handler β := (fun h => h.selectBackend.2)^[i] h

/-- A handler that has not selected any backend. -/
def unused (backends : List β) (length_lt : backends.length < 2 ^ 63) : Handler β :=
  ⟨backends, length_lt, 0⟩

end Handler

/-- What goroutines do at once, and then with the number that they got. -/
def selection (backends : List β) : Source (Handler β) UInt64 ℕ where
  draw h := (h.addCounter.1 - 1, h.addCounter.2)
  use := position backends

variable {backends : List β} {h : Handler β} {i : ℕ}

/-- To select a backend is to draw a number and to use it. -/
theorem selectBackend_eq (hne : h.backends ≠ []) :
    h.selectBackend =
      (index h.backends ((selection h.backends).use ((selection h.backends).draw h).1),
        (selection h.backends).advance h) := by
  rw [Handler.selectBackend, if_neg (by simpa using hne)]
  rfl

/-- In range there is a backend. -/
theorem index_of_lt {p : ℕ} (hp : p < backends.length) :
    index backends p = .backend backends[p] := by
  rw [index, List.getElem?_eq_getElem hp]

/-- What is selected is one of the backends. -/
theorem mem_of_selectBackend {b : β} (hselect : h.selectBackend.1 = .backend b) :
    b ∈ h.backends := by
  rw [Handler.selectBackend] at hselect
  split_ifs at hselect
  change index h.backends _ = _ at hselect
  rw [index] at hselect
  split at hselect
  · next b' hb' =>
    cases hselect
    exact List.mem_of_getElem? hb'
  · cases hselect

/-- After `i` draws the counter has moved on by `i`, modulo `2 ^ 64`, and nothing else has. -/
theorem advance_iterate (backends : List β) (h : Handler β) (i : ℕ) :
    (selection backends).advance^[i] h = { h with counter := h.counter + UInt64.ofNat i } := by
  induction i with
  | zero => simp
  | succ i ih =>
    rw [Function.iterate_succ_apply', ih]
    simp [Source.advance, selection, Handler.addCounter, UInt64.ofNat_add, UInt64.add_assoc]

/-- Requests one after the other draw their numbers one after the other. -/
theorem after_eq (hne : h.backends ≠ []) (i : ℕ) :
    h.after i = (selection h.backends).advance^[i] h := by
  induction i with
  | zero => rfl
  | succ i ih =>
    have hbackends : ((selection h.backends).advance^[i] h).backends = h.backends := by
      rw [advance_iterate]
    rw [Handler.after, Function.iterate_succ_apply', ← Handler.after, ih,
      Function.iterate_succ_apply', selectBackend_eq (by rwa [hbackends]), hbackends]

/-- The request in the place `i` of a sequence selects what the number of this place is good
    for: so does the call in this place of the counter's order, whatever is at work besides. -/
theorem selectBackend_after (hne : h.backends ≠ []) (i : ℕ) :
    (h.after i).selectBackend.1 =
      index h.backends ((selection h.backends).use ((selection h.backends).ticket h i)) := by
  have hbackends : (h.after i).backends = h.backends := by
    rw [after_eq hne, advance_iterate]
  rw [selectBackend_eq (by rwa [hbackends]), hbackends, after_eq hne]
  rfl

/-- The number of a call in the counter's order, from what the counter was at first. -/
theorem toNat_ticket (backends : List β) (h : Handler β) (i : ℕ) :
    ((selection backends).ticket h i).toNat = (h.counter.toNat + i) % 2 ^ 64 := by
  rw [Source.ticket, advance_iterate]
  -- One is added and subtracted again, whether or not the counter wraps around.
  have hticket : h.counter + UInt64.ofNat i + 1 - 1 = h.counter + UInt64.ofNat i := by
    rw [UInt64.add_sub_cancel]
  change (h.counter + UInt64.ofNat i + 1 - 1).toNat = _
  rw [hticket, UInt64.toNat_add, UInt64.toNat_ofNat']
  simp

/-- What the call in the place `i` of the counter's order selects. -/
theorem use_ticket (hlen : backends.length < 2 ^ 63) :
    (selection backends).use ((selection backends).ticket h i) =
      (h.counter.toNat + i) % 2 ^ 64 % backends.length := by
  have hlt : backends.length < 2 ^ 64 := by omega
  have huse (idx : UInt64) : (selection backends).use idx = position backends idx := rfl
  rw [huse, position, UInt64.toNat_mod, toNat_ticket, UInt64.toNat_ofNat_of_lt' hlt]

/-! ### Runs -/

variable [DecidableEq γ] {c : State γ (Handler β) UInt64 ℕ} {call : Tickets.Call γ ℕ} {p : ℕ}
  {window : List (Tickets.Call γ ℕ)}

/-- Every selection is in range, whatever the counter is. -/
theorem position_lt (hrun : Run (selection backends) (Tickets.start h) c)
    (hlen : backends.length < 2 ^ 63) (hne : backends ≠ []) (hcall : call ∈ c.log)
    (hp : call.result = some p) : p < backends.length := by
  obtain ⟨i, hi⟩ := List.mem_iff_getElem?.1 hcall
  rw [hrun.result hi hp, use_ticket hlen]
  exact Nat.mod_lt _ (List.length_pos_iff.2 hne)

/-- A call selects the backend at its position, and it is the one that the request in its place
    would select if there were one goroutine only. -/
theorem selected (hrun : Run (selection h.backends) (Tickets.start h) c)
    (hne : h.backends ≠ []) (hi : c.log[i]? = some call) (hp : call.result = some p) :
    ∃ b, h.backends[p]? = some b ∧ index h.backends p = .backend b ∧
      (h.after i).selectBackend.1 = .backend b := by
  have hlt : p < h.backends.length :=
    position_lt hrun h.length_lt hne (List.mem_of_getElem? hi) hp
  refine ⟨h.backends[p], List.getElem?_eq_getElem hlt, index_of_lt hlt, ?_⟩
  rw [selectBackend_after hne, ← hrun.result hi hp, index_of_lt hlt]

/-- A call that has drawn its number can select its backend next, whatever the other ones
    have drawn since. -/
theorem exists_selection {t : γ} (hrun : Run (selection backends) (Tickets.start h) c)
    (hlen : backends.length < 2 ^ 63) (hcall : c.log[i]? = some ⟨t, none⟩) :
    ∃ c', Tickets.Step (selection backends) c c' ∧
      c'.log[i]? = some ⟨t, some ((h.counter.toNat + i) % 2 ^ 64 % backends.length)⟩ := by
  rw [← use_ticket hlen]
  exact hrun.exists_use hcall

/-- Calls in a row select the backends in turn, as long as the counter does not wrap
    around. -/
theorem results_window (hrun : Run (selection backends) (Tickets.start h) c)
    (hlen : backends.length < 2 ^ 63) (hwrap : h.counter.toNat + c.log.length ≤ 2 ^ 64)
    {before after : List (Tickets.Call γ ℕ)} (hlog : before ++ window ++ after = c.log)
    (hdone : ∀ call ∈ window, call.result ≠ none) :
    window.map Tickets.Call.result = (List.range window.length).map fun j =>
      some ((h.counter.toNat + before.length + j) % backends.length) := by
  refine List.ext_getElem (by simp) fun j hj _ => ?_
  rw [List.length_map] at hj
  obtain ⟨p, hp⟩ := Option.ne_none_iff_exists'.1 (hdone _ (List.getElem_mem hj))
  have hplace : c.log[before.length + j]? = some window[j] := by
    rw [← hlog, List.append_assoc, List.getElem?_append_right (Nat.le_add_right ..),
      Nat.add_sub_cancel_left, List.getElem?_append_left hj, List.getElem?_eq_getElem hj]
  have hlt : before.length + j < c.log.length := by
    rw [← hlog, List.length_append, List.length_append]
    omega
  have hmod : (h.counter.toNat + (before.length + j)) % 2 ^ 64 =
      h.counter.toNat + (before.length + j) := Nat.mod_eq_of_lt (by omega)
  rw [List.getElem_map, List.getElem_map, List.getElem_range, hp, hrun.result hplace hp,
    use_ticket hlen, hmod, add_assoc]

/-- Calls in a row select each backend as often as any other one, up to one. -/
theorem count_results (hrun : Run (selection backends) (Tickets.start h) c)
    (hlen : backends.length < 2 ^ 63) (hwrap : h.counter.toNat + c.log.length ≤ 2 ^ 64)
    (hwindow : window <:+: c.log) (hdone : ∀ call ∈ window, call.result ≠ none)
    (hp : p < backends.length) :
    (window.map Tickets.Call.result).count (some p) = window.length / backends.length ∨
      (window.map Tickets.Call.result).count (some p) = window.length ⌈/⌉ backends.length := by
  obtain ⟨before, after, hlog⟩ := hwindow
  have hcount : (window.map Tickets.Call.result).count (some p) = Nat.count (fun j =>
      (h.counter.toNat + before.length + j) % backends.length = p) window.length := by
    rw [results_window hrun hlen hwrap hlog hdone, List.count, List.countP_map, Nat.count]
    refine List.countP_congr fun j _ => ?_
    simp
  rw [hcount]
  exact count_mod hp _ _

/-- Round robin is in range and fair, with any number of goroutines: from any counter, also
    when it wraps around, every selection is in range, and it is the backend that
    `selectBackend` selects in the place of the call; and from the counter of a new
    handler, before it wraps around, any calls in a row select each backend as often as
    any other one, up to one. -/
theorem selectBackend_fair (γ : Type) [DecidableEq γ] (backends : List β)
    (length_lt : backends.length < 2 ^ 63) (hne : backends ≠ []) :
    (∀ h : Handler β, h.backends = backends →
      ∀ c : State γ (Handler β) UInt64 ℕ, Run (selection backends) (Tickets.start h) c →
      (∀ call ∈ c.log, ∀ p, call.result = some p → p < backends.length) ∧
      ∀ i call p, c.log[i]? = some call → call.result = some p →
        ∃ b, backends[p]? = some b ∧ index backends p = .backend b ∧
          (h.after i).selectBackend.1 = .backend b) ∧
    (∀ c : State γ (Handler β) UInt64 ℕ,
      Run (selection backends) (Tickets.start (.unused backends length_lt)) c →
      c.log.length < 2 ^ 64 →
      ∀ window, window <:+: c.log → (∀ call ∈ window, call.result ≠ none) →
      ∀ p < backends.length,
        (window.map Tickets.Call.result).count (some p) = window.length / backends.length ∨
        (window.map Tickets.Call.result).count (some p) = window.length ⌈/⌉ backends.length) := by
  constructor
  · rintro h rfl c hrun
    exact ⟨fun call hcall p hp => position_lt hrun h.length_lt hne hcall hp,
      fun i call p hi hp => selected hrun hne hi hp⟩
  · intro c hrun hlog window hwindow hdone p hp
    refine count_results hrun length_lt ?_ hwindow hdone hp
    change 0 + c.log.length ≤ 2 ^ 64
    omega

namespace Replicas

def replicas : List String := ["http://vllm-0:8000", "http://vllm-1:8000"]

theorem length_lt : replicas.length < 2 ^ 63 := by decide

/-- Two goroutines select, and the second one to get a number is the first one to use it. -/
def overtaken : State Bool (Handler String) UInt64 ℕ :=
  ((((Tickets.start (.unused replicas length_lt)).drawn (selection replicas) false).drawn
    (selection replicas) true).used (selection replicas) true 1 1).used (selection replicas)
      false 0 0

theorem run_overtaken :
    Run (selection replicas) (Tickets.start (.unused replicas length_lt)) overtaken :=
  .tail (.tail (.tail (.tail .refl (.draw rfl)) (.draw rfl)) (.use rfl)) (.use rfl)

/-- The two goroutines have one backend each, although the second one overtook the first. -/
theorem fair_overtaken :
    (overtaken.log.map Tickets.Call.result).count (some 1) = 2 / 2 ∨
      (overtaken.log.map Tickets.Call.result).count (some 1) = 2 ⌈/⌉ 2 :=
  (selectBackend_fair Bool replicas length_lt (by decide)).2 overtaken run_overtaken (by decide)
    overtaken.log List.infix_rfl (by decide) 1 (by decide)

end Replicas

end Gateway

end OpenDataGov
