import OpenDataGov.Lib.Dict

/-!
# Health of the backends

The health checker of the gateway requests an endpoint of each backend, one after the other,
before the gateway listens, and again with every tick of a timer. What the last request of a
backend came to is kept, under its URL, for the requests that ask whether the gateway is ready.

The process is a step relation (`Step`), whose events are the checks, the start of the server, the
ticks and the answers to requests. A later round is made by a goroutine, so requests are answered
at any time in it, when some backends have been checked again and others have not. The handler does
not remember the order of the checks; the events do, and the theorems are about them (`checks`).

The invariant (`Inv`) ties what is kept to the checks that there have been, and says how far the
present round has come: what has been checked of it, with what is left of it, are the backends.

* `Inv.checked`: all backends are among the last ones that have been checked, as many as there
  are backends;
* `Inv.find?_iff`: what is kept of a backend is what its last check came to;
* `ready_iff`: so the gateway is ready exactly if a backend was healthy when it was checked
  last, and this was one of these checks.

Backends that are listed twice share a key, which the last check of either sets. The interval of
the timer and the timeout of a check are not modelled: a check that takes too long has failed.
-/

namespace OpenDataGov

namespace Gateway

open Keyed

namespace Health

/-- What comes of a request of the health checker. -/
inductive Answer
  /-- An error of the client, as after a timeout. -/
  | failed
  | status (code : ℕ)
  deriving DecidableEq

/-- Only 200 is a sign of health: a redirect is not, and neither is 204. -/
def Answer.ok : Answer → Bool
  | .failed => false
  | .status code => code = 200

/-- The response to a request about the health of the gateway itself. -/
structure Response where
  code : ℕ
  /-- The field `status` of the body. -/
  status : String
  deriving DecidableEq

/-- The handler of the health requests, which the checker and the server share. -/
structure Handler where
  backends : List String
  /-- Whether the last request of a backend was answered by 200. -/
  healthy : Dict String Bool

/-- No backend is taken for healthy before it has been checked. -/
def newHandler (backends : List String) : Handler where
  backends := backends
  healthy := .ofList (backends.map fun b => (b, false))

namespace Handler

/-- What `checkAll` does with the answer of a backend. -/
def update (h : Handler) (backend : String) (answer : Answer) : Handler :=
  { h with healthy := h.healthy.set backend answer.ok }

/-- Some backend was healthy, whenever it has been checked. -/
def anyHealthy (h : Handler) : Bool := h.healthy.rows.any Prod.snd

/-- The gateway is alive if it answers at all. -/
def handleHealth (_ : Handler) : Response := ⟨200, "ok"⟩

/-- It is ready if there is a backend to send requests to. -/
def handleReady (h : Handler) : Response :=
  if h.backends.length = 0 ∨ h.anyHealthy = false then ⟨503, "not ready"⟩ else ⟨200, "ready"⟩

end Handler

/-! ### The process -/

/-- The gateway, as far as its health is concerned. -/
structure Process where
  handler : Handler
  /-- The backends that `checkAll` has still to check. -/
  rest : List String
  listening : Bool

/-- What happens to the gateway, in the order in which it does. -/
inductive Event
  /-- The request of a backend has come to something. -/
  | checked (backend : String) (answer : Answer)
  /-- The server has been started. -/
  | listen
  /-- The next round of checks has begun. -/
  | tick
  | health (r : Response)
  | ready (r : Response)
  deriving DecidableEq

/-- The backend of a check, and the answer. -/
def Event.check : Event → Option (String × Answer)
  | .checked backend answer => some (backend, answer)
  | _ => none

/-- The checks among some events, in their order. -/
def checks (events : List Event) : List (String × Answer) := events.filterMap Event.check

/-- The first round of checks begins. -/
def boot (backends : List String) : Process where
  handler := newHandler backends
  rest := backends
  listening := false

/-- The steps of the process. The first round is over before the server is started, and the
    checks of the later ones are made by a goroutine, while requests are answered. -/
inductive Step : Process → Event → Process → Prop
  | checked {p : Process} {b : String} {rest : List String} (answer : Answer) :
      p.rest = b :: rest →
      Step p (.checked b answer) { p with handler := p.handler.update b answer, rest := rest }
  | listen {p : Process} : p.rest = [] → p.listening = false →
      Step p .listen { p with listening := true }
  | tick {p : Process} : p.rest = [] → p.listening = true →
      Step p .tick { p with rest := p.handler.backends }
  | health {p : Process} : p.listening = true → Step p (.health p.handler.handleHealth) p
  | ready {p : Process} : p.listening = true → Step p (.ready p.handler.handleReady) p

/-- The runs from `p₀`, with their events. -/
inductive Run (p₀ : Process) : List Event → Process → Prop
  | start : Run p₀ [] p₀
  | step {events : List Event} {p p' : Process} {e : Event} :
      Run p₀ events p → Step p e p' → Run p₀ (events ++ [e]) p'

variable {a : Answer} {h : Handler} {backends : List String} {events : List Event}
  {p p' : Process} {e : Event} {r : Response}

/-- A backend is healthy if it answers 200. -/
theorem ok_iff : a.ok = true ↔ a = .status 200 := by
  cases a with
  | failed => exact iff_of_false (by decide) (by rintro ⟨⟩)
  | status code => simp [Answer.ok]

/-- The checks are added at the end. -/
theorem checks_concat (events : List Event) (e : Event) :
    checks (events ++ [e]) = checks events ++ e.check.toList := by
  rw [checks, List.filterMap_append]
  cases e <;> rfl

/-- Other events are no checks. -/
theorem checks_of_none (h : e.check = none) : checks (events ++ [e]) = checks events := by
  rw [checks_concat, h]
  exact List.append_nil _

/-- In the dictionary: some key has the value `True`. -/
theorem anyHealthy_iff : h.anyHealthy = true ↔ ∃ b, h.healthy.find? b = some true := by
  rw [Handler.anyHealthy, List.any_eq_true]
  constructor
  · rintro ⟨⟨b, ok⟩, hmem, rfl⟩
    exact ⟨b, Dict.find?_eq_some.2 hmem⟩
  · rintro ⟨b, hb⟩
    exact ⟨(b, true), Dict.find?_eq_some.1 hb, rfl⟩

/-! ### What holds in every run -/

/-- What is kept is what the last checks came to, and what has been checked of a round is
    what is not left of it. Once the server is started, it has all been checked before. -/
structure Inv (backends : List String) (events : List Event) (p : Process) : Prop where
  backends_eq : p.handler.backends = backends
  healthy : p.handler.healthy = .ofList
    (backends.map (fun b => (b, false)) ++ (checks events).map (Prod.map id Answer.ok))
  mem : ∀ x ∈ checks events, x.1 ∈ backends
  round : ∃ done, done ++ p.rest = backends ∧
    if p.listening then ∃ earlier, (checks events).map Prod.fst = earlier ++ p.rest ++ done
    else (checks events).map Prod.fst = done

/-- At the beginning, nothing has been checked of the first round. -/
theorem Inv.boot : Inv backends [] (boot backends) where
  backends_eq := rfl
  healthy := by rw [checks, List.filterMap_nil, List.map_nil, List.append_nil]; rfl
  mem := by rintro _ ⟨⟩
  round := ⟨[], rfl, rfl⟩

/-- Events that are not checks leave what is known of the backends. -/
theorem Inv.other (h : Inv backends events p) (he : e.check = none) (hp : p'.handler = p.handler)
    (hround : ∃ done, done ++ p'.rest = backends ∧
      if p'.listening then
        ∃ earlier, (checks events).map Prod.fst = earlier ++ p'.rest ++ done
      else (checks events).map Prod.fst = done) : Inv backends (events ++ [e]) p' where
  backends_eq := hp ▸ h.backends_eq
  healthy := by
    rw [checks_of_none he, hp]
    exact h.healthy
  mem := by
    rw [checks_of_none he]
    exact h.mem
  round := by
    rw [checks_of_none he]
    exact hround

/-- Each step keeps the invariant: a check goes from what is left of the round to what is done. -/
theorem Inv.step (h : Inv backends events p) (hst : Step p e p') :
    Inv backends (events ++ [e]) p' := by
  obtain ⟨done, hdone, hround⟩ := h.round
  cases hst with
  | @checked b rest answer hrest =>
    have hchecks : checks (events ++ [.checked b answer]) = checks events ++ [(b, answer)] :=
      checks_concat ..
    rw [hrest] at hdone hround
    refine ⟨h.backends_eq, ?_, ?_, done ++ [b], by rw [← hdone]; simp, ?_⟩
    · rw [hchecks, List.map_append, ← List.append_assoc, List.map_singleton, Dict.ofList_concat,
        ← h.healthy]
      rfl
    · rw [hchecks]
      refine List.forall_mem_append.2 ⟨h.mem, List.forall_mem_singleton.2 ?_⟩
      rw [← hdone]
      exact List.mem_append_right _ List.mem_cons_self
    · rw [hchecks, List.map_append, List.map_singleton]
      dsimp only
      split_ifs at hround ⊢ with hlistening
      · obtain ⟨earlier, hearlier⟩ := hround
        exact ⟨earlier ++ [b], by rw [hearlier]; simp⟩
      · rw [hround]
  | listen hrest hlistening =>
    -- The first round is over.
    rw [hlistening] at hround
    exact h.other rfl rfl ⟨done, hdone, [], by rw [hrest]; exact hround⟩
  | tick hrest hlistening =>
    -- The round that ends here is what the next one has checked earlier.
    rw [hrest, List.append_nil] at hdone
    rw [hlistening, hrest] at hround
    obtain ⟨earlier, hearlier⟩ := hround
    refine h.other rfl rfl ⟨[], h.backends_eq, ?_⟩
    dsimp only
    rw [hlistening, h.backends_eq]
    exact ⟨earlier, by rw [hearlier, hdone]; simp⟩
  | health hlistening => exact h.other rfl rfl h.round
  | ready hlistening => exact h.other rfl rfl h.round

/-- So it holds in every run. -/
theorem Run.inv (h : Run (Health.boot backends) events p) : Inv backends events p := by
  induction h with
  | start => exact .boot
  | step _ hst ih => exact ih.step hst

/-- All backends are among the last ones that have been checked. -/
theorem Inv.checked (h : Inv backends events p) (hlistening : p.listening = true) :
    ∀ b ∈ backends, b ∈
      ((checks events).map Prod.fst).drop ((checks events).length - backends.length) := by
  intro b hb
  obtain ⟨done, hdone, hround⟩ := h.round
  rw [hlistening] at hround
  obtain ⟨earlier, hearlier⟩ := hround
  have hlength : (checks events).length - backends.length = earlier.length := by
    have := congrArg List.length hearlier
    rw [List.length_map, List.length_append, List.length_append] at this
    rw [← hdone, List.length_append]
    omega
  rw [hlength, hearlier, List.append_assoc, List.drop_left, List.mem_append, or_comm,
    ← List.mem_append, hdone]
  exact hb

/-- A backend was healthy when it was checked last, and not too many have been checked since. -/
def Fresh (backends : List String) (l : List (String × Answer)) : Prop :=
  ∃ before b after, l = before ++ (b, .status 200) :: after ∧ b ∉ after.map Prod.fst ∧
    after.length < backends.length

/-- The backends that are taken for healthy were healthy when they were checked last. -/
theorem Inv.find?_iff (h : Inv backends events p) {b : String} :
    p.handler.healthy.find? b = some true ↔ ∃ before after,
      checks events = before ++ (b, .status 200) :: after ∧ b ∉ after.map Prod.fst := by
  have hfirst : (Dict.ofList (backends.map fun b => (b, false))).find? b ≠ some true := fun hb => by
    obtain ⟨before, after, hl, -⟩ := Dict.find?_ofList_eq_some.1 hb
    obtain ⟨b', -, hb'⟩ := List.mem_map.1 (hl ▸ List.mem_append_right before List.mem_cons_self)
    cases hb'
  rw [← Dict.find?_ofList_eq_some, h.healthy, Dict.find?_ofList_append]
  have hmap : (Dict.ofList ((checks events).map (Prod.map id Answer.ok))).find? b =
      ((Dict.ofList (checks events)).find? b).map Answer.ok :=
    Dict.find?_ofList_map Function.injective_id Answer.ok
  rw [hmap]
  cases (Dict.ofList (checks events)).find? b with
  | none => exact iff_of_false hfirst (by rintro ⟨⟩)
  | some a => rw [Option.map_some, Option.some_or, Option.some.injEq, Option.some.injEq, ok_iff]

/-- What is kept of a backend is not older than a round. -/
theorem Inv.fresh_iff (h : Inv backends events p) (hlistening : p.listening = true) :
    p.handler.anyHealthy = true ↔ Fresh backends (checks events) := by
  rw [anyHealthy_iff]
  constructor
  · rintro ⟨b, hb⟩
    obtain ⟨before, after, hl, hafter⟩ := h.find?_iff.1 hb
    refine ⟨before, b, after, hl, hafter, Nat.lt_of_not_le fun hle => hafter ?_⟩
    have hmem := h.checked hlistening b (h.mem (b, .status 200) (hl ▸ by simp))
    rw [List.append_cons] at hl
    -- Were the last success too long ago, each backend would have been checked after it.
    have hlength : (before ++ [(b, Answer.status 200)]).length ≤
        (checks events).length - backends.length := by
      have hsum := congrArg List.length hl
      rw [List.length_append] at hsum
      omega
    rw [← List.map_drop, hl, List.drop_append, List.drop_eq_nil_of_le (hl ▸ hlength),
      List.nil_append, List.map_drop] at hmem
    exact List.mem_of_mem_drop hmem
  · rintro ⟨before, b, after, hl, hafter, -⟩
    exact ⟨b, h.find?_iff.2 ⟨before, after, hl, hafter⟩⟩

/-- The last step of a run is made from a run with one event less. -/
theorem Run.last (h : Run p (events ++ [e]) p') : ∃ p₁, Run p events p₁ ∧ Step p₁ e p' := by
  generalize hl : events ++ [e] = l at h
  cases h with
  | start => exact absurd hl (by simp)
  | step hrun hst =>
    obtain ⟨rfl, he⟩ := List.append_inj' hl rfl
    cases he
    exact ⟨_, hrun, hst⟩

/-- The gateway says that it is ready exactly if a backend was healthy when it was checked last,
    and less checks have been made since than there are backends. -/
theorem ready_iff (h : Run (boot backends) (events ++ [.ready r]) p) :
    (r.code = 200 ↔ Fresh backends (checks events)) ∧
      (r.code = 503 ↔ ¬Fresh backends (checks events)) := by
  obtain ⟨p₁, hrun, hst⟩ := h.last
  cases hst with
  | ready hlistening =>
    have hinv := hrun.inv
    rw [← hinv.fresh_iff hlistening, Handler.handleReady]
    -- The handler counts an empty list of backends as not ready, as the loop over it does.
    have hempty : p.handler.backends.length = 0 → p.handler.anyHealthy = false := fun hnil => by
      refine Bool.eq_false_iff.2 fun hany => ?_
      obtain ⟨_, _, after, -, -, hlt⟩ := (hinv.fresh_iff hlistening).1 hany
      rw [← hinv.backends_eq, hnil] at hlt
      exact absurd hlt (Nat.not_lt_zero _)
    split_ifs with hcond
    · rw [or_iff_right_of_imp hempty] at hcond
      rw [hcond]
      decide
    · rw [or_iff_right_of_imp hempty, Bool.not_eq_false] at hcond
      rw [hcond]
      decide

namespace Vllm

/-- Two replicas of the server. -/
def servers : List String := ["http://vllm-0:8000", "http://vllm-1:8000"]

/-- The second one of the backends is healthy. -/
def started : List Event :=
  [.checked "http://vllm-0:8000" .failed, .checked "http://vllm-1:8000" (.status 200), .listen]

/-- The gateway has just been started, and is ready. -/
theorem ready_started : (200 = 200 ↔ Fresh servers (checks started)) ∧
    (200 = 503 ↔ ¬Fresh servers (checks started)) := by
  have hround : Run (Health.boot servers) [.checked "http://vllm-0:8000" .failed,
      .checked "http://vllm-1:8000" (.status 200)] _ :=
    .step (.step .start (.checked _ rfl)) (.checked _ rfl)
  exact ready_iff (r := ⟨200, "ready"⟩) (.step (.step hround (.listen rfl rfl)) (.ready rfl))

end Vllm

end Health

end Gateway

end OpenDataGov
