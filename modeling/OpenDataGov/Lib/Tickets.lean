import Mathlib.Algebra.Order.Floor.Div
import Mathlib.Data.Int.CardIntervalMod
import Mathlib.Data.Nat.ModEq
import Mathlib.Logic.Function.Iterate

/-!
# Tickets

Any number of threads draw tickets from one source, a counter say, and each makes something
of its ticket afterwards (`Step`). To draw a ticket is atomic, as to fetch and to add are in
one operation; between the draw and the use, other threads may draw and use theirs. The log
has all the calls, in the order of the draws.

* `Run.result`: whatever the order of the steps, the call at a place of the log gets the
  ticket of this place, and its result is what this ticket is good for;
* `Run.exists_use`: a call that has drawn its ticket can always use it;
* `count_mod`: any `k` numbers in a row have each remainder by `n` as often as any other one,
  up to one.
-/

namespace Tickets

variable {γ S T α : Type}

/-- Where tickets come from, and what they are good for. -/
structure Source (S T α : Type) where
  /-- The next ticket, and what is left of the source. -/
  draw : S → T × S
  use : T → α

namespace Source

variable (src : Source S T α)

/-- The source after one more draw. -/
def advance (s : S) : S := (src.draw s).2

/-- The ticket that is drawn in the place `i`. -/
def ticket (s : S) (i : ℕ) : T := (src.draw (src.advance^[i] s)).1

end Source

/-- What a thread does at the moment. -/
inductive Phase (T : Type)
  | idle
  /-- It has drawn the ticket of the place `i`, and not used it yet. -/
  | holding (i : ℕ) (ticket : T)

/-- A call of a thread, which has a result when it has returned. -/
structure Call (γ α : Type) where
  thread : γ
  result : Option α

/-- The threads at work, and the calls in the order of their draws. -/
structure State (γ S T α : Type) where
  source : S
  phase : γ → Phase T
  log : List (Call γ α)

/-- No thread has made a call. -/
def start (s : S) : State γ S T α := ⟨s, fun _ => .idle, []⟩

section

variable [DecidableEq γ] (src : Source S T α)

/-- The thread `t` has drawn a ticket. -/
def State.drawn (c : State γ S T α) (t : γ) : State γ S T α where
  source := src.advance c.source
  phase := Function.update c.phase t (.holding c.log.length (src.draw c.source).1)
  log := c.log ++ [⟨t, none⟩]

/-- The thread `t` has used the ticket `k` of the place `i`. -/
def State.used (c : State γ S T α) (t : γ) (i : ℕ) (k : T) : State γ S T α where
  source := c.source
  phase := Function.update c.phase t .idle
  log := c.log.set i ⟨t, some (src.use k)⟩

/-- One step of one thread. -/
inductive Step : State γ S T α → State γ S T α → Prop
  | draw {c : State γ S T α} {t : γ} : c.phase t = .idle → Step c (c.drawn src t)
  | use {c : State γ S T α} {t : γ} {i : ℕ} {k : T} :
      c.phase t = .holding i k → Step c (c.used src t i k)

/-- Any number of steps, of any threads in any order. -/
abbrev Run : State γ S T α → State γ S T α → Prop := Relation.ReflTransGen (Step src)

end

/-- The calls have got the tickets of their places, and those that have not returned are
    those whose threads hold a ticket. -/
structure Orderly (src : Source S T α) (s : S) (c : State γ S T α) : Prop where
  source : c.source = src.advance^[c.log.length] s
  result : ∀ i t a, c.log[i]? = some ⟨t, some a⟩ → a = src.use (src.ticket s i)
  held : ∀ t i k, c.phase t = .holding i k → k = src.ticket s i ∧ c.log[i]? = some ⟨t, none⟩
  pending : ∀ i t, c.log[i]? = some ⟨t, none⟩ → c.phase t = .holding i (src.ticket s i)

variable {src : Source S T α} {s : S} {c c' : State γ S T α} {t u : γ} {i j : ℕ} {k : T}

/-- There are no calls at first. -/
theorem orderly_start : Orderly src s (start s : State γ S T α) where
  source := rfl
  result _ _ _ h := by simp [start] at h
  held _ _ _ h := by cases h
  pending _ _ h := by simp [start] at h

variable [DecidableEq γ]

@[simp] theorem phase_drawn_self :
    (c.drawn src t).phase t = .holding c.log.length (src.draw c.source).1 :=
  Function.update_self ..

theorem phase_drawn_of_ne (h : u ≠ t) : (c.drawn src t).phase u = c.phase u :=
  Function.update_of_ne h ..

@[simp] theorem phase_used_self : (c.used src t i k).phase t = .idle :=
  Function.update_self ..

theorem phase_used_of_ne (h : u ≠ t) : (c.used src t i k).phase u = c.phase u :=
  Function.update_of_ne h ..

/-- The call that has just been made is the last one. -/
theorem getElem?_log_drawn {call : Call γ α} : (c.drawn src t).log[i]? = some call ↔
    c.log[i]? = some call ∨ i = c.log.length ∧ call = ⟨t, none⟩ := by
  rw [State.drawn]
  rcases lt_trichotomy i c.log.length with hlt | rfl | hgt
  · rw [List.getElem?_append_left hlt]
    simp [hlt.ne]
  · simp [eq_comm]
  · have hlen : (c.log ++ [(⟨t, none⟩ : Call γ α)]).length ≤ i := by
      rw [List.length_append]
      exact hgt
    rw [List.getElem?_eq_none hlen, List.getElem?_eq_none hgt.le]
    simp [hgt.ne']

theorem getElem?_log_used_self (h : i < c.log.length) :
    (c.used src t i k).log[i]? = some ⟨t, some (src.use k)⟩ :=
  List.getElem?_set_self h

theorem getElem?_log_used_of_ne (h : i ≠ j) : (c.used src t i k).log[j]? = c.log[j]? :=
  List.getElem?_set_ne h

/-- Drawing a ticket keeps the log in order, -/
theorem Orderly.drawn (h : Orderly src s c) (hidle : c.phase t = .idle) :
    Orderly src s (c.drawn src t) := by
  have hticket : (src.draw c.source).1 = src.ticket s c.log.length := by
    rw [Source.ticket, ← h.source]
  refine ⟨?_, fun i u a hi => ?_, fun u i k hu => ?_, fun i u hi => ?_⟩
  · rw [State.drawn, List.length_append, List.length_singleton, Function.iterate_succ_apply',
      ← h.source]
  · rcases getElem?_log_drawn.1 hi with hi | ⟨_, hcall⟩
    · exact h.result i u a hi
    · cases hcall
  · by_cases hut : u = t
    · subst hut
      rw [phase_drawn_self] at hu
      cases hu
      exact ⟨hticket, getElem?_log_drawn.2 (.inr ⟨rfl, rfl⟩)⟩
    · rw [phase_drawn_of_ne hut] at hu
      obtain ⟨hk, hi⟩ := h.held u i k hu
      exact ⟨hk, getElem?_log_drawn.2 (.inl hi)⟩
  · rcases getElem?_log_drawn.1 hi with hi | ⟨rfl, hcall⟩
    · -- A thread with a call that has not returned is not idle.
      have hphase := h.pending i u hi
      have hut : u ≠ t := by
        rintro rfl
        rw [hidle] at hphase
        cases hphase
      rw [phase_drawn_of_ne hut, hphase]
    · cases hcall
      rw [phase_drawn_self, hticket]

/-- using one does, -/
theorem Orderly.used (h : Orderly src s c) (hholding : c.phase t = .holding i k) :
    Orderly src s (c.used src t i k) := by
  obtain ⟨rfl, hi⟩ := h.held t i k hholding
  obtain ⟨hlt, _⟩ := List.getElem?_eq_some_iff.1 hi
  refine ⟨?_, fun j u a hj => ?_, fun u j k hu => ?_, fun j u hj => ?_⟩
  · rw [State.used, List.length_set]
    exact h.source
  · by_cases hij : i = j
    · subst hij
      rw [getElem?_log_used_self hlt] at hj
      cases hj
      rfl
    · rw [getElem?_log_used_of_ne hij] at hj
      exact h.result j u a hj
  · have hut : u ≠ t := by
      rintro rfl
      rw [phase_used_self] at hu
      cases hu
    rw [phase_used_of_ne hut] at hu
    obtain ⟨hk, hj⟩ := h.held u j k hu
    -- The place of the call that returns has the other thread.
    have hij : i ≠ j := by
      rintro rfl
      exact hut (congrArg Call.thread (Option.some.inj (hj.symm.trans hi)))
    exact ⟨hk, by rwa [getElem?_log_used_of_ne hij]⟩
  · by_cases hij : i = j
    · subst hij
      rw [getElem?_log_used_self hlt] at hj
      cases hj
    · rw [getElem?_log_used_of_ne hij] at hj
      have hphase := h.pending j u hj
      have hut : u ≠ t := by
        rintro rfl
        rw [hholding] at hphase
        cases hphase
        exact hij rfl
      rw [phase_used_of_ne hut, hphase]

/-- so any step, -/
theorem Orderly.step (h : Orderly src s c) (hstep : Step src c c') : Orderly src s c' := by
  cases hstep with
  | draw hidle => exact h.drawn hidle
  | use hholding => exact h.used hholding

/-- and a whole run. -/
theorem Run.orderly (h : Run src (start s) c) : Orderly src s c := by
  induction h with
  | refl => exact orderly_start
  | tail _ hstep ih => exact ih.step hstep

/-- Whatever the order of the steps, a call that has returned has made what it should of the
    ticket of its place. -/
theorem Run.result {call : Call γ α} {a : α} (h : Run src (start s) c)
    (hi : c.log[i]? = some call) (ha : call.result = some a) :
    a = src.use (src.ticket s i) := by
  obtain ⟨t, _⟩ := call
  obtain rfl := ha
  exact h.orderly.result i t a hi

/-- A call that has not returned can do so next. -/
theorem Run.exists_use (h : Run src (start s) c)
    (hi : c.log[i]? = some ⟨t, none⟩) :
    ∃ c', Step src c c' ∧ c'.log[i]? = some ⟨t, some (src.use (src.ticket s i))⟩ := by
  obtain ⟨hlt, _⟩ := List.getElem?_eq_some_iff.1 hi
  exact ⟨_, .use (h.orderly.pending i t hi), List.getElem?_set_self hlt⟩

/-! ### Remainders -/

/-- Among `k` numbers in a row, the remainder `p` by `n` occurs `⌊k / n⌋` or `⌈k / n⌉`
    times. -/
theorem count_mod {n p : ℕ} (hp : p < n) (a k : ℕ) :
    Nat.count (fun j => (a + j) % n = p) k = k / n ∨
      Nat.count (fun j => (a + j) % n = p) k = k ⌈/⌉ n := by
  have hn : 0 < n := by omega
  have hmod (j : ℕ) : j % n = p ↔ j ≡ p [MOD n] := by
    rw [Nat.ModEq, Nat.mod_eq_of_lt hp]
  have hcount := Nat.count_add (fun j => j ≡ p [MOD n]) a k
  simp only [Nat.count_modEq_card _ hn, Nat.mod_eq_of_lt hp] at hcount
  simp only [hmod]
  have hceil : k ⌈/⌉ n = k / n + if k % n = 0 then 0 else 1 := by
    have hlt : n - 1 < n := Nat.sub_lt hn one_pos
    rw [Nat.ceilDiv_eq_add_pred_div, Nat.add_sub_assoc hn, Nat.add_div hn, Nat.div_eq_of_lt hlt,
      Nat.mod_eq_of_lt hlt]
    split_ifs <;> omega
  rw [hceil]
  -- The window begins `a % n` after a multiple of `n`.
  have hdiv := Nat.add_div hn (a := a) (b := k)
  have hrest := Nat.add_mod_add_ite a k n
  have ha := Nat.mod_lt a hn
  have hk := Nat.mod_lt k hn
  split_ifs at * <;> omega

end Tickets
