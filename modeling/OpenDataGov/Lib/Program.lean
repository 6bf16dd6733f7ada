import Mathlib.Logic.Relation

/-!
# Programs over a store

A *program* talks to a store by sending it queries one at a time: it is a tree
whose nodes are queries, branching on the answers, and whose leaves are results
or errors raised. A *backend* says what a query answers on a store, what it
changes there, and what it locks.

The same program is run in two ways:

* alone (`Program.run`), every query reading the store the last one left; an
  error, of the backend or of the program, ends the run and *keeps* the changes
  made so far. What holds of its outcome is proved with a weakest precondition
  (`Program.wp`, with a postcondition for results and one for errors) and a rule
  for each construct (`wp_query`, `wp_bind`, ...);
* as one of many concurrent transactions (`Transact.ReadCommitted`).
-/

namespace Transact

variable {Q : Type} {R : Q → Type} {ε α β S K : Type}

/-- Programs sending queries `q : Q` answered by an `R q`, raising errors `ε` and
    returning an `α`. -/
inductive Program (R : Q → Type) (ε α : Type)
  | pure (a : α)
  | raise (e : ε)
  | query (q : Q) (k : R q → Program R ε α)

namespace Program

/-- Running `f` on the result. -/
def bind : Program R ε α → (α → Program R ε β) → Program R ε β
  | .pure a, f => f a
  | .raise e, _ => .raise e
  | .query q k, f => .query q fun r => (k r).bind f

instance : Monad (Program R ε) where
  pure := .pure
  bind := .bind

/-- The program with all queries refused that do not satisfy `P`: the first one of them raises
    `e`. -/
def guard (P : Q → Bool) (e : ε) : Program R ε α → Program R ε α
  | .pure a => .pure a
  | .raise e' => .raise e'
  | .query q k => if P q then .query q fun r => (k r).guard P e else .raise e

/-- Sending a single query. -/
def send (q : Q) : Program R ε (R q) := .query q .pure

@[simp] theorem pure_eq (a : α) : (Pure.pure a : Program R ε α) = .pure a := rfl

@[simp] theorem bind_pure_left (a : α) (f : α → Program R ε β) :
    (Program.pure a : Program R ε α) >>= f = f a := rfl

@[simp] theorem bind_raise (e : ε) (f : α → Program R ε β) :
    (Program.raise e : Program R ε α) >>= f = .raise e := rfl

@[simp] theorem bind_query (q : Q) (k : R q → Program R ε α) (f : α → Program R ε β) :
    Program.query q k >>= f = .query q fun r => k r >>= f := rfl

@[simp] theorem bind_send (q : Q) (f : R q → Program R ε β) :
    (send q : Program R ε (R q)) >>= f = .query q f := rfl

/-- Programs are put together one after the other, in any way, -/
theorem bind_bind (p : Program R ε α) (f : α → Program R ε β) {γ : Type}
    (g : β → Program R ε γ) : p >>= f >>= g = p >>= fun a => f a >>= g := by
  induction p with
  | pure a => rfl
  | raise e => rfl
  | query q k ih => exact congrArg (Program.query q) (funext ih)

/-- and returning a result at the end changes nothing. -/
theorem bind_pure_right (p : Program R ε α) : p >>= .pure = p := by
  induction p with
  | pure a => rfl
  | raise e => rfl
  | query q k ih => exact congrArg (Program.query q) (funext ih)

/-- Returning what a computation without queries returns. -/
def ofExcept : Except ε α → Program R ε α
  | .ok a => .pure a
  | .error e => .raise e

/-- All the queries a program can send satisfy `P`. -/
def Sends (P : Q → Prop) : Program R ε α → Prop
  | .pure _ => True
  | .raise _ => True
  | .query q k => P q ∧ ∀ r, (k r).Sends P

/-- What two programs send is what each of them does. -/
theorem Sends.bind {P : Q → Prop} {p : Program R ε α} {f : α → Program R ε β} (hp : p.Sends P)
    (hf : ∀ a, (f a).Sends P) : (p >>= f).Sends P := by
  induction p with
  | pure a => exact hf a
  | raise e => trivial
  | query q k ih => exact ⟨hp.1, fun r => ih r (hp.2 r)⟩

/-- A program that sends such queries sends others of which these are some. -/
theorem Sends.mono {P P' : Q → Prop} {p : Program R ε α} (hp : p.Sends P)
    (h : ∀ q, P q → P' q) : p.Sends P' := by
  induction p with
  | pure a => trivial
  | raise e => trivial
  | query q k ih => exact ⟨h q hp.1, fun r => ih r (hp.2 r)⟩

theorem sends_ofExcept {P : Q → Prop} (x : Except ε α) : (ofExcept x : Program R ε α).Sends P := by
  cases x <;> trivial

theorem sends_send {P : Q → Prop} {q : Q} (h : P q) : (send q : Program R ε (R q)).Sends P :=
  ⟨h, fun _ => trivial⟩

end Program

/-- What a store answers to the queries, what they change in it, and the locks
    they take until the end of their transaction. -/
structure Backend (R : Q → Type) (ε S K : Type) where
  /-- The answer to a query, or the error it fails with. -/
  answer : (q : Q) → S → Except ε (R q)
  /-- The store after a query that was answered. -/
  effect : Q → S → S
  /-- The locks a query waits for. -/
  locks : Q → List K

namespace Program

variable (B : Backend R ε S K)

/-- Running a program alone on a store: its result, and the store it leaves. -/
def run : Program R ε α → S → Except ε α × S
  | .pure a, s => (.ok a, s)
  | .raise e, s => (.error e, s)
  | .query q k, s => match B.answer q s with
    | .ok r => (k r).run (B.effect q s)
    | .error e => (.error e, s)

/-- Run alone, the program returns a result for which `Q` holds of the store it
    leaves, or raises an error for which `E` does. -/
def wp (Q : α → S → Prop) (E : ε → S → Prop) : Program R ε α → S → Prop
  | .pure a, s => Q a s
  | .raise e, s => E e s
  | .query q k, s => match B.answer q s with
    | .ok r => (k r).wp Q E (B.effect q s)
    | .error e => E e s

variable {B} {p : Program R ε α} {f : α → Program R ε β} {s s' : S} {a : α} {e : ε} {q : Q}
  {P P' : α → S → Prop} {T : β → S → Prop} {E E' : ε → S → Prop}

theorem run_ofExcept (x : Except ε α) : (ofExcept x : Program R ε α).run B s = (x, s) := by
  cases x <;> rfl

/-- Going on after a query whose answer is known. -/
theorem run_send {k : R q → Program R ε α} {r : R q} (h : B.answer q s = .ok r) :
    (send q >>= k).run B s = (k r).run B (B.effect q s) := by rw [bind_send, run, h]

theorem run_send_error {k : R q → Program R ε α} (h : B.answer q s = .error e) :
    (send q >>= k).run B s = (.error e, s) := by rw [bind_send, run, h]

/-- Where no query is refused, a guarded program does what it does without the guard. -/
theorem run_guard (P : Q → Bool) (e : ε) (p : Program R ε α) (s : S) :
    (p.guard P e).run B s = p.run B s ∨ ((p.guard P e).run B s).1 = .error e := by
  induction p generalizing s with
  | pure a => exact .inl rfl
  | raise e' => exact .inl rfl
  | query q k ih =>
    rw [guard]
    split
    · rw [run, run]
      split
      · exact ih _ _
      · exact .inl rfl
    · exact .inr rfl

@[simp] theorem wp_pure : (Program.pure a : Program R ε α).wp B P E s ↔ P a s := .rfl

@[simp] theorem wp_raise : (Program.raise e : Program R ε α).wp B P E s ↔ E e s := .rfl

theorem wp_query {k : R q → Program R ε α} (hr : ∀ r, B.answer q s = .ok r →
    (k r).wp B P E (B.effect q s)) (he : ∀ e, B.answer q s = .error e → E e s) :
    (Program.query q k).wp B P E s := by
  rw [wp]
  split
  · exact hr _ ‹_›
  · exact he _ ‹_›

/-- What runs before `f` has to establish what `f` needs. -/
theorem wp_bind : (p >>= f).wp B T E s ↔ p.wp B (fun a s' => (f a).wp B T E s') E s := by
  induction p generalizing s with
  | pure a => rfl
  | raise e => rfl
  | query q k ih =>
    rw [bind_query, wp, wp]
    split
    · exact ih _
    · rfl

/-- Less may be asked of the outcome. -/
theorem wp_mono (hp : p.wp B P E s) (hP : ∀ a s', P a s' → P' a s')
    (hE : ∀ e s', E e s' → E' e s') : p.wp B P' E' s := by
  induction p generalizing s with
  | pure a => exact hP a s hp
  | raise e => exact hE e s hp
  | query q k ih =>
    rw [wp] at hp ⊢
    split at hp
    · exact ih _ hp
    · exact hE _ _ hp

/-- Running `f` after a program with a specification. -/
theorem wp_bind_of (hp : p.wp B P E s) (hf : ∀ a s', P a s' → (f a).wp B T E' s')
    (hE : ∀ e s', E e s' → E' e s') : (p >>= f).wp B T E' s :=
  wp_bind.2 (wp_mono hp hf hE)

/-- It is what the run comes to that is spoken of. -/
theorem wp_iff_run : p.wp B P E s ↔
    (∀ a s', p.run B s = (.ok a, s') → P a s') ∧ ∀ e s', p.run B s = (.error e, s') → E e s' := by
  induction p generalizing s with
  | pure a => simp [run]
  | raise e => simp [run]
  | query q k ih =>
    rw [wp, run]
    split
    · exact ih _
    · simp

/-- Two specifications of a program hold together. -/
theorem wp_and (h : p.wp B P E s) (h' : p.wp B P' E' s) :
    p.wp B (fun a s' => P a s' ∧ P' a s') (fun e s' => E e s' ∧ E' e s') s := by
  obtain ⟨hok, herror⟩ := wp_iff_run.1 h
  obtain ⟨hok', herror'⟩ := wp_iff_run.1 h'
  exact wp_iff_run.2 ⟨fun a s' hrun => ⟨hok a s' hrun, hok' a s' hrun⟩,
    fun e s' hrun => ⟨herror e s' hrun, herror' e s' hrun⟩⟩

/-- What all the queries of a program preserve, the program does. -/
theorem Sends.wp {C : Q → Prop} {I : S → Prop} (hp : p.Sends C)
    (hI : ∀ q s, C q → I s → I (B.effect q s)) (h : I s) :
    p.wp B (fun _ s' => I s') (fun _ s' => I s') s := by
  induction p generalizing s with
  | pure a => exact h
  | raise e => exact h
  | query q k ih => exact wp_query (fun r _ => ih r (hp.2 r) (hI q s hp.1 h)) fun _ _ => h

-- Programs are run by the rules, not by unfolding.
attribute [irreducible] wp

end Program

end Transact
