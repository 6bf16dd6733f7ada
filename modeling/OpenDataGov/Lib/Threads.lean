import OpenDataGov.Lib.ReadCommitted

/-!
# Programs that share a store

Any number of programs run concurrently on one store, without transactions: the next query
of any of them is answered at once, by the store as it is, and what it changes is there for
all (`Pool.Step`). A query may also fail, for any reason, and its program with it.

* `Pool.Run.answered`: a program that has not failed is the one that was started, after the
  answers that it got, each from the store at some earlier time;
* `Pool.Run.sends`: no program sends other queries than it can;
* `Pool.Run.alone`: a program may run to its end while the others wait.
-/

namespace Transact

variable {Q : Type} {R : Q → Type} {ε α S K ι : Type}

/-- The programs `ι` under way on a store. -/
structure Pool (ι : Type) (R : Q → Type) (ε α S : Type) where
  store : S
  thread : ι → Program R ε α

namespace Pool

variable [DecidableEq ι] (B : Backend R ε S K)

/-- The store is `s`, and `p` is left of the program `t`. -/
def set (c : Pool ι R ε α S) (t : ι) (s : S) (p : Program R ε α) : Pool ι R ε α S where
  store := s
  thread := Function.update c.thread t p

/-- The steps of a pool, with the query that they answer and who sends it. -/
inductive Step : Pool ι R ε α S → ι × Q → Pool ι R ε α S → Prop
  | answer {c : Pool ι R ε α S} {t : ι} {q : Q} {k : R q → Program R ε α} {r : R q} :
      c.thread t = .query q k → B.answer q c.store = .ok r →
      Step c (t, q) (c.set t (B.effect q c.store) (k r))
  | fail {c : Pool ι R ε α S} {t : ι} {q : Q} {k : R q → Program R ε α} {e : ε} :
      c.thread t = .query q k → Step c (t, q) (c.set t c.store (.raise e))

/-- What has been left behind: the pools with the steps made there. -/
abbrev Past (ι : Type) (R : Q → Type) (ε α S : Type) := List (Pool ι R ε α S × (ι × Q))

/-- The runs from `c₀`, with what they leave behind. -/
inductive Run (c₀ : Pool ι R ε α S) : Past ι R ε α S → Pool ι R ε α S → Prop
  | start : Run c₀ [] c₀
  | step {past : Past ι R ε α S} {c c' : Pool ι R ε α S} {m : ι × Q} :
      Run c₀ past c → Step B c m c' → Run c₀ (past ++ [(c, m)]) c'

/-- What is left of the program `p` is `p'`, unless it has failed, after answers that the
    stores of the past gave. -/
def Answered (past : Past ι R ε α S) (p p' : Program R ε α) : Prop :=
  (∃ e, p' = .raise e) ∨ ∃ log, p.Follows log p' ∧
    ∀ x ∈ log, ∃ y ∈ past, B.answer x.query y.1.store = .ok x.answer

variable {B} {c₀ c c' : Pool ι R ε α S} {m : ι × Q} {past : Past ι R ε α S} {t t' : ι} {s : S}
  {p p' : Program R ε α} {q : Q} {k : R q → Program R ε α}

@[simp] theorem thread_set_self : (c.set t s p).thread t = p :=
  Function.update_self ..

theorem thread_set_of_ne (h : t' ≠ t) : (c.set t s p).thread t' = c.thread t' :=
  Function.update_of_ne h ..

/-- Whoever sends a query has it as the next one. -/
theorem Step.thread (h : Step B c m c') : ∃ k, c.thread m.1 = .query m.2 k := by
  cases h with
  | answer ht => exact ⟨_, ht⟩
  | fail ht => exact ⟨_, ht⟩

/-- The store changes as the query changes it, or not at all. -/
theorem Step.store (h : Step B c m c') :
    c'.store = B.effect m.2 c.store ∨ c'.store = c.store := by
  cases h with
  | answer => exact .inl rfl
  | fail => exact .inr rfl

omit [DecidableEq ι] in
/-- Answers from the past are from any longer past. -/
theorem Answered.mono {past' : Past ι R ε α S} (h : Answered B past p p')
    (hpast : past ⊆ past') : Answered B past' p p' := by
  refine h.imp_right fun ⟨log, hfollows, hlog⟩ => ⟨log, hfollows, fun x hx => ?_⟩
  obtain ⟨y, hy, hanswer⟩ := hlog x hx
  exact ⟨y, hpast hy, hanswer⟩

omit [DecidableEq ι] in
/-- Before its next query, a program has got some answers. -/
theorem Answered.log (h : Answered B past p (.query q k)) :
    ∃ log, p.Follows log (.query q k) ∧
      ∀ x ∈ log, ∃ y ∈ past, B.answer x.query y.1.store = .ok x.answer := by
  rcases h with ⟨e, he⟩ | hlog
  · cases he
  · exact hlog

/-- A program that has not failed is the one that was started, after the answers that it
    got from the store at some earlier times. -/
theorem Run.answered (h : Run B c₀ past c) (t : ι) :
    Answered B past (c₀.thread t) (c.thread t) := by
  induction h with
  | start => exact .inr ⟨[], .nil, fun _ hx => absurd hx List.not_mem_nil⟩
  | @step past c c' m _ hst ih =>
    replace ih := ih.mono (List.subset_append_left past [(c, m)])
    cases hst with
    | @answer t' q k r hthread hr =>
      by_cases ht : t = t'
      · subst ht
        obtain ⟨log, hfollows, hlog⟩ := (hthread ▸ ih).log
        rw [thread_set_self]
        refine .inr ⟨log ++ [⟨q, r⟩], hfollows.send r, List.forall_mem_append.2 ⟨hlog, ?_⟩⟩
        exact List.forall_mem_singleton.2 ⟨(c, (t, q)), by simp, hr⟩
      · rw [thread_set_of_ne ht]
        exact ih
    | @fail t' q k e hthread =>
      by_cases ht : t = t'
      · subst ht
        exact .inl ⟨e, thread_set_self⟩
      · rw [thread_set_of_ne ht]
        exact ih

/-- No program sends other queries than it can. -/
theorem Run.sends {P : Q → Prop} (h : Run B c₀ past c) (hst : Step B c m c')
    (hP : (c₀.thread m.1).Sends P) : P m.2 := by
  obtain ⟨k, hk⟩ := hst.thread
  obtain ⟨log, hfollows, _⟩ := (hk ▸ h.answered m.1).log
  exact (hfollows.sends hP).2.1

theorem set_set {s' : S} : (c.set t s p).set t s' p' = c.set t s' p' :=
  congrArg (Pool.mk s') (Function.update_idem ..)

theorem set_eq_self (h : c.thread t = p) : c.set t c.store p = c := by
  subst h
  exact congrArg (Pool.mk c.store) (Function.update_eq_self ..)

/-- A program may run to its end while the others wait. -/
theorem Run.alone {a : α} (h : Run B c₀ past c) (ht : c.thread t = p)
    (hp : p.run B c.store = (.ok a, s)) : ∃ past', Run B c₀ past' (c.set t s (.pure a)) := by
  induction p generalizing past c with
  | pure b =>
    cases hp
    exact ⟨past, (set_eq_self ht).symm ▸ h⟩
  | raise e => cases hp
  | query q k ih =>
    rw [Program.run] at hp
    split at hp
    · rename_i r hr
      have hst : Step B c (t, q) (c.set t (B.effect q c.store) (k r)) := .answer ht hr
      rw [← set_set (s := B.effect q c.store) (p := k r)]
      exact ih r (h.step hst) thread_set_self hp
    · cases hp

end Pool

end Transact
