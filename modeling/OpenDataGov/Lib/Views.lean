import Mathlib.Data.List.Forall2
import OpenDataGov.Lib.Threads

/-!
# Views of a store

A store that is implemented on another one. The programs of the first are run on the second with
each query sent as another one (`Program.via`), and there is a *view* of the second store as the
first one. The implementation is right if a query answers what the other one answers on the view,
and changes it likewise (`Backend.Implements`).

* `Pool.Run.seen`: then all that happens to a pool of programs, on the second store and among
  others that do not change the view, happens to the programs on the first store;
* `Pool.Run.stable`: what the answer to a query says of the store holds as long as no query of
  the pool can make it false.
-/

namespace Transact

variable {Q Q' : Type} {R : Q → Type} {R' : Q' → Type} {ε α α' β S S' K K' ι κ : Type}

namespace Program

/-- The program with its queries sent as others, and its result and errors made into others. -/
def via (f : Q → Q') (g : ∀ q, R' (f q) → R q) (h : α → α') :
    Program R ε α → Program R' ε α'
  | .pure a => .pure (h a)
  | .raise e => .raise e
  | .query q k => .query (f q) fun r => (k (g q r)).via f g h

/-- The exchanges of a program that is sent otherwise are those of the program. -/
theorem Follows.of_via {f : Q → Q'} {g : ∀ q, R' (f q) → R q} {h : α → α'} {p : Program R ε α}
    {log' : List (Exchange R')} {p' : Program R' ε α'} (hfollows : (p.via f g h).Follows log' p') :
    ∃ log p₁, p.Follows log p₁ ∧ p' = p₁.via f g h ∧
      List.Forall₂ (fun x' x => ∃ r, x' = ⟨f x.query, r⟩ ∧ x.answer = g x.query r) log' log := by
  induction log' generalizing p with
  | nil =>
    generalize hp : p.via f g h = p₀ at hfollows
    cases hfollows
    exact ⟨[], p, .nil, hp.symm, .nil⟩
  | cons x' log' ih =>
    cases p with
    | pure a => cases hfollows
    | raise e => cases hfollows
    | query q k =>
      rw [via] at hfollows
      cases hfollows with
      | @cons _ _ r _ _ hrest =>
        obtain ⟨log, p₁, hlog, hp, hall⟩ := ih hrest
        exact ⟨⟨q, g q r⟩ :: log, p₁, .cons hlog, hp, .cons ⟨r, rfl, rfl⟩ hall⟩

/-- A program sends queries of some kind. -/
theorem sends_true (p : Program R ε α) : p.Sends fun _ => True := by
  induction p with
  | pure a => trivial
  | raise e => trivial
  | query q k ih => exact ⟨trivial, ih⟩

end Program

/-- The queries `f q` on the stores `S'` do what `q` does on the view. -/
structure Backend.Implements (B' : Backend R' ε S' K') (B : Backend R ε S K) (f : Q → Q')
    (g : ∀ q, R' (f q) → R q) (view : S' → S) : Prop where
  answer : ∀ {q s r}, B'.answer (f q) s = .ok r → B.answer q (view s) = .ok (g q r)
  effect : ∀ {q s r}, B'.answer (f q) s = .ok r → view (B'.effect (f q) s) = B.effect q (view s)

namespace Pool

variable [DecidableEq ι] [DecidableEq κ] {B : Backend R ε S K} {B' : Backend R' ε S' K'}
  {f : Q → Q'} {g : ∀ q, R' (f q) → R q} {h : α → α'} {view : S' → S}

/-- The pool `c'`, which has other programs besides, shows the pool `c`. -/
structure Seen (f : Q → Q') (g : ∀ q, R' (f q) → R q) (h : α → α') (view : S' → S)
    (c' : Pool (ι ⊕ κ) R' ε α' S') (c : Pool ι R ε α S) : Prop where
  store : c.store = view c'.store
  thread : ∀ t, c'.thread (.inl t) = (c.thread t).via f g h

omit [DecidableEq ι] [DecidableEq κ] in
/-- A program of the one pool sends the query that a program of the other one sends. -/
theorem Seen.query {c' : Pool (ι ⊕ κ) R' ε α' S'} {c : Pool ι R ε α S}
    (hseen : Seen f g h view c' c) {t : ι} {q' : Q'} {k' : R' q' → Program R' ε α'}
    (ht : c'.thread (.inl t) = .query q' k') :
    ∃ q k, c.thread t = .query q k ∧ ∃ hq : f q = q',
      k' = hq ▸ fun r => (k (g q r)).via f g h := by
  have hthread := (hseen.thread t).symm.trans ht
  cases hc : c.thread t with
  | pure a => rw [hc] at hthread; cases hthread
  | raise e => rw [hc] at hthread; cases hthread
  | query q k =>
    rw [hc] at hthread
    cases hthread
    exact ⟨q, k, rfl, rfl, rfl⟩

/-- The same step of both pools. -/
theorem Seen.set {c' : Pool (ι ⊕ κ) R' ε α' S'} {c : Pool ι R ε α S} (hseen : Seen f g h view c' c)
    {t : ι} {s' : S'} {s : S} {p : Program R ε α} (hs : s = view s') :
    Seen f g h view (c'.set (.inl t) s' (p.via f g h)) (c.set t s p) where
  store := hs
  thread t' := by
    by_cases ht : t' = t
    · subst ht
      rw [thread_set_self, thread_set_self]
    · rw [thread_set_of_ne ht, thread_set_of_ne fun heq => ht (Sum.inl.inj heq)]
      exact hseen.thread t'

/-- A step of one of the others. -/
theorem Seen.other {c' : Pool (ι ⊕ κ) R' ε α' S'} {c : Pool ι R ε α S}
    (hseen : Seen f g h view c' c) {t : κ} {s' : S'} {p' : Program R' ε α'}
    (hs : view s' = view c'.store) :
    Seen f g h view (c'.set (.inr t) s' p') c where
  store := hseen.store.trans hs.symm
  thread t' := by
    rw [thread_set_of_ne Sum.inl_ne_inr]
    exact hseen.thread t'

/-- Whatever happens to the programs on the store that implements another one, among others that
    send only queries which do not change the view, happens to them on the other store. -/
theorem Run.seen {c₀' c' : Pool (ι ⊕ κ) R' ε α' S'} {c₀ : Pool ι R ε α S}
    {past' : Past (ι ⊕ κ) R' ε α' S'} {C : Q' → Prop} (himpl : B'.Implements B f g view)
    (hrun : Run B' c₀' past' c') (hseen : Seen f g h view c₀' c₀)
    (hothers : ∀ t, (c₀'.thread (.inr t)).Sends C)
    (hC : ∀ q s r, C q → B'.answer q s = .ok r → view (B'.effect q s) = view s) :
    ∃ past c, Run B c₀ past c ∧ Seen f g h view c' c := by
  induction hrun with
  | start => exact ⟨[], c₀, .start, hseen⟩
  | @step past' c' c₁' m hrun hst ih =>
    obtain ⟨past, c, hc, hseen⟩ := ih
    obtain ⟨t | t, q'⟩ := m
    · cases hst with
      | answer hthread hr =>
        obtain ⟨q, k, hk, rfl, rfl⟩ := hseen.query hthread
        refine ⟨_, _, hc.step (.answer hk (hseen.store ▸ himpl.answer hr)), hseen.set ?_⟩
        rw [himpl.effect hr, hseen.store]
      | @fail _ _ _ e hthread =>
        obtain ⟨q, k, hk, rfl, rfl⟩ := hseen.query hthread
        exact ⟨_, _, hc.step (.fail (e := e) hk), hseen.set (p := .raise e) hseen.store⟩
    · have hsent : C q' := hrun.sends hst (hothers t)
      refine ⟨past, c, hc, ?_⟩
      cases hst with
      | answer hthread hr => exact hseen.other (hC _ _ _ hsent hr)
      | fail hthread => exact hseen.other rfl

end Pool

namespace Pool

variable [DecidableEq ι] {B : Backend R ε S K} {c₀ c : Pool ι R ε α S} {past : Past ι R ε α S}

/-- What an answer says of the store that the query leaves holds from then on, if no query that
    the programs can send makes it false. -/
theorem Run.stable {C : Q → Prop} {P : (q : Q) → R q → S → Prop} (hrun : Run B c₀ past c)
    (hsends : ∀ t, (c₀.thread t).Sends C)
    (hmake : ∀ q s r, B.answer q s = .ok r → P q r (B.effect q s))
    (hkeep : ∀ q s r, C q → B.answer q s = .ok r → ∀ q' r', P q' r' s → P q' r' (B.effect q s))
    (t : ι) : (∃ e, c.thread t = .raise e) ∨ ∃ log, (c₀.thread t).Follows log (c.thread t) ∧
      ∀ x ∈ log, P x.query x.answer c.store := by
  induction hrun with
  | start => exact .inr ⟨[], .nil, fun _ hx => absurd hx List.not_mem_nil⟩
  | @step past c c' m hrun hst ih =>
    have hsent : C m.2 := hrun.sends hst (hsends m.1)
    cases hst with
    | @answer t' q k r hthread hr =>
      by_cases ht : t = t'
      · subst ht
        -- The answer holds when it is given, and those before it are kept.
        rcases ih with ⟨e, he⟩ | ⟨log, hfollows, hlog⟩
        · cases he.symm.trans hthread
        · rw [thread_set_self]
          refine .inr ⟨log ++ [⟨q, r⟩], (hthread ▸ hfollows).send r,
            List.forall_mem_append.2 ⟨fun x hx => ?_, List.forall_mem_singleton.2 ?_⟩⟩
          · exact hkeep q _ r hsent hr _ _ (hlog x hx)
          · exact hmake q _ r hr
      · rw [thread_set_of_ne ht]
        refine ih.imp_right fun ⟨log, hfollows, hlog⟩ => ⟨log, hfollows, fun x hx => ?_⟩
        exact hkeep q _ r hsent hr _ _ (hlog x hx)
    | @fail t' q k e hthread =>
      by_cases ht : t = t'
      · subst ht
        exact .inl ⟨e, thread_set_self⟩
      · rw [thread_set_of_ne ht]
        exact ih

end Pool

end Transact
