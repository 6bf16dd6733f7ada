import OpenDataGov.Lib.Program

/-!
# Two runs of programs

Two programs run on two stores, side by side (`Program.Coupled`): both return
results that are related by `V`, or raise the same error, and leave stores that
are related by `J`. What is observed of the one run is observed of the other, if `V` and `J`
say so.

There is a rule for each construct: two queries that are answered, or fail with
the same error (`coupled_query`), and two programs one after the other (`coupled_bind`). The
queries need not be the same ones; they are when one program is run on two stores.
-/

namespace Transact

namespace Program

variable {Q : Type} {R : Q → Type} {ε α α' β β' S K : Type} {B : Backend R ε S K}

/-- Running `f` on the result of a program. -/
theorem run_bind (p : Program R ε α) (f : α → Program R ε β) (s : S) :
    (p >>= f).run B s = match p.run B s with
      | (.ok a, s') => (f a).run B s'
      | (.error e, s') => (.error e, s') := by
  induction p generalizing s with
  | pure a => rfl
  | raise e => rfl
  | query q k ih =>
    rw [bind_query, run, run]
    split
    · exact ih _ _
    · rfl

/-- The same error with stores related by `J`, or results related by `V`. -/
inductive Agree (V : α → α' → Prop) (J : S → S → Prop) :
    Except ε α × S → Except ε α' × S → Prop
  | ok {a a' s s'} : V a a' → J s s' → Agree V J (.ok a, s) (.ok a', s')
  | error {e s s'} : J s s' → Agree V J (.error e, s) (.error e, s')

variable (B) in
/-- The programs agree when the one is run on `s` and the other on `s'`. -/
def Coupled (V : α → α' → Prop) (J : S → S → Prop) (p : Program R ε α) (p' : Program R ε α')
    (s s' : S) : Prop := Agree V J (p.run B s) (p'.run B s')

variable {V : α → α' → Prop} {T : β → β' → Prop} {I J : S → S → Prop} {p : Program R ε α}
  {p' : Program R ε α'} {f : α → Program R ε β} {f' : α' → Program R ε β'} {s s' : S} {q q' : Q}

theorem coupled_pure {a : α} {a' : α'} (ha : V a a') (h : J s s') :
    Coupled B V J (.pure a) (.pure a') s s' := .ok ha h

theorem coupled_raise {e : ε} (h : J s s') : Coupled B V J (.raise e) (.raise e) s s' := .error h

/-- Two queries, both answered or failing with the same error. -/
theorem coupled_query {k : R q → Program R ε α} {k' : R q' → Program R ε α'} (h : J s s')
    (herror : ∀ e, B.answer q s = .error e ↔ B.answer q' s' = .error e)
    (hok : ∀ a a', B.answer q s = .ok a → B.answer q' s' = .ok a' →
      Coupled B V J (k a) (k' a') (B.effect q s) (B.effect q' s')) :
    Coupled B V J (.query q k) (.query q' k') s s' := by
  rw [Coupled, run, run]
  cases ha : B.answer q s with
  | error e =>
    rw [(herror e).1 ha]
    exact .error h
  | ok a =>
    cases ha' : B.answer q' s' with
    | error e => cases ha.symm.trans ((herror e).2 ha')
    | ok a' => exact hok a a' ha ha'

/-- Two programs, each followed by another. -/
theorem coupled_bind (hp : Coupled B V I p p' s s')
    (hf : ∀ a a' t t', V a a' → I t t' → Coupled B T J (f a) (f' a') t t')
    (hI : ∀ t t', I t t' → J t t') : Coupled B T J (p >>= f) (p' >>= f') s s' := by
  rw [Coupled, run_bind, run_bind]
  rw [Coupled] at hp
  generalize p.run B s = x at hp
  generalize p'.run B s' = x' at hp
  cases hp with
  | ok ha h => exact hf _ _ _ _ ha h
  | error h => exact .error (hI _ _ h)

/-- The results are related. -/
theorem Coupled.result (h : Coupled B Eq J p p s s') : (p.run B s).1 = (p.run B s').1 := by
  rw [Coupled] at h
  generalize p.run B s = x at h
  generalize p.run B s' = x' at h
  cases h with
  | ok ha => exact congrArg Except.ok ha
  | error => rfl

end Program

end Transact
