import Mathlib.Data.Nat.Init

/-!
# Loops

Loops that end only from within, as `for { … }` does: the body either goes on, in another
state, or returns (`Loop.Body`).

* `Returns.unique`: a loop returns at most one result;
* `returns_of_variant`: it returns if something gets less with every turn, and what every
  turn keeps holds when it returns.
-/

namespace Loop

variable {σ ρ : Type}

/-- The body of a loop: it goes on in another state, or returns. -/
abbrev Body (σ ρ : Type) := σ → σ ⊕ ρ

variable (body : Body σ ρ)

/-- The result of the loop, if it returns within `n` turns. -/
def run : ℕ → σ → Option ρ
  | 0, _ => none
  | n + 1, s => (body s).elim (run n) some

/-- The loop returns `r` when it starts in `s`. -/
def Returns (s : σ) (r : ρ) : Prop := ∃ n, run body n s = some r

variable {body} {s s' : σ} {r r' : ρ}

/-- A loop whose body goes on returns what it returns then, -/
theorem returns_inl (h : body s = .inl s') : Returns body s r ↔ Returns body s' r := by
  constructor
  · rintro ⟨n, hn⟩
    cases n with
    | zero => cases hn
    | succ n =>
      rw [run, h] at hn
      exact ⟨n, hn⟩
  · rintro ⟨n, hn⟩
    refine ⟨n + 1, ?_⟩
    rw [run, h]
    exact hn

/-- and one whose body returns has returned. -/
theorem returns_inr (h : body s = .inr r) : Returns body s r' ↔ r = r' := by
  constructor
  · rintro ⟨n, hn⟩
    cases n with
    | zero => cases hn
    | succ n =>
      rw [run, h] at hn
      exact Option.some.inj hn
  · rintro rfl
    refine ⟨1, ?_⟩
    rw [run, h]
    rfl

/-- A loop returns at most one result. -/
theorem Returns.unique (h : Returns body s r) (h' : Returns body s r') : r = r' := by
  obtain ⟨n, hn⟩ := h
  induction n generalizing s with
  | zero => cases hn
  | succ n ih =>
    rw [run] at hn
    cases hbody : body s with
    | inl s₁ =>
      rw [hbody] at hn
      exact ih ((returns_inl hbody).1 h') hn
    | inr r₁ =>
      rw [hbody] at hn
      exact (Option.some.inj hn).symm.trans ((returns_inr hbody).1 h')

/-- What a turn of a loop is to do: to keep `I` and make `v` less, or to return with `P`. -/
def Turn (I : σ → Prop) (v : σ → ℕ) (P : ρ → Prop) (s : σ) : σ ⊕ ρ → Prop
  | .inl s' => I s' ∧ v s' < v s
  | .inr r => P r

/-- A loop with an invariant `I` and a variant `v` returns, with what its last turn
    establishes. -/
theorem returns_of_variant {I : σ → Prop} {P : ρ → Prop} (v : σ → ℕ)
    (hturn : ∀ s, I s → Turn I v P s (body s)) (hs : I s) : ∃ r, Returns body s r ∧ P r := by
  induction hv : v s using Nat.strongRecOn generalizing s with
  | ind n ih =>
    have h := hturn s hs
    cases hbody : body s with
    | inl s' =>
      rw [hbody] at h
      obtain ⟨r, hr, hP⟩ := ih (v s') (hv ▸ h.2) h.1 rfl
      exact ⟨r, (returns_inl hbody).2 hr, hP⟩
    | inr r =>
      rw [hbody] at h
      exact ⟨r, (returns_inr hbody).2 rfl, h⟩

end Loop
