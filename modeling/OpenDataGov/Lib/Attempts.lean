import Mathlib.Data.List.Forall2

/-!
# Attempts

Lists of attempts, each of which may fail (`List.mapM` in `Except`): the first failure is
that of the whole list, and without one the results are those of the attempts.

* `map_eq_ok_iff`, `bind_eq_ok_iff`: what is made of an attempt, and what follows it;
* `succeeds_map`, `succeeds_bind`: so when this is a success;
* `mapM_eq_ok_iff`: the results of a list, one by one;
* `succeeds_mapM`: all attempts succeed exactly if each one does.
-/

namespace Attempts

variable {ε α β γ : Type} {f : α → Except ε β} {l : List α} {l' : List β}

/-- The attempt succeeds. -/
def Succeeds (x : Except ε α) : Prop := ∃ a, x = .ok a

@[simp] theorem succeeds_ok {a : α} : Succeeds (.ok a : Except ε α) := ⟨a, rfl⟩

@[simp] theorem not_succeeds_error {e : ε} : ¬Succeeds (.error e : Except ε α) := by
  rintro ⟨_, h⟩
  cases h

/-- What is made of an attempt, when it is something. -/
theorem map_eq_ok_iff {x : Except ε α} {g : α → β} {b : β} :
    g <$> x = .ok b ↔ ∃ a, x = .ok a ∧ g a = b := by
  cases x with
  | ok a => simp [Functor.map, Except.map]
  | error e => simp [Functor.map, Except.map]

/-- What follows an attempt, when it is something. -/
theorem bind_eq_ok_iff {x : Except ε α} {g : α → Except ε β} {b : β} :
    x >>= g = .ok b ↔ ∃ a, x = .ok a ∧ g a = .ok b := by
  cases x with
  | ok a => simp [bind, Except.bind]
  | error e => simp [bind, Except.bind]

/-- What fails is the first of two attempts, or the second one. -/
theorem bind_eq_error_iff {x : Except ε α} {g : α → Except ε β} {e : ε} :
    x >>= g = .error e ↔ x = .error e ∨ ∃ a, x = .ok a ∧ g a = .error e := by
  cases x with
  | ok a => simp [bind, Except.bind]
  | error e' => simp [bind, Except.bind]

/-- Another name for the errors. -/
theorem mapError_eq_ok_iff {ε' : Type} {x : Except ε α} {g : ε → ε'} {a : α} :
    x.mapError g = .ok a ↔ x = .ok a := by
  cases x with
  | ok b => simp [Except.mapError]
  | error e => simp [Except.mapError]

/-- Making something of a result cannot fail. -/
@[simp] theorem succeeds_map {x : Except ε α} {g : α → β} : Succeeds (g <$> x) ↔ Succeeds x := by
  cases x with
  | ok a => exact iff_of_true succeeds_ok succeeds_ok
  | error e => exact iff_of_false not_succeeds_error not_succeeds_error

/-- What goes on after an attempt succeeds if the attempt does, and then what follows. -/
theorem succeeds_bind {x : Except ε α} {g : α → Except ε β} :
    Succeeds (x >>= g) ↔ ∃ a, x = .ok a ∧ Succeeds (g a) := by
  simp only [Succeeds, bind_eq_ok_iff]
  constructor
  · rintro ⟨b, a, hx, hg⟩
    exact ⟨a, hx, b, hg⟩
  · rintro ⟨a, hx, b, hg⟩
    exact ⟨b, a, hx, hg⟩

/-- The results of a list are those of its attempts. -/
theorem mapM_eq_ok_iff : l.mapM f = .ok l' ↔ List.Forall₂ (fun a b => f a = .ok b) l l' := by
  induction l generalizing l' with
  | nil =>
    rw [List.mapM_nil, List.forall₂_nil_left_iff]
    exact ⟨fun h => (Except.ok.inj h).symm, fun h => h ▸ rfl⟩
  | cons a l ih =>
    rw [List.mapM_cons, List.forall₂_cons_left_iff, bind_eq_ok_iff]
    constructor
    · rintro ⟨b, hb, hl⟩
      obtain ⟨l'', hl'', hcons⟩ := bind_eq_ok_iff.1 hl
      exact ⟨b, l'', hb, ih.1 hl'', (Except.ok.inj hcons).symm⟩
    · rintro ⟨b, l'', hb, hl'', rfl⟩
      exact ⟨b, hb, bind_eq_ok_iff.2 ⟨l'', ih.2 hl'', rfl⟩⟩

/-- Each attempt has its result among the others. -/
theorem exists_mem_of_mapM {a : α} (h : l.mapM f = .ok l') (ha : a ∈ l) :
    ∃ b ∈ l', f a = .ok b := by
  rw [mapM_eq_ok_iff] at h
  induction h with
  | nil => cases ha
  | cons hb _ ih =>
    rcases List.mem_cons.1 ha with rfl | ha
    · exact ⟨_, List.mem_cons_self, hb⟩
    · obtain ⟨b, hmem, hb⟩ := ih ha
      exact ⟨b, List.mem_cons_of_mem _ hmem, hb⟩

/-- Each result is that of an attempt. -/
theorem exists_of_mem_mapM {b : β} (h : l.mapM f = .ok l') (hb : b ∈ l') :
    ∃ a ∈ l, f a = .ok b := by
  rw [mapM_eq_ok_iff] at h
  induction h with
  | nil => cases hb
  | cons ha _ ih =>
    rcases List.mem_cons.1 hb with rfl | hb
    · exact ⟨_, List.mem_cons_self, ha⟩
    · obtain ⟨a, hmem, ha⟩ := ih hb
      exact ⟨a, List.mem_cons_of_mem _ hmem, ha⟩

/-- The failure is that of one of the attempts. -/
theorem exists_mem_of_mapM_error {e : ε} (h : l.mapM f = .error e) : ∃ a ∈ l, f a = .error e := by
  induction l with
  | nil => cases h
  | cons a l ih =>
    rw [List.mapM_cons, bind_eq_error_iff] at h
    rcases h with ha | ⟨_, _, h⟩
    · exact ⟨a, List.mem_cons_self, ha⟩
    rcases bind_eq_error_iff.1 h with hl | ⟨_, _, h⟩
    · obtain ⟨a', hmem, ha'⟩ := ih hl
      exact ⟨a', List.mem_cons_of_mem _ hmem, ha'⟩
    · cases h

/-- What the results have in common with what was attempted stands in the same places. -/
theorem map_eq_of_mapM {p : α → γ} {q : β → γ} (h : l.mapM f = .ok l')
    (hpq : ∀ a b, f a = .ok b → q b = p a) : l'.map q = l.map p := by
  rw [mapM_eq_ok_iff] at h
  induction h with
  | nil => rfl
  | cons hb _ ih => rw [List.map_cons, List.map_cons, hpq _ _ hb, ih]

/-- All attempts succeed exactly if each one does. -/
theorem succeeds_mapM : Succeeds (l.mapM f) ↔ ∀ a ∈ l, Succeeds (f a) := by
  induction l with
  | nil => exact iff_of_true ⟨[], rfl⟩ (by simp)
  | cons a l ih =>
    rw [List.mapM_cons, succeeds_bind, List.forall_mem_cons, ← ih]
    constructor
    · rintro ⟨b, hb, hl⟩
      obtain ⟨bs, hbs, _⟩ := succeeds_bind.1 hl
      exact ⟨⟨b, hb⟩, ⟨bs, hbs⟩⟩
    · rintro ⟨⟨b, hb⟩, ⟨bs, hbs⟩⟩
      exact ⟨b, hb, succeeds_bind.2 ⟨bs, hbs, ⟨b :: bs, rfl⟩⟩⟩

end Attempts
