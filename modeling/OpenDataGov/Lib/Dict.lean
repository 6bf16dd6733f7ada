import Mathlib.Data.List.Induction
import OpenDataGov.Lib.Table

/-!
# Dictionaries

Finite maps that keep the order in which their keys were first set, as tables of
keys with their values. Setting a key again replaces its value, in its place.

* `find?` reads the value of a key, `set` sets it, `ofList` sets some pairs one after
  another, so that of two values for a key the later one counts;
* `Extends`: a dictionary that keeps all keys, with values in a relation, and adds others;
  this is a preorder when the relation is (`Extends.refl`, `Extends.trans`).
-/

namespace Keyed

/-- Finite maps with an order of insertion. -/
abbrev Dict (κ α : Type) := Table (Prod.fst : κ × α → κ)

namespace Dict

variable {κ α : Type} [DecidableEq κ]

/-- The value of the key `k`. -/
def find? (d : Dict κ α) (k : κ) : Option α := (d.get? k).map Prod.snd

/-- Setting the value of the key `k`. -/
def set (d : Dict κ α) (k : κ) (a : α) : Dict κ α :=
  (d.modify k (fun kv => (kv.1, a)) fun _ => rfl).insert (k, a)

omit [DecidableEq κ] in
/-- The dictionary of the same keys, with values made of the old ones. -/
def mapValues {β : Type} (f : α → β) (d : Dict κ α) : Dict κ β :=
  d.map (fun kv => (kv.1, f kv.2)) fun _ => rfl

/-- The dictionary of some pairs, set one after another. -/
def ofList (l : List (κ × α)) : Dict κ α := l.foldl (fun d kv => d.set kv.1 kv.2) .empty

variable {d : Dict κ α} {k k' : κ} {a : α} {l : List (κ × α)}

/-- A value is found if it is there with its key, -/
theorem find?_eq_some : d.find? k = some a ↔ (k, a) ∈ d.rows := by
  constructor
  · intro h
    obtain ⟨⟨_, _⟩, hkv, rfl⟩ := Option.map_eq_some_iff.1 h
    obtain rfl := Table.key_of_get? hkv
    exact Table.mem_of_get? hkv
  · intro h
    exact congrArg (Option.map Prod.snd) (Table.get?_key h)

/-- after it has been set, -/
theorem find?_set : (d.set k a).find? k' = if k' = k then some a else d.find? k' := by
  rw [find?, find?, set]
  split_ifs with hk
  · subst hk
    cases h : d.get? k' with
    | none =>
      have hnone : (d.modify k' (fun kv => (kv.1, a)) fun _ => rfl).get? k' = none := by
        rw [Table.get?_modify_self, h]
        rfl
      rw [Table.get?_insert_self hnone]
      rfl
    | some kv =>
      have hsome : (d.modify k' (fun kv => (kv.1, a)) fun _ => rfl).get? k' = some (kv.1, a) := by
        rw [Table.get?_modify_self, h]
        rfl
      rw [Table.get?_insert_of_get? hsome]
      rfl
  · rw [Table.get?_insert_of_ne (Ne.symm hk), Table.get?_modify_of_ne hk]

/-- or another one has been erased, -/
theorem find?_erase : find? (d.erase k) k' = if k' = k then none else d.find? k' := by
  rw [find?, find?]
  split_ifs with hk
  · rw [hk, Table.get?_erase_self, Option.map_none]
  · rw [Table.get?_erase_of_ne hk]

/-- and after something has been made of all values. -/
theorem find?_mapValues {β : Type} {f : α → β} : (mapValues f d).find? k = (d.find? k).map f := by
  rw [find?, find?, mapValues, Table.get?_map, Option.map_map, Option.map_map]
  rfl

@[simp] theorem find?_ofList_nil : (ofList [] : Dict κ α).find? k = none := rfl

/-- The later value counts. -/
theorem find?_ofList_concat {kv : κ × α} :
    (ofList (l ++ [kv])).find? k = if k = kv.1 then some kv.2 else (ofList l).find? k := by
  rw [ofList, List.foldl_append]
  exact find?_set

theorem ofList_concat {kv : κ × α} : ofList (l ++ [kv]) = (ofList l).set kv.1 kv.2 :=
  List.foldl_append

/-- Of some pairs and some more, the latter count. -/
theorem find?_ofList_append {l' : List (κ × α)} :
    (ofList (l ++ l')).find? k = ((ofList l').find? k).or ((ofList l).find? k) := by
  induction l' using List.reverseRecOn with
  | nil => rw [List.append_nil, find?_ofList_nil, Option.none_or]
  | append_singleton l' kv ih =>
    rw [← List.append_assoc, find?_ofList_concat, find?_ofList_concat, ih]
    split_ifs
    · exact Option.some_or.symm
    · rfl

/-- The keys of the dictionary are those of the pairs. -/
theorem find?_ofList_eq_none : (ofList l).find? k = none ↔ k ∉ l.map Prod.fst := by
  induction l using List.reverseRecOn with
  | nil => simp
  | append_singleton l kv ih =>
    rw [find?_ofList_concat, List.map_append, List.map_singleton, List.mem_append,
      List.mem_singleton]
    split_ifs with hk
    · simp [hk]
    · simp [ih, hk]

/-- The value of a key is that of the last pair with the key. -/
theorem find?_ofList_eq_some : (ofList l).find? k = some a ↔
    ∃ before after, l = before ++ (k, a) :: after ∧ k ∉ after.map Prod.fst := by
  constructor
  · intro h
    induction l using List.reverseRecOn with
    | nil => cases h
    | append_singleton l kv ih =>
      rw [find?_ofList_concat] at h
      split_ifs at h with hk
      · obtain rfl := Option.some.inj h
        exact ⟨l, [], by rw [hk], List.not_mem_nil⟩
      · obtain ⟨before, after, rfl, hafter⟩ := ih h
        refine ⟨before, after ++ [kv], by rw [List.append_assoc]; rfl, ?_⟩
        rw [List.map_append, List.mem_append, not_or]
        exact ⟨hafter, by simpa using hk⟩
  · rintro ⟨before, after, rfl, hafter⟩
    have hcons : (ofList ((k, a) :: after)).find? k = some a := by
      rw [← List.singleton_append, find?_ofList_append, find?_ofList_eq_none.2 hafter,
        Option.none_or, ← List.nil_append [(k, a)], find?_ofList_concat, if_pos rfl]
    rw [find?_ofList_append, hcons, Option.some_or]

/-- The keys are those that have values. -/
theorem mem_keys_iff : k ∈ d.rows.map Prod.fst ↔ d.find? k ≠ none := by
  rw [List.mem_map, Option.ne_none_iff_exists']
  constructor
  · rintro ⟨⟨_, a⟩, hmem, rfl⟩
    exact ⟨a, find?_eq_some.2 hmem⟩
  · rintro ⟨a, ha⟩
    exact ⟨(k, a), find?_eq_some.1 ha, rfl⟩

/-- Renaming the keys and changing the values of the pairs. -/
theorem find?_ofList_map {κ' α' : Type} [DecidableEq κ'] {f : κ → κ'} (hf : Function.Injective f)
    (g : α → α') : (ofList (l.map (Prod.map f g))).find? (f k) = ((ofList l).find? k).map g := by
  induction l using List.reverseRecOn with
  | nil => rfl
  | append_singleton l kv ih =>
    rw [List.map_append, List.map_singleton, find?_ofList_concat, find?_ofList_concat, ih,
      Prod.map_fst]
    simp only [hf.eq_iff]
    split_ifs <;> rfl

/-- The dictionary of pairs with different keys has these pairs. -/
theorem find?_ofList_of_nodup (h : (l.map Prod.fst).Nodup) :
    (ofList l).find? k = some a ↔ (k, a) ∈ l := by
  induction l using List.reverseRecOn with
  | nil => simp
  | append_singleton l kv ih =>
    rw [List.map_append, List.nodup_append] at h
    obtain ⟨hl, _, hne⟩ := h
    rw [find?_ofList_concat, List.mem_append, List.mem_singleton]
    split_ifs with hk
    · -- The key of the last pair is not among the others.
      subst hk
      have hnot : (kv.1, a) ∉ l := fun hmem =>
        hne kv.1 (List.mem_map.2 ⟨_, hmem, rfl⟩) kv.1 (by simp) rfl
      simp [hnot, Prod.ext_iff, eq_comm]
    · simp [ih hl, Prod.ext_iff, hk]

/-- The dictionary of pairs with different keys has them in their order. -/
theorem rows_ofList_of_nodup (h : (l.map Prod.fst).Nodup) : (ofList l).rows = l := by
  induction l using List.reverseRecOn with
  | nil => rfl
  | append_singleton l kv ih =>
    rw [List.map_append, List.nodup_append] at h
    obtain ⟨hl, _, hne⟩ := h
    have hnone : (ofList l).get? kv.1 = none := Table.get?_eq_none.2 fun kv' hmem => by
      rw [ih hl] at hmem
      exact hne kv'.1 (List.mem_map_of_mem hmem) kv.1 (by simp)
    rw [ofList, List.foldl_append]
    change ((ofList l).set kv.1 kv.2).rows = l ++ [kv]
    rw [set, Table.modify_eq_self (f := fun kv' => (kv'.1, kv.2)) (fun _ => rfl) hnone,
      Table.rows_insert hnone, ih hl]

/-- A dictionary is that of its pairs. -/
theorem ofList_rows : ofList d.rows = d := Table.rows_injective (rows_ofList_of_nodup d.nodup)

/-! ### Extensions -/

/-- Every key of `d` is in `d'`, with a value in the relation `R`, and what is new in `d'`
    has the property `P`. -/
structure Extends (R : α → α → Prop) (P : α → Prop) (d d' : Dict κ α) : Prop where
  kept : ∀ k a, d.find? k = some a → ∃ b, d'.find? k = some b ∧ R a b
  added : ∀ k b, d'.find? k = some b → d.find? k = none → P b

variable {R : α → α → Prop} {P : α → Prop} {d₁ d₂ d₃ : Dict κ α}

/-- A dictionary extends itself, -/
theorem Extends.refl (hR : ∀ a, R a a) : Extends R P d d where
  kept _ a h := ⟨a, h, hR a⟩
  added _ _ h h' := absurd (h.symm.trans h') (Option.some_ne_none _)

/-- and may be extended more than once. -/
theorem Extends.trans (hR : ∀ a b c, R a b → R b c → R a c) (hP : ∀ a b, R a b → P a → P b)
    (h₁ : Extends R P d₁ d₂) (h₂ : Extends R P d₂ d₃) : Extends R P d₁ d₃ where
  kept k a ha := by
    obtain ⟨b, hb, hab⟩ := h₁.kept k a ha
    obtain ⟨c, hc, hbc⟩ := h₂.kept k b hb
    exact ⟨c, hc, hR a b c hab hbc⟩
  added k c hc hnone := by
    -- The key was added in the second step, or in the first and kept in the second.
    cases hb : d₂.find? k with
    | none => exact h₂.added k c hc hb
    | some b =>
      obtain ⟨c', hc', hbc⟩ := h₂.kept k b hb
      obtain rfl := Option.some.inj (hc.symm.trans hc')
      exact hP b c hbc (h₁.added k b hb hnone)

end Dict

end Keyed
