import Mathlib.Data.List.Nodup

/-!
# Keyed tables

A relational table with a primary key: a list of rows, in the order of their
insertion, no two of which carry the same key. The table carries the uniqueness
of its keys, so that none of its operations can break it.

* `get?` reads the row of a key, `insert` appends a row whose key is new (and
  does nothing otherwise: the caller reports the conflict), `modify` changes the
  row of a key by a function that keeps keys, `erase` deletes it;
* the `mem_*` and `get?_*` lemmas say what the rows are after each of them;
* `map` represents the rows by others with the same keys: the operations on the rows are
  those on what represents them (the `map_*` lemmas);
* `filter` keeps the rows that satisfy a predicate: what the others do to a table
  is done to the rows kept, or to none of them (the `filter_*` lemmas).
-/

namespace Keyed

variable {κ ρ : Type} [DecidableEq κ]

/-- A table of rows `ρ` with the primary key `key`. -/
structure Table (key : ρ → κ) where
  /-- The rows, in the order of their insertion. -/
  rows : List ρ
  /-- No two rows have the same key. -/
  nodup : (rows.map key).Nodup

namespace Table

variable {key : ρ → κ}

/-- The table without rows. -/
def empty : Table key := ⟨[], List.nodup_nil⟩

/-- The row with the key `k`. -/
def get? (t : Table key) (k : κ) : Option ρ := t.rows.find? fun r => key r = k

/-- Appending the row `r`, if its key is new. -/
def insert (t : Table key) (r : ρ) : Table key :=
  if h : key r ∈ t.rows.map key then t
  else ⟨t.rows ++ [r], by
    rw [List.map_append, List.map_singleton]
    exact t.nodup.append (List.nodup_singleton _) (by simpa using h)⟩

/-- Changing the row with the key `k` by `f`, which keeps keys. -/
def modify (t : Table key) (k : κ) (f : ρ → ρ) (hf : ∀ r, key (f r) = key r) : Table key :=
  ⟨t.rows.map fun r => if key r = k then f r else r, by
    have hkey : key ∘ (fun r => if key r = k then f r else r) = key := by
      funext r
      simp only [Function.comp_apply]
      split <;> simp [hf]
    rw [List.map_map, hkey]
    exact t.nodup⟩

/-- Deleting the row with the key `k`. -/
def erase (t : Table key) (k : κ) : Table key :=
  ⟨t.rows.filter fun r => key r ≠ k, t.nodup.sublist (List.filter_sublist.map key)⟩

/-- The rows represented by those that `g` makes of them, under the same keys. -/
def map {σ : Type} {key' : σ → κ} (t : Table key) (g : ρ → σ) (hg : ∀ r, key' (g r) = key r) :
    Table key' :=
  ⟨t.rows.map g, by
    have hkey : key' ∘ g = key := funext hg
    rw [List.map_map, hkey]
    exact t.nodup⟩

/-- The rows satisfying `p`. -/
def filter (t : Table key) (p : ρ → Bool) : Table key :=
  ⟨t.rows.filter p, t.nodup.sublist (List.filter_sublist.map key)⟩

variable (t : Table key) {k k' : κ} {r r' : ρ} {f : ρ → ρ} {hf : ∀ r, key (f r) = key r}

@[simp] theorem get?_empty : (empty : Table key).get? k = none := rfl

/-! ### Reading -/

variable {t}

omit [DecidableEq κ] in
/-- A table is its rows. -/
theorem rows_injective : Function.Injective (rows : Table key → List ρ) := by
  rintro ⟨_, _⟩ ⟨_, _⟩ rfl
  rfl

omit [DecidableEq κ] in
/-- Rows are determined by their keys. -/
theorem eq_of_key_eq (h : r ∈ t.rows) (h' : r' ∈ t.rows) (hk : key r = key r') : r = r' :=
  List.inj_on_of_nodup_map t.nodup h h' hk

/-- What is read is the row with the key, -/
theorem get?_eq_some : t.get? k = some r ↔ r ∈ t.rows ∧ key r = k := by
  constructor
  · intro h
    exact ⟨List.mem_of_find?_eq_some h, by simpa using List.find?_some h⟩
  · rintro ⟨hr, rfl⟩
    cases h : t.get? (key r) with
    | none => simpa using List.find?_eq_none.1 h r hr
    | some r' =>
      have hr' := List.mem_of_find?_eq_some h
      have hk : key r' = key r := by simpa using List.find?_some h
      rw [eq_of_key_eq hr' hr hk]

/-- and nothing if no row has it. -/
theorem get?_eq_none : t.get? k = none ↔ ∀ r ∈ t.rows, key r ≠ k := by
  simp [get?, List.find?_eq_none]

theorem get?_key (h : r ∈ t.rows) : t.get? (key r) = some r := get?_eq_some.2 ⟨h, rfl⟩

theorem mem_of_get? (h : t.get? k = some r) : r ∈ t.rows := (get?_eq_some.1 h).1

theorem key_of_get? (h : t.get? k = some r) : key r = k := (get?_eq_some.1 h).2

/-- Two tables have the same rows when they answer all keys alike. -/
theorem perm_iff {t' : Table key} : t.rows.Perm t'.rows ↔ ∀ k, t.get? k = t'.get? k := by
  rw [List.perm_ext_iff_of_nodup (List.Nodup.of_map _ t.nodup) (List.Nodup.of_map _ t'.nodup)]
  constructor
  · intro h k
    refine Option.ext fun r => ?_
    rw [get?_eq_some, get?_eq_some, h]
  · intro h r
    have hr : r ∈ t.rows ↔ t.get? (key r) = some r := by simp [get?_eq_some]
    have hr' : r ∈ t'.rows ↔ t'.get? (key r) = some r := by simp [get?_eq_some]
    rw [hr, hr', h]

/-! ### Inserting -/

/-- A row whose key is new comes last, -/
theorem rows_insert (h : t.get? (key r) = none) : (t.insert r).rows = t.rows ++ [r] := by
  have hk : key r ∉ t.rows.map key := by
    simpa using get?_eq_none.1 h
  rw [insert, dif_neg hk]

/-- and the others stay where they are. -/
theorem rows_isPrefix_insert : t.rows <+: (t.insert r).rows := by
  rw [insert]
  split
  · exact List.prefix_refl _
  · exact List.prefix_append _ _

/-- No row is lost. -/
theorem mem_insert_of_mem (h : r' ∈ t.rows) : r' ∈ (t.insert r).rows := by
  unfold insert
  split
  · exact h
  · exact List.mem_append_left _ h

/-- An inserted row is new or was there: a table only grows by the row. -/
theorem mem_of_mem_insert (h : r' ∈ (t.insert r).rows) : r' ∈ t.rows ∨ r' = r := by
  unfold insert at h
  split at h
  · exact .inl h
  · simpa using h

theorem get?_insert_self (h : t.get? (key r) = none) : (t.insert r).get? (key r) = some r :=
  get?_key (by rw [rows_insert h]; simp)

theorem get?_insert_of_ne (h : key r ≠ k) : (t.insert r).get? k = t.get? k := by
  unfold insert
  split
  · rfl
  · simp [get?, h]

theorem get?_insert_of_get? (h : t.get? k = some r') : (t.insert r).get? k = some r' :=
  get?_eq_some.2 ⟨mem_insert_of_mem (mem_of_get? h), key_of_get? h⟩

/-- A key is free after an insertion when it was before and is not the one inserted. -/
theorem get?_insert_eq_none :
    (t.insert r).get? k = none ↔ t.get? k = none ∧ key r ≠ k := by
  by_cases hk : key r = k
  · subst hk
    refine iff_of_false (fun h => ?_) fun h => h.2 rfl
    cases hr : t.get? (key r) with
    | none => simp [get?_insert_self hr] at h
    | some r' => simp [get?_insert_of_get? hr] at h
  · rw [get?_insert_of_ne hk]
    exact (and_iff_left hk).symm

/-- What is there under a key after an insertion depends on what was there. -/
theorem get?_insert_congr {t' : Table key} (h : t.get? k = t'.get? k) :
    (t.insert r).get? k = (t'.insert r).get? k := by
  by_cases hk : key r = k
  · subst hk
    cases hr : t.get? (key r) with
    | none => rw [get?_insert_self hr, get?_insert_self (h ▸ hr)]
    | some r' => rw [get?_insert_of_get? hr, get?_insert_of_get? (h ▸ hr)]
  · rw [get?_insert_of_ne hk, get?_insert_of_ne hk, h]

/-! ### Modifying -/

variable (t k f hf) in
@[simp] theorem rows_modify :
    (t.modify k f hf).rows = t.rows.map fun r => if key r = k then f r else r := rfl

/-- The rows are those that there have been, one of them modified. -/
theorem mem_modify :
    r' ∈ (t.modify k f hf).rows ↔ ∃ r ∈ t.rows, (if key r = k then f r else r) = r' := by
  simp

/-- The row that is modified, -/
theorem get?_modify_self : (t.modify k f hf).get? k = (t.get? k).map f := by
  cases h : t.get? k with
  | none =>
    refine get?_eq_none.2 fun r hr => ?_
    obtain ⟨r₀, hr₀, rfl⟩ := mem_modify.1 hr
    have hne := get?_eq_none.1 h r₀ hr₀
    rwa [if_neg hne]
  | some r =>
    refine get?_eq_some.2 ⟨mem_modify.2 ⟨r, mem_of_get? h, ?_⟩, ?_⟩
    · rw [if_pos (key_of_get? h)]
    · rw [hf, key_of_get? h]

/-- the others, -/
theorem get?_modify_of_ne (hk : k' ≠ k) : (t.modify k f hf).get? k' = t.get? k' := by
  cases h : t.get? k' with
  | none =>
    refine get?_eq_none.2 fun r hr => ?_
    obtain ⟨r₀, hr₀, rfl⟩ := mem_modify.1 hr
    have hne := get?_eq_none.1 h r₀ hr₀
    split
    · rwa [hf]
    · exact hne
  | some r =>
    refine get?_eq_some.2 ⟨mem_modify.2 ⟨r, mem_of_get? h, ?_⟩, key_of_get? h⟩
    rw [if_neg (by rw [key_of_get? h]; exact hk)]

variable (hf) in
/-- and the same in two tables. -/
theorem get?_modify_congr {t' : Table key} (h : t.get? k' = t'.get? k') :
    (t.modify k f hf).get? k' = (t'.modify k f hf).get? k' := by
  by_cases hk : k' = k
  · rw [← hk, get?_modify_self, get?_modify_self, h]
  · rw [get?_modify_of_ne hk, get?_modify_of_ne hk, h]

variable (hf) in
/-- Without the row, nothing is modified. -/
theorem modify_eq_self (h : t.get? k = none) : t.modify k f hf = t := by
  refine rows_injective ((List.map_congr_left fun r hr => ?_).trans (List.map_id _))
  exact if_neg (get?_eq_none.1 h r hr)

variable (hf) in
/-- A modification does not change which keys there are. -/
theorem get?_modify_eq_none (h : t.get? k' = none) : (t.modify k f hf).get? k' = none := by
  by_cases hk : k' = k
  · rw [hk, get?_modify_self, ← hk, h, Option.map_none]
  · rw [get?_modify_of_ne hk, h]

/-- Changing a row may change how many rows satisfy a predicate by one. -/
theorem countP_modify {p : ρ → Bool} (h : t.get? k = some r) (hp : p r = false) :
    (t.modify k f hf).rows.countP p = t.rows.countP p + if p (f r) then 1 else 0 := by
  obtain ⟨before, after, hrows⟩ := List.append_of_mem (mem_of_get? h)
  have hnodup := t.nodup
  rw [hrows, List.map_append, List.map_cons, key_of_get? h, List.nodup_middle, List.nodup_cons,
    ← List.map_append, List.mem_map] at hnodup
  -- The other rows have other keys.
  have hother : ∀ rs : List ρ, (∀ r' ∈ rs, r' ∈ before ++ after) →
      rs.map (fun r => if key r = k then f r else r) = rs := fun rs hrs =>
    (List.map_congr_left fun r' hr' =>
      if_neg fun hk => hnodup.1 ⟨r', hrs r' hr', hk⟩).trans (List.map_id _)
  rw [rows_modify, hrows, List.map_append, List.map_cons, if_pos (key_of_get? h),
    hother before fun r' hr' => List.mem_append_left _ hr',
    hother after fun r' hr' => List.mem_append_right _ hr', List.countP_append,
    List.countP_append, List.countP_cons, List.countP_cons, hp]
  simp only [Bool.false_eq_true, if_false, Nat.add_zero, Nat.add_assoc]

/-! ### Erasing -/

variable (t k) in
@[simp] theorem rows_erase : (t.erase k).rows = t.rows.filter fun r => key r ≠ k := rfl

theorem get?_erase_eq_none (h : t.get? k' = none) : (t.erase k).get? k' = none :=
  get?_eq_none.2 fun r hr => get?_eq_none.1 h r (List.mem_of_mem_filter hr)

theorem get?_erase_self : (t.erase k).get? k = none :=
  get?_eq_none.2 fun _ hr => of_decide_eq_true (List.mem_filter.1 hr).2

theorem get?_erase_of_ne (hk : k' ≠ k) : (t.erase k).get? k' = t.get? k' := by
  refine (List.find?_filter ..).trans (congrArg (List.find? · t.rows) (funext fun r => ?_))
  refine decide_eq_decide.2 ⟨fun h => of_decide_eq_true h.2, fun hr => ?_⟩
  exact ⟨decide_eq_true (hr.trans_ne hk), decide_eq_true hr⟩

theorem get?_erase_congr {t' : Table key} (h : t.get? k' = t'.get? k') :
    (t.erase k).get? k' = (t'.erase k).get? k' := by
  by_cases hk : k' = k
  · rw [hk, get?_erase_self, get?_erase_self]
  · rw [get?_erase_of_ne hk, get?_erase_of_ne hk, h]

/-- Without the row, nothing is erased. -/
theorem erase_eq_self (h : t.get? k = none) : t.erase k = t :=
  rows_injective (List.filter_eq_self.2 fun r hr => decide_eq_true (get?_eq_none.1 h r hr))

/-! ### Representing -/

section Representing

variable {σ : Type} {key' : σ → κ} {g : ρ → σ} {hg : ∀ r, key' (g r) = key r}

omit [DecidableEq κ] in
variable (t g hg) in
/-- What represents the rows, -/
@[simp] theorem rows_map : (t.map g hg).rows = t.rows.map g := rfl

/-- is read by the same keys, -/
theorem get?_map : (t.map g hg).get? k = (t.get? k).map g := by
  rw [get?, get?, rows_map, List.find?_map]
  congr 2
  funext r
  rw [Function.comp_apply, hg]

/-- and inserted when a row is. -/
theorem map_insert : (t.insert r).map g hg = (t.map g hg).insert (g r) := by
  have hkeys : key' (g r) ∈ (t.map g hg).rows.map key' ↔ key r ∈ t.rows.map key := by
    rw [rows_map, List.map_map, hg, show key' ∘ g = key from funext hg]
  by_cases h : key r ∈ t.rows.map key
  · rw [insert, dif_pos h, insert, dif_pos (hkeys.2 h)]
  · refine rows_injective ?_
    rw [insert, dif_neg h, insert, dif_neg (hkeys.not.2 h)]
    exact List.map_append

variable (hf) in
/-- Modifying a row is modifying what represents it, if what is made of them is the same. -/
theorem map_modify {f' : σ → σ} (hf' : ∀ s, key' (f' s) = key' s)
    (h : ∀ r, t.get? k = some r → g (f r) = f' (g r)) :
    (t.modify k f hf).map g hg = (t.map g hg).modify k f' hf' := by
  refine rows_injective ?_
  rw [rows_map, rows_modify, rows_modify, rows_map, List.map_map, List.map_map]
  refine List.map_congr_left fun r hr => ?_
  rw [Function.comp_apply, Function.comp_apply, hg]
  split_ifs with hk
  · exact h r (hk ▸ get?_key hr)
  · rfl

end Representing

/-! ### Filtering -/

section Filtering

variable {p p' : ρ → Bool}

omit [DecidableEq κ] in
variable (t p) in
@[simp] theorem rows_filter : (t.filter p).rows = t.rows.filter p := rfl

/-- One of them is read as before. -/
theorem get?_filter : (t.filter p).get? k = (t.get? k).filter p := by
  refine Option.ext fun r => ?_
  rw [Option.filter_eq_some_iff, get?_eq_some, get?_eq_some, rows_filter, List.mem_filter,
    and_right_comm]

omit [DecidableEq κ] in
/-- Only what the predicate says of the rows matters. -/
theorem filter_congr (h : ∀ r ∈ t.rows, p r = p' r) : t.filter p = t.filter p' :=
  rows_injective (List.filter_congr h)

omit [DecidableEq κ] in
/-- Filtering twice is filtering by both. -/
theorem filter_filter : (t.filter p).filter p' = t.filter fun r => p' r && p r :=
  rows_injective (List.filter_filter)

/-- A row that is kept is inserted among those kept, -/
theorem filter_insert (hp : p r) (h : t.get? (key r) = none) :
    (t.insert r).filter p = (t.filter p).insert r := by
  have hnone : (t.filter p).get? (key r) = none := by rw [get?_filter, h, Option.filter_none]
  refine rows_injective ?_
  rw [rows_filter, rows_insert h, rows_insert hnone, List.filter_append, rows_filter,
    List.filter_cons_of_pos hp, List.filter_nil]

/-- and another one is not. -/
theorem filter_insert_of_not (hp : ¬p r) : (t.insert r).filter p = t.filter p := by
  refine rows_injective ?_
  rw [rows_filter, insert]
  split
  · rfl
  · rw [List.filter_append, List.filter_cons_of_neg hp, List.filter_nil, List.append_nil]
    rfl

variable (hf) in
/-- Modifying rows so that they go on satisfying `p`, or not, as before. -/
theorem filter_modify (hp : ∀ r, p (f r) = p r) :
    (t.modify k f hf).filter p = (t.filter p).modify k f hf := by
  refine rows_injective ?_
  rw [rows_filter, rows_modify, rows_modify, rows_filter, List.filter_map]
  congr 2
  funext r
  rw [Function.comp_apply]
  split
  · exact hp r
  · rfl

/-- Erasing a row erases it among those kept. -/
theorem filter_erase : (t.erase k).filter p = (t.filter p).erase k := by
  refine rows_injective ?_
  simp only [rows_filter, rows_erase, List.filter_filter, Bool.and_comm]

end Filtering

end Table

end Keyed
