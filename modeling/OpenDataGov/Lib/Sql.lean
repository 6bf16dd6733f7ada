import Mathlib.Data.List.Basic
import Mathlib.Tactic.Common

/-!
# Relational schemas, and scripts that change them

What PostgreSQL keeps of a schema: its tables with the references between them, their indexes
and triggers, the functions of the triggers, and besides whatever else has a name that a table
or an index may want: views, sequences, and types. Scripts create tables, indexes, functions and
triggers and drop them again (`Op`), and are executed as a whole or not at all (`execAll`).

Names are what scripts get into each other's way with, so that they are modelled as they are:

* tables, indexes, views and sequences are *relations*, and no two of them have the same name
  (`Schema.HasRelation`);
* a table has a type of its own, so that it cannot have the name of another type either; an
  index can;
* a table cannot be dropped while another one refers to it, or a view is over it, and what
  belongs to it goes with it.

The indexes that come with primary keys and `UNIQUE` columns, and the array types of tables, are
left out: their names are chosen so that they are free.

A schema is a list of objects, and schemas are put one after the other (`Schema.append`). What is
proved of a script is about the *fragment* of a schema that it builds, with anything else around:

* `execAll_created`: what a script creates is added to the schema, which had none of it;
* `execAll_append`: conversely, a script that builds a fragment by itself does so in any schema
  that has none of the names;
* `execAll_of_revert`: dropping what belongs to a fragment of a schema does not depend on the
  rest, which is left as it is (a frame rule). The rest must not refer to the fragment, which is
  so if it is closed (`Schema.Closed`), as it has been there before.
-/

namespace Sql

/-! ## Schemas -/

/-- The types of columns. -/
inductive SqlType
  | uuid
  | varchar (length : ℕ)
  | text
  | boolean
  | integer
  | float
  | timestamptz
  | jsonb
  /-- Any other type, by its name. -/
  | other (name : String)
  deriving DecidableEq

/-- A foreign key, to a column of a table. -/
structure Reference where
  table : String
  column : String
  /-- `ON DELETE CASCADE`. -/
  cascade : Bool := false
  deriving DecidableEq

/-- A column of a table, with its constraints. -/
structure Column where
  name : String
  type : SqlType
  nullable : Bool := true
  primaryKey : Bool := false
  unique : Bool := false
  serverDefault : Option String := none
  references : Option Reference := none
  deriving DecidableEq

/-- A table, by its name and its columns. -/
structure TableDef where
  name : String
  columns : List Column
  deriving DecidableEq

/-- An index on columns of a table. -/
structure Index where
  name : String
  table : String
  columns : List String
  unique : Bool := false
  deriving DecidableEq

/-- What a trigger is fired by, for each row. -/
inductive Event
  | insert
  | update
  | delete
  deriving DecidableEq

/-- The name of the operation. -/
def Event.name : Event → String
  | .insert => "INSERT"
  | .update => "UPDATE"
  | .delete => "DELETE"

/-- A trigger that executes a function before each row is changed. -/
structure Trigger where
  name : String
  table : String
  events : List Event
  function : String
  deriving DecidableEq

/-- The function of a trigger. It raises an exception, or it lets the row be changed. -/
structure Function where
  name : String
  /-- The exception, with `%` for the name of the operation. -/
  raises : Option String
  deriving DecidableEq

/-- What else is among the relations: a view, a sequence, a foreign table, a composite type. -/
structure Relation where
  name : String
  /-- The tables that it needs, which cannot be dropped while it is there. -/
  needs : List String := []
  /-- The table that it goes with, as a sequence does with the table that owns it. -/
  owner : Option String := none
  deriving DecidableEq

/-- The objects that are in a schema of a database, such as `public`. -/
structure Schema where
  tables : List TableDef
  indexes : List Index
  triggers : List Trigger
  functions : List Function
  others : List Relation
  /-- The names of types that are not those of relations: domains, enumerations, ranges. -/
  types : List String
  deriving DecidableEq

namespace Schema

/-- There is nothing. -/
def empty : Schema := ⟨[], [], [], [], [], []⟩

/-- The objects of `s`, then those of `s'`. -/
def append (s s' : Schema) : Schema :=
  ⟨s.tables ++ s'.tables, s.indexes ++ s'.indexes, s.triggers ++ s'.triggers,
    s.functions ++ s'.functions, s.others ++ s'.others, s.types ++ s'.types⟩

@[simp] theorem append_empty (s : Schema) : s.append empty = s := by simp [append, empty]

@[simp] theorem empty_append (s : Schema) : empty.append s = s := by simp [append, empty]

theorem append_assoc (s s' s'' : Schema) :
    (s.append s').append s'' = s.append (s'.append s'') := by
  simp [append]

/-- There is such a table. -/
def HasTable (s : Schema) (name : String) : Prop := ∃ t ∈ s.tables, t.name = name

/-- There is such a function. -/
def HasFunction (s : Schema) (name : String) : Prop := ∃ f ∈ s.functions, f.name = name

/-- There is such a table, or such an index, or something else of that name among the relations,
    as a view or a sequence. -/
def HasRelation (s : Schema) (name : String) : Prop :=
  s.HasTable name ∨ (∃ i ∈ s.indexes, i.name = name) ∨ ∃ o ∈ s.others, o.name = name

/-- Some table refers to another one. -/
def Refers (s : Schema) (t : TableDef) (name : String) : Prop :=
  t ∈ s.tables ∧ ∃ c ∈ t.columns, ∃ r ∈ c.references, r.table = name

instance (s : Schema) (name : String) : Decidable (s.HasTable name) :=
  inferInstanceAs (Decidable (∃ t ∈ s.tables, t.name = name))

instance (s : Schema) (name : String) : Decidable (s.HasFunction name) :=
  inferInstanceAs (Decidable (∃ f ∈ s.functions, f.name = name))

instance (s : Schema) (name : String) : Decidable (s.HasRelation name) :=
  inferInstanceAs (Decidable (_ ∨ (∃ i ∈ s.indexes, _) ∨ ∃ o ∈ s.others, _))

/-- Whatever is referred to is there. PostgreSQL keeps its schemas so. -/
structure Closed (s : Schema) : Prop where
  references : ∀ t name, s.Refers t name → s.HasTable name
  indexes : ∀ i ∈ s.indexes, s.HasTable i.table
  triggers : ∀ t ∈ s.triggers, s.HasTable t.table
  functions : ∀ t ∈ s.triggers, s.HasFunction t.function
  needs : ∀ o ∈ s.others, ∀ name ∈ o.needs, s.HasTable name
  owner : ∀ o ∈ s.others, ∀ name ∈ o.owner, s.HasTable name

/-- No relation or function of the one has the name of one of the other, and no table of the
    other has the name of a type of the one. -/
structure Apart (s s' : Schema) : Prop where
  relations : ∀ name, s.HasRelation name → ¬s'.HasRelation name
  functions : ∀ name, s.HasFunction name → ¬s'.HasFunction name
  types : ∀ name ∈ s.types, ¬s'.HasTable name

end Schema

open Schema

/-! ## Scripts -/

/-- The operations of a script. -/
inductive Op
  | createTable (t : TableDef)
  | createIndex (i : Index)
  /-- `CREATE OR REPLACE FUNCTION`. -/
  | createFunction (f : Function)
  | createTrigger (t : Trigger)
  | dropTable (name : String)
  | dropIndex (name : String)
  /-- `DROP TRIGGER IF EXISTS`, on a table. -/
  | dropTrigger (name table : String)
  /-- `DROP FUNCTION IF EXISTS`. -/
  | dropFunction (name : String)
  deriving DecidableEq

/-- The references of a table are to columns with primary keys or unique ones. -/
def Resolves (s : Schema) (t : TableDef) : Prop :=
  ∀ c ∈ t.columns, ∀ r ∈ c.references, ∃ t' ∈ s.tables, t'.name = r.table ∧
    ∃ c' ∈ t'.columns, c'.name = r.column ∧ (c'.primaryKey = true ∨ c'.unique = true)

/-- The columns of an index are some of its table. -/
def Covers (s : Schema) (i : Index) : Prop :=
  ∃ t ∈ s.tables, t.name = i.table ∧ ∀ name ∈ i.columns, name ∈ t.columns.map Column.name

instance (s : Schema) (t : TableDef) : Decidable (Resolves s t) :=
  inferInstanceAs (Decidable (∀ c ∈ t.columns, ∀ r ∈ c.references, ∃ t' ∈ s.tables, _))

instance (s : Schema) (i : Index) : Decidable (Covers s i) :=
  inferInstanceAs (Decidable (∃ t ∈ s.tables, _))

/-- What an operation needs. -/
def Op.Applies (s : Schema) : Op → Prop
  | .createTable t => (¬s.HasRelation t.name ∧ t.name ∉ s.types) ∧
      (t.columns.map Column.name).Nodup ∧ Resolves s t
  | .createIndex i => ¬s.HasRelation i.name ∧ Covers s i
  | .createFunction _ => True
  | .createTrigger t => s.HasTable t.table ∧ s.HasFunction t.function ∧
      ∀ t' ∈ s.triggers, t'.table = t.table → t'.name ≠ t.name
  | .dropTable name => s.HasTable name ∧
      (∀ t ∈ s.tables, t.name ≠ name → ∀ c ∈ t.columns, ∀ r ∈ c.references, r.table ≠ name) ∧
      ∀ o ∈ s.others, name ∉ o.needs
  | .dropIndex name => ∃ i ∈ s.indexes, i.name = name
  | .dropTrigger _ _ => True
  | .dropFunction name => ∀ t ∈ s.triggers, t.function ≠ name

instance (s : Schema) : (op : Op) → Decidable (op.Applies s)
  | .createTable _ => inferInstanceAs (Decidable ((_ ∧ _) ∧ _ ∧ _))
  | .createIndex _ => inferInstanceAs (Decidable (_ ∧ _))
  | .createFunction _ => inferInstanceAs (Decidable True)
  | .createTrigger _ => inferInstanceAs (Decidable (_ ∧ _ ∧ ∀ t' ∈ s.triggers, _))
  | .dropTable _ => inferInstanceAs (Decidable (_ ∧ (∀ t ∈ s.tables, _) ∧ ∀ o ∈ s.others, _))
  | .dropIndex _ => inferInstanceAs (Decidable (∃ i ∈ s.indexes, _))
  | .dropTrigger _ _ => inferInstanceAs (Decidable True)
  | .dropFunction _ => inferInstanceAs (Decidable (∀ t ∈ s.triggers, _))

/-- What an operation makes of a schema. The indexes and the triggers of a table go with it, and
    the sequences that it owns. -/
def Op.effect (s : Schema) : Op → Schema
  | .createTable t => { s with tables := s.tables ++ [t] }
  | .createIndex i => { s with indexes := s.indexes ++ [i] }
  | .createFunction f =>
    { s with functions := s.functions.filter (fun f' => f'.name ≠ f.name) ++ [f] }
  | .createTrigger t => { s with triggers := s.triggers ++ [t] }
  | .dropTable name =>
    { s with
      tables := s.tables.filter fun t => t.name ≠ name
      indexes := s.indexes.filter fun i => i.table ≠ name
      triggers := s.triggers.filter fun t => t.table ≠ name
      others := s.others.filter fun o => o.owner ≠ some name }
  | .dropIndex name => { s with indexes := s.indexes.filter fun i => i.name ≠ name }
  | .dropTrigger name table =>
    { s with triggers := s.triggers.filter fun t => ¬(t.name = name ∧ t.table = table) }
  | .dropFunction name => { s with functions := s.functions.filter fun f => f.name ≠ name }

/-- Executing an operation, which fails if it does not apply. -/
def Op.exec (op : Op) (s : Schema) : Option Schema :=
  if op.Applies s then some (op.effect s) else none

/-- Executing a script: each operation on what the one before has left. -/
def execAll (ops : List Op) (s : Schema) : Option Schema := ops.foldlM (fun s op => op.exec s) s

/-! ## Fragments -/

section Fragments

variable {s s' Δ Δ' : Schema} {op : Op} {ops : List Op}

/-- What is in two schemas is in the one or in the other: a table, -/
theorem hasTable_append {name : String} :
    (s.append Δ).HasTable name ↔ s.HasTable name ∨ Δ.HasTable name := by
  simp only [HasTable, Schema.append, List.mem_append, or_and_right, exists_or]

/-- a function, -/
theorem hasFunction_append {name : String} :
    (s.append Δ).HasFunction name ↔ s.HasFunction name ∨ Δ.HasFunction name := by
  simp only [HasFunction, Schema.append, List.mem_append, or_and_right, exists_or]

/-- a relation. -/
theorem hasRelation_append {name : String} :
    (s.append Δ).HasRelation name ↔ s.HasRelation name ∨ Δ.HasRelation name := by
  have hindexes : (∃ i ∈ (s.append Δ).indexes, i.name = name) ↔
      (∃ i ∈ s.indexes, i.name = name) ∨ ∃ i ∈ Δ.indexes, i.name = name := by
    simp only [Schema.append, List.mem_append, or_and_right, exists_or]
  have hothers : (∃ o ∈ (s.append Δ).others, o.name = name) ↔
      (∃ o ∈ s.others, o.name = name) ∨ ∃ o ∈ Δ.others, o.name = name := by
    simp only [Schema.append, List.mem_append, or_and_right, exists_or]
  rw [HasRelation, hasTable_append, hindexes, hothers, or_or_or_comm (a := ∃ i ∈ s.indexes, _)]
  exact or_or_or_comm

theorem Schema.Apart.ne_of_hasTable {name name' : String} (h : Apart s Δ) (hs : s.HasTable name)
    (hΔ : Δ.HasTable name') : name ≠ name' := by
  rintro rfl
  exact h.relations name (.inl hs) (.inl hΔ)

theorem Schema.Apart.ne_of_hasFunction {name name' : String} (h : Apart s Δ)
    (hs : s.HasFunction name) (hΔ : Δ.HasFunction name') : name ≠ name' := by
  rintro rfl
  exact h.functions name hs hΔ

/-- A schema is apart from two if it is from each. -/
theorem apart_append : Apart s (Δ.append Δ') ↔ Apart s Δ ∧ Apart s Δ' := by
  refine ⟨fun h => ⟨?_, ?_⟩, fun h => ⟨fun name hs hΔ => ?_, fun name hs hΔ => ?_,
    fun name hs hΔ => ?_⟩⟩
  · exact ⟨fun name hs hΔ => h.relations name hs (hasRelation_append.2 (.inl hΔ)),
      fun name hs hΔ => h.functions name hs (hasFunction_append.2 (.inl hΔ)),
      fun name hs hΔ => h.types name hs (hasTable_append.2 (.inl hΔ))⟩
  · exact ⟨fun name hs hΔ => h.relations name hs (hasRelation_append.2 (.inr hΔ)),
      fun name hs hΔ => h.functions name hs (hasFunction_append.2 (.inr hΔ)),
      fun name hs hΔ => h.types name hs (hasTable_append.2 (.inr hΔ))⟩
  · exact (hasRelation_append.1 hΔ).elim (h.1.relations name hs) (h.2.relations name hs)
  · exact (hasFunction_append.1 hΔ).elim (h.1.functions name hs) (h.2.functions name hs)
  · exact (hasTable_append.1 hΔ).elim (h.1.types name hs) (h.2.types name hs)

/-- It is apart from nothing. -/
theorem apart_empty : Apart s .empty where
  relations _ _ h := by simp [HasRelation, HasTable, Schema.empty] at h
  functions _ _ h := by simp [HasFunction, Schema.empty] at h
  types _ _ h := by simp [HasTable, Schema.empty] at h

/-! ### Creating -/

/-- The operation creates something, in a schema that has no function that it replaces. -/
def Op.CreatesIn (s : Schema) : Op → Prop
  | .createTable _ => True
  | .createIndex _ => True
  | .createFunction f => ¬s.HasFunction f.name
  | .createTrigger _ => True
  | _ => False

instance (s : Schema) : (op : Op) → Decidable (op.CreatesIn s)
  | .createTable _ | .createIndex _ | .createTrigger _ => inferInstanceAs (Decidable True)
  | .createFunction f => inferInstanceAs (Decidable (¬s.HasFunction f.name))
  | .dropTable _ | .dropIndex _ | .dropTrigger _ _ | .dropFunction _ =>
    inferInstanceAs (Decidable False)

/-- An operation creates something in two schemas if it replaces no function of either. -/
theorem createsIn_append :
    op.CreatesIn (s.append Δ) ↔ op.CreatesIn s ∧ op.CreatesIn Δ := by
  cases op with
  | createFunction f => exact (not_congr hasFunction_append).trans not_or
  | createTable | createIndex | createTrigger => exact (and_self_iff (a := True)).symm
  | dropTable | dropIndex | dropTrigger | dropFunction => exact (and_self_iff (a := False)).symm

/-- The function that an operation replaces, if there is one. -/
def Op.function? : Op → Option String
  | .createFunction f => some f.name
  | _ => none

/-- Only what an operation replaces depends on the schema. -/
theorem createsIn_iff :
    op.CreatesIn s ↔ op.CreatesIn .empty ∧ ∀ name ∈ op.function?, ¬s.HasFunction name := by
  have hempty : ∀ name, ¬Schema.empty.HasFunction name := by simp [HasFunction, Schema.empty]
  cases op with
  | createFunction f => simp [Op.CreatesIn, Op.function?, hempty]
  | createTable | createIndex | createTrigger | dropTable | dropIndex | dropTrigger
  | dropFunction => simp [Op.CreatesIn, Op.function?]

/-- What is created goes to the fragment. -/
theorem effect_append_of_createsIn (h : op.CreatesIn s) :
    op.effect (s.append Δ) = s.append (op.effect Δ) := by
  cases op with
  | createTable | createIndex | createTrigger => simp [Op.effect, Schema.append]
  | createFunction f =>
    have hself : (s.functions.filter fun f' => f'.name ≠ f.name) = s.functions :=
      List.filter_eq_self.2 fun f' hf' => decide_eq_true fun hname => h ⟨f', hf', hname⟩
    simp only [Op.effect, Schema.append, List.filter_append, hself, List.append_assoc]
  | dropTable | dropIndex | dropTrigger | dropFunction => exact h.elim

/-- What is created has a name that is not in the schema. -/
theorem apart_effect_of_createsIn (h : Apart s Δ) (hop : op.CreatesIn s)
    (happlies : op.Applies (s.append Δ)) : Apart s (op.effect Δ) := by
  -- A name that the operation adds is in `s` neither before nor after, or it would not apply.
  cases op with
  | createTable t =>
    refine ⟨fun name hs hΔ => ?_, h.functions, fun name hs hΔ => ?_⟩
    · rcases hΔ with ⟨t', ht', rfl⟩ | hother
      · rcases List.mem_append.1 ht' with ht' | ht'
        · exact h.relations _ hs (.inl ⟨t', ht', rfl⟩)
        · rw [List.mem_singleton.1 ht'] at hs
          exact happlies.1.1 (hasRelation_append.2 (.inl hs))
      · exact h.relations _ hs (.inr hother)
    · obtain ⟨t', ht', rfl⟩ := hΔ
      rcases List.mem_append.1 ht' with ht' | ht'
      · exact h.types _ hs ⟨t', ht', rfl⟩
      · rw [List.mem_singleton.1 ht'] at hs
        exact happlies.1.2 (List.mem_append_left _ hs)
  | createIndex i =>
    refine ⟨fun name hs hΔ => ?_, h.functions, h.types⟩
    rcases hΔ with htable | ⟨i', hi', rfl⟩ | hother
    · exact h.relations _ hs (.inl htable)
    · rcases List.mem_append.1 hi' with hi' | hi'
      · exact h.relations _ hs (.inr (.inl ⟨i', hi', rfl⟩))
      · rw [List.mem_singleton.1 hi'] at hs
        exact happlies.1 (hasRelation_append.2 (.inl hs))
    · exact h.relations _ hs (.inr (.inr hother))
  | createFunction f =>
    refine ⟨h.relations, fun name hs hΔ => ?_, h.types⟩
    obtain ⟨f', hf', rfl⟩ := hΔ
    rcases List.mem_append.1 hf' with hf' | hf'
    · exact h.functions _ hs ⟨f', (List.mem_filter.1 hf').1, rfl⟩
    · rw [List.mem_singleton.1 hf'] at hs
      exact hop hs
  | createTrigger => exact ⟨h.relations, h.functions, h.types⟩
  | dropTable | dropIndex | dropTrigger | dropFunction => exact hop.elim

/-- Nothing that is created refers to what is not there. -/
theorem closed_effect_of_createsIn (h : s.Closed) (hop : op.CreatesIn s')
    (happlies : op.Applies s) : (op.effect s).Closed := by
  cases op with
  | createTable t =>
    have htable : ∀ {name}, s.HasTable name → (Op.effect s (.createTable t)).HasTable name :=
      fun ⟨t', ht', hname⟩ => ⟨t', List.mem_append_left _ ht', hname⟩
    refine ⟨fun t' name hrefers => ?_, fun i hi => htable (h.indexes i hi),
      fun t' ht' => htable (h.triggers t' ht'), h.functions,
      fun o ho name hname => htable (h.needs o ho name hname),
      fun o ho name hname => htable (h.owner o ho name hname)⟩
    obtain ⟨ht', c, hc, r, hr, rfl⟩ := hrefers
    rcases List.mem_append.1 ht' with ht' | ht'
    · exact htable (h.references t' r.table ⟨ht', c, hc, r, hr, rfl⟩)
    · rw [List.mem_singleton.1 ht'] at hc
      -- The references of the new table are resolved.
      obtain ⟨t'', ht'', hname, -⟩ := happlies.2.2 c hc r hr
      exact htable ⟨t'', ht'', hname⟩
  | createIndex i =>
    obtain ⟨t, ht, hname, -⟩ := happlies.2
    refine ⟨h.references, fun i' hi' => ?_, h.triggers, h.functions, h.needs, h.owner⟩
    rcases List.mem_append.1 hi' with hi' | hi'
    · exact h.indexes i' hi'
    · rw [List.mem_singleton.1 hi']
      exact ⟨t, ht, hname⟩
  | createFunction f =>
    refine ⟨h.references, h.indexes, h.triggers, fun t ht => ?_, h.needs, h.owner⟩
    obtain ⟨f', hf', hname⟩ := h.functions t ht
    by_cases hf : f'.name = f.name
    · exact ⟨f, List.mem_append_right _ (List.mem_singleton.2 rfl), hf.symm.trans hname⟩
    · exact ⟨f', List.mem_append_left _ (List.mem_filter.2 ⟨hf', decide_eq_true hf⟩), hname⟩
  | createTrigger t =>
    refine ⟨h.references, h.indexes, fun t' ht' => ?_, fun t' ht' => ?_, h.needs, h.owner⟩ <;>
      rcases List.mem_append.1 ht' with ht' | ht'
    · exact h.triggers t' ht'
    · rw [List.mem_singleton.1 ht']
      exact happlies.1
    · exact h.functions t' ht'
    · rw [List.mem_singleton.1 ht']
      exact happlies.2.1
  | dropTable | dropIndex | dropTrigger | dropFunction => exact hop.elim

/-- What has been created stays there while more is. -/
theorem Schema.Apart.of_effect (hop : op.CreatesIn s') (h : Apart s (op.effect Δ)) :
    Apart s Δ := by
  cases op with
  | createTable t =>
    have htable : ∀ {name}, Δ.HasTable name → (Op.effect Δ (.createTable t)).HasTable name :=
      fun ⟨t', ht', hname⟩ => ⟨t', List.mem_append_left _ ht', hname⟩
    refine ⟨fun name hs hΔ => h.relations name hs (hΔ.imp_left htable), h.functions,
      fun name hs hΔ => h.types name hs (htable hΔ)⟩
  | createIndex i =>
    refine ⟨fun name hs hΔ => h.relations name hs (hΔ.imp_right (Or.imp_left ?_)), h.functions,
      h.types⟩
    exact fun ⟨i', hi', hname⟩ => ⟨i', List.mem_append_left _ hi', hname⟩
  | createFunction f =>
    refine ⟨h.relations, fun name hs hΔ => h.functions name hs ?_, h.types⟩
    obtain ⟨f', hf', hname⟩ := hΔ
    by_cases hf : f'.name = f.name
    · exact ⟨f, List.mem_append_right _ (List.mem_singleton.2 rfl), hf.symm.trans hname⟩
    · exact ⟨f', List.mem_append_left _ (List.mem_filter.2 ⟨hf', decide_eq_true hf⟩), hname⟩
  | createTrigger => exact ⟨h.relations, h.functions, h.types⟩
  | dropTable | dropIndex | dropTrigger | dropFunction => exact hop.elim

/-- What can be created in a fragment can be with more around that does not have it. -/
theorem applies_append_of_createsIn (hs : s.Closed) (h : Apart s (op.effect Δ))
    (hop : op.CreatesIn s') (happlies : op.Applies Δ) : op.Applies (s.append Δ) := by
  have hfree : ∀ {name}, (op.effect Δ).HasRelation name → ¬Δ.HasRelation name →
      ¬(s.append Δ).HasRelation name := fun heffect hΔ hname =>
    (hasRelation_append.1 hname).elim (fun hname => h.relations _ hname heffect) hΔ
  cases op with
  | createTable t =>
    obtain ⟨⟨hname, htype⟩, hnodup, hresolves⟩ := happlies
    have htable : (Op.effect Δ (.createTable t)).HasTable t.name := ⟨t, by simp [Op.effect], rfl⟩
    refine ⟨⟨hfree (.inl htable) hname, fun hmem => ?_⟩, hnodup, fun c hc r hr => ?_⟩
    · exact (List.mem_append.1 hmem).elim (fun hmem => h.types _ hmem htable) htype
    · obtain ⟨t', ht', hcolumn⟩ := hresolves c hc r hr
      exact ⟨t', List.mem_append_right _ ht', hcolumn⟩
  | createIndex i =>
    obtain ⟨hname, t, ht, hcovers⟩ := happlies
    have hindex : (Op.effect Δ (.createIndex i)).HasRelation i.name :=
      .inr (.inl ⟨i, by simp [Op.effect], rfl⟩)
    exact ⟨hfree hindex hname, t, List.mem_append_right _ ht, hcovers⟩
  | createFunction => trivial
  | createTrigger t =>
    obtain ⟨htable, hfunction, hname⟩ := happlies
    refine ⟨hasTable_append.2 (.inr htable), hasFunction_append.2 (.inr hfunction), ?_⟩
    -- The triggers that there are elsewhere are those of other tables.
    refine List.forall_mem_append.2 ⟨fun t' ht' heq => ?_, hname⟩
    exact absurd heq ((h.of_effect hop).ne_of_hasTable (hs.triggers t' ht') htable)
  | dropTable | dropIndex | dropTrigger | dropFunction => exact hop.elim

/-! ### Dropping -/

/-- The operation drops something that the fragment has. -/
def Op.DropsFrom (Δ : Schema) : Op → Prop
  | .dropTable name => Δ.HasTable name
  | .dropIndex name => ∃ i ∈ Δ.indexes, i.name = name
  | .dropTrigger _ table => Δ.HasTable table
  | .dropFunction name => Δ.HasFunction name
  | _ => False

instance (Δ : Schema) : (op : Op) → Decidable (op.DropsFrom Δ)
  | .dropTable name => inferInstanceAs (Decidable (Δ.HasTable name))
  | .dropIndex _ => inferInstanceAs (Decidable (∃ i ∈ Δ.indexes, _))
  | .dropTrigger _ table => inferInstanceAs (Decidable (Δ.HasTable table))
  | .dropFunction name => inferInstanceAs (Decidable (Δ.HasFunction name))
  | .createTable _ | .createIndex _ | .createFunction _ | .createTrigger _ =>
    inferInstanceAs (Decidable False)

/-- What is dropped from a fragment leaves the rest as it is. -/
theorem effect_append_of_dropsFrom (hs : s.Closed) (h : Apart s Δ) (hop : op.DropsFrom Δ) :
    op.effect (s.append Δ) = s.append (op.effect Δ) := by
  cases op with
  | dropTable name =>
    have htables : (s.tables.filter fun t => t.name ≠ name) = s.tables :=
      List.filter_eq_self.2 fun t ht => decide_eq_true (h.ne_of_hasTable ⟨t, ht, rfl⟩ hop)
    have hindexes : (s.indexes.filter fun i => i.table ≠ name) = s.indexes :=
      List.filter_eq_self.2 fun i hi => decide_eq_true (h.ne_of_hasTable (hs.indexes i hi) hop)
    have htriggers : (s.triggers.filter fun t => t.table ≠ name) = s.triggers :=
      List.filter_eq_self.2 fun t ht => decide_eq_true (h.ne_of_hasTable (hs.triggers t ht) hop)
    -- A closed schema owns nothing for a table that it does not have.
    have hothers : (s.others.filter fun o => o.owner ≠ some name) = s.others :=
      List.filter_eq_self.2 fun o ho => decide_eq_true fun howner =>
        h.ne_of_hasTable (hs.owner o ho name howner) hop rfl
    simp only [Op.effect, Schema.append, List.filter_append, htables, hindexes, htriggers, hothers]
  | dropIndex name =>
    have hindexes : (s.indexes.filter fun i => i.name ≠ name) = s.indexes :=
      List.filter_eq_self.2 fun i hi => decide_eq_true fun hname =>
        h.relations name (.inr (.inl ⟨i, hi, hname⟩)) (.inr (.inl hop))
    simp only [Op.effect, Schema.append, List.filter_append, hindexes]
  | dropTrigger name table =>
    have htriggers : (s.triggers.filter fun t => ¬(t.name = name ∧ t.table = table)) =
        s.triggers :=
      List.filter_eq_self.2 fun t ht => decide_eq_true fun htable =>
        h.ne_of_hasTable (hs.triggers t ht) hop htable.2
    simp only [Op.effect, Schema.append, List.filter_append, htriggers]
  | dropFunction name =>
    have hfunctions : (s.functions.filter fun f => f.name ≠ name) = s.functions :=
      List.filter_eq_self.2 fun f hf => decide_eq_true (h.ne_of_hasFunction ⟨f, hf, rfl⟩ hop)
    simp only [Op.effect, Schema.append, List.filter_append, hfunctions]
  | createTable | createIndex | createFunction | createTrigger => exact hop.elim

/-- What can be dropped from a fragment can be with more around, which does not refer to it. -/
theorem applies_append_of_dropsFrom (hs : s.Closed) (h : Apart s Δ) (hop : op.DropsFrom Δ)
    (happlies : op.Applies Δ) : op.Applies (s.append Δ) := by
  cases op with
  | dropTable name =>
    obtain ⟨-, hrefers, hover⟩ := happlies
    refine ⟨hasTable_append.2 (.inr hop), fun t ht hname c hc r hr => ?_,
      List.forall_mem_append.2 ⟨fun o ho hmem => ?_, hover⟩⟩
    · rcases List.mem_append.1 ht with ht | ht
      · exact h.ne_of_hasTable (hs.references t r.table ⟨ht, c, hc, r, hr, rfl⟩) hop
      · exact hrefers t ht hname c hc r hr
    -- What was there before needs other tables.
    · exact h.ne_of_hasTable (hs.needs o ho name hmem) hop rfl
  | dropIndex name =>
    obtain ⟨i, hi, hname⟩ := hop
    exact ⟨i, List.mem_append_right _ hi, hname⟩
  | dropTrigger => trivial
  | dropFunction name =>
    refine List.forall_mem_append.2 ⟨fun t ht => ?_, happlies⟩
    exact h.ne_of_hasFunction (hs.functions t ht) hop
  | createTable | createIndex | createFunction | createTrigger => exact hop.elim

/-- Dropping leaves no more than there was. -/
theorem apart_effect_of_dropsFrom (h : Apart s Δ) (hop : op.DropsFrom Δ) :
    Apart s (op.effect Δ) := by
  have hfilter : ∀ {α : Type} {p : α → Bool} {f : α → String} {l : List α} {name : String},
      (∃ a ∈ l.filter p, f a = name) → ∃ a ∈ l, f a = name :=
    fun ⟨a, ha, hname⟩ => ⟨a, (List.mem_filter.1 ha).1, hname⟩
  cases op with
  | dropTable =>
    exact ⟨fun name hs hΔ => h.relations name hs (hΔ.imp hfilter (Or.imp hfilter hfilter)),
      h.functions, fun name hs hΔ => h.types name hs (hfilter hΔ)⟩
  | dropIndex =>
    exact ⟨fun name hs hΔ => h.relations name hs (hΔ.imp_right (Or.imp_left hfilter)),
      h.functions, h.types⟩
  | dropTrigger => exact ⟨h.relations, h.functions, h.types⟩
  | dropFunction =>
    exact ⟨h.relations, fun name hs hΔ => h.functions name hs (hfilter hΔ), h.types⟩
  | createTable | createIndex | createFunction | createTrigger => exact hop.elim

/-! ### Scripts that create, and scripts that drop -/

/-- The objects that a script creates. -/
def created (ops : List Op) : Schema := ops.foldl Op.effect .empty

/-- Executing a script that drops what a fragment has. -/
def revert : List Op → Schema → Option Schema
  | [], Δ => some Δ
  | op :: ops, Δ => if op.DropsFrom Δ then (op.exec Δ).bind (revert ops) else none

/-- An operation is executed if it applies. -/
theorem exec_eq_some : op.exec s = some s' ↔ op.Applies s ∧ s' = op.effect s := by
  rw [Op.exec, Option.ite_none_right_eq_some, Option.some_inj, eq_comm (a := s')]

theorem execAll_cons : execAll (op :: ops) s = some s' ↔
    op.Applies s ∧ execAll ops (op.effect s) = some s' := by
  rw [execAll, List.foldlM_cons, Option.bind_eq_bind, Option.bind_eq_some_iff]
  simp only [exec_eq_some, and_assoc, exists_and_left, exists_eq_left]
  rfl

theorem revert_cons : revert (op :: ops) Δ = some Δ' ↔
    op.DropsFrom Δ ∧ op.Applies Δ ∧ revert ops (op.effect Δ) = some Δ' := by
  rw [revert, Option.ite_none_right_eq_some, Option.bind_eq_some_iff]
  simp only [exec_eq_some, and_assoc, exists_and_left, exists_eq_left]

/-- What several operations create goes to the fragment. -/
theorem foldl_effect_append (hops : ∀ op ∈ ops, op.CreatesIn s) :
    ops.foldl Op.effect (s.append Δ) = s.append (ops.foldl Op.effect Δ) := by
  induction ops generalizing Δ with
  | nil => rfl
  | cons op ops ih =>
    obtain ⟨hop, hops⟩ := List.forall_mem_cons.1 hops
    rw [List.foldl_cons, List.foldl_cons, effect_append_of_createsIn hop, ih hops]

/-- What a script creates is added to the schema. -/
theorem execAll_of_createsIn (hops : ∀ op ∈ ops, op.CreatesIn s) (hclosed : (s.append Δ).Closed)
    (h : Apart s Δ) (hexec : execAll ops (s.append Δ) = some s') :
    s' = s.append (ops.foldl Op.effect Δ) ∧ Apart s (ops.foldl Op.effect Δ) ∧ s'.Closed := by
  induction ops generalizing Δ with
  | nil =>
    cases hexec
    exact ⟨rfl, h, hclosed⟩
  | cons op ops ih =>
    obtain ⟨hop, hops⟩ := List.forall_mem_cons.1 hops
    obtain ⟨happlies, hexec⟩ := execAll_cons.1 hexec
    have hclosed := closed_effect_of_createsIn hclosed hop happlies
    rw [effect_append_of_createsIn hop] at hexec hclosed
    exact ih hops hclosed (apart_effect_of_createsIn h hop happlies) hexec

/-- What a script creates is added to the schema, from nothing. -/
theorem execAll_created (hops : ∀ op ∈ ops, op.CreatesIn s) (hs : s.Closed)
    (hexec : execAll ops s = some s') :
    s' = s.append (created ops) ∧ Apart s (created ops) ∧ s'.Closed :=
  execAll_of_createsIn hops (by rwa [append_empty]) apart_empty (by rwa [append_empty])

/-- What has been created stays there while a script creates more. -/
theorem Schema.Apart.of_foldl (hops : ∀ op ∈ ops, op.CreatesIn s')
    (h : Apart s (ops.foldl Op.effect Δ)) : Apart s Δ := by
  induction ops generalizing Δ with
  | nil => exact h
  | cons op ops ih =>
    obtain ⟨hop, hops⟩ := List.forall_mem_cons.1 hops
    exact (ih hops h).of_effect hop

/-- A script that creates does so with more around that has none of it. -/
theorem execAll_append (hs : s.Closed) (hops : ∀ op ∈ ops, op.CreatesIn s)
    (h : Apart s (ops.foldl Op.effect Δ)) (hexec : execAll ops Δ = some Δ') :
    execAll ops (s.append Δ) = some (s.append Δ') := by
  induction ops generalizing Δ with
  | nil =>
    cases hexec
    rfl
  | cons op ops ih =>
    obtain ⟨hop, hops⟩ := List.forall_mem_cons.1 hops
    obtain ⟨happlies, hexec⟩ := execAll_cons.1 hexec
    have happly := applies_append_of_createsIn hs (Apart.of_foldl hops h) hop happlies
    refine execAll_cons.2 ⟨happly, ?_⟩
    rw [effect_append_of_createsIn hop]
    exact ih hops h hexec

/-- A script that drops what a fragment has does so whatever else there is. -/
theorem execAll_of_revert (hs : s.Closed) (h : Apart s Δ) (hrevert : revert ops Δ = some Δ') :
    execAll ops (s.append Δ) = some (s.append Δ') := by
  induction ops generalizing Δ with
  | nil =>
    cases hrevert
    rfl
  | cons op ops ih =>
    obtain ⟨hop, happlies, hrevert⟩ := revert_cons.1 hrevert
    refine execAll_cons.2 ⟨applies_append_of_dropsFrom hs h hop happlies, ?_⟩
    rw [effect_append_of_dropsFrom hs h hop]
    exact ih (apart_effect_of_dropsFrom h hop) hrevert

end Fragments

end Sql
