import OpenDataGov.Lib.Attempts
import OpenDataGov.Lib.Sql
import Mathlib.Data.List.Induction
import Mathlib.Logic.Function.Basic

/-!
# Databases and their migrations

A database has a schema, and rows in its tables. Statements change the rows, where no trigger
raises; revisions change the schema, each with a script that upgrades it and one that
downgrades it again. Commands take the database from a revision to another one, and
transactions run in between (`Run`); each is executed as a whole or not at all.

A transaction consists of `INSERT`, `UPDATE`, `DELETE` and `TRUNCATE` (`Statement`). It changes no
schema: but for the revisions, nothing is created, dropped or altered, and no trigger is
disabled. With such statements in between, a view on a table of a revision would keep it from
being taken back, and the rows of a guarded table could be changed. The table in which the number
of the revision is kept is left out of the schema; that number is a part of the world
(`World.revision`). A statement may fail for more reasons than triggers, as constraints are not
modelled: every command may fail in a run.

The invariant is that the database *stands* at its revision (`Stands`): its schema is that of
the beginning, with what the revisions so far have created after it, and none of that was there
before. From a chain of revisions which each drop in their downgrade what they create in their
upgrade (`Chain`, `Revision.Reverts`), and replace no function (`Fresh`), it follows that

* `Run.stands`: the database stands at its revision at any time, whatever the commands;
* `Stands.upgrade_iff`: an upgrade fails exactly if there was something in the beginning with the
  name of what the revisions create;
* `Stands.downgrades`: a downgrade never fails, and takes the schema back;
* `rows_of_creates`, `rows_of_revert`: the rows of other tables are left as they are;
* `Run.rows_isPrefix`: where the rows of a table are guarded by a trigger, they stay.
-/

namespace Sql

open Attempts Schema

/-! ## Databases -/

/-- The values of a row, if they are not null. -/
abbrev Row (V : Type) := String → Option V

/-- A database: the objects in it, and the rows of its tables. -/
structure Database (V : Type) where
  schema : Schema
  /-- The rows of each table, none where there is no such table. -/
  rows : String → List (Row V)

section Scripts

variable {V : Type} [DecidableEq V]

/-- The rows differ in one of the columns, or one of them is null there. -/
def Distinct (columns : List String) (r r' : Row V) : Prop :=
  ¬∀ c ∈ columns, r c ≠ none ∧ r c = r' c

instance (columns : List String) : DecidableRel (Distinct (V := V) columns) := fun r r' =>
  inferInstanceAs (Decidable (¬∀ c ∈ columns, r c ≠ none ∧ r c = r' c))

/-- The rows that there are do not keep the operation from being executed. -/
def Op.Admits (rows : String → List (Row V)) : Op → Prop
  | .createIndex i => i.unique = true → (rows i.table).Pairwise (Distinct i.columns)
  | _ => True

instance (rows : String → List (Row V)) : (op : Op) → Decidable (op.Admits rows)
  | .createIndex i => inferInstanceAs (Decidable (i.unique = true → _))
  | .createTable _ | .createFunction _ | .createTrigger _ | .dropTable _ | .dropIndex _
  | .dropTrigger _ _ | .dropFunction _ => inferInstanceAs (Decidable True)

/-- The rows after an operation. -/
def Op.rows (rows : String → List (Row V)) : Op → String → List (Row V)
  | .createTable t => Function.update rows t.name []
  | .dropTable name => Function.update rows name []
  | _ => rows

/-- Executing an operation on a database. -/
def Op.execOn (op : Op) (d : Database V) : Option (Database V) :=
  if op.Applies d.schema ∧ op.Admits d.rows then some ⟨op.effect d.schema, op.rows d.rows⟩
  else none

/-- Executing a script on a database. -/
def script (ops : List Op) (d : Database V) : Option (Database V) :=
  ops.foldlM (fun d op => op.execOn d) d

variable {d d' : Database V} {op : Op} {ops : List Op} {s : Schema}

/-- A script is executed one operation after the other, on the schema and on the rows. -/
theorem script_cons : script (op :: ops) d = some d' ↔
    (op.Applies d.schema ∧ op.Admits d.rows) ∧
      script ops ⟨op.effect d.schema, op.rows d.rows⟩ = some d' := by
  rw [script, List.foldlM_cons, Option.bind_eq_bind, Option.bind_eq_some_iff]
  constructor
  · rintro ⟨_, hop, hops⟩
    obtain ⟨happlies, h⟩ := Option.ite_none_right_eq_some.1 hop
    cases h
    exact ⟨happlies, hops⟩
  · rintro ⟨happlies, hops⟩
    exact ⟨_, if_pos happlies, hops⟩

/-- A script changes the schema in its way, whatever the rows. -/
theorem execAll_of_script (h : script ops d = some d') :
    execAll ops d.schema = some d'.schema := by
  induction ops generalizing d with
  | nil =>
    cases h
    rfl
  | cons op ops ih =>
    obtain ⟨⟨happlies, -⟩, h⟩ := script_cons.1 h
    exact execAll_cons.2 ⟨happlies, ih h⟩

/-- A script that the rows always admit is executed if it is on the schema. -/
theorem script_of_execAll (hops : ∀ op ∈ ops, ∀ rows : String → List (Row V), op.Admits rows)
    (h : execAll ops d.schema = some s) : ∃ d', script ops d = some d' ∧ d'.schema = s := by
  induction ops generalizing d with
  | nil =>
    cases h
    exact ⟨d, rfl, rfl⟩
  | cons op ops ih =>
    obtain ⟨hop, hops⟩ := List.forall_mem_cons.1 hops
    obtain ⟨happlies, h⟩ := execAll_cons.1 h
    obtain ⟨d', hd', hs⟩ := ih (d := ⟨op.effect d.schema, op.rows d.rows⟩) hops h
    exact ⟨d', script_cons.2 ⟨⟨happlies, hop _⟩, hd'⟩, hs⟩

omit [DecidableEq V] in
/-- Any rows are fine to drop things. -/
theorem admits_of_revert {Δ Δ' : Schema} (h : revert ops Δ = some Δ') :
    ∀ op ∈ ops, ∀ rows : String → List (Row V), op.Admits rows := by
  induction ops generalizing Δ with
  | nil => exact fun _ hop => absurd hop List.not_mem_nil
  | cons op ops ih =>
    obtain ⟨hop, -, h⟩ := revert_cons.1 h
    refine List.forall_mem_cons.2 ⟨fun rows => ?_, ih h⟩
    cases op <;> first | exact hop.elim | trivial

omit [DecidableEq V] in
/-- Creating things leaves the tables that there are, and their rows. -/
theorem rows_of_createsIn {rows : String → List (Row V)} {s' : Schema} {name : String}
    (hop : op.CreatesIn s') (happlies : op.Applies s) (hname : s.HasTable name) :
    (op.effect s).HasTable name ∧ op.rows rows name = rows name := by
  cases op with
  | createTable t =>
    obtain ⟨t', ht', rfl⟩ := hname
    refine ⟨⟨t', List.mem_append_left _ ht', rfl⟩, Function.update_of_ne ?_ ..⟩
    exact fun h => happlies.1.1 (.inl ⟨t', ht', h⟩)
  | createIndex | createFunction | createTrigger => exact ⟨hname, rfl⟩
  | dropTable | dropIndex | dropTrigger | dropFunction => exact hop.elim

omit [DecidableEq V] in
/-- Dropping things leaves the rows of the tables that are left. -/
theorem rows_of_dropsFrom {rows : String → List (Row V)} {Δ : Schema} {name : String}
    (hop : op.DropsFrom Δ) (hname : (op.effect s).HasTable name) :
    s.HasTable name ∧ op.rows rows name = rows name := by
  cases op with
  | dropTable name' =>
    obtain ⟨t, ht, rfl⟩ := hname
    obtain ⟨ht, hne⟩ := List.mem_filter.1 ht
    exact ⟨⟨t, ht, rfl⟩, Function.update_of_ne (of_decide_eq_true hne) ..⟩
  | dropIndex | dropTrigger | dropFunction => exact ⟨hname, rfl⟩
  | createTable | createIndex | createFunction | createTrigger => exact hop.elim

/-- Unique indexes are created only on tables that are new, or that the script has created. -/
def OnNew (new : List String) : List Op → Prop
  | [] => True
  | .createTable t :: ops => OnNew (t.name :: new) ops
  | .createIndex i :: ops => (i.unique = true → i.table ∈ new) ∧ OnNew new ops
  | _ :: ops => OnNew new ops

instance : (new : List String) → (ops : List Op) → Decidable (OnNew new ops)
  | _, [] => inferInstanceAs (Decidable True)
  | new, op :: ops =>
    match op with
    | .createTable t => instDecidableOnNew (t.name :: new) ops
    | .createIndex i =>
      have := instDecidableOnNew new ops
      inferInstanceAs (Decidable ((i.unique = true → i.table ∈ new) ∧ OnNew new ops))
    | .createFunction _ | .createTrigger _ | .dropTable _ | .dropIndex _ | .dropTrigger _ _
    | .dropFunction _ => instDecidableOnNew new ops

/-- New tables have no rows that keep a script from creating unique indexes. -/
theorem script_of_onNew {new : List String} (hops : ∀ op ∈ ops, ∃ s, op.CreatesIn s)
    (hnew : OnNew new ops) (hrows : ∀ t ∈ new, d.rows t = [])
    (h : execAll ops d.schema = some s) : ∃ d', script ops d = some d' ∧ d'.schema = s := by
  induction ops generalizing d new with
  | nil =>
    cases h
    exact ⟨d, rfl, rfl⟩
  | cons op ops ih =>
    obtain ⟨⟨_, hop⟩, hops⟩ := List.forall_mem_cons.1 hops
    obtain ⟨happlies, h⟩ := execAll_cons.1 h
    -- The rows admit the operation, and those of new tables are none after it.
    obtain ⟨hadmits, new', hnew', hrows'⟩ : op.Admits d.rows ∧ ∃ new', OnNew new' ops ∧
        ∀ t ∈ new', op.rows d.rows t = [] := by
      cases op with
      | createTable t =>
        refine ⟨trivial, t.name :: new, hnew, fun t' ht' => ?_⟩
        by_cases heq : t' = t.name
        · rw [heq]
          exact Function.update_self ..
        · rw [Op.rows, Function.update_of_ne heq]
          exact hrows t' ((List.mem_cons.1 ht').resolve_left heq)
      | createIndex i =>
        refine ⟨fun hunique => ?_, new, hnew.2, hrows⟩
        rw [hrows i.table (hnew.1 hunique)]
        exact List.Pairwise.nil
      | createFunction | createTrigger => exact ⟨trivial, new, hnew, hrows⟩
      | dropTable | dropIndex | dropTrigger | dropFunction => exact hop.elim
    obtain ⟨d', hd', hs⟩ := ih (d := ⟨op.effect d.schema, op.rows d.rows⟩) hops hnew' hrows' h
    exact ⟨d', script_cons.2 ⟨⟨happlies, hadmits⟩, hd'⟩, hs⟩

/-- A script that creates leaves the rows of the tables that there are, -/
theorem rows_of_creates {name : String} (hops : ∀ op ∈ ops, ∃ s, op.CreatesIn s)
    (h : script ops d = some d') (hname : d.schema.HasTable name) :
    d'.schema.HasTable name ∧ d'.rows name = d.rows name := by
  induction ops generalizing d with
  | nil =>
    cases h
    exact ⟨hname, rfl⟩
  | cons op ops ih =>
    obtain ⟨⟨_, hop⟩, hops⟩ := List.forall_mem_cons.1 hops
    obtain ⟨⟨happlies, -⟩, h⟩ := script_cons.1 h
    obtain ⟨hname, hrows⟩ := @rows_of_createsIn _ _ _ d.rows _ _ hop happlies hname
    obtain ⟨hname', hrows'⟩ := ih hops h hname
    exact ⟨hname', hrows'.trans hrows⟩

/-- and so does one that drops what it has created. -/
theorem rows_of_revert {name : String} {Δ Δ' : Schema} (hrevert : revert ops Δ = some Δ')
    (h : script ops d = some d') (hname : d'.schema.HasTable name) :
    d.schema.HasTable name ∧ d'.rows name = d.rows name := by
  induction ops generalizing d Δ with
  | nil =>
    cases h
    exact ⟨hname, rfl⟩
  | cons op ops ih =>
    obtain ⟨hop, -, hrevert⟩ := revert_cons.1 hrevert
    obtain ⟨-, h⟩ := script_cons.1 h
    obtain ⟨hname', hrows'⟩ := ih hrevert h
    obtain ⟨hname, hrows⟩ := @rows_of_dropsFrom _ _ _ d.rows _ _ hop hname'
    exact ⟨hname, hrows'.trans hrows⟩

end Scripts

/-! ## Statements -/

/-- The statements that change rows, `TRUNCATE` among them. Those that change schemas are not among
    them, nor settings by which triggers are not fired. -/
inductive Statement (V : Type)
  | insert (table : String) (rows : List (Row V))
  /-- The rows of the table for which `p` holds become others. -/
  | update (table : String) (p : Row V → Bool) (f : Row V → Row V)
  /-- Rows of a table, and those of others that go with them. -/
  | delete (p : String → Row V → Bool)
  | truncate (tables : List String)

/-- The exception that a function raises for an operation, if it does. -/
def Function.raised (f : Function) (e : Event) : Option String :=
  f.raises.map fun format =>
    String.ofList (format.toList.flatMap fun c => if c = '%' then e.name.toList else [c])

/-- The exception that a trigger of a table raises. -/
def Schema.raised (s : Schema) (table : String) (e : Event) : Option String :=
  s.triggers.findSome? fun t =>
    if t.table = table ∧ e ∈ t.events then
      s.functions.findSome? fun f => if f.name = t.function then f.raised e else none
    else none

section Statements

variable {V : Type}

/-- The exception that is raised where such tables have rows changed, if there is one. -/
def Database.refused (d : Database V) (e : Event) (touched : String → Bool) : Option String :=
  d.schema.tables.findSome? fun t =>
    if touched t.name then d.schema.raised t.name e else none

/-- Executing a statement, where nothing else than a trigger refuses that. -/
def Statement.exec (d : Database V) : Statement V → Except String (Database V)
  | .insert table rows =>
    match d.refused .insert fun t => t = table ∧ rows ≠ [] with
    | some e => .error e
    | none => .ok { d with rows := Function.update d.rows table (d.rows table ++ rows) }
  | .update table p f =>
    match d.refused .update fun t => t = table ∧ (d.rows t).any p with
    | some e => .error e
    | none =>
      .ok { d with
        rows := Function.update d.rows table ((d.rows table).map fun r => if p r then f r else r) }
  | .delete p =>
    match d.refused .delete fun t => (d.rows t).any (p t) with
    | some e => .error e
    | none => .ok { d with rows := fun t => (d.rows t).filter fun r => !p t r }
  | .truncate tables => .ok { d with rows := fun t => if t ∈ tables then [] else d.rows t }

/-- The statements of a transaction, one after the other. -/
def transact (d : Database V) (ss : List (Statement V)) : Except String (Database V) :=
  ss.foldlM Statement.exec d

variable {d d' : Database V} {st : Statement V} {ss : List (Statement V)} {table : String}

/-- A statement does not change the schema, -/
theorem schema_exec (h : st.exec d = .ok d') : d'.schema = d.schema := by
  cases st <;> rw [Statement.exec] at h
  case truncate =>
    cases h
    rfl
  all_goals
    split at h <;> cases h
    rfl

/-- and neither does a transaction. -/
theorem schema_transact (h : transact d ss = .ok d') : d'.schema = d.schema := by
  induction ss generalizing d with
  | nil =>
    cases h
    rfl
  | cons st ss ih =>
    obtain ⟨d₁, hst, hss⟩ := bind_eq_ok_iff.1 h
    exact (ih hss).trans (schema_exec hst)

/-- Changing the rows of a table raises an exception. -/
def Schema.Guards (s : Schema) (table : String) : Prop :=
  s.HasTable table ∧ (s.raised table .update).isSome ∧ (s.raised table .delete).isSome

/-- What triggers raise for the tables of a fragment does not depend on the rest. -/
theorem raised_append {s Δ : Schema} {e : Event} (hs : s.Closed) (h : Apart s Δ)
    (htable : Δ.HasTable table) (hfunctions : ∀ t ∈ Δ.triggers, Δ.HasFunction t.function) :
    (s.append Δ).raised table e = Δ.raised table e := by
  have htriggers : s.triggers.findSome? (fun t =>
      if t.table = table ∧ e ∈ t.events then
        (s.append Δ).functions.findSome? fun f => if f.name = t.function then f.raised e else none
      else none) = none :=
    List.findSome?_eq_none_iff.2 fun t ht =>
      if_neg fun hfires => h.ne_of_hasTable (hs.triggers t ht) htable hfires.1
  have happend : (s.append Δ).triggers = s.triggers ++ Δ.triggers := rfl
  rw [Schema.raised, happend, List.findSome?_append, htriggers, Option.none_or, Schema.raised]
  rw [← List.head?_filterMap, ← List.head?_filterMap]
  refine congrArg List.head? (List.filterMap_congr fun t ht => ?_)
  have hnone : s.functions.findSome? (fun f => if f.name = t.function then f.raised e else none) =
      none :=
    List.findSome?_eq_none_iff.2 fun f hf =>
      if_neg (h.ne_of_hasFunction ⟨f, hf, rfl⟩ (hfunctions t ht))
  have happend : (s.append Δ).functions = s.functions ++ Δ.functions := rfl
  rw [happend, List.findSome?_append, hnone, Option.none_or]

/-- Nothing is refused if no trigger raises on a table whose rows are touched. -/
theorem refused_eq_none {e : Event} {touched : String → Bool} :
    d.refused e touched = none ↔
      ∀ t, d.schema.HasTable t → touched t = true → d.schema.raised t e = none := by
  rw [Database.refused, List.findSome?_eq_none_iff]
  constructor
  · rintro h _ ⟨t, ht, rfl⟩ htouched
    simpa [htouched] using h t ht
  · intro h t ht
    split_ifs with htouched
    · exact h t.name ⟨t, ht, rfl⟩ htouched
    · rfl

/-- Where the rows of a single table are touched, its triggers count. -/
theorem refused_of_touched {e : Event} {touched : String → Bool} (htable : d.schema.HasTable table)
    (htouched : ∀ t, touched t = true ↔ t = table) :
    d.refused e touched = d.schema.raised table e := by
  obtain ⟨t₀, ht₀, rfl⟩ := htable
  cases hraised : d.schema.raised t₀.name e with
  | none =>
    refine refused_eq_none.2 fun t _ ht => ?_
    rw [(htouched t).1 ht, hraised]
  | some x =>
    have hsome : (d.refused e touched).isSome :=
      List.findSome?_isSome_iff.2 ⟨t₀, ht₀, by rw [if_pos ((htouched t₀.name).2 rfl), hraised]; rfl⟩
    obtain ⟨y, hy⟩ := Option.isSome_iff_exists.1 hsome
    obtain ⟨t, -, ht⟩ := List.exists_of_findSome?_eq_some hy
    obtain ⟨htouched', ht⟩ := Option.ite_none_right_eq_some.1 ht
    rw [hy, ← ht, (htouched t.name).1 htouched', hraised]

/-- A guarded table has no rows that are touched, if nothing is raised. -/
theorem Schema.Guards.not_touched {e : Event} {touched : String → Bool}
    (hguards : d.schema.Guards table) (he : e ≠ .insert) (h : d.refused e touched = none) :
    touched table = false := by
  by_contra htouched
  have hraised := refused_eq_none.1 h table hguards.1 (by simpa using htouched)
  cases e with
  | insert => exact he rfl
  | update => exact absurd hguards.2.1 (by simp [hraised])
  | delete => exact absurd hguards.2.2 (by simp [hraised])

/-- A statement that does not truncate a table leaves the rows in it that are guarded. -/
theorem rows_prefix_exec (hguards : d.schema.Guards table)
    (hst : ∀ tables, st = .truncate tables → table ∉ tables) (h : st.exec d = .ok d') :
    d.rows table <+: d'.rows table := by
  -- An insertion adds rows at the end. An update or a deletion that has not been refused by the
  -- guard touches no row.
  cases st with
  | insert t rows =>
    rw [Statement.exec] at h
    split at h <;> cases h
    by_cases ht : table = t
    · subst ht
      simp
    · simp [Function.update_of_ne ht]
  | update t p f =>
    rw [Statement.exec] at h
    split at h
    · cases h
    · rename_i hrefused
      cases h
      have htouched := hguards.not_touched (by decide) hrefused
      by_cases ht : table = t
      · subst ht
        have hrows : ∀ r ∈ d.rows table, p r ≠ true := by simpa using htouched
        have hmap : ((d.rows table).map fun r => if p r then f r else r) = d.rows table :=
          (List.map_congr_left fun r hr => if_neg (hrows r hr)).trans (List.map_id _)
        simp [hmap]
      · simp [Function.update_of_ne ht]
  | delete p =>
    rw [Statement.exec] at h
    split at h
    · cases h
    · rename_i hrefused
      cases h
      have htouched := hguards.not_touched (by decide) hrefused
      have hrows : ((d.rows table).filter fun r => !p table r) = d.rows table :=
        List.filter_eq_self.2 fun r hr => by simpa using List.any_eq_false.1 htouched r hr
      simp [hrows]
  | truncate tables =>
    cases h
    simp [hst tables rfl]

/-- and in a transaction. -/
theorem rows_prefix_transact (hguards : d.schema.Guards table)
    (hss : ∀ tables, .truncate tables ∈ ss → table ∉ tables) (h : transact d ss = .ok d') :
    d.rows table <+: d'.rows table := by
  induction ss generalizing d with
  | nil =>
    cases h
    exact List.prefix_rfl
  | cons st ss ih =>
    obtain ⟨d₁, hst, hrest⟩ := bind_eq_ok_iff.1 h
    have hfirst : d.rows table <+: d₁.rows table :=
      rows_prefix_exec hguards (fun tables h => hss tables (h ▸ List.mem_cons_self)) hst
    refine hfirst.trans (ih ?_ (fun tables h => hss tables (List.mem_cons_of_mem _ h)) hrest)
    rwa [schema_exec hst]

end Statements

/-! ## Revisions -/

/-- A revision of the schema. -/
structure Revision where
  upgrade : List Op
  downgrade : List Op

namespace Revision

/-- What the revision creates. -/
def fragment (r : Revision) : Schema := created r.upgrade

/-- Downgrading drops what upgrading creates, and upgrading does nothing else. -/
def Reverts (r : Revision) : Prop :=
  (∀ op ∈ r.upgrade, op.CreatesIn .empty) ∧ revert r.downgrade r.fragment = some .empty

end Revision

/-- What some revisions create, one after the other. -/
def stack (rs : List Revision) : Schema := rs.foldl (fun s r => s.append r.fragment) .empty

/-- The last revision comes last. -/
theorem stack_concat (rs : List Revision) (r : Revision) :
    stack (rs ++ [r]) = (stack rs).append r.fragment := by
  rw [stack, List.foldl_append]
  rfl

/-- What some revisions create, and then what others do. -/
theorem stack_append (rs rs' : List Revision) :
    stack (rs ++ rs') = (stack rs).append (stack rs') := by
  induction rs' using List.reverseRecOn with
  | nil => rw [List.append_nil, stack, stack, List.foldl_nil, append_empty]
  | append_singleton rs' r ih =>
    rw [← List.append_assoc, stack_concat, ih, stack_concat, append_assoc]

/-- What is apart from more is apart from less. -/
theorem Schema.Apart.of_isPrefix {s : Schema} {rs rs' : List Revision} (h : Apart s (stack rs'))
    (hinit : rs <+: rs') : Apart s (stack rs) := by
  obtain ⟨rest, rfl⟩ := hinit
  rw [stack_append] at h
  exact (apart_append.1 h).1

/-- Some revisions, each of which is good after the ones before. This is decidable for given
    revisions, which are tested on what they build from nothing. -/
structure Chain (rs : List Revision) : Prop where
  reverts : ∀ r ∈ rs, r.Reverts
  /-- The unique indexes are created on tables without rows. -/
  onNew : ∀ r ∈ rs, OnNew [] r.upgrade
  distinct : ∀ (k : ℕ) (r : Revision), rs[k]? = some r →
    ∀ op ∈ r.upgrade, op.CreatesIn (stack (rs.take k))
  builds : ∀ (k : ℕ) (r : Revision), rs[k]? = some r →
    execAll r.upgrade (stack (rs.take k)) = some (stack (rs.take (k + 1)))

/-- The revisions replace no function of a schema. -/
def Fresh (s : Schema) (rs : List Revision) : Prop := ∀ r ∈ rs, ∀ op ∈ r.upgrade, op.CreatesIn s

section Commands

variable {V : Type} [DecidableEq V]

/-- Upgrading, revision by revision. -/
def upgrades (rs : List Revision) (d : Database V) : Option (Database V) :=
  rs.foldlM (fun d r => script r.upgrade d) d

/-- Downgrading again, from the last revision to the first one. -/
def downgrades (rs : List Revision) (d : Database V) : Option (Database V) :=
  rs.reverse.foldlM (fun d r => script r.downgrade d) d

/-- A database, and the number of the revisions that it has been upgraded to. -/
structure World (V : Type) where
  revision : ℕ
  database : Database V

/-- What is done with a database. -/
inductive Command (V : Type)
  /-- To so many revisions at least. -/
  | upgrade (target : ℕ)
  /-- To so many revisions at most. -/
  | downgrade (target : ℕ)
  /-- Statements that are executed together. -/
  | transaction (ss : List (Statement V))

/-- What a command does, if it does not fail. An upgrade to a revision that has been reached does
    nothing, and neither does a downgrade to one that has not. -/
def Command.exec (rs : List Revision) (w : World V) : Command V → Option (World V)
  | .upgrade target =>
    let rs' := (rs.take target).drop w.revision
    (upgrades rs' w.database).map fun d => ⟨w.revision + rs'.length, d⟩
  | .downgrade target =>
    let rs' := (rs.take w.revision).drop target
    (downgrades rs' w.database).map fun d => ⟨w.revision - rs'.length, d⟩
  | .transaction ss => (transact w.database ss).toOption.map fun d => ⟨w.revision, d⟩

/-- The runs of commands that are such, each of which may fail. What fails leaves everything as it
    was, since each command is one transaction of the database. -/
inductive Run (rs : List Revision) (P : World V → Command V → Prop) (w₀ : World V) :
    World V → Prop
  | start : Run rs P w₀ w₀
  | failed {w : World V} {c : Command V} : Run rs P w₀ w → P w c → Run rs P w₀ w
  | step {w w' : World V} {c : Command V} : Run rs P w₀ w → P w c →
      c.exec rs w = some w' → Run rs P w₀ w'

/-- The schema after so many revisions. -/
def schemaAt (s : Schema) (rs : List Revision) (k : ℕ) : Schema := s.append (stack (rs.take k))

/-- The database has the schema of its revision, starting from `s`. At all revisions before that,
    the schema has referred only to what is there, and has had nothing of what was created next. -/
structure Stands (s : Schema) (rs : List Revision) (w : World V) : Prop where
  le : w.revision ≤ rs.length
  schema : w.database.schema = schemaAt s rs w.revision
  closed : ∀ k ≤ w.revision, (schemaAt s rs k).Closed
  apart : ∀ k < w.revision, ∀ r, rs[k]? = some r → Apart (schemaAt s rs k) r.fragment

variable {s : Schema} {rs rs' : List Revision} {r : Revision} {w w' : World V}
  {d d' : Database V} {k : ℕ}

/-- The revisions up to one, and that one. -/
theorem take_succ_of_getElem? (hr : rs[k]? = some r) : rs.take (k + 1) = rs.take k ++ [r] := by
  rw [List.take_add_one, hr]
  rfl

/-- The revision that comes next, and those after it. -/
theorem cons_prefix_drop :
    r :: rs' <+: rs.drop k ↔ rs[k]? = some r ∧ rs' <+: rs.drop (k + 1) := by
  rw [← List.head?_drop, ← List.tail_drop]
  cases rs.drop k with
  | nil => simp
  | cons r' rest => rw [List.cons_prefix_cons, List.head?_cons, Option.some_inj, List.tail_cons,
      eq_comm]

theorem schemaAt_zero : schemaAt s rs 0 = s := append_empty s

theorem schemaAt_succ (hr : rs[k]? = some r) :
    schemaAt s rs (k + 1) = (schemaAt s rs k).append r.fragment := by
  rw [schemaAt, take_succ_of_getElem? hr, stack_concat, ← append_assoc]
  rfl

omit [DecidableEq V] in
/-- The database stands at its beginning. -/
theorem stands_start (hs : d.schema.Closed) : Stands d.schema rs ⟨0, d⟩ where
  le := Nat.zero_le _
  schema := schemaAt_zero.symm
  closed k hk := by
    rwa [Nat.le_zero.1 hk, schemaAt_zero]
  apart _ hk := absurd hk (Nat.not_lt_zero _)

/-- The next revision. -/
theorem Stands.upgrade (h : Stands s rs w) (hchain : Chain rs) (hfresh : Fresh s rs)
    (hr : rs[w.revision]? = some r) (hscript : script r.upgrade w.database = some d') :
    Stands s rs ⟨w.revision + 1, d'⟩ := by
  have hcreates : ∀ op ∈ r.upgrade, op.CreatesIn (schemaAt s rs w.revision) := fun op hop =>
    createsIn_append.2 ⟨hfresh r (List.mem_of_getElem? hr) op hop, hchain.distinct _ r hr op hop⟩
  have hexec := execAll_of_script hscript
  rw [h.schema] at hexec
  obtain ⟨hschema, hapart, hclosed⟩ := execAll_created hcreates (h.closed _ (Nat.le_refl _)) hexec
  refine ⟨(List.getElem?_eq_some_iff.1 hr).1, ?_, fun k hk => ?_, fun k hk r' hr' => ?_⟩
  · exact hschema.trans (schemaAt_succ hr).symm
  · rcases Nat.le_succ_iff.1 hk with hk | rfl
    · exact h.closed k hk
    · rwa [schemaAt_succ hr, Revision.fragment, ← hschema]
  · rcases Nat.lt_succ_iff_lt_or_eq.1 hk with hk | rfl
    · exact h.apart k hk r' hr'
    · cases hr.symm.trans hr'
      exact hapart

/-- The revision before. -/
theorem Stands.downgrade (h : Stands s rs ⟨k + 1, d⟩) (hchain : Chain rs)
    (hr : rs[k]? = some r) :
    ∃ d', script r.downgrade d = some d' ∧ Stands s rs ⟨k, d'⟩ := by
  obtain ⟨-, hrevert⟩ := hchain.reverts r (List.mem_of_getElem? hr)
  have hexec := execAll_of_revert (h.closed k (Nat.le_succ k)) (h.apart k (Nat.lt_succ_self k) r hr)
    hrevert
  rw [append_empty, ← schemaAt_succ hr, ← h.schema] at hexec
  obtain ⟨d', hscript, hschema⟩ := script_of_execAll (admits_of_revert hrevert) hexec
  exact ⟨d', hscript, Nat.le_of_succ_le h.le, hschema,
    fun k' hk' => h.closed k' (Nat.le_succ_of_le hk'),
    fun k' hk' => h.apart k' (Nat.lt_succ_of_lt hk')⟩

/-- An upgrade that succeeds leaves it standing, and the rows there are as they were. -/
theorem Stands.upgrades (h : Stands s rs w) (hchain : Chain rs) (hfresh : Fresh s rs)
    (hrs' : rs' <+: rs.drop w.revision) (hup : upgrades rs' w.database = some d') :
    Stands s rs ⟨w.revision + rs'.length, d'⟩ ∧
      ∀ name, w.database.schema.HasTable name →
        d'.schema.HasTable name ∧ d'.rows name = w.database.rows name := by
  induction rs' generalizing w with
  | nil =>
    cases hup
    exact ⟨h, fun name hname => ⟨hname, rfl⟩⟩
  | cons r rs' ih =>
    obtain ⟨d₁, hscript, hup⟩ := Option.bind_eq_some_iff.1 hup
    obtain ⟨hr, hdrop⟩ := cons_prefix_drop.1 hrs'
    obtain ⟨hstands, hrows⟩ := ih (h.upgrade hchain hfresh hr hscript) hdrop hup
    refine ⟨?_, fun name hname => ?_⟩
    · rwa [List.length_cons, Nat.add_comm rs'.length, ← Nat.add_assoc]
    · have hcreates := (hchain.reverts r (List.mem_of_getElem? hr)).1
      obtain ⟨hname₁, hrows₁⟩ := rows_of_creates (fun op hop => ⟨_, hcreates op hop⟩) hscript hname
      obtain ⟨hname', hrows'⟩ := hrows name hname₁
      exact ⟨hname', hrows'.trans hrows₁⟩

omit [DecidableEq V] in
/-- What the revisions so far have created was not there in the beginning. -/
theorem Stands.apart_stack (h : Stands s rs w) (hk : k ≤ w.revision) :
    Apart s (stack (rs.take k)) := by
  induction k with
  | zero => exact apart_empty
  | succ k ih =>
    obtain ⟨r, hr⟩ : ∃ r, rs[k]? = some r :=
      ⟨_, List.getElem?_eq_getElem (Nat.lt_of_lt_of_le hk h.le)⟩
    rw [take_succ_of_getElem? hr, stack_concat]
    have hfragment := h.apart k hk r hr
    exact apart_append.2 ⟨ih (Nat.le_of_succ_le hk),
      fun name hs hΔ => hfragment.relations name (hasRelation_append.2 (.inl hs)) hΔ,
      fun name hs hΔ => hfragment.functions name (hasFunction_append.2 (.inl hs)) hΔ,
      fun name hs hΔ => hfragment.types name (List.mem_append_left _ hs) hΔ⟩

/-- An upgrade does not fail if nothing has the names of what it creates. -/
theorem exists_upgrades (hchain : Chain rs) (hfresh : Fresh s rs) (hs : s.Closed)
    (hrs' : rs' <+: rs.drop k) (happart : Apart s (stack (rs.take (k + rs'.length))))
    (hd : d.schema = schemaAt s rs k) : ∃ d', upgrades rs' d = some d' := by
  induction rs' generalizing k d with
  | nil => exact ⟨d, rfl⟩
  | cons r rs' ih =>
    obtain ⟨hr, hrs'⟩ := cons_prefix_drop.1 hrs'
    have hcreates := hfresh r (List.mem_of_getElem? hr)
    have hlength : k + (r :: rs').length = k + 1 + rs'.length := by
      rw [List.length_cons, Nat.add_comm rs'.length, Nat.add_assoc]
    rw [hlength] at happart
    have hnext : Apart s (stack (rs.take (k + 1))) :=
      happart.of_isPrefix (List.take_prefix_take_left (Nat.le_add_right ..))
    -- What `r` creates is still apart from the schema, since all that the revisions create is.
    have hfoldl : r.upgrade.foldl Op.effect (stack (rs.take k)) = stack (rs.take (k + 1)) := by
      have h := foldl_effect_append (Δ := .empty) (hchain.distinct k r hr)
      rwa [append_empty, ← created, ← Revision.fragment, ← stack_concat,
        ← take_succ_of_getElem? hr] at h
    have hexec := execAll_append hs hcreates (hfoldl ▸ hnext) (hchain.builds k r hr)
    obtain ⟨d₁, hscript, hd₁⟩ := script_of_onNew (d := d) (fun op hop => ⟨_, hcreates op hop⟩)
      (hchain.onNew r (List.mem_of_getElem? hr)) (by simp)
      (by rwa [hd])
    obtain ⟨d', hup⟩ := ih hrs' happart hd₁
    exact ⟨d', Option.bind_eq_some_iff.2 ⟨d₁, hscript, hup⟩⟩

/-- An upgrade fails exactly if there was something with the name of what it creates. -/
theorem Stands.upgrade_iff {target : ℕ} (h : Stands s rs w) (hchain : Chain rs)
    (hfresh : Fresh s rs) :
    (∃ w', (Command.upgrade target).exec rs w = some w') ↔
      Apart s (stack (rs.take target)) := by
  have hle := h.le
  have hrs' : (rs.take target).drop w.revision <+: rs.drop w.revision :=
    List.drop_take ▸ List.take_prefix ..
  constructor
  · rintro ⟨w', hexec⟩
    obtain ⟨d', hup, rfl⟩ := Option.map_eq_some_iff.1 hexec
    refine ((h.upgrades hchain hfresh hrs' hup).1.apart_stack (Nat.le_refl _)).of_isPrefix ?_
    have htarget : min target rs.length ≤
        w.revision + ((rs.take target).drop w.revision).length := by
      rw [List.length_drop, List.length_take]
      omega
    nth_rewrite 1 [List.take_eq_take_min]
    exact List.take_prefix_take_left htarget
  · intro happart
    obtain ⟨d', hup⟩ : ∃ d', Sql.upgrades ((rs.take target).drop w.revision) w.database =
        some d' := by
      -- A target that has been passed already asks for nothing.
      by_cases htarget : w.revision ≤ target
      · have hs : s.Closed := by
          rw [← (schemaAt_zero : schemaAt s rs 0 = s)]
          exact h.closed 0 (Nat.zero_le _)
        refine exists_upgrades hchain hfresh hs hrs' ?_ h.schema
        refine happart.of_isPrefix (List.take_prefix_take_left ?_)
        rw [List.length_drop, List.length_take]
        omega
      · rw [List.drop_eq_nil_of_le (by rw [List.length_take]; omega)]
        exact ⟨_, rfl⟩
    exact ⟨_, Option.map_eq_some_iff.2 ⟨d', hup, rfl⟩⟩

/-- A downgrade does not fail. -/
theorem Stands.downgrades (h : Stands s rs w) (hchain : Chain rs)
    (hrs' : rs' <:+ rs.take w.revision) :
    ∃ d', downgrades rs' w.database = some d' ∧ Stands s rs ⟨w.revision - rs'.length, d'⟩ ∧
      ∀ name, d'.schema.HasTable name →
        w.database.schema.HasTable name ∧ d'.rows name = w.database.rows name := by
  induction rs' using List.reverseRecOn generalizing w with
  | nil => exact ⟨w.database, rfl, h, fun name hname => ⟨hname, rfl⟩⟩
  | append_singleton rs' r ih =>
    obtain ⟨k, d⟩ := w
    obtain ⟨rest, hrest⟩ := hrs'
    cases k with
    | zero => simp at hrest
    | succ k =>
      obtain ⟨r', hr'⟩ : ∃ r', rs[k]? = some r' := ⟨_, List.getElem?_eq_getElem h.le⟩
      rw [take_succ_of_getElem? hr', ← List.append_assoc] at hrest
      obtain ⟨hsuffix, hr⟩ := List.append_inj' hrest rfl
      cases hr
      -- The last revision is undone first, the others from where that leads.
      obtain ⟨d₁, hscript, hstands⟩ := h.downgrade hchain hr'
      obtain ⟨d', hdown, hstands', hrows⟩ := ih hstands ⟨rest, hsuffix⟩
      refine ⟨d', ?_, ?_, fun name hname => ?_⟩
      · rw [Sql.downgrades, List.reverse_append]
        exact Option.bind_eq_some_iff.2 ⟨d₁, hscript, hdown⟩
      · rwa [List.length_append, List.length_singleton, Nat.add_sub_add_right]
      · have hrevert := (hchain.reverts r (List.mem_of_getElem? hr')).2
        obtain ⟨hname₁, hrows₁⟩ := hrows name hname
        obtain ⟨hname', hrows'⟩ := rows_of_revert hrevert hscript hname₁
        exact ⟨hname', hrows₁.trans hrows'⟩

/-- The database has the schema of its revision after any command. -/
theorem Stands.exec {c : Command V} (h : Stands s rs w) (hchain : Chain rs) (hfresh : Fresh s rs)
    (hexec : c.exec rs w = some w') : Stands s rs w' := by
  cases c with
  | upgrade target =>
    obtain ⟨d', hup, rfl⟩ := Option.map_eq_some_iff.1 hexec
    exact (h.upgrades hchain hfresh (List.drop_take ▸ List.take_prefix ..) hup).1
  | downgrade target =>
    obtain ⟨d', hdown, rfl⟩ := Option.map_eq_some_iff.1 hexec
    obtain ⟨d₁, hdown₁, hstands, -⟩ := h.downgrades hchain (List.drop_suffix target _)
    cases hdown₁.symm.trans hdown
    exact hstands
  | transaction ss =>
    obtain ⟨d', hss, rfl⟩ := Option.map_eq_some_iff.1 hexec
    -- No statement of a transaction changes the schema, whether it commits or not.
    have hschema : d'.schema = w.database.schema := by
      cases htransact : transact w.database ss with
      | error e =>
        rw [htransact] at hss
        cases hss
      | ok d =>
        rw [htransact] at hss
        cases hss
        exact schema_transact htransact
    exact ⟨h.le, hschema.trans h.schema, h.closed, h.apart⟩

variable {P : World V → Command V → Prop} {w₀ : World V}

/-- So it stands in the whole of a run. -/
theorem Run.stands (h : Run rs P w₀ w) (hchain : Chain rs) (hfresh : Fresh s rs)
    (h₀ : Stands s rs w₀) : Stands s rs w := by
  induction h with
  | start => exact h₀
  | failed _ _ ih => exact ih
  | step _ _ hexec ih => exact ih.exec hchain hfresh hexec

/-! ### Rows that stay -/

/-- The command does not go below so many revisions, and does not truncate the table. -/
def Keeps (k : ℕ) (table : String) : Command V → Prop
  | .upgrade _ => True
  | .downgrade target => k ≤ target
  | .transaction ss => ∀ tables, .truncate tables ∈ ss → table ∉ tables

/-- Where a table is guarded from some revision on, a command that does not go below that
    leaves the rows in it. -/
theorem Stands.rows_isPrefix {c : Command V} {table : String} (h : Stands s rs w)
    (hchain : Chain rs) (hfresh : Fresh s rs) (hk : k ≤ w.revision)
    (hguards : ∀ w : World V, Stands s rs w → k ≤ w.revision → w.database.schema.Guards table)
    (hc : Keeps k table c) (hexec : c.exec rs w = some w') :
    k ≤ w'.revision ∧ w.database.rows table <+: w'.database.rows table := by
  have hguarded : w.database.schema.Guards table := hguards w h hk
  cases c with
  | upgrade target =>
    obtain ⟨d', hup, rfl⟩ := Option.map_eq_some_iff.1 hexec
    obtain ⟨-, hrows⟩ :=
      (h.upgrades hchain hfresh (List.drop_take ▸ List.take_prefix ..) hup).2 table hguarded.1
    exact ⟨Nat.le_add_right_of_le hk, by simp [hrows]⟩
  | downgrade target =>
    obtain ⟨d', hdown, rfl⟩ := Option.map_eq_some_iff.1 hexec
    obtain ⟨d₁, hdown₁, hstands, hrows⟩ := h.downgrades hchain (List.drop_suffix target _)
    cases hdown₁.symm.trans hdown
    have hk' : k ≤ w.revision - ((rs.take w.revision).drop target).length := by
      have hle := h.le
      have hc : k ≤ target := hc
      rw [List.length_drop, List.length_take]
      omega
    have hname : d'.schema.HasTable table := (hguards _ hstands hk').1
    exact ⟨hk', by simp [(hrows table hname).2]⟩
  | transaction ss =>
    obtain ⟨d', hss, rfl⟩ := Option.map_eq_some_iff.1 hexec
    refine ⟨hk, ?_⟩
    cases htransact : transact w.database ss with
    | error e =>
      rw [htransact] at hss
      cases hss
    | ok d =>
      rw [htransact] at hss
      cases hss
      exact rows_prefix_transact hguarded hc htransact

/-- The rows of a guarded table stay in a run. -/
theorem Run.rows_isPrefix {table : String} (h : Run rs (fun _ c => Keeps k table c) w₀ w)
    (hchain : Chain rs) (hfresh : Fresh s rs) (h₀ : Stands s rs w₀) (hk : k ≤ w₀.revision)
    (hguards : ∀ w : World V, Stands s rs w → k ≤ w.revision → w.database.schema.Guards table) :
    k ≤ w.revision ∧ w₀.database.rows table <+: w.database.rows table := by
  induction h with
  | start => exact ⟨hk, List.prefix_rfl⟩
  | failed _ _ ih => exact ih
  | step hrun hc hexec ih =>
    obtain ⟨hle, hinit⟩ := ih
    obtain ⟨hle', hinit'⟩ :=
      (hrun.stands hchain hfresh h₀).rows_isPrefix hchain hfresh hle hguards hc hexec
    exact ⟨hle', hinit.trans hinit'⟩

end Commands

end Sql
