import Mathlib.Data.List.Chain
import OpenDataGov.Core.Models
import OpenDataGov.Lib.Dict

/-!
# Breaking changes of data contracts

The detection of breaking changes between two versions of the schema of a data
contract, and what becomes of a change: it is approved automatically, or by the
RACI roles (`evaluateContractChange`).

The detection looks columns up by their names, in dictionaries that it makes of the two schemas, so
that of columns with one name it has the last one. What it detects is compared with a relation
between schemas that says what it is for (`NonBreaking`: every old column is there, with its type
and no less often null, and a new column may be null). This is a preorder, which is why chains of
changes are no more than changes.

* `hasBreaking_eq_false_iff`: a change breaks nothing when the columns of the old schema
  are extended by the new one (`NonBreaking`), which is a preorder;
* `hasBreaking_chain`: changes that break nothing do not add up to one that does;
* `requiresApproval_chain`: nor do changes that are approved automatically;
* `governanceAction_eq_vetoEligible_iff`: a change can be vetoed when a column is removed;
* `same_of_noChange_iff`: which changes go unnoticed;
* `conforms_restrict_iff`: what a change that breaks nothing means for the rows of a
  dataset (`Conforms`), read by the old schema.

What the values of a type are is a parameter of the results about rows.
-/

namespace OpenDataGov

open Keyed

/-! ## Detection -/

namespace Contracts

/-- A change of the columns. -/
inductive Change
  | columnRemoved (column : Bounded 1 200)
  | nonNullableColumnAdded (column : Bounded 1 200)
  | nullableColumnAdded (column : Bounded 1 200)
  | typeChanged (column : Bounded 1 200) (oldType newType : Bounded 1 50)
  | nullableToNonNullable (column : Bounded 1 200)
  deriving DecidableEq

/-- The `type` of a change, as it is reported. -/
def Change.type : Change → String
  | .columnRemoved _ => "column_removed"
  | .nonNullableColumnAdded _ => "non_nullable_column_added"
  | .nullableColumnAdded _ => "nullable_column_added"
  | .typeChanged _ _ _ => "type_changed"
  | .nullableToNonNullable _ => "nullable_to_non_nullable"

/-- The changes found between two schemas. -/
structure ChangeAnalysis where
  hasBreaking : Bool
  breakingChanges : List Change
  nonBreakingChanges : List Change
  deriving DecidableEq

/-- What a column that exists only in the new schema appends to the breaking and to the
    non-breaking changes. -/
def classifyNewColumn (name : Bounded 1 200) (newCol : ColumnDefinition) :
    List Change × List Change :=
  if !newCol.nullable then ([.nonNullableColumnAdded name], [])
  else ([], [.nullableColumnAdded name])

/-- What a column that exists in both schemas appends to the breaking changes. -/
def classifyModifiedColumn (name : Bounded 1 200) (oldCol newCol : ColumnDefinition) :
    List Change :=
  (if oldCol.dataType ≠ newCol.dataType then
    [.typeChanged name oldCol.dataType newCol.dataType] else []) ++
  (if oldCol.nullable && !newCol.nullable then [.nullableToNonNullable name] else [])

/-- `{col.name: col for col in schema.columns}` -/
def columnsByName (schema : DataContractSchema) : Dict (Bounded 1 200) ColumnDefinition :=
  .ofList (schema.columns.map fun col => (col.name, col))

/-- Comparing two versions of a schema and classifying the changes. -/
def detectBreakingChanges (oldSchema newSchema : DataContractSchema) : ChangeAnalysis :=
  let oldCols := columnsByName oldSchema
  let newCols := columnsByName newSchema
  let removed := oldCols.rows.flatMap fun kv =>
    if newCols.find? kv.1 = none then [Change.columnRemoved kv.1] else []
  let classified := newCols.rows.map fun kv =>
    match oldCols.find? kv.1 with
    | none => classifyNewColumn kv.1 kv.2
    | some oldCol => (classifyModifiedColumn kv.1 oldCol kv.2, [])
  let breaking := removed ++ classified.flatMap Prod.fst
  let nonBreaking := classified.flatMap Prod.snd
  { hasBreaking := 0 < breaking.length
    breakingChanges := breaking
    nonBreakingChanges := nonBreaking }

/-- What is to be done about a change. -/
inductive GovernanceAction
  | noChange
  | autoApprove
  | raciApproval
  | vetoEligible
  deriving DecidableEq

/-- The changes between two schemas, and what is to be done about them. -/
structure ContractEvaluation where
  requiresApproval : Bool
  changeAnalysis : ChangeAnalysis
  governanceAction : GovernanceAction
  breakingChangeCount : Option ℕ
  deriving DecidableEq

/-- Evaluating the change of the schema of a contract. -/
def evaluateContractChange (oldSchema newSchema : DataContractSchema) : ContractEvaluation :=
  let analysis := detectBreakingChanges oldSchema newSchema
  if !analysis.hasBreaking && analysis.nonBreakingChanges.isEmpty then
    ⟨false, analysis, .noChange, none⟩
  else if !analysis.hasBreaking then ⟨false, analysis, .autoApprove, none⟩
  else
    let hasColumnRemoval := analysis.breakingChanges.any fun c => c.type = "column_removed"
    ⟨true, analysis, if hasColumnRemoval then .vetoEligible else .raciApproval,
      some analysis.breakingChanges.length⟩

/-! ## Non-breaking changes -/

/-- The column keeps its type, and stays nullable if it was. -/
def Keeps (oldCol newCol : ColumnDefinition) : Prop :=
  newCol.dataType = oldCol.dataType ∧ (oldCol.nullable = true → newCol.nullable = true)

/-- The new schema keeps the columns of the old one, and adds only nullable ones. -/
def NonBreaking (oldSchema newSchema : DataContractSchema) : Prop :=
  Dict.Extends Keeps (fun col => col.nullable = true) (columnsByName oldSchema)
    (columnsByName newSchema)

variable {s t u : DataContractSchema} {name : Bounded 1 200} {oldCol newCol : ColumnDefinition}

/-- A new column breaks nothing if it may be null, -/
theorem classifyNewColumn_eq_nil :
    (classifyNewColumn name newCol).1 = [] ↔ newCol.nullable = true := by
  rw [classifyNewColumn]
  cases newCol.nullable <;> simp

/-- and another one if it is kept. -/
theorem classifyModifiedColumn_eq_nil :
    classifyModifiedColumn name oldCol newCol = [] ↔ Keeps oldCol newCol := by
  simp only [classifyModifiedColumn, Keeps, List.append_eq_nil_iff, ite_eq_right_iff,
    reduceCtorEq, imp_false, not_not, Bool.and_eq_true, Bool.not_eq_true', not_and,
    Bool.not_eq_false]
  rw [eq_comm]

/-- A change has nothing breaking exactly if it only extends the columns. -/
theorem hasBreaking_eq_false_iff :
    (detectBreakingChanges s t).hasBreaking = false ↔ NonBreaking s t := by
  have hremoved : ∀ kv : Bounded 1 200 × ColumnDefinition,
      (if (columnsByName t).find? kv.1 = none then [Change.columnRemoved kv.1] else []) = [] ↔
        (columnsByName t).find? kv.1 ≠ none := by
    intro kv
    split_ifs with h <;> simp [h]
  simp only [detectBreakingChanges, decide_eq_false_iff_not, Nat.not_lt, Nat.le_zero,
    List.length_eq_zero_iff, List.append_eq_nil_iff, List.flatMap_eq_nil_iff, hremoved,
    List.forall_mem_map, Prod.forall, ← Dict.find?_eq_some]
  constructor
  -- A column of the new schema is classified by whether the old one has its name.
  · rintro ⟨hkept, hclassified⟩
    refine ⟨fun name oldCol hold => ?_, fun name newCol hnew hnone => ?_⟩
    · obtain ⟨newCol, hnew⟩ := Option.ne_none_iff_exists'.1 (hkept name oldCol hold)
      have h := hclassified name newCol hnew
      rw [hold] at h
      exact ⟨newCol, hnew, classifyModifiedColumn_eq_nil.1 h⟩
    · have h := hclassified name newCol hnew
      rw [hnone] at h
      exact classifyNewColumn_eq_nil.1 h
  · rintro ⟨hkept, hadded⟩
    refine ⟨fun name oldCol hold => ?_, fun name newCol hnew => ?_⟩
    · obtain ⟨newCol, hnew, _⟩ := hkept name oldCol hold
      simp [hnew]
    · cases hold : (columnsByName s).find? name with
      | none => exact classifyNewColumn_eq_nil.2 (hadded name newCol hnew hold)
      | some oldCol =>
        obtain ⟨newCol', hnew', hkeeps⟩ := hkept name oldCol hold
        obtain rfl := Option.some.inj (hnew.symm.trans hnew')
        exact classifyModifiedColumn_eq_nil.2 hkeeps

theorem Keeps.refl (col : ColumnDefinition) : Keeps col col := ⟨rfl, id⟩

theorem Keeps.trans {a b c : ColumnDefinition} (h : Keeps a b) (h' : Keeps b c) : Keeps a c :=
  ⟨h'.1.trans h.1, h'.2 ∘ h.2⟩

theorem NonBreaking.refl (s : DataContractSchema) : NonBreaking s s :=
  Dict.Extends.refl Keeps.refl

theorem NonBreaking.trans (h : NonBreaking s t) (h' : NonBreaking t u) : NonBreaking s u :=
  Dict.Extends.trans (fun _ _ _ => Keeps.trans) (fun _ _ h => h.2) h h'

instance : IsPreorder DataContractSchema NonBreaking where
  refl := NonBreaking.refl
  trans _ _ _ := NonBreaking.trans

/-- Along a chain of changes none of which breaks anything, nothing is broken. -/
theorem NonBreaking.getLast {l : List DataContractSchema}
    (h : List.IsChain NonBreaking (s :: l)) :
    NonBreaking s ((s :: l).getLast (List.cons_ne_nil s l)) := by
  have hreach := List.relationReflTransGen_of_exists_isChain_cons l h rfl
  rwa [Relation.reflTransGen_eq_self] at hreach

/-- A schema does not break itself, and changes that break nothing do not add up to one
    that does. -/
theorem hasBreaking_chain :
    (∀ s, (detectBreakingChanges s s).hasBreaking = false) ∧
      ∀ (s : DataContractSchema) (l : List DataContractSchema),
        List.IsChain (fun s t => (detectBreakingChanges s t).hasBreaking = false) (s :: l) →
        (detectBreakingChanges s ((s :: l).getLast (List.cons_ne_nil s l))).hasBreaking =
          false := by
  simp only [hasBreaking_eq_false_iff]
  exact ⟨NonBreaking.refl, fun _ _ => NonBreaking.getLast⟩

/-! ### Approval -/

/-- A change has to be approved exactly if it breaks something. -/
theorem requiresApproval_eq :
    (evaluateContractChange s t).requiresApproval = (detectBreakingChanges s t).hasBreaking := by
  rw [evaluateContractChange]
  cases (detectBreakingChanges s t).hasBreaking with
  | true => rfl
  | false =>
    simp only [Bool.not_false, Bool.true_and, if_true]
    split <;> rfl

/-- Changes that do not have to be approved do not add up to one that does. -/
theorem requiresApproval_chain {l : List DataContractSchema}
    (h : List.IsChain (fun s t => (evaluateContractChange s t).requiresApproval = false)
      (s :: l)) :
    (evaluateContractChange s ((s :: l).getLast (List.cons_ne_nil s l))).requiresApproval =
      false := by
  simp only [requiresApproval_eq, hasBreaking_eq_false_iff] at h ⊢
  exact NonBreaking.getLast h

/-- The changes of this type are those that remove a column. -/
theorem type_eq_columnRemoved {c : Change} :
    c.type = "column_removed" ↔ ∃ name, c = .columnRemoved name := by
  cases c <;> simp [Change.type]

/-- The columns reported as removed are those that the new schema does not have. -/
theorem columnRemoved_mem : .columnRemoved name ∈ (detectBreakingChanges s t).breakingChanges ↔
    ∃ col, (columnsByName s).find? name = some col ∧ (columnsByName t).find? name = none := by
  -- Nothing else is reported so.
  have hnew : ∀ {name' col}, .columnRemoved name ∉ (classifyNewColumn name' col).1 := by
    intro name' col
    rw [classifyNewColumn]
    split <;> simp
  have hmodified : ∀ {name' col col'},
      .columnRemoved name ∉ classifyModifiedColumn name' col col' := by
    intro name' col col'
    rw [classifyModifiedColumn]
    split <;> split <;> simp
  simp only [detectBreakingChanges, List.mem_append, List.mem_flatMap, List.mem_map, Prod.exists]
  constructor
  · rintro (⟨name', col, hold, hmem⟩ | ⟨changes, _, ⟨name', col, _, heq⟩, hmem⟩)
    · split_ifs at hmem with hnone
      · obtain rfl := Change.columnRemoved.inj (List.mem_singleton.1 hmem)
        exact ⟨col, Dict.find?_eq_some.2 hold, hnone⟩
      · cases hmem
    · split at heq
      · obtain rfl : (classifyNewColumn name' col).1 = changes := congrArg Prod.fst heq
        exact absurd hmem hnew
      · obtain rfl : classifyModifiedColumn name' _ col = changes := congrArg Prod.fst heq
        exact absurd hmem hmodified
  · rintro ⟨col, hold, hnone⟩
    refine .inl ⟨name, col, Dict.find?_eq_some.1 hold, ?_⟩
    rw [if_pos hnone]
    exact List.mem_singleton_self _

/-- A change can be vetoed exactly if a column is removed. -/
theorem governanceAction_eq_vetoEligible_iff :
    (evaluateContractChange s t).governanceAction = .vetoEligible ↔
      ∃ name col, (columnsByName s).find? name = some col ∧
        (columnsByName t).find? name = none := by
  have hany : (detectBreakingChanges s t).breakingChanges.any
        (fun c => c.type = "column_removed") = true ↔
      ∃ name, .columnRemoved name ∈ (detectBreakingChanges s t).breakingChanges := by
    simp only [List.any_eq_true, decide_eq_true_eq, type_eq_columnRemoved]
    exact ⟨fun ⟨_, hmem, name, h⟩ => ⟨name, h ▸ hmem⟩, fun ⟨name, hmem⟩ => ⟨_, hmem, name, rfl⟩⟩
  simp only [← columnRemoved_mem, ← hany]
  have hbreaking : (detectBreakingChanges s t).hasBreaking =
      decide (0 < (detectBreakingChanges s t).breakingChanges.length) := rfl
  rw [evaluateContractChange]
  by_cases hnil : (detectBreakingChanges s t).breakingChanges = []
  · rw [hnil] at hbreaking ⊢
    simp only [hbreaking, List.length_nil, Nat.lt_irrefl, decide_false, Bool.not_false,
      Bool.true_and, if_true, List.any_nil]
    split <;> simp
  · rw [decide_eq_true (List.length_pos_of_ne_nil hnil)] at hbreaking
    simp [hbreaking]

/-! ### Contacts -/

namespace Contacts

/-- The address of a contact. -/
def email (nullable : Bool) : ColumnDefinition where
  name := ⟨"email", by decide⟩
  dataType := ⟨"string", by decide⟩
  nullable := nullable
  description := ""
  pii := true

/-- What one may note about a contact. -/
def notes : ColumnDefinition := { email true with name := ⟨"notes", by decide⟩, pii := false }

/-- The schema with these columns. -/
def schema (columns : List ColumnDefinition) : DataContractSchema := ⟨columns, []⟩

/-- Notes are added, and then addresses may be left out. -/
theorem hasBreaking_notes : (detectBreakingChanges (schema [email false])
    (schema [email true, notes])).hasBreaking = false :=
  hasBreaking_chain.2 (schema [email false])
    [schema [email false, notes], schema [email true, notes]] (by decide)

end Contacts

/-! ### What goes unnoticed -/

/-- A column is removed or added, or one that both schemas have does not keep its type or
    may no longer be null. -/
def Noticed (oldSchema newSchema : DataContractSchema) : Prop :=
  (∃ oldCol ∈ oldSchema.columns, ∀ newCol ∈ newSchema.columns, newCol.name ≠ oldCol.name) ∨
  (∃ newCol ∈ newSchema.columns, ∀ oldCol ∈ oldSchema.columns, newCol.name ≠ oldCol.name) ∨
  ∃ oldCol ∈ oldSchema.columns, ∃ newCol ∈ newSchema.columns,
    newCol.name = oldCol.name ∧ ¬Keeps oldCol newCol

/-- The schemas agree in what is compared nowhere: in the primary keys, and for a column
    that both have, in the description, in being personal, and in not being nullable where
    the old one is not. -/
structure AgreeUnnoticed (oldSchema newSchema : DataContractSchema) : Prop where
  primaryKey : newSchema.primaryKey = oldSchema.primaryKey
  columns : ∀ oldCol ∈ oldSchema.columns, ∀ newCol ∈ newSchema.columns,
    newCol.name = oldCol.name → newCol.description = oldCol.description ∧
      newCol.pii = oldCol.pii ∧ (newCol.nullable = true → oldCol.nullable = true)

/-- The schemas have the same columns, with all that is said of them, and the same
    primary key. -/
structure SameSchema (oldSchema newSchema : DataContractSchema) : Prop where
  columns : ∀ col, col ∈ oldSchema.columns ↔ col ∈ newSchema.columns
  primaryKey : oldSchema.primaryKey = newSchema.primaryKey

variable {col : ColumnDefinition}

/-- What goes unnoticed: no column is added or removed, and each is kept. -/
theorem not_noticed_iff : ¬Noticed s t ↔
    (∀ oldCol ∈ s.columns, ∃ newCol ∈ t.columns, newCol.name = oldCol.name) ∧
    (∀ newCol ∈ t.columns, ∃ oldCol ∈ s.columns, newCol.name = oldCol.name) ∧
    ∀ oldCol ∈ s.columns, ∀ newCol ∈ t.columns, newCol.name = oldCol.name →
      Keeps oldCol newCol := by
  rw [Noticed, not_or, not_or]
  push Not
  rfl

/-- If no two columns have the same name, each is found by its own. -/
theorem find?_columnsByName (hs : (s.columns.map ColumnDefinition.name).Nodup) :
    (columnsByName s).find? name = some col ↔ col ∈ s.columns ∧ col.name = name := by
  have hnodup : ((s.columns.map fun col => (col.name, col)).map Prod.fst).Nodup := by
    rwa [List.map_map]
  rw [columnsByName, Dict.find?_ofList_of_nodup hnodup]
  simp [and_comm]

/-- A column is kept by a change that breaks nothing. -/
theorem NonBreaking.exists_keeps (hs : (s.columns.map ColumnDefinition.name).Nodup)
    (ht : (t.columns.map ColumnDefinition.name).Nodup) (h : NonBreaking s t)
    (hcol : col ∈ s.columns) : ∃ col' ∈ t.columns, col'.name = col.name ∧ Keeps col col' := by
  obtain ⟨col', hcol', hkeeps⟩ := h.kept _ _ ((find?_columnsByName hs).2 ⟨hcol, rfl⟩)
  obtain ⟨hmem, hname⟩ := (find?_columnsByName ht).1 hcol'
  exact ⟨col', hmem, hname, hkeeps⟩

attribute [ext] ColumnDefinition

/-- A new column that may be null is reported, as one that breaks nothing. -/
theorem classifyNewColumn_ne_nil (h : newCol.nullable = true) :
    (classifyNewColumn name newCol).2 ≠ [] := by
  rw [classifyNewColumn, h]
  exact List.cons_ne_nil _ _

/-- Nothing is to be done about a change exactly if it breaks nothing and adds nothing. -/
theorem governanceAction_eq_noChange :
    (evaluateContractChange s t).governanceAction = .noChange ↔ NonBreaking s t ∧
      ∀ name col, (columnsByName t).find? name = some col →
        (columnsByName s).find? name ≠ none := by
  have haction : (evaluateContractChange s t).governanceAction = .noChange ↔
      (detectBreakingChanges s t).hasBreaking = false ∧
        (detectBreakingChanges s t).nonBreakingChanges = [] := by
    rw [evaluateContractChange, ← List.isEmpty_iff]
    cases (detectBreakingChanges s t).hasBreaking <;>
      cases (detectBreakingChanges s t).nonBreakingChanges.isEmpty <;> simp
    all_goals split <;> simp
  rw [haction, hasBreaking_eq_false_iff]
  refine and_congr_right fun h => ?_
  simp only [detectBreakingChanges, List.flatMap_eq_nil_iff, List.forall_mem_map, Prod.forall,
    ← Dict.find?_eq_some]
  refine forall₃_congr fun name col hcol => ?_
  cases hold : (columnsByName s).find? name with
  | none => simp [classifyNewColumn_ne_nil (h.added name col hcol hold)]
  | some oldCol => simp

/-- Of schemas whose columns have different names, nothing is to be done about a change
    exactly if it is not noticed. -/
theorem governanceAction_eq_noChange_iff (hs : (s.columns.map ColumnDefinition.name).Nodup)
    (ht : (t.columns.map ColumnDefinition.name).Nodup) :
    (evaluateContractChange s t).governanceAction = .noChange ↔ ¬Noticed s t := by
  rw [governanceAction_eq_noChange]
  constructor
  · rintro ⟨h, hadded⟩ (⟨oldCol, hold, hne⟩ | ⟨newCol, hnew, hne⟩ |
      ⟨oldCol, hold, newCol, hnew, hname, hnot⟩)
    · obtain ⟨newCol, hnew, hname, _⟩ := h.exists_keeps hs ht hold
      exact hne newCol hnew hname
    · have hfind := hadded _ _ ((find?_columnsByName ht).2 ⟨hnew, rfl⟩)
      obtain ⟨oldCol, hold⟩ := Option.ne_none_iff_exists'.1 hfind
      obtain ⟨hmem, hname⟩ := (find?_columnsByName hs).1 hold
      exact hne oldCol hmem hname.symm
    · obtain ⟨newCol', hnew', hname', hkeeps⟩ := h.exists_keeps hs ht hold
      have heq := ((find?_columnsByName ht).2 ⟨hnew, hname⟩).symm.trans
        ((find?_columnsByName ht).2 ⟨hnew', hname'⟩)
      exact hnot (Option.some.inj heq ▸ hkeeps)
  · intro h
    obtain ⟨hkept, hadded, hkeeps⟩ := not_noticed_iff.1 h
    -- All columns of the new contract are in the old one, so none counts as added.
    have hin : ∀ name col, (columnsByName t).find? name = some col →
        (columnsByName s).find? name ≠ none := by
      intro name newCol hnew
      obtain ⟨hmem, rfl⟩ := (find?_columnsByName ht).1 hnew
      obtain ⟨oldCol, hold, hname⟩ := hadded newCol hmem
      rw [hname, (find?_columnsByName hs).2 ⟨hold, rfl⟩]
      exact Option.some_ne_none _
    refine ⟨⟨fun name oldCol hold => ?_, fun name col hcol hnone => ?_⟩, hin⟩
    · obtain ⟨hmem, rfl⟩ := (find?_columnsByName hs).1 hold
      obtain ⟨newCol, hnew, hname⟩ := hkept oldCol hmem
      exact ⟨newCol, (find?_columnsByName ht).2 ⟨hnew, hname⟩,
        hkeeps oldCol hmem newCol hnew hname⟩
    · exact absurd hnone (hin name col hcol)

/-- A change that is not noticed leaves the schema the same exactly if the schemas agree in
    what is compared nowhere. -/
theorem sameSchema_iff (ht : (t.columns.map ColumnDefinition.name).Nodup) (h : ¬Noticed s t) :
    SameSchema s t ↔ AgreeUnnoticed s t := by
  obtain ⟨hkept, hadded, hkeeps⟩ := not_noticed_iff.1 h
  constructor
  · refine fun hsame => ⟨hsame.primaryKey.symm, fun oldCol hold newCol hnew hname => ?_⟩
    obtain rfl := List.inj_on_of_nodup_map ht hnew ((hsame.columns oldCol).1 hold) hname
    exact ⟨rfl, rfl, id⟩
  · intro hagree
    -- What is compared and what is not are all the fields of a column.
    have heq : ∀ oldCol ∈ s.columns, ∀ newCol ∈ t.columns, newCol.name = oldCol.name →
        newCol = oldCol := by
      intro oldCol hold newCol hnew hname
      obtain ⟨htype, hnullable⟩ := hkeeps oldCol hold newCol hnew hname
      obtain ⟨hdescription, hpii, hnullable'⟩ := hagree.columns oldCol hold newCol hnew hname
      exact ColumnDefinition.ext hname htype (Bool.eq_iff_iff.2 ⟨hnullable', hnullable⟩)
        hdescription hpii
    refine ⟨fun col => ⟨fun hcol => ?_, fun hcol => ?_⟩, hagree.primaryKey.symm⟩
    · obtain ⟨newCol, hnew, hname⟩ := hkept col hcol
      exact heq col hcol newCol hnew hname ▸ hnew
    · obtain ⟨oldCol, hold, hname⟩ := hadded col hcol
      exact heq oldCol hold col hcol hname ▸ hold

/-- A change about which nothing is to be done leaves the schema the same exactly if a
    change is noticed, or there is none in what is compared nowhere. -/
theorem same_of_noChange_iff (hs : (s.columns.map ColumnDefinition.name).Nodup)
    (ht : (t.columns.map ColumnDefinition.name).Nodup) :
    ((evaluateContractChange s t).governanceAction = .noChange → SameSchema s t) ↔
      Noticed s t ∨ AgreeUnnoticed s t := by
  rw [governanceAction_eq_noChange_iff hs ht]
  by_cases h : Noticed s t
  · simp [h]
  · simp [h, sameSchema_iff ht h]

namespace Contacts

/-- The address of a contact, with a description. -/
def described : ColumnDefinition := { email false with description := "Work address" }

/-- The columns change places, and nothing is to be done. -/
theorem same_of_swap : SameSchema (schema [email false, notes]) (schema [notes, email false]) := by
  refine (same_of_noChange_iff (by decide) (by decide)).2 (.inr ⟨rfl, ?_⟩) (by decide)
  decide

/-- A description changes, and nothing is to be done. -/
theorem not_same : ¬∀ s t : DataContractSchema, (s.columns.map ColumnDefinition.name).Nodup →
    (t.columns.map ColumnDefinition.name).Nodup →
    (evaluateContractChange s t).governanceAction = .noChange → SameSchema s t := by
  intro h
  have hsame := h (schema [email false]) (schema [described]) (by decide) (by decide) (by decide)
  have hmem := (hsame.columns described).2 (List.mem_singleton_self _)
  exact absurd (congrArg ColumnDefinition.description (List.mem_singleton.1 hmem)) (by decide)

end Contacts

/-! ## Rows -/

/-- A row of a dataset: for a column that it has, a value or null. -/
abbrev Row (V : Type) := Bounded 1 200 → Option (Option V)

/-- The row with only the columns of the schema. -/
def Row.restrict {V : Type} (row : Row V) (schema : DataContractSchema) : Row V :=
  fun name => if ∃ col ∈ schema.columns, col.name = name then row name else none

/-- The row has a value or null for every column: values of the type of the column, and
    null only where it is nullable. -/
structure Conforms {V : Type} (HasType : V → Bounded 1 50 → Prop) (row : Row V)
    (schema : DataContractSchema) : Prop where
  present : ∀ col ∈ schema.columns, row col.name ≠ none
  typed : ∀ col ∈ schema.columns, ∀ v, row col.name = some (some v) → HasType v col.dataType
  nulls : ∀ col ∈ schema.columns, row col.name = some none → col.nullable = true

variable {V : Type} {HasType : V → Bounded 1 50 → Prop} {row : Row V}

/-- Reading a row by a schema keeps the columns of the schema. -/
theorem restrict_of_mem (hcol : col ∈ s.columns) : row.restrict s col.name = row col.name := by
  rw [Row.restrict, if_pos ⟨col, hcol, rfl⟩]

/-- After a change that breaks nothing, a row of the new schema, restricted to the columns
    of the old one, conforms to it exactly if it has no null where the old schema does not
    allow it. -/
theorem conforms_restrict_iff (hs : (s.columns.map ColumnDefinition.name).Nodup)
    (ht : (t.columns.map ColumnDefinition.name).Nodup)
    (h : (detectBreakingChanges s t).hasBreaking = false) (hrow : Conforms HasType row t) :
    Conforms HasType (row.restrict s) s ↔
      ∀ col ∈ s.columns, col.nullable = false → row col.name ≠ some none := by
  -- Each column of the old contract is kept, at most with fewer demands on nulls.
  have hkept := fun col (hcol : col ∈ s.columns) =>
    (hasBreaking_eq_false_iff.1 h).exists_keeps hs ht hcol
  constructor
  · intro hold col hcol hnonNullable hnull
    have hnullable := hold.nulls col hcol (by rwa [restrict_of_mem hcol])
    exact absurd (hnullable.symm.trans hnonNullable) (by decide)
  · intro hnulls
    refine ⟨fun col hcol => ?_, fun col hcol v hv => ?_, fun col hcol hnull => ?_⟩
    · obtain ⟨col', hcol', hname, _⟩ := hkept col hcol
      rw [restrict_of_mem hcol, ← hname]
      exact hrow.present col' hcol'
    · obtain ⟨col', hcol', hname, htype, _⟩ := hkept col hcol
      rw [restrict_of_mem hcol, ← hname] at hv
      exact htype ▸ hrow.typed col' hcol' v hv
    · rw [restrict_of_mem hcol] at hnull
      by_contra hnot
      exact hnulls col hcol (Bool.eq_false_of_not_eq_true hnot) hnull

namespace Contacts

/-- Values are strings. -/
def IsString (_ : String) (dataType : Bounded 1 50) : Prop := dataType.text = "string"

/-- A contact that has everything. -/
def ada : Row String := fun _ => some (some "ada")

/-- A contact without an address. -/
def unknown : Row String := fun _ => some none

/-- A row with a column that the schema does not have. -/
theorem conforms_ada : Conforms IsString (ada.restrict (schema [email false]))
    (schema [email false]) := by
  have hnew : Conforms IsString ada (schema [email true, notes]) := by
    refine ⟨fun _ _ h => Option.some_ne_none _ h, fun col hcol _ _ => ?_, fun _ _ h => ?_⟩
    · simp only [schema, List.mem_cons, List.not_mem_nil, or_false] at hcol
      rcases hcol with rfl | rfl <;> rfl
    · cases Option.some.inj h
  refine (conforms_restrict_iff (by decide) (by decide) (by decide) hnew).2 ?_
  intro _ _ _ h
  cases Option.some.inj h

/-- Once addresses may be left out, there are rows that the old schema does not allow. -/
theorem not_conforms_unknown : ¬∀ (V : Type) (HasType : V → Bounded 1 50 → Prop)
    (s t : DataContractSchema), (s.columns.map ColumnDefinition.name).Nodup →
    (t.columns.map ColumnDefinition.name).Nodup →
    (detectBreakingChanges s t).hasBreaking = false →
    ∀ row : Row V, Conforms HasType row t → Conforms HasType (row.restrict s) s := by
  intro h
  have hnew : Conforms IsString unknown (schema [email true]) := by
    refine ⟨fun _ _ h => Option.some_ne_none _ h, fun _ _ _ h => ?_, fun col hcol _ => ?_⟩
    · cases Option.some.inj h
    · simp only [schema, List.mem_cons, List.not_mem_nil, or_false] at hcol
      exact hcol ▸ rfl
  have hold := h String IsString (schema [email false]) (schema [email true]) (by decide)
    (by decide) (by decide) unknown hnew
  have hnull : unknown.restrict (schema [email false]) (email false).name = some none := rfl
  exact absurd (hold.nulls (email false) (by simp [schema]) hnull) (by decide)

end Contacts

end Contracts

end OpenDataGov
