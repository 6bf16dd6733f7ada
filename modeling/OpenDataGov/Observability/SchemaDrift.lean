import Mathlib.Data.Finset.Sort
import Mathlib.Data.String.Basic
import OpenDataGov.Contracts.Validator

/-!
# Schema drift

The columns that a dataset should have against those that it has (`detectSchemaDrift`), and
how this goes with the validation of the columns against a contract (`validateData`).

The report is made from sets of names, and sorted, so that repeated columns and the order of
the columns do not matter. The validation goes over the columns one by one, and looks them up in
dictionaries. That both find the same is a matter of membership, since both lists of
differences have each name once.

* `patch_columns`: the expected columns, without the removed ones and with the added ones,
  are the actual ones;
* `mem_missingColumns`, `mem_extraColumns`: the validation finds the same differences,
  whatever columns are repeated;
* `valid_iff_missingColumns`: the columns are valid exactly if none is missing and none has
  another type.
-/

namespace OpenDataGov

open Keyed

namespace Observability

/-- What differs between the expected and the actual columns. -/
structure DriftReport where
  added : List String
  removed : List String
  hasDrift : Bool
  deriving DecidableEq

/-- The attributes of the event `schema_drift_detected` of the current span. -/
structure SchemaDriftDetected where
  dataset : String
  domain : String
  columnsAdded : String
  columnsRemoved : String
  deriving DecidableEq

/-- `", ".join(columns) if columns else ""` -/
def joinColumns (columns : List String) : String :=
  if columns.isEmpty then "" else ", ".intercalate columns

/-- Comparing the expected with the actual columns. A drift is also an event of the span. -/
def detectSchemaDrift (dataset domain : String) (expectedColumns actualColumns : List String) :
    DriftReport × Option SchemaDriftDetected :=
  let expected := expectedColumns.toFinset
  let actual := actualColumns.toFinset
  let added := (actual \ expected).sort
  let removed := (expected \ actual).sort
  let hasDrift := !added.isEmpty || !removed.isEmpty
  (⟨added, removed, hasDrift⟩,
    if hasDrift then some ⟨dataset, domain, joinColumns added, joinColumns removed⟩ else none)

/-- The report alone. -/
def driftReport (dataset domain : String) (expectedColumns actualColumns : List String) :
    DriftReport :=
  (detectSchemaDrift dataset domain expectedColumns actualColumns).1

variable {dataset domain name : String} {expectedColumns actualColumns : List String}

theorem added_driftReport : (driftReport dataset domain expectedColumns actualColumns).added =
    (actualColumns.toFinset \ expectedColumns.toFinset).sort := rfl

theorem removed_driftReport : (driftReport dataset domain expectedColumns
    actualColumns).removed = (expectedColumns.toFinset \ actualColumns.toFinset).sort := rfl

@[simp] theorem mem_added : name ∈ (driftReport dataset domain expectedColumns
    actualColumns).added ↔ name ∈ actualColumns ∧ name ∉ expectedColumns := by
  simp [added_driftReport]

@[simp] theorem mem_removed : name ∈ (driftReport dataset domain expectedColumns
    actualColumns).removed ↔ name ∈ expectedColumns ∧ name ∉ actualColumns := by
  simp [removed_driftReport]

theorem nodup_added : (driftReport dataset domain expectedColumns actualColumns).added.Nodup := by
  rw [added_driftReport]
  exact Finset.sort_nodup _ _

theorem nodup_removed :
    (driftReport dataset domain expectedColumns actualColumns).removed.Nodup := by
  rw [removed_driftReport]
  exact Finset.sort_nodup _ _

/-- There is a drift exactly if the columns differ as sets. -/
theorem hasDrift_iff : (driftReport dataset domain expectedColumns actualColumns).hasDrift =
    true ↔ expectedColumns.toFinset ≠ actualColumns.toFinset := by
  have hflag : (driftReport dataset domain expectedColumns actualColumns).hasDrift =
      (!(driftReport dataset domain expectedColumns actualColumns).added.isEmpty ||
        !(driftReport dataset domain expectedColumns actualColumns).removed.isEmpty) := rfl
  rw [hflag, ← Bool.not_and, Bool.not_eq_true', ← Bool.not_eq_true, Ne, not_iff_not,
    Bool.and_eq_true, List.isEmpty_iff, List.isEmpty_iff, List.eq_nil_iff_forall_not_mem,
    List.eq_nil_iff_forall_not_mem, Finset.ext_iff, ← forall_and]
  refine forall_congr' fun name => ?_
  simp only [mem_added, mem_removed, List.mem_toFinset]
  tauto

/-- The report is a patch from the expected columns to the actual ones. -/
theorem patch_columns :
    (expectedColumns.toFinset \
      (driftReport dataset domain expectedColumns actualColumns).removed.toFinset) ∪
        (driftReport dataset domain expectedColumns actualColumns).added.toFinset =
      actualColumns.toFinset := by
  ext name
  simp only [Finset.mem_union, Finset.mem_sdiff, List.mem_toFinset, mem_removed, mem_added]
  tauto

/-- And backwards. -/
theorem driftReport_symm : driftReport dataset domain actualColumns expectedColumns =
    ⟨(driftReport dataset domain expectedColumns actualColumns).removed,
      (driftReport dataset domain expectedColumns actualColumns).added,
      (driftReport dataset domain expectedColumns actualColumns).hasDrift⟩ := by
  simp only [driftReport, detectSchemaDrift, Bool.or_comm]

/-! ### The validation against a contract -/

section

open Contracts

variable {contract : DataContract} {actual : List ActualColumn}

/-- The names of the columns of a contract, and of the columns of a dataset. -/
def expectedNames (contract : DataContract) : List String :=
  contract.schemaDefinition.columns.map fun col => col.name.text

/-- The names of the columns that there are. -/
def actualNames (actual : List ActualColumn) : List String := actual.map ActualColumn.name

/-- A column is not found if it is not there. -/
theorem find?_actualMap_eq_none :
    (actualMap actual).find? name = none ↔ name ∉ actualNames actual := by
  rw [actualMap, Dict.find?_ofList_eq_none, List.map_map]
  rfl

/-- The names that a contract asks for. -/
theorem mem_expectedNames_iff : name ∈ expectedNames contract ↔
    ∃ col, col ∈ (columnsByName contract.schemaDefinition).rows ∧ col.1.text = name := by
  have hkey (key : Bounded 1 200) :
      (∃ col, (key, col) ∈ (columnsByName contract.schemaDefinition).rows) ↔
        ∃ col ∈ contract.schemaDefinition.columns, col.name = key := by
    have hrows := Dict.mem_keys_iff (d := columnsByName contract.schemaDefinition) (k := key)
    rw [columnsByName, Ne, Dict.find?_ofList_eq_none, not_not, List.map_map] at hrows
    simpa [columnsByName] using hrows
  simp only [expectedNames, List.mem_map, Prod.exists]
  constructor
  · rintro ⟨col, hcol, rfl⟩
    obtain ⟨col', hcol'⟩ := (hkey col.name).2 ⟨col, hcol, rfl⟩
    exact ⟨col.name, col', hcol', rfl⟩
  · rintro ⟨key, col', hcol', rfl⟩
    obtain ⟨col, hcol, rfl⟩ := (hkey key).1 ⟨col', hcol'⟩
    exact ⟨col, hcol, rfl⟩

/-- The validation misses the columns that the drift has removed. -/
theorem mem_missingColumns :
    name ∈ (validateData contract actual).missingColumns.map Bounded.text ↔
      name ∈ expectedNames contract ∧ name ∉ actualNames actual := by
  simp only [validateData, List.mem_map, List.mem_filter, decide_eq_true_eq,
    find?_actualMap_eq_none, mem_expectedNames_iff]
  constructor
  · rintro ⟨key, ⟨⟨kv, hkv, rfl⟩, hnot⟩, rfl⟩
    exact ⟨⟨kv, hkv, rfl⟩, hnot⟩
  · rintro ⟨⟨kv, hkv, rfl⟩, hnot⟩
    exact ⟨kv.1, ⟨⟨kv, hkv, rfl⟩, hnot⟩, rfl⟩

/-- And the columns that it has added are extra ones. -/
theorem mem_extraColumns : name ∈ (validateData contract actual).extraColumns ↔
    name ∈ actualNames actual ∧ name ∉ expectedNames contract := by
  simp only [validateData, List.mem_filter, decide_eq_true_eq, Dict.mem_keys_iff,
    mem_expectedNames_iff, Ne, find?_actualMap_eq_none, not_not, not_exists, not_and]

theorem nodup_missingColumns :
    ((validateData contract actual).missingColumns.map Bounded.text).Nodup :=
  ((columnsByName contract.schemaDefinition).nodup.filter _).map Bounded.text_injective

theorem nodup_extraColumns : (validateData contract actual).extraColumns.Nodup :=
  (actualMap actual).nodup.filter _

/-- The columns are valid exactly if none is missing and none has another type. -/
theorem valid_iff_missingColumns : (validateData contract actual).valid = true ↔
    (validateData contract actual).missingColumns = [] ∧
    (validateData contract actual).typeMismatches = [] := by
  simp only [validateData, Bool.and_eq_true, List.isEmpty_iff]

/-- The drift from the columns of a contract to those of a dataset and the validation of
    the dataset find the same differences. The drift is a patch between the columns, and
    the dataset is valid exactly if the drift removes nothing and all types agree. -/
theorem driftReport_validateData (contract : DataContract) (actual : List ActualColumn)
    (dataset domain : String) :
    let drift := driftReport dataset domain (expectedNames contract) (actualNames actual)
    let result := validateData contract actual
    (∀ name, name ∈ drift.removed ↔ name ∈ result.missingColumns.map Bounded.text) ∧
    (∀ name, name ∈ drift.added ↔ name ∈ result.extraColumns) ∧
    (drift.removed.Nodup ∧ drift.added.Nodup ∧
      (result.missingColumns.map Bounded.text).Nodup ∧ result.extraColumns.Nodup) ∧
    ((expectedNames contract).toFinset \ drift.removed.toFinset) ∪ drift.added.toFinset =
      (actualNames actual).toFinset ∧
    (result.valid = true ↔ drift.removed = [] ∧ result.typeMismatches = []) := by
  intro drift result
  have hremoved (name) : name ∈ drift.removed ↔
      name ∈ result.missingColumns.map Bounded.text := by
    rw [mem_removed, mem_missingColumns]
  have hadded (name) : name ∈ drift.added ↔ name ∈ result.extraColumns := by
    rw [mem_added, mem_extraColumns]
  -- The two lists of what is missing differ in their order at most, so both are empty or none is.
  have hnil : drift.removed = [] ↔ result.missingColumns = [] := by
    rw [List.eq_nil_iff_forall_not_mem, forall_congr' fun name => not_congr (hremoved name),
      ← List.eq_nil_iff_forall_not_mem, List.map_eq_nil_iff]
  refine ⟨hremoved, hadded,
    ⟨nodup_removed, nodup_added, nodup_missingColumns, nodup_extraColumns⟩,
    patch_columns, ?_⟩
  rw [hnil]
  exact valid_iff_missingColumns

end

end Observability

end OpenDataGov
