import OpenDataGov.Contracts.Breaking

/-!
# Validation against data contracts

The columns that a dataset has, checked against the schema of its contract.

The columns of the dataset are given with their types, and looked up by name. Columns that the
schema does not have are let be, and types are compared as texts. So being valid is monotone in
what the schema asks for, and the columns of a schema are themselves the least that is valid by
it; this is how two contracts are compared.

* `valid_iff`: the columns are valid when all the columns of the schema are there, with
  their types;
* `valid_mono_iff`: what is valid by one contract is valid by another exactly if the columns
  of the other one are there, with the same types;
* `valid_of_hasBreaking_eq_false`: so it is after a change that breaks nothing.
-/

namespace OpenDataGov

open Keyed

namespace Contracts

/-- A data contract for a dataset. -/
structure DataContract where
  schemaDefinition : DataContractSchema

/-- What is known of a column of a dataset: its name, and perhaps its type. -/
structure ActualColumn where
  name : String
  dataType : Option String
  deriving DecidableEq

/-- A column that is there, with another type. -/
structure TypeMismatch where
  column : Bounded 1 200
  expected : Bounded 1 50
  actual : String
  deriving DecidableEq

/-- What is wrong with the columns of a dataset. -/
structure ValidationResult where
  valid : Bool
  missingColumns : List (Bounded 1 200)
  typeMismatches : List TypeMismatch
  extraColumns : List String
  deriving DecidableEq

/-- `{col["name"]: col.get("data_type", "") for col in actual_columns}` -/
def actualMap (actualColumns : List ActualColumn) : Dict String String :=
  .ofList (actualColumns.map fun col => (col.name, col.dataType.getD ""))

/-- Validating the columns of a dataset against the schema of its contract. -/
def validateData (contract : DataContract) (actualColumns : List ActualColumn) :
    ValidationResult :=
  let expected := columnsByName contract.schemaDefinition
  let actual := actualMap actualColumns
  let missing := (expected.rows.map Prod.fst).filter fun name => actual.find? name.text = none
  let extra := (actual.rows.map Prod.fst).filter fun name =>
    ∀ kv ∈ expected.rows, kv.1.text ≠ name
  let typeMismatches := expected.rows.flatMap fun kv =>
    match actual.find? kv.1.text with
    | none => []
    | some dataType =>
      if dataType ≠ kv.2.dataType.text then [⟨kv.1, kv.2.dataType, dataType⟩] else []
  { valid := missing.isEmpty && typeMismatches.isEmpty
    missingColumns := missing
    typeMismatches := typeMismatches
    extraColumns := extra }

variable {contract oldContract newContract : DataContract} {actualColumns : List ActualColumn}
  {name : Bounded 1 200} {col : ColumnDefinition}

/-- The columns of a dataset are valid exactly if all the columns of the schema are there,
    with their types. -/
theorem valid_iff : (validateData contract actualColumns).valid = true ↔
    ∀ name col, (columnsByName contract.schemaDefinition).find? name = some col →
      (actualMap actualColumns).find? name.text = some col.dataType.text := by
  simp only [validateData, Bool.and_eq_true, List.isEmpty_iff, List.filter_eq_nil_iff,
    List.flatMap_eq_nil_iff, List.forall_mem_map, Prod.forall, ← Dict.find?_eq_some,
    decide_eq_true_eq, ← forall_and]
  refine forall_congr' fun name => forall_congr' fun col => ?_
  cases (actualMap actualColumns).find? name.text with
  | none => simp
  | some dataType => simp

/-- The columns that a schema defines, as those of a dataset. -/
def definedColumns (schema : DataContractSchema) : List ActualColumn :=
  schema.columns.map fun col => ⟨col.name.text, some col.dataType.text⟩

/-- The columns of a schema, taken for those of a dataset. -/
theorem find?_definedColumns (schema : DataContractSchema) :
    (actualMap (definedColumns schema)).find? name.text =
      ((columnsByName schema).find? name).map fun col => col.dataType.text := by
  rw [columnsByName, ← Dict.find?_ofList_map Bounded.text_injective, actualMap, definedColumns,
    List.map_map, List.map_map]
  rfl

/-- What is valid by one contract is valid by another one exactly if the columns of the
    other one are there, with the same types. -/
theorem valid_mono_iff :
    (∀ actualColumns, (validateData newContract actualColumns).valid = true →
      (validateData oldContract actualColumns).valid = true) ↔
    ∀ name oldCol, (columnsByName oldContract.schemaDefinition).find? name = some oldCol →
      ∃ newCol, (columnsByName newContract.schemaDefinition).find? name = some newCol ∧
        newCol.dataType = oldCol.dataType := by
  simp only [valid_iff]
  constructor
  · intro h name oldCol hold
    -- The columns that the new contract defines are valid by it.
    have hdefined := h (definedColumns newContract.schemaDefinition) fun name newCol hnew => by
      rw [find?_definedColumns, hnew, Option.map_some]
    have hfind := hdefined name oldCol hold
    rw [find?_definedColumns, Option.map_eq_some_iff] at hfind
    obtain ⟨newCol, hnew, htype⟩ := hfind
    exact ⟨newCol, hnew, Bounded.text_injective htype⟩
  · intro h actualColumns hvalid name oldCol hold
    obtain ⟨newCol, hnew, htype⟩ := h name oldCol hold
    rw [← htype]
    exact hvalid name newCol hnew

/-- After a change that breaks nothing, what is valid is valid by the old contract. -/
theorem valid_of_hasBreaking_eq_false
    (h : (detectBreakingChanges oldContract.schemaDefinition
      newContract.schemaDefinition).hasBreaking = false)
    (hvalid : (validateData newContract actualColumns).valid = true) :
    (validateData oldContract actualColumns).valid = true := by
  refine valid_mono_iff.2 (fun name oldCol hold => ?_) actualColumns hvalid
  obtain ⟨newCol, hnew, hkeeps⟩ := (hasBreaking_eq_false_iff.1 h).kept name oldCol hold
  exact ⟨newCol, hnew, hkeeps.1⟩

namespace Contacts

/-- The columns of a dataset of contacts: the address is there twice. -/
def columns : List ActualColumn :=
  [⟨"email", none⟩, ⟨"notes", some "string"⟩, ⟨"age", none⟩, ⟨"email", some "string"⟩]

/-- Notes are added to the contract, and the dataset is still one of the old contract. -/
theorem valid_columns : (validateData ⟨schema [email false]⟩ columns).valid = true := by
  have hnew : (validateData ⟨schema [email true, notes]⟩ columns).valid = true := by decide
  exact valid_of_hasBreaking_eq_false (by decide) hnew

end Contacts

end Contracts

end OpenDataGov
