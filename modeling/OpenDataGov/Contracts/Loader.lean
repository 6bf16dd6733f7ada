import OpenDataGov.Contracts.Validator
import OpenDataGov.Core.Fields

/-!
# Contract files

Data contracts, loaded from files whose content is a YAML value (`loadContract`). What the
models take single values for is that of `Pydantic`.

The loader takes values from the file with `data["name"]` and `data.get(...)`, and gives them to
the models, which validate them. So there are two ways to fail: the validation of a model is a
`ValueError`, and taking a value from what is no mapping, or from one that does not have it, is a
`TypeError` or a `KeyError`, which its callers do not expect. `Handled` says that only the first
may happen, and how it goes along the statements of the loader is a rule for each kind of
statement (`handled_bind`, `handled_validated`, `handled_orRaise`).

* `valid_schema`, `columnNames_of_read`, `primaryKey_of_read`: which schemas are valid, and
  their names, as they stand in the file;
* `handled_call`, `handled_item`: where a `TypeError` or a `KeyError` is raised, and no
  `ValueError`;
* `handled_iff`: a file is loaded to a contract whose names are as they should be, or
  refused by a `ValueError`, exactly if it is `Acceptable`.

The text of the file is not parsed here: `yaml.safe_load` is a third-party function, of which the
value is taken.
-/

namespace OpenDataGov

open Calendar Yaml Validated

namespace Contracts

/-! ### Raising errors -/

/-- The errors raised when a contract is loaded. -/
inductive LoadError
  | fileNotFoundError (msg : String)
  | keyError (key : String)
  /-- What is after `**` in a call of a model is no mapping with strings as keys. -/
  | typeError (model : String)
  | error (e : Error)

/-- The errors that are `ValueError`s. A `ValidationError` is one. -/
def LoadError.IsValueError : LoadError → Prop
  | .error e => e.IsValueError
  | .fileNotFoundError _ | .keyError _ | .typeError _ => False

/-- A model, or the `ValidationError` about its fields. -/
def validated {α : Type} (model : String) (x : Validated α) : Except LoadError α :=
  (x.model model).mapError .error

/-- What is there, or an error. -/
def orRaise {α : Type} (e : LoadError) : Option α → Except LoadError α
  | some a => .ok a
  | none => .error e

/-- `Model(**raw) if raw else Model()` -/
def call {α : Type} (model : String) (read : Mapping → Validated α) (raw : Value) :
    Except LoadError α := do
  let kvs ← orRaise (.typeError model) raw.spread?
  validated model (read kvs)

/-- `raw[key]` -/
def item (raw : Mapping) (key : String) : Except LoadError Value :=
  orRaise (.keyError key) (raw.get? key)

/-- There is a result of which `P` holds, or a `ValueError` is raised. -/
def Handled {α : Type} (P : α → Prop) : Except LoadError α → Prop
  | .ok a => P a
  | .error e => e.IsValueError

section

variable {α β : Type} {P : α → Prop} {model key : String} {raw : Mapping} {v : Value}

/-- One statement after another, -/
theorem handled_bind {P : β → Prop} {x : Except LoadError α} {f : α → Except LoadError β} :
    Handled P (x >>= f) ↔ Handled (fun a => Handled P (f a)) x := by
  cases x with
  | ok a => exact Iff.rfl
  | error e => exact Iff.rfl

/-- the validation of a model, -/
theorem handled_validated {x : Validated α} :
    Handled P (validated model x) ↔ ∀ a, x = .ok a → P a := by
  cases x with
  | ok a => exact ⟨fun h a' ha' => Except.ok.inj ha' ▸ h, fun h => h a rfl⟩
  | error fs => exact iff_of_true trivial fun _ h => nomatch h

/-- and an error that is no `ValueError`. -/
theorem handled_orRaise {e : LoadError} (he : ¬e.IsValueError) {o : Option α} :
    Handled P (orRaise e o) ↔ ∃ a, o = some a ∧ P a := by
  cases o with
  | none =>
    refine iff_of_false he ?_
    rintro ⟨_, h, _⟩
    cases h
  | some a => simp only [orRaise, Handled, Option.some.injEq, exists_eq_left']

/-- A call of a model raises a `TypeError` unless it has keywords. -/
theorem handled_call {read : Mapping → Validated α} : Handled P (call model read v) ↔
    ∃ kvs, v.spread? = some kvs ∧ ∀ a, read kvs = .ok a → P a := by
  rw [call, handled_bind, handled_orRaise id]
  simp only [handled_validated]

/-- An item that is not there raises a `KeyError`. -/
theorem handled_item {P : Value → Prop} : Handled P (item raw key) ↔ raw.Required key P :=
  handled_orRaise id

end

section

variable [Pydantic]

/-! ### The models -/

/-- A column, read from an item of `columns`. -/
def ColumnDefinition.read (field : String) : Value → Validated ColumnDefinition
  | .map m =>
    let before := field ++ "."
    ((required m before "name" (str 1 200)).and <|
      (required m before "data_type" (str 1 50)).and <|
      (optional m before "nullable" true (leaf Pydantic.bool)).and <|
      (optional m before "description" "" (leaf Pydantic.str)).and <|
      optional m before "pii" false (leaf Pydantic.bool)).map
        fun (name, dataType, nullable, description, pii) =>
          ⟨name, dataType, nullable, description, pii⟩
  | _ => .error [field]

/-- A schema, read from its keywords. -/
def DataContractSchema.read (m : Mapping) : Validated DataContractSchema :=
  ((optional m "" "columns" [] (list ColumnDefinition.read)).and <|
    optional m "" "primary_key" [] (list (leaf Pydantic.str))).map
      fun (columns, primaryKey) => ⟨columns, primaryKey⟩

/-- The service levels within a data contract. -/
structure SLADefinition where
  freshnessHours : Option Json.PyFloat
  completenessThreshold : Json.PyFloat
  availabilityPercent : Json.PyFloat

/-- The default of the completeness: 0.95. -/
def defaultCompleteness : Json.PyFloat :=
  .finite ['0', '.', '9', '5'] (by simp [Json.IsFloatChar]) (by simp)

/-- The default of the availability: 99.0. -/
def defaultAvailability : Json.PyFloat :=
  .finite ['9', '9', '.', '0'] (by simp [Json.IsFloatChar]) (by simp)

/-- Service levels, read from their keywords. -/
def SLADefinition.read (m : Mapping) : Validated SLADefinition :=
  ((optional m "" "freshness_hours" none (nullable (leaf (Pydantic.float none)))).and <|
    (optional m "" "completeness_threshold" defaultCompleteness
      (leaf (Pydantic.float (some (0, 1))))).and <|
    optional m "" "availability_percent" defaultAvailability
      (leaf (Pydantic.float (some (0, 100))))).map
        fun (freshnessHours, completenessThreshold, availabilityPercent) =>
          ⟨freshnessHours, completenessThreshold, availabilityPercent⟩

/-- A data contract, with what it has besides its schema. -/
structure LoadedContract extends DataContract where
  id : UUID
  name : Bounded 1 200
  datasetId : Bounded 1 200
  domainId : Bounded 1 100
  ownerId : Bounded 1 200
  slaDefinition : SLADefinition
  jurisdiction : Option String
  version : ℕ
  isActive : Bool
  createdAt : DateTime
  updatedAt : DateTime

/-- What the factories of the defaults make. -/
structure Fresh where
  id : UUID
  createdAt : DateTime
  updatedAt : DateTime

/-- A contract, with values for its fields. -/
def LoadedContract.new (fresh : Fresh) (name datasetId domainId ownerId : Value)
    (schema : DataContractSchema) (sla : SLADefinition) (jurisdiction : Value) :
    Validated LoadedContract :=
  ((str 1 200 "name" name).and <|
    (str 1 200 "dataset_id" datasetId).and <|
    (str 1 100 "domain_id" domainId).and <|
    (str 1 200 "owner_id" ownerId).and <|
    nullable (leaf Pydantic.str) "jurisdiction" jurisdiction).map
      fun (name, datasetId, domainId, ownerId, jurisdiction) => {
        id := fresh.id
        name := name
        datasetId := datasetId
        domainId := domainId
        ownerId := ownerId
        schemaDefinition := schema
        slaDefinition := sla
        jurisdiction := jurisdiction
        version := 1
        isActive := true
        createdAt := fresh.createdAt
        updatedAt := fresh.updatedAt }

/-! ### The loader -/

/-- A path, with its last component. -/
structure Path where
  text : String
  name : String

/-- The last component, without the last dot and what is after it, if there is something
    before it and after it. -/
def Path.stem (path : Path) : String :=
  let (suffix, rest) := path.name.toList.reverse.span fun c => c ≠ '.'
  if rest.tail ≠ [] ∧ suffix ≠ [] then String.ofList rest.tail.reverse else path.name

/-- Loading a contract from the file at a path, if it exists. -/
def loadContract (fresh : Fresh) (filePath : Path) (file : Option Value) :
    Except LoadError LoadedContract :=
  match file with
  | none => .error (.fileNotFoundError s!"Contract file not found: {filePath.text}")
  | some (.map raw) => do
    let schemaRaw := Mapping.getD raw "schema" (.map [])
    let schema ← call "DataContractSchema" DataContractSchema.read schemaRaw
    let slaRaw := Mapping.getD raw "sla" (.map [])
    let sla ← call "SLADefinition" SLADefinition.read slaRaw
    let name := Mapping.getD raw "name" (.scalar (.str filePath.stem))
    let datasetId ← item raw "dataset_id"
    let domainId ← item raw "domain_id"
    let ownerId ← item raw "owner_id"
    let jurisdiction := Mapping.getD raw "jurisdiction" (.scalar .null)
    validated "DataContract" <|
      LoadedContract.new fresh name datasetId domainId ownerId schema sla jurisdiction
  | some _ =>
    .error (.error (.valueError s!"Contract file must be a YAML mapping: {filePath.text}"))

/-! ### Valid files

Which values the models are valid for, as they stand in the file. -/

/-- A column that is valid, field by field. -/
def ColumnValid (v : Value) : Prop :=
  ∃ m : Mapping, v = .map m ∧
    m.Required "name" (IsStr 1 200) ∧ m.Required "data_type" (IsStr 1 50) ∧
    (m.Optional "nullable" fun v => ∃ b, Pydantic.bool v = some b) ∧
    (m.Optional "description" fun v => ∃ s, Pydantic.str v = some s) ∧
    m.Optional "pii" fun v => ∃ b, Pydantic.bool v = some b

/-- A schema that is valid, -/
def SchemaValid (m : Mapping) : Prop :=
  (m.Optional "columns" fun v => ∃ vs, v.items? = some vs ∧ ∀ v ∈ vs, ColumnValid v) ∧
  m.Optional "primary_key" fun v =>
    ∃ vs, v.items? = some vs ∧ ∀ v ∈ vs, ∃ s, Pydantic.str v = some s

/-- and an SLA. -/
def SLAValid (m : Mapping) : Prop :=
  (m.Optional "freshness_hours" fun v =>
    v = .scalar .null ∨ ∃ x, Pydantic.float none v = some x) ∧
  (m.Optional "completeness_threshold" fun v => ∃ x, Pydantic.float (some (0, 1)) v = some x) ∧
  m.Optional "availability_percent" fun v => ∃ x, Pydantic.float (some (0, 100)) v = some x

/-- The name of a column. -/
def columnName : Value → Option String
  | .map m => (Mapping.get? m "name").bind Pydantic.str
  | _ => none

/-- The names of the columns of a schema. -/
def columnNames (m : Mapping) : List String :=
  (((m.get? "columns").bind Value.items?).getD []).filterMap columnName

/-- The names in the primary key of a schema. -/
def primaryKey (m : Mapping) : List String :=
  (((m.get? "primary_key").bind Value.items?).getD []).filterMap Pydantic.str

variable {m raw : Mapping} {field key model : String} {v : Value} {col : ColumnDefinition}
  {schema : DataContractSchema} {sla : SLADefinition}

/-- They are valid exactly if they can be read: columns, -/
theorem valid_column : (ColumnDefinition.read field v).Valid ↔ ColumnValid v := by
  cases v with
  | map m =>
    simp only [ColumnDefinition.read, valid_map, valid_and, valid_required, valid_optional,
      valid_str, valid_leaf, ColumnValid, Value.map.injEq, exists_eq_left']
  | _ => simp [ColumnDefinition.read, Validated.Valid, ColumnValid]

/-- schemas, -/
theorem valid_schema : (DataContractSchema.read m).Valid ↔ SchemaValid m := by
  have hcolumns : ∀ field v, (list ColumnDefinition.read field v).Valid ↔ _ := fun _ _ =>
    valid_list fun _ _ => valid_column
  have hkey : ∀ field v, (list (leaf Pydantic.str) field v).Valid ↔ _ := fun _ _ =>
    valid_list fun _ _ => valid_leaf
  simp only [DataContractSchema.read, valid_map, valid_and, valid_optional, hcolumns, hkey,
    SchemaValid]

/-- and SLAs. -/
theorem valid_sla : (SLADefinition.read m).Valid ↔ SLAValid m := by
  simp only [SLADefinition.read, valid_map, valid_and, valid_optional, valid_nullable, valid_leaf,
    SLAValid]

/-- The name of a column is the one in the file. -/
theorem columnName_of_read (h : ColumnDefinition.read field v = .ok col) :
    columnName v = some col.name.text := by
  cases v with
  | map m =>
    obtain ⟨⟨name, dataType, nullable, description, pii⟩, hfields, rfl⟩ := map_eq_ok.1 h
    simp only [and_eq_ok] at hfields
    obtain ⟨v, hv, hname⟩ := required_eq_ok.1 hfields.1
    rw [columnName, hv, Option.bind_some]
    exact str_eq_ok.1 hname
  | _ => cases h

/-- The names of the columns, as they stand in the file, -/
theorem columnNames_of_read (h : DataContractSchema.read m = .ok schema) :
    columnNames m = schema.columns.map fun col => col.name.text := by
  obtain ⟨⟨columns, primaryKey⟩, hfields, rfl⟩ := map_eq_ok.1 h
  rw [and_eq_ok] at hfields
  exact filterMap_of_list hfields.1 fun _ _ _ => columnName_of_read

/-- and those in the primary key. -/
theorem primaryKey_of_read (h : DataContractSchema.read m = .ok schema) :
    primaryKey m = schema.primaryKey := by
  obtain ⟨⟨columns, primaryKey⟩, hfields, rfl⟩ := map_eq_ok.1 h
  rw [and_eq_ok] at hfields
  have hkey := filterMap_of_list hfields.2 fun _ _ _ => leaf_eq_ok.1
  rwa [List.map_id'] at hkey

/-! ### What becomes of a file -/

/-- The names of the columns are distinct, and the primary key consists of some of them. -/
def WellFormed (schema : DataContractSchema) : Prop :=
  (schema.columns.map fun col => col.name.text).Nodup ∧
    ∀ k ∈ schema.primaryKey, ∃ col ∈ schema.columns, col.name.text = k

/-- The fields of a contract are valid, but for its schema and service levels. -/
def FieldsValid (stem : String) (raw : Mapping) : Prop :=
  IsStr 1 200 (raw.getD "name" (.scalar (.str stem))) ∧ raw.Required "dataset_id" (IsStr 1 200) ∧
    raw.Required "domain_id" (IsStr 1 100) ∧ raw.Required "owner_id" (IsStr 1 200) ∧
    (raw.getD "jurisdiction" (.scalar .null) = .scalar .null ∨
      ∃ s, Pydantic.str (raw.getD "jurisdiction" (.scalar .null)) = some s)

/-- The content of a file, by the stem of its path, is no mapping, or one of which the parts
    are there when they are needed: keywords for the schema; if it is valid, keywords for the
    service levels; if they are, the identifiers. If the fields are valid too, the names of
    the columns are distinct, and the primary key consists of some of them. -/
def Acceptable (stem : String) : Value → Prop
  | .map raw =>
    ∃ schema, (Mapping.getD raw "schema" (.map [])).spread? = some schema ∧ (SchemaValid schema →
      ∃ sla, (Mapping.getD raw "sla" (.map [])).spread? = some sla ∧ (SLAValid sla →
        (∀ key ∈ ["dataset_id", "domain_id", "owner_id"], ∃ v, Mapping.get? raw key = some v) ∧
        (FieldsValid stem raw →
          (columnNames schema).Nodup ∧ ∀ k ∈ primaryKey schema, k ∈ columnNames schema)))
  | _ => True

variable {fresh : Fresh} {filePath : Path} {content : Value}

/-- The names of a schema are as they should be if they are so in the file. -/
theorem wellFormed_iff (h : DataContractSchema.read m = .ok schema) : WellFormed schema ↔
    (columnNames m).Nodup ∧ ∀ k ∈ primaryKey m, k ∈ columnNames m := by
  rw [WellFormed, columnNames_of_read h, primaryKey_of_read h]
  simp only [List.mem_map]

variable {name datasetId domainId ownerId jurisdiction : Value}

/-- A contract is made of valid identifiers. Its schema and its SLA have been made before. -/
theorem valid_new : (LoadedContract.new fresh name datasetId domainId ownerId schema sla
    jurisdiction).Valid ↔
      IsStr 1 200 name ∧ IsStr 1 200 datasetId ∧ IsStr 1 100 domainId ∧ IsStr 1 200 ownerId ∧
        (jurisdiction = .scalar .null ∨ ∃ s, Pydantic.str jurisdiction = some s) := by
  simp only [LoadedContract.new, valid_map, valid_and, valid_str, valid_nullable]

/-- So what is to be said of the contract has to hold of the schema if it is made. -/
theorem handled_new :
    Handled (fun c => WellFormed c.schemaDefinition) (validated model
      (LoadedContract.new fresh name datasetId domainId ownerId schema sla jurisdiction)) ↔
    (IsStr 1 200 name ∧ IsStr 1 200 datasetId ∧ IsStr 1 100 domainId ∧ IsStr 1 200 ownerId ∧
      (jurisdiction = .scalar .null ∨ ∃ s, Pydantic.str jurisdiction = some s) →
        WellFormed schema) := by
  rw [handled_validated, ← valid_new]
  refine forall_eq_ok_iff fun c hc => ?_
  obtain ⟨_, -, rfl⟩ := map_eq_ok.1 hc
  exact Iff.rfl

/-- The identifiers are there, and of those, with the other fields, `p` follows if they are
    valid. -/
theorem required_ids_iff {p : Prop} {stem : String} :
    (raw.Required "dataset_id" fun datasetId => raw.Required "domain_id" fun domainId =>
      raw.Required "owner_id" fun ownerId =>
        IsStr 1 200 (raw.getD "name" (.scalar (.str stem))) ∧ IsStr 1 200 datasetId ∧
          IsStr 1 100 domainId ∧ IsStr 1 200 ownerId ∧
          (raw.getD "jurisdiction" (.scalar .null) = .scalar .null ∨
            ∃ s, Pydantic.str (raw.getD "jurisdiction" (.scalar .null)) = some s) → p) ↔
    (∀ key ∈ ["dataset_id", "domain_id", "owner_id"], ∃ v, raw.get? key = some v) ∧
      (FieldsValid stem raw → p) := by
  simp only [List.forall_mem_cons, List.not_mem_nil, false_imp_iff, implies_true, and_true,
    FieldsValid, Mapping.Required]
  constructor
  · rintro ⟨datasetId, hdataset, domainId, hdomain, ownerId, howner, h⟩
    refine ⟨⟨⟨_, hdataset⟩, ⟨_, hdomain⟩, ⟨_, howner⟩⟩, fun hvalid => h ?_⟩
    simpa only [hdataset, hdomain, howner, Option.some.injEq, exists_eq_left'] using hvalid
  · rintro ⟨⟨⟨datasetId, hdataset⟩, ⟨domainId, hdomain⟩, ⟨ownerId, howner⟩⟩, h⟩
    refine ⟨_, hdataset, _, hdomain, _, howner, fun hvalid => h ?_⟩
    simpa only [hdataset, hdomain, howner, Option.some.injEq, exists_eq_left'] using hvalid

/-- A file is loaded to a contract whose names are as they should be, or refused by a
    `ValueError`, exactly if its content is acceptable. -/
theorem handled_iff : Handled (fun c => WellFormed c.schemaDefinition)
    (loadContract fresh filePath (some content)) ↔ Acceptable filePath.stem content := by
  cases content with
  | map raw =>
    simp only [loadContract, handled_bind, handled_call, handled_item, handled_new, Acceptable,
      ← valid_schema, ← valid_sla]
    refine exists_congr fun kvs => and_congr_right fun _ => ?_
    refine forall_eq_ok_iff fun schema hschema => ?_
    refine exists_congr fun kvs' => and_congr_right fun _ => ?_
    refine forall_eq_ok_iff fun sla _ => ?_
    rw [← wellFormed_iff hschema]
    exact required_ids_iff
  | _ => exact iff_of_true trivial trivial

end

namespace Orders

attribute [local instance] Pydantic.plain

/-- A file that lacks the identifiers. -/
def unidentified : Value := .map [(.str "name", .scalar (.str "orders"))]

/-- It raises a `KeyError`. -/
theorem not_handled : ¬∀ (fresh : Fresh) (filePath : Path) (content : Value),
    Handled (fun c => WellFormed c.schemaDefinition) (loadContract fresh filePath (some content)) :=
  fun h => h ⟨⟨0⟩, ⟨0, some 0⟩, ⟨0, some 0⟩⟩ ⟨"contracts/orders.yaml", "orders.yaml"⟩ unidentified

end Orders

end Contracts

end OpenDataGov
