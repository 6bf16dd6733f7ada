import Mathlib.Data.List.TakeWhile
import OpenDataGov.Core.Enums
import OpenDataGov.Lib.DateTime

/-!
# The metadata of datasets, and DataHub

The metadata of a dataset in the catalog, as the event that DataHub takes it from
(`odgToDatahubMce`), and read back from such an event (`datahubToOdg`).

What is lost on the way is lost at the URN. It is written by putting the platform and the name
of a dataset between commas, and read by splitting it at the commas, so that a comma in a name
ends it. The fields come back always, as the event has them in a list of their own.

* `decodeField_encodeField`: the fields of the schema come back as they were;
* `datahubToOdg_odgToDatahubMce`: so does the name. Of the `dataset_id`, what comes before
  the first comma does, and nothing at all is read back if that is empty;
* `roundtrip_iff`: a dataset comes back exactly if there is no comma in its `dataset_id`.

The events are those parts of the dictionaries of the source that are read back, or that
`Metadata.Lineage` compares.
-/

namespace OpenDataGov

open Calendar

namespace Metadata

/-! ### The metadata -/

/-- A field of the schema of a dataset. -/
structure DatasetField where
  name : String
  dataType : String
  description : String
  isPii : Bool
  isNullable : Bool
  deriving DecidableEq

/-- The metadata of a dataset in the catalog. -/
structure ODGDatasetMetadata where
  id : UUID
  datasetId : Bounded 1 200
  name : Bounded 1 200
  description : String
  domainId : Bounded 1 100
  ownerId : Bounded 1 200
  layer : MedallionLayer
  classification : DataClassification
  tags : List String
  schemaFields : List DatasetField
  qualityScore : Option Json.PyFloat
  contractId : Option UUID
  jurisdiction : Option String
  piiColumns : List String
  createdAt : Option DateTime
  updatedAt : Option DateTime

/-- The metadata of a dataset of which no more is known. -/
def ODGDatasetMetadata.new (id : UUID) (datasetId name domainId ownerId : String)
    (schemaFields : List DatasetField) : Except Error ODGDatasetMetadata := do
  let (datasetId, name, domainId, ownerId) ← Validated.model "ODGDatasetMetadata" <|
    (Validated.bounded 1 200 "dataset_id" datasetId).and <|
    (Validated.bounded 1 200 "name" name).and <|
    (Validated.bounded 1 100 "domain_id" domainId).and <|
    Validated.bounded 1 200 "owner_id" ownerId
  return {
    id := id
    datasetId := datasetId
    name := name
    description := ""
    domainId := domainId
    ownerId := ownerId
    layer := .bronze
    classification := .internal
    tags := []
    schemaFields := schemaFields
    qualityScore := none
    contractId := none
    jurisdiction := none
    piiColumns := []
    createdAt := none
    updatedAt := none }

section

variable {id : UUID} {datasetId name domainId ownerId : String}
  {schemaFields : List DatasetField} {m : ODGDatasetMetadata}

/-- The metadata have what they were made from. -/
theorem ODGDatasetMetadata.eq_of_new
    (h : new id datasetId name domainId ownerId schemaFields = .ok m) :
    m.datasetId.text = datasetId ∧ m.name.text = name ∧ m.schemaFields = schemaFields := by
  obtain ⟨⟨datasetId', name', domainId', ownerId'⟩, hvalid, hm⟩ := Validated.model_bind_eq_ok.1 h
  simp only [Validated.and_eq_ok, Validated.bounded_eq_ok] at hvalid
  obtain rfl := Except.ok.inj hm
  exact ⟨hvalid.1, hvalid.2.1, rfl⟩

/-- The metadata are made exactly if the texts are within their bounds. -/
theorem ODGDatasetMetadata.exists_new_iff :
    (∃ m, new id datasetId name domainId ownerId schemaFields = .ok m) ↔
      (1 ≤ datasetId.length ∧ datasetId.length ≤ 200) ∧ (1 ≤ name.length ∧ name.length ≤ 200) ∧
      (1 ≤ domainId.length ∧ domainId.length ≤ 100) ∧
      (1 ≤ ownerId.length ∧ ownerId.length ≤ 200) := by
  constructor
  · rintro ⟨m, hm⟩
    obtain ⟨⟨datasetId', name', domainId', ownerId'⟩, hvalid, -⟩ :=
      Validated.model_bind_eq_ok.1 hm
    simp only [Validated.and_eq_ok, Validated.bounded_eq_ok] at hvalid
    obtain ⟨rfl, rfl, rfl, rfl⟩ := hvalid
    exact ⟨datasetId'.bounds, name'.bounds, domainId'.bounds, ownerId'.bounds⟩
  · rintro ⟨hdataset, hname, hdomain, howner⟩
    refine ⟨_, Validated.model_bind_eq_ok.2
      ⟨(⟨datasetId, hdataset⟩, ⟨name, hname⟩, ⟨domainId, hdomain⟩, ⟨ownerId, howner⟩), ?_, rfl⟩⟩
    simp only [Validated.and_eq_ok, Validated.bounded_eq_ok, and_self]

end

/-! ### The events of DataHub

The keys of an event may be missing when it is read. -/

/-- A field of the aspect `schemaMetadata`. Of its type, only the name of the class is kept. -/
structure MceField where
  fieldPath : Option String
  nativeDataType : Option String
  type : Option String
  description : Option String
  nullable : Option Bool
  globalTags : Option (Option (List String))

/-- The aspect `schemaMetadata`. -/
structure SchemaMetadata where
  schemaName : Option String
  platform : Option String
  fields : Option (List MceField)
  primaryKeys : Option (List String)

/-- The event that the schema of a dataset changes. -/
structure SchemaMCE where
  entityType : Option String
  entityUrn : Option String
  aspectName : Option String
  aspect : Option SchemaMetadata
  changeType : Option String

/-- The URN of a dataset in DataHub. -/
def datasetUrn (platform name : String) : String :=
  s!"urn:li:dataset:(urn:li:dataPlatform:{platform},{name},PROD)"

/-- A field, as DataHub takes it. -/
def encodeField (f : DatasetField) : MceField where
  fieldPath := some f.name
  nativeDataType := some f.dataType
  type := some "com.linkedin.schema.StringType"
  description := some f.description
  nullable := some f.isNullable
  globalTags := some (some (if f.isPii then ["urn:li:tag:PII"] else []))

/-- The metadata of a dataset, as an event of DataHub. -/
def odgToDatahubMce (metadata : ODGDatasetMetadata) : SchemaMCE where
  entityType := some "dataset"
  entityUrn := some (datasetUrn "opendatagov" metadata.datasetId.text)
  aspectName := some "schemaMetadata"
  aspect := some {
    schemaName := some metadata.name.text
    platform := some "urn:li:dataPlatform:opendatagov"
    fields := some (metadata.schemaFields.map encodeField)
    primaryKeys := some [] }
  changeType := some "UPSERT"

/-- A field, as it is read from an event of DataHub. -/
def decodeField (f : MceField) : DatasetField where
  name := f.fieldPath.getD ""
  dataType := f.nativeDataType.getD "string"
  description := f.description.getD ""
  isNullable := f.nullable.getD true
  isPii := !((f.globalTags.getD none).getD []).isEmpty

/-- `urn.split(",")[1] if "," in urn else urn` -/
def parseDatasetId (urn : String) : String :=
  match urn.toList.splitOn ',' with
  | _ :: part :: _ => String.ofList part
  | _ => urn

/-- The metadata of a dataset, as far as they are read from an event of DataHub. The dataset
    gets a new `id`. -/
def datahubToOdg (id : UUID) (mce : SchemaMCE) : Except Error ODGDatasetMetadata :=
  let aspect := mce.aspect.getD ⟨none, none, none, none⟩
  let datasetId := parseDatasetId (mce.entityUrn.getD "")
  let fields := (aspect.fields.getD []).map decodeField
  ODGDatasetMetadata.new id datasetId (aspect.schemaName.getD datasetId) "unknown" "unknown" fields

/-! ### Reading back what was written -/

variable {id : UUID} {m m' : ODGDatasetMetadata}

/-- A field is read back as it was. -/
theorem decodeField_encodeField (f : DatasetField) : decodeField (encodeField f) = f := by
  obtain ⟨name, dataType, description, isPii, isNullable⟩ := f
  cases isPii <;> rfl

/-- The first part of a text that is split. -/
theorem head?_splitOn (c : Char) (x : List Char) :
    (x.splitOn c).head? = some (x.takeWhile fun d => d ≠ c) := by
  induction x with
  | nil => rfl
  | cons d x ih =>
    rw [List.splitOn_cons_eq_if_modifyHead]
    by_cases hd : d = c
    · simp [hd]
    · rw [if_neg (by simpa using hd), List.head?_modifyHead, ih]
      simp [hd]

/-- The second part of a text that is split. -/
theorem splitOn_append_cons {c : Char} {x : List Char} (h : c ∉ x) (y : List Char) :
    ∃ rest, (x ++ c :: y).splitOn c = x :: (y.takeWhile fun d => d ≠ c) :: rest := by
  obtain ⟨part, rest, hy⟩ := List.exists_cons_of_ne_nil (List.splitOn_ne_nil c y)
  have hpart := head?_splitOn c y
  rw [hy, List.head?_cons, Option.some.injEq] at hpart
  exact ⟨rest, by rw [List.splitOn_append_cons_self_of_not_mem h, hy, hpart]⟩

/-- What comes before the first comma of a text. -/
def beforeComma (s : String) : String := String.ofList (s.toList.takeWhile fun c => c ≠ ',')

/-- Nothing is cut off if there is no comma. -/
theorem beforeComma_eq_self_iff {s : String} : beforeComma s = s ↔ ',' ∉ s.toList := by
  rw [beforeComma, ← String.toList_inj, String.toList_ofList, List.takeWhile_eq_self_iff]
  simp only [decide_eq_true_eq]
  exact List.forall_mem_ne'

/-- A URN, character by character. -/
theorem toList_urn (start platform name : String) :
    (start ++ platform ++ "," ++ name ++ ",PROD)").toList =
      (start.toList ++ platform.toList) ++ ',' :: (name.toList ++ ',' :: "PROD)".toList) := by
  simp

/-- From a URN, what comes before the first comma of the name is read. -/
theorem parseDatasetId_urn {start platform name : String} (hstart : ',' ∉ start.toList)
    (hplatform : ',' ∉ platform.toList) :
    parseDatasetId (start ++ platform ++ "," ++ name ++ ",PROD)") = beforeComma name := by
  have hfirst : ',' ∉ start.toList ++ platform.toList := by
    rw [List.mem_append, not_or]
    exact ⟨hstart, hplatform⟩
  -- The comma after the name ends it, if no comma in it does.
  have hname : (name.toList ++ ',' :: "PROD)".toList).takeWhile (fun c => c ≠ ',') =
      name.toList.takeWhile fun c => c ≠ ',' := by
    rw [List.takeWhile_append]
    split_ifs with hlength
    · simpa using ((List.takeWhile_prefix _).eq_of_length hlength).symm
    · rfl
  obtain ⟨rest, hsplit⟩ := splitOn_append_cons hfirst (name.toList ++ ',' :: "PROD)".toList)
  rw [parseDatasetId, toList_urn, hsplit, beforeComma, hname]

/-- From a URN, the name is read up to its first comma. -/
theorem parseDatasetId_datasetUrn {platform name : String} (h : ',' ∉ platform.toList) :
    parseDatasetId (datasetUrn platform name) = beforeComma name :=
  parseDatasetId_urn (by decide) h

/-- What is read is not longer than what has been written. -/
theorem length_beforeComma_le (s : String) : (beforeComma s).length ≤ s.length := by
  rw [beforeComma, String.length_ofList, ← String.length_toList]
  exact (List.takeWhile_prefix _).length_le

/-- What is read back has the name and the fields of the schema as they were, and of the
    `dataset_id` what comes before the first comma. -/
theorem eq_of_datahubToOdg (h : datahubToOdg id (odgToDatahubMce m) = .ok m') :
    m'.datasetId.text = beforeComma m.datasetId.text ∧ m'.name = m.name ∧
      m'.schemaFields = m.schemaFields := by
  simp only [datahubToOdg, odgToDatahubMce, Option.getD_some, List.map_map, Function.comp_def,
    decodeField_encodeField, List.map_id'] at h
  rw [parseDatasetId_datasetUrn (by decide)] at h
  obtain ⟨hid, hname, hfields⟩ := ODGDatasetMetadata.eq_of_new h
  exact ⟨hid, Bounded.text_injective hname, hfields⟩

/-- Anything is read back exactly if the `dataset_id` does not begin with a comma. -/
theorem exists_datahubToOdg_iff :
    (∃ m', datahubToOdg id (odgToDatahubMce m) = .ok m') ↔ beforeComma m.datasetId.text ≠ "" := by
  have hparse : parseDatasetId (datasetUrn "opendatagov" m.datasetId.text) =
      beforeComma m.datasetId.text := parseDatasetId_datasetUrn (by decide)
  have hlength := (length_beforeComma_le m.datasetId.text).trans m.datasetId.bounds.2
  have hunknown : ("unknown").length = 7 := by decide
  simp only [datahubToOdg, odgToDatahubMce, Option.getD_some, ODGDatasetMetadata.exists_new_iff,
    hparse, hlength, hunknown, m.name.bounds, and_true, true_and]
  rw [ne_eq, ← String.length_eq_zero_iff]
  omega

/-- A dataset is read back as it was exactly if there is no comma in its `dataset_id`. -/
theorem roundtrip_iff : (∃ m', datahubToOdg id (odgToDatahubMce m) = .ok m' ∧
    m'.datasetId = m.datasetId ∧ m'.name = m.name ∧ m'.schemaFields = m.schemaFields) ↔
      ',' ∉ m.datasetId.text.toList := by
  rw [← beforeComma_eq_self_iff]
  constructor
  · rintro ⟨m', hread, hid, -, -⟩
    rw [← (eq_of_datahubToOdg hread).1, hid]
  · intro h
    have hne : beforeComma m.datasetId.text ≠ "" := fun hempty => by
      have hpos := m.datasetId.bounds.1
      rw [← h, hempty] at hpos
      exact absurd hpos (by decide)
    obtain ⟨m', hread⟩ := exists_datahubToOdg_iff.2 hne
    obtain ⟨hid, hname, hfields⟩ := eq_of_datahubToOdg hread
    exact ⟨m', hread, Bounded.text_injective (hid.trans h), hname, hfields⟩

namespace Revenue

/-- The metadata of a dataset of revenue. -/
def dataset (datasetId : Bounded 1 200) : ODGDatasetMetadata where
  id := ⟨0⟩
  datasetId := datasetId
  name := datasetId
  description := ""
  domainId := ⟨"finance", by decide⟩
  ownerId := ⟨"data-team", by decide⟩
  layer := .gold
  classification := .internal
  tags := []
  schemaFields := [⟨"customer_cpf", "string", "", true, false⟩]
  qualityScore := none
  contractId := none
  jurisdiction := none
  piiColumns := ["customer_cpf"]
  createdAt := none
  updatedAt := none

/-- A `dataset_id` with a comma. -/
def datasetId : Bounded 1 200 := ⟨"revenue,daily", by decide⟩

/-- A dataset with a comma in its `dataset_id` is read back as another one. -/
theorem not_roundtrip : ¬∀ (id : UUID) (m : ODGDatasetMetadata), ∃ m',
    datahubToOdg id (odgToDatahubMce m) = .ok m' ∧ m'.datasetId = m.datasetId ∧
      m'.name = m.name ∧ m'.schemaFields = m.schemaFields := fun h => by
  obtain ⟨m', hread, hid, -, -⟩ := h ⟨0⟩ (dataset datasetId)
  have hbefore := (eq_of_datahubToOdg hread).1.symm.trans (congrArg Bounded.text hid)
  exact beforeComma_eq_self_iff.1 hbefore (by decide)

end Revenue

end Metadata

end OpenDataGov
