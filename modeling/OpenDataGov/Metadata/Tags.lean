import OpenDataGov.Metadata.Datahub

/-!
# Tags

The marks of personal data. DataHub has any tags on a field, and the catalog only whether
the field is marked: a field is pulled from DataHub as a marked one if it has a tag at all,
and pushed to it with the tag `urn:li:tag:PII` alone.

A pull and a push are a function on the events of DataHub, and the marks before and after it are
compared field by field. Nothing else of an event is looked at; that a pull succeeds depends on
its URN only.

* `carriesPii_sync`: after a pull and a push, the fields that had any tag are marked, each
  in its place;
* `carriesPii_sync_of`: so no mark is lost;
* `keepsMarks_iff`: and the marks are those from before exactly if no field has only other
  tags.
-/

namespace OpenDataGov

namespace Metadata

/-- The tag of personal data. -/
def piiTag : String := "urn:li:tag:PII"

/-- The tags of a field. -/
def MceField.tags (f : MceField) : List String := (f.globalTags.getD none).getD []

/-- The fields of an event. -/
def SchemaMCE.schemaFields (mce : SchemaMCE) : List MceField :=
  (mce.aspect.elim none SchemaMetadata.fields).getD []

/-- The field in the place `i` of an event carries the tag of personal data. -/
def CarriesPii (mce : SchemaMCE) (i : ℕ) : Prop :=
  ∃ f, mce.schemaFields[i]? = some f ∧ piiTag ∈ f.tags

/-- The fields that are marked are the same, place by place. -/
def KeepsMarks (mce mce' : SchemaMCE) : Prop := ∀ i, CarriesPii mce' i ↔ CarriesPii mce i

/-- What can be read: the name of the dataset and its identifier are within their bounds. -/
def Readable (mce : SchemaMCE) : Prop :=
  let datasetId := parseDatasetId (mce.entityUrn.getD "")
  let name := (mce.aspect.elim none SchemaMetadata.schemaName).getD datasetId
  (1 ≤ datasetId.length ∧ datasetId.length ≤ 200) ∧ (1 ≤ name.length ∧ name.length ≤ 200)

variable {id : UUID} {mce : SchemaMCE} {m : ODGDatasetMetadata} {f : MceField} {i : ℕ}

/-- A field is pushed with the tag of personal data exactly if it was pulled with any tag. -/
theorem piiTag_mem_tags_encodeField :
    piiTag ∈ (encodeField (decodeField f)).tags ↔ f.tags ≠ [] := by
  have htags : (encodeField (decodeField f)).tags = if !f.tags.isEmpty then [piiTag] else [] := rfl
  rw [htags]
  cases f.tags with
  | nil => simp
  | cons tag tags => simp

/-- A pull succeeds exactly if the event is readable, -/
theorem exists_datahubToOdg_iff_readable :
    (∃ m, datahubToOdg id mce = .ok m) ↔ Readable mce := by
  have hunknown : ("unknown").length = 7 := by decide
  rw [datahubToOdg, ODGDatasetMetadata.exists_new_iff, Readable]
  cases mce.aspect with
  | none => simp [hunknown]
  | some aspect => simp [hunknown]

/-- and gives its fields, one by one. -/
theorem schemaFields_of_datahubToOdg (h : datahubToOdg id mce = .ok m) :
    m.schemaFields = mce.schemaFields.map decodeField := by
  rw [(ODGDatasetMetadata.eq_of_new h).2.2, SchemaMCE.schemaFields]
  cases mce.aspect <;> rfl

/-- After a pull and a push, the fields that had any tag are marked. -/
theorem carriesPii_sync (h : datahubToOdg id mce = .ok m) :
    CarriesPii (odgToDatahubMce m) i ↔ ∃ f, mce.schemaFields[i]? = some f ∧ f.tags ≠ [] := by
  have hfields : (odgToDatahubMce m).schemaFields =
      mce.schemaFields.map fun f => encodeField (decodeField f) := by
    have hpush : (odgToDatahubMce m).schemaFields = m.schemaFields.map encodeField := rfl
    rw [hpush, schemaFields_of_datahubToOdg h, List.map_map]
    rfl
  simp only [CarriesPii, hfields, List.getElem?_map, Option.map_eq_some_iff]
  constructor
  · rintro ⟨_, ⟨f, hf, rfl⟩, htag⟩
    exact ⟨f, hf, piiTag_mem_tags_encodeField.1 htag⟩
  · rintro ⟨f, hf, htags⟩
    exact ⟨_, ⟨f, hf, rfl⟩, piiTag_mem_tags_encodeField.2 htags⟩

/-- No mark is lost. -/
theorem carriesPii_sync_of (h : datahubToOdg id mce = .ok m) (hi : CarriesPii mce i) :
    CarriesPii (odgToDatahubMce m) i := by
  obtain ⟨f, hf, htag⟩ := hi
  exact (carriesPii_sync h).2 ⟨f, hf, List.ne_nil_of_mem htag⟩

/-- The marks are those from before exactly if each field that has a tag is marked. -/
theorem keepsMarks_iff (h : datahubToOdg id mce = .ok m) :
    KeepsMarks mce (odgToDatahubMce m) ↔
      ∀ f ∈ mce.schemaFields, f.tags ≠ [] → piiTag ∈ f.tags := by
  simp only [KeepsMarks, carriesPii_sync h]
  constructor
  · intro hkeeps f hf htags
    obtain ⟨i, hi⟩ := List.mem_iff_getElem?.1 hf
    obtain ⟨f', hf', htag⟩ := (hkeeps i).1 ⟨f, hi, htags⟩
    obtain rfl := Option.some.inj (hi.symm.trans hf')
    exact htag
  · intro hmarked i
    constructor
    · rintro ⟨f, hf, htags⟩
      exact ⟨f, hf, hmarked f (List.mem_of_getElem? hf) htags⟩
    · rintro ⟨f, hf, htag⟩
      exact ⟨f, hf, List.ne_nil_of_mem htag⟩

/-- An event of DataHub is pulled and pushed with the marks that it had exactly if it can be
    read and each of its fields that has a tag is marked. -/
theorem sync_keepsMarks_iff (id : UUID) (mce : SchemaMCE) :
    (∃ m, datahubToOdg id mce = .ok m ∧ KeepsMarks mce (odgToDatahubMce m)) ↔
      Readable mce ∧ ∀ f ∈ mce.schemaFields, f.tags ≠ [] → piiTag ∈ f.tags := by
  have hreadable : (∃ m, datahubToOdg id mce = .ok m) ↔ Readable mce :=
    exists_datahubToOdg_iff_readable
  rw [← hreadable]
  constructor
  · rintro ⟨m, hm, hkeeps⟩
    exact ⟨⟨m, hm⟩, (keepsMarks_iff hm).1 hkeeps⟩
  · rintro ⟨⟨m, hm⟩, hmarked⟩
    exact ⟨m, hm, (keepsMarks_iff hm).2 hmarked⟩

namespace Sensitive

/-- A field with a tag that is not the one of personal data. -/
def field : MceField :=
  ⟨some "balance", some "double", none, some "", some false, some (some ["urn:li:tag:Sensitive"])⟩

/-- An event of a dataset with this field. -/
def event : SchemaMCE :=
  ⟨some "dataset", some (datasetUrn "opendatagov" "accounts"), some "schemaMetadata",
    some ⟨some "accounts", none, some [field], none⟩, some "UPSERT"⟩

/-- The field is marked when it comes back. -/
theorem not_keepsMarks_event : ¬∀ (id : UUID) (mce : SchemaMCE),
    parseDatasetId (mce.entityUrn.getD "") ≠ "" →
      ∃ m, datahubToOdg id mce = .ok m ∧ KeepsMarks mce (odgToDatahubMce m) := fun h => by
  obtain ⟨m, hm, hkeeps⟩ := h ⟨0⟩ event (by decide)
  have hmem : field ∈ event.schemaFields := List.mem_singleton_self field
  have hmarked := (keepsMarks_iff hm).1 hkeeps field hmem (by decide)
  exact absurd hmarked (by decide)

end Sensitive

end Metadata

end OpenDataGov
