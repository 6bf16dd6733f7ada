import OpenDataGov.Metadata.Datahub

/-!
# Lineage

The datasets of OpenLineage (`odgToOpenlineageDataset`), and the lineage that DataHub takes
from the events of OpenLineage (`openlineageToDatahubMce`).

There are two ways that a dataset of the platform gets a URN: as an entity of the catalog, with
the platform `opendatagov`, and as a dataset of an event, whose namespace takes the place of the
platform. To compare them is to compare texts with commas between their parts.

* `mem_lineageEdges_iff`: the edges go from all the inputs of an event to all its outputs;
* `datasetToUrn_ne_entityUrn`: a dataset of the platform is recorded under a URN that no
  entity of the catalog has, as its namespace is not the platform of the catalog;
* `recorded_ne_entityUrn`: so are the inputs and the outputs of all events, and the ends of
  their edges;
* `faithful_iff`: the edges of an event are all the pairs of its inputs and outputs, and no
  two of its datasets become one, unless commas in their namespaces and names make them
  look the same.
-/

namespace OpenDataGov

namespace Metadata

/-- A dataset of OpenLineage. The keys may be missing when it is read. -/
structure OpenLineageDataset where
  nameSpace : Option String
  name : Option String
  facets : Option Json.Value

/-- The value of an optional score. -/
def scoreValue (score : Option Json.PyFloat) : Json.Value :=
  .scalar (score.elim .null .float)

/-- A text, as a value of JSON. -/
def jsonText (s : String) : Json.Value := .scalar (.str s)

/-- The metadata of a dataset, as a dataset of OpenLineage. -/
def odgToOpenlineageDataset (metadata : ODGDatasetMetadata) : OpenLineageDataset where
  nameSpace := some s!"opendatagov://{metadata.domainId.text}"
  name := some metadata.datasetId.text
  facets := some (.obj [
    ("schema", .obj [
      ("_producer", jsonText "opendatagov"),
      ("_schemaURL",
        jsonText "https://openlineage.io/spec/facets/1-0-0/SchemaDatasetFacet.json"),
      ("fields", .arr (metadata.schemaFields.map fun f => .obj [
        ("name", jsonText f.name),
        ("type", jsonText f.dataType),
        ("description", jsonText f.description)]))]),
    ("dataQualityMetrics", .obj [
      ("_producer", jsonText "opendatagov"),
      ("_schemaURL", jsonText
        "https://openlineage.io/spec/facets/1-0-0/DataQualityMetricsInputDatasetFacet.json"),
      ("qualityScore", scoreValue metadata.qualityScore)]),
    ("ownership", .obj [
      ("_producer", jsonText "opendatagov"),
      ("owners", .arr [.obj [
        ("name", jsonText metadata.ownerId.text),
        ("type", jsonText "DATAOWNER")]])])])

/-- The job of an event, as far as it is read. -/
structure Job where
  name : Option String

/-- An event of OpenLineage, as far as it is read. The keys may be missing. -/
structure RunEvent where
  job : Option Job
  inputs : Option (List OpenLineageDataset)
  outputs : Option (List OpenLineageDataset)

/-- An edge of the lineage. -/
structure LineageEdge where
  sourceUrn : String
  destinationUrn : String
  type : String
  deriving DecidableEq

/-- The aspect `dataJobInputOutput`. -/
structure DataJobInputOutput where
  inputDatasets : List String
  outputDatasets : List String

/-- The event of DataHub that a run of a job comes to. -/
structure DataJobMCE where
  entityType : String
  entityUrn : String
  aspectName : String
  aspect : DataJobInputOutput
  changeType : String
  lineageEdges : List LineageEdge

/-- The URN of a dataset of OpenLineage in DataHub. -/
def datasetToUrn (dataset : OpenLineageDataset) : String :=
  datasetUrn (dataset.nameSpace.getD "opendatagov") (dataset.name.getD "unknown")

/-- An event of OpenLineage, as an event of DataHub. -/
def openlineageToDatahubMce (event : RunEvent) : DataJobMCE :=
  let job := event.job.getD ⟨none⟩
  let inputs := event.inputs.getD []
  let outputs := event.outputs.getD []
  let name := job.name.getD "unknown"
  { entityType := "dataJob"
    entityUrn := s!"urn:li:dataJob:(urn:li:dataFlow:(opendatagov,{name},PROD),{name})"
    aspectName := "dataJobInputOutput"
    aspect := {
      inputDatasets := inputs.map datasetToUrn
      outputDatasets := outputs.map datasetToUrn }
    changeType := "UPSERT"
    lineageEdges := outputs.flatMap fun output => inputs.map fun inp =>
      ⟨datasetToUrn inp, datasetToUrn output, "TRANSFORMED"⟩ }

variable {event : RunEvent} {m : ODGDatasetMetadata}

/-- The edges go from the inputs of an event to its outputs. -/
theorem mem_lineageEdges_iff {e : LineageEdge} :
    e ∈ (openlineageToDatahubMce event).lineageEdges ↔
      ∃ inp ∈ event.inputs.getD [], ∃ output ∈ event.outputs.getD [],
        e = ⟨datasetToUrn inp, datasetToUrn output, "TRANSFORMED"⟩ := by
  simp only [openlineageToDatahubMce, List.mem_flatMap, List.mem_map]
  constructor
  · rintro ⟨output, houtput, inp, hinp, rfl⟩
    exact ⟨inp, hinp, output, houtput, rfl⟩
  · rintro ⟨inp, hinp, output, houtput, rfl⟩
    exact ⟨output, houtput, inp, hinp, rfl⟩

/-- A platform that goes on after another one, with something else than a comma, makes
    another URN. -/
theorem urn_ne {start platform rest name name' : String} {c : Char} {cs : List Char}
    (hrest : rest.toList = c :: cs) (hc : c ≠ ',') :
    start ++ (platform ++ rest) ++ "," ++ name ++ ",PROD)" ≠
      start ++ platform ++ "," ++ name' ++ ",PROD)" := fun h => by
  have hlist := congrArg String.toList h
  rw [toList_urn, toList_urn, String.toList_append, hrest] at hlist
  simp only [List.append_assoc, List.append_cancel_left_eq, List.cons_append,
    List.cons.injEq] at hlist
  exact hc hlist.1

/-- A dataset of the platform has a URN that no entity of the catalog has: the namespace of
    its domain stands where the catalog has the platform. -/
theorem datasetToUrn_ne_entityUrn (m m' : ODGDatasetMetadata) :
    some (datasetToUrn (odgToOpenlineageDataset m)) ≠ (odgToDatahubMce m').entityUrn := by
  have hnamespace : ("://" ++ m.domainId.text).toList =
      ':' :: '/' :: '/' :: m.domainId.text.toList := by
    rw [String.toList_append]
    rfl
  have hne : datasetUrn ("opendatagov" ++ ("://" ++ m.domainId.text)) m.datasetId.text ≠
      datasetUrn "opendatagov" m'.datasetId.text := urn_ne hnamespace (by decide)
  exact fun h => hne (Option.some.inj h)

/-- A dataset is recorded as an input and as an output of the event under its URN in the
    catalog. -/
def NamedAlike (m : ODGDatasetMetadata) (event : RunEvent) : Prop :=
  (∀ i : ℕ, (event.inputs.getD [])[i]? = some (odgToOpenlineageDataset m) →
    (openlineageToDatahubMce event).aspect.inputDatasets[i]? = (odgToDatahubMce m).entityUrn) ∧
  (∀ i : ℕ, (event.outputs.getD [])[i]? = some (odgToOpenlineageDataset m) →
    (openlineageToDatahubMce event).aspect.outputDatasets[i]? = (odgToDatahubMce m).entityUrn)

/-- Wherever a dataset is among others, its URN there is not that in the catalog. -/
theorem getElem?_map_datasetToUrn_ne {ds : List OpenLineageDataset} {i : ℕ}
    (hi : ds[i]? = some (odgToOpenlineageDataset m)) :
    (ds.map datasetToUrn)[i]? ≠ (odgToDatahubMce m).entityUrn := by
  rw [List.getElem?_map, hi, Option.map_some]
  exact datasetToUrn_ne_entityUrn m m

/-- Wherever a dataset is an input or an output of an event, it is recorded under another URN
    than its own in the catalog. -/
theorem recorded_ne_entityUrn (m : ODGDatasetMetadata) (event : RunEvent) :
    (∀ i : ℕ, (event.inputs.getD [])[i]? = some (odgToOpenlineageDataset m) →
      (openlineageToDatahubMce event).aspect.inputDatasets[i]? ≠
        (odgToDatahubMce m).entityUrn) ∧
    (∀ i : ℕ, (event.outputs.getD [])[i]? = some (odgToOpenlineageDataset m) →
      (openlineageToDatahubMce event).aspect.outputDatasets[i]? ≠
        (odgToDatahubMce m).entityUrn) :=
  ⟨fun _ hi => getElem?_map_datasetToUrn_ne hi, fun _ hi => getElem?_map_datasetToUrn_ne hi⟩

namespace Revenue

/-- A run that reads the dataset of revenue. -/
def run : RunEvent :=
  ⟨some ⟨some "promote-revenue"⟩, some [odgToOpenlineageDataset (dataset datasetId)], none⟩

/-- The input of a run is not recorded as the entity of its dataset, -/
theorem recorded_ne_run : (openlineageToDatahubMce run).aspect.inputDatasets[0]? ≠
    (odgToDatahubMce (dataset datasetId)).entityUrn :=
  (recorded_ne_entityUrn (dataset datasetId) run).1 0 rfl

/-- and so it is with all of them. -/
theorem not_namedAlike : ¬∀ m event, NamedAlike m event := fun h => by
  have hfirst := (h (dataset datasetId) run).1 0 rfl
  exact datasetToUrn_ne_entityUrn _ _ hfirst

end Revenue

/-! ### The datasets of an event -/

namespace OpenLineageDataset

/-- The namespace and the name of a dataset, as they are read. -/
def readNameSpace (d : OpenLineageDataset) : String := d.nameSpace.getD "opendatagov"

/-- The name of a dataset, as it is read from an event. -/
def readName (d : OpenLineageDataset) : String := d.name.getD "unknown"

end OpenLineageDataset

/-- All the datasets of an event. -/
def RunEvent.datasets (event : RunEvent) : List OpenLineageDataset :=
  event.inputs.getD [] ++ event.outputs.getD []

/-- The edges go from each input to each output, place by place, and different datasets are
    recorded under different URNs. -/
def Faithful (event : RunEvent) : Prop :=
  ((openlineageToDatahubMce event).lineageEdges =
    ((openlineageToDatahubMce event).aspect.outputDatasets.product
      (openlineageToDatahubMce event).aspect.inputDatasets).map
        fun urns => ⟨urns.2, urns.1, "TRANSFORMED"⟩) ∧
  ∀ d ∈ event.datasets, ∀ d' ∈ event.datasets, datasetToUrn d = datasetToUrn d' →
    d.readNameSpace = d'.readNameSpace ∧ d.readName = d'.readName

/-- The namespace of `d'` is that of `d`, a comma and some more, which stands before a comma
    and the name of `d'` in the name of `d`. -/
def Confused (d d' : OpenLineageDataset) : Prop :=
  ∃ x : String, d'.readNameSpace = d.readNameSpace ++ "," ++ x ∧
    d.readName = x ++ "," ++ d'.readName

/-- Of a URN, the platform and the name are left, with the comma between them. -/
theorem urn_eq_iff {start platform platform' name name' : String} :
    start ++ platform ++ "," ++ name ++ ",PROD)" = start ++ platform' ++ "," ++ name' ++ ",PROD)" ↔
      platform.toList ++ ',' :: name.toList = platform'.toList ++ ',' :: name'.toList := by
  rw [← String.toList_inj, toList_urn, toList_urn, List.append_assoc, List.append_assoc,
    List.append_right_inj, ← List.cons_append, ← List.append_assoc, ← List.cons_append,
    ← List.append_assoc, List.append_left_inj]

/-- Two datasets are confused if what the one has in its name, the other has in its namespace. -/
theorem confused_iff {d d' : OpenLineageDataset} : Confused d d' ↔
    ∃ x : List Char, d'.readNameSpace.toList = d.readNameSpace.toList ++ ',' :: x ∧
      d.readName.toList = x ++ ',' :: d'.readName.toList := by
  constructor
  · rintro ⟨x, hspace, hname⟩
    exact ⟨x.toList, by simp [hspace], by simp [hname]⟩
  · rintro ⟨x, hspace, hname⟩
    refine ⟨String.ofList x, ?_, ?_⟩
    · rw [← String.toList_inj, hspace]
      simp
    · rw [← String.toList_inj, hname]
      simp

/-- Two datasets have the same URN if they have the same namespace and name, or if one can
    be confused with the other. -/
theorem datasetToUrn_eq_iff {d d' : OpenLineageDataset} : datasetToUrn d = datasetToUrn d' ↔
    (d.readNameSpace = d'.readNameSpace ∧ d.readName = d'.readName) ∨
      Confused d d' ∨ Confused d' d := by
  have hurn : datasetToUrn d = datasetToUrn d' ↔
      d.readNameSpace.toList ++ ',' :: d.readName.toList =
        d'.readNameSpace.toList ++ ',' :: d'.readName.toList := urn_eq_iff
  rw [hurn, Text.append_cons_eq_iff, confused_iff, confused_iff, String.toList_inj,
    String.toList_inj]

/-- The edges are all the pairs of an input and an output. -/
theorem lineageEdges_eq_product (event : RunEvent) :
    (openlineageToDatahubMce event).lineageEdges =
      ((openlineageToDatahubMce event).aspect.outputDatasets.product
        (openlineageToDatahubMce event).aspect.inputDatasets).map
          fun urns => ⟨urns.2, urns.1, "TRANSFORMED"⟩ := by
  simp only [openlineageToDatahubMce, List.product, List.flatMap_map, List.map_flatMap,
    List.map_map, Function.comp_def]

/-- The lineage of an event is faithful exactly if none of its datasets can be confused with
    another one. -/
theorem faithful_iff (event : RunEvent) :
    Faithful event ↔ ∀ d ∈ event.datasets, ∀ d' ∈ event.datasets, ¬Confused d d' := by
  constructor
  · rintro ⟨_, hinj⟩ d hd d' hd' hconfused
    -- The namespaces are not the same, as one of them is longer.
    have hspace := (hinj d hd d' hd' (datasetToUrn_eq_iff.2 (.inr (.inl hconfused)))).1
    obtain ⟨x, hlonger, _⟩ := hconfused
    rw [← hspace] at hlonger
    have hlength := congrArg String.length hlonger
    simp only [String.length_append] at hlength
    have hcomma : (",").length = 1 := by decide
    omega
  · intro hclear
    refine ⟨lineageEdges_eq_product event, fun d hd d' hd' hurn => ?_⟩
    rcases datasetToUrn_eq_iff.1 hurn with hsame | hconfused | hconfused
    · exact hsame
    · exact absurd hconfused (hclear d hd d' hd')
    · exact absurd hconfused (hclear d' hd' d hd)

namespace DataLake

/-- Two datasets of a data lake, on different platforms. -/
def raw : OpenLineageDataset := ⟨some "s3://lake,raw", some "orders", none⟩

/-- A dataset with a comma in its name. -/
def orders : OpenLineageDataset := ⟨some "s3://lake", some "raw,orders", none⟩

/-- A run that reads the one and writes the other. -/
def run : RunEvent := ⟨none, some [raw], some [orders]⟩

/-- They are one in the graph. -/
theorem not_faithful_run : ¬∀ event : RunEvent, Faithful event := fun h => by
  have hraw : raw ∈ run.datasets := List.mem_cons_self
  have horders : orders ∈ run.datasets := List.mem_cons_of_mem _ List.mem_cons_self
  have hsame := (h run).2 raw hraw orders horders (by decide)
  exact absurd hsame.1 (by decide)

end DataLake

end Metadata

end OpenDataGov
