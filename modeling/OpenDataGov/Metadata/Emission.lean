import OpenDataGov.Core.Basic
import OpenDataGov.Lib.Attempts
import OpenDataGov.Lib.Dict
import OpenDataGov.Lib.Graphs
import OpenDataGov.Metadata.Lineage

/-!
# The lineage of all runs

Runs of jobs emit events of OpenLineage (`emitLineageEvent`), of which DataHub records the edges.
Datasets are written from others in one run, and are read in later ones: the lineage of a dataset
is what it can be reached from.

This is about two functions that the repository has for the two ends of a pipeline, and says
what the pipeline comes to. The repository does not connect them yet: `emit_lineage_event` writes
the event to the log, and nothing calls `openlineage_to_datahub_mce`. The events that are emitted
are taken to reach it here, each of them, as they are.

* `succeeds_emitLineageEvent`: an event is emitted exactly if all its datasets have a namespace
  and a name, and no facets;
* `recorded_eq_map`: the graph that is recorded is that of the runs, with URNs for datasets;
* `lineage_iff`: so a dataset is recorded to come from another one exactly if it does, through
  any number of runs, unless commas make datasets look the same.

The last one is a fact about graphs, of which the one is the image of the other under a function
that is injective on the datasets in question (`Lib.Graphs`). What has become of a run does not
matter: one that has failed is recorded like any other.
-/

namespace OpenDataGov

namespace Metadata

open Keyed Attempts

/-! ## Emitting events -/

/-- A `LineageDataset`. -/
structure LineageDataset where
  nameSpace : String
  name : String
  facets : Json.Value

namespace LineageDataset

variable (fields : Dict String String)

/-- A field that has to be there. -/
def required (field : String) : Validated String :=
  match fields.find? field with
  | some s => .ok s
  | none => .error [field]

/-- Facets are a dictionary, which no string is. Without any, there are none. -/
def noFacets : Validated Json.Value :=
  match fields.find? "facets" with
  | none => .ok (.obj [])
  | some _ => .error ["facets"]

/-- `LineageDataset(**fields)`. -/
def new : Except Error LineageDataset := do
  let (nameSpace, name, facets) ← ((required fields "namespace").and
    ((required fields "name").and (noFacets fields))).model "LineageDataset"
  return { nameSpace, name, facets }

/-- The dictionary of a dataset, as it is read. -/
def modelDump (d : LineageDataset) : OpenLineageDataset :=
  ⟨some d.nameSpace, some d.name, some d.facets⟩

end LineageDataset

/-- A `LineageJob`. -/
structure LineageJob where
  nameSpace : String := "opendatagov"
  name : String

/-- A `LineageRunEvent`. -/
structure LineageRunEvent where
  eventType : String
  eventTime : Calendar.DateTime
  run : Dict String String
  job : LineageJob
  inputs : List LineageDataset
  outputs : List LineageDataset
  producer : String := "opendatagov"
  schemaUrl : String := "https://openlineage.io/spec/1-0-5/OpenLineage.json#/definitions/RunEvent"

/-- The dictionary of an event, as far as it is read. -/
def LineageRunEvent.modelDump (event : LineageRunEvent) : RunEvent where
  job := some ⟨some event.job.name⟩
  inputs := some (event.inputs.map (·.modelDump))
  outputs := some (event.outputs.map (·.modelDump))

/-- A call of `emit_lineage_event`, with the identifier and the time that its event gets. -/
structure Emission where
  jobName : String
  inputs : List (Dict String String)
  outputs : List (Dict String String)
  eventType : String := "COMPLETE"
  runId : UUID
  now : Calendar.DateTime

/-- Creating the event of a run, which is then logged. -/
def Emission.emitLineageEvent (a : Emission) : Except Error LineageRunEvent := do
  let inputs ← a.inputs.mapM LineageDataset.new
  let outputs ← a.outputs.mapM LineageDataset.new
  return {
    eventType := a.eventType
    eventTime := a.now
    run := .ofList [("runId", a.runId.str)]
    job := { name := a.jobName }
    inputs := inputs
    outputs := outputs }

/-- The events of some calls. -/
def emitted (calls : List Emission) : List LineageRunEvent :=
  calls.filterMap fun a => a.emitLineageEvent.toOption

/-! ## What is emitted -/

/-- A dataset is known by its namespace and its name. -/
abbrev DatasetId := String × String

/-- The dictionary is that of a dataset. -/
def Describes (fields : Dict String String) (id : DatasetId) : Prop :=
  fields.find? "namespace" = some id.1 ∧ fields.find? "name" = some id.2 ∧
    fields.find? "facets" = none

section Emissions

variable {fields : Dict String String} {d : LineageDataset} {a : Emission} {event : LineageRunEvent}

/-- A field is there, with this text. -/
theorem required_eq_ok {field s : String} :
    LineageDataset.required fields field = .ok s ↔ fields.find? field = some s := by
  rw [LineageDataset.required]
  cases fields.find? field with
  | none => simp
  | some s' => simp

/-- Facets would have to be a dictionary, which a text is not, so that there must be none. -/
theorem noFacets_eq_ok {v : Json.Value} : LineageDataset.noFacets fields = .ok v ↔
    fields.find? "facets" = none ∧ v = .obj [] := by
  rw [LineageDataset.noFacets]
  cases fields.find? "facets" with
  | none => simp [eq_comm]
  | some s => simp

/-- A dataset is made of a namespace, a name and no facets, -/
theorem new_eq_ok_iff : LineageDataset.new fields = .ok d ↔
    Describes fields (d.nameSpace, d.name) ∧ d.facets = .obj [] := by
  obtain ⟨nameSpace, name, facets⟩ := d
  rw [LineageDataset.new, Validated.model_bind_eq_ok]
  constructor
  · rintro ⟨⟨nameSpace', name', facets'⟩, hfields, h⟩
    cases h
    obtain ⟨hnameSpace, hrest⟩ := Validated.and_eq_ok.1 hfields
    obtain ⟨hname, hfacets⟩ := Validated.and_eq_ok.1 hrest
    obtain ⟨hnone, rfl⟩ := noFacets_eq_ok.1 hfacets
    exact ⟨⟨required_eq_ok.1 hnameSpace, required_eq_ok.1 hname, hnone⟩, rfl⟩
  · rintro ⟨⟨hnameSpace, hname, hnone⟩, rfl⟩
    refine ⟨(nameSpace, name, .obj []), ?_, rfl⟩
    refine Validated.and_eq_ok.2 ⟨required_eq_ok.2 hnameSpace, ?_⟩
    exact Validated.and_eq_ok.2 ⟨required_eq_ok.2 hname, noFacets_eq_ok.2 ⟨hnone, rfl⟩⟩

/-- exactly if there are these two. -/
theorem succeeds_new : Succeeds (LineageDataset.new fields) ↔ ∃ id, Describes fields id := by
  constructor
  · rintro ⟨d, hd⟩
    exact ⟨_, (new_eq_ok_iff.1 hd).1⟩
  · rintro ⟨id, hid⟩
    exact ⟨⟨id.1, id.2, .obj []⟩, new_eq_ok_iff.2 ⟨hid, rfl⟩⟩

/-- An event is emitted exactly if all its datasets can be described. -/
theorem succeeds_emitLineageEvent : Succeeds a.emitLineageEvent ↔
    ∀ fields ∈ a.inputs ++ a.outputs, ∃ id, Describes fields id := by
  simp only [← succeeds_new, List.forall_mem_append, ← succeeds_mapM]
  rw [Emission.emitLineageEvent, succeeds_bind]
  constructor
  · rintro ⟨inputs, hinputs, h⟩
    obtain ⟨outputs, houtputs, -⟩ := succeeds_bind.1 h
    exact ⟨⟨inputs, hinputs⟩, ⟨outputs, houtputs⟩⟩
  · rintro ⟨⟨inputs, hinputs⟩, ⟨outputs, houtputs⟩⟩
    exact ⟨inputs, hinputs, succeeds_bind.2 ⟨outputs, houtputs, ⟨_, rfl⟩⟩⟩

/-- The inputs and the outputs of an event are those of its call. -/
theorem emitLineageEvent_eq_ok (h : a.emitLineageEvent = .ok event) :
    a.inputs.mapM LineageDataset.new = .ok event.inputs ∧
      a.outputs.mapM LineageDataset.new = .ok event.outputs := by
  obtain ⟨inputs, hinputs, h⟩ := bind_eq_ok_iff.1 h
  obtain ⟨outputs, houtputs, h⟩ := bind_eq_ok_iff.1 h
  cases h
  exact ⟨hinputs, houtputs⟩

/-- The events of the calls that have succeeded. -/
theorem mem_emitted {calls : List Emission} :
    event ∈ emitted calls ↔ ∃ a ∈ calls, a.emitLineageEvent = .ok event := by
  rw [emitted, List.mem_filterMap]
  refine exists_congr fun a => and_congr_right fun _ => ?_
  cases a.emitLineageEvent with
  | ok event' => simp [Except.toOption]
  | error e => simp [Except.toOption]

end Emissions

/-! ## The graph of datasets -/

/-- The URN of a dataset. -/
def DatasetId.urn (id : DatasetId) : String := datasetUrn id.1 id.2

/-- Some run, of which there is an event, reads the first dataset and writes the second one. -/
def Flows (calls : List Emission) (id id' : DatasetId) : Prop :=
  ∃ a ∈ calls, Succeeds a.emitLineageEvent ∧ (∃ fields ∈ a.inputs, Describes fields id) ∧
    ∃ fields ∈ a.outputs, Describes fields id'

/-- There is an edge in DataHub, which takes its edges from the events that are emitted. The
    repository does not send them there yet: it has the function that takes the edges from an
    event, and none that calls it. -/
def Recorded (calls : List Emission) (u v : String) : Prop :=
  ∃ event ∈ emitted calls, ∃ e ∈ (openlineageToDatahubMce event.modelDump).lineageEdges,
    e.sourceUrn = u ∧ e.destinationUrn = v

/-- Of two datasets, the URNs may be the same. -/
def DatasetId.Confused (id id' : DatasetId) : Prop :=
  ∃ x : String, id'.1 = id.1 ++ "," ++ x ∧ id.2 = x ++ "," ++ id'.2

section Lineage

variable {calls : List Emission} {ids : Set DatasetId} {id id' : DatasetId}

/-- The datasets of an event are those that its call describes. -/
theorem exists_dataset_iff {l : List (Dict String String)} {ds : List LineageDataset}
    (h : l.mapM LineageDataset.new = .ok ds) :
    (∃ d ∈ ds, (d.nameSpace, d.name) = id) ↔ ∃ fields ∈ l, Describes fields id := by
  constructor
  · rintro ⟨d, hd, rfl⟩
    obtain ⟨fields, hfields, hnew⟩ := exists_of_mem_mapM h hd
    exact ⟨fields, hfields, (new_eq_ok_iff.1 hnew).1⟩
  · rintro ⟨fields, hfields, hid⟩
    obtain ⟨d, hd, hnew⟩ := exists_mem_of_mapM h hfields
    obtain ⟨⟨hnameSpace, hname, -⟩, -⟩ := new_eq_ok_iff.1 hnew
    refine ⟨d, hd, Prod.ext ?_ ?_⟩
    · exact Option.some.inj (hnameSpace.symm.trans hid.1)
    · exact Option.some.inj (hname.symm.trans hid.2.1)

/-- The edges of an event are those from its inputs to its outputs. -/
theorem exists_edge_iff {event : LineageRunEvent} {u v : String} :
    (∃ e ∈ (openlineageToDatahubMce event.modelDump).lineageEdges,
      e.sourceUrn = u ∧ e.destinationUrn = v) ↔
      ∃ inp ∈ event.inputs, ∃ output ∈ event.outputs,
        DatasetId.urn (inp.nameSpace, inp.name) = u ∧
          DatasetId.urn (output.nameSpace, output.name) = v := by
  simp only [mem_lineageEdges_iff]
  constructor
  · rintro ⟨_, ⟨_, hin, _, hout, rfl⟩, rfl, rfl⟩
    obtain ⟨inp, hinp, rfl⟩ := List.mem_map.1 hin
    obtain ⟨output, houtput, rfl⟩ := List.mem_map.1 hout
    exact ⟨inp, hinp, output, houtput, rfl, rfl⟩
  · rintro ⟨inp, hinp, output, houtput, rfl, rfl⟩
    refine ⟨_, ⟨_, List.mem_map_of_mem hinp, _, List.mem_map_of_mem houtput, rfl⟩, rfl, rfl⟩

/-- The graph that is recorded is that of the runs, with URNs for datasets. -/
theorem recorded_eq_map :
    Recorded calls = Relation.Map (Flows calls) DatasetId.urn DatasetId.urn := by
  funext u v
  refine propext ?_
  simp only [Recorded, mem_emitted, exists_edge_iff]
  constructor
  · rintro ⟨event, ⟨a, ha, hevent⟩, inp, hinp, output, houtput, hu, hv⟩
    obtain ⟨hinputs, houtputs⟩ := emitLineageEvent_eq_ok hevent
    refine ⟨_, _, ⟨a, ha, ⟨event, hevent⟩, ?_, ?_⟩, hu, hv⟩
    · exact (exists_dataset_iff hinputs).1 ⟨inp, hinp, rfl⟩
    · exact (exists_dataset_iff houtputs).1 ⟨output, houtput, rfl⟩
  · rintro ⟨id, id', ⟨a, ha, ⟨event, hevent⟩, hin, hout⟩, hu, hv⟩
    obtain ⟨hinputs, houtputs⟩ := emitLineageEvent_eq_ok hevent
    obtain ⟨inp, hinp, rfl⟩ := (exists_dataset_iff hinputs).2 hin
    obtain ⟨output, houtput, rfl⟩ := (exists_dataset_iff houtputs).2 hout
    exact ⟨event, ⟨a, ha, hevent⟩, inp, hinp, output, houtput, hu, hv⟩

/-- No two datasets have the same URN where none can be confused with another one. -/
theorem injOn_urn (h : ∀ id ∈ ids, ∀ id' ∈ ids, ¬DatasetId.Confused id id') :
    Set.InjOn DatasetId.urn ids := by
  intro id hid id' hid' hurn
  have hurns : datasetToUrn ⟨some id.1, some id.2, none⟩ =
    datasetToUrn ⟨some id'.1, some id'.2, none⟩ := hurn
  rcases datasetToUrn_eq_iff.1 hurns with ⟨hspace, hname⟩ | hconfused | hconfused
  · exact Prod.ext hspace hname
  · exact absurd hconfused (h id hid id' hid')
  · exact absurd hconfused (h id' hid' id hid)

/-- A dataset is not confused with one that has no comma in its namespace. -/
theorem not_confused_of_comma (h : ',' ∉ id'.1.toList) : ¬DatasetId.Confused id id' := by
  rintro ⟨x, hspace, -⟩
  refine h ?_
  rw [hspace]
  simp

/-- Whatever runs there have been, a dataset is recorded to come from another one exactly if it
    does, through any number of runs, and there is a cycle in what is recorded exactly if there
    is one, unless commas make two datasets look the same. -/
theorem lineage_iff (hids : Images.Within (Flows calls) ids)
    (h : ∀ id ∈ ids, ∀ id' ∈ ids, ¬DatasetId.Confused id id') :
    (∀ id ∈ ids, ∀ id' ∈ ids, Relation.TransGen (Recorded calls) id.urn id'.urn ↔
      Relation.TransGen (Flows calls) id id') ∧
    ((∃ u, Relation.TransGen (Recorded calls) u u) ↔
      ∃ id, Relation.TransGen (Flows calls) id id) := by
  rw [recorded_eq_map]
  have hinj := injOn_urn h
  exact ⟨fun id hid id' hid' => Images.transGen_map_iff hids hinj hid hid',
    Images.exists_cycle_map_iff hids hinj⟩

end Lineage

namespace Refinery

/-- A dataset of the lake. -/
def fields (name : String) : Dict String String := .ofList [("namespace", "lake"), ("name", name)]

/-- The run of a job that reads one dataset and writes another one. -/
def run (jobName inp output eventType : String) : Emission where
  jobName := jobName
  inputs := [fields inp]
  outputs := [fields output]
  eventType := eventType
  runId := ⟨0⟩
  now := ⟨0, some 0⟩

/-- The second run has failed. -/
def runs : List Emission :=
  [run "clean" "raw" "clean" "COMPLETE", run "refine" "clean" "refined" "FAIL"]

/-- The datasets of the example are all in one namespace, -/
theorem eq_of_describes {name : String} {id : DatasetId} (h : Describes (fields name) id) :
    id.1 = "lake" :=
  (Option.some.inj h.1).symm

/-- and so are those that the runs lead to, -/
theorem within_runs : Images.Within (Flows runs) { id | id.1 = "lake" } := by
  rintro id id' ⟨a, ha, -, ⟨inp, hinp, hid⟩, ⟨output, houtput, hid'⟩⟩
  have hfields : ∀ a ∈ runs, ∀ d ∈ a.inputs ++ a.outputs, ∃ name, d = fields name := by
    simp [runs, run]
  obtain ⟨name, rfl⟩ := hfields a ha inp (List.mem_append_left _ hinp)
  obtain ⟨name', rfl⟩ := hfields a ha output (List.mem_append_right _ houtput)
  exact ⟨eq_of_describes hid, eq_of_describes hid'⟩

/-- so that what is recorded of them is what they come from. -/
theorem lineage_runs :
    (∀ id ∈ { id : DatasetId | id.1 = "lake" }, ∀ id' ∈ { id : DatasetId | id.1 = "lake" },
      Relation.TransGen (Recorded runs) id.urn id'.urn ↔
        Relation.TransGen (Flows runs) id id') ∧
    ((∃ u, Relation.TransGen (Recorded runs) u u) ↔
      ∃ id, Relation.TransGen (Flows runs) id id) :=
  lineage_iff within_runs fun id hid id' (hid' : id'.1 = "lake") =>
    not_confused_of_comma (by rw [hid']; decide)

end Refinery

end Metadata

end OpenDataGov
