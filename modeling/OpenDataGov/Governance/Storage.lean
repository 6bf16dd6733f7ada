import Mathlib.Data.Set.List
import OpenDataGov.Core.Decisions
import OpenDataGov.Governance.Repository
import OpenDataGov.Lib.Attempts

/-!
# The rows of decisions

The repository of decisions as it works on the rows of its table: a decision is taken apart
into the columns of a row (`PgDecisionRepository.row`), and every row that is read is
validated. What is sent to the database (`Statement`) is answered from the rows; a column that
an update leaves as it was, as the session compares its values, is not set.

This is one level below the repositories of `Governance.Repository`, which are run on tables of
decisions. A row has what a decision has, in other types: texts in place of enumerations, the
promotion in columns of its own that are all null if there is none, the metadata as JSON. The
two levels are connected by `rowsOf`, the rows of a table of decisions, and each operation of the
repository does on these rows what it does on the table.

* `modelValidate_row`: a decision is made again from its row;
* `get?_afterAll`: whatever is done, the row of a decision is that of the decision as the
  updates have left it;
* `create_rowsOf`, `getById_rowsOf`, `update_rowsOf`: so the rows stand for the tables of
  decisions, on which the services are run.

Left out are the other columns of the tables, which are written and read as they are, and what
JSON does to the numbers in the metadata: whether two values are the same is a parameter of the
session (`Json.FloatEq`).
-/

namespace OpenDataGov

open Calendar Transact Program Keyed Decisions

namespace Storage

/-- The table of the rows. -/
abbrev Rows := Table GovernanceDecisionRow.id

/-- Setting the columns of an `UPDATE`. -/
def set (status : Bounded 0 30) (updatedAt : DateTime)
    (metadataJson : Option (Json.Dict Json.Scalar)) (r : GovernanceDecisionRow) :
    GovernanceDecisionRow :=
  { r with status := status, updatedAt := updatedAt, metadataJson := metadataJson }

theorem id_set (status : Bounded 0 30) (updatedAt : DateTime)
    (metadataJson : Option (Json.Dict Json.Scalar)) (r : GovernanceDecisionRow) :
    (set status updatedAt metadataJson r).id = r.id := rfl

/-- The statements about the rows. -/
inductive Statement
  | get (id : UUID)
  | insert (r : GovernanceDecisionRow)
  | update (id : UUID) (status : Bounded 0 30) (updatedAt : DateTime)
      (metadataJson : Option (Json.Dict Json.Scalar))
  | select (domainId status : Option String) (limit offset : ℕ)

/-- What is answered to a statement. -/
def Statement.Answer : Statement → Type
  | .get _ => Option GovernanceDecisionRow
  | .select .. => List GovernanceDecisionRow
  | .insert _ | .update .. => Unit

/-- The rows with the values, if any are asked for, from the latest on. -/
def selected [Postgres] (domainId status : Option String) (limit offset : ℕ) (t : Rows) :
    List GovernanceDecisionRow :=
  let rows := t.rows.filter fun r =>
    domainId.all (· = r.domainId.text) && status.all (· = r.status.text)
  ((orderBy (fun r : GovernanceDecisionRow => -r.createdAt.instant) rows).drop offset).take limit

/-- What the database answers. -/
def rowAnswer [Postgres] : (q : Statement) → Rows → Except Error q.Answer
  | .get id, t => .ok (t.get? id)
  | .insert r, t => inserted "governance_decisions" t r
  | .update .., _ => .ok ()
  | .select domainId status limit offset, t => .ok (selected domainId status limit offset t)

/-- What a statement does to the rows. -/
def rowEffect : Statement → Rows → Rows
  | .insert r, t => t.insert r
  | .update id status updatedAt metadataJson, t =>
    t.modify id (set status updatedAt metadataJson) (id_set status updatedAt metadataJson)
  | .get _, t | .select .., t => t

section

variable {t : Rows} {id id' : UUID} {status : Bounded 0 30} {updatedAt : DateTime}
  {metadataJson : Option (Json.Dict Json.Scalar)}

theorem get?_update_self : (rowEffect (.update id status updatedAt metadataJson) t).get? id =
    (t.get? id).map (set status updatedAt metadataJson) := by
  simp only [rowEffect, Table.get?_modify_self]

theorem get?_update_of_ne (h : id' ≠ id) :
    (rowEffect (.update id status updatedAt metadataJson) t).get? id' = t.get? id' := by
  simp only [rowEffect, Table.get?_modify_of_ne h]

end

/-- The rows that a statement locks. -/
def rowLocks : Statement → List Lock
  | .insert r => [.row .decisions r.id]
  | .update id .. => [.row .decisions id]
  | .get _ | .select .. => []

/-- The database, with the rows of the decisions. -/
def rowBackend [Postgres] : Backend Statement.Answer Error Rows Lock :=
  ⟨rowAnswer, rowEffect, rowLocks⟩

/-! ## The repository -/

/-- The column of a text of a model, which is as wide as the model allows. -/
def textColumn {min max : ℕ} (t : Bounded min max) : Bounded 0 max :=
  ⟨t.text, Nat.zero_le _, t.bounds.2⟩

/-- The column of a member of an enumeration, when it is wide enough for all of them. -/
def enumColumn {α : Type} [StrEnum α] {max : ℕ}
    (h : ∀ a ∈ StrEnum.members.rows, (StrEnum.value (a : α)).length ≤ max) (a : α) :
    Bounded 0 max :=
  ⟨StrEnum.value a, Nat.zero_le _, h a (StrEnum.mem_members a)⟩

/-- The values of the enumerations are short enough for their columns: of the types, -/
theorem length_decisionType :
    ∀ a ∈ StrEnum.members.rows, (StrEnum.value (a : DecisionType)).length ≤ 50 := by decide

/-- the statuses, -/
theorem length_status :
    ∀ a ∈ StrEnum.members.rows, (StrEnum.value (a : DecisionStatus)).length ≤ 30 := by decide

/-- the layers, -/
theorem length_layer :
    ∀ a ∈ StrEnum.members.rows, (StrEnum.value (a : MedallionLayer)).length ≤ 20 := by decide

/-- and the classifications. -/
theorem length_classification :
    ∀ a ∈ StrEnum.members.rows, (StrEnum.value (a : DataClassification)).length ≤ 20 := by decide

/-- The programs of the repository. -/
abbrev RowProg := Program Statement.Answer Error

/-- Sending a statement. -/
abbrev execute (q : Statement) : RowProg q.Answer := send q

namespace PgDecisionRepository

/-- The row of a decision. -/
def row (decision : GovernanceDecision) : GovernanceDecisionRow where
  id := decision.id
  decisionType := enumColumn length_decisionType decision.decisionType
  title := textColumn decision.title
  description := decision.description
  status := enumColumn length_status decision.status
  domainId := textColumn decision.domainId
  createdBy := textColumn decision.createdBy
  createdAt := decision.createdAt
  updatedAt := decision.updatedAt
  metadataJson := some decision.metadata
  sourceLayer := decision.promotion.map fun p => enumColumn length_layer p.sourceLayer
  targetLayer := decision.promotion.map fun p => enumColumn length_layer p.targetLayer
  dataClassification := decision.promotion.bind fun p =>
    p.dataClassification.map (enumColumn length_classification)

/-- The row after the columns have been assigned and flushed. Metadata that are equal to those
    of the row are not set. If something is, `updated_at` is the time assigned if it is new,
    and the time now otherwise. -/
def flushed [Json.FloatEq] (r : GovernanceDecisionRow) (decision : GovernanceDecision)
    (now : DateTime) : GovernanceDecisionRow :=
  let status := enumColumn length_status decision.status
  let same := r.metadataJson.any fun m => decision.metadata.eq m
  let updatedAt :=
    if decision.updatedAt.instant ≠ r.updatedAt.instant then decision.updatedAt
    else if status ≠ r.status ∨ same = false then now
    else r.updatedAt
  set status updatedAt (if same then r.metadataJson else some decision.metadata) r

variable [Conversions] (defaults : Defaults)

/-- `create`: the row is inserted, and validated. -/
def create (decision : GovernanceDecision) : RowProg GovernanceDecision := do
  let r := row decision
  execute (.insert r)
  ofExcept (GovernanceDecision.modelValidate defaults (.row r))

/-- `get_by_id`. -/
def getById (decisionId : UUID) : RowProg (Option GovernanceDecision) := do
  match ← execute (.get decisionId) with
  | none => return none
  | some r => return some (← ofExcept (GovernanceDecision.modelValidate defaults (.row r)))

/-- `update`: the row is read, changed in the session, and flushed. -/
def update [Json.FloatEq] (decision : GovernanceDecision) (now : DateTime) :
    RowProg GovernanceDecision := do
  match ← execute (.get decision.id) with
  | none => raise (.valueError s!"Decision {decision.id} not found")
  | some r =>
    let r' := flushed r decision now
    execute (.update r.id r'.status r'.updatedAt r'.metadataJson)
    -- The row in the session has the metadata assigned, whether they have been set or not.
    ofExcept (GovernanceDecision.modelValidate defaults
      (.row { r' with metadataJson := some decision.metadata }))

/-- The decisions of a domain, or with a status. An empty name asks for none. -/
def listDecisions (domainId : Option String) (status : Option DecisionStatus)
    (limit : ℕ := 50) (offset : ℕ := 0) : RowProg (List GovernanceDecision) := do
  let rows ← execute (.select (domainId.filter (· ≠ "")) (status.map StrEnum.value) limit offset)
  ofExcept (rows.mapM fun r => GovernanceDecision.modelValidate defaults (.row r))

end PgDecisionRepository

open Storage.PgDecisionRepository GovernanceDecision

/-! ## Rows and decisions -/

/-- The attributes of a row are those of the decision. -/
theorem presents_attributes (d : GovernanceDecision) : Presents (attributes (row d)) d :=
  ⟨rfl, rfl, rfl, rfl, rfl, rfl, rfl, rfl, rfl, rfl⟩

/-- A decision is made again from its row: what is known of its promotion stands in three
    columns, which are empty if there is none. -/
theorem modelValidate_row [Conversions] (defaults : Defaults) (d : GovernanceDecision) :
    modelValidate defaults (.row (row d)) = .ok d := by
  have hpresents := presents_attributes d
  rw [modelValidate, Validated.model_eq_ok]
  -- Without a promotion the columns are validated as they are; with one, the nested value is
  -- assembled out of its three columns first.
  cases hd : d.promotion with
  | none =>
    have hassemble : assemblePromotion (.row (row d)) = attributes (row d) := by
      simp only [assemblePromotion, row, hd, Option.map_none]
    rw [hassemble]
    exact hpresents.fields_of_none defaults rfl hd
  | some p =>
    have hclassification : (row d).dataClassification.map Bounded.text =
        p.dataClassification.map StrEnum.value := by
      rw [row, hd, Option.bind_some, Option.map_map]
      rfl
    have hassemble : assemblePromotion (.row (row d)) =
        (attributes (row d)).set "promotion" (promotionDict (.text p.sourceLayer.value)
          (.text p.targetLayer.value) (.textOrNull (p.dataClassification.map StrEnum.value))) := by
      rw [← hclassification]
      simp only [assemblePromotion, row, hd, Option.map_some]
      rfl
    rw [hassemble]
    exact hpresents.fields_of_some defaults hd

/-- Different decisions have different rows. -/
theorem row_injective : Function.Injective row := fun d d' h => by
  have hd := @modelValidate_row .strict ⟨d.id, d.createdAt, d.updatedAt⟩ d
  rw [h, @modelValidate_row .strict] at hd
  exact (Except.ok.inj hd).symm

/-- Different members have different texts. -/
theorem enumColumn_inj {α : Type} [StrEnum α] {max : ℕ}
    {h : ∀ a ∈ StrEnum.members.rows, (StrEnum.value (a : α)).length ≤ max} {a b : α} :
    enumColumn h a = enumColumn h b ↔ a = b :=
  ⟨fun heq => StrEnum.value_injective (congrArg Bounded.text heq), congrArg _⟩

/-- The decision `d` after the update with `decision`. -/
def updated [Json.FloatEq] (decision : GovernanceDecision) (now : DateTime)
    (d : GovernanceDecision) : GovernanceDecision :=
  let same := decision.metadata.eq d.metadata
  let updatedAt :=
    if decision.updatedAt.instant ≠ d.updatedAt.instant then decision.updatedAt
    else if decision.status ≠ d.status ∨ same = false then now
    else d.updatedAt
  d.set decision.status updatedAt (if same then d.metadata else decision.metadata)

section Updating

variable [Json.FloatEq] {decision d : GovernanceDecision} {now : DateTime}

/-- The columns that an update sets are those of the updated decision. -/
theorem flushed_row : flushed (row d) decision now = row (updated decision now d) := by
  have hstatus : (row d).status = enumColumn length_status d.status := rfl
  have hsame : ((row d).metadataJson.any fun m => decision.metadata.eq m) =
      decision.metadata.eq d.metadata := rfl
  have hne : enumColumn length_status decision.status ≠ enumColumn length_status d.status ↔
      decision.status ≠ d.status := enumColumn_inj.not
  unfold flushed updated
  simp only [hstatus, hsame, hne]
  cases decision.metadata.eq d.metadata <;> rfl

/-- The metadata of a decision after an update are those assigned, or ones equal to them. -/
theorem metadata_updated : (updated decision now d).metadata = decision.metadata ∨
    decision.metadata.eq (updated decision now d).metadata = true := by
  cases h : decision.metadata.eq d.metadata with
  | true =>
    have hkept : (updated decision now d).metadata = d.metadata := by
      simp only [updated, h]
      rfl
    exact .inr (hkept ▸ h)
  | false =>
    refine .inl ?_
    simp only [updated, h]
    rfl

/-- The row in the session, after an update. -/
theorem row_assigned :
    { row (updated decision now d) with metadataJson := some decision.metadata } =
      row { updated decision now d with metadata := decision.metadata } := rfl

end Updating

/-! ## Runs -/

section Runs

variable [Postgres] [Conversions] {t : Rows} {d decision : GovernanceDecision} {now : DateTime}
  {defaults : Defaults} {r : GovernanceDecisionRow} {id : UUID}

/-- The operations on the rows of decisions: creating one whose identifier is new, -/
theorem run_create (h : t.get? d.id = none) :
    (create defaults d).run rowBackend t = (.ok d, t.insert (row d)) := by
  have hanswer : rowBackend.answer (.insert (row d)) t = .ok () := inserted_eq_ok.2 h
  refine (run_send hanswer).trans ?_
  rw [run_ofExcept, modelValidate_row]
  rfl

/-- The identifiers are unique. -/
theorem run_create_taken (h : t.get? d.id = some r) :
    (create defaults d).run rowBackend t =
      (.error (.integrityError "governance_decisions"), t) := by
  have hanswer : rowBackend.answer (.insert (row d)) t =
      .error (.integrityError "governance_decisions") := by
    have hget : t.get? (row d).id = some r := h
    change inserted "governance_decisions" t (row d) = _
    rw [inserted, hget]
    rfl
  exact run_send_error hanswer

/-- reading any row, -/
theorem run_getById_of_get? (h : t.get? id = some r) :
    (getById defaults id).run rowBackend t =
      ((modelValidate defaults (.row r)).map some, t) := by
  have hanswer : rowBackend.answer (.get id) t = .ok (some r) := congrArg Except.ok h
  refine (run_send hanswer).trans ?_
  change (Program.ofExcept (modelValidate defaults (.row r)) >>= fun d => .pure (some d)).run
    rowBackend t = _
  cases modelValidate defaults (.row r) <;> rfl

/-- reading the row of a decision, -/
theorem run_getById (h : t.get? id = some (row d)) :
    (getById defaults id).run rowBackend t = (.ok (some d), t) := by
  rw [run_getById_of_get? h, modelValidate_row]
  rfl

/-- reading one that is not there, -/
theorem run_getById_missing (h : t.get? id = none) :
    (getById defaults id).run rowBackend t = (.ok none, t) := by
  have hanswer : rowBackend.answer (.get id) t = .ok none := congrArg Except.ok h
  exact run_send hanswer

/-- Reading leaves the rows. -/
theorem run_getById_snd : ((getById defaults id).run rowBackend t).2 = t := by
  cases h : t.get? id with
  | none => rw [run_getById_missing h]
  | some r => rw [run_getById_of_get? h]

/-- listing, -/
theorem run_listDecisions {domainId : Option String} {status : Option DecisionStatus}
    {limit offset : ℕ} :
    (listDecisions defaults domainId status limit offset).run rowBackend t =
      ((selected (domainId.filter (· ≠ "")) (status.map StrEnum.value) limit offset t).mapM
        fun r => modelValidate defaults (.row r), t) :=
  (run_send rfl).trans (run_ofExcept _)

/-- which changes nothing, -/
theorem run_listDecisions_snd {domainId : Option String} {status : Option DecisionStatus}
    {limit offset : ℕ} :
    ((listDecisions defaults domainId status limit offset).run rowBackend t).2 = t := by
  rw [run_listDecisions]

variable [Json.FloatEq]

/-- updating any row, -/
theorem run_update_of_get? (h : t.get? decision.id = some r) :
    (update defaults decision now).run rowBackend t =
      (modelValidate defaults
        (.row { flushed r decision now with metadataJson := some decision.metadata }),
      rowEffect (.update r.id (flushed r decision now).status (flushed r decision now).updatedAt
        (flushed r decision now).metadataJson) t) := by
  have hanswer : rowBackend.answer (.get decision.id) t = .ok (some r) := congrArg Except.ok h
  refine (run_send hanswer).trans ?_
  exact (run_send rfl).trans (run_ofExcept _)

/-- and updating the row of a decision. -/
theorem run_update (h : t.get? decision.id = some (row d)) :
    (update defaults decision now).run rowBackend t =
      (.ok { updated decision now d with metadata := decision.metadata },
        rowEffect (.update d.id (row (updated decision now d)).status
          (updated decision now d).updatedAt (some (updated decision now d).metadata)) t) := by
  rw [run_update_of_get? h, flushed_row, row_assigned, modelValidate_row]
  rfl

/-- A decision that is not there cannot be updated. -/
theorem run_update_missing (h : t.get? decision.id = none) :
    (update defaults decision now).run rowBackend t =
      (.error (.valueError s!"Decision {decision.id} not found"), t) := by
  have hanswer : rowBackend.answer (.get decision.id) t = .ok none := congrArg Except.ok h
  exact run_send hanswer

end Runs

/-- A call of the repository. -/
inductive Access
  | create (defaults : Defaults) (decision : GovernanceDecision)
  | getById (defaults : Defaults) (decisionId : UUID)
  | update (defaults : Defaults) (decision : GovernanceDecision) (now : DateTime)
  | listDecisions (defaults : Defaults) (domainId : Option String)
      (status : Option DecisionStatus) (limit offset : ℕ)

section Accesses

/-- What a call does to a decision that is there. -/
def Access.updates [Json.FloatEq] : Access → GovernanceDecision → GovernanceDecision
  | .update _ decision now, d => if decision.id = d.id then updated decision now d else d
  | .create .., d | .getById .., d | .listDecisions .., d => d

/-- What some calls do to it. -/
def updatesAll [Json.FloatEq] (as : List Access) (d : GovernanceDecision) : GovernanceDecision :=
  as.foldl (fun d a => a.updates d) d

/-- The decision that a call updates the one of `id` with. -/
def Access.updateOf (id : UUID) : Access → Option GovernanceDecision
  | .update _ decision _ => if decision.id = id then some decision else none
  | .create .. | .getById .. | .listDecisions .. => none

/-- The last one of them. -/
def lastUpdate (id : UUID) (as : List Access) : Option GovernanceDecision :=
  (as.filterMap (Access.updateOf id)).getLast?

section

variable {a : Access} {d : GovernanceDecision} {id : UUID} {as : List Access}

/-- A call updates a decision, or leaves it. -/
theorem updates_cases [Json.FloatEq] (a : Access) (d : GovernanceDecision) :
    (a.updateOf d.id = none ∧ a.updates d = d) ∨
      ∃ u now, a.updateOf d.id = some u ∧ a.updates d = updated u now d := by
  cases a with
  | update defaults decision now =>
    by_cases hid : decision.id = d.id
    · exact .inr ⟨decision, now, if_pos hid, if_pos hid⟩
    · exact .inl ⟨if_neg hid, if_neg hid⟩
  | _ => exact .inl ⟨rfl, rfl⟩

/-- Whatever is done, a decision keeps its identifier. -/
@[simp] theorem id_updates [Json.FloatEq] : (a.updates d).id = d.id := by
  rcases updates_cases a d with ⟨-, h⟩ | ⟨u, now, -, h⟩
  · rw [h]
  · rw [h]
    rfl

/-- The last update is the last access, if it is an update of the decision. -/
theorem lastUpdate_concat : lastUpdate id (as ++ [a]) = (a.updateOf id).or (lastUpdate id as) := by
  rw [lastUpdate, List.filterMap_append, List.getLast?_append, lastUpdate]
  cases h : a.updateOf id with
  | none => rw [List.filterMap_cons_none h, List.filterMap_nil, List.getLast?_nil]
  | some decision => rw [List.filterMap_cons_some h, List.filterMap_nil, List.getLast?_singleton]

/-- What is known of a decision after some calls: it has the status of the last update, and
    its metadata or ones equal to them, and is as it was in all else. -/
theorem updatesAll_eq [Json.FloatEq] (as : List Access) (d : GovernanceDecision) :
    (lastUpdate d.id as = none → updatesAll as d = d) ∧
    ∃ updatedAt metadata, updatesAll as d = d.set ((lastUpdate d.id as).getD d).status updatedAt
      metadata ∧ ∀ u, lastUpdate d.id as = some u →
        metadata = u.metadata ∨ u.metadata.eq metadata = true := by
  induction as using List.reverseRecOn with
  | nil => exact ⟨fun _ => rfl, d.updatedAt, d.metadata, rfl, by rintro _ ⟨⟩⟩
  | append_singleton as a ih =>
    have hconcat : updatesAll (as ++ [a]) d = a.updates (updatesAll as d) := by
      rw [updatesAll, List.foldl_append]
      rfl
    have hid : (updatesAll as d).id = d.id := by
      obtain ⟨-, updatedAt, metadata, hset, -⟩ := ih
      rw [hset]
      rfl
    rw [hconcat, lastUpdate_concat, ← hid]
    -- The last access updates the decision, or it leaves it to those before.
    rcases updates_cases a (updatesAll as d) with ⟨hu, hupdates⟩ | ⟨u, now, hu, hupdates⟩
    · rw [hu, hupdates, Option.none_or, hid]
      exact ih
    · rw [hu]
      obtain ⟨-, updatedAt, metadata, hset, -⟩ := ih
      refine ⟨by rintro ⟨⟩, (updated u now (updatesAll as d)).updatedAt,
        (updated u now (updatesAll as d)).metadata, ?_, ?_⟩
      · rw [hupdates, hset]
        rfl
      · rintro _ ⟨⟩
        exact metadata_updated

end

variable [Postgres]

/-- The rows after a program, as a transaction: nothing stays of one that fails. -/
def commit {α : Type} (p : RowProg α) (t : Rows) : Rows :=
  match p.run rowBackend t with
  | (.ok _, t') => t'
  | (.error _, _) => t

/-- After a program, the rows are those that it leaves, or those before it. -/
theorem commit_cases {α : Type} (p : RowProg α) (t : Rows) :
    commit p t = (p.run rowBackend t).2 ∨ commit p t = t := by
  rw [commit]
  split
  · next h => exact .inl (by rw [h])
  · exact .inr rfl

/-- A program that only reads leaves the rows. -/
theorem commit_of_reads {α : Type} {p : RowProg α} {t : Rows} (h : (p.run rowBackend t).2 = t) :
    commit p t = t := (commit_cases p t).elim (·.trans h) id

/-- What a program leaves of a row is also there if it fails. -/
theorem get?_commit {α : Type} {p : RowProg α} {t : Rows} {id : UUID} {r : GovernanceDecisionRow}
    (h : t.get? id = some r) (hrun : (p.run rowBackend t).2.get? id = some r) :
    (commit p t).get? id = some r := by
  rcases commit_cases p t with hcommit | hcommit
  · rw [hcommit, hrun]
  · rw [hcommit, h]

variable [Conversions] [Json.FloatEq]

/-- The rows after an access. -/
def Access.after : Access → Rows → Rows
  | .create defaults decision, t => commit (PgDecisionRepository.create defaults decision) t
  | .getById defaults decisionId, t => commit (PgDecisionRepository.getById defaults decisionId) t
  | .update defaults decision now, t =>
    commit (PgDecisionRepository.update defaults decision now) t
  | .listDecisions defaults domainId status limit offset, t =>
    commit (PgDecisionRepository.listDecisions defaults domainId status limit offset) t

/-- The rows after some calls. -/
def afterAll (as : List Access) (t : Rows) : Rows := as.foldl (fun t a => a.after t) t

variable {t : Rows} {d : GovernanceDecision} {as : List Access}

/-- One call: the row of a decision becomes that of the decision as the call leaves it. -/
theorem get?_after (a : Access) (h : t.get? d.id = some (row d)) :
    (a.after t).get? d.id = some (row (a.updates d)) := by
  cases a with
  | create defaults decision =>
    refine get?_commit h ?_
    cases hfree : t.get? decision.id with
    | none =>
      rw [run_create hfree]
      exact Table.get?_insert_of_get? h
    | some r =>
      rw [run_create_taken hfree]
      exact h
  | getById defaults decisionId =>
    rw [Access.after, commit_of_reads run_getById_snd]
    exact h
  | listDecisions defaults domainId status limit offset =>
    rw [Access.after, commit_of_reads run_listDecisions_snd]
    exact h
  | update defaults decision now =>
    by_cases heq : decision.id = d.id
    · have hget : t.get? decision.id = some (row d) := heq ▸ h
      rw [Access.after, commit, run_update hget, Access.updates, if_pos heq, get?_update_self, h]
      rfl
    · -- Another decision is updated, or there is none.
      rw [Access.updates, if_neg heq]
      refine get?_commit h ?_
      cases hget : t.get? decision.id with
      | none =>
        rw [run_update_missing hget]
        exact h
      | some r =>
        have hne : d.id ≠ r.id := fun hid => heq (hid.trans (Table.key_of_get? hget)).symm
        rw [run_update_of_get? hget, get?_update_of_ne hne]
        exact h

/-- Any calls: the row of a decision becomes that of the decision as they leave it. -/
theorem get?_afterAll (h : t.get? d.id = some (row d)) :
    (afterAll as t).get? d.id = some (row (updatesAll as d)) := by
  induction as generalizing t d with
  | nil => exact h
  | cons a as ih =>
    have hstep : (a.after t).get? (a.updates d).id = some (row (a.updates d)) := by
      rw [id_updates]
      exact get?_after a h
    exact id_updates (a := a) (d := d) ▸ ih hstep

/-- Decisions survive storage: once created, and after any calls, a decision is found as it
    was, with the status and the metadata of its last update. (Metadata stored before stay when
    the new ones compare equal to them, as `1` and `True` do.) -/
theorem storage_keeps_decision (t : Rows) (d : GovernanceDecision) (hfree : t.get? d.id = none)
    (defaults defaults' : Defaults) (as : List Access) :
    ((create defaults d).run rowBackend t).1 = .ok d ∧
    ∃ found, ((getById defaults' d.id).run rowBackend
        (afterAll as (commit (create defaults d) t))).1 = .ok (some found) ∧
      found.id = d.id ∧ found.decisionType = d.decisionType ∧ found.title = d.title ∧
      found.description = d.description ∧ found.domainId = d.domainId ∧
      found.createdBy = d.createdBy ∧ found.createdAt = d.createdAt ∧
      found.promotion = d.promotion ∧
      (lastUpdate d.id as = none → found = d) ∧
      ∀ u, lastUpdate d.id as = some u → found.status = u.status ∧
        (found.metadata = u.metadata ∨ u.metadata.eq found.metadata = true) := by
  have hrun : (create defaults d).run rowBackend t = (.ok d, t.insert (row d)) := run_create hfree
  have hrow : (commit (create defaults d) t).get? d.id = some (row d) := by
    rw [commit, hrun]
    exact Table.get?_insert_self (r := row d) hfree
  obtain ⟨hnone, updatedAt, metadata, hset, hsome⟩ := updatesAll_eq as d
  refine ⟨by rw [hrun], updatesAll as d, by rw [run_getById (get?_afterAll hrow)], ?_⟩
  refine ⟨?_, ?_, ?_, ?_, ?_, ?_, ?_, ?_, hnone, fun u hu => ⟨?_, ?_⟩⟩
  any_goals rw [hset]; rfl
  · rw [hset, hu]
    rfl
  · rw [hset]
    exact hsome u hu

end Accesses

/-! ## Tables of decisions -/

/-- The rows of the decisions of a table. -/
def rowsOf (decisions : Table GovernanceDecision.id) : Rows := decisions.map row fun _ => rfl

/-- What a program on the stores returns, with the rows of the decisions that it leaves. -/
def stored {α : Type} (x : Except Error α × Store) : Except Error α × Rows :=
  (x.1, rowsOf x.2.decisions)

section Refinement

variable {s : Store} {d r : GovernanceDecision} {now : DateTime} {id : UUID}
  {decisions : Table GovernanceDecision.id}

theorem get?_rowsOf_none (h : decisions.get? id = none) : (rowsOf decisions).get? id = none :=
  Table.get?_map.trans (congrArg (Option.map row) h)

theorem get?_rowsOf_some (h : decisions.get? id = some d) :
    (rowsOf decisions).get? id = some (row d) :=
  Table.get?_map.trans (congrArg (Option.map row) h)

theorem rowsOf_insert : rowsOf (decisions.insert d) = (rowsOf decisions).insert (row d) :=
  Table.map_insert

theorem rowsOf_update {status : DecisionStatus} {updatedAt : DateTime}
    {metadata : Json.Dict Json.Scalar} :
    rowsOf (decisions.modify id (GovernanceDecision.set status updatedAt metadata)
        (GovernanceDecision.id_set status updatedAt metadata)) =
      rowEffect (.update id (enumColumn length_status status) updatedAt (some metadata))
        (rowsOf decisions) :=
  Table.map_modify (GovernanceDecision.id_set status updatedAt metadata)
    (id_set (enumColumn length_status status) updatedAt (some metadata)) fun _ _ => rfl

variable [Postgres] [Conversions] {defaults : Defaults}

/-- A decision is created among the rows as it is in the table of decisions. -/
theorem create_rowsOf : (create defaults d).run rowBackend (rowsOf s.decisions) =
    stored ((OpenDataGov.PgDecisionRepository.create d).run backend s) := by
  cases h : s.decisions.get? d.id with
  | none =>
    have hanswer : backend.answer (.insertDecision d) s = .ok () := inserted_eq_ok.2 h
    have hrun : (OpenDataGov.PgDecisionRepository.create d).run backend s =
        (.ok d, effect (.insertDecision d) s) := run_send hanswer
    rw [run_create (get?_rowsOf_none h), hrun]
    exact congrArg (Prod.mk _) rowsOf_insert.symm
  | some r =>
    have hanswer : backend.answer (.insertDecision d) s =
        .error (.integrityError "governance_decisions") := by
      change inserted "governance_decisions" s.decisions d = _
      rw [inserted, h]
      rfl
    have hrun : (OpenDataGov.PgDecisionRepository.create d).run backend s =
        (.error (.integrityError "governance_decisions"), s) := run_send_error hanswer
    rw [run_create_taken (get?_rowsOf_some h), hrun]
    rfl

/-- It is found among the rows as in the table. -/
theorem getById_rowsOf : (getById defaults id).run rowBackend (rowsOf s.decisions) =
    stored ((OpenDataGov.PgDecisionRepository.getById id).run backend s) := by
  have hrun : (OpenDataGov.PgDecisionRepository.getById id).run backend s =
      (.ok (s.decisions.get? id), s) := rfl
  rw [hrun]
  cases h : s.decisions.get? id with
  | none =>
    rw [run_getById_missing (get?_rowsOf_none h)]
    rfl
  | some d =>
    rw [run_getById (get?_rowsOf_some h)]
    rfl

variable [Json.FloatEq]

/-- And it is updated as in the table, if the metadata are those of the row, as they are for
    the services, and are equal to themselves: they have no `NaN`. -/
theorem update_rowsOf (h : ∀ r, s.decisions.get? d.id = some r →
      d.metadata = r.metadata ∧ r.metadata.eq r.metadata = true) :
    (update defaults d now).run rowBackend (rowsOf s.decisions) =
      stored ((OpenDataGov.PgDecisionRepository.update d now).run backend s) := by
  cases hget : s.decisions.get? d.id with
  | none =>
    have hanswer : backend.answer (.getDecision d.id) s = .ok none := congrArg Except.ok hget
    have hrun : (OpenDataGov.PgDecisionRepository.update d now).run backend s =
        (.error (.valueError s!"Decision {d.id} not found"), s) := run_send hanswer
    rw [run_update_missing (get?_rowsOf_none hget), hrun]
    rfl
  | some r =>
    obtain ⟨hmetadata, hself⟩ := h r hget
    set updatedAt := OpenDataGov.PgDecisionRepository.flushedAt r d now with hupdatedAt
    -- Since the metadata are those stored, only the status and the time are written.
    have hupdated : updated d now r = r.set d.status updatedAt d.metadata := by
      rw [hupdatedAt, updated, hmetadata, hself, OpenDataGov.PgDecisionRepository.flushedAt]
      simp
    have hanswer : backend.answer (.getDecision d.id) s = .ok (some r) := congrArg Except.ok hget
    have hrun : (OpenDataGov.PgDecisionRepository.update d now).run backend s =
        (.ok (r.set d.status updatedAt d.metadata),
          effect (.updateDecision r.id d.status updatedAt d.metadata) s) :=
      (run_send hanswer).trans (run_send rfl)
    rw [run_update (get?_rowsOf_some hget), hrun, hupdated]
    exact congrArg (Prod.mk _) rowsOf_update.symm

/-- After any call, the rows are those of some decisions: none is ever written that could not
    be read. -/
theorem after_rowsOf (a : Access) (decisions : Table GovernanceDecision.id) :
    ∃ decisions', a.after (rowsOf decisions) = rowsOf decisions' := by
  cases a with
  | create defaults decision =>
    cases h : decisions.get? decision.id with
    | none =>
      refine ⟨decisions.insert decision, ?_⟩
      rw [Access.after, commit, run_create (get?_rowsOf_none h),
        rowsOf_insert]
    | some r =>
      refine ⟨decisions, ?_⟩
      rw [Access.after, commit, run_create_taken (get?_rowsOf_some h)]
  | getById defaults decisionId =>
    exact ⟨decisions, commit_of_reads run_getById_snd⟩
  | update defaults decision now =>
    cases h : decisions.get? decision.id with
    | none =>
      refine ⟨decisions, ?_⟩
      rw [Access.after, commit,
        run_update_missing (get?_rowsOf_none h)]
    | some d =>
      -- What is flushed stands in a row that there is already, with the values of a decision.
      have hrow := get?_rowsOf_some h
      set u := updated decision now d
      refine ⟨decisions.modify d.id (GovernanceDecision.set u.status u.updatedAt u.metadata)
        (GovernanceDecision.id_set u.status u.updatedAt u.metadata), ?_⟩
      rw [Access.after, commit, run_update hrow]
      exact rowsOf_update.symm
  | listDecisions defaults domainId status limit offset =>
    exact ⟨decisions, commit_of_reads run_listDecisions_snd⟩

omit [Conversions] [Json.FloatEq] in
/-- What is listed is in the table, and is what has been asked for. -/
theorem mem_selected {domainId status : Option String} {limit offset : ℕ} {t : Rows}
    {r : GovernanceDecisionRow} (h : r ∈ selected domainId status limit offset t) :
    r ∈ t.rows ∧ (∀ name, domainId = some name → r.domainId.text = name) ∧
      ∀ value, status = some value → r.status.text = value := by
  have hmem := mem_orderBy.1 (List.mem_of_mem_drop (List.mem_of_mem_take h))
  obtain ⟨hrow, hvalues⟩ := List.mem_filter.1 hmem
  obtain ⟨hdomain, hstatus⟩ := Bool.and_eq_true_iff.1 hvalues
  refine ⟨hrow, ?_, ?_⟩
  · rintro name rfl
    exact (of_decide_eq_true hdomain).symm
  · rintro value rfl
    exact (of_decide_eq_true hstatus).symm

omit [Json.FloatEq] in
/-- The decisions listed are those found by their identifiers, of the domain and with the
    status that are asked for. -/
theorem run_listDecisions_rowsOf (domainId : Option String) (status : Option DecisionStatus)
    (limit offset : ℕ) (decisions : Table GovernanceDecision.id) :
    ∃ ds, (listDecisions defaults domainId status limit offset).run rowBackend (rowsOf decisions) =
        (.ok ds, rowsOf decisions) ∧
      ∀ d ∈ ds, decisions.get? d.id = some d ∧
        (∀ name ∈ domainId, name ≠ "" → d.domainId.text = name) ∧
        ∀ value ∈ status, d.status = value := by
  set rows := selected (domainId.filter (· ≠ "")) (status.map StrEnum.value) limit offset
    (rowsOf decisions) with hrows
  -- The rows selected are rows of decisions, so all of them pass the validation.
  have hrange : ∀ r ∈ rows, r ∈ Set.range row := fun r hr => by
    obtain ⟨d, _, hd⟩ := List.mem_map.1 (mem_selected hr).1
    exact ⟨d, hd⟩
  obtain ⟨ds, hds⟩ : rows ∈ Set.range (List.map row) := by
    rw [Set.range_list_map]
    exact hrange
  refine ⟨ds, ?_, fun d hd => ?_⟩
  · rw [run_listDecisions, ← hrows, ← hds]
    refine congrArg (Prod.mk · _) (Attempts.mapM_eq_ok_iff.2 ?_)
    rw [List.forall₂_map_left_iff, List.forall₂_same]
    exact fun d _ => modelValidate_row defaults d
  · obtain ⟨hmem, hdomain, hstatus⟩ := mem_selected (hrows ▸ hds ▸ List.mem_map_of_mem hd)
    obtain ⟨d', hd', heq⟩ := List.mem_map.1 hmem
    obtain rfl := row_injective heq
    refine ⟨Table.get?_key hd', fun name hname hne => hdomain name ?_, fun value hvalue => ?_⟩
    · rw [hname, Option.filter_some, if_pos (decide_eq_true hne)]
    · rw [hvalue] at hstatus
      exact StrEnum.value_injective (hstatus _ rfl)

end Refinement

/-! ### A promotion that is approved -/

namespace Promoted

/-- A promotion of data that nothing is known of the classification of. -/
def promoted : GovernanceDecision where
  id := ⟨7⟩
  decisionType := .dataPromotion
  title := ⟨"Promote orders to gold", by decide⟩
  description := ""
  status := .awaitingApproval
  domainId := ⟨"orders", by decide⟩
  createdBy := ⟨"user-1", by decide⟩
  createdAt := ⟨63906148800000000, some 0⟩
  updatedAt := ⟨63906148800000000, some 0⟩
  metadata := .empty
  promotion := some ⟨.silver, .gold, none⟩

/-- The promotion with metadata, and once it is approved. -/
def scored : GovernanceDecision :=
  { promoted with metadata := ⟨[("checked", .bool true)], by decide⟩ }

/-- The decision, approved. -/
def approved : GovernanceDecision := { scored with status := .approved }

/-- Values for what a row has not: none of them is used. -/
def defaults : Defaults := ⟨⟨0⟩, promoted.createdAt, promoted.createdAt⟩

/-- The calls, after the promotion has been created. -/
def calls : List Access :=
  [.update defaults scored promoted.createdAt, .getById defaults promoted.id,
    .update defaults approved promoted.createdAt]

/-- The promotion is the same after it has been created, approved and read. -/
theorem storage_keeps_promoted : ∃ found, ((@getById .strict defaults promoted.id).run
      (@rowBackend .stable) (@afterAll .stable .strict .byText calls
        (@commit .stable _ (@create .strict defaults promoted) .empty))).1 = .ok (some found) ∧
    found.promotion = promoted.promotion ∧ found.status = approved.status := by
  obtain ⟨-, found, hrun, -, -, -, -, -, -, -, hpromotion, -, hlast⟩ :=
    @storage_keeps_decision .stable .strict .byText .empty promoted rfl defaults defaults calls
  exact ⟨found, hrun, hpromotion, (hlast approved rfl).1⟩

end Promoted

end Storage

end OpenDataGov
