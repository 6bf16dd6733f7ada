import OpenDataGov.Lib.Migration

/-!
# The revisions of the database

The seven revisions of the schema, as their scripts have them, and what holds of a database that
they are applied to, whatever else it has. Besides the revisions, transactions run on it that
insert, update, delete and truncate rows. Nothing else changes its schema meanwhile: there are
no statements such as `CREATE VIEW`, `ALTER TABLE` or `DROP TRIGGER`. The table `alembic_version`,
where Alembic notes the revision, is left out; it stays when all revisions are taken back.

* `downgrades_restore`: the schema is always that of the beginning, with what the revisions so
  far have created. Downgrading never fails, restores the schema, and leaves the rows of all
  other tables as they are;
* `upgrades_iff`: upgrading fails exactly if there was a table, an index, a view or a sequence with
  the name of a table or an index that is to be created, or a type with that of a table;
* `audit_append_only`: from the first revision on, audit events are never changed or deleted,
  but by truncating their table or taking all revisions back.

The revisions are data, of which all that is needed is decided by evaluation (`chain_revisions`).
The rest follows for any chain of revisions (`Sql.Stands`). The function of the trigger is what is
different in this chain: it is created with `CREATE OR REPLACE` and dropped with `IF EXISTS`, so
that a function of that name which the database had before would be lost. The theorems are about
databases without it.
-/

namespace OpenDataGov

open Sql

namespace Migrations

/-! ## Columns -/

/-- The key of a table. -/
def idColumn : Column := { name := "id", type := .uuid, nullable := false, primaryKey := true }

/-- A column that cannot be null. -/
def notNull (name : String) (type : SqlType) : Column :=
  { name := name, type := type, nullable := false }

/-- A column that can be null. -/
def nullable (name : String) (type : SqlType) : Column := { name := name, type := type }

/-- With a default of the database. -/
def withDefault (default : String) (c : Column) : Column := { c with serverDefault := default }

/-- A point in time, by default the current one. -/
def now (name : String) : Column := withDefault "now()" (nullable name .timestamptz)

/-- With different values in different rows. -/
def uniquely (c : Column) : Column := { c with unique := true }

/-- A column for the `id` of another table. -/
def foreignKey (table : String) (c : Column) : Column :=
  { c with references := some { table := table, column := "id" } }

/-- The same, where the rows go with those of the other table. -/
def cascading (table : String) (c : Column) : Column :=
  { c with references := some { table := table, column := "id", cascade := true } }

/-! ## Revisions -/

/-- Governance, audit, RACI, and the registry of experts. -/
def initialSchema : Revision where
  upgrade :=
    [.createTable ⟨"governance_decisions", [
        idColumn,
        notNull "decision_type" (.varchar 50),
        notNull "title" (.varchar 500),
        withDefault "" (nullable "description" .text),
        withDefault "pending" (notNull "status" (.varchar 30)),
        notNull "domain_id" (.varchar 100),
        notNull "created_by" (.varchar 200),
        now "created_at",
        now "updated_at",
        withDefault "\x7b\x7d" (nullable "metadata" .jsonb),
        nullable "source_layer" (.varchar 20),
        nullable "target_layer" (.varchar 20),
        nullable "data_classification" (.varchar 20)]⟩,
      .createIndex ⟨"ix_decisions_domain_id", "governance_decisions", ["domain_id"], false⟩,
      .createIndex
        ⟨"ix_decisions_status_domain", "governance_decisions", ["status", "domain_id"], false⟩,
      .createTable ⟨"approval_records", [
        idColumn,
        foreignKey "governance_decisions" (notNull "decision_id" .uuid),
        notNull "voter_id" (.varchar 200),
        notNull "voter_role" (.varchar 20),
        notNull "vote" (.varchar 10),
        withDefault "" (nullable "comment" .text),
        now "voted_at"]⟩,
      .createIndex ⟨"ix_approval_decision_id", "approval_records", ["decision_id"], false⟩,
      .createTable ⟨"veto_records", [
        idColumn,
        foreignKey "governance_decisions" (notNull "decision_id" .uuid),
        notNull "vetoed_by" (.varchar 200),
        notNull "vetoed_by_role" (.varchar 20),
        notNull "reason" .text,
        withDefault "active" (notNull "status" (.varchar 20)),
        now "vetoed_at",
        nullable "expires_at" .timestamptz,
        nullable "overridden_by" (.varchar 200),
        nullable "overridden_at" .timestamptz]⟩,
      .createIndex ⟨"ix_veto_decision_id", "veto_records", ["decision_id"], false⟩,
      .createTable ⟨"audit_events", [
        idColumn,
        notNull "event_type" (.varchar 50),
        notNull "entity_type" (.varchar 100),
        notNull "entity_id" (.varchar 200),
        notNull "actor_id" (.varchar 200),
        withDefault "" (nullable "description" .text),
        withDefault "\x7b\x7d" (nullable "details" .jsonb),
        now "occurred_at",
        notNull "previous_hash" (.varchar 64),
        notNull "event_hash" (.varchar 64)]⟩,
      .createIndex ⟨"ix_audit_event_type", "audit_events", ["event_type"], false⟩,
      .createIndex ⟨"ix_audit_entity_id", "audit_events", ["entity_id"], false⟩,
      .createIndex ⟨"ix_audit_actor_id", "audit_events", ["actor_id"], false⟩,
      .createIndex ⟨"ix_audit_events_occurred", "audit_events", ["occurred_at"], false⟩,
      .createFunction ⟨"prevent_audit_mutation",
        some "audit_events table is append-only: % operations are not allowed"⟩,
      .createTrigger ⟨"trg_audit_events_immutable", "audit_events", [.update, .delete],
        "prevent_audit_mutation"⟩,
      .createTable ⟨"raci_assignments", [
        idColumn,
        notNull "user_id" (.varchar 200),
        notNull "domain_id" (.varchar 100),
        notNull "role" (.varchar 20),
        now "assigned_at",
        notNull "assigned_by" (.varchar 200)]⟩,
      .createIndex ⟨"ix_raci_user_id", "raci_assignments", ["user_id"], false⟩,
      .createIndex ⟨"ix_raci_domain_id", "raci_assignments", ["domain_id"], false⟩,
      .createIndex ⟨"ix_raci_user_domain", "raci_assignments", ["user_id", "domain_id"], true⟩,
      .createTable ⟨"expert_registry", [
        idColumn,
        uniquely (notNull "name" (.varchar 200)),
        withDefault "" (nullable "description" .text),
        notNull "endpoint" (.varchar 500),
        withDefault "[]" (nullable "capabilities" .jsonb),
        withDefault "false" (nullable "is_active" .boolean),
        now "registered_at",
        foreignKey "governance_decisions" (nullable "approved_decision_id" .uuid)]⟩]
  downgrade :=
    [.dropTrigger "trg_audit_events_immutable" "audit_events",
      .dropFunction "prevent_audit_mutation",
      .dropTable "expert_registry",
      .dropTable "raci_assignments",
      .dropTable "audit_events",
      .dropTable "veto_records",
      .dropTable "approval_records",
      .dropTable "governance_decisions"]

/-- Reports of the quality gate. -/
def qualityReports : Revision where
  upgrade :=
    [.createTable ⟨"quality_reports", [
        idColumn,
        notNull "dataset_id" (.varchar 200),
        notNull "domain_id" (.varchar 100),
        notNull "layer" (.varchar 20),
        notNull "suite_name" (.varchar 200),
        notNull "dq_score" .float,
        withDefault "\x7b\x7d" (nullable "dimension_scores" .jsonb),
        withDefault "0" (notNull "expectations_passed" .integer),
        withDefault "0" (notNull "expectations_failed" .integer),
        withDefault "0" (notNull "expectations_total" .integer),
        withDefault "\x7b\x7d" (nullable "report_details" .jsonb),
        now "created_at",
        foreignKey "governance_decisions" (nullable "triggered_by" .uuid)]⟩,
      .createIndex ⟨"ix_quality_reports_dataset_id", "quality_reports", ["dataset_id"], false⟩,
      .createIndex ⟨"ix_quality_reports_domain_id", "quality_reports", ["domain_id"], false⟩,
      .createIndex
        ⟨"ix_quality_reports_dataset_layer", "quality_reports", ["dataset_id", "layer"], false⟩]
  downgrade :=
    [.dropIndex "ix_quality_reports_dataset_layer",
      .dropIndex "ix_quality_reports_domain_id",
      .dropIndex "ix_quality_reports_dataset_id",
      .dropTable "quality_reports"]

/-- The thresholds of the dimensions of quality. -/
def qualitySlas : Revision where
  upgrade :=
    [.createTable ⟨"quality_slas", [
        idColumn,
        notNull "dataset_id" (.varchar 200),
        notNull "domain_id" (.varchar 100),
        notNull "dimension" (.varchar 30),
        notNull "threshold" .float,
        notNull "owner_id" (.varchar 200),
        withDefault "90" (notNull "review_interval_days" .integer),
        nullable "last_reviewed_at" .timestamptz]⟩,
      .createIndex
        ⟨"ix_quality_slas_dataset_dim", "quality_slas", ["dataset_id", "dimension"], true⟩]
  downgrade := [.dropIndex "ix_quality_slas_dataset_dim", .dropTable "quality_slas"]

/-- Data contracts, and their versions. -/
def dataContracts : Revision where
  upgrade :=
    [.createTable ⟨"data_contracts", [
        idColumn,
        uniquely (notNull "name" (.varchar 200)),
        notNull "dataset_id" (.varchar 200),
        notNull "domain_id" (.varchar 100),
        notNull "owner_id" (.varchar 200),
        notNull "schema_definition" .jsonb,
        withDefault "\x7b\x7d" (nullable "sla_definition" .jsonb),
        nullable "jurisdiction" (.varchar 20),
        withDefault "1" (notNull "version" .integer),
        withDefault "true" (nullable "is_active" .boolean),
        now "created_at",
        now "updated_at"]⟩,
      .createIndex ⟨"ix_data_contracts_dataset_id", "data_contracts", ["dataset_id"], false⟩,
      .createIndex ⟨"ix_data_contracts_domain", "data_contracts", ["domain_id"], false⟩,
      .createTable ⟨"contract_versions", [
        idColumn,
        foreignKey "data_contracts" (notNull "contract_id" .uuid),
        notNull "version" .integer,
        notNull "schema_definition" .jsonb,
        notNull "change_type" (.varchar 30),
        notNull "changed_by" (.varchar 200),
        now "created_at"]⟩,
      .createIndex
        ⟨"ix_contract_versions_contract_id", "contract_versions", ["contract_id"], false⟩]
  downgrade :=
    [.dropIndex "ix_contract_versions_contract_id",
      .dropTable "contract_versions",
      .dropIndex "ix_data_contracts_domain",
      .dropIndex "ix_data_contracts_dataset_id",
      .dropTable "data_contracts"]

/-- Compliance reports, and their findings. -/
def complianceReports : Revision where
  upgrade :=
    [.createTable ⟨"compliance_reports", [
        idColumn,
        notNull "framework" (.varchar 50),
        nullable "jurisdiction" (.varchar 20),
        notNull "passed" .boolean,
        notNull "score" .float,
        withDefault "\x7b\x7d" (nullable "metadata" .jsonb),
        now "created_at",
        nullable "created_by" (.varchar 200)]⟩,
      .createIndex ⟨"ix_compliance_reports_framework", "compliance_reports", ["framework"], false⟩,
      .createTable ⟨"compliance_findings", [
        idColumn,
        cascading "compliance_reports" (notNull "report_id" .uuid),
        notNull "rule_id" (.varchar 100),
        notNull "severity" (.varchar 20),
        notNull "description" .text,
        notNull "recommendation" .text]⟩,
      .createIndex
        ⟨"ix_compliance_findings_report_id", "compliance_findings", ["report_id"], false⟩,
      .createIndex
        ⟨"ix_compliance_findings_severity", "compliance_findings", ["severity"], false⟩]
  downgrade :=
    [.dropIndex "ix_compliance_findings_severity",
      .dropIndex "ix_compliance_findings_report_id",
      .dropTable "compliance_findings",
      .dropIndex "ix_compliance_reports_framework",
      .dropTable "compliance_reports"]

/-- The cards of models. -/
def modelCards : Revision where
  upgrade :=
    [.createTable ⟨"model_cards", [
        idColumn,
        uniquely (notNull "model_name" (.varchar 200)),
        notNull "model_version" (.varchar 50),
        notNull "owner" (.varchar 200),
        withDefault "" (nullable "description" .text),
        withDefault "minimal" (notNull "risk_level" (.varchar 20)),
        nullable "expert_capability" (.varchar 100),
        withDefault "" (nullable "model_type" (.varchar 100)),
        withDefault "[]" (nullable "metrics" .jsonb),
        withDefault "\x7b\x7d" (nullable "ethics" .jsonb),
        withDefault "[]" (nullable "limitations" .jsonb),
        withDefault "[]" (nullable "regulatory_requirements" .jsonb),
        now "created_at",
        nullable "last_reviewed_at" .timestamptz,
        nullable "approved_by" (.varchar 200)]⟩,
      .createIndex ⟨"ix_model_cards_risk_level", "model_cards", ["risk_level"], false⟩]
  downgrade := [.dropIndex "ix_model_cards_risk_level", .dropTable "model_cards"]

/-- The catalog of datasets, and the edges of their lineage. -/
def metadataCatalog : Revision where
  upgrade :=
    [.createTable ⟨"dataset_metadata", [
        idColumn,
        uniquely (notNull "dataset_id" (.varchar 200)),
        notNull "name" (.varchar 200),
        nullable "domain" (.varchar 100),
        nullable "layer" (.varchar 20),
        nullable "owner" (.varchar 200),
        nullable "classification" (.varchar 20),
        nullable "jurisdiction" (.varchar 20),
        withDefault "\x7b\x7d" (nullable "schema_definition" .jsonb),
        nullable "quality_score" .float,
        withDefault "[]" (nullable "tags" .jsonb),
        withDefault "\x7b\x7d" (nullable "custom_properties" .jsonb),
        now "created_at",
        now "updated_at"]⟩,
      .createIndex ⟨"ix_dataset_metadata_domain", "dataset_metadata", ["domain"], false⟩,
      .createIndex ⟨"ix_dataset_metadata_layer", "dataset_metadata", ["layer"], false⟩,
      .createIndex
        ⟨"ix_dataset_metadata_classification", "dataset_metadata", ["classification"], false⟩,
      .createTable ⟨"lineage_edges", [
        idColumn,
        notNull "source_dataset_id" (.varchar 200),
        notNull "target_dataset_id" (.varchar 200),
        notNull "job_name" (.varchar 200),
        withDefault "" (nullable "job_namespace" (.varchar 200)),
        notNull "event_type" (.varchar 50),
        withDefault "\x7b\x7d" (nullable "facets" .jsonb),
        now "created_at"]⟩,
      .createIndex ⟨"ix_lineage_edges_source", "lineage_edges", ["source_dataset_id"], false⟩,
      .createIndex ⟨"ix_lineage_edges_target", "lineage_edges", ["target_dataset_id"], false⟩,
      .createIndex ⟨"ix_lineage_edges_job", "lineage_edges", ["job_name"], false⟩]
  downgrade :=
    [.dropIndex "ix_lineage_edges_job",
      .dropIndex "ix_lineage_edges_target",
      .dropIndex "ix_lineage_edges_source",
      .dropTable "lineage_edges",
      .dropIndex "ix_dataset_metadata_classification",
      .dropIndex "ix_dataset_metadata_layer",
      .dropIndex "ix_dataset_metadata_domain",
      .dropTable "dataset_metadata"]

/-- The revisions, in their order. -/
def revisions : List Revision :=
  [initialSchema, qualityReports, qualitySlas, dataContracts, complianceReports, modelCards,
    metadataCatalog]

/-! ## What they create, and drop again -/

/-- The revisions are a chain: each creates what is not there yet, and drops what it has created. -/
theorem chain_revisions : Chain revisions where
  reverts := by
    unfold Revision.Reverts
    decide +kernel
  onNew := by decide +kernel
  distinct := by
    have h : ∀ k < 7, ∀ r ∈ revisions[k]?, ∀ op ∈ r.upgrade,
        op.CreatesIn (stack (revisions.take k)) := by decide +kernel
    exact fun k r hr => h k (List.getElem?_eq_some_iff.1 hr).1 r hr
  builds := by
    have h : ∀ k < 7, ∀ r ∈ revisions[k]?,
        execAll r.upgrade (stack (revisions.take k)) = some (stack (revisions.take (k + 1))) := by
      decide +kernel
    exact fun k r hr => h k (List.getElem?_eq_some_iff.1 hr).1 r hr

/-- The only function that a revision replaces. -/
theorem fresh_revisions {s : Schema} (h : ¬s.HasFunction "prevent_audit_mutation") :
    Fresh s revisions := by
  have hfunction : ∀ r ∈ revisions, ∀ op ∈ r.upgrade,
      op.CreatesIn .empty ∧ ∀ name ∈ op.function?, name = "prevent_audit_mutation" := by
    decide +kernel
  intro r hr op hop
  obtain ⟨hcreates, hname⟩ := hfunction r hr op hop
  exact createsIn_iff.2 ⟨hcreates, fun name hmem => hname name hmem ▸ h⟩

section Runs

variable {V : Type} [DecidableEq V] {P Q : World V → Command V → Prop} {d₀ : Database V}
  {w w' : World V}

/-- In any run of revisions and of transactions that insert, update, delete and truncate rows, the
    schema is that of the beginning, with what the revisions so far create. Downgrading does
    not fail, takes the schema back, and leaves the rows of all tables that are left. -/
theorem downgrades_restore (hclosed : d₀.schema.Closed)
    (hfunction : ¬d₀.schema.HasFunction "prevent_audit_mutation")
    (h : Run revisions P ⟨0, d₀⟩ w) :
    w.database.schema = schemaAt d₀.schema revisions w.revision ∧
      ∀ target ≤ w.revision, ∃ d, (Command.downgrade target).exec revisions w = some ⟨target, d⟩ ∧
        d.schema = schemaAt d₀.schema revisions target ∧
        ∀ name, d.schema.HasTable name → d.rows name = w.database.rows name := by
  have hstands := h.stands chain_revisions (fresh_revisions hfunction) (stands_start hclosed)
  refine ⟨hstands.schema, fun target htarget => ?_⟩
  obtain ⟨d, hdown, hd, hrows⟩ :=
    hstands.downgrades chain_revisions (List.drop_suffix target (revisions.take w.revision))
  have hrevision : w.revision - ((revisions.take w.revision).drop target).length = target := by
    have hle := hstands.le
    rw [List.length_drop, List.length_take]
    omega
  rw [hrevision] at hd
  refine ⟨d, ?_, hd.schema, fun name hname => (hrows name hname).2⟩
  rw [Command.exec, hdown, Option.map_some, hrevision]

end Runs

/-! ## Audit events -/

section Audit

variable {V : Type} [DecidableEq V] {P : World V → Command V → Prop} {d₀ : Database V}
  {s : Schema} {w₀ w : World V}

/-- What is raised when an audit event is changed, or deleted. -/
def message (e : Sql.Event) : String :=
  "audit_events table is append-only: " ++ e.name ++ " operations are not allowed"

omit [DecidableEq V] in
/-- From the first revision on, audit events are guarded. -/
theorem raised_auditEvents (h : Stands s revisions w) (hrevision : 1 ≤ w.revision) :
    w.database.schema.HasTable "audit_events" ∧
      ∀ e, e ≠ .insert → w.database.schema.raised "audit_events" e = some (message e) := by
  -- The triggers of the first revision are left in place by the others, one revision at a time.
  have hstack : ∀ k < 8, 1 ≤ k → (stack (revisions.take k)).HasTable "audit_events" ∧
      (∀ t ∈ (stack (revisions.take k)).triggers,
        (stack (revisions.take k)).HasFunction t.function) ∧
      ∀ e ∈ [Sql.Event.update, .delete],
        (stack (revisions.take k)).raised "audit_events" e = some (message e) := by
    decide +kernel
  obtain ⟨htable, hfunctions, hraised⟩ := hstack w.revision (Nat.lt_succ_of_le h.le) hrevision
  have hclosed : s.Closed := by
    rw [← (schemaAt_zero : schemaAt s revisions 0 = s)]
    exact h.closed 0 (Nat.zero_le _)
  rw [h.schema]
  refine ⟨hasTable_append.2 (.inr htable), fun e he => ?_⟩
  rw [schemaAt, raised_append hclosed (h.apart_stack (Nat.le_refl _)) htable hfunctions]
  cases e with
  | insert => exact absurd rfl he
  | update => exact hraised _ (by simp)
  | delete => exact hraised _ (by simp)

/-- From the first revision on, and while it is not taken back, audit events stay as they are
    whatever transactions insert, update and delete, but for a `TRUNCATE` of their table. A
    statement that would change some, or delete some, fails. -/
theorem audit_append_only (hclosed : d₀.schema.Closed)
    (hfunction : ¬d₀.schema.HasFunction "prevent_audit_mutation")
    (h₀ : Run revisions P ⟨0, d₀⟩ w₀) (hrevision : 1 ≤ w₀.revision)
    (h : Run revisions (fun _ c => Keeps 1 "audit_events" c) w₀ w) :
    w₀.database.rows "audit_events" <+: w.database.rows "audit_events" ∧
      (∀ p f, (w.database.rows "audit_events").any p →
        (Statement.update "audit_events" p f).exec w.database = .error (message .update)) ∧
      ∀ p, (∀ t, (w.database.rows t).any (p t) ↔ t = "audit_events") →
        (Statement.delete p).exec w.database = .error (message .delete) := by
  have hfresh := fresh_revisions hfunction
  have hstands₀ := h₀.stands chain_revisions hfresh (stands_start hclosed)
  have hguards : ∀ w : World V, Stands d₀.schema revisions w → 1 ≤ w.revision →
      w.database.schema.Guards "audit_events" := fun w hw hle => by
    obtain ⟨htable, hraised⟩ := raised_auditEvents hw hle
    exact ⟨htable, by rw [hraised _ (by decide)]; rfl, by rw [hraised _ (by decide)]; rfl⟩
  obtain ⟨hle, hinit⟩ := h.rows_isPrefix chain_revisions hfresh hstands₀ hrevision hguards
  obtain ⟨htable, hraised⟩ :=
    raised_auditEvents (h.stands chain_revisions hfresh hstands₀) hle
  refine ⟨hinit, fun p f hp => ?_, fun p hp => ?_⟩
  · have htouched : ∀ t, decide (t = "audit_events" ∧ (w.database.rows t).any p) = true ↔
        t = "audit_events" := by
      intro t
      rw [decide_eq_true_iff, and_iff_left_iff_imp]
      rintro rfl
      exact hp
    rw [Statement.exec, refused_of_touched htable htouched, hraised _ (by decide)]
  · rw [Statement.exec, refused_of_touched htable hp, hraised _ (by decide)]

end Audit

/-! ## A database with users -/

namespace Users

/-- A database with a table of its own, and with a view and an enumeration. -/
def before : Database ℕ where
  schema :=
    { Schema.empty with
      tables := [⟨"users", [idColumn, notNull "email" .text]⟩]
      indexes := [⟨"ix_users_email", "users", ["email"], true⟩]
      others := [{ name := "emails", needs := ["users"] }]
      types := ["mood"] }
  rows name := if name = "users" then [fun _ => some 1] else []

/-- A row of the table of events, -/
def event : Sql.Row ℕ := fun _ => some 2

/-- All revisions are applied, and an audit event is inserted. -/
def upgraded : Option (World ℕ) := (Command.upgrade 7).exec revisions ⟨0, before⟩

/-- and the database when it has been inserted. -/
def inserted : Option (World ℕ) :=
  upgraded.bind fun w =>
    (Command.transaction [.insert "audit_events" [event]]).exec revisions w

/-- The database that there is before refers to nothing that it does not have, -/
theorem closed_before : before.schema.Closed where
  references _ _ h := by
    obtain ⟨ht, c, hc, r, hr, -⟩ := h
    rw [List.mem_singleton.1 ht] at hc
    have hnone : ∀ c ∈ [idColumn, notNull "email" .text], c.references = none := by decide
    rw [hnone c hc] at hr
    cases hr
  indexes := by decide
  triggers := by decide
  functions := by decide
  needs := by decide
  owner := by decide

/-- and has no function with the name of the one that the revisions replace. -/
theorem not_hasFunction_before : ¬before.schema.HasFunction "prevent_audit_mutation" := by decide

/-- A run that inserts an event. -/
theorem run_inserted : ∃ w₀ w, 1 ≤ w₀.revision ∧
    Run revisions (fun _ _ => True) ⟨0, before⟩ w₀ ∧
    Run revisions (fun _ c => Keeps 1 "audit_events" c) w₀ w ∧
    ((w.database.rows "audit_events").any fun _ => true) = true := by
  have hupgraded : ∃ w, upgraded = some w :=
    Option.isSome_iff_exists.1 (by decide +kernel)
  have hinserted : ∃ w, inserted = some w :=
    Option.isSome_iff_exists.1 (by decide +kernel)
  obtain ⟨w₀, hw₀⟩ := hupgraded
  obtain ⟨w, hw⟩ := hinserted
  have hrevision : ∀ w ∈ upgraded, 1 ≤ w.revision := by decide +kernel
  have hrows : ∀ w ∈ inserted, ((w.database.rows "audit_events").any fun _ => true) = true := by
    decide +kernel
  obtain ⟨w₁, hw₁, hexec⟩ := Option.bind_eq_some_iff.1 hw
  cases hw₀.symm.trans hw₁
  refine ⟨w₀, w, hrevision w₀ hw₀, Run.start.step trivial hw₀, ?_, hrows w hw⟩
  exact Run.start.step (by simp [Keeps]) hexec

/-- From there, all revisions are taken back, -/
theorem downgrades_restore_before : ∃ w : World ℕ, 1 ≤ w.revision ∧
    ∃ d, (Command.downgrade 0).exec revisions w = some ⟨0, d⟩ ∧ d.schema = before.schema := by
  obtain ⟨w, -, hrevision, hrun, -⟩ := run_inserted
  obtain ⟨-, hdown⟩ := downgrades_restore closed_before not_hasFunction_before hrun
  obtain ⟨d, hd, hschema, -⟩ := hdown 0 (Nat.zero_le _)
  exact ⟨w, hrevision, d, hd, hschema.trans schemaAt_zero⟩

/-- The event cannot be updated. -/
theorem audit_append_only_inserted : ∃ w : World ℕ,
    ((w.database.rows "audit_events").any fun _ => true) = true ∧
      (Statement.update "audit_events" (fun _ => true) id).exec w.database =
        .error (message .update) := by
  obtain ⟨w₀, w, hrevision, hrun₀, hrun, hrows⟩ := run_inserted
  obtain ⟨-, hupdate, -⟩ :=
    audit_append_only closed_before not_hasFunction_before hrun₀ hrevision hrun
  exact ⟨w, hrows, hupdate _ id hrows⟩

end Users

end Migrations

end OpenDataGov
