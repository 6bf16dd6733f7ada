import OpenDataGov.Lib.Table
import OpenDataGov.Lib.Dict
import OpenDataGov.Lib.ReadCommitted
import OpenDataGov.Lib.History
import OpenDataGov.Lib.Coupling
import OpenDataGov.Lib.Tickets
import OpenDataGov.Lib.Loop
import OpenDataGov.Lib.Attempts
import OpenDataGov.Lib.PosixPath
import OpenDataGov.Lib.NetUrl
import OpenDataGov.Lib.Slices
import OpenDataGov.Lib.Laplace
import OpenDataGov.Core.Audit
import OpenDataGov.Core.Fields
import OpenDataGov.Core.Decisions
import OpenDataGov.Auth.Roles
import OpenDataGov.Metadata.Datahub
import OpenDataGov.Metadata.Lineage
import OpenDataGov.Metadata.Tags
import OpenDataGov.Privacy.Detection
import OpenDataGov.Privacy.Differential
import OpenDataGov.Privacy.Masking
import OpenDataGov.Governance.Repository
import OpenDataGov.Governance.Storage
import OpenDataGov.Governance.Services
import OpenDataGov.Governance.Calls
import OpenDataGov.Governance.Outcome
import OpenDataGov.Governance.Deed
import OpenDataGov.Governance.Lifecycle
import OpenDataGov.Governance.Replay
import OpenDataGov.Governance.Vetoes
import OpenDataGov.Governance.Authority
import OpenDataGov.Governance.Progress
import OpenDataGov.Governance.Order
import OpenDataGov.Governance.Integrity
import OpenDataGov.Governance.Finalization
import OpenDataGov.Governance.Quorum
import OpenDataGov.Governance.Duplicates
import OpenDataGov.Governance.Forks
import OpenDataGov.Governance.Clock
import OpenDataGov.Governance.Domains
import OpenDataGov.Governance.Isolation
import OpenDataGov.Governance.Records
import OpenDataGov.Governance.Routes
import OpenDataGov.Governance.Sealing
import OpenDataGov.Governance.Failures
import OpenDataGov.Governance.Story
import OpenDataGov.Contracts.Breaking
import OpenDataGov.Contracts.Rows
import OpenDataGov.Contracts.Validator
import OpenDataGov.Contracts.Loader
import OpenDataGov.Quality.Dimensions
import OpenDataGov.Quality.Sla
import OpenDataGov.Quality.Suites
import OpenDataGov.Compliance.AiRisk
import OpenDataGov.Compliance.Checkers
import OpenDataGov.Compliance.Registry
import OpenDataGov.Lakehouse.Promotion
import OpenDataGov.Lakehouse.Gates
import OpenDataGov.Events.KafkaConsumer
import OpenDataGov.Observability.SchemaDrift
import OpenDataGov.Gateway.RoundRobin
import OpenDataGov.Gateway.Upstream
import OpenDataGov.Gateway.Streaming
import OpenDataGov.Gateway.Logging
import OpenDataGov.Events.KafkaProducer
import OpenDataGov.Database.Migrations
import OpenDataGov.Governance.Listing
import OpenDataGov.Lakehouse.Buckets
import OpenDataGov.Gateway.Config
import OpenDataGov.Gateway.Health
import OpenDataGov.Quality.Reports
import OpenDataGov.Lakehouse.Service
import OpenDataGov.Metadata.Emission
import OpenDataGov.Vault.Client
