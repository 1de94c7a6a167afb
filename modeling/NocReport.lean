import NocReport.Jobs.Lifecycle
import NocReport.Jobs.NoLostJob
import NocReport.Foundation.Dict
import NocReport.Foundation.Json
import NocReport.Foundation.JsonSchema
import NocReport.Jobs.Wire
import NocReport.Foundation.Python
import NocReport.Report.Document
import NocReport.Report.Composition
import NocReport.Report.StorageClosure
import NocReport.Report.ArtifactSystem
import NocReport.Report.WriteOnce
import NocReport.Foundation.Regex
import NocReport.Foundation.Double
import NocReport.Triage.LogEntries
import NocReport.Triage.Statistics
import NocReport.Triage.EntryGrouped
import NocReport.Triage.EntryPartition
import NocReport.Foundation.UnionFind
import NocReport.Triage.PatternPath
import NocReport.Triage.PatternClaims
import NocReport.Triage.PatternMerging
import NocReport.Triage.PatternConservation
import NocReport.Report.Preview
import NocReport.Report.Canonical
import NocReport.Foundation.DependencyGraph
import NocReport.Foundation.JsonText
import NocReport.Skills.ExecutionHash
import NocReport.Skills.Backfill
import NocReport.Skills.Contract
import NocReport.Skills.Materialize
import NocReport.Skills.Pinning
import NocReport.Foundation.Stateful
import NocReport.Skills.Registry
import NocReport.Skills.LineEnds
import NocReport.Skills.Depth
import NocReport.Skills.Copies
import NocReport.Skills.Activation
import NocReport.Report.SamePlan
import NocReport.Triage.PatternSplitting
import NocReport.Triage.OutputSchema
import NocReport.Triage.HiddenNumbers
import NocReport.Triage.ModelNumbers
import NocReport.Foundation.ReadCommitted
import NocReport.Auth.Sessions
import NocReport.Auth.Rotation
import NocReport.Shifts.Shift
import NocReport.Outbox.Enqueue
import NocReport.Report.Versions
import NocReport.Outbox.Dispatch
import NocReport.Foundation.Worklist
import NocReport.Outbox.Passes
import NocReport.Evidence.Storage
import NocReport.Evidence.Uploads
import NocReport.Evidence.UploadInvariant
import NocReport.Evidence.Attachments
import NocReport.Evidence.Purge
import NocReport.Evidence.PurgeRaces
import NocReport.Evidence.Sweeps
import NocReport.Analysis.Polls
import NocReport.Analysis.Cache
import NocReport.Triage.Accounting
import NocReport.Triage.Totality
import NocReport.Incidents.Incident
import NocReport.Incidents.Lifecycle
import NocReport.Web.Session
import NocReport.Report.Docx
import NocReport.Report.Links
import NocReport.Triage.OrderIndependence
import NocReport.Triage.DuplicateChains
import NocReport.Foundation.Raises
import NocReport.Triage.Malformed
import NocReport.Triage.Validation
import NocReport.Triage.Attempts
import NocReport.Triage.Announcements
import NocReport.Triage.Compaction
import NocReport.Foundation.Numerals
import NocReport.Triage.CutNumbers
import NocReport.Triage.HermesInput
import NocReport.Foundation.JsonDecoder
import NocReport.Foundation.JsonNewlines
import NocReport.Triage.JsonLogs
import NocReport.Triage.AnnotatedLog
import NocReport.Foundation.JsonLineBreaks
import NocReport.Triage.CodeFences
import NocReport.Jobs.Delivery
import NocReport.Report.References
import NocReport.Report.Numbering
import NocReport.Report.Screenshots
import NocReport.Prefill.Rules
import NocReport.Prefill.LocalModel
import NocReport.Skills.Registration
import NocReport.Triage.FamilyComponents
import NocReport.Skills.Preimage
import NocReport.Triage.Rerun
import NocReport.Triage.EntryRerun
import NocReport.Triage.Redelivery
import NocReport.Triage.Completion
import NocReport.Jobs.Progress
import NocReport.Foundation.Amqp
import NocReport.Jobs.Topology
import NocReport.Auth.Access
import NocReport.Report.Provenance
import NocReport.Report.FreshSnapshot
import NocReport.Foundation.Threads
import NocReport.Prefill.Admission
import NocReport.Prefill.Calls
import NocReport.Jobs.Retries
import NocReport.Health.Loop
import NocReport.Health.Readiness
import NocReport.Health.Console
