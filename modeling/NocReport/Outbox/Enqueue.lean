import NocReport.Foundation.Json
import NocReport.Jobs.Row

set_option relaxedAutoImplicit false
set_option autoImplicit false

/-!
# Enqueuing a job

`enqueue_job` inserts a job and the outbox event that will dispatch it, in the transaction of its
caller and as two flushes. Nothing is published here: the event carries the message as it will be
sent.

## Main definitions

* `Outbox.JobArgs` — the arguments of `enqueue_job`.
* `Outbox.newJob`, `Outbox.newOutboxEvent` — the rows that it inserts.
* `Outbox.buildJobMessage` — the message that the event carries.
-/

namespace Outbox

abbrev JobId := ℕ

abbrev EventId := ℕ

/-- The job types of `job_protocol.json`. -/
inductive JobType
  | logTriage | dailyReport
  deriving DecidableEq, Repr

def JobType.name : JobType → PyStr
  | logTriage => py "log_triage"
  | dailyReport => py "daily_report"

/-- `queue_names(job_type)["routing_key"]`. -/
def JobType.routingKey (jobType : JobType) : PyStr := py "job." ++ jobType.name

/-- `PROTOCOL_VERSION` of `job_protocol.json`. -/
def protocolVersion : ℕ := 1

/-- The arguments of `enqueue_job`; the entries of `object_refs` are of type `Ref`, and the hashes
of type `Digest`. -/
structure JobArgs (Ref Digest : Type) where
  jobType : JobType
  requestedBy : Option ℕ
  incidentId : Option ℕ
  objectRefs : List Ref
  model : Option PyStr
  effort : Option PyStr
  skillName : PyStr
  skillVersion : PyStr
  skillSnapshotId : ℕ
  skillHash : Option Digest
  skillExecutionHash : Option Digest
  aiPolicy : Option Json.Fields

/-- A row of `jobs`, as far as `enqueue_job` fills it. -/
structure Job (Digest : Type) where
  jobType : JobType
  status : Jobs.JobStatus
  incidentId : Option ℕ
  requestedBy : Option ℕ
  model : Option PyStr
  effort : Option PyStr
  skillName : PyStr
  skillVersion : PyStr
  skillHash : Option Digest
  skillExecutionHash : Option Digest
  skillSnapshotId : ℕ
  attempt : ℕ
  correlationId : PyStr

/-- A job message. -/
structure JobMessage (Ref Digest : Type) where
  protocolVersion : ℕ
  jobId : JobId
  jobType : JobType
  incidentId : Option ℕ
  objectRefs : List Ref
  model : Option PyStr
  effort : Option PyStr
  skillName : PyStr
  skillVersion : PyStr
  skillHash : Option Digest
  skillExecutionHash : Option Digest
  skillSnapshotId : ℕ
  expectedOutputType : PyStr
  aiPolicy : Json.Fields
  correlationId : PyStr
  attempt : ℕ

/-- A row of `outbox_events`. -/
structure OutboxEvent (Ref Digest : Type) where
  jobId : JobId
  routingKey : PyStr
  payload : JobMessage Ref Digest
  createdAt : ℕ
  publishedAt : Option ℕ
  attemptCount : ℕ
  lastError : Option PyStr

variable {Ref Digest : Type}

/-- The policy of a message, where the caller gives none. -/
def defaultPolicy (model effort : Option PyStr) : Json.Fields :=
  (model.toList.map fun m => (py "model", .str m)) ++ effort.toList.map fun e => (py "effort", .str e)

/-- `build_job_message`, as `enqueue_job` calls it. -/
def buildJobMessage (args : JobArgs Ref Digest) (jobId : JobId) (correlationId : PyStr) :
    JobMessage Ref Digest where
  protocolVersion := protocolVersion
  jobId := jobId
  jobType := args.jobType
  incidentId := args.incidentId
  objectRefs := args.objectRefs
  model := args.model
  effort := args.effort
  skillName := args.skillName
  skillVersion := args.skillVersion
  skillHash := args.skillHash
  skillExecutionHash := args.skillExecutionHash
  skillSnapshotId := args.skillSnapshotId
  expectedOutputType := args.jobType.name ++ py ".result"
  aiPolicy := args.aiPolicy.getD (defaultPolicy args.model args.effort)
  correlationId := correlationId
  attempt := 1

/-- The job that `enqueue_job` inserts. -/
def newJob (args : JobArgs Ref Digest) (correlationId : PyStr) : Job Digest where
  jobType := args.jobType
  status := .queued
  incidentId := args.incidentId
  requestedBy := args.requestedBy
  model := args.model
  effort := args.effort
  skillName := args.skillName
  skillVersion := args.skillVersion
  skillHash := args.skillHash
  skillExecutionHash := args.skillExecutionHash
  skillSnapshotId := args.skillSnapshotId
  attempt := 1
  correlationId := correlationId

/-- The outbox event that `enqueue_job` inserts. -/
def newOutboxEvent (args : JobArgs Ref Digest) (jobId : JobId) (correlationId : PyStr) (now : ℕ) :
    OutboxEvent Ref Digest where
  jobId := jobId
  routingKey := args.jobType.routingKey
  payload := buildJobMessage args jobId correlationId
  createdAt := now
  publishedAt := none
  attemptCount := 0
  lastError := none

end Outbox
