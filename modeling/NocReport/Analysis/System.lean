import NocReport.Evidence.Storage
import NocReport.Foundation.Json
import NocReport.Foundation.Transactions
import NocReport.Jobs.System
import NocReport.Skills.ExecutionHash
import NocReport.Skills.Materialize
import NocReport.Skills.Registry

set_option relaxedAutoImplicit false
set_option autoImplicit false

/-!
# The analysis of logs

A request for an analysis reads the log of an incident and the active snapshot of the skill, and
looks for a run of the same log under the same snapshot. Where there is one it commits a copy of its
result, with a job that is completed already; else it commits a run without a result, and enqueues a
job for a worker. A worker verifies the evidence and the snapshot that the message of the job names,
asks the model, and uploads the result under a key that has the id of the job. A poll of the API
fills in the results of the jobs that are completed.

Of a run, its columns `current` and those of the telemetry are not followed, nor are the locks that
the update of `current` takes. The rows of `evidence` are those of logs, which are inserted by
`complete_upload` alone.

## Main definitions

* `Analysis.AnalysisRun` — a row of `analysis_runs`.
* `Analysis.findCachedAnalysisRun` — the runs that answer a request.
* `Analysis.Execution` — where a worker is in the processing of a job.
* `Analysis.Phase` — where a request or a poll is.
* `Analysis.State`, `Analysis.Action`, `Analysis.step` — the system.

## Main results

* `Analysis.jobStep_eq_some` — what a step of the job system changes.
* `Analysis.step_runEffect` — what a step does to the runs.
-/

namespace Analysis

open Jobs (JobId WorkerId)
open ReadCommitted Skills Storage Transition

abbrev ProcessId := ℕ

/-! ## Rows -/

/-- `SKILL_NAME`. -/
def skillName : String := "log-triage-summary"

/-- `PREPROCESSOR_VERSION`. -/
def preprocessorVersion : PyStr := py "20"

/-- `AI_POLICY_VERSION`. -/
def aiPolicyVersion : PyStr := py "1"

/-- `CACHE_CONTRACT_VERSION`. -/
def cacheContractVersion : PyStr := preprocessorVersion ++ py "." ++ aiPolicyVersion

/-- A row of `analysis_runs`. -/
structure AnalysisRun (Digest : Type) where
  incidentId : IncidentId
  logEvidenceId : EvidenceId
  resultJson : Option Json
  resultText : Option PyStr
  model : Option PyStr
  effort : Option PyStr
  skillName : String
  skillHash : String
  skillSnapshotId : String
  skillExecutionHash : String
  cacheContractVersion : PyStr
  inputManifestSha256 : Option Digest
  outputSha256 : Option Digest
  createdAt : ℕ
  usedCache : Bool

/-- The columns of the result. -/
def AnalysisRun.result {Digest : Type} (row : AnalysisRun Digest) :
    Option Json × Option PyStr × Option Digest :=
  (row.resultJson, row.resultText, row.outputSha256)

/-- The message of a job: the one object of `object_refs`, and the snapshot. -/
structure JobMessage (Digest : Type) where
  jobId : JobId
  incidentId : IncidentId
  bucket : PyStr
  key : PyStr
  sha256 : Option Digest
  versionId : Option ℕ
  skillHash : String
  skillSnapshotId : String
  skillExecutionHash : String

/-- What `request_analysis` has read of the log. -/
structure Request (Digest : Type) where
  incidentId : IncidentId
  evidenceId : EvidenceId
  evidence : Evidence Digest
  startedAt : ℕ

/-- The settings and the libraries: the digest of bytes, `json.dumps` of an object as it is stored,
`json.loads` of bytes, and their text. -/
structure Config (Content Digest : Type) where
  jobs : Jobs.Config
  skills : ContractLibrary
  sha256 : Content → Digest
  dumps : Json.Fields → Content
  loads : Content → Option Json
  decode : Content → PyStr
  loads_dumps : ∀ output, loads (dumps output) = some (.obj output)

/-! ## Workers -/

/-- What the model is asked about: the bytes of the evidence, and the files of the skill as they
were read from a table. -/
structure Input (Content : Type) where
  table : SkillTable
  files : Dict String SkillFiles
  bytes : Content

/-- A result that a worker has uploaded. -/
structure Production (Content : Type) extends Input Content where
  output : Json.Fields

/-- Where a worker is in the processing of a job. The first three are gone through twice: at first
for the check of an artifact that may be stored already, then by `_process_log_triage_message`. -/
inductive Execution (Content Digest : Type)
  /-- `_incident_and_evidence` comes next -/
  | reading (reconciling : Bool)
  /-- `materialize_snapshot` comes next -/
  | materializing (reconciling : Bool) (evidence : Evidence Digest)
  /-- `download_object` comes next -/
  | downloading (reconciling : Bool) (evidence : Evidence Digest) (table : SkillTable)
      (files : Dict String SkillFiles)
  /-- `_artifact_exists_and_valid` comes next -/
  | judging
  /-- the model is asked next -/
  | analyzing (input : Input Content)
  /-- the upload of `result.json` comes next -/
  | uploading (production : Production Content)
  /-- a result is there -/
  | finished

/-- What a worker does next. -/
inductive ExecutionStep (Content : Type)
  /-- `e` is the latest row of the object -/
  | readEvidence (e : EvidenceId)
  | materialize
  /-- these bytes are downloaded -/
  | download (bytes : Content)
  /-- the artifact that is stored, if there is one, is valid -/
  | judge (valid : Bool)
  /-- the model returns a result that is accepted -/
  | analyze (output : Json.Fields)
  | upload

/-! ## Requests and polls -/

/-- Where a request or a poll is. -/
inductive Phase (Content Digest : Type)
  /-- `request_analysis`, with the log that it has read; `resolve_active_snapshot` comes next -/
  | resolving (request : Request Digest)
  /-- `compute_execution_hash` comes next -/
  | hashing (request : Request Digest) (skill : SkillSnapshot)
  /-- `_find_cached_analysis_run` comes next -/
  | searching (request : Request Digest) (skill : SkillSnapshot) (executionHash : String)
  /-- the rows of the job and of the run are inserted and committed next -/
  | answering (request : Request Digest) (skill : SkillSnapshot) (executionHash : String)
      (cached : Option (AnalysisRun Digest))
  /-- `_sync_completed_job` reads the run of the first of these jobs next, which was completed or
  not; or there is none left, and the `commit` comes next. The bodies that it has flushed are kept. -/
  | polling (jobs : List (JobId × Bool)) (flushed : Dict JobId Content)
  /-- the run of `j` has no result; `get_object_bytes` comes next -/
  | fetching (j : JobId) (jobs : List (JobId × Bool)) (flushed : Dict JobId Content)
  /-- the flush of the row comes next -/
  | filling (j : JobId) (body : Content) (jobs : List (JobId × Bool)) (flushed : Dict JobId Content)

/-- What a request or a poll does next. -/
inductive Statement
  | resolve
  | hash
  /-- the run that is found -/
  | findCached (found : Option JobId)
  /-- the new job gets the id `j` -/
  | insert (j : JobId)
  | readRun
  | fetch
  | flush
  | commit
  /-- the statement fails, or the process is lost -/
  | fail

/-- The state of the system. -/
structure State (Content Digest : Type) where
  base : Jobs.State
  skills : SkillTable
  /-- the rows of `evidence` that are logs -/
  evidence : Dict EvidenceId (Evidence Digest)
  /-- the bytes that were hashed when the log was uploaded -/
  sources : Dict EvidenceId Content
  /-- `analysis_runs`, whose column `job_id` is unique -/
  runs : Table ProcessId JobId (AnalysisRun Digest)
  /-- the jobs of the requests that found a run -/
  cachedJobs : List JobId
  /-- the message of a job -/
  messages : JobId → Option (JobMessage Digest)
  /-- what each worker processes -/
  executions : WorkerId → Option (JobMessage Digest × Execution Content Digest)
  /-- what has been uploaded for a job, oldest first; the last is stored -/
  uploads : JobId → List (Production Content)
  processes : ProcessId → Option (Phase Content Digest)

variable {Content Digest : Type}

/-- The system without a log, over some snapshots. -/
def State.init (skills : SkillTable) : State Content Digest where
  base := .init
  skills := skills
  evidence := []
  sources := []
  runs := .ofRows []
  cachedJobs := []
  messages := fun _ => none
  executions := fun _ => none
  uploads := fun _ => []
  processes := fun _ => none

/-- What can happen. -/
inductive Action (Content Digest : Type)
  | job (a : Jobs.Action)
  /-- a call of the registry of skills -/
  | registry (call : Call)
  /-- `complete_upload` of a log -/
  | addEvidence (e : EvidenceId) (row : Evidence Digest) (bytes : Content)
  /-- a purge of a log goes on -/
  | setLifecycle (e : EvidenceId) (lifecycle : LifecycleState)
  /-- `e` is the latest log of the incident that is active -/
  | requestAnalysis (p : ProcessId) (incident : IncidentId) (e : EvidenceId)
  /-- `list_analysis_runs`, or `get_analysis_run` with one job -/
  | poll (p : ProcessId) (jobs : List JobId)
  | execute (w : WorkerId) (st : ExecutionStep Content)
  | process (p : ProcessId) (st : Statement)

/-! ## What is computed -/

/-- The run that a request enqueues a job for. -/
def Request.run (request : Request Digest) (skill : SkillSnapshot) (executionHash : String) :
    AnalysisRun Digest where
  incidentId := request.incidentId
  logEvidenceId := request.evidenceId
  resultJson := none
  resultText := none
  model := none
  effort := none
  skillName := skillName
  skillHash := skill.contentHash
  skillSnapshotId := skill.id
  skillExecutionHash := executionHash
  cacheContractVersion := cacheContractVersion
  inputManifestSha256 := request.evidence.sha256
  outputSha256 := none
  createdAt := request.startedAt
  usedCache := false

/-- The run that a request copies the result of another to. -/
def Request.copy (request : Request Digest) (skill : SkillSnapshot) (executionHash : String)
    (cached : AnalysisRun Digest) : AnalysisRun Digest :=
  { request.run skill executionHash with
    resultJson := cached.resultJson
    resultText := cached.resultText
    model := cached.model
    effort := cached.effort
    outputSha256 := cached.outputSha256
    usedCache := true }

/-- The message of the job that a request enqueues. -/
def Request.message (request : Request Digest) (skill : SkillSnapshot) (executionHash : String)
    (j : JobId) : JobMessage Digest where
  jobId := j
  incidentId := request.incidentId
  bucket := request.evidence.bucket
  key := request.evidence.objectKey
  sha256 := request.evidence.sha256
  versionId := request.evidence.versionId
  skillHash := skill.contentHash
  skillSnapshotId := skill.id
  skillExecutionHash := executionHash

section Cache

variable [DecidableEq Digest] (log : Evidence Digest) (requestedModel requestedEffort : Option PyStr)
  (skillHash : String) (skillExecutionHash skillSnapshotId : Option String)

/-- The filters of `_find_cached_analysis_run`. -/
def answers (row : AnalysisRun Digest) : Bool :=
  row.skillName = skillName ∧ row.skillHash = skillHash ∧
    row.cacheContractVersion = cacheContractVersion ∧ row.inputManifestSha256 = log.sha256 ∧
    row.resultJson.isSome ∧ skillExecutionHash.all (row.skillExecutionHash = ·) ∧
    skillSnapshotId.all (row.skillSnapshotId = ·) ∧
    requestedModel.all (row.model = some ·) ∧ requestedEffort.all (row.effort = some ·)

/-- `_find_cached_analysis_run`: the jobs of the runs of which it returns the latest. -/
def findCachedAnalysisRun (runs : Table ProcessId JobId (AnalysisRun Digest)) : List JobId :=
  if log.sha256.isNone then []
  else runs.select fun _ row =>
    answers log requestedModel requestedEffort skillHash skillExecutionHash skillSnapshotId row

end Cache

/-- The latest of the runs of some jobs is that of `found`, if there is one. -/
def latest? (rows : Dict JobId (AnalysisRun Digest)) (jobs : List JobId) :
    Option JobId → Option (Option (AnalysisRun Digest))
  | none => if jobs = [] then some none else none
  | some j => (Dict.get? rows j).bind fun row =>
    if j ∈ jobs ∧ jobs.all fun i => (Dict.get? rows i).all (·.createdAt ≤ row.createdAt) then
      some (some row)
    else none

/-- The value of a column that is set to this. -/
def columnOf : Json → Option Json
  | .null => none
  | v => some v

section Fill

variable (cfg : Config Content Digest)

/-- The run with the result that a body holds. -/
def AnalysisRun.fill (body : Content) (v : Json) (row : AnalysisRun Digest) : AnalysisRun Digest :=
  { row with
    resultJson := columnOf v
    resultText := some (cfg.decode body)
    outputSha256 := some (cfg.sha256 body) }

/-- The columns of the result that a body holds. -/
def Config.resultOf (body : Content) : Option Json × Option PyStr × Option Digest :=
  ((cfg.loads body).bind columnOf, some (cfg.decode body), some (cfg.sha256 body))

end Fill

/-- The row of `evidence` that the message of a job names. -/
def JobMessage.names (message : JobMessage Digest) (row : Evidence Digest) : Bool :=
  row.incidentId = some message.incidentId ∧ row.lifecycleState = .active ∧
    row.bucket = message.bucket ∧ row.objectKey = message.key

/-- The checks of `_incident_and_evidence`. -/
def JobMessage.verifies [DecidableEq Digest] (message : JobMessage Digest) (row : Evidence Digest) :
    Bool :=
  (message.sha256 = none ∨ row.sha256 = message.sha256) ∧
    (message.versionId = none ∨ row.versionId = message.versionId)

/-! ## Steps -/

section Step

variable [DecidableEq Digest] (cfg : Config Content Digest) (s : State Content Digest)

/-- Process `p` goes on, or ends. -/
@[simps]
def State.goOn (p : ProcessId) (next : Option (Phase Content Digest)) : State Content Digest :=
  { s with processes := Function.update s.processes p next }

/-- Worker `w` goes on with its job. -/
@[simps]
def State.execute (w : WorkerId) (message : JobMessage Digest)
    (x : Execution Content Digest) : State Content Digest :=
  { s with executions := Function.update s.executions w (some (message, x)) }

/-- The transaction of process `p` ends without a commit. -/
@[simps!]
def State.rollback (p : ProcessId) : State Content Digest :=
  { s with runs := s.runs.rollback p }.goOn p none

/-- The system after a step of the job system. The jobs are enqueued with their runs; a worker is
given the message of its job when its processing starts, and has to come to a result to succeed. -/
def State.afterJob (base : Jobs.State) : Jobs.Action → Option (State Content Digest)
  | .enqueue _ => none
  | .worker w .succeed =>
    match s.executions w with
    | some (_, .finished) => some { s with base }
    | _ => none
  | .worker w .proceed =>
    match s.base.handlers w with
    | some ⟨m, .claimed _⟩ =>
      some { s with
        base
        executions := Function.update s.executions w
          ((s.messages m.job).map fun message => (message, .reading true)) }
    | _ => some { s with base }
  | _ => some { s with base }

/-- A step of the job system. -/
def jobStep (a : Jobs.Action) : Option (State Content Digest) :=
  (Jobs.step cfg.jobs s.base a).bind fun base => s.afterJob base a

/-- One step of a worker that processes a job. -/
def executeStep (w : WorkerId) (message : JobMessage Digest) :
    Execution Content Digest → ExecutionStep Content → Option (State Content Digest)
  | .reading reconciling, .readEvidence e =>
    (Dict.get? s.evidence e).bind fun row =>
      if message.names row ∧ message.verifies row then
        some (s.execute w message (.materializing reconciling row))
      else none
  | .materializing reconciling row, .materialize =>
    match materializeSnapshot cfg.skills.toSkillLibrary s.skills skillName (some message.skillHash)
        (some message.skillSnapshotId) (some message.skillExecutionHash) with
    | .ok files => some (s.execute w message (.downloading reconciling row s.skills files))
    | .error _ => none
  | .downloading reconciling row table files, .download bytes =>
    if row.sha256 = none ∨ row.sha256 = some (cfg.sha256 bytes) then
      some (s.execute w message
        (if reconciling then .judging else .analyzing ⟨table, files, bytes⟩))
    else none
  | .judging, .judge valid =>
    if valid ∧ s.uploads message.jobId ≠ [] then some (s.execute w message .finished)
    else some (s.execute w message (.reading false))
  | .analyzing input, .analyze output => some (s.execute w message (.uploading ⟨input, output⟩))
  | .uploading production, .upload =>
    some ({ s with
      uploads := Function.update s.uploads message.jobId
        (s.uploads message.jobId ++ [production]) }.execute w message .finished)
  | _, _ => none

/-- One step of `request_analysis`. -/
def requestStep (p : ProcessId) :
    Phase Content Digest → Statement → Option (State Content Digest)
  | .resolving request, .resolve =>
    -- a snapshot that has to be registered first is registered by a step of its own
    (findVersion s.skills skillName none).map fun skill => s.goOn p (some (.hashing request skill))
  | .hashing request skill, .hash =>
    match computeExecutionHash cfg.skills.toSkillLibrary s.skills skill with
    | .ok executionHash => some (s.goOn p (some (.searching request skill executionHash)))
    | .error _ => none
  | .searching request skill executionHash, .findCached found =>
    (latest? s.runs.committed (findCachedAnalysisRun request.evidence none none skill.contentHash
        (some executionHash) (some skill.id) s.runs) found).map fun cached =>
      s.goOn p (some (.answering request skill executionHash cached))
  | .answering request skill executionHash cached, .insert j =>
    if Dict.get? s.runs.committed j = none ∧ j ∉ s.cachedJobs then
      match cached with
      | some run =>
        if (s.base.jobs j).isNone then
          some ({ s with
            runs := s.runs.withRows (s.runs.committed.set j (request.copy skill executionHash run))
            cachedJobs := j :: s.cachedJobs }.goOn p none)
        else none
      | none => (Jobs.step cfg.jobs s.base (.enqueue j)).map fun base =>
        { s with
          base
          runs := s.runs.withRows (s.runs.committed.set j (request.run skill executionHash))
          messages := Function.update s.messages j
            (some (request.message skill executionHash j)) }.goOn p none
    else none
  | _, _ => none

/-- One step of `list_analysis_runs` or of `get_analysis_run`. -/
def pollStep (p : ProcessId) :
    Phase Content Digest → Statement → Option (State Content Digest)
  | .polling ((j, completed) :: jobs) flushed, .readRun =>
    match s.runs.read p j with
    | some run =>
      if run.resultJson.isNone ∧ completed then some (s.goOn p (some (.fetching j jobs flushed)))
      else some (s.goOn p (some (.polling jobs flushed)))
    | none => some (s.goOn p (some (.polling jobs flushed)))
  | .fetching j jobs flushed, .fetch =>
    match (s.uploads j).getLast? with
    | some production =>
      some (s.goOn p (some (.filling j (cfg.dumps production.output) jobs flushed)))
    | none => some (s.goOn p (some (.polling jobs flushed)))
  | .filling j body jobs flushed, .flush =>
    match cfg.loads body with
    | some v => (s.runs.update? p j (AnalysisRun.fill cfg body v)).map fun runs =>
      { s with runs }.goOn p (some (.polling jobs (flushed.set j body)))
    | none => some (s.rollback p)
  | .polling [] _, .commit => some ({ s with runs := s.runs.commit p }.goOn p none)
  | _, _ => none

/-- One step of a request or a poll. -/
def processStep (p : ProcessId) (ph : Phase Content Digest) (st : Statement) :
    Option (State Content Digest) :=
  match st with
  | .fail => some (s.rollback p)
  | st =>
    match ph with
    | .resolving _ | .hashing _ _ | .searching _ _ _ | .answering _ _ _ _ => requestStep cfg s p ph st
    | .polling _ _ | .fetching _ _ _ | .filling _ _ _ _ => pollStep cfg s p ph st

/-- The status of a job is `COMPLETED`. -/
def State.completed (j : JobId) : Bool :=
  j ∈ s.cachedJobs ∨ (s.base.jobs j).any (·.status = .completed)

/-- One step of the system. -/
def step : Action Content Digest → Option (State Content Digest)
  | .job a => jobStep cfg s a
  | .registry call =>
    (callStep cfg.skills s.skills call).map fun skills => { s with skills }
  | .addEvidence e row bytes =>
    if Dict.get? s.evidence e = none ∧ row.evidenceType = .log ∧
        row.sha256 = some (cfg.sha256 bytes) ∧ row.lifecycleState = .active then
      some { s with evidence := s.evidence.set e row, sources := s.sources.set e bytes }
    else none
  | .setLifecycle e lifecycle =>
    (Dict.get? s.evidence e).map fun row =>
      { s with evidence := s.evidence.set e { row with lifecycleState := lifecycle } }
  | .requestAnalysis p incident e =>
    if (s.processes p).isNone then
      (Dict.get? s.evidence e).bind fun row =>
        if row.incidentId = some incident ∧ row.lifecycleState = .active then
          some (s.goOn p (some (.resolving ⟨incident, e, row, s.base.clock⟩)))
        else none
    else none
  | .poll p jobs =>
    if (s.processes p).isNone ∧ ∀ j ∈ jobs, (s.base.jobs j).isSome ∨ j ∈ s.cachedJobs then
      some (s.goOn p (some (.polling (jobs.map fun j => (j, s.completed j)) [])))
    else none
  | .execute w st =>
    match s.base.handlers w, s.executions w with
    | some ⟨_, .processing _⟩, some (message, x) => executeStep cfg s w message x st
    | _, _ => none
  | .process p st => (s.processes p).bind fun ph => processStep cfg s p ph st

end Step

/-! ## What a step does to the runs -/

/-- The bodies that a request or a poll has flushed. -/
def Phase.flushed : Phase Content Digest → Dict JobId Content
  | polling _ flushed | fetching _ _ flushed | filling _ _ _ flushed => flushed
  | _ => []

/-- The bodies that a process has flushed. -/
def State.flushed (s : State Content Digest) (p : ProcessId) : Dict JobId Content :=
  ((s.processes p).map Phase.flushed).getD []

/-- The run that a request inserts. -/
def Request.answer (request : Request Digest) (skill : SkillSnapshot) (executionHash : String) :
    Option (AnalysisRun Digest) → AnalysisRun Digest
  | some cached => request.copy skill executionHash cached
  | none => request.run skill executionHash

section Effect

variable {cfg : Config Content Digest} {s s' : State Content Digest} {p q : ProcessId}

@[simp] lemma flushed_withRuns {T : Table ProcessId JobId (AnalysisRun Digest)} :
    { s with runs := T }.flushed = s.flushed := rfl

lemma flushed_goOn {next : Option (Phase Content Digest)} :
    (s.goOn p next).flushed q = if q = p then (next.map Phase.flushed).getD [] else s.flushed q := by
  by_cases hq : q = p
  · subst hq
    simp [State.flushed]
  · simp [State.flushed, hq]

/-- A process that goes on has flushed what it had. -/
lemma flushed_goOn_of_eq {next : Option (Phase Content Digest)}
    (h : (next.map Phase.flushed).getD [] = s.flushed p) : (s.goOn p next).flushed = s.flushed := by
  funext q
  rw [flushed_goOn]
  by_cases hq : q = p
  · rw [if_pos hq, h, hq]
  · rw [if_neg hq]

lemma flushed_of_phase {ph : Phase Content Digest} (h : s.processes p = some ph) :
    s.flushed p = ph.flushed := by
  rw [State.flushed, h]
  rfl

lemma flushed_of_isNone (h : (s.processes p).isNone) : s.flushed p = [] := by
  rw [State.flushed, Option.isNone_iff_eq_none.mp h]
  rfl

/-- What a step does to the runs. -/
inductive RunEffect (cfg : Config Content Digest) (s : State Content Digest) :
    Action Content Digest → State Content Digest → Prop
  /-- nothing is written or flushed -/
  | quiet {a : Action Content Digest} {s' : State Content Digest} (hruns : s'.runs = s.runs)
      (hflushed : s'.flushed = s.flushed) : RunEffect cfg s a s'
  | rollback {a : Action Content Digest} (p : ProcessId) : RunEffect cfg s a (s.rollback p)
  /-- a request commits its run -/
  | insert {s' : State Content Digest} (p : ProcessId) (request : Request Digest)
      (skill : SkillSnapshot) (executionHash : String) (cached : Option (AnalysisRun Digest))
      (j : JobId) (hold : s.processes p = some (.answering request skill executionHash cached))
      (hnone : Dict.get? s.runs.committed j = none)
      (hruns : s'.runs = s.runs.withRows
        (s.runs.committed.set j (request.answer skill executionHash cached)))
      (hflushed : s'.flushed = s.flushed) : RunEffect cfg s (.process p (.insert j)) s'
  /-- a poll flushes the result in a body -/
  | flush {T : Table ProcessId JobId (AnalysisRun Digest)} (p : ProcessId) (j : JobId)
      (body : Content) (v : Json) (jobs : List (JobId × Bool)) (flushed : Dict JobId Content)
      (hold : s.processes p = some (.filling j body jobs flushed)) (hv : cfg.loads body = some v)
      (hT : s.runs.update? p j (AnalysisRun.fill cfg body v) = some T) :
      RunEffect cfg s (.process p .flush)
        ({ s with runs := T }.goOn p (some (.polling jobs (flushed.set j body))))
  /-- a poll commits -/
  | commit (p : ProcessId) (flushed : Dict JobId Content)
      (hold : s.processes p = some (.polling [] flushed)) :
      RunEffect cfg s (.process p .commit) ({ s with runs := s.runs.commit p }.goOn p none)

/-- A process goes on, with what it has flushed. -/
lemma RunEffect.goOn {a : Action Content Digest} {ph : Phase Content Digest}
    {next : Option (Phase Content Digest)} (hold : s.processes p = some ph)
    (h : (next.map Phase.flushed).getD [] = ph.flushed) : RunEffect cfg s a (s.goOn p next) :=
  .quiet rfl (flushed_goOn_of_eq (h.trans (flushed_of_phase hold).symm))

lemma pollStep_runEffect {ph : Phase Content Digest} {st : Statement}
    (hold : s.processes p = some ph) (h : pollStep cfg s p ph st = some s') :
    RunEffect cfg s (.process p st) s' := by
  unfold pollStep at h
  split at h
  · split at h
    · split at h <;> · cases h; exact .goOn hold rfl
    · cases h
      exact .goOn hold rfl
  · split at h <;> · cases h; exact .goOn hold rfl
  · next j body jobs flushed =>
    split at h
    · next v hv =>
      obtain ⟨T, hT, rfl⟩ := Option.map_eq_some_iff.mp h
      exact .flush p j body v jobs flushed hold hv hT
    · cases h
      exact .rollback p
  · next flushed =>
    cases h
    exact .commit p flushed hold
  · cases h

/-- What a step of the job system changes: a worker may be given its message. -/
lemma jobStep_eq_some {a : Jobs.Action} (h : jobStep cfg s a = some s') :
    ∃ base executions, s' = { s with base, executions } ∧
      ∀ w x, executions w = some x → s.executions w = some x ∨
        ∃ j message, s.messages j = some message ∧ x = (message, .reading true) := by
  obtain ⟨base, -, hafter⟩ := Option.bind_eq_some_iff.mp h
  clear h
  refine ⟨base, s'.executions, ?_⟩
  unfold State.afterJob at hafter
  split at hafter
  · cases hafter
  · split at hafter
    · cases hafter
      exact ⟨rfl, fun w x hx => .inl hx⟩
    · cases hafter
  · next w =>
    split at hafter
    · next m tok hw =>
      cases hafter
      refine ⟨rfl, fun u x hx => ?_⟩
      change Function.update s.executions w _ u = some x at hx
      by_cases hu : u = w
      · subst hu
        rw [Function.update_self] at hx
        obtain ⟨message, hmessage, rfl⟩ := Option.map_eq_some_iff.mp hx
        exact .inr ⟨m.job, message, hmessage, rfl⟩
      · rw [Function.update_of_ne hu] at hx
        exact .inl hx
    · cases hafter
      exact ⟨rfl, fun w x hx => .inl hx⟩
  · cases hafter
    exact ⟨rfl, fun w x hx => .inl hx⟩

variable [DecidableEq Digest]

/-- What a step of an execution changes. -/
lemma executeStep_eq_some {w : WorkerId} {message : JobMessage Digest}
    {x : Execution Content Digest} {st : ExecutionStep Content}
    (h : executeStep cfg s w message x st = some s') :
    ∃ uploads x', s' = { s with uploads }.execute w message x' := by
  unfold executeStep at h
  split at h
  · obtain ⟨row, -, h⟩ := Option.bind_eq_some_iff.mp h
    split at h
    · cases h
      exact ⟨s.uploads, _, rfl⟩
    · cases h
  · split at h
    · cases h
      exact ⟨s.uploads, _, rfl⟩
    · cases h
  · split at h
    · cases h
      exact ⟨s.uploads, _, rfl⟩
    · cases h
  · split at h <;> · cases h; exact ⟨s.uploads, _, rfl⟩
  · cases h
    exact ⟨s.uploads, _, rfl⟩
  · cases h
    exact ⟨_, _, rfl⟩
  · cases h

lemma requestStep_runEffect {ph : Phase Content Digest} {st : Statement}
    (hold : s.processes p = some ph) (h : requestStep cfg s p ph st = some s') :
    RunEffect cfg s (.process p st) s' := by
  unfold requestStep at h
  split at h
  · obtain ⟨skill, -, rfl⟩ := Option.map_eq_some_iff.mp h
    exact .goOn hold rfl
  · split at h
    · cases h
      exact .goOn hold rfl
    · cases h
  · obtain ⟨cached, -, rfl⟩ := Option.map_eq_some_iff.mp h
    exact .goOn hold rfl
  · next request skill executionHash cached j =>
    split at h
    · next hfree =>
      have hflushed : s.flushed p = [] := flushed_of_phase hold
      split at h
      · split at h
        · cases h
          refine .insert p request skill executionHash _ j hold hfree.1 rfl ?_
          exact flushed_goOn_of_eq hflushed.symm
        · cases h
      · obtain ⟨base, -, rfl⟩ := Option.map_eq_some_iff.mp h
        refine .insert p request skill executionHash none j hold hfree.1 rfl ?_
        exact flushed_goOn_of_eq hflushed.symm
    · cases h
  · cases h

/-- **What a step does to the runs.** -/
theorem step_runEffect {a : Action Content Digest} (h : step cfg s a = some s') :
    RunEffect cfg s a s' := by
  cases a with
  | job a =>
    obtain ⟨base, executions, rfl, -⟩ := jobStep_eq_some h
    exact .quiet rfl rfl
  | registry call =>
    obtain ⟨skills, -, rfl⟩ := Option.map_eq_some_iff.mp h
    exact .quiet rfl rfl
  | addEvidence e row bytes =>
    simp only [step] at h
    split at h
    · cases h
      exact .quiet rfl rfl
    · cases h
  | setLifecycle e lifecycle =>
    obtain ⟨row, -, rfl⟩ := Option.map_eq_some_iff.mp h
    exact .quiet rfl rfl
  | requestAnalysis p incident e =>
    simp only [step] at h
    split at h
    · next hfree =>
      obtain ⟨row, -, h⟩ := Option.bind_eq_some_iff.mp h
      split at h
      · cases h
        exact .quiet rfl (flushed_goOn_of_eq (flushed_of_isNone hfree).symm)
      · cases h
    · cases h
  | poll p jobs =>
    simp only [step] at h
    split at h
    · next hfree =>
      cases h
      exact .quiet rfl (flushed_goOn_of_eq (flushed_of_isNone hfree.1).symm)
    · cases h
  | execute w st =>
    simp only [step] at h
    split at h
    · obtain ⟨uploads, x, rfl⟩ := executeStep_eq_some h
      exact .quiet rfl rfl
    · cases h
  | process p st =>
    obtain ⟨ph, hold, h⟩ := Option.bind_eq_some_iff.mp h
    unfold processStep at h
    split at h
    · cases h
      exact .rollback p
    · split at h
      all_goals first
        | exact requestStep_runEffect hold h
        | exact pollStep_runEffect hold h

end Effect

/-! ## A sample -/

/-- A skill whose files are empty. -/
def plainSkill : SkillSnapshot where
  skillMd := ""
  outputSchemaJson := ""
  manifestYaml := ""
  id := "1"
  skillName := skillName
  versionLabel := 1
  contentHash := "c"
  executionHash := none
  dependencySnapshotIds := []
  createdAt := some 0
  isActive := true

def plainSkills : SkillTable where
  rows := [plainSkill]
  nodup := by decide
  ids_ne := by decide

/-- Bodies are objects here, their digests are themselves, and their texts are made of their keys. -/
def plain : Config Json.Fields Json.Fields where
  jobs := ⟨3, 1⟩
  skills :=
    { sha256Hex := fun _ => "d"
      safeLoad := fun _ => .ok (.map [])
      parseInt := fun _ => none
      repr := fun _ => ""
      loadSchema := fun _ => .ok (.obj []) }
  sha256 := id
  dumps := id
  loads := fun body => some (.obj body)
  decode := fun body => body.flatMap (·.1)
  loads_dumps := fun _ => rfl

def logA : EvidenceId := ⟨[97], Storage.noSlash_a⟩

/-- A log without bytes. -/
def plainLog : Evidence Json.Fields where
  incidentId := some logA
  evidenceType := .log
  bucket := py "noc-evidence"
  objectKey := py "log.txt"
  originalFilename := py "log.txt"
  mimeType := none
  byteSize := some 0
  sha256 := some []
  versionId := some 1
  uploadedBy := none
  lifecycleState := .active
  deletedAt := none

/-- A worker goes through the processing of a job up to the upload of its result. -/
def analyzes (w : WorkerId) (output : Json.Fields) : List (Action Json.Fields Json.Fields) :=
  [.execute w (.readEvidence logA), .execute w .materialize, .execute w (.download []),
    .execute w (.judge false), .execute w (.readEvidence logA), .execute w .materialize,
    .execute w (.download []), .execute w (.analyze output)]

/-- The result of a job after a run. -/
def resultAfter (as : List (Action Json.Fields Json.Fields)) (j : JobId) :
    Option (Option Json × Option PyStr × Option Json.Fields) :=
  (run (step plain) (.init plainSkills) as).bind fun s =>
    (Dict.get? s.runs.committed j).map AnalysisRun.result

end Analysis
