import NocReport.Evidence.Storage
import NocReport.Foundation.Transactions
import NocReport.Foundation.Transition

set_option relaxedAutoImplicit false
set_option autoImplicit false

/-!
# Uploads of evidence

An upload has an intent, which owns the name of one object; the browser stores the object itself, and
`complete_upload` inserts the row of `evidence` under the lock of the intent. A sweep deletes the
objects of the intents that have expired. A prefill is a screenshot that is stored before there is an
incident; `attach_prefill_to_incident` inserts a row of `evidence` for it, under no lock. Every
request and every sweep is taken statement by statement, each call of the storage is a step of its
own, and any of them can fail. Foreign keys are not followed: nothing here deletes a row.

## Main definitions

* `Uploads.Completing`, `Uploads.Sweeping`, `Uploads.Attaching` — where a process is.
* `Uploads.State`, `Uploads.Action`, `Uploads.step` — the system.
* `Phase.intent?`, `Phase.prefill?`, `Phase.evidence?` — the row that a process has written.
-/

namespace Uploads

open ObjectStore ReadCommitted Storage Transition

abbrev ProcessId := ℕ

abbrev IntentId := Uuid

abbrev PrefillId := Uuid

/-- `evidence_upload_intents.state`. -/
inductive IntentState
  /-- `OPEN` -/
  | opened
  | completed
  | expired
  | cleaned
  deriving DecidableEq, Repr

/-- A row of `evidence_upload_intents`. -/
structure EvidenceUploadIntent where
  incidentId : IncidentId
  createdBy : UserId
  bucket : PyStr
  objectKey : PyStr
  evidenceType : EvidenceType
  originalFilename : PyStr
  expectedContentType : Option PyStr
  expectedByteSize : Option ℕ
  state : IntentState
  expiresAt : ℕ
  evidenceId : Option EvidenceId
  completedAt : Option ℕ
  deriving DecidableEq

/-- The object of an intent. -/
def EvidenceUploadIntent.object (intent : EvidenceUploadIntent) : ObjectName :=
  ⟨intent.bucket, intent.objectKey⟩

/-- `incident_prefill_runs.status`. -/
inductive PrefillStatus
  | processing
  | fallback
  | reviewRequired
  | ocrFailed
  deriving DecidableEq, Repr

/-- A row of `incident_prefill_runs`, without what the OCR and the mapper have found. -/
structure IncidentPrefillRun (Digest : Type) where
  incidentId : Option IncidentId
  sourceBucket : PyStr
  sourceObjectKey : PyStr
  sourceFilename : PyStr
  sourceMimeType : Option PyStr
  sourceSha256 : Digest
  status : PrefillStatus
  createdBy : UserId
  deriving DecidableEq

/-- The object of a prefill. -/
def IncidentPrefillRun.object {Digest : Type} (run : IncidentPrefillRun Digest) : ObjectName :=
  ⟨run.sourceBucket, run.sourceObjectKey⟩

/-- The settings, and what is done with the bytes of an object. -/
structure Config (Content Digest : Type) where
  minioBucketEvidence : PyStr
  maxEvidenceUploadBytes : ℕ
  evidenceUploadIntentTtlSeconds : ℕ
  byteSize : Content → ℕ
  sha256OfBytes : Content → Digest

/-! ## Where a process is -/

/-- A completion of an upload, with the intent as it was locked. -/
structure Completion where
  incidentId : IncidentId
  userId : UserId
  intentId : IntentId
  intent : EvidenceUploadIntent
  now : ℕ

/-- Where `complete_upload` is, after its last statement or call of the storage. -/
inductive Completing (Content Digest : Type)
  /-- the intent is locked; its checks come next -/
  | locked (c : Completion)
  /-- the intent has expired, and is written so; `commit` comes next -/
  | lapsed (c : Completion)
  /-- `head_object` comes next -/
  | checked (c : Completion)
  /-- `sha256_of_object` comes next -/
  | headed (c : Completion) (version : ℕ) (head : StoredObject Content)
  /-- the flush of the evidence comes next -/
  | hashed (c : Completion) (row : Evidence Digest)
  /-- the update of the intent comes next -/
  | recorded (c : Completion) (id : EvidenceId) (row : Evidence Digest)
  /-- `commit` comes next -/
  | completed (c : Completion) (id : EvidenceId) (row : Evidence Digest)

/-- The locals of `sweep_abandoned_upload_intents`. -/
structure Pass where
  now : ℕ
  remaining : ℕ
  skippedIds : List IntentId

/-- Where a sweep is. -/
inductive Sweeping
  /-- between two intents, in no transaction -/
  | between (pass : Pass)
  /-- an intent is locked; its checks come next -/
  | picked (pass : Pass) (i : IntentId) (intent : EvidenceUploadIntent)
  /-- the intent has evidence, and is written as completed; `commit` comes next -/
  | settled (pass : Pass) (i : IntentId) (intent : EvidenceUploadIntent) (id : EvidenceId)
  /-- the object is not that of the intent, which is written as expired; `commit` comes next -/
  | refused (pass : Pass) (i : IntentId) (intent : EvidenceUploadIntent)
  /-- `delete_object_versions`, with the versions of the page that are still to be deleted -/
  | clearing (pass : Pass) (i : IntentId) (intent : EvidenceUploadIntent) (page : List ℕ)
  /-- the intent is written as cleaned; `commit` comes next -/
  | cleaned (pass : Pass) (i : IntentId) (intent : EvidenceUploadIntent)

/-- An attachment, with the prefill as it was read; `seen` is how many rows of `evidence` were
committed then. -/
structure Attachment (Digest : Type) where
  incidentId : IncidentId
  userId : UserId
  prefillId : PrefillId
  prefill : IncidentPrefillRun Digest
  seen : ℕ

/-- Where `attach_prefill_to_incident` is. -/
inductive Attaching (Digest : Type)
  /-- the read of `existing` comes next -/
  | loaded (a : Attachment Digest)
  /-- `head_object` comes next -/
  | absent (a : Attachment Digest)
  /-- the flush of the evidence comes next -/
  | headed (a : Attachment Digest) (row : Evidence Digest)
  /-- the flush of the prefill comes next -/
  | added (a : Attachment Digest) (id : EvidenceId) (row : Evidence Digest)
  /-- `commit` comes next -/
  | attached (a : Attachment Digest) (id : EvidenceId) (row : Evidence Digest)
      (run : Option (IncidentPrefillRun Digest))

/-- Where a process is. -/
inductive Phase (Content Digest : Type)
  /-- `request_upload_url` has inserted the intent; `commit` comes next -/
  | requested (i : IntentId) (intent : EvidenceUploadIntent)
  /-- `create_incident_prefill` has stored the screenshot; the flush of the prefill comes next -/
  | stored (i : PrefillId) (run : IncidentPrefillRun Digest)
  /-- the prefill is inserted; `commit` comes next -/
  | prefilled (i : PrefillId) (run : IncidentPrefillRun Digest)
  | completing (c : Completing Content Digest)
  | sweeping (w : Sweeping)
  | attaching (a : Attaching Digest)

/-! ## Rows -/

section Rows

variable {Content Digest : Type} (cfg : Config Content Digest)

/-- The intent that `request_upload_url` inserts. -/
def newIntent (incident : IncidentId) (user : UserId) (evidenceType : EvidenceType)
    (filename : PyStr) (contentType : Option PyStr) (expectedByteSize : Option ℕ)
    (upload : IntentId) (now : ℕ) : EvidenceUploadIntent where
  incidentId := incident
  createdBy := user
  bucket := cfg.minioBucketEvidence
  objectKey := evidenceObjectKey incident evidenceType filename upload
  evidenceType := evidenceType
  originalFilename := filename
  expectedContentType := contentType
  expectedByteSize := expectedByteSize
  state := .opened
  expiresAt := now + cfg.evidenceUploadIntentTtlSeconds
  evidenceId := none
  completedAt := none

/-- The prefill that `create_incident_prefill` inserts, with what the OCR comes to. -/
def newPrefill (user : UserId) (content : Content) (filename mimeType : Option PyStr)
    (prefill : PrefillId) : IncidentPrefillRun Digest :=
  let name := basename ((filename.filter (· ≠ [])).getD (py "screenshot.png"))
  { incidentId := none
    sourceBucket := cfg.minioBucketEvidence
    sourceObjectKey := prefillObjectKey prefill name
    sourceFilename := name
    sourceMimeType := mimeType
    sourceSha256 := cfg.sha256OfBytes content
    status := .processing
    createdBy := user }

/-- The row that `complete_upload` inserts. -/
def completedEvidence (c : Completion) (version : ℕ) (head : StoredObject Content)
    (sha256 : Digest) : Evidence Digest where
  incidentId := some c.incidentId
  evidenceType := c.intent.evidenceType
  bucket := c.intent.bucket
  objectKey := c.intent.objectKey
  originalFilename := c.intent.originalFilename
  mimeType := (head.contentType.filter (· ≠ [])).or c.intent.expectedContentType
  byteSize := some (cfg.byteSize head.content)
  sha256 := some sha256
  versionId := some version
  uploadedBy := some c.userId
  lifecycleState := .active
  deletedAt := none

/-- The row that `attach_prefill_to_incident` inserts. -/
def attachedEvidence (a : Attachment Digest) (version : ℕ) (head : StoredObject Content) :
    Evidence Digest where
  incidentId := some a.incidentId
  evidenceType := .alertScreenshot
  bucket := a.prefill.sourceBucket
  objectKey := a.prefill.sourceObjectKey
  originalFilename := a.prefill.sourceFilename
  mimeType := a.prefill.sourceMimeType
  byteSize := some (cfg.byteSize head.content)
  sha256 := some a.prefill.sourceSha256
  versionId := some version
  uploadedBy := some a.userId
  lifecycleState := .active
  deletedAt := none

/-- The object is not what the intent says, or too large: `complete_upload` deletes it. -/
def mismatches (intent : EvidenceUploadIntent) (head : StoredObject Content) : Bool :=
  intent.expectedByteSize.any (· ≠ cfg.byteSize head.content) ||
    (intent.expectedContentType.filter (· ≠ [])).any (some · ≠ head.contentType) ||
    cfg.maxEvidenceUploadBytes < cfg.byteSize head.content

namespace EvidenceUploadIntent

/-- The intent as `complete_upload` leaves it. -/
def complete (intent : EvidenceUploadIntent) (id : EvidenceId) (now : ℕ) : EvidenceUploadIntent :=
  { intent with state := .completed, evidenceId := some id, completedAt := some now }

def expire (intent : EvidenceUploadIntent) : EvidenceUploadIntent :=
  { intent with state := .expired }

/-- The intent as a sweep that finds evidence of its object leaves it. -/
def settle (intent : EvidenceUploadIntent) (id : EvidenceId) : EvidenceUploadIntent :=
  { intent with state := .completed, evidenceId := some id }

def clean (intent : EvidenceUploadIntent) : EvidenceUploadIntent :=
  { intent with state := .cleaned }

end EvidenceUploadIntent

/-- A sweep may pick the intent. -/
def Pass.candidate (pass : Pass) (i : IntentId) (intent : EvidenceUploadIntent) : Bool :=
  (intent.state = .opened ∨ intent.state = .expired) ∧ intent.expiresAt ≤ pass.now ∧
    i ∉ pass.skippedIds

/-- `identity_is_valid`. -/
def identityIsValid (i : IntentId) (intent : EvidenceUploadIntent) : Bool :=
  intent.bucket = cfg.minioBucketEvidence ∧
    intent.objectKey =
      evidenceObjectKey intent.incidentId intent.evidenceType intent.originalFilename i

/-- The intent is left alone for the rest of the pass. -/
def Pass.skip (pass : Pass) (i : IntentId) : Pass :=
  { pass with skippedIds := i :: pass.skippedIds }

/-- The next round of the loop. -/
def Pass.next (pass : Pass) : Pass := { pass with remaining := pass.remaining - 1 }

end Rows

/-- The state of the system. -/
structure State (Content Digest : Type) where
  clock : ℕ
  incidents : List IncidentId
  intents : Table ProcessId IntentId EvidenceUploadIntent
  prefills : Table ProcessId PrefillId (IncidentPrefillRun Digest)
  evidence : Table ProcessId EvidenceId (Evidence Digest)
  objects : Store ObjectName (StoredObject Content)
  /-- the objects that a sweep has deleted a version of -/
  swept : List ObjectName
  processes : ProcessId → Option (Phase Content Digest)

variable {Content Digest : Type}

/-- The empty system. -/
def State.init : State Content Digest where
  clock := 0
  incidents := []
  intents := .ofRows []
  prefills := .ofRows []
  evidence := .ofRows []
  objects := .empty
  swept := []
  processes := fun _ => none

/-- What a process does next. -/
inductive Statement
  /-- the checks of an intent that is locked, and the update where they lead to one -/
  | check
  | headObject
  | sha256OfObject
  | insertEvidence (id : EvidenceId)
  | updateIntent
  | insertPrefill (status : PrefillStatus)
  | findExisting
  | updatePrefill
  /-- a sweep picks an intent; the order of its query is not followed -/
  | pick (i : IntentId)
  /-- a sweep finds no intent to pick, or has done its rounds -/
  | stop
  | listVersions
  | deleteVersion
  | commit
  /-- the statement, or the call of the storage, fails -/
  | fail
  /-- the process is lost -/
  | crash

/-- What can happen. -/
inductive Action (Content : Type)
  | tick
  | addIncident (incident : IncidentId)
  /-- the browser stores an object of an intent -/
  | upload (i : IntentId) (body : StoredObject Content)
  | requestUploadUrl (p : ProcessId) (incident : IncidentId) (user : UserId)
      (evidenceType : EvidenceType) (filename : PyStr) (contentType : Option PyStr)
      (expectedByteSize : Option ℕ) (upload : IntentId)
  | completeUpload (p : ProcessId) (incident : IncidentId) (user : UserId) (upload : IntentId)
  | createIncidentPrefill (p : ProcessId) (user : UserId) (content : Content)
      (filename mimeType : Option PyStr) (prefill : PrefillId)
  | attachPrefill (p : ProcessId) (user : UserId) (prefill : PrefillId) (incident : IncidentId)
  | sweep (p : ProcessId) (limit : ℕ)
  | process (p : ProcessId) (statement : Statement)

/-! ## Steps -/

/-- Where a process is after its commit, if that comes next. -/
def Phase.afterCommit : Phase Content Digest → Option (Option (Phase Content Digest))
  | requested _ _ | prefilled _ _ | completing (.lapsed _) | completing (.completed _ _ _)
  | attaching (.attached _ _ _ _) => some none
  | sweeping (.settled pass _ _ _) | sweeping (.refused pass _ _) | sweeping (.cleaned pass _ _) =>
    some (some (sweeping (.between pass)))
  | _ => none

/-- Where a process is after a failure: a sweep catches those of its commits and of the storage. -/
def Phase.afterFailure : Phase Content Digest → Option (Phase Content Digest)
  | sweeping (.settled pass _ _ _) | sweeping (.refused pass _ _) => some (sweeping (.between pass))
  | sweeping (.clearing pass i _ _) | sweeping (.cleaned pass i _) =>
    some (sweeping (.between (pass.skip i)))
  | _ => none

section Step

variable (cfg : Config Content Digest) (s : State Content Digest) (p : ProcessId)

/-- Process `p` goes on. -/
@[simps]
def State.goOn (ph : Phase Content Digest) : State Content Digest :=
  { s with processes := Function.update s.processes p (some ph) }

/-- The transaction of process `p` ends without a commit. -/
@[simps]
def State.rollback (next : Option (Phase Content Digest)) : State Content Digest where
  clock := s.clock
  incidents := s.incidents
  intents := s.intents.rollback p
  prefills := s.prefills.rollback p
  evidence := s.evidence.rollback p
  objects := s.objects
  swept := s.swept
  processes := Function.update s.processes p next

/-- The transaction of process `p` ends with a commit. -/
@[simps]
def State.commit (next : Option (Phase Content Digest)) : State Content Digest where
  clock := s.clock
  incidents := s.incidents
  intents := s.intents.commit p
  prefills := s.prefills.commit p
  evidence := s.evidence.commit p
  objects := s.objects
  swept := s.swept
  processes := Function.update s.processes p next

/-- Process `p` writes an intent. -/
def State.updateIntent (i : IntentId) (f : EvidenceUploadIntent → EvidenceUploadIntent)
    (ph : Phase Content Digest) : Option (State Content Digest) :=
  (s.intents.update? p i f).map fun intents => { s with intents }.goOn p ph

/-- Process `p` inserts a row of `evidence`. -/
def State.insertEvidence (id : EvidenceId) (row : Evidence Digest) (ph : Phase Content Digest) :
    Option (State Content Digest) :=
  (s.evidence.insert? p id row).map fun evidence => { s with evidence }.goOn p ph

/-- `evidence_id` is unique. -/
def State.unclaimed (id : EvidenceId) : Bool :=
  s.intents.admits p fun intent => intent.evidenceId = some id

/-- The first row of `evidence` of an object. -/
def State.referenced (object : ObjectName) : Option EvidenceId :=
  (s.evidence.select fun _ row => row.object = object).head?

/-- The flush of `create_incident_prefill`; what the OCR comes to is written before the commit. -/
def insertPrefill (i : PrefillId) (run : IncidentPrefillRun Digest) :
    Statement → Option (State Content Digest)
  | .insertPrefill status =>
    let run' := { run with status }
    (s.prefills.insert? p i run').map fun prefills => { s with prefills }.goOn p (.prefilled i run')
  | _ => none

/-- One step of `complete_upload`. -/
def completeStep :
    Completing Content Digest → Statement → Option (State Content Digest)
  | .locked c, .check =>
    if c.intent.incidentId ≠ c.incidentId ∨ c.intent.createdBy ≠ c.userId ∨
        c.intent.state ≠ .opened then
      -- the answer is the row of an intent that is completed, or an error
      some (s.rollback p none)
    else if c.intent.expiresAt ≤ s.clock then
      s.updateIntent p c.intentId .expire (.completing (.lapsed c))
    else some (s.goOn p (.completing (.checked { c with now := s.clock })))
  | .checked c, .headObject =>
    match s.objects.head? c.intent.object with
    | none => some (s.rollback p none)
    | some (version, head) =>
      if mismatches cfg c.intent head then
        let objects := s.objects.delete c.intent.object (some version)
        some ({ s with objects }.rollback p none)
      else some (s.goOn p (.completing (.headed c version head)))
  | .headed c version head, .sha256OfObject =>
    match s.objects.get? c.intent.object version with
    | none => some (s.rollback p none)
    | some body =>
      let row := completedEvidence cfg c version head (cfg.sha256OfBytes body.content)
      some (s.goOn p (.completing (.hashed c row)))
  | .hashed c row, .insertEvidence id => s.insertEvidence p id row (.completing (.recorded c id row))
  | .recorded c id row, .updateIntent =>
    if s.unclaimed p id then
      s.updateIntent p c.intentId (·.complete id c.now) (.completing (.completed c id row))
    else none
  | _, _ => none

/-- One step of `sweep_abandoned_upload_intents`. -/
def sweepStep : Sweeping → Statement → Option (State Content Digest)
  | .between pass, .pick i =>
    if pass.remaining = 0 then none
    else (Dict.get? s.intents.committed i).bind fun intent =>
      if pass.candidate i intent then
        (s.intents.lock? p i .update).map fun intents =>
          { s with intents }.goOn p (.sweeping (.picked pass.next i intent))
      else none
  | .between pass, .stop =>
    if pass.remaining = 0 ∨ ∀ i ∈ s.intents.select pass.candidate, ¬ s.intents.Grants p i .update then
      some (s.rollback p none)
    else none
  | .picked pass i intent, .check =>
    match intent.evidenceId with
    | some id => s.updateIntent p i (·.settle id) (.sweeping (.settled pass i intent id))
    | none =>
      if identityIsValid cfg i intent then
        match s.referenced intent.object with
        | some id =>
          if s.unclaimed p id then
            s.updateIntent p i (·.settle id) (.sweeping (.settled pass i intent id))
          else none
        | none =>
          some (s.goOn p (.sweeping (.clearing pass i intent (s.objects.list intent.object))))
      else s.updateIntent p i .expire (.sweeping (.refused (pass.skip i) i intent))
  | .clearing pass i intent [], .listVersions =>
    -- the next page
    some (s.goOn p (.sweeping (.clearing pass i intent (s.objects.list intent.object))))
  | .clearing pass i intent (version :: page), .deleteVersion =>
    let objects := s.objects.delete intent.object (some version)
    some ({ s with objects, swept := intent.object :: s.swept }.goOn p
      (.sweeping (.clearing pass i intent page)))
  | .clearing pass i intent [], .updateIntent =>
    s.updateIntent p i .clean (.sweeping (.cleaned pass i intent))
  | _, _ => none

/-- The row that `attach_prefill_to_incident` calls `existing`. -/
def State.existing (incident : IncidentId) (objectKey : PyStr) : Option EvidenceId :=
  (s.evidence.select fun _ row =>
    row.incidentId = some incident ∧ row.objectKey = objectKey).head?

/-- One step of `attach_prefill_to_incident`. -/
def attachStep : Attaching Digest → Statement → Option (State Content Digest)
  | .loaded a, .findExisting =>
    match s.existing a.incidentId a.prefill.sourceObjectKey with
    | some _ => some (s.rollback p none)
    | none => some (s.goOn p (.attaching (.absent a)))
  | .absent a, .headObject =>
    match s.objects.head? a.prefill.object with
    | none => some (s.rollback p none)
    | some (version, head) =>
      some (s.goOn p (.attaching (.headed a (attachedEvidence cfg a version head))))
  | .headed a row, .insertEvidence id => s.insertEvidence p id row (.attaching (.added a id row))
  | .added a id row, .updatePrefill =>
    if a.prefill.incidentId = some a.incidentId then
      -- nothing has changed, so nothing is flushed
      some (s.goOn p (.attaching (.attached a id row none)))
    else (s.prefills.read p a.prefillId).bind fun run =>
      let run' := { run with incidentId := some a.incidentId }
      (s.prefills.write? p a.prefillId .noKeyUpdate (some run')).map fun prefills =>
        { s with prefills }.goOn p (.attaching (.attached a id row (some run')))
  | _, _ => none

/-- One step of a process. -/
def processStep (ph : Phase Content Digest) :
    Statement → Option (State Content Digest)
  | .commit => ph.afterCommit.map (s.commit p)
  | .fail => some (s.rollback p ph.afterFailure)
  | .crash => some (s.rollback p none)
  | statement =>
    match ph with
    | .stored i run => insertPrefill s p i run statement
    | .completing c => completeStep cfg s p c statement
    | .sweeping w => sweepStep cfg s p w statement
    | .attaching a => attachStep cfg s p a statement
    | .requested _ _ | .prefilled _ _ => none

/-- A request begins. -/
def requestUploadUrl (incident : IncidentId) (user : UserId) (evidenceType : EvidenceType)
    (filename : PyStr) (contentType : Option PyStr) (expectedByteSize : Option ℕ)
    (upload : IntentId) : Option (State Content Digest) :=
  if incident ∉ s.incidents ∨ expectedByteSize.any (cfg.maxEvidenceUploadBytes < ·) then some s
  else
    let intent := newIntent cfg incident user evidenceType filename contentType expectedByteSize
      upload s.clock
    -- `uq_evidence_upload_intent_object`
    if s.intents.admits p fun other => other.object = intent.object then
      (s.intents.insert? p upload intent).map fun intents =>
        { s with intents }.goOn p (.requested upload intent)
    else none

def completeUpload (incident : IncidentId) (user : UserId) (upload : IntentId) :
    Option (State Content Digest) :=
  if incident ∉ s.incidents then some s
  else
    match Dict.get? s.intents.committed upload with
    | none => some s
    | some intent =>
      (s.intents.lock? p upload .update).map fun intents =>
        { s with intents }.goOn p (.completing (.locked ⟨incident, user, upload, intent, s.clock⟩))

def createIncidentPrefill (user : UserId) (content : Content) (filename mimeType : Option PyStr)
    (prefill : PrefillId) : Option (State Content Digest) :=
  if cfg.maxEvidenceUploadBytes < cfg.byteSize content ∨ cfg.byteSize content = 0 then some s
  else
    let run := newPrefill cfg user content filename mimeType prefill
    let contentType := (mimeType.filter (· ≠ [])).getD (py "application/octet-stream")
    let objects := s.objects.put run.object ⟨content, some contentType⟩
    some ({ s with objects }.goOn p (.stored prefill run))

def attachPrefillToIncident (user : UserId) (prefill : PrefillId) (incident : IncidentId) :
    Option (State Content Digest) :=
  match Dict.get? s.prefills.committed prefill with
  | none => some s
  | some run =>
    if incident ∉ s.incidents ∨ run.status = .ocrFailed ∨
        (run.incidentId ≠ none ∧ run.incidentId ≠ some incident) then some s
    else
      let seen := s.evidence.committed.length
      some (s.goOn p (.attaching (.loaded ⟨incident, user, prefill, run, seen⟩)))

/-- Process `p` is free for a new request. -/
def State.start (request : Option (State Content Digest)) : Option (State Content Digest) :=
  if (s.processes p).isNone then request else none

/-- One step of the system. -/
def step : Action Content → Option (State Content Digest)
  | .tick => some { s with clock := s.clock + 1 }
  | .addIncident incident => some { s with incidents := incident :: s.incidents }
  | .upload i body =>
    (Dict.get? s.intents.committed i).map fun intent =>
      { s with objects := s.objects.put intent.object body }
  | .requestUploadUrl p incident user evidenceType filename contentType expectedByteSize upload =>
    s.start p (requestUploadUrl cfg s p incident user evidenceType filename contentType
      expectedByteSize upload)
  | .completeUpload p incident user upload => s.start p (completeUpload s p incident user upload)
  | .createIncidentPrefill p user content filename mimeType prefill =>
    s.start p (createIncidentPrefill cfg s p user content filename mimeType prefill)
  | .attachPrefill p user prefill incident =>
    s.start p (attachPrefillToIncident s p user prefill incident)
  | .sweep p limit => s.start p (some (s.goOn p (.sweeping (.between ⟨s.clock, limit, []⟩))))
  | .process p statement => (s.processes p).bind fun ph => processStep cfg s p ph statement

end Step

/-! ## What a process has written -/

/-- The intent that a process has written. -/
def Phase.intent? : Phase Content Digest → Option (IntentId × EvidenceUploadIntent)
  | requested i intent => some (i, intent)
  | completing (.lapsed c) => some (c.intentId, c.intent.expire)
  | completing (.completed c id _) => some (c.intentId, c.intent.complete id c.now)
  | sweeping (.settled _ i intent id) => some (i, intent.settle id)
  | sweeping (.refused _ i intent) => some (i, intent.expire)
  | sweeping (.cleaned _ i intent) => some (i, intent.clean)
  | _ => none

/-- The prefill that a process has written. -/
def Phase.prefill? : Phase Content Digest → Option (PrefillId × IncidentPrefillRun Digest)
  | prefilled i run => some (i, run)
  | attaching (.attached a _ _ run) => run.map fun run => (a.prefillId, run)
  | _ => none

/-- The row of `evidence` that a process has inserted. -/
def Phase.evidence? : Phase Content Digest → Option (EvidenceId × Evidence Digest)
  | completing (.recorded _ id row) | completing (.completed _ id row)
  | attaching (.added _ id row) | attaching (.attached _ id row _) => some (id, row)
  | _ => none

end Uploads
