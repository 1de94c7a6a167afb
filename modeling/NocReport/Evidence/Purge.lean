import NocReport.Evidence.Storage
import NocReport.Foundation.Python
import NocReport.Foundation.Transactions
import NocReport.Foundation.Transition

set_option relaxedAutoImplicit false
set_option autoImplicit false

/-!
# The purge of evidence

A purge marks the row of `evidence`, commits, and then deletes the version of the object. It is
refused where an OCR run, an analysis run or the snapshot of a report refers to the row. The
references are read by three statements, and those that refer are inserted by other requests:
`run_ocr_on_evidence` and `request_analysis` by a foreign key, which locks the row of `evidence`
while they are in progress, and `generate_report` within the JSON of a snapshot, which locks nothing.
`sweep_pending_purges` purges the rows that are marked, under their lock; `delete_evidence` takes no
lock before it marks the row.

Of the requests that refer to evidence, only the reads of `evidence` and the insertions of the
references are followed. The storage is the list of the deletions that have succeeded.

## Main definitions

* `Purge.containsEvidenceId` — the snapshot of a report refers to evidence.
* `Purge.State.check` — the reads of `references_for`.
* `Purge.Phase`, `Purge.State`, `Purge.Action`, `Purge.step` — the system.
* `Purge.PurgeSafe` — no reference to evidence whose bytes have been deleted.
-/

namespace Purge

open ReadCommitted Storage Transition

abbrev ProcessId := ℕ

abbrev RowId := ℕ

/-! ## References -/

/-- The rows that refer to evidence by a foreign key. -/
inductive RunKind
  /-- `OcrRun.evidence_id` -/
  | ocr
  /-- `AnalysisRun.log_evidence_id` -/
  | analysis
  deriving DecidableEq, Repr

/-- A row of `ocr_runs` or of `analysis_runs`, of which only its evidence is followed. -/
structure Run where
  evidenceId : EvidenceId
  deriving DecidableEq

/-- A row of `report_snapshots`, of which only the JSON is followed. -/
structure ReportSnapshot where
  snapshotJson : Json

section Json

variable (rt : PyRuntime) (id : PyStr)

mutual

/-- `_contains_evidence_id`. -/
def containsEvidenceId : Json → Bool
  | .obj fields =>
    rt.str (Json.Fields.get fields (py "evidence_id")) = id || containsInFields fields
  | .arr xs => containsInList xs
  | _ => false

def containsInList : List Json → Bool
  | [] => false
  | x :: xs => containsEvidenceId x || containsInList xs

def containsInFields : List (PyStr × Json) → Bool
  | [] => false
  | (_, x) :: fields => containsEvidenceId x || containsInFields fields

end

end Json

def textOrNull : Option PyStr → Json
  | some text => .str text
  | none => .null

/-- `_frozen_evidence_identity`. -/
def frozenEvidenceIdentity (id : EvidenceId) (row : Evidence PyStr) : Json :=
  .obj [(py "evidence_id", .str id.text), (py "evidence_type", .str row.evidenceType.value),
    (py "bucket", .str row.bucket), (py "object_key", .str row.objectKey),
    (py "version_id", textOrNull (row.versionId.map PyStr.ofNat)),
    (py "sha256", textOrNull row.sha256), (py "filename", .str row.originalFilename),
    (py "content_type", textOrNull row.mimeType),
    (py "byte_size", (row.byteSize.map fun n => Json.int n).getD .null)]

/-- The log of an incident that a snapshot freezes. -/
def logEvidence (rows : Dict EvidenceId (Evidence PyStr)) :
    Option (EvidenceId × Evidence PyStr) :=
  rows.find? fun r => r.2.evidenceType = .log

/-- The screenshots of an incident that a snapshot freezes. -/
def screenshotEvidence (rows : Dict EvidenceId (Evidence PyStr)) :
    Dict EvidenceId (Evidence PyStr) :=
  rows.filter fun r =>
    r.2.evidenceType = .alertScreenshot ∨ r.2.evidenceType = .grafanaScreenshot

/-- An incident in a snapshot; `other` is what it says besides the evidence. -/
def incidentRow (rows : Dict EvidenceId (Evidence PyStr)) (other : Json.Fields) : Json :=
  .obj (other ++
    [(py "log_evidence",
        ((logEvidence rows).map fun r => frozenEvidenceIdentity r.1 r.2).getD .null),
      (py "screenshots",
        .arr ((screenshotEvidence rows).map fun r => frozenEvidenceIdentity r.1 r.2))])

/-! ## Where a process is -/

/-- How far `references_for` has come, with the number of rows that each of its statements has read:
all of those rows refer to other evidence. -/
inductive Check
  | start
  | ocr (n : ℕ)
  | analysis (n m : ℕ)
  | done (n m k : ℕ)
  deriving DecidableEq, Repr

/-- The number of runs that have been read. -/
def Check.runs : Check → RunKind → ℕ
  | start, _ | ocr _, .analysis => 0
  | ocr n, .ocr | analysis n _, .ocr | done n _ _, .ocr => n
  | analysis _ m, .analysis | done _ m _, .analysis => m

/-- The number of snapshots that have been read. -/
def Check.snapshots : Check → ℕ
  | done _ _ k => k
  | _ => 0

/-- The rest of a sweep. -/
structure Pass where
  remaining : ℕ
  skippedIds : List EvidenceId

/-- Where a process is. Where it has read a row of `evidence` as active, it is kept how many deletions
there had been. -/
inductive Phase
  /-- `run_ocr_on_evidence` or `request_analysis`; the flush of its run comes next -/
  | reading (kind : RunKind) (e : EvidenceId) (seen : ℕ)
  /-- its `commit` comes next -/
  | referring (kind : RunKind) (e : EvidenceId) (seen : ℕ) (id : RowId)
  /-- `_build_snapshot`, with the incidents that it has been through -/
  | building (reads : List (EvidenceId × ℕ)) (incidents : List Json)
  /-- the snapshot is inserted; the `commit` of `generate_report` comes next -/
  | frozen (reads : List (EvidenceId × ℕ)) (id : RowId) (snapshot : ReportSnapshot)
  /-- `delete_evidence`, with the row as it was read; the next read of `references_for`, or the
  flush of the row, comes next -/
  | deleting (e : EvidenceId) (row : Evidence PyStr) (check : Check)
  /-- its `commit` comes next -/
  | tombstoned (e : EvidenceId) (row : Evidence PyStr) (check : Check)
      (written : Option (Evidence PyStr))
  /-- `purge_storage` comes next -/
  | purging (e : EvidenceId) (row : Evidence PyStr) (check : Check)
  /-- the flush of `mark_purged` comes next -/
  | purged (e : EvidenceId)
  /-- its `commit` comes next -/
  | marked (e : EvidenceId) (written : Option (Evidence PyStr))
  /-- a sweep, between two rows, in no transaction -/
  | between (pass : Pass)
  /-- a sweep has locked a row; the next read of `references_for`, or `purge_storage`, comes next -/
  | picked (pass : Pass) (e : EvidenceId) (row : Evidence PyStr) (check : Check)
  /-- the flush of the row comes next -/
  | cleared (pass : Pass) (e : EvidenceId) (row : Evidence PyStr)
  /-- its `commit` comes next -/
  | settled (pass : Pass) (e : EvidenceId) (written : Evidence PyStr)

/-- Where a process is after its commit, if that comes next. -/
def Phase.afterCommit : Phase → Option (Option Phase)
  | referring _ _ _ _ | frozen _ _ _ | marked _ _ => some none
  | tombstoned e row check _ => some (some (purging e row check))
  | settled pass _ _ => some (some (between pass))
  | _ => none

/-- Where a process is after a failure: a sweep catches those of the storage and of its commits. -/
def Phase.afterFailure : Phase → Option Phase
  | picked pass _ _ (.done _ _ _) | cleared pass _ _ | settled pass _ _ => some (between pass)
  | _ => none

/-- The row as `request_purge` leaves it: what differs from `loaded` is written. -/
def requestPurge (loaded : Evidence PyStr) (now : ℕ) (row : Evidence PyStr) : Evidence PyStr :=
  { row with
    lifecycleState :=
      if loaded.lifecycleState = .purgePending then row.lifecycleState else .purgePending
    deletedAt := if loaded.deletedAt = none then some now else row.deletedAt }

/-- The row as `mark_purged`, or a sweep, leaves it. -/
def markPurged (row : Evidence PyStr) : Evidence PyStr := { row with lifecycleState := .purged }

/-! ## The system -/

/-- A deletion of a version by `purge_storage`. -/
structure Deletion where
  evidenceId : EvidenceId
  version : ObjectName × Option ℕ
  deriving DecidableEq

/-- The state of the system. -/
structure State where
  clock : ℕ
  evidence : Table ProcessId EvidenceId (Evidence PyStr)
  runs : RunKind → Table ProcessId RowId Run
  snapshots : Table ProcessId RowId ReportSnapshot
  /-- what has been deleted, oldest first -/
  deletions : List Deletion
  processes : ProcessId → Option Phase

/-- The empty system. -/
def State.init : State where
  clock := 0
  evidence := .ofRows []
  runs := fun _ => .ofRows []
  snapshots := .ofRows []
  deletions := []
  processes := fun _ => none

/-- What a process does next. -/
inductive Statement
  | insertRun (id : RowId)
  /-- the evidence of the next incident of a snapshot is read -/
  | readEvidence (incident : IncidentId) (other : Json.Fields)
  | insertSnapshot (id : RowId) (other : Json.Fields)
  /-- the next read of `references_for` -/
  | check
  /-- the row of `evidence` is written -/
  | flush
  | purgeStorage
  /-- a sweep picks a row; the order of its query is not followed -/
  | pick (e : EvidenceId)
  /-- a sweep finds no row to pick, or has done its rounds -/
  | stop
  | commit
  /-- the statement, or the call of the storage, fails -/
  | fail
  /-- the process is lost -/
  | crash

/-- What can happen. -/
inductive Action
  | tick
  /-- a row of `evidence` is committed; its bytes are stored -/
  | addEvidence (e : EvidenceId) (row : Evidence PyStr)
  | runOcr (p : ProcessId) (e : EvidenceId)
  /-- `e` is the latest log of the incident that is active -/
  | requestAnalysis (p : ProcessId) (incident : IncidentId) (e : EvidenceId)
  | generateReport (p : ProcessId)
  | deleteEvidence (p : ProcessId) (e : EvidenceId)
  | sweep (p : ProcessId) (limit : ℕ)
  | process (p : ProcessId) (statement : Statement)

section Step

variable (rt : PyRuntime) (s : State) (p : ProcessId)

/-- A run that is committed refers to the evidence. -/
def State.refersRun (kind : RunKind) (e : EvidenceId) : Bool :=
  (s.runs kind).committed.any fun r => r.2.evidenceId = e

/-- A snapshot that is committed refers to the evidence. -/
def State.refersSnapshot (e : EvidenceId) : Bool :=
  s.snapshots.committed.any fun r => containsEvidenceId rt e.text r.2.snapshotJson

/-- The next read of `references_for`, unless it finds a reference. -/
def State.check (e : EvidenceId) : Check → Option Check
  | .start => if s.refersRun .ocr e then none else some (.ocr (s.runs .ocr).committed.length)
  | .ocr n =>
    if s.refersRun .analysis e then none
    else some (.analysis n (s.runs .analysis).committed.length)
  | .analysis n m =>
    if s.refersSnapshot rt e then none else some (.done n m s.snapshots.committed.length)
  | .done n m k => some (.done n m k)

/-- Process `p` goes on. -/
@[simps]
def State.goOn (ph : Phase) : State :=
  { s with processes := Function.update s.processes p (some ph) }

/-- The transaction of process `p` ends without a commit. -/
@[simps]
def State.rollback (next : Option Phase) : State where
  clock := s.clock
  evidence := s.evidence.rollback p
  runs := fun kind => (s.runs kind).rollback p
  snapshots := s.snapshots.rollback p
  deletions := s.deletions
  processes := Function.update s.processes p next

/-- The transaction of process `p` ends with a commit. -/
@[simps]
def State.commit (next : Option Phase) : State where
  clock := s.clock
  evidence := s.evidence.commit p
  runs := fun kind => (s.runs kind).commit p
  snapshots := s.snapshots.commit p
  deletions := s.deletions
  processes := Function.update s.processes p next

/-- Process `p` writes a row of `evidence`, and goes on as the row that it has written says. -/
def State.updateEvidence (e : EvidenceId) (f : Evidence PyStr → Evidence PyStr)
    (ph : Evidence PyStr → Phase) : Option State :=
  (s.evidence.read p e).bind fun row =>
    (s.evidence.write? p e .noKeyUpdate (some (f row))).map fun evidence =>
      { s with evidence }.goOn p (ph (f row))

/-- `purge_storage` of a version; that it is gone already is a success too. -/
def State.purgeStorage (e : EvidenceId) (row : Evidence PyStr) (ph : Phase) : State :=
  let deletion : Deletion := ⟨e, row.version⟩
  { s with deletions := s.deletions ++ [deletion] }.goOn p ph

/-- The rows of an incident that are active. -/
def State.activeEvidence (incident : IncidentId) : Dict EvidenceId (Evidence PyStr) :=
  (s.evidence.select fun _ row =>
    row.incidentId = some incident ∧ row.lifecycleState = .active).filterMap fun e =>
      (Dict.get? s.evidence.committed e).map fun row => (e, row)

/-- One step of a request that refers to evidence. -/
def referStep : Phase → Statement → Option State
  | .reading kind e seen, .insertRun id =>
    -- the foreign key locks the row of `evidence`
    (s.evidence.lock? p e .keyShare).bind fun evidence =>
      ((s.runs kind).insert? p id (Run.mk e)).map fun T =>
        { s with evidence, runs := Function.update s.runs kind T }.goOn p (.referring kind e seen id)
  | .building reads incidents, .readEvidence incident other =>
    let rows := s.activeEvidence incident
    let frozen := (logEvidence rows).toList ++ screenshotEvidence rows
    some (s.goOn p (.building (reads ++ frozen.map fun r => (r.1, s.deletions.length))
      (incidents ++ [incidentRow rows other])))
  | .building reads incidents, .insertSnapshot id other =>
    let snapshot : ReportSnapshot := ⟨.obj (other ++ [(py "incidents", .arr incidents)])⟩
    (s.snapshots.insert? p id snapshot).map fun snapshots =>
      { s with snapshots }.goOn p (.frozen reads id snapshot)
  | _, _ => none

/-- One step of `delete_evidence`. -/
def deleteStep : Phase → Statement → Option State
  | .deleting e row check, .check =>
    match s.check rt e check with
    | none => some (s.rollback p none)
    | some check => some (s.goOn p (.deleting e row check))
  | .deleting e row (.done n m k), .flush =>
    if row.lifecycleState = .purgePending ∧ row.deletedAt ≠ none then
      -- nothing has changed, so nothing is flushed
      some (s.goOn p (.tombstoned e row (.done n m k) none))
    else s.updateEvidence p e (requestPurge row s.clock) fun written =>
      .tombstoned e row (.done n m k) (some written)
  | .purging e row _, .purgeStorage => some (s.purgeStorage p e row (.purged e))
  | .purged e, .flush =>
    (s.evidence.read p e).bind fun row =>
      if row.lifecycleState = .purged then some (s.goOn p (.marked e none))
      else s.updateEvidence p e markPurged fun written => .marked e (some written)
  | _, _ => none

/-- A sweep may pick the row. -/
def Pass.candidate (pass : Pass) (e : EvidenceId) (row : Evidence PyStr) : Bool :=
  row.lifecycleState = .purgePending ∧ e ∉ pass.skippedIds

/-- The row is left alone for the rest of the sweep. -/
def Pass.skip (pass : Pass) (e : EvidenceId) : Pass :=
  { pass with skippedIds := e :: pass.skippedIds }

/-- The next round of the loop. -/
def Pass.next (pass : Pass) : Pass := { pass with remaining := pass.remaining - 1 }

/-- One step of `sweep_pending_purges`. -/
def sweepStep : Phase → Statement → Option State
  | .between pass, .pick e =>
    if pass.remaining = 0 then none
    else (Dict.get? s.evidence.committed e).bind fun row =>
      if pass.candidate e row then
        (s.evidence.lock? p e .update).map fun evidence =>
          { s with evidence }.goOn p (.picked pass.next e row .start)
      else none
  | .between pass, .stop =>
    if pass.remaining = 0 ∨
        ∀ e ∈ s.evidence.select pass.candidate, ¬ s.evidence.Grants p e .update then
      some (s.rollback p none)
    else none
  | .picked pass e row check, .check =>
    match s.check rt e check with
    | none => some (s.rollback p (some (.between (pass.skip e))))
    | some check => some (s.goOn p (.picked pass e row check))
  | .picked pass e row (.done _ _ _), .purgeStorage =>
    some (s.purgeStorage p e row (.cleared pass e row))
  | .cleared pass e _, .flush =>
    s.updateEvidence p e markPurged fun written => .settled pass e written
  | _, _ => none

/-- One step of a process. -/
def processStep (ph : Phase) : Statement → Option State
  | .commit => ph.afterCommit.map (s.commit p)
  | .fail => some (s.rollback p ph.afterFailure)
  | .crash => some (s.rollback p none)
  | statement =>
    match ph with
    | .reading _ _ _ | .building _ _ => referStep s p ph statement
    | .deleting _ _ _ | .purging _ _ _ | .purged _ => deleteStep rt s p ph statement
    | .between _ | .picked _ _ _ _ | .cleared _ _ _ => sweepStep rt s p ph statement
    | _ => none

/-- `run_ocr_on_evidence` begins. -/
def runOcrOnEvidence (e : EvidenceId) : State :=
  match Dict.get? s.evidence.committed e with
  | none => s
  | some row =>
    if row.lifecycleState = .active then s.goOn p (.reading .ocr e s.deletions.length) else s

/-- `request_analysis` begins. -/
def requestAnalysis (incident : IncidentId) (e : EvidenceId) : Option State :=
  (Dict.get? s.evidence.committed e).bind fun row =>
    if row.incidentId = some incident ∧ row.evidenceType = .log ∧ row.lifecycleState = .active then
      some (s.goOn p (.reading .analysis e s.deletions.length))
    else none

/-- `delete_evidence` begins. -/
def deleteEvidence (e : EvidenceId) : State :=
  match Dict.get? s.evidence.committed e with
  | none => s
  | some row =>
    if row.lifecycleState = .purged then s.goOn p (.tombstoned e row .start none)
    else s.goOn p (.deleting e row .start)

/-- One step of the system. -/
def step : Action → Option State
  | .tick => some { s with clock := s.clock + 1 }
  | .addEvidence e row =>
    if Dict.get? s.evidence.committed e = none ∧ row.lifecycleState = .active ∧
        ∀ d ∈ s.deletions, d.version ≠ row.version then
      some { s with evidence := s.evidence.withRows (s.evidence.committed.set e row) }
    else none
  | .runOcr p e => if (s.processes p).isNone then some (runOcrOnEvidence s p e) else none
  | .requestAnalysis p incident e =>
    if (s.processes p).isNone then requestAnalysis s p incident e else none
  | .generateReport p =>
    if (s.processes p).isNone then some (s.goOn p (.building [] [])) else none
  | .deleteEvidence p e => if (s.processes p).isNone then some (deleteEvidence s p e) else none
  | .sweep p limit =>
    if (s.processes p).isNone then some (s.goOn p (.between ⟨limit, []⟩)) else none
  | .process p statement => (s.processes p).bind fun ph => processStep rt s p ph statement

end Step

/-! ## What a process has written -/

/-- The row of `evidence` that a process has written. -/
def Phase.evidence? : Phase → Option (EvidenceId × Evidence PyStr)
  | tombstoned e _ _ written | marked e written => written.map fun row => (e, row)
  | settled _ e written => some (e, written)
  | _ => none

/-- The run that a process has inserted. -/
def Phase.run? (kind : RunKind) : Phase → Option (RowId × Run)
  | referring kind' e _ id => if kind' = kind then some (id, ⟨e⟩) else none
  | _ => none

/-- The snapshot that a process has inserted. -/
def Phase.snapshot? : Phase → Option (RowId × ReportSnapshot)
  | frozen _ id snapshot => some (id, snapshot)
  | _ => none

/-! ## What should hold -/

/-- A row that is committed refers to the evidence. -/
def State.Refers (rt : PyRuntime) (s : State) (e : EvidenceId) : Prop :=
  (∃ kind, s.refersRun kind e = true) ∨ s.refersSnapshot rt e = true

/-- The bytes of a row have been deleted. -/
def State.Gone (s : State) (row : Evidence PyStr) : Prop :=
  ∃ d ∈ s.deletions, d.version = row.version

/-- No row that is committed refers to evidence whose bytes have been deleted. -/
def PurgeSafe (rt : PyRuntime) (s : State) : Prop :=
  ∀ e row, Dict.get? s.evidence.committed e = some row → s.Refers rt e → ¬ s.Gone row

end Purge
