import NocReport.Jobs.System

set_option relaxedAutoImplicit false
set_option autoImplicit false

/-!
# The report artifacts of a daily report job

The job system together with what a daily report job writes: the stored plan, the versions of
its three artifacts in the versioned reports bucket, and the columns of its `reports` row that
pin one version of each. A worker in `process_message` drafts the artifacts step by step
(`worker.py`, `_process_daily_report_message`); API requests sync a report row on the side
(`reports.py`, `_sync_completed_report`), reading the row before the job.

## Main definitions

* `Artifacts.Draft` — where a worker is in `_process_daily_report_message`.
* `Artifacts.Sync` — where an API request is in `_sync_completed_report`.
* `Artifacts.State`, `Artifacts.Action`, `Artifacts.step` — the system.

## Main results

* `Artifacts.step_base` — every step is a step of the job system, or leaves it alone.
-/

namespace Artifacts

open Jobs

/-- The three artifacts of a report. -/
inductive Artifact
  | report | document | screenshots
  deriving DecidableEq, Repr

/-- A stored version of an artifact: its version id and the digest of its bytes. -/
structure Pin (Digest : Type) where
  version : ℕ
  sha256 : Digest
  deriving DecidableEq, Repr

/-- Where a worker is in `_process_daily_report_message`, with the metadata of the artifacts it
has read, in the order report, document, screenshots. -/
inductive Draft (Plan Digest : Type)
  /-- `load_saved_plan` comes next -/
  | loading
  /-- there is no saved plan; the model is asked next -/
  | asking
  /-- `upload_artifact` of the plan comes next -/
  | saving (plan : Plan)
  /-- `existing_report_artifacts` reads the next artifact -/
  | checking (plan : Plan) (found : List (Pin Digest))
  /-- `upload_file` of the next artifact comes next -/
  | uploading (plan : Plan) (done : List (Pin Digest))
  /-- `read_artifact_metadata` of the artifact just uploaded comes next -/
  | readingBack (plan : Plan) (done : List (Pin Digest))
  /-- the plan and the metadata of the three artifacts are returned -/
  | finished (plan : Plan) (pins : Artifact → Pin Digest)

/-- Where an API request is in `_sync_completed_report`. -/
inductive Sync (Digest : Type)
  /-- it has read the report row, which had a version or not -/
  | readRow (j : JobId) (pinned : Bool)
  /-- it has found the job completed and the row unpinned; `head_object` comes next -/
  | head (j : JobId)
  /-- it has the latest version; the `UPDATE` comes next -/
  | write (j : JobId) (pin : Pin Digest)

/-- The settings and the libraries: how a plan is rendered into the bytes of each artifact (the
archive of a DOCX varies from one rendering to the next), the text a plan is dumped to, and the
digest of bytes. -/
structure Config (Plan Content Digest : Type) where
  jobs : Jobs.Config
  render : JobId → Plan → Artifact → ℕ → Content
  dumps : Plan → Content
  sha256 : Content → Digest

/-- The state of the system. -/
structure State (Plan Content Digest : Type) where
  base : Jobs.State
  /-- the columns that pin an artifact, in the `reports` row of a job -/
  rows : JobId → Artifact → Option (Pin Digest)
  /-- the column `output_sha256` of that row -/
  outputs : JobId → Option Digest
  /-- the saved plan; its bucket keeps the latest version only -/
  plans : JobId → Option Plan
  /-- the versions of an artifact, oldest first; the version id is the position -/
  objects : JobId → Artifact → List Content
  drafts : WorkerId → Draft Plan Digest
  syncs : ℕ → Option (Sync Digest)

variable {Plan Content Digest : Type}

/-- The empty system. -/
def State.init : State Plan Content Digest where
  base := .init
  rows := fun _ _ => none
  outputs := fun _ => none
  plans := fun _ => none
  objects := fun _ _ => []
  drafts := fun _ => .loading
  syncs := fun _ => none

/-- What a worker in `process_message` does next. -/
inductive DraftAction (Plan : Type)
  /-- the plan is read back; any error counts as no plan -/
  | loadPlan (lost : Bool)
  /-- the model returns a plan that is accepted -/
  | callModel (plan : Plan)
  | savePlan
  /-- the metadata of the next existing artifact is read; any error counts as no artifacts -/
  | checkExisting (lost : Bool)
  /-- the next artifact is rendered and uploaded -/
  | upload (noise : ℕ)
  | readBack
  deriving DecidableEq, Repr

/-- What an API request does next. -/
inductive SyncAction
  /-- a request reads the report row of `j` -/
  | readRow (j : JobId)
  | readJob
  | head
  | write
  deriving DecidableEq, Repr

/-- What can happen in the system. -/
inductive Action (Plan : Type)
  | job (a : Jobs.Action)
  | draft (w : WorkerId) (a : DraftAction Plan)
  | sync (k : ℕ) (a : SyncAction)
  deriving DecidableEq, Repr

/-- The artifact after those whose metadata has been read. -/
def nextArtifact (done : List (Pin Digest)) : Option Artifact :=
  match done with
  | [] => some .report
  | [_] => some .document
  | [_, _] => some .screenshots
  | _ => none

/-- The metadata of the three artifacts, once it is complete. -/
def pinsOf? (done : List (Pin Digest)) : Option (Artifact → Pin Digest) :=
  match done with
  | [report, document, screenshots] => some fun
    | .report => report
    | .document => document
    | .screenshots => screenshots
  | _ => none

section Step

variable (cfg : Config Plan Content Digest)

/-- `read_artifact_metadata`: the latest version and the digest of its bytes. -/
def latestPin (versions : List Content) : Option (Pin Digest) :=
  versions.getLast?.map fun content => ⟨versions.length - 1, cfg.sha256 content⟩

variable (s : State Plan Content Digest)

/-- One step of a worker that drafts the artifacts of job `j`. -/
def draftStep (w : WorkerId) (j : JobId) (d : Draft Plan Digest) :
    DraftAction Plan → Option (State Plan Content Digest) :=
  let goOn := fun d' => { s with drafts := Function.update s.drafts w d' }
  fun
  | .loadPlan lost =>
    match d with
    | .loading => match s.plans j with
      | some plan => some (goOn (if lost then .asking else .checking plan []))
      | none => some (goOn .asking)
    | _ => none
  | .callModel plan =>
    match d with
    | .asking => some (goOn (.saving plan))
    | _ => none
  | .savePlan =>
    match d with
    | .saving plan =>
      some { goOn (.checking plan []) with plans := Function.update s.plans j (some plan) }
    | _ => none
  | .checkExisting lost =>
    match d with
    | .checking plan found => match nextArtifact found with
      | some kind => match latestPin cfg (s.objects j kind) with
        | some pin =>
          if lost then some (goOn (.uploading plan []))
          else match pinsOf? (found ++ [pin]) with
            | some pins => some (goOn (.finished plan pins))
            | none => some (goOn (.checking plan (found ++ [pin])))
        | none => some (goOn (.uploading plan []))
      | none => none
    | _ => none
  | .upload noise =>
    match d with
    | .uploading plan done => match nextArtifact done with
      | some kind =>
        some { goOn (.readingBack plan done) with
          objects := Function.update s.objects j (Function.update (s.objects j) kind
            (s.objects j kind ++ [cfg.render j plan kind noise])) }
      | none => none
    | _ => none
  | .readBack =>
    match d with
    | .readingBack plan done => match nextArtifact done with
      | some kind => match latestPin cfg (s.objects j kind) with
        | some pin => match pinsOf? (done ++ [pin]) with
          | some pins => some (goOn (.finished plan pins))
          | none => some (goOn (.uploading plan (done ++ [pin])))
        | none => none
      | none => none
    | _ => none

/-- The job whose row the next statement of worker `w` marks completed: it is about to run
`mark_completed`, and the row has its claim token. -/
def completes? (s : Jobs.State) (w : WorkerId) : Option JobId :=
  match s.handlers w with
  | some ⟨m, .completing tok⟩ => match s.jobs m.job with
    | some row => if row.tokenMatches (some tok) then some m.job else none
    | none => none
  | _ => none

/-- A step of the job system. The draft starts when processing does and has to be finished for
processing to succeed; `mark_completed` pins its artifacts in the same transaction. -/
def jobStep (a : Jobs.Action) : Option (State Plan Content Digest) :=
  (Jobs.step cfg.jobs s.base a).bind fun base =>
    match a with
    | .worker w .succeed => match s.drafts w with
      | .finished _ _ => some { s with base }
      | _ => none
    | .worker w .proceed => match s.base.handlers w with
      | some ⟨_, .claimed _⟩ =>
        some { s with base, drafts := Function.update s.drafts w .loading }
      | _ => match completes? s.base w, s.drafts w with
        | some j, .finished plan pins =>
          some { s with
            base
            rows := Function.update s.rows j fun kind => some (pins kind)
            outputs := Function.update s.outputs j (some (cfg.sha256 (cfg.dumps plan))) }
        | _, _ => some { s with base }
    | _ => some { s with base }

/-- A step of API request `k`. -/
def syncStep (k : ℕ) : SyncAction → Option (State Plan Content Digest) :=
  let goOn := fun c => { s with syncs := Function.update s.syncs k c }
  fun
  | .readRow j =>
    match s.syncs k, s.base.jobs j with
    | none, some _ => some (goOn (some (.readRow j (s.rows j .report).isSome)))
    | _, _ => none
  | .readJob =>
    match s.syncs k with
    | some (.readRow j pinned) =>
      match s.base.jobs j with
      | some row =>
        some (goOn (if row.status = .completed ∧ pinned = false then some (.head j) else none))
      | none => none
    | _ => none
  | .head =>
    match s.syncs k with
    | some (.head j) => some (goOn ((latestPin cfg (s.objects j .report)).map (.write j)))
    | _ => none
  | .write =>
    match s.syncs k with
    | some (.write j pin) =>
      some { goOn none with
        rows := Function.update s.rows j (Function.update (s.rows j) .report (some pin)) }
    | _ => none

/-- One step of the system. -/
def step : Action Plan → Option (State Plan Content Digest)
  | .job a => jobStep cfg s a
  | .draft w a =>
    match s.base.handlers w with
    | some ⟨m, .processing _⟩ => draftStep cfg s w m.job (s.drafts w) a
    | _ => none
  | .sync k a => syncStep cfg s k a

end Step

variable {cfg : Config Plan Content Digest} {s s' : State Plan Content Digest}

lemma jobStep_base {a : Jobs.Action} (h : jobStep cfg s a = some s') :
    Jobs.step cfg.jobs s.base a = some s'.base := by
  obtain ⟨base, hbase, h⟩ := Option.bind_eq_some_iff.mp h
  rw [hbase]
  repeat' split at h
  all_goals cases h
  all_goals rfl

lemma draftStep_base {w : WorkerId} {j : JobId} {d : Draft Plan Digest} {a : DraftAction Plan}
    (h : draftStep cfg s w j d a = some s') : s'.base = s.base := by
  cases a with
  | _ =>
    simp only [draftStep] at h
    repeat' split at h
    all_goals cases h
    all_goals rfl

lemma syncStep_base {k : ℕ} {a : SyncAction} (h : syncStep cfg s k a = some s') :
    s'.base = s.base := by
  cases a with
  | _ =>
    simp only [syncStep] at h
    repeat' split at h
    all_goals cases h
    all_goals rfl

/-- **The system runs over the job system.** Every step is a step of the job system, or leaves
it alone. -/
theorem step_base {a : Action Plan} (h : step cfg s a = some s') :
    (∃ b, a = .job b ∧ Jobs.step cfg.jobs s.base b = some s'.base) ∨ s'.base = s.base := by
  cases a with
  | job b => exact .inl ⟨b, rfl, jobStep_base h⟩
  | draft w b =>
    simp only [step] at h
    split at h
    · exact .inr (draftStep_base h)
    · cases h
  | sync k b => exact .inr (syncStep_base h)

end Artifacts
