import NocReport.Foundation.Transactions
import NocReport.Foundation.Transition
import NocReport.Outbox.Enqueue

set_option relaxedAutoImplicit false
set_option autoImplicit false

/-!
# Report versions

`generate_report` locks the shift, allocates the next version of its reports as `MAX + 1`, and
inserts the frozen snapshot, the job, its outbox event and the report, all in one transaction. Every
request is taken statement by statement and can fail and roll back before any of them. What the
skill registry and the query of the incidents give is in the action that uses it, and the object
that the request stores is not followed: it is read by nothing here, and stays when the request
fails.

## Main definitions

* `Versions.Phase` — where a request is, with the rows that it has inserted.
* `Versions.State`, `Versions.Action`, `Versions.step` — the system.
* `Versions.VersionInv` — the requests hold the locks of their shifts, and the versions that they
  have allocated are still the next ones.

## Main results

* `Versions.versionInv_step` — the invariant is preserved by every step.
* `Versions.reports_gapless` — the versions of each shift are `1..n` in the order of the commits, and
  the reports, snapshots, jobs and outbox events are committed together.
-/

namespace Versions

open Outbox ReadCommitted Transition

abbrev RequestId := ℕ

abbrev UserId := ℕ

abbrev ShiftId := ℕ

abbrev SnapshotId := ℕ

abbrev ReportId := ℕ

/-- What the skill registry gives for the active snapshot of the report skill. -/
structure Skill (Digest : Type) where
  snapshotId : ℕ
  skillVersion : PyStr
  contentHash : Digest
  executionHash : Digest
  policy : Json.Fields

/-- A row of `report_snapshots`; `Content` is what `_build_snapshot` freezes. -/
structure ReportSnapshot (Content Digest : Type) where
  shiftId : ShiftId
  snapshotJson : Content
  sha256 : Digest
  skillSnapshotId : ℕ
  skillExecutionHash : Digest
  createdBy : UserId

/-- The entry of `object_refs` for the object `snapshots/{shift}/{snapshot}.json` of the bucket of
the reports. -/
structure SnapshotRef (Digest : Type) where
  shiftId : ShiftId
  snapshotId : SnapshotId
  sha256 : Digest
  versionId : Option ℕ

/-- A row of `reports`, as far as `generate_report` fills it. -/
structure Report (Digest : Type) where
  shiftId : ShiftId
  snapshotId : SnapshotId
  jobId : JobId
  version : ℕ
  skillSnapshotId : ℕ
  skillExecutionHash : Digest
  generatedBy : UserId

/-- The hash of the bytes of `json.dumps(snapshot_json)`. -/
structure Config (Content Digest : Type) where
  sha256OfBytes : Content → Digest

/-- What a request has been asked for, and when its transaction began. -/
structure Request where
  shiftId : ShiftId
  userId : UserId
  startedAt : ℕ

/-- What a request has decided on once its snapshot is inserted. -/
structure Draft (Content Digest : Type) extends Request where
  version : ℕ
  skill : Skill Digest
  content : Content
  snapshotId : SnapshotId

/-- The job of a request, once its id is known. -/
structure Enqueued where
  jobId : JobId
  correlationId : PyStr
  objectVersion : Option ℕ

/-- Where a request is, after its last statement. -/
inductive Phase (Content Digest : Type)
  /-- it has locked the shift; the checks of the runtime and the read of the versions come next -/
  | locked (q : Request)
  /-- the version is allocated; the flush of the snapshot comes next -/
  | allocated (q : Request) (version : ℕ)
  /-- `put_object` comes next -/
  | frozen (d : Draft Content Digest)
  /-- the flush of the job comes next -/
  | uploaded (d : Draft Content Digest) (objectVersion : Option ℕ)
  /-- the flush of the outbox event comes next -/
  | queued (d : Draft Content Digest) (e : Enqueued)
  /-- the flush of the report comes next -/
  | announced (d : Draft Content Digest) (e : Enqueued) (event : EventId)
  /-- `commit` comes next -/
  | reported (d : Draft Content Digest) (e : Enqueued) (event : EventId) (report : ReportId)

section Rows

variable {Content Digest : Type} (cfg : Config Content Digest) (d : Draft Content Digest)
  (e : Enqueued)

/-- The snapshot that a request inserts. -/
def newReportSnapshot : ReportSnapshot Content Digest where
  shiftId := d.shiftId
  snapshotJson := d.content
  sha256 := cfg.sha256OfBytes d.content
  skillSnapshotId := d.skill.snapshotId
  skillExecutionHash := d.skill.executionHash
  createdBy := d.userId

/-- What a request calls `enqueue_job` with. -/
def jobArgs (objectVersion : Option ℕ) : JobArgs (SnapshotRef Digest) Digest where
  jobType := .dailyReport
  requestedBy := some d.userId
  incidentId := none
  objectRefs := [⟨d.shiftId, d.snapshotId, cfg.sha256OfBytes d.content, objectVersion⟩]
  model := none
  effort := none
  skillName := py "daily-alert-report"
  skillVersion := d.skill.skillVersion
  skillSnapshotId := d.skill.snapshotId
  skillHash := some d.skill.contentHash
  skillExecutionHash := some d.skill.executionHash
  aiPolicy := some d.skill.policy

/-- The report that a request inserts. -/
def newReport : Report Digest where
  shiftId := d.shiftId
  snapshotId := d.snapshotId
  jobId := e.jobId
  version := d.version
  skillSnapshotId := d.skill.snapshotId
  skillExecutionHash := d.skill.executionHash
  generatedBy := d.userId

/-- The row of the job of a request. -/
def Enqueued.job : Job Digest := newJob (jobArgs cfg d e.objectVersion) e.correlationId

/-- The row of the outbox event of a request. -/
def Enqueued.event : OutboxEvent (SnapshotRef Digest) Digest :=
  newOutboxEvent (jobArgs cfg d e.objectVersion) e.jobId e.correlationId d.startedAt

end Rows

/-- The state of the system. -/
structure State (Content Digest : Type) where
  clock : ℕ
  /-- whether the semantic runtime is there and the feature flag is set -/
  runtimeEnabled : Bool
  /-- the shifts, of which a request reads only that they are there -/
  shifts : Table RequestId ShiftId Unit
  snapshots : Table RequestId SnapshotId (ReportSnapshot Content Digest)
  jobs : Table RequestId JobId (Job Digest)
  outbox : Table RequestId EventId (OutboxEvent (SnapshotRef Digest) Digest)
  reports : Table RequestId ReportId (Report Digest)
  requests : RequestId → Option (Phase Content Digest)

variable {Content Digest : Type}

/-- The empty system. -/
def State.init : State Content Digest where
  clock := 0
  runtimeEnabled := false
  shifts := .ofRows []
  snapshots := .ofRows []
  jobs := .ofRows []
  outbox := .ofRows []
  reports := .ofRows []
  requests := fun _ => none

/-- The next statement of a request. -/
inductive Statement (Content Digest : Type)
  /-- the checks of the runtime, and `_allocate_report_version` -/
  | allocate
  /-- the flush of the snapshot -/
  | freeze (skill : Skill Digest) (content : Content) (snapshot : SnapshotId)
  /-- `put_object` -/
  | upload (objectVersion : Option ℕ)
  /-- the flush of the job -/
  | enqueue (job : JobId) (correlationId : PyStr)
  /-- the flush of the outbox event -/
  | announce (event : EventId)
  /-- the flush of the report -/
  | report (report : ReportId)
  | commit
  /-- the request fails: an error, a lost connection, or a constraint that is violated -/
  | abort

/-- What can happen. -/
inductive Action (Content Digest : Type)
  | tick
  | setRuntime (enabled : Bool)
  /-- a shift is committed -/
  | addShift (shift : ShiftId)
  /-- a request begins with `_lock_shift_or_404` -/
  | generate (r : RequestId) (user : UserId) (shift : ShiftId)
  | request (r : RequestId) (statement : Statement Content Digest)

/-- The reports of a shift that are committed, in the order of their commits. -/
def State.reportsOf (s : State Content Digest) (shift : ShiftId) : List (Report Digest) :=
  (s.reports.committed.map (·.2)).filter fun row => row.shiftId = shift

/-- `_allocate_report_version`. -/
def allocateReportVersion (s : State Content Digest) (shift : ShiftId) : ℕ :=
  (((s.reportsOf shift).map (·.version)).max?).getD 0 + 1

section Step

variable (cfg : Config Content Digest) (s : State Content Digest) (r : RequestId)

/-- Request `r` goes on in phase `p`. -/
@[simps]
def State.goOn (p : Phase Content Digest) : State Content Digest :=
  { s with requests := Function.update s.requests r (some p) }

/-- Request `r` ends without a commit. -/
@[simps]
def State.fail : State Content Digest where
  clock := s.clock
  runtimeEnabled := s.runtimeEnabled
  shifts := s.shifts.rollback r
  snapshots := s.snapshots.rollback r
  jobs := s.jobs.rollback r
  outbox := s.outbox.rollback r
  reports := s.reports.rollback r
  requests := Function.update s.requests r none

/-- Request `r` ends with a commit. -/
@[simps]
def State.finish : State Content Digest where
  clock := s.clock
  runtimeEnabled := s.runtimeEnabled
  shifts := s.shifts.commit r
  snapshots := s.snapshots.commit r
  jobs := s.jobs.commit r
  outbox := s.outbox.commit r
  reports := s.reports.commit r
  requests := Function.update s.requests r none

/-- One statement of a request that has locked its shift. -/
def requestStep : Phase Content Digest → Statement Content Digest → Option (State Content Digest)
  | .locked q, .allocate =>
    if s.runtimeEnabled then
      some (s.goOn r (.allocated q (allocateReportVersion s q.shiftId)))
    else some (s.fail r)
  | .allocated q version, .freeze skill content snapshot =>
    let d : Draft Content Digest := ⟨q, version, skill, content, snapshot⟩
    (s.snapshots.insert? r snapshot (newReportSnapshot cfg d)).map fun snapshots =>
      { s with snapshots }.goOn r (.frozen d)
  | .frozen d, .upload objectVersion => some (s.goOn r (.uploaded d objectVersion))
  | .uploaded d objectVersion, .enqueue job correlationId =>
    let e : Enqueued := ⟨job, correlationId, objectVersion⟩
    (s.jobs.insert? r job (e.job cfg d)).map fun jobs => { s with jobs }.goOn r (.queued d e)
  | .queued d e, .announce event =>
    (s.outbox.insert? r event (e.event cfg d)).map fun outbox =>
      { s with outbox }.goOn r (.announced d e event)
  | .announced d e event, .report report =>
    -- `uq_reports_shift_version`, and the unique index of `job_id`
    if s.reports.admits r fun row =>
        (row.shiftId = d.shiftId ∧ row.version = d.version) ∨ row.jobId = e.jobId then
      (s.reports.insert? r report (newReport d e)).map fun reports =>
        { s with reports }.goOn r (.reported d e event report)
    else none
  | .reported _ _ _ _, .commit => some (s.finish r)
  | _, .abort => some (s.fail r)
  | _, _ => none

/-- One step of the system. -/
def step : Action Content Digest → Option (State Content Digest)
  | .tick => some { s with clock := s.clock + 1 }
  | .setRuntime enabled => some { s with runtimeEnabled := enabled }
  | .addShift shift => some { s with shifts := s.shifts.withRows (s.shifts.committed.set shift ()) }
  | .generate r user shift =>
    match s.requests r, Dict.get? s.shifts.committed shift with
    | none, none => some s
    | none, some _ =>
      (s.shifts.lock? r shift .update).map fun shifts =>
        { s with shifts }.goOn r (.locked ⟨shift, user, s.clock⟩)
    | some _, _ => none
  | .request r statement => (s.requests r).bind fun p => requestStep cfg s r p statement

end Step

/-! ## What a request has inserted -/

/-- The shift that a request has locked. -/
def Phase.shiftId : Phase Content Digest → ShiftId
  | locked q | allocated q _ => q.shiftId
  | frozen d | uploaded d _ | queued d _ | announced d _ _ | reported d _ _ _ => d.shiftId

/-- The version that a request has allocated. -/
def Phase.version? : Phase Content Digest → Option ℕ
  | locked _ => none
  | allocated _ version => some version
  | frozen d | uploaded d _ | queued d _ | announced d _ _ | reported d _ _ _ => some d.version

variable (cfg : Config Content Digest)

/-- The snapshot that a request has inserted. -/
def Phase.snapshot? :
    Phase Content Digest → Option (SnapshotId × ReportSnapshot Content Digest)
  | locked _ | allocated _ _ => none
  | frozen d | uploaded d _ | queued d _ | announced d _ _ | reported d _ _ _ =>
    some (d.snapshotId, newReportSnapshot cfg d)

/-- The job that a request has inserted. -/
def Phase.job? : Phase Content Digest → Option (JobId × Job Digest)
  | queued d e | announced d e _ | reported d e _ _ => some (e.jobId, e.job cfg d)
  | _ => none

/-- The outbox event that a request has inserted. -/
def Phase.event? :
    Phase Content Digest → Option (EventId × OutboxEvent (SnapshotRef Digest) Digest)
  | announced d e event | reported d e event _ => some (event, e.event cfg d)
  | _ => none

/-- The report that a request has inserted. -/
def Phase.report? : Phase Content Digest → Option (ReportId × Report Digest)
  | reported d e _ report => some (report, newReport d e)
  | _ => none

/-- The rows of the four tables are committed together: each report with its snapshot, its job and
the outbox event that carries both. -/
structure Together (s : State Content Digest) : Prop where
  snapshots : Dict.keys s.snapshots.committed = s.reports.committed.map (·.2.snapshotId)
  jobs : Dict.keys s.jobs.committed = s.reports.committed.map (·.2.jobId)
  outbox : (s.outbox.committed.map fun e => (e.2.jobId, e.2.payload.objectRefs.map (·.snapshotId))) =
    s.reports.committed.map fun e => (e.2.jobId, [e.2.snapshotId])

/-- The versions of each shift are `1..n`, in the order of the commits. -/
def Gapless (s : State Content Digest) : Prop :=
  ∀ shift, (s.reportsOf shift).map (·.version) = List.range' 1 (s.reportsOf shift).length

/-- The invariant: a request holds the lock of its shift, the version that it has allocated is the
next one, and it has written the rows of its phase. -/
structure VersionInv (s : State Content Digest) : Prop where
  locked : ∀ r p, s.requests r = some p → s.shifts.Holds r p.shiftId
  allocated : ∀ r p v, s.requests r = some p → p.version? = some v →
    v = (s.reportsOf p.shiftId).length + 1
  snapshots : s.snapshots.Inserting fun r => (s.requests r).bind (Phase.snapshot? cfg)
  jobs : s.jobs.Inserting fun r => (s.requests r).bind (Phase.job? cfg)
  outbox : s.outbox.Inserting fun r => (s.requests r).bind (Phase.event? cfg)
  reports : s.reports.Inserting fun r => (s.requests r).bind Phase.report?
  gapless : Gapless s
  together : Together s

variable {cfg} {s s' : State Content Digest} {r : RequestId} {p : Phase Content Digest}
  {a : Action Content Digest}

lemma versionInv_init : VersionInv cfg (.init : State Content Digest) where
  locked := by simp [State.init]
  allocated := by simp [State.init]
  snapshots := Table.inserting_ofRows []
  jobs := Table.inserting_ofRows []
  outbox := Table.inserting_ofRows []
  reports := Table.inserting_ofRows []
  gapless := by simp [Gapless, State.reportsOf, State.init]
  together := ⟨rfl, rfl, rfl⟩

/-- Where the versions of a shift are `1..n`, the one that is allocated is `n + 1`. -/
lemma Gapless.allocateReportVersion (hs : Gapless s) (shift : ShiftId) :
    allocateReportVersion s shift = (s.reportsOf shift).length + 1 := by
  rw [Versions.allocateReportVersion, hs shift]
  cases (s.reportsOf shift).length with
  | zero => rfl
  | succ n =>
    have hmax : (List.range' 1 (n + 1)).max? = some (n + 1) := by
      rw [List.max?_eq_some_iff]
      constructor
      · rw [List.mem_range'_1]
        omega
      · intro v hv
        rw [List.mem_range'_1] at hv
        omega
    rw [hmax]
    rfl

/-- The step of a request that goes on, which commits nothing, preserves the invariant. -/
lemma VersionInv.goOn (hs : VersionInv cfg s)
    (hp : s'.requests = Function.update s.requests r (some p))
    (hshifts : s.shifts.MovedBy r s'.shifts) (hlocked : s'.shifts.Holds r p.shiftId)
    (hversion : ∀ v, p.version? = some v → v = (s.reportsOf p.shiftId).length + 1)
    (hsnapshots : s'.snapshots.Inserting fun r => (s'.requests r).bind (Phase.snapshot? cfg))
    (hjobs : s'.jobs.Inserting fun r => (s'.requests r).bind (Phase.job? cfg))
    (houtbox : s'.outbox.Inserting fun r => (s'.requests r).bind (Phase.event? cfg))
    (hreports : s'.reports.Inserting fun r => (s'.requests r).bind Phase.report?)
    (hcommitted : s'.snapshots.committed = s.snapshots.committed ∧
      s'.jobs.committed = s.jobs.committed ∧ s'.outbox.committed = s.outbox.committed ∧
      s'.reports.committed = s.reports.committed) :
    VersionInv cfg s' ∧ s.reports.committed <+: s'.reports.committed := by
  obtain ⟨hsn, hjo, hou, hre⟩ := hcommitted
  refine ⟨?_, hre ▸ List.prefix_rfl⟩
  have hof : ∀ shift, s'.reportsOf shift = s.reportsOf shift := fun shift => by
    rw [State.reportsOf, State.reportsOf, hre]
  refine ⟨?_, ?_, hsnapshots, hjobs, houtbox, hreports, ?_, ?_⟩
  · intro u q hu
    rw [hp] at hu
    by_cases hur : u = r
    · subst hur
      rw [Function.update_self] at hu
      cases hu
      exact hlocked
    · rw [Function.update_of_ne hur] at hu
      exact hshifts.holds u hur _ (hs.locked u q hu)
  · intro u q v hu hv
    rw [hof]
    rw [hp] at hu
    by_cases hur : u = r
    · subst hur
      rw [Function.update_self] at hu
      cases hu
      exact hversion v hv
    · rw [Function.update_of_ne hur] at hu
      exact hs.allocated u q v hu hv
  · intro shift
    rw [hof]
    exact hs.gapless shift
  · exact ⟨by rw [hsn, hre, hs.together.snapshots], by rw [hjo, hre, hs.together.jobs],
      by rw [hou, hre, hs.together.outbox]⟩

/-- A request that fails leaves nothing behind. -/
lemma VersionInv.fail (hs : VersionInv cfg s) : VersionInv cfg (s.fail r) where
  locked u q hu := by
    by_cases hur : u = r
    · simp [hur] at hu
    · exact Table.holds_rollback.mpr ⟨hur, hs.locked u q (by simpa [hur] using hu)⟩
  allocated u q v hu hv := by
    by_cases hur : u = r
    · simp [hur] at hu
    · exact hs.allocated u q v (by simpa [hur] using hu) hv
  snapshots := hs.snapshots.ends_rollback rfl
  jobs := hs.jobs.ends_rollback rfl
  outbox := hs.outbox.ends_rollback rfl
  reports := hs.reports.ends_rollback rfl
  gapless := hs.gapless
  together := ⟨hs.together.snapshots, hs.together.jobs, hs.together.outbox⟩

section Commit

variable {d : Draft Content Digest} {e : Enqueued} {event : EventId} {report : ReportId}

/-- The commit of a request adds its report to those of its shift. -/
lemma VersionInv.reportsOf_finish (hs : VersionInv cfg s)
    (hr : s.requests r = some (.reported d e event report)) (shift : ShiftId) :
    (s.finish r).reportsOf shift =
      s.reportsOf shift ++ if d.shiftId = shift then [newReport d e] else [] := by
  rw [State.reportsOf, State.finish_reports, hs.reports.committed_commit, hr]
  by_cases hshift : d.shiftId = shift
  · simp [State.reportsOf, Phase.report?, newReport, hshift]
  · simp [State.reportsOf, Phase.report?, newReport, hshift]

/-- The version of a request is still the next one when it commits, since no other request has
held the lock of its shift. -/
lemma VersionInv.finish_gapless (hs : VersionInv cfg s)
    (hr : s.requests r = some (.reported d e event report)) : Gapless (s.finish r) := by
  intro shift
  rw [hs.reportsOf_finish hr]
  by_cases hshift : d.shiftId = shift
  · subst hshift
    have hversion : d.version = (s.reportsOf d.shiftId).length + 1 := hs.allocated r _ _ hr rfl
    rw [if_pos rfl, List.map_append, hs.gapless, List.length_append, List.length_singleton,
      List.range'_1_concat]
    simp only [List.map_cons, List.map_nil, newReport]
    rw [hversion, Nat.add_comm 1]
  · rw [if_neg hshift, List.append_nil]
    exact hs.gapless shift

/-- The rows of a request are committed together. -/
lemma VersionInv.finish_together (hs : VersionInv cfg s)
    (hr : s.requests r = some (.reported d e event report)) : Together (s.finish r) := by
  have hreports := hs.reports.committed_commit (t := r)
  have hsnapshots := hs.snapshots.committed_commit (t := r)
  have hjobs := hs.jobs.committed_commit (t := r)
  have houtbox := hs.outbox.committed_commit (t := r)
  simp only [hr, Option.bind_some, Phase.report?, Phase.snapshot?, Phase.job?, Phase.event?,
    Option.toList_some] at hreports hsnapshots hjobs houtbox
  constructor
  · have hold := hs.together.snapshots
    rw [Dict.keys] at hold
    simp [Dict.keys, hsnapshots, hreports, hold, newReport]
  · have hold := hs.together.jobs
    rw [Dict.keys] at hold
    simp [Dict.keys, hjobs, hreports, hold, newReport]
  · simp [houtbox, hreports, hs.together.outbox, newReport, Enqueued.event, newOutboxEvent,
      buildJobMessage, jobArgs]

/-- A commit preserves the invariant. -/
lemma VersionInv.finish (hs : VersionInv cfg s)
    (hr : s.requests r = some (.reported d e event report)) : VersionInv cfg (s.finish r) where
  locked u q hu := by
    by_cases hur : u = r
    · simp [hur] at hu
    · exact Table.holds_commit.mpr ⟨hur, hs.locked u q (by simpa [hur] using hu)⟩
  allocated u q v hu hv := by
    by_cases hur : u = r
    · simp [hur] at hu
    · have hq : s.requests u = some q := by simpa [hur] using hu
      have hshift : d.shiftId ≠ q.shiftId := by
        intro heq
        have hlock := hs.locked r _ hr
        rw [Phase.shiftId, heq] at hlock
        exact hur ((hs.locked u q hq).unique hlock)
      rw [hs.reportsOf_finish hr, if_neg hshift, List.append_nil]
      exact hs.allocated u q v hq hv
  snapshots := hs.snapshots.ends_commit rfl
  jobs := hs.jobs.ends_commit rfl
  outbox := hs.outbox.ends_commit rfl
  reports := hs.reports.ends_commit rfl
  gapless := hs.finish_gapless hr
  together := hs.finish_together hr

end Commit

/-- A statement of a request preserves the invariant, and the reports that were committed stay. -/
lemma requestStep_spec {statement : Statement Content Digest} (hs : VersionInv cfg s)
    (hr : s.requests r = some p) (h : requestStep cfg s r p statement = some s') :
    VersionInv cfg s' ∧ s.reports.committed <+: s'.reports.committed := by
  have hlocked := hs.locked r p hr
  have hallocated := hs.allocated r p
  unfold requestStep at h
  split at h
  · split at h
    · cases h
      refine hs.goOn rfl .refl hlocked ?_ (hs.snapshots.goOn (by rw [hr]; rfl))
        (hs.jobs.goOn (by rw [hr]; rfl)) (hs.outbox.goOn (by rw [hr]; rfl))
        (hs.reports.goOn (by rw [hr]; rfl)) ⟨rfl, rfl, rfl, rfl⟩
      rintro v ⟨⟩
      exact hs.gapless.allocateReportVersion _
    · cases h
      exact ⟨hs.fail, List.prefix_rfl⟩
  · obtain ⟨T, hT, rfl⟩ := Option.map_eq_some_iff.mp h
    exact hs.goOn rfl .refl hlocked (fun v hv => hallocated v hr hv)
      (hs.snapshots.goOn_insert (by rw [hr]; rfl) hT rfl)
      (hs.jobs.goOn (by rw [hr]; rfl)) (hs.outbox.goOn (by rw [hr]; rfl))
      (hs.reports.goOn (by rw [hr]; rfl)) ⟨Table.committed_insert? hT, rfl, rfl, rfl⟩
  · cases h
    exact hs.goOn rfl .refl hlocked (fun v hv => hallocated v hr hv)
      (hs.snapshots.goOn (by rw [hr]; rfl)) (hs.jobs.goOn (by rw [hr]; rfl))
      (hs.outbox.goOn (by rw [hr]; rfl)) (hs.reports.goOn (by rw [hr]; rfl)) ⟨rfl, rfl, rfl, rfl⟩
  · obtain ⟨T, hT, rfl⟩ := Option.map_eq_some_iff.mp h
    exact hs.goOn rfl .refl hlocked (fun v hv => hallocated v hr hv)
      (hs.snapshots.goOn (by rw [hr]; rfl)) (hs.jobs.goOn_insert (by rw [hr]; rfl) hT rfl)
      (hs.outbox.goOn (by rw [hr]; rfl)) (hs.reports.goOn (by rw [hr]; rfl))
      ⟨rfl, Table.committed_insert? hT, rfl, rfl⟩
  · obtain ⟨T, hT, rfl⟩ := Option.map_eq_some_iff.mp h
    exact hs.goOn rfl .refl hlocked (fun v hv => hallocated v hr hv)
      (hs.snapshots.goOn (by rw [hr]; rfl)) (hs.jobs.goOn (by rw [hr]; rfl))
      (hs.outbox.goOn_insert (by rw [hr]; rfl) hT rfl) (hs.reports.goOn (by rw [hr]; rfl))
      ⟨rfl, rfl, Table.committed_insert? hT, rfl⟩
  · split at h
    · obtain ⟨T, hT, rfl⟩ := Option.map_eq_some_iff.mp h
      exact hs.goOn rfl .refl hlocked (fun v hv => hallocated v hr hv)
        (hs.snapshots.goOn (by rw [hr]; rfl)) (hs.jobs.goOn (by rw [hr]; rfl))
        (hs.outbox.goOn (by rw [hr]; rfl)) (hs.reports.goOn_insert (by rw [hr]; rfl) hT rfl)
        ⟨rfl, rfl, rfl, Table.committed_insert? hT⟩
    · cases h
  · cases h
    refine ⟨hs.finish hr, ?_⟩
    rw [State.finish_reports, hs.reports.committed_commit]
    exact List.prefix_append _ _
  · cases h
    exact ⟨hs.fail, List.prefix_rfl⟩
  · cases h

/-- Every step preserves the invariant, and the reports that were committed stay. -/
theorem versionInv_step (hs : VersionInv cfg s) (h : step cfg s a = some s') :
    VersionInv cfg s' ∧ s.reports.committed <+: s'.reports.committed := by
  cases a with
  | tick | setRuntime enabled =>
    cases h
    exact ⟨⟨hs.locked, hs.allocated, hs.snapshots, hs.jobs, hs.outbox, hs.reports, hs.gapless,
      ⟨hs.together.snapshots, hs.together.jobs, hs.together.outbox⟩⟩, List.prefix_rfl⟩
  | addShift shift =>
    cases h
    exact ⟨⟨fun r p hr => Table.holds_withRows.mpr (hs.locked r p hr), hs.allocated, hs.snapshots,
      hs.jobs, hs.outbox, hs.reports, hs.gapless,
      ⟨hs.together.snapshots, hs.together.jobs, hs.together.outbox⟩⟩, List.prefix_rfl⟩
  | generate r user shift =>
    simp only [step] at h
    split at h
    · cases h
      exact ⟨hs, List.prefix_rfl⟩
    · next hr _ =>
      obtain ⟨T, hT, rfl⟩ := Option.map_eq_some_iff.mp h
      obtain ⟨hg, rfl⟩ := Table.lock?_eq_some.mp hT
      refine hs.goOn rfl (Table.movedBy_lock hg) (Table.holds_lock_self hg (by decide)) ?_
        (hs.snapshots.goOn (by rw [hr]; rfl)) (hs.jobs.goOn (by rw [hr]; rfl))
        (hs.outbox.goOn (by rw [hr]; rfl)) (hs.reports.goOn (by rw [hr]; rfl))
        ⟨rfl, rfl, rfl, rfl⟩
      rintro v ⟨⟩
    · cases h
  | request r statement =>
    obtain ⟨p, hr, h⟩ := Option.bind_eq_some_iff.mp h
    exact requestStep_spec hs hr h

/-- **Report versions are gapless.** In every state of every run, the versions of the reports of
each shift that are committed are `1..n`, in the order of their commits, and each report is
committed together with its snapshot, its job and its outbox event. -/
theorem reports_gapless (cfg : Config Content Digest) {as bs : List (Action Content Digest)}
    {s t : State Content Digest} (hs : run (step cfg) .init as = some s)
    (ht : run (step cfg) s bs = some t) :
    s.reports.committed <+: t.reports.committed ∧ Gapless t ∧ Together t := by
  have hinv : VersionInv cfg s := run_invariant (I := VersionInv cfg) (P := fun _ _ => True)
    (fun _ _ _ hu _ hstep => (versionInv_step hu hstep).1) versionInv_init
    (fun _ _ _ _ _ _ => trivial) hs
  have hboth := run_invariant
    (I := fun u => VersionInv cfg u ∧ s.reports.committed <+: u.reports.committed)
    (P := fun _ _ => True) ?_ ⟨hinv, List.prefix_rfl⟩ (fun _ _ _ _ _ _ => trivial) ht
  · exact ⟨hboth.2, hboth.1.gapless, hboth.1.together⟩
  · rintro u a v ⟨hu, hprefix⟩ - hstep
    obtain ⟨hv, hmore⟩ := versionInv_step hu hstep
    exact ⟨hv, hprefix.trans hmore⟩

/-- A configuration in which the content of a snapshot is its own hash. -/
def sampleConfig : Config ℕ ℕ := ⟨id⟩

/-- The statements of a request from the check of the runtime to the flush of the report. -/
def draftStatements (n : ℕ) : List (Statement ℕ ℕ) :=
  [.allocate, .freeze ⟨0, [], 0, 0, []⟩ 0 n, .upload none, .enqueue n [], .announce n, .report n]

/-- Three requests for shift `0`, of which the second fails before its commit, and one for shift
`1` that overlaps them. -/
def overlappingRun : List (Action ℕ ℕ) :=
  [.setRuntime true, .addShift 0, .addShift 1, .generate 0 0 0, .generate 3 0 1] ++
    (draftStatements 10).map (.request 0) ++ (draftStatements 13).map (.request 3) ++
    [.request 0 .commit, .generate 1 0 0] ++ (draftStatements 11).map (.request 1) ++
    [.request 1 .abort, .generate 2 0 0, .request 3 .commit] ++
    (draftStatements 12).map (.request 2) ++ [.request 2 .commit]

theorem reports_gapless_overlappingRun :
    ∃ s t, run (step sampleConfig) .init [] = some s ∧
      run (step sampleConfig) s overlappingRun = some t ∧
      t.reports.committed.map (fun e => (e.2.shiftId, e.2.version)) = [(0, 1), (1, 1), (0, 2)] ∧
      s.reports.committed <+: t.reports.committed ∧ Gapless t ∧ Together t := by
  have h : (run (step sampleConfig) .init overlappingRun).map
      (fun t => t.reports.committed.map fun e => (e.2.shiftId, e.2.version)) =
        some [(0, 1), (1, 1), (0, 2)] := by
    decide
  obtain ⟨t, ht, hversions⟩ := Option.map_eq_some_iff.mp h
  exact ⟨.init, t, rfl, ht, hversions, reports_gapless sampleConfig (run_nil State.init) ht⟩

end Versions
