import Mathlib.Data.Prod.Lex
import Mathlib.Order.WithBot
import NocReport.Evidence.Purge
import NocReport.Foundation.Worklist

set_option relaxedAutoImplicit false
set_option autoImplicit false

/-!
# A sweep of pending purges

What one call of `sweep_pending_purges` (`api/app/evidence_purge_worker.py`) does while no other
process is at work on the evidence.

## Main definitions

* `Purge.Surroundings` — what the call finds around it: the rows that refer to evidence, and the
  outcome of each deletion.
* `Purge.sweepPendingPurges` — the call.
* `Purge.NotStarved` — what a sweep should do.

## Main results

* `Purge.sweepTurns_done` — turns in which no deletion fails.
* `Purge.notStarved_iff` — when a sweep does what it should.
-/

namespace Purge

open Storage

/-! ## A row that is swept -/

/-- A row of `evidence`, with `created_at`. -/
structure EvidenceRow extends Evidence PyStr where
  createdAt : ℕ
  deriving DecidableEq

/-- `ORDER BY deleted_at, created_at`, where a row that lacks `deleted_at` comes last. -/
def EvidenceRow.sweepKey (row : EvidenceRow) : WithTop ℕ ×ₗ ℕ :=
  toLex (row.deletedAt.elim ⊤ WithTop.some, row.createdAt)

/-- `EvidencePurgePlan`. -/
structure EvidencePurgePlan where
  evidenceId : EvidenceId
  bucket : PyStr
  objectKey : PyStr
  versionId : Option ℕ

/-- What `delete_object` raises. -/
inductive StorageError
  /-- `ClientError`, with the code of the response -/
  | clientError (code : PyStr)
  | other (message : PyStr)

/-- What a sweep finds around it. -/
structure Surroundings where
  rt : PyRuntime
  runs : RunKind → List Run
  snapshots : List ReportSnapshot
  /-- `delete_object` of a version -/
  deleteObject : ObjectName → Option ℕ → Except StorageError Unit

variable (env : Surroundings)

/-- `references_for` -/
def Surroundings.referencesFor (e : EvidenceId) : List PyStr :=
  (if (env.runs .ocr).any fun run => run.evidenceId = e then [py "OCR"] else []) ++
    (if (env.runs .analysis).any fun run => run.evidenceId = e then [py "analysis"] else []) ++
    if env.snapshots.any fun s => containsEvidenceId env.rt e.text s.snapshotJson then
      [py "historical report snapshot"]
    else []

/-- The codes by which the storage says that there is nothing to delete. -/
def missingCodes : List PyStr := [py "404", py "NoSuchKey", py "NoSuchVersion", py "NotFound"]

/-- `purge_storage`; that the version is gone already is a success too. -/
def Surroundings.purgeStorage (plan : EvidencePurgePlan) : Except StorageError Unit :=
  match env.deleteObject ⟨plan.bucket, plan.objectKey⟩ plan.versionId with
  | .error (.clientError code) =>
    if code ∈ missingCodes then pure () else throw (.clientError code)
  | outcome => outcome

/-- The plan of a row. -/
def EvidenceRow.plan (e : EvidenceId) (row : EvidenceRow) : EvidencePurgePlan where
  evidenceId := e
  bucket := row.bucket
  objectKey := row.objectKey
  versionId := row.versionId

/-- Nothing refers to the row. -/
def Surroundings.unreferenced (r : EvidenceId × EvidenceRow) : Bool := (env.referencesFor r.1).isEmpty

/-- The deletion of the version of the row succeeds. -/
def Surroundings.deletes (r : EvidenceId × EvidenceRow) : Bool :=
  (env.purgeStorage (r.2.plan r.1)).isOk

/-- The row as a sweep leaves it. -/
def EvidenceRow.purge (row : EvidenceRow) : EvidenceRow := { row with lifecycleState := .purged }

/-! ## The sweep -/

/-- A sweep, with the rows that it has attempted to purge. -/
structure Swept where
  rows : Dict EvidenceId EvidenceRow
  skippedIds : List EvidenceId
  attempted : List EvidenceId
  completed : ℕ

/-- The row is pending, and has not been skipped. -/
def isCandidate (skippedIds : List EvidenceId) (e : EvidenceId) (row : EvidenceRow) : Bool :=
  decide (row.lifecycleState = .purgePending) && decide (e ∉ skippedIds)

/-- A turn that finds a reference to the row. -/
def Swept.skip (pass : Swept) (e : EvidenceId) : Swept where
  rows := pass.rows
  skippedIds := e :: pass.skippedIds
  attempted := pass.attempted ++ [e]
  completed := pass.completed

/-- A turn that purges the row. -/
def Swept.complete (pass : Swept) (e : EvidenceId) : Swept where
  rows := Worklist.modify e EvidenceRow.purge pass.rows
  skippedIds := pass.skippedIds
  attempted := pass.attempted ++ [e]
  completed := pass.completed + 1

/-- A turn in which the deletion raises an exception. -/
def Swept.fail (pass : Swept) (e : EvidenceId) : Swept where
  rows := pass.rows
  skippedIds := pass.skippedIds
  attempted := pass.attempted ++ [e]
  completed := pass.completed

/-- A turn of the loop, unless no row is left. -/
def sweepTurn (pass : Swept) : Option Swept :=
  match Worklist.first EvidenceRow.sweepKey (isCandidate pass.skippedIds) pass.rows with
  | none => none
  | some (e, row) =>
    if env.referencesFor e ≠ [] then some (pass.skip e)
    else match env.purgeStorage (row.plan e) with
      | .ok () => some (pass.complete e)
      | .error _ => some (pass.fail e)

/-- `sweep_pending_purges`; the rows afterwards, and the number that it returns. -/
def sweepPendingPurges (limit : ℕ) (rows : Dict EvidenceId EvidenceRow) : Swept :=
  Worklist.loop (sweepTurn env) limit ⟨rows, [], [], 0⟩

/-! ## What a sweep should do -/

/-- The rows that are to be purged, in the order in which a sweep takes them. -/
def pendingPurges (rows : Dict EvidenceId EvidenceRow) : Dict EvidenceId EvidenceRow :=
  (Worklist.inOrder EvidenceRow.sweepKey rows).filter fun r => r.2.lifecycleState = .purgePending

/-- The row can be purged. -/
def Surroundings.purgeable (r : EvidenceId × EvidenceRow) : Bool :=
  env.unreferenced r && env.deletes r

/-- Nothing refers to the row, and its deletion fails. -/
def Surroundings.fails (r : EvidenceId × EvidenceRow) : Bool :=
  env.unreferenced r && !env.deletes r

/-- Each row is attempted at most once, those that can be purged are, and they are counted. -/
structure NotStarved (limit : ℕ) (rows : Dict EvidenceId EvidenceRow) : Prop where
  once : (sweepPendingPurges env limit rows).attempted.Nodup
  purged : ∀ r ∈ pendingPurges rows, env.purgeable r = true →
    (r.1, r.2.purge) ∈ (sweepPendingPurges env limit rows).rows
  counted : (sweepPendingPurges env limit rows).completed =
    ((pendingPurges rows).filter env.purgeable).length

/-! ## One turn -/

variable {env} {pass : Swept} {r : EvidenceId × EvidenceRow} {rest : Dict EvidenceId EvidenceRow}

/-- The rows that a sweep can still take, in the order in which it takes them. -/
def Swept.queue (pass : Swept) : Dict EvidenceId EvidenceRow :=
  Worklist.queue EvidenceRow.sweepKey (isCandidate pass.skippedIds) pass.rows

/-- The row as a sweep leaves it, if it is purged. -/
def Surroundings.settle (env : Surroundings) (e : EvidenceId) (row : EvidenceRow) : EvidenceRow :=
  if env.purgeable (e, row) then row.purge else row

lemma first_of_queue (h : pass.queue = r :: rest) :
    Worklist.first EvidenceRow.sweepKey (isCandidate pass.skippedIds) pass.rows = some r := by
  rw [Worklist.first_eq_head?, ← Swept.queue, h]
  rfl

/-- **A turn whose deletion does not fail settles the first row**, and leaves the others. -/
lemma sweepTurn_settles (env : Surroundings) :
    Worklist.Settles (sweepTurn env) Swept.rows Swept.queue Swept.attempted Swept.completed
      env.settle env.purgeable fun r => env.fails r = false where
  nodup := fun _ => Worklist.queue_keys_nodup
  stop := by
    intro pass h
    rw [sweepTurn, Worklist.first_eq_head?, ← Swept.queue, h]
    rfl
  settle := by
    intro pass r rest hnodup h hgood
    obtain ⟨e, row⟩ := r
    have hmem : (e, row) ∈ pass.rows := (Worklist.mem_queue.mp (h ▸ List.mem_cons_self)).1
    have hfirst := first_of_queue h
    by_cases hfree : env.unreferenced (e, row) = true
    · have hno : env.referencesFor e = [] := List.isEmpty_iff.mp hfree
      have hdeletes : env.deletes (e, row) = true := by
        simpa [Surroundings.fails, hfree] using hgood
      have hok : env.purgeStorage (row.plan e) = .ok () := by
        unfold Surroundings.deletes at hdeletes
        cases houtcome : env.purgeStorage (row.plan e) with
        | ok => rfl
        | error err =>
          rw [houtcome] at hdeletes
          cases hdeletes
      have hpurgeable : env.purgeable (e, row) = true := by
        simp [Surroundings.purgeable, hfree, hdeletes]
      have hsettle : row.purge = env.settle e row := by
        rw [Surroundings.settle, if_pos hpurgeable]
      have hrows : (pass.complete e).rows = Worklist.modifyAll env.settle [(e, row)] pass.rows :=
        Worklist.modify_eq_modifyAll (f := EvidenceRow.purge) hnodup hmem hsettle
      have hrest : (pass.complete e).queue = rest :=
        Worklist.queue_modify (f := EvidenceRow.purge) hnodup (fun _ => rfl) h (fun _ _ _ => rfl) rfl
      refine ⟨pass.complete e, ?_, hrows, hrest, rfl, ?_⟩
      · simp only [sweepTurn, hfirst, hno, hok, ne_eq, not_true_eq_false, if_false]
      · simp [hpurgeable, Swept.complete]
    · have hno : env.referencesFor e ≠ [] := fun hnil => hfree (List.isEmpty_iff.mpr hnil)
      have hpurgeable : env.purgeable (e, row) = false := by
        simp [Surroundings.purgeable, hfree]
      have hsettle : row = env.settle e row := by
        rw [Surroundings.settle, if_neg (by simp [hpurgeable])]
      have hrows : (pass.skip e).rows = Worklist.modifyAll env.settle [(e, row)] pass.rows := by
        rw [← Worklist.modify_eq_modifyAll (f := fun row => row) hnodup hmem hsettle,
          Worklist.modify_id]
        rfl
      have hrest : (pass.skip e).queue = rest := by
        have hothers : ∀ i r, i ≠ e →
            isCandidate (e :: pass.skippedIds) i r = isCandidate pass.skippedIds i r := by
          intro i r hi
          simp [isCandidate, hi]
        have hqueue := Worklist.queue_modify (f := fun row : EvidenceRow => row) hnodup
          (fun _ => rfl) h hothers (by simp [isCandidate])
        rwa [Worklist.modify_id] at hqueue
      refine ⟨pass.skip e, ?_, hrows, hrest, rfl, ?_⟩
      · simp only [sweepTurn, hfirst, ne_eq, hno, not_false_eq_true, if_true]
      · simp [hpurgeable, Swept.skip]

/-- A turn whose deletion fails changes nothing but the note of the attempt. -/
lemma sweepTurn_failed (h : pass.queue = r :: rest) (hfails : env.fails r = true) :
    sweepTurn env pass = some (pass.fail r.1) := by
  obtain ⟨hfree, hdeletes⟩ := Bool.and_eq_true_iff.mp hfails
  have hno : env.referencesFor r.1 = [] := List.isEmpty_iff.mp hfree
  unfold Surroundings.deletes at hdeletes
  cases houtcome : env.purgeStorage (r.2.plan r.1) with
  | ok =>
    rw [houtcome] at hdeletes
    cases hdeletes
  | error err =>
    simp only [sweepTurn, first_of_queue h, hno, houtcome, ne_eq, not_true_eq_false, if_false]

/-- **A row whose deletion fails is taken again and again**, as nothing excludes it. -/
lemma sweepTurns_failed (h : pass.queue = r :: rest) (hfails : env.fails r = true) (turns : ℕ) :
    Worklist.loop (sweepTurn env) turns pass =
      { pass with attempted := pass.attempted ++ List.replicate turns r.1 } := by
  induction turns generalizing pass with
  | zero => simp
  | succ turns ih =>
    have hqueue : (pass.fail r.1).queue = r :: rest := h
    rw [Worklist.loop_succ (sweepTurn_failed h hfails), ih hqueue, Swept.fail]
    simp only [List.append_assoc, List.singleton_append, ← List.replicate_succ]

/-! ## The whole sweep -/

variable {limit : ℕ} {rows : Dict EvidenceId EvidenceRow}

lemma queue_init : Swept.queue ⟨rows, [], [], 0⟩ = pendingPurges rows := by
  unfold Swept.queue pendingPurges Worklist.queue
  refine List.filter_congr fun r _ => ?_
  simp [isCandidate]

lemma pendingPurges_nodup (hids : (rows.map (·.1)).Nodup) :
    ((pendingPurges rows).map (·.1)).Nodup := by
  rw [← queue_init]
  exact Worklist.queue_keys_nodup hids

lemma mem_of_mem_pendingPurges (hr : r ∈ pendingPurges rows) : r ∈ rows :=
  Worklist.perm_inOrder.mem_iff.mp (List.mem_of_mem_filter hr)

/-- What a sweep has done before the first row whose deletion fails. -/
lemma sweepTurns_done {done left : Dict EvidenceId EvidenceRow} (hids : (rows.map (·.1)).Nodup)
    (hpending : pendingPurges rows = done ++ left) (hdone : ∀ r ∈ done, env.fails r = false) :
    ∃ pass, Worklist.loop (sweepTurn env) done.length ⟨rows, [], [], 0⟩ = pass ∧
      pass.rows = Worklist.modifyAll env.settle done rows ∧ pass.queue = left ∧
      pass.attempted = done.map (·.1) ∧ pass.completed = done.countP env.purgeable := by
  have htake : (Swept.queue ⟨rows, [], [], 0⟩).take done.length = done := by
    rw [queue_init, hpending, List.take_left]
  have hdrop : (Swept.queue ⟨rows, [], [], 0⟩).drop done.length = left := by
    rw [queue_init, hpending, List.drop_left]
  obtain ⟨hrows, hqueue, hattempted, hcompleted⟩ :=
    (sweepTurn_settles env).loop done.length (s := ⟨rows, [], [], 0⟩) hids (by rwa [htake])
  rw [htake] at hrows hattempted hcompleted
  rw [hdrop] at hqueue
  exact ⟨_, rfl, hrows, hqueue, hattempted, hcompleted.trans (Nat.zero_add _)⟩

/-- What has been settled of the rows that can be purged is purged. -/
lemma purge_mem_modifyAll {done : Dict EvidenceId EvidenceRow} (hr : r ∈ rows) (hdone : r ∈ done)
    (hpurgeable : env.purgeable r = true) :
    (r.1, r.2.purge) ∈ Worklist.modifyAll env.settle done rows := by
  refine List.mem_map.mpr ⟨r, hr, ?_⟩
  rw [if_pos (List.mem_map_of_mem hdone), Surroundings.settle, if_pos hpurgeable]

/-- A sweep in which no deletion fails. -/
lemma notStarved_of_no_failure (hids : (rows.map (·.1)).Nodup)
    (hlimit : (pendingPurges rows).length ≤ limit)
    (hdone : ∀ r ∈ pendingPurges rows, env.fails r = false) : NotStarved env limit rows := by
  obtain ⟨pass, hpass, hrows, hqueue, hattempted, hcompleted⟩ :=
    sweepTurns_done hids (List.append_nil _).symm hdone
  obtain ⟨turns, rfl⟩ := Nat.exists_eq_add_of_le hlimit
  have hsweep : sweepPendingPurges env ((pendingPurges rows).length + turns) rows = pass := by
    rw [sweepPendingPurges, Worklist.loop_add, hpass]
    exact Worklist.loop_of_none ((sweepTurn_settles env).stop pass hqueue) turns
  refine ⟨?_, fun r hr hpurgeable => ?_, ?_⟩
  · rw [hsweep, hattempted]
    exact pendingPurges_nodup hids
  · rw [hsweep, hrows]
    exact purge_mem_modifyAll (mem_of_mem_pendingPurges hr) hr hpurgeable
  · rw [hsweep, hcompleted, List.countP_eq_length_filter]

/-- A sweep in which a deletion fails takes that row in all the turns that are left. -/
lemma sweepPendingPurges_failed {done : Dict EvidenceId EvidenceRow} (hids : (rows.map (·.1)).Nodup)
    (hpending : pendingPurges rows = done ++ r :: rest) (hdone : ∀ r ∈ done, env.fails r = false)
    (hfails : env.fails r = true) (turns : ℕ) :
    (sweepPendingPurges env (done.length + turns) rows).rows =
        Worklist.modifyAll env.settle done rows ∧
      (sweepPendingPurges env (done.length + turns) rows).attempted =
        done.map (·.1) ++ List.replicate turns r.1 ∧
      (sweepPendingPurges env (done.length + turns) rows).completed =
        done.countP env.purgeable := by
  obtain ⟨pass, hpass, hrows, hqueue, hattempted, hcompleted⟩ := sweepTurns_done hids hpending hdone
  have hsweep : sweepPendingPurges env (done.length + turns) rows =
      { pass with attempted := pass.attempted ++ List.replicate turns r.1 } := by
    rw [sweepPendingPurges, Worklist.loop_add, hpass, sweepTurns_failed hqueue hfails]
  rw [hsweep, ← hattempted]
  exact ⟨hrows, rfl, hcompleted⟩

/-- A sweep in which the deletion of the last row fails. -/
lemma notStarved_of_last_failure {done : Dict EvidenceId EvidenceRow}
    (hids : (rows.map (·.1)).Nodup) (hpending : pendingPurges rows = done ++ [r])
    (hdone : ∀ r ∈ done, env.fails r = false) (hfails : env.fails r = true) :
    NotStarved env (done.length + 1) rows := by
  obtain ⟨hrows, hattempted, hcompleted⟩ :=
    sweepPendingPurges_failed hids hpending hdone hfails 1
  have hnot : env.purgeable r = false := by
    obtain ⟨-, hdeletes⟩ := Bool.and_eq_true_iff.mp hfails
    rw [Bool.not_eq_true'] at hdeletes
    rw [Surroundings.purgeable, hdeletes, Bool.and_false]
  refine ⟨?_, fun other hother hpurgeable => ?_, ?_⟩
  · have hnodup := pendingPurges_nodup hids
    rw [hpending, List.map_append] at hnodup
    rwa [hattempted]
  · rw [hrows]
    refine purge_mem_modifyAll (mem_of_mem_pendingPurges hother) ?_ hpurgeable
    rw [hpending] at hother
    refine (List.mem_append.mp hother).resolve_right fun hlast => ?_
    rw [List.mem_singleton.mp hlast, hnot] at hpurgeable
    cases hpurgeable
  · rw [hcompleted, hpending, List.filter_append, List.filter_cons_of_neg (by simp [hnot]),
      List.filter_nil, List.append_nil, List.countP_eq_length_filter]

/-- **When a sweep is not starved.** For every table of evidence with different ids, whatever refers
to it and whichever deletions fail, and for every limit that is not below the number of pending
purges: each row is attempted at most once, every row that nothing refers to and whose deletion
succeeds is purged, and their number is returned, exactly if no deletion of a row that nothing
refers to fails but that of the last one, in the order of the sweep, and this only if the limit is
the number of pending purges. -/
theorem notStarved_iff (env : Surroundings) (limit : ℕ) (rows : Dict EvidenceId EvidenceRow)
    (hids : (rows.map (·.1)).Nodup) (hlimit : (pendingPurges rows).length ≤ limit) :
    NotStarved env limit rows ↔
      ∀ r ∈ pendingPurges rows, env.unreferenced r = true → env.deletes r = false →
        limit = (pendingPurges rows).length ∧ (pendingPurges rows).getLast? = some r := by
  have hfailsIff : ∀ r, env.fails r = true ↔ env.unreferenced r = true ∧ env.deletes r = false := by
    intro r
    rw [Surroundings.fails, Bool.and_eq_true, Bool.not_eq_true']
  cases hfind : (pendingPurges rows).find? env.fails with
  | none =>
    have hdone : ∀ r ∈ pendingPurges rows, env.fails r = false := by
      intro r hr
      simpa using List.find?_eq_none.mp hfind r hr
    refine iff_of_true (notStarved_of_no_failure hids hlimit hdone) fun r hr hfree hdeletes => ?_
    have hfails := (hfailsIff r).mpr ⟨hfree, hdeletes⟩
    rw [hdone r hr] at hfails
    cases hfails
  | some r =>
    obtain ⟨hfails, done, rest, hpending, hdone⟩ := List.find?_eq_some_iff_append.mp hfind
    have hdone' : ∀ r ∈ done, env.fails r = false := fun r hr => by simpa using hdone r hr
    have hnodup := pendingPurges_nodup hids
    rw [hpending, List.map_append, List.map_cons] at hnodup
    rw [hpending, List.length_append, List.length_cons] at hlimit
    constructor
    · intro hstarved other hother hfree hdeletes
      -- the row is taken in every turn from its own on, so there is one such turn
      obtain ⟨turns, hturns⟩ := Nat.exists_eq_add_of_le
        (show done.length ≤ limit by omega)
      have honce := hstarved.once
      rw [hturns, (sweepPendingPurges_failed hids hpending hdone' hfails turns).2.1] at honce
      have hone : turns ≤ 1 := List.nodup_replicate.mp (List.nodup_append.mp honce).2.1
      have hrest : rest = [] := List.eq_nil_of_length_eq_zero (by omega)
      rw [hpending, hrest] at hother ⊢
      have hlast : other = r := by
        refine List.mem_singleton.mp ((List.mem_append.mp hother).resolve_left fun hearly => ?_)
        have hfails' := (hfailsIff other).mpr ⟨hfree, hdeletes⟩
        rw [hdone' other hearly] at hfails'
        cases hfails'
      refine ⟨?_, by rw [hlast, List.getLast?_concat]⟩
      rw [List.length_append, List.length_singleton]
      rw [hrest, List.length_nil] at hlimit
      omega
    · intro hcondition
      have hmem : r ∈ pendingPurges rows := List.mem_of_find?_eq_some hfind
      obtain ⟨hfree, hdeletes⟩ := (hfailsIff r).mp hfails
      obtain ⟨hlimit', hlast⟩ := hcondition r hmem hfree hdeletes
      have hrest : rest = [] := by
        by_contra hne
        rw [hpending, List.getLast?_append_of_ne_nil _ (List.cons_ne_nil _ _),
          List.getLast?_cons_of_ne_nil hne] at hlast
        have hdup : r.1 ∈ rest.map (·.1) := List.mem_map_of_mem (List.mem_of_getLast? hlast)
        exact (List.nodup_cons.mp (List.nodup_append.mp hnodup).2.1).1 hdup
      rw [hrest] at hpending
      rw [hlimit', hpending, List.length_append, List.length_singleton]
      exact notStarved_of_last_failure hids hpending hdone' hfails

/-! ## Two rows -/

/-- The id of evidence that is named by a letter. -/
def letterId (c : ℕ) (h : c ≠ 47) : EvidenceId := ⟨[c], by simp [h.symm]⟩

/-- A log that is to be purged. -/
def pendingLog (objectKey : PyStr) (deletedAt : ℕ) : EvidenceRow where
  incidentId := none
  evidenceType := .log
  bucket := py "noc-evidence"
  objectKey := objectKey
  originalFilename := py "pending.log"
  mimeType := none
  byteSize := none
  sha256 := none
  versionId := none
  uploadedBy := none
  lifecycleState := .purgePending
  deletedAt := some deletedAt
  createdAt := 0

/-- Two logs, the second of which was deleted first. -/
def twoLogs : Dict EvidenceId EvidenceRow :=
  [(letterId 97 (by decide), pendingLog (py "a.log") 2),
    (letterId 98 (by decide), pendingLog (py "b.log") 1)]

/-- A storage that does not answer for one object; another object is gone already. -/
def offlineFor (objectKey : PyStr) : Surroundings where
  rt := ⟨fun _ => [], fun _ => none, fun _ => []⟩
  runs := fun _ => []
  snapshots := []
  deleteObject := fun object _ =>
    if object.key = objectKey then .error (.other (py "MinIO offline"))
    else .error (.clientError (py "NoSuchKey"))

/-- `notStarved_iff` at two logs of which the one that is taken last fails. -/
theorem twoLogs_notStarved : NotStarved (offlineFor (py "a.log")) 2 twoLogs :=
  (notStarved_iff (offlineFor (py "a.log")) 2 twoLogs (by decide) (by decide)).mpr (by decide)

/-- **A sweep that is starved**: the log that was deleted first takes both turns. -/
theorem twoLogs_starved :
    (pendingPurges twoLogs).length ≤ 2 ∧ ¬ NotStarved (offlineFor (py "b.log")) 2 twoLogs := by
  refine ⟨by decide, fun h => ?_⟩
  have honce := h.once
  revert honce
  decide

end Purge
