import Mathlib.Data.Nat.Notation
import Mathlib.Data.Option.Basic

set_option relaxedAutoImplicit false
set_option autoImplicit false

/-!
# The `jobs` row and the statements that update it

The worker's database statements (`bridge/noc_bridge/db.py`) and the row reset of the admin's
DLQ requeue, each as a function of one row. A statement with a `WHERE` clause returns the row
it leaves and whether it matched. The columns no statement reads (`worker_id`, `error_code`,
the timestamps) are not part of the row.

## Main definitions

* `Jobs.JobRow` — the columns the lifecycle reads.
* `Jobs.JobRow.markCompleted`, `markFailed`, `markRetrying`, `bumpAttempt`, `claimUpdate`,
  `renewJobLease` — the `UPDATE` statements of `db.py`.
* `Jobs.classifyClaim` — the disposition `claim_job` returns when its `UPDATE` matched nothing.
* `Jobs.JobRow.requeueReset` — the reconciliation of `requeue_dlq`.

## Main results

* `Jobs.JobRow.claimable_of_not_live` — a row is claimable unless it is completed or leased.
* `Jobs.claimable_of_classifyClaim` — which rows a failed claim gives up on.
-/

namespace Jobs

/-- The values of `jobs.status`. -/
inductive JobStatus
  | queued | processing | retrying | completed | failed
  deriving DecidableEq, Repr

/-- A claim token, one `uuid4` for each successful claim. -/
abbrev Token := ℕ

/-- A row of `jobs`, with the columns the lifecycle reads. -/
structure JobRow where
  status : JobStatus
  attempt : ℕ
  claimToken : Option Token
  leaseExpiresAt : Option ℕ
  deriving DecidableEq, Repr

/-- The row `enqueue_job` inserts. -/
def JobRow.fresh : JobRow := ⟨.queued, 1, none, none⟩

/-- The outcomes of `claim_job`. -/
inductive JobClaimDisposition
  | claimed | alreadyCompleted | leaseBusy | notClaimable
  deriving DecidableEq, Repr

namespace JobRow

/-- The guard `WHERE id = … [AND claim_token = …]` of `mark_completed` and `mark_failed`: the
token is compared only when the caller passes one. -/
def tokenMatches (row : JobRow) : Option Token → Bool
  | none => true
  | some tok => row.claimToken == some tok

/-- `mark_completed`. -/
def markCompleted (row : JobRow) (claimToken : Option Token) : JobRow × Bool :=
  if row.tokenMatches claimToken then
    ({ row with status := .completed, claimToken := none, leaseExpiresAt := none }, true)
  else (row, false)

/-- `mark_failed`. -/
def markFailed (row : JobRow) (claimToken : Option Token) : JobRow × Bool :=
  if row.tokenMatches claimToken then
    ({ row with status := .failed, claimToken := none, leaseExpiresAt := none }, true)
  else (row, false)

/-- `mark_retrying`: its `WHERE` clause names the job only. -/
def markRetrying (row : JobRow) : JobRow :=
  { row with status := .retrying, claimToken := none, leaseExpiresAt := none }

/-- `bump_attempt`. -/
def bumpAttempt (row : JobRow) (attempt : ℕ) : JobRow := { row with attempt := attempt }

/-- The lease is over: `lease_expires_at IS NULL OR lease_expires_at < now`. -/
def leaseExpired (row : JobRow) (now : ℕ) : Bool :=
  match row.leaseExpiresAt with
  | none => true
  | some expires => expires < now

/-- The `WHERE` clause of the claiming `UPDATE` of `claim_job`. -/
def claimable (row : JobRow) (now : ℕ) : Bool :=
  row.status != .completed &&
    ((row.status == .queued || row.status == .failed || row.status == .retrying) ||
      (row.status == .processing && row.leaseExpired now))

/-- The claiming `UPDATE` of `claim_job`: `none` when it returns no row. -/
def claimUpdate (row : JobRow) (now leaseSeconds : ℕ) (tok : Token) : Option JobRow :=
  if row.claimable now then
    some { row with
      status := .processing, claimToken := some tok, leaseExpiresAt := some (now + leaseSeconds) }
  else none

/-- `renew_job_lease`. -/
def renewJobLease (row : JobRow) (now leaseSeconds : ℕ) (tok : Token) : JobRow × Bool :=
  if row.status == .processing && row.claimToken == some tok then
    ({ row with leaseExpiresAt := some (now + leaseSeconds) }, true)
  else (row, false)

/-- The reconciliation of `requeue_dlq`, under the row lock: a row that a worker has already
claimed or completed is left alone. -/
def requeueReset (row : JobRow) : JobRow :=
  if row.status = .failed ∨ row.status = .retrying ∨ row.status = .queued then
    ⟨.queued, 1, none, none⟩
  else row

/-- The row is `PROCESSING` under token `tok` with an unexpired lease. -/
def Leased (row : JobRow) (tok : Token) (now : ℕ) : Prop :=
  row.status = .processing ∧ row.claimToken = some tok ∧ row.leaseExpired now = false

/-- The part of the row a lease protects. -/
def lease (row : JobRow) : JobStatus × Option Token × Option ℕ :=
  (row.status, row.claimToken, row.leaseExpiresAt)

end JobRow

/-- The disposition `claim_job` returns after its `UPDATE` matched no row, from the row its
locking `SELECT` reads and the `now` of the `UPDATE`. -/
def classifyClaim (current : Option JobRow) (now : ℕ) : JobClaimDisposition :=
  match current with
  | none => .notClaimable
  | some row =>
    if row.status = .completed then .alreadyCompleted
    else if row.status = .processing then
      match row.leaseExpiresAt with
      | some expires => if expires ≥ now then .leaseBusy else .notClaimable
      | none => .notClaimable
    else .notClaimable

/-! ## What each statement does -/

namespace JobRow

variable {row row' : JobRow} {now secs : ℕ} {tok : Token}

@[simp] lemma tokenMatches_some : row.tokenMatches (some tok) = true ↔ row.claimToken = some tok := by
  simp [tokenMatches]

/-- A claim succeeds only on a claimable row. -/
lemma claimUpdate_eq_some (h : row.claimUpdate now secs tok = some row') :
    row.claimable now = true ∧ row'.status = .processing ∧ row'.claimToken = some tok ∧
      row'.leaseExpiresAt = some (now + secs) := by
  unfold claimUpdate at h
  split at h
  · next hc => cases h; exact ⟨hc, rfl, rfl, rfl⟩
  · cases h

lemma claimUpdate_eq_none (h : row.claimUpdate now secs tok = none) :
    row.claimable now = false := by
  unfold claimUpdate at h
  split at h
  · cases h
  · next hc => simpa using hc

/-- A completed row is never claimable. -/
lemma status_ne_completed_of_claimable (h : row.claimable now = true) :
    row.status ≠ .completed := by
  simp only [claimable, Bool.and_eq_true, bne_iff_ne, ne_eq] at h
  exact h.1

/-- A live lease keeps every claim out. -/
lemma not_claimable_of_leased (h : row.Leased tok now) : row.claimable now = false := by
  obtain ⟨hs, -, hl⟩ := h
  simp [claimable, hs, hl]

/-- A row that is neither completed nor under a live lease is claimable. -/
lemma claimable_of_not_live (hc : row.status ≠ .completed)
    (hl : row.status = .processing → row.leaseExpired now = true) : row.claimable now = true := by
  cases hs : row.status with
  | completed => exact absurd hs hc
  | processing => simp [claimable, hs, hl hs]
  | queued => simp [claimable, hs]
  | failed => simp [claimable, hs]
  | retrying => simp [claimable, hs]

lemma requeueReset_of_completed (h : row.status = .completed) : row.requeueReset = row := by
  simp [requeueReset, h]

lemma requeueReset_of_processing (h : row.status = .processing) : row.requeueReset = row := by
  simp [requeueReset, h]

/-- The reset leaves no token behind that the row did not have. -/
lemma requeueReset_claimToken (h : row.requeueReset.claimToken = some tok) :
    row.claimToken = some tok := by
  unfold requeueReset at h
  split at h
  · cases h
  · exact h

end JobRow

/-- A row that is not completed and that a failed claim does not find busy has become claimable
since the `UPDATE`, or its lease had ended before. -/
lemma claimable_of_classifyClaim {row : JobRow} {now : ℕ} (hc : row.status ≠ .completed)
    (hb : classifyClaim (some row) now ≠ .leaseBusy) : row.claimable now = true := by
  apply JobRow.claimable_of_not_live hc
  intro hp
  simp only [classifyClaim, if_neg hc, if_pos hp] at hb
  cases hl : row.leaseExpiresAt with
  | none => simp [JobRow.leaseExpired, hl]
  | some expires =>
    simp only [hl] at hb
    simp only [JobRow.leaseExpired, hl, decide_eq_true_eq]
    by_contra hge
    simp [Nat.le_of_not_lt hge] at hb

end Jobs
