import NocReport.Jobs.System

set_option relaxedAutoImplicit false
set_option autoImplicit false

/-!
# Completed jobs and live leases

Two properties of the `jobs` row over whole runs of the job system: that `COMPLETED` is a final
status, and that a live lease keeps every other worker's statements off the row. Every
statement is guarded so as to keep both, by the status, by the claim token or by the row lock,
except `mark_retrying`, whose `WHERE` clause names the job alone.

## Main definitions

* `Jobs.MarksCompleted`, `Jobs.MarksLeased` — a `mark_retrying` on a completed row, and on a
  row under another worker's live lease.
* `Jobs.LeaseFrame` — a step leaves the leased rows of other workers alone.

## Main results

* `Jobs.completed_absorbing_iff` — `COMPLETED` is final along a run exactly when no
  `mark_retrying` of the run finds a completed row.
* `Jobs.completed_not_absorbing` — it is not final along every run.
* `Jobs.lease_exclusive_iff` — leases are exclusive along a run exactly when no
  `mark_retrying` of the run finds a row under another worker's live lease.
* `Jobs.lease_not_exclusive` — they are not exclusive along every run.
-/

namespace Jobs

open Transition

variable {cfg : Config} {s s' : State} {a : Action}

/-- The row of `j` is `COMPLETED`. -/
def State.Completed (s : State) (j : JobId) : Prop :=
  ∃ row, s.jobs j = some row ∧ row.status = .completed

/-- The status of job `j` after a run from the empty system. -/
def statusAfter (cfg : Config) (as : List Action) (j : JobId) : Option JobStatus :=
  ((run (step cfg) .init as).bind fun s => s.jobs j).map (·.status)

/-! ## Completed jobs stay completed -/

/-- A completed row carries no claim token: `mark_completed` clears it, and only a claim, which
a completed row refuses, sets one. -/
def CompletedUnclaimed (s : State) : Prop :=
  ∀ j row, s.jobs j = some row → row.status = .completed → row.claimToken = none

lemma completedUnclaimed_init : CompletedUnclaimed .init := by
  intro j row h
  cases h

lemma completedUnclaimed_step (hs : CompletedUnclaimed s) (h : step cfg s a = some s') :
    CompletedUnclaimed s' := by
  intro j row' hr' hc'
  have hchange := step_rowChange h j
  rw [hr'] at hchange
  generalize hr : s.jobs j = r at hchange
  cases hchange with
  | same => exact hs j row' hr hc'
  | insert => rfl
  | claim w m tok row _ _ _ _ _ hrow =>
    obtain ⟨-, hp, -⟩ := JobRow.claimUpdate_eq_some hrow
    rw [hp] at hc'
    cases hc'
  | complete w m tok row _ _ _ htok => simp [JobRow.markCompleted, htok]
  | fail w m tok _ row _ _ _ htok => simp [JobRow.markFailed, htok]
  | mark => rfl
  | bump n row => exact hs j row hr hc'
  | renew w m p tok row =>
    unfold JobRow.renewJobLease at hc' ⊢
    split at hc'
    · next hrow =>
      simp only [Bool.and_eq_true, beq_iff_eq] at hrow
      rw [hrow.1] at hc'
      cases hc'
    · next hrow =>
      rw [if_neg hrow]
      exact hs j row hr hc'
  | reset row =>
    unfold JobRow.requeueReset at hc' ⊢
    split at hc'
    · cases hc'
    · next hrow =>
      rw [if_neg hrow]
      exact hs j row hr hc'

/-- The step is a `mark_retrying` on a completed row. -/
def MarksCompleted (s : State) (a : Action) : Prop :=
  ∃ w m tok, a = .worker w .proceed ∧ s.handlers w = some ⟨m, .marking tok⟩ ∧ s.Completed m.job

/-- The same as a test. -/
def marksCompleted (s : State) : Action → Bool
  | .worker w .proceed =>
    match s.handlers w with
    | some ⟨m, .marking _⟩ => (s.jobs m.job).any (·.status == .completed)
    | _ => false
  | _ => false

lemma marksCompleted_iff {s : State} {a : Action} :
    marksCompleted s a = true ↔ MarksCompleted s a := by
  constructor
  · intro h
    unfold marksCompleted at h
    split at h
    · next w =>
      split at h
      · next m tok hw =>
        cases hr : s.jobs m.job with
        | none =>
          rw [hr] at h
          cases h
        | some row =>
          rw [hr] at h
          exact ⟨w, m, tok, rfl, hw, row, hr, by simpa using h⟩
      · cases h
    · cases h
  · rintro ⟨w, m, tok, rfl, hw, row, hr, hc⟩
    simp [marksCompleted, hw, hr, hc]

instance (s : State) (a : Action) : Decidable (MarksCompleted s a) :=
  decidable_of_iff _ marksCompleted_iff

/-- A step that is not a `mark_retrying` on a completed row keeps completed rows completed.

**Proof sketch.** A claim refuses a completed row, the token-guarded statements miss it since
it has no token, and the reset of a requeue leaves it alone. -/
lemma completed_step (hs : CompletedUnclaimed s) (ha : ¬ MarksCompleted s a)
    (h : step cfg s a = some s') {j : JobId} (hj : s.Completed j) : s'.Completed j := by
  obtain ⟨row, hr, hc⟩ := hj
  have htok := hs j row hr hc
  have hchange := step_rowChange h j
  rw [hr] at hchange
  generalize hr' : s'.jobs j = r' at hchange
  cases hchange with
  | same => exact ⟨row, hr', hc⟩
  | claim w m tok _ row' _ _ _ _ hrow =>
    exact absurd hc (JobRow.status_ne_completed_of_claimable (JobRow.claimUpdate_eq_some hrow).1)
  | complete w m tok _ _ _ _ ht =>
    rw [htok] at ht
    cases ht
  | fail w m tok _ _ _ _ _ ht =>
    rw [htok] at ht
    cases ht
  | mark w m tok _ haw hw hm =>
    subst hm
    exact absurd ⟨w, m, tok, haw, hw, row, hr, hc⟩ ha
  | bump n => exact ⟨_, hr', hc⟩
  | renew w m p tok =>
    refine ⟨_, hr', ?_⟩
    simp [JobRow.renewJobLease, hc]
  | reset => exact ⟨_, hr', by rw [JobRow.requeueReset_of_completed hc, hc]⟩

/-- The step a worker takes when `mark_retrying` is next. -/
lemma step_marking (cfg : Config) {w : WorkerId} {m : Message} {tok : Token}
    (hw : s.handlers w = some ⟨m, .marking tok⟩) :
    step cfg s (.worker w .proceed) =
      some ((s.updateJob m.job (·.markRetrying)).setPhase w m .acking) := by
  simp [step, hw, workerStep]

/-- `mark_retrying` leaves a row that exists in status `RETRYING`, without token and lease. -/
lemma jobs_marking {w : WorkerId} {m : Message} {tok : Token} {row : JobRow}
    (hw : s.handlers w = some ⟨m, .marking tok⟩) (hr : s.jobs m.job = some row)
    (h : step cfg s (.worker w .proceed) = some s') : s'.jobs m.job = some row.markRetrying := by
  rw [step_marking cfg hw] at h
  cases h
  simp [State.updateJob, hr]

/-- **When `COMPLETED` is final.** Along a run of the system, every completed job stays
completed if and only if no `mark_retrying` of the run is executed on a completed row. -/
theorem completed_absorbing_iff (cfg : Config) (as : List Action) :
    (∀ j, StaysTrue (step cfg) (fun s => s.Completed j) .init as) ↔
      EveryStep (step cfg) (fun s a => ¬ MarksCompleted s a) .init as := by
  constructor
  · intro h pre a post s has hs
    rintro ⟨w, m, tok, rfl, hw, row, hr, hc⟩
    have hkeep := everyStep_of_staysTrue (h m.job) pre _ post s has hs
    obtain ⟨row', hr', hc'⟩ := hkeep _ (step_marking cfg hw) ⟨row, hr, hc⟩
    rw [jobs_marking hw hr (step_marking cfg hw)] at hr'
    cases hr'
    cases hc'
  · intro h j
    exact staysTrue_of_everyStep (fun s a t hs _ ht => completedUnclaimed_step hs ht)
      (fun s a t hs ha ht hj => completed_step hs ha ht hj) completedUnclaimed_init h

/-- One enqueued job, dispatched and delivered to worker `0`, which fails it and publishes its
retry; the retry's TTL expires before worker `0` reaches `mark_retrying`, and worker `1`
completes the job. -/
def lateMarkRun : List Action :=
  [.enqueue 0, .dispatchPublish 0, .dispatchMark 0, .deliver 0 (.dispatched 0),
    .worker 0 (.claim 0), .worker 0 .proceed, .worker 0 (.raise false), .worker 0 .proceed,
    .worker 0 .proceed, .worker 0 .proceed, .expireRetry (Message.dispatched 0).retryCopy,
    .deliver 1 (Message.dispatched 0).retryCopy, .worker 1 (.claim 1), .worker 1 .proceed,
    .worker 1 .succeed, .worker 1 .proceed]

/-- `COMPLETED` is not final: after `lateMarkRun` the job is completed, and the pending
`mark_retrying` of worker `0` makes it `RETRYING`. -/
theorem completed_not_absorbing :
    ¬ ∀ (cfg : Config) (as : List Action) (j : JobId),
      StaysTrue (step cfg) (fun s => s.Completed j) .init as := by
  intro h
  have h1 : statusAfter ⟨3, 900⟩ lateMarkRun 0 = some .completed := by decide
  have h2 : statusAfter ⟨3, 900⟩ (lateMarkRun ++ [.worker 0 .proceed]) 0 = some .retrying := by
    decide
  simp only [statusAfter, run_append] at h1 h2
  cases hs : run (step ⟨3, 900⟩) .init lateMarkRun with
  | none =>
    rw [hs] at h1
    cases h1
  | some s =>
    rw [hs] at h1 h2
    simp only [Option.bind_some] at h1 h2
    obtain ⟨row, hrow, hc⟩ := Option.map_eq_some_iff.mp h1
    cases hs' : run (step ⟨3, 900⟩) s [.worker 0 .proceed] with
    | none =>
      rw [hs'] at h2
      cases h2
    | some s' =>
      rw [hs'] at h2
      obtain ⟨row', hrow', hc'⟩ := Option.map_eq_some_iff.mp h2
      obtain ⟨row'', hrow'', hc''⟩ :=
        h ⟨3, 900⟩ (lateMarkRun ++ [.worker 0 .proceed]) 0 lateMarkRun [.worker 0 .proceed] []
          s s' (by simp) hs hs' ⟨row, hrow, hc⟩
      rw [Option.bind_some] at hrow'
      rw [hrow'] at hrow''
      cases hrow''
      rw [hc'] at hc''
      cases hc''

/-! ## Live leases are exclusive -/

/-- The claim token worker `w` holds. -/
def State.ownToken (s : State) (w : WorkerId) : Option Token :=
  (s.handlers w).bind (·.phase.token?)

/-- The step `a` leaves status, token and lease of every row under a live lease unchanged,
unless it is a step of the worker that holds the row's token. -/
def LeaseFrame (cfg : Config) (s : State) (a : Action) : Prop :=
  ∀ s' j row tok, step cfg s a = some s' → s.jobs j = some row → row.Leased tok s.clock →
    (∀ w b, a = .worker w b → s.ownToken w ≠ some tok) →
    (s'.jobs j).map (·.lease) = some row.lease

/-- The step is a `mark_retrying` on a row under the live lease of another worker. -/
def MarksLeased (s : State) (a : Action) : Prop :=
  ∃ w m tok row tok', a = .worker w .proceed ∧ s.handlers w = some ⟨m, .marking tok⟩ ∧
    s.jobs m.job = some row ∧ row.Leased tok' s.clock ∧ tok ≠ tok'

lemma ownToken_eq {w : WorkerId} {m : Message} {p : Phase} (hw : s.handlers w = some ⟨m, p⟩) :
    s.ownToken w = p.token? := by
  simp [State.ownToken, hw]

/-- A step respects live leases unless it is a `mark_retrying` on a leased row.

**Proof sketch.** A claim refuses a leased row; completion, failure and renewal compare the
token of the row with the worker's own, which is another one; a new attempt count and the reset
of a requeue leave the lease alone. -/
lemma leaseFrame_of_not_marksLeased (ha : ¬ MarksLeased s a) : LeaseFrame cfg s a := by
  intro s' j row tok h hr hl hown
  obtain ⟨hp, htok, hlive⟩ := hl
  have hl : row.Leased tok s.clock := ⟨hp, htok, hlive⟩
  have hchange := step_rowChange h j
  rw [hr] at hchange
  generalize s'.jobs j = r' at hchange
  cases hchange with
  | same => rfl
  | claim w m t _ row' _ _ _ _ hrow =>
    have hc := (JobRow.claimUpdate_eq_some hrow).1
    rw [JobRow.not_claimable_of_leased hl] at hc
    cases hc
  | complete w m t _ haw hw _ ht =>
    have hne := hown w _ haw
    rw [ownToken_eq hw] at hne
    exact absurd (by rw [← htok, ht]; rfl) hne
  | fail w m t _ _ haw hw _ ht =>
    have hne := hown w _ haw
    rw [ownToken_eq hw] at hne
    exact absurd (by rw [← htok, ht]; rfl) hne
  | mark w m t _ haw hw hm =>
    subst hm
    have hne := hown w _ haw
    rw [ownToken_eq hw] at hne
    exact absurd ⟨w, m, t, row, tok, haw, hw, hr, hl, fun ht => hne (by rw [ht]; rfl)⟩ ha
  | bump => rfl
  | renew w m p t _ haw hw hpt =>
    have hne := hown w _ haw
    rw [ownToken_eq hw, hpt] at hne
    have hmiss : row.claimToken ≠ some t := by rw [htok]; exact hne.symm
    simp [JobRow.renewJobLease, hmiss]
  | reset => simp [JobRow.requeueReset_of_processing hp]

/-- A `mark_retrying` on a row under another worker's live lease does not respect the lease. -/
lemma not_leaseFrame_of_marksLeased (h : MarksLeased s a) : ¬ LeaseFrame cfg s a := by
  obtain ⟨w, m, tok, row, tok', rfl, hw, hr, hl, hne⟩ := h
  intro hframe
  have hkept := hframe _ m.job row tok' (step_marking cfg hw) hr hl (by
    rintro w' b h hown
    cases h
    rw [ownToken_eq hw] at hown
    exact hne (Option.some.inj hown))
  rw [jobs_marking hw hr (step_marking cfg hw)] at hkept
  simp only [Option.map_some, Option.some.injEq, JobRow.lease, JobRow.markRetrying,
    Prod.mk.injEq] at hkept
  rw [hl.1] at hkept
  cases hkept.1

/-- **When leases are exclusive.** Along a run of the system, every step respects the live
leases of other workers if and only if no `mark_retrying` of the run is executed on a row under
another worker's live lease. -/
theorem lease_exclusive_iff (cfg : Config) (as : List Action) :
    EveryStep (step cfg) (LeaseFrame cfg) .init as ↔
      EveryStep (step cfg) (fun s a => ¬ MarksLeased s a) .init as := by
  constructor
  · exact fun h => h.mono fun s a hframe hm => not_leaseFrame_of_marksLeased hm hframe
  · exact fun h => h.mono fun s a => leaseFrame_of_not_marksLeased

/-- `lateMarkRun` up to the point where worker `1` has claimed the job under a live lease. -/
def leasedRun : List Action := lateMarkRun.take 13

/-- Leases are not exclusive: after `leasedRun` worker `1` holds the job under a live lease,
and the pending `mark_retrying` of worker `0` takes it away. -/
theorem lease_not_exclusive :
    ¬ ∀ (cfg : Config) (as : List Action), EveryStep (step cfg) (LeaseFrame cfg) .init as := by
  intro h
  have hrow : ((run (step ⟨3, 900⟩) .init leasedRun).bind fun s => s.jobs 0) =
      some ⟨.processing, 2, some 1, some 900⟩ := by decide
  have hw : ((run (step ⟨3, 900⟩) .init leasedRun).bind fun s => s.handlers 0) =
      some ⟨.dispatched 0, .marking 0⟩ := by decide
  have hclock : (run (step ⟨3, 900⟩) .init leasedRun).map (·.clock) = some 0 := by decide
  cases hs : run (step ⟨3, 900⟩) .init leasedRun with
  | none =>
    rw [hs] at hrow
    cases hrow
  | some s =>
    rw [hs] at hrow hw hclock
    have hmarks : MarksLeased s (.worker 0 .proceed) := by
      refine ⟨0, _, 0, _, 1, rfl, hw, hrow, ⟨rfl, rfl, ?_⟩, by decide⟩
      simp only [Option.map_some, Option.some.injEq] at hclock
      rw [hclock]
      rfl
    exact not_leaseFrame_of_marksLeased hmarks
      (h ⟨3, 900⟩ (leasedRun ++ [.worker 0 .proceed]) leasedRun _ [] s rfl hs)

end Jobs
