import NocReport.Jobs.Lifecycle

set_option relaxedAutoImplicit false
set_option autoImplicit false

/-!
# No job is lost

Every committed job that is not completed should have something that will bring it back to a
worker: an unpublished outbox row, a message in the main or the retry queue, an unacknowledged
delivery, or, once it has failed, a message in the dead-letter queue. The invariant behind it
looks only at the holders that are going to hand the job on: an outbox row that no dispatcher
has published yet, and a delivery whose worker has not yet published its successor. It breaks
at four kinds of step, `Jobs.LossHazard`, and is preserved by every other step.

## Main definitions

* `Jobs.State.Held` — something holds job `j`.
* `Jobs.LossHazard` — the steps that can drop the last holder of a job.
* `Jobs.State.Active` — something holds job `j` and will hand it on.
* `Jobs.HoldInv` — the invariant.

## Main results

* `Jobs.no_lost_job` — in every run without a hazard every job that is not completed is held.
* `Jobs.job_can_be_lost` — in some run a job that is not completed is held by nothing.
-/

namespace Jobs

open Transition

variable {cfg : Config} {s s' : State} {a : Action}

/-- Something holds job `j`, whose row is `row`. -/
def State.Held (s : State) (j : JobId) (row : JobRow) : Prop :=
  s.outbox j = .pending ∨ (∃ m ∈ s.main, m.job = j) ∨ (∃ m ∈ s.retry, m.job = j) ∨
    (∃ p ∈ s.unacked, p.2.job = j) ∨ (row.status = .failed ∧ ∃ m ∈ s.dlq, m.job = j)

/-- Every committed job that is not completed is held. -/
def State.NoLostJob (s : State) : Prop :=
  ∀ j row, s.jobs j = some row → row.status ≠ .completed → s.Held j row

/-- An operator's requeue of a dead-lettered message. -/
def Action.isRequeue : Action → Prop
  | .requeuePublish _ _ | .requeueReset _ | .requeueCrash _ => True
  | _ => False

/-! ## Holders that hand the job on -/

/-- A worker in this phase, whose delivery is unacknowledged, is going to hand on the job with
row `row`: it has not claimed it yet, or it holds the claim, or it has marked it failed and is
about to publish its successor. -/
def Phase.Holds (row : JobRow) : Phase → Prop
  | received | classifying _ | nackingBusy => True
  | claimed tok | processing tok | completing tok | settling tok _ => row.claimToken = some tok
  | bumping _ | publishingRetry _ | publishingDlq _ => row.status = .failed
  | _ => False

/-- Worker `w` has an unacknowledged delivery for job `j` and is going to hand it on. -/
def State.HeldBy (s : State) (w : WorkerId) (j : JobId) (row : JobRow) : Prop :=
  ∃ m p, (w, m) ∈ s.unacked ∧ s.handlers w = some ⟨m, p⟩ ∧ m.job = j ∧ p.Holds row

/-- The outbox or a queue holds job `j` and will hand it on. -/
def State.Queued (s : State) (j : JobId) : Prop :=
  (s.outbox j = .pending ∧ j ∉ s.confirmed) ∨ (∃ m ∈ s.main, m.job = j) ∨
    ∃ m ∈ s.retry, m.job = j

/-- Something holds job `j`, whose row is `row`, and will hand it on, or the job has failed and
is in the dead-letter queue. -/
def State.Active (s : State) (j : JobId) (row : JobRow) : Prop :=
  s.Queued j ∨ (∃ w, s.HeldBy w j row) ∨ (row.status = .failed ∧ ∃ m ∈ s.dlq, m.job = j)

/-- A worker in this phase has not claimed the job of its delivery yet. -/
def Phase.waiting : Phase → Bool
  | received | classifying _ | nackingBusy => true
  | _ => false

/-- Job `j` is on its way to a claim: the outbox or a queue holds it, or a worker that has not
claimed it yet has an unacknowledged delivery for it. -/
def State.OnTheWay (s : State) (j : JobId) : Prop :=
  s.Queued j ∨ ∃ w m p, (w, m) ∈ s.unacked ∧ s.handlers w = some ⟨m, p⟩ ∧ m.job = j ∧
    p.waiting = true

/-- The steps that can drop the last holder of a job. -/
inductive LossHazard (s : State) : Action → Prop
  /-- the broker restarts while every message on the way for a job, which neither its outbox row
  nor a dead letter holds, was published without `delivery_mode=2` -/
  | restart (j : JobId) (row : JobRow) (hr : s.jobs j = some row) (hc : row.status ≠ .completed)
      (ho : ¬ (s.outbox j = .pending ∧ j ∉ s.confirmed))
      (hd : ¬ (row.status = .failed ∧ ∃ m ∈ s.dlq, m.job = j))
      (ht : ∀ m, m.job = j → (m ∈ s.main ∨ m ∈ s.retry ∨ ∃ w, (w, m) ∈ s.unacked) →
        m.persistent = false) : LossHazard s .restartBroker
  /-- `mark_retrying` runs when its job is not on its way to a claim any more -/
  | lateMark (w : WorkerId) (m : Message) (tok : Token)
      (hw : s.handlers w = some ⟨m, .marking tok⟩) (hn : ¬ s.OnTheWay m.job) :
      LossHazard s (.worker w .proceed)
  /-- the `SELECT` of `claim_job` finds a row that has become claimable since the `UPDATE`, and
  nothing else will hand the job on -/
  | notClaimable (w : WorkerId) (m : Message) (now : ℕ) (row : JobRow)
      (hw : s.handlers w = some ⟨m, .classifying now⟩) (hr : s.jobs m.job = some row)
      (hc : row.claimable now = true) (hq : ¬ s.Queued m.job)
      (hh : ∀ w', s.HeldBy w' m.job row → w' = w)
      (hd : ¬ (row.status = .failed ∧ ∃ m' ∈ s.dlq, m'.job = m.job)) :
      LossHazard s (.worker w .proceed)
  /-- a worker claims a job for a delivery the broker has taken back, and the job is not on its
  way to another claim -/
  | orphanClaim (w : WorkerId) (m : Message) (tok : Token) (row : JobRow)
      (hw : s.handlers w = some ⟨m, .received⟩) (hm : (w, m) ∉ s.unacked)
      (hr : s.jobs m.job = some row) (hc : row.claimable s.clock = true)
      (hn : ¬ s.OnTheWay m.job) : LossHazard s (.worker w (.claim tok))

/-! ## The invariant -/

/-- The invariant of the runs without a hazard. -/
structure HoldInv (s : State) : Prop where
  /-- an unacknowledged delivery is the one its worker handles -/
  connected : ∀ w m, (w, m) ∈ s.unacked → ∃ p, s.handlers w = some ⟨m, p⟩
  /-- the messages on the way to a worker validate -/
  valid : ∀ m, (m ∈ s.main ∨ m ∈ s.retry ∨ ∃ w, (w, m) ∈ s.unacked) → m.valid = true
  issued : ∀ w tok, s.ownToken w = some tok → tok ∈ s.issued
  /-- no two workers hold the same claim token -/
  distinct : ∀ w w' tok, s.ownToken w = some tok → s.ownToken w' = some tok → w = w'
  /-- only a committed job is in the outbox -/
  committed : ∀ j, s.outbox j = .pending ∨ j ∈ s.confirmed → ∃ row, s.jobs j = some row
  /-- a completed row has no claim token -/
  unclaimed : CompletedUnclaimed s
  /-- `send_to_dlq` publishes with `delivery_mode=2` -/
  deadLettered : ∀ m ∈ s.dlq, m.persistent = true
  active : ∀ j row, s.jobs j = some row → row.status ≠ .completed → s.Active j row

lemma holdInv_init : HoldInv .init where
  connected := by intro w m h; cases h
  valid := by rintro m (h | h | ⟨w, h⟩) <;> cases h
  issued := by intro w tok h; cases h
  distinct := by intro w w' tok h; cases h
  committed := by rintro j (h | h) <;> cases h
  unclaimed := completedUnclaimed_init
  deadLettered := by intro m h; cases h
  active := by intro j row h; cases h

/-- What the invariant says about lost jobs. -/
lemma HoldInv.noLostJob (h : HoldInv s) : s.NoLostJob := by
  intro j row hr hc
  rcases h.active j row hr hc with hq | ⟨w, m, p, hu, -, hm, -⟩ | hd
  · rcases hq with hq | hq | hq
    · exact .inl hq.1
    · exact .inr (.inl hq)
    · exact .inr (.inr (.inl hq))
  · exact .inr (.inr (.inr (.inl ⟨(w, m), hu, hm⟩)))
  · exact .inr (.inr (.inr (.inr hd)))

/-! ## What a worker leaves alone -/

/-- The part of the system a step of worker `w` on its delivery `m` in phase `p` leaves alone,
and the shape of what it adds. -/
structure WorkerFrame (s s' : State) (w : WorkerId) (m : Message) (p : Phase) : Prop where
  outbox : s'.outbox = s.outbox
  confirmed : s'.confirmed = s.confirmed
  main : ∀ x, x ∈ s'.main → x ∈ s.main ∨ (x = m ∧ (w, m) ∈ s.unacked)
  main_mono : ∀ x, x ∈ s.main → x ∈ s'.main
  retry : ∀ x, x ∈ s'.retry → x ∈ s.retry ∨ (x.valid = m.valid ∧ (w, m) ∈ s.unacked)
  retry_mono : ∀ x, x ∈ s.retry → x ∈ s'.retry
  dlq : ∀ x, x ∈ s'.dlq → x ∈ s.dlq ∨ x.persistent = true
  dlq_mono : ∀ x, x ∈ s.dlq → x ∈ s'.dlq
  unacked : ∀ x, x ∈ s'.unacked → x ∈ s.unacked
  unacked_mono : ∀ x, x ∈ s.unacked → x.1 ≠ w → x ∈ s'.unacked
  connected : (w, m) ∈ s'.unacked → ∃ q, s'.handlers w = some ⟨m, q⟩
  handlers : ∀ w', w' ≠ w → s'.handlers w' = s.handlers w'
  token : ∀ tok, s'.ownToken w = some tok →
    p.token? = some tok ∨ (tok ∉ s.issued ∧ tok ∈ s'.issued)
  issued_mono : ∀ tok, tok ∈ s.issued → tok ∈ s'.issued
  jobs : ∀ j, j ≠ m.job → s'.jobs j = s.jobs j
  jobs_some : ∀ j row, s.jobs j = some row → ∃ row', s'.jobs j = some row'

lemma ownToken_setPhase (w : WorkerId) (m : Message) (p : Phase) :
    (s.setPhase w m p).ownToken w = p.token? := by
  simp [State.ownToken]

lemma ownToken_leave (w : WorkerId) : (s.leave w).ownToken w = none := by
  simp [State.ownToken]

/-- A step that moves worker `w` on, to a phase with the same token or none, touches at most the
row of its job and adds at most to the retry and dead-letter queues. -/
lemma WorkerFrame.of_advance {w : WorkerId} {m : Message} {p q : Phase}
    (hq : ∀ tok, q.token? = some tok → p.token? = some tok)
    (hs : s' = { s.setPhase w m q with jobs := s'.jobs, retry := s'.retry, dlq := s'.dlq })
    (hr : ∀ x, x ∈ s'.retry → x ∈ s.retry ∨ (x.valid = m.valid ∧ (w, m) ∈ s.unacked))
    (hr' : ∀ x, x ∈ s.retry → x ∈ s'.retry)
    (hd : ∀ x, x ∈ s'.dlq → x ∈ s.dlq ∨ x.persistent = true)
    (hd' : ∀ x, x ∈ s.dlq → x ∈ s'.dlq) (hj : ∀ j, j ≠ m.job → s'.jobs j = s.jobs j)
    (hsome : ∀ j row, s.jobs j = some row → ∃ row', s'.jobs j = some row') :
    WorkerFrame s s' w m p := by
  refine ⟨?_, ?_, ?_, ?_, hr, hr', hd, hd', ?_, ?_, ?_, ?_, ?_, ?_, hj, hsome⟩ <;> rw [hs]
  · rfl
  · rfl
  · exact fun x hx => .inl hx
  · exact fun x hx => hx
  · exact fun x hx => hx
  · exact fun x hx _ => hx
  · exact fun _ => ⟨q, by simp⟩
  · exact fun w' hw' => by simp [hw']
  · intro tok htok
    rw [State.ownToken] at htok
    exact .inl (hq tok (by simpa using htok))
  · exact fun tok htok => htok

/-- A step that only moves worker `w` on. -/
lemma WorkerFrame.of_setPhase {w : WorkerId} {m : Message} {p : Phase} (q : Phase)
    (hq : ∀ tok, q.token? = some tok → p.token? = some tok) :
    WorkerFrame s (s.setPhase w m q) w m p :=
  .of_advance hq rfl (fun _ hx => .inl hx) (fun _ hx => hx) (fun _ hx => .inl hx)
    (fun _ hx => hx) (fun _ _ => rfl) fun _ row h => ⟨row, h⟩

/-- A statement on the row of the worker's job, which moves it on. -/
lemma WorkerFrame.of_updateJob {w : WorkerId} {m : Message} {p : Phase} (f : JobRow → JobRow)
    (q : Phase) (hq : ∀ tok, q.token? = some tok → p.token? = some tok) :
    WorkerFrame s ((s.updateJob m.job f).setPhase w m q) w m p := by
  refine .of_advance hq rfl (fun _ hx => .inl hx) (fun _ hx => hx) (fun _ hx => .inl hx)
    (fun _ hx => hx) ?_ ?_
  · intro j hj
    rw [State.setPhase_jobs, State.updateJob_jobs_apply, if_neg hj]
  · intro j row h
    rw [State.setPhase_jobs, State.updateJob_jobs_apply, h]
    split <;> exact ⟨_, rfl⟩

/-- A token-guarded statement of worker `w` either matches the row of its job or only moves the
worker on. -/
lemma guardedUpdate_cases (w : WorkerId) (m : Message) (f : JobRow → JobRow × Bool)
    (p q : Phase) :
    (∃ row, s.jobs m.job = some row ∧ (f row).2 = true ∧ s.guardedUpdate w m f p q =
      { s.setPhase w m p with jobs := Function.update s.jobs m.job (some (f row).1) }) ∨
    ((∀ row, s.jobs m.job = some row → (f row).2 = false) ∧
      s.guardedUpdate w m f p q = s.setPhase w m q) := by
  unfold State.guardedUpdate
  split
  · next row hr =>
    split
    · next hf => exact .inl ⟨row, hr, hf, rfl⟩
    · next hf =>
      refine .inr ⟨fun row' hr' => ?_, rfl⟩
      rw [hr] at hr'
      cases hr'
      simpa using hf
  · next hr =>
    refine .inr ⟨fun row' hr' => ?_, rfl⟩
    rw [hr] at hr'
    cases hr'

lemma WorkerFrame.of_guardedUpdate {w : WorkerId} {m : Message} {p : Phase} (q r : Phase)
    (f : JobRow → JobRow × Bool) (hq : ∀ tok, q.token? = some tok → p.token? = some tok)
    (hr : ∀ tok, r.token? = some tok → p.token? = some tok) :
    WorkerFrame s (s.guardedUpdate w m f q r) w m p := by
  rcases guardedUpdate_cases (s := s) w m f q r with ⟨row, -, -, h⟩ | ⟨-, h⟩
  · rw [h]
    refine .of_advance hq rfl (fun _ hx => .inl hx) (fun _ hx => hx) (fun _ hx => .inl hx)
      (fun _ hx => hx) ?_ ?_
    · intro j hj
      simp [hj]
    · intro j row' hj
      by_cases hjm : j = m.job
      · subst hjm
        exact ⟨(f row).1, by simp⟩
      · exact ⟨row', by simpa [hjm] using hj⟩
  · rw [h]
    exact .of_setPhase r hr

/-- A worker that leaves `handle_delivery`, with at most its own message back in a queue. -/
lemma WorkerFrame.of_leave {w : WorkerId} {m : Message} {p : Phase}
    (hs : s' = { s.leave w with main := s'.main, retry := s'.retry })
    (hm : ∀ x, x ∈ s'.main → x ∈ s.main ∨ (x = m ∧ (w, m) ∈ s.unacked))
    (hm' : ∀ x, x ∈ s.main → x ∈ s'.main)
    (hr : ∀ x, x ∈ s'.retry → x ∈ s.retry ∨ (x.valid = m.valid ∧ (w, m) ∈ s.unacked))
    (hr' : ∀ x, x ∈ s.retry → x ∈ s'.retry) : WorkerFrame s s' w m p := by
  refine ⟨?_, ?_, hm, hm', hr, hr', ?_, ?_, ?_, ?_, ?_, ?_, ?_, ?_, ?_, ?_⟩ <;> rw [hs]
  · rfl
  · rfl
  · exact fun x hx => .inl hx
  · exact fun x hx => hx
  · exact fun x hx => List.mem_of_mem_filter hx
  · exact fun x hx hw => List.mem_filter.mpr ⟨hx, by simpa using hw⟩
  · intro h
    simp at h
  · exact fun w' hw' => by simp [hw']
  · intro tok htok
    simp [State.ownToken] at htok
  · exact fun tok htok => htok
  · exact fun j _ => rfl
  · exact fun j row h => ⟨row, h⟩

lemma WorkerFrame.leave {w : WorkerId} {m : Message} {p : Phase} :
    WorkerFrame s (s.leave w) w m p :=
  .of_leave rfl (fun _ hx => .inl hx) (fun _ hx => hx) (fun _ hx => .inl hx) fun _ hx => hx

/-- What a queue gains when one message is appended to it. -/
private lemma mem_append_one {P : Prop} {l : List Message} {x y : Message}
    (hP : x = y → P) (hx : x ∈ l ++ [y]) : x ∈ l ∨ P :=
  (List.mem_append.mp hx).imp_right fun hx => hP (by simpa using hx)

/-- **Every step of a worker keeps its frame.**

**Proof sketch.** Case split on the action and the phase; each branch is a worker moving on or
leaving, with one message appended to a queue or one statement on the row of its job. -/
lemma workerStep_frame {w : WorkerId} {m : Message} {p : Phase} {b : WorkerAction}
    (hw : s.handlers w = some ⟨m, p⟩) (h : workerStep cfg s w m p b = some s') :
    WorkerFrame s s' w m p := by
  cases b with
  | crash =>
    cases h
    by_cases hu : (w, m) ∈ s.unacked
    · rw [State.takeBack, if_pos hu]
      refine .of_leave ?_ (fun x hx => mem_append_one (fun hx => ⟨hx, hu⟩) hx)
        (fun x hx => List.mem_append_left _ hx) (fun x hx => .inl hx) (fun x hx => hx)
      simp [State.leave, State.dropUnacked, List.filter_filter]
    · rw [State.takeBack, if_neg hu]
      exact .leave
  | disconnect =>
    simp only [workerStep] at h
    split at h
    · next hu =>
      cases h
      rw [State.takeBack, if_pos hu]
      refine ⟨rfl, rfl, fun x hx => mem_append_one (fun hx => ⟨hx, hu⟩) hx,
        fun x hx => List.mem_append_left _ hx, fun x hx => .inl hx, fun x hx => hx,
        fun x hx => .inl hx, fun x hx => hx, fun x hx => List.mem_of_mem_filter hx,
        fun x hx hxw => List.mem_filter.mpr ⟨hx, by simpa using hxw⟩, fun _ => ⟨p, hw⟩,
        fun w' _ => rfl, ?_, fun tok ht => ht, fun j _ => rfl, fun j row h => ⟨row, h⟩⟩
      intro tok htok
      exact .inl (by simpa [State.ownToken, hw] using htok)
    · cases h
  | renew =>
    simp only [workerStep] at h
    split at h
    · split at h
      · cases h
        refine ⟨rfl, rfl, fun x hx => .inl hx, fun x hx => hx, fun x hx => .inl hx,
          fun x hx => hx, fun x hx => .inl hx, fun x hx => hx, fun x hx => hx,
          fun x hx _ => hx, fun _ => ⟨p, hw⟩,
          fun w' _ => rfl, ?_, fun tok ht => ht, ?_, ?_⟩
        · intro tok htok
          exact .inl (by simpa [State.ownToken, hw] using htok)
        · intro j hj
          rw [State.updateJob_jobs_apply, if_neg hj]
        · intro j row hj
          rw [State.updateJob_jobs_apply, hj]
          split <;> exact ⟨_, rfl⟩
      · cases h
    · cases h
  | claim tok =>
    simp only [workerStep] at h
    split at h
    · next hc =>
      obtain ⟨rfl, htok⟩ := hc
      split at h
      · next row hrow =>
        cases h
        refine ⟨rfl, rfl, fun x hx => .inl hx, fun x hx => hx, fun x hx => .inl hx,
          fun x hx => hx, fun x hx => .inl hx, fun x hx => hx, fun x hx => hx,
          fun x hx _ => hx,
          fun _ => ⟨.claimed tok, by simp⟩, fun w' hw' => by simp [hw'], ?_,
          fun t ht => List.mem_cons_of_mem _ ht, fun j hj => by simp [hj], ?_⟩
        · intro t ht
          have : t = tok := by simpa [State.ownToken, Phase.token?, eq_comm] using ht
          subst this
          exact .inr ⟨htok, List.mem_cons_self⟩
        · intro j row' hj
          by_cases hjm : j = m.job
          · subst hjm
            exact ⟨row, by simp⟩
          · exact ⟨row', by simpa [hjm] using hj⟩
      · cases h
        refine ⟨rfl, rfl, fun x hx => .inl hx, fun x hx => hx, fun x hx => .inl hx,
          fun x hx => hx, fun x hx => .inl hx, fun x hx => hx, fun x hx => hx,
          fun x hx _ => hx,
          fun _ => ⟨.classifying s.clock, by simp⟩, fun w' hw' => by simp [hw'], ?_,
          fun t ht => List.mem_cons_of_mem _ ht, fun j hj => rfl, fun j row hj => ⟨row, hj⟩⟩
        intro t ht
        simp [State.ownToken, Phase.token?] at ht
    · cases h
  | succeed | raise =>
    simp only [workerStep] at h
    split at h
    · cases h
      exact .of_setPhase _ fun _ ht => ht
    · cases h
  | proceed =>
    cases p with
    | received | processing => simp [workerStep] at h
    | quarantining | ackingCompleted =>
      simp only [workerStep, Option.some.injEq] at h
      subst h
      split
      · first
          | exact .of_setPhase _ (by simp [Phase.token?])
          | exact .leave
      · first
          | exact .leave
          | exact .of_setPhase _ fun _ ht => ht
    | nackingBusy =>
      simp only [workerStep, Option.some.injEq] at h
      subst h
      split
      · next hu =>
        exact .of_leave rfl (fun x hx => .inl hx) (fun x hx => hx)
          (fun x hx => mem_append_one (fun hx => ⟨by rw [hx], hu⟩) hx)
          (fun x hx => List.mem_append_left _ hx)
      · exact .leave
    | classifying now =>
      simp only [workerStep] at h
      split at h <;>
      · cases h
        exact .of_setPhase _ (by simp [Phase.token?])
    | claimed tok | bumping tok =>
      cases h
      exact .of_updateJob _ _ fun _ ht => ht
    | marking tok =>
      cases h
      exact .of_updateJob _ _ (by simp [Phase.token?])
    | completing tok =>
      cases h
      exact .of_guardedUpdate _ _ _ (fun _ ht => ht) fun _ ht => ht
    | settling tok terminal =>
      cases h
      apply WorkerFrame.of_guardedUpdate <;>
      · intro t ht
        split at ht <;> exact ht
    | publishingRetry tok =>
      simp only [workerStep, Option.some.injEq] at h
      subst h
      split
      · next hu =>
        exact .of_advance (q := .marking tok) (fun _ ht => ht) rfl
          (fun x hx => mem_append_one (fun hx => ⟨by rw [hx]; rfl, hu⟩) hx)
          (fun x hx => List.mem_append_left _ hx) (fun _ hx => .inl hx) (fun _ hx => hx)
          (fun _ _ => rfl) fun _ row h => ⟨row, h⟩
      · exact .leave
    | publishingDlq tok =>
      simp only [workerStep, Option.some.injEq] at h
      subst h
      split
      · exact .of_advance (q := .acking) (by simp [Phase.token?]) rfl (fun _ hx => .inl hx)
          (fun _ hx => hx) (fun x hx => mem_append_one (fun hx => by rw [hx]; rfl) hx)
          (fun x hx => List.mem_append_left _ hx) (fun _ _ => rfl) fun _ row h => ⟨row, h⟩
      · exact .leave
    | acking =>
      cases h
      exact .leave

/-! ## The holders of a job through a step of a worker -/

/-- Whether a phase holds the job depends on the status and the token of the row only. -/
lemma Phase.Holds.congr {p : Phase} {row row' : JobRow} (h : p.Holds row)
    (hst : row'.status = row.status) (htok : row'.claimToken = row.claimToken) :
    p.Holds row' := by
  cases p <;> simp_all [Phase.Holds]

/-- A phase that still holds a job has the token of the row, unless the row may change its
token or the row has failed. -/
lemma Phase.Holds.token {p : Phase} {row row' : JobRow} (h : p.Holds row)
    (hst : row.status = .failed → row'.status = .failed)
    (htok : ∀ tok, p.token? = some tok → row.claimToken ≠ some tok) : p.Holds row' := by
  cases p <;> simp_all [Phase.Holds, Phase.token?]

namespace WorkerFrame

variable {w : WorkerId} {m : Message} {p : Phase} {j : JobId} {row row' : JobRow}

lemma queued (hf : WorkerFrame s s' w m p) (h : s.Queued j) : s'.Queued j := by
  rcases h with h | ⟨x, hx, hj⟩ | ⟨x, hx, hj⟩
  · rw [State.Queued, hf.outbox, hf.confirmed]
    exact .inl h
  · exact .inr (.inl ⟨x, hf.main_mono x hx, hj⟩)
  · exact .inr (.inr ⟨x, hf.retry_mono x hx, hj⟩)

/-- Another worker that held the job still holds it, unless its row has changed. -/
lemma heldBy {w' : WorkerId} (hf : WorkerFrame s s' w m p) (hne : w' ≠ w)
    (h : s.HeldBy w' j row)
    (hp : ∀ m' p', s.handlers w' = some ⟨m', p'⟩ → p'.Holds row → p'.Holds row') :
    s'.HeldBy w' j row' := by
  obtain ⟨m', p', hu, hh, hj, hp'⟩ := h
  refine ⟨m', p', hf.unacked_mono _ hu hne, ?_, hj, hp m' p' hh hp'⟩
  rw [hf.handlers w' hne, hh]

/-- A job stays active through a step of worker `w` if the row stays failed, the other workers
still hold it, and a new holder stands in for `w` where `w` held it. -/
lemma active (hf : WorkerFrame s s' w m p) (h : s.Active j row)
    (hst : row.status = .failed → row'.status = .failed)
    (hothers : ∀ w' m' p', w' ≠ w → s.handlers w' = some ⟨m', p'⟩ → p'.Holds row →
      p'.Holds row')
    (hown : s.HeldBy w j row → s'.Active j row') : s'.Active j row' := by
  rcases h with h | ⟨w', h⟩ | ⟨h, x, hx, hj⟩
  · exact .inl (hf.queued h)
  · by_cases hw : w' = w
    · subst hw
      exact hown h
    · exact .inr (.inl ⟨w', hf.heldBy hw h fun m' p' => hothers w' m' p' hw⟩)
  · exact .inr (.inr ⟨hst h, x, hf.dlq_mono x hx, hj⟩)

/-- A job on its way to a claim is active, whatever happens to its row, unless worker `w` is the
one on the way. -/
lemma onTheWay (hf : WorkerFrame s s' w m p) (hw : s.handlers w = some ⟨m, p⟩)
    (h : s.OnTheWay j) (hp : p.waiting = true → (w, m) ∉ s.unacked) : s'.Active j row' := by
  rcases h with h | ⟨w', m', p', hu, hw', hj, hp'⟩
  · exact .inl (hf.queued h)
  · have hne : w' ≠ w := by
      rintro rfl
      rw [hw] at hw'
      cases hw'
      exact hp hp' hu
    refine .inr (.inl ⟨w', m', p', hf.unacked_mono _ hu hne, ?_, hj, ?_⟩)
    · rw [hf.handlers w' hne, hw']
    · cases p' <;> simp_all [Phase.Holds, Phase.waiting]

/-- The same when the row keeps its status and its token. -/
lemma active_same (hf : WorkerFrame s s' w m p) (h : s.Active j row)
    (hst : row'.status = row.status) (htok : row'.claimToken = row.claimToken)
    (hown : s.HeldBy w j row → s'.Active j row') : s'.Active j row' :=
  hf.active h (fun h => hst.trans h) (fun _ _ _ _ _ hp => hp.congr hst htok) hown

end WorkerFrame

/-- A worker that still has its delivery, in a phase that holds the job, keeps it active. -/
lemma active_of_holds {w : WorkerId} {m : Message} {p : Phase} {row : JobRow}
    (hu : (w, m) ∈ s.unacked) (hw : s.handlers w = some ⟨m, p⟩) (hp : p.Holds row) :
    s.Active m.job row :=
  .inr (.inl ⟨w, m, p, hu, hw, rfl, hp⟩)

lemma HoldInv.token_ne (hs : HoldInv s) {w w' : WorkerId} {m m' : Message} {p p' : Phase}
    {tok : Token} (hw : s.handlers w = some ⟨m, p⟩) (hw' : s.handlers w' = some ⟨m', p'⟩)
    (hne : w' ≠ w) (hp : p.token? = some tok) (tok' : Token) (hp' : p'.token? = some tok') :
    tok ≠ tok' := by
  rintro rfl
  refine hne (hs.distinct w' w tok ?_ ?_)
  · rw [ownToken_eq hw', hp']
  · rw [ownToken_eq hw, hp]

/-- **A step of a worker that is not a hazard keeps the job of its delivery active.**

**Proof sketch.** A worker that held the job either still holds it after the step, or it has
just put a message for it into a queue, or the job is completed. Marking the job failed takes
the claim token off the row, which only worker `w` holds; a claim and a `mark_retrying` that
are no hazard come with a holder of their own. -/
lemma workerStep_active {w : WorkerId} {m : Message} {p : Phase} {b : WorkerAction}
    (hs : HoldInv s) (hw : s.handlers w = some ⟨m, p⟩) (hz : ¬ LossHazard s (.worker w b))
    (h : workerStep cfg s w m p b = some s') {row' : JobRow} (hr' : s'.jobs m.job = some row')
    (hc' : row'.status ≠ .completed) : s'.Active m.job row' := by
  have hf := workerStep_frame hw h
  -- a holder of the job in `s` that is worker `w` is in phase `p`
  have hheld : ∀ {row}, s.HeldBy w m.job row → (w, m) ∈ s.unacked ∧ p.Holds row := by
    rintro row ⟨m', p', hu, hw', -, hp⟩
    rw [hw] at hw'
    cases hw'
    exact ⟨hu, hp⟩
  -- the steps that leave the row alone
  have hsame : s'.jobs m.job = s.jobs m.job →
      ((w, m) ∈ s.unacked → p.Holds row' → s'.Active m.job row') → s'.Active m.job row' := by
    intro hjobs hown
    rw [hjobs] at hr'
    exact hf.active_same (hs.active _ _ hr' hc') rfl rfl fun hh =>
      hown (hheld hh).1 (hheld hh).2
  cases b with
  | crash =>
    cases h
    refine hsame (by simp) fun hu _ => .inl (.inr (.inl ⟨m, ?_, rfl⟩))
    simp [State.takeBack, hu]
  | disconnect =>
    simp only [workerStep] at h
    split at h
    · next hu =>
      cases h
      refine hsame (by simp) fun _ _ => .inl (.inr (.inl ⟨m, ?_, rfl⟩))
      simp [State.takeBack, hu]
    · cases h
  | renew =>
    simp only [workerStep] at h
    split at h
    · split at h
      · cases h
        rw [State.updateJob_jobs_apply, if_pos rfl] at hr'
        obtain ⟨row, hr, hrow⟩ := Option.map_eq_some_iff.mp hr'
        have hst : row'.status = row.status := by
          rw [← hrow]
          unfold JobRow.renewJobLease
          split <;> rfl
        have htok : row'.claimToken = row.claimToken := by
          rw [← hrow]
          unfold JobRow.renewJobLease
          split <;> rfl
        refine hf.active_same (hs.active _ _ hr (hst ▸ hc')) hst htok fun hh => ?_
        exact active_of_holds (hheld hh).1 hw ((hheld hh).2.congr hst htok)
      · cases h
    · cases h
  | claim tok =>
    simp only [workerStep] at h
    split at h
    · next hc =>
      obtain ⟨rfl, -⟩ := hc
      split at h
      · next row hrow =>
        cases h
        obtain ⟨old, hold, hrow⟩ := Option.bind_eq_some_iff.mp hrow
        obtain ⟨hcl, -, htok, -⟩ := JobRow.claimUpdate_eq_some hrow
        have hrr : row = row' := by simpa using hr'
        subst hrr
        by_cases hu : (w, m) ∈ s.unacked
        · exact active_of_holds (p := .claimed tok) hu (by simp) htok
        · refine hf.onTheWay hw ?_ fun _ => hu
          by_contra hn
          exact hz (.orphanClaim w m tok old hw hu hold hcl hn)
      · cases h
        exact hsame rfl fun hu _ => active_of_holds (p := .classifying s.clock) hu (by simp) trivial
    · cases h
  | succeed =>
    simp only [workerStep] at h
    split at h
    · next tok =>
      cases h
      exact hsame rfl fun hu hp => active_of_holds (p := .completing tok) hu (by simp) hp
    · cases h
  | raise terminal =>
    simp only [workerStep] at h
    split at h
    · next tok =>
      cases h
      exact hsame rfl fun hu hp => active_of_holds (p := .settling tok terminal) hu (by simp) hp
    · cases h
  | proceed =>
    cases p with
    | received | processing => simp [workerStep] at h
    | quarantining | ackingCompleted =>
      simp only [workerStep, Option.some.injEq] at h
      subst h
      exact hsame (by split <;> rfl) fun _ hp => hp.elim
    | acking =>
      cases h
      exact hsame rfl fun _ hp => hp.elim
    | nackingBusy =>
      simp only [workerStep, Option.some.injEq] at h
      subst h
      refine hsame (by split <;> rfl) fun hu _ => .inl (.inr (.inr ⟨m, ?_, rfl⟩))
      simp [hu]
    | classifying now =>
      simp only [workerStep] at h
      split at h
      · cases h
        exact hsame rfl fun hu _ => active_of_holds (p := .nackingBusy) hu (by simp) trivial
      · next hd =>
        cases h
        have hr : s.jobs m.job = some row' := hr'
        rw [hr] at hd
        -- the row is there and not completed, so the `SELECT` can only have raced
        have hcl : row'.claimable now = true := claimable_of_classifyClaim hc' hd
        by_contra hn
        refine hz (.notClaimable w m now row' hw hr hcl ?_ ?_ ?_)
        · exact fun hq => hn (.inl (hf.queued hq))
        · intro w' hh
          by_contra hne
          exact hn (.inr (.inl ⟨w', hf.heldBy hne hh fun _ _ _ hp => hp⟩))
        · rintro ⟨hst, x, hx, hj⟩
          exact hn (.inr (.inr ⟨hst, x, hx, hj⟩))
    | claimed tok =>
      cases h
      rw [State.setPhase_jobs, State.updateJob_jobs_apply, if_pos rfl] at hr'
      obtain ⟨row, hr, rfl⟩ := Option.map_eq_some_iff.mp hr'
      refine hf.active_same (hs.active _ _ hr hc') rfl rfl fun hh => ?_
      exact active_of_holds (p := .processing tok) (hheld hh).1 (by simp) (hheld hh).2
    | bumping tok =>
      cases h
      rw [State.setPhase_jobs, State.updateJob_jobs_apply, if_pos rfl] at hr'
      obtain ⟨row, hr, rfl⟩ := Option.map_eq_some_iff.mp hr'
      refine hf.active_same (hs.active _ _ hr hc') rfl rfl fun hh => ?_
      exact active_of_holds (p := .publishingRetry tok) (hheld hh).1 (by simp) (hheld hh).2
    | completing tok =>
      cases h
      rcases guardedUpdate_cases (s := s) w m (·.markCompleted (some tok)) (.ackingCompleted tok)
        (.settling tok false) with ⟨row, hr, hm, hs'⟩ | ⟨hmiss, hs'⟩
      · rw [hs'] at hr'
        simp only [Function.update_self, Option.some.injEq] at hr'
        rw [← hr'] at hc'
        simp only [JobRow.markCompleted] at hm hc'
        split at hm
        · next ht => simp [ht] at hc'
        · cases hm
      · rw [hs'] at hf hsame ⊢
        refine hsame rfl fun hu hp => ?_
        rw [hs'] at hr'
        have := hmiss row' hr'
        simp [JobRow.markCompleted, JobRow.tokenMatches, show row'.claimToken = some tok from hp]
          at this
    | settling tok terminal =>
      cases h
      rcases guardedUpdate_cases (s := s) w m (·.markFailed (some tok))
        (if !terminal && m.attempt < cfg.maxAttempts then .bumping tok else .publishingDlq tok)
        (if !terminal && m.attempt < cfg.maxAttempts then .bumping tok else .publishingDlq tok)
        with ⟨row, hr, hm, hs'⟩ | ⟨hmiss, hs'⟩
      · rw [hs'] at hr' hf ⊢
        simp only [Function.update_self, Option.some.injEq] at hr'
        simp only [JobRow.markFailed] at hm hr'
        split at hm
        · next ht =>
          rw [if_pos ht] at hr'
          subst hr'
          rw [JobRow.tokenMatches_some] at ht
          have hne : row.status ≠ .completed := fun hc => by
            have := hs.unclaimed _ _ hr hc
            rw [this] at ht
            cases ht
          refine hf.active (hs.active _ _ hr hne) (fun _ => rfl) ?_ ?_
          · intro w' m' p' hw' hh hp
            refine hp.token (fun _ => rfl) fun tok' ht' => ?_
            rw [ht]
            intro heq
            exact hs.token_ne hw hh hw' rfl tok' ht' (Option.some.inj heq)
          · intro hh
            split
            · exact active_of_holds (p := .bumping tok) (hheld hh).1 (by simp) rfl
            · exact active_of_holds (p := .publishingDlq tok) (hheld hh).1 (by simp) rfl
        · cases hm
      · rw [hs'] at hr' hf hsame ⊢
        refine hsame rfl fun hu hp => ?_
        have := hmiss row' hr'
        simp [JobRow.markFailed, JobRow.tokenMatches, show row'.claimToken = some tok from hp]
          at this
    | publishingRetry tok =>
      simp only [workerStep, Option.some.injEq] at h
      subst h
      refine hsame (by split <;> rfl) fun hu _ => .inl (.inr (.inr ⟨m.retryCopy, ?_, rfl⟩))
      simp [hu]
    | publishingDlq tok =>
      simp only [workerStep, Option.some.injEq] at h
      subst h
      refine hsame (by split <;> rfl) fun hu hp => .inr (.inr ⟨hp, m.deadLetter, ?_, rfl⟩)
      simp [hu]
    | marking tok =>
      cases h
      refine hf.onTheWay hw ?_ fun hp => by simp [Phase.waiting] at hp
      by_contra hn
      exact hz (.lateMark w m tok hw hn)

/-! ## The invariant through every step -/

/-- A step of a worker that is not a hazard preserves the invariant. -/
lemma workerStep_holdInv {w : WorkerId} {m : Message} {p : Phase} {b : WorkerAction}
    (hs : HoldInv s) (hw : s.handlers w = some ⟨m, p⟩) (hz : ¬ LossHazard s (.worker w b))
    (h : workerStep cfg s w m p b = some s') : HoldInv s' := by
  have hf := workerStep_frame hw h
  have hstep : step cfg s (.worker w b) = some s' := by
    simp only [step, hw]
    exact h
  have hvalid : (w, m) ∈ s.unacked → m.valid = true :=
    fun hu => hs.valid m (.inr (.inr ⟨w, hu⟩))
  -- a token another worker holds has been issued before the step
  have hother : ∀ w' tok, w' ≠ w → s'.ownToken w' = some tok → s.ownToken w' = some tok := by
    intro w' tok hne ht
    rwa [State.ownToken, hf.handlers w' hne] at ht
  have hown : ∀ tok, s'.ownToken w = some tok →
      s.ownToken w = some tok ∨ (tok ∉ s.issued ∧ tok ∈ s'.issued) := by
    intro tok ht
    rw [ownToken_eq hw]
    exact hf.token tok ht
  have hdistinct : ∀ w' tok, w' ≠ w → s'.ownToken w = some tok → s'.ownToken w' ≠ some tok := by
    intro w' tok hne ht ht'
    rcases hown tok ht with hold | ⟨hnew, -⟩
    · exact hne (hs.distinct w' w tok (hother w' tok hne ht') hold)
    · exact hnew (hs.issued w' tok (hother w' tok hne ht'))
  refine ⟨?_, ?_, ?_, ?_, ?_, completedUnclaimed_step hs.unclaimed hstep, ?_, ?_⟩
  · intro w' m' hu
    have hu' := hf.unacked _ hu
    by_cases hne : w' = w
    · subst hne
      obtain ⟨q, hq⟩ := hs.connected w' m' hu'
      rw [hw] at hq
      cases hq
      exact hf.connected hu
    · rw [hf.handlers w' hne]
      exact hs.connected w' m' hu'
  · rintro x (hx | hx | ⟨w', hx⟩)
    · rcases hf.main x hx with hx | ⟨rfl, hu⟩
      · exact hs.valid x (.inl hx)
      · exact hvalid hu
    · rcases hf.retry x hx with hx | ⟨hx, hu⟩
      · exact hs.valid x (.inr (.inl hx))
      · rw [hx, hvalid hu]
    · exact hs.valid x (.inr (.inr ⟨w', hf.unacked _ hx⟩))
  · intro w' tok ht
    by_cases hne : w' = w
    · subst hne
      rcases hown tok ht with hold | ⟨-, hnew⟩
      · exact hf.issued_mono tok (hs.issued w' tok hold)
      · exact hnew
    · exact hf.issued_mono tok (hs.issued w' tok (hother w' tok hne ht))
  · intro w₁ w₂ tok h₁ h₂
    by_contra hne
    by_cases hw₁ : w₁ = w
    · subst hw₁
      exact hdistinct w₂ tok (Ne.symm hne) h₁ h₂
    · by_cases hw₂ : w₂ = w
      · subst hw₂
        exact hdistinct w₁ tok hne h₂ h₁
      · exact hne (hs.distinct w₁ w₂ tok (hother w₁ tok hw₁ h₁) (hother w₂ tok hw₂ h₂))
  · intro j hj
    rw [hf.outbox, hf.confirmed] at hj
    obtain ⟨row, hr⟩ := hs.committed j hj
    exact hf.jobs_some j row hr
  · intro x hx
    rcases hf.dlq x hx with hx | hx
    · exact hs.deadLettered x hx
    · exact hx
  · intro j row' hr' hc'
    by_cases hj : j = m.job
    · subst hj
      exact workerStep_active hs hw hz h hr' hc'
    · rw [hf.jobs j hj] at hr'
      refine hf.active_same (hs.active j row' hr' hc') rfl rfl ?_
      rintro ⟨m', p', -, hw', hm', -⟩
      rw [hw] at hw'
      cases hw'
      exact absurd hm'.symm hj

/-! ### The other steps

None of them touches a handler, so claim tokens stay as they are. -/

/-- `enqueue_job` leaves an outbox row behind that no dispatcher has seen. -/
lemma enqueue_holdInv {j : JobId} (hs : HoldInv s) (h : step cfg s (.enqueue j) = some s') :
    HoldInv s' := by
  have hunclaimed := completedUnclaimed_step hs.unclaimed h
  simp only [step] at h
  split at h
  · cases h
  · next hj =>
    cases h
    have hconf : j ∉ s.confirmed := fun hc => by
      obtain ⟨row, hr⟩ := hs.committed j (.inr hc)
      rw [hj] at hr
      cases hr
    refine ⟨hs.connected, hs.valid, hs.issued, hs.distinct, ?_, hunclaimed, hs.deadLettered, ?_⟩
    · intro i hi
      by_cases hij : i = j
      · subst hij
        exact ⟨.fresh, by simp⟩
      · simpa [hij] using hs.committed i (by simpa [hij] using hi)
    · intro i row hr hc
      by_cases hij : i = j
      · subst hij
        exact .inl (.inl ⟨by simp, hconf⟩)
      · have hr : s.jobs i = some row := by simpa [hij] using hr
        rcases hs.active i row hr hc with (⟨ho, hn⟩ | hq) | hrest
        · exact .inl (.inl ⟨by simpa [hij] using ho, hn⟩)
        · exact .inl (.inr hq)
        · exact .inr hrest

/-- The dispatcher publishes before it gives up the outbox row. -/
lemma dispatchPublish_holdInv {j : JobId} (hs : HoldInv s)
    (h : step cfg s (.dispatchPublish j) = some s') : HoldInv s' := by
  simp only [step] at h
  split at h
  · next hj =>
    cases h
    refine ⟨hs.connected, ?_, hs.issued, hs.distinct, ?_, hs.unclaimed, hs.deadLettered, ?_⟩
    · rintro x (hx | hx)
      · rcases List.mem_append.mp hx with hx | hx
        · exact hs.valid x (.inl hx)
        · rw [List.mem_singleton.mp hx]
          rfl
      · exact hs.valid x (.inr hx)
    · rintro i (hi | hi)
      · exact hs.committed i (.inl hi)
      · rcases List.mem_cons.mp hi with rfl | hi
        · exact hs.committed i (.inl hj.1)
        · exact hs.committed i (.inr hi)
    · intro i row hr hc
      rcases hs.active i row hr hc with (⟨ho, hn⟩ | ⟨x, hx, hi⟩ | hq) | hrest
      · by_cases hij : i = j
        · subst hij
          exact .inl (.inr (.inl ⟨.dispatched i, by simp, rfl⟩))
        · exact .inl (.inl ⟨ho, by simp [hij, hn]⟩)
      · exact .inl (.inr (.inl ⟨x, List.mem_append_left _ hx, hi⟩))
      · exact .inl (.inr (.inr hq))
      · exact .inr hrest
  · cases h

lemma dispatchMark_holdInv {j : JobId} (hs : HoldInv s)
    (h : step cfg s (.dispatchMark j) = some s') : HoldInv s' := by
  simp only [step] at h
  split at h
  · next hj =>
    cases h
    refine ⟨hs.connected, hs.valid, hs.issued, hs.distinct, ?_, hs.unclaimed, hs.deadLettered, ?_⟩
    · intro i hi
      by_cases hij : i = j
      · subst hij
        exact hs.committed i (.inr hj)
      · exact hs.committed i (by simpa [hij] using hi)
    · intro i row hr hc
      rcases hs.active i row hr hc with (⟨ho, hn⟩ | hq) | hrest
      · have hij : i ≠ j := fun hij => hn (hij ▸ hj)
        exact .inl (.inl ⟨by simpa [hij] using ho, by simp [hn]⟩)
      · exact .inl (.inr hq)
      · exact .inr hrest
  · cases h

/-- The row of a dispatcher that died is dispatched again: its job may be published twice. -/
lemma dispatchCrash_holdInv {j : JobId} (hs : HoldInv s)
    (h : step cfg s (.dispatchCrash j) = some s') : HoldInv s' := by
  cases h
  refine ⟨hs.connected, hs.valid, hs.issued, hs.distinct, ?_, hs.unclaimed, hs.deadLettered, ?_⟩
  · rintro i (hi | hi)
    · exact hs.committed i (.inl hi)
    · exact hs.committed i (.inr (List.mem_of_mem_filter hi))
  · intro i row hr hc
    rcases hs.active i row hr hc with (⟨ho, hn⟩ | hq) | hrest
    · exact .inl (.inl ⟨ho, fun hm => hn (List.mem_of_mem_filter hm)⟩)
    · exact .inl (.inr hq)
    · exact .inr hrest

/-- A delivered message is held by the worker it is delivered to. -/
lemma deliver_holdInv {w : WorkerId} {m : Message} (hs : HoldInv s)
    (h : step cfg s (.deliver w m) = some s') : HoldInv s' := by
  simp only [step] at h
  split at h
  · cases h
  · next hw =>
    split at h
    · next hm =>
      rw [if_pos (hs.valid m (.inl hm))] at h
      cases h
      have hnone : ∀ m', (w, m') ∉ s.unacked := fun m' hu => by
        obtain ⟨p, hp⟩ := hs.connected w m' hu
        rw [hw] at hp
        cases hp
      have htok : ∀ w' tok, (s.setPhase w m .received).ownToken w' = some tok →
          s.ownToken w' = some tok := by
        intro w' tok ht
        by_cases hne : w' = w
        · subst hne
          rw [ownToken_setPhase] at ht
          cases ht
        · simpa [State.ownToken, hne] using ht
      refine ⟨?_, ?_, fun w' tok ht => hs.issued w' tok (htok w' tok ht),
        fun w₁ w₂ tok h₁ h₂ => hs.distinct w₁ w₂ tok (htok w₁ tok h₁) (htok w₂ tok h₂),
        hs.committed, hs.unclaimed, hs.deadLettered, ?_⟩
      · intro w' m' hu
        rcases List.mem_cons.mp hu with hu | hu
        · cases hu
          exact ⟨.received, by simp⟩
        · have hne : w' ≠ w := fun hw' => hnone m' (hw' ▸ hu)
          simpa [hne] using hs.connected w' m' hu
      · rintro x (hx | hx | ⟨w', hx⟩)
        · exact hs.valid x (.inl (List.mem_of_mem_erase hx))
        · exact hs.valid x (.inr (.inl hx))
        · rcases List.mem_cons.mp hx with hx | hx
          · cases hx
            exact hs.valid m (.inl hm)
          · exact hs.valid x (.inr (.inr ⟨w', hx⟩))
      · intro i row hr hc
        rcases hs.active i row hr hc with (ho | ⟨x, hx, hi⟩ | hq) | ⟨w', m', p', hu, hw', hh⟩ | hd
        · exact .inl (.inl ho)
        · by_cases hxm : x = m
          · subst hxm
            exact .inr (.inl ⟨w, x, .received, by simp, by simp, hi, trivial⟩)
          · exact .inl (.inr (.inl ⟨x, (List.mem_erase_of_ne hxm).mpr hx, hi⟩))
        · exact .inl (.inr (.inr hq))
        · have hne : w' ≠ w := fun hw' => hnone m' (hw' ▸ hu)
          exact .inr (.inl ⟨w', m', p', List.mem_cons_of_mem _ hu, by simpa [hne] using hw', hh⟩)
        · exact .inr (.inr hd)
    · cases h

/-- The retry queue dead-letters an expired message to the main queue. -/
lemma expireRetry_holdInv {m : Message} (hs : HoldInv s)
    (h : step cfg s (.expireRetry m) = some s') : HoldInv s' := by
  simp only [step] at h
  split at h
  · next hm =>
    cases h
    refine ⟨hs.connected, ?_, hs.issued, hs.distinct, hs.committed, hs.unclaimed,
      hs.deadLettered, ?_⟩
    · rintro x (hx | hx | hx)
      · rcases List.mem_append.mp hx with hx | hx
        · exact hs.valid x (.inl hx)
        · rw [List.mem_singleton.mp hx]
          exact hs.valid m (.inr (.inl hm))
      · exact hs.valid x (.inr (.inl (List.mem_of_mem_erase hx)))
      · exact hs.valid x (.inr (.inr hx))
    · intro i row hr hc
      rcases hs.active i row hr hc with (ho | ⟨x, hx, hi⟩ | ⟨x, hx, hi⟩) | hrest
      · exact .inl (.inl ho)
      · exact .inl (.inr (.inl ⟨x, List.mem_append_left _ hx, hi⟩))
      · by_cases hxm : x = m
        · subst hxm
          exact .inl (.inr (.inl ⟨x, by simp, hi⟩))
        · exact .inl (.inr (.inr ⟨x, (List.mem_erase_of_ne hxm).mpr hx, hi⟩))
      · exact .inr hrest
  · cases h

/-- A restart of the broker keeps the persistent messages, the unacknowledged ones in the main
queue. -/
lemma restartBroker_holdInv (hs : HoldInv s) (hz : ¬ LossHazard s .restartBroker)
    (h : step cfg s .restartBroker = some s') : HoldInv s' := by
  cases h
  refine ⟨?_, ?_, hs.issued, hs.distinct, hs.committed, hs.unclaimed, ?_, ?_⟩
  · intro w m hu
    cases hu
  · rintro x (hx | hx | ⟨w, hx⟩)
    · rcases List.mem_append.mp (List.mem_of_mem_filter hx) with hx | hx
      · exact hs.valid x (.inl hx)
      · obtain ⟨⟨w, y⟩, hy, rfl⟩ := List.mem_map.mp hx
        exact hs.valid y (.inr (.inr ⟨w, hy⟩))
    · exact hs.valid x (.inr (.inl (List.mem_of_mem_filter hx)))
    · cases hx
  · exact fun x hx => hs.deadLettered x (List.mem_of_mem_filter hx)
  · intro j row hr hc
    by_contra hn
    refine hz (.restart j row hr hc (fun ho => hn (.inl (.inl ho))) ?_ ?_)
    · rintro ⟨hst, x, hx, hj⟩
      exact hn (.inr (.inr ⟨hst, x, by simp [hx, hs.deadLettered x hx], hj⟩))
    · intro x hj hx
      by_contra hp
      rw [Bool.not_eq_false] at hp
      rcases hx with hx | hx | ⟨w, hx⟩
      · exact hn (.inl (.inr (.inl ⟨x, by simp [hx, hp], hj⟩)))
      · exact hn (.inl (.inr (.inr ⟨x, by simp [hx, hp], hj⟩)))
      · refine hn (.inl (.inr (.inl ⟨x, List.mem_filter.mpr ⟨?_, hp⟩, hj⟩)))
        exact List.mem_append_right _ (List.mem_map.mpr ⟨(w, x), hx, rfl⟩)

/-- **A step that is neither a hazard nor an operator's requeue preserves the invariant.** -/
theorem step_holdInv (hs : HoldInv s) (hz : ¬ LossHazard s a) (hq : ¬ a.isRequeue)
    (h : step cfg s a = some s') : HoldInv s' := by
  cases a with
  | requeuePublish | requeueReset | requeueCrash => exact absurd trivial hq
  | tick =>
    cases h
    exact ⟨hs.connected, hs.valid, hs.issued, hs.distinct, hs.committed, hs.unclaimed,
      hs.deadLettered, hs.active⟩
  | enqueue j => exact enqueue_holdInv hs h
  | dispatchPublish j => exact dispatchPublish_holdInv hs h
  | dispatchMark j => exact dispatchMark_holdInv hs h
  | dispatchCrash j => exact dispatchCrash_holdInv hs h
  | deliver w m => exact deliver_holdInv hs h
  | worker w b =>
    simp only [step] at h
    split at h
    · next hd hw => exact workerStep_holdInv hs hw hz h
    · cases h
  | expireRetry m => exact expireRetry_holdInv hs h
  | restartBroker => exact restartBroker_holdInv hs hz h

/-! ## Runs -/

/-- **No job is lost without a hazard.** In every state reached in a run none of whose steps is
a hazard or an operator's requeue, every committed job that is not completed is held by its
unpublished outbox row, by a message in the main or the retry queue or unacknowledged at a
worker, or, once failed, by a message in the dead-letter queue. -/
theorem no_lost_job (cfg : Config) (as : List Action)
    (h : EveryStep (step cfg) (fun s a => ¬ LossHazard s a ∧ ¬ a.isRequeue) .init as)
    (pre post : List Action) (has : as = pre ++ post) (s : State)
    (hs : run (step cfg) .init pre = some s) : s.NoLostJob := by
  have hpre : EveryStep (step cfg) (fun s a => ¬ LossHazard s a ∧ ¬ a.isRequeue) .init pre := by
    have has' : as = [] ++ pre ++ post := has
    rw [has'] at h
    exact h.segment rfl
  exact (run_invariant (fun s a t hI hP ht => step_holdInv hI hP.1 hP.2 ht) holdInv_init hpre
    hs).noLostJob

/-- One enqueued job, dispatched, delivered to worker `0` and claimed. -/
def claimedRun : List Action :=
  [.enqueue 0, .dispatchPublish 0, .dispatchMark 0, .deliver 0 (.dispatched 0),
    .worker 0 (.claim 0)]

/-- `no_lost_job` speaks about `claimedRun`: none of its steps is a hazard. -/
theorem no_lost_job_claimedRun :
    ∃ s, run (step ⟨3, 900⟩) .init claimedRun = some s ∧ s.NoLostJob := by
  refine ⟨_, rfl, ?_⟩
  refine no_lost_job ⟨3, 900⟩ claimedRun ?_ claimedRun [] (List.append_nil _).symm _ rfl
  refine everyStep_cons ⟨nofun, id⟩ fun s₁ h₁ => ?_
  refine everyStep_cons ⟨nofun, id⟩ fun s₂ h₂ => ?_
  refine everyStep_cons ⟨nofun, id⟩ fun s₃ h₃ => ?_
  refine everyStep_cons ⟨nofun, id⟩ fun s₄ h₄ => ?_
  refine everyStep_cons ⟨?_, id⟩ fun s₅ h₅ => everyStep_nil s₅
  cases h₁
  cases h₂
  cases h₃
  cases h₄
  rintro (_ | _ | _ | ⟨_, m, _, row, hw, hm, _, _, _⟩)
  cases hw
  exact hm (by decide)

/-- The outbox row, the queue contents, the unacknowledged deliveries and the status of job `0`
after a run from the empty system. -/
def holdersAfter (cfg : Config) (as : List Action) :
    Option (OutboxRow × List Message × List (WorkerId × Message) × Option JobStatus) :=
  (run (step cfg) .init as).map fun s =>
    (s.outbox 0, s.main ++ s.retry ++ s.dlq, s.unacked, (s.jobs 0).map (·.status))

/-- Worker `0` fails the job, publishes its retry, marks the row and acknowledges; then the
broker restarts. -/
def lostRun : List Action :=
  claimedRun ++ [.worker 0 .proceed, .worker 0 (.raise false), .worker 0 .proceed,
    .worker 0 .proceed, .worker 0 .proceed, .worker 0 .proceed, .worker 0 .proceed,
    .restartBroker]

/-- A job can be lost: its retry is not published persistently, so after `lostRun` it is
`RETRYING` and nothing holds it. -/
theorem job_can_be_lost :
    ¬ ∀ (cfg : Config) (as : List Action) (s : State),
      run (step cfg) .init as = some s → s.NoLostJob := by
  intro h
  have hlost : holdersAfter ⟨3, 900⟩ lostRun = some (.published, [], [], some .retrying) := by
    decide
  unfold holdersAfter at hlost
  obtain ⟨s, hs, hl⟩ := Option.map_eq_some_iff.mp hlost
  simp only [Prod.mk.injEq, List.append_eq_nil_iff] at hl
  obtain ⟨ho, ⟨⟨hmain, hretry⟩, hdlq⟩, hunacked, hjob⟩ := hl
  obtain ⟨row, hr, hst⟩ := Option.map_eq_some_iff.mp hjob
  have hheld := h ⟨3, 900⟩ lostRun s hs 0 row hr (by rw [hst]; decide)
  simp [State.Held, ho, hmain, hretry, hdlq, hunacked] at hheld

end Jobs
