import Mathlib.Data.List.Basic
import Mathlib.Data.Nat.Notation
import Mathlib.Logic.Function.Basic
import Mathlib.Tactic.Simps.Basic
import NocReport.Foundation.Transition
import NocReport.Jobs.Row

set_option relaxedAutoImplicit false
set_option autoImplicit false

/-!
# The job system: outbox, broker, workers and the `jobs` table

The job lifecycle as a transition system. Its state is the `jobs` table, the outbox, the three
queues of one job type (main, retry, dead-letter) with the messages delivered but not yet
acknowledged, and the program counter of every worker that is inside `Worker.handle_delivery`.
Each action is one committed database statement or one broker operation, so a crash, a lost
connection, a broker restart or another worker's statement can fall between any two of them.

The queues of different job types are disjoint and a message is routed by its own job type, so
one job type is modelled; the bodies that name no job (quarantined deliveries) are not kept.

## Main definitions

* `Jobs.Phase` — where a worker is in `handle_delivery` and `_settle_failure`.
* `Jobs.State`, `Jobs.State.init` — the whole system, and the empty one.
* `Jobs.Action`, `Jobs.step` — what can happen, and its effect.
* `Jobs.RowChange` — the ways in which a step can change one row of `jobs`.

## Main results

* `Jobs.step_rowChange` — every step changes each row in one of the ways of `RowChange`.
-/

namespace Jobs

abbrev JobId := ℕ

abbrev WorkerId := ℕ

/-- A broker message for a job: the fields of the body the lifecycle reads, whether the body
validates against the job message schema, and whether it was published with
`delivery_mode=2`. -/
structure Message where
  job : JobId
  attempt : ℕ
  valid : Bool
  persistent : Bool
  deriving DecidableEq, Repr

/-- The message of a freshly enqueued job: `build_job_message` validates it and
`publish_message` publishes it persistently. -/
def Message.dispatched (j : JobId) : Message := ⟨j, 1, true, true⟩

/-- The body `_settle_failure` publishes for a retry, with `properties=None`. -/
def Message.retryCopy (m : Message) : Message :=
  { m with attempt := m.attempt + 1, persistent := false }

/-- The failure body `_settle_failure` sends to the dead-letter queue; it lacks most of the
fields a job message must have. -/
def Message.deadLetter (m : Message) : Message := { m with valid := false, persistent := true }

/-- The body `requeue_one_dlq_message` publishes for a dead-lettered one. -/
def Message.requeued (m : Message) : Message := { m with attempt := 1, persistent := true }

/-- The outbox row of a job. -/
inductive OutboxRow
  | absent | pending | published
  deriving DecidableEq, Repr

/-- What a worker that holds a delivery does next. A phase after the claim carries the claim
token, which is also the token of the worker's lease renewer. -/
inductive Phase
  /-- the body does not validate; `send_raw_to_dlq` comes next -/
  | quarantining
  /-- the `UPDATE` of `claim_job` comes next -/
  | received
  /-- that `UPDATE`, made at time `now`, matched no row; the locking `SELECT` comes next -/
  | classifying (now : ℕ)
  /-- `LEASE_BUSY`: `basic_nack(requeue=False)` comes next -/
  | nackingBusy
  /-- claimed; `bump_attempt` comes next -/
  | claimed (tok : Token)
  /-- artifact reconciliation or `process_message` -/
  | processing (tok : Token)
  /-- a result is there; `mark_completed` comes next -/
  | completing (tok : Token)
  /-- completed; `basic_ack`, still inside the `try`, comes next -/
  | ackingCompleted (tok : Token)
  /-- an exception was caught; `mark_failed` comes next -/
  | settling (tok : Token) (terminal : Bool)
  /-- a retry was chosen; `bump_attempt(attempt + 1)` comes next -/
  | bumping (tok : Token)
  /-- `basic_publish` of the retry comes next -/
  | publishingRetry (tok : Token)
  /-- `mark_retrying` comes next -/
  | marking (tok : Token)
  /-- `send_to_dlq` comes next -/
  | publishingDlq (tok : Token)
  /-- `basic_ack` comes next, and nothing after it -/
  | acking
  deriving DecidableEq, Repr

/-- The claim token of a worker, once it has one. -/
def Phase.token? : Phase → Option Token
  | claimed tok | processing tok | completing tok | ackingCompleted tok | settling tok _
  | bumping tok | publishingRetry tok | marking tok | publishingDlq tok => some tok
  | _ => none

/-- The lease renewer of the worker is running. -/
def Phase.renewing : Phase → Bool
  | processing _ | completing _ | ackingCompleted _ | settling _ _ | bumping _
  | publishingRetry _ | marking _ | publishingDlq _ => true
  | _ => false

/-- A call of `handle_delivery` in progress. -/
structure Handler where
  message : Message
  phase : Phase
  deriving DecidableEq, Repr

/-- The settings the lifecycle reads. -/
structure Config where
  maxAttempts : ℕ
  leaseSeconds : ℕ

/-- The state of the job system. -/
structure State where
  /-- the time every statement reads as `now` -/
  clock : ℕ
  /-- the claim tokens drawn so far; `uuid4` draws a new one each time -/
  issued : List Token
  jobs : JobId → Option JobRow
  outbox : JobId → OutboxRow
  /-- jobs whose outbox row some dispatcher holds locked after the broker's confirm -/
  confirmed : List JobId
  main : List Message
  retry : List Message
  dlq : List Message
  /-- deliveries the broker waits for an acknowledgement of; a worker in `handle_delivery`
  without an entry has lost its broker connection -/
  unacked : List (WorkerId × Message)
  handlers : WorkerId → Option Handler
  /-- jobs whose dead-lettered message an admin has requeued, the row not yet reset -/
  resetting : List JobId

/-- The empty system. -/
def State.init : State where
  clock := 0
  issued := []
  jobs := fun _ => none
  outbox := fun _ => .absent
  confirmed := []
  main := []
  retry := []
  dlq := []
  unacked := []
  handlers := fun _ => none
  resetting := []

namespace State

variable (s : State) (w : WorkerId) (m : Message) (j : JobId)

/-- Replace the row of `j` by its image under a statement; a missing row stays missing. -/
@[simps]
def updateJob (f : JobRow → JobRow) : State :=
  { s with jobs := Function.update s.jobs j ((s.jobs j).map f) }

/-- Worker `w` goes on with its delivery `m` in phase `p`. -/
@[simps]
def setPhase (p : Phase) : State :=
  { s with handlers := Function.update s.handlers w (some ⟨m, p⟩) }

/-- The broker no longer waits for worker `w`: its delivery is settled or taken back. -/
@[simps]
def dropUnacked : State := { s with unacked := s.unacked.filter fun p => p.1 != w }

/-- Worker `w` leaves `handle_delivery`, its delivery settled or its connection lost. -/
@[simps!]
def leave : State := { s.dropUnacked w with handlers := Function.update s.handlers w none }

/-- The broker connection of worker `w` goes down: a delivery it had not acknowledged goes back
to the main queue. -/
def takeBack : State :=
  if (w, m) ∈ s.unacked then { s.dropUnacked w with main := s.main ++ [m] } else s

/-- The update of `row` by a token-guarded statement of worker `w`, and the phase it goes on
in: `matched` or `missed`, by the statement's result. -/
def guardedUpdate (f : JobRow → JobRow × Bool) (matched missed : Phase) : State :=
  match s.jobs m.job with
  | some row =>
    if (f row).2 then
      { s.setPhase w m matched with jobs := Function.update s.jobs m.job (some (f row).1) }
    else s.setPhase w m missed
  | none => s.setPhase w m missed

end State

/-- What a worker inside `handle_delivery` can do. -/
inductive WorkerAction
  /-- the `UPDATE` of `claim_job`, with the token drawn for it -/
  | claim (tok : Token)
  /-- the next statement, where there is only one -/
  | proceed
  /-- `process_message` returns, or the stored artifact is valid -/
  | succeed
  /-- processing raises an exception, which `classify_failure` calls terminal or retryable -/
  | raise (terminal : Bool)
  /-- the lease renewer runs `renew_job_lease` -/
  | renew
  /-- the process dies, or an exception leaves `handle_delivery` and closes the connection -/
  | crash
  /-- the broker connection is lost while the handler keeps running -/
  | disconnect
  deriving DecidableEq, Repr

/-- What can happen in the job system. -/
inductive Action
  | tick
  /-- `enqueue_job` commits: the job row and its outbox row together -/
  | enqueue (j : JobId)
  /-- a dispatcher locks the outbox row of `j`, publishes it and receives the confirm -/
  | dispatchPublish (j : JobId)
  /-- the dispatcher commits `published_at` -/
  | dispatchMark (j : JobId)
  /-- the dispatcher dies after the confirm; its row lock is released -/
  | dispatchCrash (j : JobId)
  /-- the broker delivers a message of the main queue to an idle worker -/
  | deliver (w : WorkerId) (m : Message)
  | worker (w : WorkerId) (a : WorkerAction)
  /-- the TTL of a message in the retry queue expires -/
  | expireRetry (m : Message)
  /-- the broker restarts: every connection is lost, and so is every transient message -/
  | restartBroker
  /-- `requeue_one_dlq_message`; it dies before its own `basic_ack` unless `acked` -/
  | requeuePublish (m : Message) (acked : Bool)
  /-- the row reset of `requeue_dlq` commits -/
  | requeueReset (j : JobId)
  /-- `requeue_dlq` dies before the reset -/
  | requeueCrash (j : JobId)
  deriving DecidableEq, Repr

section Step

variable (cfg : Config) (s : State)

/-- One action of worker `w`, whose delivery is `m`, in phase `p`. -/
def workerStep (w : WorkerId) (m : Message) (p : Phase) : WorkerAction → Option State
  | .crash => some ((s.takeBack w m).leave w)
  | .disconnect => if (w, m) ∈ s.unacked then some (s.takeBack w m) else none
  | .renew =>
    match p.token? with
    | some tok =>
      if p.renewing then
        some (s.updateJob m.job fun row => (row.renewJobLease s.clock cfg.leaseSeconds tok).1)
      else none
    | none => none
  | .claim tok =>
    if p = .received ∧ tok ∉ s.issued then
      match (s.jobs m.job).bind (·.claimUpdate s.clock cfg.leaseSeconds tok) with
      | some row =>
        some { s.setPhase w m (.claimed tok) with
          jobs := Function.update s.jobs m.job (some row), issued := tok :: s.issued }
      | none => some { s.setPhase w m (.classifying s.clock) with issued := tok :: s.issued }
    else none
  | .succeed =>
    match p with
    | .processing tok => some (s.setPhase w m (.completing tok))
    | _ => none
  | .raise terminal =>
    match p with
    | .processing tok => some (s.setPhase w m (.settling tok terminal))
    | _ => none
  | .proceed =>
    match p with
    | .quarantining =>
      some (if (w, m) ∈ s.unacked then s.setPhase w m .acking else s.leave w)
    | .classifying now =>
      match classifyClaim (s.jobs m.job) now with
      | .leaseBusy => some (s.setPhase w m .nackingBusy)
      | _ => some (s.setPhase w m .acking)
    | .nackingBusy =>
      -- the main queue dead-letters a rejected message to the retry queue
      some (if (w, m) ∈ s.unacked then { s.leave w with retry := s.retry ++ [m] } else s.leave w)
    | .claimed tok =>
      some ((s.updateJob m.job (·.bumpAttempt m.attempt)).setPhase w m (.processing tok))
    | .completing tok =>
      -- a lost lease raises `JobLeaseError`, which is retryable
      some (s.guardedUpdate w m (·.markCompleted (some tok)) (.ackingCompleted tok)
        (.settling tok false))
    | .ackingCompleted tok =>
      -- an acknowledgement on a closed channel raises inside the `try`
      some (if (w, m) ∈ s.unacked then s.leave w
        else s.setPhase w m (.settling tok false))
    | .settling tok terminal =>
      -- the result of `mark_failed` is not looked at
      let next := if !terminal && m.attempt < cfg.maxAttempts then .bumping tok
        else .publishingDlq tok
      some (s.guardedUpdate w m (·.markFailed (some tok)) next next)
    | .bumping tok =>
      some ((s.updateJob m.job (·.bumpAttempt (m.attempt + 1))).setPhase w m
        (.publishingRetry tok))
    | .publishingRetry tok =>
      some (if (w, m) ∈ s.unacked then
        { s.setPhase w m (.marking tok) with retry := s.retry ++ [m.retryCopy] } else s.leave w)
    | .marking _ => some ((s.updateJob m.job (·.markRetrying)).setPhase w m .acking)
    | .publishingDlq _ =>
      some (if (w, m) ∈ s.unacked then
        { s.setPhase w m .acking with dlq := s.dlq ++ [m.deadLetter] } else s.leave w)
    | .acking => some (s.leave w)
    | .received | .processing _ => none

/-- One step of the job system. -/
def step : Action → Option State
  | .tick => some { s with clock := s.clock + 1 }
  | .enqueue j =>
    match s.jobs j with
    | some _ => none
    | none => some { s with
        jobs := Function.update s.jobs j (some .fresh)
        outbox := Function.update s.outbox j .pending }
  | .dispatchPublish j =>
    if s.outbox j = .pending ∧ j ∉ s.confirmed then
      some { s with main := s.main ++ [.dispatched j], confirmed := j :: s.confirmed }
    else none
  | .dispatchMark j =>
    if j ∈ s.confirmed then
      some { s with
        outbox := Function.update s.outbox j .published
        confirmed := s.confirmed.filter (· != j) }
    else none
  | .dispatchCrash j => some { s with confirmed := s.confirmed.filter (· != j) }
  | .deliver w m =>
    match s.handlers w with
    | some _ => none
    | none =>
      if m ∈ s.main then
        some { s.setPhase w m (if m.valid then .received else .quarantining) with
          main := s.main.erase m, unacked := (w, m) :: s.unacked }
      else none
  | .worker w a =>
    match s.handlers w with
    | some h => workerStep cfg s w h.message h.phase a
    | none => none
  | .expireRetry m =>
    if m ∈ s.retry then some { s with retry := s.retry.erase m, main := s.main ++ [m] } else none
  | .restartBroker =>
    some { s with
      main := (s.main ++ s.unacked.map (·.2)).filter (·.persistent)
      retry := s.retry.filter (·.persistent)
      dlq := s.dlq.filter (·.persistent)
      unacked := [] }
  | .requeuePublish m acked =>
    if m ∈ s.dlq then
      some (if acked then { s with
        main := s.main ++ [m.requeued], dlq := s.dlq.erase m, resetting := m.job :: s.resetting }
        else { s with main := s.main ++ [m.requeued] })
    else none
  | .requeueReset j =>
    if j ∈ s.resetting then
      some { s.updateJob j (·.requeueReset) with resetting := s.resetting.erase j }
    else none
  | .requeueCrash j => some { s with resetting := s.resetting.erase j }

end Step

/-! ## What a step does to one row -/

/-- The ways in which the action `a`, taken in `s`, can change the row of `j`. -/
inductive RowChange (cfg : Config) (s : State) (a : Action) (j : JobId) :
    Option JobRow → Option JobRow → Prop
  | same (r : Option JobRow) : RowChange cfg s a j r r
  | insert (ha : a = .enqueue j) : RowChange cfg s a j none (some .fresh)
  | claim (w : WorkerId) (m : Message) (tok : Token) (row row' : JobRow)
      (ha : a = .worker w (.claim tok)) (hw : s.handlers w = some ⟨m, .received⟩)
      (hm : m.job = j) (htok : tok ∉ s.issued)
      (hrow : row.claimUpdate s.clock cfg.leaseSeconds tok = some row') :
      RowChange cfg s a j (some row) (some row')
  | complete (w : WorkerId) (m : Message) (tok : Token) (row : JobRow)
      (ha : a = .worker w .proceed) (hw : s.handlers w = some ⟨m, .completing tok⟩)
      (hm : m.job = j) (htok : row.claimToken = some tok) :
      RowChange cfg s a j (some row) (some (row.markCompleted (some tok)).1)
  | fail (w : WorkerId) (m : Message) (tok : Token) (terminal : Bool) (row : JobRow)
      (ha : a = .worker w .proceed) (hw : s.handlers w = some ⟨m, .settling tok terminal⟩)
      (hm : m.job = j) (htok : row.claimToken = some tok) :
      RowChange cfg s a j (some row) (some (row.markFailed (some tok)).1)
  | mark (w : WorkerId) (m : Message) (tok : Token) (row : JobRow)
      (ha : a = .worker w .proceed) (hw : s.handlers w = some ⟨m, .marking tok⟩)
      (hm : m.job = j) : RowChange cfg s a j (some row) (some row.markRetrying)
  | bump (n : ℕ) (row : JobRow) : RowChange cfg s a j (some row) (some (row.bumpAttempt n))
  | renew (w : WorkerId) (m : Message) (p : Phase) (tok : Token) (row : JobRow)
      (ha : a = .worker w .renew) (hw : s.handlers w = some ⟨m, p⟩) (hp : p.token? = some tok)
      (hm : m.job = j) :
      RowChange cfg s a j (some row) (some (row.renewJobLease s.clock cfg.leaseSeconds tok).1)
  | reset (row : JobRow) (ha : a = .requeueReset j) :
      RowChange cfg s a j (some row) (some row.requeueReset)

namespace State

variable (s : State) (w : WorkerId) (m : Message) (j i : JobId) (p : Phase)

@[simp] lemma takeBack_jobs : (s.takeBack w m).jobs = s.jobs := by
  unfold takeBack
  split <;> rfl

@[simp] lemma takeBack_handlers : (s.takeBack w m).handlers = s.handlers := by
  unfold takeBack
  split <;> rfl

lemma updateJob_jobs_apply (f : JobRow → JobRow) :
    (s.updateJob j f).jobs i = if i = j then (s.jobs i).map f else s.jobs i := by
  by_cases h : i = j
  · subst h
    simp [updateJob]
  · simp [updateJob, h]

end State

variable {cfg : Config} {s s' : State} {a : Action}

/-- A statement on the row of `m` changes the row of `j` only if they are the same job. -/
lemma rowChange_updateJob (m : Message) (f : JobRow → JobRow) (j : JobId)
    (h : ∀ row, m.job = j → s.jobs j = some row → RowChange cfg s a j (some row) (some (f row))) :
    RowChange cfg s a j (s.jobs j) ((s.updateJob m.job f).jobs j) := by
  rw [State.updateJob_jobs_apply]
  split
  · next hj =>
    cases hr : s.jobs j with
    | none => exact .same none
    | some row => exact h row hj.symm hr
  · exact .same _

/-- The same for a token-guarded statement, which changes the row only when it matches. -/
lemma rowChange_guardedUpdate (w : WorkerId) (m : Message) (f : JobRow → JobRow × Bool)
    (p q : Phase) (j : JobId)
    (h : ∀ row, m.job = j → s.jobs j = some row → (f row).2 = true →
      RowChange cfg s a j (some row) (some (f row).1)) :
    RowChange cfg s a j (s.jobs j) ((s.guardedUpdate w m f p q).jobs j) := by
  unfold State.guardedUpdate
  cases hr : s.jobs m.job with
  | none => exact .same _
  | some row =>
    dsimp only
    split
    · next hf =>
      dsimp only
      by_cases hj : j = m.job
      · subst hj
        rw [Function.update_self, hr]
        exact h row rfl hr hf
      · rw [Function.update_of_ne hj]
        exact .same _
    · exact .same _

/-- Each action of a worker changes each row in one of the ways of `RowChange`.

**Proof sketch.** Case split on the action, and for `proceed` on the phase: only six phases
have a statement on the row. -/
lemma workerStep_rowChange {w : WorkerId} {m : Message} {p : Phase} {b : WorkerAction}
    (hw : s.handlers w = some ⟨m, p⟩) (ha : a = .worker w b)
    (h : workerStep cfg s w m p b = some s') (j : JobId) :
    RowChange cfg s a j (s.jobs j) (s'.jobs j) := by
  cases b with
  | crash =>
    cases h
    simpa using .same _
  | disconnect =>
    simp only [workerStep] at h
    split at h
    · cases h
      simpa using .same _
    · cases h
  | renew =>
    simp only [workerStep] at h
    split at h
    · next tok hp =>
      split at h
      · cases h
        exact rowChange_updateJob m _ j fun row hm _ => .renew w m p tok row ha hw hp hm
      · cases h
    · cases h
  | claim tok =>
    simp only [workerStep] at h
    split at h
    · next hc =>
      obtain ⟨rfl, htok⟩ := hc
      split at h
      · next row' hrow =>
        cases h
        obtain ⟨row, hr, hrow⟩ := Option.bind_eq_some_iff.mp hrow
        by_cases hj : j = m.job
        · subst hj
          rw [hr]
          simpa using .claim w m tok row row' ha hw rfl htok hrow
        · simpa [hj] using .same _
      · cases h
        simpa using .same _
    · cases h
  | succeed =>
    simp only [workerStep] at h
    split at h
    · cases h
      simpa using .same _
    · cases h
  | raise terminal =>
    simp only [workerStep] at h
    split at h
    · cases h
      simpa using .same _
    · cases h
  | proceed =>
    cases p with
    | quarantining | nackingBusy | ackingCompleted | publishingRetry | publishingDlq =>
      simp only [workerStep, Option.some.injEq] at h
      subst h
      split <;> exact .same _
    | received | processing => simp [workerStep] at h
    | classifying now =>
      simp only [workerStep] at h
      split at h <;> · cases h; exact .same _
    | acking =>
      cases h
      exact .same _
    | claimed tok | bumping tok =>
      cases h
      exact rowChange_updateJob m _ j fun row _ _ => .bump _ row
    | completing tok =>
      cases h
      exact rowChange_guardedUpdate w m _ _ _ j fun row hm _ hf =>
        .complete w m tok row ha hw hm (by
          unfold JobRow.markCompleted at hf
          split at hf
          · next ht => simpa using ht
          · cases hf)
    | settling tok terminal =>
      cases h
      exact rowChange_guardedUpdate w m _ _ _ j fun row hm _ hf =>
        .fail w m tok terminal row ha hw hm (by
          unfold JobRow.markFailed at hf
          split at hf
          · next ht => simpa using ht
          · cases hf)
    | marking tok =>
      cases h
      exact rowChange_updateJob m _ j fun row hm _ => .mark w m tok row ha hw hm

/-- **Every step changes each row in one of the ways of `RowChange`.** -/
theorem step_rowChange (h : step cfg s a = some s') (j : JobId) :
    RowChange cfg s a j (s.jobs j) (s'.jobs j) := by
  cases a with
  | tick | dispatchCrash | restartBroker | requeueCrash =>
    cases h
    exact .same _
  | enqueue i =>
    simp only [step] at h
    split at h
    · cases h
    · next hi =>
      cases h
      by_cases hj : j = i
      · subst hj
        simpa [hi] using .insert rfl
      · simpa [hj] using .same _
  | dispatchPublish | dispatchMark | expireRetry | requeuePublish =>
    simp only [step] at h
    split at h
    · cases h
      first
        | exact .same _
        | (split <;> exact .same _)
    · cases h
  | deliver w m =>
    simp only [step] at h
    split at h
    · cases h
    · split at h
      · cases h
        exact .same _
      · cases h
  | worker w b =>
    simp only [step] at h
    split at h
    · next hd hw => exact workerStep_rowChange hw rfl h j
    · cases h
  | requeueReset i =>
    simp only [step] at h
    split at h
    · cases h
      change RowChange cfg s _ j (s.jobs j) ((s.updateJob i _).jobs j)
      rw [State.updateJob_jobs_apply]
      split
      · next hj =>
        subst hj
        cases s.jobs j with
        | none => exact .same _
        | some row => exact .reset row rfl
      · exact .same _
    · cases h

end Jobs
