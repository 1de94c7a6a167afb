import Mathlib.Data.List.Sort
import NocReport.Foundation.ReadCommitted
import NocReport.Foundation.Transition
import NocReport.Outbox.Enqueue

set_option relaxedAutoImplicit false
set_option autoImplicit false

/-!
# Dispatching the outbox

Processes that enqueue jobs, that dispatch the events of the outbox and that clean it up, each with
its own transactions, taken statement by statement; each can crash before any of them. A dispatcher
claims one unpublished event at a time, publishes it, and records in the same transaction that the
broker has confirmed it or that the publish has failed.

## Main definitions

* `Outbox.Phase` — where a process is.
* `Outbox.State`, `Outbox.Action`, `Outbox.step` — the system. It keeps a log of the confirms that
  dispatchers have received; no process reads it.
* `Outbox.DispatchInv` — what holds of each process, by its phase, and of the published events.
* `Outbox.CrashesConfirmed` — a dispatcher crashes between a confirm and its commit.
* `Outbox.OnceInv` — each event is confirmed at most once.

## Main results

* `Outbox.step_spec` — the invariant is preserved by every step, and no event that is committed as
  unpublished is deleted by one.
* `Outbox.onceInv_step` — so is the other invariant by every step but such a crash.
* `Outbox.outbox_safe` — the three properties in every run.
-/

namespace Outbox

open ReadCommitted Transition

abbrev ProcessId := ℕ

/-- What is left of a call of `dispatch_pending_events`. -/
structure Pass where
  /-- the turns of the loop that are left -/
  remaining : ℕ
  failedIds : List EventId
  deriving DecidableEq, Repr

/-- The row that a dispatcher has claimed, and when. -/
structure Claim (Ref Digest : Type) where
  event : EventId
  row : OutboxEvent Ref Digest
  startedAt : ℕ

/-- Where a process is, after its last statement. -/
inductive Phase (Ref Digest : Type)
  /-- `enqueue_job`: the job is flushed; the flush of the outbox event comes next -/
  | enqueuing (args : JobArgs Ref Digest) (jobId : JobId) (correlationId : PyStr)
  /-- `enqueue_job` has returned; the `commit` of its caller comes next -/
  | enqueued (event : EventId) (row : OutboxEvent Ref Digest)
  /-- `dispatch_pending_events`: the next row is selected next -/
  | dispatching (pass : Pass)
  /-- it has locked a row; `publish_message` comes next -/
  | claimed (pass : Pass) (c : Claim Ref Digest)
  /-- the broker has confirmed the message; the `UPDATE` of `published_at` comes next -/
  | confirmed (pass : Pass) (c : Claim Ref Digest)
  /-- `commit` comes next -/
  | marked (pass : Pass) (c : Claim Ref Digest)
  /-- `publish_message` has raised; the `UPDATE` of `last_error` comes next -/
  | raised (pass : Pass) (c : Claim Ref Digest) (error : PyStr)
  /-- `commit` comes next -/
  | noted (pass : Pass) (c : Claim Ref Digest) (error : PyStr)
  /-- `purge_published_events`: it has locked the rows; their `DELETE` comes next -/
  | purging (cutoff : ℕ) (eligibleIds : List EventId)
  /-- `commit` comes next -/
  | purged (eligibleIds : List EventId)

/-- A confirm that a dispatcher has received. -/
structure Confirm (Ref Digest : Type) where
  dispatcher : ProcessId
  event : EventId
  routingKey : PyStr
  payload : JobMessage Ref Digest

/-- The settings. -/
structure Config where
  /-- `batch_size` of a dispatch -/
  dispatchBatch : ℕ
  retention : ℕ
  /-- `batch_size` of a cleanup -/
  cleanupBatch : ℕ

/-- The state of the system. -/
structure State (Ref Digest : Type) where
  clock : ℕ
  outbox : Table ProcessId EventId (OutboxEvent Ref Digest)
  processes : ProcessId → Option (Phase Ref Digest)
  /-- the ids that `uuid4` has given -/
  drawn : List EventId
  confirms : List (Confirm Ref Digest)

variable {Ref Digest : Type}

/-- The empty system. -/
def State.init : State Ref Digest where
  clock := 0
  outbox := .ofRows []
  processes := fun _ => none
  drawn := []
  confirms := []

/-- What can happen. -/
inductive Action (Ref Digest : Type)
  | tick
  /-- a transaction calls `enqueue_job` -/
  | enqueue (p : ProcessId) (args : JobArgs Ref Digest) (jobId : JobId) (correlationId : PyStr)
  /-- the flush of the outbox event, under a new id -/
  | announce (p : ProcessId) (event : EventId)
  /-- a dispatcher calls `dispatch_pending_events` -/
  | dispatch (p : ProcessId)
  /-- it selects a row -/
  | claim (p : ProcessId) (event : EventId)
  /-- no row is left, or no turn of the loop -/
  | stop (p : ProcessId)
  /-- `publish_message` returns, or raises an error -/
  | publish (p : ProcessId) (error : Option PyStr)
  /-- a cleaner calls `purge_published_events`, which selects its rows -/
  | purge (p : ProcessId)
  /-- the next `UPDATE` or `DELETE` of a process -/
  | proceed (p : ProcessId)
  | commit (p : ProcessId)
  /-- a process crashes, or a statement of it fails -/
  | crash (p : ProcessId)

section Step

variable (cfg : Config) (s : State Ref Digest) (p : ProcessId)

/-- Process `p` goes on in phase `q`, with the table as its statement leaves it. -/
@[simps]
def State.goOn (outbox : Table ProcessId EventId (OutboxEvent Ref Digest)) (q : Phase Ref Digest) :
    State Ref Digest :=
  { s with outbox, processes := Function.update s.processes p (some q) }

/-- Process `p` ends its transaction with a commit. -/
@[simps]
def State.finish (q : Option (Phase Ref Digest)) : State Ref Digest :=
  { s with outbox := s.outbox.commit p, processes := Function.update s.processes p q }

/-- Process `p` is gone. -/
@[simps]
def State.gone : State Ref Digest :=
  { s with outbox := s.outbox.rollback p, processes := Function.update s.processes p none }

/-- The rows that a dispatcher may claim: unpublished, not failed before in the same pass, and not
locked by another process. -/
def State.pendingEvents (pass : Pass) : List EventId :=
  s.outbox.select fun k row =>
    row.publishedAt = none ∧ k ∉ pass.failedIds ∧ s.outbox.Grants p k .update

/-- A row was published before the cutoff. -/
def publishedBefore (cutoff : ℕ) (row : OutboxEvent Ref Digest) : Bool :=
  match row.publishedAt with
  | some publishedAt => publishedAt < cutoff
  | none => false

/-- When an event was published. -/
def State.publishedAt (k : EventId) : ℕ :=
  ((Dict.get? s.outbox.committed k).bind (·.publishedAt)).getD 0

/-- The rows that a cleaner locks: those published before the cutoff that no other process has
locked, the oldest first, as many as make a batch. -/
def State.eligibleIds (cutoff : ℕ) : List EventId :=
  ((s.outbox.select fun k row => publishedBefore cutoff row ∧ s.outbox.Grants p k .update)
    |>.insertionSort fun j k =>
      s.publishedAt j < s.publishedAt k ∨ (s.publishedAt j = s.publishedAt k ∧ j ≤ k))
    |>.take cfg.cleanupBatch

/-- What a dispatcher writes to a row whose message is confirmed. -/
def OutboxEvent.markPublished (row : OutboxEvent Ref Digest) (now : ℕ) : OutboxEvent Ref Digest :=
  { row with publishedAt := some now, lastError := none }

/-- What a dispatcher writes to a row whose publish has failed. -/
def OutboxEvent.markFailed (row : OutboxEvent Ref Digest) (error : PyStr) :
    OutboxEvent Ref Digest :=
  { row with attemptCount := row.attemptCount + 1, lastError := some (error.take 2000) }

/-- The next `UPDATE` or `DELETE` of a process. -/
def proceed : Phase Ref Digest → Option (State Ref Digest)
  | .confirmed pass c =>
    (s.outbox.update? p c.event fun row => row.markPublished c.startedAt).map fun outbox =>
      s.goOn p outbox (.marked pass c)
  | .raised pass c error =>
    (s.outbox.update? p c.event fun row => row.markFailed error).map fun outbox =>
      s.goOn p outbox (.noted pass c error)
  | .purging cutoff eligibleIds =>
    (s.outbox.deleteWhere? p (publishedBefore cutoff) eligibleIds).map fun outbox =>
      s.goOn p outbox (.purged eligibleIds)
  | _ => none

/-- The commit of a process; a dispatcher goes on with its pass. -/
def commit : Phase Ref Digest → Option (State Ref Digest)
  | .enqueued _ _ | .purged _ => some (s.finish p none)
  | .marked pass _ => some (s.finish p (some (.dispatching pass)))
  | .noted pass c _ =>
    some (s.finish p (some (.dispatching { pass with failedIds := c.event :: pass.failedIds })))
  | _ => none

/-- One step of the system. -/
def step : Action Ref Digest → Option (State Ref Digest)
  | .tick => some { s with clock := s.clock + 1 }
  | .enqueue p args jobId correlationId =>
    match s.processes p with
    | none => some (s.goOn p s.outbox (.enqueuing args jobId correlationId))
    | some _ => none
  | .announce p event =>
    match s.processes p with
    | some (.enqueuing args jobId correlationId) =>
      let row := newOutboxEvent args jobId correlationId s.clock
      if event ∈ s.drawn then none
      else (s.outbox.insert? p event row).map fun outbox =>
        { s with drawn := event :: s.drawn }.goOn p outbox (.enqueued event row)
    | _ => none
  | .dispatch p =>
    match s.processes p with
    | none => some (s.goOn p s.outbox (.dispatching ⟨cfg.dispatchBatch, []⟩))
    | some _ => none
  | .claim p event =>
    match s.processes p with
    | some (.dispatching ⟨remaining + 1, failedIds⟩) =>
      let pass : Pass := ⟨remaining, failedIds⟩
      match Dict.get? s.outbox.committed event with
      | some row =>
        if event ∈ s.pendingEvents p pass ∧ ∀ k ∈ s.pendingEvents p pass,
            (Dict.get? s.outbox.committed k).all fun other => row.createdAt ≤ other.createdAt then
          (s.outbox.lock? p event .update).map fun outbox =>
            s.goOn p outbox (.claimed pass ⟨event, row, s.clock⟩)
        else none
      | none => none
    | _ => none
  | .stop p =>
    match s.processes p with
    | some (.dispatching pass) =>
      if pass.remaining = 0 ∨ s.pendingEvents p pass = [] then some (s.gone p) else none
    | _ => none
  | .publish p error =>
    match s.processes p, error with
    | some (.claimed pass c), none =>
      let confirm : Confirm Ref Digest := ⟨p, c.event, c.row.routingKey, c.row.payload⟩
      some ({ s with confirms := confirm :: s.confirms }.goOn p s.outbox (.confirmed pass c))
    | some (.claimed pass c), some error => some (s.goOn p s.outbox (.raised pass c error))
    | _, _ => none
  | .purge p =>
    match s.processes p with
    | none =>
      let cutoff := s.clock - cfg.retention
      match s.eligibleIds cfg p cutoff with
      | [] => some s
      | ids =>
        (s.outbox.lockAll? p ids).map fun outbox => s.goOn p outbox (.purging cutoff ids)
    | some _ => none
  | .proceed p => (s.processes p).bind (proceed s p)
  | .commit p => (s.processes p).bind (commit s p)
  | .crash p => (s.processes p).map fun _ => s.gone p

end Step

/-! ## What holds of a process -/

variable {cfg : Config} {s s' : State Ref Digest} {p u : ProcessId} {q q' : Phase Ref Digest}
  {a : Action Ref Digest} {T : Table ProcessId EventId (OutboxEvent Ref Digest)}

/-- A dispatcher has received a confirm for the routing key and the payload of a row. -/
def State.Confirmed (s : State Ref Digest) (event : EventId) (row : OutboxEvent Ref Digest) :
    Prop :=
  ∃ c ∈ s.confirms, c.event = event ∧ c.routingKey = row.routingKey ∧ c.payload = row.payload

/-- A process holds the row that it has claimed, which is committed as unpublished. -/
def State.Claimed (s : State Ref Digest) (p : ProcessId) (c : Claim Ref Digest) : Prop :=
  s.outbox.Holds p c.event ∧ Dict.get? s.outbox.committed c.event = some c.row ∧
    c.row.publishedAt = none

/-- What holds of process `p` in a phase. -/
def Phase.Ok (s : State Ref Digest) (p : ProcessId) : Phase Ref Digest → Prop
  | enqueuing _ _ _ | dispatching _ => True
  | enqueued event row => s.outbox.Holds p event ∧ Dict.get? s.outbox.committed event = none ∧
    event ∈ s.drawn ∧ (∀ c ∈ s.confirms, c.event ≠ event) ∧ row.publishedAt = none
  | claimed _ c | raised _ c _ | noted _ c _ => s.Claimed p c
  | confirmed _ c | marked _ c => s.Claimed p c ∧ s.Confirmed c.event c.row
  | purging cutoff ids => ∀ k ∈ ids, s.outbox.Holds p k ∧
    ∃ row, Dict.get? s.outbox.committed k = some row ∧ publishedBefore cutoff row = true
  | purged ids => ∀ k ∈ ids, s.outbox.Holds p k ∧
    ∃ row, Dict.get? s.outbox.committed k = some row ∧ row.publishedAt ≠ none

/-- What a process has written to row `k`, by its phase. -/
def Phase.writes (k : EventId) : Phase Ref Digest → Option (Option (OutboxEvent Ref Digest))
  | enqueued event row => if event = k then some (some row) else none
  | marked _ c => if c.event = k then some (some (c.row.markPublished c.startedAt)) else none
  | noted _ c error => if c.event = k then some (some (c.row.markFailed error)) else none
  | purged ids => if k ∈ ids then some none else none
  | _ => none

/-- What process `p` has written to the table. -/
def State.Wrote (s : State Ref Digest) (p : ProcessId) (q : Option (Phase Ref Digest)) : Prop :=
  ∀ k, s.outbox.pending p k = q.elim none (·.writes k)

/-- The invariant of the dispatch. -/
structure DispatchInv (s : State Ref Digest) : Prop where
  phase : ∀ p q, s.processes p = some q → q.Ok s p
  wrote : ∀ p, s.Wrote p (s.processes p)
  published : ∀ k row, Dict.get? s.outbox.committed k = some row → row.publishedAt ≠ none →
    s.Confirmed k row
  drawnRows : ∀ k, Dict.get? s.outbox.committed k ≠ none → k ∈ s.drawn
  drawnConfirms : ∀ c ∈ s.confirms, c.event ∈ s.drawn

lemma dispatchInv_init : DispatchInv (.init : State Ref Digest) := by
  constructor <;> simp [State.init, State.Wrote]

/-- A step of process `p`, which goes on in phase `q` or ends. -/
structure ProcessMove (p : ProcessId) (q : Option (Phase Ref Digest)) (s s' : State Ref Digest) :
    Prop where
  processes : s'.processes = Function.update s.processes p q
  moved : s.outbox.MovedBy p s'.outbox
  confirms : ∀ c ∈ s'.confirms, c ∈ s.confirms ∨ Dict.get? s.outbox.committed c.event ≠ none
  kept : ∀ c ∈ s.confirms, c ∈ s'.confirms
  drawn : ∀ k ∈ s.drawn, k ∈ s'.drawn
  ok : ∀ q', q = some q' → q'.Ok s' p
  wrote : s'.Wrote p q

lemma State.Confirmed.mono {k : EventId} {row : OutboxEvent Ref Digest} (h : s.Confirmed k row)
    (hkept : ∀ c ∈ s.confirms, c ∈ s'.confirms) : s'.Confirmed k row := by
  obtain ⟨c, hc, hrest⟩ := h
  exact ⟨c, hkept c hc, hrest⟩

lemma State.Claimed.mono {c : Claim Ref Digest} (h : s.Claimed u c) (hu : u ≠ p)
    (hmoved : s.outbox.MovedBy p s'.outbox) : s'.Claimed u c :=
  ⟨hmoved.holds u hu _ h.1, (hmoved.committed u hu _ h.1).trans h.2.1, h.2.2⟩

/-- A step of one process leaves alone what holds of another. -/
lemma Phase.Ok.mono {q₀ : Option (Phase Ref Digest)} (h : q.Ok s u) (hu : u ≠ p)
    (hmove : ProcessMove p q₀ s s') : q.Ok s' u := by
  have hmoved := hmove.moved
  cases q with
  | enqueuing | dispatching => trivial
  | enqueued event row =>
    obtain ⟨hholds, hnone, hdrawn, hunconfirmed, hrow⟩ := h
    refine ⟨hmoved.holds u hu _ hholds, (hmoved.committed u hu _ hholds).trans hnone,
      hmove.drawn _ hdrawn, ?_, hrow⟩
    rintro c hc rfl
    rcases hmove.confirms c hc with hold | hthere
    · exact hunconfirmed c hold rfl
    · exact hthere hnone
  | claimed | raised | noted => exact State.Claimed.mono h hu hmoved
  | confirmed | marked => exact ⟨h.1.mono hu hmoved, h.2.mono hmove.kept⟩
  | purging cutoff ids =>
    intro k hk
    obtain ⟨hholds, row, hrow, hold⟩ := h k hk
    exact ⟨hmoved.holds u hu k hholds, row, (hmoved.committed u hu k hholds).trans hrow, hold⟩
  | purged ids =>
    intro k hk
    obtain ⟨hholds, row, hrow, hold⟩ := h k hk
    exact ⟨hmoved.holds u hu k hholds, row, (hmoved.committed u hu k hholds).trans hrow, hold⟩

/-- The step of one process preserves what holds of all of them. -/
lemma ProcessMove.dispatchInv {q₀ : Option (Phase Ref Digest)} (hs : DispatchInv s)
    (h : ProcessMove p q₀ s s')
    (hpublished : ∀ k row, Dict.get? s'.outbox.committed k = some row → row.publishedAt ≠ none →
      s'.Confirmed k row)
    (hdrawn : ∀ k, Dict.get? s'.outbox.committed k ≠ none → k ∈ s'.drawn) : DispatchInv s' where
  phase u q hq := by
    rw [h.processes] at hq
    by_cases hu : u = p
    · subst hu
      rw [Function.update_self] at hq
      exact h.ok q hq
    · rw [Function.update_of_ne hu] at hq
      exact (hs.phase u q hq).mono hu h
  wrote u := by
    rw [h.processes]
    by_cases hu : u = p
    · subst hu
      rw [Function.update_self]
      exact h.wrote
    · rw [Function.update_of_ne hu]
      intro k
      rw [h.moved.pending u hu]
      exact hs.wrote u k
  published := hpublished
  drawnRows := hdrawn
  drawnConfirms c hc := by
    rcases h.confirms c hc with hold | hthere
    · exact h.drawn _ (hs.drawnConfirms c hold)
    · exact h.drawn _ (hs.drawnRows _ hthere)

/-! ## At most one confirm -/

/-- The event whose confirm a dispatcher has received and not committed yet. -/
def Phase.confirming? : Phase Ref Digest → Option EventId
  | confirmed _ c | marked _ c => some c.event
  | _ => none

/-- The event whose confirm process `p` has received and not committed yet. -/
def State.confirming? (s : State Ref Digest) (p : ProcessId) : Option EventId :=
  (s.processes p).bind Phase.confirming?

/-- The action is the crash of a dispatcher between a confirm and its commit. -/
def CrashesConfirmed (s : State Ref Digest) (a : Action Ref Digest) : Prop :=
  ∃ p, a = .crash p ∧ s.confirming? p ≠ none

instance (s : State Ref Digest) (a : Action Ref Digest) : Decidable (CrashesConfirmed s a) :=
  match a with
  | .crash p => decidable_of_iff (s.confirming? p ≠ none) (by simp [CrashesConfirmed])
  | .tick | .enqueue _ _ _ _ | .announce _ _ | .dispatch _ | .claim _ _ | .stop _ | .publish _ _
  | .purge _ | .proceed _ | .commit _ => .isFalse (by simp [CrashesConfirmed])

/-- Row `k` is not committed as unpublished. -/
def State.NotPending (s : State Ref Digest) (k : EventId) : Prop :=
  ∀ row, Dict.get? s.outbox.committed k = some row → row.publishedAt ≠ none

/-- Each event is confirmed at most once, and one that is confirmed is no longer pending unless the
dispatcher that received the confirm still has its row. -/
structure OnceInv (s : State Ref Digest) : Prop where
  once : ∀ k, (s.confirms.filter fun c => c.event = k).length ≤ 1
  settled : ∀ c ∈ s.confirms, (∃ p, s.confirming? p = some c.event) ∨ s.NotPending c.event

lemma onceInv_init : OnceInv (.init : State Ref Digest) := by
  constructor <;> simp [State.init]

/-- A step of process `p` that confirms nothing. -/
lemma OnceInv.move (ho : OnceInv s) (p : ProcessId) (hconfirms : s'.confirms = s.confirms)
    (hothers : ∀ u ≠ p, s'.processes u = s.processes u)
    (hself : ∀ k, s.confirming? p = some k → s'.confirming? p = some k ∨ s'.NotPending k)
    (hkeep : ∀ c ∈ s.confirms, s.NotPending c.event → s'.NotPending c.event) : OnceInv s' where
  once := by
    rw [hconfirms]
    exact ho.once
  settled c hc := by
    rw [hconfirms] at hc
    rcases ho.settled c hc with ⟨u, hu⟩ | hold
    · by_cases hup : u = p
      · subst hup
        rcases hself _ hu with hu | hnew
        · exact .inl ⟨u, hu⟩
        · exact .inr hnew
      · exact .inl ⟨u, by rwa [State.confirming?, hothers u hup]⟩
    · exact .inr (hkeep c hc hold)

/-- A dispatcher holds the row whose confirm it has received. -/
lemma DispatchInv.holds_of_confirming (hs : DispatchInv s) {k : EventId}
    (h : s.confirming? p = some k) : s.outbox.Holds p k := by
  obtain ⟨q, hq, hk⟩ := Option.bind_eq_some_iff.mp h
  have hok := hs.phase p q hq
  cases q with
  | confirmed pass c | marked pass c =>
    cases hk
    exact hok.1.1
  | enqueuing | enqueued | dispatching | claimed | raised | noted | purging | purged => cases hk

/-- A dispatcher that has claimed a row receives the first confirm of its event. -/
lemma OnceInv.confirm {pass : Pass} {c : Claim Ref Digest} (ho : OnceInv s) (hs : DispatchInv s)
    (hp : s.processes p = some (.claimed pass c)) (hprocesses : s'.processes =
      Function.update s.processes p (some (.confirmed pass c)))
    (hcommitted : s'.outbox.committed = s.outbox.committed) {new : Confirm Ref Digest}
    (hnew : new.event = c.event) (hconfirms : s'.confirms = new :: s.confirms) : OnceInv s' := by
  obtain ⟨hholds, hrow, hunpublished⟩ : s.Claimed p c := hs.phase p _ hp
  have hself : s.confirming? p = none := by simp [State.confirming?, hp, Phase.confirming?]
  have hunconfirmed : ∀ c' ∈ s.confirms, c'.event ≠ c.event := by
    intro c' hc' heq
    rcases ho.settled c' hc' with ⟨u, hu⟩ | hsettled
    · rw [heq] at hu
      have hup := (hs.holds_of_confirming hu).unique hholds
      rw [hup, hself] at hu
      cases hu
    · exact hsettled c.row (by rw [heq, hrow]) hunpublished
  constructor
  · intro k
    rw [hconfirms, List.filter_cons, hnew]
    by_cases hk : c.event = k
    · have hnone : (s.confirms.filter fun c' => c'.event = k) = [] := by
        rw [List.filter_eq_nil_iff]
        intro c' hc'
        simpa [← hk] using hunconfirmed c' hc'
      simp [hk, hnone]
    · simpa [hk] using ho.once k
  · intro c' hc'
    rw [hconfirms] at hc'
    rcases List.mem_cons.mp hc' with rfl | hc'
    · exact .inl ⟨p, by simp [State.confirming?, hprocesses, Phase.confirming?, hnew]⟩
    · rcases ho.settled c' hc' with ⟨u, hu⟩ | hsettled
      · refine .inl ⟨u, ?_⟩
        have hup : u ≠ p := by
          rintro rfl
          rw [hself] at hu
          cases hu
        rwa [State.confirming?, hprocesses, Function.update_of_ne hup]
      · refine .inr fun row hrow' => hsettled row ?_
        rwa [hcommitted] at hrow'

/-! ## What a step does -/

/-- An event that is committed as unpublished is not deleted. -/
def Keeps (s s' : State Ref Digest) : Prop :=
  ∀ k row, Dict.get? s.outbox.committed k = some row → row.publishedAt = none →
    Dict.get? s'.outbox.committed k ≠ none

lemma keeps_of_committed (h : s'.outbox.committed = s.outbox.committed) : Keeps s s' := by
  intro k row hk _ hnone
  rw [h, hk] at hnone
  cases hnone

/-- What every step does. -/
structure StepSpec (s : State Ref Digest) (a : Action Ref Digest) (s' : State Ref Digest) :
    Prop where
  inv : DispatchInv s'
  keeps : Keeps s s'
  once : OnceInv s → ¬ CrashesConfirmed s a → OnceInv s'

/-- A step that commits nothing. -/
lemma ProcessMove.spec (p : ProcessId) (q₀ : Option (Phase Ref Digest)) (hs : DispatchInv s)
    (h : ProcessMove p q₀ s s') (hcommitted : s'.outbox.committed = s.outbox.committed)
    (honce : OnceInv s → ¬ CrashesConfirmed s a → OnceInv s') : StepSpec s a s' := by
  refine ⟨h.dispatchInv hs ?_ ?_, keeps_of_committed hcommitted, honce⟩
  · intro k row hk hrow
    rw [hcommitted] at hk
    exact (hs.published k row hk hrow).mono h.kept
  · intro k hk
    rw [hcommitted] at hk
    exact h.drawn k (hs.drawnRows k hk)

/-- A statement that commits nothing and confirms nothing. -/
lemma goOn_spec (hs : DispatchInv s) (hmoved : s.outbox.MovedBy p T)
    (hcommitted : T.committed = s.outbox.committed) (hok : q.Ok (s.goOn p T q) p)
    (hwrote : ∀ k, T.pending p k = q.writes k)
    (hconfirming : s.confirming? p = none ∨ s.confirming? p = q.confirming?) :
    StepSpec s a (s.goOn p T q) := by
  refine ProcessMove.spec p (some q) hs ⟨rfl, hmoved, fun c hc => .inl hc,
    fun c hc => hc, fun k hk => hk, ?_, hwrote⟩ hcommitted ?_
  · rintro q' ⟨⟩
    exact hok
  · intro ho _
    refine ho.move p rfl (fun u hu => Function.update_of_ne hu _ _) ?_ ?_
    · intro k hk
      rcases hconfirming with hnone | hsame
      · rw [hnone] at hk
        cases hk
      · rw [hsame] at hk
        exact .inl (by simpa [State.confirming?] using hk)
    · intro c _ hold row hrow
      rw [State.goOn_outbox, hcommitted] at hrow
      exact hold row hrow

lemma gone_spec (hs : DispatchInv s)
    (hconfirming : ¬ CrashesConfirmed s a → s.confirming? p = none) : StepSpec s a (s.gone p) := by
  refine ProcessMove.spec p none hs ⟨rfl, Table.movedBy_rollback,
    fun c hc => .inl hc, fun c hc => hc, fun k hk => hk, ?_, ?_⟩ rfl ?_
  · rintro q' ⟨⟩
  · intro k
    simp
  · intro ho ha
    refine ho.move p rfl (fun u hu => Function.update_of_ne hu _ _) ?_ (fun _ _ hold => hold)
    intro k hk
    rw [hconfirming ha] at hk
    cases hk

/-- What is committed once a process commits is what it has written. -/
lemma DispatchInv.get?_finish (hs : DispatchInv s) (hp : s.processes p = some q)
    (q₀ : Option (Phase Ref Digest)) (k : EventId) :
    Dict.get? (s.finish p q₀).outbox.committed k =
      (q.writes k).getD (Dict.get? s.outbox.committed k) := by
  have hwrote := hs.wrote p k
  rw [hp, Option.elim_some] at hwrote
  rw [State.finish_outbox, Table.get?_commit, hwrote]

/-- What a process may commit: rows with ids that were drawn, which are confirmed where they are
published, and are published where their event is no longer pending; and deletions of rows that were
published. -/
structure Phase.Commits (s : State Ref Digest) (q : Phase Ref Digest) : Prop where
  drawn : ∀ k row, q.writes k = some (some row) → k ∈ s.drawn
  confirmed : ∀ k row, q.writes k = some (some row) → row.publishedAt ≠ none → s.Confirmed k row
  deleted : ∀ k row, q.writes k = some none → Dict.get? s.outbox.committed k = some row →
    row.publishedAt ≠ none
  pending : ∀ k row, q.writes k = some (some row) → row.publishedAt = none →
    (∀ c ∈ s.confirms, c.event ≠ k) ∨ ¬ s.NotPending k
  confirming : ∀ k, q.confirming? = some k →
    ∃ row, q.writes k = some (some row) ∧ row.publishedAt ≠ none

/-- A commit. -/
lemma finish_spec {q₀ : Option (Phase Ref Digest)} (hs : DispatchInv s)
    (hp : s.processes p = some q) (hq₀ : ∀ q', q₀ = some q' → ∃ pass, q' = .dispatching pass)
    (hq : q.Commits s) : StepSpec s a (s.finish p q₀) := by
  have hfinish := hs.get?_finish hp q₀
  have hmove : ProcessMove p q₀ s (s.finish p q₀) := by
    refine ⟨rfl, Table.movedBy_commit, fun c hc => .inl hc, fun c hc => hc, fun k hk => hk, ?_, ?_⟩
    · intro q' hq'
      obtain ⟨pass, rfl⟩ := hq₀ q' hq'
      trivial
    · intro k
      cases q₀ with
      | none => simp
      | some q' =>
        obtain ⟨pass, rfl⟩ := hq₀ q' rfl
        simp [Phase.writes]
  refine ⟨hmove.dispatchInv hs ?_ ?_, ?_, ?_⟩
  · intro k row hk hrow
    rw [hfinish] at hk
    cases hw : q.writes k with
    | none =>
      rw [hw] at hk
      exact hs.published k row hk hrow
    | some x =>
      rw [hw] at hk
      exact hq.confirmed k row (hw.trans (congrArg some hk)) hrow
  · intro k hk
    rw [hfinish] at hk
    cases hw : q.writes k with
    | none =>
      rw [hw] at hk
      exact hs.drawnRows k hk
    | some x =>
      rw [hw] at hk
      obtain ⟨row, rfl⟩ := Option.ne_none_iff_exists'.mp hk
      exact hq.drawn k row hw
  · intro k row hk hrow hnone
    rw [hfinish, hk] at hnone
    cases hw : q.writes k with
    | none =>
      rw [hw] at hnone
      cases hnone
    | some x =>
      rw [hw] at hnone
      exact hq.deleted k row (hw.trans (congrArg some hnone)) hk hrow
  · intro ho _
    refine ho.move p rfl (fun u hu => Function.update_of_ne hu _ _) ?_ ?_
    · intro k hk
      rw [State.confirming?, hp, Option.bind_some] at hk
      obtain ⟨row, hw, hpublished⟩ := hq.confirming k hk
      refine .inr fun row' hrow' => ?_
      rw [hfinish, hw] at hrow'
      cases hrow'
      exact hpublished
    · intro c hc hold row hrow
      rw [hfinish] at hrow
      cases hw : q.writes c.event with
      | none =>
        rw [hw] at hrow
        exact hold row hrow
      | some x =>
        rw [hw] at hrow
        intro hnone
        rcases hq.pending c.event row (hw.trans (congrArg some hrow)) hnone with hno | hno
        · exact hno c hc rfl
        · exact hno hold

lemma mem_eligibleIds {cutoff : ℕ} {k : EventId} (h : k ∈ s.eligibleIds cfg p cutoff) :
    ∃ row, Dict.get? s.outbox.committed k = some row ∧ publishedBefore cutoff row = true := by
  have hmem := (List.mem_insertionSort _).mp (List.mem_of_mem_take h)
  obtain ⟨row, hrow, hold⟩ := Table.mem_select.mp hmem
  simp only [Bool.decide_and, Bool.decide_eq_true, Bool.and_eq_true] at hold
  exact ⟨row, hrow, hold.1⟩

lemma ne_none_of_publishedBefore {cutoff : ℕ} {row : OutboxEvent Ref Digest}
    (h : publishedBefore cutoff row = true) : row.publishedAt ≠ none := by
  intro hnone
  rw [publishedBefore, hnone] at h
  cases h

/-- The row that a dispatcher updates is the one that it has claimed. -/
lemma State.Claimed.read {c : Claim Ref Digest} {row : OutboxEvent Ref Digest}
    (h : s.Claimed p c) (hpending : s.outbox.pending p c.event = none)
    (hrow : s.outbox.read p c.event = some row) : c.row = row := by
  rw [Table.read, hpending] at hrow
  exact Option.some.inj (h.2.1.symm.trans hrow)

lemma proceed_spec (hs : DispatchInv s) (hp : s.processes p = some q)
    (h : proceed s p q = some s') : StepSpec s a s' := by
  have hok := hs.phase p q hp
  have hwrote := hs.wrote p
  have hconfirming : s.confirming? p = q.confirming? := by rw [State.confirming?, hp]; rfl
  rw [hp] at hwrote
  cases q with
  | confirmed pass c =>
    obtain ⟨T, hT, rfl⟩ := Option.map_eq_some_iff.mp h
    obtain ⟨row, hrow, hg, hm, rfl⟩ := Table.update?_eq_some.mp hT
    have hread := hok.1.read (hwrote c.event) hrow
    refine goOn_spec hs (Table.movedBy_write hg hm) rfl
      ⟨⟨hok.1.1.write hg hm, hok.1.2⟩, hok.2⟩ ?_ (.inr hconfirming)
    intro k
    have hk := hwrote k
    by_cases heq : c.event = k
    · simp [Phase.writes, heq, hread]
    · simpa [Phase.writes, heq] using hk
  | raised pass c error =>
    obtain ⟨T, hT, rfl⟩ := Option.map_eq_some_iff.mp h
    obtain ⟨row, hrow, hg, hm, rfl⟩ := Table.update?_eq_some.mp hT
    have hread := State.Claimed.read hok (hwrote c.event) hrow
    refine goOn_spec hs (Table.movedBy_write hg hm) rfl ⟨hok.1.write hg hm, hok.2⟩ ?_
      (.inl hconfirming)
    intro k
    have hk := hwrote k
    by_cases heq : c.event = k
    · simp [Phase.writes, heq, hread]
    · simpa [Phase.writes, heq] using hk
  | purging cutoff ids =>
    obtain ⟨T, hT, rfl⟩ := Option.map_eq_some_iff.mp h
    obtain ⟨hcommitted, hmoved, hkept, hpending⟩ := Table.deleteWhere?_spec hT
    refine goOn_spec hs hmoved hcommitted ?_ ?_ (.inl hconfirming)
    · intro k hk
      obtain ⟨hholds, row, hrow, hold⟩ := hok k hk
      refine ⟨hkept p k hholds, row, ?_, ne_none_of_publishedBefore hold⟩
      rw [State.goOn_outbox, hcommitted, hrow]
    · intro k
      have hnone : s.outbox.pending p k = none := hwrote k
      rw [hpending, hnone, Phase.writes]
      by_cases hk : k ∈ ids
      · obtain ⟨-, row, hrow, hold⟩ := hok k hk
        simp [Table.read, hnone, hk, hrow, hold]
      · simp [hk]
  | enqueuing | enqueued | dispatching | claimed | marked | noted | purged => cases h

/-- A phase that has written one row and no deletion. -/
lemma Phase.commits_of_row {k₀ : EventId} {row₀ : OutboxEvent Ref Digest}
    (hw : ∀ k, q.writes k = if k₀ = k then some (some row₀) else none) (hdrawn : k₀ ∈ s.drawn)
    (hconfirmed : row₀.publishedAt ≠ none → s.Confirmed k₀ row₀)
    (hpending : row₀.publishedAt = none → (∀ c ∈ s.confirms, c.event ≠ k₀) ∨ ¬ s.NotPending k₀)
    (hconfirming : ∀ k, q.confirming? = some k → k = k₀ ∧ row₀.publishedAt ≠ none) :
    q.Commits s := by
  have hrow : ∀ k x, q.writes k = some x → k₀ = k ∧ some row₀ = x := by
    intro k x hx
    rw [hw] at hx
    split at hx
    · next heq => exact ⟨heq, Option.some.inj hx⟩
    · cases hx
  constructor
  · intro k row hx
    obtain ⟨rfl, -⟩ := hrow k _ hx
    exact hdrawn
  · intro k row hx
    obtain ⟨rfl, heq⟩ := hrow k _ hx
    obtain rfl := Option.some.inj heq
    exact hconfirmed
  · intro k row hx
    obtain ⟨-, hx⟩ := hrow k _ hx
    cases hx
  · intro k row hx
    obtain ⟨rfl, heq⟩ := hrow k _ hx
    obtain rfl := Option.some.inj heq
    exact hpending
  · intro k hk
    obtain ⟨rfl, hpublished⟩ := hconfirming k hk
    exact ⟨row₀, by rw [hw, if_pos rfl], hpublished⟩

/-- A row that is claimed is committed as unpublished. -/
lemma State.Claimed.pending {c : Claim Ref Digest} (h : s.Claimed p c) :
    ¬ s.NotPending c.event :=
  fun hno => hno c.row h.2.1 h.2.2

lemma commit_spec (hs : DispatchInv s) (hp : s.processes p = some q)
    (h : commit s p q = some s') : StepSpec s a s' := by
  have hok := hs.phase p q hp
  have hclaimed : ∀ c : Claim Ref Digest, s.Claimed p c → c.event ∈ s.drawn := fun c hc =>
    hs.drawnRows _ (by simp [hc.2.1])
  cases q with
  | enqueued event row =>
    cases h
    obtain ⟨-, -, hdrawn, hunconfirmed, hunpublished⟩ := hok
    refine finish_spec hs hp (by simp) (Phase.commits_of_row (fun _ => rfl) hdrawn ?_ ?_ ?_)
    · exact fun hpublished => absurd hunpublished hpublished
    · exact fun _ => .inl hunconfirmed
    · rintro k ⟨⟩
  | marked pass c =>
    cases h
    refine finish_spec hs hp (by simp) (Phase.commits_of_row (fun _ => rfl) (hclaimed c hok.1)
      (fun _ => hok.2) ?_ ?_)
    · rintro ⟨⟩
    · rintro k ⟨⟩
      exact ⟨rfl, by simp [OutboxEvent.markPublished]⟩
  | noted pass c error =>
    cases h
    refine finish_spec hs hp (by simp) (Phase.commits_of_row (fun _ => rfl) (hclaimed c hok) ?_ ?_ ?_)
    · exact fun hpublished => absurd hok.2.2 hpublished
    · exact fun _ => .inr hok.pending
    · rintro k ⟨⟩
  | purged ids =>
    cases h
    refine finish_spec hs hp (by simp) ⟨?_, ?_, ?_, ?_, ?_⟩
    · intro k row hx
      simp [Phase.writes] at hx
    · intro k row hx
      simp [Phase.writes] at hx
    · intro k row hx hrow
      simp only [Phase.writes, Option.ite_none_right_eq_some, and_true] at hx
      obtain ⟨-, row', hrow', hpublished⟩ := hok k hx
      cases hrow.symm.trans hrow'
      exact hpublished
    · intro k row hx
      simp [Phase.writes] at hx
    · rintro k ⟨⟩
  | enqueuing | dispatching | claimed | confirmed | raised | purging => cases h

/-- A process that has written nothing yet. -/
lemma DispatchInv.pending_eq_none (hs : DispatchInv s) {q₀ : Option (Phase Ref Digest)}
    (hp : s.processes p = q₀) (hq₀ : ∀ k, q₀.elim none (·.writes k) = none) (k : EventId) :
    s.outbox.pending p k = none := by
  rw [hs.wrote p k, hp, hq₀]

/-- Every step preserves the invariant, deletes no event that is committed as unpublished, and,
where it is not a crash of a dispatcher between a confirm and its commit, preserves that each event
is confirmed at most once. -/
theorem step_spec (hs : DispatchInv s) (h : step cfg s a = some s') : StepSpec s a s' := by
  cases a with
  | tick =>
    cases h
    refine ⟨⟨?_, hs.wrote, hs.published, hs.drawnRows, hs.drawnConfirms⟩, keeps_of_committed rfl,
      fun ho _ => ⟨ho.once, ho.settled⟩⟩
    intro p q hq
    have hok := hs.phase p q hq
    cases q <;> exact hok
  | enqueue p args jobId correlationId =>
    simp only [step] at h
    split at h
    · next hp =>
      cases h
      exact goOn_spec hs .refl rfl trivial (hs.pending_eq_none hp fun _ => rfl)
        (.inl (by rw [State.confirming?, hp]; rfl))
    · cases h
  | announce p event =>
    simp only [step] at h
    split at h
    · next args jobId correlationId hp =>
      split at h
      · cases h
      · next hdrawn =>
        obtain ⟨T, hT, rfl⟩ := Option.map_eq_some_iff.mp h
        obtain ⟨hnone, hg, hm, rfl⟩ := Table.insert?_eq_some.mp hT
        have hpending := hs.pending_eq_none hp fun _ => rfl
        rw [Table.read, hpending] at hnone
        refine ProcessMove.spec p (some _) hs ⟨rfl, Table.movedBy_write hg hm,
          fun c hc => .inl hc, fun c hc => hc, fun k hk => List.mem_cons_of_mem _ hk, ?_, ?_⟩ rfl ?_
        · rintro q' ⟨⟩
          refine ⟨Table.holds_write_self hg hm, hnone, List.mem_cons_self, ?_, rfl⟩
          rintro c hc rfl
          exact hdrawn (hs.drawnConfirms c hc)
        · intro k
          simp [Phase.writes, hpending]
        · intro ho _
          refine ho.move p rfl (fun u hu => Function.update_of_ne hu _ _) ?_ (fun _ _ hold => hold)
          intro k hk
          rw [State.confirming?, hp] at hk
          cases hk
    · cases h
  | dispatch p =>
    simp only [step] at h
    split at h
    · next hp =>
      cases h
      exact goOn_spec hs .refl rfl trivial (hs.pending_eq_none hp fun _ => rfl)
        (.inl (by rw [State.confirming?, hp]; rfl))
    · cases h
  | claim p event =>
    simp only [step] at h
    split at h
    · next remaining failedIds hp =>
      split at h
      · next row hrow =>
        split at h
        · next hpick =>
          obtain ⟨T, hT, rfl⟩ := Option.map_eq_some_iff.mp h
          obtain ⟨hg, rfl⟩ := Table.lock?_eq_some.mp hT
          obtain ⟨row', hrow', hunpublished⟩ := Table.mem_select.mp hpick.1
          cases hrow.symm.trans hrow'
          simp only [decide_eq_true_eq] at hunpublished
          exact goOn_spec hs (Table.movedBy_lock hg) rfl
            ⟨Table.holds_lock_self hg (by decide), hrow, hunpublished.1⟩
            (hs.pending_eq_none hp fun _ => rfl) (.inl (by rw [State.confirming?, hp]; rfl))
        · cases h
      · cases h
    · cases h
  | stop p =>
    simp only [step] at h
    split at h
    · next pass hp =>
      split at h
      · cases h
        exact gone_spec hs fun _ => by rw [State.confirming?, hp]; rfl
      · cases h
    · cases h
  | publish p error =>
    simp only [step] at h
    split at h
    · next pass c hp =>
      cases h
      have hclaimed : s.Claimed p c := hs.phase p _ hp
      refine ProcessMove.spec p (some _) hs ⟨rfl, .refl, ?_,
        fun c' hc' => List.mem_cons_of_mem _ hc', fun k hk => hk, ?_,
        hs.pending_eq_none hp fun _ => rfl⟩ rfl
        fun ho _ => ho.confirm hs hp rfl rfl rfl rfl
      · intro c' hc'
        rcases List.mem_cons.mp hc' with rfl | hc'
        · exact .inr (by simp [hclaimed.2.1])
        · exact .inl hc'
      · rintro q' ⟨⟩
        exact ⟨hclaimed, _, List.mem_cons_self, rfl, rfl, rfl⟩
    · next pass c error hp =>
      cases h
      have hclaimed : s.Claimed p c := hs.phase p _ hp
      exact goOn_spec hs .refl rfl hclaimed (hs.pending_eq_none hp fun _ => rfl)
        (.inl (by rw [State.confirming?, hp]; rfl))
    · cases h
  | purge p =>
    simp only [step] at h
    split at h
    · next hp =>
      split at h
      · cases h
        exact ⟨hs, keeps_of_committed rfl, fun ho _ => ho⟩
      · obtain ⟨T, hT, rfl⟩ := Option.map_eq_some_iff.mp h
        obtain ⟨hcommitted, hmoved, hpending, -, hholds⟩ := Table.lockAll?_spec hT
        refine goOn_spec hs hmoved hcommitted ?_ ?_ (.inl (by rw [State.confirming?, hp]; rfl))
        · intro k hk
          obtain ⟨row, hrow, hold⟩ := mem_eligibleIds hk
          exact ⟨hholds k hk, row, by rw [State.goOn_outbox, hcommitted, hrow], hold⟩
        · intro k
          rw [hpending]
          exact hs.pending_eq_none hp (fun _ => rfl) k
    · cases h
  | proceed p =>
    obtain ⟨q, hp, h⟩ := Option.bind_eq_some_iff.mp h
    exact proceed_spec hs hp h
  | commit p =>
    obtain ⟨q, hp, h⟩ := Option.bind_eq_some_iff.mp h
    exact commit_spec hs hp h
  | crash p =>
    obtain ⟨q, -, rfl⟩ := Option.map_eq_some_iff.mp h
    refine gone_spec hs ?_
    intro ha
    by_contra hne
    exact ha ⟨p, rfl, hne⟩

/-! ## The outbox is safe -/

/-- The invariant holds after every run. -/
lemma dispatchInv_run {as : List (Action Ref Digest)} (h : run (step cfg) .init as = some s) :
    DispatchInv s :=
  run_invariant (I := DispatchInv) (P := fun _ _ => True)
    (fun _ _ _ hu _ hstep => (step_spec hu hstep).inv) dispatchInv_init
    (fun _ _ _ _ _ _ => trivial) h

/-- Without a crash of a dispatcher between a confirm and its commit, each event is confirmed at
most once. -/
lemma onceInv_run {as : List (Action Ref Digest)} (h : run (step cfg) .init as = some s)
    (has : EveryStep (step cfg) (fun t a => ¬ CrashesConfirmed t a) .init as) : OnceInv s := by
  have hboth := run_invariant (I := fun t : State Ref Digest => DispatchInv t ∧ OnceInv t)
    ?_ ⟨dispatchInv_init, onceInv_init⟩ has h
  · exact hboth.2
  · rintro t a t' ⟨ht, ho⟩ ha hstep
    obtain ⟨hinv, -, honce⟩ := step_spec ht hstep
    exact ⟨hinv, honce ho ha⟩

/-- **The outbox is safe.** In every state of every run, an event that is committed as published was
confirmed to a dispatcher with its routing key and its payload; no step deletes an event that is
committed as unpublished; and where no dispatcher has crashed between a confirm and its commit, no
event has been confirmed twice. -/
theorem outbox_safe (cfg : Config) {as : List (Action Ref Digest)} {s : State Ref Digest}
    (h : run (step cfg) .init as = some s) :
    (∀ k row, Dict.get? s.outbox.committed k = some row → row.publishedAt ≠ none →
      s.Confirmed k row) ∧
    (∀ a s', step cfg s a = some s' → Keeps s s') ∧
    (EveryStep (step cfg) (fun t a => ¬ CrashesConfirmed t a) .init as →
      ∀ k, (s.confirms.filter fun c => c.event = k).length ≤ 1) :=
  ⟨(dispatchInv_run h).published, fun _ _ hstep => (step_spec (dispatchInv_run h) hstep).keeps,
    fun has => (onceInv_run h has).once⟩

/-- The arguments of a job without object references. -/
def sampleArgs : JobArgs Unit Unit where
  jobType := .logTriage
  requestedBy := none
  incidentId := none
  objectRefs := []
  model := none
  effort := none
  skillName := []
  skillVersion := []
  skillSnapshotId := 0
  skillHash := none
  skillExecutionHash := none
  aiPolicy := none

/-- Two events are enqueued. Dispatcher `1` fails to publish the first and publishes the second,
while dispatcher `2` publishes the first; a cleaner then deletes both. -/
def dispatchRun : List (Action Unit Unit) :=
  [.enqueue 0 sampleArgs 0 [], .announce 0 5, .commit 0, .tick, .enqueue 0 sampleArgs 1 [],
    .announce 0 6, .commit 0, .dispatch 1, .claim 1 5, .publish 1 (some []), .proceed 1, .commit 1,
    .dispatch 2, .claim 2 5, .claim 1 6, .publish 2 none, .publish 1 none, .proceed 1, .proceed 2,
    .commit 1, .commit 2, .tick, .purge 3, .proceed 3, .commit 3]

theorem outbox_safe_dispatchRun :
    ∃ s, run (step ⟨2, 0, 5⟩) .init dispatchRun = some s ∧ s.confirms.map (·.event) = [6, 5] ∧
      (∀ k row, Dict.get? s.outbox.committed k = some row → row.publishedAt ≠ none →
        s.Confirmed k row) ∧
      (∀ a s', step ⟨2, 0, 5⟩ s a = some s' → Keeps s s') ∧
      ∀ k, (s.confirms.filter fun c => c.event = k).length ≤ 1 := by
  have h : (run (step ⟨2, 0, 5⟩) .init dispatchRun).map (fun s => s.confirms.map (·.event)) =
      some [6, 5] := by
    decide
  obtain ⟨s, hs, hevents⟩ := Option.map_eq_some_iff.mp h
  have hcrash : EveryStep (step ⟨2, 0, 5⟩) (fun t a => ¬ CrashesConfirmed t a) .init dispatchRun := by
    decide
  obtain ⟨hpublished, hkeeps, honce⟩ := outbox_safe ⟨2, 0, 5⟩ hs
  exact ⟨s, hs, hevents, hpublished, hkeeps, honce hcrash⟩

end Outbox
