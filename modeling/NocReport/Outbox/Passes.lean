import NocReport.Foundation.Worklist
import NocReport.Outbox.Dispatch

set_option relaxedAutoImplicit false
set_option autoImplicit false

/-!
# A pass of one dispatcher

What one call of `dispatch_pending_events` (`api/app/outbox.py`) does while no other process is at
work on the outbox.

## Main definitions

* `Outbox.Broker` — what the call finds around it: the time, and the outcome of each publish.
* `Outbox.dispatchPendingEvents` — the call.
* `Outbox.IsOldest` — the oldest of the unpublished rows.

## Main results

* `Outbox.dispatchPendingEvents_oldest` — which rows are attempted, in which order, and what becomes
  of them.
-/

namespace Outbox

variable {Ref Digest : Type}

/-- What a call finds around it. -/
structure Broker (Ref Digest : Type) where
  /-- when the transaction that claims an event begins -/
  now : EventId → ℕ
  /-- `publish_message` of an event, with the text of the exception that it raises -/
  publish : EventId → OutboxEvent Ref Digest → Option PyStr

/-- A pass, with the events that it has attempted to publish. -/
structure Dispatched (Ref Digest : Type) where
  rows : Dict EventId (OutboxEvent Ref Digest)
  failedIds : List EventId
  attempted : List EventId
  published : ℕ

/-- The row is unpublished, and its publish has not failed in this pass. -/
def isPending (failedIds : List EventId) (k : EventId) (row : OutboxEvent Ref Digest) : Bool :=
  row.publishedAt.isNone && decide (k ∉ failedIds)

section Pass

variable (b : Broker Ref Digest)

/-- What becomes of a row that is claimed. -/
def Broker.settle (k : EventId) (row : OutboxEvent Ref Digest) : OutboxEvent Ref Digest :=
  match b.publish k row with
  | none => row.markPublished (b.now k)
  | some error => row.markFailed error

/-- A turn in which the event is published. -/
def Dispatched.succeed (pass : Dispatched Ref Digest) (k : EventId) (now : ℕ) :
    Dispatched Ref Digest where
  rows := Worklist.modify k (fun row => row.markPublished now) pass.rows
  failedIds := pass.failedIds
  attempted := pass.attempted ++ [k]
  published := pass.published + 1

/-- A turn in which its publish raises an exception. -/
def Dispatched.fail (pass : Dispatched Ref Digest) (k : EventId) (error : PyStr) :
    Dispatched Ref Digest where
  rows := Worklist.modify k (fun row => row.markFailed error) pass.rows
  failedIds := k :: pass.failedIds
  attempted := pass.attempted ++ [k]
  published := pass.published

/-- A turn of the loop, unless no row is left. -/
def dispatchTurn (pass : Dispatched Ref Digest) : Option (Dispatched Ref Digest) :=
  match Worklist.first OutboxEvent.createdAt (isPending pass.failedIds) pass.rows with
  | none => none
  | some (k, row) =>
    match b.publish k row with
    | some error => some (pass.fail k error)
    | none => some (pass.succeed k (b.now k))

/-- `dispatch_pending_events`; the rows afterwards, and the number that it returns. -/
def dispatchPendingEvents (batchSize : ℕ) (rows : Dict EventId (OutboxEvent Ref Digest)) :
    Dispatched Ref Digest :=
  Worklist.loop (dispatchTurn b) batchSize ⟨rows, [], [], 0⟩

/-- The publish of an event succeeds. -/
def Broker.publishes (r : EventId × OutboxEvent Ref Digest) : Bool := (b.publish r.1 r.2).isNone

end Pass

/-! ## One turn -/

/-- The rows that a pass can still claim, the oldest first. -/
def Dispatched.queue (pass : Dispatched Ref Digest) : Dict EventId (OutboxEvent Ref Digest) :=
  Worklist.queue OutboxEvent.createdAt (isPending pass.failedIds) pass.rows

/-- **A turn settles the oldest row**, and leaves the others in the queue. -/
lemma dispatchTurn_settles (b : Broker Ref Digest) :
    Worklist.Settles (dispatchTurn b) Dispatched.rows Dispatched.queue Dispatched.attempted
      Dispatched.published b.settle b.publishes fun _ => True where
  nodup := fun _ => Worklist.queue_keys_nodup
  stop := by
    intro pass h
    rw [dispatchTurn, Worklist.first_eq_head?, ← Dispatched.queue, h]
    rfl
  settle := by
    intro pass r rest hnodup h _
    obtain ⟨k, row⟩ := r
    have hmem : (k, row) ∈ pass.rows := (Worklist.mem_queue.mp (h ▸ List.mem_cons_self)).1
    have hfirst : Worklist.first OutboxEvent.createdAt (isPending pass.failedIds) pass.rows =
        some (k, row) := by
      rw [Worklist.first_eq_head?, ← Dispatched.queue, h]
      rfl
    cases hpublish : b.publish k row with
    | none =>
      have hsettle : row.markPublished (b.now k) = b.settle k row := by
        rw [Broker.settle, hpublish]
      have hrows : (pass.succeed k (b.now k)).rows =
          Worklist.modifyAll b.settle [(k, row)] pass.rows :=
        Worklist.modify_eq_modifyAll
          (f := fun row : OutboxEvent Ref Digest => row.markPublished (b.now k)) hnodup hmem hsettle
      have hrest : (pass.succeed k (b.now k)).queue = rest :=
        Worklist.queue_modify (f := fun row : OutboxEvent Ref Digest => row.markPublished (b.now k))
          hnodup (fun _ => rfl) h (fun _ _ _ => rfl) rfl
      refine ⟨pass.succeed k (b.now k), ?_, hrows, hrest, rfl, ?_⟩
      · rw [dispatchTurn, hfirst]
        simp only [hpublish]
      · simp [Broker.publishes, hpublish, Dispatched.succeed]
    | some error =>
      have hsettle : row.markFailed error = b.settle k row := by
        rw [Broker.settle, hpublish]
      have hrows : (pass.fail k error).rows = Worklist.modifyAll b.settle [(k, row)] pass.rows :=
        Worklist.modify_eq_modifyAll
          (f := fun row : OutboxEvent Ref Digest => row.markFailed error) hnodup hmem hsettle
      have hrest : (pass.fail k error).queue = rest := by
        refine Worklist.queue_modify (f := fun row : OutboxEvent Ref Digest => row.markFailed error)
          hnodup (fun _ => rfl) h (fun i r hi => ?_) ?_
        · simp [isPending, Dispatched.fail, hi]
        · simp [isPending, Dispatched.fail]
      refine ⟨pass.fail k error, ?_, hrows, hrest, rfl, ?_⟩
      · rw [dispatchTurn, hfirst]
        simp only [hpublish]
      · simp [Broker.publishes, hpublish, Dispatched.fail]

/-! ## The oldest rows -/

/-- The batch is made of the oldest of the unpublished rows, in the order in which they were
created, as many as there are or as the batch holds. -/
structure IsOldest (batchSize : ℕ) (rows batch : Dict EventId (OutboxEvent Ref Digest)) : Prop where
  length : batch.length = min batchSize (rows.filter fun r => r.2.publishedAt.isNone).length
  unpublished : ∀ r ∈ batch, r ∈ rows ∧ r.2.publishedAt = none
  inOrder : batch.Pairwise fun r r' => r.2.createdAt < r'.2.createdAt
  oldest : ∀ r ∈ rows, r.2.publishedAt = none → r ∉ batch →
    ∀ r' ∈ batch, r'.2.createdAt < r.2.createdAt

/-- **The pass of one dispatcher.** For every table of events with different ids whose unpublished
rows were created at different times, whatever the outcome of each publish, and for every size of the
batch, a pass attempts to publish exactly the oldest unpublished rows, each once, in the order in
which they were created; it marks those whose publish succeeds as published and notes the error of
those whose publish fails, leaves every other row as it is, and returns the number of successes. -/
theorem dispatchPendingEvents_oldest (b : Broker Ref Digest) (batchSize : ℕ)
    (rows : Dict EventId (OutboxEvent Ref Digest)) (hids : (rows.map (·.1)).Nodup)
    (htimes : ((rows.filter fun r => r.2.publishedAt.isNone).map (·.2.createdAt)).Nodup) :
    ∃ batch, IsOldest batchSize rows batch ∧
      (dispatchPendingEvents b batchSize rows).attempted = batch.map (·.1) ∧
      (dispatchPendingEvents b batchSize rows).rows = Worklist.modifyAll b.settle batch rows ∧
      (dispatchPendingEvents b batchSize rows).published = batch.countP b.publishes := by
  have hpending : (fun r : EventId × OutboxEvent Ref Digest => isPending [] r.1 r.2) =
      fun r => r.2.publishedAt.isNone := by
    funext r
    simp [isPending]
  have horder : (Worklist.queue OutboxEvent.createdAt (isPending []) rows).Pairwise
      fun r r' => r.2.createdAt < r'.2.createdAt :=
    Worklist.pairwise_lt_queue (by rwa [hpending])
  have hmem : ∀ r : EventId × OutboxEvent Ref Digest,
      r ∈ Worklist.queue OutboxEvent.createdAt (isPending []) rows ↔
        r ∈ rows ∧ r.2.publishedAt = none := by
    intro r
    rw [Worklist.mem_queue, congrFun hpending r, Option.isNone_iff_eq_none]
  obtain ⟨hrows, -, hattempted, hpublished⟩ :
      (dispatchPendingEvents b batchSize rows).rows = _ ∧ _ ∧ _ ∧ _ :=
    (dispatchTurn_settles b).loop batchSize hids fun _ _ => trivial
  refine ⟨(Worklist.queue OutboxEvent.createdAt (isPending []) rows).take batchSize, ⟨?_, ?_, ?_, ?_⟩,
    hattempted, hrows, hpublished.trans (Nat.zero_add _)⟩
  · rw [List.length_take, Worklist.length_queue, hpending]
  · exact fun r hr => (hmem r).mp (List.mem_of_mem_take hr)
  · exact horder.sublist (List.take_sublist _ _)
  · intro r hr hunpublished hleft
    exact Worklist.lt_of_not_mem_take horder ((hmem r).mpr ⟨hr, hunpublished⟩) hleft

/-! ## A sample -/

/-- Two events, the older of which cannot be published, and one that has been published. -/
def flakyRows : Dict EventId (OutboxEvent Unit Unit) :=
  [(7, newOutboxEvent sampleArgs 1 [] 4), (5, newOutboxEvent sampleArgs 0 [] 2),
    (3, { newOutboxEvent sampleArgs 2 [] 0 with publishedAt := some 1 })]

/-- A broker that refuses the messages of one job. -/
def flakyBroker : Broker Unit Unit where
  now := fun _ => 9
  publish := fun _ row => if row.jobId = 0 then some (py "broker unreachable") else none

/-- `dispatchPendingEvents_oldest` at the events of which one cannot be published. -/
theorem flakyRows_dispatched :
    (∃ batch, IsOldest 10 flakyRows batch ∧
      (dispatchPendingEvents flakyBroker 10 flakyRows).attempted = batch.map (·.1)) ∧
    (dispatchPendingEvents flakyBroker 10 flakyRows).attempted = [5, 7] ∧
    (dispatchPendingEvents flakyBroker 10 flakyRows).published = 1 ∧
    (dispatchPendingEvents flakyBroker 10 flakyRows).rows.map (fun r =>
        (r.1, r.2.publishedAt, r.2.attemptCount)) =
      [(7, some 9, 0), (5, none, 1), (3, some 1, 0)] := by
  obtain ⟨batch, hbatch, hattempted, -⟩ :=
    dispatchPendingEvents_oldest flakyBroker 10 flakyRows (by decide) (by decide)
  exact ⟨⟨batch, hbatch, hattempted⟩, by decide, by decide, by decide⟩

end Outbox
