import NocReport.Foundation.Amqp
import NocReport.Jobs.Progress
import NocReport.Outbox.Enqueue

set_option relaxedAutoImplicit false
set_option autoImplicit false

/-!
# The queues of the job types

The exchanges and queues that `declare_topology` declares, the same on the side of the API
(`core/queue.py`) and of the workers (`queue_topology.py`), and the operations of both on them. The
job types are read from a file, so they are any list of names here; what they have to satisfy is
that no two names of queues or of routing keys meet.

The job system of `Jobs.System` has the queues of one job type. Here they are queues of a broker,
next to those of the other job types.

## Main definitions

* `Jobs.queueNames`, `Jobs.declareTopology` — the functions of these names.
* `Jobs.Separate` — the names of the queues and of the routing keys do not meet.
* `Jobs.Lane`, `Jobs.laneRules` — the three queues of one job type on their own.
* `Jobs.BrokerOp`, `Jobs.brokerStep` — what dispatchers, workers and administrators do.
* `Jobs.State.Realized` — a lane holds what a state of the job system says.

## Main results

* `Jobs.broker_lane` — each job type has a broker of its own.
* `Jobs.system_on_broker` — every run of the job system is a run of the broker.
-/

namespace Jobs

open Amqp Transition

/-! ## Names -/

def jobsExchange : PyStr := py "noc.jobs"

def eventsExchange : PyStr := py "noc.events"

def dlxExchange : PyStr := py "noc.dlx"

def eventsQueue : PyStr := py "noc.events.log"

def retryTtlMs : ℕ := 30000

/-- `JOB_TYPES` of `job_protocol.json`. -/
def jobTypes : List PyStr := [Outbox.JobType.logTriage.name, Outbox.JobType.dailyReport.name]

/-- The three queues of a job type. -/
inductive Slot
  | main | retry | dlq
  deriving DecidableEq, Repr

/-- What `queue_names` returns. -/
structure QueueNames where
  queue : Slot → PyStr
  routingKey : PyStr

/-- `queue_names`. -/
def queueNames (jobType : PyStr) : QueueNames :=
  let slug := jobType.map fun c => if c = 95 then 45 else c
  { queue := fun x =>
      match x with
      | .main => py "noc.jobs." ++ slug
      | .retry => py "noc.jobs." ++ slug ++ py ".retry"
      | .dlq => py "noc.jobs." ++ slug ++ py ".dlq"
    routingKey := py "job." ++ jobType }

/-- The routing key of `send_to_dlq`. -/
def QueueNames.dlqKey (names : QueueNames) : PyStr := names.routingKey ++ py ".dlq"

/-- The declarations for one job type. -/
def declareQueues (names : QueueNames) : List Declaration :=
  [.queue (names.queue .main) ⟨some (dlxExchange, names.routingKey), none⟩,
    .bind (names.queue .main) jobsExchange names.routingKey,
    .queue (names.queue .retry) ⟨some (jobsExchange, names.routingKey), some retryTtlMs⟩,
    .bind (names.queue .retry) dlxExchange names.routingKey,
    .queue (names.queue .dlq) ⟨none, none⟩,
    .bind (names.queue .dlq) dlxExchange names.dlqKey]

/-- `declare_topology`. -/
def declareTopology (jobTypes : List PyStr) : List Declaration :=
  [.exchange jobsExchange .direct, .exchange eventsExchange .topic,
    .exchange dlxExchange .direct] ++
  jobTypes.flatMap (fun t => declareQueues (queueNames t)) ++
  [.queue eventsQueue ⟨none, none⟩, .bind eventsQueue eventsExchange (py "event.job.#")]

/-- No two names of queues or of routing keys meet. -/
structure Separate (ts : List PyStr) : Prop where
  queues : ∀ t ∈ ts, ∀ t' ∈ ts, ∀ x y, (queueNames t).queue x = (queueNames t').queue y →
    t = t' ∧ x = y
  events : ∀ t ∈ ts, ∀ x, (queueNames t).queue x ≠ eventsQueue
  keys : ∀ t ∈ ts, ∀ t' ∈ ts, (queueNames t).routingKey ≠ (queueNames t').dlqKey

lemma forall_slot {p : Slot → Prop} : (∀ x, p x) ↔ p .main ∧ p .retry ∧ p .dlq := by
  constructor
  · exact fun h => ⟨h _, h _, h _⟩
  · rintro ⟨hm, hr, hd⟩ x
    cases x
    · exact hm
    · exact hr
    · exact hd

/-- The names of the job types of the protocol do not meet. -/
lemma separate_jobTypes : Separate jobTypes where
  queues := by
    simp only [forall_slot]
    decide
  events := by
    simp only [forall_slot]
    decide
  keys := by decide

/-! ## Routing -/

section Routing

variable {ts : List PyStr} {T : Topology} {t t' : PyStr} {q x k : PyStr} {y : Slot}

/-- The broker on which nothing has been declared but what `declare_topology` declares. -/
def Declared (ts : List PyStr) (T : Topology) : Prop :=
  Topology.empty.declareAll (declareTopology ts) = some T

lemma mem_declareTopology {d : Declaration} (ht : t ∈ ts) (h : d ∈ declareQueues (queueNames t)) :
    d ∈ declareTopology ts := by
  simp only [declareTopology, List.mem_append, List.mem_flatMap]
  exact .inl (.inr ⟨t, ht, h⟩)

/-- The bindings to the two exchanges of the jobs. -/
inductive IsBinding (ts : List PyStr) : PyStr → PyStr → PyStr → Prop
  | main (t : PyStr) (ht : t ∈ ts) :
      IsBinding ts ((queueNames t).queue .main) jobsExchange (queueNames t).routingKey
  | retry (t : PyStr) (ht : t ∈ ts) :
      IsBinding ts ((queueNames t).queue .retry) dlxExchange (queueNames t).routingKey
  | dlq (t : PyStr) (ht : t ∈ ts) :
      IsBinding ts ((queueNames t).queue .dlq) dlxExchange (queueNames t).dlqKey
  | events : IsBinding ts eventsQueue eventsExchange (py "event.job.#")

namespace Declared

variable (hT : Declared ts T)
include hT

lemma isBinding (h : (q, x, k) ∈ T.bindings) : IsBinding ts q x k := by
  rcases (Topology.of_declareAll hT).2.2 _ h with h | h
  · cases h
  · simp only [declareTopology, List.mem_append, List.mem_flatMap, List.mem_cons,
      List.not_mem_nil, or_false, reduceCtorEq, false_or, Declaration.bind.injEq] at h
    rcases h with ⟨t, ht, h⟩ | ⟨rfl, rfl, rfl⟩
    · simp only [declareQueues, List.mem_cons, List.not_mem_nil, or_false, reduceCtorEq, false_or,
        Declaration.bind.injEq] at h
      rcases h with ⟨rfl, rfl, rfl⟩ | ⟨rfl, rfl, rfl⟩ | ⟨rfl, rfl, rfl⟩
      · exact .main t ht
      · exact .retry t ht
      · exact .dlq t ht
    · exact .events

lemma lookup_jobs : T.exchanges.lookup jobsExchange = some .direct :=
  Topology.has_of_declareAll hT (.exchange jobsExchange .direct) (by simp [declareTopology])

lemma lookup_dlx : T.exchanges.lookup dlxExchange = some .direct :=
  Topology.has_of_declareAll hT (.exchange dlxExchange .direct) (by simp [declareTopology])

variable (hts : Separate ts) (ht : t ∈ ts) (ht' : t' ∈ ts)
include hts ht ht'

/-- A message published for a job type goes to the main queue of the job type. -/
lemma mem_routed_main : (queueNames t').queue y ∈ T.routed jobsExchange (queueNames t).routingKey ↔
    t' = t ∧ y = .main := by
  rw [Topology.mem_routed_direct hT.lookup_jobs]
  constructor
  · intro h
    generalize hq : (queueNames t').queue y = q at h
    generalize hx : jobsExchange = x at h
    generalize hk : (queueNames t).routingKey = k at h
    cases hT.isBinding h with
    | main u hu =>
      obtain ⟨rfl, rfl⟩ := hts.queues t' ht' u hu _ _ hq
      exact ⟨(List.append_cancel_left hk).symm, rfl⟩
    | retry | dlq | events => exact absurd hx (by decide)
  · rintro ⟨rfl, rfl⟩
    exact (Topology.has_of_declareAll hT (.bind _ _ _) (mem_declareTopology ht
      (by simp [declareQueues]))).2.2

/-- What is published as a retry, or rejected, goes to the retry queue of the job type. -/
lemma mem_routed_retry : (queueNames t').queue y ∈ T.routed dlxExchange (queueNames t).routingKey ↔
    t' = t ∧ y = .retry := by
  rw [Topology.mem_routed_direct hT.lookup_dlx]
  constructor
  · intro h
    generalize hq : (queueNames t').queue y = q at h
    generalize hx : dlxExchange = x at h
    generalize hk : (queueNames t).routingKey = k at h
    cases hT.isBinding h with
    | retry u hu =>
      obtain ⟨rfl, rfl⟩ := hts.queues t' ht' u hu _ _ hq
      exact ⟨(List.append_cancel_left hk).symm, rfl⟩
    | dlq u hu => exact absurd hk (hts.keys t ht u hu)
    | main | events => exact absurd hx (by decide)
  · rintro ⟨rfl, rfl⟩
    exact (Topology.has_of_declareAll hT (.bind _ _ _) (mem_declareTopology ht
      (by simp [declareQueues]))).2.2

/-- What is sent to the dead-letter queue goes to that of the job type. -/
lemma mem_routed_dlq : (queueNames t').queue y ∈ T.routed dlxExchange (queueNames t).dlqKey ↔
    t' = t ∧ y = .dlq := by
  rw [Topology.mem_routed_direct hT.lookup_dlx]
  constructor
  · intro h
    generalize hq : (queueNames t').queue y = q at h
    generalize hx : dlxExchange = x at h
    generalize hk : (queueNames t).dlqKey = k at h
    cases hT.isBinding h with
    | dlq u hu =>
      obtain ⟨rfl, rfl⟩ := hts.queues t' ht' u hu _ _ hq
      exact ⟨(List.append_cancel_left (List.append_cancel_right hk)).symm, rfl⟩
    | retry u hu => exact absurd hk.symm (hts.keys u hu t ht)
    | main | events => exact absurd hx (by decide)
  · rintro ⟨rfl, rfl⟩
    exact (Topology.has_of_declareAll hT (.bind _ _ _) (mem_declareTopology ht
      (by simp [declareQueues]))).2.2

end Declared

end Routing

/-! ## The queues of one job type -/

/-- The queues of one job type, on their own. -/
abbrev Lane (C M : Type) := Store Slot C M

/-- The main queue dead-letters to the retry queue, whose messages go back when they expire. -/
@[simps]
def laneRules {M : Type} (persistent : M → Bool) : Store.Rules Slot M where
  deadLetter := fun x =>
    match x with
    | .main => [.retry]
    | .retry => [.main]
    | .dlq => []
  expires := fun x => x = .retry
  persistent := persistent

/-- The slot of a queue, if it is one of the job type. -/
def slotOf (t q : PyStr) : Option Slot :=
  if q = (queueNames t).queue .main then some .main
  else if q = (queueNames t).queue .retry then some .retry
  else if q = (queueNames t).queue .dlq then some .dlq
  else none

variable {ts : List PyStr} {T : Topology} {t t' : PyStr} {C M : Type} {persistent : M → Bool}

lemma slotOf_eq_some (hts : Separate ts) (ht : t ∈ ts) (q : PyStr) (x : Slot) :
    slotOf t q = some x ↔ q = (queueNames t).queue x := by
  have hinj : ∀ x y, (queueNames t).queue x = (queueNames t).queue y → x = y := fun x y h =>
    (hts.queues t ht t ht x y h).2
  constructor
  · intro h
    unfold slotOf at h
    split at h
    · cases h
      assumption
    · split at h
      · cases h
        assumption
      · split at h
        · cases h
          assumption
        · cases h
  · rintro rfl
    have hmr : (queueNames t).queue .retry ≠ (queueNames t).queue .main := fun h =>
      absurd (hinj _ _ h) (by decide)
    have hdm : (queueNames t).queue .dlq ≠ (queueNames t).queue .main := fun h =>
      absurd (hinj _ _ h) (by decide)
    have hdr : (queueNames t).queue .dlq ≠ (queueNames t).queue .retry := fun h =>
      absurd (hinj _ _ h) (by decide)
    cases x <;> simp [slotOf, hmr, hdm, hdr]

/-- The arguments of the queues of a job type. -/
def QueueNames.arguments (names : QueueNames) : Slot → Arguments
  | .main => ⟨some (dlxExchange, names.routingKey), none⟩
  | .retry => ⟨some (jobsExchange, names.routingKey), some retryTtlMs⟩
  | .dlq => ⟨none, none⟩

namespace Declared

variable (hT : Declared ts T)
include hT

lemma lookup_queue (ht : t ∈ ts) (x : Slot) :
    T.queues.lookup ((queueNames t).queue x) = some ((queueNames t).arguments x) :=
  Topology.has_of_declareAll hT (.queue _ _) (mem_declareTopology ht (by
    cases x <;> simp [declareQueues, QueueNames.arguments]))

/-- A queue that exists is one of a job type, or the log of the events. -/
lemma queue_cases {q : PyStr} {arguments : Arguments}
    (h : T.queues.lookup q = some arguments) :
    (∃ t ∈ ts, ∃ x, q = (queueNames t).queue x) ∨ arguments = ⟨none, none⟩ := by
  rcases (Topology.of_declareAll hT).2.1 _ _ h with h | h
  · cases h
  · simp only [declareTopology, List.mem_append, List.mem_flatMap, List.mem_cons,
      List.not_mem_nil, or_false, reduceCtorEq, false_or, Declaration.queue.injEq] at h
    rcases h with ⟨t, ht, h⟩ | ⟨-, rfl⟩
    · simp only [declareQueues, List.mem_cons, List.not_mem_nil, or_false, reduceCtorEq, false_or,
        Declaration.queue.injEq] at h
      rcases h with ⟨rfl, -⟩ | ⟨rfl, -⟩ | ⟨rfl, -⟩ <;> exact .inl ⟨t, ht, _, rfl⟩
    · exact .inr rfl

/-- What a queue of a job type dead-letters stays with the job type. -/
lemma mem_deadLetter (hts : Separate ts) (ht : t ∈ ts) (ht' : t' ∈ ts) (x y : Slot) :
    (queueNames t').queue y ∈ (T.rules persistent).deadLetter ((queueNames t).queue x) ↔
      t' = t ∧ y ∈ (laneRules persistent).deadLetter x := by
  simp only [Topology.rules_deadLetter, hT.lookup_queue ht, Option.bind_some]
  cases x with
  | main =>
    simpa [QueueNames.arguments] using hT.mem_routed_retry hts ht ht' (y := y)
  | retry =>
    simpa [QueueNames.arguments] using hT.mem_routed_main hts ht ht' (y := y)
  | dlq => simp [QueueNames.arguments]

/-- **The queues of a job type dead-letter among themselves.** -/
lemma isPart (hts : Separate ts) (ht : t ∈ ts) :
    Store.IsPart (queueNames t).queue (slotOf t) (T.rules persistent) (laneRules persistent) where
  part_eq_some := slotOf_eq_some hts ht
  inside := fun x y => (hT.mem_deadLetter hts ht ht x y).trans (and_iff_right rfl)
  outside := by
    intro q y hq hmem
    have htarget := hmem
    simp only [Topology.rules_deadLetter] at htarget
    cases hl : T.queues.lookup q with
    | none => simp [hl] at htarget
    | some arguments =>
      rcases hT.queue_cases hl with ⟨t', ht', x, rfl⟩ | rfl
      · obtain ⟨rfl, -⟩ := (hT.mem_deadLetter hts ht' ht x y).mp hmem
        rw [(slotOf_eq_some hts ht _ x).mpr rfl] at hq
        cases hq
      · simp [hl] at htarget
  expires := by
    intro x
    simp only [Topology.rules_expires, hT.lookup_queue ht, laneRules_expires]
    cases x <;> rfl
  persistent := rfl

end Declared

/-- What has been declared for the job types of the protocol. -/
def declaredTopology : Topology :=
  (Topology.empty.declareAll (declareTopology jobTypes)).getD .empty

lemma declared_jobTypes : Declared jobTypes declaredTopology := by
  unfold Declared
  decide

/-! ## What is done with the queues -/

/-- What the dispatchers, the workers and the administrators do with the queues of the job types
`J`, and what happens to them. -/
inductive BrokerOp (J C M : Type)
  /-- `publish_message`, and the publish of `requeue_one_dlq_message` -/
  | dispatch (t : J) (m : M)
  /-- the publish of `_settle_failure` -/
  | retry (t : J) (m : M)
  /-- `send_to_dlq`, also by `send_raw_to_dlq` -/
  | sendToDlq (t : J) (m : M)
  /-- a delivery to a worker, or a `basic_get` -/
  | deliver (t : J) (c : C) (x : Slot) (m : M)
  | ack (t : J) (c : C) (x : Slot) (m : M)
  /-- `basic_nack` without requeueing -/
  | nack (t : J) (c : C) (x : Slot) (m : M)
  /-- the TTL of a message is over -/
  | expire (t : J) (x : Slot) (m : M)
  | disconnect (c : C)
  | restart
  /-- `purge_dlq` -/
  | purgeDlq (t : J)

namespace BrokerOp

/-- The operation of the broker. -/
def toOp : BrokerOp { t : PyStr // t ∈ ts } C M → Amqp.Op C M
  | dispatch t m => .publish jobsExchange (queueNames t).routingKey m
  | retry t m => .publish dlxExchange (queueNames t).routingKey m
  | sendToDlq t m => .publish dlxExchange (queueNames t).dlqKey m
  | deliver t c x m => .deliver c ((queueNames t).queue x) m
  | ack t c x m => .ack c ((queueNames t).queue x) m
  | nack t c x m => .reject c ((queueNames t).queue x) m
  | expire t x m => .expire ((queueNames t).queue x) m
  | disconnect c => .disconnect c
  | restart => .restart
  | purgeDlq t => .purge ((queueNames t).queue .dlq)

/-- The operation on the queues of a job type. -/
def toLane {J : Type} : BrokerOp J C M → Store.Op Slot C M
  | dispatch _ m => .publish [.main] m
  | retry _ m => .publish [.retry] m
  | sendToDlq _ m => .publish [.dlq] m
  | deliver _ c x m => .deliver c x m
  | ack _ c x m => .ack c x m
  | nack _ c x m => .reject c x m
  | expire _ x m => .expire x m
  | disconnect c => .disconnect c
  | restart => .restart
  | purgeDlq _ => .purge .dlq

/-- The job type whose queues an operation names; the others concern all queues. -/
def jobType? {J : Type} : BrokerOp J C M → Option J
  | dispatch t _ | retry t _ | sendToDlq t _ | deliver t _ _ _ | ack t _ _ _ | nack t _ _ _
  | expire t _ _ | purgeDlq t => some t
  | disconnect _ | restart => none

/-- What an operation is for the queues of job type `t`. -/
def forType {J : Type} [DecidableEq J] (t : J) (op : BrokerOp J C M) :
    Option (Store.Op Slot C M) :=
  if op.jobType?.all (· = t) then some op.toLane else none

end BrokerOp

section Lanes

variable [DecidableEq C] [DecidableEq M]

/-- One step of the broker of the job types. -/
def brokerStep (persistent : M → Bool) (b : Broker C M) (op : BrokerOp { t : PyStr // t ∈ ts } C M) :
    Option (Broker C M) :=
  b.step persistent op.toOp

/-- The broker on which the queues of the job types have been declared, all of them empty. -/
def freshBroker (T : Topology) : Broker C M := ⟨T, .empty⟩

/-- The queues of job type `t`. -/
def lane (b : Broker C M) (t : PyStr) : Lane C M :=
  b.store.restrict (queueNames t).queue (slotOf t)

variable {b b' : Broker C M} {op : BrokerOp { t : PyStr // t ∈ ts } C M}

lemma slotOf_queue (hts : Separate ts) (ht : t ∈ ts) (ht' : t' ∈ ts) (x : Slot) :
    slotOf t ((queueNames t').queue x) = if t' = t then some x else none := by
  split
  · next h =>
    subst h
    exact (slotOf_eq_some hts ht _ x).mpr rfl
  · next h =>
    rw [Option.eq_none_iff_forall_ne_some]
    intro y hy
    exact h (hts.queues t' ht' t ht x y ((slotOf_eq_some hts ht _ y).mp hy)).1

/-- A message that is published for a job type reaches one slot of it, and no other job type. -/
lemma step_publish {s : Store PyStr C M} {qs : List PyStr} {x : Slot} {m : M}
    (h : ∀ y, (queueNames t).queue y ∈ qs ↔ t = t' ∧ y = x) :
    (if t' = t then some (Store.Op.publish [x] m : Store.Op Slot C M) else none).elim
      ((s.enqueue qs m).restrict (queueNames t).queue (slotOf t) =
        s.restrict (queueNames t).queue (slotOf t))
      fun o => (s.restrict (queueNames t).queue (slotOf t)).step (laneRules persistent) o =
        some ((s.enqueue qs m).restrict (queueNames t).queue (slotOf t)) := by
  split
  · next htt => exact congrArg some (Store.restrict_enqueue fun y => by simp [h, htt]).symm
  · next htt => exact Store.restrict_enqueue_outside fun y hy => htt ((h y).mp hy).1.symm

/-- **A step of the broker is a step of each job type that it concerns.** -/
lemma brokerStep_lane (hts : Separate ts) (hT : Declared ts T) (hb : b.topology = T)
    (h : brokerStep persistent b op = some b') (t : { t : PyStr // t ∈ ts }) :
    b'.topology = T ∧ (op.forType t).elim (lane b' t = lane b t) fun o =>
      (lane b t).step (laneRules persistent) o = some (lane b' t) := by
  obtain ⟨t, ht⟩ := t
  subst hb
  obtain ⟨store, hstore, rfl⟩ := Option.map_eq_some_iff.mp h
  refine ⟨rfl, ?_⟩
  have hstep := Store.step_restrict (hT.isPart hts ht) hstore
  cases op with
  | dispatch t' m =>
    obtain ⟨t', ht'⟩ := t'
    cases hstore
    simpa [BrokerOp.forType, BrokerOp.jobType?, BrokerOp.toLane, lane] using
      step_publish (s := b.store) (m := m) fun y => hT.mem_routed_main hts ht' ht (y := y)
  | retry t' m =>
    obtain ⟨t', ht'⟩ := t'
    cases hstore
    simpa [BrokerOp.forType, BrokerOp.jobType?, BrokerOp.toLane, lane] using
      step_publish (s := b.store) (m := m) fun y => hT.mem_routed_retry hts ht' ht (y := y)
  | sendToDlq t' m =>
    obtain ⟨t', ht'⟩ := t'
    cases hstore
    simpa [BrokerOp.forType, BrokerOp.jobType?, BrokerOp.toLane, lane] using
      step_publish (s := b.store) (m := m) fun y => hT.mem_routed_dlq hts ht' ht (y := y)
  | deliver t' | ack t' | nack t' | expire t' | purgeDlq t' =>
    obtain ⟨t', ht'⟩ := t'
    have hslot := fun x => slotOf_queue hts ht ht' x
    by_cases htt : t' = t
    · subst htt
      simp only [if_true] at hslot
      simpa [BrokerOp.toOp, Op.route, Store.Op.restrict, hslot, BrokerOp.forType,
        BrokerOp.jobType?, BrokerOp.toLane, lane] using hstep
    · simpa [BrokerOp.toOp, Op.route, Store.Op.restrict, hslot, htt, BrokerOp.forType,
        BrokerOp.jobType?, lane] using hstep
  | disconnect c => exact hstep
  | restart => exact hstep

/-- An operation that is possible for its job type is possible for the broker. -/
lemma brokerStep_isSome (hts : Separate ts) (hT : Declared ts T) (hb : b.topology = T)
    (h : ∀ t o, op.forType t = some o → ((lane b t).step (laneRules persistent) o).isSome) :
    (brokerStep persistent b op).isSome := by
  subst hb
  simp only [brokerStep, Broker.step, Option.isSome_map]
  cases op with
  | dispatch | retry | sendToDlq | disconnect | restart | purgeDlq => rfl
  | deliver t | ack t | nack t | expire t =>
    have hlane := h t _ (if_pos (by simp [BrokerOp.jobType?]))
    refine Store.step_isSome (hT.isPart hts t.2) ?_ hlane
    simp [BrokerOp.toOp, Op.route, Store.Op.restrict, slotOf_queue hts t.2 t.2, BrokerOp.toLane]

variable (persistent) in
/-- A run of the broker is a run of each job type, and it is possible when those are. -/
lemma brokerRun_lane (hts : Separate ts) (hT : Declared ts T)
    (ops : List (BrokerOp { t : PyStr // t ∈ ts } C M)) {b₀ : Broker C M}
    (hb₀ : b₀.topology = T) :
    (∀ b, run (brokerStep persistent) b₀ ops = some b → ∀ t : { t : PyStr // t ∈ ts },
      run (Store.step (laneRules persistent)) (lane b₀ t) (ops.filterMap (·.forType t)) =
        some (lane b t)) ∧
    ((∀ t : { t : PyStr // t ∈ ts }, (run (Store.step (laneRules persistent)) (lane b₀ t)
      (ops.filterMap (·.forType t))).isSome) →
      (run (brokerStep persistent) b₀ ops).isSome) := by
  induction ops generalizing b₀ with
  | nil =>
    refine ⟨fun b h t => ?_, fun _ => rfl⟩
    cases h
    rfl
  | cons op ops ih =>
    -- the first step of a job type, if it has one
    have hfirst : ∀ b₁, brokerStep persistent b₀ op = some b₁ → b₁.topology = T ∧
        ∀ t : { t : PyStr // t ∈ ts },
        run (Store.step (laneRules persistent)) (lane b₀ t)
          ((op :: ops).filterMap (·.forType t)) =
        run (Store.step (laneRules persistent)) (lane b₁ t) (ops.filterMap (·.forType t)) := by
      intro b₁ h
      refine ⟨?_, fun t => ?_⟩
      · obtain ⟨store, -, rfl⟩ := Option.map_eq_some_iff.mp h
        exact hb₀
      · have hstep := (brokerStep_lane hts hT hb₀ h t).2
        cases hop : op.forType t with
        | none =>
          rw [hop, Option.elim_none] at hstep
          rw [List.filterMap_cons_none hop, hstep]
        | some o =>
          rw [hop, Option.elim_some] at hstep
          rw [List.filterMap_cons_some hop, run_cons, hstep]
          rfl
    constructor
    · intro b h t
      rw [run_cons] at h
      obtain ⟨b₁, hb₁, hrest⟩ := Option.bind_eq_some_iff.mp h
      obtain ⟨htop, hlane⟩ := hfirst b₁ hb₁
      rw [hlane t]
      exact (ih htop).1 b hrest t
    · intro h
      have hsome : (brokerStep persistent b₀ op).isSome := brokerStep_isSome hts hT hb₀ ?_
      · obtain ⟨b₁, hb₁⟩ := Option.isSome_iff_exists.mp hsome
        obtain ⟨htop, hlane⟩ := hfirst b₁ hb₁
        rw [run_cons, hb₁]
        exact (ih htop).2 fun t => hlane t ▸ h t
      · intro t o hop
        have ht := h t
        rw [List.filterMap_cons_some hop, run_cons] at ht
        exact Option.isSome_of_isSome_bind ht

/-- **Each job type has a broker of its own.** On the broker that has the queues of all job types,
what is done with those of one job type has the effect that it has on its own: each run of the
broker is a run of each job type, and a run of the operations is possible when it is possible for
each job type. -/
theorem broker_lane (hts : Separate ts) (hT : Declared ts T)
    (ops : List (BrokerOp { t : PyStr // t ∈ ts } C M)) :
    (∀ b, run (brokerStep persistent) (freshBroker T) ops = some b →
      ∀ t : { t : PyStr // t ∈ ts },
      run (Store.step (laneRules persistent)) .empty (ops.filterMap (·.forType t)) =
        some (lane b t)) ∧
    ((∀ t, (run (Store.step (laneRules persistent)) (.empty : Lane C M)
      (ops.filterMap (·.forType t))).isSome) →
      (run (brokerStep persistent) (freshBroker T) ops).isSome) :=
  brokerRun_lane persistent hts hT ops rfl

/-- One job of each type is dispatched, and the first is delivered before the broker restarts. -/
def twoJobs : List (BrokerOp { t : PyStr // t ∈ jobTypes } Unit ℕ) :=
  [.dispatch ⟨py "log_triage", by decide⟩ 0, .dispatch ⟨py "daily_report", by decide⟩ 1,
    .deliver ⟨py "log_triage", by decide⟩ () .main 0, .restart]

/-- `broker_lane` speaks about `twoJobs`. -/
theorem broker_lane_twoJobs :
    (run (brokerStep fun _ => true) (freshBroker declaredTopology) twoJobs).isSome := by
  refine (broker_lane separate_jobTypes declared_jobTypes twoJobs).2 ?_
  rintro ⟨t, ht⟩
  simp only [jobTypes, List.mem_cons, List.not_mem_nil, or_false] at ht
  rcases ht with rfl | rfl <;> decide +revert

end Lanes

/-! ## The job system on the broker -/

/-- The clients of the broker that consume. -/
inductive Client
  | worker (w : WorkerId)
  /-- the connection of an administrator's request -/
  | admin
  deriving DecidableEq, Repr

/-- What is published: a message of a job, or the diagnosis of a body that is none. -/
inductive Body
  | job (m : Message)
  | quarantine
  deriving DecidableEq, Repr

def Body.isPersistent : Body → Bool
  | job m => m.persistent
  | quarantine => true

/-- A delivery to a worker, as the broker sees it. -/
def delivery (d : WorkerId × Message) : Client × Slot × Body := (.worker d.1, .main, .job d.2)

/-- The queues hold what the state of the job system says. It does not keep the quarantined
bodies. -/
structure State.Realized (l : Lane Client Body) (s : State) : Prop where
  main : l.ready .main = (s.main : Multiset Message).map .job
  retry : l.ready .retry = (s.retry : Multiset Message).map .job
  dlq : (l.ready .dlq).filter (· ≠ .quarantine) = (s.dlq : Multiset Message).map .job
  unacked : l.unacked = (s.unacked : Multiset (WorkerId × Message)).map delivery

/-- A worker that is in a phase publishes, acknowledges and rejects, as far as it is connected. -/
def workerOps {J : Type} (t : J) (s : State) (w : WorkerId) (m : Message) (p : Phase) :
    WorkerAction → List (BrokerOp J Client Body)
  | .crash | .disconnect => [.disconnect (.worker w)]
  | .proceed =>
    if s.unacked.any fun delivery => delivery = (w, m) then
      match p with
      | .quarantining => [.sendToDlq t .quarantine]
      | .nackingBusy => [.nack t (.worker w) .main (.job m)]
      | .ackingCompleted _ | .acking => [.ack t (.worker w) .main (.job m)]
      | .publishingRetry _ => [.retry t (.job m.retryCopy)]
      | .publishingDlq _ => [.sendToDlq t (.job m.deadLetter)]
      | _ => []
    else []
  | .claim _ | .succeed | .raise _ | .renew => []

/-- What a step of the job system does with the queues of its job type. -/
def brokerOps {J : Type} (t : J) (s : State) : Action → List (BrokerOp J Client Body)
  | .dispatchPublish j => [.dispatch t (.job (.dispatched j))]
  | .deliver w m => [.deliver t (.worker w) .main (.job m)]
  | .worker w b => (s.handlers w).elim [] fun h => workerOps t s w h.message h.phase b
  | .expireRetry m => [.expire t .retry (.job m)]
  | .restartBroker => [.restart]
  | .requeuePublish m acked =>
    [.deliver t .admin .dlq (.job m), .dispatch t (.job m.requeued),
      if acked then .ack t .admin .dlq (.job m) else .disconnect .admin]
  | .tick | .enqueue _ | .dispatchMark _ | .dispatchCrash _ | .requeueReset _
  | .requeueCrash _ => []

section Realized

variable {cfg : Config} {s s' : State} {a : Action} {w : WorkerId} {m : Message} {p : Phase}
  {l : Lane Client Body}

lemma coe_concat {α : Type} (xs : List α) (x : α) :
    ((xs ++ [x] : List α) : Multiset α) = x ::ₘ xs := by
  rw [← Multiset.coe_add, Multiset.add_comm]
  rfl

lemma coe_filter {α : Type} (p : α → Bool) (xs : List α) :
    ((xs.filter p : List α) : Multiset α) = (xs : Multiset α).filter fun x => p x = true := by
  rw [Multiset.filter_coe]
  simp

lemma body_job_injective : Function.Injective Body.job := fun _ _ h => Body.job.inj h

lemma delivery_injective : Function.Injective delivery := by
  rintro ⟨w, m⟩ ⟨w', m'⟩ h
  cases h
  rfl

/-- The message has not been acknowledged by the worker, as `workerOps` asks it. -/
lemma any_unacked : (s.unacked.any fun d => d = (w, m)) = true ↔ (w, m) ∈ s.unacked := by
  rw [List.any_eq_true]
  constructor
  · rintro ⟨d, hd, heq⟩
    exact of_decide_eq_true heq ▸ hd
  · exact fun h => ⟨(w, m), h, decide_eq_true rfl⟩

/-- A worker that is connected has one delivery, the one it handles. -/
structure Delivers (s : State) (w : WorkerId) (m : Message) : Prop where
  only : ∀ m', (w, m') ∈ s.unacked → m' = m
  nodup : s.unacked.Nodup

namespace Delivers

variable (hd : Delivers s w m)
include hd

lemma filter_worker : (s.unacked : Multiset _).filter (fun d => d.1 = w) =
    if (w, m) ∈ s.unacked then {(w, m)} else 0 := by
  have hcongr : (s.unacked : Multiset _).filter (fun d => d.1 = w) =
      (s.unacked : Multiset _).filter fun d => d = (w, m) := by
    refine Multiset.filter_congr fun d hmem => ?_
    obtain ⟨w', m'⟩ := d
    by_cases hw : w' = w
    · subst hw
      simp [hd.only m' hmem]
    · simp [hw]
  rw [hcongr, Multiset.filter_eq']
  split
  · next hmem =>
    rw [Multiset.count_eq_one_of_mem (Multiset.coe_nodup.mpr hd.nodup) hmem]
    rfl
  · next hmem =>
    rw [Multiset.count_eq_zero_of_notMem hmem]
    rfl

/-- What the other workers have. -/
lemma filter_others : ((s.unacked.filter fun d => d.1 != w : List _) : Multiset _) =
    (s.unacked : Multiset _).erase (w, m) := by
  rw [(Multiset.coe_nodup.mpr hd.nodup).erase_eq_filter, coe_filter]
  refine Multiset.filter_congr fun d hmem => ?_
  obtain ⟨w', m'⟩ := d
  by_cases hw : w' = w
  · subst hw
    simp [hd.only m' hmem]
  · simp [hw]

end Delivers

namespace State.Realized

lemma init : State.init.Realized .empty := ⟨rfl, rfl, rfl, rfl⟩

variable (h : s.Realized l)
include h

/-- The clock, the rows and the handlers are not the broker's. -/
lemma congr (hm : s'.main = s.main) (hr : s'.retry = s.retry) (hd : s'.dlq = s.dlq)
    (hu : s'.unacked = s.unacked) : s'.Realized l :=
  ⟨hm ▸ h.main, hr ▸ h.retry, hd ▸ h.dlq, hu ▸ h.unacked⟩

lemma publishMain (m : Message) :
    State.Realized (l.enqueue [.main] (.job m)) { s with main := s.main ++ [m] } where
  main := by simp [h.main, coe_concat]
  retry := h.retry
  dlq := h.dlq
  unacked := h.unacked

lemma publishRetry (m : Message) :
    State.Realized (l.enqueue [.retry] (.job m)) { s with retry := s.retry ++ [m] } where
  main := h.main
  retry := by simp [h.retry, coe_concat]
  dlq := h.dlq
  unacked := h.unacked

lemma publishDlq (m : Message) :
    State.Realized (l.enqueue [.dlq] (.job m)) { s with dlq := s.dlq ++ [m] } where
  main := h.main
  retry := h.retry
  dlq := by
    rw [coe_concat, Multiset.map_cons, ← h.dlq]
    simp
  unacked := h.unacked

lemma quarantine : State.Realized (l.enqueue [.dlq] .quarantine) s where
  main := h.main
  retry := h.retry
  dlq := by simpa using h.dlq
  unacked := h.unacked

/-- What of a delivery to a worker the broker waits for. -/
lemma mem_unacked : (Client.worker w, Slot.main, Body.job m) ∈ l.unacked ↔ (w, m) ∈ s.unacked := by
  rw [h.unacked]
  exact Multiset.mem_map_of_injective delivery_injective (a := (w, m))

/-- A worker acknowledges its delivery. -/
lemma settle (hd : Delivers s w m) :
    State.Realized (l.settle (.worker w) .main (.job m)) (s.leave w) where
  main := h.main
  retry := h.retry
  dlq := h.dlq
  unacked := by
    simp only [State.leave_unacked, Store.settle_unacked, h.unacked]
    rw [hd.filter_others, Multiset.map_erase _ delivery_injective]
    rfl

/-- What goes back when the broker loses the connection of a worker. -/
lemma back_worker (hd : Delivers s w m) (x : Slot) :
    l.unacked.filter (fun d => decide (d.1 = Client.worker w) = true ∧ d.2.1 = x) =
      if x = .main ∧ (w, m) ∈ s.unacked then {delivery (w, m)} else 0 := by
  rw [h.unacked, Multiset.filter_map]
  by_cases hx : x = .main
  · subst hx
    have hfilter : (s.unacked : Multiset _).filter
        ((fun d : Client × Slot × Body => decide (d.1 = Client.worker w) = true ∧ d.2.1 = .main) ∘
          delivery) = (s.unacked : Multiset _).filter fun d => d.1 = w :=
      Multiset.filter_congr fun d _ => by simp [delivery]
    rw [hfilter, hd.filter_worker]
    by_cases hmem : (w, m) ∈ s.unacked <;> simp [hmem]
  · have hfilter : (s.unacked : Multiset _).filter
        ((fun d : Client × Slot × Body => decide (d.1 = Client.worker w) = true ∧ d.2.1 = x) ∘
          delivery) = 0 :=
      Multiset.filter_eq_nil.mpr fun d _ => by simp [delivery, Ne.symm hx]
    rw [hfilter, if_neg (fun hxm => hx hxm.1)]
    rfl

/-- The broker loses the connection of a worker. -/
lemma disconnectWorker (hd : Delivers s w m) :
    State.Realized (l.takeBack fun c => c = .worker w) (s.takeBack w m) := by
  have hback := h.back_worker hd
  have hothers : (l.takeBack fun c => c = .worker w).unacked =
      ((s.unacked : Multiset _).erase (w, m)).map delivery := by
    rw [Store.takeBack_unacked, h.unacked, Multiset.filter_map, ← hd.filter_others, coe_filter]
    congr 1
    exact Multiset.filter_congr fun d _ => by simp [delivery]
  unfold State.takeBack
  split
  · next hmem =>
    refine ⟨?_, ?_, ?_, ?_⟩
    · rw [Store.takeBack_ready, hback, if_pos ⟨rfl, hmem⟩, h.main, coe_concat,
        Multiset.map_singleton, Multiset.map_cons, Multiset.add_comm]
      rfl
    · rw [Store.takeBack_ready, hback, if_neg (by simp)]
      simpa using h.retry
    · rw [Store.takeBack_ready, hback, if_neg (by simp)]
      simpa using h.dlq
    · rw [hothers, ← hd.filter_others]
      rfl
  · next hmem =>
    refine ⟨?_, ?_, ?_, ?_⟩
    · rw [Store.takeBack_ready, hback, if_neg (by simp [hmem])]
      simpa using h.main
    · rw [Store.takeBack_ready, hback, if_neg (by simp)]
      simpa using h.retry
    · rw [Store.takeBack_ready, hback, if_neg (by simp)]
      simpa using h.dlq
    · rw [hothers, Multiset.erase_of_notMem hmem]

/-- The broker restarts. -/
lemma restart : State.Realized ((l.takeBack fun _ => true).forget Body.isPersistent)
    { s with
      main := (s.main ++ s.unacked.map (·.2)).filter (·.persistent)
      retry := s.retry.filter (·.persistent)
      dlq := s.dlq.filter (·.persistent)
      unacked := [] } := by
  have hback : ∀ x, (l.takeBack fun _ => true).ready x = l.ready x +
      if x = .main then ((s.unacked.map (·.2) : List Message) : Multiset Message).map .job
      else 0 := by
    intro x
    rw [Store.takeBack_ready, h.unacked, Multiset.filter_map]
    congr 1
    split
    · next hx =>
      rw [Multiset.filter_eq_self.mpr fun d _ => ⟨rfl, hx.symm⟩, Multiset.map_map,
        ← Multiset.map_coe, Multiset.map_map]
      rfl
    · next hx =>
      rw [Multiset.filter_eq_nil.mpr fun d _ hd => hx hd.2.symm]
      rfl
  have hpersistent : ∀ xs : List Message,
      ((xs : Multiset Message).map Body.job).filter (fun b => b.isPersistent = true) =
        ((xs.filter (·.persistent) : List Message) : Multiset Message).map .job := by
    intro xs
    rw [Multiset.filter_map, coe_filter]
    rfl
  refine ⟨?_, ?_, ?_, ?_⟩
  · rw [Store.forget_ready, hback, if_pos rfl, h.main, ← Multiset.map_add, Multiset.coe_add]
    exact hpersistent _
  · rw [Store.forget_ready, hback, if_neg (by simp), h.retry, Multiset.add_zero]
    exact hpersistent _
  · rw [Store.forget_ready, hback, if_neg (by simp), Multiset.add_zero, Multiset.filter_comm, h.dlq]
    exact hpersistent _
  · simp

/-- A message of the main queue is delivered to a worker. -/
lemma deliver (w : WorkerId) (m : Message) :
    State.Realized (l.deliver (.worker w) .main (.job m))
      { s with main := s.main.erase m, unacked := (w, m) :: s.unacked } where
  main := by
    rw [Store.deliver_ready, Function.update_self, h.main, ← Multiset.coe_erase,
      Multiset.map_erase _ body_job_injective]
  retry := by simpa using h.retry
  dlq := by simpa using h.dlq
  unacked := by
    rw [Store.deliver_unacked, h.unacked, ← Multiset.cons_coe, Multiset.map_cons]
    rfl

/-- The TTL of a message in the retry queue is over. -/
lemma expireRetry (m : Message) :
    State.Realized ((l.take .retry (.job m)).enqueue [.main] (.job m))
      { s with retry := s.retry.erase m, main := s.main ++ [m] } where
  main := by simp [h.main, coe_concat]
  retry := by
    simp only [Store.enqueue_ready, Store.take_ready, List.mem_singleton, reduceCtorEq, if_false,
      Function.update_self]
    rw [h.retry, ← Multiset.coe_erase, Multiset.map_erase _ body_job_injective]
  dlq := by simpa using h.dlq
  unacked := h.unacked

lemma mem_main : Body.job m ∈ l.ready .main ↔ m ∈ s.main := by
  rw [h.main]
  exact Multiset.mem_map_of_injective body_job_injective

lemma mem_retry : Body.job m ∈ l.ready .retry ↔ m ∈ s.retry := by
  rw [h.retry]
  exact Multiset.mem_map_of_injective body_job_injective

lemma mem_dlq : Body.job m ∈ l.ready .dlq ↔ m ∈ s.dlq := by
  have hmem : Body.job m ∈ (l.ready .dlq).filter (· ≠ .quarantine) ↔ m ∈ s.dlq := by
    rw [h.dlq]
    exact Multiset.mem_map_of_injective body_job_injective
  simpa using hmem

/-- An administrator has published a dead-lettered message again and acknowledges it. -/
lemma requeueAcked (hmem : m ∈ s.dlq) :
    State.Realized
      (((l.deliver .admin .dlq (.job m)).enqueue [.main] (.job m.requeued)).settle .admin .dlq
        (.job m))
      { s with
        main := s.main ++ [m.requeued]
        dlq := s.dlq.erase m
        resetting := m.job :: s.resetting } where
  main := by simp [h.main, coe_concat]
  retry := by simpa using h.retry
  dlq := by
    obtain ⟨u, hu⟩ := Multiset.exists_cons_of_mem (h.mem_dlq.mpr hmem)
    have hdlq := h.dlq
    rw [hu, Multiset.filter_cons_of_pos u (by simp)] at hdlq
    simp only [Store.settle_ready, Store.enqueue_ready, Store.deliver_ready, List.mem_singleton,
      reduceCtorEq, if_false, Function.update_self]
    rw [hu, Multiset.erase_cons_head, ← Multiset.coe_erase,
      Multiset.map_erase _ body_job_injective, ← hdlq, Multiset.erase_cons_head]
  unacked := by simpa using h.unacked

/-- An administrator has published a dead-lettered message again and does not acknowledge it. -/
lemma requeueLost (hmem : m ∈ s.dlq) :
    State.Realized
      (((l.deliver .admin .dlq (.job m)).enqueue [.main] (.job m.requeued)).takeBack
        fun c => c = .admin)
      { s with main := s.main ++ [m.requeued] } := by
  have hback : ∀ x, l.unacked.filter
      (fun d => decide (d.1 = Client.admin) = true ∧ d.2.1 = x) = 0 := by
    intro x
    rw [h.unacked, Multiset.filter_map, Multiset.filter_eq_nil.mpr fun d _ hd => ?_]
    · rfl
    · simp [delivery] at hd
  have hrest : l.unacked.filter (fun d => decide (d.1 = Client.admin) = false) = l.unacked := by
    rw [h.unacked]
    refine Multiset.filter_eq_self.mpr fun d hd => ?_
    obtain ⟨e, -, rfl⟩ := Multiset.mem_map.mp hd
    simp [delivery]
  refine ⟨?_, ?_, ?_, ?_⟩
  · rw [Store.takeBack_ready, Store.enqueue_unacked, Store.deliver_unacked,
      Multiset.filter_cons_of_neg _ (by simp), hback]
    simp [h.main, coe_concat]
  · rw [Store.takeBack_ready, Store.enqueue_unacked, Store.deliver_unacked,
      Multiset.filter_cons_of_neg _ (by simp), hback]
    simpa using h.retry
  · rw [Store.takeBack_ready, Store.enqueue_unacked, Store.deliver_unacked,
      Multiset.filter_cons_of_pos _ (by simp), hback]
    simp only [Store.enqueue_ready, Store.deliver_ready, List.mem_singleton, reduceCtorEq, if_false,
      Function.update_self, Multiset.map_cons, Multiset.map_zero]
    rw [Multiset.add_cons, Multiset.add_zero, Multiset.cons_erase (h.mem_dlq.mpr hmem)]
    exact h.dlq
  · rw [Store.takeBack_unacked, Store.enqueue_unacked, Store.deliver_unacked,
      Multiset.filter_cons_of_neg _ (by simp), hrest]
    exact h.unacked

/-- A worker whose delivery the broker has taken back leaves. -/
lemma leave (hd : Delivers s w m) (hmem : (w, m) ∉ s.unacked) : (s.leave w).Realized l where
  main := h.main
  retry := h.retry
  dlq := h.dlq
  unacked := by
    rw [State.leave_unacked, hd.filter_others, Multiset.erase_of_notMem hmem]
    exact h.unacked

end State.Realized

/-- What a worker does with the broker. -/
lemma workerStep_realized {b : WorkerAction} (hl : s.Realized l) (hd : Delivers s w m)
    (h : workerStep cfg s w m p b = some s') :
    ∃ l', run (Store.step (laneRules Body.isPersistent)) l
      ((workerOps () s w m p b).map (·.toLane)) = some l' ∧ s'.Realized l' := by
  have hguarded : ∀ (f : JobRow → JobRow × Bool) (q r : Phase),
      (s.guardedUpdate w m f q r).Realized l := fun f q r => by
    rcases guardedUpdate_cases (s := s) w m f q r with ⟨row, -, -, h⟩ | ⟨-, h⟩ <;>
    · rw [h]
      exact hl.congr rfl rfl rfl rfl
  cases b with
  | crash =>
    cases h
    refine ⟨_, rfl, ?_⟩
    have hback := hl.disconnectWorker hd
    refine hback.congr rfl rfl rfl ?_
    refine List.filter_eq_self.mpr fun d hmem => ?_
    unfold State.takeBack at hmem
    split at hmem
    · exact (List.mem_filter.mp hmem).2
    · next hnone =>
      obtain ⟨w', m'⟩ := d
      rw [bne_iff_ne]
      rintro rfl
      exact hnone (hd.only m' hmem ▸ hmem)
  | disconnect =>
    simp only [workerStep] at h
    split at h
    · cases h
      exact ⟨_, rfl, hl.disconnectWorker hd⟩
    · cases h
  | renew =>
    simp only [workerStep] at h
    split at h
    · split at h
      · cases h
        exact ⟨l, rfl, hl.congr rfl rfl rfl rfl⟩
      · cases h
    · cases h
  | claim tok =>
    simp only [workerStep] at h
    split at h
    · split at h <;>
      · cases h
        exact ⟨l, rfl, hl.congr rfl rfl rfl rfl⟩
    · cases h
  | succeed | raise =>
    simp only [workerStep] at h
    split at h
    · cases h
      exact ⟨l, rfl, hl.congr rfl rfl rfl rfl⟩
    · cases h
  | proceed =>
    by_cases hmem : (w, m) ∈ s.unacked
    · have hmem' := hl.mem_unacked.mpr hmem
      have hany := any_unacked.mpr hmem
      cases p with
      | received | processing => simp [workerStep] at h
      | quarantining =>
        simp only [workerStep, if_pos hmem, Option.some.injEq] at h
        subst h
        simp only [workerOps, if_pos hany]
        exact ⟨_, rfl, hl.quarantine.congr rfl rfl rfl rfl⟩
      | nackingBusy =>
        simp only [workerStep, if_pos hmem, Option.some.injEq] at h
        subst h
        simp only [workerOps, if_pos hany]
        refine ⟨((l.settle (.worker w) .main (.job m)).enqueue [.retry] (.job m)), ?_, ?_⟩
        · simp [BrokerOp.toLane, Store.step, hmem']
        · exact (hl.settle hd).publishRetry m
      | ackingCompleted | acking =>
        simp only [workerStep, if_pos hmem, Option.some.injEq] at h
        subst h
        simp only [workerOps, if_pos hany]
        refine ⟨l.settle (.worker w) .main (.job m), ?_, hl.settle hd⟩
        simp [BrokerOp.toLane, Store.step, hmem']
      | publishingRetry =>
        simp only [workerStep, if_pos hmem, Option.some.injEq] at h
        subst h
        simp only [workerOps, if_pos hany]
        exact ⟨_, rfl, (hl.publishRetry m.retryCopy).congr rfl rfl rfl rfl⟩
      | publishingDlq =>
        simp only [workerStep, if_pos hmem, Option.some.injEq] at h
        subst h
        simp only [workerOps, if_pos hany]
        exact ⟨_, rfl, (hl.publishDlq m.deadLetter).congr rfl rfl rfl rfl⟩
      | classifying now =>
        simp only [workerOps, if_pos hany]
        simp only [workerStep] at h
        split at h <;>
        · cases h
          exact ⟨l, rfl, hl.congr rfl rfl rfl rfl⟩
      | claimed | bumping | marking =>
        cases h
        simp only [workerOps, if_pos hany]
        exact ⟨l, rfl, hl.congr rfl rfl rfl rfl⟩
      | completing | settling =>
        cases h
        simp only [workerOps, if_pos hany]
        exact ⟨l, rfl, hguarded _ _ _⟩
    · have hany := mt any_unacked.mp hmem
      simp only [workerOps, if_neg hany]
      refine ⟨l, rfl, ?_⟩
      cases p with
      | received | processing => simp [workerStep] at h
      | quarantining | nackingBusy | publishingRetry | publishingDlq =>
        simp only [workerStep, if_neg hmem, Option.some.injEq] at h
        subst h
        exact hl.leave hd hmem
      | ackingCompleted =>
        simp only [workerStep, if_neg hmem, Option.some.injEq] at h
        subst h
        exact hl.congr rfl rfl rfl rfl
      | acking =>
        cases h
        exact hl.leave hd hmem
      | classifying now =>
        simp only [workerStep] at h
        split at h <;>
        · cases h
          exact hl.congr rfl rfl rfl rfl
      | claimed | bumping | marking =>
        cases h
        exact hl.congr rfl rfl rfl rfl
      | completing | settling =>
        cases h
        exact hguarded _ _ _

/-- A worker acknowledges deliveries, and adds none. -/
lemma workerStep_unacked {b : WorkerAction} (h : workerStep cfg s w m p b = some s') :
    s'.unacked.Sublist s.unacked := by
  have hback : (s.takeBack w m).unacked.Sublist s.unacked := by
    unfold State.takeBack
    split
    · exact List.filter_sublist
    · exact .refl _
  have hguarded : ∀ (f : JobRow → JobRow × Bool) (q r : Phase),
      (s.guardedUpdate w m f q r).unacked.Sublist s.unacked := fun f q r => by
    rcases guardedUpdate_cases (s := s) w m f q r with ⟨row, -, -, h⟩ | ⟨-, h⟩ <;>
    · rw [h]
      exact .refl _
  cases b with
  | crash =>
    cases h
    exact List.filter_sublist.trans hback
  | disconnect =>
    simp only [workerStep] at h
    split at h
    · cases h
      exact hback
    · cases h
  | renew =>
    simp only [workerStep] at h
    split at h
    · split at h
      · cases h
        exact .refl _
      · cases h
    · cases h
  | claim tok =>
    simp only [workerStep] at h
    split at h
    · split at h <;>
      · cases h
        exact .refl _
    · cases h
  | succeed | raise =>
    simp only [workerStep] at h
    split at h
    · cases h
      exact .refl _
    · cases h
  | proceed =>
    cases p with
    | received | processing => simp [workerStep] at h
    | quarantining | nackingBusy | ackingCompleted | publishingRetry | publishingDlq =>
      simp only [workerStep, Option.some.injEq] at h
      subst h
      split <;> first | exact .refl _ | exact List.filter_sublist
    | acking =>
      cases h
      exact List.filter_sublist
    | classifying now =>
      simp only [workerStep] at h
      split at h <;>
      · cases h
        exact .refl _
    | claimed | bumping | marking =>
      cases h
      exact .refl _
    | completing | settling =>
      cases h
      exact hguarded _ _ _

/-- No delivery is unacknowledged twice. -/
lemma step_nodup (hs : ProgressInv s) (hn : s.unacked.Nodup) (h : step cfg s a = some s') :
    s'.unacked.Nodup := by
  cases a with
  | tick | dispatchCrash | requeueCrash =>
    cases h
    exact hn
  | enqueue | dispatchPublish | dispatchMark | requeueReset | expireRetry =>
    simp only [step] at h
    split at h <;> cases h
    exact hn
  | deliver w m =>
    simp only [step] at h
    split at h
    · cases h
    · next hw =>
      split at h
      · cases h
        refine List.nodup_cons.mpr ⟨fun hmem => ?_, hn⟩
        obtain ⟨p, hp⟩ := hs.connected w m hmem
        rw [hw] at hp
        cases hp
      · cases h
  | worker w b =>
    simp only [step] at h
    split at h
    · exact hn.sublist (workerStep_unacked h)
    · cases h
  | restartBroker =>
    cases h
    exact List.nodup_nil
  | requeuePublish m acked =>
    simp only [step] at h
    split at h
    · cases acked <;>
      · cases h
        exact hn
    · cases h

/-- **What a step of the job system does with its queues, a broker can do.** -/
lemma step_realized (hs : ProgressInv s) (hn : s.unacked.Nodup) (hl : s.Realized l)
    (h : step cfg s a = some s') :
    ∃ l', run (Store.step (laneRules Body.isPersistent)) l
      ((brokerOps () s a).map (·.toLane)) = some l' ∧ s'.Realized l' := by
  cases a with
  | tick | dispatchCrash | requeueCrash =>
    cases h
    exact ⟨l, rfl, hl.congr rfl rfl rfl rfl⟩
  | enqueue | dispatchMark | requeueReset =>
    simp only [step] at h
    split at h <;> cases h
    exact ⟨l, rfl, hl.congr rfl rfl rfl rfl⟩
  | dispatchPublish j =>
    simp only [step] at h
    split at h
    · cases h
      exact ⟨_, rfl, (hl.publishMain (.dispatched j)).congr rfl rfl rfl rfl⟩
    · cases h
  | deliver w m =>
    simp only [step] at h
    split at h
    · cases h
    · split at h
      · next hm =>
        cases h
        refine ⟨l.deliver (.worker w) .main (.job m), ?_, (hl.deliver w m).congr rfl rfl rfl rfl⟩
        simp [brokerOps, BrokerOp.toLane, Store.step, hl.mem_main.mpr hm]
      · cases h
  | worker w b =>
    simp only [step] at h
    split at h
    · next hd hw =>
      have hdelivers : Delivers s w hd.message := by
        refine ⟨fun m' hu => ?_, hn⟩
        obtain ⟨p, hp⟩ := hs.connected w m' hu
        rw [hw] at hp
        cases hp
        rfl
      simpa [brokerOps, hw] using workerStep_realized hl hdelivers h
    · cases h
  | expireRetry m =>
    simp only [step] at h
    split at h
    · next hm =>
      cases h
      refine ⟨(l.take .retry (.job m)).enqueue [.main] (.job m), ?_, hl.expireRetry m⟩
      simp [brokerOps, BrokerOp.toLane, Store.step, hl.mem_retry.mpr hm]
    · cases h
  | restartBroker =>
    cases h
    exact ⟨_, rfl, hl.restart⟩
  | requeuePublish m acked =>
    simp only [step] at h
    split at h
    · next hm =>
      have hm' := hl.mem_dlq.mpr hm
      cases acked with
      | true =>
        cases h
        refine ⟨_, ?_, hl.requeueAcked hm⟩
        simp [brokerOps, BrokerOp.toLane, Store.step, hm']
      | false =>
        cases h
        refine ⟨_, ?_, hl.requeueLost hm⟩
        simp [brokerOps, BrokerOp.toLane, Store.step, hm']
    · cases h

/-- The operations of a run of the job system, one job type's. -/
def runOps {J : Type} (cfg : Config) (t : J) : State → List Action → List (BrokerOp J Client Body)
  | _, [] => []
  | s, a :: as => brokerOps t s a ++ (step cfg s a).elim [] fun s' => runOps cfg t s' as

/-- The operations are the same for each name of the job type. -/
lemma brokerOps_toLane {J : Type} (t : J) (s : State) (a : Action) :
    (brokerOps t s a).map (·.toLane) = (brokerOps () s a).map (·.toLane) := by
  cases a with
  | worker w b =>
    simp only [brokerOps]
    cases s.handlers w with
    | none => rfl
    | some h =>
      simp only [Option.elim_some]
      cases b with
      | proceed =>
        simp only [workerOps]
        split
        · cases h.phase <;> rfl
        · rfl
      | _ => rfl
  | requeuePublish m acked => cases acked <;> rfl
  | _ => rfl

lemma runOps_toLane {J : Type} (t : J) (s : State) (as : List Action) :
    (runOps cfg t s as).map (·.toLane) = (runOps cfg () s as).map (·.toLane) := by
  induction as generalizing s with
  | nil => rfl
  | cons a as ih =>
    simp only [runOps, List.map_append, brokerOps_toLane t s a]
    congr 1
    cases step cfg s a with
    | none => rfl
    | some s' => exact ih s'

/-- A run of the job system is a run of its lane. -/
lemma run_realized {as : List Action} (hs : ProgressInv s) (hn : s.unacked.Nodup)
    (hl : s.Realized l) (h : run (step cfg) s as = some s') :
    ∃ l', run (Store.step (laneRules Body.isPersistent)) l
      ((runOps cfg () s as).map (·.toLane)) = some l' ∧ s'.Realized l' := by
  induction as generalizing s l with
  | nil =>
    cases h
    exact ⟨l, rfl, hl⟩
  | cons a as ih =>
    rw [run_cons] at h
    obtain ⟨u, hu, hrest⟩ := Option.bind_eq_some_iff.mp h
    obtain ⟨l₁, hl₁, hu₁⟩ := step_realized hs hn hl hu
    obtain ⟨l', hl', hs'⟩ := ih (step_progressInv hs hu) (step_nodup hs hn hu) hu₁ hrest
    refine ⟨l', ?_, hs'⟩
    simp only [runOps, hu, Option.elim_some, List.map_append]
    rw [run_append, hl₁]
    exact hl'

/-- What a worker does with the broker concerns its job type, or all of them. -/
lemma jobType?_workerOps {J : Type} {t t' : J} {b : WorkerAction} {op : BrokerOp J Client Body}
    (hop : op ∈ workerOps t s w m p b) (ht' : op.jobType? = some t') : t' = t := by
  cases b with
  | crash | disconnect =>
    obtain rfl := List.mem_singleton.mp hop
    cases ht'
  | claim | succeed | raise | renew => cases hop
  | proceed =>
    simp only [workerOps] at hop
    split at hop
    · split at hop
      · obtain rfl := List.mem_singleton.mp hop
        exact (Option.some.inj ht').symm
      · obtain rfl := List.mem_singleton.mp hop
        exact (Option.some.inj ht').symm
      · obtain rfl := List.mem_singleton.mp hop
        exact (Option.some.inj ht').symm
      · obtain rfl := List.mem_singleton.mp hop
        exact (Option.some.inj ht').symm
      · obtain rfl := List.mem_singleton.mp hop
        exact (Option.some.inj ht').symm
      · obtain rfl := List.mem_singleton.mp hop
        exact (Option.some.inj ht').symm
      · cases hop
    · cases hop

/-- What a run of the job system does concerns its job type, or all of them. -/
lemma jobType?_runOps {J : Type} {t t' : J} {as : List Action}
    {op : BrokerOp J Client Body} (hop : op ∈ runOps cfg t s as) (ht' : op.jobType? = some t') :
    t' = t := by
  have hstep : ∀ s a, ∀ op ∈ brokerOps t s a, op.jobType? = some t' → t' = t := by
    intro s a op hop ht'
    cases a with
    | worker w b =>
      simp only [brokerOps] at hop
      cases hw : s.handlers w with
      | none =>
        rw [hw] at hop
        cases hop
      | some h =>
        rw [hw] at hop
        exact jobType?_workerOps hop ht'
    | dispatchPublish | deliver | expireRetry =>
      obtain rfl := List.mem_singleton.mp hop
      exact (Option.some.inj ht').symm
    | restartBroker =>
      obtain rfl := List.mem_singleton.mp hop
      cases ht'
    | requeuePublish m acked =>
      cases acked <;>
        simp only [brokerOps, List.mem_cons, List.not_mem_nil, or_false] at hop <;>
        rcases hop with rfl | rfl | rfl <;> simp_all [BrokerOp.jobType?]
    | _ => cases hop
  induction as generalizing s with
  | nil => cases hop
  | cons a as ih =>
    rcases List.mem_append.mp hop with hop | hop
    · exact hstep s a op hop ht'
    · cases hs : step cfg s a with
      | none =>
        rw [hs] at hop
        cases hop
      | some s' =>
        rw [hs] at hop
        exact ih hop

/-- What concerns all job types does nothing to queues that are empty. -/
lemma step_empty {J : Type} {op : BrokerOp J Client Body} (hop : op.jobType? = none) :
    (Store.step (laneRules Body.isPersistent)) .empty op.toLane = some .empty := by
  cases op with
  | disconnect | restart => rfl
  | _ => cases hop

/-- **The job system runs on the broker.** On the broker that has the queues of all job types, every
run of the job system is possible for each of them. The queues of this job type then hold what the
state of the job system says, and those of the others stay empty. -/
theorem system_on_broker (hts : Separate ts) (hT : Declared ts T) (t : { t : PyStr // t ∈ ts })
    (cfg : Config) (as : List Action) (s : State) (hs : run (step cfg) .init as = some s) :
    ∃ b, run (brokerStep Body.isPersistent) (freshBroker T) (runOps cfg t .init as) = some b ∧
      s.Realized (lane b t) ∧ ∀ t' : { t : PyStr // t ∈ ts }, t' ≠ t → lane b t' = .empty := by
  obtain ⟨l, hl, hreal⟩ := run_realized progressInv_init List.nodup_nil .init hs
  have hown : (runOps cfg t .init as).filterMap (·.forType t) =
      (runOps cfg () .init as).map (·.toLane) := by
    rw [← runOps_toLane t .init as, ← List.filterMap_eq_map]
    refine List.filterMap_congr fun op hop => if_pos ?_
    cases ht : op.jobType? with
    | none => rfl
    | some t' => simpa using jobType?_runOps hop ht
  have hothers : ∀ t' : { t : PyStr // t ∈ ts }, t' ≠ t →
      run (Store.step (laneRules Body.isPersistent)) .empty
        ((runOps cfg t .init as).filterMap (·.forType t')) = some .empty := by
    intro t' hne
    have hnone : ∀ op ∈ runOps cfg t .init as, ∀ o, op.forType t' = some o →
        (Store.step (laneRules Body.isPersistent)) .empty o = some .empty := by
      intro op hop o ho
      unfold BrokerOp.forType at ho
      split at ho
      · next hall =>
        cases ho
        cases ht : op.jobType? with
        | none => exact step_empty ht
        | some t₁ =>
          rw [ht] at hall
          obtain rfl : t₁ = t' := by simpa using hall
          exact absurd (jobType?_runOps hop ht) hne
      · cases ho
    generalize runOps cfg t .init as = ops at hnone
    induction ops with
    | nil => rfl
    | cons op ops ih =>
      have hrest := ih fun op hop => hnone op (List.mem_cons_of_mem _ hop)
      cases ho : op.forType t' with
      | none => rwa [List.filterMap_cons_none ho]
      | some o =>
        rw [List.filterMap_cons_some ho, run_cons, hnone op List.mem_cons_self o ho]
        exact hrest
  have hlanes := brokerRun_lane Body.isPersistent hts hT (runOps cfg t .init as)
    (show (freshBroker T).topology = T from rfl)
  have hsome := hlanes.2 fun t' => ?_
  · obtain ⟨b, hb⟩ := Option.isSome_iff_exists.mp hsome
    refine ⟨b, hb, ?_, fun t' hne => ?_⟩
    · have hlane := hlanes.1 b hb t
      rw [hown] at hlane
      cases hl.symm.trans hlane
      exact hreal
    · exact (Option.some.inj ((hothers t' hne).symm.trans (hlanes.1 b hb t'))).symm
  · by_cases hne : t' = t
    · subst hne
      rw [hown]
      exact Option.isSome_of_eq_some hl
    · exact Option.isSome_of_eq_some (hothers t' hne)

/-- The broker of the protocol can do what the job system does in `lateMarkRun`. -/
theorem system_on_broker_lateMarkRun :
    ∃ s, run (step ⟨3, 900⟩) .init lateMarkRun = some s ∧
      ∃ b, run (brokerStep Body.isPersistent) (freshBroker declaredTopology)
        (runOps ⟨3, 900⟩ (⟨py "log_triage", by decide⟩ : { t : PyStr // t ∈ jobTypes }) .init
          lateMarkRun) = some b ∧ s.Realized (lane b (py "log_triage")) := by
  have hsome : (run (step ⟨3, 900⟩) .init lateMarkRun).isSome := by decide
  obtain ⟨s, hs⟩ := Option.isSome_iff_exists.mp hsome
  obtain ⟨b, hb, hreal, -⟩ := system_on_broker separate_jobTypes declared_jobTypes
    ⟨py "log_triage", by decide⟩ ⟨3, 900⟩ lateMarkRun s hs
  exact ⟨s, hs, b, hb, hreal⟩

end Realized

end Jobs
