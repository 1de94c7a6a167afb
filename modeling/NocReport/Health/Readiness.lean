import NocReport.Foundation.Python
import NocReport.Foundation.Threads
import NocReport.Foundation.Transition
import NocReport.Health.Loop

set_option relaxedAutoImplicit false
set_option autoImplicit false

/-!
# Readiness of a worker

A server in other threads than the worker's answers whether the worker is ready: it reads the flags
of the worker at once, and asks four dependencies at the same time, through a cache that keeps what a
probe returned for a few seconds (`_ProbeCache` and `_HealthHandler` in
`noc_bridge/worker_health.py`). A step of the model is what a thread does without another one seeing
its middle; the clock is monotonic and shared.

## Main definitions

* `Health.respond` — the answer to a request.
* `Health.Thread`, `Health.Thread.proceed` — the look into the cache, and the probe.
* `Health.State`, `Health.step` — the worker, the cache and the requests of a process.
* `Health.State.Observed` — a probe returned a result, and it was kept late enough for a request.
* `Health.Reading` — what a request was answered from.

## Main results

* `Health.exists_reading` — what the answer to a request is made of.
* `Health.ready_answer` — when a worker says that it is ready.
-/

namespace Health

open Transition

/-! ## The answer of the server -/

/-- What is probed. -/
inductive Dependency
  | hermes | hermesProfile | postgresql | minio
  deriving DecidableEq, Repr

namespace Dependency

/-- All of them, in the order of the probes. -/
def all : List Dependency := [hermes, hermesProfile, postgresql, minio]

/-- The key of a dependency in an answer. -/
def key : Dependency → PyStr
  | hermes => py "hermes"
  | hermesProfile => py "hermes_profile"
  | postgresql => py "postgresql"
  | minio => py "minio"

end Dependency

/-- The paths that the server tells apart. -/
inductive Path
  | health | live | ready | metrics | other
  deriving DecidableEq, Repr

/-- The dependencies are probed for the answer. -/
def Path.probes : Path → Bool
  | health | ready | metrics => true
  | live | other => false

/-- What the server was started with. -/
structure Settings where
  workerKind : PyStr
  profile : PyStr

/-- `"healthy" if b else "unavailable"`. -/
def healthText (b : Bool) : Json := .str (if b then py "healthy" else py "unavailable")

namespace Metrics

/-- The key of a flag, and of a counter. -/
def flagKey : Flag → PyStr
  | .runtimeReady => py "runtime_ready"
  | .rabbitmqReady => py "rabbitmq_ready"
  | .hermesProfileReady => py "hermes_profile_ready"

def counterKey : Counter → PyStr
  | .jobsQueued => py "jobs_queued"
  | .jobsProcessing => py "jobs_processing"
  | .jobsCompleted => py "jobs_completed"
  | .jobsFailed => py "jobs_failed"
  | .retryCount => py "retry_count"
  | .schemaValidationFailures => py "schema_validation_failures"
  | .providerFailures => py "provider_failures"
  | .lastDurationMs => py "last_duration_ms"
  | .lastPreprocessingDurationMs => py "last_preprocessing_duration_ms"
  | .queueDepth => py "queue_depth"

/-- `WorkerMetrics.snapshot`. -/
def fields (m : Metrics) : Json.Fields :=
  ([.jobsQueued, .jobsProcessing, .jobsCompleted, .jobsFailed, .retryCount,
    .schemaValidationFailures, .providerFailures, .lastDurationMs, .lastPreprocessingDurationMs,
    .queueDepth].map fun c : Counter => (counterKey c, Json.int (m.counters c))) ++
  [.runtimeReady, .rabbitmqReady, .hermesProfileReady].map fun flag : Flag =>
    (flagKey flag, Json.bool (m.flags flag))

end Metrics

/-- What the probes and the flags say about a dependency. -/
def dependencyHealthy (m : Metrics) (results : Dependency → Bool) (dep : Dependency) : Bool :=
  -- the flag of the profile overrides its probe
  results dep && (dep != .hermesProfile || m.flags .hermesProfileReady)

/-- The dependencies of an answer. -/
def dependencyFields (m : Metrics) (results : Dependency → Bool) : Json.Fields :=
  (py "rabbitmq", healthText (m.flags .rabbitmqReady)) ::
    Dependency.all.map fun dep => (dep.key, healthText (dependencyHealthy m results dep))

/-- The worker is ready. -/
def isReady (m : Metrics) (results : Dependency → Bool) : Bool :=
  m.flags .runtimeReady && m.flags .rabbitmqReady && Dependency.all.all (dependencyHealthy m results)

/-- The body of an answer that probes. -/
def probedBody (settings : Settings) (m : Metrics) (results : Dependency → Bool) : Json.Fields := [
  (py "status", .str (if isReady m results then py "healthy" else py "degraded")),
  (py "component", .str (py "ai-worker")),
  (py "runtime", .str (py "hermes")),
  (py "worker_kind", .str settings.workerKind),
  (py "profile", .str settings.profile),
  (py "dependencies", .obj (dependencyFields m results)),
  (py "metrics", .obj (m.fields ++ [(py "dependencies", .obj (dependencyFields m results))]))]

/-- The answer to a request. -/
structure Answer where
  status : ℕ
  body : Option Json.Fields
  /-- ghost: when it was given -/
  time : ℕ

/-- `do_GET`, from what it has read. -/
def respond (settings : Settings) (path : Path) (m : Metrics) (results : Dependency → Bool)
    (time : ℕ) : Answer :=
  match path with
  | .other => ⟨404, none, time⟩
  | .live => ⟨200, some [
      (py "status", .str (py "healthy")),
      (py "component", .str (py "ai-worker")),
      (py "worker_kind", .str settings.workerKind)], time⟩
  | .ready => ⟨if isReady m results then 200 else 503, some (probedBody settings m results), time⟩
  | .health | .metrics => ⟨200, some (probedBody settings m results), time⟩

/-! ## The probes and their cache -/

/-- `PROBE_CACHE_TTL_SECONDS`, in nanoseconds. -/
def probeCacheTtl : ℕ := 5000000000

/-- What a probe returned, and when. -/
structure Probe where
  dependency : Dependency
  ended : ℕ
  result : Bool
  deriving DecidableEq, Repr

/-- What the cache keeps of a probe: when it was put there, and what the probe returned. -/
structure Entry where
  time : ℕ
  result : Bool
  /-- ghost: when the probe returned -/
  ended : ℕ
  deriving DecidableEq, Repr

/-- The thread of a probe, in `_ProbeCache.get`. -/
inductive Thread
  | waiting
  /-- before it looks into the cache, with the time it has read -/
  | looking (now : ℕ)
  | probing
  /-- before it puts into the cache what the probe returned -/
  | storing (ended : ℕ) (result : Bool)
  /-- at its end, with what it found in the cache or put there -/
  | done (entry : Entry)
  deriving DecidableEq, Repr

/-- A request to the server. -/
structure Request where
  path : Path
  /-- ghost: when it came -/
  arrived : ℕ
  snapshot : Option Metrics
  threads : Dependency → Thread
  answer : Option Answer

/-- The process of a worker. -/
structure State where
  now : ℕ
  worker : Worker
  cache : Dependency → Option Entry
  requests : List Request
  /-- ghost: what the probes have returned -/
  probed : List Probe

/-- The process as it starts. -/
def start : State := ⟨0, .start, fun _ => none, [], []⟩

inductive Action
  | tick (d : ℕ)
  | work (o : Outcome)
  /-- the connection to the broker is lost -/
  | drop
  | count (c : Counter) (v : ℤ)
  | arrive (path : Path)
  /-- a request reads the metrics -/
  | read (r : ℕ)
  /-- a thread of a request goes on by itself -/
  | proceed (r : ℕ) (dep : Dependency)
  /-- a probe returns -/
  | returned (r : ℕ) (dep : Dependency) (result : Bool)
  | answer (r : ℕ)
  deriving DecidableEq, Repr

/-- An entry is put into the cache. -/
def State.keep (s : State) (dep : Dependency) (entry : Entry) : State :=
  { s with cache := Function.update s.cache dep (some entry) }

@[simp] lemma State.keep_cache_self (s : State) (dep : Dependency) (entry : Entry) :
    (s.keep dep entry).cache dep = some entry := Function.update_self ..

@[simp] lemma State.keep_cache_of_ne (s : State) {dep dep' : Dependency} (entry : Entry)
    (h : dep' ≠ dep) : (s.keep dep entry).cache dep' = s.cache dep' := Function.update_of_ne h ..

/-- What the thread of a probe does by itself. -/
def Thread.proceed (s : State) (dep : Dependency) : Thread → Option (State × Thread)
  | waiting => some (s, looking s.now)
  | looking now => match s.cache dep with
    | some entry =>
      if (now : ℤ) - entry.time < probeCacheTtl then some (s, done entry) else some (s, probing)
    | none => some (s, probing)
  | probing => none
  | storing ended result =>
    some (s.keep dep ⟨s.now, result, ended⟩, done ⟨s.now, result, ended⟩)
  | done _ => none

/-- The result of a thread at its end. -/
def Thread.result? : Thread → Option Bool
  | done entry => some entry.result
  | _ => none

/-- A request becomes another one. -/
def State.setRequest (s : State) (r : ℕ) (q : Request) : State :=
  { s with requests := s.requests.set r q }

/-- A request whose thread becomes another one. -/
def Request.setThread (q : Request) (dep : Dependency) (thread : Thread) : Request :=
  { q with threads := Function.update q.threads dep thread }

@[simp] lemma Request.setThread_self (q : Request) (dep : Dependency) (thread : Thread) :
    (q.setThread dep thread).threads dep = thread := Function.update_self ..

@[simp] lemma Request.setThread_of_ne (q : Request) {dep dep' : Dependency} (thread : Thread)
    (h : dep' ≠ dep) : (q.setThread dep thread).threads dep' = q.threads dep' :=
  Function.update_of_ne h ..

/-- A request has what it needs for its answer. -/
def Request.complete (q : Request) : Bool :=
  match q.path with
  | .other => true
  | .live => q.snapshot.isSome
  | _ => q.snapshot.isSome && Dependency.all.all fun dep => (q.threads dep).result?.isSome

/-- The answer to a complete request. -/
def Request.respond (settings : Settings) (q : Request) (time : ℕ) : Answer :=
  Health.respond settings q.path (q.snapshot.getD Worker.start.metrics)
    (fun dep => (q.threads dep).result?.getD false) time

section System

variable (settings : Settings)

/-- The threads of a request run once it has read the metrics. -/
def Request.probing (q : Request) : Bool := q.snapshot.isSome && q.path.probes

def step (s : State) : Action → Option State
  | .tick d => some { s with now := s.now + d }
  | .work o => (s.worker.next o).map fun w => { s with worker := w }
  | .drop => some { s with worker := { s.worker with
      connection := s.worker.connection.map fun _ => false } }
  | .count c v => some { s with worker := { s.worker with
      metrics := { s.worker.metrics with counters := Function.update s.worker.metrics.counters c v } } }
  | .arrive path => some { s with
      requests := s.requests ++ [⟨path, s.now, none, fun _ => .waiting, none⟩] }
  | .read r => do
    let q ← s.requests[r]?
    if q.snapshot.isSome || q.path == .other then none
    else some (s.setRequest r { q with snapshot := some s.worker.metrics })
  | .proceed r dep => do
    let q ← s.requests[r]?
    if q.probing then
      let (t, thread) ← (q.threads dep).proceed s dep
      return t.setRequest r (q.setThread dep thread)
    else none
  | .returned r dep result => do
    let q ← s.requests[r]?
    if q.probing && q.threads dep == .probing then
      let t : State := { s with probed := s.probed ++ [⟨dep, s.now, result⟩] }
      return t.setRequest r (q.setThread dep (.storing s.now result))
    else none
  | .answer r => do
    let q ← s.requests[r]?
    if q.answer.isNone && q.complete then
      return s.setRequest r { q with answer := some (q.respond settings s.now) }
    else none

end System

/-! ## The invariant -/

/-- An entry of the cache is that of a probe. -/
structure Entry.Valid (s : State) (dep : Dependency) (entry : Entry) : Prop where
  probed : (⟨dep, entry.ended, entry.result⟩ : Probe) ∈ s.probed
  ended_le : entry.ended ≤ entry.time
  time_le : entry.time ≤ s.now

/-- What a request knows of the thread of a probe. -/
def Thread.Inv (s : State) (arrived : ℕ) (dep : Dependency) : Thread → Prop
  | waiting | probing => True
  | looking now => arrived ≤ now
  | storing ended result => (⟨dep, ended, result⟩ : Probe) ∈ s.probed ∧ ended ≤ s.now
  | done entry => entry.Valid s dep ∧ arrived < entry.time + probeCacheTtl

/-- What holds of a request. -/
structure Request.Inv (settings : Settings) (s : State) (q : Request) : Prop where
  arrived_le : q.arrived ≤ s.now
  threads : ∀ dep, (q.threads dep).Inv s q.arrived dep
  answered : ∀ answer, q.answer = some answer → q.complete = true ∧ answer.time ≤ s.now ∧
    answer = q.respond settings answer.time ∧
    ∀ dep entry, q.threads dep = .done entry → entry.time ≤ answer.time

/-- The invariant of the process. -/
structure Inv (settings : Settings) (s : State) : Prop where
  worker : s.worker.Inv
  cache : ∀ dep entry, s.cache dep = some entry → entry.Valid s dep
  requests : ∀ (r : ℕ) (q : Request), s.requests[r]? = some q → q.Inv settings s

section Invariant

variable {settings : Settings} {s t : State}

/-- Time goes on, and what probes returned stays. -/
structure Later (s t : State) : Prop where
  now_le : s.now ≤ t.now
  probed : s.probed ⊆ t.probed

lemma Later.refl (s : State) : Later s s := ⟨le_refl _, List.Subset.refl _⟩

lemma Later.keep (s : State) (dep : Dependency) (entry : Entry) : Later s (s.keep dep entry) :=
  ⟨le_refl _, List.Subset.refl _⟩

lemma Later.setRequest (s : State) (r : ℕ) (q : Request) : Later s (s.setRequest r q) :=
  ⟨le_refl _, List.Subset.refl _⟩

lemma Entry.Valid.later {dep : Dependency} {entry : Entry} (h : entry.Valid s dep)
    (hst : Later s t) : entry.Valid t dep :=
  ⟨hst.probed h.probed, h.ended_le, h.time_le.trans hst.now_le⟩

lemma Thread.Inv.later {arrived : ℕ} {dep : Dependency} {thread : Thread}
    (h : thread.Inv s arrived dep) (hst : Later s t) : thread.Inv t arrived dep := by
  cases thread with
  | waiting | probing => trivial
  | looking now => exact h
  | storing ended result => exact ⟨hst.probed h.1, h.2.trans hst.now_le⟩
  | done entry => exact ⟨h.1.later hst, h.2⟩

lemma Request.Inv.later {q : Request} (h : q.Inv settings s) (hst : Later s t) :
    q.Inv settings t where
  arrived_le := h.arrived_le.trans hst.now_le
  threads := fun dep => (h.threads dep).later hst
  answered := fun answer hanswer => by
    obtain ⟨hcomplete, htime, hrespond, hentries⟩ := h.answered answer hanswer
    exact ⟨hcomplete, htime.trans hst.now_le, hrespond, hentries⟩

/-- What leaves the cache and the requests alone keeps the invariant, if the loop does. -/
lemma Inv.later (h : Inv settings s) (hst : Later s t) (hcache : t.cache = s.cache)
    (hrequests : t.requests = s.requests) (hworker : t.worker.Inv) : Inv settings t where
  worker := hworker
  cache := fun dep entry hentry => (h.cache dep entry (hcache ▸ hentry)).later hst
  requests := fun r q hq => (h.requests r q (hrequests ▸ hq)).later hst

/-- A request that becomes another one keeps the invariant, if the other one does. -/
lemma Inv.setRequest (h : Inv settings s) {r : ℕ} {q : Request} (hq : q.Inv settings s) :
    Inv settings (s.setRequest r q) where
  worker := h.worker
  cache := fun dep entry hentry => (h.cache dep entry hentry).later (.setRequest s r q)
  requests := fun r' q' hq' =>
    (Threads.forall_set (P := fun _ q => Request.Inv settings s q) h.requests hq r' q' hq').later
      (.setRequest s r q)

/-- Each thread of a complete request that probes is at its end. -/
lemma Request.done_of_complete {q : Request} (hcomplete : q.complete = true)
    (hprobes : q.path.probes = true) (dep : Dependency) : ∃ entry, q.threads dep = .done entry := by
  have hall : (Dependency.all.all fun dep => (q.threads dep).result?.isSome) = true := by
    cases hpath : q.path with
    | other | live =>
      rw [hpath] at hprobes
      cases hprobes
    | health | ready | metrics =>
      rw [Request.complete, hpath] at hcomplete
      exact (Bool.and_eq_true_iff.mp hcomplete).2
  have hmem : dep ∈ Dependency.all := by cases dep <;> decide
  have hsome := List.all_eq_true.mp hall dep hmem
  cases hthread : q.threads dep with
  | done entry => exact ⟨entry, rfl⟩
  | waiting | looking | probing | storing =>
    rw [hthread] at hsome
    cases hsome

lemma Request.snapshot_of_complete {q : Request} (hcomplete : q.complete = true)
    (hprobes : q.path.probes = true) : ∃ m, q.snapshot = some m := by
  cases hpath : q.path with
  | other | live =>
    rw [hpath] at hprobes
    cases hprobes
  | health | ready | metrics =>
    rw [Request.complete, hpath] at hcomplete
    exact Option.isSome_iff_exists.mp (Bool.and_eq_true_iff.mp hcomplete).1

/-- A request is not answered before each of its threads is at its end. -/
lemma Request.Inv.unanswered {q : Request} (h : q.Inv settings s) (hprobing : q.probing = true)
    {dep : Dependency} (hthread : ∀ entry, q.threads dep ≠ .done entry) : q.answer = none := by
  by_contra hsome
  obtain ⟨answer, hanswer⟩ := Option.ne_none_iff_exists'.mp hsome
  obtain ⟨hcomplete, -⟩ := h.answered answer hanswer
  obtain ⟨entry, hdone⟩ := Request.done_of_complete hcomplete (Bool.and_eq_true_iff.mp hprobing).2 dep
  exact hthread entry hdone

/-- A request is not answered before it has read the metrics. -/
lemma Request.Inv.unanswered_of_unread {q : Request} (h : q.Inv settings s)
    (hread : ¬ (q.snapshot.isSome || q.path == .other) = true) : q.answer = none := by
  by_contra hsome
  obtain ⟨answer, hanswer⟩ := Option.ne_none_iff_exists'.mp hsome
  obtain ⟨hcomplete, -⟩ := h.answered answer hanswer
  refine hread ?_
  cases hpath : q.path with
  | other => simp
  | live =>
    rw [Request.complete, hpath] at hcomplete
    exact Bool.or_eq_true_iff.mpr (.inl hcomplete)
  | health | ready | metrics =>
    rw [Request.complete, hpath] at hcomplete
    exact Bool.or_eq_true_iff.mpr (.inl (Bool.and_eq_true_iff.mp hcomplete).1)

/-- What a thread does by itself, one case for each way on. -/
inductive Thread.Proceeds (s : State) (dep : Dependency) : Thread → State → Thread → Prop
  | clock : Proceeds s dep .waiting s (.looking s.now)
  | hit (now : ℕ) (entry : Entry) (hentry : s.cache dep = some entry)
    (hfresh : (now : ℤ) - entry.time < probeCacheTtl) : Proceeds s dep (.looking now) s (.done entry)
  | miss (now : ℕ) : Proceeds s dep (.looking now) s .probing
  | store (ended : ℕ) (result : Bool) : Proceeds s dep (.storing ended result)
      (s.keep dep ⟨s.now, result, ended⟩) (.done ⟨s.now, result, ended⟩)

lemma Thread.proceeds_of_proceed {dep : Dependency} {thread thread' : Thread}
    (h : thread.proceed s dep = some (t, thread')) : thread.Proceeds s dep t thread' := by
  cases thread with
  | waiting =>
    cases h
    exact .clock
  | looking now =>
    rw [Thread.proceed] at h
    cases hcached : s.cache dep with
    | some entry =>
      rw [hcached] at h
      dsimp only at h
      split at h
      · next hfresh =>
        cases h
        exact .hit now entry hcached hfresh
      · cases h
        exact .miss now
    | none =>
      rw [hcached] at h
      cases h
      exact .miss now
  | probing | done => cases h
  | storing ended result =>
    cases h
    exact .store ended result

/-- A thread that goes on is not at its end. -/
lemma Thread.Proceeds.not_done {dep : Dependency} {thread thread' : Thread}
    (h : thread.Proceeds s dep t thread') (entry : Entry) : thread ≠ .done entry := by
  cases h <;> intro hdone <;> cases hdone

/-- A thread that goes on keeps the invariant. -/
lemma Inv.proceed (h : Inv settings s) {dep : Dependency} {thread thread' : Thread} {arrived : ℕ}
    (hthread : thread.Inv s arrived dep) (harrived : arrived ≤ s.now)
    (hproceeds : thread.Proceeds s dep t thread') :
    Inv settings t ∧ Later s t ∧ thread'.Inv t arrived dep ∧ t.requests = s.requests := by
  have httl : 0 < probeCacheTtl := by decide
  cases hproceeds with
  | clock => exact ⟨h, .refl s, harrived, rfl⟩
  | hit now entry hentry hfresh =>
    have hlooked : arrived ≤ now := hthread
    exact ⟨h, .refl s, ⟨h.cache dep entry hentry, by omega⟩, rfl⟩
  | miss now => exact ⟨h, .refl s, trivial, rfl⟩
  | store ended result =>
    have hvalid : (⟨s.now, result, ended⟩ : Entry).Valid s dep := ⟨hthread.1, hthread.2, le_refl _⟩
    have hlater := Later.keep s dep ⟨s.now, result, ended⟩
    refine ⟨⟨h.worker, fun dep' entry hentry => ?_, fun r q hq => (h.requests r q hq).later hlater⟩,
      hlater, ⟨hvalid.later hlater, by dsimp only; omega⟩, rfl⟩
    by_cases hdep : dep' = dep
    · subst hdep
      rw [State.keep_cache_self] at hentry
      cases hentry
      exact hvalid.later hlater
    · rw [State.keep_cache_of_ne _ _ hdep] at hentry
      exact (h.cache dep' entry hentry).later hlater

/-- The threads of a request, when one of them has gone on. -/
lemma Request.Inv.setThread {q : Request} (h : q.Inv settings s) {dep : Dependency} {thread : Thread}
    (hthread : thread.Inv s q.arrived dep) (hanswer : q.answer = none) :
    (q.setThread dep thread).Inv settings s where
  arrived_le := h.arrived_le
  threads := fun dep' => by
    by_cases hdep : dep' = dep
    · subst hdep
      rw [Request.setThread_self]
      exact hthread
    · rw [Request.setThread_of_ne _ _ hdep]
      exact h.threads dep'
  answered := fun answer hsome => by
    cases hanswer.symm.trans hsome

/-- A new request. -/
lemma Request.Inv.arrive (path : Path) :
    (⟨path, s.now, none, fun _ => .waiting, none⟩ : Request).Inv settings s where
  arrived_le := le_refl _
  threads := fun _ => trivial
  answered := fun _ h => by cases h

/-- A request that reads the metrics. -/
lemma Request.Inv.read {q : Request} (h : q.Inv settings s) (hanswer : q.answer = none)
    (m : Metrics) : ({ q with snapshot := some m } : Request).Inv settings s where
  arrived_le := h.arrived_le
  threads := h.threads
  answered := fun answer hsome => by cases hanswer.symm.trans hsome

/-- A request that is answered. -/
lemma Request.Inv.answer {q : Request} (h : q.Inv settings s) (hcomplete : q.complete = true) :
    ({ q with answer := some (q.respond settings s.now) } : Request).Inv settings s where
  arrived_le := h.arrived_le
  threads := h.threads
  answered := fun answer hsome => by
    cases hsome
    have htime : (q.respond settings s.now).time = s.now := by
      unfold Request.respond Health.respond
      split <;> rfl
    refine ⟨hcomplete, le_of_eq htime, ?_, fun dep entry hentry => ?_⟩
    · rw [htime]
      rfl
    · have hdone := h.threads dep
      rw [show q.threads dep = .done entry from hentry] at hdone
      rw [htime]
      exact hdone.1.time_le

/-- The values that are not flags do not matter to the invariant of the loop. -/
lemma Worker.Inv.count {w : Worker} (h : w.Inv) (counters : Counter → ℤ) :
    ({ w with metrics := { w.metrics with counters := counters } } : Worker).Inv :=
  ⟨h.runtime, h.topology, h.verification, h.profile, h.first⟩

lemma Worker.Inv.drop {w : Worker} (h : w.Inv) (connection : Option Bool) :
    ({ w with connection := connection } : Worker).Inv :=
  ⟨h.runtime, h.topology, h.verification, h.profile, h.first⟩

lemma start_inv : Inv settings start where
  worker := Worker.start_inv
  cache := fun _ _ h => by cases h
  requests := fun _ _ h => by cases h

/-- **Every step keeps the invariant.** -/
lemma inv_step {a : Action} (h : Inv settings s) (hstep : step settings s a = some t) :
    Inv settings t := by
  cases a with
  | tick d =>
    cases hstep
    exact h.later ⟨Nat.le_add_right _ _, List.Subset.refl _⟩ rfl rfl h.worker
  | work o =>
    obtain ⟨w, hw, rfl⟩ := Option.map_eq_some_iff.mp hstep
    exact h.later ⟨le_refl _, List.Subset.refl _⟩ rfl rfl (h.worker.next hw)
  | drop =>
    cases hstep
    exact h.later ⟨le_refl _, List.Subset.refl _⟩ rfl rfl (h.worker.drop _)
  | count c v =>
    cases hstep
    exact h.later ⟨le_refl _, List.Subset.refl _⟩ rfl rfl (h.worker.count _)
  | arrive path =>
    cases hstep
    have hlater : Later s { s with
        requests := s.requests ++ [⟨path, s.now, none, fun _ => .waiting, none⟩] } :=
      ⟨le_refl _, List.Subset.refl _⟩
    refine ⟨h.worker, fun dep entry hentry => (h.cache dep entry hentry).later hlater, ?_⟩
    intro r q hq
    rcases Threads.eq_some_of_append hq with hold | ⟨-, rfl⟩
    · exact (h.requests r q hold).later hlater
    · exact (Request.Inv.arrive path).later hlater
  | read r =>
    obtain ⟨q, hq, hstep⟩ := Option.bind_eq_some_iff.mp hstep
    have hinv := h.requests r q hq
    split at hstep
    · cases hstep
    · next hread =>
      cases hstep
      exact h.setRequest (hinv.read (hinv.unanswered_of_unread hread) _)
  | proceed r dep =>
    obtain ⟨q, hq, hstep⟩ := Option.bind_eq_some_iff.mp hstep
    have hinv := h.requests r q hq
    split at hstep
    · next hprobing =>
      obtain ⟨⟨u, thread⟩, hthread, hstep⟩ := Option.bind_eq_some_iff.mp hstep
      cases hstep
      have hproceeds := Thread.proceeds_of_proceed hthread
      have hanswer := hinv.unanswered hprobing hproceeds.not_done
      obtain ⟨hnext, hlater, hnew, -⟩ := h.proceed (hinv.threads dep) hinv.arrived_le hproceeds
      exact hnext.setRequest ((hinv.later hlater).setThread hnew hanswer)
    · cases hstep
  | returned r dep result =>
    obtain ⟨q, hq, hstep⟩ := Option.bind_eq_some_iff.mp hstep
    have hinv := h.requests r q hq
    split at hstep
    · next hguard =>
      cases hstep
      obtain ⟨hprobing, hthread⟩ := Bool.and_eq_true_iff.mp hguard
      have hanswer := hinv.unanswered hprobing fun entry hdone => by
        rw [hdone] at hthread
        cases hthread
      have hlater : Later s { s with probed := s.probed ++ [⟨dep, s.now, result⟩] } :=
        ⟨le_refl _, List.subset_append_left _ _⟩
      refine (h.later hlater rfl rfl h.worker).setRequest
        ((hinv.later hlater).setThread ⟨?_, le_refl _⟩ hanswer)
      exact List.mem_append_right _ List.mem_cons_self
    · cases hstep
  | answer r =>
    obtain ⟨q, hq, hstep⟩ := Option.bind_eq_some_iff.mp hstep
    split at hstep
    · next hguard =>
      cases hstep
      exact h.setRequest ((h.requests r q hq).answer (Bool.and_eq_true_iff.mp hguard).2)
    · cases hstep

/-- Every run keeps the invariant. -/
lemma inv_run {as : List Action} (h : run (step settings) start as = some s) : Inv settings s :=
  run_invariant (I := fun u : State => Inv settings u) (P := fun _ _ => True)
    (fun _ _ _ hu _ hstep => inv_step hu hstep) start_inv (fun _ _ _ _ _ _ => trivial) h

/-- What a request has read of the metrics, it had read before the step, or it reads them with it. -/
lemma snapshot_of_step {a : Action} (h : Inv settings s) (hstep : step settings s a = some t)
    {r : ℕ} {q' : Request} {m : Metrics} (hq' : t.requests[r]? = some q')
    (hm : q'.snapshot = some m) :
    (∃ q, s.requests[r]? = some q ∧ q.snapshot = some m) ∨
      m = s.worker.metrics ∧ ∃ q, s.requests[r]? = some q ∧ q.answer = none := by
  cases a with
  | tick d | drop | count c v =>
    cases hstep
    exact .inl ⟨q', hq', hm⟩
  | work o =>
    obtain ⟨w, -, rfl⟩ := Option.map_eq_some_iff.mp hstep
    exact .inl ⟨q', hq', hm⟩
  | arrive path =>
    cases hstep
    rcases Threads.eq_some_of_append hq' with hold | ⟨-, rfl⟩
    · exact .inl ⟨q', hold, hm⟩
    · cases hm
  | read r' =>
    obtain ⟨q, hq, hstep⟩ := Option.bind_eq_some_iff.mp hstep
    split at hstep
    · cases hstep
    · next hread =>
      cases hstep
      rcases Threads.eq_some_of_set hq' with ⟨rfl, rfl⟩ | hold
      · have hinv := h.requests _ q hq
        exact .inr ⟨(Option.some.inj hm).symm, q, hq, hinv.unanswered_of_unread hread⟩
      · exact .inl ⟨q', hold, hm⟩
  | proceed r' dep =>
    obtain ⟨q, hq, hstep⟩ := Option.bind_eq_some_iff.mp hstep
    split at hstep
    · obtain ⟨⟨u, thread⟩, hthread, hstep⟩ := Option.bind_eq_some_iff.mp hstep
      cases hstep
      have hinv := h.requests _ q hq
      obtain ⟨-, -, -, hrequests⟩ := h.proceed (hinv.threads dep) hinv.arrived_le
        (Thread.proceeds_of_proceed hthread)
      rcases Threads.eq_some_of_set hq' with ⟨rfl, rfl⟩ | hold
      · exact .inl ⟨q, hq, hm⟩
      · exact .inl ⟨q', hrequests ▸ hold, hm⟩
    · cases hstep
  | returned r' dep result =>
    obtain ⟨q, hq, hstep⟩ := Option.bind_eq_some_iff.mp hstep
    split at hstep
    · cases hstep
      rcases Threads.eq_some_of_set hq' with ⟨rfl, rfl⟩ | hold
      · exact .inl ⟨q, hq, hm⟩
      · exact .inl ⟨q', hold, hm⟩
    · cases hstep
  | answer r' =>
    obtain ⟨q, hq, hstep⟩ := Option.bind_eq_some_iff.mp hstep
    split at hstep
    · cases hstep
      rcases Threads.eq_some_of_set hq' with ⟨rfl, rfl⟩ | hold
      · exact .inl ⟨q, hq, hm⟩
      · exact .inl ⟨q', hold, hm⟩
    · cases hstep

end Invariant

/-! ## What an answer says -/

/-- A probe returned the result, and it was kept until the answer and late enough for the request. -/
def State.Observed (s : State) (q : Request) (answer : Answer) (dep : Dependency) (result : Bool) :
    Prop :=
  ∃ entry : Entry, entry.result = result ∧ entry.Valid s dep ∧ entry.time ≤ answer.time ∧
    q.arrived < entry.time + probeCacheTtl

/-- What a request was answered from: a state `t` that the run has gone through before the answer,
whose flags it read, and what probes returned for each dependency. -/
structure Reading (settings : Settings) (as : List Action) (s : State) (r : ℕ) (q : Request)
    (answer : Answer) (t : State) (results : Dependency → Bool) : Prop where
  moment : ∃ pre post, as = pre ++ post ∧ run (step settings) start pre = some t
  unanswered : ∃ q', t.requests[r]? = some q' ∧ q'.answer = none
  verified : t.worker.place.serving = true → t.worker.verified = true
  observed : ∀ dep, s.Observed q answer dep (results dep)

section Answers

variable {settings : Settings} {s : State} {as : List Action} {r : ℕ} {q : Request} {answer : Answer}

/-- **What an answer is made of.** -/
lemma exists_reading (h : run (step settings) start as = some s) (hq : s.requests[r]? = some q)
    (hprobes : q.path.probes = true) (hanswer : q.answer = some answer) :
    ∃ t results, Reading settings as s r q answer t results ∧ t.worker.Inv ∧
      answer = respond settings q.path t.worker.metrics results answer.time := by
  have hinv := (inv_run h).requests r q hq
  obtain ⟨hcomplete, -, hrespond, hentries⟩ := hinv.answered answer hanswer
  obtain ⟨m, hm⟩ := Request.snapshot_of_complete hcomplete hprobes
  obtain ⟨pre, a, post, t, v, rfl, hpre, hnot, hstep, q', hq', hm'⟩ :=
    exists_turn (Q := fun u : State => ∃ q, u.requests[r]? = some q ∧ q.snapshot = some m)
      (fun hstart => by
        obtain ⟨q', hq', -⟩ := hstart
        cases hq') h ⟨q, hq, hm⟩
  have hworker := (inv_run hpre).worker
  rcases snapshot_of_step (inv_run hpre) hstep hq' hm' with hold | ⟨rfl, hopen⟩
  · exact absurd hold hnot
  refine ⟨t, fun dep => (q.threads dep).result?.getD false, ⟨⟨pre, a :: post, rfl, hpre⟩, hopen,
    fun hserving => (hworker.of_serving hserving).2.2, fun dep => ?_⟩, hworker, ?_⟩
  · obtain ⟨entry, hentry⟩ := Request.done_of_complete hcomplete hprobes dep
    have hdone := hinv.threads dep
    rw [hentry] at hdone
    rw [hentry]
    exact ⟨entry, rfl, hdone.1, hentries dep entry hentry, hdone.2⟩
  · refine hrespond.trans ?_
    rw [Request.respond, hm]
    rfl

/-- The worker is ready when it is consuming and the probes succeed: the flags of the connection and
of the profile add nothing to that of the runtime. -/
lemma isReady_iff {w : Worker} (hw : w.Inv) {results : Dependency → Bool} :
    isReady w.metrics results = true ↔ w.place.serving = true ∧ ∀ dep, results dep = true := by
  have hmem : ∀ dep, dep ∈ Dependency.all := by
    intro dep
    cases dep <;> decide
  unfold isReady
  rw [hw.runtime, Bool.and_eq_true_iff, Bool.and_eq_true_iff, List.all_eq_true, and_assoc]
  refine and_congr_right fun hserving => ?_
  obtain ⟨hrabbitmq, hprofile, -⟩ := hw.of_serving hserving
  have hhealthy : ∀ dep, dependencyHealthy w.metrics results dep = results dep := by
    intro dep
    simp [dependencyHealthy, hprofile]
  simp only [hrabbitmq, hhealthy, true_and]
  exact ⟨fun hall dep => hall dep (hmem dep), fun hall dep _ => hall dep⟩

/-- **When a worker is ready.** In every run, a request for the readiness is answered by 200 if at
one moment before the answer the worker was consuming, on a connection on which the profile had been
verified, and what each probe returned, not longer before the request than the cache keeps it, is
that it succeeded; and by 503 otherwise. -/
theorem ready_answer (settings : Settings) (as : List Action) (s : State) (r : ℕ) (q : Request)
    (answer : Answer) (h : run (step settings) start as = some s) (hq : s.requests[r]? = some q)
    (hpath : q.path = .ready) (hanswer : q.answer = some answer) :
    ∃ t results, Reading settings as s r q answer t results ∧
      (answer.status = 200 ∨ answer.status = 503) ∧
      (answer.status = 200 ↔ t.worker.place.serving = true ∧ ∀ dep, results dep = true) := by
  obtain ⟨t, results, hreading, hworker, heq⟩ := exists_reading h hq (by rw [hpath]; rfl) hanswer
  have hstatus : answer.status = if isReady t.worker.metrics results then 200 else 503 := by
    rw [heq, hpath]
    rfl
  refine ⟨t, results, hreading, ?_, ?_⟩
  · rw [hstatus]
    split
    · exact .inl rfl
    · exact .inr rfl
  · rw [← isReady_iff hworker, hstatus]
    split <;> simp [*]

/-- A worker connects, its profile is verified, and it consumes. -/
def connectsAndConsumes : List Action := List.replicate 10 (.work .goesOn)

/-- The probe of a dependency succeeds for the request `r`. -/
def probeSucceeds (r : ℕ) (dep : Dependency) : List Action :=
  [.proceed r dep, .proceed r dep, .tick 1, .returned r dep true, .proceed r dep]

/-- A request to a worker that is consuming, whose probes all succeed. -/
def readyRun : List Action :=
  connectsAndConsumes ++ [.arrive .ready, .read 0] ++
    Dependency.all.flatMap (probeSucceeds 0) ++ [.answer 0]

/-- The worker of the log triage. -/
def triageSettings : Settings := ⟨py "log_triage", py "noc-log-analysis"⟩

/-- The worker says that it is ready, and so it was. -/
theorem readyRun_answer :
    ∃ pre post t, readyRun = pre ++ post ∧ run (step triageSettings) start pre = some t ∧
      t.worker.place.serving = true ∧ t.worker.verified = true := by
  have hlast : ((run (step triageSettings) start readyRun).bind fun s => s.requests[0]?.bind fun q =>
      q.answer.map fun answer => (q.path, answer.status)) = some (.ready, 200) := rfl
  obtain ⟨s, hrun, hlast⟩ := Option.bind_eq_some_iff.mp hlast
  obtain ⟨q, hq, hlast⟩ := Option.bind_eq_some_iff.mp hlast
  obtain ⟨answer, hanswer, hlast⟩ := Option.map_eq_some_iff.mp hlast
  obtain ⟨hpath, hstatus⟩ := Prod.mk.inj hlast
  obtain ⟨t, results, hreading, -, hiff⟩ :=
    ready_answer triageSettings readyRun s 0 q answer hrun hq hpath hanswer
  have hserving := (hiff.mp hstatus).1
  obtain ⟨pre, post, heq, hpre⟩ := hreading.moment
  exact ⟨pre, post, t, heq, hpre, hserving, hreading.verified hserving⟩

end Answers

end Health
