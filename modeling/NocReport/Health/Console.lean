import NocReport.Health.Readiness
import NocReport.Outbox.Enqueue

set_option relaxedAutoImplicit false
set_option autoImplicit false

/-!
# The health that the console shows

The API checks what it depends on (`app/operational_health.py`): the database, the broker and the
storage by itself, the runtime and the worker by their health endpoints. What the worker knows of the
runtime overrides the check of the API, which may not reach the runtime at all. The result is shown
by the console, and the readiness of the API is read off it (`readiness` in `app/main.py`).

## Main definitions

* `Health.checkHttpDependency`, `Health.checkRabbitmq` — the checks.
* `Health.workerReportsHermesHealthy` — what the worker knows of the runtime.
* `Health.dependencyHealth`, `Health.apiReadiness` — the report, and the answer of the API.
* `Health.Answer.outcome` — an answer of the worker, as the API receives it.

## Main results

* `Health.apiReadiness_eq` — the answer of the API about its own readiness.
* `Health.console_healthy_iff` — when the console shows that all is well.
-/

namespace Health

open Transition

/-! ## The checks -/

inductive Status
  | healthy | degraded | unavailable | unknown | disabled | notApplicable
  deriving DecidableEq, Repr

/-- The text of a status. -/
def Status.text : Status → PyStr
  | healthy => py "healthy"
  | degraded => py "degraded"
  | unavailable => py "unavailable"
  | unknown => py "unknown"
  | disabled => py "disabled"
  | notApplicable => py "not_applicable"

/-- What a check returns. -/
structure Check where
  status : Status
  detail : Option Json

/-- The object of a check. -/
def Check.toJson (check : Check) : Json :=
  .obj ((py "status", .str check.status.text) ::
    match check.detail with
    | some detail => [(py "detail", detail)]
    | none => [])

/-- What a call returns, or the name of the class of what it raises. -/
abbrev Call (α : Type) := Except PyStr α

/-- A check of a call, with the detail of what it returns. -/
def checkCall {α : Type} (detail : α → Option Json) : Call α → Check
  | .ok a => ⟨.healthy, detail a⟩
  | .error cls => ⟨.unavailable, some (.str cls)⟩

/-- `_check_database`. -/
def checkDatabase : Call Unit → Check := checkCall fun _ => none

/-- `_check_minio`. -/
def checkMinio : Call Unit → Check := checkCall fun _ => none

/-- The messages that wait in a queue, and in its dead-letter queue. -/
structure Depths where
  ready : ℕ
  deadLetter : ℕ

/-- The depths of the queues of a job type. -/
def Depths.toJson (depths : Depths) : Json :=
  .obj [(py "ready", .int depths.ready), (py "dead_letter", .int depths.deadLetter)]

/-- What the broker says about its queues. -/
def queuesDetail (queues : Outbox.JobType → Depths) : Json :=
  .obj [(py "queues", .obj ([.logTriage, .dailyReport].map fun jobType : Outbox.JobType =>
    (jobType.name, (queues jobType).toJson)))]

/-- `_check_rabbitmq`. -/
def checkRabbitmq : Call (Outbox.JobType → Depths) → Check :=
  checkCall fun queues => some (queuesDetail queues)

/-- What `urlopen` makes of a request; the body is decoded JSON, or what decoding raises. -/
inductive HttpOutcome
  | response (body : Call Json)
  | httpError (code : ℕ) (body : Call Json)
  | raised (cls : PyStr)

/-- `payload.get("status")`, looked up in a set. -/
def readStatus : Json → Call Json
  | .obj fields => match Json.Fields.get fields (py "status") with
    | .arr _ | .obj _ => .error (py "TypeError")
    | v => .ok v
  | _ => .error (py "AttributeError")

/-- The status of a body, with the body. -/
def readBody (body : Call Json) : Call (Json × Json) := do
  let payload ← body
  let status ← readStatus payload
  return (payload, status)

/-- `status in {"degraded", "unavailable"}`. -/
def impaired (status : Json) : Option Status :=
  if status.isText "degraded" then some .degraded
  else if status.isText "unavailable" then some .unavailable
  else none

/-- `_check_http_dependency`. -/
def checkHttpDependency (name : PyStr) : HttpOutcome → Check
  | .response body => match readBody body with
    | .error cls => ⟨.unavailable, some (.str (name ++ py ": " ++ cls))⟩
    | .ok (payload, status) =>
      if status.isText "healthy" || status.isText "ok" then ⟨.healthy, some payload⟩
      else ⟨(impaired status).getD .unknown, some payload⟩
  | .httpError code body =>
    let plain : Check := ⟨.unavailable, some (.str (name ++ py ": HTTP " ++ .ofNat code))⟩
    match readBody body with
    | .error _ => plain
    | .ok (payload, status) => match impaired status with
      | some impairment => ⟨impairment, some payload⟩
      | none => plain
  | .raised cls => ⟨.unavailable, some (.str (name ++ py ": " ++ cls))⟩

/-- `_check_hermes`. -/
def checkHermes : HttpOutcome → Check := checkHttpDependency (py "hermes")

/-- `_check_ai_worker`. -/
def checkAiWorker : HttpOutcome → Check := checkHttpDependency (py "ai-worker")

/-- The names of the exceptions that reading a list of models can raise. -/
def errorClass : PyError → PyStr
  | .keyError => py "KeyError"
  | .typeError => py "TypeError"
  | .attributeError => py "AttributeError"
  | .overflowError => py "OverflowError"
  | .valueError _ => py "ValueError"
  | .custom cls _ => cls

/-- The objects of a list, where others are passed over. -/
def dictionaries (vs : List Json) : List Json.Fields :=
  vs.filterMap fun v => match v with
    | .obj fields => some fields
    | _ => none

section Report

variable (rt : PyRuntime)

/-- The names of the models in a reply. -/
def modelNames (payload : Json) : Except PyError (List Json) := do
  let models ← payload.getD (py "models") .null
  (models.or (.arr [])).iter

/-- `_check_ollama`. -/
def checkOllama (configured : PyStr) : HttpOutcome → Check
  | .response (.ok payload) => match modelNames payload with
    | .error e => ⟨.unavailable, some (.str (py "ollama: " ++ errorClass e))⟩
    | .ok models =>
      let names := (dictionaries models).map fun fields => rt.str (fields.get (py "name"))
      let detail : Json.Fields :=
        [(py "model", .str configured), (py "model_count", .int models.length)]
      if names.contains configured then ⟨.healthy, some (.obj detail)⟩
      else ⟨.degraded, some (.obj (detail ++
        [(py "reason", .str (py "configured model is not installed"))]))⟩
  | .response (.error cls) | .raised cls => ⟨.unavailable, some (.str (py "ollama: " ++ cls))⟩
  | .httpError _ _ => ⟨.unavailable, some (.str (py "ollama: HTTPError"))⟩

/-! ## The report -/

/-- `v is True`. -/
def isTrue : Json → Bool
  | .bool b => b
  | _ => false

/-- `_worker_reports_hermes_healthy`. -/
def workerReportsHermesHealthy (worker : Check) : Except PyError Bool :=
  match worker.detail with
  | some (.obj detail) => do
    let runtimeDetail := Json.Fields.getD detail (py "metrics") (.obj detail)
    let inner ← runtimeDetail.getD (py "dependencies") (.obj [])
    match Json.Fields.getD detail (py "dependencies") inner with
    | .obj (field :: fields) =>
      let dependencies : Json.Fields := field :: fields
      return (dependencies.get (py "hermes")).isText "healthy" &&
        (dependencies.get (py "hermes_profile")).isText "healthy"
    -- workers of an older version
    | _ =>
      let ready ← runtimeDetail.getD (py "runtime_ready") .null
      let reachable ← runtimeDetail.getD (py "runtime_reachable") .null
      return worker.status == .healthy && isTrue ready && isTrue reachable
  | _ => return false

/-- The statuses that count for the overall one. -/
def countedStatuses (dependencies : Dict PyStr Check) : List Status :=
  (dependencies.map fun item => item.2.status).filter fun status =>
    status != .disabled && status != .notApplicable

/-- `_overall_status`. -/
def overallStatus (dependencies : Dict PyStr Check) : Status :=
  if .unavailable ∈ countedStatuses dependencies then .unavailable
  else if .degraded ∈ countedStatuses dependencies then .degraded
  else if .unknown ∈ countedStatuses dependencies then .unknown
  else .healthy

/-- What the API was started with. -/
structure ApiSettings where
  aiRuntime : PyStr
  localPrefillEnabled : Bool
  localPrefillModel : PyStr

/-- `settings.ai_runtime == "hermes"`. -/
def ApiSettings.hermes (settings : ApiSettings) : Bool := settings.aiRuntime == py "hermes"

/-- What the calls of the checks return. -/
structure Calls where
  database : Call Unit
  rabbitmq : Call (Outbox.JobType → Depths)
  minio : Call Unit
  hermes : HttpOutcome
  aiWorker : HttpOutcome
  ollama : HttpOutcome

variable (settings : ApiSettings) (calls : Calls)

/-- The check of the local model, if there is one. -/
def ollamaCheck : Check :=
  if settings.localPrefillEnabled then checkOllama rt settings.localPrefillModel calls.ollama
  else ⟨.disabled, some (.str (py "local prefill AI is disabled by configuration"))⟩

/-- The checks, before the worker overrides that of the runtime. -/
def directChecks : Dict PyStr Check :=
  [(py "postgresql", checkDatabase calls.database),
    (py "rabbitmq", checkRabbitmq calls.rabbitmq),
    (py "minio", checkMinio calls.minio),
    (py "ai_runtime", if settings.hermes then checkHermes calls.hermes
      else ⟨.disabled, some (.str (py "AI runtime is disabled by configuration"))⟩),
    (py "ollama", ollamaCheck rt settings calls)] ++
    if settings.hermes then [(py "ai_worker", checkAiWorker calls.aiWorker)] else []

/-- The check of the runtime, as the worker reports it. -/
def reportedRuntime (direct worker : Check) : Check :=
  let fields : Json.Fields := match worker.detail with
    | some (.obj fields) => fields
    | _ => []
  ⟨.healthy, some (.obj [
    (py "source", .str (py "ai-worker")),
    (py "runtime", fields.get (py "runtime")),
    (py "profile", fields.get (py "profile")),
    (py "direct_probe", direct.toJson)])⟩

/-- The checks of a report. -/
def allChecks : Except PyError (Dict PyStr Check) := do
  let dependencies := directChecks rt settings calls
  if settings.hermes then
    if ← workerReportsHermesHealthy (checkAiWorker calls.aiWorker) then
      return Dict.set dependencies (py "ai_runtime")
        (reportedRuntime (checkHermes calls.hermes) (checkAiWorker calls.aiWorker))
    else return dependencies
  else return dependencies

/-- The number of messages in the dead-letter queues, from the check of the broker. -/
def deadLetterCount (rabbitmq : Check) : Except PyError ℤ := do
  let queues ← (rabbitmq.detail.getD (.obj [])).getD (py "queues") (.obj [])
  match queues with
  | .obj fields => do
    let counts ← (dictionaries (fields.map fun item => item.2)).mapM fun queue =>
      rt.int (queue.getD (py "dead_letter") (.int 0))
    return counts.sum
  | _ => throw .attributeError

/-- What `dependency_health` returns. -/
structure HealthReport where
  status : Status
  dependencyStatus : Status
  pipelineStatus : Status
  deadLetterMessages : ℤ
  dependencies : Dict PyStr Check

/-- The report of checks and of a number of dead letters. -/
def healthReport (dependencies : Dict PyStr Check) (deadLetters : ℤ) : HealthReport :=
  let dependencyStatus := overallStatus dependencies
  let pipelineStatus : Status := if deadLetters ≠ 0 then .degraded else .healthy
  { status := if dependencyStatus ≠ .healthy then dependencyStatus else pipelineStatus
    dependencyStatus := dependencyStatus
    pipelineStatus := pipelineStatus
    deadLetterMessages := deadLetters
    dependencies := dependencies }

/-- `dependency_health`. -/
def dependencyHealth : Except PyError HealthReport := do
  let dependencies ← allChecks rt settings calls
  let deadLetters ← deadLetterCount rt (checkRabbitmq calls.rabbitmq)
  return healthReport dependencies deadLetters

/-- `readiness`, of the API: the status of its answer. -/
def apiReadiness : Except PyError ℕ := do
  let report ← dependencyHealth rt settings calls
  let core := [py "postgresql", py "rabbitmq", py "minio"].map fun name =>
    (Dict.get? report.dependencies name).map fun check => check.status
  return if core.all fun status => status == some .healthy then 200 else 503

end Report

/-! ## What the worker answers, as the API receives it -/

/-- An answer of the worker's server, as `urlopen` returns or raises it. -/
def Answer.outcome (answer : Answer) : HttpOutcome :=
  let body : Call Json := match answer.body with
    | some fields => .ok (.obj fields)
    | none => .error (py "JSONDecodeError")
  if 200 ≤ answer.status ∧ answer.status < 300 then .response body else .httpError answer.status body

section Received

variable {rt : PyRuntime} {settings : ApiSettings} {calls : Calls} {worker : Settings} {m : Metrics}
  {results : Dependency → Bool} {path : Path} {time : ℕ}

lemma readBody_probedBody :
    readBody (.ok (.obj (probedBody worker m results))) = .ok (.obj (probedBody worker m results),
      .str (if isReady m results then py "healthy" else py "degraded")) := rfl

/-- The check of a worker that probes: whether it is ready, and the body of its answer. -/
lemma checkAiWorker_respond (hprobes : path.probes = true) :
    checkAiWorker (respond worker path m results time).outcome =
      ⟨if isReady m results then .healthy else .degraded,
        some (.obj (probedBody worker m results))⟩ := by
  have hresponse : checkAiWorker (.response (.ok (.obj (probedBody worker m results)))) =
      ⟨if isReady m results then .healthy else .degraded,
        some (.obj (probedBody worker m results))⟩ := by
    rw [checkAiWorker, checkHttpDependency, readBody_probedBody]
    cases isReady m results <;> rfl
  cases path with
  | other | live => cases hprobes
  | health | metrics => exact hresponse
  | ready =>
    cases hready : isReady m results with
    | true =>
      rw [hready] at hresponse
      have houtcome : (respond worker .ready m results time).outcome =
          .response (.ok (.obj (probedBody worker m results))) := by
        simp [Answer.outcome, respond, hready]
      rw [houtcome]
      exact hresponse
    | false =>
      have houtcome : (respond worker .ready m results time).outcome =
          .httpError 503 (.ok (.obj (probedBody worker m results))) := by
        simp [Answer.outcome, respond, hready]
      rw [houtcome, checkAiWorker, checkHttpDependency, readBody_probedBody, hready]
      rfl

lemma healthText_isText (b : Bool) : (healthText b).isText "healthy" = b := by
  cases b <;> decide

/-- What a worker that probes knows of the runtime. -/
lemma workerReportsHermesHealthy_probedBody (status : Status) :
    workerReportsHermesHealthy ⟨status, some (.obj (probedBody worker m results))⟩ =
      .ok (dependencyHealthy m results .hermes && dependencyHealthy m results .hermesProfile) := by
  have hreported : workerReportsHermesHealthy ⟨status, some (.obj (probedBody worker m results))⟩ =
      .ok ((healthText (dependencyHealthy m results .hermes)).isText "healthy" &&
        (healthText (dependencyHealthy m results .hermesProfile)).isText "healthy") := rfl
  rw [hreported, healthText_isText, healthText_isText]

/-- What the broker says about its dead letters. -/
lemma deadLetterCount_ok (queues : Outbox.JobType → Depths) :
    deadLetterCount rt (checkRabbitmq (.ok queues)) =
      .ok ((queues .logTriage).deadLetter + (queues .dailyReport).deadLetter) := by
  have hcounts : deadLetterCount rt (checkRabbitmq (.ok queues)) =
      .ok [((queues .logTriage).deadLetter : ℤ), (queues .dailyReport).deadLetter].sum := rfl
  rw [hcounts]
  simp

/-- Without the broker, its check has a text for a detail, and reading the queues raises. -/
lemma deadLetterCount_error (cls : PyStr) :
    deadLetterCount rt (checkRabbitmq (.error cls)) = .error .attributeError := rfl

/-- The statuses of a dependency that is well, or that is not used. -/
def Status.fine : Status → Bool
  | healthy | disabled | notApplicable => true
  | degraded | unavailable | unknown => false

/-- All is well when each dependency is. -/
lemma overallStatus_eq_healthy {dependencies : Dict PyStr Check} :
    overallStatus dependencies = .healthy ↔ ∀ item ∈ dependencies, item.2.status.fine = true := by
  have hmem : ∀ status, status ∈ countedStatuses dependencies ↔
      (∃ item ∈ dependencies, item.2.status = status) ∧ status ≠ .disabled ∧
        status ≠ .notApplicable := by
    intro status
    simp [countedStatuses]
  constructor
  · intro h item hitem
    unfold overallStatus at h
    split at h
    · cases h
    split at h
    · cases h
    split at h
    · cases h
    next hunavailable hdegraded hunknown =>
    cases hstatus : item.2.status with
    | healthy | disabled | notApplicable => rfl
    | unavailable =>
      exact absurd ((hmem _).mpr ⟨⟨item, hitem, hstatus⟩, by decide, by decide⟩) hunavailable
    | degraded =>
      exact absurd ((hmem _).mpr ⟨⟨item, hitem, hstatus⟩, by decide, by decide⟩) hdegraded
    | unknown =>
      exact absurd ((hmem _).mpr ⟨⟨item, hitem, hstatus⟩, by decide, by decide⟩) hunknown
  · intro h
    have hnot : ∀ status, status.fine = false → status ∉ countedStatuses dependencies := by
      intro status hfalse hcounted
      obtain ⟨⟨item, hitem, rfl⟩, -, -⟩ := (hmem status).mp hcounted
      rw [h item hitem] at hfalse
      cases hfalse
    rw [overallStatus, if_neg (hnot _ rfl), if_neg (hnot _ rfl), if_neg (hnot _ rfl)]

/-- The checks of a report, with that of the runtime. -/
lemma allChecks_eq_ok {dependencies : Dict PyStr Check} (hhermes : settings.hermes = true)
    (h : allChecks rt settings calls = .ok dependencies) :
    ∃ runtime : Check, dependencies = [
      (py "postgresql", checkDatabase calls.database),
      (py "rabbitmq", checkRabbitmq calls.rabbitmq),
      (py "minio", checkMinio calls.minio),
      (py "ai_runtime", runtime),
      (py "ollama", ollamaCheck rt settings calls),
      (py "ai_worker", checkAiWorker calls.aiWorker)] ∧
      (workerReportsHermesHealthy (checkAiWorker calls.aiWorker) = .ok true →
        runtime.status = .healthy) := by
  unfold allChecks at h
  rw [if_pos hhermes] at h
  obtain ⟨reported, hreported, h⟩ := Except.bind_eq_ok.mp h
  have hdirect : directChecks rt settings calls = [
      (py "postgresql", checkDatabase calls.database),
      (py "rabbitmq", checkRabbitmq calls.rabbitmq),
      (py "minio", checkMinio calls.minio),
      (py "ai_runtime", checkHermes calls.hermes),
      (py "ollama", ollamaCheck rt settings calls),
      (py "ai_worker", checkAiWorker calls.aiWorker)] := by
    simp [directChecks, hhermes]
  cases reported with
  | true =>
    rw [if_pos rfl, Except.pure_eq_ok, hdirect] at h
    refine ⟨reportedRuntime (checkHermes calls.hermes) (checkAiWorker calls.aiWorker), h.symm,
      fun _ => rfl⟩
  | false =>
    rw [if_neg Bool.false_ne_true, Except.pure_eq_ok, hdirect] at h
    refine ⟨checkHermes calls.hermes, h.symm, fun htrue => ?_⟩
    rw [hreported] at htrue
    cases htrue

/-- The check of a dependency that the API calls by itself. -/
lemma checkCall_fine {α : Type} (detail : α → Option Json) (call : Call α) :
    (checkCall detail call).status.fine = call.isOk := by
  cases call <;> rfl

/-- A local model that is used is well when its check is healthy. -/
lemma ollamaCheck_fine : (ollamaCheck rt settings calls).status.fine = true ↔
    (settings.localPrefillEnabled = true →
      (checkOllama rt settings.localPrefillModel calls.ollama).status = .healthy) := by
  have hstatus : ∀ outcome, (checkOllama rt settings.localPrefillModel outcome).status.fine = true ↔
      (checkOllama rt settings.localPrefillModel outcome).status = .healthy := by
    intro outcome
    unfold checkOllama
    split
    · split
      · simp [Status.fine]
      · dsimp only
        split <;> simp [Status.fine]
    all_goals simp [Status.fine]
  unfold ollamaCheck
  cases settings.localPrefillEnabled with
  | true => simpa using hstatus calls.ollama
  | false => simp [Status.fine]

/-- A report says that all is well when its checks do and no message is dead. -/
lemma healthReport_status {dependencies : Dict PyStr Check} {deadLetters : ℤ} :
    (healthReport dependencies deadLetters).status = .healthy ↔
      overallStatus dependencies = .healthy ∧ deadLetters = 0 := by
  unfold healthReport
  by_cases hstatus : overallStatus dependencies = .healthy
  · by_cases hdead : deadLetters = 0 <;> simp [hstatus, hdead]
  · simp [hstatus]

/-- The report, where the broker can be asked. -/
lemma dependencyHealth_ok {dependencies : Dict PyStr Check} {queues : Outbox.JobType → Depths}
    (hall : allChecks rt settings calls = .ok dependencies) (hqueues : calls.rabbitmq = .ok queues) :
    dependencyHealth rt settings calls = .ok (healthReport dependencies
      ((queues .logTriage).deadLetter + (queues .dailyReport).deadLetter)) := by
  rw [dependencyHealth, hall, hqueues, Except.ok_bind, deadLetterCount_ok]
  rfl

/-- Without the broker there is no report. -/
lemma dependencyHealth_error {dependencies : Dict PyStr Check} {cls : PyStr}
    (hall : allChecks rt settings calls = .ok dependencies) (hcls : calls.rabbitmq = .error cls) :
    dependencyHealth rt settings calls = .error .attributeError := by
  rw [dependencyHealth, hall, hcls, Except.ok_bind, deadLetterCount_error]
  rfl

/-! ## The readiness of the API -/

/-- Nobody answers, or a worker's server does. -/
def HttpOutcome.Served (outcome : HttpOutcome) : Prop :=
  (∃ cls, outcome = .raised cls) ∨ ∃ (worker : Settings) (path : Path) (m : Metrics)
    (results : Dependency → Bool) (time : ℕ),
    outcome = (respond worker path m results time).outcome

/-- Whatever a worker answers can be read. -/
lemma HttpOutcome.Served.reported {outcome : HttpOutcome} (h : outcome.Served) :
    ∃ b, workerReportsHermesHealthy (checkAiWorker outcome) = .ok b := by
  rcases h with ⟨cls, rfl⟩ | ⟨worker, path, m, results, time, rfl⟩
  · exact ⟨false, rfl⟩
  · cases path with
    | other | live => exact ⟨false, rfl⟩
    | health | ready | metrics =>
      rw [checkAiWorker_respond rfl, workerReportsHermesHealthy_probedBody]
      exact ⟨_, rfl⟩

variable (rt settings) in
/-- The checks of what the API cannot do without are in the report as they are. -/
lemma exists_allChecks (hworker : calls.aiWorker.Served) :
    ∃ dependencies, allChecks rt settings calls = .ok dependencies ∧
      Dict.get? dependencies (py "postgresql") = some (checkDatabase calls.database) ∧
      Dict.get? dependencies (py "rabbitmq") = some (checkRabbitmq calls.rabbitmq) ∧
      Dict.get? dependencies (py "minio") = some (checkMinio calls.minio) := by
  cases hhermes : settings.hermes with
  | false =>
    refine ⟨directChecks rt settings calls, ?_, rfl, rfl, rfl⟩
    unfold allChecks
    rw [if_neg (by simp [hhermes])]
    rfl
  | true =>
    obtain ⟨reported, hreported⟩ := hworker.reported
    obtain ⟨dependencies, hall⟩ : ∃ dependencies, allChecks rt settings calls = .ok dependencies := by
      unfold allChecks
      rw [if_pos hhermes, hreported]
      cases reported <;> exact ⟨_, rfl⟩
    obtain ⟨runtime, rfl, -⟩ := allChecks_eq_ok hhermes hall
    exact ⟨_, hall, rfl, rfl, rfl⟩

/-- **The readiness of the API.** Where the broker can be asked, the API is ready if and only if the
database and the storage are; where it cannot, the API does not say that it is not ready: its answer
fails, as the detail of the broker's check is then not what the count of dead letters expects. -/
theorem apiReadiness_eq (rt : PyRuntime) (settings : ApiSettings) (calls : Calls)
    (hworker : calls.aiWorker.Served) :
    (∀ cls, calls.rabbitmq = .error cls →
      apiReadiness rt settings calls = .error .attributeError) ∧
    ∀ queues, calls.rabbitmq = .ok queues → apiReadiness rt settings calls =
      .ok (if calls.database.isOk && calls.minio.isOk then 200 else 503) := by
  obtain ⟨dependencies, hall, hdatabase, hrabbitmq, hminio⟩ :=
    exists_allChecks rt settings hworker
  constructor
  · intro cls hcls
    rw [apiReadiness, dependencyHealth_error hall hcls]
    rfl
  · intro queues hqueues
    have hanswer : apiReadiness rt settings calls =
        .ok (if [some (checkDatabase calls.database).status, some (checkRabbitmq calls.rabbitmq).status,
          some (checkMinio calls.minio).status].all fun status => status == some .healthy
          then 200 else 503) := by
      rw [apiReadiness, dependencyHealth_ok hall hqueues, Except.ok_bind]
      simp only [healthReport, List.map_cons, List.map_nil, hdatabase, hrabbitmq, hminio,
        Option.map_some]
      rfl
    rw [hanswer, hqueues]
    cases calls.database <;> cases calls.minio <;> rfl

/-- All is well: the database, the broker without dead letters, the storage, and a worker that
answers. The API itself does not reach the runtime. -/
def wellCalls (worker : HttpOutcome) : Calls where
  database := .ok ()
  rabbitmq := .ok fun _ => ⟨0, 0⟩
  minio := .ok ()
  hermes := .raised (py "URLError")
  aiWorker := worker
  ollama := .raised (py "URLError")

/-- An interpreter that prints nothing. -/
def sampleRuntime : PyRuntime := ⟨fun _ => [], fun _ => none, fun _ => []⟩

/-- An API with a runtime, and without a local model. -/
def sampleApi : ApiSettings := ⟨py "hermes", false, []⟩

/-- The API is ready without a worker. -/
theorem unreachedWorker_apiReadiness : apiReadiness sampleRuntime sampleApi
    (wellCalls (.raised (py "URLError"))) = .ok 200 :=
  (apiReadiness_eq sampleRuntime sampleApi (wellCalls (.raised (py "URLError")))
    (.inl ⟨_, rfl⟩)).2 _ rfl

/-! ## The status of the console -/

variable {as : List Action} {s : State} {r : ℕ} {q : Request} {answer : Answer}

/-- The checks of a report say that all is well. -/
lemma overallStatus_respond {dependencies : Dict PyStr Check} (hhermes : settings.hermes = true)
    (hprobes : path.probes = true)
    (hcall : calls.aiWorker = (respond worker path m results time).outcome)
    (hall : allChecks rt settings calls = .ok dependencies) :
    overallStatus dependencies = .healthy ↔ calls.database.isOk = true ∧
      calls.rabbitmq.isOk = true ∧ calls.minio.isOk = true ∧ (settings.localPrefillEnabled = true →
        (checkOllama rt settings.localPrefillModel calls.ollama).status = .healthy) ∧
      isReady m results = true := by
  obtain ⟨runtime, rfl, hruntime⟩ := allChecks_eq_ok hhermes hall
  have hworker : (checkAiWorker calls.aiWorker).status.fine = isReady m results := by
    rw [hcall, checkAiWorker_respond hprobes]
    cases isReady m results <;> rfl
  have hoverride : isReady m results = true → runtime.status.fine = true := by
    intro hready
    have hall := List.all_eq_true.mp (Bool.and_eq_true_iff.mp hready).2
    have hreported : workerReportsHermesHealthy (checkAiWorker calls.aiWorker) = .ok true := by
      rw [hcall, checkAiWorker_respond hprobes, workerReportsHermesHealthy_probedBody,
        hall .hermes (by decide), hall .hermesProfile (by decide)]
      rfl
    rw [hruntime hreported]
    rfl
  simp only [overallStatus_eq_healthy, List.forall_mem_cons, checkDatabase, checkRabbitmq,
    checkMinio, checkCall_fine, ollamaCheck_fine, hworker]
  constructor
  · rintro ⟨hdatabase, hrabbitmq, hminio, -, hollama, hready, -⟩
    exact ⟨hdatabase, hrabbitmq, hminio, hollama, hready⟩
  · rintro ⟨hdatabase, hrabbitmq, hminio, hollama, hready⟩
    exact ⟨hdatabase, hrabbitmq, hminio, hoverride hready, hollama, hready,
      fun _ h => absurd h List.not_mem_nil⟩

/-- **When the console shows that all is well.** With the runtime in use, and with what a worker
answered at some time of its run: if and only if the database, the broker and the storage answer, no
message is dead, the local model, if it is in use, is there, and the worker was ready. The API's own
check of the runtime does not matter. -/
theorem console_healthy_iff (rt : PyRuntime) (settings : ApiSettings) (calls : Calls)
    (worker : Settings) (as : List Action) (s : State) (r : ℕ) (q : Request) (answer : Answer)
    (h : run (step worker) start as = some s) (hq : s.requests[r]? = some q)
    (hprobes : q.path.probes = true) (hanswer : q.answer = some answer)
    (hhermes : settings.hermes = true) (hcall : calls.aiWorker = answer.outcome) :
    ∃ t results, Reading worker as s r q answer t results ∧
      ((∃ report, dependencyHealth rt settings calls = .ok report ∧ report.status = .healthy) ↔
        calls.database.isOk = true ∧ calls.minio.isOk = true ∧
        (∃ queues, calls.rabbitmq = .ok queues ∧ ∀ jobType, (queues jobType).deadLetter = 0) ∧
        (settings.localPrefillEnabled = true →
          (checkOllama rt settings.localPrefillModel calls.ollama).status = .healthy) ∧
        t.worker.place.serving = true ∧ ∀ dep, results dep = true) := by
  obtain ⟨t, results, hreading, hworker, heq⟩ := exists_reading h hq hprobes hanswer
  refine ⟨t, results, hreading, ?_⟩
  rw [heq] at hcall
  have hserved : calls.aiWorker.Served := .inr ⟨_, _, _, _, _, hcall⟩
  obtain ⟨dependencies, hall, -⟩ := exists_allChecks rt settings hserved
  have hoverall := overallStatus_respond hhermes hprobes hcall hall
  rw [isReady_iff hworker] at hoverall
  cases hrabbitmq : calls.rabbitmq with
  | error cls =>
    rw [dependencyHealth_error hall hrabbitmq]
    constructor
    · rintro ⟨report, hreport, -⟩
      cases hreport
    · rintro ⟨-, -, ⟨queues, hqueues, -⟩, -⟩
      cases hqueues
  | ok queues =>
    have hdead : ((queues .logTriage).deadLetter : ℤ) + (queues .dailyReport).deadLetter = 0 ↔
        ∀ jobType, (queues jobType).deadLetter = 0 := by
      constructor
      · intro hsum jobType
        cases jobType <;> omega
      · intro hnone
        rw [hnone, hnone]
        rfl
    have hreport : (∃ report, dependencyHealth rt settings calls = .ok report ∧
        report.status = .healthy) ↔ overallStatus dependencies = .healthy ∧
          ∀ jobType, (queues jobType).deadLetter = 0 := by
      rw [dependencyHealth_ok hall hrabbitmq, ← hdead, ← healthReport_status]
      constructor
      · rintro ⟨report, heq, hstatus⟩
        cases heq
        exact hstatus
      · exact fun hstatus => ⟨_, rfl, hstatus⟩
    have hok : calls.rabbitmq.isOk = true := by rw [hrabbitmq]; rfl
    rw [hreport, hoverall]
    constructor
    · rintro ⟨⟨hdatabase, -, hminio, hollama, hready⟩, hnone⟩
      exact ⟨hdatabase, hminio, ⟨queues, rfl, hnone⟩, hollama, hready⟩
    · rintro ⟨hdatabase, hminio, ⟨queues', heq, hnone⟩, hollama, hready⟩
      cases heq
      exact ⟨⟨hdatabase, hok, hminio, hollama, hready⟩, hnone⟩

/-- The console shows that all is well, and so the worker was consuming. -/
theorem readyRun_console : ∃ outcome,
    (∃ report, dependencyHealth sampleRuntime sampleApi (wellCalls outcome) = .ok report ∧
      report.status = .healthy) ∧
    ∃ pre post t, readyRun = pre ++ post ∧ run (step triageSettings) start pre = some t ∧
      t.worker.place.serving = true := by
  have hlast : ((run (step triageSettings) start readyRun).bind fun s => s.requests[0]?.bind fun q =>
      q.answer.bind fun answer => (dependencyHealth sampleRuntime sampleApi
        (wellCalls answer.outcome)).toOption.map fun report => (q.path.probes, report.status)) =
      some (true, .healthy) := rfl
  obtain ⟨s, hrun, hlast⟩ := Option.bind_eq_some_iff.mp hlast
  obtain ⟨q, hq, hlast⟩ := Option.bind_eq_some_iff.mp hlast
  obtain ⟨answer, hanswer, hlast⟩ := Option.bind_eq_some_iff.mp hlast
  obtain ⟨report, hreport, hlast⟩ := Option.map_eq_some_iff.mp hlast
  obtain ⟨hprobes, hstatus⟩ := Prod.mk.inj hlast
  have hok := Except.eq_ok_iff_toOption.mpr hreport
  obtain ⟨t, results, hreading, hiff⟩ := console_healthy_iff sampleRuntime sampleApi
    (wellCalls answer.outcome) triageSettings readyRun s 0 q answer hrun hq hprobes hanswer rfl rfl
  obtain ⟨-, -, -, -, hserving, -⟩ := hiff.mp ⟨report, hok, hstatus⟩
  obtain ⟨pre, post, heq, hpre⟩ := hreading.moment
  exact ⟨answer.outcome, ⟨report, hok, hstatus⟩, pre, post, t, heq, hpre, hserving⟩

end Received

end Health
