import NocReport.Report.Canonical

set_option relaxedAutoImplicit false
set_option autoImplicit false

/-!
# Fresh snapshots

A report is composed from the snapshot that its request froze (`_build_snapshot` in
`app/api/v1/routers/reports.py`, with the compact exports of `app/report_fragments.py`). The request
writes the snapshot and the worker reads it, and neither knows the other: here the snapshot is built
from the rows as the database keeps them, and composed.

## Main definitions

* `Report.RowId`, `Report.IncidentRow`, `Report.AnalysisRunRow`, `Report.ShiftRow` — the rows.
* `Report.buildReportFragment` — the compact export of an analysis result.
* `Report.buildSnapshot` — the snapshot.
* `Report.ShiftShown`, `Report.AnalysisRunRow.Presented` — the shift has a date in its time zone,
  and a result has a presentation.

## Main results

* `Report.collectIncidents_refs` — incidents whose ids and display ids all differ are collected.
* `Report.composeReport_fresh_iff` — which fresh snapshots can be composed.
-/

namespace Report

/-! ## Rows -/

/-- The text of a UUID. -/
structure RowId where
  text : PyStr
  length_eq : text.length = 36
  hex : ∀ c ∈ text, c < 128

/-- A row of `evidence` whose bytes are kept. -/
structure EvidenceRow where
  id : RowId
  evidenceType : PyStr
  bucket : PyStr
  objectKey : PyStr
  versionId : Json
  sha256 : Json
  originalFilename : PyStr
  mimeType : Json
  byteSize : Json

/-- The columns of `analysis_runs` that a snapshot copies as they are. -/
inductive RunColumn
  | skillExecutionHash | skillHash | skillVersion | schemaHash | inputContractVersion
  | preprocessorVersion | aiPolicyVersion | aiPolicy | inputManifestSha256 | model | effort
  | attemptCount | usedCache | cacheType | inputTokens | outputTokens | cacheReadTokens
  | cacheCreationTokens | estimatedCostUsd | outputSha256 | totalModelInputTokens
  deriving DecidableEq, Repr

namespace RunColumn

/-- The key of the snapshot. -/
def key : RunColumn → String
  | skillExecutionHash => "analysis_skill_execution_hash"
  | skillHash => "analysis_skill_hash"
  | skillVersion => "analysis_skill_version"
  | schemaHash => "analysis_schema_hash"
  | inputContractVersion => "analysis_input_contract_version"
  | preprocessorVersion => "analysis_preprocessor_version"
  | aiPolicyVersion => "analysis_ai_policy_version"
  | aiPolicy => "analysis_ai_policy"
  | inputManifestSha256 => "analysis_input_manifest_sha256"
  | model => "analysis_model"
  | effort => "analysis_effort"
  | attemptCount => "analysis_attempt_count"
  | usedCache => "analysis_used_cache"
  | cacheType => "analysis_cache_type"
  | inputTokens => "analysis_input_tokens"
  | outputTokens => "analysis_output_tokens"
  | cacheReadTokens => "analysis_cache_read_tokens"
  | cacheCreationTokens => "analysis_cache_creation_tokens"
  | estimatedCostUsd => "analysis_estimated_cost_usd"
  | outputSha256 => "analysis_output_sha256"
  | totalModelInputTokens => "analysis_total_model_input_tokens"

/-- What stands there for an incident without an analysis. -/
def absent : RunColumn → Json
  | usedCache => .bool false
  | _ => .null

/-- All these columns, in the order of the snapshot. -/
def all : List RunColumn :=
  [skillExecutionHash, skillHash, skillVersion, schemaHash, inputContractVersion,
    preprocessorVersion, aiPolicyVersion, aiPolicy, inputManifestSha256, model, effort,
    attemptCount, usedCache, cacheType, inputTokens, outputTokens, cacheReadTokens,
    cacheCreationTokens, estimatedCostUsd, outputSha256, totalModelInputTokens]

end RunColumn

/-- A current row of `analysis_runs`, with the manifest of its skill snapshot if there is one. -/
structure AnalysisRunRow where
  id : RowId
  resultJson : Json
  logEvidenceId : Option RowId
  skillSnapshotId : Option RowId
  manifest : Option Json.Fields
  column : RunColumn → Json

/-- A row of `incidents`, with its current analyses and its active evidence. The display id fits
its column. -/
structure IncidentRow where
  id : RowId
  displayId : PyStr
  displayId_le : displayId.length ≤ 20
  title : PyStr
  service : PyStr
  environment : PyStr
  status : PyStr
  triggeredAt : PyStr
  recoveredAt : Json
  triggerValue : Json
  teamsUrl : Json
  grafanaUrl : Json
  currentRuns : List AnalysisRunRow
  evidence : List EvidenceRow

/-- The incidents of a shift, in the order of the query. Ids and display ids are unique. -/
structure ShiftIncidents where
  rows : List IncidentRow
  ids : (rows.map fun row => row.id.text).Nodup
  displayIds : (rows.map fun row => row.displayId).Nodup

/-- A row of `shifts`, with the name and the time zone of its definition. -/
structure ShiftRow where
  id : RowId
  startsAt : PyStr
  startsAt_ne : startsAt ≠ []
  endsAt : Option PyStr
  endsAt_ne : ∀ stop ∈ endsAt, stop ≠ []
  name : Json
  timezone : Json

/-- The skill snapshot that a report is made with. -/
structure ReportSkill where
  id : RowId
  executionHash : PyStr
  manifest : Json.Fields

section Building

variable (env : Env)

/-! ## The compact export of an analysis -/

/-- `_pair`, of a report fragment. -/
def fragmentPair (zh en : Json) : Json :=
  .obj [(py "zh", .str (env.str (zh.or (.str [])))), (py "en", .str (env.str (en.or (.str []))))]

/-- A text of a report context in both languages: the object under the key, or the texts under the
key with the languages behind it. -/
def contextPair (context : Json.Fields) (key : PyStr) : Json :=
  match context.get key with
  | .obj fields =>
    fragmentPair env (Json.Fields.get fields (py "zh")) (Json.Fields.get fields (py "en"))
  | _ => fragmentPair env (context.get (key ++ py "_zh")) (context.get (key ++ py "_en"))

/-- `(v or [])[:5]`, of which only the objects are used. -/
def firstFive (v : Json) : Except PyError (List Json.Fields) :=
  match v.or (.arr []) with
  | .arr xs => return objects (.arr (xs.take 5))
  -- a text can be sliced too, and none of its characters is an object
  | .str _ => return []
  | .obj _ => throw .keyError
  | _ => throw .typeError

/-- The fields under a key that a fragment has only where the result has one of them. -/
def fieldWhen (present : Bool) (key : PyStr) (v : Json) : Json.Fields :=
  if present then [(key, v)] else []

/-- `any(key in fields for key in keys)`. -/
def hasAny (fields : Json.Fields) (keys : List PyStr) : Bool :=
  keys.any fun key => Dict.contains fields key

/-- The fragment of a result with a report context. -/
def contextFragment (context : Json.Fields) : Except PyError Json := do
  let findings ← ((context.get (py "findings")).or (.arr [])).iter
  let optional (key : PyStr) :=
    fieldWhen (hasAny context [key, key ++ py "_zh", key ++ py "_en"]) key
      (contextPair env context key)
  return .obj ([
    (py "contract", text "report-fragment-v1"),
    (py "headline", .str (env.str ((context.get (py "headline")).or (.str [])))),
    (py "severity", context.get (py "severity")),
    (py "summary", contextPair env context (py "summary")),
    (py "findings", .arr (findings.take 5))] ++
    optional (py "likely_cause") ++ optional (py "recommended_action"))

/-- The fragment of a result of the log triage. -/
def triageFragment (result : Json.Fields) : Except PyError Json := do
  let found ← firstFive (result.get (py "key_finds"))
  let orEmpty (f : Json.Fields) (a b : PyStr) :=
    Json.str (env.str (((f.get a).or (f.get b)).or (.str [])))
  let only (f : Json.Fields) (a : PyStr) := Json.str (env.str ((f.get a).or (.str [])))
  let optional (key : PyStr) :=
    fieldWhen (hasAny result [key ++ py "_zh", key ++ py "_en"]) key
      (fragmentPair env (result.get (key ++ py "_zh")) (result.get (key ++ py "_en")))
  return .obj ([
    (py "contract", text "report-fragment-v1"),
    (py "headline", orEmpty result (py "summary_en") (py "summary_zh")),
    (py "severity", result.get (py "severity_signal")),
    (py "summary", fragmentPair env (result.get (py "summary_zh")) (result.get (py "summary_en"))),
    (py "findings", .arr (found.map fun finding => .obj [
      (py "zh", orEmpty finding (py "label_zh") (py "label_en")),
      (py "en", orEmpty finding (py "label_en") (py "label_zh")),
      (py "detail_zh", only finding (py "detail_zh")),
      (py "detail_en", only finding (py "detail_en"))]))] ++
    optional (py "likely_cause") ++ optional (py "recommended_action"))

/-- `build_report_fragment`. -/
def buildReportFragment (result : Json) : Except PyError Json :=
  match result with
  | .obj fields => match Json.Fields.get fields (py "report_context") with
    | .obj context => contextFragment env context
    | _ => triageFragment env fields
  | _ => return .null

/-! ## The snapshot -/

/-- `_frozen_evidence_identity`. -/
def frozenEvidenceIdentity (e : EvidenceRow) : Json :=
  .obj [
    (py "evidence_id", .str e.id.text),
    (py "evidence_type", .str e.evidenceType),
    (py "bucket", .str e.bucket),
    (py "object_key", .str e.objectKey),
    (py "version_id", e.versionId),
    (py "sha256", e.sha256),
    (py "filename", .str e.originalFilename),
    (py "content_type", e.mimeType),
    (py "byte_size", e.byteSize)]

/-- The value of an optional row, and `None` without one. -/
def orNull {α : Type} (f : α → Json) : Option α → Json
  | some a => f a
  | none => .null

/-- The contract of the presentation that the skill of an analysis exports. -/
def presentationContract (manifest : Json.Fields) : Json :=
  match (manifest.get (py "exports")).or (.obj []) with
  | .obj exported => match Json.Fields.get exported (py "presentation") with
    | .obj presentation => Json.Fields.get presentation (py "contract")
    | _ => .null
  | _ => .null

/-- The analysis of an incident that a snapshot shows; there is one at most. -/
def currentRun (row : IncidentRow) : Except PyError (Option AnalysisRunRow) :=
  match row.currentRuns with
  | [] => return none
  | [run] => return some run
  | _ => throw (.custom (py "RuntimeError")
      (py "incident " ++ row.id.text ++ py " has multiple current AnalysisRuns"))

/-- `run.result_json if (run and run.result_json) else None`. -/
def shownResult (run : Option AnalysisRunRow) : Json :=
  orNull (fun run => if run.resultJson.truthy then run.resultJson else .null) run

/-- The types of evidence that are screenshots. -/
def screenshotTypes : List PyStr := [py "ALERT_SCREENSHOT", py "GRAFANA_SCREENSHOT"]

/-- The object of an incident in a snapshot, with the fragment of its analysis. -/
def incidentFields (row : IncidentRow) (run : Option AnalysisRunRow) (fragment : Json) :
    Json.Fields :=
  let log := row.evidence.find? fun e => e.evidenceType == py "LOG"
  [
    (py "id", .str row.id.text),
    (py "display_id", .str row.displayId),
    (py "title", .str row.title),
    (py "service", .str row.service),
    (py "environment", .str row.environment),
    (py "status", .str row.status),
    (py "triggered_at", .str row.triggeredAt),
    (py "recovered_at", row.recoveredAt),
    (py "trigger_value", row.triggerValue),
    (py "teams_url", row.teamsUrl),
    (py "grafana_url", row.grafanaUrl),
    (py "log_filename", orNull (fun e => .str e.originalFilename) log),
    (py "log_evidence", orNull frozenEvidenceIdentity log),
    (py "screenshots", .arr ((row.evidence.filter fun e =>
      screenshotTypes.contains e.evidenceType).map frozenEvidenceIdentity)),
    (py "analysis", shownResult run),
    (py "analysis_presentation_contract", orNull (fun run : AnalysisRunRow =>
      orNull presentationContract run.manifest) run),
    (py "report_fragment", fragment),
    (py "analysis_run_id", orNull (fun run : AnalysisRunRow => .str run.id.text) run),
    (py "analysis_log_evidence_id", orNull (fun run : AnalysisRunRow =>
      orNull (fun id : RowId => .str id.text) run.logEvidenceId) run),
    (py "analysis_skill_snapshot_id", orNull (fun run : AnalysisRunRow =>
      orNull (fun id : RowId => .str id.text) run.skillSnapshotId) run)] ++
  RunColumn.all.map fun column => (py column.key, match run with
    | some run => run.column column
    | none => column.absent)

/-- The turn of an incident in `_build_snapshot`. -/
def freezeIncident (row : IncidentRow) : Except PyError Json := do
  let run ← currentRun row
  let fragment ← buildReportFragment env (orNull AnalysisRunRow.resultJson run)
  return .obj (incidentFields row run fragment)

/-- The fields of a snapshot with frozen incidents. -/
def snapshotFields (shift : ShiftRow) (skill : ReportSkill) (frozen : List Json) : Json.Fields := [
  (py "shift_id", .str shift.id.text),
  (py "shift_starts_at", .str shift.startsAt),
  (py "shift_ends_at", orNull Json.str shift.endsAt),
  (py "shift_name", shift.name),
  (py "shift_code", shift.name),
  (py "shift_display_name", shift.name),
  (py "shift_timezone", shift.timezone.or (text "UTC")),
  (py "report_skill_snapshot_id", .str skill.id.text),
  (py "report_skill_execution_hash", .str skill.executionHash),
  (py "composition_profile", skill.manifest.get (py "composition_profile")),
  (py "coverage", (skill.manifest.get (py "coverage")).or (.obj [])),
  (py "incidents", .arr frozen)]

/-- `_build_snapshot`. -/
def buildSnapshot (shift : ShiftRow) (incidents : ShiftIncidents) (skill : ReportSkill) :
    Except PyError Json.Fields := do
  let frozen ← incidents.rows.mapM (freezeIncident env)
  return snapshotFields shift skill frozen

end Building

/-! ## The incidents of a snapshot -/

section Collecting

variable {env : Env}

/-- What an incident can be referred to by. -/
def refsOf (env : Env) (incident : Json.Fields) : List PyStr :=
  incidentId env incident :: if (incident.get (py "display_id")).truthy then
    [env.str (incident.get (py "display_id"))] else []

/-- An incident with new references is collected under them. -/
lemma addIncident_refs {acc : Incidents} {incident : Json.Fields}
    (hid : (incident.get (py "id")).truthy = true)
    (hnew : (Dict.keys acc.byRef ++ refsOf env incident).Nodup) :
    ∃ acc', addIncident env acc (.obj incident) = .ok acc' ∧
      Dict.keys acc'.byRef = Dict.keys acc.byRef ++ refsOf env incident := by
  have hkeys : ∀ (d : Dict PyStr Json.Fields) (k : PyStr), k ∉ Dict.keys d →
      Dict.keys (Dict.set d k incident) = Dict.keys d ++ [k] := by
    intro d k hk
    rw [Dict.keys_set, if_neg hk]
  obtain ⟨-, hrefs, hdisjoint⟩ := List.nodup_append.mp hnew
  have hfresh : incidentId env incident ∉ Dict.keys acc.byRef := fun hmem =>
    hdisjoint _ hmem _ List.mem_cons_self rfl
  have hfirst := hkeys acc.byRef (incidentId env incident) hfresh
  have hcontains : ∀ (d : Dict PyStr Json.Fields) (k : PyStr), k ∉ Dict.keys d →
      Dict.contains d k = false := by
    intro d k hk
    exact Bool.eq_false_iff.mpr fun h => hk ((Dict.contains_iff d k).mp h)
  simp only [addIncident, hid, Bool.not_true, Bool.false_eq_true, if_false,
    hcontains _ _ hfresh]
  by_cases hdisplay : (incident.get (py "display_id")).truthy = true
  · have hother : env.str (incident.get (py "display_id")) ∉
        Dict.keys (Dict.set acc.byRef (incidentId env incident) incident) := by
      rw [hfirst]
      intro hmem
      have hrefs' : refsOf env incident =
          [incidentId env incident, env.str (incident.get (py "display_id"))] := by
        rw [refsOf, if_pos hdisplay]
      rw [hrefs'] at hrefs hdisjoint
      rcases List.mem_append.mp hmem with hold | hself
      · exact hdisjoint _ hold _ (by simp) rfl
      · simp only [List.mem_singleton] at hself
        simp [hself] at hrefs
    simp only [hdisplay, Bool.not_true, Bool.false_eq_true, if_false, hcontains _ _ hother]
    refine ⟨_, rfl, ?_⟩
    rw [hkeys _ _ hother, hfirst, refsOf, if_pos hdisplay, List.append_assoc]
    rfl
  · simp only [Bool.not_eq_true] at hdisplay
    simp only [hdisplay, Bool.not_false, if_true]
    refine ⟨_, rfl, ?_⟩
    rw [hfirst, refsOf, if_neg (by simp [hdisplay])]

/-- Incidents whose references all differ are collected. -/
lemma foldlM_addIncident {incidents : List Json.Fields} {acc : Incidents}
    (hids : ∀ incident ∈ incidents, (incident.get (py "id")).truthy = true)
    (hnew : (Dict.keys acc.byRef ++ incidents.flatMap (refsOf env)).Nodup) :
    ∃ acc', (incidents.map Json.obj).foldlM (addIncident env) acc = .ok acc' := by
  induction incidents generalizing acc with
  | nil => exact ⟨acc, rfl⟩
  | cons incident incidents ih =>
    rw [List.flatMap_cons, ← List.append_assoc] at hnew
    obtain ⟨next, hnext, hkeys⟩ := addIncident_refs (hids incident List.mem_cons_self)
      (List.nodup_append.mp hnew).1
    rw [← hkeys] at hnew
    obtain ⟨last, hlast⟩ := ih (fun i hi => hids i (List.mem_cons_of_mem _ hi)) hnew
    refine ⟨last, ?_⟩
    rw [List.map_cons, List.foldlM_cons]
    exact Except.bind_eq_ok.mpr ⟨next, hnext, hlast⟩

/-- **Incidents that can be told apart are collected**: when no id or display id stands for two of
them. -/
lemma collectIncidents_refs {snapshot : Json.Fields} {incidents : List Json.Fields}
    (hsnapshot : snapshot.get (py "incidents") = .arr (incidents.map .obj))
    (hids : ∀ incident ∈ incidents, (incident.get (py "id")).truthy = true)
    (hrefs : (incidents.flatMap (refsOf env)).Nodup) :
    ∃ collected, collectIncidents env snapshot = .ok collected ∧ collected.unique = incidents := by
  obtain ⟨collected, hcollected⟩ : ∃ collected : Incidents,
      (incidents.map Json.obj).foldlM (addIncident env) ⟨[], []⟩ = .ok collected :=
    foldlM_addIncident hids hrefs
  have hall : collectIncidents env snapshot = .ok collected := by
    unfold collectIncidents
    rw [hsnapshot, Json.iter_or_arr]
    exact hcollected
  refine ⟨collected, hall, ?_⟩
  rw [(collectIncidents_spec hall).1, snapshotIncidents, hsnapshot]
  simp [objects, List.filterMap_map]

end Collecting

/-! ## What a fresh snapshot holds -/

section Fresh

variable {env : Env} {row : IncidentRow} {run : Option AnalysisRunRow} {fragment : Json}

lemma RowId.text_ne (id : RowId) : id.text ≠ [] := by
  intro hnil
  have hlength := id.length_eq
  rw [hnil] at hlength
  cases hlength

lemma RowId.truthy (id : RowId) : (Json.str id.text).truthy = true := by
  simp [Json.truthy, id.text_ne]

/-- A UUID has an encoding. -/
lemma RowId.encodable (id : RowId) : id.text.encodable = true := by
  refine List.all_eq_true.mpr fun c hc => ?_
  have hlt := id.hex c hc
  simp
  omega

lemma incidentFields_displayId :
    (incidentFields row run fragment).get (py "display_id") = .str row.displayId := rfl

lemma incidentId_fresh : incidentId env (incidentFields row run fragment) = row.id.text := rfl

/-- The references of an incident. -/
def IncidentRow.refs (row : IncidentRow) : List PyStr :=
  row.id.text :: if row.displayId = [] then [] else [row.displayId]

/-- A fresh incident is referred to by its id and, unless it is empty, by its display id. -/
lemma refsOf_fresh : refsOf env (incidentFields row run fragment) = row.refs := by
  rw [refsOf, incidentId_fresh, incidentFields_displayId, IncidentRow.refs]
  cases hdisplay : row.displayId with
  | nil => rfl
  | cons c rest => rfl

/-- No id of an incident is the display id of one: an id has 36 characters. -/
lemma IncidentRow.id_ne_displayId (row row' : IncidentRow) : row.id.text ≠ row'.displayId := by
  intro heq
  have hlength := congrArg List.length heq
  have hle := row'.displayId_le
  rw [row.id.length_eq] at hlength
  omega

lemma IncidentRow.mem_refs {row : IncidentRow} {ref : PyStr} (h : ref ∈ row.refs) :
    ref = row.id.text ∨ ref = row.displayId := by
  unfold IncidentRow.refs at h
  split at h
  · exact .inl (List.mem_singleton.mp h)
  · simpa using h

/-- The references of the incidents of a shift all differ. -/
lemma ShiftIncidents.refs_nodup (incidents : ShiftIncidents) :
    (incidents.rows.flatMap IncidentRow.refs).Nodup := by
  refine List.nodup_flatMap.mpr ⟨fun row _ => ?_, ?_⟩
  · unfold IncidentRow.refs
    split
    · exact List.nodup_singleton _
    · simpa using row.id_ne_displayId row
  · have hids := List.pairwise_map.mp incidents.ids
    have hdisplayIds := List.pairwise_map.mp incidents.displayIds
    refine (hids.and hdisplayIds).imp fun hne ref href href' => ?_
    rcases IncidentRow.mem_refs href with rfl | rfl
    · rcases IncidentRow.mem_refs href' with heq | heq
      · exact hne.1 heq
      · exact IncidentRow.id_ne_displayId _ _ heq
    · rcases IncidentRow.mem_refs href' with heq | heq
      · exact IncidentRow.id_ne_displayId _ _ heq.symm
      · exact hne.2 heq

/-- What a row is frozen to. -/
def Frozen (env : Env) (row : IncidentRow) (fields : Json.Fields) : Prop :=
  ∃ run fragment, currentRun row = .ok run ∧
    buildReportFragment env (orNull AnalysisRunRow.resultJson run) = .ok fragment ∧
    fields = incidentFields row run fragment

lemma Frozen.refs {fields : Json.Fields} (h : Frozen env row fields) :
    refsOf env fields = row.refs := by
  obtain ⟨run, fragment, -, -, rfl⟩ := h
  exact refsOf_fresh

lemma Frozen.flatMap_refs {rows : List IncidentRow} {frozen : List Json.Fields}
    (h : List.Forall₂ (Frozen env) rows frozen) :
    frozen.flatMap (refsOf env) = rows.flatMap IncidentRow.refs := by
  induction h with
  | nil => rfl
  | cons hfirst _ ih => rw [List.flatMap_cons, List.flatMap_cons, hfirst.refs, ih]

/-- Frozen evidence is a stored screenshot. -/
lemma screenshotFromDict_frozen (e : EvidenceRow) :
    ∃ shot, screenshotFromDict (frozenEvidenceIdentity e) = .ok shot := ⟨_, rfl⟩

/-- The screenshots of a fresh incident can be read. -/
lemma incidentScreenshots_fresh :
    ∃ shots, incidentScreenshots (incidentFields row run fragment) = .ok shots := by
  have hlist : ((incidentFields row run fragment).get (py "screenshots")) =
      .arr ((row.evidence.filter fun e =>
        screenshotTypes.contains e.evidenceType).map frozenEvidenceIdentity) := rfl
  unfold incidentScreenshots
  rw [hlist, Json.iter_or_arr]
  refine Except.exists_mapM_eq_ok fun item hitem => ?_
  obtain ⟨e, -, rfl⟩ := List.mem_map.mp (List.mem_filter.mp hitem).1
  exact screenshotFromDict_frozen e

/-! ## The blocks of a fresh incident -/

/-- A result that is an object and not empty has a presentation. -/
def AnalysisRunRow.Presented (env : Env) (run : AnalysisRunRow) : Prop :=
  run.resultJson.isObject = true → run.resultJson.truthy = true →
    ∃ blocks, buildAnalysisPresentation env run.resultJson
      (orNull presentationContract run.manifest) = .ok blocks

lemma exists_wrapValueError {α : Type} {x : Except PyError α} :
    (∃ a, wrapValueError x = .ok a) ↔ ∃ a, x = .ok a := by
  cases x with
  | ok a => exact Iff.rfl
  | error e => cases e <;> simp [wrapValueError]

variable (env) in
/-- The pair under a key of an object. -/
lemma exists_pair (fields : Json.Fields) (key : PyStr) :
    ∃ b, pair env (.obj fields) key = .ok b := by
  have hvalue : (Json.obj fields).getD key .null = .ok ((Dict.get? fields key).getD .null) := rfl
  rw [pair, hvalue, Except.ok_bind]
  split
  · dsimp only
    split
    · exact ⟨_, rfl⟩
    · exact ⟨_, rfl⟩
  · exact ⟨_, rfl⟩

/-- The children of an analysis with a fragment are those of its presentation. -/
lemma exists_analysisChildren {incident : Json.Fields} (fields : Json.Fields) :
    (∃ children, analysisChildren env incident (.obj fields) = .ok children) ↔
      ∃ blocks, buildAnalysisPresentation env (incident.get (py "analysis"))
        (incident.get (py "analysis_presentation_contract")) = .ok blocks := by
  rw [analysisChildren, Except.exists_bind_eq_ok, ← exists_wrapValueError]
  refine exists_congr fun blocks => and_iff_left_of_imp fun _ => ?_
  obtain ⟨summary, hsummary⟩ := exists_pair env fields (py "summary")
  obtain ⟨likelyCause, hlikelyCause⟩ := exists_pair env fields (py "likely_cause")
  obtain ⟨recommendedAction, hrecommendedAction⟩ :=
    exists_pair env fields (py "recommended_action")
  split
  · refine Except.exists_bind_eq_ok.mpr ⟨summary, hsummary, ?_⟩
    refine Except.exists_bind_eq_ok.mpr ⟨likelyCause, hlikelyCause, ?_⟩
    exact Except.exists_bind_eq_ok.mpr ⟨recommendedAction, hrecommendedAction, _, rfl⟩
  · exact ⟨_, rfl⟩

/-- The fragment of an object is an object that is not empty. -/
lemma buildReportFragment_obj {fields : Json.Fields} {fragment : Json}
    (h : buildReportFragment env (.obj fields) = .ok fragment) :
    ∃ p fs, fragment = .obj (p :: fs) := by
  unfold buildReportFragment at h
  dsimp only at h
  split at h
  · obtain ⟨findings, -, h⟩ := Except.bind_eq_ok.mp h
    rw [Except.pure_eq_ok] at h
    exact ⟨_, _, h.symm⟩
  · obtain ⟨found, -, h⟩ := Except.bind_eq_ok.mp h
    rw [Except.pure_eq_ok] at h
    exact ⟨_, _, h.symm⟩

/-- An incident without an analysis can be composed. -/
lemma exists_analysisBlock_of_absent {incident : Json.Fields} (n : ℕ)
    (hrun : (incident.get (py "analysis_run_id")).truthy = false) :
    ∃ b, analysisBlock env incident none n = .ok b := by
  unfold analysisBlock
  rw [checkPlanNode, Except.exists_bind_eq_ok]
  simp only [hrun, Bool.not_false, if_true]
  exact ⟨(), rfl, _, rfl⟩

/-- An analysis that exports nothing can be composed. -/
lemma exists_analysisBlock_of_silent {incident : Json.Fields} (n : ℕ)
    (hrun : (incident.get (py "analysis_run_id")).truthy = true)
    (hfragment : reportFragment env incident = .ok .null)
    (hanalysis : (incident.get (py "analysis")).isObject = false) :
    ∃ b, analysisBlock env incident none n = .ok b := by
  unfold analysisBlock
  rw [checkPlanNode, Except.exists_bind_eq_ok]
  simp only [hrun, hfragment, Except.ok_bind, hanalysis, Bool.not_true, Bool.false_eq_true, if_false]
  exact ⟨(), rfl, _, rfl⟩

/-- An analysis with a fragment can be composed when it has a presentation, and the incident's
screenshots and id can be used. -/
lemma exists_analysisBlock_of_fragment {incident fields : Json.Fields} (n : ℕ)
    (hrun : (incident.get (py "analysis_run_id")).truthy = true)
    (hfragment : reportFragment env incident = .ok (.obj fields))
    (hshots : ∃ shots, incidentScreenshots incident = .ok shots)
    (hid : (incidentId env incident).encodable = true) :
    (∃ b, analysisBlock env incident none n = .ok b) ↔
      ∃ blocks, buildAnalysisPresentation env (incident.get (py "analysis"))
        (incident.get (py "analysis_presentation_contract")) = .ok blocks := by
  obtain ⟨shots, hshots⟩ := hshots
  have hbookmark : bookmarkName env (incidentId env incident) = .ok (py "log_analysis_" ++
      (env.sha256Hex (incidentId env incident)).take 24) := by
    rw [bookmarkName, if_pos hid]
    rfl
  have hobject : (Json.obj fields).isObject = true := rfl
  rw [← exists_analysisChildren fields]
  unfold analysisBlock
  rw [checkPlanNode, Except.exists_bind_eq_ok]
  simp only [hrun, hfragment, Except.ok_bind, hobject, hshots, hbookmark, Bool.not_true,
    Bool.false_and, Bool.false_eq_true, if_false, Except.exists_bind_eq_ok]
  constructor
  · rintro ⟨-, -, children, hchildren, -⟩
    exact ⟨children, hchildren⟩
  · rintro ⟨children, hchildren⟩
    exact ⟨(), rfl, children, hchildren, _, rfl⟩

/-- **The analysis of a fresh incident** can be composed when its result has a presentation. -/
lemma analysisBlock_fresh {run : AnalysisRunRow} (n : ℕ)
    (hfragment : buildReportFragment env run.resultJson = .ok fragment) :
    (∃ b, analysisBlock env (incidentFields row (some run) fragment) none n = .ok b) ↔
      run.Presented env := by
  have hrun : ((incidentFields row (some run) fragment).get (py "analysis_run_id")).truthy =
      true := run.id.truthy
  have hanalysis : (incidentFields row (some run) fragment).get (py "analysis") =
      if run.resultJson.truthy then run.resultJson else .null := rfl
  have hkept : (incidentFields row (some run) fragment).get (py "report_fragment") = fragment := rfl
  cases hresult : run.resultJson with
  | obj fields =>
    rw [hresult] at hfragment
    obtain ⟨p, fs, rfl⟩ := buildReportFragment_obj hfragment
    have hown : reportFragment env (incidentFields row (some run) (.obj (p :: fs))) =
        .ok (.obj (p :: fs)) := by
      rw [reportFragment, hkept]
      rfl
    rw [exists_analysisBlock_of_fragment n hrun hown incidentScreenshots_fresh row.id.encodable,
      hanalysis, hresult, AnalysisRunRow.Presented, hresult]
    cases htruthy : (Json.obj fields).truthy with
    | false => exact iff_of_true ⟨[], rfl⟩ fun _ h => absurd h Bool.false_ne_true
    | true => exact ⟨fun h _ _ => h, fun h => h rfl rfl⟩
  | null | bool | int | float | str | arr =>
    -- a result that is no object exports nothing
    rw [hresult] at hfragment hanalysis
    cases hfragment
    have hobject : ((incidentFields row (some run) .null).get (py "analysis")).isObject = false := by
      rw [hanalysis]
      split <;> rfl
    have hown : reportFragment env (incidentFields row (some run) .null) = .ok .null := by
      have hfalse : ¬ Json.null.truthy = true := Bool.false_ne_true
      rw [reportFragment, hkept, if_neg hfalse, hanalysis]
      split <;> rfl
    refine iff_of_true (exists_analysisBlock_of_silent n hrun hown hobject) fun h => ?_
    rw [hresult] at h
    cases h

/-- The evidence of a fresh incident can be composed. -/
lemma exists_incidentBlock_fresh (n : ℕ) (canonical : Bool) (target : Json) :
    ∃ b, incidentBlock env (incidentFields row run fragment) n canonical target = .ok b := by
  obtain ⟨shots, hshots⟩ : ∃ shots,
      incidentScreenshots (incidentFields row run fragment) = .ok shots :=
    incidentScreenshots_fresh
  exact ⟨_, Except.bind_eq_ok.mpr ⟨shots, hshots, rfl⟩⟩

end Fresh

/-! ## The date of a fresh snapshot -/

/-- The time zone of a shift. -/
def ShiftRow.zone (env : Env) (shift : ShiftRow) : PyStr :=
  (env.str (shift.timezone.or (text "UTC"))).strip

/-- A stored time has a date in a time zone. -/
def Shown (env : Env) (zone iso : PyStr) : Prop :=
  ∃ instant date, parseTimestamp env (.str iso) = .ok instant ∧
    env.localDate zone instant = some date

/-- The time zone of a shift is known, and its times have dates in it. -/
structure ShiftShown (env : Env) (shift : ShiftRow) : Prop where
  zone : env.zoneExists (shift.zone env) = true
  start : Shown env (shift.zone env) shift.startsAt
  stop : ∀ stop ∈ shift.endsAt, Shown env (shift.zone env) stop

section Composing

variable {env : Env} {shift : ShiftRow} {incidents : ShiftIncidents} {skill : ReportSkill}
  {snapshot : Json.Fields}

/-- The incidents of a snapshot are what the rows are frozen to. -/
lemma buildSnapshot_eq_ok (h : buildSnapshot env shift incidents skill = .ok snapshot) :
    ∃ frozen, List.Forall₂ (Frozen env) incidents.rows frozen ∧
      snapshot = snapshotFields shift skill (frozen.map .obj) := by
  obtain ⟨items, hitems, h⟩ := Except.bind_eq_ok.mp h
  rw [Except.pure_eq_ok] at h
  have hfrozen : ∀ (rows : List IncidentRow) (items : List Json),
      List.Forall₂ (fun row item => freezeIncident env row = .ok item) rows items →
      ∃ frozen, List.Forall₂ (Frozen env) rows frozen ∧ items = frozen.map .obj := by
    intro rows items hall
    induction hall with
    | nil => exact ⟨[], .nil, rfl⟩
    | cons hfirst _ ih =>
      obtain ⟨frozen, hrest, rfl⟩ := ih
      obtain ⟨run, hrun, hfirst⟩ := Except.bind_eq_ok.mp hfirst
      obtain ⟨fragment, hfragment, hfirst⟩ := Except.bind_eq_ok.mp hfirst
      rw [Except.pure_eq_ok] at hfirst
      refine ⟨_ :: frozen, .cons ⟨run, fragment, hrun, hfragment, rfl⟩ hrest, ?_⟩
      rw [List.map_cons, hfirst]
  obtain ⟨frozen, hrows, rfl⟩ := hfrozen _ _ (Except.mapM_eq_ok.mp hitems)
  exact ⟨frozen, hrows, h.symm⟩

/-- A time of the shift that has a date. -/
lemma exists_localTime (zone iso : PyStr) :
    (∃ date, (parseTimestamp env (.str iso) >>= reportDate.localTime env zone) = .ok date) ↔
      Shown env zone iso := by
  rw [Except.exists_bind_eq_ok]
  refine exists_congr fun instant => ?_
  unfold reportDate.localTime
  cases env.localDate zone instant with
  | some date => simp [pure, Except.pure]
  | none => simp

/-- **The date of a fresh snapshot** is that of the shift in its time zone. -/
lemma exists_reportDate (frozen : List Json) :
    (∃ date, reportDate env (snapshotFields shift skill frozen) = .ok date) ↔
      ShiftShown env shift := by
  have hzone : (env.str (((snapshotFields shift skill frozen).get (py "shift_timezone")).or
      (text "UTC"))).strip = shift.zone env := by
    have hget : (snapshotFields shift skill frozen).get (py "shift_timezone") =
        shift.timezone.or (text "UTC") := rfl
    have htwice : (shift.timezone.or (text "UTC")).or (text "UTC") =
        shift.timezone.or (text "UTC") := by
      unfold Json.or
      split <;> simp_all
    rw [hget, htwice, ShiftRow.zone]
  have hstart : (snapshotFields shift skill frozen).get (py "shift_starts_at") =
      .str shift.startsAt := rfl
  have hstop : (snapshotFields shift skill frozen).get (py "shift_ends_at") =
      orNull Json.str shift.endsAt := rfl
  have htruthy : (Json.str shift.startsAt).truthy = true := by
    simp [Json.truthy, shift.startsAt_ne]
  have hsplit : ShiftShown env shift ↔ env.zoneExists (shift.zone env) = true ∧
      Shown env (shift.zone env) shift.startsAt ∧
        ∀ stop ∈ shift.endsAt, Shown env (shift.zone env) stop :=
    ⟨fun h => ⟨h.zone, h.start, h.stop⟩, fun h => ⟨h.1, h.2.1, h.2.2⟩⟩
  unfold reportDate
  simp only [hzone, hstart, hstop, htruthy]
  cases hexists : env.zoneExists (shift.zone env) with
  | false =>
    refine iff_of_false ?_ fun h => ?_
    · rintro ⟨date, h⟩
      cases h
    · rw [h.zone] at hexists
      cases hexists
  | true =>
    simp only [Bool.not_true, Bool.false_eq_true, if_false, hsplit, hexists, true_and,
      ← exists_localTime, Except.exists_bind_eq_ok]
    cases hends : shift.endsAt with
    | none =>
      have hnone : (orNull Json.str (none : Option PyStr)).truthy = false := rfl
      simp only [hnone, Bool.false_eq_true, if_false, Option.mem_def, reduceCtorEq,
        false_implies, implies_true, and_true]
      constructor
      · rintro ⟨instant, hinstant, date, hdate, -⟩
        exact ⟨instant, hinstant, date, hdate⟩
      · rintro ⟨instant, hinstant, date, hdate⟩
        exact ⟨instant, hinstant, date, hdate, date, rfl⟩
    | some stop =>
      have hsome : (Json.str stop).truthy = true := by
        simp [Json.truthy, shift.endsAt_ne stop hends]
      have hvalue : orNull Json.str (some stop) = .str stop := rfl
      simp only [hvalue, hsome, if_true, Option.mem_def, Option.some.injEq, forall_eq',
        Except.exists_bind_eq_ok]
      constructor
      · rintro ⟨instant, hinstant, date, hdate, instant', hinstant', date', hdate', -⟩
        exact ⟨⟨instant, hinstant, date, hdate⟩, instant', hinstant', date', hdate'⟩
      · rintro ⟨⟨instant, hinstant, date, hdate⟩, instant', hinstant', date', hdate'⟩
        exact ⟨instant, hinstant, date, hdate, instant', hinstant', date', hdate', date, rfl⟩

/-! ## Composing a fresh snapshot -/

/-- The skill of the daily report: its profile is the canonical one, and it covers all incidents
and all analyses. -/
structure ReportSkill.Daily (skill : ReportSkill) : Prop where
  profile : skill.manifest.get (py "composition_profile") = dailyReportProfile
  coverage : ∃ coverage, skill.manifest.get (py "coverage") = .obj coverage ∧
    Json.Fields.get coverage (py "incidents") = text "all" ∧
    Json.Fields.get coverage (py "analyses") = text "all_available"

/-- A plan with two texts that are not blank. -/
def Narrative (plan : Json.Fields) : Prop :=
  ∃ zh en, PlanSummary plan zh en ∧ zh.strip ≠ [] ∧ en.strip ≠ []

variable (shift) in
lemma ReportSkill.Daily.coverage_eq (h : skill.Daily) (frozen : List Json) :
    ∃ coverage, (snapshotFields shift skill frozen).get (py "coverage") = .obj coverage ∧
      Json.Fields.get coverage (py "incidents") = text "all" ∧
      Json.Fields.get coverage (py "analyses") = text "all_available" := by
  obtain ⟨coverage, hcoverage, hincidents, hanalyses⟩ := h.coverage
  refine ⟨coverage, ?_, hincidents, hanalyses⟩
  have hget : (snapshotFields shift skill frozen).get (py "coverage") =
      (skill.manifest.get (py "coverage")).or (.obj []) := rfl
  rw [hget, hcoverage]
  unfold Json.or
  split
  · rfl
  · next hempty =>
    cases coverage with
    | nil => rfl
    | cons p rest => exact absurd rfl hempty

variable (env shift) in
/-- The policies of the daily report. -/
lemma ReportSkill.Daily.policies (h : skill.Daily) (frozen : List Json) :
    ∃ policies, readPolicies env (snapshotFields shift skill frozen) = .ok policies ∧
      policies.canonical = true ∧ policies.incidents.isText "all" = true ∧
      policies.analyses.isText "all_available" = true := by
  obtain ⟨coverage, hcoverage, hincidents, hanalyses⟩ := h.coverage_eq shift frozen
  have htruthy : (Json.obj coverage).truthy = true := by
    cases coverage with
    | nil => cases hincidents
    | cons _ _ => rfl
  have hprofile : ∀ v, ((snapshotFields shift skill frozen).get (py "composition_profile")).or v =
      dailyReportProfile := by
    intro v
    have hget : (snapshotFields shift skill frozen).get (py "composition_profile") =
        skill.manifest.get (py "composition_profile") := rfl
    rw [hget, h.profile]
    rfl
  obtain ⟨policies, hpolicies⟩ : ∃ policies,
      readPolicies env (snapshotFields shift skill frozen) = .ok policies := by
    unfold readPolicies
    rw [hcoverage, Json.or, if_pos htruthy]
    dsimp only
    rw [hprofile]
    exact ⟨_, rfl⟩
  have hcanonical : compositionProfile (snapshotFields shift skill frozen) =
      dailyReportProfile := hprofile _
  exact ⟨policies, hpolicies, readPolicies_canonical hcanonical hpolicies,
    readPolicies_coverage ⟨coverage, hcoverage, hincidents, hanalyses⟩ hpolicies⟩

variable (env) in
/-- What a narrative plan contributes. -/
lemma Narrative.readPlan {plan : Json.Fields} (h : Narrative plan) (incidents : Incidents) :
    Dict.contains plan (py "general_summary") = true ∧
      ∃ summary, readPlan env true incidents plan = .ok (summaryOnly summary) := by
  obtain ⟨zh, en, ⟨summary, hsummary, hzh, hen⟩, hzhText, henText⟩ := h
  have hcontains : Dict.contains plan (py "general_summary") = true := by
    refine (Dict.contains_iff _ _).mpr ?_
    by_contra hmissing
    have hnone := (Dict.get?_eq_none_iff plan (py "general_summary")).mpr hmissing
    rw [Json.Fields.get, Json.Fields.getD, hnone] at hsummary
    cases hsummary
  have hrequired : ∀ (s : PyStr) (label : String), s.strip ≠ [] →
      requiredText (.str s) label = .ok (.str s) := by
    intro s label hs
    simp [requiredText, hs, pure, Except.pure]
  refine ⟨hcontains, [.bilingualText (summaryBlock zh en)], ?_⟩
  unfold Report.readPlan
  rw [if_pos hcontains, hsummary]
  refine Except.bind_eq_ok.mpr ⟨.bilingualText (summaryBlock zh en), ?_, rfl⟩
  refine Except.bind_eq_ok.mpr ⟨.str zh, ?_, Except.bind_eq_ok.mpr ⟨.str en, ?_, rfl⟩⟩
  · rw [hzh]
    exact hrequired zh _ hzhText
  · rw [hen]
    exact hrequired en _ henText

variable (env) in
/-- A plan of texts alone is not held against the coverage. -/
lemma checkCoverage_narrative {policies : Policies} (collected : Incidents) (refs : PlanRefs)
    (hall : policies.incidents.isText "all" = true)
    (havailable : policies.analyses.isText "all_available" = true) :
    checkCoverage env policies collected true refs = .ok () := by
  simp only [checkCoverage, hall, havailable, Bool.not_true, Bool.false_and, Bool.true_or,
    Bool.false_eq_true, if_false]
  rfl

/-- The sections can be composed when each analysis can. -/
lemma exists_reportBlocks {policies : Policies} {collected : Incidents} (summary : List Block)
    (hall : policies.incidents.isText "all" = true)
    (havailable : policies.analyses.isText "all_available" = true)
    (hevidence : ∀ incident ∈ collected.unique, ∀ n canonical target,
      ∃ b, incidentBlock env incident n canonical target = .ok b) :
    (∃ blocks, reportBlocks env policies collected true (summaryOnly summary) = .ok blocks) ↔
      ∀ p ∈ (collected.unique.filter fun incident =>
        (incident.get (py "analysis_run_id")).truthy).zipIdx,
        ∃ b, analysisBlock env p.1 none ((Dict.get? (alertNumbers env collected.unique)
          (incidentId env p.1)).getD (p.2 + 1)) = .ok b := by
  have hnode : ∀ incident, planNodeFor env true (summaryOnly summary) incident = none :=
    fun _ => rfl
  unfold reportBlocks
  rw [alertIncidents, if_pos hall, analysisIncidents, if_pos havailable]
  simp only [hnode, Except.exists_bind_eq_ok, Except.pure_eq_ok, exists_eq_left']
  constructor
  · rintro ⟨analyses, hanalyses, -⟩ p hp
    obtain ⟨b, -, hb⟩ := (Except.mapM_eq_ok.mp hanalyses).exists_right hp
    exact ⟨b, hb⟩
  · intro hpresented
    obtain ⟨analyses, hanalyses⟩ := Except.exists_mapM_eq_ok hpresented
    have hall : ∀ p ∈ collected.unique.zipIdx, ∃ b, incidentBlock env p.1 (p.2 + 1)
        policies.canonical ((Dict.get? (bookmarkTargets analyses) (incidentId env p.1)).getD
          .null) = .ok b :=
      fun p hp => hevidence p.1 (List.fst_mem_of_mem_zipIdx hp) _ _ _
    obtain ⟨evidence, hevidence⟩ := Except.exists_mapM_eq_ok hall
    exact ⟨analyses, hanalyses, evidence, hevidence, _, rfl⟩

/-- A frozen incident has an analysis when its row has one. -/
lemma Frozen.run {row : IncidentRow} {fields : Json.Fields} (h : Frozen env row fields) :
    (row.currentRuns = [] ∧ (fields.get (py "analysis_run_id")).truthy = false) ∨
      ∃ run, row.currentRuns = [run] ∧ (fields.get (py "analysis_run_id")).truthy = true ∧
        ∀ n, (∃ b, analysisBlock env fields none n = .ok b) ↔ run.Presented env := by
  obtain ⟨run, fragment, hrun, hfragment, rfl⟩ := h
  unfold currentRun at hrun
  split at hrun
  · next hnone =>
    cases hrun
    exact .inl ⟨hnone, rfl⟩
  · next r hone =>
    cases hrun
    exact .inr ⟨r, hone, r.id.truthy, fun n => analysisBlock_fresh n hfragment⟩
  · cases hrun

/-- **Which fresh snapshots can be composed.** A plan with two texts and a snapshot that was built
for the daily report make a report if and only if the shift can be dated in its time zone and each
analysis result has a presentation. Nothing else that is stored can stand in the way. -/
theorem composeReport_fresh_iff (env : Env) (shift : ShiftRow) (incidents : ShiftIncidents)
    (skill : ReportSkill) (plan snapshot : Json.Fields) (hskill : skill.Daily)
    (hplan : Narrative plan) (h : buildSnapshot env shift incidents skill = .ok snapshot) :
    (∃ doc, composeReport env (.obj plan) snapshot = .ok doc) ↔
      ShiftShown env shift ∧
        ∀ row ∈ incidents.rows, ∀ run ∈ row.currentRuns, run.Presented env := by
  obtain ⟨frozen, hrows, rfl⟩ := buildSnapshot_eq_ok h
  obtain ⟨policies, hpolicies, hcanonical, hall, havailable⟩ :=
    hskill.policies env shift (frozen.map .obj)
  have hids : ∀ fields ∈ frozen, (Json.Fields.get fields (py "id")).truthy = true := by
    intro fields hfields
    obtain ⟨row, -, run, fragment, -, -, rfl⟩ := hrows.exists_left hfields
    exact row.id.truthy
  have hrefs : (frozen.flatMap (refsOf env)).Nodup := by
    rw [Frozen.flatMap_refs hrows]
    exact incidents.refs_nodup
  obtain ⟨collected, hcollected, hunique⟩ := collectIncidents_refs
    (show (snapshotFields shift skill (frozen.map .obj)).get (py "incidents") = _ from rfl)
    hids hrefs
  obtain ⟨hcontains, summary, hread⟩ := hplan.readPlan env collected
  have hcompose : (∃ doc, composeReport env (.obj plan)
      (snapshotFields shift skill (frozen.map .obj)) = .ok doc) ↔
      (∃ blocks, reportBlocks env policies collected true (summaryOnly summary) = .ok blocks) ∧
        ∃ date, reportDate env (snapshotFields shift skill (frozen.map .obj)) = .ok date := by
    have hcoverage := checkCoverage_narrative env collected (summaryOnly summary) hall
      havailable
    unfold composeReport
    simp only [hpolicies, hcollected, hcontains, hcanonical, hread, hcoverage, Except.ok_bind,
      Except.exists_bind_eq_ok]
    constructor
    · rintro ⟨blocks, hblocks, date, hdate, -⟩
      exact ⟨⟨blocks, hblocks⟩, exists_wrapValueError.mp ⟨date, hdate⟩⟩
    · rintro ⟨⟨blocks, hblocks⟩, hdate⟩
      obtain ⟨date, hdate⟩ := exists_wrapValueError.mpr hdate
      exact ⟨blocks, hblocks, date, hdate, _, rfl⟩
  have hevidence : ∀ incident ∈ collected.unique, ∀ n canonical target,
      ∃ b, incidentBlock env incident n canonical target = .ok b := by
    intro incident hincident
    rw [hunique] at hincident
    obtain ⟨row, -, run, fragment, -, -, rfl⟩ := hrows.exists_left hincident
    exact exists_incidentBlock_fresh
  rw [hcompose, exists_reportBlocks summary hall havailable hevidence, exists_reportDate, hunique,
    and_comm]
  refine and_congr_right fun _ => ⟨fun hblocks row hrow run hrun => ?_, fun hpresented p hp => ?_⟩
  · obtain ⟨fields, hfields, hfrozen⟩ := hrows.exists_right hrow
    rcases hfrozen.run with ⟨hnone, -⟩ | ⟨r, hone, htruthy, hiff⟩
    · rw [hnone] at hrun
      cases hrun
    · rw [hone, List.mem_singleton] at hrun
      rw [hrun]
      have hmem : fields ∈ frozen.filter fun incident : Json.Fields =>
          (incident.get (py "analysis_run_id")).truthy := List.mem_filter.mpr ⟨hfields, htruthy⟩
      obtain ⟨n, hn⟩ := List.mem_iff_getElem?.mp hmem
      exact (hiff _).mp (hblocks (fields, n) (List.mk_mem_zipIdx_iff_getElem?.mpr hn))
  · have hmem := List.mem_filter.mp (List.fst_mem_of_mem_zipIdx hp)
    obtain ⟨row, hrow, hfrozen⟩ := hrows.exists_left hmem.1
    rcases hfrozen.run with ⟨-, hfalse⟩ | ⟨r, hone, -, hiff⟩
    · rw [hfalse] at hmem
      cases hmem.2
    · exact (hiff _).mpr (hpresented row hrow r (by rw [hone]; exact List.mem_singleton_self r))

end Composing

/-! ## A shift with one analysed incident -/

/-- A UUID of one digit. -/
def freshId (digit : ℕ) (hdigit : digit < 128) : RowId where
  text := List.replicate 36 digit
  length_eq := List.length_replicate
  hex := fun _ hc => List.eq_of_mem_replicate hc ▸ hdigit

/-- A shift of the first day of a year. -/
def freshShift : ShiftRow where
  id := freshId 49 (by decide)
  startsAt := py "2026-01-01T00:00:00+00:00"
  startsAt_ne := by decide
  endsAt := none
  endsAt_ne := by simp
  name := text "Night"
  timezone := .null

/-- An analysis that shows a screenshot. -/
def freshRun : AnalysisRunRow where
  id := freshId 50 (by decide)
  resultJson := presentedScreenshot "evidence" "a.png"
  logEvidenceId := none
  skillSnapshotId := none
  manifest := none
  column := RunColumn.absent

/-- An incident with one analysis. -/
def freshIncident : IncidentRow where
  id := freshId 51 (by decide)
  displayId := py "INC-0001"
  displayId_le := by decide
  title := py "Latency"
  service := py "api"
  environment := py "prod"
  status := py "OPEN"
  triggeredAt := py "2026-01-01T00:00:00+00:00"
  recoveredAt := .null
  triggerValue := .null
  teamsUrl := .null
  grafanaUrl := .null
  currentRuns := [freshRun]
  evidence := []

/-- The incidents of the shift. -/
def freshIncidents : ShiftIncidents where
  rows := [freshIncident]
  ids := List.nodup_singleton _
  displayIds := List.nodup_singleton _

/-- A skill of the daily report. -/
def freshSkill : ReportSkill where
  id := freshId 52 (by decide)
  executionHash := List.replicate 64 48
  manifest := [(py "composition_profile", text "noc-daily-report-v1"),
    (py "coverage", .obj [(py "incidents", text "all"), (py "analyses", text "all_available")])]

lemma freshSkill_daily : freshSkill.Daily := ⟨rfl, _, rfl, rfl, rfl⟩

lemma samplePlan_narrative : Narrative samplePlan :=
  ⟨py "无", py "Nothing.", ⟨_, rfl, rfl, rfl⟩, by decide, by decide⟩

lemma freshShift_shown : ShiftShown sampleEnv freshShift where
  zone := rfl
  start := ⟨_, _, rfl, rfl⟩
  stop := by simp [freshShift]

/-- The snapshot of the shift can be composed. -/
theorem freshShift_composes : ∃ snapshot,
    buildSnapshot sampleEnv freshShift freshIncidents freshSkill = .ok snapshot ∧
      ∃ doc, composeReport sampleEnv (.obj samplePlan) snapshot = .ok doc := by
  refine ⟨_, rfl, ?_⟩
  refine (composeReport_fresh_iff sampleEnv freshShift freshIncidents freshSkill samplePlan _
    freshSkill_daily samplePlan_narrative rfl).mpr ⟨freshShift_shown, ?_⟩
  intro row hrow run hrun
  cases List.mem_singleton.mp hrow
  cases List.mem_singleton.mp hrun
  exact fun _ _ => ⟨_, rfl⟩

end Report
