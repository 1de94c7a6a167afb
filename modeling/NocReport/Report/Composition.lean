import NocReport.Report.Document

set_option relaxedAutoImplicit false
set_option autoImplicit false

/-!
# Report composition

How a report document is composed from a model-written plan and a frozen snapshot
(`report_composition.py`, `analysis_presentation.py`, `time_projection.py`). The hash function,
the calendar and the time-zone database are parameters.

## Main definitions

* `Report.Env` — the parameters.
* `Report.buildAnalysisPresentation` — the blocks a stored analysis result is presented by.
* `Report.incidentBlock`, `Report.analysisBlock` — the two blocks of an incident.
* `Report.collectIncidents`, `Report.readPlan`, `Report.checkCoverage` — what is read off the
  snapshot and the plan before any block is built.
* `Report.composeReport` — the composition.
-/

namespace Report

/-- The libraries the composition uses. -/
structure Env extends PyRuntime where
  /-- the hexadecimal SHA-256 digest of the UTF-8 encoding of a text -/
  sha256Hex : PyStr → PyStr
  /-- the time-zone database knows the name -/
  zoneExists : PyStr → Bool
  /-- `datetime.fromisoformat`, in microseconds since the epoch; a naive time is UTC -/
  fromIsoFormat : PyStr → Option ℤ
  /-- the date of an instant in a time zone as `%A, %d %B %Y`, unless it is out of range -/
  localDate : PyStr → ℤ → Option PyStr

/-- `OutputValidationError`. -/
def outputValidationError (message : PyStr) : PyError :=
  .custom (py "OutputValidationError") message

/-- `except ValueError as exc: raise OutputValidationError(str(exc))`. -/
def wrapValueError {α : Type} : Except PyError α → Except PyError α
  | .error (.valueError message) => .error (outputValidationError message)
  | result => result

/-- A text literal as a value. -/
def text (s : String) : Json := .str (py s)

section Composition

variable (env : Env)

/-! ## The presentation of an analysis -/

/-- The statistic of a finding. -/
def findStat (count percentage : Json) : Except PyError (Option PyStr) :=
  match count, percentage with
  | .null, _ => return none
  | count, .null => do
    let c ← env.formatComma count
    return some c
  | count, percentage => do
    let c ← env.formatComma count
    return some (c ++ py " / " ++ env.str percentage ++ py "%")

/-- `analysis_presentation._find`. -/
def presentationFind (zh : Bool) (value : Json.Fields) : Except PyError Find := do
  let stat ← findStat env (value.get (py "count")) (value.get (py "percentage"))
  let primary := if zh then py "label_zh" else py "label_en"
  let fallback := if zh then py "label_en" else py "label_zh"
  let detail := env.str ((value.get (if zh then py "detail_zh" else py "detail_en")).or (.str []))
  return {
    label := env.str (((value.get primary).or (value.get fallback)).or (.str []))
    detail := if detail.isEmpty then none else some detail
    stat }

/-- The objects among the elements of a list. -/
def objects (v : Json) : List Json.Fields :=
  match v with
  | .arr xs => xs.filterMap fun x => match x with
    | .obj fields => some fields
    | _ => none
  | _ => []

/-- `_find_list`. -/
def presentationFindList (result : Json.Fields) (key : PyStr) (zh : Bool) :
    Except PyError Block := do
  let finds ← (objects (result.get key)).mapM (presentationFind env zh)
  return .findList {
    heading := if key = py "key_finds" then py "Key Finds" else py "Secondary Finds"
    finds
    language := if zh then text "Chinese" else text "English" }

/-- `_language_section`. -/
def languageSection (result : Json.Fields) (zh : Bool) : Except PyError (List Block) := do
  let summary := env.str ((result.get (if zh then py "summary_zh" else py "summary_en")).or (.str []))
  let keyFinds ← presentationFindList env result (py "key_finds") zh
  let secondaryFinds ← presentationFindList env result (py "secondary_finds") zh
  return [.heading ⟨if zh then text "Chinese" else text "English", 3⟩,
    .heading ⟨text "Short Summary", 4⟩, .paragraph ⟨.str summary, .null⟩, keyFinds, secondaryFinds]

/-- The blocks of the field `report_presentation`, when they are a list. -/
def explicitPresentation (result : Json.Fields) : Option (List Json) :=
  match result.get (py "report_presentation") with
  | .obj explicit => match Json.Fields.get explicit (py "blocks") with
    | .arr blocks => some blocks
    | _ => none
  | _ => none

/-- `build_analysis_presentation`. -/
def buildAnalysisPresentation (result contract : Json) : Except PyError (List Block) :=
  match result with
  | .obj fields =>
    if contract.isNull || contract.isText "analysis-presentation-v1" then
      match explicitPresentation fields with
      | some blocks => do
        let doc ← buildReportDocument env.toPyRuntime
          [(py "metadata", .obj []), (py "blocks", .arr blocks)]
        return doc.blocks
      | none => do
        let chinese ← languageSection env fields true
        let english ← languageSection env fields false
        return chinese ++ english
    else
      throw (.valueError
        (py "unsupported analysis presentation contract: " ++ env.str contract))
  | _ => return []

/-! ## The blocks of an incident -/

/-- `_legacy_fragment`: the compact export of a result that has none. -/
def legacyFragment (result : Json) : Except PyError Json :=
  match result with
  | .obj fields => do
    let orEmpty := fun (f : Json.Fields) (a b : PyStr) =>
      Json.str (env.str (((f.get a).or (f.get b)).or (.str [])))
    let only := fun (f : Json.Fields) (a : PyStr) => Json.str (env.str ((f.get a).or (.str [])))
    -- a text can be sliced too, and none of its characters is an object
    let findings ← match (Json.Fields.get fields (py "key_finds")).or (.arr []) with
      | .arr xs => pure (xs.take 5)
      | .str _ => pure []
      | _ => throw PyError.typeError
    return .obj [
      (py "contract", text "report-fragment-v1"),
      (py "headline", orEmpty fields (py "summary_en") (py "summary_zh")),
      (py "severity", Json.Fields.get fields (py "severity_signal")),
      (py "summary", .obj [
        (py "zh", only fields (py "summary_zh")), (py "en", only fields (py "summary_en"))]),
      (py "likely_cause", .obj [
        (py "zh", orEmpty fields (py "likely_cause_zh") (py "likely_cause")),
        (py "en", orEmpty fields (py "likely_cause_en") (py "likely_cause"))]),
      (py "recommended_action", .obj [
        (py "zh", orEmpty fields (py "recommended_action_zh") (py "recommended_action")),
        (py "en", orEmpty fields (py "recommended_action_en") (py "recommended_action"))]),
      (py "findings", .arr ((objects (.arr findings)).map fun item => .obj [
        (py "zh", orEmpty item (py "label_zh") (py "label_en")),
        (py "en", orEmpty item (py "label_en") (py "label_zh")),
        (py "detail_zh", only item (py "detail_zh")),
        (py "detail_en", only item (py "detail_en"))]))]
  | _ => return .null

/-- The compact export of an incident's analysis. -/
def reportFragment (incident : Json.Fields) : Except PyError Json :=
  if (incident.get (py "report_fragment")).truthy then
    return incident.get (py "report_fragment")
  else legacyFragment env (incident.get (py "analysis"))

/-- `_pair`. -/
def pair (fragment : Json) (key : PyStr) : Except PyError (Option Block) := do
  let value ← fragment.getD key .null
  match value.or (.obj []) with
  | .obj fields =>
    let zh := env.str ((Json.Fields.get fields (py "zh")).or (.str []))
    let en := env.str ((Json.Fields.get fields (py "en")).or (.str []))
    if zh.isEmpty && en.isEmpty then return none
    else return some (.bilingualText ⟨.str zh, .str en, text "Chinese", text "English"⟩)
  | _ => return none

/-- The facts that are there, each with its label. -/
def metadataOf (values : List (String × Json)) : List Metadata :=
  values.filterMap fun p =>
    if p.2.isNullOrEmpty then none else some ⟨text p.1, env.str p.2⟩

/-- `_metadata`. -/
def incidentMetadata (incident : Json.Fields) : List Metadata :=
  metadataOf env [
    ("Incident", (incident.get (py "display_id")).or (incident.get (py "id"))),
    ("Status", incident.get (py "status")),
    ("Service", incident.get (py "service")),
    ("Environment", incident.get (py "environment")),
    ("Triggered", incident.get (py "triggered_at")),
    ("Recovered", incident.get (py "recovered_at")),
    ("Trigger Value", incident.get (py "trigger_value"))]

/-- `_evidence_metadata`. -/
def evidenceMetadata (incident : Json.Fields) : List Metadata :=
  metadataOf env [
    ("Triggered", incident.get (py "triggered_at")),
    ("Recovered", incident.get (py "recovered_at")),
    ("Trigger Value", incident.get (py "trigger_value"))]

/-- `_bookmark_name`; encoding a text with a surrogate raises. -/
def bookmarkName (incidentId : PyStr) : Except PyError PyStr :=
  if incidentId.encodable then
    return py "log_analysis_" ++ (env.sha256Hex incidentId).take 24
  else throw (.valueError (py "surrogates not allowed"))

/-- The frozen screenshots of an incident: the objects in its list that name a bucket and a
key. -/
def incidentScreenshots (incident : Json.Fields) : Except PyError (List Screenshot) := do
  let items ← ((incident.get (py "screenshots")).or (.arr [])).iter
  (items.filter stored).mapM screenshotFromDict
where
  /-- `isinstance(item, dict) and item.get("bucket") and item.get("object_key")`. -/
  stored : Json → Bool
    | .obj item => (Json.Fields.get item (py "bucket")).truthy &&
        (Json.Fields.get item (py "object_key")).truthy
    | _ => false

/-- The log file of an incident. -/
def incidentLogFile (incident : Json.Fields) : Option LogFileReference :=
  if (incident.get (py "log_filename")).truthy then
    some ⟨incident.get (py "log_filename"), incident.get (py "log_file_url")⟩
  else none

/-- `f"Alert #{number} - {title}"`, where the title is the first of the title, the display id
and `fallback` that is not empty. -/
def alertHeading (incident : Json.Fields) (number : ℕ) (fallback : String) : PyStr :=
  py "Alert #" ++ .ofNat number ++ py " - " ++
    env.str (((incident.get (py "title")).or (incident.get (py "display_id"))).or (text fallback))

/-- `str(incident["id"])`. -/
def incidentId (incident : Json.Fields) : PyStr := env.str (incident.get (py "id"))

/-- `_incident_block`. -/
def incidentBlock (incident : Json.Fields) (number : ℕ) (canonical : Bool)
    (navigationTarget : Json) : Except PyError Block := do
  let screenshots ← incidentScreenshots incident
  let teams := if !canonical && (incident.get (py "teams_url")).truthy then
    [(⟨text "Teams", incident.get (py "teams_url"), text "Teams", text "Teams Link"⟩ : Link)]
    else []
  let grafana := if (incident.get (py "grafana_url")).truthy then
    [(⟨text "Grafana", incident.get (py "grafana_url"), text "Grafana", text "Grafana Link"⟩ : Link)]
    else []
  return .incidentEvidence {
    heading := .str (alertHeading env incident number "Incident")
    incidentId := .str (incidentId env incident)
    metadata := if canonical then evidenceMetadata env incident else incidentMetadata env incident
    link := none
    links := teams ++ grafana
    logFile := incidentLogFile incident
    screenshots
    navigationTarget }

/-- The `AnalysisReference` of an incident whose analysis cannot be shown. -/
def unavailableAnalysis (incident : Json.Fields) (number : ℕ) (analysisRunId : Option PyStr)
    (unavailableText : String) : AnalysisFields where
  heading := alertHeading env incident number "Analysis"
  available := false
  incidentId := some (incidentId env incident)
  analysisRunId := analysisRunId
  unavailableText := text unavailableText
  metadata := []
  provenance := []
  screenshots := []
  logFile := none
  summary := none
  keyFinds := none
  secondaryFinds := none
  likelyCause := none
  recommendedAction := none
  bookmark := .null

/-- The checks of `_analysis_block` on the plan's node for the incident. -/
def checkPlanNode (incident : Json.Fields) (planNode : Option Json.Fields) : Except PyError Unit :=
  match planNode with
  | none => return ()
  | some node => do
    let requestedRunId := node.get (py "analysis_run_id")
    let requestedIncidentId := node.get (py "incident_id")
    if requestedRunId.isNull && requestedIncidentId.isNull then
      throw (outputValidationError
        (py "analysis_reference requires analysis_run_id or incident_id"))
    if !requestedIncidentId.isNull &&
        env.str requestedIncidentId != env.str (incident.get (py "id")) &&
        env.str requestedIncidentId != env.str (incident.get (py "display_id")) then
      throw (outputValidationError
        (py "analysis_reference incident_id does not match analysis run"))
    if !requestedRunId.isNull &&
        env.str requestedRunId != env.str (incident.get (py "analysis_run_id")) then
      throw (outputValidationError (py "analysis reference " ++ env.repr requestedRunId ++
        py " is not the frozen run for incident " ++ incidentId env incident))

/-- The children of an available analysis: its presentation, or the compact export of an old
snapshot. -/
def analysisChildren (incident : Json.Fields) (fragment : Json) : Except PyError (List Block) := do
  let children ← wrapValueError (buildAnalysisPresentation env (incident.get (py "analysis"))
    (incident.get (py "analysis_presentation_contract")))
  if children.isEmpty then
    let summary ← pair env fragment (py "summary")
    let likelyCause ← pair env fragment (py "likely_cause")
    let recommendedAction ← pair env fragment (py "recommended_action")
    let labelled := fun (label : String) (b : Option Block) => match b with
      | some b => [.heading ⟨text label, 3⟩, b]
      | none => []
    return summary.toList ++ labelled "Likely Cause" likelyCause ++
      labelled "Recommended Action" recommendedAction
  else return children

/-- `_analysis_block`. -/
def analysisBlock (incident : Json.Fields) (planNode : Option Json.Fields) (number : ℕ) :
    Except PyError (AnalysisFields × List Block) := do
  checkPlanNode env incident planNode
  let runId := incident.get (py "analysis_run_id")
  if !runId.truthy then
    return (unavailableAnalysis env incident number none
      "No log analysis available for this incident.", [])
  else do
    let fragment ← reportFragment env incident
    if !fragment.isObject && !(incident.get (py "analysis")).isObject then
      return (unavailableAnalysis env incident number (some (env.str runId))
        "The frozen analysis has no report export.", [])
    else do
      let children ← analysisChildren env incident fragment
      let screenshots ← incidentScreenshots incident
      let bookmark ← bookmarkName env (incidentId env incident)
      return ({
        heading := alertHeading env incident number "Analysis"
        available := true
        incidentId := some (incidentId env incident)
        analysisRunId := some (env.str runId)
        unavailableText := .null
        metadata := []
        provenance := metadataOf env [
          ("Skill Snapshot", incident.get (py "analysis_skill_snapshot_id")),
          ("Execution Hash", incident.get (py "analysis_skill_execution_hash")),
          ("Skill Version", incident.get (py "analysis_skill_version")),
          ("Result Hash", incident.get (py "analysis_output_sha256")),
          ("Model", incident.get (py "analysis_model")),
          ("Effort", incident.get (py "analysis_effort"))]
        screenshots
        logFile := incidentLogFile incident
        summary := none
        keyFinds := none
        secondaryFinds := none
        likelyCause := none
        recommendedAction := none
        bookmark := .str bookmark }, .heading ⟨text "Log Analysis", 3⟩ :: children)

/-! ## What is read off the snapshot and the plan -/

/-- The incidents of a snapshot: in order, and under their ids and display ids. -/
structure Incidents where
  unique : List Json.Fields
  byRef : Dict PyStr Json.Fields

/-- One turn of the loop that collects the incidents of a snapshot. -/
def addIncident (acc : Incidents) (incident : Json) : Except PyError Incidents :=
  match incident with
  | .obj fields =>
    if !(Json.Fields.get fields (py "id")).truthy then
      throw (outputValidationError (py "frozen report incident is missing an id"))
    else
      let id := incidentId env fields
      if Dict.contains acc.byRef id then
        throw (outputValidationError
          (py "duplicate incident in frozen report snapshot: " ++ id))
      else
        let byRef := Dict.set acc.byRef id fields
        let displayId := Json.Fields.get fields (py "display_id")
        if !displayId.truthy then return ⟨acc.unique ++ [fields], byRef⟩
        else if Dict.contains byRef (env.str displayId) then
          throw (outputValidationError
            (py "duplicate incident display_id in frozen report snapshot: " ++ env.str displayId))
        else return ⟨acc.unique ++ [fields], Dict.set byRef (env.str displayId) fields⟩
  | _ => throw (outputValidationError (py "frozen report incident is missing an id"))

/-- The incidents of a snapshot. -/
def collectIncidents (snapshot : Json.Fields) : Except PyError Incidents := do
  let items ← ((snapshot.get (py "incidents")).or (.arr [])).iter
  items.foldlM (addIncident env) ⟨[], []⟩

/-- The node types of a plan. -/
inductive PlanNodeKind
  | heading | paragraph | bilingualGeneratedText | incidentReference | analysisReference | divider
  | pageBreak
  deriving DecidableEq, Repr

namespace PlanNodeKind

/-- The value of the field `type`. -/
def name : PlanNodeKind → String
  | heading => "heading"
  | paragraph => "paragraph"
  | bilingualGeneratedText => "bilingual_generated_text"
  | incidentReference => "incident_reference"
  | analysisReference => "analysis_reference"
  | divider => "divider"
  | pageBreak => "page_break"

/-- All node types. -/
def all : List PlanNodeKind :=
  [heading, paragraph, bilingualGeneratedText, incidentReference, analysisReference, divider,
    pageBreak]

/-- The node type a value of the field `type` names. -/
def ofJson? (v : Json) : Option PlanNodeKind := all.find? fun k => v.isText k.name

end PlanNodeKind

/-- What `parse` collects from a plan: the ids of the incidents and the runs it refers to, its
analysis nodes by incident, and the prose. -/
structure PlanRefs where
  incidentRefs : List PyStr
  analysisRefs : List PyStr
  analysisNodes : Dict PyStr Json.Fields
  summary : List Block

/-- A plan without nodes. -/
def PlanRefs.empty : PlanRefs := ⟨[], [], [], []⟩

/-- The incident a reference names. -/
def findIncident (incidents : Incidents) (ref : PyStr) : Except PyError Json.Fields :=
  match Dict.get? incidents.byRef ref with
  | some incident => pure incident
  | none => throw (outputValidationError (py "unknown incident reference: " ++ ref))

/-- The incident an analysis reference is about: the one it names, or the first whose analysis
run it names. -/
def analysisIncident (incidents : Incidents) (node : Json.Fields) :
    Except PyError Json.Fields :=
  let ref := env.str ((node.get (py "incident_id")).or (.str []))
  if !ref.isEmpty then findIncident incidents ref
  else
    let runId := env.str ((node.get (py "analysis_run_id")).or (.str []))
    match incidents.unique.find? fun item =>
        env.str (item.get (py "analysis_run_id")) == runId with
    | some incident => pure incident
    | none => throw (outputValidationError
        (py "analysis reference is outside this report: " ++ runId))

/-- The headings of the sections of a report. -/
def canonicalTopLevelHeadings : List PyStr :=
  [py "Alerts", py "General Summary", py "Log Analysis"]

/-- One turn of the loop of `parse`, on an object. -/
def readPlanNode (incidents : Incidents) (acc : PlanRefs) (node : Json.Fields) :
    Except PyError PlanRefs :=
  match PlanNodeKind.ofJson? (node.get (py "type")) with
  | some .heading => do
    let raw ← (Json.obj node).index (py "text")
    let headingText := env.str raw
    let level ← env.int (node.getD (py "level") (.int 1))
    if canonicalTopLevelHeadings.contains headingText && level == 1 then return acc
    else return { acc with summary := acc.summary ++ [.heading ⟨.str headingText, level⟩] }
  | some .paragraph =>
    let body := env.str ((node.get (py "text")).or (.str []))
    return { acc with summary := acc.summary ++ [.paragraph ⟨.str body, node.get (py "style")⟩] }
  | some .bilingualGeneratedText =>
    let zh := env.str ((node.get (py "zh")).or (.str []))
    let en := env.str ((node.get (py "en")).or (.str []))
    return { acc with summary := acc.summary ++ [.bilingualText ⟨.str zh, .str en,
      (node.get (py "heading_zh")).or (text "Chinese Summary"),
      (node.get (py "heading_en")).or (text "English Summary")⟩] }
  | some .incidentReference => do
    let incident ← findIncident incidents (env.str ((node.get (py "incident_id")).or (.str [])))
    return { acc with incidentRefs := acc.incidentRefs ++ [incidentId env incident] }
  | some .analysisReference => do
    let incident ← analysisIncident env incidents node
    let runId := incident.get (py "analysis_run_id")
    return { acc with
      analysisRefs := if runId.truthy then acc.analysisRefs ++ [env.str runId]
        else acc.analysisRefs
      analysisNodes := Dict.set acc.analysisNodes (incidentId env incident) node }
  | some .divider => return { acc with summary := acc.summary ++ [.divider] }
  | some .pageBreak => return acc
  | none => throw (outputValidationError
      (py "unsupported ReportPlan node type: " ++ env.repr (node.get (py "type"))))

/-- `parse`. -/
def readPlanNodes (incidents : Incidents) (nodes : List Json) : Except PyError PlanRefs :=
  nodes.foldlM (fun acc node => match node with
    | .obj fields => readPlanNode env incidents acc fields
    | _ => throw (outputValidationError
        (py "unsupported ReportPlan node type: " ++ env.repr .null))) PlanRefs.empty

/-- `required_text`. -/
def requiredText (value : Json) (label : String) : Except PyError Json :=
  match value with
  | .str s =>
    if s.strip.isEmpty then
      throw (outputValidationError (py label ++ py " must be a non-empty string"))
    else return .str s
  | _ => throw (outputValidationError (py label ++ py " must be a non-empty string"))

/-- `narrative_summary`. -/
def narrativeSummary (value : Json) : Except PyError Block :=
  match value with
  | .obj fields => do
    let zh ← requiredText (Json.Fields.get fields (py "zh")) "general_summary.zh"
    let en ← requiredText (Json.Fields.get fields (py "en")) "general_summary.en"
    return .bilingualText ⟨zh, en, text "Chinese Summary", text "English Summary"⟩
  | _ => throw (outputValidationError (py "general_summary must contain zh and en"))

/-- The policies of a snapshot. -/
structure Policies where
  canonical : Bool
  incidents : Json
  analyses : Json
  allowDuplicateIncidents : Bool
  allowDuplicateAnalyses : Bool

/-- The policies of a snapshot, read from its coverage and its composition profile. -/
def readPolicies (snapshot : Json.Fields) : Except PyError Policies :=
  match (snapshot.get (py "coverage")).or (.obj []) with
  | .obj coverage =>
    let profile := (snapshot.get (py "composition_profile")).or
      (Json.Fields.get coverage (py "composition_profile"))
    if profile.isNull || profile.isText "noc-daily-report-v1" then
      return {
        canonical := profile.isText "noc-daily-report-v1"
        incidents := Json.Fields.getD coverage (py "incidents") (text "optional")
        analyses := Json.Fields.getD coverage (py "analyses") (text "optional")
        allowDuplicateIncidents :=
          (Json.Fields.getD coverage (py "allow_duplicate_incidents") (.bool false)).truthy
        allowDuplicateAnalyses :=
          (Json.Fields.getD coverage (py "allow_duplicate_analyses") (.bool false)).truthy }
    else throw (outputValidationError
      (py "unsupported report composition profile: " ++ env.str profile))
  | _ => throw (outputValidationError (py "report coverage policy must be an object"))

/-- The plan's references and the blocks of its summary. -/
def readPlan (canonical : Bool) (incidents : Incidents) (plan : Json.Fields) :
    Except PyError PlanRefs :=
  if Dict.contains plan (py "general_summary") then do
    let summary ← narrativeSummary (plan.get (py "general_summary"))
    return { PlanRefs.empty with summary := [summary] }
  else if canonical then
    throw (outputValidationError (py "canonical Daily Report requires general_summary"))
  else match plan.get (py "blocks") with
    | .arr nodes => readPlanNodes env incidents nodes
    | _ => throw (outputValidationError (py "ReportPlan must contain a blocks array"))

/-- `f"{sorted(missing)}"` for the required ids that are not among the references. -/
def missingText (required refs : List PyStr) : Option PyStr :=
  let missing := (required.filter fun id => !refs.contains id).eraseDups
  if missing.isEmpty then none
  else some (env.repr (.arr ((missing.mergeSort fun a b => decide (a ≤ b)).map .str)))

/-- The checks of the plan's references against the policies, in the order they are made. -/
def checkCoverage (policies : Policies) (incidents : Incidents) (narrative : Bool)
    (refs : PlanRefs) : Except PyError Unit := do
  if !narrative && !policies.allowDuplicateIncidents && !decide refs.incidentRefs.Nodup then
    throw (outputValidationError (py "duplicate incident reference in ReportPlan"))
  if !narrative && !policies.allowDuplicateAnalyses && !decide refs.analysisRefs.Nodup then
    throw (outputValidationError (py "duplicate analysis reference in ReportPlan"))
  if !(policies.incidents.isText "all" || policies.incidents.isText "none" ||
      policies.incidents.isText "optional") then
    throw (outputValidationError
      (py "unsupported incident coverage policy: " ++ env.str policies.incidents))
  if !(policies.analyses.isText "all_available" || policies.analyses.isText "none" ||
      policies.analyses.isText "optional") then
    throw (outputValidationError
      (py "unsupported analysis coverage policy: " ++ env.str policies.analyses))
  if !narrative && policies.incidents.isText "all" then
    match missingText env (incidents.unique.map (incidentId env)) refs.incidentRefs with
    | some missing => throw (outputValidationError
        (py "ReportPlan omitted required incidents: " ++ missing))
    | none => pure ()
  if !narrative && policies.analyses.isText "all_available" then
    match missingText env ((incidents.unique.filter fun item =>
        (item.get (py "analysis_run_id")).truthy).map fun item =>
          env.str (item.get (py "analysis_run_id"))) refs.analysisRefs with
    | some missing => throw (outputValidationError
        (py "ReportPlan omitted required analyses: " ++ missing))
    | none => pure ()

/-! ## The composition -/

/-- `[incidents[ref] for ref in refs]`. -/
def lookupIncidents (incidents : Incidents) (refs : List PyStr) :
    Except PyError (List Json.Fields) :=
  refs.mapM fun ref => match Dict.get? incidents.byRef ref with
    | some incident => pure incident
    | none => throw .keyError

/-- The incidents of the Alerts section, in order. -/
def alertIncidents (policies : Policies) (incidents : Incidents) (refs : PlanRefs) :
    Except PyError (List Json.Fields) :=
  if policies.incidents.isText "all" then return incidents.unique
  else lookupIncidents incidents refs.incidentRefs.eraseDups

/-- The incidents of the Log Analysis section, in order. -/
def analysisIncidents (policies : Policies) (incidents : Incidents) (refs : PlanRefs) :
    Except PyError (List Json.Fields) :=
  if policies.analyses.isText "all_available" then
    return incidents.unique.filter fun item => (item.get (py "analysis_run_id")).truthy
  else lookupIncidents incidents (Dict.keys refs.analysisNodes)

/-- The numbers of the alerts, by incident id. -/
def alertNumbers (alerts : List Json.Fields) : Dict PyStr ℕ :=
  alerts.zipIdx.foldl (fun numbers p => Dict.set numbers (incidentId env p.1) (p.2 + 1)) []

/-- The plan's node for an incident that the Log Analysis section shows. -/
def planNodeFor (narrative : Bool) (refs : PlanRefs) (incident : Json.Fields) :
    Option Json.Fields :=
  let id := incidentId env incident
  match Dict.get? refs.analysisNodes id with
  | some node => some node
  | none => if narrative then none else some [(py "incident_id", .str id)]

/-- The bookmarks of the analyses that are available, by incident id. -/
def bookmarkTargets (analyses : List (AnalysisFields × List Block)) : Dict PyStr Json :=
  analyses.foldl (fun targets p => match p.1.incidentId with
    | some id => if p.1.available && !id.isEmpty && p.1.bookmark.truthy then
        Dict.set targets id p.1.bookmark else targets
    | none => targets) []

/-- The entries of the alert navigation. -/
def navigationEntries (alerts : List Json.Fields) (targets : Dict PyStr Json) :
    List NavigationEntry :=
  alerts.zipIdx.filterMap fun p =>
    (Dict.get? targets (incidentId env p.1)).map fun target =>
      ⟨alertHeading env p.1 (p.2 + 1) "Incident", target⟩

/-- The alert navigation, unless it has no entries. -/
def navigationBlocks (entries : List NavigationEntry) : List Block :=
  if entries.isEmpty then [] else [.alertNavigation entries]

/-- `_parse_timestamp` of the time projection, in microseconds since the epoch. -/
def parseTimestamp (value : Json) : Except PyError ℤ :=
  let raw := (env.str (value.or (.str []))).strip
  let iso := if (py "Z").isSuffixOf raw then raw.dropLast ++ py "+00:00" else raw
  match env.fromIsoFormat iso with
  | some instant => pure instant
  | none => throw (.valueError (py "Invalid isoformat string: " ++ env.repr (.str iso)))

/-- `project_shift_time(snapshot).report_date`. -/
def reportDate (snapshot : Json.Fields) : Except PyError PyStr := do
  let zone := (env.str ((snapshot.get (py "shift_timezone")).or (text "UTC"))).strip
  if !env.zoneExists zone then
    throw (.valueError (py "invalid frozen shift timezone: " ++ env.repr (.str zone)))
  let startsAt := snapshot.get (py "shift_starts_at")
  if !startsAt.truthy then
    throw (.valueError (py "frozen report snapshot is missing shift_starts_at"))
  let start ← parseTimestamp env startsAt
  let date ← localTime zone start
  let endsAt := snapshot.get (py "shift_ends_at")
  if endsAt.truthy then
    let stop ← parseTimestamp env endsAt
    let _ ← localTime zone stop
    return date
  else return date
where
  /-- `astimezone`, and the date it shows. -/
  localTime (zone : PyStr) (instant : ℤ) : Except PyError PyStr :=
    match env.localDate zone instant with
    | some date => pure date
    | none => throw .overflowError

/-- The blocks of the report's sections. -/
def reportBlocks (policies : Policies) (incidents : Incidents) (narrative : Bool)
    (refs : PlanRefs) : Except PyError (List Block) := do
  let alerts ← alertIncidents policies incidents refs
  let shown ← analysisIncidents policies incidents refs
  let numbers := alertNumbers env alerts
  let analyses ← shown.zipIdx.mapM fun p =>
    analysisBlock env p.1 (planNodeFor env narrative refs p.1)
      ((Dict.get? numbers (incidentId env p.1)).getD (p.2 + 1))
  let targets := bookmarkTargets analyses
  let evidence ← alerts.zipIdx.mapM fun p =>
    incidentBlock env p.1 (p.2 + 1) policies.canonical
      ((Dict.get? targets (incidentId env p.1)).getD .null)
  return .heading ⟨text "Alerts", 1⟩ ::
    navigationBlocks (navigationEntries env alerts targets) ++ evidence ++
    [.pageBreak, .heading ⟨text "General Summary", 1⟩] ++ refs.summary ++
    [.pageBreak, .heading ⟨text "Log Analysis", 1⟩] ++
    analyses.map fun p => .analysisReference p.1 p.2

/-- `compose_report`. -/
def composeReport (plan : Json) (snapshot : Json.Fields) : Except PyError ReportDocument :=
  match plan with
  | .obj planFields => do
    let policies ← readPolicies env snapshot
    let incidents ← collectIncidents env snapshot
    let narrative := Dict.contains planFields (py "general_summary")
    let refs ← readPlan env policies.canonical incidents planFields
    checkCoverage env policies incidents narrative refs
    let blocks ← reportBlocks env policies incidents narrative refs
    let date ← wrapValueError (reportDate env snapshot)
    let shift := (((snapshot.get (py "shift_display_name")).or (snapshot.get (py "shift_code"))).or
      (snapshot.get (py "shift_name"))).or (text "Shift")
    return {
      title := text "Daily Alert & Log Analysis Report"
      blocks
      metadata := [⟨text "Date", date⟩, ⟨text "Shift", env.str shift⟩]
      provenance := metadataOf env [
        ("Report Skill Snapshot", snapshot.get (py "report_skill_snapshot_id")),
        ("Report Execution Hash", snapshot.get (py "report_skill_execution_hash"))] }
  | _ => throw (outputValidationError (py "ReportPlan must be an object"))

end Composition

end Report
