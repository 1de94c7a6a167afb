import NocReport.Triage.LogEntries

set_option relaxedAutoImplicit false
set_option autoImplicit false

/-!
# The deterministic rules of the incident prefill

What the prefill reads off the lines of a screenshot without asking a model
(`app/incident_prefill.py`): labelled lines, the service among the known ones, the state, the
times of the trigger and of the recovery, the trigger value and the environment. The Unicode
tables, the date parser and the similarity of `difflib` are parameters.

## Main definitions

* `Prefill.Extraction`, `Prefill.lines` — the text read off a screenshot, and its lines.
* `Prefill.PrefillField`, `Prefill.IncidentPrefill` — a suggested field and the eight of them.
* `Prefill.knownService` — the known service a text names.
* `Prefill.triggeredTimestamp`, `Prefill.recoveredTimestamp` — the timestamps the two times are
  read off.
* `Prefill.deterministicPrefill` — the fields the rules fill in.

## Main results

* `Prefill.knownService_value` — what is filled in is one of the known services.
* `Prefill.deterministicPrefill_method_ne` — no rule names the model as its method.
* `Prefill.deterministicPrefill_total_iff` — the rules return, and read both times alike, exactly
  when the timestamp of the recovery is a date as it is written.
-/

namespace Prefill

open Triage (splitLines notBlank hasText literalI lit among space digit ignoringCase)

/-- The parts of the standard library the prefill uses. -/
structure Env extends Triage.Env where
  /-- `difflib.SequenceMatcher(None, a, b).ratio()` -/
  ratio : PyStr → PyStr → ℚ
  isoFormat_ne_nil : ∀ d, isoFormat d ≠ []
  isoFormat_strip : ∀ d, (isoFormat d).strip = isoFormat d

/-! ## Fields -/

/-- `FieldQuality`. -/
inductive FieldQuality where
  | high
  | review
  | unresolved
  deriving DecidableEq, Repr

/-- `FieldMethod`. -/
inductive FieldMethod where
  | deterministic
  | deterministicFuzzy
  | localAi
  | unresolved
  deriving DecidableEq, Repr

/-- `PrefillField`. -/
structure PrefillField where
  value : Option PyStr := none
  sourceText : Option PyStr := none
  quality : FieldQuality := .unresolved
  method : FieldMethod := .unresolved
  ocrConfidence : Option JsonFloat := none
  deriving DecidableEq, Repr

/-- `mapper_status`. -/
inductive MapperStatus where
  | deterministic
  | localAi
  | fallback
  deriving DecidableEq, Repr

/-- `IncidentPrefill`. -/
structure IncidentPrefill where
  title : PrefillField
  service : PrefillField
  notes : PrefillField
  status : PrefillField
  triggeredAt : PrefillField
  recoveredAt : PrefillField
  triggerValue : PrefillField
  environment : PrefillField
  mapperStatus : MapperStatus
  mapperModel : Option PyStr := none
  mapperError : Option PyStr := none
  deriving DecidableEq, Repr

/-- The names of the eight fields. -/
inductive FieldName where
  | title
  | service
  | notes
  | status
  | triggeredAt
  | recoveredAt
  | triggerValue
  | environment
  deriving DecidableEq, Repr

/-- The names, in the order the program goes through them. -/
def FieldName.all : List FieldName :=
  [title, service, notes, status, triggeredAt, recoveredAt, triggerValue, environment]

lemma FieldName.mem_all (name : FieldName) : name ∈ FieldName.all := by
  cases name <;> decide

/-- The name of a field as the program writes it. -/
def FieldName.text : FieldName → PyStr
  | title => py "title"
  | service => py "service"
  | notes => py "notes"
  | status => py "status"
  | triggeredAt => py "triggered_at"
  | recoveredAt => py "recovered_at"
  | triggerValue => py "trigger_value"
  | environment => py "environment"

/-- `getattr(prefill, name)`. -/
def IncidentPrefill.get (prefill : IncidentPrefill) : FieldName → PrefillField
  | .title => prefill.title
  | .service => prefill.service
  | .notes => prefill.notes
  | .status => prefill.status
  | .triggeredAt => prefill.triggeredAt
  | .recoveredAt => prefill.recoveredAt
  | .triggerValue => prefill.triggerValue
  | .environment => prefill.environment

/-! ## Lines -/

/-- A line as the text recognition reports it: an absent text is the empty one. -/
structure OcrLine where
  text : PyStr
  confidence : Option JsonFloat
  deriving DecidableEq, Repr

/-- What the text recognition reports. -/
structure Extraction where
  lines : List OcrLine
  rawText : PyStr
  deriving DecidableEq, Repr

/-- Where a value is read off. -/
structure Source where
  text : PyStr
  confidence : Option JsonFloat
  deriving DecidableEq, Repr

/-- A line that is not blank, with its number. -/
structure Line extends Source where
  index : ℕ
  deriving DecidableEq, Repr

/-- `_lines`. -/
def lines (extraction : Extraction) : List Line :=
  if extraction.lines.isEmpty then
    ((splitLines extraction.rawText).zipIdx.filter fun p => notBlank p.1).map fun p =>
      ⟨⟨p.1, none⟩, p.2⟩
  else
    (extraction.lines.zipIdx.filter fun p => notBlank p.1.text).map fun p =>
      ⟨⟨p.1.text, p.1.confidence⟩, p.2⟩

/-- `confidence >= 0.85`. -/
def isConfident : JsonFloat → Bool
  | .finite q => decide (17 / 20 ≤ q)
  | .posInf => true
  | _ => false

/-- `_field`, with a source. -/
def field (value : PyStr) (source : Source) (method : FieldMethod := .deterministic)
    (quality : Option FieldQuality := none) : PrefillField :=
  if value.isEmpty then {} else
    { value := some value.strip
      sourceText := some source.text
      quality := quality.getD
        (if method = .deterministic ∧ source.confidence.all isConfident then .high else .review)
      method := method
      ocrConfidence := source.confidence }

/-- `_unresolved`, with a source. -/
def unresolved (source : Source) : PrefillField :=
  { sourceText := some source.text, ocrConfidence := source.confidence }

section Rules

variable (env : Env)

/-! ## Expressions -/

/-- `(…)+?`, at most `n + 1` times: as few as possible. -/
def plusLazy : ℕ → Regex → Regex
  | 0, re => re
  | n + 1, re => .alt re (.seq re (plusLazy n re))

/-- `re.match`. -/
def matchStart (re : Regex) (text : PyStr) : Option Regex.Match :=
  (Regex.run env.isWord re some (.start text)).map fun t =>
    ⟨Regex.Place.upTo (.start text) t, t.captured⟩

/-- `re.search(…) is not None`. -/
def mentions (re : Regex) (text : PyStr) : Bool := (Regex.search env.isWord re text).isSome

/-- `^\s*…\s*[:：=\-]\s*….+?…\s*$` -/
def labelledLine (label value : Regex) : Regex :=
  .concat [.many space, label, .many space, .chars (among ":：=-"), .many space, value,
    .many space, .atEnd]

/-- `.+?` in a text of length `n`. -/
def shortText (n : ℕ) : Regex := plusLazy n (.chars (· != 10))

/-- The labels of `_LABEL_RE`. -/
def labelWords : Regex :=
  .oneOf [.concat [literalI env.toEnv "alert", .many space, literalI env.toEnv "title"],
    literalI env.toEnv "title", literalI env.toEnv "alert", literalI env.toEnv "incident",
    literalI env.toEnv "service",
    .concat [literalI env.toEnv "app", .optional (literalI env.toEnv "lication")],
    literalI env.toEnv "component", literalI env.toEnv "environment", literalI env.toEnv "env",
    literalI env.toEnv "description", literalI env.toEnv "details", literalI env.toEnv "notes",
    literalI env.toEnv "triggered", literalI env.toEnv "recovered",
    .concat [literalI env.toEnv "trigger", .many space, literalI env.toEnv "value"],
    literalI env.toEnv "value", literalI env.toEnv "status", literalI env.toEnv "告警",
    literalI env.toEnv "标题", literalI env.toEnv "服务", literalI env.toEnv "应用",
    literalI env.toEnv "环境", literalI env.toEnv "描述", literalI env.toEnv "备注",
    literalI env.toEnv "触发", literalI env.toEnv "恢复"]

/-- `_LABEL_RE.match`, with its label and its value. -/
def labelMatch (text : PyStr) : Option (PyStr × PyStr) := do
  let value := shortText text.length
  -- one group a match: the label in the first, the value in the second
  let label ← matchStart env (labelledLine (.group (labelWords env)) value) text
  let value ← matchStart env (labelledLine (labelWords env) (.group value)) text
  return (label.group, value.group)

/-- `\d{1,2}` -/
def oneOrTwoDigits : Regex := .rep 1 (some 2) (digit env.toEnv)

/-- The code points between the parts of a date. -/
def dateSeparator : Regex := .chars fun c => c == 45 || c == 47

/-- The date of `_FULL_TIMESTAMP_RE`. -/
def dateRegex : Regex :=
  .concat [lit "20", .times 2 (digit env.toEnv), dateSeparator, oneOrTwoDigits env,
    dateSeparator, oneOrTwoDigits env]

/-- `_FULL_TIMESTAMP_RE` -/
def fullTimestampRegex : Regex :=
  .concat [.boundary,
    .group (.concat [dateRegex env, .chars (among " T"), oneOrTwoDigits env, lit ":",
      .times 2 (digit env.toEnv), .optional (.concat [lit ":", .times 2 (digit env.toEnv)]),
      .optional (.alt (lit "Z")
        (.concat [.chars (among "+-"), .times 2 (digit env.toEnv), .optional (lit ":"),
          .times 2 (digit env.toEnv)]))]),
    .boundary]

/-- `(?:[01]?\d|2[0-3]):[0-5]\d` -/
def clockRegex : Regex :=
  .concat [.alt (.concat [.optional (.chars (among "01")), digit env.toEnv])
      (.concat [lit "2", .chars (among "0123")]),
    lit ":", .chars (among "012345"), digit env.toEnv]

/-- `_TIME_RE` -/
def timeRegex : Regex :=
  .concat [.boundary, clockRegex env,
    .optional (.concat [lit ":", .chars (among "012345"), digit env.toEnv]), .boundary]

/-- `_TRIGGER_VALUE_RE` -/
def triggerValueRegex : Regex :=
  .concat [.boundary, .plus (digit env.toEnv),
    .optional (.concat [lit ".", .plus (digit env.toEnv)]), .optional space,
    .oneOf ((["%", "ms", "s", "K", "M", "G", "MB", "GB"]).map (literalI env.toEnv)), .boundary]

/-- `triggered|触发` -/
def triggeredRegex : Regex := .oneOf ((["triggered", "触发"]).map (literalI env.toEnv))

/-- `recovered|恢复` -/
def recoveredRegex : Regex := .oneOf ((["recovered", "恢复"]).map (literalI env.toEnv))

/-- `\b(recovered|triggered|investigating)\b|恢复|触发` -/
def statusRegex : Regex :=
  .oneOf [.concat [.boundary,
      .oneOf ((["recovered", "triggered", "investigating"]).map (literalI env.toEnv)), .boundary],
    literalI env.toEnv "恢复", literalI env.toEnv "触发"]

/-! ## Rules -/

/-- `text.replace(" ", "")`. -/
def dropSpaces (text : PyStr) : PyStr := text.filter (· != 32)

/-- `next(((match, line) for line in lines if (match := …)), None)`. -/
def firstMatch (search : PyStr → Option PyStr) (sources : List Source) :
    Option (PyStr × Source) :=
  sources.findSome? fun source => (search source.text).map fun text => (text, source)

/-- `_labelled`. -/
def labelled (sources : List Source) (labels : List PyStr) : Option (PyStr × Source) :=
  firstMatch (fun text => do
    let (label, value) ← labelMatch env text
    if dropSpaces (env.casefold label) ∈ labels.map dropSpaces then
      return value.strip
    else none) sources

/-- `_normalize_environment`. -/
def normalizeEnvironment (value : PyStr) : Option PyStr :=
  Dict.get? [(py "prod", py "production"), (py "production", py "production"),
    (py "staging", py "staging"), (py "stage", py "staging")]
    ((env.casefold value).filter fun c => 97 ≤ c && c ≤ 122)

/-- `re.sub(r"[^a-z0-9]", "", text)`. -/
def compactName (text : PyStr) : PyStr :=
  text.filter fun c => (97 ≤ c && c ≤ 122) || Triage.isAsciiDigit c

/-- The larger of two ranked candidates, the first one when they are equal. -/
def better (a b : ℚ × PyStr) : ℚ × PyStr := if a.1 < b.1 ∨ a.1 = b.1 ∧ a.2 < b.2 then b else a

/-- `max` of the ranked candidates, with the default for none. -/
def ranked (folded : PyStr) : List PyStr → ℚ × PyStr
  | [] => (0, [])
  | service :: services =>
    services.foldl (fun best candidate =>
      better best (env.ratio folded (env.casefold candidate), candidate))
      (env.ratio folded (env.casefold service), service)

/-- `_known_service`. -/
def knownService (value : PyStr) (source : Source) (knownServices : List PyStr) : PrefillField :=
  if knownServices.isEmpty then field value source else
    let folded := env.casefold value
    match knownServices.find? fun candidate => folded == env.casefold candidate with
    | some candidate => field candidate source
    | none =>
      let compact := compactName folded
      match knownServices.find? fun candidate =>
        compact == compactName (env.casefold candidate) with
      | some candidate => field candidate source .deterministicFuzzy (some .review)
      | none =>
        let best := ranked env folded knownServices
        if 9 / 10 ≤ best.1 then field best.2 source .deterministicFuzzy (some .review)
        else { sourceText := some source.text, ocrConfidence := source.confidence }

/-- The match the title is read off. -/
def titleMatch (sources : List Source) : Option (PyStr × Source) :=
  match labelled env sources
    ((["alert", "alert title", "title", "incident", "告警", "标题"]).map py) with
  | some found => some found
  | none => (sources.find? fun source =>
      decide (3 < source.text.strip.length) && (labelMatch env source.text).isNone).map
      fun source => (source.text, source)

/-- The state a line speaks of. -/
def statusOf (text : PyStr) : PyStr :=
  let lowered := env.casefold text
  if hasText (py "recovered") lowered || hasText (py "恢复") text then py "recovered"
  else if hasText (py "investigating") lowered then py "investigating"
  else py "open"

/-- `status`. -/
def statusField (sources : List Source) : PrefillField :=
  match sources.find? fun source => mentions env (statusRegex env) source.text with
  | some source => field (statusOf env source.text) source
  | none => {}

/-- `_FULL_TIMESTAMP_RE.search(text).group(1)`. -/
def fullTimestamp (text : PyStr) : Option PyStr :=
  (Regex.search env.isWord (fullTimestampRegex env) text).map Regex.Match.group

/-- `text.replace("Z", "+00:00")`. -/
def utc (text : PyStr) : PyStr := text.flatMap fun c => if c = 90 then py "+00:00" else [c]

/-- `text.replace("/", "-")`. -/
def dashed (text : PyStr) : PyStr := text.map fun c => if c = 47 then 45 else c

/-- `timestamp_match`. -/
def triggeredTimestamp (sources : List Source) : Option (PyStr × Source) :=
  match firstMatch (fullTimestamp env)
      (sources.filter fun source => mentions env (triggeredRegex env) source.text) with
  | some found => some found
  | none => firstMatch (fullTimestamp env)
      (sources.filter fun source => !mentions env (recoveredRegex env) source.text)

/-- `triggered`. -/
def triggeredField (sources : List Source) : PrefillField :=
  match triggeredTimestamp env sources with
  | some (text, source) =>
    match env.fromIsoFormat (utc (dashed text)) with
    | some d => field (env.isoFormat d) source
    | none => unresolved source
  | none =>
    match sources.find? fun source => mentions env (triggeredRegex env) source.text with
    | some source => if mentions env (timeRegex env) source.text then unresolved source else {}
    | none => {}

/-- `recovered_source`. -/
def recoveredSource (sources : List Source) : Option Source :=
  sources.find? fun source => mentions env (recoveredRegex env) source.text

/-- `recovered_match`, with its line. -/
def recoveredTimestamp (sources : List Source) : Option (PyStr × Source) := do
  let source ← recoveredSource env sources
  return (← fullTimestamp env source.text, source)

/-- `recovered`; the text of the exception is not embedded. -/
def recoveredField (sources : List Source) : Except PyError PrefillField :=
  match recoveredSource env sources with
  | none => return {}
  | some source =>
    match fullTimestamp env source.text with
    | some text =>
      -- the slashes stay as they are here, and nothing catches the exception
      match env.fromIsoFormat (utc text) with
      | some d => return field (env.isoFormat d) source
      | none => throw (.valueError [])
    | none => return unresolved source

/-- `environment`. -/
def environmentField (sources : List Source) : PrefillField :=
  match labelled env sources ((["environment", "env", "环境"]).map py) with
  | some (value, source) =>
    match normalizeEnvironment env value with
    | some normalized => field normalized source
    | none => {}
  | none => {}

/-- `_field(match[0], match[1])` for a match there is. -/
def matchField (found : Option (PyStr × Source)) (quality : Option FieldQuality := none) :
    PrefillField :=
  match found with
  | some (value, source) => field value source .deterministic quality
  | none => {}

/-- The known service of the labelled line. -/
def serviceField (sources : List Source) (knownServices : List PyStr) : PrefillField :=
  match labelled env sources
    ((["service", "app", "application", "component", "服务", "应用"]).map py) with
  | some (value, source) => knownService env value source knownServices
  | none => {}

/-- `title_quality`. -/
def titleQuality (found : Option (PyStr × Source)) : FieldQuality :=
  if found.any fun found => (labelMatch env found.2.text).isSome then .high else .review

/-- The lines of an extraction as sources. -/
def sources (extraction : Extraction) : List Source := (lines extraction).map Line.toSource

/-- `deterministic_prefill`. -/
def deterministicPrefill (extraction : Extraction) (knownServices : List PyStr) :
    Except PyError IncidentPrefill := do
  let sources := sources extraction
  let title := titleMatch env sources
  let recovered ← recoveredField env sources
  return {
    title := matchField title (some (titleQuality env title))
    service := serviceField env sources knownServices
    notes := matchField (labelled env sources
      ((["description", "details", "notes", "描述", "备注"]).map py))
    status := statusField env sources
    triggeredAt := triggeredField env sources
    recoveredAt := recovered
    triggerValue := matchField (firstMatch (fun text =>
      (Regex.search env.isWord (triggerValueRegex env) text).map Regex.Match.text) sources)
    environment := environmentField env sources
    mapperStatus := .deterministic }

end Rules

/-! ## What the rules fill in -/

section Fields

variable {value v : PyStr} {source : Source} {method : FieldMethod}
  {quality : Option FieldQuality}

/-- A field that is filled in has the value, without the blanks around it. -/
lemma field_value : (field value source method quality).value = some v →
    value ≠ [] ∧ v = value.strip := by
  intro h
  rw [field] at h
  split at h
  · cases h
  · next hne =>
    have hv : some value.strip = some v := h
    exact ⟨fun hnil => hne (by rw [hnil]; rfl), (Option.some.inj hv).symm⟩

lemma field_value_of_ne_nil (hne : value ≠ []) :
    (field value source method quality).value = some value.strip := by
  have hempty : ¬ value.isEmpty = true := by simpa using hne
  rw [field, if_neg hempty]

/-- A field names the method it was filled in by, or none. -/
lemma field_method_ne (hmethod : method ≠ .localAi) :
    (field value source method quality).method ≠ .localAi := by
  rw [field]
  split
  · decide
  · exact hmethod

/-- An empty field names no method. -/
lemma empty_method_ne : (PrefillField.method {}) ≠ .localAi := by decide

end Fields

section Services

variable {env : Env} {services : List PyStr} {source : Source}

lemma better_eq (a b : ℚ × PyStr) : better a b = a ∨ better a b = b := by
  rw [better]
  split
  · exact .inr rfl
  · exact .inl rfl

/-- The best of the ranked candidates is one of them. -/
lemma ranked_mem (folded : PyStr) (hne : services ≠ []) :
    (ranked env folded services).2 ∈ services := by
  cases services with
  | nil => exact absurd rfl hne
  | cons service services =>
    -- what is best so far is one of the candidates seen so far
    have hloop : ∀ (seen rest : List PyStr) (best : ℚ × PyStr), best.2 ∈ seen →
        (rest.foldl (fun best candidate =>
          better best (env.ratio folded (env.casefold candidate), candidate)) best).2 ∈
          seen ++ rest := by
      intro seen rest
      induction rest generalizing seen with
      | nil =>
        intro best hbest
        simpa using hbest
      | cons candidate rest ih =>
        intro best hbest
        have hstep : (better best (env.ratio folded (env.casefold candidate), candidate)).2 ∈
            seen ++ [candidate] := by
          rcases better_eq best (env.ratio folded (env.casefold candidate), candidate) with h | h
          · rw [h]
            exact List.mem_append_left _ hbest
          · rw [h]
            exact List.mem_append_right _ (List.mem_singleton_self _)
        have := ih (seen ++ [candidate]) _ hstep
        rwa [List.append_assoc] at this
    exact hloop [service] services _ (List.mem_singleton_self _)

/-- **A service that is filled in is one of the known ones.** -/
lemma knownService_value {value v : PyStr} (hne : services ≠ [])
    (hstrip : ∀ service ∈ services, service.strip = service)
    (h : (knownService env value source services).value = some v) : v ∈ services := by
  have hfield : ∀ {candidate : PyStr} {method : FieldMethod} {quality : Option FieldQuality},
      candidate ∈ services → (field candidate source method quality).value = some v →
      v ∈ services := by
    intro candidate method quality hmem hv
    rw [(field_value hv).2, hstrip candidate hmem]
    exact hmem
  have hempty : ¬ services.isEmpty = true := by simpa using hne
  rw [knownService, if_neg hempty] at h
  dsimp only at h
  split at h
  · next candidate hfind => exact hfield (List.mem_of_find?_eq_some hfind) h
  · split at h
    · next candidate hfind => exact hfield (List.mem_of_find?_eq_some hfind) h
    · split at h
      · exact hfield (ranked_mem _ hne) h
      · cases h

lemma knownService_method_ne (value : PyStr) :
    (knownService env value source services).method ≠ .localAi := by
  rw [knownService]
  dsimp only
  split
  · exact field_method_ne (by decide)
  · split
    · exact field_method_ne (by decide)
    · split
      · exact field_method_ne (by decide)
      · split
        · exact field_method_ne (by decide)
        · intro h
          cases h

end Services

section Methods

variable {env : Env} {extraction : Extraction} {services : List PyStr}
  {prefill : IncidentPrefill} {lines : List Source}

lemma matchField_method_ne (found : Option (PyStr × Source)) (quality : Option FieldQuality) :
    (matchField found quality).method ≠ .localAi := by
  unfold matchField
  split
  · exact field_method_ne (by decide)
  · exact empty_method_ne

lemma statusField_method_ne : (statusField env lines).method ≠ .localAi := by
  rw [statusField]
  split
  · exact field_method_ne (by decide)
  · exact empty_method_ne

lemma unresolved_method_ne (source : Source) : (unresolved source).method ≠ .localAi := by
  intro h
  cases h

lemma triggeredField_method_ne : (triggeredField env lines).method ≠ .localAi := by
  rw [triggeredField]
  split
  · split
    · exact field_method_ne (by decide)
    · exact unresolved_method_ne _
  · split
    · split
      · exact unresolved_method_ne _
      · exact empty_method_ne
    · exact empty_method_ne

lemma environmentField_method_ne : (environmentField env lines).method ≠ .localAi := by
  rw [environmentField]
  split
  · split
    · exact field_method_ne (by decide)
    · exact empty_method_ne
  · exact empty_method_ne

lemma recoveredField_method_ne {f : PrefillField} (h : recoveredField env lines = .ok f) :
    f.method ≠ .localAi := by
  rw [recoveredField] at h
  split at h
  · cases h
    exact empty_method_ne
  · split at h
    · split at h
      · cases h
        exact field_method_ne (by decide)
      · cases h
    · cases h
      exact unresolved_method_ne _

lemma serviceField_method_ne : (serviceField env lines services).method ≠ .localAi := by
  rw [serviceField]
  split
  · exact knownService_method_ne _
  · exact empty_method_ne

/-- How the rules return. -/
lemma deterministicPrefill_eq_ok (h : deterministicPrefill env extraction services = .ok prefill) :
    recoveredField env (sources extraction) = .ok prefill.recoveredAt ∧
      prefill.triggeredAt = triggeredField env (sources extraction) ∧
      prefill.service = serviceField env (sources extraction) services := by
  obtain ⟨recovered, hrecovered, h⟩ := Except.bind_eq_ok.mp h
  cases h
  exact ⟨hrecovered, rfl, rfl⟩

/-- **The rules do not name the model as their method.** -/
lemma deterministicPrefill_method_ne
    (h : deterministicPrefill env extraction services = .ok prefill) (name : FieldName) :
    (prefill.get name).method ≠ .localAi := by
  obtain ⟨recovered, hrecovered, h⟩ := Except.bind_eq_ok.mp h
  cases h
  cases name with
  | title => exact matchField_method_ne _ _
  | service => exact serviceField_method_ne
  | notes => exact matchField_method_ne _ _
  | status => exact statusField_method_ne
  | triggeredAt => exact triggeredField_method_ne
  | recoveredAt => exact recoveredField_method_ne hrecovered
  | triggerValue => exact matchField_method_ne _ _
  | environment => exact environmentField_method_ne

/-- **A service the rules fill in is one of the known ones.** -/
lemma deterministicPrefill_service {v : PyStr} (hne : services ≠ [])
    (hstrip : ∀ service ∈ services, service.strip = service)
    (h : deterministicPrefill env extraction services = .ok prefill)
    (hv : prefill.service.value = some v) : v ∈ services := by
  rw [(deterministicPrefill_eq_ok h).2.2, serviceField] at hv
  split at hv
  · exact knownService_value hne hstrip hv
  · cases hv

end Methods

/-! ## Timestamps -/

section Timestamps

variable {env : Env} {extraction : Extraction} {services : List PyStr}
  {prefill : IncidentPrefill} {lines : List Source} {text : PyStr} {source : Source}

/-- A field for a timestamp: its ISO form, however the parts of its date are separated, or no
value when it is no date. -/
structure ReadsTimestamp (env : Env) (text : PyStr) (f : PrefillField) : Prop where
  value_of_date : ∀ d, env.fromIsoFormat (utc (dashed text)) = some d →
    f.value = some (env.isoFormat d)
  unresolved_of_no_date : env.fromIsoFormat (utc (dashed text)) = none →
    f.value = none ∧ f.quality = .unresolved ∧ f.method = .unresolved

/-- The rules return, and both times are read off their timestamps. -/
def ReadsTimestamps (env : Env) (extraction : Extraction) (services : List PyStr) : Prop :=
  ∃ prefill, deterministicPrefill env extraction services = .ok prefill ∧
    (∀ text source, triggeredTimestamp env (sources extraction) = some (text, source) →
      ReadsTimestamp env text prefill.triggeredAt) ∧
    ∀ text source, recoveredTimestamp env (sources extraction) = some (text, source) →
      ReadsTimestamp env text prefill.recoveredAt

/-- The timestamp of the recovery, if there is one, is a date as it is written, and one with
slashes the same date as with dashes for them. -/
def RecoveryIsDate (env : Env) (extraction : Extraction) : Prop :=
  ∀ text source, recoveredTimestamp env (sources extraction) = some (text, source) →
    ∃ d, env.fromIsoFormat (utc text) = some d ∧
      (47 ∈ text → ∃ d', env.fromIsoFormat (utc (dashed text)) = some d' ∧
        env.isoFormat d' = env.isoFormat d)

lemma dashed_eq (h : 47 ∉ text) : dashed text = text := by
  have hall : ∀ c ∈ text, (if c = 47 then 45 else c) = c := by
    intro c hc
    have hne : c ≠ 47 := by
      intro heq
      exact h (heq ▸ hc)
    exact if_neg hne
  exact (List.map_congr_left hall).trans (List.map_id text)

lemma field_isoFormat_value (d : Triage.Datetime) :
    (field (env.isoFormat d) source).value = some (env.isoFormat d) := by
  rw [field_value_of_ne_nil (env.isoFormat_ne_nil d), env.isoFormat_strip d]

/-- The trigger is read off its timestamp. -/
lemma triggeredField_reads (h : triggeredTimestamp env lines = some (text, source)) :
    ReadsTimestamp env text (triggeredField env lines) := by
  rw [triggeredField, h]
  dsimp only
  constructor
  · intro d hd
    rw [hd]
    exact field_isoFormat_value d
  · intro hnone
    rw [hnone]
    exact ⟨rfl, rfl, rfl⟩

/-- The line and the text of the timestamp of the recovery. -/
lemma recoveredTimestamp_eq_some (h : recoveredTimestamp env lines = some (text, source)) :
    recoveredSource env lines = some source ∧ fullTimestamp env source.text = some text := by
  obtain ⟨s, hs, h⟩ := Option.bind_eq_some_iff.mp h
  obtain ⟨t, ht, h⟩ := Option.bind_eq_some_iff.mp h
  cases h
  exact ⟨hs, ht⟩

/-- The recovery is read when its timestamp is a date as it is written. -/
lemma recoveredField_of_date {d : Triage.Datetime}
    (h : recoveredTimestamp env lines = some (text, source))
    (hd : env.fromIsoFormat (utc text) = some d) :
    recoveredField env lines = .ok (field (env.isoFormat d) source) := by
  obtain ⟨hsource, htext⟩ := recoveredTimestamp_eq_some h
  rw [recoveredField, hsource]
  dsimp only
  rw [htext]
  dsimp only
  rw [hd]
  rfl

/-- And it raises when its timestamp is none. -/
lemma recoveredField_of_no_date (h : recoveredTimestamp env lines = some (text, source))
    (hd : env.fromIsoFormat (utc text) = none) :
    recoveredField env lines = .error (.valueError []) := by
  obtain ⟨hsource, htext⟩ := recoveredTimestamp_eq_some h
  rw [recoveredField, hsource]
  dsimp only
  rw [htext]
  dsimp only
  rw [hd]
  rfl

/-- Without a timestamp of the recovery nothing raises. -/
lemma exists_recoveredField (h : recoveredTimestamp env lines = none) :
    ∃ f, recoveredField env lines = .ok f := by
  cases hsource : recoveredSource env lines with
  | none => exact ⟨{}, by rw [recoveredField, hsource]; rfl⟩
  | some source =>
    have htext : fullTimestamp env source.text = none := by
      cases htext : fullTimestamp env source.text with
      | none => rfl
      | some text =>
        rw [recoveredTimestamp, hsource] at h
        simp [htext] at h
    refine ⟨unresolved source, ?_⟩
    rw [recoveredField, hsource]
    dsimp only
    rw [htext]
    rfl

/-- The rules return when the recovery is read. -/
lemma exists_deterministicPrefill {f : PrefillField}
    (h : recoveredField env (sources extraction) = .ok f) :
    ∃ prefill, deterministicPrefill env extraction services = .ok prefill := by
  rw [deterministicPrefill, h]
  exact ⟨_, rfl⟩

/-- **The rules return, and read both times alike, exactly when the timestamp of the recovery is
a date as it is written.** -/
theorem deterministicPrefill_total_iff (env : Env) (extraction : Extraction)
    (services : List PyStr) :
    ReadsTimestamps env extraction services ↔ RecoveryIsDate env extraction := by
  constructor
  · rintro ⟨prefill, hprefill, -, hrecovered⟩ text source hts
    have hreads := hrecovered text source hts
    obtain ⟨hfield, -, -⟩ := deterministicPrefill_eq_ok hprefill
    cases hd : env.fromIsoFormat (utc text) with
    | none =>
      -- the exception would have left the rules
      rw [recoveredField_of_no_date hts hd] at hfield
      cases hfield
    | some d =>
      rw [recoveredField_of_date hts hd] at hfield
      have hvalue : prefill.recoveredAt.value = some (env.isoFormat d) := by
        rw [← Except.ok.inj hfield]
        exact field_isoFormat_value d
      refine ⟨d, rfl, fun _ => ?_⟩
      cases hd' : env.fromIsoFormat (utc (dashed text)) with
      | none =>
        rw [(hreads.unresolved_of_no_date hd').1] at hvalue
        cases hvalue
      | some d' =>
        have hvalue' := hreads.value_of_date d' hd'
        exact ⟨d', rfl, Option.some.inj (hvalue'.symm.trans hvalue)⟩
  · intro hdate
    have htriggered : ∀ {prefill : IncidentPrefill},
        deterministicPrefill env extraction services = .ok prefill →
        ∀ text source, triggeredTimestamp env (sources extraction) = some (text, source) →
          ReadsTimestamp env text prefill.triggeredAt := by
      intro prefill hprefill text source hts
      rw [(deterministicPrefill_eq_ok hprefill).2.1]
      exact triggeredField_reads hts
    cases hts : recoveredTimestamp env (sources extraction) with
    | none =>
      obtain ⟨f, hf⟩ := exists_recoveredField hts
      obtain ⟨prefill, hprefill⟩ := @exists_deterministicPrefill env extraction services f hf
      refine ⟨prefill, hprefill, htriggered hprefill, fun text source h => ?_⟩
      rw [hts] at h
      cases h
    | some found =>
      obtain ⟨text, source⟩ := found
      obtain ⟨d, hd, hslash⟩ := hdate text source hts
      have hfield := recoveredField_of_date hts hd
      obtain ⟨prefill, hprefill⟩ := @exists_deterministicPrefill env extraction services _ hfield
      refine ⟨prefill, hprefill, htriggered hprefill, fun text' source' h => ?_⟩
      rw [hts] at h
      cases h
      have hrecovered : prefill.recoveredAt = field (env.isoFormat d) source := by
        rw [(deterministicPrefill_eq_ok hprefill).1] at hfield
        exact Except.ok.inj hfield
      -- with the slashes replaced the text is still a date, and the same one
      obtain ⟨d', hd', hiso⟩ : ∃ d', env.fromIsoFormat (utc (dashed text)) = some d' ∧
          env.isoFormat d' = env.isoFormat d := by
        by_cases h47 : 47 ∈ text
        · exact hslash h47
        · exact ⟨d, by rw [dashed_eq h47, hd], rfl⟩
      constructor
      · intro d'' hd''
        rw [hd'] at hd''
        cases hd''
        rw [hrecovered, hiso]
        exact field_isoFormat_value d
      · intro hnone
        rw [hnone] at hd'
        cases hd'

/-- The library on ASCII texts, and one time. -/
def asciiEnv : Env where
  repr := fun _ => []
  parseInt := fun _ => none
  floatComma := fun _ => []
  sha256Hex := fun _ => []
  jsonLoads := fun _ => .error Triage.jsonDecodeError
  jsonDumps := fun _ => []
  casefold := fun text => text.map fun c => if 65 ≤ c ∧ c ≤ 90 then c + 32 else c
  upper := fun text => text.map fun c => if 97 ≤ c ∧ c ≤ 122 then c - 32 else c
  isWord := fun c => Triage.isAsciiLetter c || Triage.isAsciiDigit c || c == 95
  isDigit := Triage.isAsciiDigit
  caseVariants := fun c =>
    if 65 ≤ c ∧ c ≤ 90 then [c + 32] else if 97 ≤ c ∧ c ≤ 122 then [c - 32] else []
  setOrder := List.eraseDups
  setOrder_perm := Triage.firstOccurrences_perm
  fromIsoFormat := fun text =>
    if text = py "2026-09-15 01:00" then some ⟨1789434000000000, none⟩ else none
  isoFormat := fun _ => py "2026-09-15T01:00:00"
  ratio := fun a b => if a = b then 1 else 0
  isoFormat_ne_nil := by
    intro d
    decide
  isoFormat_strip := by
    intro d
    decide

/-- A screenshot whose line says when the incident was over, with slashes in the date. -/
def slashedRecovery : Extraction := ⟨[⟨py "Recovered: 2026/09/15 01:00", none⟩], []⟩

/-- The rules raise on it. -/
theorem slashedRecovery_raises : ¬ ReadsTimestamps asciiEnv slashedRecovery [] := by
  rintro ⟨prefill, hprefill, -⟩
  have hraises : (recoveredField asciiEnv (sources slashedRecovery)).toOption = none := by
    rfl
  rw [(deterministicPrefill_eq_ok hprefill).1] at hraises
  cases hraises

end Timestamps

end Prefill
