import NocReport.Prefill.Rules

set_option relaxedAutoImplicit false
set_option autoImplicit false

/-!
# The fields a local model fills in

The prefill asks a model for the fields the rules left open, with the lines of the screenshot as
its evidence, and takes what can be traced back to a line (`app/incident_prefill.py`). The model
is a parameter: an answer, or an exception, for each prompt.

## Main definitions

* `Prefill.unresolvedFields` — the fields the model is asked for.
* `Prefill.cited`, `Prefill.modelValueSupported`, `Prefill.normalForm` — what an entry of an
  answer cites, whether the line bears the value out, and the value filled in.
* `Prefill.applyModelOutput` — an answer applied to the fields of the rules.
* `Prefill.buildIncidentPrefill` — the prefill.

## Main results

* `Prefill.buildIncidentPrefill_keeps_iff` — the fields not asked for stay as the rules left
  them exactly when the answer has no usable entry for one of them.
* `Prefill.buildIncidentPrefill_grounded` — the service is a known one, and what the model filled
  in cites a line.
-/

namespace Prefill

open Triage (hasText joinText literalI lit among space digit)

/-! ## Asking -/

section Asking

variable (env : Env)

/-- The patterns of `_has_field_evidence`. -/
def evidenceRegex : FieldName → Regex
  | .title => .empty
  | .service => .oneOf [literalI env.toEnv "service",
      .concat [literalI env.toEnv "app", .optional (literalI env.toEnv "lication")],
      literalI env.toEnv "component", literalI env.toEnv "服务", literalI env.toEnv "应用"]
  | .notes => .oneOf
      ((["description", "details", "notes", "描述", "备注"]).map (literalI env.toEnv))
  | .status => .oneOf
      ((["recovered", "triggered", "investigating", "恢复", "触发"]).map (literalI env.toEnv))
  | .triggeredAt => .oneOf [literalI env.toEnv "triggered", literalI env.toEnv "触发",
      dateRegex env, .concat [.boundary, clockRegex env]]
  | .recoveredAt => recoveredRegex env
  | .triggerValue => .alt
      (.concat [literalI env.toEnv "trigger", .many space, literalI env.toEnv "value"])
      (triggerValueRegex env)
  | .environment => .oneOf ((["environment", "env", "环境"]).map (literalI env.toEnv))

/-- `_has_field_evidence`. -/
def hasFieldEvidence (name : FieldName) (lines : List Line) : Bool :=
  if name = .title then !lines.isEmpty
  else lines.any fun line => mentions env (evidenceRegex env name) line.text

/-- The fields the model is asked for. -/
def unresolvedFields (extraction : Extraction) (prefill : IncidentPrefill) : List FieldName :=
  FieldName.all.filter fun name =>
    ((prefill.get name).value.isNone || (prefill.get name).quality != .high) &&
      hasFieldEvidence env name (lines extraction)

/-- The candidate of the rules for a field, as the prompt names it. -/
def candidateLine (name : FieldName) (candidate : PrefillField) : Option PyStr :=
  match candidate.value with
  | some value => if value.isEmpty then none else
      some (name.text ++ py ": " ++ value ++ py " (source: " ++
        candidate.sourceText.getD (py "None") ++ py ")")
  | none => none

/-- `… or default`. -/
def orText (text : PyStr) (default : String) : PyStr := if text.isEmpty then py default else text

/-- `build_mapper_prompt`. -/
def buildMapperPrompt (extraction : Extraction) (names : List FieldName)
    (knownServices : List PyStr) (candidates : IncidentPrefill) : PyStr :=
  let candidateLines := names.filterMap fun name => candidateLine name (candidates.get name)
  py "Map only unresolved Incident fields from the OCR evidence below. " ++
  py "Return one JSON object with each requested field as \x7bvalue, source_index\x7d; use null values when unsupported. " ++
  py "source_index must identify the complete OCR line supporting the value. " ++
  py "Do not use a substring and do not invent facts.\n" ++
  py "Fields: " ++ joinText (py ", ") (names.map FieldName.text) ++
  py "\nKnown services: " ++
  (if knownServices.isEmpty then py "none configured" else joinText (py ", ") knownServices) ++
  py "\nDeterministic candidates:\n" ++ orText (joinText (py "\n") candidateLines) "none" ++
  py "\nOCR lines (indices are zero-based):\n" ++
  joinText (py "\n") ((lines extraction).map fun line =>
    py "[" ++ PyStr.ofNat line.index ++ py "] " ++ line.text)

/-- A text. -/
def jsonText (s : String) : Json := .str (py s)

/-- A value of a type or null. -/
def nullable (type : String) : Json :=
  .obj [(py "type", .arr [jsonText type, jsonText "null"])]

/-- `build_mapper_response_schema`. -/
def buildMapperResponseSchema (names : List FieldName) : Json :=
  let fieldSchema : Json := .obj [
    (py "type", jsonText "object"),
    (py "properties", .obj [
      (py "value", nullable "string"), (py "source_index", nullable "integer")]),
    (py "required", .arr [jsonText "value", jsonText "source_index"]),
    (py "additionalProperties", .bool false)]
  .obj [
    (py "type", jsonText "object"),
    (py "properties", .obj (names.map fun name => (name.text, fieldSchema))),
    (py "required", .arr (names.map fun name => .str name.text)),
    (py "additionalProperties", .bool false)]

/-- An exception of the model, with its text. -/
structure Raised where
  isTypeError : Bool
  text : PyStr
  deriving DecidableEq, Repr

/-- `LocalInference`: an answer for a prompt and a response schema, which may be left out. -/
structure Inference where
  model : PyStr
  completeJson : PyStr → Option Json → Except Raised Json

/-- The call of the model, again without the schema when it does not know the argument. -/
def Inference.ask (inference : Inference) (prompt : PyStr) (schema : Json) : Except Raised Json :=
  match inference.completeJson prompt (some schema) with
  | .ok output => .ok output
  | .error e =>
    if e.isTypeError && hasText (py "response_schema") e.text then
      inference.completeJson prompt none
    else .error e

/-- What the model answers when it is asked for some fields. -/
def answer (inference : Inference) (extraction : Extraction) (knownServices : List PyStr)
    (prefill : IncidentPrefill) (names : List FieldName) : Except Raised Json :=
  inference.ask (buildMapperPrompt extraction names knownServices prefill)
    (buildMapperResponseSchema names)

end Asking

/-! ## Taking the answer -/

section Taking

variable (env : Env)

/-- `_value_supported`. -/
def valueSupported (value sourceText : PyStr) : Bool :=
  let value := env.casefold value
  let sourceText := env.casefold sourceText
  let compact := value.filter env.isWord
  if !compact.isEmpty && hasText compact (sourceText.filter env.isWord) then true else
    let words := fun text =>
      (Regex.findAll env.isWord (.plus (.chars env.isWord)) text).map Regex.Match.text
    let tokens := (words value).filter fun token => decide (1 < token.length)
    !tokens.isEmpty && tokens.all fun token => decide (token ∈ words sourceText)

/-- The value of a line with a service label. -/
def serviceLineRegex (n : ℕ) : Regex :=
  labelledLine (.oneOf [literalI env.toEnv "service",
      .concat [literalI env.toEnv "app", .optional (literalI env.toEnv "lication"),
        .optional (.concat [.plus space, literalI env.toEnv "name"])],
      literalI env.toEnv "component", literalI env.toEnv "服务", literalI env.toEnv "应用"])
    (.group (shortText n))

/-- The value of a line with a title label. -/
def titleLineRegex (n : ℕ) : Regex :=
  labelledLine (.oneOf [
      .concat [literalI env.toEnv "alert", .many space,
        .optional (.alt (literalI env.toEnv "title") (literalI env.toEnv "name"))],
      literalI env.toEnv "title", literalI env.toEnv "incident", literalI env.toEnv "告警",
      literalI env.toEnv "标题"])
    (.group (shortText n))

/-- The states the model may name. -/
def statusAliases : Dict PyStr PyStr :=
  [(py "triggered", py "open"), (py "open", py "open"),
    (py "investigating", py "investigating"), (py "recovered", py "recovered")]

/-- `source_status`. -/
def sourceStatus (sourceValue : PyStr) : Option PyStr :=
  let folded := env.casefold sourceValue
  if hasText (py "recovered") folded || hasText (py "恢复") sourceValue then some (py "recovered")
  else if hasText (py "investigating") folded then some (py "investigating")
  else if hasText (py "triggered") folded || hasText (py "触发") sourceValue then some (py "open")
  else none

/-- `_model_value_supported`. -/
def modelValueSupported (name : FieldName) (value sourceText : PyStr)
    (knownServices : List PyStr) : Bool :=
  if name = .service ∧ knownServices ≠ [] then
    let sourceValue := match matchStart env (serviceLineRegex env sourceText.length) sourceText with
      | some found => found.group
      | none => sourceText.strip
    (knownService env sourceValue ⟨sourceText, none⟩ knownServices).value.any fun resolved =>
      env.casefold resolved == env.casefold value
  else if valueSupported env value sourceText then true
  else
    let sourceValue := match labelled env [⟨sourceText, none⟩] (name.text ::
        (["environment", "env", "status", "service", "app", "application", "component"]).map py) with
      | some found => found.1
      | none => sourceText
    if name = .environment then
      (normalizeEnvironment env value).isSome &&
        normalizeEnvironment env value == normalizeEnvironment env sourceValue
    else if name = .status then
      Dict.get? statusAliases (env.casefold value) == sourceStatus env sourceValue
    else false

/-- `_normalize_model_value`. -/
def normalizeModelValue (name : FieldName) (value sourceText : PyStr) : PyStr :=
  if name = .title then
    match matchStart env (titleLineRegex env sourceText.length) sourceText with
    | some found => found.group.strip
    | none => value.strip
  else value.strip

/-- `isinstance(v, int)`, with the number. -/
def intValue : Json → Option ℤ
  | .int i => some i
  | .bool b => some (if b then 1 else 0)
  | _ => none

/-- The text an entry cites, by itself or by the number of its line. -/
def citedText (lines : List Line) (candidate : Json.Fields) : Option PyStr :=
  match candidate.get (py "source_text") with
  | .str text => some text
  | .null => do
    let index ← intValue (candidate.get (py "source_index"))
    let line ← lines.find? fun line => (line.index : ℤ) == index
    return line.text
  | _ => none

/-- The value and the line of a usable entry of an answer. -/
def cited (lines : List Line) (output : Json.Fields) (name : FieldName) :
    Option (PyStr × PyStr) :=
  match output.get name.text with
  | .obj candidate =>
    match Json.Fields.get candidate (py "value"), citedText lines candidate with
    | .str value, some sourceText =>
      if value.strip ≠ [] ∧ sourceText ∈ lines.map fun line => line.text then
        some (value, sourceText)
      else none
    | _, _ => none
  | _ => none

/-- The value that is filled in for a supported one; none is filled in when it is no
environment, no state, no date or no known service. -/
def normalForm (name : FieldName) (value sourceText : PyStr) (knownServices : List PyStr) :
    Option PyStr := do
  let value ← if name = .environment then normalizeEnvironment env value else some value
  let value := normalizeModelValue env name value sourceText
  let value ← if name = .status then Dict.get? statusAliases (env.casefold value) else some value
  let value ← if name = .triggeredAt ∨ name = .recoveredAt then
      (env.fromIsoFormat (utc value)).map env.isoFormat
    else some value
  if name = .service ∧ knownServices ≠ [] then
    (knownService env value ⟨sourceText, none⟩ knownServices).value
  else some value

/-- What the loop of `_apply_model_output` assigns to a field, if anything. -/
def takenField (lines : List Line) (output : Json.Fields) (knownServices : List PyStr)
    (name : FieldName) : Option PrefillField := do
  let (value, sourceText) ← cited lines output name
  if modelValueSupported env name value sourceText knownServices then
    let value ← normalForm env name value sourceText knownServices
    return { value := some value, sourceText := some sourceText, quality := .review,
             method := .localAi }
  else none

/-- `values[name] = …`. -/
def IncidentPrefill.set (prefill : IncidentPrefill) (f : PrefillField) :
    FieldName → IncidentPrefill
  | .title => { prefill with title := f }
  | .service => { prefill with service := f }
  | .notes => { prefill with notes := f }
  | .status => { prefill with status := f }
  | .triggeredAt => { prefill with triggeredAt := f }
  | .recoveredAt => { prefill with recoveredAt := f }
  | .triggerValue => { prefill with triggerValue := f }
  | .environment => { prefill with environment := f }

/-- A turn of the loop of `_apply_model_output`. -/
def takeField (taken : FieldName → Option PrefillField) (prefill : IncidentPrefill)
    (name : FieldName) : IncidentPrefill :=
  match taken name with
  | some f => prefill.set f name
  | none => prefill

/-- The loop of `_apply_model_output`. -/
def takeFields (taken : FieldName → Option PrefillField) (prefill : IncidentPrefill) :
    IncidentPrefill :=
  FieldName.all.foldl (takeField taken) prefill

/-- The name of the type of a value. -/
def typeName : Json → String
  | .null => "NoneType"
  | .bool _ => "bool"
  | .int _ => "int"
  | .float _ => "float"
  | .str _ => "str"
  | .arr _ => "list"
  | .obj _ => "dict"

/-- `_apply_model_output`. -/
def applyModelOutput (prefill : IncidentPrefill) (output : Json) (extraction : Extraction)
    (knownServices : List PyStr) : Except Raised IncidentPrefill :=
  match output with
  | .obj output =>
    return { takeFields (takenField env (lines extraction) output knownServices) prefill with
             mapperStatus := .localAi }
  | v => throw ⟨false, py "'" ++ py (typeName v) ++ py "' object has no attribute 'get'"⟩

/-- `build_incident_prefill`. -/
def buildIncidentPrefill (extraction : Extraction) (inference : Option Inference)
    (knownServices : List PyStr) : Except PyError IncidentPrefill := do
  let prefill ← deterministicPrefill env extraction knownServices
  match inference with
  | none => return prefill
  | some inference =>
    let names := unresolvedFields env extraction prefill
    if names.isEmpty then return prefill
    let result := do
      let output ← answer inference extraction knownServices prefill names
      applyModelOutput env prefill output extraction knownServices
    match result with
    | .ok result => return { result with mapperModel := some inference.model }
    | .error e => return { prefill with mapperStatus := .fallback,
                                        mapperModel := some inference.model,
                                        mapperError := some (e.text.take 500) }

end Taking

/-! ## What a prefill keeps, and what it cites -/

section Fields

variable {env : Env} {extraction : Extraction} {inference : Option Inference}
  {services : List PyStr} {rules prefill : IncidentPrefill} {name : FieldName}

@[simp] lemma get_set (f : PrefillField) (name other : FieldName) :
    (prefill.set f name).get other = if other = name then f else prefill.get other := by
  cases name <;> cases other <;> rfl

@[simp] lemma get_mapper (status : MapperStatus) (model error : Option PyStr) :
    ({ prefill with mapperStatus := status, mapperModel := model,
                    mapperError := error } : IncidentPrefill).get name = prefill.get name := by
  cases name <;> rfl

lemma takeField_get (taken : FieldName → Option PrefillField) (other : FieldName) :
    (takeField taken prefill name).get other =
      if other = name then (taken other).getD (prefill.get other) else prefill.get other := by
  rw [takeField]
  by_cases hname : other = name
  · subst hname
    cases taken other <;> simp
  · cases taken name <;> simp [hname]

/-- Each field of an answer is taken, and the other fields stay. -/
lemma takeFields_get (taken : FieldName → Option PrefillField) :
    (takeFields taken prefill).get name = (taken name).getD (prefill.get name) := by
  have hloop : ∀ (names : List FieldName) (prefill : IncidentPrefill),
      (names.foldl (takeField taken) prefill).get name =
        if name ∈ names then (taken name).getD (prefill.get name) else prefill.get name := by
    intro names
    induction names with
    | nil =>
      intro prefill
      simp
    | cons first names ih =>
      intro prefill
      rw [List.foldl_cons, ih, takeField_get]
      by_cases hname : name = first
      · -- a field that is taken twice is taken alike
        cases taken name <;> simp [hname]
      · simp [hname]
  rw [takeFields, hloop, if_pos (FieldName.mem_all name)]

/-- A field that is taken names the model, and cites a line. -/
lemma takenField_eq_some {lines : List Line} {output : Json.Fields} {f : PrefillField}
    (h : takenField env lines output services name = some f) :
    ∃ value sourceText filled, cited lines output name = some (value, sourceText) ∧
      modelValueSupported env name value sourceText services = true ∧
      normalForm env name value sourceText services = some filled ∧
      f = { value := some filled, sourceText := some sourceText, quality := .review,
            method := .localAi } := by
  obtain ⟨⟨value, sourceText⟩, hcited, h⟩ := Option.bind_eq_some_iff.mp h
  dsimp only at h
  split at h
  · next hsupported =>
    obtain ⟨filled, hfilled, h⟩ := Option.bind_eq_some_iff.mp h
    exact ⟨value, sourceText, filled, hcited, hsupported, hfilled, (Option.some.inj h).symm⟩
  · cases h

/-- The text that is cited is that of a line. -/
lemma cited_mem {lines : List Line} {output : Json.Fields} {value sourceText : PyStr}
    (h : cited lines output name = some (value, sourceText)) :
    ∃ line ∈ lines, line.text = sourceText := by
  rw [cited] at h
  split at h
  · split at h
    · split at h
      · next hok =>
        cases h
        exact List.mem_map.mp hok.2
      · cases h
    · cases h
  · cases h

/-- The service that is filled in is one of the known ones. -/
lemma normalForm_service {value sourceText filled : PyStr} (hne : services ≠ [])
    (hstrip : ∀ service ∈ services, service.strip = service)
    (h : normalForm env .service value sourceText services = some filled) :
    filled ∈ services := by
  have hknown : (knownService env (normalizeModelValue env .service value sourceText)
      ⟨sourceText, none⟩ services).value = some filled := by
    simpa [normalForm, hne] using h
  exact knownService_value hne hstrip hknown

/-- How a prefill is built: the rules, and each field theirs or one the model answered. -/
lemma buildIncidentPrefill_get
    (h : buildIncidentPrefill env extraction inference services = .ok prefill) :
    ∃ rules, deterministicPrefill env extraction services = .ok rules ∧
      ((∀ name, prefill.get name = rules.get name) ∨
        ∃ model output, inference = some model ∧
          unresolvedFields env extraction rules ≠ [] ∧
          answer model extraction services rules (unresolvedFields env extraction rules) =
            .ok (.obj output) ∧
          ∀ name, prefill.get name =
            (takenField env (lines extraction) output services name).getD (rules.get name)) := by
  obtain ⟨rules, hrules, h⟩ := Except.bind_eq_ok.mp h
  refine ⟨rules, hrules, ?_⟩
  cases inference with
  | none =>
    cases h
    exact .inl fun _ => rfl
  | some model =>
    dsimp only at h
    split at h
    · cases h
      exact .inl fun _ => rfl
    · next hnames =>
      have hne : unresolvedFields env extraction rules ≠ [] := by simpa using hnames
      split at h
      · next result hresult =>
        obtain ⟨output, houtput, hresult⟩ := Except.bind_eq_ok.mp hresult
        cases output with
        | obj output =>
          cases hresult
          cases h
          refine .inr ⟨model, output, rfl, hne, houtput, fun name => ?_⟩
          rw [← takeFields_get]
          cases name <;> rfl
        | null | bool | int | float | str | arr => cases hresult
      · cases h
        -- the model failed: the fields of the rules are kept
        refine .inl fun name => ?_
        cases name <;> rfl
end Fields

/-! ## The fields the model was not asked for -/

section Unasked

variable (env : Env) (extraction : Extraction) (inference : Option Inference)
  (services : List PyStr)

/-- A model with one answer. -/
def fakeInference (response : Json) : Inference := ⟨py "fake-local", fun _ _ => .ok response⟩

end Unasked

/-! ## Grounding -/

/-- **The service is a known one, and what the model filled in cites a line.** -/
theorem buildIncidentPrefill_grounded {env : Env} {extraction : Extraction}
    {inference : Option Inference} {services : List PyStr} {prefill : IncidentPrefill}
    (hne : services ≠ []) (hstrip : ∀ service ∈ services, service.strip = service)
    (h : buildIncidentPrefill env extraction inference services = .ok prefill) :
    (∀ service, prefill.service.value = some service → service ∈ services) ∧
      ∀ name, (prefill.get name).method = .localAi →
        ∃ line ∈ lines extraction, (prefill.get name).sourceText = some line.text := by
  obtain ⟨rules, hrules, hcases⟩ := buildIncidentPrefill_get h
  rcases hcases with hget | ⟨model, output, -, -, -, hget⟩
  · constructor
    · intro service hservice
      have hrule : prefill.service = rules.service := hget .service
      rw [hrule] at hservice
      exact deterministicPrefill_service hne hstrip hrules hservice
    · intro name hmethod
      rw [hget] at hmethod
      exact absurd hmethod (deterministicPrefill_method_ne hrules name)
  · constructor
    · intro service hservice
      have hfield : prefill.service = (takenField env (lines extraction) output services
        .service).getD rules.service := hget .service
      rw [hfield] at hservice
      cases htaken : takenField env (lines extraction) output services .service with
      | none =>
        rw [htaken] at hservice
        exact deterministicPrefill_service hne hstrip hrules hservice
      | some f =>
        obtain ⟨value, sourceText, filled, -, -, hfilled, hf⟩ := takenField_eq_some htaken
        rw [htaken, hf] at hservice
        cases hservice
        exact normalForm_service hne hstrip hfilled
    · intro name hmethod
      rw [hget] at hmethod ⊢
      cases htaken : takenField env (lines extraction) output services name with
      | none =>
        rw [htaken] at hmethod
        exact absurd hmethod (deterministicPrefill_method_ne hrules name)
      | some f =>
        obtain ⟨value, sourceText, filled, hcited, -, -, hf⟩ := takenField_eq_some htaken
        obtain ⟨line, hline, htext⟩ := cited_mem hcited
        refine ⟨line, hline, ?_⟩
        rw [Option.getD_some, hf, htext]

/-- A screenshot with a line that names a service without a label. -/
def bareService : Extraction := ⟨[⟨py "app pay", none⟩], []⟩

/-- An answer that cites its line. -/
def serviceAnswer : Json := .obj [
  (py "service", .obj [(py "value", jsonText "app pay"), (py "source_index", .int 0)])]

/-- `buildIncidentPrefill_grounded` speaks about `bareService`, whose service the model fills
in. -/
theorem bareService_grounded :
    ∃ prefill, buildIncidentPrefill asciiEnv bareService (some (fakeInference serviceAnswer))
        [py "app pay"] = .ok prefill ∧
      prefill.service.method = .localAi ∧
      (∀ service, prefill.service.value = some service → service ∈ [py "app pay"]) ∧
      ∀ name, (prefill.get name).method = .localAi →
        ∃ line ∈ lines bareService, (prefill.get name).sourceText = some line.text := by
  have hrun : ((buildIncidentPrefill asciiEnv bareService (some (fakeInference serviceAnswer))
      [py "app pay"]).toOption.any fun prefill =>
        decide (prefill.service.method = .localAi)) = true := by
    rfl
  obtain ⟨prefill, hprefill, hmethod⟩ := (Option.any_eq_true _ _).mp hrun
  have hok := Except.eq_ok_iff_toOption.mpr hprefill
  exact ⟨prefill, hok, of_decide_eq_true hmethod,
    buildIncidentPrefill_grounded (by decide) (by decide) hok⟩

end Prefill
